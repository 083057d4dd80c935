import KkProxy.Coro.Changes

set_option autoImplicit false

namespace KkProxy.Coro

namespace State

variable {α : Type}

structure Numbered (s : State α) : Prop where
  fresh : ∀ h, s.frameCount ≤ h → s.frames h = .fresh
  callers : ∀ h g, (s.frames h).caller = some g → (s.frames g).phase ≠ .created
  handles : ∀ t g, (s.tasks t).handle = some g → g < s.frameCount
  launching : ∀ who g, .launching who g ∈ s.stack → g < s.frameCount
  unborn : ∀ t, s.taskCount ≤ t → (s.tasks t).alive = false

theorem init_numbered : (init : State α).Numbered where
  fresh _ _ := rfl
  callers h g called := by simp [init, Frame.fresh] at called
  handles t g holds := by simp [init] at holds
  launching who g member := by simp [init] at member
  unborn _ _ := rfl

theorem Numbered.started {s : State α} (numbered : s.Numbered) {g : Handle}
    (started : (s.frames g).phase ≠ .created) : g < s.frameCount := by
  by_contra beyond
  exact started (by rw [numbered.fresh g (Nat.not_lt.mp beyond)]; rfl)

theorem step_frameCount {s next : State α} {a : Action α} (taken : s.step a = some next) :
    s.frameCount ≤ next.frameCount := by
  cases (step_effect taken).2 with
  | create => exact Nat.le_succ _
  | awaitReady f rest kind t => exact Nat.le_of_eq (transform_frameCount s kind t).symm
  | awaitDaemon f rest kind t => exact Nat.le_of_eq (transform_frameCount s kind t).symm
  | awaitStart f rest kind t => exact Nat.le_of_eq (transform_frameCount s kind t).symm
  | finishDestroy f rest result =>
    exact Nat.le_of_eq (taskFinish_frameCount (s.conclude f result) (s.frames f).context).symm
  | _ => exact Nat.le_refl _

theorem Numbered.step_fresh {s next : State α} {a : Action α} (numbered : s.Numbered)
    (stacked : s.Stacked) (taken : s.step a = some next) {h : Handle}
    (beyond : s.frameCount ≤ h) : next.frames h = .fresh := by
  rw [← numbered.fresh h beyond]
  have older : ∀ g, g < s.frameCount → h ≠ g := fun g bound =>
    Nat.ne_of_gt (Nat.lt_of_lt_of_le bound beyond)
  have top : ∀ f rest, s.stack = .body (some f) :: rest → h ≠ f := fun f rest top =>
    older f (numbered.started (by simp [stacked.top top]))
  cases (step_effect taken).2 with
  | assign who rest dst src g _ _ _ _ holds =>
    exact teardown_other (older g (numbered.handles dst g holds))
  | start a who rest c daemon t g below received _ alive holds =>
    have other := older g (numbered.handles t g holds)
    rw [run_other other, starting_other other]
  | awaitReady f rest kind t g top' =>
    rw [receive_other (top f rest top'), transform_frames]
  | awaitDaemon f rest kind t g top' alive holds =>
    rw [suspendOn_other (top f rest top') (older g (numbered.handles t g holds)), transform_frames]
  | awaitStart f rest kind t g received top' alive holds =>
    have other := older g (numbered.handles t g holds)
    rw [run_other other, suspendOn_other (top f rest top') other, transform_frames]
  | submit f rest c top' => exact submitTo_other (top f rest top')
  | finishCaller f rest result caller received top' called =>
    rw [run_other (older caller (numbered.started (numbered.callers f caller called))),
      conclude_other (top f rest top')]
  | finishDaemon f rest result top' => exact conclude_other (top f rest top')
  | finishDestroy f rest result top' =>
    have other := top f rest top'
    rw [teardown_other other, taskFinish_frames, conclude_other other]
  | unwind t tasks pending rest g _ alive holds =>
    exact teardown_other (older g (numbered.handles t g holds))
  | complete c rest res op received _ submitted waiting =>
    exact run_other (older op.frame (numbered.started (by simp [waiting])))
  | _ => rfl

theorem step_handle {s next : State α} {a : Action α} (taken : s.step a = some next)
    {u : TaskId} {g : Handle} (holds : (next.tasks u).handle = some g) :
    (∃ t, (s.tasks t).handle = some g) ∨ (g = s.frameCount ∧ g < next.frameCount) ∨
      ∃ who, .launching who g ∈ s.stack := by
  cases (step_effect taken).2 with
  | create who rest home top =>
    have holds : ((s.hold (some s.frameCount) home).tasks u).handle = some g := holds
    rw [hold_task] at holds
    split_ifs at holds
    · obtain rfl := Option.some.inj holds
      exact .inr (.inl ⟨rfl, Nat.lt_succ_self _⟩)
    · exact .inl ⟨u, holds⟩
  | move who rest src home =>
    rw [hold_task, setHandle_task] at holds
    split_ifs at holds
    · exact .inl ⟨src, holds⟩
    · exact .inl ⟨u, holds⟩
  | start a who rest c daemon t =>
    rw [run_tasks, starting, enlist, setHandle_task] at holds
    split_ifs at holds
    exact .inl ⟨u, holds⟩
  | awaitReady f rest kind t =>
    rw [receive_tasks, transform_task] at holds
    split_ifs at holds
    exact .inl ⟨u, holds⟩
  | awaitDaemon f rest kind t =>
    rw [suspendOn_tasks, transform_task] at holds
    split_ifs at holds
    exact .inl ⟨u, holds⟩
  | awaitStart f rest kind t =>
    rw [run_tasks, suspendOn_tasks, transform_task] at holds
    split_ifs at holds
    exact .inl ⟨u, holds⟩
  | unwindEmpty t =>
    rw [push_tasks, kill_task] at holds
    exact .inl ⟨u, holds⟩
  | unwind t =>
    rw [teardown_tasks, kill_task] at holds
    exact .inl ⟨u, holds⟩
  | assigned dst src rest =>
    rw [setHandle_task, setHandle_task] at holds
    split_ifs at holds
    · exact .inl ⟨src, holds⟩
    · exact .inl ⟨u, holds⟩
  | launched who g' rest top =>
    rw [hold_task] at holds
    split_ifs at holds
    · obtain rfl := Option.some.inj holds
      exact .inr (.inr ⟨who, by simp [top]⟩)
    · exact .inl ⟨u, holds⟩
  | _ => exact .inl ⟨u, by simpa using holds⟩

theorem step_launching {s next : State α} {a : Action α} (taken : s.step a = some next)
    {who : Option Handle} {g : Handle} (launching : .launching who g ∈ next.stack) :
    .launching who g ∈ s.stack ∨ ∃ t, (s.tasks t).handle = some g := by
  cases (step_effect taken).2 with
  | start a who' rest c daemon t g' below received top alive holds starts =>
    rw [run_stack] at launching
    cases starts with
    | launch =>
      simp [starting] at launching
      rcases launching with ⟨-, rfl⟩ | old
      · exact .inr ⟨t, holds⟩
      · exact .inl old
    | launchDetached => exact .inl (by simpa [starting] using launching)
    | blockRun => exact .inl (by simpa [starting] using launching)
  | create => exact .inl launching
  | _ => simp_all

theorem hold_unborn {s : State α} (unborn : ∀ t, s.taskCount ≤ t → (s.tasks t).alive = false)
    (handle home : Option Handle) {t : TaskId} (beyond : s.taskCount + 1 ≤ t) :
    ((s.hold handle home).tasks t).alive = false := by
  rw [hold_task, if_neg (Nat.ne_of_gt beyond)]
  exact unborn t (Nat.le_of_succ_le beyond)

theorem step_unborn {s next : State α} {a : Action α} (unborn : ∀ t, s.taskCount ≤ t →
    (s.tasks t).alive = false) (taken : s.step a = some next) {t : TaskId}
    (beyond : next.taskCount ≤ t) : (next.tasks t).alive = false := by
  cases (step_effect taken).2 with
  | create who rest home => exact hold_unborn unborn _ home beyond
  | move who rest src home =>
    have taken : ∀ u, (s.setHandle src none).taskCount ≤ u →
        ((s.setHandle src none).tasks u).alive = false := fun u beyond => by
      rw [setHandle_task]
      exact unborn u beyond
    exact hold_unborn taken _ home beyond
  | start a who rest c daemon t =>
    rw [run_tasks, starting, enlist, setHandle_task]
    exact unborn _ beyond
  | awaitReady f rest kind u =>
    rw [receive_tasks, transform_task]
    exact unborn t (transform_taskCount s kind u ▸ beyond)
  | awaitDaemon f rest kind u =>
    rw [suspendOn_tasks, transform_task]
    exact unborn t (transform_taskCount s kind u ▸ beyond)
  | awaitStart f rest kind u =>
    rw [run_tasks, suspendOn_tasks, transform_task]
    exact unborn t (transform_taskCount s kind u ▸ beyond)
  | finishDestroy f rest result =>
    rw [teardown_tasks, taskFinish_tasks]
    exact unborn t (taskFinish_taskCount (s.conclude f result) (s.frames f).context ▸ beyond)
  | unwindEmpty u =>
    rw [push_tasks, kill_task]
    simp [unborn t beyond]
  | unwind u =>
    rw [teardown_tasks, kill_task]
    simp [unborn t beyond]
  | assigned dst src =>
    rw [setHandle_task, setHandle_task]
    exact unborn t beyond
  | launched who g rest => exact hold_unborn unborn _ who beyond
  | _ => exact unborn t beyond

theorem step_numbered {s next : State α} {a : Action α} (numbered : s.Numbered)
    (stacked : s.Stacked) (taken : s.step a = some next) : next.Numbered where
  fresh h beyond :=
    numbered.step_fresh stacked taken (Nat.le_trans (step_frameCount taken) beyond)
  callers h g called := by
    refine step_keeps_started taken ?_
    rcases step_caller taken called with old | ⟨kind, t, rest, -, -, top⟩
    · exact numbered.callers h g old
    · simp [stacked.top top]
  handles t g holds := by
    rcases step_handle taken holds with ⟨u, old⟩ | ⟨rfl, new⟩ | ⟨who, launching⟩
    · exact Nat.lt_of_lt_of_le (numbered.handles u g old) (step_frameCount taken)
    · exact new
    · exact Nat.lt_of_lt_of_le (numbered.launching who g launching) (step_frameCount taken)
  launching who g launching := by
    refine Nat.lt_of_lt_of_le ?_ (step_frameCount taken)
    rcases step_launching taken launching with old | ⟨t, holds⟩
    · exact numbered.launching who g old
    · exact numbered.handles t g holds
  unborn t beyond := step_unborn numbered.unborn taken beyond

end State

end KkProxy.Coro
