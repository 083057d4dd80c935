import KkProxy.Coro.Holders

set_option autoImplicit false

namespace KkProxy.Coro

namespace State

variable {α : Type}

structure Sole (s : State α) : Prop where
  handles : ∀ t u g, (s.tasks t).handle = some g → (s.tasks u).handle = some g → t = u
  launching : ∀ t, ∀ g ∈ launches s.stack, (s.tasks t).handle ≠ some g
  nodup : (launches s.stack).Nodup

theorem init_sole : (init : State α).Sole where
  handles t u g holds := by simp [init] at holds
  launching t g member := by simp [init, launches] at member
  nodup := List.nodup_nil

theorem Sole.of_same {s next : State α} (sole : s.Sole)
    (handles : ∀ t, (next.tasks t).handle = (s.tasks t).handle)
    (fewer : (launches next.stack).Sublist (launches s.stack)) : next.Sole where
  handles t u g first second := by
    rw [handles] at first second
    exact sole.handles t u g first second
  launching t g member := by
    rw [handles]
    exact sole.launching t g (fewer.subset member)
  nodup := sole.nodup.sublist fewer

theorem Sole.shift {s next : State α} (sole : s.Sole) (dst src : TaskId)
    (comes : ∀ t g, (next.tasks t).handle = some g →
      t = dst ∧ (s.tasks src).handle = some g ∨ t ≠ src ∧ (s.tasks t).handle = some g)
    (fewer : (launches next.stack).Sublist (launches s.stack)) : next.Sole where
  handles t u g first second := by
    rcases comes t g first with ⟨rfl, holds⟩ | ⟨other, holds⟩ <;>
      rcases comes u g second with ⟨rfl, holds'⟩ | ⟨other', holds'⟩
    · rfl
    · exact absurd (sole.handles u src g holds' holds) other'
    · exact absurd (sole.handles t src g holds holds') other
    · exact sole.handles t u g holds holds'
  launching t g member held := by
    rcases comes t g held with ⟨-, holds⟩ | ⟨-, holds⟩
    · exact sole.launching src g (fewer.subset member) holds
    · exact sole.launching t g (fewer.subset member) holds
  nodup := sole.nodup.sublist fewer

theorem Sole.hold {s : State α} (sole : s.Sole) {g : Handle} (home : Option Handle)
    (unheld : ∀ t, (s.tasks t).handle ≠ some g) (unlaunched : g ∉ launches s.stack) :
    (s.hold (some g) home).Sole where
  handles t u h first second := by
    rw [hold_task] at first second
    split_ifs at first second with newFirst newSecond newSecond
    · rw [newFirst, newSecond]
    · obtain rfl : g = h := by simpa using first
      exact absurd second (unheld u)
    · obtain rfl : g = h := by simpa using second
      exact absurd first (unheld t)
    · exact sole.handles t u h first second
  launching t h member holds := by
    rw [hold_task] at holds
    split_ifs at holds
    · obtain rfl : g = h := by simpa using holds
      exact unlaunched member
    · exact sole.launching t h member holds
  nodup := sole.nodup

theorem Sole.transform {s next : State α} (sole : s.Sole) {kind : AwaitKind} {t : TaskId}
    (tasks : next.tasks = (s.transform kind t).tasks)
    (fewer : (launches next.stack).Sublist (launches s.stack)) : next.Sole := by
  cases kind with
  | lvalue => exact sole.of_same (fun u => by rw [tasks]; rfl) fewer
  | rvalue =>
    refine sole.shift t t (fun u g held => .inr ?_) fewer
    rw [tasks, State.transform, setHandle_task] at held
    split_ifs at held with same
    exact ⟨same, held⟩

theorem starting_holds {s : State α} {c : ContextId} {daemon : Bool} {t u : TaskId} {g h : Handle}
    {below : List Activation} {received : Option α}
    (held : (((s.starting c daemon t g below).run g received).tasks u).handle = some h) :
    u ≠ t ∧ (s.tasks u).handle = some h := by
  rw [run_tasks, starting, enlist, setHandle_task] at held
  split_ifs at held with same
  exact ⟨same, held⟩

theorem Sole.start {s : State α} (sole : s.Sole) {a : Action α} {who : Option Handle}
    {c : ContextId} {daemon : Bool} {t : TaskId} {g : Handle} {below : List Activation}
    (received : Option α) (holds : (s.tasks t).handle = some g)
    (starts : Starts who c t g a daemon below) :
    ((s.starting c daemon t g below).run g received).Sole := by
  have kept := fun u h => @starting_holds α s c daemon t u g h below received
  have stack : launches ((s.starting c daemon t g below).run g received).stack =
      launches below ++ launches s.stack := by
    cases starts <;> rfl
  have started : ∀ h ∈ launches below, h = g := by
    intro h member
    cases starts <;> simp_all [launches]
  refine ⟨fun u v h first second => ?_, fun u h member held => ?_, ?_⟩
  · exact sole.handles u v h (kept u h first).2 (kept v h second).2
  · obtain ⟨other, held⟩ := kept u h held
    rw [stack] at member
    rcases List.mem_append.mp member with new | old
    · exact other (sole.handles u t h held (started h new ▸ holds))
    · exact sole.launching u h old held
  · rw [stack]
    refine List.nodup_append.mpr ⟨by cases starts <;> simp [launches], sole.nodup, ?_⟩
    rintro h new _ old rfl
    exact sole.launching t h old (started h new ▸ holds)

theorem step_sole {s next : State α} {a : Action α} (sole : s.Sole) (numbered : s.Numbered)
    (taken : s.step a = some next) : next.Sole := by
  cases (step_effect taken).2 with
  | create who rest home top =>
    have new : (s.hold (some s.frameCount) home).Sole := by
      refine sole.hold home (fun t held => ?_) fun member => ?_
      · exact Nat.lt_irrefl _ (numbered.handles t _ held)
      · exact Nat.lt_irrefl _ (numbered.launched member)
    exact new.of_same (fun _ => rfl) (List.Sublist.refl _)
  | move who rest src home top =>
    refine sole.shift s.taskCount src (fun t g holds => ?_) (List.Sublist.refl _)
    rw [hold_task, setHandle_task] at holds
    split_ifs at holds with new old
    · exact .inl ⟨new, holds⟩
    · exact .inr ⟨old, holds⟩
  | start a who rest c daemon t g below received top alive holds starts =>
    exact sole.start received holds starts
  | awaitReady f rest kind t => exact sole.transform rfl (by simp)
  | awaitDaemon f rest kind t => exact sole.transform rfl (by simpa using launches_tail s.stack)
  | awaitStart f rest kind t => exact sole.transform rfl (by simpa using launches_tail s.stack)
  | submit | finishCaller | finishDaemon | finishDestroy =>
    exact sole.of_same (by simp) (by simpa using launches_tail s.stack)
  | unwindEmpty t tasks pending rest top =>
    exact sole.of_same (fun u => by simp [kill_task]) (by simp [top])
  | unwind t tasks pending rest g top =>
    exact sole.of_same (fun u => by simp [kill_task]) (by simp [top])
  | assigned dst src rest top =>
    refine sole.shift dst src (fun t g holds => ?_) (by simp [top])
    rw [setHandle_task, setHandle_task] at holds
    by_cases gone : t = src
    · simp [gone] at holds
    · rw [if_neg gone] at holds
      split_ifs at holds with target
      · exact .inl ⟨target, holds⟩
      · exact .inr ⟨gone, holds⟩
  | launched who g rest top =>
    have nodup := sole.nodup
    rw [top] at nodup
    obtain ⟨unlaunched, -⟩ := List.nodup_cons.mp nodup
    have unheld : ∀ t, (s.tasks t).handle ≠ some g := fun t =>
      sole.launching t g (by simp [top, launches])
    have popped : ({ s with stack := rest } : State α).Sole :=
      sole.of_same (fun _ => rfl) (by simpa [top] using launches_tail s.stack)
    exact popped.hold who unheld unlaunched
  | _ => exact sole.of_same (fun _ => by simp) (by simp_all)

inductive Promised (s next : State α) (a : Action α) (g : Handle) : Prop where
  | same (caller : (next.frames g).caller = (s.frames g).caller)
    (flags : (next.frames g).flags = (s.frames g).flags)
    (context : (next.frames g).context = (s.frames g).context)
    (before : (next.frames g).phase ≠ .created → (s.frames g).phase ≠ .created)
  | started (who : Option Handle) (c : ContextId) (daemon : Bool) (t : TaskId)
    (below : List Activation) (starts : Starts who c t g a daemon below)
    (holds : (s.tasks t).handle = some g) (caller : (next.frames g).caller = (s.frames g).caller)
    (flag : (next.frames g).flags.isDaemon = daemon)
    (context : (next.frames g).context = some c) (running : (next.frames g).phase = .running)
    (clean : next.fault = none) (stack : next.stack = .body (some g) :: (below ++ s.stack))
    (kept : ∀ u h, (next.tasks u).handle = some h → u ≠ t ∧ (s.tasks u).handle = some h)
  | awaited (f : Handle) (rest : List Activation) (kind : AwaitKind) (t : TaskId)
    (top : s.stack = .body (some f) :: rest) (awaits : a = .await kind t)
    (holds : (s.tasks t).handle = some g) (caller : (next.frames g).caller = some f)
    (flags : (next.frames g).flags = (s.frames g).flags)
    (context : (next.frames g).context = (s.frames f).context)
    (running : (s.frames g).flags.isDaemon = true ∨ (next.frames g).phase = .running)

theorem step_promised {s next : State α} {a : Action α} (stacked : s.Stacked)
    (numbered : s.Numbered) (taken : s.step a = some next) (g : Handle) :
    Promised s next a g := by
  have top : ∀ f rest, s.stack = .body (some f) :: rest →
      (g ≠ f → (next.frames g).phase = (s.frames g).phase) →
        (next.frames g).phase ≠ .created → (s.frames g).phase ≠ .created := by
    intro f rest top kept started
    by_cases same : g = f
    · simp [same, stacked.top top]
    · exact kept same ▸ started
  cases (step_effect taken).2 with
  | start a who rest c daemon t g' below received _ alive holds starts =>
    by_cases same : g = g'
    · subst same
      exact .started who c daemon t below starts holds (by simp) (by simp [starting_daemon])
        (by simp [starting_context]) (by simp [run_phase])
        (step_effect taken).1 rfl (fun u h => starting_holds)
    · exact .same (by simp) (by rw [run_other same, starting_other same])
        (by rw [run_other same, starting_other same])
        (by rw [run_other same, starting_other same]; exact id)
  | awaitDaemon f rest kind t g' top' alive holds intact unfinished daemon =>
    by_cases same : g = g'
    · subst same
      exact .awaited f rest kind t top' rfl holds (by simp [suspendOn_caller]) (by simp)
        (by simp [suspendOn_context]) (.inl daemon)
    · exact .same (by simp [suspendOn_caller, same]) (by simp) (by simp [suspendOn_context, same])
        (top f rest top' fun other => by simp [suspendOn_phase, other])
  | awaitStart f rest kind t g' received top' alive holds =>
    by_cases same : g = g'
    · subst same
      exact .awaited f rest kind t top' rfl holds (by simp [suspendOn_caller]) (by simp)
        (by simp [suspendOn_context]) (.inr (by simp [run_phase]))
    · exact .same (by simp [suspendOn_caller, same]) (by simp) (by simp [suspendOn_context, same])
        (top f rest top' fun other => by simp [run_phase, suspendOn_phase, same, other])
  | submit f rest c top' =>
    exact .same (by simp) (by simp) (by simp)
      (top f rest top' fun other => by simp [submitTo_phase, other])
  | finishCaller f rest result caller received top' called =>
    refine .same (by simp) (by simp) (by simp) fun started => ?_
    by_cases resumed : g = caller
    · exact resumed ▸ numbered.callers f caller called
    · exact top f rest top' (fun other => by simp [run_phase, conclude_phase, resumed, other]) started
  | finishDaemon f rest result top' =>
    exact .same (by simp) (by simp) (by simp)
      (top f rest top' fun other => by simp [conclude_phase, other])
  | finishDestroy f rest result top' =>
    exact .same (by simp) (by simp) (by simp)
      (top f rest top' fun other => by simp [conclude_phase, other])
  | complete c rest res op received _ submitted waiting =>
    refine .same (by simp) (by simp) (by simp) fun started => ?_
    by_cases resumed : g = op.frame
    · simp [resumed, waiting]
    · rwa [run_phase, if_neg resumed] at started
  | _ => exact .same (by simp) (by simp) (by simp) (by simp)

theorem Promised.unheld {s next : State α} {a : Action α} {g : Handle}
    (promised : Promised s next a g) (unheld : ∀ t, (s.tasks t).handle ≠ some g) :
    (next.frames g).caller = (s.frames g).caller ∧ (next.frames g).flags = (s.frames g).flags ∧
      (next.frames g).context = (s.frames g).context := by
  cases promised with
  | same caller flags context => exact ⟨caller, flags, context⟩
  | started who c daemon t below starts holds => exact absurd holds (unheld t)
  | awaited f rest kind t top awaits holds => exact absurd holds (unheld t)

-- A started coroutine that nobody waits for and that is no daemon.
def Root (s : State α) (g : Handle) : Prop :=
  (s.frames g).phase ≠ .created ∧ (s.frames g).phase ≠ .final ∧ (s.frames g).caller = none ∧
    (s.frames g).flags.isDaemon = false

-- A coroutine becomes a root only when `block_run` starts it, which takes its handle.
theorem step_root {s next : State α} {a : Action α} (formed : s.Formed) (sole : s.Sole)
    (taken : s.step a = some next) {g : Handle} (root : next.Root g) :
    s.Root g ∨ ∃ c t, a = .blockRun c t ∧ (s.tasks t).handle = some g ∧
      next.fault = none ∧ (∀ u, (next.tasks u).handle ≠ some g) ∧ g ∉ launches next.stack := by
  obtain ⟨started, unfinished, uncalled, plain⟩ := root
  have unfinished : (s.frames g).phase ≠ .final := fun final =>
    unfinished (step_keeps_final formed.stacked taken final)
  cases step_promised formed.stacked formed.numbered taken g with
  | same caller flags context before =>
    exact .inl ⟨before started, unfinished, caller ▸ uncalled, flags ▸ plain⟩
  | started who c daemon t below starts holds caller flag context running clean stack kept =>
    rw [plain] at flag
    subst flag
    cases starts with
    | blockRun =>
      refine .inr ⟨c, t, rfl, holds, clean, fun u held => ?_, fun member => ?_⟩
      · exact (kept u g held).1 (sole.handles u t g (kept u g held).2 holds)
      · rw [stack] at member
        exact sole.launching t g member holds
  | awaited f rest kind t top awaits holds called => simp [called] at uncalled

-- A root is out of reach, and a coroutine that has not been started is as it was made.
structure Rooted (s : State α) : Prop where
  formed : s.Formed
  sole : s.Sole
  untouched : ∀ g, (s.frames g).phase = .created →
    (s.frames g).caller = none ∧ (s.frames g).flags.isDaemon = false
  unheld : ∀ g, s.Root g → ∀ t, (s.tasks t).handle ≠ some g
  unlaunched : ∀ g, s.Root g → g ∉ launches s.stack

theorem init_rooted : (init : State α).Rooted where
  formed := init_formed
  sole := init_sole
  untouched _ _ := by simp [init, Frame.fresh, Flags.isDaemon]
  unheld g root t := by simp [init]
  unlaunched g root := by simp [init, launches]

theorem step_rooted {s next : State α} {a : Action α} (rooted : s.Rooted)
    (taken : s.step a = some next) : next.Rooted := by
  obtain ⟨formed, sole, untouched, unheld, unlaunched⟩ := rooted
  refine ⟨step_formed formed taken, step_sole sole formed.numbered taken, fun g created => ?_,
    fun g root => ?_, fun g root => ?_⟩
  · have before : (s.frames g).phase = .created := by
      by_contra started
      exact step_keeps_started taken started created
    cases step_promised formed.stacked formed.numbered taken g with
    | same caller flags =>
      rw [caller, flags]
      exact untouched g before
    | started who c daemon t below starts holds caller flag context running =>
      simp [created] at running
    | awaited f rest kind t top awaits holds caller flags context running =>
      simp [created, (untouched g before).2] at running
  · rcases step_root formed sole taken root with before | ⟨c, t, -, -, -, out, -⟩
    · intro t held
      rcases step_handle taken held with ⟨u, old⟩ | ⟨rfl, -⟩ | ⟨who, launching⟩
      · exact unheld g before u old
      · exact Nat.lt_irrefl _ (formed.numbered.started before.1)
      · exact unlaunched g before (mem_launches_of_mem launching)
    · exact out
  · rcases step_root formed sole taken root with before | ⟨c, t, -, -, -, -, out⟩
    · intro member
      obtain ⟨who, launching⟩ := mem_launches member
      rcases step_launching taken launching with old | ⟨t, holds⟩
      · exact unlaunched g before (mem_launches_of_mem old)
      · exact unheld g before t holds
    · exact out

end State

end KkProxy.Coro
