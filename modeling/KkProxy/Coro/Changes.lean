import KkProxy.Coro.Stack

set_option autoImplicit false

namespace KkProxy.Coro

namespace State

variable {α : Type}

theorem clean_or_fault {s next : State α} {a : Action α} (taken : s.step a = some next) :
    next.fault = none ∨ ∃ fault, next = { s with fault := some fault } := by
  have clean := (step_effect taken).1
  cases (step_effect taken).2 with
  | fault a e => exact .inr ⟨e, rfl⟩
  | awaitReady f rest kind | awaitDaemon f rest kind | awaitStart f rest kind =>
    left
    cases kind <;> exact clean
  | finishDestroy f rest result =>
    exact .inl ((taskFinish_fault (s.conclude f result) (s.frames f).context).trans clean)
  | _ => exact .inl clean

-- The frame that a step destroys: by `operator=`, by the final awaiter or by `~task`.
def destroys (s : State α) (a : Action α) : Option Handle :=
  match s.stack, a with
  | .body _ :: _, .assign dst src => if dst = src then none else (s.tasks dst).handle
  | .body (some f) :: _, .finish _ =>
    if (s.frames f).caller = none ∧ (s.frames f).flags.isDaemon = false then some f else none
  | .unwinding (t :: _) _ :: _, .proceed => if (s.tasks t).alive then (s.tasks t).handle else none
  | _, _ => none

theorem step_destroyed {s next : State α} {a : Action α} (taken : s.step a = some next)
    {g : Handle} (gone : (next.frames g).destroyed = true) :
    (s.frames g).destroyed = true ∨ s.destroys a = some g := by
  by_contra! kept
  obtain ⟨intact, spared⟩ := kept
  cases (step_effect taken).2 with
  | assign who rest dst src g' top target source differ holds =>
    simp only [teardown_destroyed] at gone
    split_ifs at gone with same
    · simp [destroys, top, differ, holds, same] at spared
    · exact intact gone
  | finishDestroy f rest result top uncalled plain =>
    simp only [teardown_destroyed, taskFinish_frames, conclude_destroyed] at gone
    split_ifs at gone with same
    · simp [destroys, top, uncalled, plain, same] at spared
    · exact intact gone
  | unwind t tasks pending rest g' top alive holds =>
    simp only [teardown_destroyed] at gone
    split_ifs at gone with same
    · simp [destroys, top, alive, holds, same] at spared
    · exact intact gone
  | _ => exact intact (by simpa using gone)

theorem step_keeps_destroyed {s next : State α} {a : Action α} (taken : s.step a = some next)
    {g : Handle} (gone : (s.frames g).destroyed = true) : (next.frames g).destroyed = true := by
  cases (step_effect taken).2 with
  | assign => simp [teardown_destroyed, gone]
  | finishDestroy => simp [teardown_destroyed, gone]
  | unwind => simp [teardown_destroyed, gone]
  | _ => simpa using gone

inductive Ends (s : State α) (a : Action α) (g : Handle) : State α → Prop where
  | resumes (rest : List Activation) (result : Option α) (caller : Handle) (received : Option α)
    (top : s.stack = .body (some g) :: rest) (ends : a = .finish result)
    (called : (s.frames g).caller = some caller)
    (resumes : (s.conclude g result).Resumes caller received) :
    Ends s a g ((s.conclude g result).run caller received)
  | stays (rest : List Activation) (result : Option α) (top : s.stack = .body (some g) :: rest)
    (ends : a = .finish result) (uncalled : (s.frames g).caller = none)
    (daemon : (s.frames g).flags.isDaemon = true) : Ends s a g (s.conclude g result)
  | destroyed (rest : List Activation) (result : Option α) (top : s.stack = .body (some g) :: rest)
    (ends : a = .finish result) (uncalled : (s.frames g).caller = none)
    (plain : (s.frames g).flags.isDaemon = false) :
    Ends s a g (((s.conclude g result).taskFinish (s.frames g).context).teardown g [] none)

theorem step_ends {s next : State α} {a : Action α} (taken : s.step a = some next) {g : Handle}
    (final : (next.frames g).phase = .final) : (s.frames g).phase = .final ∨ Ends s a g next := by
  cases (step_effect taken).2 with
  | start | complete =>
    rw [run_phase] at final
    split_ifs at final
    exact .inl (by simpa using final)
  | awaitDaemon =>
    rw [suspendOn_phase] at final
    split_ifs at final
    exact .inl (by simpa using final)
  | awaitStart =>
    rw [run_phase, suspendOn_phase] at final
    split_ifs at final
    exact .inl (by simpa using final)
  | submit =>
    rw [submitTo_phase] at final
    split_ifs at final
    exact .inl (by simpa using final)
  | finishCaller f rest result caller received top called resumes =>
    rw [run_phase, conclude_phase] at final
    split_ifs at final with resumed ended
    · subst ended
      exact .inr (.resumes rest result caller received top rfl called resumes)
    · exact .inl final
  | finishDaemon f rest result top uncalled daemon =>
    rw [conclude_phase] at final
    split_ifs at final with ended
    · subst ended
      exact .inr (.stays rest result top rfl uncalled daemon)
    · exact .inl final
  | finishDestroy f rest result top uncalled plain =>
    rw [teardown_phase, taskFinish_frames, conclude_phase] at final
    split_ifs at final with ended
    · subst ended
      exact .inr (.destroyed rest result top rfl uncalled plain)
    · exact .inl final
  | _ => exact .inl (by simpa using final)

theorem step_keeps_started {s next : State α} {a : Action α} (taken : s.step a = some next)
    {g : Handle} (started : (s.frames g).phase ≠ .created) : (next.frames g).phase ≠ .created := by
  cases (step_effect taken).2 with
  | start | awaitDaemon | awaitStart | submit | finishCaller | finishDaemon | finishDestroy
  | complete =>
    simp only [run_phase, starting_phase, suspendOn_phase, submitTo_phase, conclude_phase,
      teardown_phase, transform_frames, setRing_frames, taskFinish_frames]
    split_ifs <;> simp [started]
  | _ => simpa using started

inductive Resuming (s : State α) : Action α → Handle → State α → Prop where
  | start (a : Action α) (who : Option Handle) (rest : List Activation) (c : ContextId)
    (daemon : Bool) (t : TaskId) (g : Handle) (below : List Activation)
    (top : s.stack = .body who :: rest) (alive : (s.tasks t).alive = true)
    (holds : (s.tasks t).handle = some g) (intact : (s.frames g).destroyed = false)
    (starts : Starts who c t g a daemon below) :
    Resuming s a g (s.starting c daemon t g below)
  | await (f : Handle) (rest : List Activation) (kind : AwaitKind) (t : TaskId) (g : Handle)
    (top : s.stack = .body (some f) :: rest) (alive : (s.tasks t).alive = true)
    (holds : (s.tasks t).handle = some g) (intact : (s.frames g).destroyed = false)
    (unfinished : (s.frames g).phase ≠ .final) (plain : (s.frames g).flags.isDaemon = false) :
    Resuming s (.await kind t) g ((s.transform kind t).suspendOn f g)
  | finish (f : Handle) (rest : List Activation) (result : Option α) (caller : Handle)
    (top : s.stack = .body (some f) :: rest) (called : (s.frames f).caller = some caller) :
    Resuming s (.finish result) caller (s.conclude f result)

theorem Resuming.act {s u : State α} {a : Action α} {g : Handle} (resuming : s.Resuming a g u) :
    s.act a = some (u.resume g) := by
  cases resuming with
  | start a who rest c daemon t g below top alive holds intact starts =>
    have started (below : Handle → State α → State α) :
        s.start c daemon t below = (below g (s.enlist c daemon t g)).resume g := by
      simp [State.start, holds, intact]
    cases starts <;> simp [State.act, top, alive, started] <;> rfl
  | await f rest kind t g top alive holds intact unfinished plain =>
    simp [State.act, top, alive, State.await, holds, intact, unfinished, plain]
  | finish f rest result caller top called => simp [State.act, top, State.finish, called]

theorem Resuming.step {s u next : State α} {a : Action α} {g : Handle}
    (resuming : s.Resuming a g u) (taken : s.step a = some next) :
    (∃ fault, next = { s with fault := some fault }) ∨
      ∃ received, u.Resumes g received ∧ next = u.run g received := by
  unfold State.step at taken
  split_ifs at taken
  rw [resuming.act, Option.map_some] at taken
  obtain rfl := Option.some.inj taken
  cases resumed : u.resume g with
  | error fault => exact .inl ⟨fault, rfl⟩
  | ok next => exact .inr (resume_ok resumed)

theorem step_moves {s next : State α} {a : Action α} (taken : s.step a = some next) {f : Handle}
    (moved : (next.frames f).phase ≠ (s.frames f).phase) :
    (∃ rest, s.stack = .body (some f) :: rest) ∨ (∃ u, s.Resuming a f u) ∨
      ∃ res op, a = .complete res op ∧ (s.frames f).phase = .io op := by
  cases (step_effect taken).2 with
  | start a who rest c daemon t g below received top alive holds starts resumes =>
    rw [run_phase, starting_phase] at moved
    split_ifs at moved with same
    · have intact : (s.frames g).destroyed = false := by simpa using resumes.intact
      exact .inr (.inl
        (same ▸ ⟨_, .start a who rest c daemon t g below top alive holds intact starts⟩))
    · exact absurd rfl moved
  | awaitDaemon f' rest kind t g top =>
    rw [suspendOn_phase, transform_frames] at moved
    split_ifs at moved with same
    · exact .inl ⟨rest, same ▸ top⟩
    · exact absurd rfl moved
  | awaitStart f' rest kind t g received top alive holds intact unfinished plain =>
    rw [run_phase, suspendOn_phase, transform_frames] at moved
    split_ifs at moved with callee same
    · exact .inr (.inl
        (callee ▸ ⟨_, .await f' rest kind t g top alive holds intact unfinished plain⟩))
    · exact .inl ⟨rest, same ▸ top⟩
    · exact absurd rfl moved
  | submit f' rest c top =>
    rw [submitTo_phase] at moved
    split_ifs at moved with same
    · exact .inl ⟨rest, same ▸ top⟩
    · exact absurd rfl moved
  | finishCaller f' rest result caller received top called =>
    rw [run_phase, conclude_phase] at moved
    split_ifs at moved with resumed same
    · exact .inr (.inl (resumed ▸ ⟨_, .finish f' rest result caller top called⟩))
    · exact .inl ⟨rest, same ▸ top⟩
    · exact absurd rfl moved
  | finishDaemon f' rest result top =>
    rw [conclude_phase] at moved
    split_ifs at moved with same
    · exact .inl ⟨rest, same ▸ top⟩
    · exact absurd rfl moved
  | finishDestroy f' rest result top =>
    rw [teardown_phase, taskFinish_frames, conclude_phase] at moved
    split_ifs at moved with same
    · exact .inl ⟨rest, same ▸ top⟩
    · exact absurd rfl moved
  | complete c rest res op received top submitted waiting =>
    rw [run_phase, setRing_frames] at moved
    split_ifs at moved with same
    · exact .inr (.inr ⟨res, op.id, rfl, same ▸ waiting⟩)
    · exact absurd rfl moved
  | _ => simp at moved

theorem step_keeps_final {s next : State α} {a : Action α} (stacked : s.Stacked)
    (taken : s.step a = some next) {g : Handle} (final : (s.frames g).phase = .final) :
    (next.frames g).phase = .final := by
  by_contra left
  have moved : (next.frames g).phase ≠ (s.frames g).phase := by rwa [final]
  rcases step_moves taken moved with ⟨rest, top⟩ | ⟨u, resuming⟩ | ⟨res, op, -, suspended⟩
  · simp [stacked.top top] at final
  · rcases resuming.step taken with ⟨fault, rfl⟩ | ⟨received, resumes, -⟩
    · exact left final
    · refine resumes.suspended.2 ?_
      cases resuming with
      | start => rw [starting_phase, final]
      | await f rest kind t g top alive holds intact unfinished => exact absurd final unfinished
      | finish => rw [conclude_phase, final, ite_self]
  · simp [suspended] at final

theorem step_caller {s next : State α} {a : Action α} (taken : s.step a = some next)
    {h g : Handle} (called : (next.frames h).caller = some g) :
    (s.frames h).caller = some g ∨
      ∃ kind t rest, a = .await kind t ∧ (s.tasks t).handle = some h ∧
        s.stack = .body (some g) :: rest := by
  cases (step_effect taken).2 with
  | awaitDaemon f rest kind t g' top alive holds =>
    rw [suspendOn_caller] at called
    split_ifs at called with same
    · obtain rfl := Option.some.inj called
      exact .inr ⟨kind, t, rest, rfl, same ▸ holds, top⟩
    · exact .inl (by simpa using called)
  | awaitStart f rest kind t g' received top alive holds =>
    rw [run_caller, suspendOn_caller] at called
    split_ifs at called with same
    · obtain rfl := Option.some.inj called
      exact .inr ⟨kind, t, rest, rfl, same ▸ holds, top⟩
    · exact .inl (by simpa using called)
  | _ => exact .inl (by simpa using called)

theorem step_result {s next : State α} {a : Action α} (taken : s.step a = some next)
    (g : Handle) : (next.frames g).result = (s.frames g).result ∨
      ∃ rest, s.stack = .body (some g) :: rest := by
  cases (step_effect taken).2 with
  | finishCaller f rest result caller received top
  | finishDaemon f rest result top | finishDestroy f rest result top =>
    by_cases same : g = f
    · exact .inr ⟨rest, same ▸ top⟩
    · exact .inl (by simp [conclude_other same])
  | _ => exact .inl (by simp)

theorem step_inflight {s next : State α} {a : Action α} (taken : s.step a = some next)
    {c : ContextId} {op : Op} (waiting : op ∈ (next.rings c).inflight) :
    op ∈ (s.rings c).inflight ∨ ∃ rest, a = .io ∧ s.stack = .body (some op.frame) :: rest ∧
      (s.frames op.frame).context = some c := by
  cases (step_effect taken).2 with
  | submit f rest c' top context =>
    rw [submitTo_inflight] at waiting
    split_ifs at waiting with same
    · rcases List.mem_append.mp waiting with old | new
      · exact .inl (same ▸ old)
      · obtain rfl := List.mem_singleton.mp new
        exact .inr ⟨rest, rfl, top, same ▸ context⟩
    · exact .inl waiting
  | entered c' rest top | stop c' rest top | stopTimedOut c' rest top =>
    rw [setRing_keeps Ring.inflight (by rfl)] at waiting
    exact .inl waiting
  | complete c' rest res op' received top =>
    rw [run_rings, setRing_ring] at waiting
    split_ifs at waiting with same
    · exact .inl (same ▸ List.mem_of_mem_erase waiting)
    · exact .inl waiting
  | _ => exact .inl (by simpa using waiting)

-- Only a completion changes what the loop knows of the head of its queue.
theorem step_head {s next : State α} {a : Action α} (taken : s.step a = some next) (c : ContextId) :
    (next.rings c).dispatched = (s.rings c).dispatched ∧
        (next.rings c).stuck = (s.rings c).stuck ∨
      ∃ res op, a = .complete res op.id ∧ (next.rings c).dispatched = some op ∧
        (next.rings c).stuck = decide (res ≠ 0) ∧ (s.frames op.frame).phase = .io op.id ∧
          (next.frames op.frame).phase = .running := by
  cases (step_effect taken).2 with
  | submit f rest c' top =>
    exact .inl ⟨setRing_keeps Ring.dispatched (by rfl) c, setRing_keeps Ring.stuck (by rfl) c⟩
  | finishDestroy f rest result top =>
    left
    rw [teardown_rings]
    cases (s.frames f).context with
    | none => exact ⟨rfl, rfl⟩
    | some c' => exact ⟨setRing_keeps Ring.dispatched (by rfl) c, setRing_keeps Ring.stuck (by rfl) c⟩
  | entered c' rest top | stop c' rest top | stopTimedOut c' rest top =>
    exact .inl ⟨setRing_keeps Ring.dispatched (by rfl) c, setRing_keeps Ring.stuck (by rfl) c⟩
  | complete c' rest res op received top submitted waiting =>
    rw [run_rings, setRing_ring]
    split_ifs with same
    · exact .inr ⟨res, op, rfl, rfl, rfl, waiting, by simp [run_phase]⟩
    · exact .inl ⟨rfl, rfl⟩
  | _ => exact .inl (by simp)

-- A completion that comes with an error code stays at the head of the queue.
theorem step_stuck {s next : State α} {a : Action α} (taken : s.step a = some next)
    {c : ContextId} (stuck : (next.rings c).stuck = true) :
    (s.rings c).stuck = true ∨ a.opOnSuccess = false := by
  obtain ⟨-, same⟩ | ⟨res, op, rfl, -, failed, -⟩ := step_head taken c
  · exact .inl (same ▸ stuck)
  · exact .inr (by simpa [Action.opOnSuccess, failed] using stuck)

theorem step_loops {s next : State α} {a : Action α} (taken : s.step a = some next)
    (c : ContextId) : next.stack.count (.loop c) ≤ s.stack.count (.loop c) ∨
      ∃ rest, s.stack = .entering c :: rest ∧ next.stack = .loop c :: rest := by
  have popped : s.stack.tail.count (.loop c) ≤ s.stack.count (.loop c) :=
    (List.tail_sublist _).count_le _
  cases (step_effect taken).2 with
  | start a who rest c' daemon t g below received top alive holds starts =>
    left
    cases starts <;> simp [starting]
  | entered c' rest top =>
    by_cases same : c' = c
    · exact .inr ⟨rest, same ▸ top, same ▸ rfl⟩
    · exact .inl (by simp [top, same])
  | unwindDead t tasks pending rest top | unwindEmpty t tasks pending rest top
  | unwind t tasks pending rest g top => exact .inl (by simp [top])
  | unwound rest top | assigned dst src rest top | launched who g rest top | left c' rest top =>
    rw [top] at popped ⊢
    exact .inl popped
  | _ => exact .inl (by simp [popped])

end State

end KkProxy.Coro
