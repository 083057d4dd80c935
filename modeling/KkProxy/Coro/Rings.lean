import KkProxy.Coro.Machine

set_option autoImplicit false

namespace KkProxy.Coro

namespace State

variable {α : Type}

section WithRings

variable (s : State α) (rings : ContextId → Ring)

@[simp] theorem withRings_frames : (s.withRings rings).frames = s.frames := rfl
@[simp] theorem withRings_tasks : (s.withRings rings).tasks = s.tasks := rfl
@[simp] theorem withRings_rings : (s.withRings rings).rings = rings := rfl
@[simp] theorem withRings_stack : (s.withRings rings).stack = s.stack := rfl
@[simp] theorem withRings_fault : (s.withRings rings).fault = s.fault := rfl

theorem run_withRings (g : Handle) (received : Option α) :
    (s.withRings rings).run g received = (s.run g received).withRings rings := rfl

theorem teardown_withRings (g : Handle) (rest : List TaskId)
    (pending : Option (TaskId × TaskId)) : (s.withRings rings).teardown g rest pending =
      (s.teardown g rest pending).withRings rings := rfl

theorem resume_withRings (g : Handle) :
    (s.withRings rings).resume g = (s.resume g).map (·.withRings rings) := by
  by_cases gone : (s.frames g).destroyed = true
  · simp [resume, gone, Except.map]
  · cases phase : (s.frames g).phase with
    | awaiting callee =>
      by_cases unread : (s.frames callee).destroyed = true <;>
        simp [resume, gone, phase, unread, Except.map, run_withRings]
    | _ => simp [resume, gone, phase, Except.map, run_withRings]

theorem destroy_withRings (g : Handle) (rest : List TaskId) (pending : Option (TaskId × TaskId)) :
    (s.withRings rings).destroy g rest pending =
      (s.destroy g rest pending).map (·.withRings rings) := by
  by_cases gone : (s.frames g).destroyed = true
  · simp [destroy, gone, Except.map]
  · by_cases running : (s.frames g).phase = .running <;>
      simp [destroy, gone, running, Except.map, teardown_withRings]

theorem assign_withRings (dst src : TaskId) :
    (s.withRings rings).assign dst src = (s.assign dst src).map (·.withRings rings) := by
  by_cases same : dst = src
  · simp [assign, same, Except.map]
  · cases holds : (s.tasks dst).handle with
    | none =>
      simp only [assign, withRings_tasks, holds, same, if_false]
      rfl
    | some g => simp [assign, holds, same, destroy_withRings]

theorem start_withRings {below : Handle → State α → State α}
    (kept : ∀ g t, below g (withRings t rings) = (below g t).withRings rings)
    (c : ContextId) (daemon : Bool) (t : TaskId) :
    (s.withRings rings).start c daemon t below =
      (s.start c daemon t below).map (·.withRings rings) := by
  have enlisted (g : Handle) :
      (s.withRings rings).enlist c daemon t g = (s.enlist c daemon t g).withRings rings := rfl
  cases holds : (s.tasks t).handle with
  | none => simp [start, holds, Except.map]
  | some g =>
    by_cases gone : (s.frames g).destroyed = true
    · simp [start, holds, gone, Except.map]
    · simp [start, holds, gone, enlisted, kept, resume_withRings]

theorem await_withRings (f : Handle) (kind : AwaitKind) (t : TaskId) :
    (s.withRings rings).await f kind t = (s.await f kind t).map (·.withRings rings) := by
  have taken : (s.withRings rings).transform kind t = (s.transform kind t).withRings rings := by
    cases kind <;> rfl
  have received (u : State α) (result : Option α) :
      (u.withRings rings).receive f result = (u.receive f result).withRings rings := rfl
  have suspended (u : State α) (g : Handle) :
      (u.withRings rings).suspendOn f g = (u.suspendOn f g).withRings rings := rfl
  cases holds : (s.tasks t).handle with
  | none => simp [await, holds, Except.map]
  | some g =>
    by_cases gone : (s.frames g).destroyed = true
    · simp [await, holds, gone, Except.map]
    · by_cases final : (s.frames g).phase = .final
      · simp [await, holds, gone, final, taken, received, Except.map]
      · by_cases daemon : (s.frames g).flags.isDaemon = true
        · simp [await, holds, gone, final, daemon, taken, suspended, Except.map]
        · simp [await, holds, gone, final, daemon, taken, suspended, resume_withRings]

theorem proceed_withRings (free : Action.isLocal (α := α) .proceed s.stack = true) :
    (s.withRings rings).proceed = s.proceed.map (·.map (·.withRings rings)) := by
  cases stack : s.stack with
  | nil => simp [proceed, stack]
  | cons top rest =>
    cases top with
    | body =>  simp [proceed, stack]
    | launching =>
      simp only [proceed, withRings_stack, stack]
      rfl
    | entering | loop => simp [stack, Action.isLocal] at free
    | unwinding tasks pending =>
      cases tasks with
      | nil =>
        cases pending <;>
        · simp only [proceed, withRings_stack, stack]
          rfl
      | cons t tasks =>
        by_cases alive : (s.tasks t).alive = true
        · cases holds : (s.tasks t).handle with
          | none =>
            simp only [proceed, withRings_stack, stack, withRings_tasks, alive, holds]
            rfl
          | some g =>
            let popped : State α := { s with stack := rest }
            simp only [proceed, withRings_stack, stack, withRings_tasks, alive, holds, if_true]
            exact congrArg some ((popped.kill t).destroy_withRings rings g tasks pending)
        · simp only [proceed, withRings_stack, stack, withRings_tasks, alive]
          rfl

theorem body_withRings {a : Action α} {who : Option Handle} {rest : List Activation}
    (top : s.stack = .body who :: rest) (free : a.isLocal s.stack = true) :
    (s.withRings rings).act a = (s.act a).map (·.map (·.withRings rings)) := by
  cases a with
  | create home =>
    have same : (s.withRings rings).homeOk home = s.homeOk home := rfl
    by_cases ok : s.homeOk home = true
    · simp only [act, withRings_stack, top, same, ok, if_true]
      rfl
    · simp [act, top, same, ok]
  | move src home =>
    have same : (s.withRings rings).homeOk home = s.homeOk home := rfl
    by_cases ok : ((s.tasks src).alive && s.homeOk home) = true
    · simp only [act, withRings_stack, withRings_tasks, top, same, ok, if_true]
      rfl
    · simp [act, top, same, ok]
  | assign dst src =>
    by_cases alive : ((s.tasks dst).alive && (s.tasks src).alive) = true
    · simp only [act, withRings_stack, withRings_tasks, top, alive, if_true]
      exact congrArg some (s.assign_withRings rings dst src)
    · simp [act, top, alive]
  | drop t =>
    by_cases alive : (s.tasks t).alive = true
    · simp only [act, withRings_stack, withRings_tasks, top, alive, if_true]
      rfl
    · simp [act, top, alive]
  | launch c t | launchDetached c t | blockRun c t =>
    by_cases alive : (s.tasks t).alive = true
    · simp only [act, withRings_stack, withRings_tasks, top, alive, if_true]
      exact congrArg some (start_withRings s rings (fun _ _ => rfl) c _ t)
    · simp [act, top, alive]
  | await kind t =>
    cases who with
    | none => simp [act, top]
    | some f =>
      by_cases alive : (s.tasks t).alive = true
      · simp only [act, withRings_stack, withRings_tasks, top, alive, if_true]
        exact congrArg some (s.await_withRings rings f kind t)
      · simp [act, top, alive]
  | proceed => simp [act, top, proceed]
  | io | finish | complete | stop | waitError => simp [Action.isLocal] at free

theorem act_withRings {a : Action α} (free : a.isLocal s.stack = true) :
    (s.withRings rings).act a = (s.act a).map (·.map (·.withRings rings)) := by
  by_cases outside : ∃ who rest, s.stack = .body who :: rest
  · obtain ⟨who, rest, top⟩ := outside
    exact s.body_withRings rings top free
  · cases a with
    | proceed =>
      have proceeds : ∀ s : State α, s.act .proceed = s.proceed := by
        intro s
        unfold act
        split <;> simp_all
      rw [proceeds, proceeds, s.proceed_withRings rings free]
    | io | finish | complete | stop | waitError => simp [Action.isLocal] at free
    | _ =>
      cases stack : s.stack with
      | nil => simp [act, stack]
      | cons top rest =>
        cases top with
        | body who => exact absurd ⟨who, rest, stack⟩ outside
        | _ => simp [act, stack]

end WithRings

end State

end KkProxy.Coro
