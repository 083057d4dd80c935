import KkProxy.Coro.Changes
import KkProxy.Coro.Faults

set_option autoImplicit false

namespace KkProxy.Coro

open Runs

namespace State

variable {α : Type}

-- Neither an operation in flight nor an unfinished coroutine points to the frame.
def Unreferenced (s : State α) (g : Handle) : Prop :=
  (∀ c, ∀ op ∈ (s.rings c).inflight, op.frame ≠ g) ∧
    ∀ h, h ≠ g → (s.frames h).destroyed = false → (s.frames h).phase ≠ .final →
      (s.frames h).caller ≠ some g

-- `run` is called while it is running.
def reenters (s : State α) : Bool :=
  match s.stack with
  | .entering c :: rest => .loop c ∈ rest
  | _ => false

/--
The step destroys no frame that something points to and enters no loop that is being run, and a
completion of an operation only comes with the answer 0.
-/
def Spares (s : State α) (a : Action α) : Prop :=
  (∀ g, s.destroys a = some g → s.Unreferenced g) ∧ s.reenters = false ∧ a.opOnSuccess = true

structure Anchored (s : State α) : Prop where
  stacked : s.Stacked
  loops : ∀ c, s.stack.count (.loop c) ≤ 1
  unstuck : ∀ c, (s.rings c).stuck = false
  ops : ∀ c, ∀ op ∈ (s.rings c).inflight, (s.frames op.frame).destroyed = false
  callers : ∀ h g, (s.frames h).destroyed = false → (s.frames h).phase ≠ .final →
    (s.frames h).caller = some g → (s.frames g).destroyed = false

theorem init_anchored : (init : State α).Anchored where
  stacked := init_stacked
  loops c := by simp [init]
  unstuck c := rfl
  ops c op waiting := by simp [init] at waiting
  callers h g _ _ called := by simp [init, Frame.fresh] at called

theorem survives {s next : State α} {a : Action α} (taken : s.step a = some next) {g : Handle}
    (intact : (s.frames g).destroyed = false) (spared : s.destroys a ≠ some g) :
    (next.frames g).destroyed = false := by
  by_contra gone
  rcases step_destroyed taken (by simpa using gone) with before | destroyed
  · simp [intact] at before
  · exact spared destroyed

theorem destroys_io (s : State α) : s.destroys .io = none := by
  unfold destroys
  split <;> simp_all

theorem destroys_await (s : State α) (kind : AwaitKind) (t : TaskId) :
    s.destroys (.await kind t) = none := by
  unfold destroys
  split <;> simp_all

theorem step_anchored {s next : State α} {a : Action α} (anchored : s.Anchored)
    (spares : s.Spares a) (taken : s.step a = some next) : next.Anchored where
  stacked := step_stacked anchored.stacked taken
  loops c := by
    rcases step_loops taken c with fewer | ⟨rest, top, entered⟩
    · exact Nat.le_trans fewer (anchored.loops c)
    · have outside : .loop c ∉ rest := by simpa [reenters, top] using spares.2.1
      simp [entered, List.count_eq_zero_of_not_mem outside]
  unstuck c := by
    by_contra stuck
    rcases step_stuck taken (by simpa using stuck) with before | failed
    · simp [anchored.unstuck c] at before
    · simp [spares.2.2] at failed
  ops c op waiting := by
    rcases step_inflight taken waiting with old | ⟨rest, rfl, top, -⟩
    · refine survives taken (anchored.ops c op old) fun destroyed => ?_
      exact (spares.1 _ destroyed).1 c op old rfl
    · have running := anchored.stacked.top top
      exact survives taken (anchored.stacked.intact _ running) (by simp [destroys_io])
  callers h g intact' unfinished called := by
    have intact : (s.frames h).destroyed = false := by
      by_contra gone
      have gone := step_keeps_destroyed taken (by simpa using gone)
      simp [intact'] at gone
    have unfinished : (s.frames h).phase ≠ .final := fun final =>
      unfinished (step_keeps_final anchored.stacked taken final)
    rcases step_caller taken called with old | ⟨kind, t, rest, rfl, -, top⟩
    · by_cases same : h = g
      · exact same ▸ intact'
      · refine survives taken (anchored.callers h g intact unfinished old) fun destroyed => ?_
        exact (spares.1 g destroyed).2 h same intact unfinished old
    · have running := anchored.stacked.top top
      exact survives taken (anchored.stacked.intact _ running) (by simp [destroys_await])

theorem Anchored.not_struck {s : State α} {a : Action α} {e : Fault} (anchored : s.Anchored)
    (struck : Struck s a e) : e ≠ .resumeDestroyed := by
  rintro rfl
  cases struck with
  | assign who rest dst src g _ top target source differ holds failed => cases failed
  | start a who rest c daemon t g below _ top alive holds intact starts failed =>
    cases failed with
    | destroyed gone => simp [intact] at gone
  | await f rest kind t g _ top alive holds intact unfinished plain failed =>
    cases failed with
    | destroyed gone => simp [intact] at gone
  | finishCaller f rest result caller _ top called failed =>
    cases failed with
    | destroyed gone =>
      have running := anchored.stacked.top top
      have intact := anchored.callers f caller (anchored.stacked.intact f running)
        (by simp [running]) called
      simp [intact] at gone
  | finishDestroy f rest result _ top uncalled plain failed => cases failed
  | unwind t tasks pending rest g _ top alive holds failed => cases failed
  | completeDestroyed c rest res op top submitted gone =>
    simp [anchored.ops c op submitted] at gone
  | redispatch c rest res op _ top unseen =>
    rcases unseen with entered | stuck
    · have once := anchored.loops c
      have twice := List.count_pos_iff.mpr entered
      simp only [top, List.count_cons_self] at once
      omega
    · simp [anchored.unstuck c] at stuck

theorem never_resumes_destroyed {actions : List (Action α)}
    (spared : Always State.step Spares init actions) {s : State α}
    (visited : Visits State.step init actions s) : s.fault ≠ some .resumeDestroyed := by
  have preserved : ∀ (s : State α) a next, s.Anchored ∧ s.fault ≠ some .resumeDestroyed →
      s.Spares a → s.step a = some next → next.Anchored ∧ next.fault ≠ some .resumeDestroyed := by
    rintro s a next ⟨anchored, -⟩ spares taken
    exact ⟨step_anchored anchored spares taken, fun fault =>
      anchored.not_struck (step_fault taken fault) rfl⟩
  exact (visits_invariant preserved visited spared ⟨init_anchored, nofun⟩).2

end State

-- A launched task is awaited by reference and dropped after it has finished.
def awaitedThenDropped : List (Action Unit) :=
  [.create none, .blockRun 0 0, .create (some 0), .launch 0 1, .io, .proceed, .await .lvalue 2,
    .proceed, .complete 0 0, .finish (some ()), .drop 2]

theorem never_resumes_destroyed_dropped :
    ∃ s : State Unit, run State.step .init (awaitedThenDropped ++ [.proceed]) = some s ∧
      s.fault ≠ some .resumeDestroyed := by
  have nothing : Always State.step
      (fun s a => s.destroys a = none ∧ s.reenters = false ∧ a.opOnSuccess = true)
      (.init : State Unit) awaitedThenDropped := by decide +kernel
  have last : (run State.step (.init : State Unit) awaitedThenDropped).map
      (fun s => (s.destroys .proceed, s.reenters, (s.step .proceed).isSome)) =
        some (some 1, false, true) := by decide +kernel
  have unused : ∀ c, (run State.step (.init : State Unit) awaitedThenDropped).map
      (fun s => (s.rings c).inflight) = some [] := by
    rintro (_ | c) <;> rfl
  have uncalled : ∀ h, h ≠ 1 → (run State.step (.init : State Unit) awaitedThenDropped).map
      (fun s => (s.frames h).caller) = some none := by
    rintro (_ | _ | h) other
    · rfl
    · exact absurd rfl other
    · rfl
  obtain ⟨s, reached, last⟩ := Option.map_eq_some_iff.mp last
  simp only [reached, Option.map_some, Option.some.injEq] at unused uncalled
  simp only [Prod.mk.injEq] at last
  obtain ⟨next, taken⟩ := Option.isSome_iff_exists.mp last.2.2
  have spares : s.Spares .proceed := by
    refine ⟨fun g destroyed => ?_, last.2.1, rfl⟩
    obtain rfl : 1 = g := by simpa [last.1] using destroyed
    exact ⟨fun c op waiting => by simp [unused] at waiting,
      fun h other _ _ => by simp [uncalled h other]⟩
  have spared : Always State.step State.Spares (.init : State Unit)
      (awaitedThenDropped ++ [.proceed]) := by
    refine always_append.mpr ⟨nothing.mono ?_, fun t reached' => ?_⟩
    · rintro s a ⟨none, outside⟩
      exact ⟨by simp [none], outside⟩
    · obtain rfl : s = t := Option.some.inj (reached.symm.trans reached')
      exact ⟨spares, fun _ _ => trivial⟩
  exact ⟨next, run_snoc reached taken,
    State.never_resumes_destroyed spared (visits_end (run_snoc reached taken))⟩

-- The task that `launch` returned is dropped while its coroutine waits for an operation.
theorem drop_resumes_destroyed :
    ¬ ∀ (actions : List (Action Unit)) (s : State Unit), Visits State.step .init actions s →
      s.fault ≠ some .resumeDestroyed := by
  intro claim
  have ended : (run State.step (.init : State Unit)
      [.create none, .blockRun 0 0, .create (some 0), .launch 0 1, .io, .proceed, .drop 2, .proceed,
        .proceed, .io, .proceed, .complete 0 0]).map State.fault =
      some (some .resumeDestroyed) := by decide +kernel
  obtain ⟨s, reached, fault⟩ := Option.map_eq_some_iff.mp ended
  exact claim _ s (visits_end reached) fault

end KkProxy.Coro
