import KkProxy.Coro.Holders

set_option autoImplicit false

namespace KkProxy.Coro

open Runs

-- The coroutines started by calls of `launch` in progress that the loop did not interrupt.
def returning : List Activation → List Handle
  | [] => []
  | .loop _ :: _ => []
  | .launching _ g :: rest => g :: returning rest
  | _ :: rest => returning rest

section Returning

variable (rest : List Activation) (who : Option Handle) (g : Handle) (c : ContextId)
variable (tasks : List TaskId) (pending : Option (TaskId × TaskId))

@[simp] theorem returning_body : returning (.body who :: rest) = returning rest := rfl
@[simp] theorem returning_launching :
    returning (.launching who g :: rest) = g :: returning rest := rfl
@[simp] theorem returning_entering : returning (.entering c :: rest) = returning rest := rfl
@[simp] theorem returning_loop : returning (.loop c :: rest) = [] := rfl
@[simp] theorem returning_unwinding :
    returning (.unwinding tasks pending :: rest) = returning rest := rfl

end Returning

namespace State

variable {α : Type}

def Finished (s : State α) (g : Handle) : Prop :=
  (s.frames g).destroyed = false ∧ (s.frames g).phase = .final

def NoOrphan (s : State α) : Prop := ∀ g, s.Finished g → ∃ t, s.Holds t g

instance (s : State α) (g : Handle) : Decidable (s.Finished g) :=
  inferInstanceAs (Decidable (_ ∧ _))

instance (s : State α) (t : TaskId) (g : Handle) : Decidable (s.Holds t g) :=
  inferInstanceAs (Decidable (_ ∧ _))

structure Cared (s : State α) : Prop where
  owner : ∀ g, s.Finished g → (∃ t, s.Holds t g) ∨ g ∈ returning s.stack
  released : ∀ tasks dst src rest, s.stack = .unwinding tasks (some (dst, src)) :: rest →
    dst ≠ src ∧ ∀ g, (s.tasks dst).handle = some g → (s.frames g).destroyed = true

theorem init_cared : (init : State α).Cared where
  owner g finished := by simp [Finished, init, Frame.fresh] at finished
  released tasks dst src rest top := by simp [init] at top

/-- Whoever ends a coroutine leaves it to a task or to `launch`, or destroys it. -/
def Accounted (s : State α) (a : Action α) : Prop :=
  match s.stack, a with
  | .body (some f) :: rest, .finish _ =>
    (∃ t < s.taskCount, s.Holds t f) ∨ f ∈ returning rest ∨
      (s.frames f).caller = none ∧ (s.frames f).flags.isDaemon = false
  | .body (some _) :: _, .await .rvalue t => ∀ g ∈ (s.tasks t).handle, ¬ s.Finished g
  | .unwinding [] (some (dst, src)) :: _, .proceed =>
    (s.tasks dst).alive = true ∨ ∀ g ∈ (s.tasks src).handle, ¬ s.Finished g
  | .entering _ :: rest, .proceed => ∀ g ∈ returning rest, ¬ s.Finished g
  | _, _ => True

instance (s : State α) : DecidablePred s.Accounted := fun a => by
  unfold Accounted
  split <;> infer_instance

theorem step_finished {s next : State α} {a : Action α} (taken : s.step a = some next) {g : Handle}
    (finished : next.Finished g) : s.Finished g ∨
      ∃ rest result, s.stack = .body (some g) :: rest ∧ a = .finish result ∧
        returning next.stack = returning rest ∧ next.tasks = s.tasks ∧
          ¬ ((s.frames g).caller = none ∧ (s.frames g).flags.isDaemon = false) := by
  obtain ⟨intact, final⟩ := finished
  have before : (s.frames g).destroyed = false := by
    by_contra gone
    have gone := step_keeps_destroyed taken (by simpa using gone)
    simp [gone] at intact
  rcases step_ends taken final with old | ends
  · exact .inl ⟨before, old⟩
  · cases ends with
    | resumes rest result caller received top ends called =>
      exact .inr ⟨rest, result, top, ends, by simp [top], rfl, by simp [called]⟩
    | stays rest result top ends uncalled daemon =>
      exact .inr ⟨rest, result, top, ends, by simp [top], rfl, by simp [daemon]⟩
    | destroyed => simp [teardown_destroyed] at intact

theorem step_holds {s next : State α} {a : Action α} (cared : s.Cared) (numbered : s.Numbered)
    (accounted : s.Accounted a) (taken : s.step a = some next) {g : Handle} (before : s.Finished g)
    (finished : next.Finished g) {t : TaskId} (held : s.Holds t g) : ∃ u, next.Holds u g := by
  have old : t ≠ s.taskCount := Nat.ne_of_lt (numbered.exists_task held)
  cases (step_effect taken).2 with
  | create who rest home => exact ⟨t, hold_holds.mpr (.inr ⟨old, held⟩)⟩
  | move who rest src home top alive =>
    by_cases moved : t = src
    · subst moved
      exact ⟨s.taskCount, hold_holds.mpr (.inl ⟨rfl, held.2⟩)⟩
    · exact ⟨t, hold_holds.mpr (.inr ⟨old, setHandle_holds.mpr ⟨moved, held⟩⟩)⟩
  | start a who rest c daemon u h below received top alive holds starts resumes =>
    refine ⟨t, setHandle_holds.mpr ⟨?_, held⟩⟩
    rintro rfl
    obtain rfl : h = g := by simpa [holds] using held.2
    exact resumes.suspended.2 (by simpa using before.2)
  | awaitReady f rest kind u h top =>
    refine ⟨t, transform_holds.mpr ⟨?_, held⟩⟩
    rintro rfl rfl
    have accounted : ∀ g ∈ (s.tasks t).handle, ¬ s.Finished g := by
      simpa [Accounted, top] using accounted
    exact accounted g held.2 before
  | awaitDaemon f rest kind u h top alive holds intact unfinished =>
    refine ⟨t, transform_holds.mpr ⟨?_, held⟩⟩
    rintro - rfl
    obtain rfl : h = g := by simpa [holds] using held.2
    exact unfinished before.2
  | awaitStart f rest kind u h received top alive holds intact unfinished =>
    refine ⟨t, transform_holds.mpr ⟨?_, held⟩⟩
    rintro - rfl
    obtain rfl : h = g := by simpa [holds] using held.2
    exact unfinished before.2
  | finishDestroy => exact ⟨t, (holds_congr (by simp)).mpr held⟩
  | unwindEmpty u tasks pending rest top alive empty =>
    refine ⟨t, kill_holds.mpr ⟨?_, held⟩⟩
    rintro rfl
    simp [Holds, empty] at held
  | unwind u tasks pending rest h top alive holds =>
    refine ⟨t, kill_holds.mpr ⟨?_, held⟩⟩
    rintro rfl
    obtain rfl : h = g := by simpa [holds] using held.2
    simp [Finished, teardown_destroyed] at finished
  | assigned dst src rest top =>
    obtain ⟨differ, released⟩ := cared.released [] dst src rest top
    have accounted : (s.tasks dst).alive = true ∨ ∀ g ∈ (s.tasks src).handle, ¬ s.Finished g := by
      simpa [Accounted, top] using accounted
    by_cases source : t = src
    · subst source
      have target := accounted.resolve_right fun none => none g held.2 before
      refine ⟨dst, setHandle_holds.mpr ⟨differ, ?_⟩⟩
      simp [Holds, setHandle_task, target, held.2]
    · have other : t ≠ dst := by
        rintro rfl
        simp [Finished, released g held.2] at before
      refine ⟨t, setHandle_holds.mpr ⟨source, ?_⟩⟩
      simpa [Holds, setHandle_task, other] using held
  | launched who h rest top => exact ⟨t, hold_holds.mpr (.inr ⟨old, held⟩)⟩
  | _ => exact ⟨t, held⟩

theorem step_returning {s next : State α} {a : Action α} (accounted : s.Accounted a)
    (taken : s.step a = some next) {g : Handle} (before : s.Finished g)
    (member : g ∈ returning s.stack) : (∃ t, next.Holds t g) ∨ g ∈ returning next.stack := by
  cases (step_effect taken).2 with
  | start a who rest c daemon u h below received top alive holds starts =>
    refine .inr ?_
    cases starts <;> simp [starting, member]
  | launched who h rest top =>
    have member : g = h ∨ g ∈ returning rest := by simpa [top] using member
    rcases member with rfl | below
    · exact .inl ⟨s.taskCount, hold_holds.mpr (.inl ⟨rfl, rfl⟩)⟩
    · exact .inr below
  | entered c rest top =>
    have accounted : ∀ g ∈ returning rest, ¬ s.Finished g := by
      simpa [Accounted, top] using accounted
    exact absurd before (accounted g (by simpa [top] using member))
  | _ => exact .inr (by simp_all)

theorem step_cared {s next : State α} {a : Action α} (cared : s.Cared) (formed : s.Formed)
    (accounted : s.Accounted a) (taken : s.step a = some next) : next.Cared where
  owner g finished := by
    rcases step_finished taken finished with before | ⟨rest, result, top, rfl, same, tasks, kept⟩
    · rcases cared.owner g before with ⟨t, held⟩ | member
      · exact .inl (step_holds cared formed.numbered accounted taken before finished held)
      · exact step_returning accounted taken before member
    · have accounted : (∃ t < s.taskCount, s.Holds t g) ∨ g ∈ returning rest ∨
          (s.frames g).caller = none ∧ (s.frames g).flags.isDaemon = false := by
        simpa [Accounted, top] using accounted
      rcases accounted with ⟨t, -, held⟩ | member | destroyed
      · exact .inl ⟨t, (holds_congr tasks).mpr held⟩
      · exact .inr (same ▸ member)
      · exact absurd destroyed kept
  released tasks dst src rest top := by
    rcases step_assigning formed.settled taken top with ⟨-, -, differ, same, gone⟩ |
      ⟨tasks', top', same⟩
    · rw [same]
      exact ⟨differ, gone⟩
    · obtain ⟨differ, released⟩ := cared.released tasks' dst src rest top'
      refine ⟨differ, fun g holds => step_keeps_destroyed taken (released g ?_)⟩
      rcases same with same | ⟨t, -, -, same⟩
      · rwa [same] at holds
      · rwa [same, kill_task] at holds

-- Control is in the event loop, has just left it, or is outside all coroutines.
structure Clean (s : State α) : Prop where
  loop : ∀ c rest, s.stack = .loop c :: rest → s.NoOrphan
  returned : ∀ c rest next, s.stack = .loop c :: rest → s.step .proceed = some next → next.NoOrphan
  outside : s.stack = [.body none] → s.NoOrphan

theorem Cared.in_loop {s : State α} (cared : s.Cared) {c : ContextId} {rest : List Activation}
    (top : s.stack = .loop c :: rest) : s.NoOrphan := fun g finished =>
  (cared.owner g finished).resolve_right (by simp [top])

theorem Cared.clean {s : State α} (cared : s.Cared) : s.Clean where
  loop c rest top := cared.in_loop top
  returned c rest next top taken := by
    cases (step_effect taken).2 with
    | fault => exact cared.in_loop top
    | left => exact cared.in_loop top
    | _ => simp_all
  outside top g finished := (cared.owner g finished).resolve_right (by simp [top, returning])

/--
If every coroutine that ends is held by a task, is being launched or destroys itself, no finished
task is awaited as an rvalue or assigned to a target that is gone, and no `block_run` interrupts a
`launch` whose coroutine has finished, then the event loop never finds a finished coroutine that no
task holds.
-/
theorem leaves_no_orphan {actions : List (Action α)}
    (accounted : Always State.step Accounted init actions) {s : State α}
    (visited : Visits State.step init actions s) : s.Clean := by
  have preserved : ∀ (s : State α) a next, s.Cared ∧ s.Formed → s.Accounted a →
      s.step a = some next → next.Cared ∧ next.Formed := by
    rintro s a next ⟨cared, formed⟩ accounted taken
    exact ⟨step_cared cared formed accounted taken, step_formed formed taken⟩
  exact (visits_invariant preserved visited accounted ⟨init_cared, init_formed⟩).1.clean

end State

-- A launched task ends, its task object is dropped, and then the root ends.
def launchedThenDropped : List (Action Unit) :=
  [.create none, .blockRun 0 0, .create (some 0), .launch 0 1, .finish (some ()), .proceed, .drop 2,
    .proceed, .proceed, .finish (some ()), .proceed, .proceed]

theorem leaves_no_orphan_dropped :
    ∃ s : State Unit, run State.step .init launchedThenDropped = some s ∧ s.Clean := by
  have ended : (run State.step (.init : State Unit) launchedThenDropped).isSome := by
    decide +kernel
  obtain ⟨s, reached⟩ := Option.isSome_iff_exists.mp ended
  exact ⟨s, reached, State.leaves_no_orphan (by decide +kernel) (visits_end reached)⟩

def detachedEnds : List (Action Unit) :=
  [.create none, .blockRun 0 0, .create (some 0), .launchDetached 0 1, .finish (some ()),
    .finish (some ()), .proceed, .proceed, .proceed]

theorem detached_is_orphaned :
    ¬ ∀ (actions : List (Action Unit)) (s : State Unit), Visits State.step .init actions s →
      s.Clean := by
  intro claim
  have ended : (run State.step (.init : State Unit) detachedEnds).map
      (fun s => (s.stack, decide (s.Finished 1))) = some ([.loop 0, .body none], true) := by
    decide +kernel
  have empty : ∀ t, (run State.step (.init : State Unit) detachedEnds).map
      (fun s => (s.tasks t).handle) = some none := by
    rintro (_ | _ | t) <;> rfl
  obtain ⟨s, reached, view⟩ := Option.map_eq_some_iff.mp ended
  simp only [Prod.mk.injEq, decide_eq_true_eq] at view
  simp only [reached, Option.map_some, Option.some.injEq] at empty
  obtain ⟨t, held⟩ := (claim _ s (visits_end reached)).loop 0 _ view.1 1 view.2
  simp [State.Holds, empty] at held

end KkProxy.Coro
