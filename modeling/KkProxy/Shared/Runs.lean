import Mathlib.Data.List.Basic

set_option autoImplicit false

namespace KkProxy.Runs

variable {S A : Type}

def run (step : S → A → Option S) : S → List A → Option S
  | s, [] => some s
  | s, a :: rest => (step s a).bind fun next => run step next rest

/-- Every step of the run meets `ok` at the state in which it is taken. -/
def Always (step : S → A → Option S) (ok : S → A → Prop) : S → List A → Prop
  | _, [] => True
  | s, a :: rest => ok s a ∧ ∀ next, step s a = some next → Always step ok next rest

/-- `t` is one of the states the run passes through, its first and last included. -/
def Visits (step : S → A → Option S) (s : S) (inputs : List A) (t : S) : Prop :=
  ∃ before after, inputs = before ++ after ∧ run step s before = some t

variable {step : S → A → Option S} {ok : S → A → Prop}

@[simp] theorem run_nil (s : S) : run step s [] = some s := rfl

theorem run_cons (s : S) (a : A) (rest : List A) :
    run step s (a :: rest) = (step s a).bind fun next => run step next rest := rfl

theorem run_append (s : S) (first second : List A) :
    run step s (first ++ second) = (run step s first).bind fun t => run step t second := by
  induction first generalizing s with
  | nil => rfl
  | cons a rest ih =>
    simp only [List.cons_append, run_cons]
    cases step s a with
    | none => rfl
    | some next => exact ih next

theorem run_cons_some {s t : S} {a : A} {rest : List A} (h : run step s (a :: rest) = some t) :
    ∃ next, step s a = some next ∧ run step next rest = some t := by
  rw [run_cons] at h
  cases taken : step s a with
  | none => simp [taken] at h
  | some next => exact ⟨next, rfl, by simpa [taken] using h⟩

theorem run_snoc {s t u : S} {before : List A} {a : A}
    (reached : run step s before = some t) (taken : step t a = some u) :
    run step s (before ++ [a]) = some u := by
  simp [run_append, reached, run_cons, taken]

theorem run_snoc_some {s u : S} {before : List A} {a : A}
    (h : run step s (before ++ [a]) = some u) :
    ∃ t, run step s before = some t ∧ step t a = some u := by
  rw [run_append] at h
  cases reached : run step s before with
  | none => simp [reached] at h
  | some t =>
    refine ⟨t, rfl, ?_⟩
    simpa [reached, run_cons] using h

-- What every allowed step preserves holds at the end of every allowed run.
theorem run_invariant {inv : S → Prop}
    (preserved : ∀ s a t, inv s → ok s a → step s a = some t → inv t)
    {s t : S} {inputs : List A} (reached : run step s inputs = some t)
    (allowed : Always step ok s inputs) (start : inv s) : inv t := by
  induction inputs generalizing s with
  | nil =>
    obtain rfl : s = t := by simpa using reached
    exact start
  | cons a rest ih =>
    obtain ⟨next, taken, tail⟩ := run_cons_some reached
    exact ih tail (allowed.2 next taken) (preserved s a next start allowed.1 taken)

-- The invariant may also speak of the inputs that led to the state.
theorem run_history {inv : List A → S → Prop}
    (preserved : ∀ before s a t, inv before s → ok s a → step s a = some t → inv (before ++ [a]) t)
    {before inputs : List A} {s t : S} (reached : run step s inputs = some t)
    (allowed : Always step ok s inputs) (start : inv before s) : inv (before ++ inputs) t := by
  induction inputs generalizing before s with
  | nil =>
    obtain rfl : s = t := by simpa using reached
    simpa using start
  | cons a rest ih =>
    obtain ⟨next, taken, tail⟩ := run_cons_some reached
    have later := ih tail (allowed.2 next taken) (preserved before s a next start allowed.1 taken)
    rwa [List.append_assoc] at later

theorem always_append {s : S} {first second : List A} :
    Always step ok s (first ++ second) ↔
      Always step ok s first ∧ ∀ t, run step s first = some t → Always step ok t second := by
  induction first generalizing s with
  | nil => simp [Always]
  | cons a rest ih =>
    simp only [List.cons_append, Always, ih, run_cons]
    constructor
    · rintro ⟨head, tail⟩
      refine ⟨⟨head, fun next taken => (tail next taken).1⟩, fun t reached => ?_⟩
      cases taken : step s a with
      | none => simp [taken] at reached
      | some next => exact (tail next taken).2 t (by simpa [taken] using reached)
    · rintro ⟨⟨head, tail⟩, after⟩
      exact ⟨head, fun next taken =>
        ⟨tail next taken, fun t reached => after t (by simpa [taken] using reached)⟩⟩

theorem always_iff {s : S} {inputs : List A} :
    Always step ok s inputs ↔
      ∀ before a after, inputs = before ++ a :: after →
        ∀ t, run step s before = some t → ok t a := by
  constructor
  · rintro allowed before a after rfl t reached
    exact ((always_append.mp allowed).2 t reached).1
  · intro each
    induction inputs generalizing s with
    | nil => trivial
    | cons a rest ih =>
      refine ⟨each [] a rest rfl s rfl, fun next taken => ih ?_⟩
      rintro before b after rfl t reached
      exact each (a :: before) b after rfl t (by simp [run_cons, taken, reached])

theorem always_true (s : S) (inputs : List A) : Always step (fun _ _ => True) s inputs := by
  rw [always_iff]
  intros
  trivial

theorem Always.mono {weaker : S → A → Prop} (weaken : ∀ s a, ok s a → weaker s a)
    {s : S} {inputs : List A} (allowed : Always step ok s inputs) : Always step weaker s inputs := by
  rw [always_iff] at allowed ⊢
  intro before a after split t reached
  exact weaken t a (allowed before a after split t reached)

theorem Always.and {other : S → A → Prop} {s : S} {inputs : List A}
    (first : Always step ok s inputs) (second : Always step other s inputs) :
    Always step (fun s a => ok s a ∧ other s a) s inputs := by
  rw [always_iff] at *
  exact fun before a after split t reached =>
    ⟨first before a after split t reached, second before a after split t reached⟩

theorem always_of_forall {p : A → Prop} {inputs : List A} (each : ∀ a ∈ inputs, p a) (s : S) :
    Always step (fun _ a => p a) s inputs := by
  rw [always_iff]
  rintro before a after rfl t -
  exact each a (by simp)

instance decidableAlways [∀ s a, Decidable (ok s a)] :
    ∀ (s : S) (inputs : List A), Decidable (Always step ok s inputs)
  | _, [] => .isTrue trivial
  | s, a :: rest =>
    match taken : step s a with
    | none => decidable_of_iff (ok s a) (by simp [Always, taken])
    | some next =>
      have := decidableAlways next rest
      decidable_of_iff (ok s a ∧ Always step ok next rest) (by simp [Always, taken])

theorem visits_end {s t : S} {inputs : List A} (reached : run step s inputs = some t) :
    Visits step s inputs t := ⟨inputs, [], by simp, reached⟩

theorem Visits.allowed {s t : S} {inputs : List A} (visited : Visits step s inputs t)
    (allowed : Always step ok s inputs) :
    ∃ before, run step s before = some t ∧ Always step ok s before := by
  obtain ⟨before, after, rfl, reached⟩ := visited
  exact ⟨before, reached, (always_append.mp allowed).1⟩

theorem visits_invariant {inv : S → Prop}
    (preserved : ∀ s a t, inv s → ok s a → step s a = some t → inv t)
    {s t : S} {inputs : List A} (visited : Visits step s inputs t)
    (allowed : Always step ok s inputs) (start : inv s) : inv t := by
  obtain ⟨before, reached, earlier⟩ := visited.allowed allowed
  exact run_invariant preserved reached earlier start

theorem Always.of_invariant {inv : S → Prop} {other : S → A → Prop}
    (preserved : ∀ s a t, inv s → ok s a → step s a = some t → inv t)
    (gives : ∀ s a, inv s → ok s a → other s a) {s : S} {inputs : List A}
    (allowed : Always step ok s inputs) (start : inv s) : Always step other s inputs := by
  induction inputs generalizing s with
  | nil => trivial
  | cons a rest ih =>
    exact ⟨gives s a start allowed.1, fun next taken =>
      ih (allowed.2 next taken) (preserved s a next start allowed.1 taken)⟩

theorem Always.of_taken {inv : S → Prop} {other : S → A → Prop}
    (gives : ∀ s a t, inv s → ok s a → step s a = some t → other s a)
    (preserved : ∀ s a t, inv s → other s a → step s a = some t → inv t) {s t : S}
    {inputs : List A} (reached : run step s inputs = some t) (allowed : Always step ok s inputs)
    (start : inv s) : Always step other s inputs := by
  induction inputs generalizing s with
  | nil => trivial
  | cons a rest ih =>
    obtain ⟨next, taken, tail⟩ := run_cons_some reached
    have head := gives s a next start allowed.1 taken
    refine ⟨head, fun next' taken' => ?_⟩
    obtain rfl : next = next' := Option.some.inj (taken.symm.trans taken')
    exact ih tail (allowed.2 next taken) (preserved s a next start head taken)

-- Two conditions agree on a run if they agree wherever the run has met them so far.
theorem always_congr_of {inv : S → Prop} {other : S → A → Prop}
    (preserved : ∀ s a t, inv s → ok s a → step s a = some t → inv t)
    (same : ∀ s a, inv s → (ok s a ↔ other s a)) {s : S} {inputs : List A} (start : inv s) :
    Always step ok s inputs ↔ Always step other s inputs := by
  induction inputs generalizing s with
  | nil => exact Iff.rfl
  | cons a rest ih =>
    have later (head : ok s a) (next : S) (taken : step s a = some next) :
        Always step ok next rest ↔ Always step other next rest :=
      ih (preserved s a next start head taken)
    constructor
    · rintro ⟨head, tail⟩
      exact ⟨(same s a start).mp head, fun next taken => (later head next taken).mp (tail next taken)⟩
    · rintro ⟨head, tail⟩
      have head := (same s a start).mpr head
      exact ⟨head, fun next taken => (later head next taken).mpr (tail next taken)⟩

theorem always_congr {inv : S → Prop} {other : S → A → Prop}
    (preserved : ∀ s a t, inv s → step s a = some t → inv t)
    (same : ∀ s a, inv s → (ok s a ↔ other s a)) {s : S} {inputs : List A} (start : inv s) :
    Always step ok s inputs ↔ Always step other s inputs :=
  always_congr_of (fun s a t before _ => preserved s a t before) same start

-- A forward simulation: the runs of two machines on the same inputs stay related.
theorem run_rel {S' : Type} {step' : S' → A → Option S'} {related : S → S' → Prop}
    (simulated : ∀ s t a, related s t → Option.Rel related (step s a) (step' t a))
    {s : S} {t : S'} (inputs : List A) (start : related s t) :
    Option.Rel related (run step s inputs) (run step' t inputs) := by
  induction inputs generalizing s t with
  | nil => exact .some start
  | cons a rest ih =>
    have first := simulated s t a start
    rw [run_cons, run_cons]
    generalize step s a = next at first
    generalize step' t a = next' at first
    cases first with
    | none => exact .none
    | some later => exact ih later

theorem exists_first_failure {s : S} {inputs : List A} (fails : ¬ Always step ok s inputs) :
    ∃ before a after t, inputs = before ++ a :: after ∧ run step s before = some t ∧
      Always step ok s before ∧ ¬ ok t a := by
  induction inputs generalizing s with
  | nil => exact absurd trivial fails
  | cons a rest ih =>
    by_cases head : ok s a
    · have later : ∃ next, step s a = some next ∧ ¬ Always step ok next rest := by
        by_contra none
        exact fails ⟨head, fun next taken => by_contra fun bad => none ⟨next, taken, bad⟩⟩
      obtain ⟨next, taken, bad⟩ := later
      obtain ⟨before, b, after, t, rfl, reached, allowed, failed⟩ := ih bad
      refine ⟨a :: before, b, after, t, rfl, by simp [run_cons, taken, reached], ?_, failed⟩
      exact ⟨head, fun other same => by
        obtain rfl : next = other := by simpa [taken] using same
        exact allowed⟩
    · exact ⟨[], a, rest, s, rfl, rfl, trivial, head⟩

section History

variable {H : Type}

/-- A machine with a history variable, which the steps extend and never read. -/
def watching (step : S → A → Option S) (note : S → A → S → H → H) : S × H → A → Option (S × H)
  | (s, h), a => (step s a).map fun t => (t, note s a t h)

variable {note : S → A → S → H → H}

theorem watching_some {w w' : S × H} {a : A} (taken : watching step note w a = some w') :
    ∃ t, step w.1 a = some t ∧ w' = (t, note w.1 a t w.2) := by
  obtain ⟨t, moved, rfl⟩ := Option.map_eq_some_iff.mp taken
  exact ⟨t, moved, rfl⟩

theorem run_watching (w : S × H) (inputs : List A) :
    (run (watching step note) w inputs).map Prod.fst = run step w.1 inputs := by
  induction inputs generalizing w with
  | nil => rfl
  | cons a rest ih =>
    rw [run_cons, run_cons]
    cases taken : step w.1 a with
    | none => simp [watching, taken]
    | some t => simp [watching, taken, ih]

theorem visits_watching (w : S × H) {inputs : List A} {t : S}
    (visited : Visits step w.1 inputs t) :
    ∃ h, Visits (watching step note) w inputs (t, h) := by
  obtain ⟨before, after, split, reached⟩ := visited
  rw [← run_watching] at reached
  obtain ⟨⟨t, h⟩, watched, rfl⟩ := Option.map_eq_some_iff.mp reached
  exact ⟨h, before, after, split, watched⟩

end History

end KkProxy.Runs
