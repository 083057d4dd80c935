import KkProxy.Shared.Runs
import Mathlib.Data.List.Infix
import Mathlib.Logic.Function.Basic
import Mathlib.Tactic.Common

set_option autoImplicit false

namespace KkProxy.Shared

open Runs

inductive Side where
  | left | right
deriving DecidableEq, Repr

namespace Side

def other : Side → Side
  | .left => .right
  | .right => .left

@[simp] theorem other_other (side : Side) : side.other.other = side := by cases side <;> rfl

@[simp] theorem other_ne (side : Side) : side.other ≠ side := by cases side <;> decide

@[simp] theorem ne_other (side : Side) : side ≠ side.other := by cases side <;> decide

theorem eq_other {side mine : Side} (differ : side ≠ mine) : side = mine.other := by
  cases side <;> cases mine <;> first | rfl | exact absurd rfl differ

end Side

/-- A machine, with all that it has sent so far and all that it has got. -/
structure Talker (S A α : Type) where
  step : S → A → Option S
  sent : S → List α
  got : S → List α

section Growth

variable {S A α : Type} {t : Talker S A α}

structure Talker.Extends (t : Talker S A α) (s s' : S) : Prop where
  sent : t.sent s <+: t.sent s'
  got : t.got s <+: t.got s'

theorem Talker.Extends.refl (s : S) : t.Extends s s := ⟨List.prefix_rfl, List.prefix_rfl⟩

theorem Talker.Extends.trans {s s' s'' : S} (first : t.Extends s s') (second : t.Extends s' s'') :
    t.Extends s s'' := ⟨first.sent.trans second.sent, first.got.trans second.got⟩

def Talker.Grows (t : Talker S A α) : Prop := ∀ s a s', t.step s a = some s' → t.Extends s s'

theorem Talker.Grows.run (grows : t.Grows) {s s' : S} {inputs : List A}
    (reached : run t.step s inputs = some s') : t.Extends s s' :=
  run_invariant (fun u a u' before _ taken => before.trans (grows u a u' taken)) reached
    (always_true s inputs) (.refl s)

end Growth

structure Duplex (S α : Type) where
  ends : Side → S
  -- What this end has sent and the other has not got yet.
  wire : Side → List α

namespace Duplex

variable {S A α : Type}

def start (ends : Side → S) : Duplex S α := { ends, wire := fun _ => [] }

def departed (t : Talker S A α) (s s' : S) : List α := (t.sent s').drop (t.sent s).length

def arrived (t : Talker S A α) (s s' : S) : List α := (t.got s').drop (t.got s).length

def advance (t : Talker S A α) (d : Duplex S α) (side : Side) (s : S) : Duplex S α :=
  { ends := Function.update d.ends side s
    wire := fun from' =>
      if from' = side then d.wire from' ++ departed t (d.ends side) s
      else (d.wire from').drop (arrived t (d.ends side) s).length }

/-- One end takes a step, in which it can only get what comes next on its wire. -/
def step [DecidableEq α] (t : Talker S A α) (d : Duplex S α) (input : Side × A) :
    Option (Duplex S α) :=
  (t.step (d.ends input.1) input.2).bind fun s =>
    if arrived t (d.ends input.1) s <+: d.wire input.1.other then some (d.advance t input.1 s)
    else none

/-- All that one end has sent is, in order, what the other has got and what is on the wire. -/
def Conserved (t : Talker S A α) (d : Duplex S α) : Prop :=
  ∀ side, t.got (d.ends side.other) ++ d.wire side = t.sent (d.ends side)

section Advance

variable {t : Talker S A α} {d : Duplex S α} {side : Side} {s : S}

@[simp] theorem advance_end : (d.advance t side s).ends side = s := Function.update_self ..

@[simp] theorem advance_other : (d.advance t side s).ends side.other = d.ends side.other :=
  Function.update_of_ne side.other_ne ..

@[simp] theorem advance_wire :
    (d.advance t side s).wire side = d.wire side ++ departed t (d.ends side) s := if_pos rfl

@[simp] theorem advance_wire_other : (d.advance t side s).wire side.other =
    (d.wire side.other).drop (arrived t (d.ends side) s).length := if_neg side.other_ne

theorem Talker.Extends.sent_eq {s' : S} (grown : t.Extends s s') :
    t.sent s' = t.sent s ++ departed t s s' := by
  obtain ⟨rest, same⟩ := grown.sent
  simp [departed, ← same]

theorem Talker.Extends.got_eq {s' : S} (grown : t.Extends s s') :
    t.got s' = t.got s ++ arrived t s s' := by
  obtain ⟨rest, same⟩ := grown.got
  simp [arrived, ← same]

theorem advance_conserved (conserved : d.Conserved t) (grown : t.Extends (d.ends side) s)
    (next : arrived t (d.ends side) s <+: d.wire side.other) :
    (d.advance t side s).Conserved t := by
  intro from'
  by_cases mine : from' = side
  · subst mine
    have before := conserved from'
    rw [advance_other, advance_wire, advance_end, Talker.Extends.sent_eq grown, ← before,
      List.append_assoc]
  · obtain rfl := Side.eq_other mine
    have before := conserved side.other
    obtain ⟨rest, split⟩ := next
    rw [Side.other_other] at before ⊢
    rw [advance_other, advance_wire_other, advance_end, Talker.Extends.got_eq grown, ← before,
      ← split, List.drop_left, List.append_assoc]

end Advance

variable [DecidableEq α] {t : Talker S A α} {d d' : Duplex S α}

theorem step_advance {side : Side} {a : A} (taken : d.step t (side, a) = some d') :
    ∃ s, t.step (d.ends side) a = some s ∧ arrived t (d.ends side) s <+: d.wire side.other ∧
      d' = d.advance t side s := by
  obtain ⟨s, moved, ends⟩ := Option.bind_eq_some_iff.mp taken
  dsimp only at ends
  split_ifs at ends with next
  exact ⟨s, moved, next, (Option.some.inj ends).symm⟩

omit [DecidableEq α] in
theorem start_conserved {ends : Side → S} (fresh : ∀ side, t.sent (ends side) = [])
    (deaf : ∀ side, t.got (ends side) = []) : (start ends : Duplex S α).Conserved t := by
  intro side
  simp [start, fresh, deaf]

theorem step_conserved (conserved : d.Conserved t) {input : Side × A}
    (grown : ∀ s, t.step (d.ends input.1) input.2 = some s → t.Extends (d.ends input.1) s)
    (taken : d.step t input = some d') : d'.Conserved t := by
  obtain ⟨side, a⟩ := input
  obtain ⟨s, moved, next, rfl⟩ := step_advance taken
  exact advance_conserved conserved (grown s moved) next

theorem run_conserved (grows : t.Grows) {inputs : List (Side × A)}
    (reached : run (step t) d inputs = some d') (conserved : d.Conserved t) : d'.Conserved t :=
  run_invariant (fun _ _ _ before _ taken =>
    step_conserved before (fun s moved => grows _ _ s moved) taken) reached (always_true _ _)
    conserved

-- What the steps of one machine preserve holds of both ends.
theorem step_ends {inv : Side → S → Prop} {ok : Side → S → A → Prop}
    (preserved : ∀ side s a s', inv side s → ok side s a → t.step s a = some s' → inv side s')
    (before : ∀ side, inv side (d.ends side)) {input : Side × A}
    (allowed : ok input.1 (d.ends input.1) input.2) (taken : d.step t input = some d')
    (side : Side) : inv side (d'.ends side) := by
  obtain ⟨mine, a⟩ := input
  obtain ⟨s, moved, -, rfl⟩ := step_advance taken
  by_cases same : side = mine
  · subst same
    rw [advance_end]
    exact preserved side _ a s (before side) allowed moved
  · obtain rfl := Side.eq_other same
    rw [advance_other]
    exact before _

def inputsOf (side : Side) (inputs : List (Side × A)) : List A :=
  inputs.filterMap fun input => if input.1 = side then some input.2 else none

theorem run_end (side : Side) {inputs : List (Side × A)}
    (reached : run (step t) d inputs = some d') :
    run t.step (d.ends side) (inputsOf side inputs) = some (d'.ends side) := by
  induction inputs generalizing d with
  | nil =>
    obtain rfl : d = d' := by simpa using reached
    rfl
  | cons input rest ih =>
    obtain ⟨middle, taken, later⟩ := run_cons_some reached
    obtain ⟨mine, a⟩ := input
    obtain ⟨s, moved, -, rfl⟩ := step_advance taken
    have after := ih later
    by_cases same : mine = side
    · subst same
      rw [advance_end] at after
      simpa [inputsOf, run_cons, moved] using after
    · obtain rfl : side = mine.other := Side.eq_other (Ne.symm same)
      rw [advance_other] at after
      simpa [inputsOf, same] using after

theorem always_end (ok : Side → S → A → Prop) (side : Side) {inputs : List (Side × A)}
    (reached : run (step t) d inputs = some d')
    (allowed : Always (step t) (fun d input => ok input.1 (d.ends input.1) input.2) d inputs) :
    Always t.step (ok side) (d.ends side) (inputsOf side inputs) := by
  induction inputs generalizing d with
  | nil => trivial
  | cons input rest ih =>
    obtain ⟨middle, taken, later⟩ := run_cons_some reached
    have after := ih later (allowed.2 middle taken)
    obtain ⟨mine, a⟩ := input
    obtain ⟨s, moved, -, rfl⟩ := step_advance taken
    by_cases same : mine = side
    · subst same
      rw [advance_end] at after
      have own : inputsOf mine ((mine, a) :: rest) = a :: inputsOf mine rest := by
        simp [inputsOf]
      rw [own]
      refine ⟨allowed.1, fun next moved' => ?_⟩
      obtain rfl : s = next := Option.some.inj (moved.symm.trans moved')
      exact after
    · obtain rfl : side = mine.other := Side.eq_other (Ne.symm same)
      rw [advance_other] at after
      simpa [inputsOf, same] using after

section Refinement

variable {S' A' : Type} {u : Talker S' A' α}

-- One end can go on as if it were alone, as long as it gets what comes next on its wire.
theorem run_one_end (grows : u.Grows) (side : Side) (calls : List A') {e : Duplex S' α} {p : S'}
    (alone : run u.step (e.ends side) calls = some p)
    (next : arrived u (e.ends side) p <+: e.wire side.other) :
    ∃ e', run (step u) e (calls.map fun a => (side, a)) = some e' ∧ e'.ends side = p ∧
      e'.ends side.other = e.ends side.other := by
  induction calls generalizing e with
  | nil =>
    obtain rfl : e.ends side = p := by simpa using alone
    exact ⟨e, rfl, rfl, rfl⟩
  | cons a rest ih =>
    obtain ⟨q, moved, later⟩ := run_cons_some alone
    obtain ⟨more, whole⟩ := (Talker.Grows.run grows later).got
    have first := Talker.Extends.got_eq (grows _ a q moved)
    have rest' : arrived u q p = more := by rw [arrived, ← whole, List.drop_left]
    -- What arrives in all is what arrives now and what arrives in the later steps.
    have split : arrived u (e.ends side) p = arrived u (e.ends side) q ++ arrived u q p := by
      have got : u.got p = u.got (e.ends side) ++ (arrived u (e.ends side) q ++ more) := by
        rw [← whole, ← List.append_assoc, ← first]
      rw [rest', arrived, got, List.drop_left]
    rw [split] at next
    have now : arrived u (e.ends side) q <+: e.wire side.other :=
      (List.prefix_append _ _).trans next
    have taken : e.step u (side, a) = some (e.advance u side q) := by
      simp [step, moved, now]
    have remaining : arrived u ((e.advance u side q).ends side) p <+:
        (e.advance u side q).wire side.other := by
      obtain ⟨rest', same⟩ := next
      refine ⟨rest', ?_⟩
      rw [advance_end, advance_wire_other, ← same, List.append_assoc, List.drop_left]
    rw [← advance_end (t := u) (d := e) (s := q)] at later
    obtain ⟨e', reached, mine, others⟩ := ih later remaining
    exact ⟨e', by simpa [run_cons, taken] using reached, mine, others.trans advance_other⟩

/--
If every step of a machine is a run of another, which has got as much and sent at least as much,
then two connected machines of the first kind run as two connected machines of the second.
-/
theorem refines (abs : S → S') {inv : Side → S → Prop} {ok : Side → S → A → Prop}
    {plays : Side → A' → Prop} (growsU : u.Grows)
    (preserved : ∀ side s a s', inv side s → ok side s a → t.step s a = some s' →
      inv side s' ∧ t.Extends s s')
    (got : ∀ side s, inv side s → u.got (abs s) = t.got s)
    (sent : ∀ side s, inv side s → t.sent s <+: u.sent (abs s))
    (matched : ∀ side s a s', inv side s → ok side s a → t.step s a = some s' →
      ∃ calls, run u.step (abs s) calls = some (abs s') ∧ ∀ c ∈ calls, plays side c)
    {inputs : List (Side × A)} (reached : run (step t) d inputs = some d')
    (allowed : Always (step t) (fun d input => ok input.1 (d.ends input.1) input.2) d inputs)
    (before : ∀ side, inv side (d.ends side)) (conserved : d.Conserved t) {e : Duplex S' α}
    (same : ∀ side, e.ends side = abs (d.ends side)) (conserved' : e.Conserved u) :
    ∃ calls e', run (step u) e calls = some e' ∧ (∀ c ∈ calls, plays c.1 c.2) ∧
      ∀ side, e'.ends side = abs (d'.ends side) := by
  induction inputs generalizing d e with
  | nil =>
    obtain rfl : d = d' := by simpa using reached
    exact ⟨[], e, rfl, by simp, same⟩
  | cons input rest ih =>
    obtain ⟨middle, taken, later⟩ := run_cons_some reached
    have after := step_ends (fun side s a s' before allowed moved =>
      (preserved side s a s' before allowed moved).1) before allowed.1 taken
    have conserved₁ := step_conserved conserved (fun s moved =>
      (preserved input.1 _ _ s (before input.1) allowed.1 moved).2) taken
    obtain ⟨side, a⟩ := input
    obtain ⟨s, moved, next, rfl⟩ := step_advance taken
    obtain ⟨calls, alone, played⟩ := matched side _ a s (before side) allowed.1 moved
    have kept := after side
    rw [advance_end] at kept
    -- The wire of the second connection carries at least what that of the first does.
    have longer : d.wire side.other <+: e.wire side.other := by
      have mine := conserved side.other
      have theirs := conserved' side.other
      simp only [Side.other_other, same, got side _ (before side)] at mine theirs
      have ahead := sent side.other _ (before side.other)
      rw [← mine, ← theirs] at ahead
      exact (List.prefix_append_right_inj _).mp ahead
    have arrives : arrived u (e.ends side) (abs s) <+: e.wire side.other := by
      have equal : arrived u (e.ends side) (abs s) = arrived t (d.ends side) s := by
        simp only [arrived, same, got side _ (before side), got side _ kept]
      rw [equal]
      exact next.trans longer
    obtain ⟨e', reached', mine, others⟩ :=
      run_one_end growsU side calls (e := e) (by rw [same]; exact alone) arrives
    have conserved'' : e'.Conserved u := run_conserved growsU reached' conserved'
    have matches' : ∀ side', e'.ends side' = abs ((d.advance t side s).ends side') := by
      intro side'
      by_cases which : side' = side
      · subst which
        rw [mine, advance_end]
      · obtain rfl := Side.eq_other which
        rw [others, advance_other, same]
    obtain ⟨more, e'', final, plays', ends⟩ := ih later (allowed.2 _ taken) after
      conserved₁ matches' conserved''
    refine ⟨calls.map (fun a => (side, a)) ++ more, e'', ?_, ?_, ends⟩
    · rw [run_append, reached', Option.bind_some, final]
    · intro c member
      obtain member | member := List.mem_append.mp member
      · obtain ⟨a, own, rfl⟩ := List.mem_map.mp member
        exact played a own
      · exact plays' c member

end Refinement

end Duplex

end KkProxy.Shared
