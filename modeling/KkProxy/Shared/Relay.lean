import KkProxy.Shared.Conveyor
import Mathlib.Data.List.Nodup
import Mathlib.Logic.Function.Basic
import Mathlib.Tactic.Common

set_option autoImplicit false

namespace KkProxy.Shared

structure Relay (ι α : Type) where
  made : List α
  queued : List α
  carried : ι → List α
  -- The carriers that carry something, in the order in which they took it.
  line : List ι
  shipped : List α

namespace Relay

variable {ι α : Type} [DecidableEq ι]

def refill (r : Relay ι α) (i : ι) (items batch rest : List α) : Relay ι α :=
  { r with
    made := r.made ++ items
    queued := rest
    carried := Function.update r.carried i batch
    line := if batch = [] then r.line else r.line ++ [i] }

def ship (r : Relay ι α) (i : ι) (n : Nat) : Relay ι α :=
  { r with
    carried := Function.update r.carried i ((r.carried i).drop n)
    line := if (r.carried i).drop n = [] then r.line.erase i else r.line
    shipped := r.shipped ++ (r.carried i).take n }

/-- What was shipped, is carried and is queued makes up, in this order, all that was made. -/
structure InLine (r : Relay ι α) : Prop where
  conserved : r.shipped ++ r.line.flatMap r.carried ++ r.queued = r.made
  nodup : r.line.Nodup
  carrying : ∀ i, i ∈ r.line ↔ r.carried i ≠ []

omit [DecidableEq ι] in
theorem InLine.shipped_prefix {r : Relay ι α} (inLine : r.InLine) : r.shipped <+: r.made :=
  ⟨r.line.flatMap r.carried ++ r.queued, by rw [← List.append_assoc, inLine.conserved]⟩

theorem flatMap_update_of_notMem (line : List ι) (carried : ι → List α) {i : ι} (absent : i ∉ line)
    (batch : List α) :
    line.flatMap (Function.update carried i batch) = line.flatMap carried := by
  refine List.flatMap_congr fun j member => Function.update_of_ne ?_ _ _
  rintro rfl
  exact absent member

theorem InLine.carrying_update {r : Relay ι α} (inLine : r.InLine) {i : ι} {batch : List α}
    {line : List ι} (own : i ∈ line ↔ batch ≠ [])
    (others : ∀ j, j ≠ i → (j ∈ line ↔ j ∈ r.line)) (j : ι) :
    j ∈ line ↔ Function.update r.carried i batch j ≠ [] := by
  by_cases same : j = i
  · subst same
    rw [Function.update_self]
    exact own
  · rw [Function.update_of_ne same, others j same]
    exact inLine.carrying j

theorem refill_inLine {r : Relay ι α} (inLine : r.InLine) {i : ι} (idle : r.carried i = [])
    {items batch rest : List α} (split : batch ++ rest = r.queued ++ items) :
    (r.refill i items batch rest).InLine := by
  have absent : i ∉ r.line := fun member => (inLine.carrying i).mp member idle
  have same := flatMap_update_of_notMem r.line r.carried absent batch
  have conserved : r.shipped ++ r.line.flatMap r.carried ++ (batch ++ rest) = r.made ++ items := by
    rw [split, ← List.append_assoc, inLine.conserved]
  by_cases none : batch = []
  · have line : (r.refill i items batch rest).line = r.line := if_pos none
    refine ⟨?_, line ▸ inLine.nodup, fun j => ?_⟩
    · rw [line]
      change r.shipped ++ r.line.flatMap (Function.update r.carried i batch) ++ rest =
        r.made ++ items
      rw [same]
      simpa [none] using conserved
    · rw [line]
      exact inLine.carrying_update (by simp [absent, none]) (fun _ _ => Iff.rfl) j
  · have line : (r.refill i items batch rest).line = r.line ++ [i] := if_neg none
    refine ⟨?_, ?_, fun j => ?_⟩
    · rw [line]
      change r.shipped ++ (r.line ++ [i]).flatMap (Function.update r.carried i batch) ++ rest =
        r.made ++ items
      rw [List.flatMap_append, same, List.flatMap_singleton, Function.update_self]
      simpa only [List.append_assoc] using conserved
    · rw [line]
      exact inLine.nodup.append (List.nodup_singleton i) (by simpa using absent)
    · rw [line]
      exact inLine.carrying_update (by simp [none]) (fun j other => by simp [other]) j

theorem ship_inLine {r : Relay ι α} (inLine : r.InLine) {i : ι} (first : r.line.head? = some i)
    (n : Nat) : (r.ship i n).InLine := by
  obtain ⟨later, line⟩ : ∃ later, r.line = i :: later := List.head?_eq_some_iff.mp first
  obtain ⟨absent, nodup⟩ : i ∉ later ∧ later.Nodup := List.nodup_cons.mp (line ▸ inLine.nodup)
  have same := flatMap_update_of_notMem later r.carried absent ((r.carried i).drop n)
  have conserved : r.shipped ++ (r.carried i).take n ++ ((r.carried i).drop n ++
      later.flatMap r.carried) ++ r.queued = r.made := by
    rw [← inLine.conserved, line, List.flatMap_cons, List.append_assoc r.shipped,
      ← List.append_assoc ((r.carried i).take n), List.take_append_drop]
  by_cases done : (r.carried i).drop n = []
  · have left : (r.ship i n).line = later := by
      simp [ship, done, line]
    refine ⟨?_, left ▸ nodup, fun j => ?_⟩
    · rw [left]
      change r.shipped ++ (r.carried i).take n ++
        later.flatMap (Function.update r.carried i ((r.carried i).drop n)) ++ r.queued = r.made
      rw [same]
      simpa only [done, List.nil_append] using conserved
    · rw [left]
      exact inLine.carrying_update (by simp [absent, done]) (fun j other => by simp [line, other]) j
  · have left : (r.ship i n).line = i :: later := by
      simp [ship, done, line]
    refine ⟨?_, left ▸ line ▸ inLine.nodup, fun j => ?_⟩
    · rw [left]
      change r.shipped ++ (r.carried i).take n ++
        (i :: later).flatMap (Function.update r.carried i ((r.carried i).drop n)) ++ r.queued =
          r.made
      rw [List.flatMap_cons, same, Function.update_self]
      exact conserved
    · rw [left]
      exact inLine.carrying_update (by simp [done]) (fun j _ => by rw [line]) j

end Relay

end KkProxy.Shared
