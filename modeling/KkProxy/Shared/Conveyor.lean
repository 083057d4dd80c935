import Mathlib.Data.List.TakeDrop
import Mathlib.Logic.Relation

set_option autoImplicit false

namespace KkProxy.Shared

structure Conveyor (α : Type) where
  made : List α
  queued : List α
  loaded : List α
  shipped : List α

namespace Conveyor

variable {α : Type}

def produce (c : Conveyor α) (items : List α) : Conveyor α :=
  { c with made := c.made ++ items, queued := c.queued ++ items }

def load (c : Conveyor α) (n : Nat) : Conveyor α :=
  { c with loaded := c.loaded ++ c.queued.take n, queued := c.queued.drop n }

def ship (c : Conveyor α) (n : Nat) : Conveyor α :=
  { c with shipped := c.shipped ++ c.loaded.take n, loaded := c.loaded.drop n }

def spill (c : Conveyor α) : Conveyor α := { c with loaded := [] }

/-- What was shipped, is loaded and is queued makes up, in this order, all that was made. -/
def Conserved (c : Conveyor α) : Prop := c.shipped ++ c.loaded ++ c.queued = c.made

theorem produce_conserved {c : Conveyor α} (h : c.Conserved) (items : List α) :
    (c.produce items).Conserved := by
  change c.shipped ++ c.loaded ++ (c.queued ++ items) = c.made ++ items
  rw [← List.append_assoc, h]

theorem load_conserved {c : Conveyor α} (h : c.Conserved) (n : Nat) : (c.load n).Conserved := by
  change c.shipped ++ (c.loaded ++ c.queued.take n) ++ c.queued.drop n = c.made
  rw [List.append_assoc, List.append_assoc, List.take_append_drop, ← List.append_assoc, h]

theorem ship_conserved {c : Conveyor α} (h : c.Conserved) (n : Nat) : (c.ship n).Conserved := by
  change c.shipped ++ c.loaded.take n ++ c.loaded.drop n ++ c.queued = c.made
  rw [List.append_assoc c.shipped, List.take_append_drop, h]

theorem spill_conserved_iff {c : Conveyor α} (h : c.Conserved) :
    c.spill.Conserved ↔ c.loaded = [] := by
  constructor
  · intro kept
    have lengths := congrArg List.length (kept.trans h.symm)
    simp only [spill, List.length_append, List.length_nil] at lengths
    exact List.length_eq_zero_iff.mp (by omega)
  · intro empty
    rw [Conserved, empty] at h
    exact h

inductive Move : Conveyor α → Conveyor α → Prop where
  | produce (c : Conveyor α) (items : List α) : Move c (c.produce items)
  | load (c : Conveyor α) (n : Nat) : Move c (c.load n)
  | ship (c : Conveyor α) (n : Nat) : Move c (c.ship n)

abbrev Moves : Conveyor α → Conveyor α → Prop := Relation.ReflTransGen Move

theorem Move.conserved {c d : Conveyor α} (move : Move c d) (h : c.Conserved) : d.Conserved := by
  cases move with
  | produce items => exact produce_conserved h items
  | load n => exact load_conserved h n
  | ship n => exact ship_conserved h n

theorem Moves.conserved {c d : Conveyor α} (moves : Moves c d) (h : c.Conserved) :
    d.Conserved := by
  induction moves with
  | refl => exact h
  | tail _ last ih => exact last.conserved ih

theorem Moves.net {c d : Conveyor α} (moves : Moves c d) :
    ∃ items, d.made = c.made ++ items ∧
      d.shipped ++ d.loaded ++ d.queued = c.shipped ++ c.loaded ++ c.queued ++ items := by
  induction moves with
  | refl => exact ⟨[], by simp, by simp⟩
  | @tail b e _ last ih =>
    obtain ⟨items, made, kept⟩ := ih
    cases last with
    | produce more =>
      refine ⟨items ++ more, ?_, ?_⟩
      · change b.made ++ more = _
        rw [made, List.append_assoc]
      · change b.shipped ++ b.loaded ++ (b.queued ++ more) = _
        rw [← List.append_assoc, kept, List.append_assoc _ items]
    | load n =>
      refine ⟨items, made, ?_⟩
      change b.shipped ++ (b.loaded ++ b.queued.take n) ++ b.queued.drop n = _
      rw [← kept, List.append_assoc, List.append_assoc, List.take_append_drop, List.append_assoc]
    | ship n =>
      refine ⟨items, made, ?_⟩
      change b.shipped ++ b.loaded.take n ++ b.loaded.drop n ++ b.queued = _
      rw [List.append_assoc b.shipped, List.take_append_drop, kept]

theorem Moves.unqueues {c d : Conveyor α} (moves : Moves c d) :
    c.made.length + d.queued.length ≤ d.made.length + c.queued.length := by
  induction moves with
  | refl => exact Nat.le_refl _
  | @tail b e _ last ih =>
    cases last with
    | produce items =>
      simp only [produce, List.length_append]
      omega
    | load n =>
      simp only [load, List.length_drop]
      omega
    | ship n => exact ih

end Conveyor

end KkProxy.Shared
