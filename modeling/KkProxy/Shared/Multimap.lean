import Mathlib.Data.List.Basic
import Mathlib.Order.Lattice
import Mathlib.Tactic.Common

set_option autoImplicit false

namespace KkProxy.Shared

structure Multimap (κ α : Type) [LinearOrder κ] where
  entries : List (κ × α)
  sorted : entries.Pairwise fun e f => e.1 ≤ f.1

namespace Multimap

variable {κ α : Type} [LinearOrder κ]

structure Split (entries : List (κ × α)) (k : κ) (below range above : List (κ × α)) : Prop where
  entries : entries = below ++ range ++ above
  below : ∀ e ∈ below, e.1 < k
  range : ∀ e ∈ range, e.1 = k
  above : ∀ e ∈ above, k < e.1

theorem exists_split {entries : List (κ × α)} (sorted : entries.Pairwise fun e f => e.1 ≤ f.1)
    (k : κ) : ∃ below range above, Split entries k below range above := by
  induction entries with
  | nil => exact ⟨[], [], [], rfl, by simp, by simp, by simp⟩
  | cons e entries ih =>
    obtain ⟨first, sorted⟩ := List.pairwise_cons.mp sorted
    obtain ⟨below, range, above, split⟩ := ih sorted
    rcases lt_trichotomy e.1 k with smaller | same | larger
    · refine ⟨e :: below, range, above, ?_, ?_, split.range, split.above⟩
      · rw [split.entries]
        rfl
      · exact List.forall_mem_cons.mpr ⟨smaller, split.below⟩
    · have none : below = [] := List.eq_nil_iff_forall_not_mem.mpr fun e' member => by
        have least := first e' (split.entries ▸ by simp [member])
        exact absurd (split.below e' member) (not_lt.mpr (same ▸ least))
      subst none
      refine ⟨[], e :: range, above, ?_, split.below, ?_, split.above⟩
      · rw [split.entries]
        rfl
      · exact List.forall_mem_cons.mpr ⟨same, split.range⟩
    · have all : ∀ e' ∈ e :: entries, k < e'.1 :=
        List.forall_mem_cons.mpr ⟨larger, fun e' member => lt_of_lt_of_le larger (first e' member)⟩
      exact ⟨[], [], e :: entries, rfl, by simp, by simp, all⟩

def empty : Multimap κ α := { entries := [], sorted := .nil }

variable (m : Multimap κ α) (k : κ) (a : α)

def lowerBound : Nat := (m.entries.takeWhile fun e => e.1 < k).length

def upperBound : Nat := (m.entries.takeWhile fun e => e.1 ≤ k).length

def equalRange : Nat × Nat := (m.lowerBound k, m.upperBound k)

def get? (it : Nat) : Option α := (m.entries[it]?).map Prod.snd

def values : List α := (m.entries.filter fun e => e.1 = k).map Prod.snd

omit [LinearOrder κ] in
theorem takeWhile_append {p : κ × α → Bool} {first rest : List (κ × α)}
    (all : ∀ e ∈ first, p e = true) (stops : ∀ e ∈ rest, p e = false) :
    (first ++ rest).takeWhile p = first := by
  rw [List.takeWhile_append_of_pos all]
  cases rest with
  | nil => simp
  | cons e rest => simp [stops e (by simp)]

section Bounds

variable {m k a} {below range above : List (κ × α)} (split : Split m.entries k below range above)
include split

theorem Split.lowerBound : m.lowerBound k = below.length := by
  rw [Multimap.lowerBound, split.entries, List.append_assoc]
  refine congrArg List.length (takeWhile_append ?_ ?_)
  · simpa using split.below
  · simp only [List.mem_append, decide_eq_false_iff_not, not_lt]
    rintro e (inside | beyond)
    · exact (split.range e inside).ge
    · exact (split.above e beyond).le

theorem Split.upperBound : m.upperBound k = (below ++ range).length := by
  rw [Multimap.upperBound, split.entries]
  refine congrArg List.length (takeWhile_append ?_ ?_)
  · simp only [List.mem_append, decide_eq_true_eq]
    rintro e (smaller | inside)
    · exact (split.below e smaller).le
    · exact (split.range e inside).le
  · simpa using split.above

theorem Split.values : m.values k = range.map Prod.snd := by
  have smaller : below.filter (fun e => e.1 = k) = [] :=
    List.filter_eq_nil_iff.mpr fun e member => by simpa using (split.below e member).ne
  have larger : above.filter (fun e => e.1 = k) = [] :=
    List.filter_eq_nil_iff.mpr fun e member => by simpa using (split.above e member).ne'
  have inside : range.filter (fun e => e.1 = k) = range :=
    List.filter_eq_self.mpr fun e member => by simpa using split.range e member
  simp [Multimap.values, split.entries, smaller, larger, inside]

end Bounds

/-- `emplace` puts a new element after the existing ones with its key. -/
def emplace : Multimap κ α where
  entries := m.entries.take (m.upperBound k) ++ (k, a) :: m.entries.drop (m.upperBound k)
  sorted := by
    obtain ⟨below, range, above, split⟩ := exists_split m.sorted k
    have sorted := m.sorted
    rw [split.upperBound, split.entries, List.take_left, List.drop_left]
    rw [split.entries, List.pairwise_append] at sorted
    obtain ⟨front, back, across⟩ := sorted
    rw [List.pairwise_append, List.pairwise_cons]
    refine ⟨front, ⟨fun e larger => (split.above e larger).le, back⟩, fun e before e' after => ?_⟩
    rcases List.mem_cons.mp after with rfl | larger
    · rcases List.mem_append.mp before with smaller | inside
      · exact (split.below e smaller).le
      · exact (split.range e inside).le
    · exact across e before e' larger

def assign (it : Nat) : Multimap κ α where
  entries := m.entries.modify it fun e => (e.1, a)
  sorted := by
    have keys : (m.entries.modify it fun e => (e.1, a)).map Prod.fst = m.entries.map Prod.fst := by
      have head (rest : List (κ × α)) :
          (rest.modifyHead fun e => (e.1, a)).map Prod.fst = rest.map Prod.fst := by
        cases rest <;> rfl
      rw [List.modify_eq_take_drop, List.map_append, head, ← List.map_append,
        List.take_append_drop]
    rw [← List.pairwise_map (f := Prod.fst), keys, List.pairwise_map]
    exact m.sorted

def fill (m : Multimap κ α) (a : α) (it : Nat) : Nat → Multimap κ α
  | 0 => m
  | n + 1 => (m.assign a it).fill a (it + 1) n

section Effects

variable {m k a} {below range above : List (κ × α)} (split : Split m.entries k below range above)
include split

theorem Split.emplace : Split (m.emplace k a).entries k below (range ++ [(k, a)]) above where
  entries := by
    change m.entries.take (m.upperBound k) ++ (k, a) :: m.entries.drop (m.upperBound k) = _
    rw [split.upperBound, split.entries, List.take_left, List.drop_left]
    simp
  below := split.below
  range := by
    intro e member
    rcases List.mem_append.mp member with old | new
    · exact split.range e old
    · rw [List.mem_singleton.mp new]
  above := split.above

theorem Split.empty_iff : m.lowerBound k = m.upperBound k ↔ m.values k = [] := by
  rw [split.lowerBound, split.upperBound, split.values]
  simp

theorem Split.get? : m.get? (m.lowerBound k) = (range ++ above).head?.map Prod.snd := by
  rw [split.lowerBound, Multimap.get?, split.entries, List.append_assoc,
    List.getElem?_append_right (Nat.le_refl _), Nat.sub_self, List.head?_eq_getElem?]

end Effects

theorem fill_entries (m : Multimap κ α) (a : α) {below range above : List (κ × α)}
    (entries : m.entries = below ++ range ++ above) :
    (m.fill a below.length range.length).entries =
      below ++ range.map (fun e => (e.1, a)) ++ above := by
  induction range generalizing m below with
  | nil => exact entries
  | cons e range ih =>
    have assigned : (m.assign a below.length).entries = below ++ [(e.1, a)] ++ range ++ above := by
      change m.entries.modify below.length _ = _
      rw [List.modify_eq_take_drop, entries, List.append_assoc, List.take_left, List.drop_left]
      simp
    have rest := ih (m.assign a below.length) assigned
    rw [List.length_append, List.length_singleton] at rest
    rw [List.length_cons, fill, rest]
    simp

theorem values_congr {m m' : Multimap κ α} {k k' : κ} {below range range' above : List (κ × α)}
    (split : Split m.entries k below range above) (split' : Split m'.entries k below range' above)
    (other : k' ≠ k) : m'.values k' = m.values k' := by
  have outside {l : List (κ × α)} (keys : ∀ e ∈ l, e.1 = k) :
      l.filter (fun e => e.1 = k') = [] :=
    List.filter_eq_nil_iff.mpr fun e member => by simpa [keys e member] using Ne.symm other
  simp [values, split.entries, split'.entries, outside split.range, outside split'.range]

theorem values_emplace (k' : κ) :
    (m.emplace k a).values k' = if k' = k then m.values k ++ [a] else m.values k' := by
  obtain ⟨below, range, above, split⟩ := exists_split m.sorted k
  split_ifs with same
  · subst same
    rw [split.values, split.emplace.values]
    simp
  · exact values_congr split split.emplace same

theorem values_fill (k' : κ) :
    (m.fill a (m.lowerBound k) (m.upperBound k - m.lowerBound k)).values k' =
      if k' = k then List.replicate (m.values k).length a else m.values k' := by
  obtain ⟨below, range, above, split⟩ := exists_split m.sorted k
  have count : m.upperBound k - m.lowerBound k = range.length := by
    rw [split.upperBound, split.lowerBound, List.length_append, Nat.add_sub_cancel_left]
  have filled := m.fill_entries a split.entries
  rw [← split.lowerBound, ← count] at filled
  have split' : Split (m.fill a (m.lowerBound k) (m.upperBound k - m.lowerBound k)).entries k below
      (range.map fun e => (e.1, a)) above :=
    ⟨filled, split.below, List.forall_mem_map.mpr split.range, split.above⟩
  split_ifs with same
  · subst same
    rw [split.values, split'.values, List.map_map, List.length_map]
    exact List.map_const' ..
  · exact values_congr split split' same

theorem range_empty_iff : m.lowerBound k = m.upperBound k ↔ m.values k = [] := by
  obtain ⟨below, range, above, split⟩ := exists_split m.sorted k
  exact split.empty_iff

theorem get?_lowerBound (some : m.values k ≠ []) : m.get? (m.lowerBound k) = (m.values k).head? := by
  obtain ⟨below, range, above, split⟩ := exists_split m.sorted k
  rw [split.get?, split.values, List.head?_map]
  cases range with
  | nil => simp [split.values] at some
  | cons e range => rfl

end Multimap

end KkProxy.Shared
