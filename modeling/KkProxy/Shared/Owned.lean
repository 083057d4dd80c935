import Mathlib.Tactic.Common

set_option autoImplicit false

namespace KkProxy.Ownership

variable {O R : Type} [DecidableEq O] {used used' : R → Prop} {owns owns' : O → Option R}

/-- Each resource in use has exactly one owner, and nobody owns any other. -/
structure Owned (used : R → Prop) (owns : O → Option R) : Prop where
  used_iff : ∀ r, used r ↔ ∃ o, owns o = some r
  unique : ∀ o o' r, owns o = some r → owns o' = some r → o = o'

omit [DecidableEq O] in
theorem Owned.congr (owned : Owned used owns) (sameUsed : ∀ r, used' r ↔ used r)
    (sameOwns : ∀ o, owns' o = owns o) : Owned used' owns' := by
  obtain rfl : owns' = owns := funext sameOwns
  exact ⟨fun r => (sameUsed r).trans (owned.used_iff r), owned.unique⟩

omit [DecidableEq O] in
theorem Owned.in_use (owned : Owned used owns) {o : O} {r : R} (holds : owns o = some r) : used r :=
  (owned.used_iff r).mpr ⟨o, holds⟩

omit [DecidableEq O] in
theorem Owned.unused (owned : Owned used owns) (idle : ∀ o, owns o = none) (r : R) : ¬ used r := by
  intro inUse
  obtain ⟨o, holds⟩ := (owned.used_iff r).mp inUse
  simp [idle] at holds

theorem Owned.acquire (owned : Owned used owns) {o : O} {r : R} (new : ¬ used r)
    (idle : owns o = none) (more : ∀ q, used' q ↔ used q ∨ q = r)
    (gained : ∀ x, owns' x = if x = o then some r else owns x) : Owned used' owns' where
  used_iff q := by
    rw [more, owned.used_iff]
    constructor
    · rintro (⟨x, holds⟩ | rfl)
      · have other : x ≠ o := by
          rintro rfl
          simp [idle] at holds
        exact ⟨x, by rw [gained, if_neg other, holds]⟩
      · exact ⟨o, by rw [gained, if_pos rfl]⟩
    · rintro ⟨x, holds⟩
      rw [gained] at holds
      split_ifs at holds
      · exact .inr (Option.some.inj holds).symm
      · exact .inl ⟨x, holds⟩
  unique x y q first second := by
    rw [gained] at first second
    split_ifs at first second with sameX sameY sameY
    · rw [sameX, sameY]
    · obtain rfl := Option.some.inj first
      exact absurd (owned.in_use second) new
    · obtain rfl := Option.some.inj second
      exact absurd (owned.in_use first) new
    · exact owned.unique x y q first second

theorem Owned.release (owned : Owned used owns) {o : O} {r : R} (holds : owns o = some r)
    (fewer : ∀ q, used' q ↔ used q ∧ q ≠ r)
    (lost : ∀ x, owns' x = if x = o then none else owns x) : Owned used' owns' where
  used_iff q := by
    rw [fewer, owned.used_iff]
    constructor
    · rintro ⟨⟨x, holds'⟩, other⟩
      have elsewhere : x ≠ o := by
        rintro rfl
        exact other (Option.some.inj (holds'.symm.trans holds))
      exact ⟨x, by rw [lost, if_neg elsewhere, holds']⟩
    · rintro ⟨x, holds'⟩
      rw [lost] at holds'
      split_ifs at holds' with elsewhere
      refine ⟨⟨x, holds'⟩, ?_⟩
      rintro rfl
      exact elsewhere (owned.unique x o q holds' holds)
  unique x y q first second := by
    rw [lost] at first second
    split_ifs at first second
    exact owned.unique x y q first second

theorem Owned.move (owned : Owned used owns) (dst src : O) (idle : owns dst = none)
    (moved : ∀ x, owns' x = if x = dst then owns src else if x = src then none else owns x) :
    Owned used owns' where
  used_iff q := by
    rw [owned.used_iff]
    constructor
    · rintro ⟨x, holds⟩
      by_cases source : x = src
      · exact ⟨dst, by rw [moved, if_pos rfl, ← source, holds]⟩
      · have target : x ≠ dst := by
          rintro rfl
          simp [idle] at holds
        exact ⟨x, by rw [moved, if_neg target, if_neg source, holds]⟩
    · rintro ⟨x, holds⟩
      rw [moved] at holds
      split_ifs at holds
      · exact ⟨src, holds⟩
      · exact ⟨x, holds⟩
  unique x y q first second := by
    rw [moved] at first second
    split_ifs at first second with targetX targetY sourceY targetY sourceX
    · rw [targetX, targetY]
    · exact absurd (owned.unique src y q first second).symm sourceY
    · exact absurd (owned.unique x src q first second) targetY
    · exact owned.unique x y q first second

end KkProxy.Ownership
