import Mathlib.Data.List.Induction
import KkProxy.Shared.Runs

set_option autoImplicit false

/-!
# Removing the inputs of others

A relation between a shared machine and the machine that only sees my inputs is an unwinding when
my inputs move both sides and the inputs of others move the shared side only.
-/

namespace KkProxy.Isolation

open Runs

variable {S T A : Type}

structure Unwinding (step : S → A → Option S) (alone : T → A → Option T) (mine : A → Bool)
    (ok : S → T → A → Prop) (related : S → T → Prop) : Prop where
  own : ∀ s t a s', related s t → ok s t a → mine a = true → step s a = some s' →
    ∃ t', alone t a = some t' ∧ related s' t'
  foreign : ∀ s t a s', related s t → ok s t a → mine a = false → step s a = some s' →
    related s' t

/--
Both machines meet `ok` throughout: the shared one takes every input, the other one only mine.
-/
def Together (step : S → A → Option S) (alone : T → A → Option T) (mine : A → Bool)
    (ok : S → T → A → Prop) (s : S) (t : T) (inputs : List A) : Prop :=
  ∀ before a after, inputs = before ++ a :: after →
    ∀ s' t', run step s before = some s' → run alone t (before.filter mine) = some t' → ok s' t' a

variable {step : S → A → Option S} {alone : T → A → Option T} {mine : A → Bool}
variable {ok : S → T → A → Prop} {related : S → T → Prop}

theorem Together.prefix {s : S} {t : T} {first second : List A}
    (together : Together step alone mine ok s t (first ++ second)) :
    Together step alone mine ok s t first := by
  rintro before a after rfl s' t' reached filtered
  exact together before a (after ++ second) (by simp) s' t' reached filtered

theorem Unwinding.runs (unwinding : Unwinding step alone mine ok related)
    {s s' : S} {t : T} {inputs : List A} (reached : run step s inputs = some s')
    (together : Together step alone mine ok s t inputs) (start : related s t) :
    ∃ t', run alone t (inputs.filter mine) = some t' ∧ related s' t' := by
  induction inputs using List.reverseRecOn generalizing s' with
  | nil =>
    obtain rfl : s = s' := by simpa using reached
    exact ⟨t, rfl, start⟩
  | append_singleton before a ih =>
    obtain ⟨u, earlier, taken⟩ := run_snoc_some reached
    obtain ⟨v, filtered, close⟩ := ih earlier together.prefix
    have allowed := together before a [] rfl u v earlier filtered
    cases owner : mine a with
    | true =>
      obtain ⟨v', moved, close'⟩ := unwinding.own u v a s' close allowed owner taken
      exact ⟨v', by simpa [owner] using run_snoc filtered moved, close'⟩
    | false =>
      exact ⟨v, by simpa [owner] using filtered, unwinding.foreign u v a s' close allowed owner taken⟩

theorem Together.append_singleton {s : S} {t : T} {before : List A} {a : A}
    (together : Together step alone mine ok s t before)
    (last : ∀ s' t', run step s before = some s' → run alone t (before.filter mine) = some t' →
      ok s' t' a) : Together step alone mine ok s t (before ++ [a]) := by
  intro first b rest split s' t' reached filtered
  obtain rest_nil | ⟨rest', c, rfl⟩ := rest.eq_nil_or_concat'
  · subst rest_nil
    obtain ⟨rfl, same⟩ := List.append_inj' split rfl
    obtain rfl : a = b := by simpa using same
    exact last s' t' reached filtered
  · have shorter : before ++ [a] = (first ++ b :: rest') ++ [c] := by simpa using split
    obtain ⟨rfl, -⟩ := List.append_inj' shorter rfl
    exact together first b rest' rfl s' t' reached filtered

/-- At every moment of a run I see what I would see if only my inputs had been there. -/
def Isolated (step : S → A → Option S) (alone : T → A → Option T) (mine : A → Bool)
    (same : S → T → Prop) (s : S) (t : T) (inputs : List A) : Prop :=
  ∀ before after, inputs = before ++ after → ∀ s', run step s before = some s' →
    ∃ t', run alone t (before.filter mine) = some t' ∧ same s' t'

/--
When related states look the same, and every input of mine that is not `ok` makes them look
different, isolation of a run is `ok` throughout.
-/
theorem Unwinding.isolated_iff {same : S → T → Prop}
    (unwinding : Unwinding step alone mine ok related)
    (visible : ∀ s t, related s t → same s t)
    (exact : ∀ s t a, related s t → ¬ ok s t a → mine a = true ∧ ∃ s', step s a = some s' ∧
      ∀ t', alone t a = some t' → ¬ same s' t')
    {s : S} {t : T} {inputs : List A} (start : related s t) :
    Isolated step alone mine same s t inputs ↔ Together step alone mine ok s t inputs := by
  constructor
  · intro isolated
    induction inputs using List.reverseRecOn with
    | nil => exact fun before a after split => by simp at split
    | append_singleton before a ih =>
      have together := ih fun first rest split => by
        subst split
        exact isolated first (rest ++ [a]) (by simp)
      refine together.append_singleton fun s' t' reached filtered => ?_
      obtain ⟨t'', again, close⟩ := unwinding.runs reached together start
      obtain rfl : t'' = t' := Option.some.inj (again.symm.trans filtered)
      by_contra bad
      obtain ⟨owner, s'', taken, differ⟩ := exact s' t'' a close bad
      obtain ⟨u, reached', alike⟩ :=
        isolated (before ++ [a]) [] (by simp) s'' (run_snoc reached taken)
      have split : (before ++ [a]).filter mine = before.filter mine ++ [a] := by simp [owner]
      rw [split] at reached'
      obtain ⟨v, earlier, moved⟩ := run_snoc_some reached'
      obtain rfl : v = t'' := Option.some.inj (earlier.symm.trans filtered)
      exact differ u moved alike
  · rintro together before after rfl s' reached
    obtain ⟨t', filtered, close⟩ := unwinding.runs reached together.prefix start
    exact ⟨t', filtered, visible s' t' close⟩

end KkProxy.Isolation
