import KkProxy.Coro.Refinement

set_option autoImplicit false

namespace KkProxy.Coro

open Runs Relation

namespace Machine

variable {α : Type}

section Blocking

variable {c : ContextId} {m : Machine α}

def Careful (c : ContextId) (m : Machine α) : Event α → Prop
  | .act a => m.thread.Careful c a
  | .waitError _ found => found = false
  | .io _ | .finish _ _ | .complete _ _ | .turn => True

instance (c : ContextId) (m : Machine α) : DecidablePred (m.Careful c)
  | .act a => inferInstanceAs (Decidable (m.thread.Careful c a))
  | .waitError _ found => inferInstanceAs (Decidable (found = false))
  | .io _ | .finish _ _ | .complete _ _ | .turn => .isTrue trivial

theorem Plays.careful {e : Event α} {a : Action α} {s : State α} (plays : m.Plays e a)
    (mirrors : m.Mirrors s) (stacked : s.Stacked) (careful : m.Careful c e) : s.Careful c a := by
  have stack := mirrors.stack
  cases plays with
  | act a =>
    have careful : m.thread.Careful c a := careful
    rw [mirrors.same]
    exact ⟨careful.outside, careful.joins, careful.inContext, careful.spares, careful.success⟩
  | finish result =>
    refine ⟨trivial, trivial, by simp [State.InContext], fun g destroyed => ?_, rfl⟩
    unfold State.destroys at destroyed
    split at destroyed
    · next ends => cases ends
    · next f rest result' top ends =>
      split_ifs at destroyed
      · obtain rfl := Option.some.inj destroyed
        simp [stacked.top top, Phase.suspended]
      · cases destroyed
    · next ends => cases ends
    · cases destroyed
  | completeError | stopError => cases careful
  | io | complete | stop | waitError =>
    refine ⟨trivial, trivial, by simp [State.InContext], fun g destroyed => ?_, rfl⟩
    unfold State.destroys at destroyed
    split at destroyed <;> simp_all
  | enter c' rest top | leave c' rest top =>
    refine ⟨trivial, trivial, by simp [State.InContext], fun g destroyed => ?_, rfl⟩
    simp [State.destroys, stack, top] at destroyed

end Blocking

end Machine

end KkProxy.Coro
