import Mathlib.Logic.Relation
import Mathlib.Tactic.Common

set_option autoImplicit false

namespace KkProxy.Procedures

variable {κ α ε ν : Type}

inductive Code (κ α : Type) where
  | finish (result : α)
  | call (callee : κ) (next : α → Code κ α)

-- What is left of a body when its first calls have yielded these answers.
def Code.after : Code κ α → List α → Code κ α
  | code, [] => code
  | .finish result, _ :: _ => .finish result
  | .call _ next, answer :: rest => (next answer).after rest

def Code.callee? : Code κ α → Option κ
  | .finish _ => none
  | .call callee _ => some callee

def Code.result? : Code κ α → Option α
  | .finish result => some result
  | .call _ _ => none

-- A call whose exception is not caught.
def Code.uncaught (callee : κ) (next : ν → Code κ (Except ε ν)) : Code κ (Except ε ν) :=
  .call callee fun
    | .ok value => next value
    | .error thrown => .finish (.error thrown)

theorem Code.call_of_callee {code : Code κ α} {callee : κ} (calls : code.callee? = some callee) :
    ∃ next, code = .call callee next := by
  cases code with
  | finish => simp [callee?] at calls
  | call k next =>
    obtain rfl : k = callee := by simpa [callee?] using calls
    exact ⟨next, rfl⟩

theorem Code.finish_of_result {code : Code κ α} {result : α} (ends : code.result? = some result) :
    code = .finish result := by
  cases code with
  | finish r =>
    obtain rfl : r = result := by simpa [result?] using ends
    rfl
  | call => simp [result?] at ends

variable (body : κ → Code κ α)

/-- Synchronous evaluation: a call runs the callee to its end. -/
inductive Evaluates : Code κ α → α → Prop where
  | finish (result : α) : Evaluates (.finish result) result
  | call (callee : κ) (next : α → Code κ α) (answer result : α)
    (called : Evaluates (body callee) answer) (rest : Evaluates (next answer) result) :
    Evaluates (.call callee next) result

inductive Answered : Code κ α → List α → Code κ α → Prop where
  | nil (code : Code κ α) : Answered code [] code
  | cons (callee : κ) (next : α → Code κ α) (answer : α) (answers : List α) (left : Code κ α)
    (called : Evaluates body (body callee) answer) (rest : Answered (next answer) answers left) :
    Answered (.call callee next) (answer :: answers) left

variable {body}

theorem Evaluates.unique {code : Code κ α} {first second : α} (one : Evaluates body code first)
    (other : Evaluates body code second) : first = second := by
  induction one generalizing second with
  | finish result =>
    cases other
    rfl
  | call callee next answer result called rest ihCalled ihRest =>
    cases other with
    | call _ _ answer' _ called' rest' =>
      obtain rfl := ihCalled called'
      exact ihRest rest'

theorem Answered.after_eq {code left : Code κ α} {answers : List α}
    (answered : Answered body code answers left) : code.after answers = left := by
  induction answered with
  | nil code => rw [Code.after]
  | cons callee next answer answers left called rest ih => exact ih

theorem Answered.after {code left : Code κ α} {answers : List α}
    (answered : Answered body code answers left) :
    Answered body code answers (code.after answers) := by
  rwa [answered.after_eq]

theorem Answered.snoc {code : Code κ α} {answers : List α} {callee : κ} {next : α → Code κ α}
    {answer : α} (answered : Answered body code answers (.call callee next))
    (called : Evaluates body (body callee) answer) :
    Answered body code (answers ++ [answer]) (next answer) := by
  generalize stop : Code.call callee next = left at answered
  induction answered with
  | nil code =>
    subst stop
    exact .cons callee next answer [] (next answer) called (.nil _)
  | cons callee' next' first answers left called' rest ih =>
    exact .cons callee' next' first _ _ called' (ih stop)

theorem Answered.evaluates {code left : Code κ α} {answers : List α} {result : α}
    (answered : Answered body code answers left) (rest : Evaluates body left result) :
    Evaluates body code result := by
  induction answered with
  | nil code => exact rest
  | cons callee next answer answers left called _ ih =>
    exact .call callee next answer result called (ih rest)

/-- The body of `k` gets to a call of `callee` whose exceptions it does not catch. -/
def Passes (body : κ → Code κ (Except ε ν)) (k callee : κ) : Prop :=
  ∃ answers next, Answered body (body k) answers (.uncaught callee next)

-- An exception goes through any number of procedures that do not catch it.
theorem passes_evaluates {body : κ → Code κ (Except ε ν)} {k thrower : κ} {thrown : ε}
    (chain : Relation.ReflTransGen (Passes body) k thrower)
    (throws : Evaluates body (body thrower) (.error thrown)) :
    Evaluates body (body k) (.error thrown) := by
  induction chain using Relation.ReflTransGen.head_induction_on with
  | refl => exact throws
  | head passes _ ih =>
    obtain ⟨answers, next, answered⟩ := passes
    exact answered.evaluates (.call _ _ (.error thrown) _ ih (.finish _))

end KkProxy.Procedures
