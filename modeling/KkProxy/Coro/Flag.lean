import Mathlib.Tactic.Common

set_option autoImplicit false

namespace KkProxy.Coro

abbrev Flags := BitVec 64

namespace Flags

-- The masks of the source are `int`s; this word is the sign extension of the first.
def daemon : Flags := 1 <<< 0

def isDaemon (flag : Flags) : Bool := flag &&& daemon != 0

def setDaemon (flag : Flags) (value : Bool) : Flags :=
  if value then flag ||| daemon else flag &&& ~~~daemon

theorem test_twoPow (flag : Flags) {i : Nat} (bound : i < 64) :
    (flag &&& BitVec.twoPow 64 i != 0) = flag.getLsbD i := by
  have some : BitVec.twoPow 64 i ≠ 0#64 := fun zero => by
    have bit := congrArg (fun mask : BitVec 64 => mask.getLsbD i) zero
    simp [bound] at bit
  rw [BitVec.and_twoPow]
  cases flag.getLsbD i with
  | false => rfl
  | true => simpa using some

theorem isDaemon_eq (flag : Flags) : flag.isDaemon = flag.getLsbD 0 := flag.test_twoPow (by decide)

@[simp] theorem isDaemon_setDaemon (flag : Flags) (value : Bool) :
    (flag.setDaemon value).isDaemon = value := by
  rw [isDaemon_eq]
  cases value <;> simp [setDaemon, daemon]

def subJob : BitVec 32 := 1 <<< 1

def isSubJob (flag : Flags) : Bool := flag &&& subJob.signExtend 64 != 0

-- To clear the flag, the source masks with `sub_job` and not with its complement.
def setSubJob (flag : Flags) (value : Bool) : Flags :=
  if value then flag ||| subJob.signExtend 64 else flag &&& subJob.signExtend 64

end Flags

inductive FlagCall where
  | setDaemon (value : Bool)
  | setSubJob (value : Bool)
deriving DecidableEq, Repr

def FlagCall.apply (flag : Flags) : FlagCall → Flags
  | .setDaemon value => flag.setDaemon value
  | .setSubJob value => flag.setSubJob value

def daemonValues (calls : List FlagCall) : List Bool :=
  calls.filterMap fun
    | .setDaemon value => some value
    | .setSubJob _ => none

def subJobValues (calls : List FlagCall) : List Bool :=
  calls.filterMap fun
    | .setDaemon _ => none
    | .setSubJob value => some value

namespace Flags

def after (flag : Flags) (calls : List FlagCall) : Flags := calls.foldl FlagCall.apply flag

/--
Each flag is what its own setter was last given, no other bit has changed, and the calls of one
setter could as well have been made at other times between those of the other.
-/
structure Independent (flag : Flags) (calls : List FlagCall) : Prop where
  daemon : (flag.after calls).isDaemon = (daemonValues calls).getLast?.getD flag.isDaemon
  subJob : (flag.after calls).isSubJob = (subJobValues calls).getLast?.getD flag.isSubJob
  others : ∀ i, 2 ≤ i → (flag.after calls).getLsbD i = flag.getLsbD i
  commutes : ∀ other, daemonValues other = daemonValues calls →
    subJobValues other = subJobValues calls → flag.after other = flag.after calls

/-- No call clears the sub-job flag, or nothing is lost by clearing everything else instead. -/
def Unharmed (flag : Flags) (calls : List FlagCall) : Prop :=
  .setSubJob false ∉ calls ∨
    ((daemonValues calls).getLast?.getD flag.isDaemon = false ∧
      (∀ i, 2 ≤ i → flag.getLsbD i = false) ∧
        ((subJobValues calls).getLast? = some true ∨
          flag.isSubJob = false ∧ .setSubJob true ∉ calls))

theorem subJob_signExtend : subJob.signExtend 64 = BitVec.twoPow 64 1 := by decide

theorem isSubJob_eq (flag : Flags) : flag.isSubJob = flag.getLsbD 1 := by
  rw [isSubJob, subJob_signExtend]
  exact flag.test_twoPow (by decide)

theorem getLsbD_setDaemon (flag : Flags) (value : Bool) (i : Nat) :
    (flag.setDaemon value).getLsbD i = if i = 0 then value else flag.getLsbD i := by
  have mask : daemon = BitVec.twoPow 64 0 := rfl
  by_cases first : i = 0
  · subst first
    cases value <;> simp [setDaemon, mask]
  · have bound : flag.getLsbD i = true → i < 64 := BitVec.lt_of_getLsbD
    cases value with
    | true => simp [setDaemon, mask, first, Ne.symm first]
    | false => simpa [setDaemon, mask, first, Ne.symm first] using bound

theorem getLsbD_setSubJob (flag : Flags) (value : Bool) (i : Nat) :
    (flag.setSubJob value).getLsbD i =
      if i = 1 then value || flag.getLsbD i else value && flag.getLsbD i := by
  by_cases second : i = 1
  · subst second
    cases value <;> simp [setSubJob, subJob_signExtend]
  · cases value <;> simp [setSubJob, subJob_signExtend, second, Ne.symm second]

theorem isDaemon_setSubJob (flag : Flags) (value : Bool) :
    (flag.setSubJob value).isDaemon = (value && flag.isDaemon) := by
  rw [isDaemon_eq, isDaemon_eq, getLsbD_setSubJob]
  rfl

@[simp] theorem isSubJob_setDaemon (flag : Flags) (value : Bool) :
    (flag.setDaemon value).isSubJob = flag.isSubJob := by
  rw [isSubJob_eq, isSubJob_eq, getLsbD_setDaemon]
  rfl

@[simp] theorem isSubJob_setSubJob (flag : Flags) (value : Bool) :
    (flag.setSubJob value).isSubJob = (value || flag.isSubJob) := by
  rw [isSubJob_eq, isSubJob_eq, getLsbD_setSubJob]
  rfl

section Values

variable (flag : Flags) (value : Bool) (call : FlagCall) (calls : List FlagCall)

@[simp] theorem after_nil : flag.after [] = flag := rfl
@[simp] theorem after_cons : flag.after (call :: calls) = (call.apply flag).after calls := rfl
@[simp] theorem daemonValues_setDaemon :
    daemonValues (.setDaemon value :: calls) = value :: daemonValues calls := rfl
@[simp] theorem daemonValues_setSubJob :
    daemonValues (.setSubJob value :: calls) = daemonValues calls := rfl
@[simp] theorem subJobValues_setDaemon :
    subJobValues (.setDaemon value :: calls) = subJobValues calls := rfl
@[simp] theorem subJobValues_setSubJob :
    subJobValues (.setSubJob value :: calls) = value :: subJobValues calls := rfl

end Values

theorem mem_subJobValues {value : Bool} {calls : List FlagCall} :
    value ∈ subJobValues calls ↔ .setSubJob value ∈ calls := by
  induction calls with
  | nil => simp [subJobValues]
  | cons call calls ih => cases call <;> simp [ih]

theorem getLsbD_after_iff (flag : Flags) (calls : List FlagCall) {i : Nat} (other : 2 ≤ i) :
    (flag.after calls).getLsbD i = true ↔
      flag.getLsbD i = true ∧ false ∉ subJobValues calls := by
  have first : i ≠ 0 := by omega
  have second : i ≠ 1 := by omega
  induction calls generalizing flag with
  | nil => simp [subJobValues]
  | cons call calls ih =>
    refine (ih _).trans ?_
    cases call with
    | setDaemon value => simp [FlagCall.apply, getLsbD_setDaemon, first]
    | setSubJob value => cases value <;> simp [FlagCall.apply, getLsbD_setSubJob, second]

theorem isSubJob_after_iff (flag : Flags) (calls : List FlagCall) :
    (flag.after calls).isSubJob = true ↔
      flag.isSubJob = true ∨ true ∈ subJobValues calls := by
  induction calls generalizing flag with
  | nil => simp [subJobValues]
  | cons call calls ih =>
    refine (ih _).trans ?_
    cases call with
    | setDaemon value => simp [FlagCall.apply]
    | setSubJob value => cases value <;> simp [FlagCall.apply]

theorem isDaemon_after (flag : Flags) {calls : List FlagCall}
    (kept : false ∉ subJobValues calls) :
    (flag.after calls).isDaemon = (daemonValues calls).getLast?.getD flag.isDaemon := by
  induction calls generalizing flag with
  | nil => rfl
  | cons call calls ih =>
    rw [after_cons]
    cases call with
    | setDaemon value => rw [ih _ kept]; simp [FlagCall.apply, List.getLast?_cons]
    | setSubJob value =>
      rw [subJobValues_setSubJob, List.mem_cons, not_or] at kept
      obtain ⟨set, kept⟩ := kept
      obtain rfl : value = true := by simpa using Ne.symm set
      rw [ih _ kept]
      simp [FlagCall.apply, isDaemon_setSubJob]

theorem isDaemon_after_of_clear (flag : Flags) {calls : List FlagCall}
    (clear : (daemonValues calls).getLast?.getD flag.isDaemon = false) :
    (flag.after calls).isDaemon = false := by
  induction calls generalizing flag with
  | nil => exact clear
  | cons call calls ih =>
    rw [after_cons]
    apply ih
    cases call with
    | setDaemon value => simpa [FlagCall.apply, List.getLast?_cons] using clear
    | setSubJob value =>
      cases last : (daemonValues calls).getLast? with
      | none => simp_all [FlagCall.apply, isDaemon_setSubJob]
      | some value' => simpa [last] using clear

theorem after_append (flag : Flags) (first second : List FlagCall) :
    flag.after (first ++ second) = (flag.after first).after second := List.foldl_append

theorem daemonValues_map (values : List Bool) (calls : List FlagCall) :
    daemonValues (values.map .setDaemon ++ calls) = values ++ daemonValues calls ∧
      subJobValues (values.map .setDaemon ++ calls) = subJobValues calls := by
  induction values with
  | nil => exact ⟨rfl, rfl⟩
  | cons value values ih => exact ⟨congrArg (value :: ·) ih.1, ih.2⟩

theorem subJobValues_map (values : List Bool) :
    subJobValues (values.map .setSubJob) = values ∧
      daemonValues (values.map .setSubJob) = [] := by
  induction values with
  | nil => exact ⟨rfl, rfl⟩
  | cons value values ih => exact ⟨congrArg (value :: ·) ih.1, ih.2⟩

theorem isDaemon_after_setSubJob (flag : Flags) {values : List Bool} (cleared : false ∈ values) :
    (flag.after (values.map .setSubJob)).isDaemon = false := by
  induction values generalizing flag with
  | nil => cases cleared
  | cons value values ih =>
    cases value with
    | true => exact ih _ (by simpa using cleared)
    | false =>
      rw [List.map_cons, after_cons]
      apply isDaemon_after_of_clear
      rw [(subJobValues_map values).2]
      exact flag.isDaemon_setSubJob false

theorem Unharmed.daemon {flag : Flags} {calls : List FlagCall} (unharmed : flag.Unharmed calls) :
    (flag.after calls).isDaemon = (daemonValues calls).getLast?.getD flag.isDaemon := by
  rcases unharmed with kept | ⟨clear, -⟩
  · exact flag.isDaemon_after (mt mem_subJobValues.mp kept)
  · rw [clear]
    exact flag.isDaemon_after_of_clear clear

theorem Unharmed.others {flag : Flags} {calls : List FlagCall} (unharmed : flag.Unharmed calls)
    (i : Nat) (other : 2 ≤ i) : (flag.after calls).getLsbD i = flag.getLsbD i := by
  rw [Bool.eq_iff_iff, flag.getLsbD_after_iff calls other]
  rcases unharmed with kept | ⟨-, zero, -⟩
  · exact and_iff_left (mt mem_subJobValues.mp kept)
  · simp [zero i other]

theorem Unharmed.subJob {flag : Flags} {calls : List FlagCall} (unharmed : flag.Unharmed calls) :
    (flag.after calls).isSubJob = (subJobValues calls).getLast?.getD flag.isSubJob := by
  have members {value : Bool} (last : (subJobValues calls).getLast? = some value) :
      .setSubJob value ∈ calls := mem_subJobValues.mp (List.mem_of_getLast? last)
  rw [Bool.eq_iff_iff, flag.isSubJob_after_iff calls, mem_subJobValues]
  cases last : (subJobValues calls).getLast? with
  | none =>
    have unset : .setSubJob true ∉ calls := by
      rw [← mem_subJobValues, List.getLast?_eq_none_iff.mp last]
      exact List.not_mem_nil
    exact or_iff_left unset
  | some value =>
    cases value with
    | true => exact iff_of_true (.inr (members last)) rfl
    | false =>
      rcases unharmed with kept | ⟨-, -, same | ⟨clear, unset⟩⟩
      · exact absurd (members last) kept
      · simp [last] at same
      · exact iff_of_false (by simp [clear, unset]) (by simp)

theorem Unharmed.congr {flag : Flags} {calls other : List FlagCall} (unharmed : flag.Unharmed calls)
    (daemons : daemonValues other = daemonValues calls)
    (subJobs : subJobValues other = subJobValues calls) : flag.Unharmed other := by
  simpa only [Unharmed, ← mem_subJobValues, daemons, subJobs] using unharmed

theorem Unharmed.independent {flag : Flags} {calls : List FlagCall}
    (unharmed : flag.Unharmed calls) : flag.Independent calls where
  daemon := unharmed.daemon
  subJob := unharmed.subJob
  others := unharmed.others
  commutes other daemons subJobs := by
    have unharmed' := unharmed.congr daemons subJobs
    apply BitVec.eq_of_getLsbD_eq
    intro i _
    match i with
    | 0 => rw [← isDaemon_eq, ← isDaemon_eq, unharmed'.daemon, unharmed.daemon, daemons]
    | 1 => rw [← isSubJob_eq, ← isSubJob_eq, unharmed'.subJob, unharmed.subJob, subJobs]
    | i + 2 =>
      have above : 2 ≤ i + 2 := Nat.le_add_left 2 i
      rw [unharmed'.others _ above, unharmed.others _ above]

theorem Independent.clear {flag : Flags} {calls : List FlagCall} (independent : flag.Independent calls)
    (cleared : false ∈ subJobValues calls) :
    (daemonValues calls).getLast?.getD flag.isDaemon = false := by
  have daemons := daemonValues_map (daemonValues calls) ((subJobValues calls).map .setSubJob)
  have subJobs := subJobValues_map (subJobValues calls)
  rw [subJobs.1, subJobs.2, List.append_nil] at daemons
  rw [← independent.daemon, ← independent.commutes _ daemons.1 daemons.2, after_append]
  exact isDaemon_after_setSubJob _ cleared

/--
For every word and every sequence of calls: the flags are independent exactly when the sub-job flag
is not cleared, or when clearing all other bits and leaving that flag does not make a difference.
-/
theorem independent_iff (flag : Flags) (calls : List FlagCall) :
    flag.Independent calls ↔ flag.Unharmed calls := by
  refine ⟨fun independent => ?_, Unharmed.independent⟩
  by_cases cleared : false ∈ subJobValues calls
  · refine .inr ⟨independent.clear cleared, fun i other => ?_, ?_⟩
    · rw [← independent.others i other, Bool.eq_false_iff]
      intro set
      exact ((flag.getLsbD_after_iff calls other).mp set).2 cleared
    · cases last : (subJobValues calls).getLast? with
      | none =>
        rw [List.getLast?_eq_none_iff.mp last] at cleared
        cases cleared
      | some value =>
        cases value with
        | true => exact .inl rfl
        | false =>
          have unset : ¬ (flag.after calls).isSubJob = true := by simp [independent.subJob, last]
          rw [isSubJob_after_iff, mem_subJobValues, not_or, Bool.not_eq_true] at unset
          exact .inr unset
  · exact .inl (mt mem_subJobValues.mpr cleared)

theorem clearing_sub_job_clears_daemon :
    ¬ ∀ (flag : Flags) (calls : List FlagCall), flag.Independent calls := by
  intro claim
  exact absurd (claim daemon [.setSubJob false]).daemon (by decide)

end Flags

end KkProxy.Coro
