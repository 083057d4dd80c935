import KkProxy.Ssl.Attempts

set_option autoImplicit false

namespace KkProxy.Ssl

open Runs

variable {ι σ : Type} {o : Lib σ}

-- The code in which `handshake` means to report an error of the queue.
def ErrEntry.reported (entry : ErrEntry) : ErrorCode := makeSysError (-toInt32 entry.code)

theorem Stream.LoopTurn.error_iff {type : HandshakeType} {s : Stream σ} {r : Stream σ × Progress}
    (turn : LoopTurn o type s r) :
    (∃ error, r.2 = .done (.handshake (some error)) ∧ error.value = 0) ↔
      (s.engine.attempt o type).Fails ∧
        s.engine.writeBio ++ (s.engine.attempt o type).output = [] := by
  rw [← Engine.perform_failed_iff]
  cases turn with
  | finished status => simp [status]
  | failed status => simpa [makeSysError] using status
  | wantRead status => simp [status]
  | unread read status reads empty => simp [status, makeCustomError, eSslHandshakeFailed]
  | wantWrite read status reads some => simp [status]

namespace Machine

variable [DecidableEq ι]

def FailsSilently (o : Lib σ) (m : Machine ι σ) (input : ι × Input) : Prop :=
  ∃ a, m.attempt? o input = some a ∧ a.Fails ∧ m.stream.engine.writeBio ++ a.output = []

/--
If this step ends a handshake with an error, the error is not 0; and if it ends because OpenSSL
failed, the error is one that a failing call of this handshake pushed on the error queue.
-/
def CarriesError (o : Lib σ) (w : Logged ι σ) (input : ι × Input) : Prop :=
  ∀ w' type error, logging o w input = some w' →
    w'.1.slots input.1 = .returned (.handshake type) (.handshake (some error)) →
      error.value ≠ 0 ∧
      (w.1.FailsSilently o input →
        ∃ a ∈ w'.2 input.1, a.Fails ∧ ∃ entry ∈ a.errors, error = entry.reported)

def NeverFailsSilently (o : Lib σ) (w : Logged ι σ) (input : ι × Input) : Prop :=
  (logging o w input).isSome → ¬ w.1.FailsSilently o input

theorem HandshakeStep.error_positive {m m' : Machine ι σ} {i : ι} {type : HandshakeType}
    {input : Input} (step : HandshakeStep o m i type input none m') {c : Call} {error : ErrorCode}
    (returned : m'.slots i = .returned c (.handshake (some error))) : 0 < error.value := by
  cases step with
  | sendFailed r buf n waiting negative | recvFailed r bytes waiting negative =>
    simp only [settle_slot, Progress.pc_returned, Progress.done.injEq, Outcome.handshake.injEq,
      Option.some.injEq] at returned
    obtain ⟨-, rfl⟩ := returned
    exact Int.neg_pos_of_neg negative
  | endOfFile bytes waiting =>
    simp only [settle_slot, Progress.pc_returned, Progress.done.injEq, Outcome.handshake.injEq,
      Option.some.injEq] at returned
    obtain ⟨-, rfl⟩ := returned
    decide
  | resend => simp [settle_slot, Progress.pc_returned] at returned

theorem carriesError_iff {w : Logged ι σ} (proper : w.1.Proper) (input : ι × Input) :
    CarriesError o w input ↔ NeverFailsSilently o w input := by
  obtain ⟨m, log⟩ := w
  obtain ⟨i, input⟩ := input
  constructor
  · intro carries enabled ⟨a, called, fails, nothing⟩
    obtain ⟨w', logged⟩ := Option.isSome_iff_exists.mp enabled
    obtain ⟨m', taken, rfl⟩ := watching_some logged
    obtain ⟨type, own⟩ := attempt_call proper taken called
    have step := step_handshake proper taken own
    rw [called] at step
    obtain ⟨s, result, turn, bio, rfl, rfl⟩ := step.turn
    rw [← bio] at nothing
    obtain ⟨error, ended, zero⟩ := turn.error_iff.mpr ⟨fails, nothing⟩
    have returned : (m.settle i (.handshake type) result).slots i =
        .returned (.handshake type) (.handshake (some error)) := by
      rw [settle_slot, ended]
      rfl
    exact (carries _ type error logged returned).1 zero
  · intro never w' type error logged returned
    have silent : ¬ m.FailsSilently o (i, input) := never (by rw [logged]; rfl)
    obtain ⟨m', taken, rfl⟩ := watching_some logged
    have returned : m'.slots i = .returned (.handshake type) (.handshake (some error)) := returned
    refine ⟨fun zero => ?_, fun fails => absurd fails silent⟩
    have step := step_handshake proper taken (by rw [returned]; rfl)
    cases called : m.attempt? o (i, input) with
    | none =>
      rw [called] at step
      have positive := step.error_positive returned
      omega
    | some a =>
      rw [called] at step
      obtain ⟨s, result, turn, bio, rfl, rfl⟩ := step.turn
      rw [settle_slot, Progress.pc_returned] at returned
      obtain ⟨fails, nothing⟩ := turn.error_iff.mp ⟨error, returned.2, zero⟩
      exact silent ⟨_, called, fails, bio ▸ nothing⟩

end Machine

/--
In a run of any calls on a stream, every handshake that returns without a value carries a non-zero
error, and one that OpenSSL pushed where OpenSSL failed, exactly when no call of `SSL_connect` or
`SSL_accept` fails and leaves nothing to send.
-/
theorem handshake_carries_error_iff [DecidableEq ι] (o : Lib σ) (ssl : σ)
    (inputs : List (ι × Input)) :
    Always (Machine.logging o) (Machine.CarriesError o) (Machine.fresh ssl, fun _ => []) inputs ↔
      Always (Machine.logging o) (Machine.NeverFailsSilently o) (Machine.fresh ssl, fun _ => [])
        inputs := by
  have proper (w : Machine.Logged ι σ) (input : ι × Input) (w' : Machine.Logged ι σ)
      (before : w.1.Proper) (logged : Machine.logging o w input = some w') : w'.1.Proper := by
    obtain ⟨m', taken, rfl⟩ := watching_some logged
    exact Machine.step_proper before taken
  exact always_congr proper (fun _ input before => Machine.carriesError_iff before input)
    (Machine.fresh_proper ssl)

-- The peer answers the greeting by an alert.
def refusedGreeting : List (Unit × Input) :=
  [((), .call (.handshake .client)), ((), .sent 3), ((), .received 1 [2])]

theorem handshake_reports_success_code :
    ¬ ∀ inputs : List (Unit × Input),
      Always (Machine.logging Lib.greeting) (Machine.CarriesError Lib.greeting)
        (Machine.fresh .silent, fun _ => []) inputs := by
  intro claim
  have ended : (run (Machine.logging Lib.greeting)
      ((Machine.fresh .silent, fun _ => []) : Machine.Logged Unit GreetState)
      ([((), .call (.handshake .client)), ((), .sent 3)] ++ [((), .received 1 [2])])).map
        (fun w => w.1.slots ()) =
          some (.returned (.handshake .client) (.handshake (some (makeSysError 0)))) := by
    decide +kernel
  obtain ⟨w', reached, returned⟩ := Option.map_eq_some_iff.mp ended
  obtain ⟨w, earlier, taken⟩ := run_snoc_some reached
  have carries := always_iff.mp (claim refusedGreeting) _ _ [] rfl w earlier
  exact (carries w' .client _ taken returned).1 rfl

end KkProxy.Ssl
