import KkProxy.Ssl.Calls

set_option autoImplicit false

namespace KkProxy.Ssl

open Runs

variable {ι σ : Type} [DecidableEq ι] (o : Lib σ)

def Suspended.Waits : Suspended → Prop
  | .handshakeRecv _ => True
  | .recvRaw _ _ => True
  | _ => False

def Progress.Waits : Progress → Prop
  | .suspended p => p.Waits
  | .done _ => False

def Pc.Waits : Pc → Prop
  | .suspended _ p => p.Waits
  | _ => False

theorem Progress.waits_pc (progress : Progress) (call : Call) :
    (progress.pc call).Waits ↔ progress.Waits := by
  cases progress <;> rfl

namespace Stream

def Quiet (r : Stream σ × Progress) : Prop := r.2.Waits → r.1.engine.writeBio = []

def Starves (s : Stream σ) (len : Nat) : Prop :=
  (s.readLeftover len).1 = [] ∧ (o.read s.engine.ssl s.engine.readBio (toInt32 len)).ret ≤ 0

theorem quiet_of_done (s : Stream σ) (out : Outcome) : Quiet (s, .done out) := fun waits =>
  absurd waits id

variable {o}

theorem LoopTurn.quiet {type : HandshakeType} {s : Stream σ} {r : Stream σ × Progress}
    (turn : LoopTurn o type s r) : Quiet r := by
  cases turn with
  | finished | failed | unread => exact quiet_of_done _ _
  | wantRead status => exact fun _ => Engine.perform_flushed o (by simp [status])
  | wantWrite => exact fun waits => absurd waits id

theorem SendRun.quiet {buf : Bytes} {flag : Int} {n : Nat} {s : Stream σ}
    {r : Stream σ × Progress} (run : SendRun o buf flag n s r) : Quiet r := by
  induction run with
  | finished | threw => exact quiet_of_done _ _
  | again n s res r more writes written drained rest ih => exact ih
  | chunk => exact fun waits => absurd waits id

-- `recv` waits with whatever the write BIO held and its first `SSL_read` appended.
theorem RecvStart.quiet_iff {len : Nat} {flag : Int} {s : Stream σ} {r : Stream σ × Progress}
    (start : RecvStart o len flag s r) :
    Quiet r ↔ (s.Starves o len → s.engine.writeBio = [] ∧
      (o.read s.engine.ssl s.engine.readBio (toInt32 len)).output = []) := by
  cases start with
  | leftover some => exact iff_of_true (quiet_of_done _ _) fun starves => absurd starves.1 some
  | decrypted read none reads positive =>
    subst reads
    exact iff_of_true (quiet_of_done _ _) fun starves => absurd starves.2 (not_le.mpr positive)
  | starved read none reads failed =>
    subst reads
    have starves : s.Starves o len := ⟨none, failed⟩
    have left : (s.engine.sslRead o (toInt32 len)).engine.writeBio = s.engine.writeBio ++
        (o.read s.engine.ssl s.engine.readBio (toInt32 len)).output := rfl
    simp [Quiet, Progress.Waits, Suspended.Waits, starves, left]

variable (o)

theorem resumeSent_quiet (s : Stream σ) (r : Int) {p : Suspended} {offered : Bytes} {flag : Int}
    (request : p.request = .send offered flag) : Quiet (s.resumeSent o r p) := by
  cases p with
  | handshakeRecv | recvRaw => simp [Suspended.request] at request
  | handshakeSend type buf bytesSent =>
    simp only [resumeSent, handshakeSent]
    split_ifs
    · exact quiet_of_done _ _
    · exact fun waits => absurd waits id
    · exact (handshakeLoop_turn o type s).quiet
  | sendRaw buf flag bytesConsumed writeBuf bytesSent =>
    simp only [resumeSent, sendSent, sendDrain_eq]
    split_ifs
    · exact quiet_of_done _ _
    · exact fun waits => absurd waits id
    · exact (s.sendLoop_run o buf flag bytesConsumed).quiet
    · exact fun waits => absurd waits id

theorem resumeReceived_quiet (s : Stream σ) (r : Int) (bytes : Bytes) {p : Suspended} {len : Nat}
    {flag : Int} (request : p.request = .recv len flag) :
    Quiet (s.resumeReceived o r bytes p) := by
  cases p with
  | handshakeSend | sendRaw => simp [Suspended.request] at request
  | handshakeRecv type =>
    simp only [resumeReceived, handshakeReceived]
    split_ifs
    · exact quiet_of_done _ _
    · exact quiet_of_done _ _
    · exact quiet_of_done _ _
    · exact (handshakeLoop_turn o type _).quiet
  | recvRaw len flag =>
    simp only [resumeReceived, recvReceived]
    split_ifs <;> exact quiet_of_done _ _

end Stream

namespace Machine

def WaitsQuietly (m : Machine ι σ) (input : ι × Input) : Prop :=
  ∀ m', m.step o input = some m' → (m'.slots input.1).Waits → m'.stream.engine.writeBio = []

/-- A `recv` that goes on to its raw `recv` finds the write BIO empty and adds nothing to it. -/
def ReceivesFlushed (m : Machine ι σ) (input : ι × Input) : Prop :=
  ∀ len flag, input.2 = .call (.recv len flag) → (m.slots input.1).free = true →
    m.stream.Starves o len → m.stream.engine.writeBio = [] ∧
      (o.read m.stream.engine.ssl m.stream.engine.readBio (toInt32 len)).output = []

theorem settle_waits (m : Machine ι σ) (i : ι) (c : Call) {r : Stream σ × Progress}
    (quiet : Stream.Quiet r) (waits : ((m.settle i c r).slots i).Waits) :
    r.1.engine.writeBio = [] := by
  rw [settle_slot, Progress.waits_pc] at waits
  exact quiet waits

theorem waitsQuietly_iff (m : Machine ι σ) (input : ι × Input) :
    m.WaitsQuietly o input ↔ m.ReceivesFlushed o input := by
  obtain ⟨i, input⟩ := input
  constructor
  · intro quiet len flag same free
    obtain rfl : input = .call (.recv len flag) := same
    rw [← (m.stream.recv_start o len flag).quiet_iff]
    intro waits
    have taken : m.step o (i, .call (.recv len flag)) =
        some (m.settle i (.recv len flag) (m.stream.recv o len flag)) := if_pos free
    refine quiet _ taken ?_
    rwa [settle_slot, Progress.waits_pc]
  · intro flushed m' taken waits
    cases step_effect o taken with
    | call c free =>
      refine settle_waits m i c ?_ waits
      cases c with
      | handshake type => exact (Stream.handshakeLoop_turn o type _).quiet
      | send buf flag => exact (m.stream.sendLoop_run o buf flag 0).quiet
      | recv len flag =>
        exact (m.stream.recv_start o len flag).quiet_iff.mpr (flushed len flag rfl free)
    | sent r call p offered flag waiting request fits =>
      exact settle_waits m i call (Stream.resumeSent_quiet o _ r request) waits
    | received r bytes call p len flag waiting request counted fits =>
      exact settle_waits m i call (Stream.resumeReceived_quiet o _ r bytes request) waits

end Machine

/--
No operation of a run waits for the peer while it holds output exactly when every `recv` that goes
on to its raw `recv` finds the write BIO empty and adds nothing to it.
-/
theorem never_waits_with_output_iff (ssl : σ) (inputs : List (ι × Input)) :
    Always (Machine.step o) (Machine.WaitsQuietly o) (Machine.fresh ssl) inputs ↔
      Always (Machine.step o) (Machine.ReceivesFlushed o) (Machine.fresh ssl) inputs :=
  always_congr (fun _ _ _ _ _ => trivial) (fun m input _ => m.waitsQuietly_iff o input) trivial

-- A key update arrives, and its answer is left in the write BIO.
def keyUpdate : List (Unit × Input) := [((), .call (.recv 2 0)), ((), .received 2 [3, 0])]

theorem recv_waits_with_output :
    ¬ ∀ inputs : List (Unit × Input),
      Always (Machine.step Lib.records) (Machine.WaitsQuietly Lib.records)
        (Machine.fresh .established) inputs := by
  intro claim
  have ended : (run (Machine.step Lib.records) (Machine.fresh .established : Solo RecordState)
      (keyUpdate ++ [((), .call (.recv 2 0))])).map
        (fun m => (m.slots (), m.stream.engine.writeBio)) =
          some (.suspended (.recv 2 0) (.recvRaw 2 0), [3, 0]) := by decide +kernel
  obtain ⟨m', reached, view⟩ := Option.map_eq_some_iff.mp ended
  simp only [Prod.mk.injEq] at view
  obtain ⟨m, earlier, taken⟩ := run_snoc_some reached
  have quiet := always_iff.mp (claim _) keyUpdate _ [] rfl m earlier m' taken
  simp [view, Pc.Waits, Suspended.Waits] at quiet

end KkProxy.Ssl
