import KkProxy.Ssl.EndOfStream

set_option autoImplicit false

namespace KkProxy.Ssl

variable {ι σ : Type} [DecidableEq ι] (o : Lib σ)

def Engine.withErrors (e : Engine σ) (queue : List ErrEntry) : Engine σ := { e with errors := queue }

def Stream.withErrors (s : Stream σ) (queue : List ErrEntry) : Stream σ :=
  { s with engine := s.engine.withErrors queue }

def Machine.withErrors (m : Machine ι σ) (queue : List ErrEntry) : Machine ι σ :=
  { m with stream := m.stream.withErrors queue }

/-- `SSL_connect` and `SSL_accept` succeed at once when the handshake is finished. -/
def Lib.FinishedContract (o : Lib σ) : Prop :=
  ∀ ssl bio, o.initFinished ssl = true → 0 < (o.connect ssl bio).ret ∧ 0 < (o.accept ssl bio).ret

namespace Engine

variable {o}

theorem perform_withErrors (contract : o.ErrorContract) (finished : o.FinishedContract)
    (type : HandshakeType) (e : Engine σ) (queue : List ErrEntry) :
    (e.withErrors queue).perform o (handshakeOp o type) = e.perform o (handshakeOp o type) := by
  cases done : o.initFinished e.ssl with
  | false =>
    have cleared : (e.withErrors queue).handshakeOp o type = e.handshakeOp o type := by
      simp only [handshakeOp, withErrors, done]
      rfl
    unfold perform
    rw [cleared]
  | true =>
    have positive : 0 < (e.handshakeOp o type).1 := by
      cases type with
      | client => exact (finished e.ssl e.readBio done).1
      | server => exact (finished e.ssl e.readBio done).2
    have moved : (e.withErrors queue).handshakeOp o type =
        ((e.handshakeOp o type).1, (e.handshakeOp o type).2.withErrors
          ((e.withErrors queue).handshakeOp o type).2.errors) := by
      cases type <;> rfl
    rw [perform_eq, perform_eq, moved]
    simp [getSslStatus, contract.positive _ _ _ positive, withErrors, errPrintErrors]

end Engine

namespace Stream

def Alike (r r' : Stream σ × Progress) : Prop := ∃ queue, r' = (r.1.withErrors queue, r.2)

variable {o}

theorem alike_keeps (s : Stream σ) (queue : List ErrEntry) (progress : Progress) :
    Alike (s, progress) (s.withErrors queue, progress) := ⟨queue, rfl⟩

theorem alike_refl (r : Stream σ × Progress) : Alike r r := ⟨r.1.engine.errors, rfl⟩

theorem Alike.of_eq {r r' r'' : Stream σ × Progress} (alike : Alike r r') (same : r'' = r') :
    Alike r r'' := same ▸ alike

theorem handshakeLoop_withErrors (contract : o.ErrorContract) (finished : o.FinishedContract)
    (type : HandshakeType) (s : Stream σ) (queue : List ErrEntry) :
    (s.withErrors queue).handshakeLoop o type = s.handshakeLoop o type := by
  have same : (s.withErrors queue).engine.perform o (Engine.handshakeOp o type) =
      s.engine.perform o (Engine.handshakeOp o type) :=
    s.engine.perform_withErrors contract finished type queue
  unfold handshakeLoop
  rw [same]
  rfl

theorem SendRun.withErrors {buf : Bytes} {flag : Int} {n : Nat} {s : Stream σ}
    {r : Stream σ × Progress} (run : SendRun o buf flag n s r) (queue : List ErrEntry) :
    ∃ r', SendRun o buf flag n (s.withErrors queue) r' ∧ Alike r r' := by
  induction run generalizing queue with
  | finished n s given => exact ⟨_, .finished n _ given, alike_keeps s queue _⟩
  | threw n s res more writes failed =>
    subst writes
    exact ⟨_, .threw n (s.withErrors queue) _ more rfl failed, _, rfl⟩
  | again n s res r more writes written drained rest ih =>
    subst writes
    obtain ⟨r', rest', alike⟩ := ih (queue ++ (o.write s.engine.ssl s.engine.readBio (buf.drop n)
      (toInt32 (buf.length - n))).errors)
    exact ⟨r', .again n (s.withErrors queue) _ r' more rfl written drained rest', alike⟩
  | chunk n s res more writes written pending =>
    subst writes
    exact ⟨_, .chunk n (s.withErrors queue) _ more rfl written pending, _, rfl⟩

theorem sendLoop_alike (buf : Bytes) (flag : Int) (n : Nat) (s : Stream σ)
    (queue : List ErrEntry) :
    Alike (s.sendLoop o buf flag n) ((s.withErrors queue).sendLoop o buf flag n) := by
  obtain ⟨r', run, alike⟩ := (s.sendLoop_run o buf flag n).withErrors queue
  rwa [run.eq_sendLoop] at alike

theorem sendDrain_alike (buf : Bytes) (flag : Int) (n : Nat) (s : Stream σ)
    (queue : List ErrEntry) :
    Alike (s.sendDrain o buf flag n) ((s.withErrors queue).sendDrain o buf flag n) := by
  have pending : (s.withErrors queue).engine.writeBio = s.engine.writeBio := rfl
  rw [sendDrain_eq, sendDrain_eq, pending]
  split_ifs
  · exact sendLoop_alike buf flag n s queue
  · exact ⟨queue, rfl⟩

theorem recv_alike (len : Nat) (flag : Int) (s : Stream σ) (queue : List ErrEntry) :
    Alike (s.recv o len flag) ((s.withErrors queue).recv o len flag) := by
  have leftover : (s.withErrors queue).readLeftover len =
      ((s.readLeftover len).1, (s.readLeftover len).2.withErrors queue) := by
    by_cases empty : s.leftover.data = []
    · simp [readLeftover, withErrors, empty]
    · simp [readLeftover, withErrors, empty]
  have read : ((s.readLeftover len).2.withErrors queue).engine.sslRead o (toInt32 len) =
      { (s.readLeftover len).2.engine.sslRead o (toInt32 len) with
        engine := ((s.readLeftover len).2.engine.sslRead o (toInt32 len)).engine.withErrors
          (queue ++ (o.read (s.readLeftover len).2.engine.ssl (s.readLeftover len).2.engine.readBio
            (toInt32 len)).errors) } := rfl
  unfold recv
  rw [leftover]
  dsimp only
  rw [read]
  split_ifs <;> exact ⟨_, rfl⟩

theorem start_alike (contract : o.ErrorContract) (finished : o.FinishedContract) (c : Call)
    (s : Stream σ) (queue : List ErrEntry) :
    Alike (s.start o c) ((s.withErrors queue).start o c) := by
  cases c with
  | handshake type =>
    exact (alike_refl _).of_eq (handshakeLoop_withErrors contract finished type
      { s with engine := s.engine.setState o type } queue)
  | send buf flag => exact sendLoop_alike buf flag 0 s queue
  | recv len flag => exact recv_alike len flag s queue

theorem resumeSent_alike (contract : o.ErrorContract) (finished : o.FinishedContract) (r : Int)
    (p : Suspended) (s : Stream σ) (queue : List ErrEntry) :
    Alike (s.resumeSent o r p) ((s.withErrors queue).resumeSent o r p) := by
  cases p with
  | handshakeRecv | recvRaw => exact alike_keeps s queue _
  | handshakeSend type buf bytesSent =>
    simp only [resumeSent, handshakeSent]
    split_ifs
    · exact alike_keeps s queue _
    · exact alike_keeps s queue _
    · rw [handshakeLoop_withErrors contract finished]
      exact alike_refl _
  | sendRaw buf flag bytesConsumed writeBuf bytesSent =>
    simp only [resumeSent, sendSent]
    split_ifs
    · exact alike_keeps s queue _
    · exact alike_keeps s queue _
    · exact sendDrain_alike buf flag bytesConsumed s queue

theorem handshakeReceived_alike (contract : o.ErrorContract) (finished : o.FinishedContract)
    (type : HandshakeType) (r : Int) (bytes : Bytes) (s : Stream σ) (queue : List ErrEntry) :
    Alike (s.handshakeReceived o type r bytes)
      ((s.withErrors queue).handshakeReceived o type r bytes) := by
  unfold handshakeReceived
  split_ifs with eof failed
  · exact alike_keeps s queue _
  · exact alike_keeps s queue _
  · have written : (s.withErrors queue).engine.write bytes r =
        ((s.engine.write bytes r).1, (s.engine.write bytes r).2.withErrors queue) := rfl
    rw [written]
    dsimp only
    split_ifs
    · exact ⟨queue, rfl⟩
    · have same := handshakeLoop_withErrors contract finished type
        { s with engine := (s.engine.write bytes r).2 } queue
      exact (alike_refl _).of_eq same

-- The only result that depends on the error queue: whether it is empty when a record is missing.
theorem recvReceived_alike (contract : o.ErrorContract) {len : Nat} {r : Int} {bytes : Bytes}
    (counted : bytes.length = r.toNat) (fits : bytes.length ≤ len) (s : Stream σ)
    (queue : List ErrEntry)
    (same : 0 < r → o.readKind s.engine.ssl (s.engine.readBio ++ bytes) (toInt32 len) = .starved →
      (s.engine.errors = [] ↔ queue = [])) :
    Alike (s.recvReceived o len r bytes) ((s.withErrors queue).recvReceived o len r bytes) := by
  by_cases positive : 0 < r
  · rw [recvReceived_eq o contract positive counted fits,
      recvReceived_eq o contract positive counted fits]
    dsimp only
    rw [decryptOutcome_eq o contract, decryptOutcome_eq o contract]
    refine ⟨queue ++ (o.read s.engine.ssl (s.engine.readBio ++ bytes) (toInt32 len)).errors, ?_⟩
    refine Prod.ext rfl (congrArg Progress.done ?_)
    refine if_congr Iff.rfl rfl (if_congr ?_ rfl rfl)
    exact and_congr_right fun starved => (same positive starved).symm
  · rw [recvReceived, if_pos (not_lt.mp positive), recvReceived, if_pos (not_lt.mp positive)]
    exact alike_keeps s queue _

end Stream

namespace Machine

variable {o}

def StarvesAlike (o : Lib σ) (m : Machine ι σ) (queue : List ErrEntry) (i : ι) (input : Input) :
    Prop :=
  ∀ r bytes call len flag, input = .received r bytes → 0 < r → bytes.length = r.toNat →
    bytes.length ≤ len → m.slots i = .suspended call (.recvRaw len flag) →
      m.lastRead o input len = .starved → (m.stream.engine.errors = [] ↔ queue = [])

theorem settle_alike {m : Machine ι σ} {r r' : Stream σ × Progress} (queue : List ErrEntry) (i : ι)
    (call : Call) (alike : Stream.Alike r r') :
    ∃ queue', (m.withErrors queue).settle i call r' = (m.settle i call r).withErrors queue' := by
  obtain ⟨queue', rfl⟩ := alike
  exact ⟨queue', rfl⟩

theorem step_alike (contract : o.ErrorContract) (finished : o.FinishedContract)
    {m m' : Machine ι σ} {i : ι} {input : Input} {queue : List ErrEntry}
    (alike : m.StarvesAlike o queue i input) (taken : m.step o (i, input) = some m') :
    ∃ queue', (m.withErrors queue).step o (i, input) = some (m'.withErrors queue') := by
  have same : (m.withErrors queue).slots = m.slots := rfl
  cases step_effect o taken with
  | call c free =>
    obtain ⟨queue', settled⟩ := settle_alike queue i c
      (m.stream.start_alike contract finished c queue)
    refine ⟨queue', ?_⟩
    simp only [step, same, free, if_true]
    exact congrArg some settled
  | sent r call p offered flag waiting request fits =>
    obtain ⟨queue', settled⟩ := settle_alike queue i call
      ((m.stream.accept offered r).resumeSent_alike contract finished r p queue)
    refine ⟨queue', ?_⟩
    simp only [step, same, waiting, request, if_pos fits]
    exact congrArg some settled
  | received r bytes call p len flag waiting request counted fits =>
    have resumed : Stream.Alike ((m.stream.obtain bytes).resumeReceived o r bytes p)
        (((m.stream.obtain bytes).withErrors queue).resumeReceived o r bytes p) := by
      cases p with
      | handshakeSend | sendRaw => simp [Suspended.request] at request
      | handshakeRecv type =>
        exact Stream.handshakeReceived_alike contract finished type r bytes _ queue
      | recvRaw len' flag' =>
        obtain ⟨rfl, rfl⟩ : len' = len ∧ flag' = flag := by simpa [Suspended.request] using request
        refine Stream.recvReceived_alike contract counted fits _ queue fun positive starved => ?_
        exact alike r bytes call len' flag' rfl positive counted fits waiting starved
    obtain ⟨queue', settled⟩ := settle_alike queue i call resumed
    refine ⟨queue', ?_⟩
    simp only [step, same, waiting, request, if_pos (And.intro counted fits)]
    exact congrArg some settled

end Machine

end KkProxy.Ssl
