import KkProxy.Ssl.Calls

set_option autoImplicit false

namespace KkProxy.Ssl

open Runs

variable {σ : Type}

/--
`plaintext ssl bytes` is what a session decrypts from `bytes`, the next it gets. `SSL_read` hands it
out in order, from what is in the read BIO; no other call hands out any.
-/
structure Lib.Decrypts (o : Lib σ) (plaintext : σ → Bytes → Bytes) : Prop where
  connect : ∀ ssl bio more, plaintext ssl (bio ++ more) =
    plaintext (o.connect ssl bio).ssl ((o.connect ssl bio).readBio ++ more)
  accept : ∀ ssl bio more, plaintext ssl (bio ++ more) =
    plaintext (o.accept ssl bio).ssl ((o.accept ssl bio).readBio ++ more)
  read : ∀ ssl bio num more, plaintext ssl (bio ++ more) =
    (o.read ssl bio num).data ++
      plaintext (o.read ssl bio num).ssl ((o.read ssl bio num).readBio ++ more)
  write : ∀ ssl bio buf num more, plaintext ssl (bio ++ more) =
    plaintext (o.write ssl bio buf num).ssl ((o.write ssl bio buf num).readBio ++ more)

namespace Engine

structure Carries (plaintext : σ → Bytes → Bytes) (e : Engine σ) (bytes data : Bytes)
    (e' : Engine σ) : Prop where
  fed : e'.fed = e.fed ++ bytes
  decrypted : e'.decrypted = e.decrypted ++ data
  ahead : ∀ more, plaintext e.ssl (e.readBio ++ bytes ++ more) =
    data ++ plaintext e'.ssl (e'.readBio ++ more)

variable {plaintext : σ → Bytes → Bytes}

theorem Carries.refl (e : Engine σ) : e.Carries plaintext [] [] e := by
  constructor <;> simp

theorem Carries.trans {e e' e'' : Engine σ} {bytes bytes' data data' : Bytes}
    (first : e.Carries plaintext bytes data e') (second : e'.Carries plaintext bytes' data' e'') :
    e.Carries plaintext (bytes ++ bytes') (data ++ data') e'' where
  fed := by rw [second.fed, first.fed, List.append_assoc]
  decrypted := by rw [second.decrypted, first.decrypted, List.append_assoc]
  ahead more := by
    have later := second.ahead more
    rw [List.append_assoc] at later
    have earlier := first.ahead (bytes' ++ more)
    simp only [List.append_assoc] at earlier ⊢
    rw [earlier, later]

theorem feed_carries (e : Engine σ) (bytes : Bytes) :
    e.Carries plaintext bytes [] (e.feed bytes) := by
  constructor <;> simp [feed]

theorem read_carries (e : Engine σ) (len : Int) :
    e.Carries plaintext [] [] (e.read len).engine := by
  constructor <;> simp [read]

variable {o : Lib σ}

theorem perform_carries (decrypts : o.Decrypts plaintext) (type : HandshakeType) (e : Engine σ) :
    e.Carries plaintext [] [] (e.perform o (handshakeOp o type)).2 := by
  rw [perform_eq]
  constructor
  · simp [handshakeOp, absorb, errPrintErrors]
  · simp [handshakeOp, absorb, errPrintErrors]
  · intro more
    cases type with
    | client => simpa [handshakeOp, absorb, errPrintErrors] using decrypts.connect e.ssl e.readBio more
    | server => simpa [handshakeOp, absorb, errPrintErrors] using decrypts.accept e.ssl e.readBio more

theorem sslRead_carries (decrypts : o.Decrypts plaintext) (e : Engine σ) (len : Int) :
    e.Carries plaintext [] (e.sslRead o len).data (e.sslRead o len).engine where
  fed := by simp [sslRead, absorb]
  decrypted := by simp [sslRead]
  ahead more := by simpa [sslRead, absorb] using decrypts.read e.ssl e.readBio len more

theorem sslWrite_carries (decrypts : o.Decrypts plaintext) (e : Engine σ) (buf : Bytes)
    (len : Int) : e.Carries plaintext [] [] (e.sslWrite o buf len).engine where
  fed := by simp [sslWrite, absorb]
  decrypted := by simp [sslWrite, absorb]
  ahead more := by simpa [sslWrite, absorb] using decrypts.write e.ssl e.readBio buf len more

end Engine

namespace Stream

structure Carries (plaintext : σ → Bytes → Bytes) (s : Stream σ) (bytes : Bytes)
    (r : Stream σ × Progress) : Prop where
  engine : s.engine.Carries plaintext bytes r.2.delivers r.1.engine
  leftover : r.1.leftover = s.leftover
  received : r.1.received = s.received

variable {o : Lib σ} {plaintext : σ → Bytes → Bytes}

theorem Carries.refl {s : Stream σ} {progress : Progress} (none : progress.delivers = []) :
    s.Carries plaintext [] (s, progress) where
  engine := by
    rw [none]
    exact .refl s.engine
  leftover := rfl
  received := rfl

theorem LoopTurn.carries (decrypts : o.Decrypts plaintext) {type : HandshakeType} {s : Stream σ}
    {r : Stream σ × Progress} (turn : LoopTurn o type s r) : s.Carries plaintext [] r := by
  have performed := s.engine.perform_carries decrypts type
  cases turn with
  | finished | failed | wantRead => exact ⟨performed, rfl, rfl⟩
  | unread read status reads empty =>
    subst reads
    exact ⟨performed.trans (Engine.read_carries _ localBuf), rfl, rfl⟩
  | wantWrite read status reads some =>
    subst reads
    exact ⟨performed.trans (Engine.read_carries _ localBuf), rfl, rfl⟩

theorem SendRun.carries (decrypts : o.Decrypts plaintext) {buf : Bytes} {flag : Int} {n : Nat}
    {s : Stream σ} {r : Stream σ × Progress} (run : SendRun o buf flag n s r) :
    s.Carries plaintext [] r := by
  induction run with
  | finished n s given => exact .refl rfl
  | threw n s res more writes failed =>
    subst writes
    exact ⟨s.engine.sslWrite_carries decrypts _ _, rfl, rfl⟩
  | again n s res r more writes written drained rest ih =>
    subst writes
    exact ⟨(s.engine.sslWrite_carries decrypts _ _).trans ih.engine, ih.leftover, ih.received⟩
  | chunk n s res more writes written pending =>
    subst writes
    exact ⟨(s.engine.sslWrite_carries decrypts _ _).trans (Engine.read_carries _ localBuf), rfl,
      rfl⟩

theorem sslRead_delivers (e : Engine σ) (num : Int) :
    (Progress.done (.received (e.sslRead o num).ret (e.sslRead o num).data)).delivers =
      (e.sslRead o num).data := by
  have counted := e.sslRead_data o num
  exact List.take_of_length_le (by omega)

theorem sslRead_nothing {e : Engine σ} {num : Int} (failed : (e.sslRead o num).ret ≤ 0) :
    (e.sslRead o num).data = [] := by
  have counted := e.sslRead_data o num
  exact List.length_eq_zero_iff.mp (by omega)

theorem RecvStart.carries (decrypts : o.Decrypts plaintext) {len : Nat} {flag : Int}
    {s : Stream σ} {r : Stream σ × Progress} (start : RecvStart o len flag s r)
    (empty : s.leftover.data = []) : s.Carries plaintext [] r := by
  have unused : s.readLeftover len = ([], s) := if_pos empty
  have read := s.engine.sslRead_carries decrypts (toInt32 len)
  cases start with
  | leftover some => exact absurd (by rw [unused]) some
  | decrypted reply none reads positive =>
    subst reads
    rw [unused]
    refine ⟨?_, rfl, rfl⟩
    rwa [sslRead_delivers]
  | starved reply none reads failed =>
    subst reads
    rw [unused]
    rw [sslRead_nothing failed] at read
    exact ⟨read, rfl, rfl⟩

theorem decryptOutcome_delivers (e : Engine σ) (num : Int) :
    (Progress.done (decryptOutcome o (e.sslRead o num))).delivers = (e.sslRead o num).data := by
  unfold decryptOutcome
  dsimp only
  split_ifs with positive want
  · exact sslRead_delivers e num
  · exact (sslRead_nothing (not_lt.mp positive)).symm
  · exact (sslRead_nothing (not_lt.mp positive)).symm

theorem recvReceived_carries (contract : o.ErrorContract) (decrypts : o.Decrypts plaintext)
    {len : Nat} {r : Int} {bytes : Bytes} (counted : bytes.length = r.toNat)
    (fits : bytes.length ≤ len) (s : Stream σ) :
    s.Carries plaintext bytes (s.recvReceived o len r bytes) := by
  by_cases positive : 0 < r
  · rw [recvReceived_eq o contract positive counted fits]
    refine ⟨?_, rfl, rfl⟩
    rw [decryptOutcome_delivers]
    simpa using (s.engine.feed_carries bytes).trans
      ((s.engine.feed bytes).sslRead_carries decrypts (toInt32 len))
  · obtain rfl : bytes = [] := List.length_eq_zero_iff.mp (by omega)
    rw [recvReceived, if_pos (not_lt.mp positive)]
    exact .refl List.take_nil

theorem handshakeReceived_carries (decrypts : o.Decrypts plaintext) (type : HandshakeType)
    {r : Int} {bytes : Bytes} (counted : bytes.length = r.toNat) (s : Stream σ) :
    s.Carries plaintext bytes (s.handshakeReceived o type r bytes) := by
  by_cases positive : 0 < r
  · rw [handshakeReceived, if_neg (by omega), if_neg (by omega),
      Engine.write_eq _ positive counted]
    dsimp only
    rw [if_neg (not_le.mpr positive)]
    have turn := (handshakeLoop_turn o type
      { s with engine := s.engine.feed bytes }).carries decrypts
    exact ⟨by simpa using (s.engine.feed_carries bytes).trans turn.engine, turn.leftover,
      turn.received⟩
  · obtain rfl : bytes = [] := List.length_eq_zero_iff.mp (by omega)
    unfold handshakeReceived
    split_ifs <;> first | exact .refl rfl | omega

theorem resumeSent_carries (decrypts : o.Decrypts plaintext) (s : Stream σ) (r : Int)
    (p : Suspended) : s.Carries plaintext [] (s.resumeSent o r p) := by
  cases p with
  | handshakeRecv | recvRaw => exact .refl rfl
  | handshakeSend type buf bytesSent =>
    simp only [resumeSent, handshakeSent]
    split_ifs
    · exact .refl rfl
    · exact .refl rfl
    · exact (handshakeLoop_turn o type s).carries decrypts
  | sendRaw buf flag bytesConsumed writeBuf bytesSent =>
    simp only [resumeSent, sendSent, sendDrain_eq]
    split_ifs
    · exact .refl rfl
    · exact .refl rfl
    · exact (s.sendLoop_run o buf flag bytesConsumed).carries decrypts
    · exact ⟨s.engine.read_carries localBuf, rfl, rfl⟩

end Stream

namespace Machine

variable {ι : Type} [DecidableEq ι] {o : Lib σ} {plaintext : σ → Bytes → Bytes}

/--
All bytes from the raw stream have been given to the engine, and all that it has decrypted has been
delivered; `leftover_` has never been used.
-/
structure Delivers (plaintext : σ → Bytes → Bytes) (start : σ) (m : Machine ι σ) : Prop where
  fed : m.stream.received = m.stream.engine.fed
  leftover : m.stream.leftover.data = []
  delivered : m.delivered = m.stream.engine.decrypted
  ahead : ∀ more, m.delivered ++
    plaintext m.stream.engine.ssl (m.stream.engine.readBio ++ more) =
      plaintext start (m.stream.received ++ more)

omit [DecidableEq ι] in
theorem fresh_delivers (ssl : σ) : (fresh ssl : Machine ι σ).Delivers plaintext ssl :=
  ⟨rfl, rfl, rfl, fun _ => rfl⟩

theorem settle_delivers {m : Machine ι σ} {start : σ} (delivers : m.Delivers plaintext start)
    {bytes : Bytes} {s : Stream σ} {r : Stream σ × Progress} (i : ι) (call : Call)
    (carries : s.Carries plaintext bytes r) (engine : s.engine = m.stream.engine)
    (leftover : s.leftover = m.stream.leftover) (received : s.received = m.stream.received ++ bytes) :
    (m.settle i call r).Delivers plaintext start where
  fed := by
    change r.1.received = r.1.engine.fed
    rw [carries.received, received, carries.engine.fed, engine, delivers.fed]
  leftover := by
    change r.1.leftover.data = []
    rw [carries.leftover, leftover, delivers.leftover]
  delivered := by
    change m.delivered ++ r.2.delivers = r.1.engine.decrypted
    rw [carries.engine.decrypted, engine, delivers.delivered]
  ahead more := by
    change (m.delivered ++ r.2.delivers) ++ plaintext r.1.engine.ssl (r.1.engine.readBio ++ more) =
      plaintext start (r.1.received ++ more)
    have ahead := carries.engine.ahead more
    rw [engine, List.append_assoc] at ahead
    rw [carries.received, received, List.append_assoc, ← ahead, List.append_assoc]
    exact delivers.ahead (bytes ++ more)

theorem step_delivers (contract : o.ErrorContract) (decrypts : o.Decrypts plaintext)
    {m m' : Machine ι σ} {start : σ} {input : ι × Input} (delivers : m.Delivers plaintext start)
    (later : ∀ type, input.2 ≠ .call (.handshake type)) (taken : m.step o input = some m') :
    m'.Delivers plaintext start := by
  obtain ⟨i, input⟩ := input
  cases step_effect o taken with
  | call c free =>
    have carries : m.stream.Carries plaintext [] (m.stream.start o c) := by
      cases c with
      | handshake type => exact absurd rfl (later type)
      | send buf flag => exact (m.stream.sendLoop_run o buf flag 0).carries decrypts
      | recv len flag => exact (m.stream.recv_start o len flag).carries decrypts delivers.leftover
    exact settle_delivers delivers i c carries rfl rfl (by simp)
  | sent r call p offered flag waiting request fits =>
    exact settle_delivers delivers i call
      ((m.stream.accept offered r).resumeSent_carries decrypts r p) rfl rfl (by simp [Stream.accept])
  | received r bytes call p len flag waiting request counted fits =>
    have carries : (m.stream.obtain bytes).Carries plaintext bytes
        ((m.stream.obtain bytes).resumeReceived o r bytes p) := by
      cases p with
      | handshakeSend | sendRaw => simp [Suspended.request] at request
      | handshakeRecv type =>
        exact (m.stream.obtain bytes).handshakeReceived_carries decrypts type counted
      | recvRaw len' flag' =>
        obtain ⟨rfl, rfl⟩ : len' = len ∧ flag' = flag := by simpa [Suspended.request] using request
        exact (m.stream.obtain bytes).recvReceived_carries contract decrypts counted fits
    exact settle_delivers delivers i call carries rfl rfl rfl

theorem handshake_delivers (decrypts : o.Decrypts plaintext) {m' : Machine ι σ} {ssl : σ}
    {type : HandshakeType} {i : ι}
    (taken : (fresh ssl).step o (i, .call (.handshake type)) = some m') :
    m'.Delivers plaintext (o.setState type ssl) := by
  cases step_effect o taken with
  | call c free =>
    have turn := Stream.handshakeLoop_turn o type (Stream.fresh (o.setState type ssl))
    exact settle_delivers (fresh_delivers (o.setState type ssl)) i (.handshake type)
      (turn.carries decrypts) rfl rfl rfl

end Machine

/--
In a run that starts with a handshake and then makes any calls of `recv` and `send`, the engine has
been given exactly what the raw stream returned, and the callers of `recv` exactly what the engine
has decrypted, a prefix of the plaintext of those bytes.
-/
theorem delivers_plaintext {ι : Type} [DecidableEq ι] (o : Lib σ) (contract : o.ErrorContract)
    (plaintext : σ → Bytes → Bytes) (decrypts : o.Decrypts plaintext) (ssl : σ) (i : ι)
    (type : HandshakeType) (inputs : List (ι × Input)) (m : Machine ι σ)
    (later : ∀ input ∈ inputs, ∀ type', input.2 ≠ .call (.handshake type'))
    (reached : run (Machine.step o) (Machine.fresh ssl) ((i, .call (.handshake type)) :: inputs) =
      some m) :
    m.stream.engine.fed = m.stream.received ∧
      m.delivered = m.stream.engine.decrypted ∧
      m.delivered <+: plaintext (o.setState type ssl) m.stream.received := by
  obtain ⟨m₁, started, rest⟩ := run_cons_some reached
  have delivers : m.Delivers plaintext (o.setState type ssl) :=
    run_invariant (fun _ _ _ => Machine.step_delivers contract decrypts) rest
      (always_of_forall later m₁) (Machine.handshake_delivers decrypts started)
  have ahead := delivers.ahead []
  simp only [List.append_nil] at ahead
  exact ⟨delivers.fed.symm, delivers.delivered, _, ahead⟩

def recordData : Bytes → Bytes
  | kind :: byte :: rest =>
    if kind = 0 then byte :: recordData rest
    else if kind = 1 ∨ kind = 3 then recordData rest
    else []
  | _ => []

def Lib.recordPlaintext : RecordState → Bytes → Bytes
  | .established, bytes => recordData bytes
  | _, _ => []

theorem readRecord_data (output bio more : Bytes) :
    recordData (bio ++ more) = (readRecord output bio).data ++
      Lib.recordPlaintext (readRecord output bio).ssl ((readRecord output bio).readBio ++ more) := by
  fun_induction readRecord output bio <;> simp_all [recordData, Lib.recordPlaintext]

theorem Lib.records_decrypts : Lib.records.Decrypts Lib.recordPlaintext where
  connect _ _ _ := rfl
  accept _ _ _ := rfl
  read ssl bio num more := by
    unfold records
    dsimp only
    split_ifs with none
    · rfl
    · cases ssl with
      | established => exact readRecord_data [] bio more
      | closed | failed => rfl
  write ssl bio buf num more := by
    unfold records
    dsimp only
    split_ifs <;> rfl

theorem delivers_plaintext_chunks :
    ∃ m : Solo RecordState,
      run (Machine.step Lib.records) (Machine.fresh .established)
        [((), .call (.handshake .client)), ((), .call (.recv 4 0)), ((), .received 1 [0]),
          ((), .call (.recv 4 0)), ((), .received 2 [7, 0]), ((), .call (.recv 4 0)),
          ((), .received 1 [8])] = some m ∧
      m.delivered <+: Lib.recordPlaintext .established m.stream.received := by
  have ended : (run (Machine.step Lib.records) (Machine.fresh .established : Solo RecordState)
      [((), .call (.handshake .client)), ((), .call (.recv 4 0)), ((), .received 1 [0]),
        ((), .call (.recv 4 0)), ((), .received 2 [7, 0]), ((), .call (.recv 4 0)),
        ((), .received 1 [8])]).map (fun m => m.delivered) = some [7, 8] := by decide +kernel
  obtain ⟨m, reached, -⟩ := Option.map_eq_some_iff.mp ended
  exact ⟨m, reached, (delivers_plaintext Lib.records Lib.records_contract Lib.recordPlaintext
    Lib.records_decrypts .established () .client _ m (by simp) reached).2.2⟩

end KkProxy.Ssl
