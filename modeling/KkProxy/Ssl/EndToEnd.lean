import KkProxy.Ssl.Link

set_option autoImplicit false

namespace KkProxy.Ssl

open Runs
open Shared (Side Talker Duplex)

variable {ι σ : Type} {o : Lib σ}

def given (inputs : List (ι × Input)) : Bytes :=
  inputs.flatMap fun input =>
    match input.2 with
    | .call (.send buf _) => buf
    | _ => []

def Pc.Leaves : Pc → Bytes → Prop
  | .suspended (.send buf _) (.sendRaw _ _ bytesConsumed _ _), rest => rest = buf.drop bytesConsumed
  | .returned _ (.threw _), _ => True
  | _, rest => rest = []

def Call.sends : Call → Bool
  | .send _ _ => true
  | _ => false

def Pc.threw : Pc → Bool
  | .returned _ (.threw _) => true
  | _ => false

namespace Stream

structure Idle (s : Stream σ) (call : Call) (r : Stream σ × Progress) : Prop where
  encrypted : r.1.engine.encrypted = s.engine.encrypted
  leaves : (r.2.pc call).Leaves []

theorem LoopTurn.idle {type : HandshakeType} {s : Stream σ} {r : Stream σ × Progress}
    (turn : LoopTurn o type s r) : s.Idle (.handshake type) r := by
  have performed : (s.engine.perform o (Engine.handshakeOp o type)).2.encrypted =
      s.engine.encrypted := by
    rw [Engine.perform_eq]
    cases type <;> rfl
  cases turn with
  | finished | failed | wantRead => exact ⟨performed, rfl⟩
  | unread read status reads | wantWrite read status reads =>
    subst reads
    exact ⟨performed, rfl⟩

theorem RecvStart.idle {len : Nat} {flag : Int} {s : Stream σ} {r : Stream σ × Progress}
    (start : RecvStart o len flag s r) : s.Idle (.recv len flag) r := by
  have unchanged := s.readLeftover_engine len
  cases start with
  | leftover => exact ⟨congrArg Engine.encrypted unchanged, rfl⟩
  | decrypted read none reads | starved read none reads =>
    subst reads
    exact ⟨rfl, rfl⟩

theorem SendRun.leaves {buf : Bytes} {flag : Int} {n : Nat} {s : Stream σ}
    {r : Stream σ × Progress} (run : SendRun o buf flag n s r) :
    ∃ rest, (r.2.pc (.send buf flag)).Leaves rest ∧
      r.1.engine.encrypted ++ rest = s.engine.encrypted ++ buf.drop n := by
  have written (s : Stream σ) (n : Nat) :
      let res := s.engine.sslWrite o (buf.drop n) (toInt32 (buf.length - n))
      res.engine.encrypted ++ buf.drop (n + res.ret.toNat) = s.engine.encrypted ++ buf.drop n := by
    intro res
    change s.engine.encrypted ++ (buf.drop n).take res.ret.toNat ++ _ = _
    rw [← List.drop_drop, List.append_assoc, List.take_append_drop]
  induction run with
  | finished n s whole => exact ⟨[], rfl, by rw [List.drop_eq_nil_of_le whole]⟩
  | threw n s res more writes failed =>
    subst writes
    exact ⟨_, trivial, written s n⟩
  | again n s res r more writes positive drained rest ih =>
    subst writes
    obtain ⟨left, leaves, same⟩ := ih
    exact ⟨left, leaves, same.trans (written s n)⟩
  | chunk n s res more writes positive pending =>
    subst writes
    exact ⟨_, rfl, written s n⟩

variable (o)

theorem start_idle (s : Stream σ) {c : Call} (silent : c.sends = false) :
    s.Idle c (s.start o c) := by
  cases c with
  | handshake type =>
    have turn := (handshakeLoop_turn o type { s with engine := s.engine.setState o type }).idle
    exact ⟨turn.encrypted, turn.leaves⟩
  | send => cases silent
  | recv len flag => exact (s.recv_start o len flag).idle

theorem resumeReceived_idle (contract : o.ErrorContract) (s : Stream σ) {call : Call}
    {p : Suspended} {len : Nat} {flag r : Int} {bytes : Bytes} (suspends : call.Suspends p)
    (request : p.request = .recv len flag) (counted : bytes.length = r.toNat)
    (fits : bytes.length ≤ len) : s.Idle call (s.resumeReceived o r bytes p) := by
  cases p with
  | handshakeSend | sendRaw => simp [Suspended.request] at request
  | handshakeRecv type =>
    obtain rfl := Call.suspends_handshakeRecv.mp suspends
    simp only [resumeReceived, handshakeReceived]
    split_ifs
    · exact ⟨rfl, rfl⟩
    · exact ⟨rfl, rfl⟩
    · exact ⟨rfl, rfl⟩
    · have turn := (handshakeLoop_turn o type
        { s with engine := (s.engine.write bytes r).2 }).idle
      exact ⟨turn.encrypted, turn.leaves⟩
  | recvRaw len' flag' =>
    obtain ⟨rfl, rfl⟩ : len' = len ∧ flag' = flag := by simpa [Suspended.request] using request
    simp only [resumeReceived]
    by_cases positive : 0 < r
    · rw [recvReceived_eq o contract positive counted fits]
      refine ⟨rfl, ?_⟩
      dsimp only [decryptOutcome]
      split_ifs <;> rfl
    · rw [recvReceived, if_pos (not_lt.mp positive)]
      exact ⟨rfl, rfl⟩

theorem sendSent_leaves (s : Stream σ) (buf : Bytes) (flag : Int) (n : Nat) (writeBuf : Bytes)
    (bytesSent : Nat) {r : Int} (accepts : 0 < r) :
    ∃ rest, ((s.sendSent o buf flag n writeBuf bytesSent r).2.pc (.send buf flag)).Leaves rest ∧
      (s.sendSent o buf flag n writeBuf bytesSent r).1.engine.encrypted ++ rest =
        s.engine.encrypted ++ buf.drop n := by
  rw [sendSent, if_neg (not_le.mpr accepts), sendDrain_eq]
  split_ifs
  · exact ⟨_, rfl, rfl⟩
  · exact (s.sendLoop_run o buf flag n).leaves
  · exact ⟨_, rfl, rfl⟩

end Stream

variable [DecidableEq ι]

namespace Machine

/-- A call of `send` is made in the slot `w`, and nothing is called in a slot after an exception. -/
def Sole (w : ι) (m : Machine ι σ) : ι × Input → Prop
  | (i, .call c) => (c.sends = true → i = w) ∧ (m.slots i).threw = false
  | _ => True

instance (w : ι) (m : Machine ι σ) : ∀ input, Decidable (m.Sole w input)
  | (i, .call c) =>
    inferInstanceAs (Decidable ((c.sends = true → i = w) ∧ (m.slots i).threw = false))
  | (_, .sent _) => .isTrue trivial
  | (_, .received _ _) => .isTrue trivial

-- The engine has been given all that the calls of `send` have got, but what one of them has left.
structure Sending (w : ι) (inputs : List (ι × Input)) (m : Machine ι σ) : Prop where
  proper : m.Proper
  others : ∀ i call, i ≠ w → (m.slots i).call? = some call → call.sends = false
  complete : ∃ rest, (m.slots w).Leaves rest ∧ m.stream.engine.encrypted ++ rest = given inputs

omit [DecidableEq ι] in
theorem fresh_sending (w : ι) (ssl : σ) : (fresh ssl : Machine ι σ).Sending w [] where
  proper := fresh_proper ssl
  others _ _ _ called := by cases called
  complete := ⟨[], rfl, rfl⟩

omit [DecidableEq ι] in
theorem given_snoc (inputs : List (ι × Input)) (input : ι × Input)
    (quiet : ∀ buf flag, input.2 ≠ .call (.send buf flag)) :
    given (inputs ++ [input]) = given inputs := by
  obtain ⟨i, input⟩ := input
  rw [given, List.flatMap_append, List.flatMap_singleton]
  split
  · next buf flag same => exact absurd same (quiet buf flag)
  · rw [List.append_nil, given]

theorem leaves_of_free {pc : Pc} (free : pc.free = true) (continues : pc.threw = false)
    {rest : Bytes} (leaves : pc.Leaves rest) : rest = [] := by
  cases pc with
  | idle => exact leaves
  | suspended => cases free
  | returned call out =>
    cases out with
    | threw => cases continues
    | handshake | sent | received => exact leaves

variable {w i : ι} {m : Machine ι σ} {inputs : List (ι × Input)} {input : Input} {call : Call}
  {s : Stream σ} {r : Stream σ × Progress}

theorem settle_others (others : ∀ j c, j ≠ w → (m.slots j).call? = some c → c.sends = false)
    (own : i ≠ w → call.sends = false) (j : ι) (c : Call) (other : j ≠ w)
    (called : ((m.settle i call r).slots j).call? = some c) : c.sends = false := by
  by_cases same : j = i
  · subst same
    rw [settle_slot] at called
    have : call = c := by
      cases progress : r.2 <;> simpa [progress, Progress.pc, Pc.call?] using called
    exact this ▸ own other
  · have unchanged : (m.settle i call r).slots j = m.slots j := Function.update_of_ne same ..
    exact others j c other (unchanged ▸ called)

theorem settle_idle (before : m.Sending w inputs) (idle : s.Idle call r)
    (same : s.engine.encrypted = m.stream.engine.encrypted) (silent : call.sends = false)
    (quiet : ∀ buf flag, input ≠ .call (.send buf flag))
    (spent : i = w → ∀ rest, (m.slots w).Leaves rest → rest = [])
    (proper : (m.settle i call r).Proper) :
    (m.settle i call r).Sending w (inputs ++ [(i, input)]) where
  proper := proper
  others := settle_others before.others fun _ => silent
  complete := by
    obtain ⟨rest, leaves, complete⟩ := before.complete
    rw [given_snoc inputs (i, input) quiet, ← complete, ← same, ← idle.encrypted]
    by_cases own : i = w
    · subst own
      obtain rfl := spent rfl rest leaves
      exact ⟨[], by rw [settle_slot]; exact idle.leaves, rfl⟩
    · have unchanged : (m.settle i call r).slots w = m.slots w :=
        Function.update_of_ne (Ne.symm own) ..
      exact ⟨rest, unchanged ▸ leaves, rfl⟩

theorem settle_sends (before : m.Sending i inputs) {left : Bytes}
    (advanced : ∃ rest, (r.2.pc call).Leaves rest ∧ r.1.engine.encrypted ++ rest =
      m.stream.engine.encrypted ++ left)
    (complete : m.stream.engine.encrypted ++ left = given (inputs ++ [(i, input)]))
    (proper : (m.settle i call r).Proper) :
    (m.settle i call r).Sending i (inputs ++ [(i, input)]) where
  proper := proper
  others := settle_others before.others fun other => absurd rfl other
  complete := by
    obtain ⟨rest, leaves, same⟩ := advanced
    exact ⟨rest, by rw [settle_slot]; exact leaves, same.trans complete⟩

theorem step_sending (contract : o.ErrorContract) {m' : Machine ι σ} {input : ι × Input}
    (before : m.Sending w inputs) (allowed : m.Sole w input ∧ input.2.Accepts)
    (taken : m.step o input = some m') : m'.Sending w (inputs ++ [input]) := by
  have proper := step_proper before.proper taken
  obtain ⟨i, input⟩ := input
  obtain ⟨sole, accepts⟩ := allowed
  cases step_effect o taken with
  | call c free =>
    obtain ⟨mine, continues⟩ := sole
    cases sends : c.sends with
    | false =>
      refine settle_idle before (m.stream.start_idle o sends) rfl sends ?_ ?_ proper
      · rintro buf flag ⟨⟩
        cases sends
      · rintro rfl rest leaves
        exact leaves_of_free free continues leaves
    | true =>
      obtain rfl : i = w := mine sends
      cases c with
      | handshake | recv => cases sends
      | send buf flag =>
        obtain ⟨rest, leaves, complete⟩ := before.complete
        obtain rfl := leaves_of_free free continues leaves
        refine settle_sends before (m.stream.sendLoop_run o buf flag 0).leaves ?_ proper
        rw [List.append_nil] at complete
        simp [complete, given]
  | sent r call p offered flag waiting request fits =>
    have suspends : call.Suspends p := by simpa [waiting, Pc.Proper] using before.proper i
    cases p with
    | handshakeRecv | recvRaw => simp [Suspended.request] at request
    | handshakeSend type buf bytesSent =>
      obtain rfl := Call.suspends_handshakeSend.mp suspends
      have idle : (m.stream.accept offered r).Idle (.handshake type)
          ((m.stream.accept offered r).resumeSent o r (.handshakeSend type buf bytesSent)) := by
        simp only [Stream.resumeSent, Stream.handshakeSent]
        split_ifs
        · exact ⟨rfl, rfl⟩
        · exact ⟨rfl, rfl⟩
        · exact (Stream.handshakeLoop_turn o type _).idle
      refine settle_idle before idle rfl rfl (by rintro _ _ ⟨⟩) ?_ proper
      rintro rfl rest leaves
      rwa [waiting] at leaves
    | sendRaw buf flag' n writeBuf bytesSent =>
      obtain rfl := Call.suspends_sendRaw.mp suspends
      have own : i = w := by
        by_contra other
        have silent := before.others i (.send buf flag') other (by rw [waiting]; rfl)
        cases silent
      subst own
      obtain ⟨rest, leaves, complete⟩ := before.complete
      obtain rfl : rest = buf.drop n := by rwa [waiting] at leaves
      refine settle_sends before
        ((m.stream.accept offered r).sendSent_leaves o buf flag' n writeBuf bytesSent accepts) ?_
        proper
      rw [given_snoc inputs (i, .sent r) (by rintro _ _ ⟨⟩)]
      exact complete
  | received r bytes call p len flag waiting request counted fits =>
    have suspends : call.Suspends p := by simpa [waiting, Pc.Proper] using before.proper i
    have silent : call.sends = false := by
      cases call with
      | handshake | recv => rfl
      | send => cases p <;> simp_all [Call.Suspends, Suspended.request]
    have idle := (m.stream.obtain bytes).resumeReceived_idle o contract suspends request counted fits
    refine settle_idle before idle rfl silent (by rintro _ _ ⟨⟩) ?_ proper
    rintro rfl rest leaves
    rw [waiting] at leaves
    cases call with
    | send => cases silent
    | handshake | recv => exact leaves

end Machine

namespace Peers

/-- In every run of two peers each decrypts, in order, what the other has encrypted. -/
def Faithful (o : Lib σ) (roles : Side → HandshakeType → Prop) (ssl : Side → σ) : Prop :=
  ∀ calls e, run (step o) (fresh ssl) calls = some e → (∀ c ∈ calls, c.2.Plays (roles c.1)) →
    ∀ side, (e.ends side).decrypted <+: (e.ends side.other).encrypted

end Peers

namespace Link

def Sole (w : Side → ι) (d : Link ι σ) (input : Side × ι × Input) : Prop :=
  (d.ends input.1).1.Sole (w input.1) input.2

instance (w : Side → ι) (d : Link ι σ) (input : Side × ι × Input) : Decidable (d.Sole w input) :=
  inferInstanceAs (Decidable ((d.ends input.1).1.Sole (w input.1) input.2))

theorem reached_sending (contract : o.ErrorContract) {roles : Side → HandshakeType → Prop}
    {ssl : Side → σ} {w : Side → ι} {d : Link ι σ} {inputs : List (Side × ι × Input)}
    (reached : run (step o) (fresh ssl) inputs = some d)
    (allowed : Always (step o) (Allows roles) (fresh ssl) inputs)
    (sole : Always (step o) (Sole w) (fresh ssl) inputs) (side : Side) :
    (d.ends side).1.Sending (w side) (Duplex.inputsOf side inputs) := by
  have alone := Duplex.run_end side reached
  have meets : Always (Lined.step o)
      (fun q input => q.Allows (roles side) input ∧ q.1.Sole (w side) input)
      (Lined.fresh (ssl side)) (Duplex.inputsOf side inputs) :=
    (Duplex.always_end (fun side (q : Lined ι σ) => q.Allows (roles side)) side reached allowed).and
      (Duplex.always_end (fun side (q : Lined ι σ) => q.1.Sole (w side)) side reached sole)
  have preserved (before : List (ι × Input)) (q : Lined ι σ) (input : ι × Input) (q' : Lined ι σ)
      (sending : q.1.Sending (w side) before)
      (meets : q.Allows (roles side) input ∧ q.1.Sole (w side) input)
      (taken : q.step o input = some q') : q'.1.Sending (w side) (before ++ [input]) := by
    obtain ⟨m, moved, rfl⟩ := watching_some taken
    exact Machine.step_sending contract sending ⟨meets.2, meets.1.1.1⟩ moved
  exact run_history preserved alone meets (Machine.fresh_sending (w side) (ssl side))

theorem reached_delivered (contract : o.ErrorContract) {roles : Side → HandshakeType → Prop}
    {ssl : Side → σ} (faithful : Peers.Faithful o roles ssl) {w : Side → ι} {d : Link ι σ}
    {inputs : List (Side × ι × Input)} (reached : run (step o) (fresh ssl) inputs = some d)
    (allowed : Always (step o) (Allows roles) (fresh ssl) inputs)
    (sole : Always (step o) (Sole w) (fresh ssl) inputs) (side : Side) :
    (d.ends side).1.delivered <+: given (Duplex.inputsOf side.other inputs) := by
  obtain ⟨calls, e, ran, plays, same⟩ := reached_peers contract reached allowed
  have kept := ((reached_sound contract reached allowed).ends side).kept
  have decrypted : (e.ends side).decrypted = (d.ends side).1.delivered := by
    rw [same, kept.delivered]
    rfl
  have encrypted : (e.ends side.other).encrypted = (d.ends side.other).1.stream.engine.encrypted := by
    rw [same]
    rfl
  have sending := reached_sending contract reached allowed sole side.other
  obtain ⟨rest, -, complete⟩ := sending.complete
  have prefix' := faithful calls e ran plays side
  rw [decrypted, encrypted] at prefix'
  exact prefix'.trans ⟨rest, complete⟩

end Link

/--
If two engines that get each other's output directly decrypt what the other encrypts, then at each
end of two connected `ssl_stream`s the callers of `recv` have at every moment got a prefix of what
the callers of `send` have given at the other end.
-/
theorem delivered_was_sent (contract : o.ErrorContract) (roles : Side → HandshakeType → Prop)
    (ssl : Side → σ) (faithful : Peers.Faithful o roles ssl) (w : Side → ι)
    (inputs : List (Side × ι × Input)) (d : Link ι σ)
    (reached : run (Link.step o) (Link.fresh ssl) inputs = some d)
    (allowed : Always (Link.step o) (Link.Allows roles) (Link.fresh ssl) inputs)
    (sole : Always (Link.step o) (Link.Sole w) (Link.fresh ssl) inputs) (side : Side) :
    (d.ends side).1.delivered <+: given (Duplex.inputsOf side.other inputs) :=
  Link.reached_delivered contract faithful reached allowed sole side

theorem recordData_prefix (more : Bytes) :
    ∀ bytes, recordData bytes <+: recordData (bytes ++ more)
  | kind :: byte :: rest => by
    have later := recordData_prefix more rest
    rw [List.cons_append, List.cons_append, recordData, recordData]
    split_ifs
    · exact (List.prefix_cons_inj byte).mpr later
    · exact later
    · exact List.nil_prefix
  | [] => List.nil_prefix
  | [_] => List.nil_prefix

theorem recordData_written (data more : Bytes) :
    recordData (data.flatMap (fun byte => [0, byte]) ++ more) = data ++ recordData more := by
  induction data with
  | nil => rfl
  | cons byte rest ih => simpa [recordData] using ih

theorem readRecord_answers (output bio : Bytes) :
    ∃ answers, (readRecord output bio).output = output ++ answers ∧
      ∀ more, recordData (answers ++ more) <+: recordData more := by
  have silent : ∃ answers, output = output ++ answers ∧
      ∀ more, recordData (answers ++ more) <+: recordData more :=
    ⟨[], (List.append_nil _).symm, fun _ => List.prefix_rfl⟩
  fun_induction readRecord output bio with
  | case2 output byte rest other ih => exact ih silent
  | case4 output byte rest _ _ _ ih =>
    obtain ⟨answers, same, plain⟩ :=
      ih ⟨[], (List.append_nil _).symm, fun _ => List.prefix_rfl⟩
    exact ⟨[3, byte] ++ answers, by rw [same, List.append_assoc], plain⟩
  | case5 output kind byte rest => exact ⟨[4, byte], rfl, fun _ => List.nil_prefix⟩
  | _ => exact silent

structure Peer.Records (p : Peer RecordState) : Prop where
  reads : ∀ more, p.decrypted ++ Lib.recordPlaintext p.ssl (p.readBio ++ more) =
    recordData (p.fed ++ more)
  writes : ∀ more, recordData (p.output ++ more) <+: p.encrypted ++ recordData more

namespace Peer

theorem fresh_records : (fresh .established : Peer RecordState).Records :=
  ⟨fun _ => rfl, fun _ => List.prefix_rfl⟩

theorem read_records {p : Peer RecordState} (records : p.Records) (num : Int) :
    (p.call Lib.records (.read num)).Records where
  reads more := by
    have ahead := Lib.records_decrypts.read p.ssl p.readBio num more
    have before := records.reads more
    rw [ahead, ← List.append_assoc] at before
    exact before
  writes more := by
    obtain ⟨answers, output, plain⟩ : ∃ answers, (Lib.records.read p.ssl p.readBio num).output =
        answers ∧ ∀ more, recordData (answers ++ more) <+: recordData more := by
      simp only [Lib.records]
      split_ifs
      · exact ⟨[], rfl, fun _ => List.prefix_rfl⟩
      · cases p.ssl with
        | established => simpa using readRecord_answers [] p.readBio
        | closed | failed => exact ⟨[], rfl, fun _ => List.prefix_rfl⟩
    change recordData (p.output ++ (Lib.records.read p.ssl p.readBio num).output ++ more) <+:
      p.encrypted ++ recordData more
    rw [output, List.append_assoc]
    exact (records.writes _).trans ((List.prefix_append_right_inj _).mpr (plain more))

theorem write_records {p : Peer RecordState} (records : p.Records) (buf : Bytes) (num : Int) :
    (p.call Lib.records (.write buf num)).Records where
  reads more := by
    have ahead := Lib.records_decrypts.write p.ssl p.readBio buf num more
    have before := records.reads more
    rw [ahead] at before
    exact before
  writes more := by
    change recordData (p.output ++ (Lib.records.write p.ssl p.readBio buf num).output ++ more) <+:
      p.encrypted ++ buf.take (Lib.records.write p.ssl p.readBio buf num).ret.toNat ++
        recordData more
    have before := records.writes
      ((Lib.records.write p.ssl p.readBio buf num).output ++ more)
    rw [List.append_assoc, List.append_assoc]
    refine before.trans ((List.prefix_append_right_inj _).mpr ?_)
    simp only [Lib.records]
    split_ifs with none
    · exact List.prefix_rfl
    · dsimp only
      rw [recordData_written, Int.toNat_natCast, List.length_take, ← List.take_take,
        List.take_length]

theorem call_records {p : Peer RecordState} (records : p.Records) (c : LibraryCall) :
    (p.call Lib.records c).Records := by
  cases c with
  | setState type =>
    cases type <;> exact ⟨records.reads, records.writes⟩
  | handshake type =>
    have same : (p.call Lib.records (.handshake type)) = { p with output := p.output ++ [] } := by
      cases type <;> rfl
    rw [same, List.append_nil]
    exact ⟨records.reads, records.writes⟩
  | read num => exact read_records records num
  | write buf num => exact write_records records buf num
  | arrive bytes =>
    refine ⟨fun more => ?_, records.writes⟩
    change p.decrypted ++ Lib.recordPlaintext p.ssl (p.readBio ++ bytes ++ more) =
      recordData (p.fed ++ bytes ++ more)
    rw [List.append_assoc, List.append_assoc]
    exact records.reads (bytes ++ more)

end Peer

theorem Lib.records_faithful (roles : Side → HandshakeType → Prop) :
    Peers.Faithful Lib.records roles fun _ => .established := by
  intro calls e ran _ side
  have records : ∀ side, (e.ends side).Records := by
    have preserved (e : Peers RecordState) (c : Side × LibraryCall) (e' : Peers RecordState)
        (before : ∀ side, (e.ends side).Records) (_ : True)
        (taken : e.step Lib.records c = some e') : ∀ side, (e'.ends side).Records := by
      have called (_ : Side) (p : Peer RecordState) (c : LibraryCall) (p' : Peer RecordState)
          (records : p.Records) (_ : True) (taken : (Peer.talker Lib.records).step p c = some p') :
          p'.Records := by
        obtain rfl := Option.some.inj taken
        exact Peer.call_records records c
      exact Duplex.step_ends called before trivial taken
    exact run_invariant preserved ran (always_true _ _) fun _ => Peer.fresh_records
  have carried : (e.ends side).fed ++ e.wire side.other = (e.ends side.other).output := by
    have other : (e.ends side.other.other).fed ++ e.wire side.other =
        (e.ends side.other).output := Peers.reached_conserved ran side.other
    rwa [Side.other_other] at other
  have read := (records side).reads []
  have written := (records side.other).writes []
  rw [List.append_nil] at read written
  calc (e.ends side).decrypted
    _ <+: recordData (e.ends side).fed := by
      rw [← List.append_nil (e.ends side).fed, ← read]
      exact List.prefix_append _ _
    _ <+: recordData (e.ends side.other).output := by
      rw [← carried]
      exact recordData_prefix _ _
    _ <+: (e.ends side.other).encrypted := by simpa [recordData] using written

-- The second record arrives in two parts.
def sendAcross : List (Side × Bool × Input) :=
  [(.left, true, .call (.send [7, 8] 0)), (.right, false, .call (.recv 4 0)), (.left, true, .sent 3),
    (.right, false, .received 2 [0, 7]), (.right, false, .call (.recv 4 0)),
    (.right, false, .received 1 [0]), (.left, true, .sent 1), (.right, false, .call (.recv 4 0)),
    (.right, false, .received 1 [8])]

theorem delivered_was_sent_records :
    ∃ d : Link Bool RecordState,
      run (Link.step Lib.records) (Link.fresh fun _ => .established) sendAcross = some d ∧
      (d.ends .right).1.delivered = [7, 8] ∧
      (d.ends .right).1.delivered <+: given (Duplex.inputsOf .left sendAcross) := by
  have ended : (run (Link.step Lib.records) (Link.fresh fun _ => .established : Link Bool RecordState)
      sendAcross).map (fun d => (d.ends .right).1.delivered) = some [7, 8] := by decide +kernel
  obtain ⟨d, reached, delivered⟩ := Option.map_eq_some_iff.mp ended
  exact ⟨d, reached, delivered, delivered_was_sent Lib.records_contract (fun _ _ => True)
    (fun _ => .established) (Lib.records_faithful _) (fun _ => true) sendAcross d reached
    (by decide +kernel) (by decide +kernel) .right⟩

end KkProxy.Ssl
