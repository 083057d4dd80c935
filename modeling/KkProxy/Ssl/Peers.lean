import KkProxy.Shared.Duplex
import KkProxy.Ssl.Delivery

set_option autoImplicit false

/-!
# An engine without a stream

A peer is an `SSL` object whose input comes directly from another's output. What the coroutines of
an `ssl_stream` do to their engine is a sequence of calls on such a peer.
-/

namespace KkProxy.Ssl

open Runs
open Shared (Talker)

structure Peer (σ : Type) where
  ssl : σ
  readBio : Bytes
  -- As in `Engine`: all bytes ever given to it, put out, decrypted and encrypted.
  fed : Bytes
  output : Bytes
  decrypted : Bytes
  encrypted : Bytes
deriving DecidableEq

inductive LibraryCall where
  | setState (type : HandshakeType)
  | handshake (type : HandshakeType)
  | read (num : Int)
  | write (buf : Bytes) (num : Int)
  | arrive (bytes : Bytes)
deriving DecidableEq, Repr

def LibraryCall.Plays (roles : HandshakeType → Prop) : LibraryCall → Prop
  | .setState type => roles type
  | .handshake type => roles type
  | _ => True

def Call.Plays (roles : HandshakeType → Prop) : Call → Prop
  | .handshake type => roles type
  | _ => True

def Input.Plays (roles : HandshakeType → Prop) : Input → Prop
  | .call (.handshake type) => roles type
  | _ => True

instance (roles : HandshakeType → Prop) [DecidablePred roles] :
    ∀ input : Input, Decidable (input.Plays roles)
  | .call (.handshake type) => inferInstanceAs (Decidable (roles type))
  | .call (.send _ _) => .isTrue trivial
  | .call (.recv _ _) => .isTrue trivial
  | .sent _ => .isTrue trivial
  | .received _ _ => .isTrue trivial

def Pc.Plays (roles : HandshakeType → Prop) : Pc → Prop
  | .suspended call _ => call.Plays roles
  | _ => True

namespace Peer

variable {σ : Type} (o : Lib σ)

def fresh (ssl : σ) : Peer σ :=
  { ssl, readBio := [], fed := [], output := [], decrypted := [], encrypted := [] }

def absorb (p : Peer σ) (a : Answer σ) : Peer σ :=
  { p with ssl := a.ssl, readBio := a.readBio, output := p.output ++ a.output }

def feed (p : Peer σ) (bytes : Bytes) : Peer σ :=
  { p with readBio := p.readBio ++ bytes, fed := p.fed ++ bytes }

def call (p : Peer σ) : LibraryCall → Peer σ
  | .setState type => { p with ssl := o.setState type p.ssl }
  | .handshake .client => p.absorb (o.connect p.ssl p.readBio)
  | .handshake .server => p.absorb (o.accept p.ssl p.readBio)
  | .read num =>
    let a := o.read p.ssl p.readBio num
    { p.absorb a with decrypted := p.decrypted ++ a.data }
  | .write buf num =>
    let a := o.write p.ssl p.readBio buf num
    { p.absorb a with encrypted := p.encrypted ++ buf.take a.ret.toNat }
  | .arrive bytes => p.feed bytes

def talker : Talker (Peer σ) LibraryCall UInt8 where
  step p c := some (p.call o c)
  sent := output
  got := fed

theorem talker_grows : (talker o).Grows := by
  intro p c p' taken
  obtain rfl := Option.some.inj taken
  cases c with
  | setState => exact ⟨List.prefix_rfl, List.prefix_rfl⟩
  | handshake type => cases type <;> exact ⟨List.prefix_append _ _, List.prefix_rfl⟩
  | read | write => exact ⟨List.prefix_append _ _, List.prefix_rfl⟩
  | arrive bytes => exact ⟨List.prefix_rfl, List.prefix_append _ _⟩

end Peer

variable {σ : Type} {o : Lib σ} {roles : HandshakeType → Prop}

namespace Engine

def peer (e : Engine σ) : Peer σ :=
  { ssl := e.ssl, readBio := e.readBio, fed := e.fed, output := e.output,
    decrypted := e.decrypted, encrypted := e.encrypted }

/--
Between two states an engine has been given `bytes` and has handed out `data`, by calls that a peer
can make alone.
-/
structure Works (o : Lib σ) (roles : HandshakeType → Prop) (e : Engine σ) (bytes data : Bytes)
    (e' : Engine σ) : Prop where
  calls : ∃ calls, run (Peer.talker o).step e.peer calls = some e'.peer ∧
    ∀ c ∈ calls, c.Plays roles
  fed : e'.fed = e.fed ++ bytes
  decrypted : e'.decrypted = e.decrypted ++ data

-- The write BIO and the error queue are no part of the peer.
theorem Works.same {e e' : Engine σ} (same : e'.peer = e.peer) : e.Works o roles [] [] e' where
  calls := ⟨[], by rw [same]; rfl, by simp⟩
  fed := by simpa [peer] using congrArg Peer.fed same
  decrypted := by simpa [peer] using congrArg Peer.decrypted same

theorem Works.single {e e' : Engine σ} {bytes data : Bytes} (c : LibraryCall)
    (plays : c.Plays roles) (calls : e.peer.call o c = e'.peer) (fed : e'.fed = e.fed ++ bytes)
    (decrypted : e'.decrypted = e.decrypted ++ data) : e.Works o roles bytes data e' where
  calls := ⟨[c], congrArg some calls, by simpa using plays⟩
  fed := fed
  decrypted := decrypted

theorem Works.trans {e e' e'' : Engine σ} {bytes bytes' data data' : Bytes}
    (first : e.Works o roles bytes data e') (second : e'.Works o roles bytes' data' e'') :
    e.Works o roles (bytes ++ bytes') (data ++ data') e'' where
  calls := by
    obtain ⟨calls, reached, plays⟩ := first.calls
    obtain ⟨more, later, plays'⟩ := second.calls
    refine ⟨calls ++ more, ?_, ?_⟩
    · rw [run_append, reached, Option.bind_some, later]
    · intro c member
      exact (List.mem_append.mp member).elim (plays c) (plays' c)
  fed := by rw [second.fed, first.fed, List.append_assoc]
  decrypted := by rw [second.decrypted, first.decrypted, List.append_assoc]

theorem feed_works (e : Engine σ) (bytes : Bytes) : e.Works o roles bytes [] (e.feed bytes) :=
  .single (.arrive bytes) trivial rfl rfl (List.append_nil _).symm

theorem setState_works (e : Engine σ) {type : HandshakeType} (plays : roles type) :
    e.Works o roles [] [] (e.setState o type) :=
  .single (.setState type) plays rfl (List.append_nil _).symm (List.append_nil _).symm

theorem read_works (e : Engine σ) (len : Int) : e.Works o roles [] [] (e.read len).engine :=
  .same rfl

theorem perform_peer (e : Engine σ) (type : HandshakeType) :
    (e.perform o (handshakeOp o type)).2.peer = e.peer.call o (.handshake type) := by
  rw [perform_eq]
  cases type <;> rfl

theorem perform_works (e : Engine σ) {type : HandshakeType} (plays : roles type) :
    e.Works o roles [] [] (e.perform o (handshakeOp o type)).2 := by
  refine .single (.handshake type) plays (e.perform_peer type).symm ?_ ?_
  all_goals
    rw [perform_eq]
    exact (List.append_nil _).symm

theorem sslRead_works (e : Engine σ) (len : Int) :
    e.Works o roles [] (e.sslRead o len).data (e.sslRead o len).engine :=
  .single (.read len) trivial rfl (List.append_nil _).symm rfl

theorem sslWrite_works (e : Engine σ) (buf : Bytes) (len : Int) :
    e.Works o roles [] [] (e.sslWrite o buf len).engine :=
  .single (.write buf len) trivial rfl (List.append_nil _).symm (List.append_nil _).symm

end Engine

namespace Stream

structure Works (o : Lib σ) (roles : HandshakeType → Prop) (s : Stream σ) (bytes : Bytes)
    (r : Stream σ × Progress) : Prop where
  engine : s.engine.Works o roles bytes r.2.delivers r.1.engine
  leftover : r.1.leftover = s.leftover
  received : r.1.received = s.received

theorem Works.done {s : Stream σ} {progress : Progress} (none : progress.delivers = []) :
    s.Works o roles [] (s, progress) where
  engine := by
    rw [none]
    exact .same rfl
  leftover := rfl
  received := rfl

theorem LoopTurn.works {type : HandshakeType} (plays : roles type) {s : Stream σ}
    {r : Stream σ × Progress} (turn : LoopTurn o type s r) : s.Works o roles [] r := by
  have performed := s.engine.perform_works (o := o) plays
  cases turn with
  | finished | failed | wantRead => exact ⟨performed, rfl, rfl⟩
  | unread read status reads empty =>
    subst reads
    exact ⟨performed.trans (Engine.read_works _ localBuf), rfl, rfl⟩
  | wantWrite read status reads some =>
    subst reads
    exact ⟨performed.trans (Engine.read_works _ localBuf), rfl, rfl⟩

theorem SendRun.works {buf : Bytes} {flag : Int} {n : Nat} {s : Stream σ}
    {r : Stream σ × Progress} (run : SendRun o buf flag n s r) : s.Works o roles [] r := by
  induction run with
  | finished n s given => exact .done rfl
  | threw n s res more writes failed =>
    subst writes
    exact ⟨s.engine.sslWrite_works _ _, rfl, rfl⟩
  | again n s res r more writes written drained rest ih =>
    subst writes
    exact ⟨(s.engine.sslWrite_works _ _).trans ih.engine, ih.leftover, ih.received⟩
  | chunk n s res more writes written pending =>
    subst writes
    exact ⟨(s.engine.sslWrite_works _ _).trans (Engine.read_works _ localBuf), rfl, rfl⟩

theorem RecvStart.works {len : Nat} {flag : Int} {s : Stream σ} {r : Stream σ × Progress}
    (start : RecvStart o len flag s r) (empty : s.leftover.data = []) :
    s.Works o roles [] r := by
  have unused : s.readLeftover len = ([], s) := if_pos empty
  have read : s.engine.Works o roles [] (s.engine.sslRead o (toInt32 len)).data
      (s.engine.sslRead o (toInt32 len)).engine := s.engine.sslRead_works (toInt32 len)
  cases start with
  | leftover some => exact absurd (by rw [unused]) some
  | decrypted reply none reads positive =>
    subst reads
    rw [unused]
    refine ⟨?_, rfl, rfl⟩
    rwa [sslRead_delivers]
  | starved reply none reads failed =>
    subst reads
    rw [unused]
    rw [sslRead_nothing failed] at read
    exact ⟨read, rfl, rfl⟩

variable (o)

theorem start_works (s : Stream σ) (c : Call) (plays : c.Plays roles)
    (empty : s.leftover.data = []) : s.Works o roles [] (s.start o c) := by
  cases c with
  | handshake type =>
    have turn : Works o roles { s with engine := s.engine.setState o type } []
        (s.handshake o type) := (handshakeLoop_turn o type _).works plays
    exact ⟨(s.engine.setState_works plays).trans turn.engine, turn.leftover, turn.received⟩
  | send buf flag => exact (s.sendLoop_run o buf flag 0).works
  | recv len flag => exact (s.recv_start o len flag).works empty

theorem resumeSent_works (s : Stream σ) (r : Int) {call : Call} {p : Suspended}
    (suspends : call.Suspends p) (plays : call.Plays roles) :
    s.Works o roles [] (s.resumeSent o r p) := by
  cases p with
  | handshakeRecv | recvRaw => exact .done rfl
  | handshakeSend type buf bytesSent =>
    obtain rfl := Call.suspends_handshakeSend.mp suspends
    simp only [resumeSent, handshakeSent]
    split_ifs
    · exact .done rfl
    · exact .done rfl
    · exact (handshakeLoop_turn o type s).works plays
  | sendRaw buf flag bytesConsumed writeBuf bytesSent =>
    simp only [resumeSent, sendSent, sendDrain_eq]
    split_ifs
    · exact .done rfl
    · exact .done rfl
    · exact (s.sendLoop_run o buf flag bytesConsumed).works
    · exact ⟨s.engine.read_works localBuf, rfl, rfl⟩

theorem handshakeReceived_works {type : HandshakeType} (plays : roles type) {r : Int}
    {bytes : Bytes} (counted : bytes.length = r.toNat) (s : Stream σ) :
    s.Works o roles bytes (s.handshakeReceived o type r bytes) := by
  by_cases positive : 0 < r
  · rw [handshakeReceived, if_neg (by omega), if_neg (by omega),
      Engine.write_eq _ positive counted]
    dsimp only
    rw [if_neg (not_le.mpr positive)]
    have turn : Works o roles { s with engine := s.engine.feed bytes } []
        ({ s with engine := s.engine.feed bytes }.handshakeLoop o type) :=
      (handshakeLoop_turn o type _).works plays
    exact ⟨by simpa using (s.engine.feed_works bytes).trans turn.engine, turn.leftover,
      turn.received⟩
  · obtain rfl : bytes = [] := List.length_eq_zero_iff.mp (by omega)
    unfold handshakeReceived
    split_ifs <;> first | exact .done rfl | omega

theorem recvReceived_works (contract : o.ErrorContract) {len : Nat} {r : Int} {bytes : Bytes}
    (counted : bytes.length = r.toNat) (fits : bytes.length ≤ len) (s : Stream σ) :
    s.Works o roles bytes (s.recvReceived o len r bytes) := by
  by_cases positive : 0 < r
  · rw [recvReceived_eq o contract positive counted fits]
    refine ⟨?_, rfl, rfl⟩
    rw [decryptOutcome_delivers]
    simpa using (s.engine.feed_works bytes).trans
      ((s.engine.feed bytes).sslRead_works (toInt32 len))
  · obtain rfl : bytes = [] := List.length_eq_zero_iff.mp (by omega)
    rw [recvReceived, if_pos (not_lt.mp positive)]
    exact .done List.take_nil

end Stream

namespace Machine

variable {ι : Type} [DecidableEq ι]

/--
All bytes from the raw stream have been given to the engine, and all that it has decrypted has been
delivered; `leftover_` has never been used.
-/
structure Kept (roles : HandshakeType → Prop) (m : Machine ι σ) : Prop where
  fed : m.stream.engine.fed = m.stream.received
  leftover : m.stream.leftover.data = []
  delivered : m.delivered = m.stream.engine.decrypted
  proper : m.Proper
  plays : ∀ i, (m.slots i).Plays roles

omit [DecidableEq ι] in
theorem fresh_kept (ssl : σ) : (fresh ssl : Machine ι σ).Kept roles :=
  ⟨rfl, rfl, rfl, fresh_proper ssl, fun _ => trivial⟩

theorem settle_plays {m : Machine ι σ} (before : ∀ i, (m.slots i).Plays roles) (i : ι)
    {call : Call} (plays : call.Plays roles) (r : Stream σ × Progress) (j : ι) :
    ((m.settle i call r).slots j).Plays roles := by
  by_cases own : j = i
  · subst own
    rw [settle_slot]
    cases r.2 with
    | suspended p => exact plays
    | done out => trivial
  · simpa [settle, own] using before j

theorem settle_kept {m : Machine ι σ} (kept : m.Kept roles) {bytes : Bytes} {s : Stream σ}
    {r : Stream σ × Progress} (i : ι) (call : Call) (works : s.Works o roles bytes r)
    (engine : s.engine = m.stream.engine) (leftover : s.leftover = m.stream.leftover)
    (received : s.received = m.stream.received ++ bytes) (plays : call.Plays roles)
    (proper : (m.settle i call r).Proper) : (m.settle i call r).Kept roles where
  fed := by
    change r.1.engine.fed = r.1.received
    rw [works.received, received, works.engine.fed, engine, kept.fed]
  leftover := by
    change r.1.leftover.data = []
    rw [works.leftover, leftover, kept.leftover]
  delivered := by
    change m.delivered ++ r.2.delivers = r.1.engine.decrypted
    rw [works.engine.decrypted, engine, kept.delivered]
  proper := proper
  plays := settle_plays kept.plays i plays r

theorem step_works (contract : o.ErrorContract) {m m' : Machine ι σ} {input : ι × Input}
    (kept : m.Kept roles) (plays : input.2.Plays roles) (taken : m.step o input = some m') :
    m'.Kept roles ∧ ∃ calls, run (Peer.talker o).step m.stream.engine.peer calls =
      some m'.stream.engine.peer ∧ ∀ c ∈ calls, c.Plays roles := by
  have proper := step_proper kept.proper taken
  obtain ⟨i, input⟩ := input
  cases step_effect o taken with
  | call c free =>
    have own : c.Plays roles := by
      cases c <;> exact plays
    have works := m.stream.start_works o c own kept.leftover
    exact ⟨settle_kept kept i c works rfl rfl (List.append_nil _).symm own proper,
      works.engine.calls⟩
  | sent r call p offered flag waiting request fits =>
    have own : call.Plays roles := by simpa [waiting, Pc.Plays] using kept.plays i
    have suspends : call.Suspends p := by simpa [waiting, Pc.Proper] using kept.proper i
    have works := (m.stream.accept offered r).resumeSent_works o r suspends own
    exact ⟨settle_kept kept i call works rfl rfl (List.append_nil _).symm own proper,
      works.engine.calls⟩
  | received r bytes call p len flag waiting request counted fits =>
    have own : call.Plays roles := by simpa [waiting, Pc.Plays] using kept.plays i
    have suspends : call.Suspends p := by simpa [waiting, Pc.Proper] using kept.proper i
    have works : (m.stream.obtain bytes).Works o roles bytes
        ((m.stream.obtain bytes).resumeReceived o r bytes p) := by
      cases p with
      | handshakeSend | sendRaw => simp [Suspended.request] at request
      | handshakeRecv type =>
        obtain rfl := Call.suspends_handshakeRecv.mp suspends
        exact (m.stream.obtain bytes).handshakeReceived_works o own counted
      | recvRaw len' flag' =>
        obtain ⟨rfl, rfl⟩ : len' = len ∧ flag' = flag := by simpa [Suspended.request] using request
        exact (m.stream.obtain bytes).recvReceived_works o contract counted fits
    exact ⟨settle_kept kept i call works rfl rfl rfl own proper, works.engine.calls⟩

end Machine

end KkProxy.Ssl
