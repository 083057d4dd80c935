import KkProxy.Shared.Conveyor
import KkProxy.Ssl.Calls

set_option autoImplicit false

namespace KkProxy.Ssl

open Runs
open Shared (Conveyor)
open Shared.Conveyor (Moves Move Conserved)

variable {σ : Type} (o : Lib σ)

namespace Engine

def conveyor (e : Engine σ) (loaded shipped : Bytes) : Conveyor UInt8 :=
  { made := e.output, queued := e.writeBio, loaded, shipped }

theorem absorb_moves (e : Engine σ) (a : Answer σ) (loaded shipped : Bytes) :
    Moves (e.conveyor loaded shipped) ((e.absorb a).conveyor loaded shipped) :=
  .single (.produce (e.conveyor loaded shipped) a.output)

theorem handshakeOp_moves (type : HandshakeType) (e : Engine σ) (loaded shipped : Bytes) :
    Moves (e.conveyor loaded shipped) ((e.handshakeOp o type).2.conveyor loaded shipped) := by
  cases type <;> exact absorb_moves { e with errors := _ } _ loaded shipped

theorem perform_moves (type : HandshakeType) (e : Engine σ) (loaded shipped : Bytes) :
    Moves (e.conveyor loaded shipped)
      ((e.perform o (handshakeOp o type)).2.conveyor loaded shipped) := by
  rw [perform_eq]
  exact e.handshakeOp_moves o type loaded shipped

theorem sslRead_moves (e : Engine σ) (len : Int) (loaded shipped : Bytes) :
    Moves (e.conveyor loaded shipped) ((e.sslRead o len).engine.conveyor loaded shipped) :=
  e.absorb_moves _ loaded shipped

theorem sslWrite_moves (e : Engine σ) (buf : Bytes) (len : Int) (loaded shipped : Bytes) :
    Moves (e.conveyor loaded shipped) ((e.sslWrite o buf len).engine.conveyor loaded shipped) :=
  e.absorb_moves _ loaded shipped

theorem read_moves (e : Engine σ) (len : Int) (shipped : Bytes) :
    Moves (e.conveyor [] shipped) ((e.read len).engine.conveyor (e.read len).data shipped) := by
  have split := e.read_data len
  have loads : (e.conveyor [] shipped).load (e.read len).data.length =
      (e.read len).engine.conveyor (e.read len).data shipped := by
    unfold Shared.Conveyor.load conveyor
    rw [← split]
    simp [read]
  exact loads ▸ .single (.load _ _)

end Engine

namespace Stream

def conveyor (s : Stream σ) (loaded : Bytes) : Conveyor UInt8 := s.engine.conveyor loaded s.accepted

end Stream

def Suspended.loaded : Suspended → Bytes
  | .handshakeSend _ buf bytesSent => buf.drop bytesSent
  | .sendRaw _ _ _ writeBuf bytesSent => writeBuf.drop bytesSent
  | _ => []

def Suspended.Offers : Suspended → Prop
  | .handshakeSend _ buf bytesSent => bytesSent < buf.length
  | .sendRaw _ _ _ writeBuf bytesSent => bytesSent < writeBuf.length
  | _ => True

def Progress.loaded : Progress → Bytes
  | .suspended p => p.loaded
  | .done _ => []

def Progress.Offers : Progress → Prop
  | .suspended p => p.Offers
  | .done _ => True

namespace Stream

-- A coroutine entered with an empty local buffer moves the conveyor and offers what it loads.
structure Flows (s : Stream σ) (r : Stream σ × Progress) : Prop where
  moves : Moves (s.conveyor []) (r.1.conveyor r.2.loaded)
  offers : r.2.Offers

theorem Flows.of_eq {s t : Stream σ} {r : Stream σ × Progress}
    (flows : t.Flows r) (same : s.conveyor [] = t.conveyor []) : s.Flows r :=
  ⟨same ▸ flows.moves, flows.offers⟩

theorem Flows.done {s t : Stream σ} {out : Outcome}
    (moves : Moves (s.conveyor []) (t.conveyor [])) : s.Flows (t, .done out) :=
  ⟨moves, trivial⟩

theorem Flows.chunk {s : Stream σ} {e : Engine σ} {p : Suspended}
    (moves : Moves (s.conveyor []) (e.conveyor [] s.accepted))
    (positive : 0 < (e.read localBuf).ret) (loaded : p.loaded = (e.read localBuf).data)
    (offers : 0 < (e.read localBuf).data.length → p.Offers) :
    s.Flows ({ s with engine := (e.read localBuf).engine }, .suspended p) where
  moves := by
    change Moves _ ((e.read localBuf).engine.conveyor p.loaded s.accepted)
    rw [loaded]
    exact moves.trans (e.read_moves localBuf s.accepted)
  offers := by
    have counted := Engine.read_ret_pos positive
    exact offers (by omega)

variable {o}

theorem LoopTurn.flows {type : HandshakeType} {s : Stream σ} {r : Stream σ × Progress}
    (turn : LoopTurn o type s r) : s.Flows r := by
  have performed := s.engine.perform_moves o type [] s.accepted
  cases turn with
  | finished | failed => exact .done performed
  | wantRead => exact ⟨performed, trivial⟩
  | unread read status reads empty =>
    subst reads
    have read := performed.trans (Engine.read_moves _ localBuf s.accepted)
    rw [Engine.read_ret_nonpos empty] at read
    exact .done read
  | wantWrite read status reads some =>
    subst reads
    exact .chunk performed some rfl id

theorem SendRun.flows {buf : Bytes} {flag : Int} {n : Nat} {s : Stream σ}
    {r : Stream σ × Progress} (run : SendRun o buf flag n s r) : s.Flows r := by
  induction run with
  | finished n s given => exact .done .refl
  | threw n s res more writes failed =>
    subst writes
    exact .done (s.engine.sslWrite_moves o _ _ [] s.accepted)
  | again n s res r more writes written drained rest ih =>
    subst writes
    exact ⟨(s.engine.sslWrite_moves o _ _ [] s.accepted).trans ih.moves, ih.offers⟩
  | chunk n s res more writes written pending =>
    subst writes
    exact .chunk (s.engine.sslWrite_moves o _ _ [] s.accepted)
      (Engine.read_pending (List.length_pos_iff.mpr pending) (by decide)) rfl id

theorem RecvStart.flows {len : Nat} {flag : Int} {s : Stream σ} {r : Stream σ × Progress}
    (start : RecvStart o len flag s r) : s.Flows r := by
  have untouched : s.conveyor [] = (s.readLeftover len).2.conveyor [] := by
    unfold readLeftover
    split <;> rfl
  refine Flows.of_eq ?_ untouched
  have read := Engine.sslRead_moves o s.engine (toInt32 len) [] (s.readLeftover len).2.accepted
  rw [← s.readLeftover_engine len] at read
  cases start with
  | leftover some => exact .done .refl
  | decrypted reply none reads positive =>
    subst reads
    exact .done (s.readLeftover_engine len ▸ read)
  | starved reply none reads failed =>
    subst reads
    exact ⟨s.readLeftover_engine len ▸ read, trivial⟩

variable (o)

theorem sendDrain_flows (buf : Bytes) (flag : Int) (n : Nat) (s : Stream σ) :
    s.Flows (s.sendDrain o buf flag n) := by
  rw [sendDrain_eq]
  split_ifs with drained
  · exact (s.sendLoop_run o buf flag n).flows
  · exact .chunk .refl (Engine.read_pending (List.length_pos_iff.mpr drained) (by decide)) rfl id

theorem handshakeReceived_flows (type : HandshakeType) (r : Int) (bytes : Bytes) (s : Stream σ) :
    s.Flows (s.handshakeReceived o type r bytes) := by
  unfold handshakeReceived
  dsimp only
  split_ifs
  · exact .done .refl
  · exact .done .refl
  · exact .done .refl
  · exact (handshakeLoop_turn o type _).flows.of_eq rfl

-- `recv` moves the conveyor as long as its decrypt loop does not read the write BIO.
theorem recvReceived_flows (contract : o.ErrorContract) {len : Nat} {r : Int} {bytes : Bytes}
    (counted : bytes.length = r.toNat) (fits : bytes.length ≤ len) (s : Stream σ) :
    s.Flows (s.recvReceived o len r bytes) := by
  by_cases positive : 0 < r
  · rw [recvReceived_eq o contract positive counted fits]
    exact .done (Engine.sslRead_moves o (s.engine.feed bytes) _ [] s.accepted)
  · rw [recvReceived, if_pos (not_lt.mp positive)]
    exact .done .refl

theorem start_flows (s : Stream σ) (c : Call) : s.Flows (s.start o c) := by
  cases c with
  | handshake type =>
    have same : s.conveyor [] =
        ({ s with engine := s.engine.setState o type } : Stream σ).conveyor [] := rfl
    exact (handshakeLoop_turn o type _).flows.of_eq same
  | send buf flag => exact (s.sendLoop_run o buf flag 0).flows
  | recv len flag => exact (s.recv_start o len flag).flows

theorem accept_ships (s : Stream σ) (offered : Bytes) (r : Int) :
    Moves (s.conveyor offered) ((s.accept offered r).conveyor (offered.drop r.toNat)) :=
  .single (.ship (s.conveyor offered) r.toNat)

end Stream

def Suspended.goesOn : Suspended → Int → Prop
  | .handshakeSend _ _ _, r => 0 ≤ r
  | .sendRaw _ _ _ _ _, r => 0 < r
  | _, _ => True

theorem Suspended.request_loaded {p : Suspended} {offered : Bytes} {flag : Int}
    (request : p.request = .send offered flag) : p.loaded = offered := by
  cases p <;> simp_all [Suspended.request, Suspended.loaded]

namespace Stream

theorem resumeSent_moves (s : Stream σ) {p : Suspended} {offered : Bytes} {flag r : Int}
    (request : p.request = .send offered flag) (goesOn : p.goesOn r) :
    Moves (s.conveyor offered)
      (((s.accept offered r).resumeSent o r p).1.conveyor
        ((s.accept offered r).resumeSent o r p).2.loaded) ∧
      ((s.accept offered r).resumeSent o r p).2.Offers := by
  have shipped := s.accept_ships offered r
  have part {buf : Bytes} {n : Nat} (whole : ¬ n + r.toNat < buf.length) :
      (buf.drop n).drop r.toNat = [] := by
    rw [List.drop_drop]
    exact List.drop_eq_nil_of_le (by omega)
  cases p with
  | handshakeRecv | recvRaw => simp [Suspended.request] at request
  | handshakeSend type buf bytesSent =>
    obtain ⟨rfl, -⟩ : buf.drop bytesSent = offered ∧ _ := by simpa [Suspended.request] using request
    have goesOn : 0 ≤ r := goesOn
    simp only [resumeSent, handshakeSent, if_neg (not_lt.mpr goesOn)]
    split_ifs with more
    · rw [List.drop_drop] at shipped
      exact ⟨shipped, more⟩
    · rw [part more] at shipped
      have flows := (handshakeLoop_turn o type (s.accept (buf.drop bytesSent) r)).flows
      exact ⟨shipped.trans flows.moves, flows.offers⟩
  | sendRaw buf flag bytesConsumed writeBuf bytesSent =>
    obtain ⟨rfl, -⟩ : writeBuf.drop bytesSent = offered ∧ _ := by
      simpa [Suspended.request] using request
    have goesOn : 0 < r := goesOn
    simp only [resumeSent, sendSent, if_neg (not_le.mpr goesOn)]
    split_ifs with more
    · rw [List.drop_drop] at shipped
      exact ⟨shipped, more⟩
    · rw [part more] at shipped
      have flows := (s.accept (writeBuf.drop bytesSent) r).sendDrain_flows o buf flag bytesConsumed
      exact ⟨shipped.trans flows.moves, flows.offers⟩

theorem resumeSent_spills (s : Stream σ) {p : Suspended} {offered : Bytes} {flag r : Int}
    (request : p.request = .send offered flag) (fails : ¬ p.goesOn r) :
    ∃ out, (s.accept offered r).resumeSent o r p = (s.accept offered r, .done out) ∧
      (s.accept offered r).conveyor [] = (s.conveyor offered).spill := by
  have nothing (failed : r ≤ 0) :
      (s.accept offered r).conveyor [] = (s.conveyor offered).spill := by
    have zero : r.toNat = 0 := by omega
    simp [accept, conveyor, Engine.conveyor, Shared.Conveyor.spill, zero]
  cases p with
  | handshakeRecv | recvRaw => simp [Suspended.request] at request
  | handshakeSend type buf bytesSent =>
    have failed : r < 0 := by simpa [Suspended.goesOn] using fails
    refine ⟨.handshake (some (makeSysError (-r))), ?_, nothing (by omega)⟩
    simp only [resumeSent, handshakeSent, if_pos failed]
  | sendRaw buf flag bytesConsumed writeBuf bytesSent =>
    have failed : r ≤ 0 := by simpa [Suspended.goesOn] using fails
    refine ⟨.sent r, ?_, nothing failed⟩
    simp only [resumeSent, sendSent, if_pos failed]

end Stream

end KkProxy.Ssl
