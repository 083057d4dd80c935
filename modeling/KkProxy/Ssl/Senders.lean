import KkProxy.Shared.Relay
import KkProxy.Ssl.Complete

set_option autoImplicit false

namespace KkProxy.Ssl

open Runs
open Shared (Relay)

variable {ι σ : Type} {o : Lib σ}

def Suspended.bytesSent? : Suspended → Option Nat
  | .handshakeSend _ _ bytesSent => some bytesSent
  | .sendRaw _ _ _ _ bytesSent => some bytesSent
  | _ => none

theorem Suspended.offers_of_loaded (p : Suspended) (some : p.loaded ≠ []) : p.Offers := by
  cases p with
  | handshakeRecv | recvRaw => trivial
  | handshakeSend | sendRaw => simpa [Suspended.loaded, Suspended.Offers] using some

-- A chunk in the local buffer has just been taken from the write BIO.
def Progress.Untouched : Progress → Prop
  | .suspended p => p.bytesSent? = none ∨ p.bytesSent? = some 0
  | .done _ => True

namespace Stream

/--
A coroutine entered with an empty local buffer moves the conveyor without the raw stream and ends
with an empty local buffer or with a new chunk in it.
-/
structure Refills (s : Stream σ) (r : Stream σ × Progress) : Prop where
  flows : s.Flows r
  accepted : r.1.accepted = s.accepted
  untouched : r.2.Untouched

theorem Refills.done {s t : Stream σ} {out : Outcome} (flows : s.Flows (t, .done out))
    (accepted : t.accepted = s.accepted) : s.Refills (t, .done out) := ⟨flows, accepted, trivial⟩

theorem LoopTurn.refills {type : HandshakeType} {s : Stream σ} {r : Stream σ × Progress}
    (turn : LoopTurn o type s r) : s.Refills r := by
  refine ⟨turn.flows, ?_, ?_⟩
  · cases turn <;> rfl
  · cases turn with
    | finished | failed | unread => trivial
    | wantRead => exact .inl rfl
    | wantWrite => exact .inr rfl

theorem SendRun.refills {buf : Bytes} {flag : Int} {n : Nat} {s : Stream σ}
    {r : Stream σ × Progress} (run : SendRun o buf flag n s r) : s.Refills r := by
  refine ⟨run.flows, ?_, ?_⟩
  · induction run with
    | finished | threw | chunk => rfl
    | again n s res r more writes written drained rest ih => exact ih
  · induction run with
    | finished | threw => trivial
    | again n s res r more writes written drained rest ih => exact ih
    | chunk => exact .inr rfl

theorem RecvStart.refills {len : Nat} {flag : Int} {s : Stream σ} {r : Stream σ × Progress}
    (start : RecvStart o len flag s r) : s.Refills r := by
  have accepted : (s.readLeftover len).2.accepted = s.accepted := by
    unfold readLeftover
    split <;> rfl
  refine ⟨start.flows, ?_, ?_⟩
  · cases start <;> exact accepted
  · cases start with
    | leftover | decrypted => trivial
    | starved => exact .inl rfl

variable (o)

theorem start_refills (s : Stream σ) (c : Call) : s.Refills (s.start o c) := by
  cases c with
  | handshake type =>
    have turn := handshakeLoop_turn o type { s with engine := s.engine.setState o type }
    exact ⟨s.start_flows o (.handshake type), turn.refills.accepted, turn.refills.untouched⟩
  | send buf flag => exact (s.sendLoop_run o buf flag 0).refills
  | recv len flag => exact (s.recv_start o len flag).refills

theorem sendDrain_refills (buf : Bytes) (flag : Int) (n : Nat) (s : Stream σ) :
    s.Refills (s.sendDrain o buf flag n) := by
  refine ⟨s.sendDrain_flows o buf flag n, ?_, ?_⟩
  all_goals
    rw [sendDrain_eq]
    split_ifs
  · exact (s.sendLoop_run o buf flag n).refills.accepted
  · rfl
  · exact (s.sendLoop_run o buf flag n).refills.untouched
  · exact .inr rfl

theorem resumeReceived_refills (contract : o.ErrorContract) (s : Stream σ) {p : Suspended}
    {len : Nat} {flag r : Int} {bytes : Bytes} (request : p.request = .recv len flag)
    (counted : bytes.length = r.toNat) (fits : bytes.length ≤ len) :
    s.Refills (s.resumeReceived o r bytes p) := by
  cases p with
  | handshakeSend | sendRaw => simp [Suspended.request] at request
  | handshakeRecv type =>
    refine ⟨s.handshakeReceived_flows o type r bytes, ?_, ?_⟩
    all_goals
      simp only [resumeReceived, handshakeReceived]
      split_ifs
    any_goals first | rfl | trivial
    · exact (handshakeLoop_turn o type _).refills.accepted
    · exact (handshakeLoop_turn o type _).refills.untouched
  | recvRaw len' flag' =>
    obtain ⟨rfl, rfl⟩ : len' = len ∧ flag' = flag := by simpa [Suspended.request] using request
    have flows := s.recvReceived_flows o contract counted fits
    simp only [resumeReceived] at flows ⊢
    by_cases positive : 0 < r
    · rw [recvReceived_eq o contract positive counted fits] at flows ⊢
      exact .done flows rfl
    · rw [recvReceived, if_pos (not_lt.mp positive)] at flows ⊢
      exact .done flows rfl

inductive SentTurn (s : Stream σ) (offered : Bytes) (r : Int) : Stream σ × Progress → Prop where
  | part (p : Suspended) (n : Nat) (left : p.loaded = offered.drop r.toNat)
    (some : p.loaded ≠ []) (sent : p.bytesSent? = .some n) (positive : 0 < n) :
    SentTurn s offered r (s.accept offered r, .suspended p)
  | whole (result : Stream σ × Progress) (none : offered.drop r.toNat = [])
    (refills : (s.accept offered r).Refills result) : SentTurn s offered r result

theorem resumeSent_turn (s : Stream σ) {p : Suspended} {offered : Bytes} {flag r : Int}
    (request : p.request = .send offered flag) (accepts : 0 < r) :
    SentTurn s offered r ((s.accept offered r).resumeSent o r p) := by
  cases p with
  | handshakeRecv | recvRaw => simp [Suspended.request] at request
  | handshakeSend type buf bytesSent =>
    obtain ⟨rfl, -⟩ : buf.drop bytesSent = offered ∧ _ := by simpa [Suspended.request] using request
    simp only [resumeSent, handshakeSent, if_neg (show ¬ r < 0 by omega)]
    split_ifs with more
    · refine .part _ (bytesSent + r.toNat) (List.drop_drop ..).symm ?_ rfl (by omega)
      simpa [Suspended.loaded] using more
    · refine .whole _ ?_ (handshakeLoop_turn o type _).refills
      rw [List.drop_drop]
      exact List.drop_eq_nil_of_le (by omega)
  | sendRaw buf flag bytesConsumed writeBuf bytesSent =>
    obtain ⟨rfl, -⟩ : writeBuf.drop bytesSent = offered ∧ _ := by
      simpa [Suspended.request] using request
    simp only [resumeSent, sendSent, if_neg (not_le.mpr accepts)]
    split_ifs with more
    · refine .part _ (bytesSent + r.toNat) (List.drop_drop ..).symm ?_ rfl (by omega)
      simpa [Suspended.loaded] using more
    · refine .whole _ ?_ (sendDrain_refills o buf flag bytesConsumed _)
      rw [List.drop_drop]
      exact List.drop_eq_nil_of_le (by omega)

variable [DecidableEq ι]

def relay (s : Stream σ) (carried : ι → Bytes) (line : List ι) : Relay ι UInt8 :=
  { made := s.engine.output, queued := s.engine.writeBio, carried, line, shipped := s.accepted }

variable {o}

theorem Refills.relay_inLine {s : Stream σ} {r : Stream σ × Progress} (refills : s.Refills r)
    {carried : ι → Bytes} {line : List ι} (inLine : (s.relay carried line).InLine) {i : ι}
    (idle : carried i = []) :
    (r.1.relay (Function.update carried i r.2.loaded)
      (if r.2.loaded = [] then line else line ++ [i])).InLine := by
  obtain ⟨items, made, kept⟩ := refills.flows.moves.net
  have made : r.1.engine.output = s.engine.output ++ items := made
  have kept : r.1.accepted ++ r.2.loaded ++ r.1.engine.writeBio =
      s.accepted ++ [] ++ s.engine.writeBio ++ items := kept
  have split : r.2.loaded ++ r.1.engine.writeBio = s.engine.writeBio ++ items := by
    simpa [refills.accepted, List.append_assoc] using kept
  have refilled := Shared.Relay.refill_inLine inLine idle split
  have same : r.1.relay (Function.update carried i r.2.loaded)
      (if r.2.loaded = [] then line else line ++ [i]) =
      (s.relay carried line).refill i items r.2.loaded r.1.engine.writeBio := by
    simp only [relay, Shared.Relay.refill, made, refills.accepted]
  exact same ▸ refilled

theorem accept_inLine {s : Stream σ} {carried : ι → Bytes} {line : List ι}
    (inLine : (s.relay carried line).InLine) {i : ι} (first : line.head? = some i) (r : Int) :
    ((s.accept (carried i) r).relay (Function.update carried i ((carried i).drop r.toNat))
      (if (carried i).drop r.toNat = [] then line.erase i else line)).InLine :=
  Shared.Relay.ship_inLine inLine first r.toNat

end Stream

/-- A machine and the slots that hold unsent output, in the order in which they took it. -/
abbrev Lined (ι σ : Type) := Machine ι σ × List ι

section Line

variable [DecidableEq ι]

-- Slot `i` has run up to `pc`; a chunk of which nothing has been sent was just taken.
def requeue (line : List ι) (i : ι) : Pc → List ι
  | .suspended _ p =>
    match p.bytesSent? with
    | some 0 => line.erase i ++ [i]
    | some _ => line
    | none => line.erase i
  | _ => line.erase i

theorem requeue_untouched (line : List ι) (i : ι) (call : Call) {progress : Progress}
    (untouched : progress.Untouched) (offers : progress.Offers) :
    requeue line i (progress.pc call) =
      if progress.loaded = [] then line.erase i else line.erase i ++ [i] := by
  cases progress with
  | done out => rfl
  | suspended p =>
    have untouched : p.bytesSent? = none ∨ p.bytesSent? = some 0 := untouched
    have offers : p.Offers := offers
    cases p with
    | handshakeRecv | recvRaw => rfl
    | handshakeSend type buf bytesSent | sendRaw buf' flag' n buf bytesSent =>
      obtain rfl : bytesSent = 0 := by simpa [Suspended.bytesSent?] using untouched
      have some : buf ≠ [] := List.length_pos_iff.mp offers
      exact (if_neg some).symm

end Line

namespace Lined

variable [DecidableEq ι]

def fresh (ssl : σ) : Lined ι σ := (.fresh ssl, [])

def step (o : Lib σ) : Lined ι σ → ι × Input → Option (Lined ι σ) :=
  watching (Machine.step o) fun _ input m line => requeue line input.1 (m.slots input.1)

-- The raw stream accepts bytes of the send that took its chunk first.
def FirstTaken (q : Lined ι σ) : ι × Input → Prop
  | (i, .sent _) => q.2.head? = some i
  | _ => True

instance (q : Lined ι σ) : ∀ input, Decidable (q.FirstTaken input)
  | (i, .sent _) => inferInstanceAs (Decidable (q.2.head? = some i))
  | (_, .call _) => .isTrue trivial
  | (_, .received _ _) => .isTrue trivial

structure Ordered (q : Lined ι σ) : Prop where
  inLine : (q.1.stream.relay (fun i => (q.1.slots i).loaded) q.2).InLine
  offers : ∀ i, (q.1.slots i).Offers

omit [DecidableEq ι] in
theorem fresh_ordered (ssl : σ) : (fresh ssl : Lined ι σ).Ordered where
  inLine := ⟨rfl, .nil, fun i => by simp [fresh, Machine.fresh, Stream.relay, Pc.loaded]⟩
  offers _ := trivial

theorem settle_ordered {q : Lined ι σ} (before : q.Ordered) {i : ι} (c : Call)
    {r : Stream σ × Progress} {line : List ι} (offers : r.2.Offers)
    (inLine : (r.1.relay (Function.update (fun j => (q.1.slots j).loaded) i r.2.loaded)
      line).InLine) :
    Ordered (q.1.settle i c r, line) where
  inLine := by
    have loaded : (fun j => ((q.1.settle i c r).slots j).loaded) =
        Function.update (fun j => (q.1.slots j).loaded) i r.2.loaded := by
      funext j
      by_cases own : j = i
      · subst own
        rw [Function.update_self, Machine.settle_slot]
        cases r.2 <;> rfl
      · simp [Machine.settle, own]
    exact loaded ▸ inLine
  offers j := by
    by_cases own : j = i
    · subst own
      rw [Machine.settle_slot]
      obtain ⟨s, p⟩ := r
      cases p <;> exact offers
    · simpa [Machine.settle, own] using before.offers j

theorem refill_ordered {q : Lined ι σ} (before : q.Ordered) {i : ι} (c : Call) {s : Stream σ}
    {r : Stream σ × Progress} (refills : s.Refills r)
    (inLine : (s.relay (Function.update (fun j => (q.1.slots j).loaded) i [])
      (q.2.erase i)).InLine) :
    Ordered (q.1.settle i c r, requeue q.2 i (r.2.pc c)) := by
  have refilled := refills.relay_inLine inLine (Function.update_self ..)
  rw [Function.update_idem] at refilled
  rw [requeue_untouched q.2 i c refills.untouched refills.flows.offers]
  exact settle_ordered before c refills.flows.offers refilled

theorem idle_inLine {q : Lined ι σ} (before : q.Ordered) {i : ι}
    (idle : (q.1.slots i).loaded = []) :
    (q.1.stream.relay (Function.update (fun j => (q.1.slots j).loaded) i [])
      (q.2.erase i)).InLine := by
  have absent : i ∉ q.2 := fun member => (before.inLine.carrying i).mp member idle
  have same : Function.update (fun j => (q.1.slots j).loaded) i [] =
      fun j => (q.1.slots j).loaded := by
    rw [← idle]
    exact Function.update_eq_self i _
  rw [same, List.erase_of_not_mem absent]
  exact before.inLine

theorem step_ordered (contract : o.ErrorContract) {q q' : Lined ι σ} {input : ι × Input}
    (before : q.Ordered) (allowed : input.2.Accepts ∧ q.FirstTaken input)
    (taken : q.step o input = some q') : q'.Ordered := by
  obtain ⟨accepts, first⟩ := allowed
  obtain ⟨i, input⟩ := input
  obtain ⟨m, moved, rfl⟩ := watching_some taken
  cases Machine.step_effect o moved with
  | call c free =>
    have idle : (q.1.slots i).loaded = [] := by
      cases slot : q.1.slots i <;> simp_all [Pc.free, Pc.loaded]
    rw [Machine.settle_slot]
    exact refill_ordered before c (q.1.stream.start_refills o c) (idle_inLine before idle)
  | received r bytes call p len flag waiting request counted fits =>
    have idle : (q.1.slots i).loaded = [] := by
      rw [waiting]
      cases p <;> simp_all [Suspended.request, Pc.loaded, Suspended.loaded]
    have refills :=
      (q.1.stream.obtain bytes).resumeReceived_refills o contract request counted fits
    rw [Machine.settle_slot]
    exact refill_ordered before call refills (idle_inLine before idle)
  | sent r call p offered flag waiting request fits =>
    have carried : (q.1.slots i).loaded = offered := by
      rw [waiting]
      exact Suspended.request_loaded request
    have shipped := Stream.accept_inLine before.inLine first r
    rw [carried] at shipped
    have turn := q.1.stream.resumeSent_turn o request accepts
    rw [Machine.settle_slot]
    generalize (q.1.stream.accept offered r).resumeSent o r p = result at turn ⊢
    cases turn with
    | part p' n left some sent positive =>
      have line : requeue q.2 i ((Progress.suspended p').pc call) = q.2 := by
        simp only [Progress.pc, requeue, sent]
        split <;> simp_all
      rw [← left, if_neg some] at shipped
      rw [line]
      exact settle_ordered before call (p'.offers_of_loaded some) shipped
    | whole _ none refills =>
      rw [none, if_pos rfl] at shipped
      exact refill_ordered before call refills shipped

end Lined

/--
For any number of coroutines on one stream, as long as each raw send that accepts bytes is that of
the sender which, of all that hold unsent output, took its bytes from the write BIO first, the raw
stream has at every moment accepted a prefix of the engine's output.
-/
theorem senders_keep_order [DecidableEq ι] (contract : o.ErrorContract) (ssl : σ)
    (inputs : List (ι × Input)) (accepts : ∀ input ∈ inputs, input.2.Accepts)
    (first : Always (Lined.step o) Lined.FirstTaken (Lined.fresh ssl : Lined ι σ) inputs)
    (m : Machine ι σ) (visited : Visits (Machine.step o) (Machine.fresh ssl) inputs m) :
    m.stream.accepted <+: m.stream.engine.output := by
  obtain ⟨line, lined⟩ := visits_watching (Lined.fresh ssl) visited
  have ordered : Lined.Ordered (m, line) :=
    visits_invariant (fun _ _ _ => Lined.step_ordered contract) lined
      ((always_of_forall accepts _).and first) (Lined.fresh_ordered ssl)
  exact ordered.inLine.shipped_prefix

-- The second send starts while the first has half a record left, and waits for its turn.
def takeTurns : List (Bool × Input) :=
  [(true, .call (.send [7] 0)), (true, .sent 1), (false, .call (.send [8] 0)),
    (true, .sent 1), (false, .sent 2)]

theorem senders_keep_order_turns :
    ∃ m : Machine Bool RecordState, m.stream.accepted = [0, 7, 0, 8] ∧
      m.stream.accepted <+: m.stream.engine.output := by
  have ended : (run (Machine.step Lib.records) (Machine.fresh .established : Machine Bool RecordState)
      takeTurns).map (fun m => m.stream.accepted) = some [0, 7, 0, 8] := by decide +kernel
  obtain ⟨m, reached, accepted⟩ := Option.map_eq_some_iff.mp ended
  exact ⟨m, accepted, senders_keep_order Lib.records_contract .established takeTurns
    (by simp [takeTurns, Input.Accepts]) (by decide +kernel) m (visits_end reached)⟩

def overtake : List (Bool × Input) :=
  [(true, .call (.send [7] 0)), (true, .sent 1), (false, .call (.send [8] 0)), (false, .sent 2)]

theorem senders_overtake :
    ¬ ∀ inputs : List (Bool × Input), (∀ input ∈ inputs, input.2.Accepts) →
      ∀ m : Machine Bool RecordState,
        Visits (Machine.step Lib.records) (Machine.fresh .established) inputs m →
          m.stream.accepted <+: m.stream.engine.output := by
  intro claim
  have ended : (run (Machine.step Lib.records) (Machine.fresh .established : Machine Bool RecordState)
      overtake).map (fun m => (m.stream.accepted, m.stream.engine.output)) =
        some ([0, 0, 8], [0, 7, 0, 8]) := by decide +kernel
  obtain ⟨m, reached, view⟩ := Option.map_eq_some_iff.mp ended
  obtain ⟨accepted, output⟩ := Prod.mk.injEq .. ▸ view
  have ordered := claim overtake (by simp [overtake, Input.Accepts]) m (visits_end reached)
  rw [accepted, output] at ordered
  exact absurd ordered (by decide)

end KkProxy.Ssl
