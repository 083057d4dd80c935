import KkProxy.Ssl.EndToEnd
import KkProxy.Ssl.Flags

set_option autoImplicit false

namespace KkProxy.Ssl

open Runs
open Shared (Side Talker Duplex)

variable {ι σ : Type} {o : Lib σ}

/-- `send` answers the length of its buffer, and `recv` what it has placed in its own. -/
def Call.Answers : Call → Outcome → Prop
  | .send buf _, .sent n => n = toInt32 buf.length
  | .recv len _, .received n buf => buf.length = n.toNat ∧ buf.length ≤ len
  | _, _ => True

def Pc.Measured : Pc → Prop
  | .idle => True
  | .returned call out => call.Answers out
  | .suspended _ (.handshakeSend _ buf _) => buf.length ≤ localBuf
  | .suspended _ (.sendRaw buf _ bytesConsumed writeBuf _) =>
    bytesConsumed ≤ buf.length ∧ writeBuf.length ≤ localBuf
  | .suspended _ (.handshakeRecv _) => True
  | .suspended _ (.recvRaw _ _) => True

theorem Engine.read_short (e : Engine σ) : (e.read localBuf).data.length ≤ localBuf := by
  change (bioRead e.writeBio localBuf).data.length ≤ localBuf
  unfold bioRead
  split_ifs
  · exact Nat.zero_le _
  · exact Nat.zero_le _
  · exact (List.length_take_le _ _).trans (by simp)

theorem Pc.Measured.short {call : Call} {p : Suspended} {offered : Bytes} {flag : Int}
    (measured : (Pc.suspended call p).Measured) (request : p.request = .send offered flag) :
    offered.length < 2 ^ 31 := by
  have small : localBuf < 2 ^ 31 := by decide
  cases p with
  | handshakeRecv | recvRaw => simp [Suspended.request] at request
  | handshakeSend type buf bytesSent =>
    obtain ⟨rfl, -⟩ : buf.drop bytesSent = offered ∧ _ := by simpa [Suspended.request] using request
    have short : buf.length ≤ localBuf := measured
    rw [List.length_drop]
    omega
  | sendRaw buf flag n writeBuf bytesSent =>
    obtain ⟨rfl, -⟩ : writeBuf.drop bytesSent = offered ∧ _ := by
      simpa [Suspended.request] using request
    have short : writeBuf.length ≤ localBuf := measured.2
    rw [List.length_drop]
    omega

namespace Stream

theorem LoopTurn.measured {type : HandshakeType} {s : Stream σ} {r : Stream σ × Progress}
    (turn : LoopTurn o type s r) : (r.2.pc (.handshake type)).Measured := by
  cases turn with
  | finished | failed | unread | wantRead => trivial
  | wantWrite read status reads some =>
    subst reads
    exact Engine.read_short _

theorem SendRun.measured {buf : Bytes} {flag : Int} {n : Nat} {s : Stream σ}
    {r : Stream σ × Progress} (run : SendRun o buf flag n s r) (bound : n ≤ buf.length) :
    (r.2.pc (.send buf flag)).Measured := by
  have written (s : Stream σ) (n : Nat)
      (positive : 0 < (s.engine.sslWrite o (buf.drop n) (toInt32 (buf.length - n))).ret) :
      n + (s.engine.sslWrite o (buf.drop n) (toInt32 (buf.length - n))).ret.toNat ≤ buf.length := by
    have asked := o.write_ret s.engine.ssl s.engine.readBio (buf.drop n) (toInt32 (buf.length - n))
    have whole := toInt32_le (buf.length - n)
    simp only [Engine.sslWrite] at positive ⊢
    omega
  induction run with
  | finished n s whole =>
    obtain rfl : n = buf.length := by omega
    exact rfl
  | threw => trivial
  | again n s res r more writes positive drained rest ih =>
    subst writes
    exact ih (written s n positive)
  | chunk n s res more writes positive pending =>
    subst writes
    exact ⟨written s n positive, Engine.read_short _⟩

theorem sslRead_answers (e : Engine σ) (len : Nat) (flag : Int) :
    (Call.recv len flag).Answers
      (.received (e.sslRead o (toInt32 len)).ret (e.sslRead o (toInt32 len)).data) := by
  have counted := e.sslRead_data o (toInt32 len)
  have asked : (e.sslRead o (toInt32 len)).ret ≤ max (toInt32 len) 0 :=
    o.read_ret e.ssl e.readBio (toInt32 len)
  have whole := toInt32_le len
  exact ⟨counted, by omega⟩

theorem RecvStart.measured {len : Nat} {flag : Int} {s : Stream σ} {r : Stream σ × Progress}
    (start : RecvStart o len flag s r) (empty : s.leftover.data = []) :
    (r.2.pc (.recv len flag)).Measured := by
  have unused : s.readLeftover len = ([], s) := if_pos empty
  cases start with
  | leftover some => exact absurd (by rw [unused]) some
  | decrypted read none reads positive =>
    subst reads
    exact sslRead_answers _ len flag
  | starved => trivial

variable (o)

theorem start_measured (s : Stream σ) (c : Call) (empty : s.leftover.data = []) :
    ((s.start o c).2.pc c).Measured := by
  cases c with
  | handshake type => exact (handshakeLoop_turn o type _).measured
  | send buf flag => exact (s.sendLoop_run o buf flag 0).measured (Nat.zero_le _)
  | recv len flag => exact (s.recv_start o len flag).measured empty

theorem resumeSent_measured (s : Stream σ) {r : Int} (accepts : 0 < r) {call : Call}
    {p : Suspended} (suspends : call.Suspends p) (before : (Pc.suspended call p).Measured) :
    ((s.resumeSent o r p).2.pc call).Measured := by
  cases p with
  | handshakeRecv | recvRaw => exact before
  | handshakeSend type buf bytesSent =>
    obtain rfl := Call.suspends_handshakeSend.mp suspends
    simp only [resumeSent, handshakeSent]
    split_ifs
    · trivial
    · exact before
    · exact (handshakeLoop_turn o type s).measured
  | sendRaw buf flag n writeBuf bytesSent =>
    obtain rfl := Call.suspends_sendRaw.mp suspends
    simp only [resumeSent, sendSent, if_neg (not_le.mpr accepts), sendDrain_eq]
    split_ifs
    · exact before
    · exact (s.sendLoop_run o buf flag n).measured before.1
    · exact ⟨before.1, Engine.read_short _⟩

theorem resumeReceived_measured (contract : o.ErrorContract) (s : Stream σ) {call : Call}
    {p : Suspended} {len : Nat} {flag r : Int} {bytes : Bytes} (suspends : call.Suspends p)
    (request : p.request = .recv len flag) (counted : bytes.length = r.toNat)
    (fits : bytes.length ≤ len) : ((s.resumeReceived o r bytes p).2.pc call).Measured := by
  cases p with
  | handshakeSend | sendRaw => simp [Suspended.request] at request
  | handshakeRecv type =>
    obtain rfl := Call.suspends_handshakeRecv.mp suspends
    simp only [resumeReceived, handshakeReceived]
    split_ifs
    · trivial
    · trivial
    · trivial
    · exact (handshakeLoop_turn o type _).measured
  | recvRaw len' flag' =>
    obtain ⟨rfl, rfl⟩ : len' = len ∧ flag' = flag := by simpa [Suspended.request] using request
    obtain rfl := Call.suspends_recvRaw.mp suspends
    simp only [resumeReceived]
    by_cases positive : 0 < r
    · rw [recvReceived_eq o contract positive counted fits]
      change (Call.recv len' flag').Answers (decryptOutcome o _)
      unfold decryptOutcome
      dsimp only
      split_ifs
      · exact sslRead_answers _ len' flag'
      · exact ⟨rfl, Nat.zero_le _⟩
      · exact ⟨rfl, Nat.zero_le _⟩
    · rw [recvReceived, if_pos (not_lt.mp positive)]
      exact ⟨(Int.toNat_of_nonpos (not_lt.mp positive)).symm, Nat.zero_le _⟩

end Stream

def Call.receives : Call → Bool
  | .recv _ _ => true
  | _ => false

def Input.bytes : Input → Bytes
  | .received _ bytes => bytes
  | _ => []

def Input.ships (offered : Bytes) : Input → Bytes
  | .sent r => offered.take r.toNat
  | _ => []

variable [DecidableEq ι]

namespace Machine

def Makes (made : ι → Call → Prop) : ι × Input → Prop
  | (i, .call c) => made i c
  | _ => True

structure Tidy (made : ι → Call → Prop) (m : Machine ι σ) : Prop where
  measured : ∀ i, (m.slots i).Measured
  callers : ∀ i call, (m.slots i).call? = some call → made i call

omit [DecidableEq ι] in
theorem fresh_tidy (made : ι → Call → Prop) (ssl : σ) : (fresh ssl : Machine ι σ).Tidy made :=
  ⟨fun _ => trivial, fun _ _ called => by cases called⟩

theorem settle_tidy {made : ι → Call → Prop} {i : ι} {m : Machine ι σ} {call : Call}
    {r : Stream σ × Progress} (before : m.Tidy made) (measured : (r.2.pc call).Measured)
    (own : made i call) : (m.settle i call r).Tidy made where
  measured j := by
    by_cases same : j = i
    · subst same
      rw [settle_slot]
      exact measured
    · have unchanged : (m.settle i call r).slots j = m.slots j := Function.update_of_ne same ..
      exact unchanged ▸ before.measured j
  callers j c called := by
    by_cases same : j = i
    · subst same
      rw [settle_slot] at called
      have : call = c := by
        cases progress : r.2 <;> simpa [progress, Progress.pc, Pc.call?] using called
      exact this ▸ own
    · have unchanged : (m.settle i call r).slots j = m.slots j := Function.update_of_ne same ..
      exact before.callers j c (unchanged ▸ called)

theorem step_tidy (contract : o.ErrorContract) {made : ι → Call → Prop} {m m' : Machine ι σ}
    {input : ι × Input} (before : m.Tidy made) (proper : m.Proper)
    (empty : m.stream.leftover.data = []) (accepts : input.2.Accepts) (makes : Makes made input)
    (taken : m.step o input = some m') : m'.Tidy made := by
  obtain ⟨i, input⟩ := input
  cases step_effect o taken with
  | call c free => exact settle_tidy before (m.stream.start_measured o c empty) makes
  | sent r call p offered flag waiting request fits =>
    have suspends : call.Suspends p := by simpa [waiting, Pc.Proper] using proper i
    have measured := before.measured i
    rw [waiting] at measured
    exact settle_tidy before
      ((m.stream.accept offered r).resumeSent_measured o accepts suspends measured)
      (before.callers i call (by rw [waiting]; rfl))
  | received r bytes call p len flag waiting request counted fits =>
    have suspends : call.Suspends p := by simpa [waiting, Pc.Proper] using proper i
    exact settle_tidy before ((m.stream.obtain bytes).resumeReceived_measured o contract suspends
      request counted fits) (before.callers i call (by rw [waiting]; rfl))

structure Carries (m : Machine ι σ) (i : ι) (input : Input) (m' : Machine ι σ) : Prop where
  received : m'.stream.received = m.stream.received ++ input.bytes
  accepted : m'.stream.accepted = m.stream.accepted ++ input.ships (m.slots i).loaded

theorem step_carries (contract : o.ErrorContract) {roles : HandshakeType → Prop}
    {m m' : Machine ι σ} {i : ι} {input : Input} (kept : m.Kept roles)
    (allowed : input.Accepts ∧ input.Plays roles) (taken : m.step o (i, input) = some m') :
    m.Carries i input m' := by
  obtain ⟨accepts, plays⟩ := allowed
  cases step_effect o taken with
  | call c free =>
    have own : c.Plays roles := by
      cases c <;> exact plays
    have works := m.stream.start_works o c own kept.leftover
    have refills := m.stream.start_refills o c
    exact ⟨works.received.trans (List.append_nil _).symm,
      refills.accepted.trans (List.append_nil _).symm⟩
  | sent r call p offered flag waiting request fits =>
    have own : call.Plays roles := by simpa [waiting, Pc.Plays] using kept.plays i
    have suspends : call.Suspends p := by simpa [waiting, Pc.Proper] using kept.proper i
    have works := (m.stream.accept offered r).resumeSent_works o r suspends own
    have turn := m.stream.resumeSent_turn o request accepts
    have carried : (m.slots i).loaded = offered := by
      rw [waiting]
      exact Suspended.request_loaded request
    refine ⟨works.received.trans (List.append_nil _).symm, ?_⟩
    rw [carried]
    change ((m.stream.accept offered r).resumeSent o r p).1.accepted =
      (m.stream.accept offered r).accepted
    generalize (m.stream.accept offered r).resumeSent o r p = result at turn ⊢
    cases turn with
    | part => rfl
    | whole _ none refills => exact refills.accepted
  | received r bytes call p len flag waiting request counted fits =>
    have own : call.Plays roles := by simpa [waiting, Pc.Plays] using kept.plays i
    have suspends : call.Suspends p := by simpa [waiting, Pc.Proper] using kept.proper i
    have refills := (m.stream.obtain bytes).resumeReceived_refills o contract request counted fits
    have works : (m.stream.obtain bytes).Works o roles bytes
        ((m.stream.obtain bytes).resumeReceived o r bytes p) := by
      cases p with
      | handshakeSend | sendRaw => simp [Suspended.request] at request
      | handshakeRecv type =>
        obtain rfl := Call.suspends_handshakeRecv.mp suspends
        exact (m.stream.obtain bytes).handshakeReceived_works o own counted
      | recvRaw len' flag' =>
        obtain ⟨rfl, rfl⟩ : len' = len ∧ flag' = flag := by simpa [Suspended.request] using request
        exact (m.stream.obtain bytes).recvReceived_works o contract counted fits
    exact ⟨works.received, refills.accepted.trans (List.append_nil _).symm⟩

end Machine

namespace Lined

-- With a single sender the line holds no one else.
theorem Ordered.offered_eq {q : Lined ι σ} (ordered : q.Ordered) {w : ι}
    (others : ∀ i, i ≠ w → (q.1.slots i).loaded = []) :
    q.offered = q.1.stream.accepted ++ (q.1.slots w).loaded ∧
      ((q.1.slots w).loaded ≠ [] → q.2.head? = some w) := by
  have members : ∀ i ∈ q.2, i = w := by
    intro i member
    by_contra other
    exact (ordered.inLine.carrying i).mp member (others i other)
  have carrying : w ∈ q.2 ↔ (q.1.slots w).loaded ≠ [] := ordered.inLine.carrying w
  have nodup : q.2.Nodup := ordered.inLine.nodup
  unfold offered
  cases line : q.2 with
  | nil =>
    have unloaded : (q.1.slots w).loaded = [] := by
      by_contra some
      simp [line] at carrying
      exact some carrying
    simp [unloaded]
  | cons first rest =>
    rw [line] at members nodup
    obtain rfl : first = w := members first (by simp)
    have alone : rest = [] := by
      refine List.eq_nil_iff_forall_not_mem.mpr fun i member => ?_
      obtain rfl := members i (by simp [member])
      exact (List.nodup_cons.mp nodup).1 member
    simp [alone]

end Lined

/-- What is known of two connected streams; at each end only the slot `w side` holds output. -/
structure Setting (ι σ : Type) where
  roles : Side → HandshakeType → Prop
  -- At each level of a tower.
  ssl : Nat → Side → σ
  w : Side → ι
  made : Side → ι → Call → Prop
  sender : ∀ side i c, made side i c → c.receives = false → i = w side
  passed : ∀ side i c p, c.Suspends p → made side i c → made side i p.request.call

namespace Link

structure Reached (o : Lib σ) (e : Setting ι σ) (level : Nat) (inputs : List (Side × ι × Input))
    (d : Link ι σ) : Prop where
  reached : run (step o) (fresh (e.ssl level)) inputs = some d
  allowed : Always (step o) (Allows e.roles) (fresh (e.ssl level)) inputs
  sole : Always (step o) (Sole e.w) (fresh (e.ssl level)) inputs
  makes : ∀ input ∈ inputs, Machine.Makes (e.made input.1) input.2

variable {e : Setting ι σ} {level : Nat} {inputs : List (Side × ι × Input)} {d : Link ι σ}

theorem Reached.start : Reached o e level [] (fresh (e.ssl level)) :=
  ⟨rfl, trivial, trivial, fun _ member => by cases member⟩

theorem Reached.snoc {d' : Link ι σ} {input : Side × ι × Input} (before : Reached o e level inputs d)
    (allowed : d.Allows e.roles input) (sole : d.Sole e.w input)
    (makes : Machine.Makes (e.made input.1) input.2) (taken : d.step o input = some d') :
    Reached o e level (inputs ++ [input]) d' where
  reached := run_snoc before.reached taken
  allowed := always_append.mpr ⟨before.allowed, fun t reached => by
    obtain rfl : d = t := Option.some.inj (before.reached.symm.trans reached)
    exact ⟨allowed, fun _ _ => trivial⟩⟩
  sole := always_append.mpr ⟨before.sole, fun t reached => by
    obtain rfl : d = t := Option.some.inj (before.reached.symm.trans reached)
    exact ⟨sole, fun _ _ => trivial⟩⟩
  makes i member := by
    obtain member | member := List.mem_append.mp member
    · exact before.makes i member
    · obtain rfl := List.mem_singleton.mp member
      exact makes

variable (contract : o.ErrorContract) (before : Reached o e level inputs d)

include contract before

theorem Reached.sound : d.Sound (o := o) e.roles :=
  reached_sound contract before.reached before.allowed

theorem Reached.tidy (side : Side) : (d.ends side).1.Tidy (e.made side) := by
  have preserved (d : Link ι σ) (input : Side × ι × Input) (d' : Link ι σ)
      (inv : d.Sound (o := o) e.roles ∧ ∀ side, (d.ends side).1.Tidy (e.made side))
      (ok : d.Allows e.roles input ∧ Machine.Makes (e.made input.1) input.2)
      (taken : d.step o input = some d') :
      d'.Sound (o := o) e.roles ∧ ∀ side, (d'.ends side).1.Tidy (e.made side) := by
    obtain ⟨sound, tidy⟩ := inv
    have stepped (side : Side) (q : Lined ι σ) (input : ι × Input) (q' : Lined ι σ)
        (inv : q.Sound (e.roles side) ∧ q.1.Tidy (e.made side))
        (ok : q.Allows (e.roles side) input ∧ Machine.Makes (e.made side) input)
        (taken : (Lined.talker o).step q input = some q') :
        q'.Sound (e.roles side) ∧ q'.1.Tidy (e.made side) := by
      have taken : q.step o input = some q' := taken
      have after := (Lined.step_sound contract inv.1 ok.1 taken).1
      obtain ⟨m, moved, rfl⟩ := watching_some taken
      exact ⟨after, Machine.step_tidy contract inv.2 inv.1.kept.proper inv.1.kept.leftover
        ok.1.1.1 ok.2 moved⟩
    exact ⟨step_sound contract e.roles d input d' sound ok.1 taken, fun side =>
      (Duplex.step_ends stepped (fun side => ⟨sound.ends side, tidy side⟩) ok taken side).2⟩
  have start : (fresh (e.ssl level) : Link ι σ).Sound (o := o) e.roles ∧
      ∀ side, ((fresh (e.ssl level) : Link ι σ).ends side).1.Tidy (e.made side) :=
    ⟨Reached.sound contract Reached.start, fun side => Machine.fresh_tidy _ (e.ssl level side)⟩
  exact (run_invariant preserved before.reached
    (before.allowed.and (always_of_forall before.makes _)) start).2 side

theorem Reached.unloaded {side : Side} {i : ι} (other : i ≠ e.w side) :
    ((d.ends side).1.slots i).loaded = [] := by
  have proper := (before.sound contract).ends side |>.kept.proper i
  cases slot : (d.ends side).1.slots i with
  | idle | returned => rfl
  | suspended call p =>
    rw [slot] at proper
    have makes := (before.tidy contract side).callers i call (by rw [slot]; rfl)
    cases call with
    | handshake | send => exact absurd (e.sender side i _ makes rfl) other
    | recv => cases p <;> first | rfl | exact absurd proper id

theorem Reached.offered_eq (side : Side) :
    (d.ends side).offered = (d.ends side).1.stream.accepted ++
        ((d.ends side).1.slots (e.w side)).loaded ∧
      (((d.ends side).1.slots (e.w side)).loaded ≠ [] →
        (d.ends side).2.head? = some (e.w side)) :=
  ((before.sound contract).ends side).ordered.offered_eq fun _ => before.unloaded contract

-- A step of one end that gets nothing but what the other has offered is a step of both.
theorem Reached.step {side : Side} {i : ι} {input : Input} {m : Machine ι σ}
    (moved : (d.ends side).1.step o (i, input) = some m)
    (allowed : d.Allows e.roles (side, i, input)) (sole : d.Sole e.w (side, i, input))
    (makes : Machine.Makes (e.made side) (i, input))
    (next : m.stream.received <+: (d.ends side.other).offered) :
    ∃ d', Reached o e level (inputs ++ [(side, i, input)]) d' ∧ (d'.ends side).1 = m ∧
      d'.ends side.other = d.ends side.other := by
  have sound := before.sound contract
  obtain ⟨q, taken, rfl⟩ : ∃ q, (d.ends side).step o (i, input) = some q ∧ q.1 = m :=
    ⟨(m, requeue (d.ends side).2 i (m.slots i)),
      by simp only [Lined.step, watching, moved, Option.map_some], rfl⟩
  have grown := (Lined.step_sound contract (sound.ends side) allowed taken).2.1
  have gets : q.1.stream.received = (d.ends side).1.stream.received ++
      Duplex.arrived (Lined.talker o) (d.ends side) q := Duplex.Talker.Extends.got_eq grown
  have conserved : (d.ends side.other.other).1.stream.received ++ d.wire side.other =
      (d.ends side.other).offered := sound.conserved side.other
  rw [Side.other_other] at conserved
  rw [gets, ← conserved] at next
  have arrives := (List.prefix_append_right_inj _).mp next
  have moves : d.step o (side, i, input) = some (d.advance (Lined.talker o) side q) := by
    have taken : (Lined.talker o).step (d.ends side) (i, input) = some q := taken
    simp only [Link.step, Duplex.step, taken, Option.bind_some, if_pos arrives]
  exact ⟨_, before.snoc allowed sole makes moves, by rw [Duplex.advance_end],
    Duplex.advance_other⟩

end Link

end KkProxy.Ssl
