import KkProxy.Ssl.EndToEnd

set_option autoImplicit false

namespace KkProxy.Ssl

open Runs
open Shared (Side Talker Duplex)

variable {ι σ : Type} {o : Lib σ}

-- Since an `SSL_read` that had nothing to hand out, the peer has only written.
inductive Peer.Starved (o : Lib σ) : Peer σ → Prop where
  | read (p : Peer σ) (num : Int) (room : 0 < num)
    (nothing : (o.read p.ssl p.readBio num).ret ≤ 0) : Starved o (p.call o (.read num))
  | write (p : Peer σ) (buf : Bytes) (num : Int) (starved : Starved o p) :
    Starved o (p.call o (.write buf num))

namespace Stream

theorem SendRun.starved {buf : Bytes} {flag : Int} {n : Nat} {s : Stream σ}
    {r : Stream σ × Progress} (run : SendRun o buf flag n s r)
    (starved : s.engine.peer.Starved o) : r.1.engine.peer.Starved o := by
  have written (s : Stream σ) (n : Nat) (starved : s.engine.peer.Starved o) :
      (s.engine.sslWrite o (buf.drop n) (toInt32 (buf.length - n))).engine.peer.Starved o :=
    .write s.engine.peer (buf.drop n) (toInt32 (buf.length - n)) starved
  induction run with
  | finished n s whole => exact starved
  | threw n s res more writes failed =>
    subst writes
    exact written s n starved
  | again n s res r more writes positive drained rest ih =>
    subst writes
    exact ih (written s n starved)
  | chunk n s res more writes positive pending =>
    subst writes
    exact written s n starved

theorem sendSent_starved (s : Stream σ) (buf : Bytes) (flag : Int) (n : Nat) (writeBuf : Bytes)
    (bytesSent : Nat) (r : Int) (starved : s.engine.peer.Starved o) :
    (s.sendSent o buf flag n writeBuf bytesSent r).1.engine.peer.Starved o := by
  rw [sendSent, sendDrain_eq]
  split_ifs
  · exact starved
  · exact starved
  · exact (s.sendLoop_run o buf flag n).starved starved
  · exact starved

end Stream

def Pc.Hungry (o : Lib σ) (p : Peer σ) : Pc → Prop
  | .suspended _ (.recvRaw len _) => 0 < toInt32 len → p.Starved o
  | _ => True

namespace Stream

variable (o)

theorem sated {c : Call} {progress : Progress} (allowed : c.Allows progress)
    (ends : (∃ out, progress = .done out) ∨ ∀ len flag, c ≠ .recv len flag) (p : Peer σ) :
    (progress.pc c).Hungry o p := by
  obtain ⟨out, rfl⟩ | other := ends
  · trivial
  · cases progress with
    | done out => trivial
    | suspended q =>
      cases q with
      | recvRaw len flag => exact absurd (Call.suspends_recvRaw.mp allowed) (other len flag)
      | handshakeRecv | handshakeSend | sendRaw => trivial

theorem start_hungry (s : Stream σ) (c : Call) :
    ((s.start o c).2.pc c).Hungry o (s.start o c).1.engine.peer := by
  have allowed := s.start_allowed o c
  cases c with
  | handshake | send => exact sated o allowed (.inr (by simp)) _
  | recv len flag =>
    have start : RecvStart o len flag s (s.start o (.recv len flag)) := s.recv_start o len flag
    generalize s.start o (.recv len flag) = r at start ⊢
    cases start with
    | leftover | decrypted => trivial
    | starved read none reads failed =>
      subst reads
      exact fun room => .read s.engine.peer (toInt32 len) room failed

theorem resumeReceived_done (s : Stream σ) (r : Int) (bytes : Bytes) (len : Nat) (flag : Int) :
    ∃ out, (s.resumeReceived o r bytes (.recvRaw len flag)).2 = .done out := by
  simp only [resumeReceived, recvReceived]
  split_ifs <;> exact ⟨_, rfl⟩

end Stream

variable [DecidableEq ι]

namespace Machine

def Reads (r : ι) : ι × Input → Prop
  | (i, .call c) => c.sends = false → i = r
  | _ => True

instance (r : ι) : DecidablePred (Reads r)
  | (i, .call c) => inferInstanceAs (Decidable (c.sends = false → i = r))
  | (_, .sent _) => .isTrue trivial
  | (_, .received _ _) => .isTrue trivial

structure Reading (o : Lib σ) (r : ι) (m : Machine ι σ) : Prop where
  proper : m.Proper
  others : ∀ i call, i ≠ r → (m.slots i).call? = some call → call.sends = true
  hungry : (m.slots r).Hungry o m.stream.engine.peer

omit [DecidableEq ι] in
theorem fresh_reading (r : ι) (ssl : σ) : (fresh ssl : Machine ι σ).Reading o r where
  proper := fresh_proper ssl
  others _ _ _ called := by cases called
  hungry := trivial

variable {r i : ι} {m : Machine ι σ} {call : Call} {result : Stream σ × Progress}

theorem settle_reading (before : m.Reading o r) (proper : (m.settle i call result).Proper)
    (own : i ≠ r → call.sends = true)
    (hungry : i = r → (result.2.pc call).Hungry o result.1.engine.peer)
    (starved : i ≠ r → m.stream.engine.peer.Starved o → result.1.engine.peer.Starved o) :
    (m.settle i call result).Reading o r where
  proper := proper
  others j c other called := by
    by_cases same : j = i
    · subst same
      rw [settle_slot] at called
      have : call = c := by
        cases progress : result.2 <;> simpa [progress, Progress.pc, Pc.call?] using called
      exact this ▸ own other
    · have unchanged : (m.settle i call result).slots j = m.slots j :=
        Function.update_of_ne same ..
      exact before.others j c other (unchanged ▸ called)
  hungry := by
    by_cases same : i = r
    · subst same
      rw [settle_slot]
      exact hungry rfl
    · have unchanged : (m.settle i call result).slots r = m.slots r :=
        Function.update_of_ne (Ne.symm same) ..
      have waiting := before.hungry
      rw [unchanged]
      cases slot : m.slots r with
      | idle | returned => trivial
      | suspended c p =>
        rw [slot] at waiting
        cases p with
        | recvRaw len flag => exact fun room => starved same (waiting room)
        | handshakeRecv | handshakeSend | sendRaw => trivial

theorem step_reading {m' : Machine ι σ} {input : ι × Input} (before : m.Reading o r)
    (reads : Reads r input) (taken : m.step o input = some m') : m'.Reading o r := by
  have proper := step_proper before.proper taken
  obtain ⟨i, input⟩ := input
  cases step_effect o taken with
  | call c free =>
    have own (other : i ≠ r) : c.sends = true := by
      by_contra silent
      exact other (reads (by simpa using silent))
    refine settle_reading before proper own (fun _ => m.stream.start_hungry o c) ?_
    intro other starved
    cases c with
    | handshake | recv => cases own other
    | send buf flag => exact (m.stream.sendLoop_run o buf flag 0).starved starved
  | sent n call p offered flag waiting request fits =>
    have suspends : call.Suspends p := by simpa [waiting, Pc.Proper] using before.proper i
    have own (other : i ≠ r) : call.sends = true :=
      before.others i call other (by rw [waiting]; rfl)
    have allowed := (m.stream.accept offered n).resumeSent_allowed o n suspends
    have sends : ∀ len flag, call ≠ .recv len flag := by
      rintro len flag rfl
      cases p <;> simp_all [Call.Suspends, Suspended.request]
    refine settle_reading before proper own (fun _ => Stream.sated o allowed (.inr sends) _) ?_
    intro other starved
    cases p with
    | handshakeRecv | recvRaw => simp [Suspended.request] at request
    | handshakeSend type =>
      obtain rfl := Call.suspends_handshakeSend.mp suspends
      cases own other
    | sendRaw buf flag' k writeBuf bytesSent =>
      exact (m.stream.accept offered n).sendSent_starved buf flag' k writeBuf bytesSent n starved
  | received n bytes call p len flag waiting request counted fits =>
    have suspends : call.Suspends p := by simpa [waiting, Pc.Proper] using before.proper i
    have own : i = r := by
      by_contra other
      have sends := before.others i call other (by rw [waiting]; rfl)
      cases call with
      | handshake | recv => cases sends
      | send => cases p <;> simp_all [Call.Suspends, Suspended.request]
    have allowed := (m.stream.obtain bytes).resumeReceived_allowed o n bytes suspends
    refine settle_reading before proper (fun other => absurd own other) (fun _ => ?_)
      fun other => absurd own other
    cases p with
    | handshakeSend | sendRaw => simp [Suspended.request] at request
    | handshakeRecv type =>
      obtain rfl := Call.suspends_handshakeRecv.mp suspends
      exact Stream.sated o allowed (.inr (by simp)) _
    | recvRaw len' flag' =>
      have ends := (m.stream.obtain bytes).resumeReceived_done o n bytes len' flag'
      exact Stream.sated o allowed (.inl ends) _

end Machine

namespace Peers

/--
A peer that has got all of the other's output, and whose last `SSL_read` had nothing to hand out,
has decrypted all that the other has encrypted.
-/
def Complete (o : Lib σ) (roles : Side → HandshakeType → Prop) (ssl : Side → σ) : Prop :=
  ∀ calls e, run (step o) (fresh ssl) calls = some e → (∀ c ∈ calls, c.2.Plays (roles c.1)) →
    ∀ side, e.wire side.other = [] → (e.ends side).Starved o →
      (e.ends side).decrypted = (e.ends side.other).encrypted

end Peers

namespace Link

def Reads (r : Side → ι) (_ : Link ι σ) (input : Side × ι × Input) : Prop :=
  Machine.Reads (r input.1) input.2

instance (r : Side → ι) (d : Link ι σ) (input : Side × ι × Input) : Decidable (d.Reads r input) :=
  inferInstanceAs (Decidable (Machine.Reads (r input.1) input.2))

theorem reached_reading {ssl : Side → σ} {r : Side → ι} {d : Link ι σ}
    {inputs : List (Side × ι × Input)} (reached : run (step o) (fresh ssl) inputs = some d)
    (reads : Always (step o) (Reads r) (fresh ssl) inputs) (side : Side) :
    (d.ends side).1.Reading o (r side) := by
  have preserved (side : Side) (q : Lined ι σ) (input : ι × Input) (q' : Lined ι σ)
      (reading : q.1.Reading o (r side)) (reads : Machine.Reads (r side) input)
      (taken : (Lined.talker o).step q input = some q') : q'.1.Reading o (r side) := by
    have taken : q.step o input = some q' := taken
    obtain ⟨m, moved, rfl⟩ := watching_some taken
    exact Machine.step_reading reading reads moved
  have step (d : Link ι σ) (input : Side × ι × Input) (d' : Link ι σ)
      (before : ∀ side, (d.ends side).1.Reading o (r side)) (reads : d.Reads r input)
      (taken : d.step o input = some d') : ∀ side, (d'.ends side).1.Reading o (r side) :=
    Duplex.step_ends preserved before reads taken
  exact run_invariant step reached reads
    (fun side => Machine.fresh_reading (r side) (ssl side)) side

end Link

/--
A caller of `recv` that waits for bytes when none are under way has got, with the calls before it,
all that the callers of `send` have given at the other end, if two engines that get each other's
output directly leave nothing behind.
-/
theorem nothing_is_left_behind (contract : o.ErrorContract) (roles : Side → HandshakeType → Prop)
    (ssl : Side → σ) (complete : Peers.Complete o roles ssl) (w r : Side → ι)
    (inputs : List (Side × ι × Input)) (d : Link ι σ)
    (reached : run (Link.step o) (Link.fresh ssl) inputs = some d)
    (allowed : Always (Link.step o) (Link.Allows roles) (Link.fresh ssl) inputs)
    (sole : Always (Link.step o) (Link.Sole w) (Link.fresh ssl) inputs)
    (reads : Always (Link.step o) (Link.Reads r) (Link.fresh ssl) inputs) (side : Side)
    (len : Nat) (flag : Int) (room : 0 < toInt32 len)
    (waits : (d.ends side).1.slots (r side) = .suspended (.recv len flag) (.recvRaw len flag))
    (arrived : d.wire side.other = [])
    (drained : (d.ends side.other).1.stream.engine.writeBio = [])
    (returned : ((d.ends side.other).1.slots (w side.other)).free = true)
    (continues : ((d.ends side.other).1.slots (w side.other)).threw = false) :
    (d.ends side).1.delivered = given (Duplex.inputsOf side.other inputs) := by
  obtain ⟨calls, e, ran, plays, same⟩ := Link.reached_peers contract reached allowed
  have sound := Link.reached_sound contract reached allowed
  have sending := Link.reached_sending contract reached allowed sole side.other
  have hungry := (Link.reached_reading reached reads side).hungry
  obtain ⟨rest, leaves, encrypted⟩ := sending.complete
  obtain rfl := Machine.leaves_of_free returned continues leaves
  have starved : (e.ends side).Starved o := by
    rw [waits] at hungry
    rw [same]
    exact hungry room
  have delivered : e.wire side.other = [] := by
    have outgoing := sound.outgoing side.other
    have conserved : (e.ends side.other.other).fed ++ e.wire side.other =
        (e.ends side.other).output := Peers.reached_conserved ran side.other
    rw [arrived, drained, List.append_nil, List.append_nil, ← same, ← same, ← conserved] at outgoing
    exact List.self_eq_append_right.mp outgoing
  calc (d.ends side).1.delivered
    _ = (e.ends side).decrypted := by
      rw [same, (sound.ends side).kept.delivered]
      rfl
    _ = (e.ends side.other).encrypted := complete calls e ran plays side delivered starved
    _ = given (Duplex.inputsOf side.other inputs) := by
      rw [same, ← encrypted, List.append_nil]
      rfl

def dataRecords (data : Bytes) : Bytes := data.flatMap fun byte => [0, byte]

theorem dataRecords_inj {data data' : Bytes} (same : dataRecords data = dataRecords data') :
    data = data' := by
  have plain (data : Bytes) : recordData (dataRecords data) = data := by
    simpa [dataRecords, recordData] using recordData_written data []
  rw [← plain data, same, plain]

theorem dataRecords_length (data : Bytes) : (dataRecords data).length = 2 * data.length := by
  induction data with
  | nil => rfl
  | cons byte rest ih =>
    simp only [dataRecords, List.flatMap_cons, List.length_append, List.length_cons,
      List.length_nil] at ih ⊢
    omega

theorem dataRecords_rest {data rest all : Bytes} (ahead : dataRecords data ++ rest <+: dataRecords all) :
    rest.length < 2 ∨ ∃ byte later, rest = 0 :: byte :: later := by
  induction data generalizing all with
  | nil =>
    cases rest with
    | nil => exact .inl (by decide)
    | cons kind rest =>
      cases rest with
      | nil => exact .inl Nat.one_lt_two
      | cons byte later =>
        cases all with
        | nil => simp [dataRecords] at ahead
        | cons first others =>
          obtain ⟨rfl, -⟩ : kind = 0 ∧ _ := by
            simpa [dataRecords, List.cons_prefix_cons] using ahead
          exact .inr ⟨byte, later, rfl⟩
  | cons first others ih =>
    cases all with
    | nil => simp [dataRecords] at ahead
    | cons byte rest' =>
      have later : dataRecords others ++ rest <+: dataRecords rest' := by
        simp only [dataRecords, List.flatMap_cons, List.cons_append, List.nil_append,
          List.cons_prefix_cons] at ahead ⊢
        exact ahead.2.2
      exact ih later

structure Peer.Plain (p : Peer RecordState) : Prop where
  established : p.ssl = .established
  output : p.output = dataRecords p.encrypted
  fed : dataRecords p.decrypted ++ p.readBio = p.fed

namespace Peer

theorem dataRecords_snoc (data : Bytes) (byte : UInt8) :
    dataRecords (data ++ [byte]) = dataRecords data ++ [0, byte] := by
  simp [dataRecords]

theorem read_plain {p : Peer RecordState} (plain : p.Plain) {sent : Bytes}
    (ahead : p.fed <+: dataRecords sent) (num : Int) :
    (p.call Lib.records (.read num)).Plain := by
  have established := plain.established
  by_cases none : num ≤ 0
  · constructor <;> simp [call, absorb, Lib.records, none, established, plain.output, plain.fed]
  · rw [← plain.fed] at ahead
    obtain short | ⟨byte, later, bio⟩ := dataRecords_rest ahead
    · have unread : readRecord [] p.readBio = ⟨-1, .established, p.readBio, [], [], []⟩ := by
        cases bio : p.readBio with
        | nil => rfl
        | cons kind rest =>
          cases rest with
          | nil => rfl
          | cons =>
            rw [bio] at short
            exact absurd short (Nat.not_lt.mpr (Nat.le_add_left 2 _))
      constructor <;>
        simp [call, absorb, Lib.records, none, unread, established, plain.output, plain.fed]
    · have fed := plain.fed
      rw [bio] at fed
      constructor <;>
        simp [call, absorb, Lib.records, none, readRecord, established, bio, plain.output,
          dataRecords_snoc, fed]

theorem write_plain {p : Peer RecordState} (plain : p.Plain) (buf : Bytes) (num : Int) :
    (p.call Lib.records (.write buf num)).Plain := by
  have established := plain.established
  by_cases none : buf = [] ∨ num ≤ 0
  · constructor <;> simp [call, absorb, Lib.records, none, established, plain.output, plain.fed]
  · have written : Lib.records.write p.ssl p.readBio buf num =
        ⟨(buf.take num.toNat).length, p.ssl, p.readBio, dataRecords (buf.take num.toNat), [], []⟩ :=
      if_neg none
    have taken : buf.take ((buf.take num.toNat).length : Int).toNat = buf.take num.toNat := by
      rw [Int.toNat_natCast, List.length_take, ← List.take_take, List.take_length]
    simp only [call, absorb, written, taken]
    refine ⟨established, ?_, plain.fed⟩
    rw [plain.output]
    exact List.flatMap_append.symm

theorem call_plain {p : Peer RecordState} (plain : p.Plain) {sent : Bytes}
    (ahead : p.fed <+: dataRecords sent) (c : LibraryCall) : (p.call Lib.records c).Plain := by
  cases c with
  | setState type => cases type <;> exact ⟨plain.established, plain.output, plain.fed⟩
  | handshake type =>
    have output : p.output ++ [] = dataRecords p.encrypted := by
      rw [List.append_nil, plain.output]
    cases type <;> exact ⟨plain.established, output, plain.fed⟩
  | read num => exact read_plain plain ahead num
  | write buf num => exact write_plain plain buf num
  | arrive bytes =>
    refine ⟨plain.established, plain.output, ?_⟩
    change dataRecords p.decrypted ++ (p.readBio ++ bytes) = p.fed ++ bytes
    rw [← plain.fed, List.append_assoc]

theorem readRecord_short {output bio : Bytes} (nothing : (readRecord output bio).ret ≤ 0)
    (established : (readRecord output bio).ssl = .established) :
    (readRecord output bio).readBio.length < 2 := by
  fun_induction readRecord output bio with
  | case6 output bio short =>
    cases bio with
    | nil => exact Nat.two_pos
    | cons kind rest =>
      cases rest with
      | nil => exact Nat.one_lt_two
      | cons byte later => exact absurd rfl (short kind byte later)
  | _ => simp_all

theorem Starved.short {p : Peer RecordState} (starved : p.Starved Lib.records)
    (established : p.ssl = .established) : p.readBio.length < 2 := by
  induction starved with
  | read p num room nothing =>
    cases ssl : p.ssl with
    | closed | failed => simp [call, absorb, Lib.records, ssl, not_le.mpr room] at established
    | established =>
      simp only [call, absorb, Lib.records, ssl, not_le.mpr room, if_false] at nothing established ⊢
      exact readRecord_short nothing established
  | write p buf num starved ih =>
    simp only [call, absorb, Lib.records] at established ⊢
    split_ifs at established ⊢ <;> exact ih established

end Peer

theorem Lib.records_complete (roles : Side → HandshakeType → Prop) :
    Peers.Complete Lib.records roles fun _ => .established := by
  intro calls e ran _ side delivered starved
  have plain : (∀ side, (e.ends side).Plain) ∧ e.Conserved (Peer.talker Lib.records) := by
    have preserved (e : Peers RecordState) (c : Side × LibraryCall) (e' : Peers RecordState)
        (before : (∀ side, (e.ends side).Plain) ∧ e.Conserved (Peer.talker Lib.records)) (_ : True)
        (taken : e.step Lib.records c = some e') :
        (∀ side, (e'.ends side).Plain) ∧ e'.Conserved (Peer.talker Lib.records) := by
      obtain ⟨plain, conserved⟩ := before
      have ahead (side : Side) : (e.ends side).fed <+: dataRecords (e.ends side.other).encrypted := by
        have carried : (e.ends side.other.other).fed ++ e.wire side.other =
            (e.ends side.other).output := conserved side.other
        rw [Side.other_other] at carried
        exact ⟨_, carried.trans (plain side.other).output⟩
      have called (side : Side) (p : Peer RecordState) (c : LibraryCall) (p' : Peer RecordState)
          (plain : p.Plain) (ahead : p.fed <+: dataRecords (e.ends side.other).encrypted)
          (taken : (Peer.talker Lib.records).step p c = some p') : p'.Plain := by
        obtain rfl := Option.some.inj taken
        exact Peer.call_plain plain ahead c
      exact ⟨Duplex.step_ends called plain (ahead c.1) taken,
        Duplex.step_conserved conserved (fun p moved => Peer.talker_grows _ _ _ p moved) taken⟩
    exact run_invariant preserved ran (always_true _ _)
      ⟨fun _ => ⟨rfl, rfl, rfl⟩, Duplex.start_conserved (fun _ => rfl) fun _ => rfl⟩
  obtain ⟨plain, conserved⟩ := plain
  have carried : (e.ends side.other.other).fed ++ e.wire side.other = (e.ends side.other).output :=
    conserved side.other
  rw [Side.other_other, delivered, List.append_nil, (plain side.other).output,
    ← (plain side).fed] at carried
  -- Half a record is left over from no whole number of records.
  have short := starved.short (plain side).established
  have lengths := congrArg List.length carried
  rw [List.length_append, dataRecords_length, dataRecords_length] at lengths
  have empty : (e.ends side).readBio = [] := List.length_eq_zero_iff.mp (by omega)
  rw [empty, List.append_nil] at carried
  exact dataRecords_inj carried

def sendAndReply : List (Side × Bool × Input) :=
  [(.right, false, .call (.recv 4 0)), (.left, true, .call (.send [7, 8] 0)),
    (.right, false, .received 3 [0, 7, 0]), (.left, true, .sent 4),
    (.right, true, .call (.send [9] 0)), (.right, false, .call (.recv 4 0)),
    (.right, true, .sent 2), (.right, false, .received 1 [8]), (.right, false, .call (.recv 4 0))]

theorem nothing_is_left_behind_records :
    ∃ d : Link Bool RecordState,
      run (Link.step Lib.records) (Link.fresh fun _ => .established) sendAndReply = some d ∧
      (d.ends .right).1.delivered = given (Duplex.inputsOf .left sendAndReply) := by
  have ended : (run (Link.step Lib.records) (Link.fresh fun _ => .established : Link Bool RecordState)
      sendAndReply).map (fun d => ((d.ends .right).1.slots false, d.wire .left,
        (d.ends .left).1.stream.engine.writeBio, (d.ends .left).1.slots true)) =
      some (.suspended (.recv 4 0) (.recvRaw 4 0), [], [], .returned (.send [7, 8] 0) (.sent 2)) := by
    decide +kernel
  obtain ⟨d, reached, view⟩ := Option.map_eq_some_iff.mp ended
  simp only [Prod.mk.injEq] at view
  obtain ⟨waits, arrived, drained, returned⟩ := view
  exact ⟨d, reached, nothing_is_left_behind Lib.records_contract (fun _ _ => True)
    (fun _ => .established) (Lib.records_complete _) (fun _ => true) (fun _ => false) sendAndReply d
    reached (by decide +kernel) (by decide +kernel) (by decide +kernel) .right 4 0 (by decide) waits
    arrived drained (congrArg Pc.free returned) (congrArg Pc.threw returned)⟩

end KkProxy.Ssl
