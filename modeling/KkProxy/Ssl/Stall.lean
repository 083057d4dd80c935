import KkProxy.Ssl.Handshake
import KkProxy.Ssl.Link

set_option autoImplicit false

namespace KkProxy.Ssl

open Runs
open Shared (Side Talker Duplex)

variable {σ : Type} {o : Lib σ}

-- The last call of a peer was for a handshake, has put out nothing and answers `error`.
def Peer.Answered (o : Lib σ) (type : HandshakeType) (error : SslError) (p : Peer σ) : Prop :=
  ∃ q : Peer σ, p = q.call o (.handshake type) ∧ (o.handshake type q.ssl q.readBio).output = [] ∧
    o.getError p.ssl [] (o.handshake type q.ssl q.readBio).ret = error

-- The answer after which a handshake waits for the other end or returns success.
def Pc.answer? : Pc → Option (HandshakeType × SslError)
  | .suspended _ (.handshakeRecv type) => some (type, .wantRead)
  | .returned (.handshake type) (.handshake none) => some (type, .none)
  | _ => none

theorem Call.Allows.answer_none {c : Call} {progress : Progress} (allowed : c.Allows progress)
    (other : ∀ type, c ≠ .handshake type) : (progress.pc c).answer? = none := by
  cases c with
  | handshake type => exact absurd rfl (other type)
  | send | recv =>
    cases progress with
    | suspended p => cases p <;> first | rfl | exact absurd allowed id
    | done out => rfl

theorem getSslStatus_ok {e : Engine σ} {n : Int} (status : getSslStatus o e n = .ok) :
    o.getError e.ssl e.errors n = .none := by
  unfold getSslStatus at status
  split at status <;> first | assumption | cases status

theorem getSslStatus_wantRead {e : Engine σ} {n : Int} (status : getSslStatus o e n = .wantRead) :
    o.getError e.ssl e.errors n = .wantRead := by
  unfold getSslStatus at status
  split at status <;> first | assumption | cases status

namespace Engine

theorem perform_answered {type : HandshakeType} {error : SslError} {e : Engine σ}
    (quiet : e.writeBio ++ (e.attempt o type).output = [])
    (answer : o.getError (e.perform o (handshakeOp o type)).2.ssl [] (e.attempt o type).ret =
      error) :
    (e.perform o (handshakeOp o type)).2.writeBio = [] ∧
      (e.perform o (handshakeOp o type)).2.peer.Answered o type error :=
  ⟨(e.perform_writeBio o type).trans quiet,
    e.peer, e.perform_peer type, (List.append_eq_nil_iff.mp quiet).2, answer⟩

theorem perform_answers {type : HandshakeType} {status : SslStatus} {e : Engine σ}
    (result : (e.perform o (handshakeOp o type)).1 = status) (want : status ≠ .wantWrite)
    (fine : status ≠ .error) :
    e.writeBio ++ (e.attempt o type).output = [] ∧ (e.attempt o type).status = status := by
  rw [perform_attempt] at result
  split_ifs at result with pending failed
  · exact absurd result.symm want
  · exact absurd result.symm fine
  · exact ⟨not_not.mp pending, result⟩

theorem attempt_getSslStatus (o : Lib σ) (type : HandshakeType) (e : Engine σ) :
    (e.attempt o type).status = getSslStatus o
      { (e.perform o (handshakeOp o type)).2 with errors := [] } (e.attempt o type).ret := by
  rw [attempt_status, perform_eq]
  rfl

end Engine

namespace Stream

def Rests (o : Lib σ) (call : Call) (r : Stream σ × Progress) : Prop :=
  ∀ type error, (r.2.pc call).answer? = some (type, error) →
    r.1.engine.writeBio = [] ∧ r.1.engine.peer.Answered o type error

theorem rests_of_none {call : Call} {r : Stream σ × Progress} (none : (r.2.pc call).answer? = none) :
    Rests o call r := by
  intro type error answer
  rw [none] at answer
  cases answer

theorem LoopTurn.rests {type : HandshakeType} {s : Stream σ} {r : Stream σ × Progress}
    (turn : LoopTurn o type s r) : Rests o (.handshake type) r := by
  cases turn with
  | failed | unread | wantWrite => exact rests_of_none rfl
  | finished result =>
    obtain ⟨quiet, status⟩ := Engine.perform_answers result (by decide) (by decide)
    rw [Engine.attempt_getSslStatus] at status
    rintro _ _ ⟨⟩
    exact Engine.perform_answered quiet (getSslStatus_ok status)
  | wantRead result =>
    obtain ⟨quiet, status⟩ := Engine.perform_answers result (by decide) (by decide)
    rw [Engine.attempt_getSslStatus] at status
    rintro _ _ ⟨⟩
    exact Engine.perform_answered quiet (getSslStatus_wantRead status)

variable (o)

theorem start_rests (s : Stream σ) (c : Call) : Rests o c (s.start o c) := by
  cases c with
  | handshake type => exact (handshakeLoop_turn o type _).rests
  | send buf flag => exact rests_of_none ((s.start_allowed o (.send buf flag)).answer_none (by simp))
  | recv len flag => exact rests_of_none ((s.start_allowed o (.recv len flag)).answer_none (by simp))

theorem resumeSent_rests (s : Stream σ) (r : Int) {c : Call} {p : Suspended}
    (suspends : c.Suspends p) (sends : ∃ offered flag, p.request = .send offered flag) :
    Rests o c (s.resumeSent o r p) := by
  have allowed := s.resumeSent_allowed o r suspends
  cases p with
  | handshakeRecv | recvRaw => simp [Suspended.request] at sends
  | sendRaw =>
    obtain rfl := Call.suspends_sendRaw.mp suspends
    exact rests_of_none (allowed.answer_none (by simp))
  | handshakeSend type buf bytesSent =>
    obtain rfl := Call.suspends_handshakeSend.mp suspends
    simp only [resumeSent, handshakeSent]
    split_ifs
    · exact rests_of_none rfl
    · exact rests_of_none rfl
    · exact (handshakeLoop_turn o type s).rests

theorem resumeReceived_rests (s : Stream σ) (r : Int) (bytes : Bytes) {c : Call} {p : Suspended}
    (suspends : c.Suspends p) (receives : ∃ len flag, p.request = .recv len flag) :
    Rests o c (s.resumeReceived o r bytes p) := by
  have allowed := s.resumeReceived_allowed o r bytes suspends
  cases p with
  | handshakeSend | sendRaw => simp [Suspended.request] at receives
  | recvRaw =>
    obtain rfl := Call.suspends_recvRaw.mp suspends
    exact rests_of_none (allowed.answer_none (by simp))
  | handshakeRecv type =>
    obtain rfl := Call.suspends_handshakeRecv.mp suspends
    simp only [resumeReceived, handshakeReceived]
    split_ifs
    · exact rests_of_none rfl
    · exact rests_of_none rfl
    · exact rests_of_none rfl
    · exact (handshakeLoop_turn o type _).rests

end Stream

namespace Lined

structure Lone (o : Lib σ) (roles : HandshakeType → Prop) (q : Lined Unit σ) : Prop where
  sound : q.Sound roles
  rests : ∀ type error, (q.1.slots ()).answer? = some (type, error) →
    q.1.stream.engine.writeBio = [] ∧ q.peer.Answered o type error

variable {roles : HandshakeType → Prop} {q q' : Lined Unit σ} {input : Unit × Input}

theorem fresh_lone (ssl : σ) : (fresh ssl : Lined Unit σ).Lone o roles :=
  ⟨fresh_sound ssl, fun _ _ answer => by cases answer⟩

-- A single coroutine that sends holds the first chunk.
theorem firstTaken_of_single (ordered : q.Ordered) (taken : q.step o input = some q') :
    q.FirstTaken input := by
  obtain ⟨⟨⟩, input⟩ := input
  obtain ⟨m, moved, -⟩ := watching_some taken
  cases Machine.step_effect o moved with
  | call | received => trivial
  | sent r call p offered flag waiting request fits =>
    have loaded : (q.1.slots ()).loaded ≠ [] := by
      have offers : p.Offers := by
        have own := ordered.offers ()
        rwa [waiting] at own
      rw [waiting]
      cases p with
      | handshakeRecv | recvRaw => simp [Suspended.request] at request
      | handshakeSend | sendRaw => simpa [Pc.loaded, Suspended.loaded, Suspended.Offers] using offers
    have member : () ∈ q.2 := (ordered.inLine.carrying ()).mpr loaded
    change q.2.head? = some ()
    cases line : q.2 with
    | nil => simp [line] at member
    | cons first rest => rfl

theorem step_lone (contract : o.ErrorContract) (lone : q.Lone o roles)
    (allowed : q.Allows roles input) (taken : q.step o input = some q') : q'.Lone o roles := by
  refine ⟨(step_sound contract lone.sound allowed taken).1, ?_⟩
  obtain ⟨⟨⟩, input⟩ := input
  obtain ⟨m, moved, rfl⟩ := watching_some taken
  have proper := lone.sound.kept.proper ()
  cases Machine.step_effect o moved with
  | call c free =>
    rw [Machine.settle_slot]
    exact q.1.stream.start_rests o c
  | sent r call p offered flag waiting request fits =>
    have suspends : call.Suspends p := by simpa [waiting, Pc.Proper] using proper
    rw [Machine.settle_slot]
    exact (q.1.stream.accept offered r).resumeSent_rests o r suspends ⟨offered, flag, request⟩
  | received r bytes call p len flag waiting request counted fits =>
    have suspends : call.Suspends p := by simpa [waiting, Pc.Proper] using proper
    rw [Machine.settle_slot]
    exact (q.1.stream.obtain bytes).resumeReceived_rests o r bytes suspends ⟨len, flag, request⟩

end Lined

/--
Peers of the given roles that have got all of each other's output, and of which each has finished
or asks for more input, have both finished.
-/
def Peers.Live (o : Lib σ) (roles : Side → HandshakeType) (ssl : Side → σ) : Prop :=
  ∀ calls e, run (step o) (fresh ssl) calls = some e →
    (∀ c ∈ calls, c.2.Plays (· = roles c.1)) → (∀ side, e.wire side = []) →
    (∀ side, (e.ends side).Answered o (roles side) .wantRead ∨
      (e.ends side).Answered o (roles side) .none) →
    ∀ side, ¬ (e.ends side).Answered o (roles side) .wantRead

namespace Link

theorem step_lone (contract : o.ErrorContract) (roles : Side → HandshakeType) (d : Link Unit σ)
    (input : Side × Unit × Input) (d' : Link Unit σ)
    (before : ∀ side, (d.ends side).Lone o (· = roles side))
    (allowed : d.Allows (fun side type => type = roles side) input)
    (taken : d.step o input = some d') (side : Side) : (d'.ends side).Lone o (· = roles side) := by
  have preserved (side : Side) (q : Lined Unit σ) (input : Unit × Input) (q' : Lined Unit σ)
      (lone : q.Lone o (· = roles side)) (allowed : q.Allows (· = roles side) input)
      (moved : (Lined.talker o).step q input = some q') : q'.Lone o (· = roles side) :=
    Lined.step_lone contract lone allowed moved
  exact Duplex.step_ends preserved before allowed taken side

variable {roles : Side → HandshakeType} {ssl : Side → σ} {d : Link Unit σ}
  {inputs : List (Side × Unit × Input)}

theorem single_allows (contract : o.ErrorContract)
    (reached : run (step o) (fresh ssl) inputs = some d)
    (allowed : ∀ input ∈ inputs, input.2.2.Accepts ∧ input.2.2.Plays (· = roles input.1)) :
    Always (step o) (Allows fun side type => type = roles side) (fresh ssl) inputs := by
  have gives (d : Link Unit σ) (input : Side × Unit × Input) (d' : Link Unit σ)
      (before : ∀ side, (d.ends side).Lone o (· = roles side))
      (meets : input.2.2.Accepts ∧ input.2.2.Plays (· = roles input.1))
      (taken : d.step o input = some d') : d.Allows (fun side type => type = roles side) input := by
    obtain ⟨side, input⟩ := input
    obtain ⟨q, moved, -, -⟩ := Duplex.step_advance taken
    exact ⟨⟨meets.1, Lined.firstTaken_of_single (before side).sound.ordered moved⟩, meets.2⟩
  exact Always.of_taken gives (step_lone contract roles) reached (always_of_forall allowed _)
    fun side => Lined.fresh_lone (ssl side)

theorem reached_lone (contract : o.ErrorContract)
    (reached : run (step o) (fresh ssl) inputs = some d)
    (allows : Always (step o) (Allows fun side type => type = roles side) (fresh ssl) inputs) :
    ∀ side, (d.ends side).Lone o (· = roles side) :=
  run_invariant (step_lone contract roles) reached allows fun side => Lined.fresh_lone (ssl side)

end Link

/--
Two coroutines, one on each of two connected streams, that can go no further in their handshakes
have both finished them, if this holds of engines that get each other's output directly.
-/
theorem handshakes_never_stall (contract : o.ErrorContract) (roles : Side → HandshakeType)
    (ssl : Side → σ) (live : Peers.Live o roles ssl) (inputs : List (Side × Unit × Input))
    (d : Link Unit σ) (reached : run (Link.step o) (Link.fresh ssl) inputs = some d)
    (allowed : ∀ input ∈ inputs, input.2.2.Accepts ∧ input.2.2.Plays (· = roles input.1))
    (arrived : ∀ side, d.wire side = [])
    (stopped : ∀ side,
      (d.ends side).1.slots () =
        .suspended (.handshake (roles side)) (.handshakeRecv (roles side)) ∨
      (d.ends side).1.slots () = .returned (.handshake (roles side)) (.handshake none))
    (side : Side) :
    (d.ends side).1.slots () = .returned (.handshake (roles side)) (.handshake none) := by
  have allows := Link.single_allows contract reached allowed
  have lone := Link.reached_lone contract reached allows
  obtain ⟨calls, e, ran, plays, same⟩ := Link.reached_peers contract reached allows
  have answered (side : Side) : ∃ error, ((d.ends side).1.slots ()).answer? =
      some (roles side, error) ∧ (error = .wantRead ∨ error = .none) := by
    obtain waiting | returned := stopped side
    · exact ⟨.wantRead, by rw [waiting]; rfl, .inl rfl⟩
    · exact ⟨.none, by rw [returned]; rfl, .inr rfl⟩
  have delivered (side : Side) : e.wire side = [] := by
    obtain ⟨error, answer, -⟩ := answered side
    have outgoing := (Link.reached_sound contract reached allows).outgoing side
    have conserved : (e.ends side.other).fed ++ e.wire side = (e.ends side).output :=
      Peers.reached_conserved ran side
    rw [arrived side, ((lone side).rests _ _ answer).1, List.append_nil, List.append_nil, ← same,
      ← same, ← conserved] at outgoing
    exact List.self_eq_append_right.mp outgoing
  have final := live calls e ran plays delivered fun side => by
    obtain ⟨error, answer, rfl | rfl⟩ := answered side
    · exact .inl (same side ▸ ((lone side).rests _ _ answer).2)
    · exact .inr (same side ▸ ((lone side).rests _ _ answer).2)
  obtain waiting | returned := stopped side
  · refine absurd ?_ (final side)
    rw [same]
    exact ((lone side).rests (roles side) .wantRead (by rw [waiting]; rfl)).2
  · exact returned

inductive HailState where
  | fresh | hailed | finished
deriving DecidableEq, Repr

def hail : HailState → Bytes → Answer HailState
  | .fresh, bio => ⟨-1, .hailed, bio, [1], [], []⟩
  | .hailed, [] => ⟨-1, .hailed, [], [], [], []⟩
  | .hailed, _ :: rest => ⟨1, .finished, rest, [], [], []⟩
  | .finished, bio => ⟨1, .finished, bio, [], [], []⟩

def reply : HailState → Bytes → Answer HailState
  | .finished, bio => ⟨1, .finished, bio, [], [], []⟩
  | ssl, [] => ⟨-1, ssl, [], [], [], []⟩
  | _, _ :: rest => ⟨1, .finished, rest, [2], [], []⟩

def Lib.hailing : Lib HailState where
  setConnectState := id
  setAcceptState := id
  initFinished ssl := decide (ssl = .finished)
  connect := hail
  accept := reply
  read ssl bio _ := ⟨-1, ssl, bio, [], [], []⟩
  write ssl bio _ _ := ⟨-1, ssl, bio, [], [], []⟩
  getError _ queue ret := if 0 < ret then .none else if queue ≠ [] then .ssl else .wantRead
  read_ret _ _ num := le_trans (show (-1 : Int) ≤ 0 by decide) (le_max_right num 0)
  read_data _ _ _ := rfl
  write_ret _ _ _ num := le_trans (show (-1 : Int) ≤ 0 by decide) (le_max_right num 0)

theorem Lib.hailing_contract : Lib.hailing.ErrorContract where
  positive _ _ _ positive := if_pos positive
  queued _ _ _ failed some := by simp [hailing, not_lt.mpr failed, some]

namespace Peer

-- What a peer has put out so far; one that still waits has read nothing.
def Hails (type : HandshakeType) (p : Peer HailState) : Prop :=
  match type, p.ssl with
  | .client, .fresh => p.output = [] ∧ p.readBio = p.fed
  | .client, .hailed => p.output = [1] ∧ p.readBio = p.fed
  | .client, .finished => p.output = [1]
  | .server, .fresh => p.output = [] ∧ p.readBio = p.fed
  | .server, .hailed => False
  | .server, .finished => p.output = [2]

theorem call_hails {type : HandshakeType} {p : Peer HailState} (hails : p.Hails type)
    {c : LibraryCall} (plays : c.Plays (· = type)) : (p.call Lib.hailing c).Hails type := by
  obtain ⟨ssl, readBio, fed, output, decrypted, encrypted⟩ := p
  cases c with
  | setState type' => cases type' <;> exact hails
  | handshake type' =>
    obtain rfl : type' = type := plays
    cases type' with
    | client =>
      cases ssl with
      | fresh | finished => simp_all [Hails, call, absorb, Lib.hailing, hail]
      | hailed =>
        cases readBio with
        | nil => simpa [Hails, call, absorb, Lib.hailing, hail] using hails
        | cons => exact (List.append_nil output).trans hails.1
    | server =>
      cases ssl with
      | finished => simp_all [Hails, call, absorb, Lib.hailing, reply]
      | hailed => exact absurd hails id
      | fresh =>
        cases readBio with
        | nil => simpa [Hails, call, absorb, Lib.hailing, reply] using hails
        | cons => exact congrArg (· ++ [2]) hails.1
  | read | write => cases type <;> cases ssl <;> simp_all [Hails, call, absorb, Lib.hailing]
  | arrive bytes => cases type <;> cases ssl <;> simp_all [Hails, call, feed]

theorem Hails.asks {type : HandshakeType} {p : Peer HailState} (hails : p.Hails type)
    (answered : p.Answered Lib.hailing type .wantRead) : p.fed = [] := by
  obtain ⟨q, rfl, quiet, answer⟩ := answered
  obtain ⟨ssl, readBio, fed, output, decrypted, encrypted⟩ := q
  cases type <;> cases ssl <;> cases readBio <;>
    simp_all [Hails, call, absorb, Lib.hailing, Lib.handshake, hail, reply]

theorem Hails.silent {type : HandshakeType} {p : Peer HailState} (hails : p.Hails type)
    (silent : p.output = []) : p.ssl = .fresh := by
  obtain ⟨ssl, readBio, fed, output, decrypted, encrypted⟩ := p
  cases type <;> cases ssl <;> simp_all [Hails]

theorem begun_of_answered {type : HandshakeType} {error : SslError} {p : Peer HailState}
    (answered : p.Answered Lib.hailing type error) (begins : type = .client ∨ error = .none) :
    p.ssl ≠ .fresh := by
  obtain ⟨q, rfl, quiet, answer⟩ := answered
  obtain ⟨ssl, readBio, fed, output, decrypted, encrypted⟩ := q
  cases type <;> cases ssl <;> cases readBio <;>
    simp_all [call, absorb, Lib.hailing, Lib.handshake, hail, reply]

end Peer

def hailRoles : Side → HandshakeType
  | .left => .client
  | .right => .server

theorem Lib.hailing_live : Peers.Live Lib.hailing hailRoles fun _ => .fresh := by
  intro calls e ran plays arrived answered side asks
  have hails : ∀ side, (e.ends side).Hails (hailRoles side) := by
    have called (side : Side) (p : Peer HailState) (c : LibraryCall) (p' : Peer HailState)
        (hails : p.Hails (hailRoles side)) (plays : c.Plays (· = hailRoles side))
        (taken : (Peer.talker Lib.hailing).step p c = some p') : p'.Hails (hailRoles side) := by
      obtain rfl := Option.some.inj taken
      exact Peer.call_hails hails plays
    have preserved (e : Peers HailState) (c : Side × LibraryCall) (e' : Peers HailState)
        (before : ∀ side, (e.ends side).Hails (hailRoles side))
        (plays : c.2.Plays (· = hailRoles c.1)) (taken : e.step Lib.hailing c = some e') :
        ∀ side, (e'.ends side).Hails (hailRoles side) :=
      Duplex.step_ends called before plays taken
    exact run_invariant preserved ran (always_of_forall plays _) fun side => by
      cases side <;> exact ⟨rfl, rfl⟩
  have delivered (side : Side) : (e.ends side.other).fed = (e.ends side).output := by
    have conserved : (e.ends side.other).fed ++ e.wire side = (e.ends side).output :=
      Peers.reached_conserved ran side
    rwa [arrived side, List.append_nil] at conserved
  -- An end that asks has got nothing, so the other end has not begun.
  have unbegun (side : Side)
      (asks : (e.ends side).Answered Lib.hailing (hailRoles side) .wantRead) :
      (e.ends side.other).ssl = .fresh := by
    refine (hails side.other).silent ?_
    rw [← delivered side.other, Side.other_other]
    exact (hails side).asks asks
  have other := unbegun side asks
  obtain asks' | finished := answered side.other
  · have own := unbegun side.other asks'
    rw [Side.other_other] at own
    cases side with
    | left => exact Peer.begun_of_answered asks (.inl rfl) own
    | right => exact Peer.begun_of_answered asks' (.inl rfl) other
  · exact Peer.begun_of_answered finished (.inr rfl) other

def hailAndReply : List (Side × Unit × Input) :=
  [(.right, (), .call (.handshake .server)), (.left, (), .call (.handshake .client)),
    (.left, (), .sent 1), (.right, (), .received 1 [1]), (.right, (), .sent 1),
    (.left, (), .received 1 [2])]

theorem handshakes_never_stall_hailing :
    ∃ d : Link Unit HailState, run (Link.step Lib.hailing) (Link.fresh fun _ => .fresh)
      hailAndReply = some d ∧
      (d.ends .left).1.slots () = .returned (.handshake .client) (.handshake none) := by
  have ended : (run (Link.step Lib.hailing) (Link.fresh fun _ => .fresh : Link Unit HailState)
      hailAndReply).map (fun d => (d.wire .left, d.wire .right, (d.ends .left).1.slots (),
        (d.ends .right).1.slots ())) =
      some ([], [], .returned (.handshake .client) (.handshake none),
        .returned (.handshake .server) (.handshake none)) := by decide +kernel
  obtain ⟨d, reached, view⟩ := Option.map_eq_some_iff.mp ended
  simp only [Prod.mk.injEq] at view
  obtain ⟨left, right, client, server⟩ := view
  refine ⟨d, reached, handshakes_never_stall Lib.hailing_contract hailRoles (fun _ => .fresh)
    Lib.hailing_live hailAndReply d reached (by decide +kernel) ?_ ?_ .left⟩
  · intro side
    cases side <;> assumption
  · intro side
    cases side with
    | left => exact .inr client
    | right => exact .inr server

end KkProxy.Ssl
