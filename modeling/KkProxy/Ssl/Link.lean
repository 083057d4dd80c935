import KkProxy.Ssl.Peers
import KkProxy.Ssl.Senders

set_option autoImplicit false

namespace KkProxy.Ssl

open Runs
open Shared (Side Talker Duplex)
open Shared.Conveyor (Moves)

variable {ι σ : Type} {o : Lib σ}

instance : ∀ input : Input, Decidable input.Accepts
  | .sent r => inferInstanceAs (Decidable (0 < r))
  | .call _ => .isTrue trivial
  | .received _ _ => .isTrue trivial

variable [DecidableEq ι]

theorem Machine.step_moves (contract : o.ErrorContract) {m m' : Machine ι σ} {input : ι × Input}
    (accepts : input.2.Accepts) (taken : m.step o input = some m') :
    ∃ loaded loaded', Moves (m.stream.conveyor loaded) (m'.stream.conveyor loaded') := by
  obtain ⟨i, input⟩ := input
  cases step_effect o taken with
  | call c free => exact ⟨[], _, (m.stream.start_flows o c).moves⟩
  | sent r call p offered flag waiting request fits =>
    have goesOn : p.goesOn r := by
      cases p <;> first | trivial | exact accepts | exact le_of_lt accepts
    exact ⟨offered, _, (m.stream.resumeSent_moves o request goesOn).1⟩
  | received r bytes call p len flag waiting request counted fits =>
    have refills :=
      (m.stream.obtain bytes).resumeReceived_refills o contract request counted fits
    exact ⟨[], _, refills.flows.moves⟩

namespace Lined

/-- What raw sends have accepted and what those that have not returned offer, in line. -/
def offered (q : Lined ι σ) : Bytes :=
  q.1.stream.accepted ++ q.2.flatMap fun i => (q.1.slots i).loaded

variable (o) in
/--
A stream as one end of a connection: the other end may get bytes that a raw send offers before that
send returns.
-/
def talker : Talker (Lined ι σ) (ι × Input) UInt8 where
  step := step o
  sent := offered
  got q := q.1.stream.received

def peer (q : Lined ι σ) : Peer σ := q.1.stream.engine.peer

omit [DecidableEq ι] in
theorem Ordered.outgoing {q : Lined ι σ} (ordered : q.Ordered) :
    q.offered ++ q.1.stream.engine.writeBio = q.1.stream.engine.output :=
  ordered.inLine.conserved

structure Sound (roles : HandshakeType → Prop) (q : Lined ι σ) : Prop where
  ordered : q.Ordered
  kept : q.1.Kept roles

/--
Raw sends accept some bytes of the chunk that was taken first, and handshakes have one of the
types `roles`.
-/
def Allows (roles : HandshakeType → Prop) (q : Lined ι σ) (input : ι × Input) : Prop :=
  (input.2.Accepts ∧ q.FirstTaken input) ∧ input.2.Plays roles

instance (roles : HandshakeType → Prop) [DecidablePred roles] (q : Lined ι σ) (input : ι × Input) :
    Decidable (q.Allows roles input) :=
  inferInstanceAs (Decidable ((input.2.Accepts ∧ q.FirstTaken input) ∧ input.2.Plays roles))

variable {roles : HandshakeType → Prop}

omit [DecidableEq ι] in
theorem fresh_sound (ssl : σ) : (fresh ssl : Lined ι σ).Sound roles :=
  ⟨fresh_ordered ssl, Machine.fresh_kept ssl⟩

omit [DecidableEq ι] in
theorem Ordered.offered_prefix {q q' : Lined ι σ} (ordered : q.Ordered) (ordered' : q'.Ordered)
    {loaded loaded' : Bytes} (output : q.1.stream.engine.output <+: q'.1.stream.engine.output)
    (moves : Moves (q.1.stream.conveyor loaded) (q'.1.stream.conveyor loaded')) :
    q.offered <+: q'.offered := by
  have before := ordered.outgoing
  have after := ordered'.outgoing
  have shorter : q.1.stream.engine.output.length + q'.1.stream.engine.writeBio.length ≤
      q'.1.stream.engine.output.length + q.1.stream.engine.writeBio.length := moves.unqueues
  have lengths := congrArg List.length before
  have lengths' := congrArg List.length after
  rw [List.length_append] at lengths lengths'
  refine List.prefix_of_prefix_length_le ?_ ⟨_, after⟩ (by omega)
  exact (List.prefix_append q.offered _).trans (before ▸ output)

theorem step_sound (contract : o.ErrorContract) {q q' : Lined ι σ} {input : ι × Input}
    (sound : q.Sound roles) (allowed : q.Allows roles input) (taken : q.step o input = some q') :
    q'.Sound roles ∧ (talker o).Extends q q' ∧
      ∃ calls, run (Peer.talker o).step q.peer calls = some q'.peer ∧
        ∀ c ∈ calls, c.Plays roles := by
  have ordered := step_ordered contract sound.ordered allowed.1 taken
  obtain ⟨m, moved, rfl⟩ := watching_some taken
  obtain ⟨kept, calls, ran, plays⟩ := Machine.step_works contract sound.kept allowed.2 moved
  obtain ⟨loaded, loaded', moves⟩ := Machine.step_moves contract allowed.1.1 moved
  have grown := Talker.Grows.run (Peer.talker_grows o) ran
  refine ⟨⟨ordered, kept⟩, ⟨?_, ?_⟩, calls, ran, plays⟩
  · exact sound.ordered.offered_prefix ordered grown.sent moves
  · change q.1.stream.received <+: m.stream.received
    rw [← sound.kept.fed, ← kept.fed]
    exact grown.got

end Lined

abbrev Peers (σ : Type) := Duplex (Peer σ) UInt8

namespace Peers

def fresh (ssl : Side → σ) : Peers σ := .start fun side => .fresh (ssl side)

variable (o) in
def step : Peers σ → Side × LibraryCall → Option (Peers σ) := Duplex.step (Peer.talker o)

theorem reached_conserved {ssl : Side → σ} {e : Peers σ} {calls : List (Side × LibraryCall)}
    (ran : run (step o) (fresh ssl) calls = some e) : e.Conserved (Peer.talker o) :=
  Duplex.run_conserved (Peer.talker_grows o) ran (Duplex.start_conserved (fun _ => rfl) fun _ => rfl)

end Peers

/-- Two `ssl_stream`s, each with any number of coroutines, whose raw streams are connected. -/
abbrev Link (ι σ : Type) := Duplex (Lined ι σ) UInt8

namespace Link

def fresh (ssl : Side → σ) : Link ι σ := .start fun side => .fresh (ssl side)

variable (o) in
def step : Link ι σ → Side × ι × Input → Option (Link ι σ) := Duplex.step (Lined.talker o)

def Allows (roles : Side → HandshakeType → Prop) (d : Link ι σ) (input : Side × ι × Input) : Prop :=
  (d.ends input.1).Allows (roles input.1) input.2

instance (roles : Side → HandshakeType → Prop) [∀ side, DecidablePred (roles side)] (d : Link ι σ)
    (input : Side × ι × Input) : Decidable (d.Allows roles input) :=
  inferInstanceAs (Decidable ((d.ends input.1).Allows (roles input.1) input.2))

variable {roles : Side → HandshakeType → Prop} {ssl : Side → σ} {d : Link ι σ}
  {inputs : List (Side × ι × Input)}

structure Sound (roles : Side → HandshakeType → Prop) (d : Link ι σ) : Prop where
  ends : ∀ side, (d.ends side).Sound (roles side)
  conserved : d.Conserved (Lined.talker o)

theorem step_sound (contract : o.ErrorContract) (roles : Side → HandshakeType → Prop)
    (d : Link ι σ) (input : Side × ι × Input) (d' : Link ι σ) (before : d.Sound (o := o) roles)
    (allowed : d.Allows roles input) (taken : d.step o input = some d') :
    d'.Sound (o := o) roles where
  ends side := by
    have preserved (side : Side) (q : Lined ι σ) (input : ι × Input) (q' : Lined ι σ)
        (sound : q.Sound (roles side)) (allowed : q.Allows (roles side) input)
        (moved : (Lined.talker o).step q input = some q') : q'.Sound (roles side) :=
      (Lined.step_sound contract sound allowed moved).1
    exact Duplex.step_ends preserved before.ends allowed taken side
  conserved := Duplex.step_conserved before.conserved
    (fun _ moved => (Lined.step_sound contract (before.ends _) allowed moved).2.1) taken

theorem reached_sound (contract : o.ErrorContract)
    (reached : run (step o) (fresh ssl) inputs = some d)
    (allowed : Always (step o) (Allows roles) (fresh ssl) inputs) : d.Sound (o := o) roles :=
  run_invariant (step_sound contract roles) reached allowed
    ⟨fun side => Lined.fresh_sound (ssl side), Duplex.start_conserved (fun _ => rfl) fun _ => rfl⟩

-- What one engine has put out has been fed to the other, is on the wire or in the write BIO.
theorem Sound.outgoing (sound : d.Sound (o := o) roles) (side : Side) :
    (d.ends side.other).peer.fed ++ d.wire side ++ (d.ends side).1.stream.engine.writeBio =
      (d.ends side).peer.output := by
  have fed : (d.ends side.other).peer.fed = (d.ends side.other).1.stream.received :=
    (sound.ends side.other).kept.fed
  have wire : (d.ends side.other).1.stream.received ++ d.wire side = (d.ends side).offered :=
    sound.conserved side
  rw [fed, wire]
  exact (sound.ends side).ordered.outgoing

theorem reached_peers (contract : o.ErrorContract)
    (reached : run (step o) (fresh ssl) inputs = some d)
    (allowed : Always (step o) (Allows roles) (fresh ssl) inputs) :
    ∃ calls e, run (Peers.step o) (Peers.fresh ssl) calls = some e ∧
      (∀ c ∈ calls, c.2.Plays (roles c.1)) ∧ ∀ side, e.ends side = (d.ends side).peer := by
  have preserved (side : Side) (q : Lined ι σ) (input : ι × Input) (q' : Lined ι σ)
      (sound : q.Sound (roles side)) (allowed : q.Allows (roles side) input)
      (moved : (Lined.talker o).step q input = some q') :
      q'.Sound (roles side) ∧ (Lined.talker o).Extends q q' :=
    ⟨(Lined.step_sound contract sound allowed moved).1,
      (Lined.step_sound contract sound allowed moved).2.1⟩
  have matched (side : Side) (q : Lined ι σ) (input : ι × Input) (q' : Lined ι σ)
      (sound : q.Sound (roles side)) (allowed : q.Allows (roles side) input)
      (moved : (Lined.talker o).step q input = some q') :
      ∃ calls, run (Peer.talker o).step q.peer calls = some q'.peer ∧
        ∀ c ∈ calls, c.Plays (roles side) :=
    (Lined.step_sound contract sound allowed moved).2.2
  have got (side : Side) (q : Lined ι σ) (sound : q.Sound (roles side)) :
      q.peer.fed = q.1.stream.received := sound.kept.fed
  have sent (side : Side) (q : Lined ι σ) (sound : q.Sound (roles side)) :
      q.offered <+: q.peer.output := ⟨_, sound.ordered.outgoing⟩
  exact Duplex.refines Lined.peer (Peer.talker_grows o) preserved got sent matched reached allowed
    (fun side => Lined.fresh_sound (ssl side)) (Duplex.start_conserved (fun _ => rfl) fun _ => rfl)
    (fun _ => rfl) (Duplex.start_conserved (fun _ => rfl) fun _ => rfl)

end Link

/--
Two connected `ssl_stream`s, with any number of coroutines on each, run as two engines that get
each other's output directly, as long as raw sends accept some bytes, those of the chunk that was
taken first: the callers of `recv` get what these engines decrypt, and what an engine has been fed
is what the other has put out, but for what is on the wire and in its write BIO.
-/
theorem streams_run_as_peers (contract : o.ErrorContract) (roles : Side → HandshakeType → Prop)
    (ssl : Side → σ) (inputs : List (Side × ι × Input)) (d : Link ι σ)
    (reached : run (Link.step o) (Link.fresh ssl) inputs = some d)
    (allowed : Always (Link.step o) (Link.Allows roles) (Link.fresh ssl) inputs) :
    ∃ calls e, run (Peers.step o) (Peers.fresh ssl) calls = some e ∧
      (∀ c ∈ calls, c.2.Plays (roles c.1)) ∧
      ∀ side, e.ends side = (d.ends side).peer ∧
        (e.ends side).decrypted = (d.ends side).1.delivered ∧
        (e.ends side.other).fed ++ d.wire side ++ (d.ends side).1.stream.engine.writeBio =
          (e.ends side).output := by
  obtain ⟨calls, e, ran, plays, same⟩ := Link.reached_peers contract reached allowed
  have sound := Link.reached_sound contract reached allowed
  refine ⟨calls, e, ran, plays, fun side => ⟨same side, ?_, ?_⟩⟩
  · rw [same, (sound.ends side).kept.delivered]
    rfl
  · rw [same, same]
    exact sound.outgoing side

-- Half a record arrives before the raw send that offers it has returned.
def halfRecord : List (Side × Bool × Input) :=
  [(.left, true, .call (.send [7] 0)), (.right, false, .call (.recv 4 0)),
    (.right, false, .received 1 [0]), (.left, true, .sent 1)]

theorem streams_run_as_peers_half :
    ∃ (d : Link Bool RecordState) (e : Peers RecordState), (e.ends .left).output = [0, 7] ∧
      (e.ends .right).fed ++ d.wire .left ++ (d.ends .left).1.stream.engine.writeBio =
        (e.ends .left).output := by
  have ended : (run (Link.step Lib.records) (Link.fresh fun _ => .established : Link Bool RecordState)
      halfRecord).map (fun d => (d.ends .left).1.stream.engine.output) = some [0, 7] := by
    decide +kernel
  obtain ⟨d, reached, output⟩ := Option.map_eq_some_iff.mp ended
  obtain ⟨calls, e, -, -, ends⟩ := streams_run_as_peers Lib.records_contract (fun _ _ => True)
    (fun _ => .established) halfRecord d reached (by decide +kernel)
  refine ⟨d, e, ?_, (ends .left).2.2⟩
  rw [(ends .left).1]
  exact output

end KkProxy.Ssl
