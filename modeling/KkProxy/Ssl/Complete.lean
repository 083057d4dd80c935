import KkProxy.Ssl.Flush

set_option autoImplicit false

namespace KkProxy.Ssl

open Runs

variable {σ : Type} (o : Lib σ)

def Input.Accepts : Input → Prop
  | .sent r => 0 < r
  | _ => True

def Input.isAnswer : Input → Prop
  | .call _ => False
  | _ => True

/--
How far a call has got: `base` is what the engine had been given when it started. A suspended
`send` has given the engine the first `bytesConsumed` bytes of its buffer.
-/
def Pc.Complete (base : Bytes) (e : Engine σ) : Pc → Prop
  | .suspended (.send buf _) (.sendRaw _ _ bytesConsumed _ _) =>
    0 < bytesConsumed ∧ bytesConsumed ≤ buf.length ∧
      e.encrypted = base ++ buf.take bytesConsumed
  | .returned _ (.handshake none) => e.writeBio = []
  | .returned (.send buf _) (.sent n) =>
    buf ≠ [] → buf.length < 2 ^ 31 →
      n = buf.length ∧ e.encrypted = base ++ buf ∧ e.writeBio = []
  | _ => True

theorem Call.Allows.recv_complete {len : Nat} {flag : Int} {progress : Progress} (base : Bytes)
    (e : Engine σ) (allowed : (Call.recv len flag).Allows progress) :
    (progress.pc (.recv len flag)).Complete base e := by
  cases progress with
  | suspended p => cases p <;> trivial
  | done out => cases out <;> trivial

namespace Engine

theorem sslWrite_taken {e : Engine σ} {base buf : Bytes} {n : Nat}
    (taken : e.encrypted = base ++ buf.take n)
    (positive : 0 < (e.sslWrite o (buf.drop n) (toInt32 (buf.length - n))).ret) :
    n + (e.sslWrite o (buf.drop n) (toInt32 (buf.length - n))).ret.toNat ≤ buf.length ∧
      (e.sslWrite o (buf.drop n) (toInt32 (buf.length - n))).engine.encrypted =
        base ++ buf.take (n + (e.sslWrite o (buf.drop n) (toInt32 (buf.length - n))).ret.toNat) := by
  have asked := o.write_ret e.ssl e.readBio (buf.drop n) (toInt32 (buf.length - n))
  have bound := toInt32_le (buf.length - n)
  simp only [sslWrite] at positive ⊢
  refine ⟨by omega, ?_⟩
  rw [taken, List.append_assoc, List.take_add]

end Engine

namespace Stream

variable {o}

theorem LoopTurn.complete {type : HandshakeType} {s : Stream σ} {r : Stream σ × Progress}
    (base : Bytes) (turn : LoopTurn o type s r) :
    (r.2.pc (.handshake type)).Complete base r.1.engine := by
  cases turn with
  | finished status =>
    exact Engine.perform_flushed o (by simp [status])
  | failed | wantRead | unread | wantWrite => trivial

theorem SendRun.complete {base buf : Bytes} {flag : Int} {n : Nat} {s : Stream σ}
    {r : Stream σ × Progress} (run : SendRun o buf flag n s r) (bound : n ≤ buf.length)
    (taken : s.engine.encrypted = base ++ buf.take n) (drained : 0 < n → s.engine.writeBio = []) :
    (r.2.pc (.send buf flag)).Complete base r.1.engine := by
  induction run with
  | finished n s given =>
    intro some small
    have length : 0 < buf.length := List.length_pos_iff.mpr some
    obtain rfl : n = buf.length := by omega
    exact ⟨toInt32_of_lt small, by simpa using taken, drained length⟩
  | threw => trivial
  | again n s res r more writes written empty rest ih =>
    subst writes
    have next := Engine.sslWrite_taken o taken written
    exact ih next.1 next.2 fun _ => empty
  | chunk n s res more writes written pending =>
    subst writes
    have next := Engine.sslWrite_taken o taken written
    exact ⟨by omega, next.1, next.2⟩

variable (o)

theorem start_complete (s : Stream σ) (c : Call) :
    ((s.start o c).2.pc c).Complete s.engine.encrypted (s.start o c).1.engine := by
  cases c with
  | handshake type => exact (handshakeLoop_turn o type _).complete _
  | send buf flag => exact (s.sendLoop_run o buf flag 0).complete (by omega) (by simp) (by omega)
  | recv len flag => exact (s.start_allowed o (.recv len flag)).recv_complete _ _

theorem sendSent_complete {base buf writeBuf : Bytes} {flag : Int} {n bytesSent : Nat} {r : Int}
    {s : Stream σ} (accepted : 0 < r)
    (before : (Pc.suspended (.send buf flag) (.sendRaw buf flag n writeBuf bytesSent)).Complete
      base s.engine) :
    ((s.sendSent o buf flag n writeBuf bytesSent r).2.pc (.send buf flag)).Complete base
      (s.sendSent o buf flag n writeBuf bytesSent r).1.engine := by
  obtain ⟨started, bound, taken⟩ := before
  rw [sendSent, if_neg (by omega), sendDrain_eq]
  split_ifs with more drained
  · exact ⟨started, bound, taken⟩
  · exact (s.sendLoop_run o buf flag n).complete bound taken fun _ => drained
  · exact ⟨started, bound, taken⟩

end Stream

namespace Machine

variable {o}

structure Answering (base : Bytes) (m : Solo σ) : Prop where
  proper : m.Proper
  complete : (m.slots ()).Complete base m.stream.engine

theorem start_answering {m m' : Solo σ} {c : Call} (proper : m.Proper)
    (taken : m.step o ((), .call c) = some m') :
    Answering m.stream.engine.encrypted m' where
  proper := step_proper proper taken
  complete := by
    cases step_effect o taken with
    | call c free =>
      rw [settle_slot]
      exact m.stream.start_complete o c

theorem answer_complete {m m' : Solo σ} {base : Bytes} {input : Unit × Input}
    (before : Answering base m) (answer : input.2.isAnswer) (accepts : input.2.Accepts)
    (taken : m.step o input = some m') : (m'.slots ()).Complete base m'.stream.engine := by
  obtain ⟨⟨⟩, input⟩ := input
  have own := before.proper ()
  have complete := before.complete
  cases step_effect o taken with
  | call c free => exact absurd answer id
  | sent r call p offered flag waiting request fits =>
    rw [waiting] at own complete
    rw [settle_slot]
    cases p with
    | handshakeRecv | recvRaw => simp [Suspended.request] at request
    | handshakeSend type buf bytesSent =>
      obtain rfl := Call.suspends_handshakeSend.mp own
      simp only [settle, Stream.resumeSent, Stream.handshakeSent]
      split_ifs
      · trivial
      · trivial
      · exact (Stream.handshakeLoop_turn o type _).complete base
    | sendRaw buf flag' n writeBuf bytesSent =>
      obtain rfl := Call.suspends_sendRaw.mp own
      exact (m.stream.accept offered r).sendSent_complete o accepts complete
  | received r bytes call p len flag waiting request counted fits =>
    rw [waiting] at own
    rw [settle_slot]
    cases p with
    | handshakeSend | sendRaw => simp [Suspended.request] at request
    | handshakeRecv type =>
      obtain rfl := Call.suspends_handshakeRecv.mp own
      simp only [settle, Stream.resumeReceived, Stream.handshakeReceived]
      split_ifs
      · trivial
      · trivial
      · trivial
      · exact (Stream.handshakeLoop_turn o type _).complete base
    | recvRaw len' flag' =>
      have suspends : call.Suspends (.recvRaw len' flag') := own
      obtain rfl := Call.suspends_recvRaw.mp suspends
      exact ((m.stream.obtain bytes).resumeReceived_allowed o r bytes suspends).recv_complete _ _

theorem step_answering {m m' : Solo σ} {base : Bytes} {input : Unit × Input}
    (before : Answering base m) (allowed : input.2.isAnswer ∧ input.2.Accepts)
    (taken : m.step o input = some m') : Answering base m' :=
  ⟨step_proper before.proper taken, answer_complete before allowed.1 allowed.2 taken⟩

theorem run_flowing (contract : o.ErrorContract) {m m' : Solo σ} {inputs : List (Unit × Input)}
    (accepts : ∀ input ∈ inputs, input.2.Accepts)
    (reached : run (step o) m inputs = some m') (start : m.Flowing) : m'.Flowing := by
  have sends : Always (step o) Sends m inputs := by
    refine (always_of_forall accepts m).mono fun s input accepted r call p sent waiting => ?_
    have positive : 0 < r := by simpa [sent, Input.Accepts] using accepted
    cases p <;> simp only [Suspended.goesOn] <;> omega
  exact run_invariant
    (fun _ _ _ flowing allowed => step_flowing flowing allowed fun _ => contract) reached sends
    start

end Machine

/--
When raw sends accept something, a `handshake` that returns success and a `send` of a non-empty
buffer that returns have put all output on the raw stream, and `send` has given the engine exactly
its buffer.
-/
theorem success_completes_output (contract : o.ErrorContract) (ssl : σ)
    (before answers : List (Unit × Input)) (c : Call) (m₀ m : Solo σ)
    (accepts : ∀ input ∈ before ++ answers, input.2.Accepts)
    (waits : ∀ input ∈ answers, input.2.isAnswer)
    (reached : run (Machine.step o) (Machine.fresh ssl) before = some m₀)
    (ended : run (Machine.step o) m₀ (((), .call c) :: answers) = some m) :
    (m.slots () = .returned c (.handshake none) →
      m.stream.engine.writeBio = [] ∧ m.stream.accepted = m.stream.engine.output) ∧
    ∀ buf flag n, c = .send buf flag → buf ≠ [] → buf.length < 2 ^ 31 →
      m.slots () = .returned c (.sent n) →
        n = buf.length ∧
        m.stream.engine.encrypted = m₀.stream.engine.encrypted ++ buf ∧
        m.stream.engine.writeBio = [] ∧ m.stream.accepted = m.stream.engine.output := by
  have proper : m₀.Proper :=
    run_invariant (fun _ _ _ inv _ => Machine.step_proper inv) reached (always_true _ _)
      (Machine.fresh_proper ssl)
  obtain ⟨m₁, started, rest⟩ := run_cons_some ended
  have flowing : m.Flowing := by
    have start : m₀.Flowing :=
      Machine.run_flowing contract (fun input member => accepts input (by simp [member])) reached
        (Machine.fresh_flowing ssl)
    have next : m₁.Flowing := Machine.step_flowing start (fun _ _ _ sent => by cases sent)
      (fun _ => contract) started
    exact Machine.run_flowing contract (fun input member => accepts input (by simp [member])) rest
      next
  have answering : Machine.Answering m₀.stream.engine.encrypted m :=
    run_invariant (fun _ _ _ => Machine.step_answering) rest
      (always_of_forall (fun input member => ⟨waits input member, accepts input (by simp [member])⟩) m₁)
      (Machine.start_answering proper started)
  have emptied (returned : (m.slots ()).free = true) (drained : m.stream.engine.writeBio = []) :
      m.stream.accepted = m.stream.engine.output := by
    have gapFree := (Machine.gapFree_iff returned).mpr flowing.conserved
    simpa [Stream.GapFree, drained] using gapFree
  constructor
  · intro returned
    have drained : m.stream.engine.writeBio = [] := by
      simpa [returned, Pc.Complete] using answering.complete
    exact ⟨drained, emptied (by rw [returned]; rfl) drained⟩
  · rintro buf flag n rfl some small returned
    obtain ⟨whole, taken, drained⟩ : n = buf.length ∧
        m.stream.engine.encrypted = m₀.stream.engine.encrypted ++ buf ∧
        m.stream.engine.writeBio = [] := by
      have done := answering.complete
      rw [returned] at done
      exact done some small
    exact ⟨whole, taken, drained, emptied (by rw [returned]; rfl) drained⟩

theorem success_completes_output_slow :
    ∃ m : Solo RecordState, m.slots () = .returned (.send [7, 8] 0) (.sent 2) ∧
      m.stream.accepted = m.stream.engine.output := by
  have ended : (run (Machine.step Lib.records) (Machine.fresh .established : Solo RecordState)
      [((), .call (.send [7, 8] 0)), ((), .sent 1), ((), .sent 3)]).map (fun m => m.slots ()) =
        some (.returned (.send [7, 8] 0) (.sent 2)) := by decide +kernel
  obtain ⟨m, reached, returned⟩ := Option.map_eq_some_iff.mp ended
  have complete := success_completes_output Lib.records Lib.records_contract .established []
    [((), .sent 1), ((), .sent 3)] (.send [7, 8] 0) (Machine.fresh .established) m
    (by simp [Input.Accepts]) (by simp [Input.isAnswer]) rfl reached
  exact ⟨m, returned, (complete.2 [7, 8] 0 2 rfl (by simp) (by simp) returned).2.2.2⟩

end KkProxy.Ssl
