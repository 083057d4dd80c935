import KkProxy.Ssl.Attempts
import KkProxy.Ssl.Complete
import KkProxy.Ssl.ErrorQueue
import KkProxy.Ssl.Waiting

set_option autoImplicit false

/-!
# What a handshake returns

`perform` hides the result of a call behind the output the call has left; the handshake learns it
from the next call, when the output has been sent.
-/

namespace KkProxy.Ssl

open Runs

variable {σ : Type} {o : Lib σ} {failed : σ → Prop}

/-- After a fatal failure an engine stays failed; one that has finished reports success again. -/
structure Lib.HandshakeContract (o : Lib σ) (failed : σ → Prop) : Prop where
  none_iff : ∀ ssl queue ret, o.getError ssl queue ret = .none ↔ 0 < ret
  finished : o.FinishedContract
  fails : ∀ type ssl bio,
    o.getError (o.handshake type ssl bio).ssl (o.handshake type ssl bio).errors
      (o.handshake type ssl bio).ret ∉ [.none, .wantRead, .wantWrite] →
    failed (o.handshake type ssl bio).ssl
  stays : ∀ type ssl bio, failed ssl →
    (o.handshake type ssl bio).ret ≤ 0 ∧ (o.handshake type ssl bio).output = [] ∧
      failed (o.handshake type ssl bio).ssl
  wants : ∀ ssl queue ret, failed ssl → ret ≤ 0 →
    o.getError ssl queue ret ∉ [.wantRead, .wantWrite]

namespace Engine

variable {type : HandshakeType} {e : Engine σ}

structure Failed (o : Lib σ) (failed : σ → Prop) (type : HandshakeType) (e : Engine σ) : Prop where
  ssl : failed (e.perform o (handshakeOp o type)).2.ssl
  ret : (e.attempt o type).ret ≤ 0

theorem perform_ssl (o : Lib σ) (type : HandshakeType) (e : Engine σ) :
    (e.perform o (handshakeOp o type)).2.ssl = (o.handshake type e.ssl e.readBio).ssl := by
  rw [perform_eq, handshakeOp_eq]
  rfl

theorem attempt_error (o : Lib σ) (type : HandshakeType) (e : Engine σ) :
    (e.attempt o type).error = o.getError (o.handshake type e.ssl e.readBio).ssl
      ((if o.initFinished e.ssl then e.errors else []) ++
        (o.handshake type e.ssl e.readBio).errors) (o.handshake type e.ssl e.readBio).ret := by
  simp only [attempt, handshakeOp_eq, absorb]

theorem attempt_status (o : Lib σ) (type : HandshakeType) (e : Engine σ) :
    (e.attempt o type).status =
      getSslStatus o (e.perform o (handshakeOp o type)).2 (e.attempt o type).ret := by
  rw [perform_eq]
  rfl

theorem failed_of_fatal (contract : o.HandshakeContract failed)
    (fatal : (e.attempt o type).Fatal) : e.Failed o failed type := by
  have ret : (e.attempt o type).ret ≤ 0 := by
    by_contra positive
    have none : (e.attempt o type).error = .none := by
      rw [attempt_error, contract.none_iff]
      exact not_le.mp positive
    exact fatal (by simp [none])
  have unfinished : o.initFinished e.ssl = false := by
    by_contra done
    have positive := contract.finished e.ssl e.readBio (Bool.not_eq_false _ ▸ done)
    have success : 0 < (e.attempt o type).ret := by
      cases type with
      | client => exact positive.1
      | server => exact positive.2
    omega
  refine ⟨?_, ret⟩
  rw [perform_ssl]
  apply contract.fails
  simpa [Attempt.Fatal, attempt_error, unfinished] using fatal

theorem failed_again (contract : o.HandshakeContract failed) (before : failed e.ssl) :
    e.Failed o failed type ∧ (e.attempt o type).output = [] := by
  obtain ⟨ret, output, after⟩ := contract.stays type e.ssl e.readBio before
  exact ⟨⟨perform_ssl o type e ▸ after, ret⟩, output⟩

theorem Failed.fails (contract : o.HandshakeContract failed) (after : e.Failed o failed type) :
    (e.attempt o type).Fails := by
  have want := contract.wants _ (e.perform o (handshakeOp o type)).2.errors _ after.ssl after.ret
  have none : o.getError (e.perform o (handshakeOp o type)).2.ssl
      (e.perform o (handshakeOp o type)).2.errors (e.attempt o type).ret ≠ .none := by
    rw [Ne, contract.none_iff]
    exact not_lt.mpr after.ret
  right
  rw [attempt_status]
  unfold getSslStatus
  cases error : o.getError (e.perform o (handshakeOp o type)).2.ssl
      (e.perform o (handshakeOp o type)).2.errors (e.attempt o type).ret <;> simp_all

theorem completed_of_ok (contract : o.HandshakeContract failed)
    (ok : (e.perform o (handshakeOp o type)).1 = .ok) : (e.attempt o type).Completed := by
  have status : (e.attempt o type).status = .ok := by
    rw [perform_attempt] at ok
    split_ifs at ok
    exact ok
  rw [attempt_status] at status
  have none : o.getError (e.perform o (handshakeOp o type)).2.ssl
      (e.perform o (handshakeOp o type)).2.errors (e.attempt o type).ret = .none := by
    unfold getSslStatus at status
    split at status <;> first | assumption | cases status
  rw [Attempt.Completed, attempt_error, contract.none_iff]
  exact (contract.none_iff ..).mp none

end Engine

-- What a handshake may do once the engine has failed; `clean` stands for raw sends that do not fail.
def Pc.Failing (clean : Prop) (e : Engine σ) : Pc → Prop
  | .suspended _ (.handshakeSend _ _ _) => True
  | .returned _ (.handshake (some _)) => clean → e.writeBio = []
  | _ => False

namespace Stream

variable {type : HandshakeType} {s : Stream σ} {r : Stream σ × Progress}

theorem LoopTurn.output (turn : LoopTurn o type s r) :
    r.1.engine.output = s.engine.output ++ (s.engine.attempt o type).output := by
  rw [← Engine.perform_output]
  exact turn.performed.2

theorem LoopTurn.outgoing (turn : LoopTurn o type s r) :
    r.1.accepted ++ r.2.loaded ++ r.1.engine.writeBio =
      s.accepted ++ s.engine.writeBio ++ (s.engine.attempt o type).output := by
  obtain ⟨items, made, kept⟩ := turn.flows.moves.net
  have made : r.1.engine.output = s.engine.output ++ items := made
  obtain rfl : (s.engine.attempt o type).output = items :=
    List.append_cancel_left (turn.output.symm.trans made)
  simpa [conveyor, Engine.conveyor] using kept

theorem LoopTurn.succeeded (contract : o.HandshakeContract failed) (turn : LoopTurn o type s r)
    (success : r.2 = .done (.handshake none)) :
    (s.engine.attempt o type).Completed ∧ r.1.engine.writeBio = [] := by
  cases turn with
  | finished status =>
    exact ⟨Engine.completed_of_ok contract status, Engine.perform_flushed o (by simp [status])⟩
  | failed | unread => cases success
  | wantRead | wantWrite => cases success

theorem LoopTurn.failing (contract : o.HandshakeContract failed) (turn : LoopTurn o type s r)
    (after : s.engine.Failed o failed type) (clean : Prop) (c : Call) :
    (r.2.pc c).Failing clean r.1.engine := by
  have failure := Engine.perform_failed_iff o s.engine type
  have status := Engine.perform_attempt o s.engine type
  by_cases pending : s.engine.writeBio ++ (s.engine.attempt o type).output = []
  · have ended := failure.mpr ⟨after.fails contract, pending⟩
    cases turn with
    | failed status => exact fun _ => Engine.perform_flushed o (by rintro same; simp [same] at status)
    | finished status | wantRead status | unread _ status | wantWrite _ status => simp [status] at ended
  · rw [if_pos pending] at status
    cases turn with
    | wantWrite => trivial
    | unread read _ reads empty =>
      subst reads
      have some : 0 < (s.engine.perform o (Engine.handshakeOp o type)).2.writePending := by
        rw [Engine.writePending, Engine.perform_writeBio]
        exact List.length_pos_iff.mpr pending
      exact absurd (Engine.read_pending some (by decide)) (not_lt.mpr empty)
    | finished status' | wantRead status' => simp [status'] at status
    | failed status' => simp [status] at status'

end Stream

namespace Machine

def Errored (type : HandshakeType) (m : Solo σ) : Prop :=
  ∃ error, m.slots () = .returned (.handshake type) (.handshake (some error))

structure Handshaking (failed : σ → Prop) (type : HandshakeType) (base : Bytes) (clean : Prop)
    (w : Logged Unit σ) : Prop where
  proper : w.1.Proper
  call : (w.1.slots ()).call? = some (.handshake type)
  outgoing : clean ∨ ¬ w.1.Errored type →
    w.1.stream.accepted ++ (w.1.slots ()).loaded ++ w.1.stream.engine.writeBio =
      base ++ (w.2 ()).flatMap Attempt.output
  success : w.1.slots () = .returned (.handshake type) (.handshake none) →
    (∃ a, (w.2 ()).getLast? = some a ∧ a.Completed) ∧ w.1.stream.engine.writeBio = []
  fatal : (∃ a ∈ w.2 (), a.Fatal) →
    failed w.1.stream.engine.ssl ∧ (w.1.slots ()).Failing clean w.1.stream.engine

theorem settle_proper_solo (m : Solo σ) {c : Call} {r : Stream σ × Progress}
    (allowed : c.Allows r.2) : (m.settle () c r).Proper := by
  rintro ⟨⟩
  rw [settle_slot]
  exact Progress.pc_proper allowed

theorem turn_handshaking (contract : o.HandshakeContract failed) (m : Solo σ)
    {type : HandshakeType} {base : Bytes} {clean : Prop} {s : Stream σ}
    {result : Stream σ × Progress} {log : Unit → List Attempt} (earlier : List Attempt)
    (turn : s.LoopTurn o type result) (log_eq : log () = earlier ++ [s.engine.attempt o type])
    (outgoing : s.accepted ++ s.engine.writeBio = base ++ earlier.flatMap Attempt.output)
    (stays : (∃ a ∈ earlier, a.Fatal) → failed s.engine.ssl) :
    Handshaking failed type base clean (m.settle () (.handshake type) result, log) where
  proper := settle_proper_solo m turn.allowed
  call := settle_call ..
  outgoing _ := by
    have loaded : ((m.settle () (.handshake type) result).slots ()).loaded = result.2.loaded := by
      rw [settle_slot]
      cases result.2 <;> rfl
    rw [loaded]
    change result.1.accepted ++ result.2.loaded ++ result.1.engine.writeBio = _
    dsimp only
    rw [turn.outgoing, outgoing, log_eq, List.flatMap_append, List.append_assoc]
    simp
  success returned := by
    rw [settle_slot, Progress.pc_returned] at returned
    obtain ⟨completed, flushed⟩ := turn.succeeded contract returned.2
    exact ⟨⟨_, by simp [log_eq], completed⟩, flushed⟩
  fatal := by
    rintro ⟨a, member, fatal⟩
    have after : s.engine.Failed o failed type := by
      dsimp only at member
      rw [log_eq, List.mem_append, List.mem_singleton] at member
      obtain old | rfl := member
      · exact (Engine.failed_again contract (stays ⟨a, old, fatal⟩)).1
      · exact Engine.failed_of_fatal contract fatal
    refine ⟨turn.performed.1 ▸ after.ssl, ?_⟩
    rw [settle_slot]
    exact turn.failing contract after clean _

theorem start_handshaking (contract : o.HandshakeContract failed) {w w' : Logged Unit σ}
    {type : HandshakeType} (clean : Prop)
    (taken : logging o w ((), .call (.handshake type)) = some w') :
    Handshaking failed type (w.1.stream.accepted ++ w.1.stream.engine.writeBio) clean w' := by
  obtain ⟨m, log⟩ := w
  obtain ⟨m', moved, rfl⟩ := watching_some taken
  cases step_effect o moved with
  | call c free =>
    have turn := Stream.handshakeLoop_turn o type
      { m.stream with engine := m.stream.engine.setState o type }
    refine turn_handshaking contract m [] turn ?_ ?_ ?_
    · simp [note, attempt?]
    · simp [Engine.setState]
    · simp

theorem end_handshaking {w : Logged Unit σ} {type : HandshakeType} {base : Bytes} {clean : Prop}
    (before : Handshaking failed type base clean w) {s : Stream σ} (error : ErrorCode)
    (same : s.engine = w.1.stream.engine)
    (outgoing : clean → s.accepted ++ s.engine.writeBio = base ++ (w.2 ()).flatMap Attempt.output)
    (flushed : clean → (∃ a ∈ w.2 (), a.Fatal) → s.engine.writeBio = []) :
    Handshaking failed type base clean
      (w.1.settle () (.handshake type) (s, .done (.handshake (some error))), w.2) where
  proper := settle_proper_solo _ trivial
  call := settle_call ..
  outgoing kept := by
    have slot := w.1.settle_slot () (.handshake type) (s, .done (.handshake (some error)))
    obtain intact | unerrored := kept
    · dsimp only
      rw [slot]
      change s.accepted ++ [] ++ s.engine.writeBio = _
      rw [List.append_nil, outgoing intact]
    · exact absurd ⟨error, slot⟩ unerrored
  success returned := by
    rw [settle_slot] at returned
    cases returned
  fatal fatal := by
    refine ⟨same ▸ (before.fatal fatal).1, ?_⟩
    rw [settle_slot]
    exact fun intact => flushed intact fatal

theorem Handshaking.outgoing_of_suspended {w : Logged Unit σ} {type : HandshakeType} {base : Bytes}
    {clean : Prop} (before : Handshaking failed type base clean w) {c : Call} {p : Suspended}
    (waiting : w.1.slots () = .suspended c p) :
    w.1.stream.accepted ++ p.loaded ++ w.1.stream.engine.writeBio =
      base ++ (w.2 ()).flatMap Attempt.output := by
  have outgoing := before.outgoing (.inr fun ⟨error, returned⟩ => by simp [waiting] at returned)
  rwa [waiting] at outgoing

theorem Handshaking.outgoing_of_waiting {w : Logged Unit σ} {type : HandshakeType} {base : Bytes}
    {clean : Prop} (before : Handshaking failed type base clean w) {c : Call}
    {type' : HandshakeType} (waiting : w.1.slots () = .suspended c (.handshakeRecv type')) :
    w.1.stream.accepted ++ w.1.stream.engine.writeBio =
      base ++ (w.2 ()).flatMap Attempt.output := by
  simpa [Suspended.loaded] using before.outgoing_of_suspended waiting

theorem Handshaking.not_fatal_of_waiting {w : Logged Unit σ} {type : HandshakeType} {base : Bytes}
    {clean : Prop} (before : Handshaking failed type base clean w) {c : Call}
    {type' : HandshakeType} (waiting : w.1.slots () = .suspended c (.handshakeRecv type')) :
    ¬ ∃ a ∈ w.2 (), a.Fatal := by
  intro fatal
  have failing := (before.fatal fatal).2
  rw [waiting] at failing
  exact failing

theorem resend_handshaking {w : Logged Unit σ} {type : HandshakeType} {base : Bytes} {clean : Prop}
    (before : Handshaking failed type base clean w) {c : Call} {buf : Bytes} {n : Nat}
    (waiting : w.1.slots () = .suspended c (.handshakeSend type buf n)) (r : Int) :
    Handshaking failed type base clean
      (w.1.settle () (.handshake type)
        (w.1.stream.accept (buf.drop n) r, .suspended (.handshakeSend type buf (n + r.toNat))),
        w.2) := by
  have slot := w.1.settle_slot () (.handshake type)
    (w.1.stream.accept (buf.drop n) r, .suspended (.handshakeSend type buf (n + r.toNat)))
  refine ⟨settle_proper_solo _ rfl, settle_call .., fun _ => ?_, fun returned => ?_, fun fatal => ?_⟩
  · have outgoing : w.1.stream.accepted ++ buf.drop n ++ w.1.stream.engine.writeBio = _ :=
      before.outgoing_of_suspended waiting
    dsimp only
    rw [slot, ← outgoing]
    change w.1.stream.accepted ++ (buf.drop n).take r.toNat ++ buf.drop (n + r.toNat) ++ _ = _
    rw [← List.drop_drop, List.append_assoc w.1.stream.accepted, List.take_append_drop]
    rfl
  · rw [slot] at returned
    cases returned
  · refine ⟨(before.fatal fatal).1, ?_⟩
    rw [slot]
    trivial

theorem step_handshaking (contract : o.HandshakeContract failed) {w w' : Logged Unit σ}
    {input : Unit × Input} {type : HandshakeType} {base : Bytes} {clean : Prop}
    (before : Handshaking failed type base clean w)
    (allowed : input.2.isAnswer ∧ (clean → ∀ r, input.2 = .sent r → 0 ≤ r))
    (taken : logging o w input = some w') : Handshaking failed type base clean w' := by
  obtain ⟨m, log⟩ := w
  obtain ⟨⟨⟩, input⟩ := input
  obtain ⟨answer, nonnegative⟩ := allowed
  obtain ⟨m', moved, rfl⟩ := watching_some taken
  have own : (m'.slots ()).call? = some (.handshake type) := by
    have call : (m.slots ()).call? = some (.handshake type) := before.call
    cases step_effect o moved with
    | call c free => exact absurd answer id
    | sent r c p offered flag waiting | received r bytes c p len flag waiting =>
      rw [waiting] at call
      obtain rfl := Option.some.inj call
      exact settle_call ..
  have step := step_handshake before.proper moved own
  have logged : note o m ((), input) m' log () = log () ++ (m.attempt? o ((), input)).toList := by
    cases input with
    | call c => exact absurd answer id
    | sent | received => simp [note]
  dsimp only at step ⊢
  generalize m.attempt? o ((), input) = a at step logged
  generalize note o m ((), input) m' log = log' at logged ⊢
  have unchanged (none : a = none) : log' = log := by
    funext
    simpa [none] using logged
  cases step with
  | start => exact absurd answer id
  | sendFailed r buf n waiting negative =>
    obtain rfl := unchanged rfl
    have dirty : ¬ clean := fun intact => by
      have accepts := nonnegative intact r rfl
      omega
    exact end_handshaking before _ rfl (fun intact => absurd intact dirty)
      (fun intact => absurd intact dirty)
  | resend r buf n waiting accepts more =>
    obtain rfl := unchanged rfl
    exact resend_handshaking before waiting r
  | sent r buf n waiting accepts whole =>
    have outgoing := before.outgoing_of_suspended waiting
    have all : (buf.drop n).take r.toNat = buf.drop n :=
      List.take_of_length_le (by rw [List.length_drop]; omega)
    have turn := Stream.handshakeLoop_turn o type (m.stream.accept (buf.drop n) r)
    refine turn_handshaking contract m _ turn logged ?_ fun fatal => (before.fatal fatal).1
    change m.stream.accepted ++ (buf.drop n).take r.toNat ++ m.stream.engine.writeBio = _
    rw [all]
    exact outgoing
  | endOfFile bytes waiting | recvFailed r bytes waiting negative =>
    obtain rfl := unchanged rfl
    exact end_handshaking before _ rfl (fun _ => before.outgoing_of_waiting waiting)
      (fun _ fatal => absurd fatal (before.not_fatal_of_waiting waiting))
  | received r bytes waiting positive =>
    have turn := Stream.handshakeLoop_turn o type
      { m.stream.obtain bytes with engine := m.stream.engine.feed bytes }
    exact turn_handshaking contract m _ turn logged (before.outgoing_of_waiting waiting)
      fun fatal => (before.fatal fatal).1

theorem Handshaking.flushed {w : Logged Unit σ} {type : HandshakeType} {base : Bytes}
    {clean : Prop} (handshaking : Handshaking failed type base clean w)
    (free : (w.1.slots ()).free = true) (drained : w.1.stream.engine.writeBio = [])
    (kept : clean ∨ ¬ w.1.Errored type) :
    w.1.stream.accepted = base ++ (w.2 ()).flatMap Attempt.output := by
  have outgoing := handshaking.outgoing kept
  have unloaded : (w.1.slots ()).loaded = [] := by
    cases slot : w.1.slots () <;> simp_all [Pc.free, Pc.loaded]
  simpa [unloaded, drained] using outgoing

theorem Handshaking.not_waits {w : Logged Unit σ} {type : HandshakeType} {base : Bytes}
    {clean : Prop} (handshaking : Handshaking failed type base clean w)
    (fatal : ∃ a ∈ w.2 (), a.Fatal) : ¬ (w.1.slots ()).Waits := by
  intro waiting
  have failing := (handshaking.fatal fatal).2
  cases slot : w.1.slots () with
  | idle | returned =>
    rw [slot] at waiting
    exact waiting
  | suspended call p =>
    rw [slot] at failing waiting
    cases p with
    | handshakeSend | sendRaw => exact waiting
    | handshakeRecv | recvRaw => exact failing

theorem run_handshaking (contract : o.HandshakeContract failed) {w w' : Logged Unit σ}
    {type : HandshakeType} {base : Bytes} {answers : List (Unit × Input)} (clean : Prop)
    (start : Handshaking failed type base clean w)
    (waits : ∀ input ∈ answers, input.2.isAnswer)
    (nonnegative : clean → ∀ r, ((), .sent r) ∈ answers → 0 ≤ r)
    (reached : run (logging o) w answers = some w') : Handshaking failed type base clean w' := by
  refine run_invariant (fun _ _ _ => step_handshaking contract) reached
    (always_of_forall (fun input member => ⟨waits input member, fun intact r sent => ?_⟩) w) start
  obtain ⟨⟨⟩, _⟩ := input
  obtain rfl : _ = Input.sent r := sent
  exact nonnegative intact r member

theorem answers_of_free {w w' : Logged Unit σ} {answers : List (Unit × Input)}
    (free : (w.1.slots ()).free = true) (waits : ∀ input ∈ answers, input.2.isAnswer)
    (reached : run (logging o) w answers = some w') : answers = [] := by
  cases answers with
  | nil => rfl
  | cons input rest =>
    obtain ⟨next, logged, -⟩ := run_cons_some reached
    obtain ⟨m', taken, -⟩ := watching_some logged
    obtain ⟨⟨⟩, input⟩ := input
    cases step_effect o taken with
    | call c _ => exact absurd (waits _ (List.mem_cons_self ..)) id
    | sent _ _ _ _ _ waiting | received _ _ _ _ _ _ waiting => simp [waiting, Pc.free] at free

theorem errored_of_received (contract : o.HandshakeContract failed) {w w' : Logged Unit σ}
    {type : HandshakeType} {base : Bytes} {answers : List (Unit × Input)}
    (start : Handshaking failed type base False w) (waits : ∀ input ∈ answers, input.2.isAnswer)
    {r : Int} {bytes : Bytes} (member : ((), .received r bytes) ∈ answers) (ended : r ≤ 0)
    (reached : run (logging o) w answers = some w') : w'.1.Errored type := by
  obtain ⟨before, after, rfl⟩ := List.append_of_mem member
  have earlier : ∀ input ∈ before, input.2.isAnswer := fun input member =>
    waits input (by simp [member])
  have later : ∀ input ∈ after, input.2.isAnswer := fun input member =>
    waits input (by simp [member])
  rw [run_append] at reached
  obtain ⟨t, first, reached⟩ := Option.bind_eq_some_iff.mp reached
  obtain ⟨t', logged, rest⟩ := run_cons_some reached
  have running := run_handshaking contract False start earlier (fun intact => intact.elim) first
  have answered : Input.isAnswer (.received r bytes) := trivial
  have stopped := step_handshaking contract running ⟨answered, fun intact => intact.elim⟩ logged
  obtain ⟨m', taken, rfl⟩ := watching_some logged
  have step := step_handshake running.proper taken stopped.call
  have errored : m'.Errored type := by
    generalize t.1.attempt? o ((), .received r bytes) = a at step
    cases step with
    | endOfFile _ waiting => exact ⟨_, settle_slot ..⟩
    | recvFailed _ _ waiting negative => exact ⟨_, settle_slot ..⟩
    | received _ _ waiting positive => omega
  obtain ⟨error, returned⟩ := errored
  obtain rfl := answers_of_free (by rw [returned]; rfl) later rest
  obtain rfl := Option.some.inj rest
  exact ⟨error, returned⟩

end Machine

/--
A handshake that returns success has seen its last engine call complete and all output accepted.
Once a call has failed fatally it neither returns success nor waits for the peer, and unless a raw
send fails it has sent all output before it returns the error. An end of file or a failure of raw
`recv` ends it with an error.
-/
theorem handshake_sound (contract : o.HandshakeContract failed) (type : HandshakeType)
    (w₀ w : Machine.Logged Unit σ) (answers : List (Unit × Input))
    (waits : ∀ input ∈ answers, input.2.isAnswer)
    (reached : run (Machine.logging o) w₀ (((), .call (.handshake type)) :: answers) = some w) :
    let pending := w₀.1.stream.accepted ++ w₀.1.stream.engine.writeBio
    let output := (w.2 ()).flatMap Attempt.output
    (w.1.slots () = .returned (.handshake type) (.handshake none) →
      (∃ a, (w.2 ()).getLast? = some a ∧ a.Completed) ∧
      w.1.stream.accepted = pending ++ output) ∧
    ((∃ a ∈ w.2 (), a.Fatal) →
      w.1.slots () ≠ .returned (.handshake type) (.handshake none) ∧ ¬ (w.1.slots ()).Waits ∧
      ((∀ r, ((), .sent r) ∈ answers → 0 ≤ r) → w.1.Errored type →
        w.1.stream.accepted = pending ++ output)) ∧
    ∀ r bytes, ((), .received r bytes) ∈ answers → r ≤ 0 → w.1.Errored type := by
  intro pending output
  obtain ⟨w₁, started, rest⟩ := run_cons_some reached
  have handshaking : Machine.Handshaking failed type pending
      (∀ r, ((), .sent r) ∈ answers → 0 ≤ r) w :=
    Machine.run_handshaking contract _ (Machine.start_handshaking contract _ started) waits id rest
  refine ⟨fun returned => ?_, fun fatal => ⟨fun returned => ?_, fun waiting => ?_, ?_⟩, ?_⟩
  · obtain ⟨completed, drained⟩ := handshaking.success returned
    refine ⟨completed, handshaking.flushed (by rw [returned]; rfl) drained (.inr ?_)⟩
    rintro ⟨error, errored⟩
    rw [returned] at errored
    cases errored
  · have failing := (handshaking.fatal fatal).2
    rw [returned] at failing
    exact failing
  · exact handshaking.not_waits fatal waiting
  · rintro intact ⟨error, errored⟩
    have failing := (handshaking.fatal fatal).2
    rw [errored] at failing
    exact handshaking.flushed (by rw [errored]; rfl) (failing intact) (.inl intact)
  · intro r bytes member ended
    exact Machine.errored_of_received contract (Machine.start_handshaking contract False started)
      waits member ended rest

theorem Lib.greeting_contract : Lib.greeting.HandshakeContract (· = .failed) where
  none_iff ssl queue ret := by
    simp only [greeting]
    split_ifs <;> simp_all
  finished ssl bio done := by
    obtain rfl : ssl = .finished := of_decide_eq_true done
    exact ⟨Int.zero_lt_one, Int.zero_lt_one⟩
  fails type ssl bio fatal := by
    have same : greeting.handshake type ssl bio = greet ssl bio := by cases type <;> rfl
    rw [same] at fatal ⊢
    fun_cases greet ssl bio <;> simp_all [greet, greeting]
  stays type ssl bio := by
    rintro rfl
    cases type <;> exact ⟨show (-1 : Int) ≤ 0 by decide, rfl, rfl⟩
  wants ssl queue ret := by
    rintro rfl failed
    simp only [greeting, if_neg (not_lt.mpr failed)]
    split_ifs <;> simp

-- The peer sends something that the engine answers by an alert.
def alertedGreeting : List (Unit × Input) :=
  [((), .sent 2), ((), .sent 1), ((), .received 1 [1]), ((), .sent 1)]

theorem handshake_sound_alert :
    ∃ w : Machine.Logged Unit GreetState, w.1.Errored .client ∧ w.1.stream.accepted = [22, 3, 1, 21] := by
  have ended : (run (Machine.logging Lib.greeting)
      ((Machine.fresh .silent, fun _ => []) : Machine.Logged Unit GreetState)
      (((), .call (.handshake .client)) :: alertedGreeting)).map
        (fun w => (w.1.slots (), w.2 ())) =
      some (.returned (.handshake .client) (.handshake (some (makeSysError 0))),
        [⟨-1, .wantRead, .wantRead, [22, 3, 1], []⟩, ⟨-1, .wantRead, .wantRead, [], []⟩,
          ⟨-1, .ssl, .errorSyscall, [21], [⟨1, false⟩]⟩,
          ⟨-1, .syscall, .errorSyscall, [], []⟩]) := by decide +kernel
  obtain ⟨w, reached, view⟩ := Option.map_eq_some_iff.mp ended
  obtain ⟨returned, log⟩ := Prod.mk.injEq .. ▸ view
  have sound := handshake_sound Lib.greeting_contract .client (Machine.fresh .silent, fun _ => []) w
    alertedGreeting (by simp [alertedGreeting, Input.isAnswer]) reached
  have errored : w.1.Errored .client := ⟨_, returned⟩
  have sent := (sound.2.1 (by simp [log, Attempt.Fatal])).2.2 (by simp [alertedGreeting]) errored
  refine ⟨w, errored, sent.trans ?_⟩
  rw [log]
  rfl

end KkProxy.Ssl
