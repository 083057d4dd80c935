import KkProxy.Ssl.Attempts

set_option autoImplicit false

/-!
# Streams over streams

An `ssl_stream` may be the raw stream of another. The raw send or recv that a coroutine of one
stream waits for is then a call on the stream below it; only the lowest has the raw stream itself.
-/

namespace KkProxy.Ssl

open Runs

def RawRequest.flag : RawRequest → Int
  | .send _ flag => flag
  | .recv _ flag => flag

def RawRequest.receives : RawRequest → Bool
  | .send _ _ => false
  | .recv _ _ => true

def RawRequest.call : RawRequest → Call
  | .send bytes flag => .send bytes flag
  | .recv len flag => .recv len flag

-- The `flag` argument; a handshake has none and stands for 0.
def Call.flag : Call → Int
  | .handshake _ => 0
  | .send _ flag => flag
  | .recv _ flag => flag

/-- A suspended coroutine of the stream at `level`; level 0 is that of the raw stream's user. -/
structure Frame where
  level : Nat
  call : Call
  p : Suspended
deriving DecidableEq, Repr

-- The coroutines `outer` wait for each other and for `frame`, the nearest to the raw stream first.
inductive Chain where
  | free (last : Option Outcome)
  | running (frame : Frame) (outer : List Frame)
deriving DecidableEq, Repr

def root : Frame → List Frame → Frame
  | frame, [] => frame
  | _, next :: outer => root next outer

structure Tower (ι σ : Type) where
  streams : Nat → Stream σ
  chains : ι → Chain

inductive TowerInput where
  | call (level : Nat) (c : Call)
  -- The coroutine that waits calls the stream below it.
  | descend
  | sent (r : Int)
  | received (r : Int) (bytes : Bytes)
deriving DecidableEq, Repr

section Frames

variable {σ : Type} (o : Lib σ)

/-- The awaited call ends with `out`; an exception goes on to the caller. -/
def Frame.resume (frame : Frame) (s : Stream σ) (out : Outcome) : Stream σ × Progress :=
  match out, frame.p.request with
  | .sent r, .send offered _ => (s.accept offered r).resumeSent o r frame.p
  | .received r buf, .recv _ _ =>
    (s.obtain (buf.take r.toNat)).resumeReceived o r (buf.take r.toNat) frame.p
  | out, _ => (s, .done out)

-- A coroutine at `level` has run to `r`; if it has ended, those that wait for it run on.
def ascend : List Frame → (Nat → Stream σ) → Nat → Call → Stream σ × Progress →
    (Nat → Stream σ) × Chain
  | outer, streams, level, call, (s, .suspended p) =>
    (Function.update streams level s, .running ⟨level, call, p⟩ outer)
  | [], streams, level, _, (s, .done out) => (Function.update streams level s, .free (some out))
  | frame :: outer, streams, level, _, (s, .done out) =>
    let streams := Function.update streams level s
    ascend outer streams frame.level frame.call (frame.resume o (streams frame.level) out)

end Frames

namespace Tower

variable {ι σ : Type} [DecidableEq ι] (o : Lib σ)

def fresh (ssl : Nat → σ) : Tower ι σ where
  streams level := .fresh (ssl level)
  chains _ := .free none

def put (t : Tower ι σ) (i : ι) (r : (Nat → Stream σ) × Chain) : Tower ι σ :=
  { streams := r.1, chains := Function.update t.chains i r.2 }

def step (t : Tower ι σ) : ι × TowerInput → Option (Tower ι σ)
  | (i, .call level c) =>
    match t.chains i with
    | .free _ => some (t.put i (ascend o [] t.streams level c ((t.streams level).start o c)))
    | .running _ _ => none
  | (i, .descend) =>
    match t.chains i with
    | .running ⟨level + 1, call, p⟩ outer =>
      some (t.put i (ascend o (⟨level + 1, call, p⟩ :: outer) t.streams level p.request.call
        ((t.streams level).start o p.request.call)))
    | _ => none
  | (i, .sent r) =>
    match t.chains i with
    | .running ⟨0, call, p⟩ outer =>
      match p.request with
      | .send offered _ =>
        if r ≤ offered.length then
          some (t.put i (ascend o outer t.streams 0 call
            (Frame.resume o ⟨0, call, p⟩ (t.streams 0) (.sent r))))
        else none
      | .recv _ _ => none
    | _ => none
  | (i, .received r bytes) =>
    match t.chains i with
    | .running ⟨0, call, p⟩ outer =>
      match p.request with
      | .recv len _ =>
        if bytes.length = r.toNat ∧ bytes.length ≤ len then
          some (t.put i (ascend o outer t.streams 0 call
            (Frame.resume o ⟨0, call, p⟩ (t.streams 0) (.received r bytes))))
        else none
      | .send _ _ => none
    | _ => none

end Tower

def Linked : Frame → List Frame → Prop
  | frame, [] => frame.call.Suspends frame.p
  | frame, next :: outer =>
    frame.call.Suspends frame.p ∧ frame.call = next.p.request.call ∧ Linked next outer

def Call.Under (c : Call) : List Frame → Prop
  | [] => True
  | next :: outer => c = next.p.request.call ∧ Linked next outer

def Chain.Linked : Chain → Prop
  | .free _ => True
  | .running frame outer => KkProxy.Ssl.Linked frame outer

theorem linked_iff {frame : Frame} {outer : List Frame} :
    Linked frame outer ↔ frame.call.Suspends frame.p ∧ frame.call.Under outer := by
  cases outer with
  | nil => simp [Linked, Call.Under]
  | cons next outer => rfl

theorem Call.Suspends.request {q : RawRequest} {p : Suspended} (suspends : q.call.Suspends p) :
    p.request.flag = q.flag ∧ p.request.receives = q.receives := by
  cases q with
  | send bytes flag =>
    cases p with
    | handshakeRecv | handshakeSend | recvRaw => exact absurd suspends id
    | sendRaw => exact ⟨suspends.2, rfl⟩
  | recv len flag =>
    cases p with
    | handshakeRecv | handshakeSend | sendRaw => exact absurd suspends id
    | recvRaw => exact ⟨suspends.2, rfl⟩

theorem Linked.root {frame : Frame} {outer : List Frame} (linked : Linked frame outer) :
    (root frame outer).call.Suspends (root frame outer).p ∧
      frame.p.request.flag = (root frame outer).p.request.flag ∧
      frame.p.request.receives = (root frame outer).p.request.receives := by
  induction outer generalizing frame with
  | nil => exact ⟨linked, rfl, rfl⟩
  | cons next outer ih =>
    obtain ⟨suspends, called, rest⟩ := linked
    obtain ⟨suspended, flag, receives⟩ := ih rest
    obtain ⟨flag', receives'⟩ := (called ▸ suspends).request
    exact ⟨suspended, flag'.trans flag, receives'.trans receives⟩

-- The one request with a flag that is not its call's.
theorem Call.Suspends.flag_iff {c : Call} {p : Suspended} (suspends : c.Suspends p) :
    p.request.flag = c.flag ↔ ¬ (p.request.receives = true ∧ ∃ type, c = .handshake type) := by
  cases p with
  | handshakeRecv type =>
    obtain rfl := Call.suspends_handshakeRecv.mp suspends
    simp [Suspended.request, RawRequest.flag, RawRequest.receives, Call.flag, localBuf]
  | handshakeSend type buf bytesSent =>
    obtain rfl := Call.suspends_handshakeSend.mp suspends
    simp [Suspended.request, RawRequest.flag, RawRequest.receives, Call.flag]
  | sendRaw buf flag n writeBuf bytesSent =>
    obtain rfl := Call.suspends_sendRaw.mp suspends
    simp [Suspended.request, RawRequest.flag, Call.flag]
  | recvRaw len flag =>
    obtain rfl := Call.suspends_recvRaw.mp suspends
    simp [Suspended.request, RawRequest.flag, Call.flag]

section Ascend

variable {σ : Type} (o : Lib σ)

theorem Frame.resume_suspends (frame : Frame) (s : Stream σ) (out : Outcome)
    (suspends : frame.call.Suspends frame.p) (p : Suspended)
    (waits : (frame.resume o s out).2 = .suspended p) : frame.call.Suspends p := by
  unfold Frame.resume at waits
  split at waits
  next r offered flag request =>
    have allowed := (s.accept offered r).resumeSent_allowed o r suspends
    rw [waits] at allowed
    exact allowed
  next r buf len flag request =>
    have allowed := (s.obtain (buf.take r.toNat)).resumeReceived_allowed o r (buf.take r.toNat) suspends
    rw [waits] at allowed
    exact allowed
  next => cases waits

theorem ascend_linked {outer : List Frame} (streams : Nat → Stream σ) (level : Nat) {c : Call}
    {r : Stream σ × Progress} (suspends : ∀ p, r.2 = .suspended p → c.Suspends p)
    (under : c.Under outer) : (ascend o outer streams level c r).2.Linked := by
  obtain ⟨s, progress⟩ := r
  induction outer generalizing streams level c s progress with
  | nil =>
    cases progress with
    | suspended p => exact linked_iff.mpr ⟨suspends p rfl, under⟩
    | done out => trivial
  | cons frame outer ih =>
    cases progress with
    | suspended p => exact linked_iff.mpr ⟨suspends p rfl, under⟩
    | done out =>
      obtain ⟨waiting, under'⟩ := linked_iff.mp under.2
      exact ih _ _ under' _ _ (frame.resume_suspends o _ out waiting)

end Ascend

namespace Tower

variable {ι σ : Type} [DecidableEq ι] {o : Lib σ}

def Linked (t : Tower ι σ) : Prop := ∀ i, (t.chains i).Linked

/-- What the raw stream is asked for has the flag of the call made from outside. -/
def FlagsKept (t : Tower ι σ) : Prop :=
  ∀ i frame outer, t.chains i = .running frame outer → frame.level = 0 →
    frame.p.request.flag = (root frame outer).call.flag

def Receives (t : Tower ι σ) : Prop :=
  ∃ i frame outer type, t.chains i = .running frame outer ∧ frame.level = 0 ∧
    frame.p.request.receives = true ∧ (root frame outer).call = .handshake type

theorem step_ascends {t t' : Tower ι σ} {i : ι} {input : TowerInput} (linked : t.Linked)
    (taken : t.step o (i, input) = some t') :
    ∃ outer level c r, t' = t.put i (ascend o outer t.streams level c r) ∧
      (∀ p, r.2 = .suspended p → c.Suspends p) ∧ c.Under outer := by
  have starts (s : Stream σ) (c : Call) (p : Suspended) (waits : (s.start o c).2 = .suspended p) :
      c.Suspends p := by
    have allowed := s.start_allowed o c
    rw [waits] at allowed
    exact allowed
  have resumes {frame : Frame} {outer : List Frame} (running : t.chains i = .running frame outer) :
      (∀ s out p, (frame.resume o s out).2 = .suspended p → frame.call.Suspends p) ∧
        frame.call.Under outer := by
    have own := linked i
    rw [running] at own
    obtain ⟨suspends, under⟩ := linked_iff.mp own
    exact ⟨fun s out => frame.resume_suspends o s out suspends, under⟩
  cases input with
  | call level c =>
    simp only [step] at taken
    split at taken
    · obtain rfl := Option.some.inj taken
      exact ⟨[], level, c, _, rfl, starts _ c, trivial⟩
    · cases taken
  | descend =>
    simp only [step] at taken
    split at taken
    next level call p outer running =>
      obtain rfl := Option.some.inj taken
      have own := linked i
      rw [running] at own
      exact ⟨_, level, _, _, rfl, starts _ _, rfl, own⟩
    next => cases taken
  | sent r =>
    simp only [step] at taken
    split at taken
    next call p outer running =>
      obtain ⟨suspends, under⟩ := resumes running
      split at taken
      next offered flag request =>
        split_ifs at taken
        obtain rfl := Option.some.inj taken
        exact ⟨outer, 0, call, _, rfl, suspends _ _, under⟩
      next => cases taken
    next => cases taken
  | received r bytes =>
    simp only [step] at taken
    split at taken
    next call p outer running =>
      obtain ⟨suspends, under⟩ := resumes running
      split at taken
      next len flag request =>
        split_ifs at taken
        obtain rfl := Option.some.inj taken
        exact ⟨outer, 0, call, _, rfl, suspends _ _, under⟩
      next => cases taken
    next => cases taken

theorem step_linked {t t' : Tower ι σ} {input : ι × TowerInput} (linked : t.Linked)
    (taken : t.step o input = some t') : t'.Linked := by
  obtain ⟨i, input⟩ := input
  obtain ⟨outer, level, c, r, rfl, suspends, under⟩ := step_ascends linked taken
  intro j
  by_cases own : j = i
  · subst own
    simp only [put, Function.update_self]
    exact ascend_linked o t.streams level suspends under
  · simpa [put, own] using linked j

omit [DecidableEq ι] in
theorem Linked.flagsKept_iff {t : Tower ι σ} (linked : t.Linked) :
    t.FlagsKept ↔ ¬ t.Receives := by
  have flag_iff {i : ι} {frame : Frame} {outer : List Frame}
      (running : t.chains i = .running frame outer) :
      frame.p.request.flag = (root frame outer).call.flag ↔
        ¬ (frame.p.request.receives = true ∧
          ∃ type, (root frame outer).call = .handshake type) := by
    have own := linked i
    rw [running] at own
    obtain ⟨suspends, flag, receives⟩ := KkProxy.Ssl.Linked.root own
    rw [flag, receives]
    exact suspends.flag_iff
  constructor
  · rintro kept ⟨i, frame, outer, type, running, lowest, receives, handshake⟩
    exact (flag_iff running).mp (kept i frame outer running lowest) ⟨receives, type, handshake⟩
  · intro none i frame outer running lowest
    refine (flag_iff running).mpr ?_
    rintro ⟨receives, type, handshake⟩
    exact none ⟨i, frame, outer, type, running, lowest, receives, handshake⟩

end Tower

/--
In a run of calls on streams over streams, each request made to the raw stream has the flag of the
call that caused it, or 0 if that is a handshake, exactly when no handshake ever waits for the raw
stream to receive.
-/
theorem flags_kept_iff {ι σ : Type} [DecidableEq ι] (o : Lib σ) (ssl : Nat → σ)
    (inputs : List (ι × TowerInput)) :
    (∀ t : Tower ι σ, Visits (Tower.step o) (.fresh ssl) inputs t → t.FlagsKept) ↔
      ∀ t : Tower ι σ, Visits (Tower.step o) (.fresh ssl) inputs t → ¬ t.Receives := by
  refine forall₂_congr fun t visited => ?_
  have linked : t.Linked :=
    visits_invariant (fun _ _ _ before _ taken => Tower.step_linked before taken) visited
      (always_true _ _) fun _ => trivial
  exact linked.flagsKept_iff

example : (run (Tower.step Lib.records) (.fresh fun _ => .established : Tower Unit RecordState)
    [((), .call 1 (.send [7] 5)), ((), .descend)]).map (fun t => t.chains ()) =
      some (.running ⟨0, .send [0, 7] 5, .sendRaw [0, 7] 5 2 [0, 0, 0, 7] 0⟩
        [⟨1, .send [7] 5, .sendRaw [7] 5 1 [0, 7] 0⟩]) := by decide +kernel

-- A client has sent its first message and waits for the answer, with a buffer of 4096 bytes.
theorem handshake_receives_with_flag :
    ¬ ∀ inputs : List (Unit × TowerInput), ∀ t : Tower Unit GreetState,
      Visits (Tower.step Lib.greeting) (.fresh fun _ => .silent) inputs t → t.FlagsKept := by
  intro claim
  have ended : (run (Tower.step Lib.greeting) (.fresh fun _ => .silent : Tower Unit GreetState)
      [((), .call 0 (.handshake .client)), ((), .sent 3)]).map (fun t => t.chains ()) =
        some (.running ⟨0, .handshake .client, .handshakeRecv .client⟩ []) := by decide +kernel
  obtain ⟨t, reached, running⟩ := Option.map_eq_some_iff.mp ended
  exact absurd (claim _ t (visits_end reached) () _ _ running rfl) (by decide)

end KkProxy.Ssl
