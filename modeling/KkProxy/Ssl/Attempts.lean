import KkProxy.Ssl.Flush

set_option autoImplicit false

namespace KkProxy.Ssl

open Runs

variable {ι σ : Type} (o : Lib σ)

def Lib.handshake (type : HandshakeType) (ssl : σ) (bio : Bytes) : Answer σ :=
  match type with
  | .client => o.connect ssl bio
  | .server => o.accept ssl bio

structure Attempt where
  ret : Int
  error : SslError
  -- What `get_ssl_status` says once the error queue is empty.
  status : SslStatus
  output : Bytes
  errors : List ErrEntry
deriving DecidableEq, Repr

def Attempt.Completed (a : Attempt) : Prop := a.error = .none

def Attempt.Fatal (a : Attempt) : Prop := a.error ∉ [.none, .wantRead, .wantWrite]

-- `perform` takes the call for a failure when it leaves no output.
def Attempt.Fails (a : Attempt) : Prop := a.error = .syscall ∨ a.status ∈ [.error, .errorSyscall]

instance (a : Attempt) : Decidable a.Fails :=
  inferInstanceAs (Decidable (a.error = .syscall ∨ a.status ∈ [.error, .errorSyscall]))

namespace Engine

variable (e : Engine σ) (type : HandshakeType)

def attempt : Attempt :=
  let a := o.handshake type e.ssl e.readBio
  let called := (e.handshakeOp o type).2
  { ret := a.ret
    error := o.getError called.ssl called.errors a.ret
    status := getSslStatus o called.errPrintErrors a.ret
    output := a.output
    errors := a.errors }

theorem handshakeOp_eq : e.handshakeOp o type =
    ((o.handshake type e.ssl e.readBio).ret,
      { e with errors := if o.initFinished e.ssl then e.errors else [] }.absorb
        (o.handshake type e.ssl e.readBio)) := by
  cases type <;> rfl

theorem perform_attempt : (e.perform o (handshakeOp o type)).1 =
    if e.writeBio ++ (e.attempt o type).output ≠ [] then .wantWrite
    else if (e.attempt o type).error = .syscall then .error
    else (e.attempt o type).status := by
  rw [perform_eq]
  simp only [attempt, handshakeOp_eq, absorb]

theorem perform_output : (e.perform o (handshakeOp o type)).2.output =
    e.output ++ (e.attempt o type).output := by
  rw [perform_eq, handshakeOp_eq]
  rfl

theorem perform_writeBio : (e.perform o (handshakeOp o type)).2.writeBio =
    e.writeBio ++ (e.attempt o type).output := by
  rw [perform_eq, handshakeOp_eq]
  rfl

theorem perform_failed_iff : (e.perform o (handshakeOp o type)).1 ∈ [.error, .errorSyscall] ↔
    (e.attempt o type).Fails ∧ e.writeBio ++ (e.attempt o type).output = [] := by
  rw [perform_attempt]
  split_ifs with pending syscall
  · simp [pending]
  · simp [Attempt.Fails, syscall, not_not.mp pending]
  · simp [Attempt.Fails, syscall, not_not.mp pending]

end Engine

namespace Machine

variable [DecidableEq ι]

-- The call a step makes; no other step of a handshake makes one.
def attempt? (m : Machine ι σ) : ι × Input → Option Attempt
  | (_, .call (.handshake type)) => some ((m.stream.engine.setState o type).attempt o type)
  | (i, .sent r) =>
    match m.slots i with
    | .suspended _ (.handshakeSend type buf bytesSent) =>
      if 0 ≤ r ∧ buf.length ≤ bytesSent + r.toNat then some (m.stream.engine.attempt o type)
      else none
    | _ => none
  | (i, .received r bytes) =>
    match m.slots i with
    | .suspended _ (.handshakeRecv type) =>
      if 0 < r then some ((m.stream.engine.feed bytes).attempt o type) else none
    | _ => none
  | _ => none

abbrev Logged (ι σ : Type) := Machine ι σ × (ι → List Attempt)

def note (m : Machine ι σ) (input : ι × Input) (_ : Machine ι σ) (log : ι → List Attempt) :
    ι → List Attempt :=
  match input.2 with
  | .call _ => Function.update log input.1 (m.attempt? o input).toList
  | _ => Function.update log input.1 (log input.1 ++ (m.attempt? o input).toList)

def logging : Logged ι σ → ι × Input → Option (Logged ι σ) := watching (step o) (note o)

inductive HandshakeStep (m : Machine ι σ) (i : ι) (type : HandshakeType) :
    Input → Option Attempt → Machine ι σ → Prop where
  | start (free : (m.slots i).free = true) :
    HandshakeStep m i type (.call (.handshake type))
      (some ((m.stream.engine.setState o type).attempt o type))
      (m.settle i (.handshake type) (m.stream.handshake o type))
  | sendFailed (r : Int) (buf : Bytes) (n : Nat)
    (waiting : m.slots i = .suspended (.handshake type) (.handshakeSend type buf n))
    (negative : r < 0) :
    HandshakeStep m i type (.sent r) none
      (m.settle i (.handshake type)
        (m.stream.accept (buf.drop n) r, .done (.handshake (some (makeSysError (-r))))))
  | resend (r : Int) (buf : Bytes) (n : Nat)
    (waiting : m.slots i = .suspended (.handshake type) (.handshakeSend type buf n))
    (accepts : 0 ≤ r) (more : n + r.toNat < buf.length) :
    HandshakeStep m i type (.sent r) none
      (m.settle i (.handshake type)
        (m.stream.accept (buf.drop n) r, .suspended (.handshakeSend type buf (n + r.toNat))))
  | sent (r : Int) (buf : Bytes) (n : Nat)
    (waiting : m.slots i = .suspended (.handshake type) (.handshakeSend type buf n))
    (accepts : 0 ≤ r) (whole : buf.length ≤ n + r.toNat) :
    HandshakeStep m i type (.sent r) (some (m.stream.engine.attempt o type))
      (m.settle i (.handshake type) ((m.stream.accept (buf.drop n) r).handshakeLoop o type))
  | endOfFile (bytes : Bytes)
    (waiting : m.slots i = .suspended (.handshake type) (.handshakeRecv type)) :
    HandshakeStep m i type (.received 0 bytes) none
      (m.settle i (.handshake type) (m.stream.obtain bytes,
        .done (.handshake (some (makeCustomError eSslHandshakeSocketReadEof)))))
  | recvFailed (r : Int) (bytes : Bytes)
    (waiting : m.slots i = .suspended (.handshake type) (.handshakeRecv type))
    (negative : r < 0) :
    HandshakeStep m i type (.received r bytes) none
      (m.settle i (.handshake type)
        (m.stream.obtain bytes, .done (.handshake (some (makeSysError (-r))))))
  | received (r : Int) (bytes : Bytes)
    (waiting : m.slots i = .suspended (.handshake type) (.handshakeRecv type))
    (positive : 0 < r) :
    HandshakeStep m i type (.received r bytes)
      (some ((m.stream.engine.feed bytes).attempt o type))
      (m.settle i (.handshake type)
        ({ m.stream.obtain bytes with engine := m.stream.engine.feed bytes }.handshakeLoop o type))

theorem settle_call (m : Machine ι σ) (i : ι) (c : Call) (r : Stream σ × Progress) :
    ((m.settle i c r).slots i).call? = some c := by
  rw [settle_slot]
  cases r.2 <;> rfl

variable {o}

theorem step_handshake {m m' : Machine ι σ} {i : ι} {input : Input} {type : HandshakeType}
    (proper : m.Proper) (taken : m.step o (i, input) = some m')
    (own : (m'.slots i).call? = some (.handshake type)) :
    HandshakeStep o m i type input (m.attempt? o (i, input)) m' := by
  cases step_effect o taken with
  | call c free =>
    obtain rfl := Option.some.inj ((settle_call m i c _).symm.trans own)
    exact .start free
  | sent r call p offered flag waiting request fits =>
    obtain rfl := Option.some.inj ((settle_call m i call _).symm.trans own)
    have suspends : (Call.handshake type).Suspends p := by
      simpa [waiting, Pc.Proper] using proper i
    cases p with
    | handshakeRecv | recvRaw => simp [Suspended.request] at request
    | sendRaw => exact absurd suspends id
    | handshakeSend type' buf n =>
      obtain rfl : type' = type := suspends
      obtain ⟨rfl, -⟩ : buf.drop n = offered ∧ _ := by simpa [Suspended.request] using request
      simp only [attempt?, waiting, Stream.resumeSent, Stream.handshakeSent]
      obtain negative | accepts := lt_or_ge r 0
      · rw [if_neg (show ¬ (0 ≤ r ∧ buf.length ≤ n + r.toNat) by omega), if_pos negative]
        exact .sendFailed r buf n waiting negative
      · by_cases more : n + r.toNat < buf.length
        · rw [if_neg (show ¬ (0 ≤ r ∧ buf.length ≤ n + r.toNat) by omega),
            if_neg (not_lt.mpr accepts), if_pos more]
          exact .resend r buf n waiting accepts more
        · rw [if_pos (show 0 ≤ r ∧ buf.length ≤ n + r.toNat by omega),
            if_neg (not_lt.mpr accepts), if_neg more]
          exact .sent r buf n waiting accepts (by omega)
  | received r bytes call p len flag waiting request counted fits =>
    obtain rfl := Option.some.inj ((settle_call m i call _).symm.trans own)
    have suspends : (Call.handshake type).Suspends p := by
      simpa [waiting, Pc.Proper] using proper i
    cases p with
    | handshakeSend | sendRaw => simp [Suspended.request] at request
    | recvRaw => exact absurd suspends id
    | handshakeRecv type' =>
      obtain rfl : type' = type := suspends
      simp only [attempt?, waiting, Stream.resumeReceived, Stream.handshakeReceived]
      obtain negative | rfl | positive := lt_trichotomy r 0
      · rw [if_neg (show ¬ 0 < r by omega), if_neg (show r ≠ 0 by omega), if_pos negative]
        exact .recvFailed r bytes waiting negative
      · exact .endOfFile bytes waiting
      · rw [if_pos positive, if_neg (show r ≠ 0 by omega), if_neg (show ¬ r < 0 by omega),
          Engine.write_eq _ positive counted, if_neg (not_le.mpr positive)]
        exact .received r bytes waiting positive

theorem attempt_call {m m' : Machine ι σ} {i : ι} {input : Input} {a : Attempt}
    (proper : m.Proper) (taken : m.step o (i, input) = some m')
    (called : m.attempt? o (i, input) = some a) :
    ∃ type, (m'.slots i).call? = some (.handshake type) := by
  cases step_effect o taken with
  | call c free =>
    cases c with
    | handshake type => exact ⟨type, settle_call ..⟩
    | send | recv => cases called
  | sent r call p offered flag waiting request fits =>
    have suspends : call.Suspends p := by simpa [waiting, Pc.Proper] using proper i
    cases p with
    | handshakeSend type buf n =>
      obtain rfl := Call.suspends_handshakeSend.mp suspends
      exact ⟨type, settle_call ..⟩
    | handshakeRecv | sendRaw | recvRaw => simp [attempt?, waiting] at called
  | received r bytes call p len flag waiting request counted fits =>
    have suspends : call.Suspends p := by simpa [waiting, Pc.Proper] using proper i
    cases p with
    | handshakeRecv type =>
      obtain rfl := Call.suspends_handshakeRecv.mp suspends
      exact ⟨type, settle_call ..⟩
    | handshakeSend | sendRaw | recvRaw => simp [attempt?, waiting] at called

theorem HandshakeStep.turn {m m' : Machine ι σ} {i : ι} {type : HandshakeType} {input : Input}
    {a : Attempt} (step : HandshakeStep o m i type input (some a) m') :
    ∃ (s : Stream σ) (result : Stream σ × Progress), s.LoopTurn o type result ∧
      s.engine.writeBio = m.stream.engine.writeBio ∧ s.engine.attempt o type = a ∧
      m' = m.settle i (.handshake type) result := by
  cases step with
  | start free =>
    have turn := Stream.handshakeLoop_turn o type
      { m.stream with engine := m.stream.engine.setState o type }
    exact ⟨_, _, turn, rfl, rfl, rfl⟩
  | sent r buf n waiting accepts whole =>
    exact ⟨_, _, Stream.handshakeLoop_turn o type (m.stream.accept (buf.drop n) r), rfl, rfl, rfl⟩
  | received r bytes waiting positive =>
    have turn := Stream.handshakeLoop_turn o type
      { m.stream.obtain bytes with engine := m.stream.engine.feed bytes }
    exact ⟨_, _, turn, rfl, rfl, rfl⟩

end Machine

inductive GreetState where
  | silent | greeted | finished | failed
deriving DecidableEq, Repr

/--
A handshake of one message each way. The peer accepts the greeting, sends something that is
answered by an alert, or sends an alert of its own.
-/
def greet : GreetState → Bytes → Answer GreetState
  | .silent, bio => ⟨-1, .greeted, bio, [22, 3, 1], [], []⟩
  | .greeted, [] => ⟨-1, .greeted, [], [], [], []⟩
  | .greeted, byte :: rest =>
    if byte = 0 then ⟨1, .finished, rest, [20], [], []⟩
    else if byte = 1 then ⟨-1, .failed, rest, [21], [⟨1, false⟩], []⟩
    else ⟨-1, .failed, rest, [], [⟨2, false⟩], []⟩
  | .finished, bio => ⟨1, .finished, bio, [], [], []⟩
  | .failed, bio => ⟨-1, .failed, bio, [], [], []⟩

def Lib.greeting : Lib GreetState where
  setConnectState _ := .silent
  setAcceptState _ := .silent
  initFinished ssl := decide (ssl = .finished)
  connect := greet
  accept := greet
  read ssl bio _ := ⟨-1, ssl, bio, [], [], []⟩
  write ssl bio _ _ := ⟨-1, ssl, bio, [], [], []⟩
  getError ssl queue ret :=
    if 0 < ret then .none
    else if queue ≠ [] then .ssl
    else if ssl = .failed then .syscall
    else .wantRead
  read_ret _ _ num := le_trans (show (-1 : Int) ≤ 0 by decide) (le_max_right num 0)
  read_data _ _ _ := rfl
  write_ret _ _ _ num := le_trans (show (-1 : Int) ≤ 0 by decide) (le_max_right num 0)

end KkProxy.Ssl
