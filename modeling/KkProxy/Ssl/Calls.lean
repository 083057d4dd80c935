import KkProxy.Shared.Runs
import KkProxy.Ssl.Stream

set_option autoImplicit false

/-!
# Calls on one `ssl_stream`

A machine holds a stream and the calls in progress on it, one for each slot `ι`. Each step starts
a call in a free slot or lets the raw stream answer a suspended one, and runs the coroutine to its
next suspension or its end.
-/

namespace KkProxy.Ssl

inductive Pc where
  | idle
  | suspended (call : Call) (p : Suspended)
  | returned (call : Call) (out : Outcome)
deriving DecidableEq, Repr

def Pc.free : Pc → Bool
  | .suspended _ _ => false
  | _ => true

inductive Input where
  | call (c : Call)
  | sent (r : Int)
  -- The raw `recv` of a suspended coroutine returned `r`, having stored `bytes`.
  | received (r : Int) (bytes : Bytes)
deriving DecidableEq, Repr

namespace Stream

variable {σ : Type} (o : Lib σ)

def start (s : Stream σ) : Call → Stream σ × Progress
  | .handshake type => s.handshake o type
  | .send buf flag => s.send o buf flag
  | .recv len flag => s.recv o len flag

def accept (s : Stream σ) (offered : Bytes) (r : Int) : Stream σ :=
  { s with accepted := s.accepted ++ offered.take r.toNat }

def obtain (s : Stream σ) (bytes : Bytes) : Stream σ := { s with received := s.received ++ bytes }

def resumeSent (s : Stream σ) (r : Int) : Suspended → Stream σ × Progress
  | .handshakeSend type buf bytesSent => s.handshakeSent o type buf bytesSent r
  | .sendRaw buf flag bytesConsumed writeBuf bytesSent =>
    s.sendSent o buf flag bytesConsumed writeBuf bytesSent r
  | p => (s, .suspended p)

def resumeReceived (s : Stream σ) (r : Int) (bytes : Bytes) : Suspended → Stream σ × Progress
  | .handshakeRecv type => s.handshakeReceived o type r bytes
  | .recvRaw len _ => s.recvReceived o len r bytes
  | p => (s, .suspended p)

end Stream

structure Machine (ι σ : Type) where
  stream : Stream σ
  slots : ι → Pc
  -- The bytes delivered by the `recv` calls that have returned a positive count.
  delivered : Bytes

-- With a single slot the calls on a stream are made one after the other.
abbrev Solo (σ : Type) := Machine Unit σ

def Outcome.delivers : Outcome → Bytes
  | .received n buf => buf.take n.toNat
  | _ => []

def Progress.delivers : Progress → Bytes
  | .done out => out.delivers
  | .suspended _ => []

def Progress.pc (call : Call) : Progress → Pc
  | .done out => .returned call out
  | .suspended p => .suspended call p

theorem Progress.pc_returned {progress : Progress} {call c : Call} {out : Outcome} :
    progress.pc call = .returned c out ↔ call = c ∧ progress = .done out := by
  cases progress <;> simp [Progress.pc]

namespace Machine

variable {ι σ : Type} [DecidableEq ι] (o : Lib σ)

def fresh (ssl : σ) : Machine ι σ :=
  { stream := .fresh ssl, slots := fun _ => .idle, delivered := [] }

def settle (m : Machine ι σ) (i : ι) (call : Call) (r : Stream σ × Progress) : Machine ι σ :=
  { stream := r.1
    slots := Function.update m.slots i (r.2.pc call)
    delivered := m.delivered ++ r.2.delivers }

@[simp] theorem settle_slot (m : Machine ι σ) (i : ι) (call : Call) (r : Stream σ × Progress) :
    (m.settle i call r).slots i = r.2.pc call := Function.update_self ..

-- Raw `send` returns at most what it was offered, raw `recv` as many bytes as it stored.
def step (m : Machine ι σ) : ι × Input → Option (Machine ι σ)
  | (i, .call c) =>
    if (m.slots i).free then some (m.settle i c (m.stream.start o c)) else none
  | (i, .sent r) =>
    match m.slots i with
    | .suspended call p =>
      match p.request with
      | .send offered _ =>
        if r ≤ offered.length then
          some (m.settle i call ((m.stream.accept offered r).resumeSent o r p))
        else none
      | .recv _ _ => none
    | _ => none
  | (i, .received r bytes) =>
    match m.slots i with
    | .suspended call p =>
      match p.request with
      | .recv len _ =>
        if bytes.length = r.toNat ∧ bytes.length ≤ len then
          some (m.settle i call ((m.stream.obtain bytes).resumeReceived o r bytes p))
        else none
      | .send _ _ => none
    | _ => none

inductive Effect (m : Machine ι σ) (i : ι) : Input → Machine ι σ → Prop where
  | call (c : Call) (free : (m.slots i).free = true) :
    Effect m i (.call c) (m.settle i c (m.stream.start o c))
  | sent (r : Int) (call : Call) (p : Suspended) (offered : Bytes) (flag : Int)
    (waiting : m.slots i = .suspended call p) (request : p.request = .send offered flag)
    (fits : r ≤ offered.length) :
    Effect m i (.sent r) (m.settle i call ((m.stream.accept offered r).resumeSent o r p))
  | received (r : Int) (bytes : Bytes) (call : Call) (p : Suspended) (len : Nat) (flag : Int)
    (waiting : m.slots i = .suspended call p) (request : p.request = .recv len flag)
    (counted : bytes.length = r.toNat) (fits : bytes.length ≤ len) :
    Effect m i (.received r bytes)
      (m.settle i call ((m.stream.obtain bytes).resumeReceived o r bytes p))

theorem step_effect {m m' : Machine ι σ} {i : ι} {input : Input}
    (taken : m.step o (i, input) = some m') : Effect o m i input m' := by
  cases input with
  | call c =>
    simp only [step] at taken
    split at taken
    · obtain rfl := Option.some.inj taken
      exact .call c ‹_›
    · cases taken
  | sent r =>
    simp only [step] at taken
    split at taken
    · next call p waiting =>
      split at taken
      · next offered flag request =>
        split at taken
        · obtain rfl := Option.some.inj taken
          exact .sent r call p offered flag waiting request ‹_›
        · cases taken
      · cases taken
    · cases taken
  | received r bytes =>
    simp only [step] at taken
    split at taken
    · next call p waiting =>
      split at taken
      · next len flag request =>
        split at taken
        · next valid =>
          obtain rfl := Option.some.inj taken
          exact .received r bytes call p len flag waiting request valid.1 valid.2
        · cases taken
      · cases taken
    · cases taken

end Machine

def Call.Suspends : Call → Suspended → Prop
  | .handshake type, .handshakeRecv type' => type' = type
  | .handshake type, .handshakeSend type' _ _ => type' = type
  | .send buf flag, .sendRaw buf' flag' _ _ _ => buf' = buf ∧ flag' = flag
  | .recv len flag, .recvRaw len' flag' => len' = len ∧ flag' = flag
  | _, _ => False

theorem Call.suspends_handshakeRecv {c : Call} {type : HandshakeType} :
    c.Suspends (.handshakeRecv type) ↔ c = .handshake type := by
  cases c <;> simp [Suspends, eq_comm]

theorem Call.suspends_handshakeSend {c : Call} {type : HandshakeType} {buf : Bytes} {n : Nat} :
    c.Suspends (.handshakeSend type buf n) ↔ c = .handshake type := by
  cases c <;> simp [Suspends, eq_comm]

theorem Call.suspends_sendRaw {c : Call} {buf writeBuf : Bytes} {flag : Int} {n bytesSent : Nat} :
    c.Suspends (.sendRaw buf flag n writeBuf bytesSent) ↔ c = .send buf flag := by
  cases c <;> simp [Suspends, eq_comm]

theorem Call.suspends_recvRaw {c : Call} {len : Nat} {flag : Int} :
    c.Suspends (.recvRaw len flag) ↔ c = .recv len flag := by
  cases c <;> simp [Suspends, eq_comm]

def Call.Ends : Call → Outcome → Prop
  | .handshake _, .handshake _ => True
  | .send _ _, .sent _ => True
  | .send _ _, .threw _ => True
  | .recv _ _, .received _ _ => True
  | _, _ => False

def Call.Allows (c : Call) : Progress → Prop
  | .suspended p => c.Suspends p
  | .done out => c.Ends out

def Pc.Proper : Pc → Prop
  | .idle => True
  | .suspended call p => call.Suspends p
  | .returned call out => call.Ends out

theorem Progress.pc_proper {c : Call} {progress : Progress} (allowed : c.Allows progress) :
    (progress.pc c).Proper := by
  cases progress <;> exact allowed

namespace Stream

variable {σ : Type} {o : Lib σ}

theorem LoopTurn.allowed {type : HandshakeType} {s : Stream σ} {r : Stream σ × Progress}
    (turn : LoopTurn o type s r) : (Call.handshake type).Allows r.2 := by
  cases turn <;> trivial

theorem SendRun.allowed {buf : Bytes} {flag : Int} {n : Nat} {s : Stream σ}
    {r : Stream σ × Progress} (run : SendRun o buf flag n s r) :
    (Call.send buf flag).Allows r.2 := by
  induction run with
  | finished | threw => trivial
  | again n s res r more writes written drained rest ih => exact ih
  | chunk => exact ⟨rfl, rfl⟩

variable (o)

theorem start_allowed (s : Stream σ) (c : Call) : c.Allows (s.start o c).2 := by
  cases c with
  | handshake type => exact (handshakeLoop_turn o type _).allowed
  | send buf flag => exact (s.sendLoop_run o buf flag 0).allowed
  | recv len flag =>
    simp only [start, recv]
    split_ifs
    · trivial
    · trivial
    · exact ⟨rfl, rfl⟩

theorem resumeSent_allowed (s : Stream σ) (r : Int) {c : Call} {p : Suspended}
    (suspends : c.Suspends p) : c.Allows (s.resumeSent o r p).2 := by
  cases c <;> cases p <;> try contradiction
  case handshake.handshakeRecv => exact suspends
  case handshake.handshakeSend type type' buf bytesSent =>
    obtain rfl : type' = type := suspends
    simp only [resumeSent, handshakeSent]
    split_ifs
    · trivial
    · rfl
    · exact (handshakeLoop_turn o type' _).allowed
  case send.sendRaw buf flag buf' flag' bytesConsumed writeBuf bytesSent =>
    obtain ⟨rfl, rfl⟩ : buf' = buf ∧ flag' = flag := suspends
    simp only [resumeSent, sendSent, sendDrain_eq]
    split_ifs
    · trivial
    · exact ⟨rfl, rfl⟩
    · exact (s.sendLoop_run o buf' flag' bytesConsumed).allowed
    · exact ⟨rfl, rfl⟩
  case recv.recvRaw => exact suspends

theorem overflowLoop_ends (len : Nat) (flag : Int) (placed : Bytes) (s : Stream σ) :
    (Call.recv len flag).Ends (s.overflowLoop o placed).2 := by
  fun_induction overflowLoop o placed s <;> first | assumption | exact True.intro

theorem decryptLoop_ends (len : Nat) (flag : Int) (placed : Bytes) (s : Stream σ) :
    (Call.recv len flag).Ends (s.decryptLoop o len placed).2 := by
  fun_induction decryptLoop o len placed s with
  | case5 placed s full => exact overflowLoop_ends o len flag placed s
  | _ => first | assumption | exact True.intro

theorem resumeReceived_allowed (s : Stream σ) (r : Int) (bytes : Bytes) {c : Call} {p : Suspended}
    (suspends : c.Suspends p) : c.Allows (s.resumeReceived o r bytes p).2 := by
  cases c <;> cases p <;> try contradiction
  case handshake.handshakeRecv type type' =>
    obtain rfl : type' = type := suspends
    simp only [resumeReceived, handshakeReceived]
    split_ifs
    · trivial
    · trivial
    · trivial
    · exact (handshakeLoop_turn o type' _).allowed
  case handshake.handshakeSend => exact suspends
  case send.sendRaw => exact suspends
  case recv.recvRaw len flag len' flag' =>
    obtain ⟨rfl, rfl⟩ : len' = len ∧ flag' = flag := suspends
    simp only [resumeReceived, recvReceived]
    split_ifs
    · trivial
    · trivial
    · exact decryptLoop_ends o len' flag' [] _

end Stream

namespace Machine

variable {ι σ : Type} [DecidableEq ι] {o : Lib σ}

def Proper (m : Machine ι σ) : Prop := ∀ i, (m.slots i).Proper

omit [DecidableEq ι] in
theorem fresh_proper (ssl : σ) : (fresh ssl : Machine ι σ).Proper := fun _ => trivial

theorem settle_proper {m : Machine ι σ} (proper : m.Proper) {i : ι} {c : Call}
    {r : Stream σ × Progress} (allowed : c.Allows r.2) : (m.settle i c r).Proper := by
  intro j
  by_cases same : j = i
  · subst same
    rw [settle_slot]
    exact Progress.pc_proper allowed
  · simpa [settle, same] using proper j

theorem step_proper {m m' : Machine ι σ} {input : ι × Input} (proper : m.Proper)
    (taken : m.step o input = some m') : m'.Proper := by
  obtain ⟨i, input⟩ := input
  cases step_effect o taken with
  | call c free => exact settle_proper proper (m.stream.start_allowed o c)
  | sent r call p offered flag waiting request fits =>
    have suspends : call.Suspends p := by simpa [waiting, Pc.Proper] using proper i
    exact settle_proper proper ((m.stream.accept offered r).resumeSent_allowed o r suspends)
  | received r bytes call p len flag waiting request counted fits =>
    have suspends : call.Suspends p := by simpa [waiting, Pc.Proper] using proper i
    exact settle_proper proper ((m.stream.obtain bytes).resumeReceived_allowed o r bytes suspends)

end Machine

end KkProxy.Ssl
