import KkProxy.Ssl.Engine
import Mathlib.Logic.Function.Basic
import Mathlib.Tactic.Common

set_option autoImplicit false

/-!
# `ssl_stream`

The three coroutines of an `ssl_stream` as the pieces between their suspensions in
`raw_stream_.send` and `raw_stream_.recv`.
-/

namespace KkProxy.Ssl

inductive Category where
  | system | kkp
deriving DecidableEq, Repr

structure ErrorCode where
  value : Int
  category : Category
deriving DecidableEq, Repr

def makeSysError (code : Int) : ErrorCode := ⟨code, .system⟩

def makeCustomError (code : Int) : ErrorCode := ⟨code, .kkp⟩

def eSslHandshakeFailed : Int := 10090

def eSslHandshakeSocketReadEof : Int := 10091

def localBuf : Nat := 4096

/-- A call made on an `ssl_stream`; `recv` is given a buffer of `len` bytes. -/
inductive Call where
  | handshake (type : HandshakeType)
  | send (buf : Bytes) (flag : Int)
  | recv (len : Nat) (flag : Int)
deriving DecidableEq, Repr

-- How a call ends; `received` also says what was written to the caller's buffer.
inductive Outcome where
  | handshake (error : Option ErrorCode)
  | sent (n : Int)
  | received (n : Int) (buf : Bytes)
  | threw (what : String)
deriving DecidableEq, Repr

inductive Suspended where
  | handshakeRecv (type : HandshakeType)
  | handshakeSend (type : HandshakeType) (buf : Bytes) (bytesSent : Nat)
  | sendRaw (buf : Bytes) (flag : Int) (bytesConsumed : Nat) (writeBuf : Bytes) (bytesSent : Nat)
  | recvRaw (len : Nat) (flag : Int)
deriving DecidableEq, Repr

inductive RawRequest where
  | send (bytes : Bytes) (flag : Int)
  | recv (len : Nat) (flag : Int)
deriving DecidableEq, Repr

def Suspended.request : Suspended → RawRequest
  -- The buffer's size stands in the flag position here.
  | .handshakeRecv _ => .recv localBuf localBuf
  | .handshakeSend _ buf bytesSent => .send (buf.drop bytesSent) 0
  | .sendRaw _ flag _ writeBuf bytesSent => .send (writeBuf.drop bytesSent) flag
  | .recvRaw len flag => .recv len flag

inductive Progress where
  | suspended (p : Suspended)
  | done (out : Outcome)
deriving DecidableEq, Repr

structure Vec where
  data : Bytes
  capacity : Nat
deriving DecidableEq, Repr

def Vec.reserve (v : Vec) (n : Nat) : Vec := { v with capacity := max v.capacity n }

-- Growing a vector value-initialises the new elements.
def Vec.resize (v : Vec) (n : Nat) : Vec :=
  { data := v.data.take n ++ List.replicate (n - v.data.length) 0
    capacity := max v.capacity n }

/-- An `ssl_stream`; the last two fields record the traffic of its raw stream. -/
structure Stream (σ : Type) where
  engine : Engine σ
  leftover : Vec
  received : Bytes
  accepted : Bytes

-- The constructor clears the 4096 elements `leftover_` is initialised with.
def Stream.fresh {σ : Type} (ssl : σ) : Stream σ :=
  { engine := .fresh ssl, leftover := ⟨[], 4096⟩, received := [], accepted := [] }

namespace Stream

variable {σ : Type} (o : Lib σ)

-- The body of `handshake`'s loop up to its next suspension or its end.
def handshakeLoop (type : HandshakeType) (s : Stream σ) : Stream σ × Progress :=
  let p := s.engine.perform o (Engine.handshakeOp o type)
  let s := { s with engine := p.2 }
  match p.1 with
  | .ok => (s, .done (.handshake none))
  | .errorSyscall | .error =>
    let err := s.engine.errGetError
    ({ s with engine := err.2.errPrintErrors },
      .done (.handshake (some (makeSysError (-toInt32 err.1)))))
  | .wantRead => (s, .suspended (.handshakeRecv type))
  | .wantWrite =>
    let res := s.engine.read localBuf
    let s := { s with engine := res.engine }
    if res.ret ≤ 0 then (s, .done (.handshake (some (makeCustomError eSslHandshakeFailed))))
    else (s, .suspended (.handshakeSend type res.data 0))

def handshake (type : HandshakeType) (s : Stream σ) : Stream σ × Progress :=
  handshakeLoop o type { s with engine := s.engine.setState o type }

def handshakeReceived (type : HandshakeType) (r : Int) (bytes : Bytes) (s : Stream σ) :
    Stream σ × Progress :=
  if r = 0 then
    (s, .done (.handshake (some (makeCustomError eSslHandshakeSocketReadEof))))
  else if r < 0 then (s, .done (.handshake (some (makeSysError (-r)))))
  else
    let res := s.engine.write bytes r
    let s := { s with engine := res.2 }
    if res.1 ≤ 0 then (s, .done (.handshake (some (makeCustomError eSslHandshakeFailed))))
    else handshakeLoop o type s

def handshakeSent (type : HandshakeType) (buf : Bytes) (bytesSent : Nat) (sent : Int)
    (s : Stream σ) : Stream σ × Progress :=
  if sent < 0 then (s, .done (.handshake (some (makeSysError (-sent)))))
  else if bytesSent + sent.toNat < buf.length then
    (s, .suspended (.handshakeSend type buf (bytesSent + sent.toNat)))
  else handshakeLoop o type s

inductive Drain (σ : Type) where
  | drained (s : Stream σ)
  | chunk (s : Stream σ) (writeBuf : Bytes)
  | threw (s : Stream σ)

def drainBio (s : Stream σ) : Drain σ :=
  if s.engine.writePending ≤ 0 then .drained s
  else
    let sslRead := s.engine.read localBuf
    let s := { s with engine := sslRead.engine }
    if sslRead.ret ≤ 0 then
      match getSslStatus o s.engine sslRead.ret with
      | .wantRead | .wantWrite => .drained s
      | _ => .threw s
    else .chunk s sslRead.data

-- The outer loop of `send`, entered with `bytesConsumed` bytes given to the engine.
def sendLoop (buf : Bytes) (flag : Int) (bytesConsumed : Nat) (s : Stream σ) :
    Stream σ × Progress :=
  if bytesConsumed < buf.length then
    let res := s.engine.sslWrite o (buf.drop bytesConsumed) (toInt32 (buf.length - bytesConsumed))
    let s := { s with engine := res.engine }
    if res.ret ≤ 0 then (s, .done (.threw "ssl write error TODO"))
    else
      match drainBio o s with
      | .drained s => sendLoop buf flag (bytesConsumed + res.ret.toNat) s
      | .chunk s writeBuf =>
        (s, .suspended (.sendRaw buf flag (bytesConsumed + res.ret.toNat) writeBuf 0))
      | .threw s => (s, .done (.threw "ssl read error TODO"))
  else (s, .done (.sent (toInt32 bytesConsumed)))
termination_by buf.length - bytesConsumed
decreasing_by
  change buf.length - (bytesConsumed + res.ret.toNat) < buf.length - bytesConsumed
  omega

-- The inner loop of `send` between two raw sends, and what follows it.
def sendDrain (buf : Bytes) (flag : Int) (bytesConsumed : Nat) (s : Stream σ) :
    Stream σ × Progress :=
  match drainBio o s with
  | .drained s => sendLoop o buf flag bytesConsumed s
  | .chunk s writeBuf => (s, .suspended (.sendRaw buf flag bytesConsumed writeBuf 0))
  | .threw s => (s, .done (.threw "ssl read error TODO"))

def send (buf : Bytes) (flag : Int) (s : Stream σ) : Stream σ × Progress :=
  sendLoop o buf flag 0 s

def sendSent (buf : Bytes) (flag : Int) (bytesConsumed : Nat) (writeBuf : Bytes) (bytesSent : Nat)
    (rawSend : Int) (s : Stream σ) : Stream σ × Progress :=
  if rawSend ≤ 0 then (s, .done (.sent rawSend))
  else if bytesSent + rawSend.toNat < writeBuf.length then
    (s, .suspended (.sendRaw buf flag bytesConsumed writeBuf (bytesSent + rawSend.toNat)))
  else sendDrain o buf flag bytesConsumed s

def readLeftover (len : Nat) (s : Stream σ) : Bytes × Stream σ :=
  if s.leftover.data = [] then ([], s)
  else
    let n := min len s.leftover.data.length
    (s.leftover.data.take n,
      { s with leftover := { s.leftover with data := s.leftover.data.drop n } })

def recv (len : Nat) (flag : Int) (s : Stream σ) : Stream σ × Progress :=
  let res := s.readLeftover len
  if 0 < res.1.length then (res.2, .done (.received res.1.length res.1))
  else
    let read := res.2.engine.sslRead o (toInt32 len)
    let s := { res.2 with engine := read.engine }
    if 0 < read.ret then (s, .done (.received read.ret read.data))
    else (s, .suspended (.recvRaw len flag))

/--
The decrypt loop of `recv` once the caller's buffer is full: `total_decrypted` no longer changes, so
the loop stays in its second branch.
-/
def overflowLoop (placed : Bytes) (s : Stream σ) : Stream σ × Outcome :=
  let leftoverRemaining := s.leftover.capacity - s.leftover.data.length
  let leftover :=
    if leftoverRemaining ≤ 0 then s.leftover.reserve (s.leftover.capacity * 2) else s.leftover
  -- This reads the write BIO, the engine's own output.
  let read := s.engine.read (toInt32 leftoverRemaining)
  let s := { s with engine := read.engine, leftover }
  if 0 < read.ret then
    overflowLoop placed
      { s with leftover := s.leftover.resize (s.leftover.data.length + read.ret.toNat) }
  else
    let status := getSslStatus o s.engine read.ret
    if status = .wantRead ∨ status = .wantWrite then (s, .received placed.length placed)
    else (s, .received (-1) placed)
termination_by s.engine.writeBio.length
decreasing_by
  have taken : 0 < read.ret := ‹_›
  exact Engine.read_shrinks taken

/--
The decrypt loop of `recv`: `placed` is what it has written to the caller's buffer of `len` bytes,
`total_decrypted` its length.
-/
def decryptLoop (len : Nat) (placed : Bytes) (s : Stream σ) : Stream σ × Outcome :=
  if placed.length < len then
    let read := s.engine.sslRead o (toInt32 (len - placed.length))
    let status := getSslStatus o read.engine read.ret
    let s := { s with engine := read.engine }
    if 0 < read.ret then
      if status = .ok then (s, .received (placed ++ read.data).length (placed ++ read.data))
      else decryptLoop len (placed ++ read.data) s
    else if status = .wantRead ∨ status = .wantWrite then (s, .received placed.length placed)
    else (s, .received (-1) placed)
  else overflowLoop o placed s
termination_by len - placed.length
decreasing_by
  have progress : read.data.length = read.ret.toNat := Engine.sslRead_data o _ _
  change len - (placed ++ read.data).length < len - placed.length
  rw [List.length_append]
  omega

def recvReceived (len : Nat) (bytesReceived : Int) (bytes : Bytes) (s : Stream σ) :
    Stream σ × Progress :=
  if bytesReceived ≤ 0 then (s, .done (.received bytesReceived []))
  else
    let written := s.engine.write bytes bytesReceived
    let s := { s with engine := written.2 }
    if written.1 ≤ 0 then (s, .done (.received (-1) []))
    -- A short BIO write is only logged.
    else
      let loop := decryptLoop o len [] s
      (loop.1, .done loop.2)

inductive LoopTurn (type : HandshakeType) (s : Stream σ) : Stream σ × Progress → Prop where
  | finished (status : (s.engine.perform o (Engine.handshakeOp o type)).1 = .ok) :
    LoopTurn type s
      ({ s with engine := (s.engine.perform o (Engine.handshakeOp o type)).2 },
        .done (.handshake none))
  | failed
    (status : (s.engine.perform o (Engine.handshakeOp o type)).1 ∈ [.error, .errorSyscall]) :
    LoopTurn type s
      ({ s with engine := (s.engine.perform o (Engine.handshakeOp o type)).2 },
        .done (.handshake (some (makeSysError 0))))
  | wantRead (status : (s.engine.perform o (Engine.handshakeOp o type)).1 = .wantRead) :
    LoopTurn type s
      ({ s with engine := (s.engine.perform o (Engine.handshakeOp o type)).2 },
        .suspended (.handshakeRecv type))
  | unread (read : Reply σ)
    (status : (s.engine.perform o (Engine.handshakeOp o type)).1 = .wantWrite)
    (reads : read = (s.engine.perform o (Engine.handshakeOp o type)).2.read localBuf)
    (empty : read.ret ≤ 0) :
    LoopTurn type s
      ({ s with engine := read.engine },
        .done (.handshake (some (makeCustomError eSslHandshakeFailed))))
  | wantWrite (read : Reply σ)
    (status : (s.engine.perform o (Engine.handshakeOp o type)).1 = .wantWrite)
    (reads : read = (s.engine.perform o (Engine.handshakeOp o type)).2.read localBuf)
    (some : 0 < read.ret) :
    LoopTurn type s
      ({ s with engine := read.engine }, .suspended (.handshakeSend type read.data 0))

variable {o} in
theorem LoopTurn.performed {type : HandshakeType} {s : Stream σ} {r : Stream σ × Progress}
    (turn : LoopTurn o type s r) :
    r.1.engine.ssl = (s.engine.perform o (Engine.handshakeOp o type)).2.ssl ∧
      r.1.engine.output = (s.engine.perform o (Engine.handshakeOp o type)).2.output := by
  cases turn with
  | finished | failed | wantRead => exact ⟨rfl, rfl⟩
  | unread read status reads | wantWrite read status reads =>
    subst reads
    exact ⟨rfl, rfl⟩

-- The error path reads a queue that `perform` has emptied.
theorem handshakeLoop_turn (type : HandshakeType) (s : Stream σ) :
    LoopTurn o type s (s.handshakeLoop o type) := by
  have quiet : (s.engine.perform o (Engine.handshakeOp o type)).2.errors = [] := by
    rw [Engine.perform_eq]
    rfl
  have popped : (s.engine.perform o (Engine.handshakeOp o type)).2.errGetError =
      (0, (s.engine.perform o (Engine.handshakeOp o type)).2) := by
    simp [Engine.errGetError, quiet]
  have printed : (s.engine.perform o (Engine.handshakeOp o type)).2.errPrintErrors =
      (s.engine.perform o (Engine.handshakeOp o type)).2 := by
    simp only [Engine.errPrintErrors, ← quiet]
  cases status : (s.engine.perform o (Engine.handshakeOp o type)).1 with
  | ok =>
    simp only [handshakeLoop, status]
    exact .finished status
  | error =>
    simp only [handshakeLoop, status, popped, printed]
    exact .failed (by simp [status])
  | errorSyscall =>
    simp only [handshakeLoop, status, popped, printed]
    exact .failed (by simp [status])
  | wantRead =>
    simp only [handshakeLoop, status]
    exact .wantRead status
  | wantWrite =>
    simp only [handshakeLoop, status]
    split_ifs with empty
    · exact .unread _ status rfl empty
    · exact .wantWrite _ status rfl (by omega)

-- With a FIFO write BIO the error path of the drain loop is never taken.
theorem drainBio_eq (s : Stream σ) :
    s.drainBio o =
      if s.engine.writeBio = [] then .drained s
      else .chunk { s with engine := (s.engine.read localBuf).engine }
        (s.engine.read localBuf).data := by
  unfold drainBio
  by_cases empty : s.engine.writeBio = []
  · simp [Engine.writePending, empty]
  · have pending : 0 < s.engine.writePending := List.length_pos_iff.mpr empty
    have read : 0 < (s.engine.read localBuf).ret := Engine.read_pending pending (by decide)
    rw [if_neg (by omega), if_neg empty]
    dsimp only
    rw [if_neg (by omega)]

inductive SendRun (buf : Bytes) (flag : Int) : Nat → Stream σ → Stream σ × Progress → Prop where
  | finished (n : Nat) (s : Stream σ) (given : buf.length ≤ n) :
    SendRun buf flag n s (s, .done (.sent (toInt32 n)))
  | threw (n : Nat) (s : Stream σ) (res : Reply σ) (more : n < buf.length)
    (writes : res = s.engine.sslWrite o (buf.drop n) (toInt32 (buf.length - n)))
    (failed : res.ret ≤ 0) :
    SendRun buf flag n s ({ s with engine := res.engine }, .done (.threw "ssl write error TODO"))
  | again (n : Nat) (s : Stream σ) (res : Reply σ) (r : Stream σ × Progress)
    (more : n < buf.length)
    (writes : res = s.engine.sslWrite o (buf.drop n) (toInt32 (buf.length - n)))
    (written : 0 < res.ret) (drained : res.engine.writeBio = [])
    (rest : SendRun buf flag (n + res.ret.toNat) { s with engine := res.engine } r) :
    SendRun buf flag n s r
  | chunk (n : Nat) (s : Stream σ) (res : Reply σ) (more : n < buf.length)
    (writes : res = s.engine.sslWrite o (buf.drop n) (toInt32 (buf.length - n)))
    (written : 0 < res.ret) (pending : res.engine.writeBio ≠ []) :
    SendRun buf flag n s
      ({ s with engine := (res.engine.read localBuf).engine },
        .suspended
          (.sendRaw buf flag (n + res.ret.toNat) (res.engine.read localBuf).data 0))

theorem sendLoop_run (buf : Bytes) (flag : Int) (n : Nat) (s : Stream σ) :
    SendRun o buf flag n s (s.sendLoop o buf flag n) := by
  induction left : buf.length - n using Nat.strongRecOn generalizing n s with
  | ind left ih =>
    rw [sendLoop]
    split_ifs with more
    · dsimp only
      split_ifs with failed
      · exact .threw n s _ more rfl failed
      · rw [drainBio_eq]
        have written : 0 < (s.engine.sslWrite o (buf.drop n) (toInt32 (buf.length - n))).ret := by
          omega
        split_ifs with drained
        · exact .again n s _ _ more rfl written drained (ih _ (by omega) _ _ rfl)
        · exact .chunk n s _ more rfl written drained
    · exact .finished n s (by omega)

-- `SendRun` has no other runs.
theorem SendRun.eq_sendLoop {o : Lib σ} {buf : Bytes} {flag : Int} {n : Nat} {s : Stream σ}
    {r : Stream σ × Progress} (run : SendRun o buf flag n s r) : r = s.sendLoop o buf flag n := by
  induction run with
  | finished n s given => rw [sendLoop, if_neg (Nat.not_lt.mpr given)]
  | threw n s res more writes failed =>
    subst writes
    rw [sendLoop, if_pos more]
    dsimp only
    rw [if_pos failed]
  | again n s res r more writes written drained rest ih =>
    subst writes
    rw [sendLoop, if_pos more]
    dsimp only
    rw [if_neg (not_le.mpr written), drainBio_eq, if_pos drained]
    exact ih
  | chunk n s res more writes written pending =>
    subst writes
    rw [sendLoop, if_pos more]
    dsimp only
    rw [if_neg (not_le.mpr written), drainBio_eq, if_neg pending]

theorem sendDrain_eq (buf : Bytes) (flag : Int) (n : Nat) (s : Stream σ) :
    s.sendDrain o buf flag n =
      if s.engine.writeBio = [] then s.sendLoop o buf flag n
      else ({ s with engine := (s.engine.read localBuf).engine },
        .suspended (.sendRaw buf flag n (s.engine.read localBuf).data 0)) := by
  unfold sendDrain
  rw [drainBio_eq]
  split_ifs <;> rfl

theorem readLeftover_engine (len : Nat) (s : Stream σ) :
    (s.readLeftover len).2.engine = s.engine := by
  unfold readLeftover
  split <;> rfl

inductive RecvStart (len : Nat) (flag : Int) (s : Stream σ) : Stream σ × Progress → Prop where
  | leftover (some : (s.readLeftover len).1 ≠ []) :
    RecvStart len flag s ((s.readLeftover len).2,
      .done (.received (s.readLeftover len).1.length (s.readLeftover len).1))
  | decrypted (read : Reply σ) (none : (s.readLeftover len).1 = [])
    (reads : read = s.engine.sslRead o (toInt32 len)) (positive : 0 < read.ret) :
    RecvStart len flag s ({ (s.readLeftover len).2 with engine := read.engine },
      .done (.received read.ret read.data))
  | starved (read : Reply σ) (none : (s.readLeftover len).1 = [])
    (reads : read = s.engine.sslRead o (toInt32 len)) (failed : read.ret ≤ 0) :
    RecvStart len flag s ({ (s.readLeftover len).2 with engine := read.engine },
      .suspended (.recvRaw len flag))

theorem recv_start (len : Nat) (flag : Int) (s : Stream σ) :
    RecvStart o len flag s (s.recv o len flag) := by
  simp only [recv, readLeftover_engine]
  split_ifs with some positive
  · exact .leftover (List.length_pos_iff.mp some)
  · exact .decrypted _ (by simpa using some) rfl positive
  · exact .starved _ (by simpa using some) rfl (not_lt.mp positive)

def decryptOutcome (read : Reply σ) : Outcome :=
  let status := getSslStatus o read.engine read.ret
  if 0 < read.ret then .received read.ret read.data
  else if status = .wantRead ∨ status = .wantWrite then .received 0 []
  else .received (-1) []

-- `decryptLoop` ends with its first `SSL_read` when a positive result means `SSL_ERROR_NONE`.
theorem decryptLoop_eq (contract : o.ErrorContract) {len : Nat} (room : 0 < len) (s : Stream σ) :
    s.decryptLoop o len [] =
      let read := s.engine.sslRead o (toInt32 len)
      ({ s with engine := read.engine }, decryptOutcome o read) := by
  have counted := s.engine.sslRead_data o (toInt32 len)
  have start : ([] : Bytes).length < len := room
  rw [decryptLoop, if_pos start]
  dsimp only [List.length_nil, Nat.sub_zero, List.nil_append, decryptOutcome]
  split_ifs with positive status
  · rw [counted, Int.toNat_of_nonneg (le_of_lt positive)]
  · exact absurd (by simp [getSslStatus, contract.positive _ _ _ positive]) status
  · rfl
  · rfl

theorem recvReceived_eq (contract : o.ErrorContract) {len : Nat} {r : Int} {bytes : Bytes}
    (positive : 0 < r) (counted : bytes.length = r.toNat) (fits : bytes.length ≤ len)
    (s : Stream σ) :
    s.recvReceived o len r bytes =
      let read := (s.engine.feed bytes).sslRead o (toInt32 len)
      ({ s with engine := read.engine }, .done (decryptOutcome o read)) := by
  unfold recvReceived
  rw [Engine.write_eq _ positive counted, if_neg (not_le.mpr positive)]
  dsimp only
  rw [if_neg (not_le.mpr positive), decryptLoop_eq o contract (by omega)]

end Stream

end KkProxy.Ssl
