import KkProxy.Ssl.OpenSsl

set_option autoImplicit false

namespace KkProxy.Ssl

inductive HandshakeType where
  | client | server
deriving DecidableEq, Repr

inductive SslStatus where
  | ok | error | errorSyscall | wantRead | wantWrite
deriving DecidableEq, Repr

structure Engine (σ : Type) where
  ssl : σ
  readBio : Bytes
  writeBio : Bytes
  errors : List ErrEntry
  -- What has passed through the engine so far; no call reads it.
  fed : Bytes
  output : Bytes
  decrypted : Bytes
  encrypted : Bytes

def Engine.fresh {σ : Type} (ssl : σ) : Engine σ :=
  { ssl, readBio := [], writeBio := [], errors := [], fed := [], output := [], decrypted := [],
    encrypted := [] }

structure Reply (σ : Type) where
  ret : Int
  data : Bytes
  engine : Engine σ

namespace Engine

variable {σ : Type}

def absorb (e : Engine σ) (a : Answer σ) : Engine σ :=
  { e with
    ssl := a.ssl
    readBio := a.readBio
    writeBio := e.writeBio ++ a.output
    errors := e.errors ++ a.errors
    output := e.output ++ a.output }

-- `ERR_get_error`: the oldest entry, removed, or 0.
def errGetError (e : Engine σ) : Nat × Engine σ :=
  match e.errors with
  | [] => (0, e)
  | entry :: rest => (entry.code, { e with errors := rest })

def errPrintErrors (e : Engine σ) : Engine σ := { e with errors := [] }

def writePending (e : Engine σ) : Nat := e.writeBio.length

def write (e : Engine σ) (buf : Bytes) (len : Int) : Int × Engine σ :=
  ((bioWrite e.readBio buf len).1,
    { e with
      readBio := (bioWrite e.readBio buf len).2
      fed := if len ≤ 0 then e.fed else e.fed ++ buf.take len.toNat })

def read (e : Engine σ) (len : Int) : Reply σ :=
  let r := bioRead e.writeBio len
  { ret := r.ret, data := r.data, engine := { e with writeBio := r.rest } }

def feed (e : Engine σ) (bytes : Bytes) : Engine σ :=
  { e with readBio := e.readBio ++ bytes, fed := e.fed ++ bytes }

theorem write_eq (e : Engine σ) {bytes : Bytes} {r : Int} (positive : 0 < r)
    (counted : bytes.length = r.toNat) : e.write bytes r = (r, e.feed bytes) := by
  have whole : bytes.take r.toNat = bytes := List.take_of_length_le (by omega)
  simp [write, bioWrite, feed, not_le.mpr positive, whole]

theorem read_data (e : Engine σ) (len : Int) :
    (e.read len).data ++ (e.read len).engine.writeBio = e.writeBio :=
  bioRead_data e.writeBio len

theorem read_decrypted (e : Engine σ) (len : Int) :
    (e.read len).engine.decrypted = e.decrypted := rfl

theorem read_ret_pos {e : Engine σ} {len : Int} (positive : 0 < (e.read len).ret) :
    (e.read len).ret = (e.read len).data.length := bioRead_ret_pos positive

theorem read_ret_nonpos {e : Engine σ} {len : Int} (failed : (e.read len).ret ≤ 0) :
    (e.read len).data = [] := bioRead_ret_nonpos failed

theorem read_shrinks {e : Engine σ} {len : Int} (positive : 0 < (e.read len).ret) :
    (e.read len).engine.writeBio.length < e.writeBio.length := by
  have split := congrArg List.length (e.read_data len)
  rw [List.length_append] at split
  have taken := read_ret_pos positive
  omega

theorem read_pending {e : Engine σ} {len : Int} (pending : 0 < e.writePending) (room : 0 < len) :
    0 < (e.read len).ret :=
  bioRead_pending (List.length_pos_iff.mp pending) room

end Engine

section Library

variable {σ : Type} (o : Lib σ)

def getSslStatus (e : Engine σ) (n : Int) : SslStatus :=
  match o.getError e.ssl e.errors n with
  | .none => .ok
  | .wantRead => .wantRead
  | .wantWrite => .wantWrite
  | .syscall => .errorSyscall
  | _ => .error

def Lib.setState (type : HandshakeType) (ssl : σ) : σ :=
  match type with
  | .client => o.setConnectState ssl
  | .server => o.setAcceptState ssl

namespace Engine

-- `SSL_connect` and `SSL_accept` clear the error queue while the handshake is unfinished.
def handshakeOp (type : HandshakeType) (e : Engine σ) : Int × Engine σ :=
  let a := match type with
    | .client => o.connect e.ssl e.readBio
    | .server => o.accept e.ssl e.readBio
  let errors := if o.initFinished e.ssl then e.errors else []
  (a.ret, { e with errors := errors }.absorb a)

def setState (type : HandshakeType) (e : Engine σ) : Engine σ :=
  { e with ssl := o.setState type e.ssl }

def perform (op : Engine σ → Int × Engine σ) (e : Engine σ) : SslStatus × Engine σ :=
  let result := (op e).1
  let called := (op e).2
  let sslError := o.getError called.ssl called.errors result
  let popped := called.errGetError.2
  let pendingOutputAfter := popped.writePending
  let printed := popped.errPrintErrors
  if 0 < pendingOutputAfter then (.wantWrite, printed)
  -- Both branches of the source's `sys_error == 0` test log and return `error`.
  else if sslError = .syscall then (.error, printed)
  else (getSslStatus o printed result, printed)

-- `perform` hands out output before anything else, and empties the error queue.
theorem perform_eq (op : Engine σ → Int × Engine σ) (e : Engine σ) :
    e.perform o op =
      (if (op e).2.writeBio ≠ [] then .wantWrite
        else if o.getError (op e).2.ssl (op e).2.errors (op e).1 = .syscall then .error
        else getSslStatus o (op e).2.errPrintErrors (op e).1,
      (op e).2.errPrintErrors) := by
  have printed (e : Engine σ) : e.errGetError.2.errPrintErrors = e.errPrintErrors := by
    unfold errGetError
    split <;> rfl
  have pending (e : Engine σ) : 0 < e.errGetError.2.writePending ↔ e.writeBio ≠ [] := by
    unfold errGetError
    split <;> exact List.length_pos_iff
  simp only [perform, printed, pending]
  split_ifs <;> rfl

theorem perform_flushed {op : Engine σ → Int × Engine σ} {e : Engine σ}
    (status : (e.perform o op).1 ≠ .wantWrite) : (e.perform o op).2.writeBio = [] := by
  rw [perform_eq] at status ⊢
  by_contra rest
  exact status (if_pos rest)

def sslRead (e : Engine σ) (len : Int) : Reply σ :=
  let a := o.read e.ssl e.readBio len
  { ret := a.ret
    data := a.data
    engine := { e.absorb a with decrypted := e.decrypted ++ a.data } }

def sslWrite (e : Engine σ) (buf : Bytes) (len : Int) : Reply σ :=
  let a := o.write e.ssl e.readBio buf len
  { ret := a.ret
    data := []
    engine := { e.absorb a with encrypted := e.encrypted ++ buf.take a.ret.toNat } }

theorem sslRead_data (e : Engine σ) (len : Int) :
    (e.sslRead o len).data.length = (e.sslRead o len).ret.toNat :=
  o.read_data e.ssl e.readBio len

end Engine

end Library

end KkProxy.Ssl
