import KkProxy.Ssl.Attempts

set_option autoImplicit false

namespace KkProxy.Ssl

open Runs

/-- One call of the library; `remaining` bytes were behind the pointer `SSL_write` was given. -/
inductive SslCall where
  | read (num ret : Int)
  | write (num : Int) (remaining : Nat) (ret : Int)
deriving DecidableEq, Repr

def Answer.withLog {σ : Type} (a : Answer σ) (log : List SslCall) : Answer (σ × List SslCall) :=
  { ret := a.ret, ssl := (a.ssl, log), readBio := a.readBio, output := a.output,
    errors := a.errors, data := a.data }

-- The library itself, except that it logs what `SSL_read` and `SSL_write` are called with.
def Lib.logged {σ : Type} (o : Lib σ) : Lib (σ × List SslCall) where
  setConnectState s := (o.setConnectState s.1, s.2)
  setAcceptState s := (o.setAcceptState s.1, s.2)
  initFinished s := o.initFinished s.1
  connect s bio := (o.connect s.1 bio).withLog s.2
  accept s bio := (o.accept s.1 bio).withLog s.2
  read s bio num := (o.read s.1 bio num).withLog (s.2 ++ [.read num (o.read s.1 bio num).ret])
  write s bio buf num :=
    (o.write s.1 bio buf num).withLog
      (s.2 ++ [.write num buf.length (o.write s.1 bio buf num).ret])
  getError s queue ret := o.getError s.1 queue ret
  read_ret s bio num := o.read_ret s.1 bio num
  read_data s bio num := o.read_data s.1 bio num
  write_ret s bio buf num := o.write_ret s.1 bio buf num

def SslCall.WriteFits : SslCall → Prop
  | .write num remaining _ => 0 < num ∧ num ≤ remaining
  | .read _ _ => True

def ReadsFit : Nat → List SslCall → Prop
  | _, [] => True
  | room, .read num ret :: rest => 0 < num ∧ num ≤ room ∧ ReadsFit (room - ret.toNat) rest
  | room, .write _ _ _ :: rest => ReadsFit room rest

def Call.length : Call → Nat
  | .handshake _ => 0
  | .send buf _ => buf.length
  | .recv len _ => len

def Call.Representable : Call → Prop
  | .handshake _ => True
  | .send buf _ => buf.length < 2 ^ 31
  | .recv len _ => 0 < len ∧ len < 2 ^ 31

def Outcome.Fails : Outcome → Prop
  | .handshake error => error ≠ none
  | .sent n => n < 0
  | .received n _ => n < 0
  | .threw _ => True

abbrev Log (σ : Type) := Stream (σ × List SslCall)

section Stream

variable {σ : Type} (o : Lib σ)

def Stream.log (s : Log σ) : List SslCall := s.engine.ssl.2

namespace Engine

variable (e : Engine (σ × List SslCall))

theorem sslRead_log (num : Int) : (e.sslRead o.logged num).engine.ssl.2 =
    e.ssl.2 ++ [.read num (e.sslRead o.logged num).ret] := rfl

theorem sslWrite_log (buf : Bytes) (num : Int) : (e.sslWrite o.logged buf num).engine.ssl.2 =
    e.ssl.2 ++ [.write num buf.length (e.sslWrite o.logged buf num).ret] := rfl

theorem perform_log (type : HandshakeType) :
    (e.perform o.logged (handshakeOp o.logged type)).2.ssl.2 = e.ssl.2 := by
  rw [perform_eq]
  cases type <;> rfl

theorem setState_log (type : HandshakeType) : (e.setState o.logged type).ssl.2 = e.ssl.2 := by
  cases type <;> rfl

theorem sslWrite_rest (e : Engine (σ × List SslCall)) {buf : Bytes} {n : Nat}
    (short : buf.length < 2 ^ 31) (more : n < buf.length) :
    let res := e.sslWrite o.logged (buf.drop n) (toInt32 (buf.length - n))
    (SslCall.write (toInt32 (buf.length - n)) (buf.drop n).length res.ret).WriteFits ∧
      n + res.ret.toNat ≤ buf.length ∧
      res.engine.encrypted.length = e.encrypted.length + res.ret.toNat := by
  intro res
  have exact : toInt32 (buf.length - n) = (buf.length - n : Nat) := toInt32_of_lt (by omega)
  have bound : res.ret ≤ max (toInt32 (buf.length - n)) 0 := o.write_ret ..
  have taken : res.ret.toNat ≤ buf.length - n := by omega
  refine ⟨?_, by omega, ?_⟩
  · rw [exact, List.length_drop]
    exact ⟨by omega, Int.le_refl _⟩
  · change (e.encrypted ++ (buf.drop n).take res.ret.toNat).length = _
    rw [List.length_append, List.length_take, List.length_drop, Nat.min_eq_left taken]

end Engine

namespace Stream

variable {o}

theorem LoopTurn.log {type : HandshakeType} {s : Log σ} {r : Log σ × Progress}
    (turn : LoopTurn o.logged type s r) : r.1.log = s.log := by
  have performed : r.1.log = (s.engine.perform o.logged (Engine.handshakeOp o.logged type)).2.ssl.2 :=
    congrArg Prod.snd turn.performed.1
  rw [performed]
  exact s.engine.perform_log o type

theorem SendRun.log {buf : Bytes} {flag : Int} {n : Nat} {s : Log σ} {r : Log σ × Progress}
    (run : SendRun o.logged buf flag n s r) : s.log.length ≤ r.1.log.length ∧
      (n < buf.length → s.log.length < r.1.log.length) := by
  have longer {e : Engine (σ × List SslCall)} {res : Reply (σ × List SslCall)} {buf : Bytes}
      {num : Int} (writes : res = e.sslWrite o.logged buf num) :
      e.ssl.2.length < res.engine.ssl.2.length := by
    rw [writes, Engine.sslWrite_log, List.length_append]
    exact Nat.lt_succ_self _
  induction run with
  | finished _ _ given => exact ⟨Nat.le_refl _, fun more => absurd more (by omega)⟩
  | threw n s res more writes | chunk n s res more writes =>
    have longer := longer writes
    exact ⟨Nat.le_of_lt longer, fun _ => longer⟩
  | again n s res r more writes _ drained rest ih =>
    have last : s.log.length < r.1.log.length := Nat.lt_of_lt_of_le (longer writes) ih.1
    exact ⟨Nat.le_of_lt last, fun _ => last⟩

structure Gives (buf : Bytes) (n : Nat) (s : Log σ) (given : Nat) (r : Log σ × Progress) :
    Prop where
  writes : ∃ calls, r.1.log = s.log ++ calls ∧ ∀ c ∈ calls, c.WriteFits
  more : n ≤ given
  fits : given ≤ buf.length
  encrypted : r.1.engine.encrypted.length = s.engine.encrypted.length + (given - n)
  suspended : ∀ buf' flag k writeBuf bytesSent,
    r.2 = .suspended (.sendRaw buf' flag k writeBuf bytesSent) → buf' = buf ∧ k = given
  sent : ∀ k, r.2 = .done (.sent k) → 0 < k → k = given ∧ given = buf.length

theorem Gives.same {buf : Bytes} {n : Nat} {s : Log σ} {r : Log σ × Progress}
    (log : r.1.log = s.log) (encrypted : r.1.engine.encrypted = s.engine.encrypted)
    (fits : n ≤ buf.length)
    (suspended : ∀ buf' flag k writeBuf bytesSent,
      r.2 = .suspended (.sendRaw buf' flag k writeBuf bytesSent) → buf' = buf ∧ k = n)
    (sent : ∀ k, r.2 = .done (.sent k) → 0 < k → k = n ∧ n = buf.length) : Gives buf n s n r where
  writes := ⟨[], by rw [log, List.append_nil], by simp⟩
  more := Nat.le_refl n
  fits := fits
  encrypted := by rw [encrypted, Nat.sub_self, Nat.add_zero]
  suspended := suspended
  sent := sent

theorem SendRun.gives {buf : Bytes} {flag : Int} {n : Nat} {s : Log σ} {r : Log σ × Progress}
    (run : SendRun o.logged buf flag n s r) (short : buf.length < 2 ^ 31)
    (before : n ≤ buf.length) : ∃ given, Gives buf n s given r := by
  induction run with
  | finished n s given =>
    have whole : n = buf.length := Nat.le_antisymm before given
    refine ⟨n, .same rfl rfl before nofun ?_⟩
    intro k ended _
    obtain rfl : toInt32 n = k := by simpa using ended
    exact ⟨toInt32_of_lt (by omega), whole⟩
  | threw n s res more writes failed =>
    subst writes
    obtain ⟨fits, given, encrypted⟩ := s.engine.sslWrite_rest o short more
    refine ⟨_, ⟨_, rfl, List.forall_mem_singleton.mpr fits⟩, Nat.le_add_right .., given, ?_, nofun, nofun⟩
    rw [Nat.add_sub_cancel_left]
    exact encrypted
  | again n s res r more writes written drained rest ih =>
    subst writes
    obtain ⟨fits, given, encrypted⟩ := s.engine.sslWrite_rest o short more
    obtain ⟨later, gives⟩ := ih given
    obtain ⟨calls, log, all⟩ := gives.writes
    have more' := gives.more
    refine ⟨later, ⟨_ :: calls, ?_, List.forall_mem_cons.mpr ⟨fits, all⟩⟩, by omega, gives.fits, ?_,
      gives.suspended, gives.sent⟩
    · rw [log]
      exact List.append_assoc ..
    · rw [gives.encrypted]
      dsimp only
      omega
  | chunk n s res more writes written pending =>
    subst writes
    obtain ⟨fits, given, encrypted⟩ := s.engine.sslWrite_rest o short more
    refine ⟨_, ⟨_, rfl, List.forall_mem_singleton.mpr fits⟩, Nat.le_add_right .., given, ?_, ?_, nofun⟩
    · rw [Nat.add_sub_cancel_left]
      exact encrypted
    · rintro buf' flag' k writeBuf bytesSent ⟨⟩
      exact ⟨rfl, rfl⟩

theorem sendDrain_gives {buf : Bytes} (flag : Int) {n : Nat} (s : Log σ)
    (short : buf.length < 2 ^ 31) (before : n ≤ buf.length) :
    ∃ given, Gives buf n s given (s.sendDrain o.logged buf flag n) := by
  rw [sendDrain_eq]
  split_ifs
  · exact (s.sendLoop_run o.logged buf flag n).gives short before
  · refine ⟨n, .same rfl rfl before ?_ nofun⟩
    rintro buf' flag' k writeBuf bytesSent ⟨⟩
    exact ⟨rfl, rfl⟩

theorem sendSent_gives {buf : Bytes} (flag : Int) {n : Nat} (writeBuf : Bytes) (bytesSent : Nat)
    (r : Int) (s : Log σ) (short : buf.length < 2 ^ 31) (before : n ≤ buf.length) :
    ∃ given, Gives buf n s given (s.sendSent o.logged buf flag n writeBuf bytesSent r) := by
  unfold sendSent
  split_ifs with failed
  · refine ⟨n, .same rfl rfl before nofun ?_⟩
    rintro k ⟨⟩ positive
    omega
  · refine ⟨n, .same rfl rfl before ?_ nofun⟩
    rintro buf' flag' k writeBuf' bytesSent' ⟨⟩
    exact ⟨rfl, rfl⟩
  · exact sendDrain_gives flag s short before

theorem readLeftover_empty (s : Log σ) : (s.readLeftover 0).1 = [] := by
  unfold readLeftover
  split <;> simp

def Reads (room : Nat) (s t : Log σ) : Prop :=
  ∃ calls, t.log = s.log ++ calls ∧ (∀ c ∈ calls, c.WriteFits) ∧ ReadsFit room calls

theorem Reads.same {room : Nat} {s t : Log σ} (log : t.log = s.log) : Reads room s t :=
  ⟨[], by rw [log, List.append_nil], by simp, trivial⟩

theorem Reads.read {room : Nat} {s t u : Log σ} (some : 0 < room) (short : room < 2 ^ 31) {ret : Int}
    (log : t.log = s.log ++ [.read (toInt32 room) ret]) (rest : Reads (room - ret.toNat) t u) :
    Reads room s u := by
  have exact : toInt32 room = room := toInt32_of_lt short
  obtain ⟨calls, later, writes, reads⟩ := rest
  refine ⟨.read (toInt32 room) ret :: calls, ?_, List.forall_mem_cons.mpr ⟨trivial, writes⟩, ?_⟩
  · rw [later, log]
    exact List.append_assoc ..
  · rw [exact]
    exact ⟨by omega, Int.le_refl _, reads⟩

theorem RecvStart.reads {len : Nat} {flag : Int} {s : Log σ} {r : Log σ × Progress}
    (start : RecvStart o.logged len flag s r) (some : 0 < len) (short : len < 2 ^ 31) :
    Reads len s r.1 := by
  cases start with
  | leftover => exact .same (congrArg (fun e => e.ssl.2) (s.readLeftover_engine len))
  | decrypted read none reads | starved read none reads =>
    subst reads
    exact .read some short rfl (.same rfl)

theorem read_log (s : Log σ) (num : Int) : (s.engine.read num).engine.ssl.2 = s.log := rfl

theorem overflowLoop_log (placed : Bytes) (s : Log σ) :
    (s.overflowLoop o.logged placed).1.log = s.log := by
  fun_induction overflowLoop o.logged placed s with
  | case1 s room leftover read t some ih => exact ih.trans (s.read_log (toInt32 room))
  | case2 s room | case3 s room => exact s.read_log (toInt32 room)

theorem decryptLoop_reads {len : Nat} (short : len < 2 ^ 31) (placed : Bytes) (s : Log σ) :
    Reads (len - placed.length) s (s.decryptLoop o.logged len placed).1 := by
  have step {placed : Bytes} (left : placed.length < len) (s : Log σ) {u : Log σ}
      (rest : let read := s.engine.sslRead o.logged (toInt32 (len - placed.length))
        Reads (len - (placed ++ read.data).length) { s with engine := read.engine } u) :
      Reads (len - placed.length) s u := by
    dsimp only at rest
    rw [List.length_append, Engine.sslRead_data, ← Nat.sub_sub] at rest
    refine .read (by omega) (by omega) ?_ rest
    exact s.engine.sslRead_log o (toInt32 (len - placed.length))
  fun_induction decryptLoop o.logged len placed s with
  | case1 placed s left => exact step left s (.same rfl)
  | case2 placed s left read status t positive more ih => exact step left s ih
  | case3 placed s left | case4 placed s left => exact step left s (.same rfl)
  | case5 placed s full => exact .same (overflowLoop_log placed s)

theorem recvReceived_reads {len : Nat} (short : len < 2 ^ 31) (r : Int) (bytes : Bytes)
    (s : Log σ) : Reads len s (s.recvReceived o.logged len r bytes).1 := by
  unfold recvReceived
  dsimp only
  split_ifs
  · exact .same rfl
  · exact .same rfl
  · exact decryptLoop_reads short [] { s with engine := (s.engine.write bytes r).2 }

structure Part (c : Call) (earlier : Nat) (s : Log σ) (r : Log σ × Progress) : Prop where
  log : ∃ calls, r.1.log = s.log ++ calls ∧ (∀ c ∈ calls, c.WriteFits) ∧
    ∀ len flag, c = .recv len flag → ReadsFit len calls
  suspended : ∀ buf flag k writeBuf bytesSent,
    r.2 = .suspended (.sendRaw buf flag k writeBuf bytesSent) →
      k = earlier + (r.1.engine.encrypted.length - s.engine.encrypted.length) ∧ k ≤ buf.length
  sent : ∀ buf flag k, c = .send buf flag → r.2 = .done (.sent k) → 0 < k →
    k = (earlier + (r.1.engine.encrypted.length - s.engine.encrypted.length) : Nat) ∧
      k = buf.length

theorem Part.of_engine {c : Call} {earlier : Nat} {s t : Log σ} {r : Log σ × Progress}
    (part : Part c earlier s r) (same : s.engine = t.engine) : Part c earlier t r := by
  refine ⟨?_, same ▸ part.suspended, same ▸ part.sent⟩
  have log : s.log = t.log := congrArg (fun e => e.ssl.2) same
  exact log ▸ part.log

theorem Gives.part {buf : Bytes} {flag : Int} {earlier given : Nat} {s : Log σ}
    {r : Log σ × Progress} (gives : Gives buf earlier s given r) :
    Part (.send buf flag) earlier s r := by
  obtain ⟨calls, log, writes⟩ := gives.writes
  have grown : given = earlier + (r.1.engine.encrypted.length - s.engine.encrypted.length) := by
    have more := gives.more
    have encrypted := gives.encrypted
    omega
  refine ⟨⟨calls, log, writes, nofun⟩, fun buf' flag' k writeBuf bytesSent waiting => ?_, ?_⟩
  · obtain ⟨rfl, rfl⟩ := gives.suspended _ _ _ _ _ waiting
    exact ⟨grown, gives.fits⟩
  · rintro buf' flag' k ⟨⟩ ended positive
    obtain ⟨rfl, whole⟩ := gives.sent k ended positive
    exact ⟨congrArg Nat.cast grown, congrArg Nat.cast whole⟩

theorem Reads.part {len : Nat} {flag : Int} {earlier : Nat} {s : Log σ} {r : Log σ × Progress}
    (reads : Reads len s r.1) (allowed : (Call.recv len flag).Allows r.2) :
    Part (.recv len flag) earlier s r := by
  obtain ⟨calls, log, writes, fits⟩ := reads
  refine ⟨⟨calls, log, writes, ?_⟩, ?_, nofun⟩
  · rintro len' flag' ⟨⟩
    exact fits
  · intro buf flag' k writeBuf bytesSent waiting
    rw [waiting] at allowed
    exact absurd allowed id

theorem handshake_part {type : HandshakeType} {earlier : Nat} {s : Log σ} {r : Log σ × Progress}
    (log : r.1.log = s.log) (allowed : (Call.handshake type).Allows r.2) :
    Part (.handshake type) earlier s r := by
  refine ⟨⟨[], by rw [log, List.append_nil], by simp, nofun⟩, ?_, nofun⟩
  intro buf flag k writeBuf bytesSent waiting
  rw [waiting] at allowed
  exact absurd allowed id

variable (o)

theorem recv_log (len : Nat) (flag : Int) (s : Log σ) :
    (∃ k data, 0 < len ∧ 0 < k ∧ (s.recv o.logged len flag).2 = .done (.received k data)) ∨
      ∃ ret, (s.recv o.logged len flag).1.log = s.log ++ [.read (toInt32 len) ret] := by
  have started := s.recv_start o.logged len flag
  generalize s.recv o.logged len flag = r at started ⊢
  cases started with
  | leftover some =>
    refine .inl ⟨_, _, Nat.pos_of_ne_zero ?_, ?_, rfl⟩
    · rintro rfl
      exact some s.readLeftover_empty
    · exact Int.natCast_pos.mpr (List.length_pos_iff.mpr some)
  | decrypted read none reads | starved read none reads =>
    subst reads
    exact .inr ⟨_, rfl⟩

theorem start_part (s : Log σ) {c : Call} (fits : c.Representable) :
    Part c 0 s (s.start o.logged c) := by
  have allowed := s.start_allowed o.logged c
  cases c with
  | handshake type =>
    refine handshake_part ?_ allowed
    have turn := handshakeLoop_turn o.logged type
      { s with engine := s.engine.setState o.logged type }
    exact turn.log.trans (s.engine.setState_log o type)
  | send buf flag =>
    obtain ⟨given, gives⟩ := (s.sendLoop_run o.logged buf flag 0).gives fits (Nat.zero_le _)
    exact gives.part
  | recv len flag => exact ((s.recv_start o.logged len flag).reads fits.1 fits.2).part allowed

theorem resumeSent_part (s : Log σ) (r : Int) {c : Call} {p : Suspended} {earlier : Nat}
    (fits : c.Representable) (suspends : c.Suspends p)
    (given : ∀ buf flag k writeBuf bytesSent, p = .sendRaw buf flag k writeBuf bytesSent →
      k = earlier ∧ k ≤ buf.length) :
    Part c earlier s (s.resumeSent o.logged r p) := by
  have allowed := s.resumeSent_allowed o.logged r suspends
  cases p with
  | handshakeRecv type =>
    obtain rfl := Call.suspends_handshakeRecv.mp suspends
    exact handshake_part rfl allowed
  | handshakeSend type buf bytesSent =>
    obtain rfl := Call.suspends_handshakeSend.mp suspends
    refine handshake_part ?_ allowed
    simp only [resumeSent, handshakeSent]
    split_ifs
    · rfl
    · rfl
    · exact (handshakeLoop_turn o.logged type s).log
  | sendRaw buf flag n writeBuf bytesSent =>
    obtain rfl := Call.suspends_sendRaw.mp suspends
    obtain ⟨rfl, before⟩ := given _ _ _ _ _ rfl
    obtain ⟨given, gives⟩ := sendSent_gives flag writeBuf bytesSent r s fits before
    exact gives.part
  | recvRaw len flag =>
    obtain rfl := Call.suspends_recvRaw.mp suspends
    exact (Reads.same rfl).part allowed

theorem resumeReceived_part (s : Log σ) (r : Int) (bytes : Bytes) {c : Call} {p : Suspended}
    (earlier : Nat) {len : Nat} {flag : Int} (request : p.request = .recv len flag)
    (fits : c.Representable) (suspends : c.Suspends p) :
    Part c earlier s (s.resumeReceived o.logged r bytes p) := by
  have allowed := s.resumeReceived_allowed o.logged r bytes suspends
  cases p with
  | handshakeSend | sendRaw => simp [Suspended.request] at request
  | handshakeRecv type =>
    obtain rfl := Call.suspends_handshakeRecv.mp suspends
    refine handshake_part ?_ allowed
    simp only [resumeReceived, handshakeReceived]
    split_ifs
    any_goals rfl
    exact (handshakeLoop_turn o.logged type _).log
  | recvRaw len flag =>
    obtain rfl := Call.suspends_recvRaw.mp suspends
    exact (recvReceived_reads fits.2 r bytes s).part allowed

end Stream

end Stream

theorem Call.Representable.short {c : Call} (fits : c.Representable) : c.length < 2 ^ 31 := by
  cases c with
  | handshake type => exact Nat.two_pow_pos 31
  | send buf flag => exact fits
  | recv len flag => exact fits.2

/-- A machine and, for each slot, how many bytes its call has given to the engine. -/
abbrev Measured (ι σ : Type) := Machine ι (σ × List SslCall) × (ι → Nat)

namespace Measured

variable {ι σ : Type}

def fresh (ssl : σ) : Measured ι σ := (.fresh (ssl, []), fun _ => 0)

def sslCalls (w w' : Measured ι σ) : List SslCall := w'.1.stream.log.drop w.1.stream.log.length

/-- The step gives no length to the library, and returns none, that is not the true one. -/
structure Keeps (w : Measured ι σ) (i : ι) (input : Input) (w' : Measured ι σ) : Prop where
  writes : ∀ c ∈ w.sslCalls w', c.WriteFits
  reads : ∀ len flag, (w'.1.slots i).call? = some (.recv len flag) →
    ReadsFit len (w.sslCalls w')
  sent : ∀ buf flag n, w'.1.slots i = .returned (.send buf flag) (.sent n) → 0 < n →
    n = w'.2 i ∧ n = buf.length
  rejects : ∀ c, input = .call c → 2 ^ 31 ≤ c.length →
    w.sslCalls w' = [] ∧ ∃ out, w'.1.slots i = .returned c out ∧ out.Fails

def Represents (w : Measured ι σ) (input : ι × Input) : Prop :=
  ∀ c, input.2 = .call c → (w.1.slots input.1).free = true → c.Representable

structure Sized (w : Measured ι σ) : Prop where
  proper : w.1.Proper
  representable : ∀ i c p, w.1.slots i = .suspended c p → c.Representable
  given : ∀ i c buf flag k writeBuf bytesSent,
    w.1.slots i = .suspended c (.sendRaw buf flag k writeBuf bytesSent) →
      k = w.2 i ∧ k ≤ buf.length

theorem fresh_sized (ssl : σ) : (fresh ssl : Measured ι σ).Sized :=
  ⟨Machine.fresh_proper _, nofun, nofun⟩

variable [DecidableEq ι] (o : Lib σ)

def measure (m : Machine ι (σ × List SslCall)) (input : ι × Input)
    (m' : Machine ι (σ × List SslCall)) (given : ι → Nat) : ι → Nat :=
  let grown := m'.stream.engine.encrypted.length - m.stream.engine.encrypted.length
  match input.2 with
  | .call _ => Function.update given input.1 grown
  | _ => Function.update given input.1 (given input.1 + grown)

def step : Measured ι σ → ι × Input → Option (Measured ι σ) := watching (Machine.step o.logged) measure

def KeepsLengths (w : Measured ι σ) (input : ι × Input) : Prop :=
  ∀ w', step o w input = some w' → w.Keeps input.1 input.2 w'

variable {o}

theorem settle_sized {w : Measured ι σ} (before : w.Sized) {i : ι} {c : Call}
    {r : Log σ × Progress} {earlier : Nat} (part : Stream.Part c earlier w.1.stream r)
    (allowed : c.Allows r.2) (fits : c.Representable) :
    Sized (w.1.settle i c r, Function.update w.2 i
      (earlier + (r.1.engine.encrypted.length - w.1.stream.engine.encrypted.length))) where
  proper := Machine.settle_proper before.proper allowed
  representable j c' p waiting := by
    by_cases own : j = i
    · subst own
      dsimp only at waiting
      rw [Machine.settle_slot] at waiting
      cases progress : r.2 <;> rw [progress] at waiting <;> cases waiting
      exact fits
    · exact before.representable j c' p (by simpa [Machine.settle, own] using waiting)
  given j c' buf flag k writeBuf bytesSent waiting := by
    by_cases own : j = i
    · subst own
      dsimp only at waiting ⊢
      rw [Machine.settle_slot] at waiting
      rw [Function.update_self]
      refine part.suspended buf flag k writeBuf bytesSent ?_
      cases progress : r.2 <;> rw [progress] at waiting <;> cases waiting
      rfl
    · have same := before.given j c' buf flag k writeBuf bytesSent
        (by simpa [Machine.settle, own] using waiting)
      simpa [own] using same

theorem settle_keeps (w : Measured ι σ) (i : ι) {input : Input} {c : Call}
    {r : Log σ × Progress} {earlier : Nat} (part : Stream.Part c earlier w.1.stream r)
    (called : ∀ c', input = .call c' → c' = c) (fits : c.Representable) :
    w.Keeps i input (w.1.settle i c r, Function.update w.2 i
      (earlier + (r.1.engine.encrypted.length - w.1.stream.engine.encrypted.length))) := by
  obtain ⟨calls, later, writes, reads⟩ := part.log
  have made : w.sslCalls (w.1.settle i c r, Function.update w.2 i
      (earlier + (r.1.engine.encrypted.length - w.1.stream.engine.encrypted.length))) = calls := by
    change r.1.log.drop w.1.stream.log.length = calls
    rw [later, List.drop_left]
  refine ⟨made ▸ writes, fun len flag own => ?_, fun buf flag n returned positive => ?_, ?_⟩
  · rw [made]
    exact reads len flag (Option.some.inj ((Machine.settle_call w.1 i c r).symm.trans own))
  · dsimp only at returned ⊢
    rw [Machine.settle_slot, Progress.pc_returned] at returned
    rw [Function.update_self]
    exact part.sent buf flag n returned.1 returned.2 positive
  · intro c' same long
    obtain rfl := called c' same
    exact absurd fits.short (Nat.not_lt.mpr long)

theorem step_sized {w w' : Measured ι σ} {input : ι × Input} (before : w.Sized)
    (represents : w.Represents input) (taken : step o w input = some w') :
    w.Keeps input.1 input.2 w' ∧ w'.Sized := by
  obtain ⟨i, input⟩ := input
  obtain ⟨m, moved, rfl⟩ := watching_some taken
  cases Machine.step_effect o.logged moved with
  | call c free =>
    have fits := represents c rfl free
    have part := w.1.stream.start_part o fits
    have called : ∀ c', Input.call c = .call c' → c' = c := fun _ same => (Input.call.inj same).symm
    have kept := settle_keeps w i part called fits
    have sized := settle_sized before (i := i) part (w.1.stream.start_allowed o.logged c) fits
    rw [Nat.zero_add] at kept sized
    exact ⟨kept, sized⟩
  | sent r c p offered flag waiting request accepts =>
    have fits := before.representable i c p waiting
    have suspends : c.Suspends p := by simpa [waiting, Pc.Proper] using before.proper i
    have part := (w.1.stream.accept offered r).resumeSent_part o r fits suspends
      fun buf flag k _ _ same => before.given i c buf flag k _ _ (same ▸ waiting)
    have part := part.of_engine (t := w.1.stream) rfl
    have allowed := (w.1.stream.accept offered r).resumeSent_allowed o.logged r suspends
    exact ⟨settle_keeps w i part (by rintro _ ⟨⟩) fits, settle_sized before part allowed fits⟩
  | received r bytes c p len flag waiting request counted room =>
    have fits := before.representable i c p waiting
    have suspends : c.Suspends p := by simpa [waiting, Pc.Proper] using before.proper i
    have part := (w.1.stream.obtain bytes).resumeReceived_part o r bytes (w.2 i) request fits suspends
    have part := part.of_engine (t := w.1.stream) rfl
    have allowed := (w.1.stream.obtain bytes).resumeReceived_allowed o.logged r bytes suspends
    exact ⟨settle_keeps w i part (by rintro _ ⟨⟩) fits, settle_sized before part allowed fits⟩

theorem represents_of_keeps {w : Measured ι σ} {input : ι × Input}
    (keeps : w.KeepsLengths o input) : w.Represents input := by
  obtain ⟨i, input⟩ := input
  rintro c rfl free
  have kept := keeps (w.1.settle i c (w.1.stream.start o.logged c),
    measure w.1 (i, .call c) (w.1.settle i c (w.1.stream.start o.logged c)) w.2)
    (by simp only [step, watching, Machine.step, if_pos free, Option.map_some])
  generalize measure w.1 (i, .call c) _ w.2 = given at kept
  have rejected (long : 2 ^ 31 ≤ c.length) :
      ¬ w.1.stream.log.length < (w.1.stream.start o.logged c).1.log.length :=
    Nat.not_lt.mpr (List.drop_eq_nil_iff.mp (kept.rejects c rfl long).1)
  cases c with
  | handshake type => trivial
  | send buf flag =>
    refine Nat.not_le.mp fun long => rejected long ?_
    exact (w.1.stream.sendLoop_run o.logged buf flag 0).log.2 (Nat.lt_of_lt_of_le (Nat.two_pow_pos 31) long)
  | recv len flag =>
    obtain ⟨k, data, some, positive, ended⟩ | ⟨ret, log⟩ := w.1.stream.recv_log o len flag
    · refine ⟨some, Nat.not_le.mp fun long => ?_⟩
      obtain ⟨-, out, returned, fails⟩ := kept.rejects _ rfl long
      rw [Machine.settle_slot, Progress.pc_returned] at returned
      obtain rfl : Outcome.received k data = out := Progress.done.inj (ended.symm.trans returned.2)
      exact absurd positive (not_lt.mpr (le_of_lt fails))
    · have made : w.sslCalls (w.1.settle i (.recv len flag)
          (w.1.stream.start o.logged (.recv len flag)), given) = [.read (toInt32 len) ret] := by
        change (w.1.stream.recv o.logged len flag).1.log.drop _ = _
        rw [log, List.drop_left]
      have reads := kept.reads len flag (Machine.settle_call ..)
      rw [made] at reads
      have bound := toInt32_le len
      refine ⟨by have positive := reads.1; omega, Nat.not_le.mp fun long => rejected long ?_⟩
      change _ < (w.1.stream.recv o.logged len flag).1.log.length
      rw [log, List.length_append]
      exact Nat.lt_succ_self _

end Measured

/--
In a run of calls in any slots, no step passes a wrong length to the library or returns one exactly
when each `send` has a buffer of less than 2³¹ bytes, and each `recv` one of at least one and less
than 2³¹.
-/
theorem lengths_kept_iff {ι σ : Type} [DecidableEq ι] (o : Lib σ) (ssl : σ)
    (inputs : List (ι × Input)) :
    Always (Measured.step o) (Measured.KeepsLengths o) (Measured.fresh ssl) inputs ↔
      Always (Measured.step o) Measured.Represents (Measured.fresh ssl) inputs := by
  refine (always_congr_of (fun w input w' before represents taken => ?_)
    (fun w input before => ?_) (Measured.fresh_sized ssl)).symm
  · exact (Measured.step_sized before represents taken).2
  · refine ⟨fun represents w' taken => ?_, Measured.represents_of_keeps⟩
    exact (Measured.step_sized before represents taken).1

-- `SSL_read` is given a negative length, and the raw stream is asked for the bytes all the same.
theorem recv_mangles_length :
    ¬ ∀ inputs : List (Unit × Input), Always (Measured.step Lib.records)
      (Measured.KeepsLengths Lib.records) (Measured.fresh .established) inputs := by
  intro claim
  have started : (Measured.step Lib.records (Measured.fresh .established : Measured Unit RecordState)
      ((), .call (.recv (2 ^ 31) 0))).map (fun w => (w.1.slots (), w.1.stream.log)) =
        some (.suspended (.recv (2 ^ 31) 0) (.recvRaw (2 ^ 31) 0), [.read (-2 ^ 31) (-1)]) := by
    decide +kernel
  obtain ⟨w, taken, view⟩ := Option.map_eq_some_iff.mp started
  obtain ⟨slot, log⟩ := Prod.mk.injEq .. ▸ view
  have kept := (claim [((), .call (.recv (2 ^ 31) 0))]).1 w taken
  have reads := kept.reads (2 ^ 31) 0 (by simp [slot, Pc.call?])
  have made : (Measured.fresh .established : Measured Unit RecordState).sslCalls w =
      [.read (-2 ^ 31) (-1)] := log
  rw [made] at reads
  exact absurd reads.1 (by decide)

end KkProxy.Ssl
