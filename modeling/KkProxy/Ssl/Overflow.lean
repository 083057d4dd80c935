import KkProxy.Ssl.Stream
import Mathlib.Algebra.GroupWithZero.Nat

set_option autoImplicit false

namespace KkProxy.Ssl

-- A read of the loop's second branch: the length it is given, the storage behind the elements of
-- `leftover_`.
structure OverflowRead where
  offered : Int
  room : Nat
  data : Bytes
deriving DecidableEq, Repr

namespace Stream

variable {σ : Type} (o : Lib σ)

def leftoverRemaining (s : Stream σ) : Nat := s.leftover.capacity - s.leftover.data.length

-- `leftover_` as it is when the branch reads.
def reserved (s : Stream σ) : Vec :=
  if s.leftoverRemaining ≤ 0 then s.leftover.reserve (s.leftover.capacity * 2) else s.leftover

-- The read of one turn: its length was computed before the storage has grown.
def overflowReply (s : Stream σ) : Reply σ := s.engine.read (toInt32 s.leftoverRemaining)

def overflowRead (s : Stream σ) (offered : Int) (read : Reply σ) : OverflowRead :=
  { offered
    room := s.reserved.capacity - s.leftover.data.length
    data := read.data }

def overflowTurn (s : Stream σ) (read : Reply σ) : Stream σ :=
  { s with
    engine := read.engine
    leftover := s.reserved.resize (s.reserved.data.length + read.ret.toNat) }

def overflowReads (s : Stream σ) : List OverflowRead :=
  s.overflowRead (toInt32 s.leftoverRemaining) s.overflowReply ::
    if 0 < s.overflowReply.ret then overflowReads (s.overflowTurn s.overflowReply) else []
termination_by s.engine.writeBio.length
decreasing_by
  have taken : 0 < s.overflowReply.ret := ‹_›
  exact Engine.read_shrinks taken

def overflowBytes (s : Stream σ) : Bytes := s.overflowReads.flatMap OverflowRead.data

-- What later calls of `read_leftover` copy to buffers of these sizes.
def handOut (s : Stream σ) : List Nat → List Bytes × Stream σ
  | [] => ([], s)
  | len :: rest =>
    let first := s.readLeftover len
    let later := first.2.handOut rest
    (first.1 :: later.1, later.2)

structure HandsOut (s : Stream σ) (bytes : Bytes) : Prop where
  taken : ∀ sizes, (s.handOut sizes).1.flatten = bytes.take sizes.sum
  left : ∀ sizes, (s.handOut sizes).2.leftover.data = bytes.drop sizes.sum
  fits : ∀ sizes, List.Forall₂ (fun len (part : Bytes) => part.length ≤ len) sizes
    (s.handOut sizes).1
  -- `recv` looks at nothing else while there are any.
  first : ∀ sizes len flag, 0 < len → (s.handOut sizes).2.leftover.data ≠ [] →
    (s.handOut sizes).2.recv o len flag =
      let part := (s.handOut sizes).2.readLeftover len
      (part.2, .done (.received part.1.length part.1))

/-- The branch takes plaintext only, into free storage, and keeps it for later calls. -/
structure KeepsOverflow (placed : Bytes) (s : Stream σ) : Prop where
  room : ∀ read ∈ s.overflowReads, 1 ≤ read.offered ∧ read.offered ≤ read.room
  plaintext : (s.overflowLoop o placed).1.engine.decrypted =
    s.engine.decrypted ++ s.overflowBytes
  output : (s.overflowLoop o placed).1.engine.writeBio = s.engine.writeBio
  leftover : (s.overflowLoop o placed).1.leftover.data = s.leftover.data ++ s.overflowBytes
  next : (s.overflowLoop o placed).1.HandsOut o (s.leftover.data ++ s.overflowBytes)

section Leftover

theorem readLeftover_take (len : Nat) (s : Stream σ) :
    (s.readLeftover len).1 = s.leftover.data.take len ∧
      (s.readLeftover len).2.leftover.data = s.leftover.data.drop len := by
  unfold readLeftover
  split_ifs with empty
  · simp [empty]
  · exact ⟨List.take_eq_take_min.symm, List.drop_eq_drop_min.symm⟩

theorem handOut_taken (s : Stream σ) (sizes : List Nat) :
    (s.handOut sizes).1.flatten = s.leftover.data.take sizes.sum ∧
      (s.handOut sizes).2.leftover.data = s.leftover.data.drop sizes.sum := by
  induction sizes generalizing s with
  | nil => simp [handOut]
  | cons len rest ih =>
    obtain ⟨taken, left⟩ := s.readLeftover_take len
    obtain ⟨later, final⟩ := ih (s.readLeftover len).2
    constructor
    · rw [handOut, List.flatten_cons, later, taken, left, List.sum_cons, List.take_add]
    · rw [handOut, final, left, List.sum_cons, List.drop_drop]

theorem handOut_fits (s : Stream σ) (sizes : List Nat) :
    List.Forall₂ (fun len (part : Bytes) => part.length ≤ len) sizes (s.handOut sizes).1 := by
  induction sizes generalizing s with
  | nil => exact .nil
  | cons len rest ih =>
    refine .cons ?_ (ih _)
    rw [(s.readLeftover_take len).1]
    exact List.length_take_le ..

theorem recv_leftover (s : Stream σ) {len : Nat} (flag : Int) (positive : 0 < len)
    (some : s.leftover.data ≠ []) :
    s.recv o len flag = let part := s.readLeftover len
      (part.2, .done (.received part.1.length part.1)) := by
  have first : 0 < (s.readLeftover len).1.length := by
    have bytes : 0 < s.leftover.data.length := List.length_pos_iff.mpr some
    rw [(s.readLeftover_take len).1, List.length_take]
    omega
  simp [recv, first]

theorem handsOut (s : Stream σ) : s.HandsOut o s.leftover.data where
  taken sizes := (s.handOut_taken sizes).1
  left sizes := (s.handOut_taken sizes).2
  fits sizes := s.handOut_fits sizes
  first _ _ flag positive some := recv_leftover o _ flag positive some

end Leftover

section Loop

section Turn

variable (s : Stream σ) (offered : Int) (read : Reply σ)

theorem overflowRead_offered : (s.overflowRead offered read).offered = offered := rfl

theorem overflowRead_room :
    (s.overflowRead offered read).room = s.reserved.capacity - s.leftover.data.length := rfl

theorem overflowRead_data : (s.overflowRead offered read).data = read.data := rfl

theorem overflowTurn_engine : (s.overflowTurn read).engine = read.engine := rfl

@[simp] theorem reserved_data : s.reserved.data = s.leftover.data := by
  unfold reserved
  split_ifs <;> rfl

theorem overflowReply_bytes :
    s.overflowReply.data ++ s.overflowReply.engine.writeBio = s.engine.writeBio :=
  s.engine.read_data _

theorem overflowReply_some (positive : 0 < s.overflowReply.ret) : s.overflowReply.data ≠ [] := by
  intro none
  have counted : s.overflowReply.ret = s.overflowReply.data.length := Engine.read_ret_pos positive
  simp [counted, none] at positive

theorem overflowReply_decrypted : s.overflowReply.engine.decrypted = s.engine.decrypted :=
  s.engine.read_decrypted _

end Turn

theorem overflowLoop_eq (placed : Bytes) (s : Stream σ) :
    (s.overflowLoop o placed).1 =
      if 0 < s.overflowReply.ret then ((s.overflowTurn s.overflowReply).overflowLoop o placed).1
      else { s with engine := s.overflowReply.engine, leftover := s.reserved } := by
  have turn := overflowLoop.eq_def o placed s
  dsimp only at turn
  rw [turn]
  change (if 0 < s.overflowReply.ret
    then (s.overflowTurn s.overflowReply).overflowLoop o placed else _).1 = _
  by_cases positive : 0 < s.overflowReply.ret
  · rw [if_pos positive, if_pos positive]
  · rw [if_neg positive, if_neg positive, apply_ite Prod.fst, ite_self]
    rfl

theorem overflowBytes_eq (s : Stream σ) : s.overflowBytes = s.overflowReply.data ++
    if 0 < s.overflowReply.ret then (s.overflowTurn s.overflowReply).overflowBytes else [] := by
  rw [overflowBytes, overflowReads.eq_def s, List.flatMap_cons, overflowRead_data]
  split_ifs
  · rw [overflowBytes]
  · rw [List.flatMap_nil]

-- The bytes come from the engine's output, not from `SSL_read`.
theorem overflowLoop_takes (placed : Bytes) (s : Stream σ) :
    s.overflowBytes ++ (s.overflowLoop o placed).1.engine.writeBio = s.engine.writeBio ∧
      (s.overflowLoop o placed).1.engine.decrypted = s.engine.decrypted := by
  induction s using overflowReads.induct with
  | case1 s ih =>
    have split := s.overflowReply_bytes
    rw [overflowBytes_eq, overflowLoop_eq]
    by_cases positive : 0 < s.overflowReply.ret
    · obtain ⟨rest, same⟩ := ih positive
      rw [overflowTurn_engine] at rest same
      rw [if_pos positive, if_pos positive, List.append_assoc, rest]
      exact ⟨split, same.trans s.overflowReply_decrypted⟩
    · rw [if_neg positive, if_neg positive, List.append_nil]
      exact ⟨split, s.overflowReply_decrypted⟩

end Loop

theorem mem_overflowReads (s : Stream σ) :
    s.overflowRead (toInt32 s.leftoverRemaining) s.overflowReply ∈ s.overflowReads := by
  rw [overflowReads.eq_def s]
  exact List.mem_cons_self

theorem KeepsOverflow.quiet {placed : Bytes} {s : Stream σ} (keeps : s.KeepsOverflow o placed) :
    s.engine.writeBio = [] ∧ 0 < toInt32 s.leftoverRemaining := by
  have offered := (keeps.room _ s.mem_overflowReads).1
  rw [overflowRead_offered] at offered
  refine ⟨?_, by omega⟩
  by_contra pending
  have positive : 0 < s.overflowReply.ret :=
    Engine.read_pending (List.length_pos_iff.mpr pending) (by omega)
  have taken : s.overflowBytes = [] := by
    have split := (s.overflowLoop_takes o placed).1
    rw [keeps.output] at split
    exact List.append_left_eq_self.mp split
  rw [overflowBytes_eq] at taken
  exact s.overflowReply_some positive (List.append_eq_nil_iff.mp taken).1

theorem keepsOverflow_of_quiet (placed : Bytes) {s : Stream σ} (empty : s.engine.writeBio = [])
    (room : 0 < toInt32 s.leftoverRemaining) : s.KeepsOverflow o placed := by
  have free : 0 < s.leftoverRemaining := by
    have bound := toInt32_le s.leftoverRemaining
    omega
  have reserved : s.reserved = s.leftover := if_neg (Nat.not_le.mpr free)
  have none : s.overflowReply.data = [] ∧ s.overflowReply.engine.writeBio = [] :=
    List.append_eq_nil_iff.mp (s.overflowReply_bytes.trans empty)
  have failed : ¬ 0 < s.overflowReply.ret := fun positive =>
    s.overflowReply_some positive none.1
  have only : s.overflowReads = [s.overflowRead (toInt32 s.leftoverRemaining) s.overflowReply] := by
    rw [overflowReads.eq_def s, if_neg failed]
  have bytes : s.overflowBytes = [] := by rw [overflowBytes_eq, if_neg failed, none.1]; rfl
  have final := s.overflowLoop_eq o placed
  rw [if_neg failed, reserved] at final
  have takes := s.overflowLoop_takes o placed
  have leftover : (s.overflowLoop o placed).1.leftover = s.leftover := by rw [final]
  constructor
  · rw [only]
    intro read member
    obtain rfl := List.mem_singleton.mp member
    rw [overflowRead_offered, overflowRead_room, reserved]
    exact ⟨by omega, toInt32_le _⟩
  · rw [bytes, List.append_nil, takes.2]
  · simpa [bytes] using takes.1
  · rw [bytes, List.append_nil, leftover]
  · rw [bytes, List.append_nil, ← leftover]
    exact handsOut o _

/--
What the branch takes is the engine's output, and turns into zeros: `leftover_` keeps and hands out
what was decrypted exactly when there is no output to take, and free space to offer.
-/
theorem overflow_kept_iff (placed : Bytes) (s : Stream σ) :
    s.KeepsOverflow o placed ↔ s.engine.writeBio = [] ∧ 0 < toInt32 s.leftoverRemaining :=
  ⟨KeepsOverflow.quiet o, fun quiet => keepsOverflow_of_quiet o placed quiet.1 quiet.2⟩

end Stream

-- One byte of output is left when the caller's buffer is full.
theorem overflow_takes_output :
    ¬ ∀ (s : Stream RecordState) (placed : Bytes), s.KeepsOverflow Lib.records placed := by
  intro claim
  have kept := claim { Stream.fresh RecordState.established with
    engine := { Engine.fresh RecordState.established with writeBio := [22] } } [7]
  exact absurd (kept.quiet Lib.records).1 (by decide)

end KkProxy.Ssl
