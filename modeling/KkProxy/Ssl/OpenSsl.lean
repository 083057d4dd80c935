import Mathlib.Data.List.TakeDrop
import Mathlib.Algebra.Group.Nat.Defs
import Mathlib.Data.Int.Order.Basic

set_option autoImplicit false

namespace KkProxy.Ssl

abbrev Bytes := List UInt8

-- The conversion of a `size_t` or `unsigned long` to a 32-bit `int`.
def toInt32 (n : Nat) : Int := (n : Int).bmod (2 ^ 32)

theorem toInt32_of_lt {n : Nat} (bound : n < 2 ^ 31) : toInt32 n = n := by
  unfold toInt32
  apply Int.bmod_eq_of_le <;> omega

theorem toInt32_le (n : Nat) : toInt32 n ≤ n := by
  unfold toInt32
  rw [Int.bmod_def]
  split <;> omega

-- One entry of a thread's error queue; `system` marks those of `ERR_LIB_SYS`.
structure ErrEntry where
  code : Nat
  system : Bool
deriving DecidableEq, Repr

/-- The results of `SSL_get_error`; `other` stands for those no caller names. -/
inductive SslError where
  | none | ssl | wantRead | wantWrite | syscall | zeroReturn | other
deriving DecidableEq, Repr

structure Answer (σ : Type) where
  ret : Int
  ssl : σ
  -- What the call leaves of the read BIO.
  readBio : Bytes
  output : Bytes
  errors : List ErrEntry
  data : Bytes

structure Lib (σ : Type) where
  setConnectState : σ → σ
  setAcceptState : σ → σ
  initFinished : σ → Bool
  connect : σ → Bytes → Answer σ
  accept : σ → Bytes → Answer σ
  read : σ → Bytes → Int → Answer σ
  write : σ → Bytes → Bytes → Int → Answer σ
  getError : σ → List ErrEntry → Int → SslError
  -- `SSL_read` and `SSL_write` never report more bytes than they were asked for.
  read_ret : ∀ ssl bio num, (read ssl bio num).ret ≤ max num 0
  read_data : ∀ ssl bio num, (read ssl bio num).data.length = (read ssl bio num).ret.toNat
  write_ret : ∀ ssl bio buf num, (write ssl bio buf num).ret ≤ max num 0

/-- `SSL_get_error` answers from the return value, then the error queue, then the want state. -/
structure Lib.ErrorContract {σ : Type} (o : Lib σ) : Prop where
  positive : ∀ ssl queue ret, 0 < ret → o.getError ssl queue ret = .none
  queued : ∀ ssl queue ret, ret ≤ 0 → queue ≠ [] →
    o.getError ssl queue ret = .ssl ∨ o.getError ssl queue ret = .syscall

inductive RecordState where
  | established | closed | failed
deriving DecidableEq, Repr

/--
`SSL_read` over records of two bytes, the kind and its content: data, a session ticket, a close
notification, a key update to be answered, or anything else, which is answered by an alert.
-/
def readRecord (output : Bytes) : Bytes → Answer RecordState
  | kind :: byte :: rest =>
    if kind = 0 then ⟨1, .established, rest, output, [], [byte]⟩
    else if kind = 1 then readRecord output rest
    else if kind = 2 then ⟨0, .closed, rest, output, [], []⟩
    else if kind = 3 then readRecord (output ++ [3, byte]) rest
    else ⟨-1, .failed, rest, output ++ [4, byte], [⟨1, false⟩], []⟩
  | bio => ⟨-1, .established, bio, output, [], []⟩

theorem readRecord_ret (output bio : Bytes) :
    (readRecord output bio).ret ≤ 1 ∧
      (readRecord output bio).data.length = (readRecord output bio).ret.toNat := by
  fun_induction readRecord output bio <;> simp_all

def Lib.records : Lib RecordState where
  setConnectState := id
  setAcceptState := id
  initFinished _ := true
  connect ssl bio := ⟨1, ssl, bio, [], [], []⟩
  accept ssl bio := ⟨1, ssl, bio, [], [], []⟩
  read ssl bio num :=
    if num ≤ 0 then ⟨-1, ssl, bio, [], [], []⟩
    else match ssl with
      | .established => readRecord [] bio
      | .closed => ⟨0, .closed, bio, [], [], []⟩
      | .failed => ⟨-1, .failed, bio, [], [⟨1, false⟩], []⟩
  write ssl bio buf num :=
    if buf = [] ∨ num ≤ 0 then ⟨-1, ssl, bio, [], [], []⟩
    else ⟨(buf.take num.toNat).length, ssl, bio,
      (buf.take num.toNat).flatMap fun byte => [0, byte], [], []⟩
  getError ssl queue ret :=
    if 0 < ret then .none
    else if queue ≠ [] then .ssl
    else if ssl = .closed then .zeroReturn
    else .wantRead
  read_ret ssl bio num := by
    have record := (readRecord_ret [] bio).1
    split_ifs
    · dsimp only
      omega
    · cases ssl <;> dsimp only <;> omega
  read_data ssl bio num := by
    split_ifs
    · rfl
    · cases ssl with
      | established => exact (readRecord_ret [] bio).2
      | closed | failed => rfl
  write_ret ssl bio buf num := by
    split_ifs
    · dsimp only
      omega
    · simp only [List.length_take]
      omega

theorem Lib.records_contract : Lib.records.ErrorContract where
  positive _ _ _ positive := by simp [records, positive]
  queued _ _ _ failed full := by simp [records, full, not_lt.mpr failed]

structure BioRead where
  ret : Int
  data : Bytes
  rest : Bytes

def bioRead (bio : Bytes) (len : Int) : BioRead :=
  if len < 0 then ⟨0, [], bio⟩
  else if bio = [] then ⟨-1, [], []⟩
  else ⟨(bio.take len.toNat).length, bio.take len.toNat, bio.drop len.toNat⟩

theorem bioRead_data (bio : Bytes) (len : Int) :
    (bioRead bio len).data ++ (bioRead bio len).rest = bio := by
  unfold bioRead
  split_ifs with negative empty
  · rfl
  · simp [empty]
  · exact List.take_append_drop _ _

theorem bioRead_ret_pos {bio : Bytes} {len : Int} (positive : 0 < (bioRead bio len).ret) :
    (bioRead bio len).ret = (bioRead bio len).data.length := by
  unfold bioRead at *
  split_ifs at * with negative empty
  · simp at positive
  · simp at positive
  · rfl

theorem bioRead_ret_nonpos {bio : Bytes} {len : Int} (failed : (bioRead bio len).ret ≤ 0) :
    (bioRead bio len).data = [] := by
  unfold bioRead at *
  split_ifs at * with negative empty
  · rfl
  · rfl
  · exact List.length_eq_zero_iff.mp (by simpa using failed)

theorem bioRead_pending {bio : Bytes} {len : Int} (pending : bio ≠ []) (room : 0 < len) :
    0 < (bioRead bio len).ret := by
  have length : 0 < bio.length := List.length_pos_iff.mpr pending
  unfold bioRead
  rw [if_neg (by omega), if_neg pending]
  simp only [List.length_take]
  omega

-- What `BIO_write` on a memory BIO returns, and the BIO afterwards: it accepts all bytes.
def bioWrite (bio data : Bytes) (len : Int) : Int × Bytes :=
  if len ≤ 0 then (0, bio) else (len, bio ++ data.take len.toNat)

end KkProxy.Ssl
