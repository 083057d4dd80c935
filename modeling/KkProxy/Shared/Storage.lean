import Mathlib.Data.List.TakeDrop
import Mathlib.Algebra.Group.Nat.Defs
import Mathlib.Tactic.SplitIfs

set_option autoImplicit false

namespace KkProxy.Shared

structure Storage where
  bytes : Nat → UInt8
  accesses : List (Nat × Nat)

namespace Storage

def place (object : List UInt8) (around : Nat → UInt8) : Storage :=
  { bytes := fun i => object[i]?.getD (around i), accesses := [] }

def load (s : Storage) (offset n : Nat) : List UInt8 :=
  (List.range n).map fun i => s.bytes (offset + i)

def read (s : Storage) (offset n : Nat) : Storage :=
  { s with accesses := s.accesses ++ [(offset, n)] }

def write (s : Storage) (offset : Nat) (data : List UInt8) : Storage :=
  { bytes := fun i =>
      if offset ≤ i ∧ i < offset + data.length then data[i - offset]?.getD 0 else s.bytes i
    accesses := s.accesses ++ [(offset, data.length)] }

/-- No access has gone beyond an object of `size` bytes. -/
def Within (s : Storage) (size : Nat) : Prop := ∀ access ∈ s.accesses, access.1 + access.2 ≤ size

variable (s : Storage) (offset n : Nat) (data object : List UInt8) (around : Nat → UInt8)

@[simp] theorem load_length : (s.load offset n).length = n := by simp [load]

@[simp] theorem read_load (offset' n' : Nat) :
    (s.read offset n).load offset' n' = s.load offset' n' := rfl

theorem write_load : (s.write offset data).load offset data.length = data := by
  refine List.ext_getElem (load_length _ _ _) fun i _ bound => ?_
  simp [load, write, bound]

variable {s offset n data object around}

theorem write_load_of_length (length : data.length = n) :
    (s.write offset data).load offset n = data := by
  subst length
  exact write_load s offset data

theorem write_load_apart {offset' n' : Nat}
    (apart : offset' + n' ≤ offset ∨ offset + data.length ≤ offset') :
    (s.write offset data).load offset' n' = s.load offset' n' := by
  refine List.map_congr_left fun i member => ?_
  have bound := List.mem_range.mp member
  exact if_neg (by omega)

theorem load_load {offset' n' : Nat} (inside : offset' + n' ≤ n) :
    ((s.load offset n).drop offset').take n' = s.load (offset + offset') n' := by
  refine List.ext_getElem ?_ fun i _ _ => ?_
  · simp
    omega
  · simp [load, Nat.add_assoc]

theorem write_load_inside {offset' n' : Nat} (inside : offset' + n' ≤ data.length) :
    (s.write offset data).load (offset + offset') n' = (data.drop offset').take n' := by
  rw [← load_load inside, write_load]

def SameObject (size : Nat) (s t : Storage) : Prop := ∀ i < size, s.bytes i = t.bytes i

theorem SameObject.load {size : Nat} {t : Storage} (same : SameObject size s t)
    (inside : offset + n ≤ size) : s.load offset n = t.load offset n := by
  refine List.map_congr_left fun i member => same _ ?_
  have bound := List.mem_range.mp member
  omega

theorem SameObject.write {size : Nat} {t : Storage} (same : SameObject size s t) (offset : Nat)
    (data : List UInt8) : SameObject size (s.write offset data) (t.write offset data) := by
  intro i bound
  simp only [Storage.write]
  split_ifs
  · rfl
  · exact same i bound

theorem write_sameObject (s t : Storage) (data : List UInt8) :
    SameObject data.length (s.write 0 data) (t.write 0 data) := by
  intro i bound
  have covered : 0 ≤ i ∧ i < 0 + data.length := by omega
  simp only [Storage.write, if_pos covered]

theorem place_load (inside : offset + n ≤ object.length) :
    (place object around).load offset n = (object.drop offset).take n := by
  refine List.ext_getElem ?_ fun i bound _ => ?_
  · simp
    omega
  · have bound : i < n := by simpa using bound
    have inside : offset + i < object.length := by omega
    simp [load, place, inside]

theorem place_within (size : Nat) : (place object around).Within size := by
  simp [Within, place]

theorem Within.access {size : Nat} {t : Storage} (within : s.Within size) {access : Nat × Nat}
    (inside : access.1 + access.2 ≤ size) (more : t.accesses = s.accesses ++ [access]) :
    t.Within size := by
  intro other member
  rw [more] at member
  rcases List.mem_append.mp member with old | new
  · exact within other old
  · obtain rfl := List.mem_singleton.mp new
    exact inside

theorem read_within {size : Nat} (within : s.Within size) (inside : offset + n ≤ size) :
    (s.read offset n).Within size := within.access inside rfl

theorem write_within {size : Nat} (within : s.Within size) (inside : offset + data.length ≤ size) :
    (s.write offset data).Within size := within.access inside rfl

theorem not_within {size : Nat} {access : Nat × Nat} (member : access ∈ s.accesses)
    (beyond : size < access.1 + access.2) : ¬ s.Within size := fun within =>
  Nat.not_le_of_lt beyond (within access member)

end Storage

end KkProxy.Shared
