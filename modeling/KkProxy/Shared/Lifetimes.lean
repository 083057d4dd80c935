import Mathlib.Logic.Function.Basic
import Mathlib.Tactic.Common

set_option autoImplicit false

namespace KkProxy.Lifetimes

/-- Storage in which every object has a slot of its own, even after the end of another's life. -/
structure Memory (V : Type) where
  next : Nat
  values : Nat → Option V

namespace Memory

variable {V : Type}

def empty : Memory V := { next := 0, values := fun _ => none }

def alloc (m : Memory V) (v : V) : Memory V :=
  { next := m.next + 1, values := Function.update m.values m.next (some v) }

def free (m : Memory V) (slot : Nat) : Memory V :=
  { m with values := Function.update m.values slot none }

def read (m : Memory V) (slot : Nat) : Option V := m.values slot

structure Lives (m : Memory V) (slot : Nat) (v : V) : Prop where
  bound : slot < m.next
  value : m.read slot = some v

structure Ended (m : Memory V) (slot : Nat) : Prop where
  bound : slot < m.next
  gone : m.read slot = none

variable {m : Memory V} {slot other : Nat} {v w : V}

theorem read_alloc (bound : slot < m.next) : (m.alloc v).read slot = m.read slot :=
  Function.update_of_ne (Nat.ne_of_lt bound) _ _

theorem read_free (m : Memory V) (slot other : Nat) :
    (m.free other).read slot = if slot = other then none else m.read slot := by
  simp only [read, free, Function.update_apply]

theorem alloc_lives (m : Memory V) (v : V) : (m.alloc v).Lives m.next v :=
  ⟨Nat.lt_succ_self _, by simp [alloc, read]⟩

theorem Lives.alloc (lives : m.Lives slot v) (w : V) : (m.alloc w).Lives slot v :=
  ⟨Nat.lt_succ_of_lt lives.bound, (read_alloc lives.bound).trans lives.value⟩

theorem Lives.free (lives : m.Lives slot v) (differ : slot ≠ other) :
    (m.free other).Lives slot v :=
  ⟨lives.bound, by rw [read_free, if_neg differ, lives.value]⟩

theorem Lives.ended (lives : m.Lives slot v) : (m.free slot).Ended slot :=
  ⟨lives.bound, by rw [read_free, if_pos rfl]⟩

theorem Ended.alloc (ended : m.Ended slot) (w : V) : (m.alloc w).Ended slot :=
  ⟨Nat.lt_succ_of_lt ended.bound, (read_alloc ended.bound).trans ended.gone⟩

theorem Ended.free (ended : m.Ended slot) (other : Nat) : (m.free other).Ended slot :=
  ⟨ended.bound, by rw [read_free, ended.gone, ite_self]⟩

structure Extends (m m' : Memory V) : Prop where
  lives : ∀ slot v, m.Lives slot v → m'.Lives slot v
  ended : ∀ slot, m.Ended slot → m'.Ended slot

theorem Extends.refl (m : Memory V) : m.Extends m := ⟨fun _ _ => id, fun _ => id⟩

theorem Extends.alloc {m m' : Memory V} (later : m.Extends m') (v : V) : m.Extends (m'.alloc v) :=
  ⟨fun slot w lives => (later.lives slot w lives).alloc v,
    fun slot ended => (later.ended slot ended).alloc v⟩

theorem Extends.free {m m' : Memory V} (later : m.Extends m') {slot : Nat}
    (since : m.next ≤ slot) : m.Extends (m'.free slot) :=
  ⟨fun older w lives => (later.lives older w lives).free
      (Nat.ne_of_lt (Nat.lt_of_lt_of_le lives.bound since)),
    fun older ended => (later.ended older ended).free slot⟩

end Memory

end KkProxy.Lifetimes
