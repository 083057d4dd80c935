import KkProxy.Coro.BlockRun
import KkProxy.Coro.Contexts
import KkProxy.Coro.Resume
import KkProxy.Coro.Results
import KkProxy.Shared.Chains
import Mathlib.Data.List.Infix

set_option autoImplicit false

namespace KkProxy.Coro

open Runs Chains Relation

namespace State

variable {α : Type}

section Operations

variable {s next : State α} {a : Action α} {c : ContextId}

structure Identified (s : State α) : Prop where
  used : ∀ c, ∀ op ∈ (s.rings c).inflight, op.id < s.opCount
  nodup : ∀ c, ((s.rings c).inflight.map Op.id).Nodup

theorem Identified.fewer (identified : s.Identified) (count : next.opCount = s.opCount)
    (fewer : ∀ c, ((next.rings c).inflight).Sublist (s.rings c).inflight) : next.Identified where
  used c op waiting := count ▸ identified.used c op ((fewer c).subset waiting)
  nodup c := (identified.nodup c).sublist ((fewer c).map Op.id)

theorem Identified.submit (identified : s.Identified) (c : ContextId) (f : Handle) :
    (s.submitTo c f).Identified where
  used c' op waiting := by
    rw [submitTo_inflight] at waiting
    refine Nat.lt_succ_iff.mpr ?_
    split_ifs at waiting with same
    · rcases List.mem_append.mp waiting with old | new
      · exact Nat.le_of_lt (identified.used c op old)
      · obtain rfl := List.mem_singleton.mp new
        exact Nat.le_refl _
    · exact Nat.le_of_lt (identified.used c' op waiting)
  nodup c' := by
    rw [submitTo_inflight]
    split_ifs with same
    · rw [List.map_append, List.map_singleton]
      refine List.nodup_append.mpr ⟨identified.nodup c, List.nodup_singleton _, ?_⟩
      rintro id old _ new rfl
      obtain ⟨op, waiting, rfl⟩ := List.mem_map.mp old
      have earlier := identified.used c op waiting
      obtain same : op.id = s.opCount := List.mem_singleton.mp new
      exact absurd same (Nat.ne_of_lt earlier)
    · exact identified.nodup c'

theorem Identified.find (identified : s.Identified) {op : Op} (waiting : op ∈ (s.rings c).inflight) :
    (s.rings c).inflight.find? (fun o => o.id = op.id) = some op := by
  have nodup := identified.nodup c
  revert waiting nodup
  induction (s.rings c).inflight with
  | nil => simp
  | cons first rest ih =>
    intro waiting nodup
    obtain ⟨absent, nodup⟩ := List.nodup_cons.mp nodup
    rcases List.mem_cons.mp waiting with rfl | later
    · simp
    · have other : first.id ≠ op.id := fun same =>
        absent (List.mem_map.mpr ⟨op, later, same.symm⟩)
      rw [List.find?_cons_of_neg (by simpa using other)]
      exact ih later nodup

end Operations

section Listed

variable {s t : State α}

def Listed (s : State α) : Prop := ∀ f, (s.frames f).phase = .running → f ∈ bodies s.stack

theorem Listed.of_same (listed : s.Listed) (same : bodies t.stack = bodies s.stack)
    (phase : ∀ f, (t.frames f).phase = (s.frames f).phase) : t.Listed := by
  intro f running
  rw [same]
  rw [phase] at running
  exact listed f running

theorem Listed.run (listed : s.Listed) (g : Handle) (received : Option α) :
    (s.run g received).Listed := by
  intro f running
  rw [run_phase] at running
  change f ∈ g :: bodies s.stack
  split_ifs at running with same
  · exact same ▸ List.mem_cons_self
  · exact List.mem_cons_of_mem g (listed f running)

theorem Listed.leave (listed : s.Listed) {f : Handle} {rest : List Activation}
    (top : s.stack = .body (some f) :: rest) (popped : bodies t.stack = bodies rest)
    (left : (t.frames f).phase ≠ .running)
    (phase : ∀ g, g ≠ f → (t.frames g).phase = (s.frames g).phase) : t.Listed := by
  intro g running
  have other : g ≠ f := fun same => left (same ▸ running)
  rw [phase g other] at running
  have member : g ∈ f :: bodies rest := by
    have listed := listed g running
    rwa [top] at listed
  rw [popped]
  exact (List.mem_cons.mp member).resolve_left other

end Listed

end State

def Phase.suspended : Phase → Bool
  | .awaiting _ | .io _ => true
  | .created | .running | .final => false

namespace State

variable {α : Type}

def SparesSuspended (s : State α) (a : Action α) : Prop :=
  ∀ g ∈ s.destroys a, (s.frames g).phase.suspended = false

instance (s : State α) : DecidablePred s.SparesSuspended := fun a =>
  inferInstanceAs (Decidable (∀ g ∈ s.destroys a, (s.frames g).phase.suspended = false))

def inContext (s : State α) (a : Action α) : Bool :=
  match s.stack, a with
  | .body _ :: _, .launch c t | .body _ :: _, .launchDetached c t | .body _ :: _, .blockRun c t =>
    (s.tasks t).handle.all fun g => !decide (s.Started g) || (s.frames g).context == some c
  | .body (some f) :: _, .await _ t =>
    (s.tasks t).handle.all fun g => !decide (s.Started g) || (s.frames g).phase == .final ||
      (s.frames g).context == (s.frames f).context
  | _, _ => true

theorem inContext_iff (s : State α) (a : Action α) : s.inContext a = true ↔ s.InContext a := by
  cases stack : s.stack with
  | nil => simp [inContext, InContext, stack]
  | cons top rest =>
    cases top with
    | body who =>
      cases a with
      | await kind t =>
        cases who <;> simp [inContext, InContext, stack, Option.all_eq_true, imp_iff_not_or,
          or_assoc]
      | launch c t | launchDetached c t | blockRun c t =>
        simp [inContext, InContext, stack, Option.all_eq_true, imp_iff_not_or]
      | _ => simp [inContext, InContext, stack]
    | _ => simp [inContext, InContext, stack]

instance (s : State α) : DecidablePred s.InContext := fun a =>
  decidable_of_iff (s.inContext a = true) (s.inContext_iff a)

structure Underway (s : State α) : Prop where
  rooted : s.Rooted
  waiters : s.Waiters
  identified : s.Identified
  listed : s.Listed
  intact : ∀ g, s.Started g → (s.frames g).phase ≠ .final → (s.frames g).destroyed = false
  submitted : ∀ f op, (s.frames f).phase = .io op → ∃ c, (s.frames f).context = some c ∧
    { id := op, frame := f } ∈ (s.rings c).inflight
  awaited : ∀ f g, (s.frames f).phase = .awaiting g → s.Started g ∧
    (s.frames g).phase ≠ .final ∧ (s.frames g).context = (s.frames f).context

section Step

variable {s next : State α} {a : Action α}

theorem Underway.waits (underway : s.Underway) {f g : Handle}
    (waiting : (s.frames f).phase = .awaiting g) : s.Waits f g :=
  ⟨underway.intact f (by simp [Started, waiting]) (by simp [waiting]), waiting⟩

end Step

section Chain

variable {s : State α} {g : Handle}

end Chain

end State

def Grounded (stack : List Activation) : Prop :=
  ∃ above, hosts above = [] ∧ stack = above ++ hosts stack

section Grounded

variable {top : Activation} {rest : List Activation}

theorem hosts_length (stack : List Activation) : (hosts stack).length ≤ stack.length := by
  induction stack with
  | nil => exact Nat.le_refl _
  | cons top rest ih =>
    cases top with
    | body who =>
      cases who with
      | none => exact Nat.succ_le_succ ih
      | some f => exact Nat.le_succ_of_le ih
    | entering c | loop c => exact Nat.succ_le_succ ih
    | launching who g | unwinding tasks pending => exact Nat.le_succ_of_le ih

theorem Grounded.push (grounded : Grounded rest) (guest : ∀ l, hosts (top :: l) = hosts l) :
    Grounded (top :: rest) := by
  obtain ⟨above, none, same⟩ := grounded
  refine ⟨top :: above, (guest above).trans none, ?_⟩
  rw [guest, List.cons_append, ← same]

theorem Grounded.pop (grounded : Grounded (top :: rest)) (guest : ∀ l, hosts (top :: l) = hosts l) :
    Grounded rest := by
  obtain ⟨above, none, same⟩ := grounded
  rw [guest] at same
  cases above with
  | nil =>
    have short := hosts_length rest
    rw [← List.nil_append (hosts rest), ← same] at short
    exact absurd short (Nat.not_succ_le_self _)
  | cons first above =>
    obtain ⟨rfl, below⟩ := List.cons.inj same
    exact ⟨above, (guest above).symm.trans none, below⟩

theorem Grounded.below (grounded : Grounded (top :: rest))
    (host : ∀ l, hosts (top :: l) = top :: hosts l) : rest = hosts rest := by
  obtain ⟨above, none, same⟩ := grounded
  rw [host] at same
  cases above with
  | nil => exact (List.cons.inj same).2
  | cons first above =>
    obtain ⟨rfl, -⟩ := List.cons.inj same
    simp [host] at none

end Grounded

namespace State

variable {α : Type}

/--
`block_run` is only called outside all coroutines, nobody starts or awaits a task twice or in
another context, no suspended coroutine is destroyed, and a completion only comes with 0.
-/
structure Careful (c : ContextId) (s : State α) (a : Action α) : Prop where
  outside : s.CallsOutside c a
  joins : s.Joins a
  inContext : s.InContext a
  spares : s.SparesSuspended a
  success : a.onSuccess = true

instance (c : ContextId) (s : State α) : DecidablePred (s.Careful c) := fun a =>
  decidable_of_iff (s.CallsOutside c a ∧ s.Joins a ∧ s.InContext a ∧ s.SparesSuspended a ∧
      a.onSuccess = true)
    ⟨fun ⟨outside, joins, inContext, spares, success⟩ =>
        ⟨outside, joins, inContext, spares, success⟩,
      fun ⟨outside, joins, inContext, spares, success⟩ =>
        ⟨outside, joins, inContext, spares, success⟩⟩

end State

namespace Watch

variable {α : Type} {c : ContextId}

structure Live (c : ContextId) (w : Watch α) : Prop where
  sound : w.Sound c
  underway : w.state.Underway
  grounded : Grounded w.state.stack
  unstuck : (w.state.rings c).stuck = false

end Watch

end KkProxy.Coro
