import KkProxy.Shared.Owned
import KkProxy.Shared.Runs
import Mathlib.Logic.Function.Basic

set_option autoImplicit false

namespace KkProxy.Net

open Runs Ownership

inductive Kind where
  | file | socket | serverSocket
deriving DecidableEq, Repr

def Kind.vacated : Kind → Int
  | .file => 0
  | .socket | .serverSocket => -1

def Kind.destructorCloses : Kind → Int → Bool
  | .file, fd => fd ≠ 0
  | .socket, fd | .serverSocket, fd => fd > 0

structure Object where
  kind : Kind
  fd : Int
  -- The descriptor that it has got and neither closed nor passed on.
  owns : Option Nat
deriving DecidableEq, Repr

/-- A number may stand for one descriptor after another; those have numbers of their own here. -/
structure State where
  table : Nat → Option Nat
  count : Nat
  closes : Nat → Nat
  objects : Nat → Option Object
  -- An object has called `::close` on a number that is not its descriptor's.
  stray : Bool

inductive Action where
  -- `::open` or `::socket` returns this number or fails.
  | construct (kind : Kind) (x : Nat) (fd : Option Nat)
  | accept (x : Nat) (fd : Option Nat)
  | moveConstruct (x src : Nat)
  | moveAssign (dst src : Nat)
  -- `socket::close`, and whether `::close` reports success.
  | close (x : Nat) (success : Bool)
  | destroy (x : Nat)
deriving DecidableEq, Repr

namespace State

def init : State :=
  { table := fun _ => none, count := 0, closes := fun _ => 0, objects := fun _ => none,
    stray := false }

def put (s : State) (x : Nat) (o : Option Object) : State :=
  { s with objects := Function.update s.objects x o }

def grant (s : State) (n : Nat) : State :=
  { s with table := Function.update s.table n (some s.count), count := s.count + 1 }

/-- `::close(fd_)`, called by `o`; the descriptor is released whatever it reports. -/
def sysClose (s : State) (o : Object) : State :=
  if 0 ≤ o.fd then
    match s.table o.fd.toNat with
    | none => { s with stray := true }
    | some d =>
      { s with
        table := Function.update s.table o.fd.toNat none
        closes := Function.update s.closes d (s.closes d + 1)
        stray := s.stray || decide (o.owns ≠ some d) }
  else s

def construct (s : State) (kind : Kind) (x : Nat) : Option Nat → State
  | some n => (s.grant n).put x (some { kind, fd := n, owns := some s.count })
  | none =>
    match kind with
    -- The constructor throws.
    | .serverSocket => s
    | .file | .socket => s.put x (some { kind, fd := -1, owns := none })

def accept (s : State) (x : Nat) : Option Nat → State
  | some n =>
    if n > 0 then (s.grant n).put x (some { kind := .socket, fd := n, owns := some s.count })
    else s.grant n
  | none => s

def vacate (s : State) (x : Nat) (o : Object) : State :=
  s.put x (some { o with fd := o.kind.vacated, owns := none })

-- The three `operator=` have the same test.
def moveAssign (s : State) (dst src : Nat) (o other : Object) : State :=
  let closed := if o.fd > 0 then s.sysClose o else s
  (closed.put dst (some other)).vacate src other

def close (s : State) (x : Nat) (o : Object) (success : Bool) : State :=
  if o.fd > 0 then
    (s.sysClose o).put x (some { o with fd := if success then -1 else o.fd, owns := none })
  else s

def destroy (s : State) (x : Nat) (o : Object) : State :=
  (if o.kind.destructorCloses o.fd then s.sysClose o else s).put x none

def grants (s : State) (fd : Option Nat) : Bool := fd.all fun n => (s.table n).isNone

def step (s : State) (a : Action) : Option State :=
  match a with
  | .construct kind x fd =>
    if s.objects x = none ∧ s.grants fd then some (s.construct kind x fd) else none
  | .accept x fd => if s.objects x = none ∧ s.grants fd then some (s.accept x fd) else none
  | .moveConstruct x src =>
    match s.objects x, s.objects src with
    | none, some o => some ((s.put x (some o)).vacate src o)
    | _, _ => none
  | .moveAssign dst src =>
    match s.objects dst, s.objects src with
    | some o, some other =>
      if o.kind = other.kind then
        some (if dst = src then s else s.moveAssign dst src o other)
      else none
    | _, _ => none
  | .close x success =>
    (s.objects x).bind fun o => if o.kind = .socket then some (s.close x o success) else none
  | .destroy x => (s.objects x).map (s.destroy x)

def holds (s : State) (x : Nat) : Option Nat :=
  (s.objects x).bind fun o => if 0 ≤ o.fd then s.table o.fd.toNat else none

structure Closed (s : State) : Prop where
  owned : s.stray = false
  single : ∀ x y d, s.holds x = some d → s.holds y = some d → x = y
  once : ∀ d < s.count, s.closes d = 0 ∧ (∃ x, s.holds x = some d) ∨
    s.closes d = 1 ∧ ∀ x, s.holds x ≠ some d

/-- The kernel never returns 0, and no explicit `close` of an open socket is reported to fail. -/
def Prudent (s : State) : Action → Prop
  | .construct _ _ fd | .accept _ fd => fd ≠ some 0
  | .close x success => ∀ o ∈ s.objects x, o.fd > 0 → success = true
  | _ => True

instance (s : State) : DecidablePred s.Prudent
  | .construct _ _ fd | .accept _ fd => inferInstanceAs (Decidable (fd ≠ some 0))
  | .close x success =>
    inferInstanceAs (Decidable (∀ o ∈ s.objects x, o.fd > 0 → success = true))
  | .moveConstruct _ _ | .moveAssign _ _ | .destroy _ => .isTrue trivial

def owner (s : State) (x : Nat) : Option Nat := (s.objects x).bind (·.owns)

structure Numbered (s : State) (o : Object) : Prop where
  held : ∀ d, o.owns = some d → 0 < o.fd ∧ s.table o.fd.toNat = some d
  idle : o.owns = none → o.fd ≤ 0

theorem Numbered.of_table {s t : State} {o : Object} (numbered : s.Numbered o)
    (same : t.table = s.table) : t.Numbered o := by
  refine ⟨fun d owns => ?_, numbered.idle⟩
  rw [same]
  exact numbered.held d owns

theorem Numbered.of_idle {s : State} {o : Object} (none : o.owns = none) (empty : o.fd ≤ 0) :
    s.Numbered o :=
  ⟨fun d owns => by simp [none] at owns, fun _ => empty⟩

structure Sound (s : State) : Prop where
  proper : s.stray = false
  owned : Owned (fun d => d < s.count ∧ s.closes d = 0) s.owner
  numbered : ∀ x o, s.objects x = some o → s.Numbered o
  closed : ∀ d, s.closes d ≤ 1
  unborn : ∀ d, s.count ≤ d → s.closes d = 0
  zero : s.table 0 = none

theorem init_sound : init.Sound where
  proper := rfl
  owned := ⟨fun d => by simp [init, owner], fun x y d holds => by simp [init, owner] at holds⟩
  numbered x o object := by simp [init] at object
  closed d := by simp [init]
  unborn d _ := rfl
  zero := rfl

theorem Sound.holds {s : State} (sound : s.Sound) (x : Nat) : s.holds x = s.owner x := by
  unfold State.holds owner
  cases object : s.objects x with
  | none => rfl
  | some o =>
    have numbered := sound.numbered x o object
    cases owns : o.owns with
    | some d =>
      obtain ⟨positive, number⟩ := numbered.held d owns
      simp [owns, number, Int.le_of_lt positive]
    | none =>
      have empty := numbered.idle owns
      simp only [Option.bind_some, owns]
      split_ifs with standard
      · obtain same : o.fd = 0 := Int.le_antisymm empty standard
        simp [same, sound.zero]
      · rfl

theorem Sound.exact {s : State} (sound : s.Sound) : s.Closed where
  owned := sound.proper
  single x y d first second := by
    rw [sound.holds] at first second
    exact sound.owned.unique x y d first second
  once d bound := by
    have held := sound.owned.used_iff d
    simp only [sound.holds]
    have closed := sound.closed d
    by_cases opened : s.closes d = 0
    · exact .inl ⟨opened, held.mp ⟨bound, opened⟩⟩
    · refine .inr ⟨by omega, fun x owns => opened (held.mpr ⟨x, owns⟩).2⟩

@[simp] theorem sysClose_objects (s : State) (o : Object) : (s.sysClose o).objects = s.objects := by
  unfold sysClose
  split
  · split <;> rfl
  · rfl

section Put

variable (s : State) (x : Nat) (o : Option Object)

theorem put_objects (y : Nat) : (s.put x o).objects y = if y = x then o else s.objects y := by
  simp only [put, Function.update_apply]

theorem put_owner (y : Nat) :
    (s.put x o).owner y = if y = x then o.bind (·.owns) else s.owner y := by
  rw [owner, put_objects]
  split_ifs <;> rfl

@[simp] theorem put_put (o' : Option Object) : (s.put x o).put x o' = s.put x o' := by
  simp [put]

end Put

theorem Sound.put {s : State} (sound : s.Sound) {x : Nat} (idle : s.owner x = none)
    {o : Option Object} (empty : ∀ o' ∈ o, o'.owns = none ∧ o'.fd ≤ 0) : (s.put x o).Sound where
  proper := sound.proper
  owned := by
    refine sound.owned.congr (fun _ => Iff.rfl) fun y => ?_
    rw [put_owner]
    split_ifs with same
    · rw [same, idle]
      exact Option.bind_eq_none_iff.mpr fun o' member => (empty o' member).1
    · rfl
  numbered y o' object := by
    rw [put_objects] at object
    split_ifs at object
    · exact .of_idle (empty o' object).1 (empty o' object).2
    · exact (sound.numbered y o' object).of_table rfl
  closed := sound.closed
  unborn := sound.unborn
  zero := sound.zero

theorem Kind.vacated_empty (kind : Kind) : kind.vacated ≤ 0 := by cases kind <;> decide

theorem Sound.move {s : State} (sound : s.Sound) {dst src : Nat} {o : Object} (differ : dst ≠ src)
    (idle : s.owner dst = none) (object : s.objects src = some o) :
    ((s.put dst (some o)).vacate src o).Sound where
  proper := sound.proper
  owned := by
    refine sound.owned.move dst src idle fun y => ?_
    have owns : s.owner src = o.owns := by simp [owner, object]
    rw [vacate, put_owner, put_owner, owns]
    split_ifs with source target target
    · exact absurd (target.symm.trans source) differ
    · rfl
    · rfl
    · rfl
  numbered y o' object' := by
    rw [vacate, put_objects, put_objects] at object'
    split_ifs at object'
    · obtain rfl := Option.some.inj object'
      exact .of_idle rfl (Kind.vacated_empty o.kind)
    · obtain rfl := Option.some.inj object'
      exact (sound.numbered src o object).of_table rfl
    · exact (sound.numbered y o' object').of_table rfl
  closed := sound.closed
  unborn := sound.unborn
  zero := sound.zero

theorem Sound.grant {s : State} (sound : s.Sound) {x n : Nat} (kind : Kind)
    (free : s.objects x = none) (new : s.table n = none) (positive : 0 < n) :
    ((s.grant n).put x (some { kind, fd := n, owns := some s.count })).Sound where
  proper := sound.proper
  owned := by
    refine sound.owned.acquire (o := x) (r := s.count) (by simp) (by simp [owner, free])
      (fun d => ?_) fun y => ?_
    · show d < s.count + 1 ∧ s.closes d = 0 ↔ _
      have unborn := sound.unborn d
      omega
    · rw [put_owner]
      rfl
  numbered y o object := by
    rw [put_objects] at object
    split_ifs at object
    · obtain rfl := Option.some.inj object
      refine ⟨fun d owns => ?_, fun none => by simp at none⟩
      obtain rfl : s.count = d := by simpa using owns
      exact ⟨by simpa using positive, by simp [State.put, State.grant]⟩
    · obtain ⟨held, idle⟩ := sound.numbered y o object
      refine ⟨fun d owns => ?_, idle⟩
      obtain ⟨positive, number⟩ := held d owns
      have other : o.fd.toNat ≠ n := by
        intro same
        simp [← same, number] at new
      exact ⟨positive, by simp [State.put, State.grant, other, number]⟩
  closed := sound.closed
  unborn d beyond := sound.unborn d (Nat.le_of_succ_le beyond)
  zero := by
    show Function.update s.table n (some s.count) 0 = none
    rw [Function.update_of_ne (Nat.ne_of_lt positive), sound.zero]

theorem Sound.release {s : State} (sound : s.Sound) {x : Nat} {o : Object}
    (object : s.objects x = some o) (positive : 0 < o.fd) (left : Option Object)
    (empty : ∀ o' ∈ left, o'.owns = none ∧ o'.fd ≤ 0) : ((s.sysClose o).put x left).Sound := by
  have numbered := sound.numbered x o object
  obtain ⟨d, owns⟩ : ∃ d, o.owns = some d := by
    by_contra! none
    exact absurd (numbered.idle (Option.eq_none_iff_forall_ne_some.mpr none)) (by omega)
  obtain ⟨-, number⟩ := numbered.held d owns
  have owner : s.owner x = some d := by simp [State.owner, object, owns]
  obtain ⟨bound, opened⟩ := sound.owned.in_use owner
  have closed : s.sysClose o = { s with
      table := Function.update s.table o.fd.toNat none
      closes := Function.update s.closes d 1 } := by
    simp [sysClose, Int.le_of_lt positive, number, owns, opened]
  rw [closed]
  refine ⟨sound.proper, ?_, fun y o' object' => ?_, fun d' => ?_, fun d' beyond => ?_, ?_⟩
  · refine sound.owned.release (o := x) (r := d) owner (fun d' => ?_) fun y => ?_
    · by_cases same : d' = d <;> simp [State.put, same]
    · rw [put_owner]
      have none : left.bind (·.owns) = none :=
        Option.bind_eq_none_iff.mpr fun o' member => (empty o' member).1
      rw [none]
      rfl
  · rw [put_objects] at object'
    split_ifs at object' with elsewhere
    · exact .of_idle (empty o' object').1 (empty o' object').2
    · have kept : s.objects y = some o' := object'
      obtain ⟨held, idle⟩ := sound.numbered y o' kept
      refine ⟨fun d' owns' => ?_, idle⟩
      obtain ⟨positive', number'⟩ := held d' owns'
      have other : o'.fd.toNat ≠ o.fd.toNat := by
        intro same
        obtain rfl : d' = d := by simpa [same, number] using number'.symm
        have owner' : s.owner y = some d' := by simp [State.owner, kept, owns']
        exact elsewhere (sound.owned.unique y x d' owner' owner)
      exact ⟨positive', by simp [State.put, other, number']⟩
  · by_cases same : d' = d
    · simp [State.put, same]
    · simpa [State.put, same] using sound.closed d'
  · have beyond : s.count ≤ d' := beyond
    have other : d' ≠ d := by omega
    simpa [State.put, other] using sound.unborn d' beyond
  · have positive : 0 ≠ o.fd.toNat := by omega
    simpa [State.put, positive] using sound.zero

theorem Sound.idle {s : State} (sound : s.Sound) {x : Nat} {o : Object}
    (object : s.objects x = some o) (empty : ¬ 0 < o.fd) : s.owner x = none := by
  have numbered := sound.numbered x o object
  have none : o.owns = none := by
    by_contra some
    obtain ⟨d, owns⟩ := Option.ne_none_iff_exists'.mp some
    exact empty (numbered.held d owns).1
  simp [owner, object, none]

theorem Sound.moveAssign {s : State} (sound : s.Sound) {dst src : Nat} {o other : Object}
    (differ : dst ≠ src) (target : s.objects dst = some o) (source : s.objects src = some other) :
    (s.moveAssign dst src o other).Sound := by
  unfold State.moveAssign
  split_ifs with positive
  · have released : ((s.sysClose o).put dst none).Sound := sound.release target positive none (by simp)
    have kept : ((s.sysClose o).put dst none).objects src = some other := by
      rw [put_objects, if_neg differ.symm, sysClose_objects, source]
    simpa using released.move differ (by simp [put_owner]) kept
  · exact sound.move differ (sound.idle target positive) source

theorem Sound.close {s : State} (sound : s.Sound) {x : Nat} {o : Object}
    (object : s.objects x = some o) {success : Bool} (prudent : o.fd > 0 → success = true) :
    (s.close x o success).Sound := by
  by_cases positive : o.fd > 0
  · obtain rfl := prudent positive
    simpa [State.close, positive] using sound.release object positive
      (some { o with fd := -1, owns := none }) (by simp)
  · simpa [State.close, positive] using sound

theorem Sound.destroy {s : State} (sound : s.Sound) {x : Nat} {o : Object}
    (object : s.objects x = some o) : (s.destroy x o).Sound := by
  unfold State.destroy
  by_cases positive : 0 < o.fd
  · have closes : o.kind.destructorCloses o.fd = true := by
      cases o.kind <;> simp [Kind.destructorCloses, positive, Int.ne_of_gt positive]
    rw [if_pos closes]
    exact sound.release object positive none (by simp)
  · have harmless : (if o.kind.destructorCloses o.fd then s.sysClose o else s) = s := by
      by_cases negative : o.fd < 0
      · rw [sysClose, if_neg (Int.not_le.mpr negative), ite_self]
      · obtain zero : o.fd = 0 := Int.le_antisymm (Int.not_lt.mp positive) (Int.not_lt.mp negative)
        cases o.kind <;> simp [Kind.destructorCloses, zero]
    rw [harmless]
    exact sound.put (sound.idle object positive) (by simp)

theorem Sound.construct {s : State} (sound : s.Sound) {kind : Kind} {x : Nat} {fd : Option Nat}
    (free : s.objects x = none) (granted : s.grants fd = true) (prudent : fd ≠ some 0) :
    (s.construct kind x fd).Sound := by
  cases fd with
  | some n =>
    have new : s.table n = none := by simpa [grants] using granted
    have positive : 0 < n := Nat.pos_of_ne_zero fun zero => prudent (by rw [zero])
    exact sound.grant _ free new positive
  | none =>
    have idle : s.owner x = none := by simp [owner, free]
    cases kind with
    | serverSocket => exact sound
    | file | socket => exact sound.put idle (by simp)

theorem Sound.accept {s : State} (sound : s.Sound) {x : Nat} {fd : Option Nat}
    (free : s.objects x = none) (granted : s.grants fd = true) (prudent : fd ≠ some 0) :
    (s.accept x fd).Sound := by
  cases fd with
  | some n =>
    have new : s.table n = none := by simpa [grants] using granted
    have positive : 0 < n := Nat.pos_of_ne_zero fun zero => prudent (by rw [zero])
    simpa [State.accept, positive] using sound.grant .socket free new positive
  | none => exact sound

theorem step_sound {s next : State} {a : Action} (sound : s.Sound) (prudent : s.Prudent a)
    (taken : s.step a = some next) : next.Sound := by
  unfold step at taken
  split at taken
  · split_ifs at taken with enabled
    obtain rfl := Option.some.inj taken
    exact sound.construct enabled.1 enabled.2 prudent
  · split_ifs at taken with enabled
    obtain rfl := Option.some.inj taken
    exact sound.accept enabled.1 enabled.2 prudent
  · next x src =>
    split at taken
    · next o free source =>
      obtain rfl := Option.some.inj taken
      have differ : x ≠ src := by
        rintro rfl
        simp [free] at source
      exact sound.move differ (by simp [owner, free]) source
    · cases taken
  · split at taken
    · next o other target source =>
      split_ifs at taken with kind same
      · obtain rfl := Option.some.inj taken
        exact sound
      · obtain rfl := Option.some.inj taken
        exact sound.moveAssign same target source
    · cases taken
  · next x success =>
    obtain ⟨o, object, closed⟩ := Option.bind_eq_some_iff.mp taken
    split_ifs at closed
    obtain rfl := Option.some.inj closed
    exact sound.close object (prudent o object)
  · obtain ⟨o, object, rfl⟩ := Option.map_eq_some_iff.mp taken
    exact sound.destroy object

/--
If the kernel never returns 0 and no explicit `close` of an open socket is reported to fail, each
descriptor is in one object at most, and closed exactly once when it is in none.
-/
theorem closes_once {actions : List Action} (prudent : Always step Prudent init actions)
    {s : State} (visited : Visits step init actions s) : s.Closed :=
  (visits_invariant (fun _ _ _ sound prudent taken => step_sound sound prudent taken) visited prudent
    init_sound).exact

end State

-- An accepted socket is moved, its number is reissued after it was closed, and all objects go.
def reissued : List Action :=
  [.construct .serverSocket 0 (some 3), .accept 1 (some 4), .moveConstruct 2 1, .close 2 true,
    .construct .file 3 (some 4), .construct .file 4 none, .moveAssign 4 3, .destroy 2, .destroy 1,
    .destroy 3, .destroy 4, .destroy 0]

theorem closes_once_reissued :
    ∃ s, run State.step .init reissued = some s ∧ s.stray = false ∧
      ∀ d < 3, s.closes d = 1 := by
  have prudent : Always State.step State.Prudent .init reissued := by decide +kernel
  have ended : (run State.step .init reissued).map (fun s => s.count) = some 3 := by decide +kernel
  have gone : ∀ x, (run State.step .init reissued).map (fun s => s.objects x) = some none := by
    rintro (_ | _ | _ | _ | _ | x) <;> rfl
  obtain ⟨s, reached, count⟩ := Option.map_eq_some_iff.mp ended
  simp only [reached, Option.map_some, Option.some.injEq] at gone
  have closed := State.closes_once prudent (visits_end reached)
  refine ⟨s, reached, closed.owned, fun d bound => ?_⟩
  rcases closed.once d (count ▸ bound) with ⟨-, x, holds⟩ | ⟨once, -⟩
  · simp [State.holds, gone] at holds
  · exact once

-- The kernel reports that a close failed, although the number is free again.
def closedTwice : List Action :=
  [.construct .socket 0 (some 4), .close 0 false, .construct .socket 1 (some 4), .destroy 0]

theorem close_hits_another :
    ¬ ∀ (actions : List Action) (s : State), Visits State.step .init actions s → s.Closed := by
  intro claim
  have ended : (run State.step .init closedTwice).map (fun s => s.stray) = some true := by
    decide +kernel
  obtain ⟨s, reached, stray⟩ := Option.map_eq_some_iff.mp ended
  simp [(claim _ s (visits_end reached)).owned] at stray

end KkProxy.Net
