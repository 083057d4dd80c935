import KkProxy.Uring.Submit

set_option autoImplicit false

/-!
# Where completions arrive

An entry carries the address that `data_` had when its awaiter was constructed. Whoever submits
first submits all prepared entries, and the awaiter may meanwhile be moved or gone.
-/

namespace KkProxy.Uring

open Runs

-- The address of a `data_`; no two objects share one.
abbrev Place := Nat

abbrev Coroutine := Nat

structure Awaiter where
  owner : Coroutine
  -- `sqe_`, by the address that the entry carries.
  sqe : Option Place
  handle : Option Coroutine
  result : Int
deriving DecidableEq, Repr

structure Context where
  -- Prepared entries that the kernel has not been given.
  queue : List UserData
  inflight : List UserData
  completed : List UserData
  places : Nat
  awaiters : Place → Option Awaiter
  suspended : Coroutine → Option Place
  -- A completion went to an object that is gone, to a null handle or to another coroutine, or
  -- `finish` wrote to a null entry.
  fault : Bool

inductive Event where
  | construct (who : Coroutine)
  | move (who : Coroutine) (src : Place) (into : Coroutine)
  -- `co_await`; `io_uring_submit` returns `ret`.
  | await (who : Coroutine) (place : Place) (ret : Int)
  | drop (who : Coroutine) (place : Place)
  | finish (ret : Int)
  -- `uring_loop::resume`; a nested `run` takes a completion again that has not been marked as seen.
  | dispatch (data : UserData) (res : Int)
deriving DecidableEq, Repr

namespace Context

def init : Context :=
  { queue := [], inflight := [], completed := [], places := 0, awaiters := fun _ => none,
    suspended := fun _ => none, fault := false }

def put (s : Context) (place : Place) (a : Option Awaiter) : Context :=
  { s with awaiters := Function.update s.awaiters place a }

def prepare (s : Context) (data : UserData) : Context := { s with queue := s.queue ++ [data] }

def submit (s : Context) (ret : Int) : Context :=
  if ret < 0 then s else { s with queue := [], inflight := s.inflight ++ s.queue }

def owned (s : Context) (who : Coroutine) (place : Place) : Option Awaiter :=
  if s.suspended who = none then (s.awaiters place).filter fun a => a.owner = who else none

def construct (s : Context) (who : Coroutine) : Context :=
  let next := { s with places := s.places + 1 }
  if s.queue.length < Ring.entries then
    (next.prepare (.awaiter s.places)).put s.places
      (some { owner := who, sqe := some s.places, handle := none, result := 0 })
  else next.put s.places (some { owner := who, sqe := none, handle := none, result := -10086 })

-- The moved-to object copies `data_`, at its own address.
def move (s : Context) (src : Place) (a : Awaiter) (into : Coroutine) : Context :=
  ({ s with places := s.places + 1 }.put src (some { a with sqe := none, handle := none })).put
    s.places (some { a with owner := into })

-- The result of `io_uring_submit` is not looked at.
def await (s : Context) (who : Coroutine) (place : Place) (a : Awaiter) (ret : Int) : Context :=
  if a.sqe = none then s
  else
    let next := { s with suspended := Function.update s.suspended who (some place) }
    (next.put place (some { a with handle := some who })).submit ret

def finish (s : Context) (ret : Int) : Context :=
  if s.queue.length < Ring.entries then (s.prepare .completed).submit ret
  else { s with fault := true }

def take (s : Context) (data : UserData) : Option Context :=
  if data ∈ s.inflight then
    some { s with inflight := s.inflight.erase data, completed := data :: s.completed }
  else if data ∈ s.completed then some s
  else none

-- `data->result_ = cqe->res; data->handle_();`
def resume (s : Context) (place : Place) (res : Int) : Context :=
  match s.awaiters place with
  | none => { s with fault := true }
  | some a =>
    match a.handle with
    | none => { s with fault := true }
    | some who =>
      if s.suspended who = some place then
        { s with suspended := Function.update s.suspended who none }.put place
          (some { a with result := res })
      else { s with fault := true }

def dispatch (s : Context) (res : Int) : UserData → Context
  | .awaiter place => s.resume place res
  | _ => s

def step (s : Context) (e : Event) : Option Context :=
  if s.fault then none
  else match e with
    | .construct who => if s.suspended who = none then some (s.construct who) else none
    | .move who src into => (s.owned who src).map fun a => s.move src a into
    | .await who place ret => (s.owned who place).map fun a => s.await who place a ret
    | .drop who place => (s.owned who place).map fun _ => s.put place none
    | .finish ret => some (s.finish ret)
    | .dispatch data res => (s.take data).map fun t => t.dispatch res data

def Finds (s : Context) (place : Place) : Prop :=
  ∃ a who, s.awaiters place = some a ∧ a.sqe = some place ∧ a.handle = some who ∧
    s.suspended who = some place

def Serves (s : Context) (e : Event) : Prop :=
  ∀ next, s.step e = some next →
    match e with
    | .dispatch (.awaiter place) _ => s.Finds place
    | .await who place _ => ∀ a ∈ s.awaiters place, ∀ op ∈ a.sqe, .awaiter op ∈ s.completed →
      next.suspended who = none
    | _ => True

end Context

inductive Last where
  | made
  | moved
  | awaited
  | dropped
  | resumed
deriving DecidableEq, Repr

abbrev Tracked := Context × (Place → Last)

namespace Tracked

def init : Tracked := (.init, fun _ => .made)

-- The `co_await` of an awaiter without an entry is none: it is ready.
def track (s : Context) (e : Event) (_ : Context) (last : Place → Last) : Place → Last :=
  match e with
  | .move _ src _ => Function.update last src .moved
  | .await _ place _ =>
    if (s.awaiters place).any fun a => a.sqe.isSome then Function.update last place .awaited
    else last
  | .drop _ place => Function.update last place .dropped
  | .dispatch (.awaiter place) _ => Function.update last place .resumed
  | _ => last

def step : Tracked → Event → Option Tracked := watching Context.step track

/--
The last thing done with an awaiter whose completion is dispatched was to `co_await` it, and none is
awaited whose completion has been dispatched.
-/
def Orderly (w : Tracked) (e : Event) : Prop :=
  ∀ next, w.step e = some next →
    match e with
    | .dispatch (.awaiter place) _ => w.2 place = .awaited
    | .await _ place _ => ∀ a ∈ w.1.awaiters place, ∀ op ∈ a.sqe, .awaiter op ∉ w.1.completed
    | _ => True

def Serves (w : Tracked) (e : Event) : Prop := w.1.Serves e

end Tracked

namespace Context

def Entered (s : Context) (place : Place) : Prop :=
  .awaiter place ∈ s.queue ∨ .awaiter place ∈ s.inflight ∨ .awaiter place ∈ s.completed

inductive Effect (s : Context) : Event → Context → Prop where
  | construct (who : Coroutine) (free : s.suspended who = none) :
    Effect s (.construct who) (s.construct who)
  | move (src : Place) (into : Coroutine) (a : Awaiter) (alive : s.awaiters src = some a)
    (free : s.suspended a.owner = none) : Effect s (.move a.owner src into) (s.move src a into)
  | await (place : Place) (ret : Int) (a : Awaiter) (alive : s.awaiters place = some a)
    (free : s.suspended a.owner = none) :
    Effect s (.await a.owner place ret) (s.await a.owner place a ret)
  | drop (place : Place) (a : Awaiter) (alive : s.awaiters place = some a)
    (free : s.suspended a.owner = none) : Effect s (.drop a.owner place) (s.put place none)
  | finish (ret : Int) : Effect s (.finish ret) (s.finish ret)
  | dispatch (data : UserData) (res : Int) (t : Context) (taken : s.take data = some t) :
    Effect s (.dispatch data res) (t.dispatch res data)

theorem owned_some {s : Context} {who : Coroutine} {place : Place} {a : Awaiter}
    (owned : s.owned who place = some a) :
    s.awaiters place = some a ∧ s.suspended who = none ∧ a.owner = who := by
  unfold Context.owned at owned
  split_ifs at owned with free
  obtain ⟨alive, own⟩ := Option.filter_eq_some_iff.mp owned
  exact ⟨alive, free, by simpa using own⟩

theorem step_effect {s next : Context} {e : Event} (taken : s.step e = some next) :
    Effect s e next := by
  unfold step at taken
  split_ifs at taken
  cases e with
  | construct who =>
    dsimp only at taken
    split_ifs at taken with free
    obtain rfl := Option.some.inj taken
    exact .construct who free
  | move who src into =>
    obtain ⟨a, owned, rfl⟩ := Option.map_eq_some_iff.mp taken
    obtain ⟨alive, free, rfl⟩ := owned_some owned
    exact .move src into a alive free
  | await who place ret =>
    obtain ⟨a, owned, rfl⟩ := Option.map_eq_some_iff.mp taken
    obtain ⟨alive, free, rfl⟩ := owned_some owned
    exact .await place ret a alive free
  | drop who place =>
    obtain ⟨a, owned, rfl⟩ := Option.map_eq_some_iff.mp taken
    obtain ⟨alive, free, rfl⟩ := owned_some owned
    exact .drop place a alive free
  | finish ret =>
    obtain rfl := Option.some.inj taken
    exact .finish ret
  | dispatch data res =>
    obtain ⟨t, took, rfl⟩ := Option.map_eq_some_iff.mp taken
    exact .dispatch data res t took

section Fields

variable (s : Context) (place : Place) (a : Option Awaiter) (data : UserData) (ret : Int)

theorem put_awaiters (p : Place) :
    (s.put place a).awaiters p = if p = place then a else s.awaiters p := by
  simp only [put, Function.update_apply]

@[simp] theorem put_suspended : (s.put place a).suspended = s.suspended := rfl
@[simp] theorem put_places : (s.put place a).places = s.places := rfl
@[simp] theorem put_entered (p : Place) : (s.put place a).Entered p ↔ s.Entered p := Iff.rfl

@[simp] theorem submit_awaiters : (s.submit ret).awaiters = s.awaiters := by
  unfold submit
  split_ifs <;> rfl

@[simp] theorem submit_suspended : (s.submit ret).suspended = s.suspended := by
  unfold submit
  split_ifs <;> rfl

@[simp] theorem submit_places : (s.submit ret).places = s.places := by
  unfold submit
  split_ifs <;> rfl

@[simp] theorem submit_entered (p : Place) : (s.submit ret).Entered p ↔ s.Entered p := by
  unfold submit Entered
  split_ifs
  · rfl
  · simp only [List.not_mem_nil, List.mem_append, false_or]
    tauto

theorem prepare_entered (p : Place) :
    (s.prepare data).Entered p ↔ s.Entered p ∨ data = .awaiter p := by
  simp only [Entered, prepare, List.mem_append, List.mem_singleton, eq_comm (b := data)]
  tauto

end Fields

theorem take_same {s t : Context} {data : UserData} (taken : s.take data = some t) :
    t.awaiters = s.awaiters ∧ t.suspended = s.suspended ∧ t.places = s.places ∧
      (∀ p, t.Entered p → s.Entered p) ∧ ∀ p, data = .awaiter p → s.Entered p := by
  unfold take at taken
  split_ifs at taken with submitted again
  · obtain rfl := Option.some.inj taken
    refine ⟨rfl, rfl, rfl, fun p entered => ?_, fun p same => .inr (.inl (same ▸ submitted))⟩
    rcases entered with queued | inflight | completed
    · exact .inl queued
    · exact .inr (.inl (List.mem_of_mem_erase inflight))
    · rcases List.mem_cons.mp completed with same | before
      · exact .inr (.inl (same ▸ submitted))
      · exact .inr (.inr before)
  · obtain rfl := Option.some.inj taken
    exact ⟨rfl, rfl, rfl, fun _ entered => entered, fun p same => .inr (.inr (same ▸ again))⟩

end Context

namespace Tracked

structure Sound (w : Tracked) : Prop where
  waits : ∀ who place, w.1.suspended who = some place → w.2 place = .awaited ∧
    ∃ a, w.1.awaiters place = some a ∧ a.owner = who ∧ a.handle = some who ∧ a.sqe ≠ none
  awaited : ∀ place, w.2 place = .awaited → ∃ who, w.1.suspended who = some place
  entries : ∀ place, w.1.Entered place → place < w.1.places ∧
    ∀ a ∈ w.1.awaiters place, a.sqe = none ∨ a.sqe = some place
  fresh : ∀ place, w.1.places ≤ place → w.1.awaiters place = none

theorem init_sound : init.Sound where
  waits who place waits := by simp [init, Context.init] at waits
  awaited place awaited := by simp [init] at awaited
  entries place entered := by simp [init, Context.init, Context.Entered] at entered
  fresh place _ := rfl

theorem Sound.unawaited {w : Tracked} (sound : w.Sound) {place : Place}
    (idle : ∀ who, w.1.suspended who ≠ some place) : w.2 place ≠ .awaited := fun awaited =>
  have ⟨who, waits⟩ := sound.awaited place awaited
  idle who waits

theorem Sound.idle {w : Tracked} (sound : w.Sound) {place : Place} {a : Awaiter}
    (alive : w.1.awaiters place = some a) (free : w.1.suspended a.owner = none) (who : Coroutine) :
    w.1.suspended who ≠ some place := by
  intro waits
  obtain ⟨-, a', alive', rfl, -⟩ := sound.waits who place waits
  obtain rfl : a = a' := Option.some.inj (alive.symm.trans alive')
  simp [free] at waits

theorem Sound.unborn {w : Tracked} (sound : w.Sound) (who : Coroutine) :
    w.1.suspended who ≠ some w.1.places := by
  intro waits
  obtain ⟨-, a, alive, -⟩ := sound.waits who _ waits
  simp [sound.fresh _ (Nat.le_refl _)] at alive

theorem Sound.change {w w' : Tracked} (sound : w.Sound) {place : Place}
    (idle : ∀ who, w.1.suspended who ≠ some place) (suspended : w'.1.suspended = w.1.suspended)
    (others : ∀ p, p ≠ place → w'.1.awaiters p = w.1.awaiters p)
    (last : ∀ p, p ≠ place → w'.2 p = w.2 p) (unawaited : w'.2 place ≠ .awaited)
    (entered : ∀ p, p ≠ place → w'.1.Entered p → w.1.Entered p) (places : w.1.places ≤ w'.1.places)
    (bound : place < w'.1.places)
    (own : w'.1.Entered place → ∀ a ∈ w'.1.awaiters place, a.sqe = none ∨ a.sqe = some place) :
    w'.Sound where
  waits who p waits := by
    rw [suspended] at waits
    have other : p ≠ place := by
      rintro rfl
      exact idle who waits
    rw [last p other, others p other]
    exact sound.waits who p waits
  awaited p awaited := by
    have other : p ≠ place := by
      rintro rfl
      exact unawaited awaited
    rw [suspended]
    exact sound.awaited p (last p other ▸ awaited)
  entries p entry := by
    by_cases same : p = place
    · subst same
      exact ⟨bound, own entry⟩
    · obtain ⟨born, sqe⟩ := sound.entries p (entered p same entry)
      rw [others p same]
      exact ⟨Nat.lt_of_lt_of_le born places, sqe⟩
  fresh p beyond := by
    have other : p ≠ place := by
      rintro rfl
      exact absurd bound (Nat.not_lt.mpr beyond)
    rw [others p other]
    exact sound.fresh p (Nat.le_trans places beyond)

theorem Sound.construct {w : Tracked} (sound : w.Sound) (who : Coroutine) :
    Sound (w.1.construct who, w.2) := by
  have unborn := sound.unawaited sound.unborn
  unfold Context.construct
  dsimp only
  split_ifs
  · refine sound.change sound.unborn rfl (fun p other => ?_) (fun _ _ => rfl) unborn
      (fun p other entered => ?_) (Nat.le_succ _) (Nat.lt_succ_self _) fun _ a alive => ?_
    · simp [Context.put_awaiters, Context.prepare, other]
    · rw [Context.put_entered, Context.prepare_entered] at entered
      exact entered.resolve_right fun same => other (UserData.awaiter.inj same).symm
    · obtain rfl : _ = a := by simpa [Context.put_awaiters] using alive
      exact .inr rfl
  · refine sound.change sound.unborn rfl (fun p other => ?_) (fun _ _ => rfl) unborn
      (fun p other entered => entered) (Nat.le_succ _) (Nat.lt_succ_self _) fun _ a alive => ?_
    · simp [Context.put_awaiters, other]
    · obtain rfl : _ = a := by simpa [Context.put_awaiters] using alive
      exact .inl rfl

theorem Sound.born {w : Tracked} (sound : w.Sound) {place : Place} {a : Awaiter}
    (alive : w.1.awaiters place = some a) : place < w.1.places := by
  by_contra beyond
  simp [sound.fresh place (Nat.not_lt.mp beyond)] at alive

theorem Sound.unentered {w : Tracked} (sound : w.Sound) : ¬ w.1.Entered w.1.places := fun entered =>
  absurd (sound.entries _ entered).1 (Nat.lt_irrefl _)

theorem Sound.put {w : Tracked} (sound : w.Sound) {place : Place} {a : Awaiter}
    (alive : w.1.awaiters place = some a) (free : w.1.suspended a.owner = none)
    (next : Option Awaiter) (bare : ∀ b ∈ next, b.sqe = none) {last : Last}
    (unawaited : last ≠ .awaited) :
    Sound (w.1.put place next, Function.update w.2 place last) := by
  refine sound.change (sound.idle alive free) rfl (fun p other => ?_) (fun p other => ?_) ?_
    (fun _ _ entered => entered) (Nat.le_refl _) (sound.born alive) fun _ b holds => ?_
  · exact Function.update_of_ne other ..
  · exact Function.update_of_ne other ..
  · change Function.update w.2 place last place ≠ .awaited
    rwa [Function.update_self]
  · exact .inl (bare b (by simpa [Context.put_awaiters] using holds))

-- The moved-to object has an address that no entry carries.
theorem Sound.move {w : Tracked} (sound : w.Sound) {src : Place} {a : Awaiter} (into : Coroutine)
    (alive : w.1.awaiters src = some a) (free : w.1.suspended a.owner = none) :
    Sound (w.1.move src a into, Function.update w.2 src .moved) := by
  have moved := sound.put alive free (some { a with sqe := none, handle := none })
    (by simp) (show Last.moved ≠ .awaited by simp)
  refine moved.change moved.unborn rfl (fun p other => ?_) (fun _ _ => rfl)
    (moved.unawaited moved.unborn) (fun _ _ entered => entered) (Nat.le_succ _) (Nat.lt_succ_self _)
    fun entered => absurd entered moved.unentered
  change p ≠ w.1.places at other
  simp only [Context.move, Context.put_awaiters, if_neg other]

theorem Sound.submit {w : Tracked} (sound : w.Sound) (ret : Int) :
    Sound (w.1.submit ret, w.2) where
  waits := by simpa using sound.waits
  awaited := by simpa using sound.awaited
  entries := by simpa using sound.entries
  fresh := by simpa using sound.fresh

theorem Sound.finish {w : Tracked} (sound : w.Sound) (ret : Int) :
    Sound (w.1.finish ret, w.2) := by
  unfold Context.finish
  split_ifs
  · have prepared : Sound (w.1.prepare .completed, w.2) :=
      ⟨sound.waits, sound.awaited, fun place entered => sound.entries place
        (by simpa [Context.prepare_entered] using entered), sound.fresh⟩
    exact prepared.submit ret
  · exact ⟨sound.waits, sound.awaited, sound.entries, sound.fresh⟩

section Put

variable {w : Tracked} (sound : w.Sound) {place : Place} {a : Awaiter}
  (alive : w.1.awaiters place = some a)
include sound alive

theorem Sound.put_entries {b : Awaiter} (same : b.sqe = a.sqe) (p : Place)
    (entered : w.1.Entered p) : p < w.1.places ∧
      ∀ c ∈ (w.1.put place (some b)).awaiters p, c.sqe = none ∨ c.sqe = some p := by
  obtain ⟨born, sqe⟩ := sound.entries p entered
  refine ⟨born, fun c holds => ?_⟩
  rw [Context.put_awaiters] at holds
  split_ifs at holds with here
  · obtain rfl : b = c := Option.some.inj holds
    exact same ▸ sqe a (here ▸ alive)
  · exact sqe c holds

theorem Sound.put_fresh (b : Awaiter) (p : Place) (beyond : w.1.places ≤ p) :
    (w.1.put place (some b)).awaiters p = none := by
  have other : p ≠ place := by
    rintro rfl
    exact absurd (sound.born alive) (Nat.not_lt.mpr beyond)
  rw [Context.put_awaiters, if_neg other]
  exact sound.fresh p beyond

end Put

theorem Sound.suspend {w : Tracked} (sound : w.Sound) {place : Place} {a : Awaiter}
    (alive : w.1.awaiters place = some a) (free : w.1.suspended a.owner = none)
    (entry : a.sqe ≠ none) :
    Sound ({ w.1 with suspended := Function.update w.1.suspended a.owner (some place) }.put place
      (some { a with handle := some a.owner }), Function.update w.2 place .awaited) where
  waits who p waits := by
    change Function.update w.1.suspended a.owner (some place) who = some p at waits
    by_cases self : who = a.owner
    · obtain rfl : place = p := by simpa [self] using waits
      refine ⟨Function.update_self .., { a with handle := some a.owner }, ?_, self.symm, ?_, entry⟩
      · exact Function.update_self ..
      · exact congrArg some self.symm
    · rw [Function.update_of_ne self] at waits
      have other : p ≠ place := by
        rintro rfl
        exact sound.idle alive free who waits
      obtain ⟨last, holds⟩ := sound.waits who p waits
      refine ⟨(Function.update_of_ne other ..).trans last, ?_⟩
      simpa only [Context.put_awaiters, if_neg other] using holds
  awaited p awaited := by
    by_cases same : p = place
    · exact ⟨a.owner, same ▸ Function.update_self ..⟩
    · change Function.update w.2 place .awaited p = .awaited at awaited
      rw [Function.update_of_ne same] at awaited
      obtain ⟨who, waits⟩ := sound.awaited p awaited
      have other : who ≠ a.owner := by
        rintro rfl
        simp [free] at waits
      exact ⟨who, (Function.update_of_ne other ..).trans waits⟩
  entries := sound.put_entries alive rfl
  fresh := sound.put_fresh alive _

theorem Sound.await {w : Tracked} (sound : w.Sound) {place : Place} {a : Awaiter} (ret : Int)
    (alive : w.1.awaiters place = some a) (free : w.1.suspended a.owner = none) :
    Sound (w.1.await a.owner place a ret,
      track w.1 (.await a.owner place ret) (w.1.await a.owner place a ret) w.2) := by
  cases entry : a.sqe with
  | none => simpa [Context.await, track, alive, entry] using sound
  | some op =>
    have suspended := (sound.suspend alive free (by simp [entry])).submit ret
    simpa [Context.await, track, alive, entry] using suspended

theorem Sound.take {w : Tracked} (sound : w.Sound) {data : UserData} {t : Context}
    (taken : w.1.take data = some t) : Sound (t, w.2) := by
  obtain ⟨awaiters, suspended, places, entered, -⟩ := Context.take_same taken
  refine ⟨?_, ?_, fun place entry => ?_, ?_⟩
  · simpa only [awaiters, suspended] using sound.waits
  · simpa only [suspended] using sound.awaited
  · simpa only [awaiters, places] using sound.entries place (entered place entry)
  · simpa only [awaiters, places] using sound.fresh

theorem Sound.wake {w : Tracked} (sound : w.Sound) {place : Place} {a : Awaiter} {who : Coroutine}
    (alive : w.1.awaiters place = some a) (waits : w.1.suspended who = some place)
    (only : ∀ who', w.1.suspended who' = some place → who' = who) (res : Int) :
    Sound ({ w.1 with suspended := Function.update w.1.suspended who none }.put place
      (some { a with result := res }), Function.update w.2 place .resumed) where
  waits who' p waits' := by
    have others : who' ≠ who := by
      rintro rfl
      simp at waits'
    replace waits' := (Function.update_of_ne others ..).symm.trans waits'
    have other : p ≠ place := by
      rintro rfl
      exact others (only who' waits')
    obtain ⟨last, holds⟩ := sound.waits who' p waits'
    refine ⟨(Function.update_of_ne other ..).trans last, ?_⟩
    simpa only [Context.put_awaiters, if_neg other] using holds
  awaited p awaited := by
    have other : p ≠ place := by
      rintro rfl
      simp at awaited
    replace awaited := (Function.update_of_ne other ..).symm.trans awaited
    obtain ⟨who', waits'⟩ := sound.awaited p awaited
    have others : who' ≠ who := by
      rintro rfl
      exact other (Option.some.inj (waits'.symm.trans waits))
    exact ⟨who', (Function.update_of_ne others ..).trans waits'⟩
  entries := sound.put_entries alive rfl
  fresh := sound.put_fresh alive _

theorem Sound.stray {w : Tracked} (sound : w.Sound) {place : Place} (born : place < w.1.places)
    (idle : ∀ who, w.1.suspended who ≠ some place) :
    Sound ({ w.1 with fault := true }, Function.update w.2 place .resumed) := by
  refine sound.change idle rfl (fun _ _ => rfl) (fun p other => ?_) ?_
    (fun _ _ entered => entered) (Nat.le_refl _) born fun entered => (sound.entries place entered).2
  · exact Function.update_of_ne other ..
  · change Function.update w.2 place .resumed place ≠ .awaited
    simp

theorem Sound.resume {w : Tracked} (sound : w.Sound) {place : Place} (born : place < w.1.places)
    (res : Int) : Sound (w.1.resume place res, Function.update w.2 place .resumed) := by
  cases alive : w.1.awaiters place with
  | none =>
    simpa [Context.resume, alive] using sound.stray born fun who waits => by
      simpa [alive] using (sound.waits who place waits).2
  | some a =>
    cases handle : a.handle with
    | none =>
      simpa [Context.resume, alive, handle] using sound.stray born fun who waits => by
        simpa [alive, handle] using (sound.waits who place waits).2
    | some who =>
      have only (who' : Coroutine) (waits : w.1.suspended who' = some place) : who' = who := by
        obtain ⟨-, a', alive', -, handle', -⟩ := sound.waits who' place waits
        obtain rfl : a = a' := Option.some.inj (alive.symm.trans alive')
        exact Option.some.inj (handle'.symm.trans handle)
      by_cases waits : w.1.suspended who = some place
      · simpa [Context.resume, alive, handle, waits] using sound.wake alive waits only res
      · simpa [Context.resume, alive, handle, waits] using sound.stray born fun who' waits' =>
          waits (only who' waits' ▸ waits')

theorem Sound.dispatch {w : Tracked} (sound : w.Sound) {data : UserData} {t : Context} (res : Int)
    (taken : w.1.take data = some t) :
    Sound (t.dispatch res data, track w.1 (.dispatch data res) (t.dispatch res data) w.2) := by
  obtain ⟨-, -, places, -, entered⟩ := Context.take_same taken
  have sound' := sound.take taken
  cases data with
  | awaiter place =>
    exact sound'.resume (places ▸ (sound.entries place (entered place rfl)).1) res
  | null => exact sound'
  | completed => exact sound'

theorem step_sound {w next : Tracked} {e : Event} (sound : w.Sound)
    (stepped : w.step e = some next) : next.Sound := by
  obtain ⟨s, taken, rfl⟩ := watching_some stepped
  cases Context.step_effect taken with
  | construct who free => exact sound.construct who
  | move src into a alive free => exact sound.move into alive free
  | await place ret a alive free => exact sound.await ret alive free
  | drop place a alive free => exact sound.put alive free none (by simp) (by simp)
  | finish ret => exact sound.finish ret
  | dispatch data res t took => exact sound.dispatch res took

theorem Sound.finds_iff {w : Tracked} (sound : w.Sound) {place : Place}
    (entered : w.1.Entered place) : w.1.Finds place ↔ w.2 place = .awaited := by
  constructor
  · rintro ⟨a, who, -, -, -, waits⟩
    exact (sound.waits who place waits).1
  · intro awaited
    obtain ⟨who, waits⟩ := sound.awaited place awaited
    obtain ⟨-, a, alive, -, handle, entry⟩ := sound.waits who place waits
    have own := (sound.entries place entered).2 a alive
    exact ⟨a, who, alive, own.resolve_left entry, handle, waits⟩

end Tracked

namespace Context

theorem await_suspends {s next : Context} {who : Coroutine} {place : Place} {ret : Int}
    (stepped : s.step (.await who place ret) = some next) {a : Awaiter}
    (alive : a ∈ s.awaiters place) {op : Place} (entry : op ∈ a.sqe) :
    next.suspended who = some place := by
  cases step_effect stepped with
  | await place ret a' alive' free =>
    obtain rfl : a' = a := Option.some.inj (alive'.symm.trans alive)
    simp [await, Option.mem_def.mp entry]

theorem dispatch_entered {s next : Context} {place : Place} {res : Int}
    (stepped : s.step (.dispatch (.awaiter place) res) = some next) : s.Entered place := by
  cases step_effect stepped with
  | dispatch data res t took => exact (take_same took).2.2.2.2 place rfl

end Context

namespace Tracked

theorem serves_iff_orderly {w : Tracked} (sound : w.Sound) (e : Event) :
    w.Serves e ↔ w.Orderly e := by
  have tracked {s : Context} (taken : w.1.step e = some s) :
      w.step e = some (s, track w.1 e s w.2) := by simp [step, watching, taken]
  cases e with
  | dispatch data res =>
    cases data with
    | awaiter place =>
      constructor
      · intro serves next stepped
        obtain ⟨s, taken, rfl⟩ := watching_some stepped
        exact (sound.finds_iff (Context.dispatch_entered taken)).mp (serves s taken)
      · intro orderly s taken
        apply (sound.finds_iff (Context.dispatch_entered taken)).mpr
        exact orderly _ (tracked taken)
    | null | completed => exact ⟨fun _ _ _ => trivial, fun _ _ _ => trivial⟩
  | await who place ret =>
    constructor
    · intro serves next stepped a alive op entry completed
      obtain ⟨s, taken, rfl⟩ := watching_some stepped
      have continues := serves s taken a alive op entry completed
      simp [Context.await_suspends taken alive entry] at continues
    · intro orderly s taken a alive op entry completed
      exact absurd completed (orderly _ (tracked taken) a alive op entry)
  | construct | move | drop | finish => exact ⟨fun _ _ _ => trivial, fun _ _ _ => trivial⟩

end Tracked

/--
For every order of constructions, moves, awaits, drops and completions: every completion finds its
waiter exactly when every awaiter is awaited last before its completion and never after it.
-/
theorem completions_find_iff (events : List Event) :
    Always Tracked.step Tracked.Serves Tracked.init events ↔
      Always Tracked.step Tracked.Orderly Tracked.init events :=
  always_congr (fun _ _ _ sound stepped => Tracked.step_sound sound stepped)
    (fun _ e sound => Tracked.serves_iff_orderly sound e) Tracked.init_sound

-- The second awaiter is awaited first, which submits the entries of both.
def early : List Event := [.construct 0, .construct 0, .await 0 1 2, .dispatch (.awaiter 0) 5]

theorem unawaited_completion_is_lost :
    ¬ ∀ events : List Event, Always Tracked.step Tracked.Serves Tracked.init events := by
  intro claim
  have ready : (run Tracked.step .init [.construct 0, .construct 0, .await 0 1 2]).map
      (fun w => ((w.1.awaiters 0).map Awaiter.handle, (w.1.step (.dispatch (.awaiter 0) 5)).isSome)) =
      some (some none, true) := by decide +kernel
  obtain ⟨w, reached, view⟩ := Option.map_eq_some_iff.mp ready
  obtain ⟨handle, completes⟩ := Prod.mk.inj view
  obtain ⟨next, taken⟩ := Option.isSome_iff_exists.mp completes
  have serves := always_iff.mp (claim early) _ (.dispatch (.awaiter 0) 5) [] rfl w reached
  obtain ⟨a, who, alive, -, suspended, -⟩ := serves next taken
  simp [alive, suspended] at handle

end KkProxy.Uring
