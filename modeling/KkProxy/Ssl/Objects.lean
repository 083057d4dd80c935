import KkProxy.Shared.Owned
import KkProxy.Shared.Runs
import Mathlib.Logic.Function.Basic

set_option autoImplicit false

namespace KkProxy.Ssl.Objects

open Runs Ownership

structure SslObject where
  bios : Option (Nat × Nat)
deriving DecidableEq, Repr

structure Engine where
  ssl : Option Nat
  readBio : Option Nat
  writeBio : Option Nat
deriving DecidableEq, Repr

def Engine.empty : Engine := { ssl := none, readBio := none, writeBio := none }

/-- What is alive at a place: an `ssl_engine`, alone or inside a stream, or a stream without one. -/
inductive Place where
  | dead
  | plain
  | engine (e : Engine)
deriving DecidableEq, Repr

def Place.ssl : Place → Option Nat
  | .engine e => e.ssl
  | _ => none

inductive Fault where
  | doubleFree
  | useAfterFree
deriving DecidableEq, Repr

structure State where
  ssls : Nat → Option SslObject
  bios : Nat → Bool
  sslCount : Nat
  bioCount : Nat
  places : Nat → Place
  fault : Option Fault

inductive Action where
  -- `ssl_engine(SSL_CTX *)`; says which of `SSL_new` and the two calls of `BIO_new` succeed.
  | construct (p : Nat) (ssl readBio writeBio : Bool)
  | constructPlain (p : Nat)
  | moveConstruct (p src : Nat)
  | assign (dst src : Nat)
  | destroy (p : Nat)
  | use (p : Nat)
deriving DecidableEq, Repr

namespace State

def init : State :=
  { ssls := fun _ => none, bios := fun _ => false, sslCount := 0, bioCount := 0,
    places := fun _ => .dead, fault := none }

def put (s : State) (p : Nat) (place : Place) : State :=
  { s with places := Function.update s.places p place }

theorem put_places (s : State) (p : Nat) (place : Place) (q : Nat) :
    (s.put p place).places q = if q = p then place else s.places q := by
  simp only [put, Function.update_apply]

def sslNew (s : State) : State :=
  { s with
    ssls := Function.update s.ssls s.sslCount (some { bios := none })
    sslCount := s.sslCount + 1 }

def bioNew (s : State) : State :=
  { s with bios := Function.update s.bios s.bioCount true, bioCount := s.bioCount + 1 }

def sslSetBio (s : State) (i r w : Nat) : State :=
  { s with ssls := Function.update s.ssls i (some { bios := some (r, w) }) }

def bioFree (s : State) (b : Nat) : Except Fault State :=
  if s.bios b then .ok { s with bios := Function.update s.bios b false } else .error .doubleFree

def sslFree (s : State) (i : Nat) : Except Fault State :=
  match s.ssls i with
  | none => .error .doubleFree
  | some ssl =>
    let freed := { s with ssls := Function.update s.ssls i none }
    match ssl.bios with
    | none => .ok freed
    | some (r, w) => (freed.bioFree r).bind fun freed => freed.bioFree w

def unlessNull (s : State) (free : State → Nat → Except Fault State) :
    Option Nat → Except Fault State
  | none => .ok s
  | some i => free s i

/-- The constructor; where it throws, nothing is left at `p`. -/
def construct (s : State) (p : Nat) (ssl readBio writeBio : Bool) : State :=
  let i := s.sslCount
  let r := s.bioCount
  if !ssl then s
  else if !readBio then s.sslNew
  else if !writeBio then s.sslNew.bioNew
  else
    let w := r + 1
    (s.sslNew.bioNew.bioNew.sslSetBio i r w).put p
      (.engine { ssl := some i, readBio := some r, writeBio := some w })

def assignEngine (s : State) (dst src : Nat) (e other : Engine) : Except Fault State :=
  (s.unlessNull sslFree e.ssl).bind fun s =>
    (s.unlessNull bioFree e.readBio).bind fun s =>
      (s.unlessNull bioFree e.writeBio).map fun s =>
        (s.put dst (.engine other)).put src (.engine .empty)

def destroyEngine (s : State) (p : Nat) (e : Engine) (place : Place) : Except Fault State :=
  (s.unlessNull sslFree e.ssl).map fun s => s.put p place

-- A stream that holds the other alternative destroys it and is constructed anew.
def assign (s : State) (dst src : Nat) : Option (Except Fault State) :=
  match s.places dst, s.places src with
  | .dead, _ | _, .dead => none
  | .engine e, .engine other =>
    some (if dst = src then .ok s else s.assignEngine dst src e other)
  | .engine e, .plain => some (s.destroyEngine dst e .plain)
  | .plain, .engine other => some (.ok ((s.put dst (.engine other)).put src (.engine .empty)))
  | .plain, .plain => some (.ok s)

def moveConstruct (s : State) (p src : Nat) : Option (Except Fault State) :=
  match s.places p, s.places src with
  | .dead, .engine e => some (.ok ((s.put p (.engine e)).put src (.engine .empty)))
  | .dead, .plain => some (.ok (s.put p .plain))
  | _, _ => none

def destroy (s : State) (p : Nat) : Option (Except Fault State) :=
  match s.places p with
  | .dead => none
  | .plain => some (.ok (s.put p .dead))
  | .engine e => some (s.destroyEngine p e .dead)

def intact (s : State) (e : Engine) : Bool :=
  (e.ssl.all fun i => (s.ssls i).isSome) && e.readBio.all s.bios && e.writeBio.all s.bios

def use (s : State) (p : Nat) : Option (Except Fault State) :=
  match s.places p with
  | .engine e => some (if s.intact e then .ok s else .error .useAfterFree)
  | _ => none

def act (s : State) : Action → Option (Except Fault State)
  | .construct p ssl readBio writeBio =>
    if s.places p = .dead then some (.ok (s.construct p ssl readBio writeBio)) else none
  | .constructPlain p => if s.places p = .dead then some (.ok (s.put p .plain)) else none
  | .moveConstruct p src => s.moveConstruct p src
  | .assign dst src => s.assign dst src
  | .destroy p => s.destroy p
  | .use p => s.use p

def step (s : State) (a : Action) : Option State :=
  if s.fault.isSome then none
  else (s.act a).map fun
    | .ok next => next
    | .error fault => { s with fault := some fault }

/-- Nothing is freed twice or used after it was freed, or left over once no engine is alive. -/
structure Released (s : State) : Prop where
  sound : s.fault = none
  freed : (∀ p e, s.places p ≠ .engine e) → (∀ i, s.ssls i = none) ∧ ∀ b, s.bios b = false

/-- No BIO cannot be had once `SSL_new` has succeeded, and no live engine is assigned to. -/
def Careful (s : State) : Action → Prop
  | .construct _ ssl readBio writeBio => ssl = true → readBio = true ∧ writeBio = true
  | .assign dst src => dst = src ∨ (s.places dst).ssl = none ∨ s.places src = .plain
  | _ => True

instance (s : State) : DecidablePred s.Careful
  | .construct _ ssl readBio writeBio =>
    inferInstanceAs (Decidable (ssl = true → readBio = true ∧ writeBio = true))
  | .assign dst src => inferInstanceAs
      (Decidable (dst = src ∨ (s.places dst).ssl = none ∨ s.places src = .plain))
  | .constructPlain _ | .moveConstruct _ _ | .destroy _ | .use _ => .isTrue trivial

def sslBio (s : State) : Nat × Bool → Option Nat
  | (i, side) => ((s.ssls i).bind (·.bios)).map fun bios => if side then bios.2 else bios.1

def Whole (s : State) (e : Engine) : Prop :=
  e = .empty ∨ ∃ i r w, e = { ssl := some i, readBio := some r, writeBio := some w } ∧
    s.ssls i = some { bios := some (r, w) }

structure Sound (s : State) : Prop where
  clean : s.fault = none
  ssls : Owned (fun i => (s.ssls i).isSome) fun p => (s.places p).ssl
  bios : Owned (fun b => s.bios b = true) s.sslBio
  whole : ∀ p e, s.places p = .engine e → s.Whole e
  newSsl : ∀ i, s.sslCount ≤ i → s.ssls i = none
  newBio : ∀ b, s.bioCount ≤ b → s.bios b = false

theorem init_sound : init.Sound where
  clean := rfl
  ssls := ⟨fun i => by simp [init, Place.ssl], fun p q i holds => by simp [init, Place.ssl] at holds⟩
  bios := ⟨fun b => by simp [init, sslBio], fun x y b holds => by simp [init, sslBio] at holds⟩
  whole p e holds := by simp [init] at holds
  newSsl _ _ := rfl
  newBio _ _ := rfl

theorem Sound.released {s : State} (sound : s.Sound) : s.Released where
  sound := sound.clean
  freed none := by
    have idle : ∀ p, (s.places p).ssl = Option.none := by
      intro p
      cases holds : s.places p with
      | engine e => exact absurd holds (none p e)
      | dead | plain => rfl
    have ssls : ∀ i, s.ssls i = Option.none := fun i => by simpa using sound.ssls.unused idle i
    refine ⟨ssls, fun b => ?_⟩
    simpa using sound.bios.unused (fun x => by simp [sslBio, ssls]) b

theorem Sound.put {s : State} (sound : s.Sound) {p : Nat} {place : Place}
    (idle : (s.places p).ssl = none) (harmless : place.ssl = none)
    (whole : ∀ e, place = .engine e → e = .empty) : (s.put p place).Sound where
  clean := sound.clean
  ssls := by
    refine sound.ssls.congr (fun _ => Iff.rfl) fun q => ?_
    rw [put_places]
    split_ifs with same
    · rw [same, idle, harmless]
    · rfl
  bios := sound.bios
  whole q e holds := by
    rw [put_places] at holds
    split_ifs at holds
    · exact .inl (whole e holds)
    · exact sound.whole q e holds
  newSsl := sound.newSsl
  newBio := sound.newBio

theorem Sound.move {s : State} (sound : s.Sound) {dst src : Nat} {e : Engine} (differ : dst ≠ src)
    (idle : (s.places dst).ssl = none) (holds : s.places src = .engine e) :
    ((s.put dst (.engine e)).put src (.engine .empty)).Sound where
  clean := sound.clean
  ssls := by
    refine sound.ssls.move dst src idle fun q => ?_
    rw [put_places, put_places, holds]
    split_ifs with source target target
    · exact absurd (target.symm.trans source) differ
    · rfl
    · rfl
    · rfl
  bios := sound.bios
  whole q e' holds' := by
    rw [put_places, put_places] at holds'
    split_ifs at holds'
    · exact .inl (Place.engine.inj holds').symm
    · obtain rfl := Place.engine.inj holds'
      exact sound.whole src e holds
    · exact sound.whole q e' holds'
  newSsl := sound.newSsl
  newBio := sound.newBio

section Constructed

variable (s : State) (p : Nat)

theorem construct_ssls (i : Nat) : (s.construct p true true true).ssls i =
    if i = s.sslCount then some { bios := some (s.bioCount, s.bioCount + 1) } else s.ssls i := by
  by_cases same : i = s.sslCount <;> simp [construct, put, sslSetBio, bioNew, sslNew, same]

theorem construct_bios (b : Nat) : (s.construct p true true true).bios b =
    if b = s.bioCount + 1 then true else if b = s.bioCount then true else s.bios b := by
  simp [construct, put, sslSetBio, bioNew, sslNew, Function.update_apply]

theorem construct_places (q : Nat) : (s.construct p true true true).places q =
    if q = p then .engine { ssl := some s.sslCount, readBio := some s.bioCount,
                            writeBio := some (s.bioCount + 1) } else s.places q := by
  simp [construct, put, sslSetBio, bioNew, sslNew, Function.update_apply]

end Constructed

theorem Sound.constructs {s : State} (sound : s.Sound) {p : Nat} (dead : s.places p = .dead) :
    (s.construct p true true true).Sound where
  clean := sound.clean
  ssls := by
    have new : ¬ (s.ssls s.sslCount).isSome := by simp [sound.newSsl]
    refine sound.ssls.acquire (o := p) new (by simp [dead, Place.ssl]) (fun i => ?_) fun q => ?_
    · by_cases same : i = s.sslCount <;> simp [construct_ssls, same]
    · by_cases same : q = p <;> simp [construct_places, same, Place.ssl]
  bios := by
    have unowned : ∀ side, s.sslBio (s.sslCount, side) = none := fun side => by
      simp [sslBio, sound.newSsl]
    have readBio : Owned (fun b => s.bios b = true ∨ b = s.bioCount) _ :=
      sound.bios.acquire (o := (s.sslCount, false)) (r := s.bioCount) (by simp [sound.newBio])
        (unowned false) (fun _ => Iff.rfl) (fun _ => rfl)
    refine readBio.acquire (o := (s.sslCount, true)) (r := s.bioCount + 1) ?_ ?_ (fun b => ?_) ?_
    · simp [sound.newBio]
    · simp [unowned]
    · rw [construct_bios]
      split_ifs with second first <;> simp [*]
    · rintro ⟨i, side⟩
      rw [sslBio, construct_ssls]
      by_cases same : i = s.sslCount
      · cases side <;> simp [same]
      · simp [same, sslBio]
  whole q e holds := by
    rw [construct_places] at holds
    split_ifs at holds
    · obtain rfl := Place.engine.inj holds
      exact .inr ⟨_, _, _, rfl, by simp [construct_ssls]⟩
    · refine (sound.whole q e holds).imp id ?_
      rintro ⟨i, r, w, rfl, live⟩
      have older : i ≠ s.sslCount := by
        rintro rfl
        simp [sound.newSsl] at live
      exact ⟨i, r, w, rfl, by rw [construct_ssls, if_neg older, live]⟩
  newSsl i beyond := by
    have beyond : s.sslCount < i := beyond
    rw [construct_ssls, if_neg (Nat.ne_of_gt beyond)]
    exact sound.newSsl i (Nat.le_of_lt beyond)
  newBio b beyond := by
    have beyond : s.bioCount + 1 < b := beyond
    rw [construct_bios, if_neg (Nat.ne_of_gt beyond), if_neg (by omega)]
    exact sound.newBio b (by omega)

def freeWhole (s : State) (i r w : Nat) : State :=
  { s with
    ssls := Function.update s.ssls i none
    bios := Function.update (Function.update s.bios r false) w false }

theorem Sound.differ {s : State} (sound : s.Sound) {i r w : Nat}
    (live : s.ssls i = some { bios := some (r, w) }) : w ≠ r := by
  rintro rfl
  have same := sound.bios.unique (i, true) (i, false) w (by simp [sslBio, live])
    (by simp [sslBio, live])
  simp at same

theorem Sound.sslFree_whole {s : State} (sound : s.Sound) {i r w : Nat}
    (live : s.ssls i = some { bios := some (r, w) }) : s.sslFree i = .ok (s.freeWhole i r w) := by
  have readLive : s.bios r = true := sound.bios.in_use (o := (i, false)) (by simp [sslBio, live])
  have writeLive : s.bios w = true := sound.bios.in_use (o := (i, true)) (by simp [sslBio, live])
  simp [sslFree, live, bioFree, readLive, writeLive, sound.differ live, Except.bind, freeWhole]

theorem Sound.freeWhole {s : State} (sound : s.Sound) {p i r w : Nat} {place : Place}
    (holds : s.places p = .engine { ssl := some i, readBio := some r, writeBio := some w })
    (live : s.ssls i = some { bios := some (r, w) }) (harmless : place.ssl = none)
    (whole : ∀ e, place = .engine e → e = .empty) :
    ((s.freeWhole i r w).put p place).Sound where
  clean := sound.clean
  ssls := by
    refine sound.ssls.release (o := p) (r := i) (by simp [holds, Place.ssl]) (fun j => ?_) fun q => ?_
    · by_cases same : j = i <;> simp [State.put, State.freeWhole, same]
    · by_cases same : q = p <;> simp [put_places, State.freeWhole, same, harmless]
  bios := by
    have readBio := sound.bios.release (o := (i, false)) (r := r) (by simp [sslBio, live])
      (fun _ => Iff.rfl) (fun _ => rfl)
    refine readBio.release (o := (i, true)) (r := w) (by simp [sslBio, live]) (fun b => ?_) ?_
    · by_cases second : b = w <;> by_cases first : b = r <;>
        simp [State.put, State.freeWhole, Function.update_apply, second, first]
    · rintro ⟨j, side⟩
      by_cases same : j = i <;> cases side <;>
        simp [sslBio, State.put, State.freeWhole, same]
  whole q e holds' := by
    rw [put_places] at holds'
    split_ifs at holds' with elsewhere
    · exact .inl (whole e holds')
    · refine (sound.whole q e holds').imp id ?_
      rintro ⟨j, r', w', rfl, live'⟩
      have other : j ≠ i := by
        rintro rfl
        have held : s.places q = .engine { ssl := some j, readBio := some r', writeBio := some w' } :=
          holds'
        exact elsewhere (sound.ssls.unique q p j (by simp [held, Place.ssl])
          (by simp [holds, Place.ssl]))
      exact ⟨j, r', w', rfl, by simp [State.put, State.freeWhole, other, live']⟩
  newSsl j beyond := by
    simp only [State.put, State.freeWhole, Function.update_apply]
    split_ifs
    · rfl
    · exact sound.newSsl j beyond
  newBio b beyond := by
    simp only [State.put, State.freeWhole, Function.update_apply]
    split_ifs
    · rfl
    · rfl
    · exact sound.newBio b beyond

theorem Sound.destroyEngine {s : State} (sound : s.Sound) {p : Nat} {e : Engine} {place : Place}
    (holds : s.places p = .engine e) (harmless : place.ssl = none)
    (whole : ∀ e, place = .engine e → e = .empty) :
    ∃ next, s.destroyEngine p e place = .ok next ∧ next.Sound := by
  rcases sound.whole p e holds with rfl | ⟨i, r, w, rfl, live⟩
  · exact ⟨s.put p place, rfl, sound.put (by simp [holds, Place.ssl, Engine.empty]) harmless whole⟩
  · refine ⟨(s.freeWhole i r w).put p place, ?_, sound.freeWhole holds live harmless whole⟩
    simp [State.destroyEngine, unlessNull, sound.sslFree_whole live, Except.map]

theorem Sound.assign {s : State} (sound : s.Sound) {dst src : Nat} {result : Except Fault State}
    (careful : s.Careful (.assign dst src)) (assigned : s.assign dst src = some result) :
    ∃ next, result = .ok next ∧ next.Sound := by
  unfold State.assign at assigned
  split at assigned
  · cases assigned
  · cases assigned
  · next e other target source =>
    obtain rfl := Option.some.inj assigned
    split_ifs with same
    · exact ⟨s, rfl, sound⟩
    · have empty : e.ssl = none := by
        rcases careful with self | idle | plain
        · exact absurd self same
        · simpa [target, Place.ssl] using idle
        · simp [source] at plain
      obtain rfl : e = .empty := by
        rcases sound.whole dst e target with whole | ⟨i, r, w, rfl, -⟩
        · exact whole
        · simp at empty
      exact ⟨_, rfl, sound.move same (by simp [target, Place.ssl, Engine.empty]) source⟩
  · next e target source =>
    obtain rfl := Option.some.inj assigned
    exact sound.destroyEngine target rfl (by simp)
  · next other target source =>
    obtain rfl := Option.some.inj assigned
    have differ : dst ≠ src := by
      rintro rfl
      simp [target] at source
    exact ⟨_, rfl, sound.move differ (by simp [target, Place.ssl]) source⟩
  · obtain rfl := Option.some.inj assigned
    exact ⟨s, rfl, sound⟩

theorem Sound.moveConstruct {s : State} (sound : s.Sound) {p src : Nat}
    {result : Except Fault State} (moved : s.moveConstruct p src = some result) :
    ∃ next, result = .ok next ∧ next.Sound := by
  unfold State.moveConstruct at moved
  split at moved
  · next e dead source =>
    obtain rfl := Option.some.inj moved
    have differ : p ≠ src := by
      rintro rfl
      simp [dead] at source
    exact ⟨_, rfl, sound.move differ (by simp [dead, Place.ssl]) source⟩
  · next dead source =>
    obtain rfl := Option.some.inj moved
    exact ⟨_, rfl, sound.put (by simp [dead, Place.ssl]) rfl (by simp)⟩
  · cases moved

theorem Sound.destroy {s : State} (sound : s.Sound) {p : Nat} {result : Except Fault State}
    (destroyed : s.destroy p = some result) : ∃ next, result = .ok next ∧ next.Sound := by
  unfold State.destroy at destroyed
  split at destroyed
  · cases destroyed
  · next plain =>
    obtain rfl := Option.some.inj destroyed
    exact ⟨_, rfl, sound.put (by simp [plain, Place.ssl]) rfl (by simp)⟩
  · next e holds =>
    obtain rfl := Option.some.inj destroyed
    exact sound.destroyEngine holds rfl (by simp)

theorem Sound.use {s : State} (sound : s.Sound) {p : Nat} {result : Except Fault State}
    (used : s.use p = some result) : ∃ next, result = .ok next ∧ next.Sound := by
  unfold State.use at used
  split at used
  · next e holds =>
    obtain rfl := Option.some.inj used
    have intact : s.intact e = true := by
      rcases sound.whole p e holds with rfl | ⟨i, r, w, rfl, live⟩
      · rfl
      · have readLive : s.bios r = true :=
          sound.bios.in_use (o := (i, false)) (by simp [sslBio, live])
        have writeLive : s.bios w = true :=
          sound.bios.in_use (o := (i, true)) (by simp [sslBio, live])
        simp [State.intact, live, readLive, writeLive]
    exact ⟨s, by simp [intact], sound⟩
  · cases used

theorem step_sound {s next : State} {a : Action} (sound : s.Sound) (careful : s.Careful a)
    (taken : s.step a = some next) : next.Sound := by
  have kept : ∀ result, s.act a = some result → ∃ next, result = .ok next ∧ next.Sound := by
    intro result acted
    cases a with
    | construct p ssl readBio writeBio =>
      simp only [act] at acted
      split_ifs at acted with dead
      obtain rfl := Option.some.inj acted
      cases ssl with
      | false => exact ⟨s, rfl, sound⟩
      | true =>
        obtain ⟨rfl, rfl⟩ := careful rfl
        exact ⟨_, rfl, sound.constructs dead⟩
    | constructPlain p =>
      simp only [act] at acted
      split_ifs at acted with dead
      obtain rfl := Option.some.inj acted
      exact ⟨_, rfl, sound.put (by simp [dead, Place.ssl]) rfl (by simp)⟩
    | moveConstruct p src => exact sound.moveConstruct acted
    | assign dst src => exact sound.assign careful acted
    | destroy p => exact sound.destroy acted
    | use p => exact sound.use acted
  simp only [step, sound.clean, Option.isSome_none, Bool.false_eq_true, if_false] at taken
  obtain ⟨result, acted, rfl⟩ := Option.map_eq_some_iff.mp taken
  obtain ⟨next, rfl, sound⟩ := kept result acted
  exact sound

/--
If no `BIO_new` fails once `SSL_new` has succeeded and no engine is assigned to one that is live,
then every SSL and BIO object is freed exactly once, the last with the last engine.
-/
theorem releases_once {actions : List Action} (careful : Always step Careful init actions)
    {s : State} (visited : Visits step init actions s) : s.Released :=
  (visits_invariant (fun _ _ _ sound careful taken => step_sound sound careful taken) visited
    careful init_sound).released

end State

-- An engine is moved into a stream and from there onto an empty one; a second fails in `SSL_new`.
def movedAround : List Action :=
  [.construct 0 true true true, .moveConstruct 1 0, .use 1, .assign 0 1, .construct 2 false true true,
    .constructPlain 2, .assign 2 0, .destroy 0, .destroy 1, .use 2, .destroy 2]

theorem releases_once_moved_around :
    ∃ s, run State.step .init movedAround = some s ∧ s.sslCount = 1 ∧ s.bioCount = 2 ∧
      s.fault = none ∧ s.ssls 0 = none ∧ s.bios 0 = false ∧ s.bios 1 = false := by
  have careful : Always State.step State.Careful .init movedAround := by decide +kernel
  have ended : (run State.step .init movedAround).map
      (fun s => (s.sslCount, s.bioCount)) = some (1, 2) := by decide +kernel
  have dead : ∀ p, (run State.step .init movedAround).map (fun s => s.places p) = some .dead := by
    rintro (_ | _ | _ | p) <;> rfl
  obtain ⟨s, reached, view⟩ := Option.map_eq_some_iff.mp ended
  simp only [Prod.mk.injEq] at view
  simp only [reached, Option.map_some, Option.some.injEq] at dead
  have released := State.releases_once careful (visits_end reached)
  obtain ⟨ssls, bios⟩ := released.freed (by simp [dead])
  exact ⟨s, reached, view.1, view.2, released.sound, ssls 0, bios 0, bios 1⟩

def overwritten : List Action :=
  [.construct 0 true true true, .construct 1 true true true, .assign 0 1]

theorem assign_frees_twice :
    ¬ ∀ (actions : List Action) (s : State), Visits State.step .init actions s → s.Released := by
  intro claim
  have ended : (run State.step .init overwritten).map (fun s => s.fault) =
      some (some .doubleFree) := by decide +kernel
  obtain ⟨s, reached, fault⟩ := Option.map_eq_some_iff.mp ended
  have released := claim _ s (visits_end reached)
  simp [released.sound] at fault

end KkProxy.Ssl.Objects
