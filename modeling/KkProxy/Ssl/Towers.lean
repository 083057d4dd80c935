import KkProxy.Ssl.Flags
import KkProxy.Ssl.Nested

set_option autoImplicit false

namespace KkProxy.Ssl

open Runs
open Shared (Side Duplex)

variable {ι σ : Type} {o : Lib σ}

def Chain.offered : Chain → Bytes
  | .running ⟨0, _, p⟩ _ => p.loaded
  | _ => []

-- What a call from outside that has just returned has delivered.
def Chain.delivers : Chain → Bytes
  | .free (some out) => out.delivers
  | _ => []

def Chain.threw : Chain → Bool
  | .free (some (.threw _)) => true
  | _ => false

def TowerInput.bytes : TowerInput → Bytes
  | .received _ bytes => bytes
  | _ => []

def TowerInput.gives : TowerInput → Bytes
  | .call _ (.send buf _) => buf
  | _ => []

abbrev Towers (ι σ : Type) := Side → Tower ι σ × Bytes

namespace Towers

def fresh (ssl : Nat → Side → σ) : Towers ι σ := fun side =>
  (.fresh fun level => ssl level side, [])

-- What the lowest raw stream has accepted, and what the one sender `w` offers it.
def offered (w : Side → ι) (d : Towers ι σ) (side : Side) : Bytes :=
  ((d side).1.streams 0).accepted ++ ((d side).1.chains (w side)).offered

def given (inputs : List (ι × TowerInput)) : Bytes := inputs.flatMap fun input => input.2.gives

variable [DecidableEq ι]

variable (o) in
/-- One tower takes a step; its raw stream returns nothing but what the other's was offered. -/
def step (w : Side → ι) (d : Towers ι σ) (input : Side × ι × TowerInput) : Option (Towers ι σ) :=
  if ((d input.1).1.streams 0).received ++ input.2.2.bytes <+: d.offered w input.1.other then
    ((d input.1).1.step o input.2).map fun t =>
      Function.update d input.1 (t, (d input.1).2 ++ (t.chains input.2.1).delivers)
  else none

/--
Raw sends accept some bytes. Calls are made on the stream at `top`, apart from handshakes, and all
but those of `recv` by one coroutine, which makes none after an exception.
-/
def Allows (roles : Side → HandshakeType → Prop) (w : Side → ι) (top : Nat) (d : Towers ι σ) :
    Side × ι × TowerInput → Prop
  | (side, i, .call level c) =>
    (level = top ∨ level < top ∧ c.sends = false ∧ c.receives = false) ∧ c.Plays (roles side) ∧
      (c.receives = false → i = w side) ∧ ((d side).1.chains i).threw = false
  | (_, _, .sent r) => 0 < r
  | _ => True

instance (roles : HandshakeType → Prop) [DecidablePred roles] : ∀ c : Call, Decidable (c.Plays roles)
  | .handshake type => inferInstanceAs (Decidable (roles type))
  | .send _ _ => .isTrue trivial
  | .recv _ _ => .isTrue trivial

def Makes (made : Side → ι → Call → Prop) : Side × ι × TowerInput → Prop
  | (side, i, .call _ c) => made side i c
  | _ => True

instance (roles : Side → HandshakeType → Prop) [∀ side, DecidablePred (roles side)] (w : Side → ι)
    (top : Nat) (d : Towers ι σ) : ∀ input, Decidable (d.Allows roles w top input)
  | (side, i, .call level c) => inferInstanceAs (Decidable
      ((level = top ∨ level < top ∧ c.sends = false ∧ c.receives = false) ∧ c.Plays (roles side) ∧
        (c.receives = false → i = w side) ∧ ((d side).1.chains i).threw = false))
  | (_, _, .sent r) => inferInstanceAs (Decidable (0 < r))
  | (_, _, .descend) => .isTrue trivial
  | (_, _, .received _ _) => .isTrue trivial

end Towers

-- The suspended coroutines of a chain are what a slot of the streams above `level` holds.
def Above (slot : Nat → Pc) : Nat → List Frame → Prop
  | level, [] => ∀ k, level < k → (slot k).closed = true
  | level, frame :: outer =>
    frame.level = level + 1 ∧ slot frame.level = .suspended frame.call frame.p ∧
      Above slot frame.level outer

-- The call that was made from outside is one on the stream at `top`, or a handshake below it.
def Rooted (top : Nat) : Nat → Call → List Frame → Prop
  | level, c, [] => level = top ∨ level < top ∧ c.sends = false ∧ c.receives = false
  | level, _, frame :: outer => level < top ∧ Rooted top frame.level frame.call outer

def Chain.Shown (top : Nat) (slot : Nat → Pc) : Chain → Prop
  | .free last => (Chain.free last).threw = true ∨ ∀ k, (slot k).closed = true
  | .running frame outer =>
    slot frame.level = .suspended frame.call frame.p ∧
      (∀ k, k < frame.level → (slot k).closed = true) ∧ Above slot frame.level outer ∧
      KkProxy.Ssl.Linked frame outer ∧ Rooted top frame.level frame.call outer

theorem Above.congr {slot slot' : Nat → Pc} {level : Nat} {outer : List Frame}
    (same : ∀ k, level < k → slot' k = slot k) (above : Above slot level outer) :
    Above slot' level outer := by
  induction outer generalizing level with
  | nil => exact fun k higher => same k higher ▸ above k higher
  | cons frame outer ih =>
    obtain ⟨next, held, rest⟩ := above
    refine ⟨next, ?_, ih (fun k higher => same k (by omega)) rest⟩
    rw [same frame.level (by omega)]
    exact held

theorem Rooted.le {top level : Nat} {c : Call} {outer : List Frame}
    (rooted : Rooted top level c outer) : level ≤ top := by
  cases outer with
  | nil =>
    obtain rfl | ⟨lower, -⟩ := rooted
    · exact Nat.le_refl _
    · exact Nat.le_of_lt lower
  | cons frame outer => exact Nat.le_of_lt rooted.1

def Progress.awaited (i : ι) (outer : List Frame) : Progress → Option ι
  | .suspended _ => none
  | .done _ => if outer = [] then none else some i

theorem Call.Allows.undelivered {c : Call} {progress : Progress} (allowed : c.Allows progress)
    (sends : c.receives = false) : progress.delivers = [] := by
  cases progress with
  | suspended p => rfl
  | done out =>
    have ends : c.Ends out := allowed
    cases c <;> cases out <;> first | rfl | exact absurd ends id | cases sends

theorem Progress.allows_of_proper {c : Call} {progress : Progress}
    (proper : (progress.pc c).Proper) : c.Allows progress := by
  cases progress <;> exact proper

theorem Progress.awaited_cases (i : ι) (outer : List Frame) (progress : Progress) :
    progress.awaited i outer = none ∨ progress.awaited i outer = some i := by
  cases progress with
  | suspended p => exact .inl rfl
  | done out =>
    unfold awaited
    split_ifs
    · exact .inl rfl
    · exact .inr rfl

-- Below `top` no one from outside gets anything.
theorem Rooted.undelivered {top level : Nat} {c : Call} {outer : List Frame} {i : ι}
    {progress : Progress} (rooted : Rooted top level c outer) (inside : level < top)
    (allowed : c.Allows progress) (none : progress.awaited i outer = none) :
    progress.delivers = [] := by
  cases progress with
  | suspended p => rfl
  | done out =>
    have last : outer = [] := by
      by_contra some
      simp [Progress.awaited, some] at none
    subst last
    obtain rfl | ⟨-, -, sends⟩ := rooted
    · exact absurd inside (Nat.lt_irrefl _)
    · exact allowed.undelivered sends

section Ascend

variable (o)

-- An exception goes through all the coroutines that wait.
theorem ascend_threw (outer : List Frame) (streams : Nat → Stream σ) (level : Nat) (c : Call)
    (s : Stream σ) (what : String) :
    ascend o outer streams level c (s, .done (.threw what)) =
      (Function.update streams level s, .free (some (.threw what))) := by
  induction outer generalizing streams level c s with
  | nil => rfl
  | cons frame outer ih =>
    have passed (s : Stream σ) : frame.resume o s (.threw what) = (s, .done (.threw what)) := by
      unfold Frame.resume
      cases frame.p.request <;> rfl
    rw [ascend, passed, ih, Function.update_eq_self]

end Ascend

variable [DecidableEq ι]

namespace Ledger

variable {w : Side → ι} {g g' : Ledger ι σ} {side : Side} {i : ι}

theorem Apart.pair {k : Nat} (apart : g.Apart side i g')
    (pair : Pair (w side.other) none (g.given side.other k) (g.machine side.other k)
      (g.machine side.other (k + 1))) :
    Pair (w side.other) none (g'.given side.other k) (g'.machine side.other k)
      (g'.machine side.other (k + 1)) := by
  have same (k : Nat) : g'.machine side.other k = g.machine side.other k := by
    rw [Ledger.machine, apart.other, Ledger.machine]
  rw [same, same, apart.given]
  exact pair

theorem Takes.streams {level : Nat} {input : Input} {c : Call} {r : Stream σ × Progress}
    (takes : g.Takes (o := o) side i level input ((g.machine side level).settle i c r) g') :
    (fun k => (g'.machine side k).stream) =
      Function.update (fun k => (g.machine side k).stream) level r.1 := by
  funext k
  by_cases same : k = level
  · subst same
    rw [takes.machine, Function.update_self]
    rfl
  · rw [takes.machine_ne same, Function.update_of_ne same]

end Ledger

-- A coroutine of `side` has run, at `level`, to `r`, and the others of its chain have not gone on.
structure Climbs (o : Lib σ) (e : Setting ι σ) (top : Nat) (side : Side) (i : ι)
    (streams : Nat → Stream σ) (level : Nat) (c : Call)
    (r : Stream σ × Progress) (outer : List Frame) (before total : Bytes)
    (start g : Ledger ι σ) : Prop where
  sound : g.Sound o e
  apart : start.Apart side i g
  streams : (fun k => (g.machine side k).stream) = Function.update streams level r.1
  slot : (g.machine side level).slots i = r.2.pc c
  below : ∀ k, k < level → ((g.machine side k).slots i).closed = true
  above : Above (fun k => (g.machine side k).slots i) level outer
  under : c.Under outer
  rooted : Rooted top level c outer
  pairs : ∀ k, k < top → Pair (e.w side) (if k = level then r.2.awaited i outer else none)
    (g.given side k) (g.machine side k) (g.machine side (k + 1))
  delivered : (g.machine side top).delivered = before ++ if level = top then r.2.delivers else []
  given : g.given side top = total

structure Climbed (o : Lib σ) (e : Setting ι σ) (top : Nat) (side : Side) (i : ι)
    (r : (Nat → Stream σ) × Chain)
    (before total : Bytes) (start g : Ledger ι σ) : Prop where
  sound : g.Sound o e
  apart : start.Apart side i g
  streams : (fun k => (g.machine side k).stream) = r.1
  shown : r.2.Shown top fun k => (g.machine side k).slots i
  pairs : ∀ k, k < top →
    Pair (e.w side) none (g.given side k) (g.machine side k) (g.machine side (k + 1))
  delivered : (g.machine side top).delivered = before ++ r.2.delivers
  given : g.given side top = total

section Climb

variable {e : Setting ι σ} {top : Nat}
  {side : Side} {i : ι} {streams : Nat → Stream σ} {level : Nat} {c : Call}
  {outer : List Frame} {before total : Bytes} {start g g' : Ledger ι σ}

theorem Ledger.Takes.climbs (contract : o.ErrorContract) {input : Input} {r : Stream σ × Progress}
    (takes : g.Takes (o := o) side i level input ((g.machine side level).settle i c r) g')
    (sound : g'.Sound o e) (apart : start.Apart side i g)
    (below : ∀ k, k < level → ((g.machine side k).slots i).closed = true)
    (above : Above (fun k => (g.machine side k).slots i) level outer) (under : c.Under outer)
    (rooted : Rooted top level c outer)
    (lower : ∀ k, k < top → k ≠ level → Pair (e.w side) none (g.given side k) (g.machine side k)
      (g'.machine side (k + 1)))
    (same : level < top → Pair (e.w side) none (g.given side level) (g.machine side level)
      (g.machine side (level + 1)))
    (silent : i ≠ e.w side ∨ outer = [] ∧ level < top → input.gives = [])
    (waits : outer ≠ [] → ((g.machine side level).slots i).closed = false ∧ input.gives = [] ∨
      ((g.machine side level).slots i).closed = true ∧
        input.gives = ((g.machine side (level + 1)).slots i).loaded)
    (delivered : (g.machine side top).delivered = before) (given : g'.given side top = total) :
    Climbs o e top side i (fun k => (g.machine side k).stream) level c r outer before total
      start g' where
  sound := sound
  apart := apart.trans takes.apart
  streams := takes.streams
  slot := by rw [takes.machine, Machine.settle_slot]
  below k lower := by
    rw [takes.machine_ne (Nat.ne_of_lt lower)]
    exact below k lower
  above := above.congr fun k higher => by rw [takes.machine_ne (Nat.ne_of_gt higher)]
  under := under
  rooted := rooted
  pairs k inside := by
    by_cases here : k = level
    · subst here
      have slot : ((g.machine side k).settle i c r).slots i = r.2.pc c := Machine.settle_slot ..
      have proper := ((sound k).sound contract).ends side |>.kept.proper i
      rw [show ((g'.links k).ends side).1 = _ from takes.machine, slot] at proper
      rw [if_pos rfl, takes.given_same, takes.machine, takes.machine_ne (Nat.succ_ne_self k)]
      refine (same inside).lower_step takes.taken (r.2.awaited_cases i outer) (fun none => ?_)
        (fun other => silent (.inl other)) fun own => ?_
      · rw [slot, Progress.pc_delivers]
        exact rooted.undelivered inside (Progress.allows_of_proper proper) none
      · by_cases last : outer = []
        · subst last
          have closed := above (k + 1) (Nat.lt_succ_self k)
          exact .inl ⟨silent (.inr ⟨rfl, inside⟩), own ▸ Pc.closed_loaded closed⟩
        · refine .inr ⟨?_, own ▸ waits last⟩
          rw [← own, slot]
          cases progress : r.2 with
          | suspended p => exact .inl rfl
          | done out => exact .inr (if_neg last)
    · rw [if_neg here, takes.given_ne here, takes.machine_ne here]
      exact lower k inside here
  delivered := by
    by_cases here : level = top
    · subst here
      rw [takes.machine, if_pos rfl, ← delivered]
      rfl
    · rw [takes.machine_ne (Ne.symm here), if_neg here, delivered, List.append_nil]
  given := given

theorem Climbs.suspended (contract : o.ErrorContract) {s : Stream σ} {p : Suspended}
    (climbs : Climbs o e top side i streams level c (s, .suspended p) outer before total
      start g) :
    Climbed o e top side i
      (Function.update streams level s, .running ⟨level, c, p⟩ outer) before total start g where
  sound := climbs.sound
  apart := climbs.apart
  streams := climbs.streams
  shown := by
    have proper := ((climbs.sound level).sound contract).ends side |>.kept.proper i
    rw [show ((g.links level).ends side).1.slots i = _ from climbs.slot] at proper
    exact ⟨climbs.slot, climbs.below, climbs.above, linked_iff.mpr ⟨proper, climbs.under⟩,
      climbs.rooted⟩
  given := climbs.given
  pairs k inside := by simpa [Progress.awaited] using climbs.pairs k inside
  delivered := by simpa [Progress.delivers, Chain.delivers] using climbs.delivered

theorem Climbs.ended (contract : o.ErrorContract) {s : Stream σ} {out : Outcome}
    (climbs : Climbs o e top side i streams level c (s, .done out) [] before total start g) :
    Climbed o e top side i (Function.update streams level s, .free (some out)) before total
      start g where
  sound := climbs.sound
  apart := climbs.apart
  streams := climbs.streams
  shown := by
    by_cases threw : (Chain.free (some out)).threw = true
    · exact .inl threw
    · refine .inr fun k => ?_
      obtain lower | rfl | higher := Nat.lt_trichotomy k level
      · exact climbs.below k lower
      · have slot := climbs.slot
        dsimp only at slot ⊢
        rw [slot]
        cases out with
        | threw what => exact absurd rfl threw
        | handshake | sent | received => rfl
      · exact climbs.above k higher
  given := climbs.given
  pairs k inside := by simpa [Progress.awaited] using climbs.pairs k inside
  delivered := by
    rw [climbs.delivered]
    by_cases last : level = top
    · rw [if_pos last]
      rfl
    · have inside : level < top := lt_of_le_of_ne climbs.rooted.le last
      have proper := ((climbs.sound level).sound contract).ends side |>.kept.proper i
      rw [show ((g.links level).ends side).1.slots i = _ from climbs.slot] at proper
      have none : out.delivers = [] := climbs.rooted.undelivered (i := i) inside
        (Progress.allows_of_proper proper) (by simp [Progress.awaited])
      rw [if_neg last]
      exact congrArg (before ++ ·) none.symm

theorem Climbs.threw {frame : Frame} {s : Stream σ} {what : String}
    (climbs : Climbs o e top side i streams level c (s, .done (.threw what))
      (frame :: outer) before total start g) :
    Climbed o e top side i
      (Function.update streams level s, .free (some (.threw what))) before total start g where
  sound := climbs.sound
  apart := climbs.apart
  streams := climbs.streams
  shown := .inl rfl
  given := climbs.given
  pairs k inside := by
    have pair := climbs.pairs k inside
    by_cases here : k = level
    · subst here
      rw [if_pos rfl] at pair
      exact pair.take_threw climbs.slot
    · rwa [if_neg here] at pair
  delivered := by
    have inside : level ≠ top := Nat.ne_of_lt climbs.rooted.1
    rw [climbs.delivered, if_neg inside]
    rfl

theorem Climbs.next (contract : o.ErrorContract) {frame : Frame} {r r' : Stream σ × Progress}
    {input : Input}
    (climbs : Climbs o e top side i streams level c r (frame :: outer) before total start g)
    (takes : g.Takes (o := o) side i (level + 1) input
      ((g.machine side (level + 1)).settle i frame.call r') g')
    (sound : g'.Sound o e) (closed : ((g.machine side level).slots i).closed = true)
    (silent : input.gives = [])
    (answered : Pair (e.w side) none (g.given side level) (g.machine side level)
      (g'.machine side (level + 1))) :
    Climbs o e top side i (Function.update streams level r.1) (level + 1) frame.call r'
      outer before total start g' := by
  obtain ⟨level', call, p⟩ := frame
  obtain ⟨rfl, waiting, above⟩ := climbs.above
  obtain ⟨-, rooted⟩ := climbs.rooted
  have inside : level ≠ top := Nat.ne_of_lt climbs.rooted.1
  rw [← climbs.streams]
  refine takes.climbs contract sound climbs.apart ?_ above (linked_iff.mp climbs.under.2).2 rooted
    ?_ ?_ (fun _ => silent) (fun _ => .inl ⟨?_, silent⟩) ?_ ?_
  · intro k lower
    obtain rfl | lower := Nat.lt_succ_iff_lt_or_eq.mp lower |>.symm
    · exact closed
    · exact climbs.below k lower
  · intro k inside other
    by_cases here : k = level
    · exact here ▸ answered
    · have pair := climbs.pairs k inside
      rw [if_neg here] at pair
      rwa [takes.machine_ne (by omega)]
  · intro inside
    have pair := climbs.pairs (level + 1) inside
    rwa [if_neg (Nat.succ_ne_self level)] at pair
  · dsimp only at waiting
    rw [waiting]
    rfl
  · rw [climbs.delivered, if_neg inside, List.append_nil]
  · rw [← climbs.given]
    by_cases here : level + 1 = top
    · rw [← here, takes.given_same, silent, List.append_nil]
    · exact takes.given_ne (Ne.symm here)

theorem Climbs.answers (contract : o.ErrorContract) {s : Stream σ} {out : Outcome}
    (climbs : Climbs o e top side i streams level c (s, .done out) outer before total start g) :
    c.Answers out := by
  have measured := ((climbs.sound level).tidy contract side).measured i
  rwa [show ((g.links level).ends side).1.slots i = _ from climbs.slot] at measured

section Answers

variable (contract : o.ErrorContract) {frame : Frame} {s : Stream σ}

include contract

theorem Climbs.received (faithful : ∀ level, Peers.Faithful o e.roles (e.ssl level))
    (others : ∀ k, k < top → Pair (e.w side.other) none (start.given side.other k)
      (start.machine side.other k) (start.machine side.other (k + 1)))
    {n : Int} {buf : Bytes} {len : Nat} {flag : Int} (request : frame.p.request = .recv len flag)
    (climbs : Climbs o e top side i streams level c (s, .done (.received n buf))
      (frame :: outer) before total start g) :
    ∃ g', Climbs o e top side i (Function.update streams level s) frame.level frame.call
      (frame.resume o (Function.update streams level s frame.level) (.received n buf)) outer before total
      start g' := by
  obtain ⟨level', call, p⟩ := frame
  obtain ⟨rfl, waiting, -⟩ := climbs.above
  obtain ⟨inside, -⟩ := climbs.rooted
  obtain rfl : c = .recv len flag := climbs.under.1.trans (congrArg RawRequest.call request)
  obtain ⟨counted, fits⟩ : (Call.recv len flag).Answers (.received n buf) := climbs.answers contract
  have whole : buf.take n.toNat = buf := List.take_of_length_le (Nat.le_of_eq counted)
  have pair := climbs.pairs level inside
  rw [if_pos rfl] at pair
  have next : (g.machine side (level + 1)).stream.received ++ buf <+:
      ((g.links (level + 1)).ends side.other).offered := by
    have got : (g.machine side (level + 1)).stream.received ++ buf =
        (g.machine side level).delivered := by
      rw [pair.received]
      simp [Progress.awaited, climbs.slot, Progress.pc, Pc.delivers, Outcome.delivers, whole]
    have level := climbs.sound level
    rw [got, ((climbs.sound _).offered_eq contract side.other).1]
    exact (Link.reached_delivered contract (faithful _) level.reached level.allowed level.sole
      side).trans (climbs.apart.pair (others _ inside)).given_offered
  obtain ⟨g', sound, takes⟩ :=
    Ledger.takes_received contract climbs.sound waiting request counted fits next
  refine ⟨g', ?_⟩
  have stream : Function.update streams level s (level + 1) =
      (g.machine side (level + 1)).stream := congrFun climbs.streams.symm (level + 1)
  have resumed : Frame.resume o ⟨level + 1, call, p⟩ (g.machine side (level + 1)).stream
      (.received n buf) =
        ((g.machine side (level + 1)).stream.obtain buf).resumeReceived o n buf p := by
    simp only [Frame.resume, request, whole]
  rw [stream, resumed]
  refine climbs.next contract takes sound (by rw [climbs.slot]; rfl) rfl ?_
  have carries := Ledger.carries contract climbs.sound takes.taken ⟨trivial, trivial⟩
  rw [takes.machine]
  refine pair.take_received climbs.slot ?_ takes.taken carries (by rw [whole]; rfl) rfl
  rw [show (g.machine side (level + 1)).slots i = _ from waiting]
  cases p <;> first | rfl | simp [Suspended.request] at request

theorem Climbs.sent {n : Int} {offered : Bytes} {flag : Int}
    (request : frame.p.request = .send offered flag)
    (climbs : Climbs o e top side i streams level c (s, .done (.sent n))
      (frame :: outer) before total start g) :
    ∃ g', Climbs o e top side i (Function.update streams level s) frame.level frame.call
      (frame.resume o (Function.update streams level s frame.level) (.sent n)) outer before total
      start g' := by
  obtain ⟨level', call, p⟩ := frame
  obtain ⟨rfl, waiting, -⟩ := climbs.above
  obtain ⟨inside, -⟩ := climbs.rooted
  obtain rfl : c = .send offered flag := climbs.under.1.trans (congrArg RawRequest.call request)
  have counted : n = toInt32 offered.length := climbs.answers contract
  obtain ⟨rfl, some⟩ := Ledger.sender_of_send contract climbs.sound waiting request
  have measured := ((climbs.sound (level + 1)).tidy contract side).measured (e.w side)
  rw [show ((g.links (level + 1)).ends side).1.slots (e.w side) = _ from waiting] at measured
  rw [toInt32_of_lt (measured.short request)] at counted
  have positive : 0 < offered.length := List.length_pos_iff.mpr some
  have pair := climbs.pairs level inside
  rw [if_pos rfl] at pair
  obtain ⟨g', sound, takes⟩ := Ledger.takes_sent (r := n) contract climbs.sound waiting request
    (Int.le_of_eq counted) (by omega)
  refine ⟨g', ?_⟩
  have stream : Function.update streams level s (level + 1) =
      (g.machine side (level + 1)).stream := congrFun climbs.streams.symm (level + 1)
  have resumed : Frame.resume o ⟨level + 1, call, p⟩ (g.machine side (level + 1)).stream
      (.sent n) = ((g.machine side (level + 1)).stream.accept offered n).resumeSent o n p := by
    simp only [Frame.resume, request]
  rw [stream, resumed]
  refine climbs.next contract takes sound (by rw [climbs.slot]; rfl) rfl ?_
  have carries := Ledger.carries contract climbs.sound takes.taken
    ⟨show (0 : Int) < n by omega, trivial⟩
  have carried : p.loaded = offered := Suspended.request_loaded request
  rw [takes.machine]
  refine pair.take_sent climbs.slot carries rfl ?_
  rw [show (g.machine side (level + 1)).slots (e.w side) = _ from waiting]
  change p.loaded.take n.toNat = p.loaded
  rw [carried, counted]
  exact List.take_of_length_le (Nat.le_of_eq (Int.toNat_natCast _).symm)

theorem Climbs.ascends (faithful : ∀ level, Peers.Faithful o e.roles (e.ssl level))
    (others : ∀ k, k < top → Pair (e.w side.other) none (start.given side.other k)
      (start.machine side.other k) (start.machine side.other (k + 1)))
    {r : Stream σ × Progress}
    (climbs : Climbs o e top side i streams level c r outer before total start g) :
    ∃ g', Climbed o e top side i (ascend o outer streams level c r) before total start g' := by
  obtain ⟨s, progress⟩ := r
  induction outer generalizing streams level c s progress g with
  | nil =>
    cases progress with
    | suspended p => exact ⟨g, climbs.suspended contract⟩
    | done out => exact ⟨g, climbs.ended contract⟩
  | cons frame outer ih =>
    cases progress with
    | suspended p => exact ⟨g, climbs.suspended contract⟩
    | done out =>
      have proper := ((climbs.sound level).sound contract).ends side |>.kept.proper i
      rw [show ((g.links level).ends side).1.slots i = _ from climbs.slot] at proper
      have ends : c.Ends out := proper
      have called : c = frame.p.request.call := climbs.under.1
      cases request : frame.p.request with
      | recv len flag =>
        rw [request] at called
        subst called
        cases out with
        | handshake | sent | threw => exact absurd ends id
        | received n buf =>
          obtain ⟨g', climbs⟩ := climbs.received contract faithful others request
          exact ih _ _ climbs
      | send offered flag =>
        rw [request] at called
        subst called
        cases out with
        | handshake | received => exact absurd ends id
        | sent n =>
          obtain ⟨g', climbs⟩ := climbs.sent contract request
          exact ih _ _ climbs
        | threw what =>
          rw [ascend_threw]
          exact ⟨g, climbs.threw⟩

end Answers

end Climb

structure Tracks (o : Lib σ) (e : Setting ι σ) (top : Nat)
    (inputs : List (Side × ι × TowerInput)) (d : Towers ι σ) (g : Ledger ι σ) :
    Prop where
  sound : g.Sound o e
  streams : ∀ side, (fun k => (g.machine side k).stream) = (d side).1.streams
  shown : ∀ side i, ((d side).1.chains i).Shown top fun k => (g.machine side k).slots i
  pairs : ∀ side k, k < top →
    Pair (e.w side) none (g.given side k) (g.machine side k) (g.machine side (k + 1))
  delivered : ∀ side, (g.machine side top).delivered = (d side).2
  given : ∀ side, g.given side top = Towers.given (Duplex.inputsOf side inputs)

theorem Chain.Shown.offered {top : Nat} {slot : Nat → Pc} {chain : Chain}
    (shown : chain.Shown top slot) : chain.offered <+: (slot 0).loaded := by
  cases chain with
  | free last => exact List.nil_prefix
  | running frame outer =>
    obtain ⟨level, call, p⟩ := frame
    cases level with
    | zero =>
      rw [show slot 0 = .suspended call p from shown.1]
      exact List.prefix_rfl
    | succ level => exact List.nil_prefix

namespace Tracks

variable {e : Setting ι σ} {top : Nat}
  {inputs : List (Side × ι × TowerInput)} {d : Towers ι σ} {g : Ledger ι σ}

theorem start : Tracks o e top [] (Towers.fresh e.ssl : Towers ι σ)
    { inputs := fun _ => [], links := fun level => .fresh (e.ssl level) } where
  sound _ := .start
  streams _ := rfl
  shown _ _ := .inr fun _ => rfl
  pairs _ _ _ := ⟨rfl, by simp [Ledger.given, Duplex.inputsOf, Ledger.machine]; rfl⟩
  delivered _ := rfl
  given _ := rfl

variable (contract : o.ErrorContract) {side : Side} {i : ι}
  (tracks : Tracks o e top inputs d g)

include tracks

theorem put {input : TowerInput} {r : (Nat → Stream σ) × Chain} {g' : Ledger ι σ}
    (climbed : Climbed o e top side i r (d side).2
      (Towers.given (Duplex.inputsOf side inputs) ++ input.gives) g g') :
    Tracks o e top (inputs ++ [(side, i, input)])
      (Function.update d side ((d side).1.put i r,
        (d side).2 ++ (((d side).1.put i r).chains i).delivers)) g' := by
  have own : Duplex.inputsOf side (inputs ++ [(side, i, input)]) =
      Duplex.inputsOf side inputs ++ [(i, input)] := by simp [Duplex.inputsOf]
  have theirs : Duplex.inputsOf side.other (inputs ++ [(side, i, input)]) =
      Duplex.inputsOf side.other inputs := by simp [Duplex.inputsOf]
  have kept : ∀ k, g'.machine side.other k = g.machine side.other k := fun k => by
    rw [Ledger.machine, climbed.apart.other, Ledger.machine]
  refine ⟨climbed.sound, fun s => ?_, fun s j => ?_, fun s k inside => ?_, fun s => ?_, fun s => ?_⟩
  all_goals
    by_cases same : s = side
  · subst same
    simpa [Tower.put] using climbed.streams
  · obtain rfl := Side.eq_other same
    simpa [kept] using tracks.streams side.other
  · subst same
    simp only [Function.update_self]
    by_cases mine : j = i
    · subst mine
      simpa [Tower.put] using climbed.shown
    · simpa [Tower.put, mine, climbed.apart.slots _ _ mine] using tracks.shown s j
  · obtain rfl := Side.eq_other same
    simpa [kept] using tracks.shown side.other j
  · subst same
    exact climbed.pairs k inside
  · obtain rfl := Side.eq_other same
    exact climbed.apart.pair (tracks.pairs side.other k inside)
  · subst same
    simpa [Tower.put] using climbed.delivered
  · obtain rfl := Side.eq_other same
    simpa [kept] using tracks.delivered side.other
  · subst same
    rw [climbed.given, own, Towers.given, Towers.given, List.flatMap_append, List.flatMap_singleton]
  · obtain rfl := Side.eq_other same
    rw [climbed.apart.given, tracks.given, theirs]

include contract

theorem begins {level : Nat} {c : Call} (plays : c.Plays (e.roles side)) (makes : e.made side i c)
    (below : ∀ k, k ≤ level → ((g.machine side k).slots i).closed = true)
    (outer : List Frame) (above : Above (fun k => (g.machine side k).slots i) level outer)
    (under : c.Under outer) (rooted : Rooted top level c outer)
    (loads : outer ≠ [] →
      (Input.call c).gives = ((g.machine side (level + 1)).slots i).loaded) :
    ∃ g', Climbs o e top side i (d side).1.streams level c
      (((d side).1.streams level).start o c) outer (d side).2
      (Towers.given (Duplex.inputsOf side inputs) ++
        if level = top then (Input.call c).gives else []) g g' := by
  have closed := below level (Nat.le_refl _)
  obtain ⟨g', sound, takes⟩ := Ledger.takes_call contract tracks.sound plays makes closed
  have stream : (g.machine side level).stream = (d side).1.streams level :=
    congrFun (tracks.streams side) level
  rw [← stream, ← tracks.streams]
  refine ⟨g', takes.climbs contract sound (.refl side i g)
    (fun k lower => below k (Nat.le_of_lt lower)) above under rooted ?_
    (tracks.pairs side level) ?_ (fun some => .inr ⟨closed, loads some⟩) (tracks.delivered side) ?_⟩
  · intro k inside other
    by_cases next : k + 1 = level
    · subst next
      have own : (Input.call c).Plays (e.roles side) := by
        cases c <;> exact plays
      have carries := Ledger.carries contract tracks.sound takes.taken ⟨trivial, own⟩
      rw [takes.machine]
      exact (tracks.pairs side k inside).upper_call (below k (Nat.le_succ k)) takes.taken carries
    · rw [takes.machine_ne next]
      exact tracks.pairs side k inside
  · rintro (other | ⟨rfl, inside⟩)
    · cases c with
      | handshake | recv => rfl
      | send => exact absurd (e.sender side i _ makes rfl) other
    · obtain rfl | ⟨-, sends, -⟩ := rooted
      · exact absurd inside (Nat.lt_irrefl _)
      · cases c <;> first | rfl | cases sends
  · rw [← tracks.given]
    by_cases here : level = top
    · subst here
      rw [if_pos rfl, takes.given_same]
    · rw [if_neg here, takes.given_ne (Ne.symm here), List.append_nil]

theorem resumes {call : Call} {p : Suspended} {outer : List Frame} {input : Input}
    {r : Stream σ × Progress} {g' : Ledger ι σ}
    (running : (d side).1.chains i = .running ⟨0, call, p⟩ outer)
    (takes : g.Takes (o := o) side i 0 input ((g.machine side 0).settle i call r) g')
    (sound : g'.Sound o e) (silent : input.gives = []) :
    Climbs o e top side i (d side).1.streams 0 call r outer (d side).2
      (Towers.given (Duplex.inputsOf side inputs)) g g' := by
  have shown := tracks.shown side i
  rw [running] at shown
  obtain ⟨waiting, -, above, linked, rooted⟩ := shown
  rw [← tracks.streams]
  refine takes.climbs contract sound (.refl side i g) (fun k lower => absurd lower k.not_lt_zero)
    above (linked_iff.mp linked).2 rooted ?_ (tracks.pairs side 0) (fun _ => silent)
    (fun _ => .inl ⟨?_, silent⟩) (tracks.delivered side) ?_
  · intro k inside other
    rw [takes.machine_ne (Nat.succ_ne_zero k)]
    exact tracks.pairs side k inside
  · rw [show (g.machine side 0).slots i = _ from waiting]
    rfl
  · rw [← tracks.given]
    by_cases here : 0 = top
    · rw [← here, takes.given_same, silent, List.append_nil]
    · exact takes.given_ne (Ne.symm here)

-- The raw streams of the towers are those of the lowest streams of the ledger.
theorem offers (side : Side) :
    d.offered e.w side <+: ((g.links 0).ends side).offered := by
  have lowest : ((g.links 0).ends side).1.stream = (d side).1.streams 0 :=
    congrFun (tracks.streams side) 0
  rw [((tracks.sound 0).offered_eq contract side).1, lowest, Towers.offered,
    List.prefix_append_right_inj]
  exact (tracks.shown side (e.w side)).offered

section Steps

variable (faithful : ∀ level, Peers.Faithful o e.roles (e.ssl level)) {t : Tower ι σ}

include faithful

theorem calls {level : Nat} {c : Call} (allowed : d.Allows e.roles e.w top (side, i, .call level c))
    (makes : e.made side i c)
    (moved : (d side).1.step o (i, .call level c) = some t) :
    ∃ r g', t = (d side).1.put i r ∧ Climbed o e top side i r (d side).2
      (Towers.given (Duplex.inputsOf side inputs) ++ (TowerInput.call level c).gives) g g' := by
  obtain ⟨here, plays, -, continues⟩ := allowed
  have shown := tracks.shown side i
  simp only [Tower.step] at moved
  split at moved
  next last free =>
    obtain rfl := Option.some.inj moved
    rw [free] at shown continues
    have closed := shown.resolve_left (by simp [continues])
    obtain ⟨g', climbs⟩ := tracks.begins contract plays makes (fun k _ => closed k) []
      (fun k _ => closed k) trivial here (absurd rfl)
    have gives : (if level = top then (Input.call c).gives else []) =
        (TowerInput.call level c).gives := by
      obtain same | ⟨-, sends, -⟩ := here
      · rw [if_pos same]
        cases c <;> rfl
      · cases c <;> first | exact ite_self _ | cases sends
    rw [gives] at climbs
    obtain ⟨g', climbed⟩ := climbs.ascends contract faithful (tracks.pairs side.other)
    exact ⟨_, g', rfl, climbed⟩
  next => cases moved

theorem descends (moved : (d side).1.step o (i, .descend) = some t) :
    ∃ r g', t = (d side).1.put i r ∧ Climbed o e top side i r (d side).2
      (Towers.given (Duplex.inputsOf side inputs) ++ TowerInput.descend.gives) g g' := by
  have shown := tracks.shown side i
  simp only [Tower.step] at moved
  split at moved
  next level call p outer running =>
    obtain rfl := Option.some.inj moved
    rw [running] at shown
    obtain ⟨waiting, below, above, linked, rooted⟩ := shown
    have inside : level < top := rooted.le
    have made : e.made side i call := ((tracks.sound (level + 1)).tidy contract side).callers i call
      (by rw [show ((g.links (level + 1)).ends side).1.slots i = _ from waiting]; rfl)
    have makes := e.passed side i call p (linked_iff.mp linked).1 made
    have own : p.request.call.Plays (e.roles side) ∧
        (Input.call p.request.call).gives = p.loaded := by
      cases request : p.request with
      | send offered flag => exact ⟨trivial, (Suspended.request_loaded request).symm⟩
      | recv len flag =>
        refine ⟨trivial, ?_⟩
        cases p <;> first | rfl | simp [Suspended.request] at request
    obtain ⟨plays, loads⟩ := own
    obtain ⟨g', climbs⟩ := tracks.begins contract plays makes
      (fun k lower => below k (Nat.lt_succ_of_le lower)) (⟨level + 1, call, p⟩ :: outer)
      ⟨rfl, waiting, above⟩ ⟨rfl, linked⟩ ⟨inside, rooted⟩ (fun _ => by
        dsimp only at waiting
        rw [waiting, loads]
        rfl)
    rw [if_neg (Nat.ne_of_lt inside)] at climbs
    obtain ⟨g', climbed⟩ := climbs.ascends contract faithful (tracks.pairs side.other)
    exact ⟨_, g', rfl, climbed⟩
  next => cases moved

theorem sends {r : Int} (accepts : 0 < r) (moved : (d side).1.step o (i, .sent r) = some t) :
    ∃ result g', t = (d side).1.put i result ∧ Climbed o e top side i result (d side).2
      (Towers.given (Duplex.inputsOf side inputs) ++ (TowerInput.sent r).gives) g g' := by
  have shown := tracks.shown side i
  simp only [Tower.step] at moved
  split at moved
  next call p outer running =>
    rw [running] at shown
    obtain ⟨waiting, -⟩ := shown
    split at moved
    next offered flag request =>
      split_ifs at moved with fits
      obtain rfl := Option.some.inj moved
      obtain ⟨g', sound, takes⟩ :=
        Ledger.takes_sent contract tracks.sound waiting request fits accepts
      have climbs := tracks.resumes contract running takes sound rfl
      have resumed : Frame.resume o ⟨0, call, p⟩ ((d side).1.streams 0) (.sent r) =
          ((g.machine side 0).stream.accept offered r).resumeSent o r p := by
        rw [← tracks.streams]
        simp only [Frame.resume, request]
      rw [← resumed] at climbs
      obtain ⟨g', climbed⟩ := climbs.ascends contract faithful (tracks.pairs side.other)
      rw [show (TowerInput.sent r).gives = [] from rfl, List.append_nil]
      exact ⟨_, g', rfl, climbed⟩
    next => cases moved
  next => cases moved

theorem receives {r : Int} {bytes : Bytes}
    (next : ((d side).1.streams 0).received ++ bytes <+: d.offered e.w side.other)
    (moved : (d side).1.step o (i, .received r bytes) = some t) :
    ∃ result g', t = (d side).1.put i result ∧ Climbed o e top side i result (d side).2
      (Towers.given (Duplex.inputsOf side inputs) ++ (TowerInput.received r bytes).gives) g g' := by
  have shown := tracks.shown side i
  simp only [Tower.step] at moved
  split at moved
  next call p outer running =>
    rw [running] at shown
    obtain ⟨waiting, -⟩ := shown
    split at moved
    next len flag request =>
      split_ifs at moved with fits
      obtain rfl := Option.some.inj moved
      have whole : bytes.take r.toNat = bytes := List.take_of_length_le (Nat.le_of_eq fits.1)
      rw [← tracks.streams] at next
      obtain ⟨g', sound, takes⟩ := Ledger.takes_received contract tracks.sound waiting request
        fits.1 fits.2 (next.trans (tracks.offers contract side.other))
      have climbs := tracks.resumes contract running takes sound rfl
      have resumed : Frame.resume o ⟨0, call, p⟩ ((d side).1.streams 0) (.received r bytes) =
          ((g.machine side 0).stream.obtain bytes).resumeReceived o r bytes p := by
        rw [← tracks.streams]
        simp only [Frame.resume, request, whole]
      rw [← resumed] at climbs
      obtain ⟨g', climbed⟩ := climbs.ascends contract faithful (tracks.pairs side.other)
      rw [show (TowerInput.received r bytes).gives = [] from rfl, List.append_nil]
      exact ⟨_, g', rfl, climbed⟩
    next => cases moved
  next => cases moved

theorem step {input : Side × ι × TowerInput} {d' : Towers ι σ}
    (allowed : d.Allows e.roles e.w top input) (makes : Towers.Makes e.made input)
    (taken : d.step o e.w input = some d') : ∃ g', Tracks o e top (inputs ++ [input]) d' g' := by
  obtain ⟨side, i, input⟩ := input
  unfold Towers.step at taken
  split_ifs at taken with next
  obtain ⟨t, moved, rfl⟩ := Option.map_eq_some_iff.mp taken
  obtain ⟨r, g', rfl, climbed⟩ : ∃ r g', t = (d side).1.put i r ∧
      Climbed o e top side i r (d side).2
        (Towers.given (Duplex.inputsOf side inputs) ++ input.gives) g g' := by
    cases input with
    | call level c => exact tracks.calls contract faithful allowed makes moved
    | descend => exact tracks.descends contract faithful moved
    | sent r => exact tracks.sends contract faithful allowed moved
    | received r bytes => exact tracks.receives contract faithful next moved
  exact ⟨g', tracks.put climbed⟩

end Steps

end Tracks

theorem Towers.reached_tracks (contract : o.ErrorContract) {e : Setting ι σ}
    (faithful : ∀ level, Peers.Faithful o e.roles (e.ssl level)) {top : Nat}
    {inputs : List (Side × ι × TowerInput)} {d : Towers ι σ}
    (reached : run (step o e.w) (fresh e.ssl) inputs = some d)
    (allowed : Always (step o e.w) (Allows e.roles e.w top) (fresh e.ssl) inputs)
    (makes : Always (step o e.w) (fun _ input => Makes e.made input) (fresh e.ssl) inputs) :
    ∃ g, Tracks o e top inputs d g := by
  have preserved (before : List (Side × ι × TowerInput)) (d : Towers ι σ)
      (input : Side × ι × TowerInput) (d' : Towers ι σ) (tracked : ∃ g, Tracks o e top before d g)
      (ok : d.Allows e.roles e.w top input ∧ Makes e.made input)
      (taken : d.step o e.w input = some d') :
      ∃ g', Tracks o e top (before ++ [input]) d' g' := by
    obtain ⟨g, tracks⟩ := tracked
    exact tracks.step contract faithful ok.1 ok.2 taken
  have tracked : ∃ g, Tracks o e top ([] ++ inputs) d g :=
    run_history preserved reached (allowed.and makes) ⟨_, Tracks.start⟩
  rwa [List.nil_append] at tracked

theorem RawRequest.call_receives {c : Call} {p : Suspended} (suspends : c.Suspends p)
    (sends : p.request.call.receives = false) : c.receives = false := by
  cases p with
  | handshakeRecv | recvRaw => cases sends
  | handshakeSend type => exact Call.suspends_handshakeSend.mp suspends ▸ rfl
  | sendRaw buf flag => exact Call.suspends_sendRaw.mp suspends ▸ rfl

def Setting.single (roles : Side → HandshakeType → Prop) (ssl : Nat → Side → σ) (w : Side → ι) :
    Setting ι σ where
  roles := roles
  ssl := ssl
  w := w
  made side i c := c.receives = false → i = w side
  sender _ _ _ made := made
  passed _ _ _ _ suspends made sends := made (RawRequest.call_receives suspends sends)

/--
Two towers of `ssl_stream`s, each stream the raw stream of the one above it, are connected at the
bottom, with any number of coroutines on each. If two engines that get each other's output directly
decrypt what the other encrypts, then the callers of `recv` on the top stream of one have at every
moment got a prefix of what the callers of `send` have given to the top stream of the other.
-/
theorem delivered_over_streams (contract : o.ErrorContract) (roles : Side → HandshakeType → Prop)
    (ssl : Nat → Side → σ) (faithful : ∀ level, Peers.Faithful o roles (ssl level)) (w : Side → ι)
    (top : Nat) (inputs : List (Side × ι × TowerInput)) (d : Towers ι σ)
    (reached : run (Towers.step o w) (Towers.fresh ssl) inputs = some d)
    (allowed : Always (Towers.step o w) (Towers.Allows roles w top) (Towers.fresh ssl) inputs)
    (side : Side) : (d side).2 <+: Towers.given (Duplex.inputsOf side.other inputs) := by
  have makes (d : Towers ι σ) (input : Side × ι × TowerInput)
      (allowed : d.Allows roles w top input) :
      Towers.Makes (Setting.single roles ssl w).made input := by
    obtain ⟨side, i, input⟩ := input
    cases input with
    | call level c => exact allowed.2.2.1
    | descend | sent | received => trivial
  have faithful : ∀ level, Peers.Faithful o (Setting.single roles ssl w).roles
      ((Setting.single roles ssl w).ssl level) := faithful
  obtain ⟨g, tracks⟩ := Towers.reached_tracks contract faithful reached allowed (allowed.mono makes)
  have level := tracks.sound top
  rw [← tracks.delivered, ← tracks.given]
  exact Link.reached_delivered contract (faithful _) level.reached level.allowed level.sole side

-- A record in a record: the upper one arrives in two parts.
def sendOver : List (Side × Bool × TowerInput) :=
  [(.left, true, .call 1 (.send [7] 0)), (.right, false, .call 1 (.recv 4 0)),
    (.left, true, .descend), (.right, false, .descend), (.right, false, .received 2 [0, 0]),
    (.left, true, .sent 3), (.left, true, .sent 1), (.right, false, .call 1 (.recv 4 0)),
    (.right, false, .descend), (.right, false, .received 2 [0, 7])]

theorem delivered_over_streams_records :
    ∃ d : Towers Bool RecordState,
      run (Towers.step Lib.records fun _ => true) (Towers.fresh fun _ _ => .established)
        sendOver = some d ∧ (d .right).2 = [7] ∧
      (d .right).2 <+: Towers.given (Duplex.inputsOf .left sendOver) := by
  have ended : (run (Towers.step Lib.records fun _ => true)
      (Towers.fresh fun _ _ => .established : Towers Bool RecordState) sendOver).map
        (fun d => (d .right).2) = some [7] := by decide +kernel
  obtain ⟨d, reached, delivered⟩ := Option.map_eq_some_iff.mp ended
  exact ⟨d, reached, delivered, delivered_over_streams Lib.records_contract (fun _ _ => True)
    (fun _ _ => .established) (fun _ => Lib.records_faithful _) (fun _ => true) 1 sendOver d reached
    (by decide +kernel) .right⟩

end KkProxy.Ssl
