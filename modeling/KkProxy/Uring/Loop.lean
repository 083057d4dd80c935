import KkProxy.Shared.Runs
import Mathlib.Logic.Function.Basic

set_option autoImplicit false

namespace KkProxy.Uring

open Runs

inductive UserData where
  | null
  | completed
  | awaiter (id : Nat)
deriving DecidableEq, Repr

structure Cqe where
  data : UserData
  res : Int
deriving DecidableEq, Repr

-- `-ETIME`.
def timedOut : Int := -62

inductive Activation where
  | looping
  -- In a coroutine that it has resumed; `seen` says if `io_uring_cqe_seen` follows.
  | resumed (seen : Bool)
deriving DecidableEq, Repr

structure Loop where
  -- All completions so far, by their numbers.
  cq : List Cqe
  head : Nat
  running : Bool
  -- The innermost first.
  runs : List Activation
  results : Nat → Int
  -- The completions that resumed a coroutine or were taken as the sentinel.
  dispatched : List Nat
  fault : Bool

inductive Action where
  | post (cqe : Cqe)
  | run
  -- `io_uring_wait_cqe` returns `res`, with the completion at the head of the queue or with none.
  | wait (res : Int) (found : Bool)
  -- The coroutine that was resumed last gives control back.
  | back
  | leave
deriving DecidableEq, Repr

namespace Loop

def init : Loop :=
  { cq := [], head := 0, running := false, runs := [], results := fun _ => 0, dispatched := [],
    fault := false }

-- `io_uring_cqe_seen`, unless the loop has gone on without it.
def advance (s : Loop) (seen : Bool) : Loop :=
  if seen then { s with head := s.head + 1 } else s

def dispatch (s : Loop) : Loop := { s with dispatched := s.dispatched ++ [s.head] }

def transfer (s : Loop) (rest : List Activation) (id : Nat) (result : Int) (seen : Bool) : Loop :=
  { s.dispatch with
    results := Function.update s.results id result
    runs := .resumed seen :: rest }

def resume (s : Loop) (rest : List Activation) (cqe : Cqe) (seen : Bool) : Loop :=
  match cqe.data with
  | .null => s.advance seen
  | .completed => { s.dispatch with running := false }.advance seen
  | .awaiter id => s.transfer rest id cqe.res seen

def resumeError (s : Loop) (rest : List Activation) (code : Int) (cqe : Cqe) : Loop :=
  match cqe.data with
  | .null => s
  | .completed => { s with fault := true }
  | .awaiter id => s.transfer rest id code false

def answer (s : Loop) (rest : List Activation) (res : Int) (cqe : Cqe) : Loop :=
  if res = 0 then s.resume rest cqe true
  else if res = timedOut then s.resume rest cqe false
  else s.resumeError rest res cqe

def act (s : Loop) (a : Action) : Option Loop :=
  match a, s.runs with
  | .post cqe, _ => some { s with cq := s.cq ++ [cqe] }
  | .run, [] => some { s with running := true, runs := [.looping] }
  -- The coroutine that has been resumed calls `run` again.
  | .run, .resumed seen :: rest =>
    some { s with running := true, runs := .looping :: .resumed seen :: rest }
  | .wait res true, .looping :: rest =>
    if s.running then (s.cq[s.head]?).map (s.answer rest res) else none
  -- `resume_error` returns at once.
  | .wait res false, .looping :: _ => if s.running ∧ res ≠ 0 then some s else none
  | .back, .resumed seen :: rest => some ({ s with runs := .looping :: rest }.advance seen)
  | .leave, .looping :: rest => if s.running then none else some { s with runs := rest }
  | _, _ => none

def step (s : Loop) (a : Action) : Option Loop := if s.fault then none else s.act a

def addressed (s : Loop) (i : Nat) : Bool := (s.cq[i]?).any fun cqe => cqe.data ≠ .null

def passed (s : Loop) : List Nat := (List.range s.head).filter s.addressed

def resuming (s : Loop) : List Activation := s.runs.filter (· ≠ .looping)

def current (s : Loop) : List Nat := if s.resuming = [] then [] else [s.head]

/-- The completions before the head have been dispatched once each, and the head while it is. -/
structure Exact (s : Loop) : Prop where
  sound : s.fault = false
  once : s.dispatched = s.passed ++ s.current

/-- A completion with an addressee comes with 0, and no other is being dispatched. -/
def Proper (s : Loop) : Action → Prop
  | .wait res true => s.addressed s.head = true → res = 0 ∧ ∀ run ∈ s.runs, run = .looping
  | _ => True

instance (s : Loop) : DecidablePred s.Proper
  | .wait res true => inferInstanceAs (Decidable
      (s.addressed s.head = true → res = 0 ∧ ∀ run ∈ s.runs, run = .looping))
  | .wait _ false | .post _ | .run | .back | .leave => .isTrue trivial

structure Sound (s : Loop) : Prop where
  exact : s.Exact
  bound : s.head ≤ s.cq.length
  seen : ∀ seen, .resumed seen ∈ s.runs → seen = true ∧ s.addressed s.head = true
  single : s.resuming.length ≤ 1

theorem init_sound : init.Sound where
  exact := ⟨rfl, rfl⟩
  bound := Nat.le_refl _
  seen seen member := by simp [init] at member
  single := Nat.zero_le _

theorem resuming_looping {s : Loop} (idle : ∀ run ∈ s.runs, run = .looping) : s.resuming = [] := by
  simpa [resuming] using idle

theorem current_looping {s : Loop} (idle : ∀ run ∈ s.runs, run = .looping) : s.current = [] := by
  rw [current, if_pos (resuming_looping idle)]

theorem mem_resuming {s : Loop} {seen : Bool} :
    .resumed seen ∈ s.resuming ↔ .resumed seen ∈ s.runs := by
  simp [resuming]

theorem current_resumed {s : Loop} {seen : Bool} (member : .resumed seen ∈ s.runs) :
    s.current = [s.head] :=
  if_neg (List.ne_nil_of_mem (mem_resuming.mpr member))

theorem passed_advance {s t : Loop} (cq : t.cq = s.cq) (head : t.head = s.head + 1) :
    (s.passed ++ if s.addressed s.head then [s.head] else []) = t.passed := by
  have same : t.addressed = s.addressed := by
    funext i
    rw [addressed, addressed, cq]
  rw [passed, passed, head, same, List.range_succ, List.filter_append, List.filter_cons,
    List.filter_nil]

theorem addressed_bound {s : Loop} {i : Nat} (addressed : s.addressed i = true) :
    i < s.cq.length := by
  by_contra beyond
  simp [Loop.addressed, List.getElem?_eq_none (Nat.not_lt.mp beyond)] at addressed

theorem Sound.post {s : Loop} (sound : s.Sound) (cqe : Cqe) :
    ({ s with cq := s.cq ++ [cqe] } : Loop).Sound := by
  have older : ∀ i < s.cq.length,
      ({ s with cq := s.cq ++ [cqe] } : Loop).addressed i = s.addressed i := fun i bound => by
    simp [addressed, List.getElem?_append_left bound]
  have passed : ({ s with cq := s.cq ++ [cqe] } : Loop).passed = s.passed := by
    refine List.filter_congr fun i member => older i ?_
    exact Nat.lt_of_lt_of_le (List.mem_range.mp member) sound.bound
  refine ⟨⟨sound.exact.sound, ?_⟩, ?_, fun seen member => ?_, sound.single⟩
  · rw [passed]
    exact sound.exact.once
  · simpa using Nat.le_succ_of_le sound.bound
  · obtain ⟨marked, addressed⟩ := sound.seen seen member
    exact ⟨marked, (older _ (addressed_bound addressed)).trans addressed⟩

theorem Sound.of_idle {s : Loop} (sound : s.fault = false) (bound : s.head ≤ s.cq.length)
    (idle : ∀ run ∈ s.runs, run = .looping) (once : s.dispatched = s.passed) : s.Sound where
  exact := ⟨sound, by rw [once, current_looping idle, List.append_nil]⟩
  bound := bound
  seen seen member := by simpa using idle _ member
  single := by simp [resuming_looping idle]

theorem Sound.below {s : Loop} (sound : s.Sound) {seen : Bool} {rest : List Activation}
    (top : s.runs = .resumed seen :: rest) : ∀ run ∈ rest, run = .looping := by
  have single := sound.single
  rw [resuming, top, List.filter_cons_of_pos (by simp), List.length_cons] at single
  have none : (rest.filter (· ≠ .looping)).length = 0 := by omega
  simpa using List.length_eq_zero_iff.mp none

theorem Sound.back {s : Loop} (sound : s.Sound) {seen : Bool} {rest : List Activation}
    (top : s.runs = .resumed seen :: rest) :
    ({ s with runs := .looping :: rest }.advance seen).Sound := by
  have member : .resumed seen ∈ s.runs := by simp [top]
  obtain ⟨rfl, addressed⟩ := sound.seen seen member
  refine .of_idle sound.exact.sound (addressed_bound addressed) ?_ ?_
  · simpa [advance] using sound.below top
  · refine Eq.trans ?_ (passed_advance (s := s) rfl rfl)
    rw [if_pos addressed, ← current_resumed member]
    exact sound.exact.once

theorem Sound.idle {s : Loop} (sound : s.Sound) (unaddressed : s.addressed s.head = false) :
    ∀ run ∈ s.runs, run = .looping := by
  intro run member
  cases run with
  | looping => rfl
  | resumed seen => simp [(sound.seen seen member).2] at unaddressed

theorem Sound.skip {s : Loop} (sound : s.Sound) (more : s.head < s.cq.length)
    (unaddressed : s.addressed s.head = false) : (s.advance true).Sound := by
  have idle := sound.idle unaddressed
  refine .of_idle sound.exact.sound more idle ?_
  refine Eq.trans ?_ (passed_advance (s := s) rfl rfl)
  rw [unaddressed]
  exact sound.exact.once.trans (by simp [current_looping idle])

theorem Sound.stop {s : Loop} (sound : s.Sound) (addressed : s.addressed s.head = true)
    (idle : ∀ run ∈ s.runs, run = .looping) :
    ({ s.dispatch with running := false }.advance true).Sound := by
  refine .of_idle sound.exact.sound (addressed_bound addressed) idle ?_
  refine Eq.trans ?_ (passed_advance (s := s) rfl rfl)
  rw [if_pos addressed]
  exact congrArg (· ++ [s.head]) (sound.exact.once.trans (by simp [current_looping idle]))

theorem Sound.transfer {s : Loop} (sound : s.Sound) (addressed : s.addressed s.head = true)
    {rest : List Activation} (idle : ∀ run ∈ .looping :: rest, run = .looping)
    (top : s.runs = .looping :: rest) (id : Nat) (result : Int) :
    (s.transfer rest id result true).Sound where
  exact := by
    refine ⟨sound.exact.sound, ?_⟩
    have going : .resumed true ∈ (s.transfer rest id result true).runs := by simp [Loop.transfer]
    rw [current_resumed going]
    have before : s.dispatched = s.passed := by
      rw [sound.exact.once, current_looping (top ▸ idle), List.append_nil]
    exact congrArg (· ++ [s.head]) before
  bound := sound.bound
  seen seen member := by
    rcases List.mem_cons.mp member with same | below
    · exact ⟨by simpa using same, addressed⟩
    · simpa using idle _ (List.mem_cons_of_mem _ below)
  single := by
    have below : ∀ run ∈ rest, run = .looping := by simpa using idle
    simpa [resuming, Loop.transfer] using below

theorem Sound.answer {s : Loop} (sound : s.Sound) {rest : List Activation} {res : Int} {cqe : Cqe}
    (proper : s.Proper (.wait res true)) (top : s.runs = .looping :: rest)
    (found : s.cq[s.head]? = some cqe) : (s.answer rest res cqe).Sound := by
  have addressee : s.addressed s.head = decide (cqe.data ≠ .null) := by simp [addressed, found]
  cases target : cqe.data with
  | null =>
    have unaddressed : s.addressed s.head = false := by simp [addressee, target]
    have more := (List.getElem?_eq_some_iff.mp found).1
    simp only [Loop.answer, resume, resumeError, target]
    split_ifs
    · exact sound.skip more unaddressed
    · exact sound
    · exact sound
  | completed =>
    have addressed : s.addressed s.head = true := by simp [addressee, target]
    obtain ⟨rfl, idle⟩ := proper addressed
    simpa [Loop.answer, resume, target] using sound.stop addressed idle
  | awaiter id =>
    have addressed : s.addressed s.head = true := by simp [addressee, target]
    obtain ⟨rfl, idle⟩ := proper addressed
    simpa [Loop.answer, resume, target] using sound.transfer addressed (top ▸ idle) top id cqe.res

theorem Sound.of_resumed {s t : Loop} (sound : s.Sound) (cq : t.cq = s.cq) (head : t.head = s.head)
    (dispatched : t.dispatched = s.dispatched) (fault : t.fault = s.fault)
    (same : t.resuming = s.resuming) : t.Sound := by
  have addressed : t.addressed = s.addressed := by
    funext i
    rw [Loop.addressed, Loop.addressed, cq]
  have passed : t.passed = s.passed := by rw [Loop.passed, Loop.passed, head, addressed]
  have current : t.current = s.current := by rw [Loop.current, Loop.current, same, head]
  refine ⟨⟨fault.trans sound.exact.sound, ?_⟩, ?_, fun seen member => ?_, ?_⟩
  · rw [dispatched, passed, current]
    exact sound.exact.once
  · rw [head, cq]
    exact sound.bound
  · rw [addressed, head]
    exact sound.seen seen (mem_resuming.mp (same ▸ mem_resuming.mpr member))
  · rw [same]
    exact sound.single

theorem step_sound {s next : Loop} {a : Action} (sound : s.Sound) (proper : s.Proper a)
    (taken : s.step a = some next) : next.Sound := by
  have acted : s.act a = some next := by simpa [step, sound.exact.sound] using taken
  unfold act at acted
  split at acted
  · next cqe =>
    obtain rfl := Option.some.inj acted
    exact sound.post cqe
  · next entered =>
    obtain rfl := Option.some.inj acted
    exact sound.of_resumed rfl rfl rfl rfl (by simp [resuming, entered])
  · next seen rest top =>
    obtain rfl := Option.some.inj acted
    exact sound.of_resumed rfl rfl rfl rfl (by simp [resuming, top])
  · next res rest top =>
    split at acted
    · obtain ⟨cqe, found, rfl⟩ := Option.map_eq_some_iff.mp acted
      exact sound.answer proper top found
    · cases acted
  · split at acted
    · obtain rfl := Option.some.inj acted
      exact sound
    · cases acted
  · next seen rest top =>
    obtain rfl := Option.some.inj acted
    exact sound.back top
  · next rest top =>
    split at acted
    · cases acted
    · obtain rfl := Option.some.inj acted
      exact sound.of_resumed rfl rfl rfl rfl (by simp [resuming, top])
  · cases acted

/--
If each completion for a coroutine or the loop comes with 0 and while no other is being dispatched,
then each is dispatched exactly once, and the head advances past it.
-/
theorem dispatches_once {actions : List Action} (proper : Always step Proper init actions)
    {s : Loop} (visited : Visits step init actions s) : s.Exact :=
  (visits_invariant (fun _ _ _ sound proper taken => step_sound sound proper taken) visited proper
    init_sound).exact

end Loop

def orderly : List Action :=
  [.post { data := .awaiter 0, res := 5 }, .run, .wait 0 true, .back, .wait timedOut false,
    .post { data := .completed, res := 0 }, .wait 0 true, .leave]

theorem dispatches_once_orderly :
    ∃ s, run Loop.step .init orderly = some s ∧ s.head = 2 ∧ s.dispatched = [0, 1] := by
  have proper : Always Loop.step Loop.Proper .init orderly := by decide +kernel
  have ended : (run Loop.step .init orderly).map (fun s => (s.head, s.passed, s.current)) =
      some (2, [0, 1], []) := by decide +kernel
  obtain ⟨s, reached, view⟩ := Option.map_eq_some_iff.mp ended
  simp only [Prod.mk.injEq] at view
  obtain ⟨head, passed, current⟩ := view
  have exact := Loop.dispatches_once proper (visits_end reached)
  exact ⟨s, reached, head, by rw [exact.once, passed, current, List.append_nil]⟩

-- A wait that times out finds a completion all the same; the next one finds it again.
def lateTimeout : List Action :=
  [.post { data := .awaiter 0, res := 5 }, .run, .wait timedOut true, .back, .wait 0 true]

theorem timeout_dispatches_twice :
    ¬ ∀ (actions : List Action) (s : Loop), Visits Loop.step .init actions s → s.Exact := by
  intro claim
  have ended : (run Loop.step .init lateTimeout).map
      (fun s => (s.dispatched, s.passed, s.current)) = some ([0, 0], [], [0]) := by decide +kernel
  obtain ⟨s, reached, view⟩ := Option.map_eq_some_iff.mp ended
  simp only [Prod.mk.injEq] at view
  obtain ⟨dispatched, passed, current⟩ := view
  have once := (claim _ s (visits_end reached)).once
  simp [dispatched, passed, current] at once

end KkProxy.Uring
