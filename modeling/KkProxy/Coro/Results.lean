import KkProxy.Coro.Roots
import KkProxy.Coro.Waiters
import KkProxy.Shared.Procedures

set_option autoImplicit false

namespace KkProxy.Coro

open Runs Procedures

namespace State

variable {α : Type}

def top (s : State α) : Option Handle :=
  match s.stack with
  | .body who :: _ => who
  | _ => none

theorem top_stack {s : State α} {f : Handle} (top : s.top = some f) :
    ∃ rest, s.stack = .body (some f) :: rest := by
  unfold State.top at top
  split at top
  · next who rest stack => exact ⟨rest, by rw [stack, top]⟩
  · simp at top

theorem stack_top {s : State α} {f : Handle} {rest : List Activation}
    (stack : s.stack = .body (some f) :: rest) : s.top = some f := by
  simp [State.top, stack]

theorem await_top {s next : State α} {kind : AwaitKind} {t : TaskId}
    (taken : s.step (.await kind t) = some next) : ∃ f, s.top = some f := by
  unfold step at taken
  split at taken
  · cases taken
  · obtain ⟨result, acted, -⟩ := Option.map_eq_some_iff.mp taken
    unfold act at acted
    split at acted <;> simp_all [top]

-- In this phase `f` is in a `co_await` of a task or enters one by this step.
def inAwait (s : State α) (a : Action α) (f : Handle) : Phase → Bool
  | .awaiting _ => true
  | .running =>
    match a with
    | .await _ _ => decide (s.top = some f)
    | _ => false
  | _ => false

def Completes (s next : State α) (a : Action α) (f : Handle) : Prop :=
  (next.frames f).phase = .running ∧ next.fault = none ∧
    s.inAwait a f (s.frames f).phase = true

instance (s next : State α) (a : Action α) (f : Handle) : Decidable (Completes s next a f) :=
  inferInstanceAs (Decidable ((next.frames f).phase = .running ∧ next.fault = none ∧
    s.inAwait a f (s.frames f).phase = true))

theorem finish_final {s next : State α} {g : Handle} {rest : List Activation}
    {result : Option α} (top : s.stack = .body (some g) :: rest)
    (taken : s.step (.finish result) = some next) (clean : next.fault = none) :
    (next.frames g).phase = .final ∧ (next.frames g).result = result := by
  have same : ∀ f rest', s.stack = .body (some f) :: rest' → f = g := fun f rest' top' => by
    simpa [top] using (List.cons.inj (top'.symm.trans top)).1
  cases (step_effect taken).2 with
  | fault => simp at clean
  | start a who rest c daemon t g' below received top' alive holds starts => cases starts
  | finishCaller f rest' _ caller received top' called resumes =>
    obtain rfl := same f rest' top'
    have other : f ≠ caller := by
      rintro rfl
      exact resumes.suspended.2 (by simp [conclude_phase])
    exact ⟨by simp [run_phase, conclude_phase, other], by simp⟩
  | finishDaemon f rest' _ top' | finishDestroy f rest' _ top' =>
    obtain rfl := same f rest' top'
    exact ⟨by simp [conclude_phase], by simp⟩

theorem step_awaiting {s next : State α} {a : Action α} (taken : s.step a = some next)
    {f g : Handle} (waits : (next.frames f).phase = .awaiting g) :
    (s.frames f).phase = .awaiting g ∨
      ∃ kind t, s.top = some f ∧ a = .await kind t ∧ (s.tasks t).handle = some g := by
  cases (step_effect taken).2 with
  | start | finishCaller | complete =>
    simp only [run_phase, conclude_phase] at waits
    split_ifs at waits
    exact .inl (by simpa using waits)
  | awaitDaemon f' rest kind t g' top alive holds =>
    rw [suspendOn_phase] at waits
    split_ifs at waits with same
    · obtain rfl : g' = g := by simpa using waits
      exact .inr ⟨kind, t, same ▸ stack_top top, rfl, holds⟩
    · exact .inl (by simpa using waits)
  | awaitStart f' rest kind t g' received top alive holds =>
    rw [run_phase, suspendOn_phase] at waits
    split_ifs at waits with started same
    · obtain rfl : g' = g := by simpa using waits
      exact .inr ⟨kind, t, same ▸ stack_top top, rfl, holds⟩
    · exact .inl (by simpa using waits)
  | submit =>
    rw [submitTo_phase] at waits
    split_ifs at waits
    exact .inl waits
  | finishDaemon =>
    rw [conclude_phase] at waits
    split_ifs at waits
    exact .inl waits
  | finishDestroy =>
    rw [teardown_phase, taskFinish_frames, conclude_phase] at waits
    split_ifs at waits
    exact .inl waits
  | _ => exact .inl (by simpa using waits)

end State

section Promise

variable {ε ν α : Type}

/-- `get_value`; `value()` throws `empty` if `value_` holds nothing. -/
def getValue (empty : ε) (promise : Option (Except ε ν)) : Except ε ν :=
  promise.getD (.error empty)

-- What `return_value` or `unhandled_exception` leaves when a body returns or throws `outcome`.
def Leaves (outcome : Except ε ν) : Option (Except ε ν) → Prop
  | some result => result = outcome
  -- The operand of `value_ = v` is one like `std::nullopt`, which empties `value_`.
  | none => ∃ value, outcome = .ok value

def Action.setsPromise : Action α → Bool
  | .finish result => result.isSome
  | _ => true

end Promise

/-- A state with what each coroutine has heard from its `co_await`s, and who awaited each task. -/
structure Exchange (ε ν : Type) where
  state : State (Except ε ν)
  heard : Handle → List (Except ε ν)
  awaiter : Handle → Option Handle

namespace Exchange

variable {κ ε ν : Type}

def init : Exchange ε ν := { state := .init, heard := fun _ => [], awaiter := fun _ => none }

def step (empty : ε) (e : Exchange ε ν) (a : Action (Except ε ν)) : Option (Exchange ε ν) :=
  (e.state.step a).map fun next =>
    { state := next
      heard := fun f =>
        e.heard f ++ if e.state.Completes next a f then
          [getValue empty (next.frames f).received] else []
      awaiter := fun g =>
        match a with
        | .await _ t => if (e.state.tasks t).handle = some g then e.state.top else e.awaiter g
        | _ => e.awaiter g }

variable (body : κ → Code κ (Except ε ν)) (plan : Handle → κ)

def left (e : Exchange ε ν) (f : Handle) : Code κ (Except ε ν) :=
  (body (plan f)).after (e.heard f)

/--
A body awaits a task where it calls that task's procedure, and ends where it returns or throws; no
task is awaited by two coroutines, and no task is started twice.
-/
def Follows (e : Exchange ε ν) : Action (Except ε ν) → Prop
  | .await _ t => ∀ f ∈ e.state.top, ∀ g ∈ (e.state.tasks t).handle,
      (e.left body plan f).callee? = some (plan g) ∧ ∀ f' ∈ e.awaiter g, f' = f
  | .finish result => ∀ f ∈ e.state.top, ∃ outcome ∈ (e.left body plan f).result?,
      Leaves outcome result
  | .launch _ t | .launchDetached _ t | .blockRun _ t =>
    ∀ g ∈ (e.state.tasks t).handle, (e.state.frames g).phase = .created
  | _ => True

structure Sound (e : Exchange ε ν) : Prop where
  waiters : e.state.Waiters
  rooted : e.state.Rooted
  callers : ∀ f g, (e.state.frames g).caller = some f → e.awaiter g = some f
  answered : ∀ f, Answered body (body (plan f)) (e.heard f) (e.left body plan f)
  waiting : ∀ f g, (e.state.frames f).phase = .awaiting g →
    (e.left body plan f).callee? = some (plan g)
  results : ∀ g, (e.state.frames g).phase = .final →
    ∃ result, (e.state.frames g).result = some result ∧ Evaluates body (body (plan g)) result

variable {body plan}

theorem init_sound : (init : Exchange ε ν).Sound body plan where
  waiters := State.init_waiters
  rooted := State.init_rooted
  callers f g called := by simp [init, State.init, Frame.fresh] at called
  answered f := by simpa [left, init, Code.after] using Answered.nil (body (plan f))
  waiting f g waits := by simp [init, State.init, Frame.fresh] at waits
  results g final := by simp [init, State.init, Frame.fresh] at final

section Step

variable {e e' : Exchange ε ν} {next : State (Except ε ν)} {a : Action (Except ε ν)} {empty : ε}
variable {f g : Handle}

theorem Sound.joins (sound : e.Sound body plan) (follows : e.Follows body plan a)
    (taken : e.state.step a = some next) (clean : next.fault = none) : e.state.Joins a := by
  cases a with
  | launch c t | launchDetached c t | blockRun c t => exact follows
  | await kind t =>
    intro g holds unfinished
    have holds : (e.state.tasks t).handle = some g := holds
    have awaits : ∃ f rest, e.state.stack = .body (some f) :: rest ∧
        (e.state.frames g).destroyed = false := by
      cases (State.step_effect taken).2 with
      | fault => simp at clean
      | start a who rest c daemon t g' below received top alive held starts => cases starts
      | awaitReady f rest _ _ g' top alive held intact
      | awaitDaemon f rest _ _ g' top alive held intact
      | awaitStart f rest _ _ g' received top alive held intact =>
        obtain rfl : g' = g := by simpa [holds] using held.symm
        exact ⟨f, rest, top, intact⟩
    obtain ⟨f, rest, top, intact⟩ := awaits
    have running := sound.waiters.stacked.top top
    obtain ⟨-, alone⟩ := follows f (State.stack_top top) g holds
    have uncalled : ∀ f', (e.state.frames g).caller = some f' → f' = f := fun f' called =>
      alone f' (sound.callers f' g called)
    refine ⟨fun f' _ waits => ?_, ?_⟩
    · obtain rfl := uncalled f' (sound.waiters.caller f' g waits)
      exact absurd waits.2 (by simp [running])
    · by_contra! plain
      obtain ⟨plain, started⟩ := plain
      cases called : (e.state.frames g).caller with
      | none =>
        have root : e.state.Root g := ⟨started, unfinished, called, by simpa using plain⟩
        exact sound.rooted.unheld g root t holds
      | some f' =>
        obtain rfl := uncalled f' called
        have waits := sound.waiters.waits f' g intact unfinished called
          (sound.waiters.stacked.intact f' running)
        exact absurd waits.2 (by simp [running])
  | _ => trivial

structure Yields (body : κ → Code κ (Except ε ν)) (plan : Handle → κ) (e : Exchange ε ν)
    (next : State (Except ε ν)) (f g : Handle) (result : Except ε ν) : Prop where
  calls : (e.left body plan f).callee? = some (plan g)
  final : (next.frames g).phase = .final
  ended : (next.frames g).result = some result
  received : (next.frames f).received = some result
  evaluates : Evaluates body (body (plan g)) result

theorem Sound.ends {rest : List Activation} {result : Option (Except ε ν)}
    (sound : e.Sound body plan) (follows : e.Follows body plan (.finish result))
    (sets : result.isSome = true) (top : e.state.stack = .body (some g) :: rest) :
    ∃ outcome, result = some outcome ∧ Evaluates body (body (plan g)) outcome := by
  obtain ⟨outcome, ends, leaves⟩ := follows g (State.stack_top top)
  obtain ⟨kept, rfl⟩ := Option.isSome_iff_exists.mp sets
  obtain rfl : kept = outcome := leaves
  exact ⟨kept, rfl, (sound.answered g).evaluates (Code.finish_of_result ends ▸ .finish kept)⟩

theorem Sound.yields_waiting (sound : e.Sound body plan) (follows : e.Follows body plan a)
    (sets : a.setsPromise = true) (taken : e.state.step a = some next) (clean : next.fault = none)
    (waits : (e.state.frames f).phase = .awaiting g) (running : (next.frames f).phase = .running) :
    ∃ result, Yields body plan e next f g result := by
  have stacked := sound.waiters.stacked
  have intact : (e.state.frames f).destroyed = false := by
    by_contra gone
    have gone := State.step_keeps_destroyed taken (by simpa using gone)
    simp [(State.step_stacked stacked taken).intact f running] at gone
  rcases State.step_phase (sound.joins follows taken clean) taken (f := f)
    (by simp [waits, running]) with ⟨rest, top⟩ | ⟨g', rest, result, top, rfl, called⟩ |
      ⟨res, op, -, suspended⟩ | created
  · simp [stacked.top top] at waits
  · have active := stacked.top top
    have waited := sound.waiters.waits f g' (stacked.intact g' active) (by simp [active]) called
      intact
    obtain rfl : g = g' := by simpa [waits] using waited.2
    obtain ⟨outcome, rfl, evaluates⟩ := sound.ends follows sets top
    obtain ⟨final, ended⟩ := State.finish_final top taken clean
    exact ⟨outcome, sound.waiting f g waits, final, ended,
      (sound.waiters.finish_wakes top taken waited).2.2, evaluates⟩
  · simp [waits] at suspended
  · simp [waits] at created

theorem Sound.yields_ready {kind : AwaitKind} {t : TaskId} (sound : e.Sound body plan)
    (follows : e.Follows body plan (.await kind t))
    (taken : e.state.step (.await kind t) = some next) (clean : next.fault = none)
    (top : e.state.top = some f) (running : (next.frames f).phase = .running) :
    ∃ g result, Yields body plan e next f g result := by
  obtain ⟨rest, stack⟩ := State.top_stack top
  have same : ∀ f' rest', e.state.stack = .body (some f') :: rest' → f' = f :=
    fun f' rest' stack' => by simpa using (List.cons.inj (stack'.symm.trans stack)).1
  cases (State.step_effect taken).2 with
  | fault => simp at clean
  | start a who rest c daemon t g below received _ alive holds starts => cases starts
  | awaitReady f' rest' _ _ g stack' alive holds intact final =>
    obtain rfl := same f' rest' stack'
    obtain ⟨result, ended, evaluates⟩ := sound.results g final
    exact ⟨g, result, (follows f' top g holds).1, by simp [final], by simp [ended],
      by simp [ended], evaluates⟩
  | awaitDaemon f' rest' _ _ g stack' =>
    obtain rfl := same f' rest' stack'
    simp [State.suspendOn_phase] at running
  | awaitStart f' rest' _ _ g received stack' alive holds intact unfinished plain =>
    obtain rfl := same f' rest' stack'
    have active := sound.waiters.stacked.top stack
    have created : (e.state.frames g).phase = .created := by
      simpa [plain] using (sound.joins follows taken clean g holds unfinished).2
    have other : f' ≠ g := by
      rintro rfl
      simp [active] at created
    simp [State.run_phase, State.suspendOn_phase, other] at running

theorem Sound.yields (sound : e.Sound body plan) (follows : e.Follows body plan a)
    (sets : a.setsPromise = true) (taken : e.state.step a = some next)
    (completes : e.state.Completes next a f) :
    ∃ g result, Yields body plan e next f g result := by
  obtain ⟨running, clean, how⟩ := completes
  unfold State.inAwait at how
  split at how
  · next g waits =>
    obtain ⟨result, yields⟩ := sound.yields_waiting follows sets taken clean waits running
    exact ⟨g, result, yields⟩
  · split at how
    · exact sound.yields_ready follows taken clean (of_decide_eq_true how) running
    · cases how
  · cases how

theorem Sound.step_waiters (sound : e.Sound body plan) (follows : e.Follows body plan a)
    (taken : e.state.step a = some next) : next.Waiters := by
  rcases State.clean_or_fault taken with clean | ⟨fault, rfl⟩
  · exact State.step_waiters sound.waiters sound.rooted.formed.numbered
      (sound.joins follows taken clean) taken
  · exact sound.waiters.of_same (State.step_stacked sound.waiters.stacked taken) (fun _ => rfl)
      (fun _ => rfl) (fun _ intact => intact)

theorem Sound.step_callers (sound : e.Sound body plan) (follows : e.Follows body plan a)
    (taken : e.step empty a = some e')
    (called : (e'.state.frames g).caller = some f) : e'.awaiter g = some f := by
  obtain ⟨next, moved, rfl⟩ := Option.map_eq_some_iff.mp taken
  rcases State.step_caller moved called with old | ⟨kind, t, rest, rfl, holds, top⟩
  · have before := sound.callers f g old
    cases a with
    | await kind t =>
      by_cases holds : (e.state.tasks t).handle = some g
      · -- The task is awaited again, by the same coroutine.
        obtain ⟨h, top⟩ := State.await_top moved
        have same := (follows h top g holds).2 f before
        simp [holds, top, same]
      · simp [holds, before]
    | _ => exact before
  · simp [holds, State.stack_top top]

theorem Sound.step_answered (sound : e.Sound body plan) (follows : e.Follows body plan a)
    (sets : a.setsPromise = true) (taken : e.step empty a = some e') (f : Handle) :
    Answered body (body (plan f)) (e'.heard f) (e'.left body plan f) := by
  obtain ⟨next, moved, rfl⟩ := Option.map_eq_some_iff.mp taken
  have answered := sound.answered f
  by_cases completes : e.state.Completes next a f
  · obtain ⟨g, result, yields⟩ := sound.yields follows sets moved completes
    obtain ⟨rest, calls⟩ := Code.call_of_callee yields.calls
    have longer := (calls ▸ answered).snoc yields.evaluates
    refine Answered.after (?_ : Answered _ _ _ (rest result))
    simpa [completes, yields.received, getValue] using longer
  · refine Answered.after (?_ : Answered _ _ _ (e.left body plan f))
    simpa [completes] using answered

theorem Sound.step_waiting (sound : e.Sound body plan) (follows : e.Follows body plan a)
    (taken : e.step empty a = some e')
    (waits : (e'.state.frames f).phase = .awaiting g) :
    (e'.left body plan f).callee? = some (plan g) := by
  obtain ⟨next, moved, rfl⟩ := Option.map_eq_some_iff.mp taken
  have waits : (next.frames f).phase = .awaiting g := waits
  have going : ¬ e.state.Completes next a f := fun completes => by simp [completes.1] at waits
  have same : ∀ e' : Exchange ε ν, e'.heard f = e.heard f →
      e'.left body plan f = e.left body plan f := fun e' heard => by rw [left, left, heard]
  rw [same _ (by simp [going])]
  rcases State.step_awaiting moved waits with before | ⟨kind, t, top, rfl, holds⟩
  · exact sound.waiting f g before
  · exact (follows f top g holds).1

theorem Sound.step_results (sound : e.Sound body plan) (follows : e.Follows body plan a)
    (sets : a.setsPromise = true) (taken : e.state.step a = some next)
    (final : (next.frames g).phase = .final) :
    ∃ result, (next.frames g).result = some result ∧ Evaluates body (body (plan g)) result := by
  have stacked := sound.waiters.stacked
  by_cases before : (e.state.frames g).phase = .final
  · obtain ⟨result, ended, evaluates⟩ := sound.results g before
    rcases State.step_result taken g with same | ⟨rest, top⟩
    · exact ⟨result, same ▸ ended, evaluates⟩
    · simp [stacked.top top] at before
  · obtain ⟨rest, result, top, rfl⟩ : ∃ rest result,
        e.state.stack = .body (some g) :: rest ∧ a = .finish result := by
      cases (State.step_ends taken final).resolve_left before with
      | resumes rest result caller received top ends | stays rest result top ends
      | destroyed rest result top ends => exact ⟨rest, result, top, ends⟩
    rcases State.clean_or_fault taken with clean | ⟨fault, rfl⟩
    · obtain ⟨outcome, rfl, evaluates⟩ := sound.ends follows sets top
      exact ⟨outcome, (State.finish_final top taken clean).2, evaluates⟩
    · exact absurd final before

theorem step_sound (sound : e.Sound body plan) (follows : e.Follows body plan a)
    (sets : a.setsPromise = true) (taken : e.step empty a = some e') : e'.Sound body plan where
  waiters := by
    obtain ⟨next, moved, rfl⟩ := Option.map_eq_some_iff.mp taken
    exact sound.step_waiters follows moved
  rooted := by
    obtain ⟨next, moved, rfl⟩ := Option.map_eq_some_iff.mp taken
    exact State.step_rooted sound.rooted moved
  callers f g called := sound.step_callers follows taken called
  answered f := sound.step_answered follows sets taken f
  waiting f g waits := sound.step_waiting follows taken waits
  results g final := by
    obtain ⟨next, moved, rfl⟩ := Option.map_eq_some_iff.mp taken
    exact sound.step_results follows sets moved final

end Step

end Exchange

section Propagation

variable {κ ε ν : Type} (empty : ε) (body : κ → Code κ (Except ε ν)) (plan : Handle → κ)

structure Propagates (e : Exchange ε ν) (a : Action (Except ε ν)) : Prop where
  results : ∀ g, (e.state.frames g).phase = .final → ∃ result,
    (e.state.frames g).result = some result ∧
      ∀ other, Evaluates body (body (plan g)) other ↔ other = result
  heard : ∀ f, Answered body (body (plan f)) (e.heard f) (e.left body plan f)
  yields : ∀ e' f, e.step empty a = some e' → e.state.Completes e'.state a f → ∃ g result,
    Exchange.Yields body plan e e'.state f g result ∧ e'.heard f = e.heard f ++ [result]
  waits : ∀ e' f g, e.step empty a = some e' → (e.state.frames f).phase = .awaiting g →
    (e'.state.frames f).phase = .running → (e'.state.frames g).phase = .final
  wakes : ∀ e' f g rest result, e.step empty a = some e' → e.state.Waits f g →
    e.state.stack = .body (some g) :: rest → a = .finish result → e.state.Completes e'.state a f
  -- An exception goes through all coroutines that do not catch it.
  passes : ∀ f g thrown, Relation.ReflTransGen (Passes body) (plan f) (plan g) →
    (e.state.frames g).phase = .final → (e.state.frames g).result = some (.error thrown) →
      (e.state.frames f).phase = .final → (e.state.frames f).result = some (.error thrown)

variable {empty body plan}

theorem Exchange.Sound.propagates {e : Exchange ε ν} {a : Action (Except ε ν)}
    (sound : e.Sound body plan) (follows : e.Follows body plan a) (sets : a.setsPromise = true) :
    Propagates empty body plan e a where
  results g final := by
    obtain ⟨result, ended, evaluates⟩ := sound.results g final
    exact ⟨result, ended, fun other =>
      ⟨fun evaluates' => evaluates'.unique evaluates, fun same => same ▸ evaluates⟩⟩
  heard := sound.answered
  yields e' f taken completes := by
    obtain ⟨next, moved, rfl⟩ := Option.map_eq_some_iff.mp taken
    obtain ⟨g, result, yields⟩ := sound.yields follows sets moved completes
    have completes : e.state.Completes next a f := completes
    exact ⟨g, result, yields, by simp [completes, yields.received, getValue]⟩
  waits e' f g taken waits running := by
    obtain ⟨next, moved, rfl⟩ := Option.map_eq_some_iff.mp taken
    rcases State.clean_or_fault moved with clean | ⟨fault, rfl⟩
    · obtain ⟨result, yields⟩ := sound.yields_waiting follows sets moved clean waits running
      exact yields.final
    · exact absurd (waits.symm.trans running) (by simp)
  wakes e' f g rest result taken waits top ends := by
    obtain ⟨next, moved, rfl⟩ := Option.map_eq_some_iff.mp taken
    subst ends
    obtain ⟨clean, running, -⟩ := sound.waiters.finish_wakes top moved waits
    exact ⟨running, clean, by simp [waits.2, State.inAwait]⟩
  passes f g thrown chain final threw ended := by
    obtain ⟨result, same, evaluates⟩ := sound.results g final
    obtain rfl : result = .error thrown := by simpa [threw] using same.symm
    obtain ⟨result, same, evaluates'⟩ := sound.results f ended
    rw [same, evaluates'.unique (passes_evaluates chain evaluates)]

/--
If each coroutine follows the body of its procedure, no task is awaited by two coroutines and none
is started twice, and no `co_return` leaves `value_` empty, then in every run tasks end with what
ordinary calls of their procedures give, and each `co_await` yields that once the task has ended.
-/
theorem propagates_results {actions : List (Action (Except ε ν))}
    (follows : Always (Exchange.step empty)
      (fun e a => e.Follows body plan a ∧ a.setsPromise = true) .init actions) :
    Always (Exchange.step empty) (Propagates empty body plan) .init actions :=
  follows.of_invariant
    (fun _ _ _ sound follows taken => Exchange.step_sound sound follows.1 follows.2 taken)
    (fun _ _ sound follows => sound.propagates follows.1 follows.2) Exchange.init_sound

end Propagation

instance {ε ν : Type} [DecidableEq ε] [DecidableEq ν] (outcome : Except ε ν) :
    DecidablePred (Leaves outcome)
  | some result => inferInstanceAs (Decidable (result = outcome))
  | none => match outcome with
    | .ok value => .isTrue ⟨value, rfl⟩
    | .error thrown => .isFalse fun ⟨value, same⟩ => by cases same

instance {κ ε ν : Type} [DecidableEq κ] [DecidableEq ε] [DecidableEq ν]
    (body : κ → Code κ (Except ε ν)) (plan : Handle → κ) (e : Exchange ε ν) :
    DecidablePred (e.Follows body plan)
  | .await _ t => inferInstanceAs (Decidable (∀ f ∈ e.state.top, ∀ g ∈ (e.state.tasks t).handle,
      (e.left body plan f).callee? = some (plan g) ∧ ∀ f' ∈ e.awaiter g, f' = f))
  | .finish result => inferInstanceAs (Decidable (∀ f ∈ e.state.top, ∃ outcome ∈
      (e.left body plan f).result?, Leaves outcome result))
  | .launch _ t | .launchDetached _ t | .blockRun _ t =>
    inferInstanceAs (Decidable (∀ g ∈ (e.state.tasks t).handle,
      (e.state.frames g).phase = .created))
  | .create _ | .move _ _ | .assign _ _ | .drop _ | .io | .proceed | .complete _ _ | .stop _
  | .waitError _ => .isTrue trivial

-- 0 does not catch what its call of 1 throws, and neither does 1 what its call of 2 does.
def throwing : Nat → Code Nat (Except Nat Nat)
  | 0 => .call 3 fun
    | .ok value => .uncaught 1 fun other => .finish (.ok (value + other))
    | .error _ => .finish (.ok 0)
  | 1 => .uncaught 2 fun value => .finish (.ok value)
  | 2 => .finish (.error 7)
  | _ => .finish (.ok 5)

-- 3 has ended when it is awaited, 1 has not been started, 2 waits for its operation.
def threeWays : List (Action (Except Nat Nat)) :=
  [.create none, .blockRun 0 0, .create (some 0), .create none, .create none, .launch 0 2, .io,
    .proceed, .launch 0 3, .finish (some (.ok 5)), .proceed, .await .lvalue 5, .await .rvalue 1,
    .await .rvalue 4, .proceed, .complete 0 0, .finish (some (.error 7)),
    .finish (some (.error 7)), .finish (some (.error 7))]

theorem propagates_results_three_ways :
    ∃ e, run (Exchange.step 0) .init threeWays = some e ∧
      (e.state.frames 0).result = some (.error 7) := by
  have follows : Always (Exchange.step 0)
      (fun e a => e.Follows throwing id a ∧ a.setsPromise = true) .init
        (threeWays ++ [.proceed]) := by decide +kernel
  have ended : (run (Exchange.step 0) .init threeWays).map
      (fun e => ((e.state.frames 0).phase, (e.state.frames 2).phase, (e.state.frames 2).result)) =
        some (.final, .final, some (.error 7)) := by decide +kernel
  obtain ⟨e, reached, view⟩ := Option.map_eq_some_iff.mp ended
  simp only [Prod.mk.injEq] at view
  obtain ⟨final, final', threw⟩ := view
  have propagates :=
    always_iff.mp (propagates_results follows) threeWays _ [] rfl e reached
  have called : Evaluates throwing (throwing 3) (.ok 5) := .finish _
  have first : Passes throwing 0 1 :=
    ⟨[.ok 5], fun other => .finish (.ok (5 + other)),
      .cons 3 _ (Except.ok 5) [] _ called (.nil _)⟩
  have second : Passes throwing 1 2 := ⟨[], fun value => .finish (.ok value), .nil _⟩
  have chain : Relation.ReflTransGen (Passes throwing) 0 2 := .head first (.single second)
  exact ⟨e, reached, propagates.passes 0 2 7 chain final' threw final⟩

def returningNone : Nat → Code Nat (Except Unit (Option Nat))
  | 0 => .uncaught 1 fun value => .finish (.ok value)
  | _ => .finish (.ok none)

-- `co_return std::nullopt` in a `task<std::optional<int>>`: the awaiter gets an exception.
theorem empty_value_throws :
    ¬ ∀ actions : List (Action (Except Unit (Option Nat))),
      Always (Exchange.step ()) (Exchange.Follows returningNone id) .init actions →
        Always (Exchange.step ()) (Propagates () returningNone id) .init actions := by
  intro claim
  let before : List (Action (Except Unit (Option Nat))) :=
    [.create none, .blockRun 0 0, .create (some 0), .await .rvalue 1]
  have follows : Always (Exchange.step ()) (Exchange.Follows returningNone id) .init
      (before ++ [.finish none]) := by decide +kernel
  have ended : (run (Exchange.step ()) .init before).bind (fun e =>
      (e.step () (.finish none)).map fun e' =>
        (e.heard 0, e'.heard 0, decide (e.state.Completes e'.state (.finish none) 0))) =
          some ([], [.error ()], true) := by decide +kernel
  obtain ⟨e, reached, later⟩ := Option.bind_eq_some_iff.mp ended
  obtain ⟨e', taken, view⟩ := Option.map_eq_some_iff.mp later
  simp only [Prod.mk.injEq, decide_eq_true_eq] at view
  obtain ⟨nothing, threw, completes⟩ := view
  have propagates := always_iff.mp (claim _ follows) before _ [] rfl e reached
  obtain ⟨g, result, yields, heard⟩ := propagates.yields e' 0 taken completes
  obtain rfl : .error () = result := by simpa [nothing, threw] using heard
  have calls : some 1 = some g := by
    refine Eq.trans ?_ yields.calls
    rw [Exchange.left, nothing]
    rfl
  obtain rfl := Option.some.inj calls
  cases yields.evaluates

end KkProxy.Coro
