import KkProxy.Coro.Numbers

set_option autoImplicit false

namespace KkProxy.Coro

open Runs

namespace State

variable {α : Type}

def Waits (s : State α) (f g : Handle) : Prop :=
  (s.frames f).destroyed = false ∧ (s.frames f).phase = .awaiting g

-- `caller_` of an unfinished coroutine is the one coroutine that waits for it.
structure Waiters (s : State α) : Prop where
  stacked : s.Stacked
  caller : ∀ f g, s.Waits f g → (s.frames g).caller = some f
  unfinished : ∀ f g, s.Waits f g → (s.frames g).destroyed = false → (s.frames g).phase ≠ .final
  waits : ∀ f g, (s.frames g).destroyed = false → (s.frames g).phase ≠ .final →
    (s.frames g).caller = some f → (s.frames f).destroyed = false → s.Waits f g

theorem init_waiters : (init : State α).Waiters where
  stacked := init_stacked
  caller f g waits := by simp [Waits, init, Frame.fresh] at waits
  unfinished f g waits := by simp [Waits, init, Frame.fresh] at waits
  waits f g _ _ called := by simp [init, Frame.fresh] at called

theorem Waiters.of_same {s t : State α} (waiters : s.Waiters) (stacked : t.Stacked)
    (phase : ∀ h, (t.frames h).phase = (s.frames h).phase)
    (caller : ∀ h, (t.frames h).caller = (s.frames h).caller)
    (fewer : ∀ h, (t.frames h).destroyed = false → (s.frames h).destroyed = false) :
    t.Waiters := by
  have same : ∀ f g, t.Waits f g → s.Waits f g := fun f g waits =>
    ⟨fewer f waits.1, by rw [← phase, waits.2]⟩
  refine ⟨stacked, fun f g waits => ?_, fun f g waits intact => ?_,
    fun f g intact unfinished called alive => ?_⟩
  · rw [caller]
    exact waiters.caller f g (same f g waits)
  · rw [phase]
    exact waiters.unfinished f g (same f g waits) (fewer g intact)
  · rw [phase] at unfinished
    rw [caller] at called
    refine ⟨alive, ?_⟩
    rw [phase]
    exact (waiters.waits f g (fewer g intact) unfinished called (fewer f alive)).2

theorem Waiters.change {s t : State α} (waiters : s.Waiters) (stacked : t.Stacked) {f : Handle}
    (before : (s.frames f).phase ≠ .final ∧ ∀ g, (s.frames f).phase ≠ .awaiting g)
    (after : (t.frames f).phase ≠ .final ∧ ∀ g, (t.frames f).phase ≠ .awaiting g)
    (phase : ∀ h, h ≠ f → (t.frames h).phase = (s.frames h).phase)
    (caller : ∀ h, (t.frames h).caller = (s.frames h).caller)
    (destroyed : ∀ h, (t.frames h).destroyed = (s.frames h).destroyed) : t.Waiters := by
  have same : ∀ h g, t.Waits h g ↔ s.Waits h g := by
    intro h g
    by_cases moved : h = f
    · subst moved
      exact ⟨fun waits => absurd waits.2 (after.2 g), fun waits => absurd waits.2 (before.2 g)⟩
    · rw [Waits, Waits, destroyed, phase h moved]
  have finished : ∀ h, (t.frames h).phase ≠ .final ↔ (s.frames h).phase ≠ .final := by
    intro h
    by_cases moved : h = f
    · subst moved
      exact iff_of_true after.1 before.1
    · rw [phase h moved]
  refine ⟨stacked, fun h g waits => ?_, fun h g waits intact => ?_,
    fun h g intact unfinished called alive => ?_⟩
  · rw [caller]
    exact waiters.caller h g ((same h g).mp waits)
  · rw [finished]
    exact waiters.unfinished h g ((same h g).mp waits) (destroyed g ▸ intact)
  · rw [same]
    exact waiters.waits h g (destroyed g ▸ intact) ((finished g).mp unfinished)
      (caller g ▸ called) (destroyed h ▸ alive)

theorem Waiters.suspendOn {s : State α} (waiters : s.Waiters) {f g : Handle}
    {rest : List Activation} (top : s.stack = .body (some f) :: rest) (kind : AwaitKind)
    (t : TaskId) (unfinished : (s.frames g).phase ≠ .final) (alone : ∀ h, ¬ s.Waits h g) :
    ((s.transform kind t).suspendOn f g).Waiters := by
  have running := waiters.stacked.top top
  have phase : ∀ h, h ≠ f →
      (((s.transform kind t).suspendOn f g).frames h).phase = (s.frames h).phase := by
    intro h other
    rw [suspendOn_phase, if_neg other, transform_frames]
  have caller : ∀ h, h ≠ g →
      (((s.transform kind t).suspendOn f g).frames h).caller = (s.frames h).caller := by
    intro h other
    rw [suspendOn_caller, if_neg other, transform_frames]
  have joined : ((s.transform kind t).suspendOn f g).Waits f g :=
    ⟨by simpa using waiters.stacked.intact f running, by simp [suspendOn_phase]⟩
  refine ⟨waiters.stacked.suspendOn top kind t g, ?_, ?_, ?_⟩
  · intro h g' waits
    by_cases same : h = f
    · subst same
      obtain rfl : g = g' := by simpa [waits.2] using joined.2.symm
      simp [suspendOn_caller]
    · have waited : s.Waits h g' := ⟨by simpa using waits.1, by rw [← phase h same, waits.2]⟩
      rw [caller g' fun callee => alone h (callee ▸ waited)]
      exact waiters.caller h g' waited
  · intro h g' waits intact
    by_cases suspended : g' = f
    · rw [suspended, joined.2]
      simp
    · rw [phase g' suspended]
      by_cases same : h = f
      · subst same
        obtain rfl : g = g' := by simpa [waits.2] using joined.2.symm
        exact unfinished
      · exact waiters.unfinished h g' ⟨by simpa using waits.1, by rw [← phase h same, waits.2]⟩
          (by simpa using intact)
  · intro h g' intact unfinished' called alive
    by_cases callee : g' = g
    · obtain rfl : f = h := by simpa [callee, suspendOn_caller] using called
      exact callee ▸ joined
    · have unfinished : (s.frames g').phase ≠ .final := by
        by_cases suspended : g' = f
        · simp [suspended, running]
        · rwa [phase g' suspended] at unfinished'
      rw [caller g' callee] at called
      have waited := waiters.waits h g' (by simpa using intact) unfinished called
        (by simpa using alive)
      have other : h ≠ f := by
        rintro rfl
        exact absurd waited.2 (by simp [running])
      exact ⟨alive, by rw [phase h other, waited.2]⟩

theorem Waiters.finish {s t : State α} (waiters : s.Waiters) (stacked : t.Stacked) {f : Handle}
    {rest : List Activation} (top : s.stack = .body (some f) :: rest)
    (final : (t.frames f).phase = .final)
    (resumed : ∀ h, (s.frames f).caller = some h → (t.frames h).phase = .running)
    (phase : ∀ h, h ≠ f → (s.frames f).caller ≠ some h →
      (t.frames h).phase = (s.frames h).phase)
    (caller : ∀ h, (t.frames h).caller = (s.frames h).caller)
    (destroyed : ∀ h, (t.frames h).destroyed = (s.frames h).destroyed) : t.Waiters := by
  have running := waiters.stacked.top top
  have intact := waiters.stacked.intact f running
  have before : ∀ h g, t.Waits h g →
      h ≠ f ∧ (s.frames f).caller ≠ some h ∧ s.Waits h g := by
    intro h g waits
    have other : h ≠ f := by
      rintro rfl
      simp [waits.2] at final
    have uncalled : (s.frames f).caller ≠ some h := fun called => by
      have going := resumed h called
      simp [waits.2] at going
    exact ⟨other, uncalled, destroyed h ▸ waits.1, by rw [← phase h other uncalled, waits.2]⟩
  refine ⟨stacked, fun h g waits => ?_, fun h g waits intact' => ?_,
    fun h g intact' unfinished called alive => ?_⟩
  · rw [caller]
    exact waiters.caller h g (before h g waits).2.2
  · obtain ⟨-, uncalled, waited⟩ := before h g waits
    have other : g ≠ f := by
      rintro rfl
      exact uncalled (waiters.caller h g waited)
    by_cases calls : (s.frames f).caller = some g
    · simp [resumed g calls]
    · rw [phase g other calls]
      exact waiters.unfinished h g waited (destroyed g ▸ intact')
  · rw [destroyed] at intact' alive
    rw [caller] at called
    have callee : g ≠ f := by
      rintro rfl
      exact unfinished final
    have unfinished : (s.frames g).phase ≠ .final := by
      by_cases calls : (s.frames f).caller = some g
      · simp [(waiters.waits g f intact (by simp [running]) calls intact').2]
      · rwa [phase g callee calls] at unfinished
    have waited := waiters.waits h g intact' unfinished called alive
    have other : h ≠ f := by
      rintro rfl
      exact absurd waited.2 (by simp [running])
    have uncalled : (s.frames f).caller ≠ some h := fun calls => by
      have elsewhere := (waiters.waits h f intact (by simp [running]) calls alive).2
      exact callee (by simpa [waited.2] using elsewhere)
    exact ⟨by rwa [destroyed], by rw [phase h other uncalled, waited.2]⟩

theorem Waiters.conclude {s : State α} (waiters : s.Waiters) {f : Handle}
    {rest : List Activation} (top : s.stack = .body (some f) :: rest) (result : Option α)
    (uncalled : (s.frames f).caller = none) : (s.conclude f result).Waiters := by
  refine waiters.finish (waiters.stacked.conclude top result) top (by simp [conclude_phase])
    (by simp [uncalled]) (fun h other _ => ?_) (by simp) (by simp)
  rw [conclude_phase, if_neg other]

/--
Only a task that has not been started is started, and one that has been is only awaited if it is a
daemon that nobody waits for.
-/
def Joins (s : State α) : Action α → Prop
  | .launch _ t | .launchDetached _ t | .blockRun _ t =>
    ∀ g ∈ (s.tasks t).handle, (s.frames g).phase = .created
  | .await _ t =>
    ∀ g ∈ (s.tasks t).handle, (s.frames g).phase ≠ .final →
      (∀ f < s.frameCount, ¬ s.Waits f g) ∧
        ((s.frames g).flags.isDaemon = true ∨ (s.frames g).phase = .created)
  | _ => True

instance (s : State α) (f g : Handle) : Decidable (s.Waits f g) :=
  inferInstanceAs (Decidable (_ ∧ _))

instance (s : State α) : DecidablePred s.Joins
  | .launch _ t | .launchDetached _ t | .blockRun _ t =>
    inferInstanceAs (Decidable (∀ g ∈ (s.tasks t).handle, (s.frames g).phase = .created))
  | .await _ t =>
    inferInstanceAs (Decidable (∀ g ∈ (s.tasks t).handle, (s.frames g).phase ≠ .final →
      (∀ f < s.frameCount, ¬ s.Waits f g) ∧
        ((s.frames g).flags.isDaemon = true ∨ (s.frames g).phase = .created)))
  | .create _ | .move _ _ | .assign _ _ | .drop _ | .io | .finish _ | .proceed | .complete _ _
  | .stop _ | .waitError _ => .isTrue trivial

theorem Joins.awaits {s : State α} {kind : AwaitKind} {t : TaskId} (joins : s.Joins (.await kind t))
    (numbered : s.Numbered) {g : Handle} (holds : (s.tasks t).handle = some g)
    (unfinished : (s.frames g).phase ≠ .final) : (∀ f, ¬ s.Waits f g) ∧
      ((s.frames g).flags.isDaemon = true ∨ (s.frames g).phase = .created) := by
  obtain ⟨alone, started⟩ := joins g holds unfinished
  refine ⟨fun f waits => alone f (numbered.started ?_) waits, started⟩
  rw [waits.2]
  simp

theorem step_waiters {s next : State α} {a : Action α} (waiters : s.Waiters)
    (numbered : s.Numbered) (joins : s.Joins a) (taken : s.step a = some next) : next.Waiters := by
  have stacked := step_stacked waiters.stacked taken
  cases (step_effect taken).2 with
  | assign => exact waiters.of_same stacked (by simp) (by simp) (by simp [teardown_destroyed])
  | start a who rest c daemon t g below received top alive holds starts resumes =>
    have created : (s.frames g).phase = .created := by
      cases starts <;> exact joins g holds
    refine waiters.change stacked (f := g) (by simp [created]) (by simp [run_phase])
      (fun h other => ?_) (by simp) (by simp)
    rw [run_phase, if_neg other, starting_phase]
  | awaitDaemon f rest kind t g top alive holds intact unfinished daemon =>
    exact waiters.suspendOn top kind t unfinished (joins.awaits numbered holds unfinished).1
  | awaitStart f rest kind t g received top alive holds intact unfinished plain resumes =>
    obtain ⟨alone, started⟩ := joins.awaits numbered holds unfinished
    have created : (s.frames g).phase = .created := by simpa [plain] using started
    have other : g ≠ f := by
      rintro rfl
      simp [waiters.stacked.top top] at created
    have suspended := waiters.suspendOn top kind t unfinished alone
    refine suspended.change stacked (f := g) ?_ (by simp [run_phase]) (fun h moved => ?_) (by simp)
      (by simp)
    · simp [suspendOn_phase, other, created]
    · rw [run_phase, if_neg moved]
  | submit f rest c top context =>
    have running := waiters.stacked.top top
    refine waiters.change stacked (f := f) (by simp [running]) (by simp [submitTo_phase])
      (fun h other => ?_) (by simp) (by simp)
    rw [submitTo_phase, if_neg other]
  | finishCaller f rest result caller received top called resumes =>
    have other : f ≠ caller := by
      rintro rfl
      exact resumes.suspended.2 (by simp [conclude_phase])
    refine waiters.finish stacked top (by simp [run_phase, conclude_phase, other])
      (fun h calls => ?_) (fun h moved uncalled => ?_) (by simp) (by simp)
    · obtain rfl : caller = h := by simpa [called] using calls
      simp [run_phase]
    · have idle : h ≠ caller := fun same => uncalled (same ▸ called)
      rw [run_phase, if_neg idle, conclude_phase, if_neg moved]
  | finishDaemon f rest result top uncalled => exact waiters.conclude top result uncalled
  | finishDestroy f rest result top uncalled plain =>
    exact (waiters.conclude top result uncalled).of_same stacked (by simp) (by simp)
      (by simp [teardown_destroyed])
  | unwind => exact waiters.of_same stacked (by simp) (by simp) (by simp [teardown_destroyed])
  | complete c rest res op received top submitted waiting intact =>
    refine waiters.change stacked (f := op.frame) (by simp [waiting]) (by simp [run_phase])
      (fun h other => ?_) (by simp) (by simp)
    rw [run_phase, if_neg other, setRing_frames]
  | _ => exact waiters.of_same stacked (by simp) (by simp) (by simp)

structure Wakes (s : State α) (a : Action α) : Prop where
  resumed : ∀ f g rest result next, s.stack = .body (some g) :: rest → a = .finish result →
    s.step a = some next → s.Waits f g →
      next.fault = none ∧ (next.frames f).phase = .running ∧
        (next.frames f).received = result
  -- Nothing else resumes it.
  waiting : ∀ f g next, s.step a = some next → (s.frames f).destroyed = false →
    (s.frames f).phase = .awaiting g → (next.frames f).phase ≠ .awaiting g →
      ∃ rest result, s.stack = .body (some g) :: rest ∧ a = .finish result
  -- Only its operation resumes a coroutine suspended on one.
  io : ∀ f op next, s.step a = some next → (s.frames f).destroyed = false →
    (s.frames f).phase = .io op → (next.frames f).phase ≠ .io op → ∃ res, a = .complete res op
  ready : ∀ f rest kind t g next, s.stack = .body (some f) :: rest → a = .await kind t →
    (s.tasks t).handle = some g → (s.frames g).destroyed = false →
      (s.frames g).phase = .final → s.step a = some next →
        next.fault = none ∧ next.stack = s.stack ∧ (next.frames f).phase = .running ∧
          (next.frames f).received = (s.frames g).result
  joined : ∀ f g, s.Waits f g → (s.frames g).destroyed = false → (s.frames g).phase ≠ .final

theorem step_phase {s next : State α} {a : Action α} (joins : s.Joins a)
    (taken : s.step a = some next) {f : Handle}
    (moved : (next.frames f).phase ≠ (s.frames f).phase) :
    (∃ rest, s.stack = .body (some f) :: rest) ∨
      (∃ g rest result, s.stack = .body (some g) :: rest ∧ a = .finish result ∧
        (s.frames g).caller = some f) ∨
      (∃ res op, a = .complete res op ∧ (s.frames f).phase = .io op) ∨
      (s.frames f).phase = .created := by
  rcases step_moves taken moved with top | ⟨u, resuming⟩ | completed
  · exact .inl top
  · cases resuming with
    | start a who rest c daemon t g below top alive holds intact starts =>
      have created : (s.frames f).phase = .created := by cases starts <;> exact joins f holds
      exact .inr (.inr (.inr created))
    | await f' rest kind t g top alive holds intact unfinished plain =>
      have created : (s.frames f).phase = .created := by
        simpa [plain] using (joins f holds unfinished).2
      exact .inr (.inr (.inr created))
    | finish f' rest result g top called => exact .inr (.inl ⟨f', rest, result, top, rfl, called⟩)
  · exact .inr (.inr (.inl completed))

theorem resume_awaiting {s : State α} {f g : Handle} (waits : s.Waits f g)
    (readable : (s.frames g).destroyed = false) :
    s.resume f = .ok (s.run f (s.frames g).result) := by
  simp [resume, waits.1, waits.2, readable]

theorem Waiters.finish_wakes {s next : State α} (waiters : s.Waiters) {f g : Handle}
    {rest : List Activation} {result : Option α} (top : s.stack = .body (some g) :: rest)
    (taken : s.step (.finish result) = some next) (waits : s.Waits f g) :
    next.fault = none ∧ (next.frames f).phase = .running ∧
      (next.frames f).received = result := by
  have called := waiters.caller f g waits
  have running := waiters.stacked.top top
  have other : f ≠ g := by
    rintro rfl
    exact absurd waits.2 (by simp [running])
  have concluded : (s.conclude g result).Waits f g :=
    ⟨by simpa using waits.1, by rw [conclude_phase, if_neg other, waits.2]⟩
  have resumed := resume_awaiting concluded (by simpa using waiters.stacked.intact g running)
  have clean := (step_effect taken).1
  have finished : s.finish g result = .ok ((s.conclude g result).run f result) := by
    simp [State.finish, called, resumed]
  obtain rfl : next = (s.conclude g result).run f result := by
    simpa [step, act, clean, top, finished] using taken.symm
  exact ⟨clean, by simp [run_phase], by simp⟩

theorem Waiters.await_ready {s next : State α} (waiters : s.Waiters) {f g : Handle}
    {rest : List Activation} {kind : AwaitKind} {t : TaskId}
    (top : s.stack = .body (some f) :: rest) (holds : (s.tasks t).handle = some g)
    (intact : (s.frames g).destroyed = false) (final : (s.frames g).phase = .final)
    (taken : s.step (.await kind t) = some next) :
    next.fault = none ∧ next.stack = s.stack ∧ (next.frames f).phase = .running ∧
      (next.frames f).received = (s.frames g).result := by
  have clean := (step_effect taken).1
  have ready : s.await f kind t = .ok ((s.transform kind t).receive f (s.frames g).result) := by
    simp [await, holds, intact, final]
  by_cases alive : (s.tasks t).alive = true
  · obtain rfl : next = (s.transform kind t).receive f (s.frames g).result := by
      simpa [step, act, clean, top, alive, ready] using taken.symm
    refine ⟨?_, by simp, by simp [waiters.stacked.top top], by simp⟩
    cases kind <;> exact clean
  · simp [step, act, clean, top, alive] at taken

theorem Waiters.wakes {s : State α} {a : Action α} (waiters : s.Waiters) (joins : s.Joins a) :
    s.Wakes a where
  resumed f g rest result next top ends taken waits := by
    subst ends
    exact waiters.finish_wakes top taken waits
  waiting f g next taken intact waiting left := by
    have moved : (next.frames f).phase ≠ (s.frames f).phase := by
      rw [waiting]
      exact left
    rcases step_phase joins taken moved with ⟨rest, top⟩ | ⟨g', rest, result, top, ends, called⟩ |
      ⟨res, op, -, suspended⟩ | created
    · simp [waiters.stacked.top top] at waiting
    · have running := waiters.stacked.top top
      have waited := waiters.waits f g' (waiters.stacked.intact g' running) (by simp [running])
        called intact
      obtain rfl : g = g' := by simpa [waiting] using waited.2
      exact ⟨rest, result, top, ends⟩
    · simp [waiting] at suspended
    · simp [waiting] at created
  io f op next taken intact suspended left := by
    have moved : (next.frames f).phase ≠ (s.frames f).phase := by
      rw [suspended]
      exact left
    rcases step_phase joins taken moved with ⟨rest, top⟩ | ⟨g, rest, result, top, ends, called⟩ |
      ⟨res, op', completes, suspended'⟩ | created
    · simp [waiters.stacked.top top] at suspended
    · have running := waiters.stacked.top top
      have waited := waiters.waits f g (waiters.stacked.intact g running) (by simp [running])
        called intact
      exact absurd waited.2 (by simp [suspended])
    · obtain rfl : op = op' := by simpa [suspended] using suspended'
      exact ⟨res, completes⟩
    · simp [suspended] at created
  ready f rest kind t g next top awaits holds intact final taken := by
    subst awaits
    exact waiters.await_ready top holds intact final taken
  joined := waiters.unfinished

/--
If nobody starts a task twice, and a started one is only awaited when it is a daemon without a
waiter, then every task that ends wakes the coroutine that waits for it, with its result, and
nothing else wakes a suspended coroutine but the operation it waits for.
-/
theorem wakes_waiters {actions : List (Action α)}
    (joins : Always State.step Joins init actions) : Always State.step Wakes init actions := by
  have preserved : ∀ (s : State α) a next, s.Waiters ∧ s.Numbered → s.Joins a →
      s.step a = some next → next.Waiters ∧ next.Numbered := by
    rintro s a next ⟨waiters, numbered⟩ joins taken
    exact ⟨step_waiters waiters numbered joins taken,
      step_numbered numbered waiters.stacked taken⟩
  exact joins.of_invariant preserved (fun s a waiters joins => waiters.1.wakes joins)
    ⟨init_waiters, init_numbered⟩

end State

def joinedOnce : List (Action Unit) :=
  [.create none, .blockRun 0 0, .create (some 0), .launch 0 1, .io, .proceed, .await .lvalue 2,
    .proceed, .complete 0 0]

theorem wakes_waiters_once :
    ∃ next : State Unit, run State.step .init (joinedOnce ++ [.finish (some ())]) = some next ∧
      (next.frames 0).phase = .running ∧ (next.frames 0).received = some () := by
  have joins : Always State.step State.Joins (.init : State Unit)
      (joinedOnce ++ [.finish (some ())]) := by decide +kernel
  have ended : (run State.step (.init : State Unit) joinedOnce).map
      (fun s => ((s.step (.finish (some ()))).isSome, s.stack, decide (s.Waits 0 1))) =
        some (true, [.body (some 1), .loop 0, .body none], true) := by decide +kernel
  obtain ⟨s, reached, view⟩ := Option.map_eq_some_iff.mp ended
  simp only [Prod.mk.injEq, decide_eq_true_eq] at view
  obtain ⟨enabled, top, waits⟩ := view
  obtain ⟨next, taken⟩ := Option.isSome_iff_exists.mp enabled
  have wakes := always_iff.mp (State.wakes_waiters joins) joinedOnce _ [] rfl s reached
  exact ⟨next, run_snoc reached taken, (wakes.resumed 0 1 _ () next top rfl taken waits).2⟩

-- Two detached coroutines await a launched task before its operation completes.
def joinedTwice : List (Action Unit) :=
  [.create none, .blockRun 0 0, .create (some 0), .launch 0 1, .io, .proceed, .create (some 0),
    .launchDetached 0 3, .await .lvalue 2, .create (some 0), .launchDetached 0 4,
    .await .lvalue 2, .io, .proceed, .complete 0 0]

theorem second_waiter_displaces_first :
    ¬ ∀ actions : List (Action Unit), Always State.step State.Wakes .init actions := by
  intro claim
  have ended : (run State.step (.init : State Unit) joinedTwice).map
      (fun s => (s.stack, decide (s.Waits 2 1),
        (s.step (.finish (some ()))).map fun next => (next.frames 2).phase)) =
      some ([.body (some 1), .loop 0, .body none], true, some (.awaiting 1)) := by decide +kernel
  obtain ⟨s, reached, view⟩ := Option.map_eq_some_iff.mp ended
  simp only [Prod.mk.injEq, decide_eq_true_eq] at view
  obtain ⟨top, waits, left⟩ := view
  obtain ⟨next, taken, left⟩ := Option.map_eq_some_iff.mp left
  have wakes :=
    always_iff.mp (claim (joinedTwice ++ [.finish (some ())])) joinedTwice _ [] rfl s reached
  have running := (wakes.resumed 2 1 _ () next top rfl taken waits).2.1
  simp [left] at running

end KkProxy.Coro
