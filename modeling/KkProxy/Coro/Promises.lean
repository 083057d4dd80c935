import KkProxy.Coro.Changes

set_option autoImplicit false

namespace KkProxy.Coro

open Runs

namespace State

variable {α : Type}

/-- In `u`, which the step passes through, `await_resume` reads the promise of `callee_`. -/
inductive Reads (s : State α) : Action α → Option Handle → State α → Prop where
  -- `done` of a frame that is gone may say anything.
  | ready (f : Handle) (rest : List Activation) (kind : AwaitKind) (t : TaskId)
    (top : s.stack = .body (some f) :: rest) (alive : (s.tasks t).alive = true)
    (done : ∀ g ∈ (s.tasks t).handle,
      (s.frames g).destroyed = true ∨ (s.frames g).phase = .final) :
    Reads s (.await kind t) (s.tasks t).handle s
  | resumed (a : Action α) (f callee : Handle) (u : State α) (resuming : s.Resuming a f u)
    (intact : (u.frames f).destroyed = false) (waits : (u.frames f).phase = .awaiting callee) :
    Reads s a (some callee) u

-- The frame is there, at its final suspend and with a value or an exception.
def Ended (s : State α) (g : Handle) : Prop :=
  (s.frames g).destroyed = false ∧ (s.frames g).phase = .final ∧
    (s.frames g).result.isSome = true

theorem starting_ended {s : State α} {c : ContextId} {daemon : Bool} {t : TaskId} {g callee : Handle}
    {below : List Activation} : (s.starting c daemon t g below).Ended callee ↔ s.Ended callee := by
  simp [Ended, starting_phase]

theorem suspendOn_ended {s : State α} {kind : AwaitKind} {t : TaskId} {f g callee : Handle} :
    ((s.transform kind t).suspendOn f g).Ended callee ↔ callee ≠ f ∧ s.Ended callee := by
  by_cases own : callee = f
  · simp [Ended, suspendOn_phase, own]
  · simp [Ended, suspendOn_phase, own]

def HasPromise (s : State α) (callee : Option Handle) : Prop :=
  ∃ g, callee = some g ∧ s.Ended g

def ReadsPromises (s : State α) (a : Action α) : Prop :=
  s.fault = none → ∀ callee u, s.Reads a callee u → u.HasPromise callee

-- What the coroutine waits for, if it is a task, has ended.
def Resumable (s : State α) (g : Handle) : Prop :=
  ∀ callee, (s.frames g).phase = .awaiting callee → s.Ended callee

/--
The task of a `co_await` has a frame; if that is suspended at a `co_await` itself, it is only
started or awaited, other than as a daemon, once the task it waits for has ended; and a coroutine
that is awaited has set `value_` or `ex_` by its end.
-/
def Awaitable (s : State α) (a : Action α) : Prop :=
  s.fault = none →
    match s.stack, a with
    | .body _ :: _, .launch _ t | .body _ :: _, .launchDetached _ t | .body _ :: _, .blockRun _ t =>
      (s.tasks t).alive = true → ∀ g ∈ (s.tasks t).handle, (s.frames g).destroyed = false →
        s.Resumable g
    | .body (some f) :: _, .await _ t =>
      (s.tasks t).alive = true → ∃ g, (s.tasks t).handle = some g ∧
        (s.frames g).destroyed = false ∧
          ((s.frames g).phase = .final → (s.frames g).result.isSome = true) ∧
            ((s.frames g).phase ≠ .final → (s.frames g).flags.isDaemon = false →
              g ≠ f ∧ s.Resumable g)
    | .body (some f) :: _, .finish result =>
      ∀ g, (s.frames f).caller = some g → (s.frames g).destroyed = false → result.isSome = true
    | _, _ => True

structure Awaited (s : State α) : Prop where
  stacked : s.Stacked
  caller : ∀ g f, (s.frames g).phase ≠ .final → (s.frames g).caller = some f →
    (s.frames f).phase = .awaiting g

theorem HasPromise.ended {s : State α} {g : Handle} (promised : s.HasPromise (some g)) :
    s.Ended g := by
  obtain ⟨g', ⟨⟩, ended⟩ := promised
  exact ended

theorem Awaitable.start {s : State α} {a : Action α} (awaitable : s.Awaitable a)
    (clean : s.fault = none) {who : Option Handle} {rest : List Activation} {c : ContextId}
    {daemon : Bool} {t : TaskId} {g : Handle} {below : List Activation}
    (top : s.stack = .body who :: rest) (alive : (s.tasks t).alive = true)
    (holds : (s.tasks t).handle = some g) (intact : (s.frames g).destroyed = false)
    (starts : Starts who c t g a daemon below) : s.Resumable g := by
  have allowed := awaitable clean
  cases starts <;>
    (simp only [top] at allowed
     exact allowed alive g holds intact)

theorem Awaitable.await {s : State α} {kind : AwaitKind} {t : TaskId}
    (awaitable : s.Awaitable (.await kind t)) (clean : s.fault = none) {f : Handle}
    {rest : List Activation} (top : s.stack = .body (some f) :: rest)
    (alive : (s.tasks t).alive = true) : ∃ g, (s.tasks t).handle = some g ∧
      (s.frames g).destroyed = false ∧
        ((s.frames g).phase = .final → (s.frames g).result.isSome = true) ∧
          ((s.frames g).phase ≠ .final → (s.frames g).flags.isDaemon = false →
            g ≠ f ∧ s.Resumable g) := by
  have allowed := awaitable clean
  simp only [top] at allowed
  exact allowed alive

theorem Awaitable.awaitStart {s : State α} {kind : AwaitKind} {t : TaskId}
    (awaitable : s.Awaitable (.await kind t)) (clean : s.fault = none) {f g : Handle}
    {rest : List Activation} (top : s.stack = .body (some f) :: rest)
    (alive : (s.tasks t).alive = true) (holds : (s.tasks t).handle = some g)
    (unfinished : (s.frames g).phase ≠ .final) (plain : (s.frames g).flags.isDaemon = false) :
    g ≠ f ∧ s.Resumable g := by
  obtain ⟨g', holds', -, -, idle⟩ := awaitable.await clean top alive
  obtain rfl : g = g' := Option.some.inj (holds.symm.trans holds')
  exact idle unfinished plain

theorem Awaited.reads {s : State α} {a : Action α} (awaited : s.Awaited)
    (awaitable : s.Awaitable a) : s.ReadsPromises a := by
  intro clean callee u reads
  cases reads with
  | ready f rest kind t top alive done =>
    obtain ⟨g, holds, intact, left, -⟩ := awaitable.await clean top alive
    have final := (done g holds).resolve_left (by simp [intact])
    exact ⟨g, holds, intact, final, left final⟩
  | resumed a g callee u resuming intact waits =>
    cases resuming with
    | start a who rest c daemon t g below top alive holds intact' starts =>
      rw [starting_phase] at waits
      have ended := awaitable.start clean top alive holds intact' starts callee waits
      exact ⟨callee, rfl, starting_ended.mpr ended⟩
    | await f rest kind t g top alive holds intact' unfinished plain =>
      obtain ⟨other, resumable⟩ := awaitable.awaitStart clean top alive holds unfinished plain
      rw [suspendOn_phase, if_neg other, transform_frames] at waits
      have ended := resumable callee waits
      have idle : callee ≠ f := by
        rintro rfl
        exact absurd ended.2.1 (by simp [awaited.stacked.top top])
      exact ⟨callee, rfl, suspendOn_ended.mpr ⟨idle, ended⟩⟩
    | finish f rest result caller top called =>
      have running := awaited.stacked.top top
      have waiting := awaited.caller f g (by simp [running]) called
      have other : g ≠ f := by
        rintro rfl
        simp [running] at waiting
      rw [conclude_phase, if_neg other, waiting] at waits
      obtain rfl : f = callee := by simpa using waits
      rw [conclude_destroyed] at intact
      have left := awaitable clean
      simp only [top] at left
      refine ⟨f, rfl, ?_, by simp [conclude_phase], by simpa using left g called intact⟩
      rw [conclude_destroyed]
      exact awaited.stacked.intact f running

theorem ReadsPromises.awaitable {s : State α} {a : Action α} (awaited : s.Awaited)
    (reads : s.ReadsPromises a) : s.Awaitable a := by
  intro clean
  have read := reads clean
  have started {who : Option Handle} {rest : List Activation} {c : ContextId} {daemon : Bool}
      {t : TaskId} {below : Handle → List Activation} (top : s.stack = .body who :: rest)
      (starts : ∀ g, Starts who c t g a daemon (below g)) (alive : (s.tasks t).alive = true)
      (g : Handle) (holds : (s.tasks t).handle = some g) (intact : (s.frames g).destroyed = false) :
      s.Resumable g := by
    intro callee waits
    have resuming := Resuming.start a who rest c daemon t g (below g) top alive holds intact (starts g)
    have promised := read _ _ (.resumed a g callee _ resuming (by simpa using intact)
      (by rw [starting_phase, waits]))
    exact starting_ended.mp promised.ended
  split
  · next who rest c t top => exact fun alive g => started top (fun _ => .launch) alive g
  · next who rest c t top => exact fun alive g => started top (fun _ => .launchDetached) alive g
  · next who rest c t top => exact fun alive g => started top (fun _ => .blockRun) alive g
  · next f rest kind t top =>
    intro alive
    cases holds : (s.tasks t).handle with
    | none =>
      obtain ⟨g, same, -⟩ := read _ _ (.ready f rest kind t top alive (by simp [holds]))
      simp [holds] at same
    | some g =>
      have intact : (s.frames g).destroyed = false := by
        by_contra gone
        have promised := read _ _ (.ready f rest kind t top alive (by simp_all))
        rw [holds] at promised
        exact gone promised.ended.1
      refine ⟨g, rfl, intact, fun final => ?_, fun unfinished plain => ?_⟩
      · have promised := read _ _ (.ready f rest kind t top alive (by simp [holds, final]))
        rw [holds] at promised
        exact promised.ended.2.2
      have resuming := Resuming.await f rest kind t g top alive holds intact unfinished plain
      have ended (callee : Handle)
          (waits : (((s.transform kind t).suspendOn f g).frames g).phase = .awaiting callee) :
          ((s.transform kind t).suspendOn f g).Ended callee :=
        (read _ _ (.resumed _ g callee _ resuming (by simpa using intact) waits)).ended
      have other : g ≠ f := by
        rintro rfl
        exact (suspendOn_ended.mp (ended g (by simp [suspendOn_phase]))).1 rfl
      refine ⟨other, fun callee waits => ?_⟩
      have waits' : (((s.transform kind t).suspendOn f g).frames g).phase = .awaiting callee := by
        rw [suspendOn_phase, if_neg other, transform_frames, waits]
      exact (suspendOn_ended.mp (ended callee waits')).2
  · next f rest result top =>
    intro g called intact
    have running := awaited.stacked.top top
    have waiting := awaited.caller f g (by simp [running]) called
    have other : g ≠ f := by
      rintro rfl
      simp [running] at waiting
    have waits : ((s.conclude f result).frames g).phase = .awaiting f := by
      rw [conclude_phase, if_neg other, waiting]
    have resuming := Resuming.finish f rest result g top called
    simpa using (read _ _ (.resumed _ g f _ resuming (by simpa using intact) waits)).ended.2.2
  · trivial

end State

end KkProxy.Coro
