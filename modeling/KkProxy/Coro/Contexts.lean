import KkProxy.Coro.Roots

set_option autoImplicit false

namespace KkProxy.Coro

open Runs

structure ContextAwaiter where
  context : Option ContextId
deriving DecidableEq, Repr

namespace ContextAwaiter

variable {α : Type}

def awaitSuspend (_ : ContextAwaiter) (callee : Frame α) : ContextAwaiter :=
  { context := callee.context }

def awaitResume (awaiter : ContextAwaiter) : Option ContextId := awaiter.context

end ContextAwaiter

inductive Move (α : Type) where
  | act (a : Action α)
  | thisContext
  | submit

structure Thread (α : Type) where
  state : State α
  awaiter : ContextAwaiter
  -- What `co_await this_context` last yielded in a coroutine.
  yielded : Handle → Option ContextId

namespace Thread

variable {α : Type}

def init : Thread α :=
  { state := .init, awaiter := { context := none }, yielded := fun _ => none }

def getContext (w : Thread α) (f : Handle) : Thread α :=
  let awaiter := w.awaiter.awaitSuspend (w.state.frames f)
  { w with awaiter, yielded := Function.update w.yielded f awaiter.awaitResume }

def submit (w : Thread α) (f : Handle) : Thread α :=
  match w.yielded f with
  | some c => { w with state := w.state.submitTo c f }
  | none => { w with state := { w.state with fault := some .nullContext } }

def step (w : Thread α) : Move α → Option (Thread α)
  | .act a => (w.state.step a).map fun next => { w with state := next }
  | .thisContext =>
    match w.state.fault, w.state.stack with
    | none, .body (some f) :: _ => some (w.getContext f)
    | _, _ => none
  | .submit =>
    match w.state.fault, w.state.stack with
    | none, .body (some f) :: _ => some (w.submit f)
    | _, _ => none

end Thread

namespace State

variable {α : Type}

def Started (s : State α) (g : Handle) : Prop := (s.frames g).phase ≠ .created

instance (s : State α) (g : Handle) : Decidable (s.Started g) :=
  inferInstanceAs (Decidable ((s.frames g).phase ≠ .created))

-- The context of the root of a coroutine that a step resumes for the first time.
def origin (s : State α) (a : Action α) (home : Handle → Option ContextId) : Option ContextId :=
  match a, s.stack with
  | .launch c _, _ | .launchDetached c _, _ | .blockRun c _, _ => some c
  | .await _ _, .body (some f) :: _ => home f
  | _, _ => none

-- A coroutine that has been started is only started again, or awaited, in its own context.
def InContext (s : State α) (a : Action α) : Prop :=
  match s.stack, a with
  | .body _ :: _, .launch c t | .body _ :: _, .launchDetached c t | .body _ :: _, .blockRun c t =>
    ∀ g ∈ (s.tasks t).handle, s.Started g → (s.frames g).context = some c
  | .body (some f) :: _, .await _ t =>
    ∀ g ∈ (s.tasks t).handle, s.Started g → (s.frames g).phase ≠ .final →
      (s.frames g).context = (s.frames f).context
  | _, _ => True

theorem start_context (who : Option Handle) {s next : State α} {a : Action α} {c : ContextId}
    {t : TaskId} {g : Handle} {daemon : Bool} {below : List Activation}
    (taken : s.step a = some next) (clean : next.fault = none)
    (starts : Starts who c t g a daemon below) (holds : (s.tasks t).handle = some g) :
    (next.frames g).context = some c := by
  cases (step_effect taken).2 with
  | fault => cases clean
  | start a who' rest c' daemon' t' g' below' received top alive holds' starts' =>
    have same : c' = c ∧ t' = t := by cases starts <;> cases starts' <;> exact ⟨rfl, rfl⟩
    obtain ⟨rfl, rfl⟩ := same
    obtain rfl : g' = g := Option.some.inj (holds'.symm.trans holds)
    rw [run_context, starting_context, if_pos rfl]
  | _ => cases starts

theorem await_context {s next : State α} {f g : Handle} {rest : List Activation} {kind : AwaitKind}
    {t : TaskId} (taken : s.step (.await kind t) = some next) (clean : next.fault = none)
    (top : s.stack = .body (some f) :: rest) (holds : (s.tasks t).handle = some g)
    (unfinished : (s.frames g).phase ≠ .final) :
    (next.frames g).context = (s.frames f).context := by
  cases (step_effect taken).2 with
  | fault => cases clean
  | start _ _ _ _ _ _ _ _ _ _ _ _ starts => cases starts
  | awaitReady f' rest' kind t g' top' alive holds' intact finished =>
    obtain rfl : g' = g := Option.some.inj (holds'.symm.trans holds)
    exact absurd finished unfinished
  | awaitDaemon f' rest' kind t g' top' alive holds' =>
    obtain rfl : g' = g := Option.some.inj (holds'.symm.trans holds)
    obtain ⟨rfl, rfl⟩ : f' = f ∧ rest' = rest := by simpa [top] using top'.symm
    simp [suspendOn_context]
  | awaitStart f' rest' kind t g' received top' alive holds' =>
    obtain rfl : g' = g := Option.some.inj (holds'.symm.trans holds)
    obtain ⟨rfl, rfl⟩ : f' = f ∧ rest' = rest := by simpa [top] using top'.symm
    simp [suspendOn_context]

theorem step_context {s next : State α} {a : Action α} (taken : s.step a = some next)
    (inContext : next.fault = none → s.InContext a) {g : Handle} (started : s.Started g) :
    (next.frames g).context = (s.frames g).context := by
  rcases clean_or_fault taken with clean | ⟨fault, rfl⟩
  · have bound := inContext clean
    cases (step_effect taken).2 with
    | start a who rest c daemon t g' below received top alive holds starts =>
      rw [run_context, starting_context]
      split_ifs with same
      · subst same
        have own : ∀ g ∈ (s.tasks t).handle, s.Started g → (s.frames g).context = some c := by
          cases starts <;> simpa only [InContext, top] using bound
        exact (own g holds started).symm
      · rfl
    | awaitDaemon f rest kind t g' top alive holds intact unfinished =>
      rw [suspendOn_context, transform_frames]
      split_ifs with same
      · subst same
        simp only [InContext, top] at bound
        exact (bound g holds started unfinished).symm
      · rfl
    | awaitStart f rest kind t g' received top alive holds intact unfinished =>
      rw [run_context, suspendOn_context, transform_frames]
      split_ifs with same
      · subst same
        simp only [InContext, top] at bound
        exact (bound g holds started unfinished).symm
      · rfl
    | _ => simp
  · rfl

theorem step_starts {s next : State α} {a : Action α} (stacked : s.Stacked)
    (numbered : s.Numbered) {home : Handle → Option ContextId}
    (inherits : ∀ f rest, s.stack = .body (some f) :: rest →
      ∃ c, home f = some c ∧ (s.frames f).context = some c)
    (taken : s.step a = some next) {g : Handle} (created : ¬ s.Started g)
    (started : next.Started g) :
    ∃ c, s.origin a home = some c ∧ (next.frames g).context = some c := by
  cases step_promised stacked numbered taken g with
  | same caller flags context before => exact absurd (before started) created
  | started who c daemon t below starts holds caller flag context =>
    refine ⟨c, ?_, context⟩
    cases starts <;> rfl
  | awaited f rest kind t top awaits holds caller flags context =>
    obtain ⟨c, root, own⟩ := inherits f rest top
    refine ⟨c, ?_, context.trans own⟩
    simpa only [awaits, origin, top] using root

theorem submitTo_started {s : State α} {c : ContextId} {f g : Handle} (running : s.Started f) :
    (s.submitTo c f).Started g ↔ s.Started g := by
  unfold Started at *
  rw [submitTo_phase]
  split_ifs with same
  · simpa [same] using running
  · exact Iff.rfl

theorem Numbered.submitTo {s : State α} (numbered : s.Numbered) (c : ContextId) {f : Handle}
    (running : s.Started f) : (s.submitTo c f).Numbered where
  fresh h beyond := by
    have other : h ≠ f := Nat.ne_of_gt (Nat.lt_of_lt_of_le (numbered.started running) beyond)
    rw [submitTo_other other]
    exact numbered.fresh h beyond
  callers h g called := by
    rw [submitTo_caller] at called
    exact (submitTo_started running).mpr (numbered.callers h g called)
  handles := numbered.handles
  launching who g member := numbered.launching who g (List.mem_of_mem_tail member)
  unborn := numbered.unborn

theorem step_sentinel {s next : State α} {a : Action α} (taken : s.step a = some next)
    {c : ContextId} (more : (s.rings c).finished < (next.rings c).finished) :
    ∃ f rest, s.stack = .body (some f) :: rest ∧ (s.frames f).context = some c := by
  cases (step_effect taken).2 with
  | finishDestroy f rest result top =>
    refine ⟨f, rest, top, ?_⟩
    by_contra elsewhere
    simp [taskFinish_finished, elsewhere] at more
  | entered c' rest top | complete c' rest res op received top | stopTimedOut c' rest top =>
    exact absurd more (Nat.not_lt_of_le (Nat.le_of_eq (setRing_keeps Ring.finished (by rfl) c)))
  | stop c' rest top running posted =>
    rw [setRing_ring] at more
    split_ifs at more with same
    · exact absurd more (by simp [same])
    · exact absurd more (Nat.lt_irrefl _)
  | _ => simp at more

end State

namespace Thread

variable {α : Type}

-- For each coroutine, the context on which its root was started.
abbrev Homes := Handle → Option ContextId

def note (w : Thread α) (m : Move α) (next : Thread α) (home : Homes) : Homes := fun g =>
  if w.state.Started g ∨ ¬ next.state.Started g then home g
  else match m with
    | .act a => w.state.origin a home
    | _ => none

abbrev watched : Thread α × Homes → Move α → Option (Thread α × Homes) := watching step note

structure Keeps (w : Thread α) (m : Move α) (next : Thread α) (home : Homes) : Prop where
  contexts : ∀ g, next.state.Started g →
    ∃ c, home g = some c ∧ (next.state.frames g).context = some c
  unchanged : ∀ g, w.state.Started g →
    (next.state.frames g).context = (w.state.frames g).context
  yields : ∀ f rest, m = .thisContext → w.state.stack = .body (some f) :: rest →
    next.yielded f = home f
  operations : ∀ c, ∀ op ∈ (next.state.rings c).inflight, home op.frame = some c
  sentinels : ∀ c, (w.state.rings c).finished < (next.state.rings c).finished →
    ∃ f rest, w.state.stack = .body (some f) :: rest ∧ home f = some c

def KeepsContexts (w : Thread α × Homes) (m : Move α) : Prop :=
  ∀ next, watched w m = some next → Keeps w.1 m next.1 next.2

def SameContexts (w : Thread α × Homes) : Move α → Prop
  | .act a => ∀ next, w.1.state.step a = some next → next.fault = none → w.1.state.InContext a
  | _ => True

structure Placed (w : Thread α) (home : Homes) : Prop where
  stacked : w.state.Stacked
  numbered : w.state.Numbered
  contexts : ∀ g, w.state.Started g →
    ∃ c, home g = some c ∧ (w.state.frames g).context = some c
  yielded : ∀ f c, w.yielded f = some c → w.state.Started f ∧ home f = some c
  operations : ∀ c, ∀ op ∈ (w.state.rings c).inflight,
    w.state.Started op.frame ∧ home op.frame = some c

theorem Placed.running {w : Thread α} {home : Homes} (placed : w.Placed home) {f : Handle}
    {rest : List Activation} (top : w.state.stack = .body (some f) :: rest) : w.state.Started f := by
  simp [State.Started, placed.stacked.top top]

theorem Placed.inherits {w : Thread α} {home : Homes} (placed : w.Placed home) (f : Handle)
    (rest : List Activation) (top : w.state.stack = .body (some f) :: rest) :
    ∃ c, home f = some c ∧ (w.state.frames f).context = some c :=
  placed.contexts f (placed.running top)

theorem note_started {w next : Thread α} {m : Move α} {home : Homes} {g : Handle}
    (started : w.state.Started g) : note w m next home g = home g := if_pos (.inl started)

theorem Placed.act {w : Thread α} {home : Homes} (placed : w.Placed home) {a : Action α}
    {s : State α} (taken : w.state.step a = some s)
    (inContext : s.fault = none → w.state.InContext a) :
    let next := { w with state := s }
    Keeps w (.act a) next (note w (.act a) next home) ∧
      next.Placed (note w (.act a) next home) := by
  intro next
  have moves {g : Handle} (started : w.state.Started g) : s.Started g :=
    State.step_keeps_started taken started
  have kept {g : Handle} (started : w.state.Started g) :
      note w (.act a) next home g = home g := note_started started
  have contexts (g : Handle) (started : s.Started g) :
      ∃ c, note w (.act a) next home g = some c ∧ (s.frames g).context = some c := by
    by_cases old : w.state.Started g
    · rw [kept old, State.step_context taken inContext old]
      exact placed.contexts g old
    · have new : note w (.act a) next home g = w.state.origin a home :=
        if_neg (not_or.mpr ⟨old, not_not.mpr started⟩)
      rw [new]
      exact State.step_starts placed.stacked placed.numbered placed.inherits taken old started
  have operations (c : ContextId) (op : Op) (waiting : op ∈ (s.rings c).inflight) :
      w.state.Started op.frame ∧ home op.frame = some c := by
    rcases State.step_inflight taken waiting with old | ⟨rest, -, top, context⟩
    · exact placed.operations c op old
    · obtain ⟨c', root, context'⟩ := placed.inherits op.frame rest top
      obtain rfl : c' = c := Option.some.inj (context'.symm.trans context)
      exact ⟨placed.running top, root⟩
  constructor
  · refine ⟨contexts, fun g started => State.step_context taken inContext started, ?_,
      fun c op waiting => ?_, fun c more => ?_⟩
    · rintro _ _ ⟨⟩
    · obtain ⟨started, root⟩ := operations c op waiting
      rw [kept started, root]
    · obtain ⟨f, rest, top, context⟩ := State.step_sentinel taken more
      obtain ⟨c', root, context'⟩ := placed.inherits f rest top
      refine ⟨f, rest, top, ?_⟩
      rw [kept (placed.running top), root, ← context', context]
  · refine ⟨State.step_stacked placed.stacked taken,
      State.step_numbered placed.numbered placed.stacked taken, contexts,
      fun f c got => ?_, fun c op waiting => ?_⟩
    · obtain ⟨started, root⟩ := placed.yielded f c got
      exact ⟨moves started, (kept started).trans root⟩
    · obtain ⟨started, root⟩ := operations c op waiting
      exact ⟨moves started, (kept started).trans root⟩

theorem Placed.thisContext {w : Thread α} {home : Homes} (placed : w.Placed home) {f : Handle}
    {rest : List Activation} (top : w.state.stack = .body (some f) :: rest) :
    Keeps w .thisContext (w.getContext f) home ∧ (w.getContext f).Placed home := by
  obtain ⟨c, root, context⟩ := placed.inherits f rest top
  have yields : (w.getContext f).yielded f = home f := by
    simp [getContext, ContextAwaiter.awaitSuspend, ContextAwaiter.awaitResume, context, root]
  constructor
  · refine ⟨placed.contexts, fun _ _ => rfl, fun f' rest' _ top' => ?_,
      fun c op waiting => (placed.operations c op waiting).2,
      fun c more => absurd more (Nat.lt_irrefl _)⟩
    obtain ⟨rfl, rfl⟩ : f = f' ∧ rest = rest' := by simpa [top] using top'
    exact yields
  · refine ⟨placed.stacked, placed.numbered, placed.contexts, fun f' c' got => ?_,
      placed.operations⟩
    by_cases same : f' = f
    · subst same
      exact ⟨placed.running top, yields.symm.trans got⟩
    · exact placed.yielded f' c' (by simpa [getContext, same] using got)

theorem Placed.submit {w : Thread α} {home : Homes} (placed : w.Placed home) {f : Handle}
    {rest : List Activation} (top : w.state.stack = .body (some f) :: rest) :
    Keeps w .submit (w.submit f) home ∧ (w.submit f).Placed home ∧
      ∀ g, (w.submit f).state.Started g → w.state.Started g := by
  have running := placed.running top
  unfold Thread.submit
  split
  · next c got =>
    have operations (c' : ContextId) (op : Op)
        (waiting : op ∈ ((w.state.submitTo c f).rings c').inflight) :
        w.state.Started op.frame ∧ home op.frame = some c' := by
      rw [State.submitTo_inflight] at waiting
      split_ifs at waiting with same
      · rcases List.mem_append.mp waiting with old | new
        · exact same ▸ placed.operations c op old
        · obtain rfl := List.mem_singleton.mp new
          exact same ▸ placed.yielded f c got
      · exact placed.operations c' op waiting
    have contexts (g : Handle) (started : (w.state.submitTo c f).Started g) :
        ∃ c', home g = some c' ∧ ((w.state.submitTo c f).frames g).context = some c' := by
      rw [State.submitTo_context]
      exact placed.contexts g ((State.submitTo_started running).mp started)
    refine ⟨⟨contexts, by simp, by rintro _ _ ⟨⟩, fun c' op waiting => (operations c' op waiting).2,
      fun c' more => ?_⟩, ⟨?_, placed.numbered.submitTo c running, contexts, fun f' c' got' => ?_,
      fun c' op waiting => ?_⟩, fun g => (State.submitTo_started running).mp⟩
    · simp at more
    · refine placed.stacked.leave top (by simp [top]) (by simp [State.submitTo_phase])
        (fun h other => ?_) (by simp)
      rw [State.submitTo_phase, if_neg other]
    · obtain ⟨started, root⟩ := placed.yielded f' c' got'
      exact ⟨(State.submitTo_started running).mpr started, root⟩
    · obtain ⟨started, root⟩ := operations c' op waiting
      exact ⟨(State.submitTo_started running).mpr started, root⟩
  · refine ⟨⟨placed.contexts, fun _ _ => rfl, by rintro _ _ ⟨⟩,
      fun c op waiting => (placed.operations c op waiting).2,
      fun c more => absurd more (Nat.lt_irrefl _)⟩, ⟨?_, ?_, placed.contexts,
      placed.yielded, placed.operations⟩, fun _ => id⟩
    · exact placed.stacked.of_same rfl (fun _ => rfl) (fun _ => rfl)
    · exact ⟨placed.numbered.fresh, placed.numbered.callers, placed.numbered.handles,
        placed.numbered.launching, placed.numbered.unborn⟩

theorem note_same {w next : Thread α} {m : Move α} {home : Homes}
    (same : ∀ g, next.state.Started g → w.state.Started g) : note w m next home = home := by
  funext g
  refine if_pos ?_
  by_cases started : w.state.Started g
  · exact .inl started
  · exact .inr (mt (same g) started)

theorem Placed.move {w next : Thread α × Homes} {m : Move α} (placed : w.1.Placed w.2)
    (same : SameContexts w m) (taken : watched w m = some next) :
    Keeps w.1 m next.1 next.2 ∧ next.1.Placed next.2 := by
  obtain ⟨t, moved, rfl⟩ := watching_some taken
  unfold Thread.step at moved
  split at moved
  · next a =>
    obtain ⟨s, acted, rfl⟩ := Option.map_eq_some_iff.mp moved
    exact placed.act acted (same s acted)
  · split at moved
    · next f rest clean top =>
      obtain rfl := Option.some.inj moved
      have kept : note w.1 .thisContext (w.1.getContext f) w.2 = w.2 := note_same fun _ => id
      rw [kept]
      exact placed.thisContext top
    · cases moved
  · split at moved
    · next f rest clean top =>
      obtain rfl := Option.some.inj moved
      obtain ⟨keeps, placed, started⟩ := placed.submit top
      have kept : note w.1 .submit (w.1.submit f) w.2 = w.2 := note_same started
      rw [kept]
      exact ⟨keeps, placed⟩
    · cases moved

theorem KeepsContexts.same {w : Thread α × Homes} {m : Move α} (keeps : KeepsContexts w m) :
    SameContexts w m := by
  cases m with
  | act a =>
    intro s taken clean
    have moved : watched w (.act a) = some ({ w.1 with state := s },
        note w.1 (.act a) { w.1 with state := s } w.2) := by
      simp [watched, watching, Thread.step, taken]
    have unchanged := (keeps _ moved).unchanged
    have started (who : Option Handle) {c : ContextId} {t : TaskId} {g : Handle} {daemon : Bool}
        {below : List Activation} (starts : State.Starts who c t g a daemon below)
        (holds : (w.1.state.tasks t).handle = some g) (started : w.1.state.Started g) :
        (w.1.state.frames g).context = some c :=
      (unchanged g started).symm.trans (State.start_context who taken clean starts holds)
    unfold State.InContext
    split
    · next who rest c t top => exact fun g holds => started who .launch holds
    · next who rest c t top => exact fun g holds => started who .launchDetached holds
    · next who rest c t top => exact fun g holds => started who .blockRun holds
    · next f rest kind t top =>
      intro g holds started unfinished
      rw [← unchanged g started]
      exact State.await_context taken clean top holds unfinished
    · trivial
  | thisContext | submit => trivial

end Thread

end KkProxy.Coro
