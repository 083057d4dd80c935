import KkProxy.Coro.Roots

set_option autoImplicit false

namespace KkProxy.Coro

open Runs

-- The calls of `block_run` in progress, and the code outside all coroutines.
def hosts : List Activation → List Activation
  | [] => []
  | .body none :: rest => .body none :: hosts rest
  | .entering c :: rest => .entering c :: hosts rest
  | .loop c :: rest => .loop c :: hosts rest
  | _ :: rest => hosts rest

section Hosts

variable (rest : List Activation) (f g : Handle) (who : Option Handle) (c : ContextId)
variable (tasks : List TaskId) (pending : Option (TaskId × TaskId))

@[simp] theorem hosts_outside : hosts (.body none :: rest) = .body none :: hosts rest := rfl
@[simp] theorem hosts_body : hosts (.body (some f) :: rest) = hosts rest := rfl
@[simp] theorem hosts_launching : hosts (.launching who g :: rest) = hosts rest := rfl
@[simp] theorem hosts_entering : hosts (.entering c :: rest) = .entering c :: hosts rest := rfl
@[simp] theorem hosts_loop : hosts (.loop c :: rest) = .loop c :: hosts rest := rfl
@[simp] theorem hosts_unwinding : hosts (.unwinding tasks pending :: rest) = hosts rest := rfl

end Hosts

theorem hosts_head {stack : List Activation} (outside : stack.head? = some (.body none)) :
    ∃ rest, hosts stack = .body none :: rest := by
  cases stack with
  | nil => simp at outside
  | cons top rest =>
    obtain rfl : top = .body none := by simpa using outside
    exact ⟨hosts rest, rfl⟩

namespace State

variable {α : Type}

inductive Hosted (c : ContextId) (s next : State α) (a : Action α) : Prop where
  | quiet (calls : ∀ c' t, a = .blockRun c' t → next.fault ≠ none)
    (hosts : hosts next.stack = hosts s.stack)
    (finished : (next.rings c).finished = (s.rings c).finished)
    (running : (next.rings c).running = (s.rings c).running)
  | called (c' : ContextId) (t : TaskId) (g : Handle) (calls : a = .blockRun c' t)
    (holds : (s.tasks t).handle = some g) (clean : next.fault = none)
    (running : (next.frames g).phase = .running)
    (caller : (next.frames g).caller = (s.frames g).caller)
    (plain : (next.frames g).flags.isDaemon = false)
    (context : (next.frames g).context = some c')
    (hosts : hosts next.stack = .entering c' :: hosts s.stack)
    (rings : next.rings c = s.rings c)
  | posted (f : Handle) (rest : List Activation) (result : Option α)
    (top : s.stack = .body (some f) :: rest) (ends : a = .finish result)
    (uncalled : (s.frames f).caller = none) (plain : (s.frames f).flags.isDaemon = false)
    (final : (next.frames f).phase = .final) (hosts : hosts next.stack = hosts s.stack)
    (finished : (next.rings c).finished =
      (s.rings c).finished + if (s.frames f).context = some c then 1 else 0)
    (running : (next.rings c).running = (s.rings c).running)
  | entered (c' : ContextId) (rest : List Activation) (top : s.stack = .entering c' :: rest)
    (proceeds : a = .proceed) (hosts : hosts next.stack = .loop c' :: hosts rest)
    (finished : (next.rings c).finished = (s.rings c).finished)
    (running : c' = c → (next.rings c).running = true)
  | left (c' : ContextId) (rest : List Activation) (top : s.stack = .loop c' :: rest)
    (proceeds : a = .proceed) (stopped : (s.rings c').running = false)
    (hosts : hosts next.stack = hosts rest) (rings : next.rings c = s.rings c)
  | stopped (c' : ContextId) (rest : List Activation) (top : s.stack = .loop c' :: rest)
    (stops : a = .stop 0) (running : (s.rings c').running = true)
    (posted : 0 < (s.rings c').finished) (hosts : hosts next.stack = hosts s.stack)
    (consumed : c' = c → (next.rings c).finished = (s.rings c).finished - 1 ∧
      (next.rings c).running = false)

theorem step_hosted {s next : State α} {a : Action α} (answered : a.sentinelOnSuccess = true)
    (taken : s.step a = some next) (c : ContextId) : Hosted c s next a := by
  have clean := (step_effect taken).1
  cases (step_effect taken).2 with
  | fault => exact .quiet (by simp) rfl rfl rfl
  | start a who rest c' daemon t g below received top alive holds starts =>
    cases starts with
    | launch | launchDetached => exact .quiet (by simp) rfl rfl rfl
    | blockRun =>
      exact .called c' t g rfl holds clean (by simp [run_phase]) (by simp) (by simp [starting_daemon])
        (by simp [starting_context]) rfl rfl
  | awaitDaemon f rest kind t g top | awaitStart f rest kind t g received top
  | submit f rest c' top =>
    exact .quiet (by simp) (by simp [top]) (by simp) (by simp)
  | finishCaller f rest result caller received top | finishDaemon f rest result top =>
    exact .quiet (by simp) (by simp [top]) (by simp) (by simp)
  | finishDestroy f rest result top uncalled plain =>
    exact .posted f rest result top rfl uncalled plain (by simp [conclude_phase]) (by simp [top])
      (by simp [taskFinish_finished]) (by simp)
  | unwindDead t tasks pending rest top | unwindEmpty t tasks pending rest top
  | unwind t tasks pending rest g top =>
    exact .quiet (by simp) (by simp [top]) rfl rfl
  | unwound rest top | assigned dst src rest top | launched who g rest top =>
    exact .quiet (by simp) (by simp [top]) rfl rfl
  | entered c' rest top =>
    refine .entered c' rest top rfl rfl (setRing_keeps Ring.finished (by rfl) c) fun same => ?_
    simp [same, setRing_ring]
  | left c' rest top stopped => exact .left c' rest top rfl stopped rfl rfl
  | complete c' rest res op received top =>
    exact .quiet (by simp) (by simp) (setRing_keeps Ring.finished (by rfl) c)
      (setRing_keeps Ring.running (by rfl) c)
  | stop c' rest top running posted =>
    refine .stopped c' rest top rfl running posted rfl fun same => ?_
    simp [setRing_ring, same]
  | stopTimedOut => cases answered
  | _ => exact .quiet (by simp) (by simp) (by simp) (by simp)

/-- `block_run` is only called outside all coroutines, on this context and a task nobody awaits. -/
def CallsOutside (c : ContextId) (s : State α) : Action α → Prop
  | .blockRun c' t => c' = c ∧ s.stack.head? = some (.body none) ∧
      ∀ g ∈ (s.tasks t).handle, (s.frames g).caller = none
  | _ => True

instance (c : ContextId) (s : State α) : DecidablePred (s.CallsOutside c)
  | .blockRun c' t => inferInstanceAs (Decidable (c' = c ∧ s.stack.head? = some (.body none) ∧
      ∀ g ∈ (s.tasks t).handle, (s.frames g).caller = none))
  | .create _ | .move _ _ | .assign _ _ | .drop _ | .launch _ _ | .launchDetached _ _
  | .await _ _ | .io | .finish _ | .proceed | .complete _ _ | .stop _ | .waitError _ =>
    .isTrue trivial

def begun (s next : State α) : Action α → Option Handle
  | .blockRun _ t => if next.fault.isNone then (s.tasks t).handle else none
  | _ => none

theorem begun_none {s next : State α} {a : Action α}
    (calls : ∀ c t, a = .blockRun c t → next.fault ≠ none) : s.begun next a = none := by
  cases a with
  | blockRun c t => simp [begun, calls c t rfl]
  | _ => rfl

end State

/-- A state with what has happened so far to the sentinels of one context. -/
structure Watch (α : Type) where
  state : State α
  root : Option Handle
  calls : Nat
  posted : Nat

namespace Watch

variable {α : Type} {c : ContextId}

def init : Watch α := { state := .init, root := none, calls := 0, posted := 0 }

def step (c : ContextId) (w : Watch α) (a : Action α) : Option (Watch α) :=
  (w.state.step a).map fun next =>
    { state := next
      root := (w.state.begun next a).or w.root
      calls := w.calls + if (w.state.begun next a).isSome then 1 else 0
      posted := w.posted + ((next.rings c).finished - (w.state.rings c).finished) }

-- The call of `block_run` in progress goes on, and no sentinel has stopped its loop.
def Inside (c : ContextId) (s : State α) : Prop :=
  ∃ host, hosts s.stack = [host, .body none] ∧
    (host = .entering c ∨ host = .loop c ∧ (s.rings c).running = true)

inductive Stage (c : ContextId) (w : Watch α) : Prop where
  | outside (hosts : hosts w.state.stack = [.body none])
    (ended : ∀ g, w.root = some g → (w.state.frames g).phase = .final)
    (consumed : (w.state.rings c).finished = 0) (posted : w.posted = w.calls)
  | running (inside : Inside c w.state) (g : Handle) (current : w.root = some g)
    (root : w.state.Root g) (context : (w.state.frames g).context = some c)
    (empty : (w.state.rings c).finished = 0) (posted : w.posted + 1 = w.calls)
  | ended (inside : Inside c w.state) (g : Handle) (current : w.root = some g)
    (final : (w.state.frames g).phase = .final) (sentinel : (w.state.rings c).finished = 1)
    (posted : w.posted = w.calls)
  | stopped (hosts : hosts w.state.stack = [.loop c, .body none])
    (stopped : (w.state.rings c).running = false) (g : Handle) (current : w.root = some g)
    (final : (w.state.frames g).phase = .final) (consumed : (w.state.rings c).finished = 0)
    (posted : w.posted = w.calls)

structure Sound (c : ContextId) (w : Watch α) : Prop where
  rooted : w.state.Rooted
  roots : ∀ g, w.state.Root g → w.root = some g
  stage : w.Stage c

theorem init_sound : (init : Watch α).Sound c where
  rooted := State.init_rooted
  roots g root := absurd rfl root.1
  stage := .outside rfl (by simp [init]) rfl rfl

theorem Inside.not_outside {s : State α} (inside : Inside c s) :
    s.stack.head? ≠ some (.body none) := by
  obtain ⟨host, inside, kind⟩ := inside
  intro outside
  obtain ⟨rest, outside⟩ := hosts_head outside
  obtain rfl : Activation.body none = host := (List.cons.inj (outside.symm.trans inside)).1
  simp at kind

theorem Inside.step {s next : State α} {a : Action α} (inside : Inside c s)
    (outside : s.CallsOutside c a) (hosted : State.Hosted c s next a) :
    (Inside c next ∧ (next.rings c).finished = (s.rings c).finished ∧
        s.begun next a = none) ∨
      (∃ f rest result, s.stack = .body (some f) :: rest ∧ a = .finish result ∧
        (s.frames f).caller = none ∧ (s.frames f).flags.isDaemon = false ∧
          (next.frames f).phase = .final ∧ Inside c next ∧ (next.rings c).finished =
            (s.rings c).finished + if (s.frames f).context = some c then 1 else 0) ∨
      (a = .stop 0 ∧ 0 < (s.rings c).finished ∧ hosts next.stack = [.loop c, .body none] ∧
        (next.rings c).finished = (s.rings c).finished - 1 ∧ (next.rings c).running = false) := by
  have not_outside := inside.not_outside
  obtain ⟨host, inside, kind⟩ := inside
  cases hosted with
  | quiet calls hosts finished running =>
    exact .inl ⟨⟨host, hosts.trans inside, running ▸ kind⟩, finished, State.begun_none calls⟩
  | called c' t g calls =>
    subst calls
    exact absurd outside.2.1 not_outside
  | posted f rest result top ends uncalled plain final hosts finished running =>
    exact .inr (.inl ⟨f, rest, result, top, ends, uncalled, plain, final,
      ⟨host, hosts.trans inside, running ▸ kind⟩, finished⟩)
  | entered c' rest top proceeds hosts finished running =>
    rw [top, hosts_entering] at inside
    obtain ⟨rfl, below⟩ := List.cons.inj inside
    obtain rfl : c' = c := by simpa using kind
    exact .inl ⟨⟨.loop c', by rw [hosts, below], .inr ⟨rfl, running rfl⟩⟩, finished,
      by rw [proceeds]; rfl⟩
  | left c' rest top proceeds stopped =>
    rw [top, hosts_loop] at inside
    obtain ⟨rfl, below⟩ := List.cons.inj inside
    obtain ⟨rfl, running⟩ : c' = c ∧ (s.rings c).running = true := by simpa using kind
    simp [stopped] at running
  | stopped c' rest top stops running posted hosts consumed =>
    rw [top, hosts_loop] at inside
    obtain ⟨rfl, below⟩ := List.cons.inj inside
    obtain ⟨rfl, -⟩ : c' = c ∧ (s.rings c).running = true := by simpa using kind
    exact .inr (.inr ⟨stops, posted, by rw [hosts, top, hosts_loop, below], consumed rfl⟩)

theorem root_stays {s next : State α} {a : Action α} (rooted : s.Rooted)
    (taken : s.step a = some next) {g : Handle} (root : s.Root g) :
    (next.frames g).phase = .final ∨
      next.Root g ∧ (next.frames g).context = (s.frames g).context := by
  have unheld := rooted.unheld g root
  obtain ⟨started, -, uncalled, plain⟩ := root
  by_cases final : (next.frames g).phase = .final
  · exact .inl final
  · obtain ⟨caller, flags, context⟩ :=
      (State.step_promised rooted.formed.stacked rooted.formed.numbered taken g).unheld unheld
    exact .inr ⟨⟨State.step_keeps_started taken started, final, caller ▸ uncalled, flags ▸ plain⟩,
      context⟩

theorem root_posts {s next : State α} {a : Action α} (taken : s.step a = some next) {g : Handle}
    (root : s.Root g) (final : (next.frames g).phase = .final) : (next.rings c).finished =
      (s.rings c).finished + if (s.frames g).context = some c then 1 else 0 := by
  obtain ⟨-, unfinished, uncalled, plain⟩ := root
  cases (State.step_ends taken final).resolve_left unfinished with
  | resumes rest result caller received top ends called => simp [uncalled] at called
  | stays rest result top ends _ daemon => simp [plain] at daemon
  | destroyed => simp [State.taskFinish_finished]

theorem Sound.running_root {w : Watch α} (sound : w.Sound c) {f : Handle} {rest : List Activation}
    (top : w.state.stack = .body (some f) :: rest) (uncalled : (w.state.frames f).caller = none)
    (plain : (w.state.frames f).flags.isDaemon = false) :
    w.root = some f ∧ (w.state.frames f).phase ≠ .final := by
  have running := sound.rooted.formed.stacked.top top
  exact ⟨sound.roots f ⟨by simp [running], by simp [running], uncalled, plain⟩, by simp [running]⟩

theorem Sound.posts_no_more {w : Watch α} (sound : w.Sound c) {f g : Handle}
    {rest : List Activation} (top : w.state.stack = .body (some f) :: rest)
    (uncalled : (w.state.frames f).caller = none)
    (plain : (w.state.frames f).flags.isDaemon = false) (current : w.root = some g)
    (final : (w.state.frames g).phase = .final) : False := by
  obtain ⟨same, unfinished⟩ := sound.running_root top uncalled plain
  obtain rfl := Option.some.inj (current.symm.trans same)
  exact unfinished final

theorem step_stage {w w' : Watch α} {a : Action α} (sound : w.Sound c)
    (outside : w.state.CallsOutside c a) (answered : a.sentinelOnSuccess = true)
    (taken : w.step c a = some w') : w'.Stage c := by
  obtain ⟨next, moved, rfl⟩ := Option.map_eq_some_iff.mp taken
  have hosted := State.step_hosted answered moved c
  have stacked := sound.rooted.formed.stacked
  cases sound.stage with
  | outside hosts ended consumed posted =>
    cases hosted with
    | quiet calls hosts' finished =>
      have nothing := State.begun_none (s := w.state) calls
      refine .outside (hosts'.trans hosts) (fun g current => ?_) (finished.trans consumed) ?_
      · exact State.step_keeps_final stacked moved (ended g (by simpa [nothing] using current))
      · simp [nothing, finished, posted]
    | called c' t g calls holds clean running caller plain context hosts' rings =>
      subst calls
      obtain ⟨rfl, -, uncalled⟩ := outside
      have begins : w.state.begun next (.blockRun c' t) = some g := by
        simp [State.begun, clean, holds]
      have root : next.Root g :=
        ⟨by simp [running], by simp [running], caller ▸ uncalled g holds, plain⟩
      exact .running ⟨.entering c', by rw [hosts', hosts], .inl rfl⟩ g (by simp [begins]) root context
        (by rw [rings, consumed]) (by simp [begins, rings, posted])
    | posted f rest result top ends uncalled plain =>
      obtain ⟨current, unfinished⟩ := sound.running_root top uncalled plain
      exact absurd (ended f current) unfinished
    | entered c' rest top => simp [top] at hosts
    | left c' rest top => simp [top] at hosts
    | stopped c' rest top => simp [top] at hosts
  | running inside g current root context empty posted =>
    rcases inside.step outside hosted with ⟨inside, finished, nothing⟩ |
      ⟨f, rest, result, top, ends, uncalled, plain, final, inside, finished⟩ | ⟨-, some, -⟩
    · rcases root_stays sound.rooted moved root with final | ⟨root, kept⟩
      · have posts := root_posts (c := c) moved root final
        rw [finished, context, if_pos rfl] at posts
        omega
      · exact .running inside g (by simp [nothing, current]) root (kept.trans context)
          (finished.trans empty) (by simp [nothing, finished, posted])
    · obtain ⟨same, -⟩ := sound.running_root top uncalled plain
      obtain rfl := Option.some.inj (same.symm.trans current)
      subst ends
      exact .ended inside f (by simp [State.begun, current]) final
        (by simp [finished, context, empty])
        (by simpa [State.begun, finished, context] using posted)
    · simp [empty] at some
  | ended inside g current final sentinel posted =>
    have final' := State.step_keeps_final stacked moved final
    rcases inside.step outside hosted with ⟨inside, finished, nothing⟩ |
      ⟨f, rest, result, top, ends, uncalled, plain, -⟩ | ⟨stops, -, hosts, finished, stopped⟩
    · exact .ended inside g (by simp [nothing, current]) final' (finished.trans sentinel)
        (by simp [nothing, finished, posted])
    · exact (sound.posts_no_more top uncalled plain current final).elim
    · subst stops
      exact .stopped hosts stopped g (by simp [State.begun, current]) final'
        (by simp [finished, sentinel]) (by simp [State.begun, finished, posted])
  | stopped hosts stopped g current final consumed posted =>
    have final' := State.step_keeps_final stacked moved final
    cases hosted with
    | quiet calls hosts' finished running =>
      have nothing := State.begun_none (s := w.state) calls
      exact .stopped (hosts'.trans hosts) (running.trans stopped) g (by simp [nothing, current])
        final' (finished.trans consumed) (by simp [nothing, finished, posted])
    | called c' t g' calls =>
      subst calls
      obtain ⟨rest, outside⟩ := hosts_head outside.2.1
      simp [outside] at hosts
    | posted f rest result top ends uncalled plain =>
      exact (sound.posts_no_more top uncalled plain current final).elim
    | entered c' rest top => simp [top] at hosts
    | left c' rest top proceeds stopped' hosts' rings =>
      subst proceeds
      rw [top, hosts_loop] at hosts
      obtain ⟨-, below⟩ := List.cons.inj hosts
      exact .outside (hosts'.trans below)
        (fun g' same => by
          obtain rfl : g = g' := by simpa [State.begun, current] using same
          exact final')
        (by rw [rings, consumed]) (by simp [State.begun, rings, posted])
    | stopped c' rest top stops running =>
      rw [top, hosts_loop] at hosts
      obtain ⟨same, -⟩ := List.cons.inj hosts
      obtain rfl : c' = c := by simpa using same
      simp [stopped] at running

theorem step_roots {w w' : Watch α} {a : Action α} (sound : w.Sound c)
    (outside : w.state.CallsOutside c a) (taken : w.step c a = some w') {g : Handle}
    (root : w'.state.Root g) : w'.root = some g := by
  obtain ⟨rooted, roots, stage⟩ := sound
  obtain ⟨next, moved, rfl⟩ := Option.map_eq_some_iff.mp taken
  rcases State.step_root rooted.formed rooted.sole moved root with before |
    ⟨c', t, rfl, holds, clean, -⟩
  · have current := roots g before
    have nothing : w.state.begun next a = none := by
      cases a with
      | blockRun c' t =>
        -- The call is made outside, where no root is left.
        exfalso
        cases stage with
        | outside hosts ended => exact before.2.1 (ended g current)
        | running inside => exact inside.not_outside outside.2.1
        | ended inside => exact inside.not_outside outside.2.1
        | stopped hosts =>
          obtain ⟨rest, outside⟩ := hosts_head outside.2.1
          simp [outside] at hosts
      | _ => rfl
    simp [nothing, current]
  · simp [State.begun, clean, holds]

theorem step_sound {w w' : Watch α} {a : Action α} (sound : w.Sound c)
    (outside : w.state.CallsOutside c a) (answered : a.sentinelOnSuccess = true)
    (taken : w.step c a = some w') : w'.Sound c where
  rooted := by
    obtain ⟨next, moved, rfl⟩ := Option.map_eq_some_iff.mp taken
    exact State.step_rooted sound.rooted moved
  roots g root := step_roots sound outside taken root
  stage := step_stage sound outside answered taken

theorem Sound.host {w : Watch α} (sound : w.Sound c) {host : Activation}
    {rest : List Activation} (top : hosts w.state.stack = host :: rest) :
    host = .body none ∨ host = .entering c ∨ host = .loop c := by
  have inner : ∀ h, hosts w.state.stack = [h, .body none] → host = h := fun h inside =>
    (List.cons.inj (top.symm.trans inside)).1
  cases sound.stage with
  | outside hosts => exact .inl (List.cons.inj (top.symm.trans hosts)).1
  | running inside | ended inside =>
    obtain ⟨h, inside, kind⟩ := inside
    obtain rfl := inner h inside
    exact .inr (kind.imp id And.left)
  | stopped hosts => exact .inr (.inr (inner _ hosts))

theorem Sound.root {w : Watch α} (sound : w.Sound c) {f : Handle} (root : w.state.Root f) :
    w.root = some f ∧ (w.state.frames f).context = some c ∧ (w.state.rings c).finished = 0 ∧
      w.posted + 1 = w.calls := by
  have current := sound.roots f root
  have ended : ∀ g, w.root = some g → (w.state.frames g).phase ≠ .final := by
    intro g same
    obtain rfl : f = g := by simpa [current] using same
    exact root.2.1
  cases sound.stage with
  | outside _ final => exact absurd (final f current) root.2.1
  | running inside g same _ context empty posted =>
    obtain rfl : f = g := by simpa [current] using same
    exact ⟨current, context, empty, posted⟩
  | ended _ g same final => exact absurd final (ended g same)
  | stopped _ _ g same final => exact absurd final (ended g same)

/-- How one context's `block_run` calls, their roots and the sentinels go together. -/
structure Stops (c : ContextId) (w : Watch α) (a : Action α) : Prop where
  -- Each call's sentinel has been posted exactly if its root has ended.
  once : w.posted = w.calls ∨
    w.posted + 1 = w.calls ∧ ∃ g, w.root = some g ∧ (w.state.frames g).phase ≠ .final
  ended : ∀ g, w.root = some g → (w.state.frames g).phase = .final → w.posted = w.calls
  returned : hosts w.state.stack = [.body none] →
    w.posted = w.calls ∧ (w.state.rings c).finished = 0
  -- Nothing but the end of the root posts one, and that does.
  posts : ∀ w', w.step c a = some w' → w'.posted ≠ w.posted →
    w'.posted = w.posted + 1 ∧ ∃ g rest result, w.root = some g ∧
      w.state.stack = .body (some g) :: rest ∧ a = .finish result ∧
        (w'.state.frames g).phase = .final
  ends : ∀ w' g rest result, w.step c a = some w' → w.root = some g →
    w.state.stack = .body (some g) :: rest → a = .finish result →
      w'.state.fault = none ∧ (w'.state.frames g).phase = .final ∧ w'.posted = w.posted + 1
  -- Only the sentinel stops the loop, and only a stopped loop is left.
  stop : ∀ w', w.step c a = some w' → (w.state.rings c).running = true →
    (w'.state.rings c).running = false → a = .stop 0 ∧ (w.state.rings c).finished = 1 ∧
      (w'.state.rings c).finished = 0 ∧ w.posted = w.calls
  leave : ∀ w' rest, w.step c a = some w' → w.state.stack = .loop c :: rest →
    w'.state.stack = rest → (w.state.rings c).running = false ∧
      (w.state.rings c).finished = 0 ∧ w.posted = w.calls
  others : ∀ w' f rest result, w.step c a = some w' → w.state.stack = .body (some f) :: rest →
    a = .finish result → w.root ≠ some f → w'.state.rings = w.state.rings

theorem Sound.posts {w w' : Watch α} {a : Action α} (sound : w.Sound c)
    (answered : a.sentinelOnSuccess = true) (taken : w.step c a = some w')
    (posted : w'.posted ≠ w.posted) :
    w'.posted = w.posted + 1 ∧ ∃ g rest result, w.root = some g ∧
      w.state.stack = .body (some g) :: rest ∧ a = .finish result ∧
        (w'.state.frames g).phase = .final := by
  obtain ⟨next, moved, rfl⟩ := Option.map_eq_some_iff.mp taken
  have posted : (w.state.rings c).finished < (next.rings c).finished := by
    simp only at posted
    omega
  cases State.step_hosted answered moved c with
  | quiet calls hosts finished => omega
  | called c' t g calls holds clean running caller plain context hosts rings =>
    simp [rings] at posted
  | posted f rest result top ends uncalled plain final hosts finished =>
    have running := sound.rooted.formed.stacked.top top
    obtain ⟨current, context, -⟩ :=
      sound.root ⟨by simp [running], by simp [running], uncalled, plain⟩
    exact ⟨by simp [finished, context], f, rest, result, current, top, ends, final⟩
  | entered c' rest top proceeds hosts finished => omega
  | left c' rest top proceeds stopped hosts rings => simp [rings] at posted
  | stopped c' rest top stops running some hosts consumed =>
    have same := sound.host (by rw [top, hosts_loop])
    have finished := (consumed (by simpa using same)).1
    omega

theorem Sound.ends {w w' : Watch α} (sound : w.Sound c) {result : Option α}
    (taken : w.step c (.finish result) = some w') {g : Handle} {rest : List Activation}
    (current : w.root = some g) (top : w.state.stack = .body (some g) :: rest) :
    w'.state.fault = none ∧ (w'.state.frames g).phase = .final ∧
      w'.posted = w.posted + 1 := by
  obtain ⟨next, moved, rfl⟩ := Option.map_eq_some_iff.mp taken
  have running := sound.rooted.formed.stacked.top top
  have root : w.state.Root g := by
    cases sound.stage with
    | outside _ ended => simp [ended g current] at running
    | running _ g' current' root =>
      obtain rfl : g = g' := by simpa [current] using current'
      exact root
    | ended _ g' current' final | stopped _ _ g' current' final =>
      obtain rfl : g = g' := by simpa [current] using current'
      simp [final] at running
  obtain ⟨-, context, empty, -⟩ := sound.root root
  obtain ⟨-, -, uncalled, plain⟩ := root
  have intact := sound.rooted.formed.stacked.intact g running
  have clean := (State.step_effect moved).1
  have ended : next = ((w.state.conclude g result).taskFinish (some c)).teardown g [] none := by
    simpa [State.step, State.act, State.finish, State.destroy, clean, top, uncalled, plain,
      intact, context, State.conclude_phase] using moved.symm
  subst ended
  refine ⟨?_, by simp [State.conclude_phase], ?_⟩
  · exact (State.taskFinish_fault (w.state.conclude g result) (some c)).trans clean
  · simp [State.taskFinish_finished, empty]

theorem Sound.stop {w w' : Watch α} {a : Action α} (sound : w.Sound c)
    (answered : a.sentinelOnSuccess = true) (taken : w.step c a = some w')
    (running : (w.state.rings c).running = true)
    (stopped : (w'.state.rings c).running = false) :
    a = .stop 0 ∧ (w.state.rings c).finished = 1 ∧ (w'.state.rings c).finished = 0 ∧
      w.posted = w.calls := by
  obtain ⟨next, moved, rfl⟩ := Option.map_eq_some_iff.mp taken
  cases State.step_hosted answered moved c with
  | quiet _ _ _ same | posted _ _ _ _ _ _ _ _ _ _ same => simp [same, running] at stopped
  | called _ _ _ _ _ _ _ _ _ _ _ rings | left _ _ _ _ _ _ rings =>
    simp [rings, running] at stopped
  | entered c' rest top proceeds hosts finished runs =>
    have same := sound.host (by rw [top, hosts_entering])
    simp [runs (by simpa using same)] at stopped
  | stopped c' rest top stops _ some hosts consumed =>
    have same := sound.host (by rw [top, hosts_loop])
    obtain ⟨finished, -⟩ := consumed (by simpa using same)
    obtain rfl : c' = c := by simpa using same
    cases sound.stage with
    | outside _ _ empty | running _ _ _ _ _ empty | stopped _ _ _ _ _ empty =>
      simp [empty] at some
    | ended _ g current final sentinel posted =>
      exact ⟨stops, sentinel, by simp [finished, sentinel], posted⟩

theorem Sound.leave {w w' : Watch α} {a : Action α} (sound : w.Sound c)
    (answered : a.sentinelOnSuccess = true) (taken : w.step c a = some w') {rest : List Activation}
    (top : w.state.stack = .loop c :: rest) (left : w'.state.stack = rest) :
    (w.state.rings c).running = false ∧ (w.state.rings c).finished = 0 ∧ w.posted = w.calls := by
  obtain ⟨next, moved, rfl⟩ := Option.map_eq_some_iff.mp taken
  obtain rfl : next.stack = rest := left
  have inside : hosts w.state.stack = .loop c :: hosts next.stack := by rw [top, hosts_loop]
  cases State.step_hosted answered moved c with
  | quiet _ hosts | posted _ _ _ _ _ _ _ _ hosts | stopped _ _ _ _ _ _ hosts =>
    simp [hosts] at inside
  | called _ _ _ _ _ _ _ _ _ _ hosts =>
    have longer := congrArg List.length inside
    simp only [hosts, List.length_cons] at longer
    omega
  | entered c' rest top' => simp [top] at top'
  | left c' rest top' proceeds stopped =>
    obtain ⟨rfl, -⟩ : c = c' ∧ next.stack = rest := by simpa [top] using top'
    cases sound.stage with
    | outside hosts => simp [inside] at hosts
    | running inside' | ended inside' =>
      obtain ⟨host, inside', kind⟩ := inside'
      obtain ⟨rfl, -⟩ := List.cons.inj (inside.symm.trans inside')
      simp [stopped] at kind
    | stopped _ _ _ _ _ consumed posted => exact ⟨stopped, consumed, posted⟩

theorem Sound.others {w w' : Watch α} (sound : w.Sound c) {result : Option α}
    (taken : w.step c (.finish result) = some w') {f : Handle} {rest : List Activation}
    (top : w.state.stack = .body (some f) :: rest) (other : w.root ≠ some f) :
    w'.state.rings = w.state.rings := by
  obtain ⟨next, moved, rfl⟩ := Option.map_eq_some_iff.mp taken
  cases (State.step_effect moved).2 with
  | fault => rfl
  | start a who rest' c' daemon t g below received _ alive holds starts => cases starts
  | finishCaller => simp
  | finishDaemon => simp
  | finishDestroy f' rest result top' uncalled plain =>
    obtain rfl : f = f' := by simpa [top] using (List.cons.inj (top.symm.trans top')).1
    have running := sound.rooted.formed.stacked.top top
    exact absurd (sound.roots f ⟨by simp [running], by simp [running], uncalled, plain⟩) other

theorem Sound.stops {w : Watch α} {a : Action α} (sound : w.Sound c)
    (answered : a.sentinelOnSuccess = true) : w.Stops c a where
  once := by
    cases sound.stage with
    | outside _ _ _ posted | ended _ _ _ _ _ posted | stopped _ _ _ _ _ _ posted => exact .inl posted
    | running inside g current root context empty posted =>
      exact .inr ⟨posted, g, current, root.2.1⟩
  ended g current final := by
    cases sound.stage with
    | outside _ _ _ posted | ended _ _ _ _ _ posted | stopped _ _ _ _ _ _ posted => exact posted
    | running inside g' current' root =>
      obtain rfl : g = g' := by simpa [current] using current'
      exact absurd final root.2.1
  returned hosts := by
    cases sound.stage with
    | outside _ _ consumed posted => exact ⟨posted, consumed⟩
    | running inside | ended inside =>
      obtain ⟨host, inside, -⟩ := inside
      simp [hosts] at inside
    | stopped hosts' => simp [hosts] at hosts'
  posts w' taken posted := sound.posts answered taken posted
  ends w' g rest result taken current top ends := by
    subst ends
    exact sound.ends taken current top
  stop w' taken running stopped := sound.stop answered taken running stopped
  leave w' rest taken top left := sound.leave answered taken top left
  others w' f rest result taken top ends other := by
    subst ends
    exact sound.others taken top other

/--
If `block_run` is only called outside all coroutines, on one context and a task nobody awaits, and
`io_uring_wait_cqe` returns 0 with a sentinel, then each call gets one sentinel, which the end of its
root posts, and only that sentinel stops the loop.
-/
theorem stops_for_root {actions : List (Action α)}
    (outside : Always (step c)
      (fun w a => w.state.CallsOutside c a ∧ a.sentinelOnSuccess = true) init actions) :
    Always (step c) (Stops c) init actions :=
  outside.of_invariant
    (fun _ _ _ sound outside taken => step_sound sound outside.1 outside.2 taken)
    (fun _ _ sound outside => sound.stops outside.2) init_sound

end Watch

-- `block_run` twice; a coroutine detached in the first call ends during the second.
def leftover : List (Action Unit) :=
  [.create none, .blockRun 0 0, .create (some 0), .launchDetached 0 1, .io, .finish (some ()), .proceed,
    .proceed, .proceed, .stop 0, .proceed, .create none, .blockRun 0 2, .io, .proceed, .complete 0 0,
    .finish (some ()), .complete 0 1, .finish (some ()), .proceed, .stop 0, .proceed]

theorem stops_for_root_leftover :
    ∃ w : Watch Unit, run (Watch.step 0) .init leftover = some w ∧ w.calls = 2 ∧ w.posted = 2 ∧
      (w.state.rings 0).finished = 0 := by
  have outside : Always (Watch.step 0)
      (fun w a => w.state.CallsOutside 0 a ∧ a.sentinelOnSuccess = true) (.init : Watch Unit)
      (leftover ++ [.create none]) := by decide +kernel
  have ended : (run (Watch.step 0) (.init : Watch Unit) leftover).map
      (fun w => (hosts w.state.stack, w.calls)) = some ([.body none], 2) := by decide +kernel
  obtain ⟨w, reached, view⟩ := Option.map_eq_some_iff.mp ended
  simp only [Prod.mk.injEq] at view
  obtain ⟨hosts, calls⟩ := view
  have stops := always_iff.mp (Watch.stops_for_root outside) leftover _ [] rfl w reached
  obtain ⟨posted, empty⟩ := stops.returned hosts
  exact ⟨w, reached, calls, posted.trans calls, empty⟩

-- The sentinel of the first call comes with `-ETIME`, so that it is taken again in the second one.
theorem timed_out_sentinel_stops_twice :
    ¬ ∀ actions : List (Action Unit),
      Always (Watch.step 0) (fun w a => w.state.CallsOutside 0 a) .init actions →
        Always (Watch.step 0) (Watch.Stops 0) .init actions := by
  intro claim
  let before : List (Action Unit) :=
    [.create none, .blockRun 0 0, .finish (some ()), .proceed, .proceed, .stop Uring.timedOut,
      .proceed, .create none, .blockRun 0 1, .io, .proceed]
  have outside : Always (Watch.step 0) (fun w a => w.state.CallsOutside 0 a) (.init : Watch Unit)
      (before ++ [.stop 0]) := by decide +kernel
  have ended : (run (Watch.step 0) (.init : Watch Unit) before).bind (fun w =>
      (w.step 0 (.stop 0)).map fun w' => ((w.state.rings 0).running,
        (w'.state.rings 0).running, w.posted, w.calls)) = some (true, false, 1, 2) := by
    decide +kernel
  obtain ⟨w, reached, later⟩ := Option.bind_eq_some_iff.mp ended
  obtain ⟨w', taken, view⟩ := Option.map_eq_some_iff.mp later
  simp only [Prod.mk.injEq] at view
  obtain ⟨running, stopped, posted, calls⟩ := view
  have stops := always_iff.mp (claim _ outside) before _ [] rfl w reached
  have all := (stops.stop w' taken running stopped).2.2.2
  simp [posted, calls] at all

end KkProxy.Coro
