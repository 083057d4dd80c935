import KkProxy.Coro.Step

set_option autoImplicit false

namespace KkProxy.Coro

namespace State

variable {α : Type}

structure Resumes (s : State α) (g : Handle) (received : Option α) : Prop where
  intact : (s.frames g).destroyed = false
  suspended : (s.frames g).phase ≠ .running ∧ (s.frames g).phase ≠ .final
  awaited : ∀ callee, (s.frames g).phase = .awaiting callee →
    (s.frames callee).destroyed = false ∧ received = (s.frames callee).result

theorem resume_ok {s next : State α} {g : Handle} (resumed : s.resume g = .ok next) :
    ∃ received, s.Resumes g received ∧ next = s.run g received := by
  unfold resume at resumed
  split at resumed
  · cases resumed
  · next intact =>
    have intact : (s.frames g).destroyed = false := by simpa using intact
    split at resumed
    · next created =>
      obtain rfl := Except.ok.inj resumed
      exact ⟨_, ⟨intact, by simp [created], by simp [created]⟩, rfl⟩
    · next op waiting =>
      obtain rfl := Except.ok.inj resumed
      exact ⟨_, ⟨intact, by simp [waiting], by simp [waiting]⟩, rfl⟩
    · next callee waiting =>
      split at resumed
      · cases resumed
      · next readable =>
        obtain rfl := Except.ok.inj resumed
        refine ⟨_, ⟨intact, by simp [waiting], ?_⟩, rfl⟩
        rintro callee' same
        obtain rfl : callee = callee' := by simpa [waiting] using same
        exact ⟨by simpa using readable, rfl⟩
    · cases resumed
    · cases resumed

theorem destroy_ok {s next : State α} {g : Handle} {rest : List TaskId}
    {pending : Option (TaskId × TaskId)} (done : s.destroy g rest pending = .ok next) :
    (s.frames g).destroyed = false ∧ (s.frames g).phase ≠ .running ∧
      next = s.teardown g rest pending := by
  unfold destroy at done
  split at done
  · cases done
  · next intact =>
    split at done
    · cases done
    · next idle => exact ⟨by simpa using intact, idle, (Except.ok.inj done).symm⟩

-- The three ways to start a task: what goes below its coroutine, and whether it is a daemon.
inductive Starts (who : Option Handle) (c : ContextId) (t : TaskId) (g : Handle) :
    Action α → Bool → List Activation → Prop where
  | launch : Starts who c t g (.launch c t) true [.launching who g]
  | launchDetached : Starts who c t g (.launchDetached c t) true []
  | blockRun : Starts who c t g (.blockRun c t) false [.entering c]

def starting (s : State α) (c : ContextId) (daemon : Bool) (t : TaskId) (g : Handle)
    (below : List Activation) : State α :=
  { s.enlist c daemon t g with stack := below ++ s.stack }

section Fields

variable {s : State α} {c : ContextId} {daemon : Bool} {t : TaskId} {g h : Handle}
variable {below : List Activation}

@[simp] theorem starting_rings : (s.starting c daemon t g below).rings = s.rings := rfl

theorem starting_other (other : h ≠ g) :
    (s.starting c daemon t g below).frames h = s.frames h := by
  rw [starting, enlist, setHandle_frames, modify_other other]

@[simp] theorem starting_phase :
    ((s.starting c daemon t g below).frames h).phase = (s.frames h).phase := by
  simp only [starting, enlist, setHandle_frames]
  exact modify_keeps Frame.phase rfl h

@[simp] theorem starting_destroyed :
    ((s.starting c daemon t g below).frames h).destroyed = (s.frames h).destroyed := by
  simp only [starting, enlist, setHandle_frames]
  exact modify_keeps Frame.destroyed rfl h

theorem starting_daemon : ((s.starting c daemon t g below).frames h).flags.isDaemon =
    if h = g then daemon else (s.frames h).flags.isDaemon := by
  simp only [starting, enlist, setHandle_frames, modify_frame]
  split_ifs <;> simp

theorem starting_context : ((s.starting c daemon t g below).frames h).context =
    if h = g then some c else (s.frames h).context := by
  simp only [starting, enlist, setHandle_frames, modify_frame]
  split_ifs <;> rfl

@[simp] theorem starting_caller :
    ((s.starting c daemon t g below).frames h).caller = (s.frames h).caller := by
  simp only [starting, enlist, setHandle_frames]
  exact modify_keeps Frame.caller rfl h

@[simp] theorem starting_result :
    ((s.starting c daemon t g below).frames h).result = (s.frames h).result := by
  simp only [starting, enlist, setHandle_frames]
  exact modify_keeps Frame.result rfl h

end Fields

inductive Effect (s : State α) : Action α → State α → Prop where
  | fault (a : Action α) (e : Fault) (struck : s.act a = some (.error e)) :
    Effect s a { s with fault := some e }
  | create (who : Option Handle) (rest : List Activation) (home : Option Handle)
    (top : s.stack = .body who :: rest) :
    Effect s (.create home)
      { s.hold (some s.frameCount) home with frameCount := s.frameCount + 1 }
  | move (who : Option Handle) (rest : List Activation) (src : TaskId) (home : Option Handle)
    (top : s.stack = .body who :: rest) (alive : (s.tasks src).alive = true) :
    Effect s (.move src home) ((s.setHandle src none).hold (s.tasks src).handle home)
  | assignSelf (who : Option Handle) (rest : List Activation) (t : TaskId)
    (top : s.stack = .body who :: rest) : Effect s (.assign t t) s
  | assignEmpty (who : Option Handle) (rest : List Activation) (dst src : TaskId)
    (top : s.stack = .body who :: rest) (target : (s.tasks dst).alive = true)
    (source : (s.tasks src).alive = true) (differ : dst ≠ src)
    (empty : (s.tasks dst).handle = none) :
    Effect s (.assign dst src) (s.push (.unwinding [] (some (dst, src))))
  | assign (who : Option Handle) (rest : List Activation) (dst src : TaskId) (g : Handle)
    (top : s.stack = .body who :: rest) (target : (s.tasks dst).alive = true)
    (source : (s.tasks src).alive = true) (differ : dst ≠ src)
    (holds : (s.tasks dst).handle = some g) (intact : (s.frames g).destroyed = false)
    (idle : (s.frames g).phase ≠ .running) :
    Effect s (.assign dst src) (s.teardown g [] (some (dst, src)))
  | drop (who : Option Handle) (rest : List Activation) (t : TaskId)
    (top : s.stack = .body who :: rest) (alive : (s.tasks t).alive = true) :
    Effect s (.drop t) (s.push (.unwinding [t] none))
  | start (a : Action α) (who : Option Handle) (rest : List Activation) (c : ContextId)
    (daemon : Bool) (t : TaskId) (g : Handle) (below : List Activation) (received : Option α)
    (top : s.stack = .body who :: rest) (alive : (s.tasks t).alive = true)
    (holds : (s.tasks t).handle = some g) (starts : Starts who c t g a daemon below)
    (resumes : (s.starting c daemon t g below).Resumes g received) :
    Effect s a ((s.starting c daemon t g below).run g received)
  | awaitReady (f : Handle) (rest : List Activation) (kind : AwaitKind) (t : TaskId) (g : Handle)
    (top : s.stack = .body (some f) :: rest) (alive : (s.tasks t).alive = true)
    (holds : (s.tasks t).handle = some g) (intact : (s.frames g).destroyed = false)
    (finished : (s.frames g).phase = .final) :
    Effect s (.await kind t) ((s.transform kind t).receive f (s.frames g).result)
  | awaitDaemon (f : Handle) (rest : List Activation) (kind : AwaitKind) (t : TaskId) (g : Handle)
    (top : s.stack = .body (some f) :: rest) (alive : (s.tasks t).alive = true)
    (holds : (s.tasks t).handle = some g) (intact : (s.frames g).destroyed = false)
    (unfinished : (s.frames g).phase ≠ .final) (daemon : (s.frames g).flags.isDaemon = true) :
    Effect s (.await kind t) ((s.transform kind t).suspendOn f g)
  | awaitStart (f : Handle) (rest : List Activation) (kind : AwaitKind) (t : TaskId) (g : Handle)
    (received : Option α) (top : s.stack = .body (some f) :: rest)
    (alive : (s.tasks t).alive = true) (holds : (s.tasks t).handle = some g)
    (intact : (s.frames g).destroyed = false) (unfinished : (s.frames g).phase ≠ .final)
    (plain : (s.frames g).flags.isDaemon = false)
    (resumes : ((s.transform kind t).suspendOn f g).Resumes g received) :
    Effect s (.await kind t) (((s.transform kind t).suspendOn f g).run g received)
  | submit (f : Handle) (rest : List Activation) (c : ContextId)
    (top : s.stack = .body (some f) :: rest) (context : (s.frames f).context = some c) :
    Effect s .io (s.submitTo c f)
  | finishCaller (f : Handle) (rest : List Activation) (result : Option α) (caller : Handle)
    (received : Option α) (top : s.stack = .body (some f) :: rest)
    (called : (s.frames f).caller = some caller)
    (resumes : (s.conclude f result).Resumes caller received) :
    Effect s (.finish result) ((s.conclude f result).run caller received)
  | finishDaemon (f : Handle) (rest : List Activation) (result : Option α)
    (top : s.stack = .body (some f) :: rest) (uncalled : (s.frames f).caller = none)
    (daemon : (s.frames f).flags.isDaemon = true) :
    Effect s (.finish result) (s.conclude f result)
  | finishDestroy (f : Handle) (rest : List Activation) (result : Option α)
    (top : s.stack = .body (some f) :: rest) (uncalled : (s.frames f).caller = none)
    (plain : (s.frames f).flags.isDaemon = false) :
    Effect s (.finish result)
      (((s.conclude f result).taskFinish (s.frames f).context).teardown f [] none)
  | unwindDead (t : TaskId) (tasks : List TaskId) (pending : Option (TaskId × TaskId))
    (rest : List Activation) (top : s.stack = .unwinding (t :: tasks) pending :: rest)
    (dead : (s.tasks t).alive = false) :
    Effect s .proceed ({ s with stack := rest }.push (.unwinding tasks pending))
  | unwindEmpty (t : TaskId) (tasks : List TaskId) (pending : Option (TaskId × TaskId))
    (rest : List Activation) (top : s.stack = .unwinding (t :: tasks) pending :: rest)
    (alive : (s.tasks t).alive = true) (empty : (s.tasks t).handle = none) :
    Effect s .proceed (({ s with stack := rest }.kill t).push (.unwinding tasks pending))
  | unwind (t : TaskId) (tasks : List TaskId) (pending : Option (TaskId × TaskId))
    (rest : List Activation) (g : Handle)
    (top : s.stack = .unwinding (t :: tasks) pending :: rest)
    (alive : (s.tasks t).alive = true) (holds : (s.tasks t).handle = some g)
    (intact : (s.frames g).destroyed = false) (idle : (s.frames g).phase ≠ .running) :
    Effect s .proceed (({ s with stack := rest }.kill t).teardown g tasks pending)
  | unwound (rest : List Activation) (top : s.stack = .unwinding [] none :: rest) :
    Effect s .proceed { s with stack := rest }
  | assigned (dst src : TaskId) (rest : List Activation)
    (top : s.stack = .unwinding [] (some (dst, src)) :: rest) :
    Effect s .proceed
      (({ s with stack := rest }.setHandle dst (s.tasks src).handle).setHandle src none)
  | launched (who : Option Handle) (g : Handle) (rest : List Activation)
    (top : s.stack = .launching who g :: rest) :
    Effect s .proceed ({ s with stack := rest }.hold (some g) who)
  | entered (c : ContextId) (rest : List Activation) (top : s.stack = .entering c :: rest) :
    Effect s .proceed ({ s with stack := .loop c :: rest }.setRing c
      { s.rings c with running := true })
  | left (c : ContextId) (rest : List Activation) (top : s.stack = .loop c :: rest)
    (stopped : (s.rings c).running = false) : Effect s .proceed { s with stack := rest }
  | complete (c : ContextId) (rest : List Activation) (res : Int) (op : Op) (received : Option α)
    (top : s.stack = .loop c :: rest) (submitted : op ∈ (s.rings c).inflight)
    (waiting : (s.frames op.frame).phase = .io op.id)
    (intact : (s.frames op.frame).destroyed = false) :
    Effect s (.complete res op.id) ((s.setRing c { s.rings c with
      inflight := (s.rings c).inflight.erase op
      dispatched := some op
      stuck := decide (res ≠ 0) }).run op.frame received)
  | stop (c : ContextId) (rest : List Activation) (top : s.stack = .loop c :: rest)
    (running : (s.rings c).running = true) (posted : 0 < (s.rings c).finished) :
    Effect s (.stop 0) (s.setRing c
      { s.rings c with finished := (s.rings c).finished - 1, running := false })
  | stopTimedOut (c : ContextId) (rest : List Activation) (top : s.stack = .loop c :: rest)
    (running : (s.rings c).running = true) :
    Effect s (.stop Uring.timedOut) (s.setRing c { s.rings c with running := false })
  | waitError (c : ContextId) (rest : List Activation) (res : Int)
    (top : s.stack = .loop c :: rest) : Effect s (.waitError res) s

theorem start_effect {s next : State α} {a : Action α} {who : Option Handle}
    {rest : List Activation} {c : ContextId} {daemon : Bool} {t : TaskId}
    {below : Handle → State α → State α} {ends : Handle → List Activation}
    (top : s.stack = .body who :: rest) (alive : (s.tasks t).alive = true)
    (starts : ∀ g, Starts who c t g a daemon (ends g))
    (same : ∀ g, below g (s.enlist c daemon t g) = s.starting c daemon t g (ends g))
    (done : s.start c daemon t below = .ok next) : Effect s a next := by
  unfold start at done
  split at done
  · cases done
  · next g holds =>
    split at done
    · cases done
    · rw [same] at done
      obtain ⟨received, resumes, rfl⟩ := resume_ok done
      exact .start a who rest c daemon t g (ends g) received top alive holds (starts g) resumes

theorem await_effect {s next : State α} {f : Handle} {rest : List Activation} {kind : AwaitKind}
    {t : TaskId} (top : s.stack = .body (some f) :: rest) (alive : (s.tasks t).alive = true)
    (done : s.await f kind t = .ok next) : Effect s (.await kind t) next := by
  unfold await at done
  dsimp only at done
  split at done
  · cases done
  · next g holds =>
    split_ifs at done with destroyed finished daemon
    · obtain rfl := Except.ok.inj done
      exact .awaitReady f rest kind t g top alive holds (by simpa using destroyed) finished
    · obtain rfl := Except.ok.inj done
      exact .awaitDaemon f rest kind t g top alive holds (by simpa using destroyed) finished daemon
    · obtain ⟨received, resumes, rfl⟩ := resume_ok done
      exact .awaitStart f rest kind t g received top alive holds (by simpa using destroyed) finished
        (by simpa using daemon) resumes

theorem submit_effect {s next : State α} {f : Handle} {rest : List Activation}
    (top : s.stack = .body (some f) :: rest) (done : s.submit f = .ok next) :
    Effect s .io next := by
  unfold submit at done
  split at done
  · cases done
  · next c context =>
    obtain rfl := Except.ok.inj done
    exact .submit f rest c top context

theorem finish_effect {s next : State α} {f : Handle} {rest : List Activation} {result : Option α}
    (top : s.stack = .body (some f) :: rest) (done : s.finish f result = .ok next) :
    Effect s (.finish result) next := by
  unfold finish at done
  dsimp only at done
  split at done
  · next caller called =>
    obtain ⟨received, resumes, rfl⟩ := resume_ok done
    exact .finishCaller f rest result caller received top called resumes
  · next uncalled =>
    split_ifs at done with daemon
    · obtain rfl := Except.ok.inj done
      exact .finishDaemon f rest result top uncalled daemon
    · obtain ⟨-, -, rfl⟩ := destroy_ok done
      exact .finishDestroy f rest result top uncalled (by simpa using daemon)

theorem assign_effect {s next : State α} {who : Option Handle} {rest : List Activation}
    {dst src : TaskId} (top : s.stack = .body who :: rest) (target : (s.tasks dst).alive = true)
    (source : (s.tasks src).alive = true) (done : s.assign dst src = .ok next) :
    Effect s (.assign dst src) next := by
  unfold assign at done
  split at done
  · next same =>
    obtain rfl := Except.ok.inj done
    subst same
    exact .assignSelf who rest dst top
  · next differ =>
    split at done
    · next g holds =>
      obtain ⟨intact, idle, rfl⟩ := destroy_ok done
      exact .assign who rest dst src g top target source differ holds intact idle
    · next empty =>
      obtain rfl := Except.ok.inj done
      exact .assignEmpty who rest dst src top target source differ empty

theorem proceed_effect {s next : State α} (done : s.proceed = some (.ok next)) :
    Effect s .proceed next := by
  unfold proceed at done
  split at done
  · next t tasks pending rest top =>
    dsimp only at done
    split at done
    · next alive =>
      split at done
      · next empty =>
        obtain rfl := Except.ok.inj (Option.some.inj done)
        exact .unwindEmpty t tasks pending rest top alive empty
      · next g holds =>
        obtain ⟨intact, idle, rfl⟩ := destroy_ok (Option.some.inj done)
        exact .unwind t tasks pending rest g top alive holds intact idle
    · next dead =>
      obtain rfl := Except.ok.inj (Option.some.inj done)
      exact .unwindDead t tasks pending rest top (by simpa using dead)
  · next rest top =>
    obtain rfl := Except.ok.inj (Option.some.inj done)
    exact .unwound rest top
  · next dst src rest top =>
    obtain rfl := Except.ok.inj (Option.some.inj done)
    exact .assigned dst src rest top
  · next who g rest top =>
    obtain rfl := Except.ok.inj (Option.some.inj done)
    exact .launched who g rest top
  · next c rest top =>
    obtain rfl := Except.ok.inj (Option.some.inj done)
    exact .entered c rest top
  · next c rest top =>
    split at done
    · cases done
    · next stopped =>
      obtain rfl := Except.ok.inj (Option.some.inj done)
      exact .left c rest top (by simpa using stopped)
  · cases done

theorem complete_effect {s next : State α} {c : ContextId} {rest : List Activation} {res : Int}
    {op : OpId} (top : s.stack = .loop c :: rest)
    (done : s.complete c res op = some (.ok next)) : Effect s (.complete res op) next := by
  obtain ⟨o, found, done⟩ := Option.map_eq_some_iff.mp done
  have submitted := List.mem_of_find?_eq_some found
  obtain rfl : o.id = op := by simpa using List.find?_some found
  split_ifs at done with destroyed waiting
  obtain ⟨received, resumes, rfl⟩ := resume_ok done
  exact .complete c rest res o received top submitted waiting (by simpa using destroyed)

theorem stop_effect {s next : State α} {c : ContextId} {rest : List Activation} {res : Int}
    (top : s.stack = .loop c :: rest) (running : (s.rings c).running = true)
    (posted : 0 < (s.rings c).finished) (done : s.stop c res = .ok next) :
    Effect s (.stop res) next := by
  unfold stop at done
  dsimp only at done
  split_ifs at done with answered timeout
  · obtain rfl := Except.ok.inj done
    subst answered
    exact .stop c rest top running posted
  · obtain rfl := Except.ok.inj done
    subst timeout
    exact .stopTimedOut c rest top running

theorem act_effect {s next : State α} {a : Action α} (done : s.act a = some (.ok next)) :
    Effect s a next := by
  unfold act at done
  split at done
  · next who rest home top =>
    split_ifs at done
    obtain rfl := Except.ok.inj (Option.some.inj done)
    exact .create who rest home top
  · next who rest src home top =>
    split_ifs at done with allowed
    obtain rfl := Except.ok.inj (Option.some.inj done)
    exact .move who rest src home top (Bool.and_eq_true_iff.mp allowed).1
  · next who rest dst src top =>
    split_ifs at done with alive
    have alive := Bool.and_eq_true_iff.mp alive
    exact assign_effect top alive.1 alive.2 (Option.some.inj done)
  · next who rest t top =>
    split_ifs at done with alive
    obtain rfl := Except.ok.inj (Option.some.inj done)
    exact .drop who rest t top alive
  · next who rest c t top =>
    split_ifs at done with alive
    exact start_effect top alive (fun _ => .launch) (fun _ => rfl) (Option.some.inj done)
  · next who rest c t top =>
    split_ifs at done with alive
    exact start_effect top alive (fun _ => .launchDetached) (fun _ => rfl) (Option.some.inj done)
  · next who rest c t top =>
    split_ifs at done with alive
    exact start_effect top alive (fun _ => .blockRun) (fun _ => rfl) (Option.some.inj done)
  · next f rest kind t top =>
    split_ifs at done with alive
    exact await_effect top alive (Option.some.inj done)
  · next f rest top => exact submit_effect top (Option.some.inj done)
  · next f rest result top => exact finish_effect top (Option.some.inj done)
  · next c rest res op top =>
    split_ifs at done with running entered
    · obtain ⟨o, -, struck⟩ := Option.map_eq_some_iff.mp done
      split at struck <;> cases struck
    · exact complete_effect top done
  · next c rest res top =>
    split_ifs at done with allowed
    simp only [Bool.and_eq_true, decide_eq_true_eq] at allowed
    exact stop_effect top allowed.1.1.1 allowed.1.1.2 (Option.some.inj done)
  · next c rest res top =>
    split_ifs at done
    obtain rfl := Except.ok.inj (Option.some.inj done)
    exact .waitError c rest res top
  · exact proceed_effect done
  · cases done

theorem step_effect {s next : State α} {a : Action α} (taken : s.step a = some next) :
    s.fault = none ∧ Effect s a next := by
  unfold step at taken
  split_ifs at taken with struck
  obtain ⟨result, done, same⟩ := Option.map_eq_some_iff.mp taken
  refine ⟨by simpa using struck, ?_⟩
  cases result with
  | ok next' =>
    obtain rfl : next' = next := same
    exact act_effect done
  | error e =>
    obtain rfl : { s with fault := some e } = next := same
    exact .fault a e done

end State

end KkProxy.Coro
