import KkProxy.Coro.Effect

set_option autoImplicit false

namespace KkProxy.Coro

namespace State

variable {α : Type}

inductive ResumeFault (s : State α) (g : Handle) : Fault → Prop where
  | destroyed (gone : (s.frames g).destroyed = true) : ResumeFault s g .resumeDestroyed
  | unread (callee : Handle) (waiting : (s.frames g).phase = .awaiting callee)
    (gone : (s.frames callee).destroyed = true) : ResumeFault s g .readDestroyed
  | unsuspended (moving : (s.frames g).phase = .running ∨ (s.frames g).phase = .final) :
    ResumeFault s g .resumeUnsuspended

theorem resume_error {s : State α} {g : Handle} {e : Fault} (failed : s.resume g = .error e) :
    s.ResumeFault g e := by
  unfold resume at failed
  split at failed
  · next gone =>
    obtain rfl := Except.error.inj failed
    exact .destroyed gone
  · split at failed
    · cases failed
    · cases failed
    · next callee waiting =>
      split at failed
      · next gone =>
        obtain rfl := Except.error.inj failed
        exact .unread callee waiting gone
      · cases failed
    · next running =>
      obtain rfl := Except.error.inj failed
      exact .unsuspended (.inl running)
    · next final =>
      obtain rfl := Except.error.inj failed
      exact .unsuspended (.inr final)

inductive DestroyFault (s : State α) (g : Handle) : Fault → Prop where
  | twice (gone : (s.frames g).destroyed = true) : DestroyFault s g .doubleDestroy
  | running (running : (s.frames g).phase = .running) : DestroyFault s g .destroyRunning

theorem destroy_error {s : State α} {g : Handle} {rest : List TaskId}
    {pending : Option (TaskId × TaskId)} {e : Fault}
    (failed : s.destroy g rest pending = .error e) : s.DestroyFault g e := by
  unfold destroy at failed
  split_ifs at failed with gone running
  · obtain rfl := Except.error.inj failed
    exact .twice gone
  · obtain rfl := Except.error.inj failed
    exact .running running

inductive Launches (t : TaskId) : Action α → Prop where
  | launch (c : ContextId) : Launches t (.launch c t)
  | launchDetached (c : ContextId) : Launches t (.launchDetached c t)
  | blockRun (c : ContextId) : Launches t (.blockRun c t)

inductive Struck (s : State α) : Action α → Fault → Prop where
  | assign (who : Option Handle) (rest : List Activation) (dst src : TaskId) (g : Handle)
    (e : Fault) (top : s.stack = .body who :: rest) (target : (s.tasks dst).alive = true)
    (source : (s.tasks src).alive = true) (differ : dst ≠ src)
    (holds : (s.tasks dst).handle = some g) (failed : s.DestroyFault g e) :
    Struck s (.assign dst src) e
  | startEmpty (a : Action α) (who : Option Handle) (rest : List Activation) (t : TaskId)
    (top : s.stack = .body who :: rest) (alive : (s.tasks t).alive = true)
    (launches : Launches t a) (empty : (s.tasks t).handle = none) : Struck s a .emptyHandle
  | startDead (a : Action α) (who : Option Handle) (rest : List Activation) (t : TaskId)
    (g : Handle) (top : s.stack = .body who :: rest) (alive : (s.tasks t).alive = true)
    (launches : Launches t a) (holds : (s.tasks t).handle = some g)
    (gone : (s.frames g).destroyed = true) : Struck s a .deadPromise
  | start (a : Action α) (who : Option Handle) (rest : List Activation) (c : ContextId)
    (daemon : Bool) (t : TaskId) (g : Handle) (below : List Activation) (e : Fault)
    (top : s.stack = .body who :: rest) (alive : (s.tasks t).alive = true)
    (holds : (s.tasks t).handle = some g) (intact : (s.frames g).destroyed = false)
    (starts : Starts who c t g a daemon below)
    (failed : (s.starting c daemon t g below).ResumeFault g e) : Struck s a e
  | awaitEmpty (f : Handle) (rest : List Activation) (kind : AwaitKind) (t : TaskId)
    (top : s.stack = .body (some f) :: rest) (alive : (s.tasks t).alive = true)
    (empty : (s.tasks t).handle = none) : Struck s (.await kind t) .emptyHandle
  | awaitDead (f : Handle) (rest : List Activation) (kind : AwaitKind) (t : TaskId) (g : Handle)
    (top : s.stack = .body (some f) :: rest) (alive : (s.tasks t).alive = true)
    (holds : (s.tasks t).handle = some g) (gone : (s.frames g).destroyed = true) :
    Struck s (.await kind t) .deadPromise
  | await (f : Handle) (rest : List Activation) (kind : AwaitKind) (t : TaskId) (g : Handle)
    (e : Fault) (top : s.stack = .body (some f) :: rest) (alive : (s.tasks t).alive = true)
    (holds : (s.tasks t).handle = some g) (intact : (s.frames g).destroyed = false)
    (unfinished : (s.frames g).phase ≠ .final) (plain : (s.frames g).flags.isDaemon = false)
    (failed : ((s.transform kind t).suspendOn f g).ResumeFault g e) : Struck s (.await kind t) e
  | submit (f : Handle) (rest : List Activation) (top : s.stack = .body (some f) :: rest)
    (missing : (s.frames f).context = none) : Struck s .io .nullContext
  | finishCaller (f : Handle) (rest : List Activation) (result : Option α) (caller : Handle)
    (e : Fault)
    (top : s.stack = .body (some f) :: rest) (called : (s.frames f).caller = some caller)
    (failed : (s.conclude f result).ResumeFault caller e) : Struck s (.finish result) e
  | finishDestroy (f : Handle) (rest : List Activation) (result : Option α) (e : Fault)
    (top : s.stack = .body (some f) :: rest) (uncalled : (s.frames f).caller = none)
    (plain : (s.frames f).flags.isDaemon = false)
    (failed : ((s.conclude f result).taskFinish (s.frames f).context).DestroyFault f e) :
    Struck s (.finish result) e
  | unwind (t : TaskId) (tasks : List TaskId) (pending : Option (TaskId × TaskId))
    (rest : List Activation) (g : Handle) (e : Fault)
    (top : s.stack = .unwinding (t :: tasks) pending :: rest)
    (alive : (s.tasks t).alive = true) (holds : (s.tasks t).handle = some g)
    (failed : s.DestroyFault g e) : Struck s .proceed e
  | completeDestroyed (c : ContextId) (rest : List Activation) (res : Int) (op : Op)
    (top : s.stack = .loop c :: rest) (submitted : op ∈ (s.rings c).inflight)
    (gone : (s.frames op.frame).destroyed = true) : Struck s (.complete res op.id) .resumeDestroyed
  | completeStale (c : ContextId) (rest : List Activation) (res : Int) (op : Op)
    (top : s.stack = .loop c :: rest) (submitted : op ∈ (s.rings c).inflight)
    (intact : (s.frames op.frame).destroyed = false)
    (elsewhere : (s.frames op.frame).phase ≠ .io op.id) :
    Struck s (.complete res op.id) .staleAwaiter
  | redispatch (c : ContextId) (rest : List Activation) (res : Int) (op : OpId) (e : Fault)
    (top : s.stack = .loop c :: rest) (unseen : .loop c ∈ rest ∨ (s.rings c).stuck = true)
    (gone : e = .resumeDestroyed ∨ e = .staleAwaiter) : Struck s (.complete res op) e
  | stop (res : Int) (failed : res ≠ 0) : Struck s (.stop res) .nullHandle

theorem start_struck {s : State α} {a : Action α} {who : Option Handle} {rest : List Activation}
    {c : ContextId} {daemon : Bool} {t : TaskId} {below : Handle → State α → State α}
    {ends : Handle → List Activation} {e : Fault} (top : s.stack = .body who :: rest)
    (alive : (s.tasks t).alive = true) (launches : Launches t a)
    (starts : ∀ g, Starts who c t g a daemon (ends g))
    (same : ∀ g, below g (s.enlist c daemon t g) = s.starting c daemon t g (ends g))
    (failed : s.start c daemon t below = .error e) : Struck s a e := by
  unfold start at failed
  split at failed
  · next empty =>
    obtain rfl := Except.error.inj failed
    exact .startEmpty a who rest t top alive launches empty
  · next g holds =>
    split at failed
    · next gone =>
      obtain rfl := Except.error.inj failed
      exact .startDead a who rest t g top alive launches holds gone
    · next intact =>
      rw [same] at failed
      exact .start a who rest c daemon t g (ends g) e top alive holds (by simpa using intact)
        (starts g) (resume_error failed)

theorem await_struck {s : State α} {f : Handle} {rest : List Activation} {kind : AwaitKind}
    {t : TaskId} {e : Fault} (top : s.stack = .body (some f) :: rest)
    (alive : (s.tasks t).alive = true) (failed : s.await f kind t = .error e) :
    Struck s (.await kind t) e := by
  unfold await at failed
  dsimp only at failed
  split at failed
  · next empty =>
    obtain rfl := Except.error.inj failed
    exact .awaitEmpty f rest kind t top alive empty
  · next g holds =>
    split_ifs at failed with gone finished daemon
    · obtain rfl := Except.error.inj failed
      exact .awaitDead f rest kind t g top alive holds gone
    · exact .await f rest kind t g e top alive holds (by simpa using gone) finished
        (by simpa using daemon) (resume_error failed)

theorem finish_struck {s : State α} {f : Handle} {rest : List Activation} {result : Option α}
    {e : Fault} (top : s.stack = .body (some f) :: rest) (failed : s.finish f result = .error e) :
    Struck s (.finish result) e := by
  unfold finish at failed
  dsimp only at failed
  split at failed
  · next caller called =>
    exact .finishCaller f rest result caller e top called (resume_error failed)
  · next uncalled =>
    split_ifs at failed with daemon
    exact .finishDestroy f rest result e top uncalled (by simpa using daemon) (destroy_error failed)

theorem assign_struck {s : State α} {who : Option Handle} {rest : List Activation}
    {dst src : TaskId} {e : Fault} (top : s.stack = .body who :: rest)
    (target : (s.tasks dst).alive = true) (source : (s.tasks src).alive = true)
    (failed : s.assign dst src = .error e) : Struck s (.assign dst src) e := by
  unfold assign at failed
  split at failed
  · cases failed
  · next differ =>
    split at failed
    · next g holds =>
      exact .assign who rest dst src g e top target source differ holds (destroy_error failed)
    · cases failed

theorem proceed_struck {s : State α} {e : Fault} (failed : s.proceed = some (.error e)) :
    Struck s .proceed e := by
  unfold proceed at failed
  split at failed
  · next t tasks pending rest top =>
    dsimp only at failed
    split at failed
    · next alive =>
      split at failed
      · cases failed
      · next g holds =>
        refine .unwind t tasks pending rest g e top alive holds ?_
        cases destroy_error (Option.some.inj failed) with
        | twice gone => exact .twice gone
        | running running => exact .running running
    · cases failed
  · cases failed
  · cases failed
  · cases failed
  · cases failed
  · next c rest top => split at failed <;> cases failed
  · cases failed

theorem complete_struck {s : State α} {c : ContextId} {rest : List Activation} {res : Int}
    {op : OpId} {e : Fault} (top : s.stack = .loop c :: rest)
    (failed : s.complete c res op = some (.error e)) : Struck s (.complete res op) e := by
  obtain ⟨o, found, failed⟩ := Option.map_eq_some_iff.mp failed
  have submitted := List.mem_of_find?_eq_some found
  obtain rfl : o.id = op := by simpa using List.find?_some found
  split_ifs at failed with gone waiting
  · obtain rfl := Except.error.inj failed
    exact .completeDestroyed c rest res o top submitted gone
  · -- A coroutine suspended on an operation can be resumed.
    cases resume_error failed with
    | destroyed gone' => exact absurd gone' gone
    | unread callee waiting' => simp [waiting] at waiting'
    | unsuspended moving => simp [waiting] at moving
  · obtain rfl := Except.error.inj failed
    exact .completeStale c rest res o top submitted (by simpa using gone) waiting

theorem act_struck {s : State α} {a : Action α} {e : Fault} (failed : s.act a = some (.error e)) :
    Struck s a e := by
  unfold act at failed
  split at failed
  · split at failed <;> cases failed
  · split at failed <;> cases failed
  · next who rest dst src top =>
    split_ifs at failed with alive
    have alive := Bool.and_eq_true_iff.mp alive
    exact assign_struck top alive.1 alive.2 (Option.some.inj failed)
  · split at failed <;> cases failed
  · next who rest c t top =>
    split_ifs at failed with alive
    exact start_struck top alive (.launch c) (fun _ => .launch) (fun _ => rfl)
      (Option.some.inj failed)
  · next who rest c t top =>
    split_ifs at failed with alive
    exact start_struck top alive (.launchDetached c) (fun _ => .launchDetached) (fun _ => rfl)
      (Option.some.inj failed)
  · next who rest c t top =>
    split_ifs at failed with alive
    exact start_struck top alive (.blockRun c) (fun _ => .blockRun) (fun _ => rfl)
      (Option.some.inj failed)
  · next f rest kind t top =>
    split_ifs at failed with alive
    exact await_struck top alive (Option.some.inj failed)
  · next f rest top =>
    have failed := Option.some.inj failed
    unfold submit at failed
    split at failed
    · next missing =>
      obtain rfl := Except.error.inj failed
      exact .submit f rest top missing
    · cases failed
  · next f rest result top => exact finish_struck top (Option.some.inj failed)
  · next c rest res op top =>
    split_ifs at failed with running unseen
    · obtain ⟨o, -, struck⟩ := Option.map_eq_some_iff.mp failed
      refine .redispatch c rest res op e top (by simpa using unseen) ?_
      split at struck
      · exact .inl (Except.error.inj struck).symm
      · exact .inr (Except.error.inj struck).symm
    · exact complete_struck top failed
  · next c rest res top =>
    split_ifs at failed
    have failed := Option.some.inj failed
    unfold stop at failed
    dsimp only at failed
    split_ifs at failed with answered
    obtain rfl := Except.error.inj failed
    exact .stop res answered
  · split at failed <;> cases failed
  · exact proceed_struck failed
  · cases failed

theorem step_fault {s next : State α} {a : Action α} (taken : s.step a = some next) {e : Fault}
    (fault : next.fault = some e) : Struck s a e := by
  obtain ⟨clean, effect⟩ := step_effect taken
  cases effect with
  | fault a e' struck =>
    obtain rfl := Option.some.inj fault
    exact act_struck struck
  | finishDestroy f rest result top =>
    have same : s.fault = some e := by
      rw [← fault]
      cases (s.frames f).context <;> rfl
    simp [clean] at same
  | awaitReady f rest kind =>
    have same : s.fault = some e := by cases kind <;> exact fault
    simp [clean] at same
  | awaitDaemon f rest kind =>
    have same : s.fault = some e := by cases kind <;> exact fault
    simp [clean] at same
  | awaitStart f rest kind =>
    have same : s.fault = some e := by cases kind <;> exact fault
    simp [clean] at same
  | _ => exact absurd (clean.symm.trans fault) nofun

end State

end KkProxy.Coro
