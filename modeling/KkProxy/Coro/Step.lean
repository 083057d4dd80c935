import KkProxy.Shared.Runs
import KkProxy.Coro.State
import KkProxy.Uring.Loop

set_option autoImplicit false

/-!
# Steps of a program of coroutines

The program is arbitrary: whichever body is on top of the stack chooses what it does next. The
event loop lets any operation in flight complete.
-/

namespace KkProxy.Coro

inductive AwaitKind where
  | lvalue | rvalue
deriving DecidableEq, Repr

inductive Action (α : Type) where
  -- Call a coroutine and store its task.
  | create (home : Option Handle)
  | move (src : TaskId) (home : Option Handle)
  | assign (dst src : TaskId)
  | drop (t : TaskId)
  | launch (c : ContextId) (t : TaskId)
  | launchDetached (c : ContextId) (t : TaskId)
  | blockRun (c : ContextId) (t : TaskId)
  | await (kind : AwaitKind) (t : TaskId)
  | io
  -- Reach final suspend with `result` in the promise: what was thrown, or what `value_ = v` leaves
  -- in `value_`, which is nothing for a `v` like `std::nullopt`. Local variables are dropped before.
  | finish (result : Option α)
  -- Whatever is on top of the stack and is not a body goes on.
  | proceed
  -- `io_uring_wait_cqe` returns `res`: with the completion of an operation,
  | complete (res : Int) (op : OpId)
  -- with a sentinel,
  | stop (res : Int)
  -- with none.
  | waitError (res : Int)
deriving DecidableEq

-- A completion of an operation comes with 0, as liburing has it.
def Action.opOnSuccess {α : Type} : Action α → Bool
  | .complete res _ => res = 0
  | _ => true

def Action.sentinelOnSuccess {α : Type} : Action α → Bool
  | .stop res => res = 0
  | _ => true

def Action.onSuccess {α : Type} (a : Action α) : Bool := a.opOnSuccess && a.sentinelOnSuccess

namespace State

variable {α : Type}

def homeOk (s : State α) (home : Option Handle) : Bool :=
  home.all fun g => !(s.frames g).destroyed

def assign (s : State α) (dst src : TaskId) : Except Fault (State α) :=
  if dst = src then .ok s
  else match (s.tasks dst).handle with
    -- `src` keeps its handle until the destructors in the old frame have run.
    | some g => s.destroy g [] (some (dst, src))
    | none => .ok (s.push (.unwinding [] (some (dst, src))))

/-- `set_context`, `set_daemon` and `take_handle`, with which the three ways to start a task begin. -/
def enlist (s : State α) (c : ContextId) (daemon : Bool) (t : TaskId) (g : Handle) : State α :=
  (s.modify g fun f => { f with context := some c, flags := f.flags.setDaemon daemon }).setHandle t
    none

-- `below` says what the call leaves on the stack under the coroutine it resumes.
def start (s : State α) (c : ContextId) (daemon : Bool) (t : TaskId)
    (below : Handle → State α → State α) : Except Fault (State α) :=
  match (s.tasks t).handle with
  | none => .error .emptyHandle
  | some g =>
    if (s.frames g).destroyed then .error .deadPromise
    else (below g (s.enlist c daemon t g)).resume g

def transform (s : State α) (kind : AwaitKind) (t : TaskId) : State α :=
  match kind with
  | .lvalue => s
  | .rvalue => s.setHandle t none

/-- `base_task_awaiter::await_suspend` up to its choice of the coroutine to go on with. -/
def suspendOn (s : State α) (f g : Handle) : State α :=
  ((s.modify g fun callee =>
    { callee with caller := some f, context := (s.frames f).context }).modify f fun caller =>
      { caller with phase := .awaiting g }).pop

def receive (s : State α) (f : Handle) (received : Option α) : State α :=
  s.modify f fun caller => { caller with received }

def await (s : State α) (f : Handle) (kind : AwaitKind) (t : TaskId) :
    Except Fault (State α) :=
  let taken := s.transform kind t
  match (s.tasks t).handle with
  -- An empty handle is ready, and `await_resume` reads a promise through it.
  | none => .error .emptyHandle
  | some g =>
    if (s.frames g).destroyed then .error .deadPromise
    else if (s.frames g).phase = .final then
      .ok (taken.receive f (s.frames g).result)
    else if (s.frames g).flags.isDaemon then .ok (taken.suspendOn f g)
    else (taken.suspendOn f g).resume g

def submitTo (s : State α) (c : ContextId) (f : Handle) : State α :=
  let op : Op := { id := s.opCount, frame := f }
  let submitted := s.setRing c { s.rings c with inflight := (s.rings c).inflight ++ [op] }
  ({ submitted with opCount := s.opCount + 1 }.modify f fun frame =>
    { frame with phase := .io op.id }).pop

def submit (s : State α) (f : Handle) : Except Fault (State α) :=
  match (s.frames f).context with
  | none => .error .nullContext
  | some c => .ok (s.submitTo c f)

def taskFinish (s : State α) (context : Option ContextId) : State α :=
  match context with
  | none => s
  | some c => s.setRing c { s.rings c with finished := (s.rings c).finished + 1 }

def conclude (s : State α) (f : Handle) (result : Option α) : State α :=
  (s.modify f fun frame => { frame with result, phase := .final }).pop

-- `final_task_awaiter::await_suspend`.
def finish (s : State α) (f : Handle) (result : Option α) : Except Fault (State α) :=
  let concluded := s.conclude f result
  match (s.frames f).caller with
  | some caller => concluded.resume caller
  | none =>
    -- Nobody destroys the frame of a daemon here.
    if (s.frames f).flags.isDaemon then .ok concluded
    else (concluded.taskFinish (s.frames f).context).destroy f [] none

def proceed (s : State α) : Option (Except Fault (State α)) :=
  match s.stack with
  | .unwinding (t :: tasks) pending :: rest =>
    let popped := { s with stack := rest }
    if (s.tasks t).alive then
      match (s.tasks t).handle with
      | none => some (.ok ((popped.kill t).push (.unwinding tasks pending)))
      | some g => some ((popped.kill t).destroy g tasks pending)
    else some (.ok (popped.push (.unwinding tasks pending)))
  | .unwinding [] none :: rest => some (.ok { s with stack := rest })
  | .unwinding [] (some (dst, src)) :: rest =>
    some (.ok ({ s with stack := rest }.setHandle dst (s.tasks src).handle |>.setHandle src none))
  | .launching who g :: rest => some (.ok ({ s with stack := rest }.hold (some g) who))
  | .entering c :: rest =>
    some (.ok ({ s with stack := .loop c :: rest }.setRing c { s.rings c with running := true }))
  | .loop c :: rest => if (s.rings c).running then none else some (.ok { s with stack := rest })
  | _ => none

-- `uring_loop::resume` or, after another error than `-ETIME`, `resume_error`.
def complete (s : State α) (c : ContextId) (res : Int) (op : OpId) :
    Option (Except Fault (State α)) :=
  let ring := s.rings c
  (ring.inflight.find? fun o => o.id = op).map fun o =>
    if (s.frames o.frame).destroyed then .error .resumeDestroyed
    else if (s.frames o.frame).phase = .io op then
      (s.setRing c { ring with
        inflight := ring.inflight.erase o
        dispatched := some o
        -- `io_uring_cqe_seen` only follows the answer 0.
        stuck := decide (res ≠ 0) }).resume o.frame
    else .error .staleAwaiter

/--
A completion that has not been marked as seen is taken once more, by a `run` entered while the same
loop dispatches it or after an error code. The awaiter it points to is gone by then.
-/
def redispatch (s : State α) (c : ContextId) (op : OpId) : Option (Except Fault (State α)) :=
  ((s.rings c).dispatched.filter fun o => o.id = op).map fun o =>
    if (s.frames o.frame).destroyed then .error .resumeDestroyed else .error .staleAwaiter

-- `uring_loop::run` with a sentinel, which stays in the queue after `-ETIME`.
def stop (s : State α) (c : ContextId) (res : Int) : Except Fault (State α) :=
  let ring := s.rings c
  if res = 0 then .ok (s.setRing c { ring with finished := ring.finished - 1, running := false })
  else if res = Uring.timedOut then .ok (s.setRing c { ring with running := false })
  else .error .nullHandle

section Fields

variable (s : State α) (kind : AwaitKind) (t : TaskId) (f g : Handle) (c : ContextId)
variable (context : Option ContextId) (result received : Option α)

@[simp] theorem transform_frames : (s.transform kind t).frames = s.frames := by cases kind <;> rfl
@[simp] theorem transform_rings : (s.transform kind t).rings = s.rings := by cases kind <;> rfl
@[simp] theorem transform_stack : (s.transform kind t).stack = s.stack := by cases kind <;> rfl
theorem transform_task (u : TaskId) : (s.transform kind t).tasks u =
    { s.tasks u with
      handle := if kind = .rvalue ∧ u = t then none else (s.tasks u).handle } := by
  cases kind <;> simp [transform, setHandle_task]
@[simp] theorem transform_frameCount : (s.transform kind t).frameCount = s.frameCount := by
  cases kind <;> rfl
@[simp] theorem transform_taskCount : (s.transform kind t).taskCount = s.taskCount := by
  cases kind <;> rfl
@[simp] theorem taskFinish_frameCount : (s.taskFinish context).frameCount = s.frameCount := by
  cases context <;> rfl
@[simp] theorem taskFinish_taskCount : (s.taskFinish context).taskCount = s.taskCount := by
  cases context <;> rfl
@[simp] theorem taskFinish_frames : (s.taskFinish context).frames = s.frames := by
  cases context <;> rfl
@[simp] theorem taskFinish_tasks : (s.taskFinish context).tasks = s.tasks := by
  cases context <;> rfl
@[simp] theorem taskFinish_inflight (c : ContextId) :
    ((s.taskFinish context).rings c).inflight = (s.rings c).inflight := by
  cases context with
  | none => rfl
  | some c' => exact setRing_keeps Ring.inflight (by rfl) c
@[simp] theorem taskFinish_running (c : ContextId) :
    ((s.taskFinish context).rings c).running = (s.rings c).running := by
  cases context with
  | none => rfl
  | some c' => exact setRing_keeps Ring.running (by rfl) c
theorem taskFinish_finished (c : ContextId) : ((s.taskFinish context).rings c).finished =
    (s.rings c).finished + if context = some c then 1 else 0 := by
  cases context with
  | none => rfl
  | some c' =>
    simp only [taskFinish, setRing_ring]
    by_cases same : c = c'
    · simp [same]
    · simp [same, Ne.symm same]
@[simp] theorem taskFinish_fault : (s.taskFinish context).fault = s.fault := by
  cases context <;> rfl
@[simp] theorem taskFinish_stack : (s.taskFinish context).stack = s.stack := by
  cases context <;> rfl
@[simp] theorem receive_tasks : (s.receive f received).tasks = s.tasks := rfl
@[simp] theorem receive_rings : (s.receive f received).rings = s.rings := rfl
@[simp] theorem receive_stack : (s.receive f received).stack = s.stack := rfl
@[simp] theorem suspendOn_tasks : (s.suspendOn f g).tasks = s.tasks := rfl
@[simp] theorem suspendOn_rings : (s.suspendOn f g).rings = s.rings := rfl
@[simp] theorem suspendOn_stack : (s.suspendOn f g).stack = s.stack.tail := rfl
@[simp] theorem conclude_tasks : (s.conclude f result).tasks = s.tasks := rfl
@[simp] theorem conclude_rings : (s.conclude f result).rings = s.rings := rfl
@[simp] theorem conclude_stack : (s.conclude f result).stack = s.stack.tail := rfl
@[simp] theorem submitTo_tasks : (s.submitTo c f).tasks = s.tasks := rfl
@[simp] theorem submitTo_stack : (s.submitTo c f).stack = s.stack.tail := rfl

variable {s f g c result received} {h : Handle}

theorem receive_other (other : h ≠ f) : (s.receive f received).frames h = s.frames h := by
  rw [receive, modify_other other]

theorem suspendOn_other (caller : h ≠ f) (callee : h ≠ g) :
    (s.suspendOn f g).frames h = s.frames h := by
  simp only [suspendOn, pop_frames]
  rw [modify_other caller, modify_other callee]

theorem conclude_other (other : h ≠ f) : (s.conclude f result).frames h = s.frames h := by
  rw [conclude, pop_frames, modify_other other]

theorem submitTo_other (other : h ≠ f) : (s.submitTo c f).frames h = s.frames h := by
  rw [submitTo, pop_frames, modify_other other]
  rfl

@[simp] theorem receive_phase :
    ((s.receive f received).frames h).phase = (s.frames h).phase := modify_keeps Frame.phase rfl h

@[simp] theorem receive_destroyed :
    ((s.receive f received).frames h).destroyed = (s.frames h).destroyed :=
  modify_keeps Frame.destroyed rfl h

@[simp] theorem receive_caller :
    ((s.receive f received).frames h).caller = (s.frames h).caller := modify_keeps Frame.caller rfl h

@[simp] theorem receive_context :
    ((s.receive f received).frames h).context = (s.frames h).context :=
  modify_keeps Frame.context rfl h

@[simp] theorem receive_flags :
    ((s.receive f received).frames h).flags = (s.frames h).flags := modify_keeps Frame.flags rfl h

@[simp] theorem receive_result :
    ((s.receive f received).frames h).result = (s.frames h).result := modify_keeps Frame.result rfl h

@[simp] theorem receive_received :
    ((s.receive f received).frames f).received = received := by
  simp [receive, modify_frame]

theorem suspendOn_phase : ((s.suspendOn f g).frames h).phase =
    if h = f then .awaiting g else (s.frames h).phase := by
  simp only [suspendOn, pop_frames, modify_frame]
  split_ifs <;> simp_all

theorem suspendOn_caller : ((s.suspendOn f g).frames h).caller =
    if h = g then some f else (s.frames h).caller := by
  simp only [suspendOn, pop_frames, modify_frame]
  split_ifs <;> simp_all

@[simp] theorem suspendOn_destroyed :
    ((s.suspendOn f g).frames h).destroyed = (s.frames h).destroyed := by
  simp only [suspendOn, pop_frames]
  rw [modify_keeps Frame.destroyed rfl h]
  exact modify_keeps Frame.destroyed rfl h

@[simp] theorem suspendOn_flags : ((s.suspendOn f g).frames h).flags = (s.frames h).flags := by
  simp only [suspendOn, pop_frames]
  rw [modify_keeps Frame.flags rfl h]
  exact modify_keeps Frame.flags rfl h

theorem suspendOn_context : ((s.suspendOn f g).frames h).context =
    if h = g then (s.frames f).context else (s.frames h).context := by
  simp only [suspendOn, pop_frames]
  rw [modify_keeps Frame.context rfl h, modify_frame]
  split_ifs <;> rfl

@[simp] theorem suspendOn_result : ((s.suspendOn f g).frames h).result = (s.frames h).result := by
  simp only [suspendOn, pop_frames]
  rw [modify_keeps Frame.result rfl h]
  exact modify_keeps Frame.result rfl h

theorem conclude_phase : ((s.conclude f result).frames h).phase =
    if h = f then .final else (s.frames h).phase := by
  simp only [conclude, pop_frames, modify_frame]
  split_ifs <;> rfl

@[simp] theorem conclude_result :
    ((s.conclude f result).frames f).result = result := by
  simp [conclude, modify_frame]

@[simp] theorem conclude_destroyed :
    ((s.conclude f result).frames h).destroyed = (s.frames h).destroyed := by
  simp only [conclude, pop_frames]
  exact modify_keeps Frame.destroyed rfl h

@[simp] theorem conclude_caller :
    ((s.conclude f result).frames h).caller = (s.frames h).caller := by
  simp only [conclude, pop_frames]
  exact modify_keeps Frame.caller rfl h

@[simp] theorem conclude_context :
    ((s.conclude f result).frames h).context = (s.frames h).context := by
  simp only [conclude, pop_frames]
  exact modify_keeps Frame.context rfl h

@[simp] theorem conclude_flags :
    ((s.conclude f result).frames h).flags = (s.frames h).flags := by
  simp only [conclude, pop_frames]
  exact modify_keeps Frame.flags rfl h

theorem submitTo_phase : ((s.submitTo c f).frames h).phase =
    if h = f then .io s.opCount else (s.frames h).phase := by
  simp only [submitTo, pop_frames, modify_frame]
  split_ifs <;> rfl

theorem submitTo_inflight (c' : ContextId) : ((s.submitTo c f).rings c').inflight =
    if c' = c then (s.rings c).inflight ++ [{ id := s.opCount, frame := f }]
    else (s.rings c').inflight := by
  simp only [submitTo, pop_rings, modify_rings, setRing_ring]
  split_ifs <;> rfl

@[simp] theorem submitTo_running (c' : ContextId) :
    ((s.submitTo c f).rings c').running = (s.rings c').running :=
  setRing_keeps Ring.running (by rfl) c'

@[simp] theorem submitTo_finished (c' : ContextId) :
    ((s.submitTo c f).rings c').finished = (s.rings c').finished :=
  setRing_keeps Ring.finished (by rfl) c'

@[simp] theorem submitTo_destroyed :
    ((s.submitTo c f).frames h).destroyed = (s.frames h).destroyed := by
  simp only [submitTo, pop_frames]
  exact modify_keeps Frame.destroyed rfl h

@[simp] theorem submitTo_caller :
    ((s.submitTo c f).frames h).caller = (s.frames h).caller := by
  simp only [submitTo, pop_frames]
  exact modify_keeps Frame.caller rfl h

@[simp] theorem submitTo_context :
    ((s.submitTo c f).frames h).context = (s.frames h).context := by
  simp only [submitTo, pop_frames]
  exact modify_keeps Frame.context rfl h

@[simp] theorem submitTo_flags :
    ((s.submitTo c f).frames h).flags = (s.frames h).flags := by
  simp only [submitTo, pop_frames]
  exact modify_keeps Frame.flags rfl h

@[simp] theorem submitTo_result :
    ((s.submitTo c f).frames h).result = (s.frames h).result := by
  simp only [submitTo, pop_frames]
  exact modify_keeps Frame.result rfl h

end Fields

def act (s : State α) (a : Action α) : Option (Except Fault (State α)) :=
  match s.stack, a with
  | .body _ :: _, .create home =>
    if s.homeOk home then
      some (.ok { s.hold (some s.frameCount) home with frameCount := s.frameCount + 1 })
    else none
  | .body _ :: _, .move src home =>
    if (s.tasks src).alive && s.homeOk home then
      some (.ok ((s.setHandle src none).hold (s.tasks src).handle home))
    else none
  | .body _ :: _, .assign dst src =>
    if (s.tasks dst).alive && (s.tasks src).alive then some (s.assign dst src) else none
  | .body _ :: _, .drop t =>
    if (s.tasks t).alive then some (.ok (s.push (.unwinding [t] none))) else none
  | .body who :: _, .launch c t =>
    if (s.tasks t).alive then some (s.start c true t fun g s => s.push (.launching who g)) else none
  | .body _ :: _, .launchDetached c t =>
    if (s.tasks t).alive then some (s.start c true t fun _ s => s) else none
  | .body _ :: _, .blockRun c t =>
    if (s.tasks t).alive then some (s.start c false t fun _ s => s.push (.entering c)) else none
  | .body (some f) :: _, .await kind t =>
    if (s.tasks t).alive then some (s.await f kind t) else none
  | .body (some f) :: _, .io => some (s.submit f)
  | .body (some f) :: _, .finish result => some (s.finish f result)
  | .loop c :: rest, .complete res op =>
    if (s.rings c).running then
      if .loop c ∈ rest || (s.rings c).stuck then s.redispatch c op else s.complete c res op
    else none
  | .loop c :: rest, .stop res =>
    if (s.rings c).running && 0 < (s.rings c).finished && .loop c ∉ rest && !(s.rings c).stuck then
      some (s.stop c res)
    else none
  -- `resume_error` returns at once.
  | .loop c :: _, .waitError res => if (s.rings c).running && res ≠ 0 then some (.ok s) else none
  | _, .proceed => s.proceed
  | _, _ => none

/-- A fault leaves the state it has struck in, and nothing follows it. -/
def step (s : State α) (a : Action α) : Option (State α) :=
  if s.fault.isSome then none
  else (s.act a).map fun
    | .ok next => next
    | .error fault => { s with fault := some fault }

end State

end KkProxy.Coro
