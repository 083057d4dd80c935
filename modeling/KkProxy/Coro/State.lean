import KkProxy.Coro.Flag
import Mathlib.Logic.Function.Basic

set_option autoImplicit false

/-!
# Coroutine frames and task objects

The state of one thread that runs coroutines: their frames, the `task` objects that hold handles of
them, the rings of the `io_context`s, and the stack of calls in progress.
-/

namespace KkProxy.Coro

-- A `std::coroutine_handle`, by the number of its frame.
abbrev Handle := Nat

abbrev TaskId := Nat

abbrev ContextId := Nat

abbrev OpId := Nat

inductive Phase where
  | created
  | running
  | awaiting (callee : Handle)
  | io (op : OpId)
  | final
deriving DecidableEq, Repr

/-- A frame with its promise; `α` is what a task can return or throw. -/
structure Frame (α : Type) where
  caller : Option Handle
  context : Option ContextId
  flags : Flags
  -- `value_` or `ex_`, if one of them is set.
  result : Option α
  phase : Phase
  -- What the last `co_await` of a task in this coroutine yielded.
  received : Option α
  destroyed : Bool
deriving DecidableEq

def Frame.fresh {α : Type} : Frame α :=
  { caller := none, context := none, flags := 0, result := none, phase := .created,
    received := none, destroyed := false }

/-- A `task` object; `home` is the frame it is a local variable or parameter of, if any. -/
structure Task where
  alive : Bool
  handle : Option Handle
  home : Option Handle
deriving DecidableEq, Repr

/-- A submitted operation; its `user_data` points into the frame of the coroutine it resumes. -/
structure Op where
  id : OpId
  frame : Handle
deriving DecidableEq, Repr

structure Ring where
  inflight : List Op
  -- The completion dispatched last: at the head of the queue until control is back in the loop.
  dispatched : Option Op
  -- It came with an error code: the loop goes on without marking it as seen.
  stuck : Bool
  finished : Nat
  running : Bool
deriving DecidableEq, Repr

inductive Activation where
  -- The body of a coroutine, or code that is not part of any.
  | body (who : Option Handle)
  | launching (who : Option Handle) (handle : Handle)
  -- `io_context::block_run` before `loop_.run()`.
  | entering (c : ContextId)
  | loop (c : ContextId)
  -- Destructors still to be run, and then the second half of `pending.1 = std::move(pending.2)`.
  | unwinding (tasks : List TaskId) (pending : Option (TaskId × TaskId))
deriving DecidableEq, Repr

inductive Fault where
  -- The loop or a final awaiter resumes a destroyed frame, or writes its result there.
  | resumeDestroyed
  | resumeUnsuspended
  -- An operation completes whose awaiter is gone.
  | staleAwaiter
  | deadPromise
  | emptyHandle
  | readDestroyed
  | doubleDestroy
  | destroyRunning
  | nullContext
  -- `resume_error` resumes the null handle of `io_data_completed`.
  | nullHandle
deriving DecidableEq, Repr

structure State (α : Type) where
  frames : Handle → Frame α
  frameCount : Nat
  tasks : TaskId → Task
  taskCount : Nat
  rings : ContextId → Ring
  opCount : Nat
  stack : List Activation
  fault : Option Fault

namespace State

variable {α : Type}

def init : State α :=
  { frames := fun _ => .fresh
    frameCount := 0
    tasks := fun _ => { alive := false, handle := none, home := none }
    taskCount := 0
    rings := fun _ =>
      { inflight := [], dispatched := none, stuck := false, finished := 0, running := false }
    opCount := 0
    stack := [.body none]
    fault := none }

def modify (s : State α) (g : Handle) (change : Frame α → Frame α) : State α :=
  { s with frames := Function.update s.frames g (change (s.frames g)) }

def setHandle (s : State α) (t : TaskId) (handle : Option Handle) : State α :=
  { s with tasks := Function.update s.tasks t { s.tasks t with handle } }

def hold (s : State α) (handle home : Option Handle) : State α :=
  { s with
    tasks := Function.update s.tasks s.taskCount { alive := true, handle, home }
    taskCount := s.taskCount + 1 }

-- The lifetime of a task object ends; its memory keeps the handle.
def kill (s : State α) (t : TaskId) : State α :=
  { s with tasks := Function.update s.tasks t { s.tasks t with alive := false } }

def setRing (s : State α) (c : ContextId) (ring : Ring) : State α :=
  { s with rings := Function.update s.rings c ring }

def push (s : State α) (a : Activation) : State α := { s with stack := a :: s.stack }

def pop (s : State α) : State α := { s with stack := s.stack.tail }

def run (s : State α) (g : Handle) (received : Option α) : State α :=
  (s.modify g fun f => { f with phase := .running, received }).push (.body (some g))

-- The live task objects in a frame, in the order in which they are destroyed.
def homed (s : State α) (g : Handle) : List TaskId :=
  ((List.range s.taskCount).filter fun t =>
    (s.tasks t).alive && (s.tasks t).home == some g).reverse

-- The frame of `g` is gone; the destructors in it are to be run, and after them those of `rest`.
def teardown (s : State α) (g : Handle) (rest : List TaskId)
    (pending : Option (TaskId × TaskId)) : State α :=
  (s.modify g fun f => { f with destroyed := true }).push (.unwinding (s.homed g ++ rest) pending)

def destroy (s : State α) (g : Handle) (rest : List TaskId) (pending : Option (TaskId × TaskId)) :
    Except Fault (State α) :=
  if (s.frames g).destroyed then .error .doubleDestroy
  else if (s.frames g).phase = .running then .error .destroyRunning
  else .ok (s.teardown g rest pending)

/-- `handle()`; a coroutine suspended at the `co_await` of a task then reads that task's promise. -/
def resume (s : State α) (g : Handle) : Except Fault (State α) :=
  if (s.frames g).destroyed then .error .resumeDestroyed
  else match (s.frames g).phase with
    | .created | .io _ => .ok (s.run g (s.frames g).received)
    | .awaiting callee =>
      if (s.frames callee).destroyed then .error .readDestroyed
      else .ok (s.run g (s.frames callee).result)
    | .running | .final => .error .resumeUnsuspended

section Fields

variable (s : State α) (g : Handle) (t : TaskId) (change : Frame α → Frame α)
variable (handle home : Option Handle) (c : ContextId) (ring : Ring) (a : Activation)
variable (rest : List TaskId) (pending : Option (TaskId × TaskId)) (received : Option α)

theorem modify_frame (h : Handle) :
    (s.modify g change).frames h = if h = g then change (s.frames g) else s.frames h := by
  simp only [modify, Function.update_apply]

@[simp] theorem modify_tasks : (s.modify g change).tasks = s.tasks := rfl
@[simp] theorem modify_rings : (s.modify g change).rings = s.rings := rfl
@[simp] theorem modify_stack : (s.modify g change).stack = s.stack := rfl
@[simp] theorem setHandle_frames : (s.setHandle t handle).frames = s.frames := rfl
@[simp] theorem setHandle_rings : (s.setHandle t handle).rings = s.rings := rfl
@[simp] theorem setHandle_stack : (s.setHandle t handle).stack = s.stack := rfl
@[simp] theorem hold_frames : (s.hold handle home).frames = s.frames := rfl
@[simp] theorem hold_rings : (s.hold handle home).rings = s.rings := rfl
@[simp] theorem hold_stack : (s.hold handle home).stack = s.stack := rfl
@[simp] theorem kill_frames : (s.kill t).frames = s.frames := rfl
@[simp] theorem kill_rings : (s.kill t).rings = s.rings := rfl
@[simp] theorem kill_stack : (s.kill t).stack = s.stack := rfl
@[simp] theorem setRing_frames : (s.setRing c ring).frames = s.frames := rfl
@[simp] theorem setRing_tasks : (s.setRing c ring).tasks = s.tasks := rfl
@[simp] theorem setRing_stack : (s.setRing c ring).stack = s.stack := rfl
@[simp] theorem push_frames : (s.push a).frames = s.frames := rfl
@[simp] theorem push_tasks : (s.push a).tasks = s.tasks := rfl
@[simp] theorem push_rings : (s.push a).rings = s.rings := rfl
@[simp] theorem push_stack : (s.push a).stack = a :: s.stack := rfl
@[simp] theorem pop_frames : s.pop.frames = s.frames := rfl
@[simp] theorem pop_tasks : s.pop.tasks = s.tasks := rfl
@[simp] theorem pop_rings : s.pop.rings = s.rings := rfl
@[simp] theorem pop_stack : s.pop.stack = s.stack.tail := rfl
@[simp] theorem run_tasks : (s.run g received).tasks = s.tasks := rfl
@[simp] theorem run_rings : (s.run g received).rings = s.rings := rfl
@[simp] theorem run_stack : (s.run g received).stack = .body (some g) :: s.stack := rfl
@[simp] theorem teardown_tasks : (s.teardown g rest pending).tasks = s.tasks := rfl
@[simp] theorem teardown_rings : (s.teardown g rest pending).rings = s.rings := rfl
@[simp] theorem teardown_stack : (s.teardown g rest pending).stack =
    .unwinding (s.homed g ++ rest) pending :: s.stack := rfl

theorem setRing_ring (c' : ContextId) :
    (s.setRing c ring).rings c' = if c' = c then ring else s.rings c' := by
  simp only [setRing, Function.update_apply]

theorem setHandle_task (u : TaskId) : (s.setHandle t handle).tasks u =
    { s.tasks u with handle := if u = t then handle else (s.tasks u).handle } := by
  simp only [setHandle, Function.update_apply]
  split_ifs with same
  · rw [same]
  · rfl

theorem hold_task (u : TaskId) : (s.hold handle home).tasks u =
    if u = s.taskCount then { alive := true, handle, home } else s.tasks u := by
  simp only [hold, Function.update_apply]

theorem kill_task (u : TaskId) : (s.kill t).tasks u =
    { s.tasks u with alive := if u = t then false else (s.tasks u).alive } := by
  simp only [kill, Function.update_apply]
  split_ifs with same
  · rw [same]
  · rfl

theorem modify_keeps {β : Type} (field : Frame α → β) {s : State α} {g : Handle}
    {change : Frame α → Frame α} (keeps : field (change (s.frames g)) = field (s.frames g))
    (h : Handle) : field ((s.modify g change).frames h) = field (s.frames h) := by
  rw [modify_frame]
  split_ifs with same
  · rw [same, keeps]
  · rfl

theorem setRing_keeps {β : Type} (field : Ring → β) {s : State α} {c : ContextId} {ring : Ring}
    (keeps : field ring = field (s.rings c)) (c' : ContextId) :
    field ((s.setRing c ring).rings c') = field (s.rings c') := by
  rw [setRing_ring]
  split_ifs with same
  · rw [same, keeps]
  · rfl

variable {s g rest pending received} {h : Handle}

theorem modify_other {change : Frame α → Frame α} (other : h ≠ g) :
    (s.modify g change).frames h = s.frames h := by
  rw [modify_frame, if_neg other]

theorem run_other (other : h ≠ g) : (s.run g received).frames h = s.frames h := by
  rw [run, push_frames, modify_other other]

theorem teardown_other (other : h ≠ g) :
    (s.teardown g rest pending).frames h = s.frames h := by
  rw [teardown, push_frames, modify_other other]

theorem run_phase :
    ((s.run g received).frames h).phase = if h = g then .running else (s.frames h).phase := by
  simp only [run, push_frames, modify_frame]
  split_ifs <;> rfl

@[simp] theorem run_received : ((s.run g received).frames g).received = received := by
  simp [run, modify_frame]

@[simp] theorem run_destroyed :
    ((s.run g received).frames h).destroyed = (s.frames h).destroyed := by
  simp only [run, push_frames]
  exact modify_keeps Frame.destroyed rfl h

@[simp] theorem run_caller : ((s.run g received).frames h).caller = (s.frames h).caller := by
  simp only [run, push_frames]
  exact modify_keeps Frame.caller rfl h

@[simp] theorem run_context : ((s.run g received).frames h).context = (s.frames h).context := by
  simp only [run, push_frames]
  exact modify_keeps Frame.context rfl h

@[simp] theorem run_flags : ((s.run g received).frames h).flags = (s.frames h).flags := by
  simp only [run, push_frames]
  exact modify_keeps Frame.flags rfl h

@[simp] theorem run_result : ((s.run g received).frames h).result = (s.frames h).result := by
  simp only [run, push_frames]
  exact modify_keeps Frame.result rfl h

theorem teardown_destroyed : ((s.teardown g rest pending).frames h).destroyed =
    if h = g then true else (s.frames h).destroyed := by
  simp only [teardown, push_frames, modify_frame]
  split_ifs <;> rfl

@[simp] theorem teardown_phase :
    ((s.teardown g rest pending).frames h).phase = (s.frames h).phase := by
  simp only [teardown, push_frames]
  exact modify_keeps Frame.phase rfl h

@[simp] theorem teardown_caller :
    ((s.teardown g rest pending).frames h).caller = (s.frames h).caller := by
  simp only [teardown, push_frames]
  exact modify_keeps Frame.caller rfl h

@[simp] theorem teardown_context :
    ((s.teardown g rest pending).frames h).context = (s.frames h).context := by
  simp only [teardown, push_frames]
  exact modify_keeps Frame.context rfl h

@[simp] theorem teardown_flags :
    ((s.teardown g rest pending).frames h).flags = (s.frames h).flags := by
  simp only [teardown, push_frames]
  exact modify_keeps Frame.flags rfl h

@[simp] theorem teardown_result :
    ((s.teardown g rest pending).frames h).result = (s.frames h).result := by
  simp only [teardown, push_frames]
  exact modify_keeps Frame.result rfl h

end Fields

end State

end KkProxy.Coro
