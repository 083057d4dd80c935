import KkProxy.Coro.Step
import KkProxy.Uring.Submit

set_option autoImplicit false

/-!
# Coroutines over the queues of their rings

In `Step` the event loop lets any operation in flight complete. Here an operation goes through the
submission queue of its ring, the kernel and the completion queue.
-/

namespace KkProxy.Coro

inductive Entry where
  | operation (op : Op)
  -- `io_data_completed`.
  | sentinel
deriving DecidableEq, Repr

/-- The queues of an `io_uring`, and the `uring_loop` on it. -/
structure Queues where
  prepared : List Entry
  accepted : List Entry
  -- The completion queue from its head.
  completed : List Entry
  -- The head has been dispatched, and not been marked as seen.
  unseen : Bool
  -- It came with an error code, so that `io_uring_cqe_seen` does not follow.
  stuck : Bool
  running : Bool
deriving DecidableEq, Repr

namespace Queues

def init : Queues :=
  { prepared := [], accepted := [], completed := [], unseen := false, stuck := false
    running := false }

-- `io_uring_get_sqe` returns null.
def full (q : Queues) : Bool := Uring.Ring.entries ≤ q.prepared.length

def prepare (q : Queues) (e : Entry) : Queues := { q with prepared := q.prepared ++ [e] }

def submit (q : Queues) (ret : Int) : Queues :=
  if ret < 0 then q else { q with prepared := [], accepted := q.accepted ++ q.prepared }

def post (q : Queues) (e : Entry) : Option Queues :=
  if e ∈ q.accepted then
    some { q with accepted := q.accepted.erase e, completed := q.completed ++ [e] }
  else none

def seen (q : Queues) : Queues := { q with completed := q.completed.tail, unseen := false }

-- The completions that have not been dispatched.
def remaining (q : Queues) : List Entry := if q.unseen then q.completed.tail else q.completed

def pending (q : Queues) : List Entry := q.prepared ++ q.accepted ++ q.remaining

end Queues

/-- The coroutines of a thread; the rings of `thread` are not used. -/
structure Machine (α : Type) where
  thread : State α
  queues : ContextId → Queues
  -- `io_context::finish` has written to the null entry of a full submission queue.
  broken : Bool

inductive Event (α : Type) where
  | act (a : Action α)
  -- `co_await` of an awaiter; in this event and the next `io_uring_submit` returns `ret`.
  | io (ret : Int)
  | finish (result : Option α) (ret : Int)
  | complete (c : ContextId) (e : Entry)
  | turn
  -- `io_uring_wait_cqe` returns an error code, with the head of the queue or with no completion.
  | waitError (res : Int) (found : Bool)

namespace State

variable {α : Type}

def withRings (s : State α) (rings : ContextId → Ring) : State α := { s with rings }

def suspend (s : State α) (f : Handle) : State α :=
  ({ s with opCount := s.opCount + 1 }.modify f fun frame =>
    { frame with phase := .io s.opCount }).pop

end State

def Action.isLocal {α : Type} (a : Action α) (stack : List Activation) : Bool :=
  match stack, a with
  | _, .io | _, .finish _ | _, .complete _ _ | _, .stop _ | _, .waitError _ => false
  | .entering _ :: _, .proceed | .loop _ :: _, .proceed => false
  | _, _ => true

namespace Machine

variable {α : Type}

def init : Machine α := { thread := .init, queues := fun _ => .init, broken := false }

def withThread (m : Machine α) (thread : State α) : Machine α := { m with thread }

def setQueues (m : Machine α) (c : ContextId) (q : Queues) : Machine α :=
  { m with queues := Function.update m.queues c q }

def act (m : Machine α) (a : Action α) : Option (Except Fault (Machine α)) :=
  if a.isLocal m.thread.stack then (m.thread.act a).map fun done => done.map m.withThread
  else none

def io (m : Machine α) (f : Handle) (ret : Int) : Except Fault (Machine α) :=
  match (m.thread.frames f).context with
  | none => .error .nullContext
  | some c =>
    -- The awaiter is ready, with -10086.
    if (m.queues c).full then .ok m
    else
      let op : Op := { id := m.thread.opCount, frame := f }
      .ok ((m.withThread (m.thread.suspend f)).setQueues c
        (((m.queues c).prepare (.operation op)).submit ret))

-- `final_task_awaiter::await_suspend`, with `io_context::finish`.
def finish (m : Machine α) (f : Handle) (result : Option α) (ret : Int) : Except Fault (Machine α) :=
  let concluded := m.thread.conclude f result
  match (m.thread.frames f).caller with
  | some caller => (concluded.resume caller).map m.withThread
  | none =>
    if (m.thread.frames f).flags.isDaemon then .ok (m.withThread concluded)
    else match (m.thread.frames f).context with
      | none => (concluded.destroy f [] none).map m.withThread
      | some c =>
        if (m.queues c).full then .ok { m with broken := true }
        else (concluded.destroy f [] none).map fun next =>
          (m.withThread next).setQueues c (((m.queues c).prepare .sentinel).submit ret)

-- `uring_loop::resume` or `resume_error`.
def dispatch (m : Machine α) (c : ContextId) (res : Int) (op : Op) : Except Fault (Machine α) :=
  if (m.thread.frames op.frame).destroyed then .error .resumeDestroyed
  else if (m.thread.frames op.frame).phase = .io op.id then
    (m.thread.resume op.frame).map fun next =>
      (m.withThread next).setQueues c
        { m.queues c with unseen := true, stuck := decide (res ≠ 0) }
  else .error .staleAwaiter

def take (m : Machine α) (c : ContextId) (res : Int) : Entry → Except Fault (Machine α)
  | .operation op => m.dispatch c res op
  | .sentinel =>
    if res = 0 then .ok (m.setQueues c { (m.queues c).seen with running := false })
    else if res = Uring.timedOut then .ok (m.setQueues c { m.queues c with running := false })
    else .error .nullHandle

def marks (m : Machine α) (c : ContextId) (rest : List Activation) : Bool :=
  (m.queues c).unseen && !(m.queues c).stuck && .loop c ∉ rest

/-- `uring_loop::run`; a loop entered while the same ring dispatches finds the old head. -/
def turn (m : Machine α) : Option (Except Fault (Machine α)) :=
  match m.thread.stack with
  | .entering c :: rest =>
    some (.ok ((m.withThread { m.thread with stack := .loop c :: rest }).setQueues c
      { m.queues c with running := true }))
  | .loop c :: rest =>
    if m.marks c rest then some (.ok (m.setQueues c (m.queues c).seen))
    else if (m.queues c).running then
      -- With no completion `io_uring_wait_cqe` blocks.
      (m.queues c).completed.head?.map (m.take c 0)
    else some (.ok (m.withThread { m.thread with stack := rest }))
  | _ => none

def waitError (m : Machine α) (res : Int) (found : Bool) : Option (Except Fault (Machine α)) :=
  match m.thread.stack with
  | .loop c :: rest =>
    if m.marks c rest || !(m.queues c).running || res = 0 then none
    else if found then (m.queues c).completed.head?.map (m.take c res)
    else some (.ok m)
  | _ => none

def play (m : Machine α) (e : Event α) : Option (Except Fault (Machine α)) :=
  match m.thread.stack, e with
  | _, .act a => m.act a
  | .body (some f) :: _, .io ret => some (m.io f ret)
  | .body (some f) :: _, .finish result ret => some (m.finish f result ret)
  | _, .complete c e => ((m.queues c).post e).map fun q => .ok (m.setQueues c q)
  | _, .turn => m.turn
  | _, .waitError res found => m.waitError res found
  | _, _ => none

def settle (m : Machine α) : Except Fault (Machine α) → Machine α
  | .ok next => next
  | .error fault => m.withThread { m.thread with fault := some fault }

def step (m : Machine α) (e : Event α) : Option (Machine α) :=
  if m.thread.fault.isSome || m.broken then none else (m.play e).map m.settle

end Machine

end KkProxy.Coro
