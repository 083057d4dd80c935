import KkProxy.Shared.Lifetimes
import KkProxy.Shared.Runs

set_option autoImplicit false

/-!
# Calls that `base_stream` forwards

A coroutine's body runs when its task is awaited. That of a lambda reads the captures through the
closure object, which is not part of its frame.
-/

namespace KkProxy.Net

open Runs Lifetimes

namespace BaseStream

structure Span where
  data : Nat
  size : Nat
deriving DecidableEq, Repr

inductive Op where
  | send | recv
deriving DecidableEq, Repr

structure Call where
  op : Op
  buf : Span
  flags : Int
deriving DecidableEq, Repr

inductive Value where
  | span (buf : Span)
  | int (n : Int)
  -- The captures `&buf` and `&flags`.
  | closure (buf flags : Nat)
deriving DecidableEq, Repr

/-- A coroutine that has not started; `ι` are the streams a variant can hold. -/
inductive Frame (ι : Type) where
  | lambda (closure : Nat) (stream : ι) (op : Op)
  | member (stream : ι) (op : Op) (buf flags : Nat)

structure Request (ι : Type) where
  stream : ι
  call : Call
deriving DecidableEq

structure Task (ι : Type) where
  frame : Frame ι
  asked : Request ι

structure State (ι : Type) where
  memory : Memory Value
  active : Nat → ι
  tasks : Nat → Option (Task ι)
  taskCount : Nat
  requests : List (Request ι)
  results : Nat → Option Int
  -- A slot has been read whose scope has ended.
  fault : Bool

inductive Action (ι : Type) where
  | forward (stream : Nat) (call : Call)
  | direct (stream : ι) (call : Call)
  -- `answer` is what the alternative's coroutine yields.
  | await (t : Nat) (answer : Int)

variable {ι : Type}

def Frame.stream : Frame ι → ι
  | .lambda _ stream _ | .member stream _ _ _ => stream

def Frame.op : Frame ι → Op
  | .lambda _ _ op | .member _ op _ _ => op

namespace State

def init (active : Nat → ι) : State ι :=
  { memory := .empty, active, tasks := fun _ => none, taskCount := 0, requests := [],
    results := fun _ => none, fault := false }

def spawn (s : State ι) (memory : Memory Value) (frame : Frame ι) (asked : Request ι) : State ι :=
  { s with
    memory
    tasks := Function.update s.tasks s.taskCount (some { frame, asked })
    taskCount := s.taskCount + 1 }

def forward (s : State ι) (stream : Nat) (call : Call) : State ι :=
  let buf := s.memory.next
  let flags := buf + 1
  let closure := buf + 2
  let entered := (s.memory.alloc (.span call.buf)).alloc (.int call.flags)
  let visiting := entered.alloc (.closure buf flags)
  -- The closure lives to the end of the expression, the parameters to that of the function.
  let returned := ((visiting.free closure).free flags).free buf
  s.spawn returned (.lambda closure (s.active stream) call.op) { stream := s.active stream, call }

def direct (s : State ι) (stream : ι) (call : Call) : State ι :=
  let buf := s.memory.next
  let flags := buf + 1
  let copied := (s.memory.alloc (.span call.buf)).alloc (.int call.flags)
  s.spawn copied (.member stream call.op buf flags) { stream, call }

def readParameters (m : Memory Value) (buf flags : Nat) : Option (Span × Int) :=
  match m.read buf, m.read flags with
  | some (.span span), some (.int n) => some (span, n)
  | _, _ => none

/-- What the body passes on when it runs; `none` where it reads a slot that is gone. -/
def arguments (m : Memory Value) : Frame ι → Option (Span × Int)
  | .lambda closure _ _ =>
    match m.read closure with
    | some (.closure buf flags) => readParameters m buf flags
    | _ => none
  | .member _ _ buf flags => readParameters m buf flags

def await (s : State ι) (t : Nat) (task : Task ι) (answer : Int) : State ι :=
  match arguments s.memory task.frame with
  | none => { s with fault := true }
  | some (buf, flags) =>
    { s with
      tasks := Function.update s.tasks t none
      requests := s.requests ++
        [{ stream := task.frame.stream, call := { op := task.frame.op, buf, flags } }]
      results := Function.update s.results t (some answer) }

def step (s : State ι) (a : Action ι) : Option (State ι) :=
  if s.fault then none
  else match a with
    | .forward stream call => some (s.forward stream call)
    | .direct stream call => some (s.direct stream call)
    | .await t answer => (s.tasks t).map fun task => s.await t task answer

def Forwards (s : State ι) (t : Nat) (task : Task ι) : Prop :=
  ∀ answer, ∃ next, s.step (.await t answer) = some next ∧ next.fault = false ∧
    next.requests = s.requests ++ [task.asked] ∧ next.results t = some answer

def Kept (m : Memory Value) (task : Task ι) : Prop :=
  match task.frame with
  | .lambda closure _ _ => m.Ended closure
  | .member stream op buf flags => (stream = task.asked.stream ∧ op = task.asked.call.op) ∧
      m.Lives buf (.span task.asked.call.buf) ∧ m.Lives flags (.int task.asked.call.flags)

def Sound (s : State ι) : Prop := ∀ t task, s.tasks t = some task → Kept s.memory task

theorem init_sound (active : Nat → ι) : (init active).Sound := fun t task pending => by
  simp [init] at pending

theorem Kept.later {m m' : Memory Value} {task : Task ι} (kept : Kept m task)
    (later : m.Extends m') : Kept m' task := by
  unfold Kept at *
  split
  · next closure stream op frame =>
    rw [frame] at kept
    exact later.ended closure kept
  · next stream op buf flags frame =>
    rw [frame] at kept
    exact ⟨kept.1, later.lives _ _ kept.2.1, later.lives _ _ kept.2.2⟩

theorem Sound.spawn {s : State ι} (sound : s.Sound) {memory : Memory Value} {frame : Frame ι}
    {asked : Request ι} (later : s.memory.Extends memory) (new : Kept memory { frame, asked }) :
    (s.spawn memory frame asked).Sound := by
  intro t task pending
  simp only [State.spawn, Function.update_apply] at pending
  split_ifs at pending
  · obtain rfl := Option.some.inj pending
    exact new
  · exact (sound t task pending).later later

theorem Sound.forward {s : State ι} (sound : s.Sound) (stream : Nat) (call : Call) :
    (s.forward stream call).Sound := by
  have entered := ((Memory.Extends.refl s.memory).alloc (.span call.buf)).alloc (.int call.flags)
  refine sound.spawn (((entered.alloc _).free ?_).free ?_ |>.free ?_) ?_
  · exact Nat.le_add_right _ 2
  · exact Nat.le_add_right _ 1
  · exact Nat.le_refl _
  · exact ((Memory.alloc_lives _ _).ended.free _).free _

theorem Sound.direct {s : State ι} (sound : s.Sound) (stream : ι) (call : Call) :
    (s.direct stream call).Sound := by
  refine sound.spawn (((Memory.Extends.refl s.memory).alloc _).alloc _) ⟨⟨rfl, rfl⟩, ?_, ?_⟩
  · exact (Memory.alloc_lives _ _).alloc _
  · exact Memory.alloc_lives _ _

theorem Sound.await {s : State ι} (sound : s.Sound) (t : Nat) (task : Task ι) (answer : Int) :
    (s.await t task answer).Sound := by
  unfold State.await
  split
  · exact sound
  · intro t' task' pending
    simp only [Function.update_apply] at pending
    split_ifs at pending
    exact sound t' task' pending

theorem step_sound {s next : State ι} {a : Action ι} (sound : s.Sound)
    (taken : s.step a = some next) : next.Sound := by
  unfold step at taken
  split at taken
  · cases taken
  · cases a with
    | forward stream call =>
      obtain rfl := Option.some.inj taken
      exact sound.forward stream call
    | direct stream call =>
      obtain rfl := Option.some.inj taken
      exact sound.direct stream call
    | await t answer =>
      obtain ⟨task, -, rfl⟩ := Option.map_eq_some_iff.mp taken
      exact sound.await t task answer

theorem visits_sound {active : Nat → ι} {actions : List (Action ι)} {s : State ι}
    (visited : Visits step (init active) actions s) : s.Sound :=
  visits_invariant (fun _ _ _ sound _ taken => step_sound sound taken) visited
    (always_true _ _) (init_sound active)

-- A coroutine with parameters of its own does pass on what it was called with.
theorem Sound.direct_forwards {s : State ι} (sound : s.Sound) (clean : s.fault = false) {t : Nat}
    {task : Task ι} (pending : s.tasks t = some task) {stream : ι} {op : Op} {buf flags : Nat}
    (member : task.frame = .member stream op buf flags) : s.Forwards t task := by
  intro answer
  have kept := sound t task pending
  rw [Kept, member] at kept
  obtain ⟨⟨sameStream, sameOp⟩, bufLives, flagsLives⟩ := kept
  have arguments : arguments s.memory task.frame =
      some (task.asked.call.buf, task.asked.call.flags) := by
    simp [State.arguments, member, readParameters, bufLives.value, flagsLives.value]
  have stream : task.frame.stream = task.asked.stream := by rw [member, ← sameStream]; rfl
  have op : task.frame.op = task.asked.call.op := by rw [member, ← sameOp]; rfl
  refine ⟨s.await t task answer, by simp [step, clean, pending], ?_, ?_, ?_⟩
  · simp [State.await, arguments, clean]
  · simp [State.await, arguments, stream, op]
  · simp [State.await, arguments]

theorem Sound.lambda_faults {s : State ι} (sound : s.Sound) (clean : s.fault = false) {t : Nat}
    {task : Task ι} (pending : s.tasks t = some task) {closure : Nat} {stream : ι} {op : Op}
    (lambda : task.frame = .lambda closure stream op) (answer : Int) :
    s.step (.await t answer) = some { s with fault := true } := by
  have kept := sound t task pending
  rw [Kept, lambda] at kept
  have gone : arguments s.memory task.frame = none := by
    simp [arguments, lambda, kept.gone]
  simp [step, clean, pending, State.await, gone]

/--
In every run, a task that `base_stream::send` or `recv` has returned never calls the stream with what
it was asked for: whenever it is awaited, it reads a closure that is gone and makes no request.
-/
theorem never_forwards {active : Nat → ι} {actions : List (Action ι)} {s : State ι}
    (visited : Visits step (init active) actions s) {t : Nat} {task : Task ι}
    (pending : s.tasks t = some task) {closure : Nat} {stream : ι} {op : Op}
    (lambda : task.frame = .lambda closure stream op) : ¬ s.Forwards t task ∧
      (s.fault = false → ∀ answer, s.step (.await t answer) = some { s with fault := true }) := by
  have faults (clean : s.fault = false) (answer : Int) :=
    (visits_sound visited).lambda_faults clean pending lambda answer
  refine ⟨fun forwards => ?_, faults⟩
  obtain ⟨next, taken, clean, -⟩ := forwards 0
  by_cases fault : s.fault = true
  · simp [step, fault] at taken
  · obtain rfl := Option.some.inj ((faults (by simpa using fault) 0).symm.trans taken)
    simp at clean

end State

def sendAtOnce : List (Action Unit) :=
  [.forward 0 { op := .send, buf := { data := 64, size := 5 }, flags := 0 }]

theorem never_forwards_at_once :
    ∃ s task, run State.step (State.init fun _ => ()) sendAtOnce = some s ∧
      s.tasks 0 = some task ∧ ¬ s.Forwards 0 task ∧
        ∀ answer, s.step (.await 0 answer) = some { s with fault := true } := by
  have visited : Visits State.step (State.init fun _ => ()) sendAtOnce _ := visits_end rfl
  exact ⟨_, _, rfl, rfl, (State.never_forwards visited rfl rfl).imp_right fun faults => faults rfl⟩

theorem send_reads_a_dead_closure :
    ¬ ∀ (actions : List (Action Unit)) (s : State Unit) (t : Nat) (task : Task Unit),
      Visits State.step (State.init fun _ => ()) actions s → s.tasks t = some task →
        s.Forwards t task := by
  intro claim
  obtain ⟨next, taken, clean, -⟩ := claim sendAtOnce _ 0 _ (visits_end rfl) rfl 0
  have called : run State.step (State.init fun _ => ()) sendAtOnce = some _ := rfl
  have reached := run_snoc called taken
  have fault : (run State.step (State.init fun _ => ()) (sendAtOnce ++ [.await 0 0])).map
      State.fault = some true := rfl
  simp [reached, clean] at fault

end BaseStream

end KkProxy.Net
