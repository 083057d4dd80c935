import KkProxy.Coro.Queues
import KkProxy.Coro.Rings

set_option autoImplicit false

namespace KkProxy.Coro

open Runs

namespace Machine

variable {α : Type}

-- The machine in which any operation in flight may complete stands where the queues stand.
structure Mirrors (m : Machine α) (s : State α) : Prop where
  same : s = m.thread.withRings s.rings
  shows : ∀ c, (m.queues c).Shows (s.rings c)
  -- A loop below the top of the stack is dispatching.
  nested : ∀ c, .loop c ∈ m.thread.stack.tail → (m.queues c).unseen = true

section Step

variable {m m' : Machine α} {s : State α}

theorem Mirrors.stack (mirrors : m.Mirrors s) : s.stack = m.thread.stack := by
  rw [mirrors.same]
  rfl

theorem Mirrors.frames (mirrors : m.Mirrors s) : s.frames = m.thread.frames := by
  rw [mirrors.same]
  rfl

theorem Mirrors.fault (mirrors : m.Mirrors s) : s.fault = m.thread.fault := by
  rw [mirrors.same]
  rfl

theorem Mirrors.move (mirrors : m.Mirrors s) (thread : State α)
    (nested : ∀ c, .loop c ∈ thread.stack.tail → (m.queues c).unseen = true) :
    (m.withThread thread).Mirrors (thread.withRings s.rings) :=
  ⟨rfl, mirrors.shows, nested⟩

theorem Mirrors.set (mirrors : m.Mirrors s) (c : ContextId) {q : Queues} {r : Ring}
    (new : q.Shows r) (nested : .loop c ∈ m.thread.stack.tail → q.unseen = true) :
    (m.setQueues c q).Mirrors (s.setRing c r) where
  same := by
    rw [mirrors.same]
    rfl
  shows c' := by
    simp only [State.setRing_ring, setQueues, Function.update_apply]
    split_ifs
    · exact new
    · exact mirrors.shows c'
  nested c' member := by
    simp only [setQueues, Function.update_apply]
    split_ifs with same
    · exact nested (same ▸ member)
    · exact mirrors.nested c' member

theorem local_tail {s next : State α} {a : Action α} (free : a.isLocal s.stack = true)
    (done : s.act a = some (.ok next)) {c : ContextId} (member : .loop c ∈ next.stack.tail) :
    .loop c ∈ s.stack.tail := by
  cases State.act_effect done with
  | start a who rest c daemon t g below received top alive holds starts =>
    cases starts <;> simp_all [State.starting]
  | awaitDaemon | unwound | assigned | launched =>
    have member := List.mem_of_mem_tail member
    simp_all
  | entered c' rest top | left c' rest top => simp [Action.isLocal, top] at free
  | submit | finishCaller | finishDaemon | finishDestroy | complete | stop | stopTimedOut
  | waitError =>
    simp [Action.isLocal] at free
  | _ => simp_all

-- The step that an event is for the machine in which any operation in flight may complete.
inductive Plays (m : Machine α) : Event α → Action α → Prop where
  | act (a : Action α) : Plays m (.act a) a
  | io (ret : Int) : Plays m (.io ret) .io
  | finish (result : Option α) (ret : Int) : Plays m (.finish result ret) (.finish result)
  | complete (op : OpId) : Plays m .turn (.complete 0 op)
  | stop : Plays m .turn (.stop 0)
  | completeError (res : Int) (op : OpId) : Plays m (.waitError res true) (.complete res op)
  | stopError (res : Int) : Plays m (.waitError res true) (.stop res)
  | waitError (res : Int) : Plays m (.waitError res false) (.waitError res)
  | enter (c : ContextId) (rest : List Activation) (top : m.thread.stack = .entering c :: rest) :
    Plays m .turn .proceed
  | leave (c : ContextId) (rest : List Activation) (top : m.thread.stack = .loop c :: rest) :
    Plays m .turn .proceed

def Follows (m : Machine α) (e : Event α) (s : State α) (m' : Machine α) : Prop :=
  m'.Mirrors s ∨ ∃ a s', m.Plays e a ∧ s.step a = some s' ∧ m'.Mirrors s'

theorem Mirrors.step_ok (clean : s.fault = none) {a : Action α} {e : Event α} {s' : State α}
    (plays : m.Plays e a) (done : s.act a = some (.ok s')) (mirrors : m'.Mirrors s') :
    m.Follows e s m' :=
  .inr ⟨a, s', plays, by simp [State.step, clean, done], mirrors⟩

theorem Mirrors.step_error (mirrors : m.Mirrors s) (clean : s.fault = none) {a : Action α}
    {e : Event α} {fault : Fault} (plays : m.Plays e a) (done : s.act a = some (.error fault)) :
    m.Follows e s (m.settle (.error fault)) := by
  refine .inr ⟨a, { s with fault := some fault }, plays, by simp [State.step, clean, done], ?_⟩
  exact ⟨by rw [mirrors.same]; rfl, mirrors.shows, mirrors.nested⟩

theorem Mirrors.lift (mirrors : m.Mirrors s) (clean : s.fault = none) {a : Action α} {e : Event α}
    (plays : m.Plays e a) (done : Except Fault (State α))
    (acted : s.act a = some (done.map (·.withRings s.rings)))
    (fewer : ∀ next, done = .ok next →
      ∀ c, .loop c ∈ next.stack.tail → .loop c ∈ m.thread.stack.tail) :
    m.Follows e s (m.settle (done.map m.withThread)) := by
  cases done with
  | error fault => exact mirrors.step_error clean plays acted
  | ok next =>
    refine Mirrors.step_ok clean plays acted (mirrors.move next fun c member => ?_)
    exact mirrors.nested c (fewer next rfl c member)

theorem Mirrors.act (mirrors : m.Mirrors s) (clean : s.fault = none) {a : Action α}
    {done : Except Fault (Machine α)} (acted : m.act a = some done) :
    m.Follows (.act a) s (m.settle done) := by
  unfold Machine.act at acted
  split_ifs at acted with free
  obtain ⟨result, moved, rfl⟩ := Option.map_eq_some_iff.mp acted
  refine mirrors.lift clean (.act a) result ?_ fun next ok c => local_tail free (ok ▸ moved)
  rw [mirrors.same, State.act_withRings _ _ free, moved]
  rfl

theorem Mirrors.io (mirrors : m.Mirrors s) (clean : s.fault = none) {f : Handle}
    {rest : List Activation} (top : m.thread.stack = .body (some f) :: rest) (ret : Int) :
    m.Follows (.io ret) s (m.settle (m.io f ret)) := by
  have above : s.stack = .body (some f) :: rest := mirrors.stack.trans top
  have submits : s.act .io = some (s.submit f) := by simp [State.act, above]
  cases context : (m.thread.frames f).context with
  | none =>
    have done : m.io f ret = .error .nullContext := by simp [Machine.io, context]
    rw [done]
    refine mirrors.step_error clean (.io ret) (submits.trans ?_)
    simp [State.submit, mirrors.frames, context]
  | some c =>
    by_cases full : (m.queues c).full = true
    · have done : m.io f ret = .ok m := by simp [Machine.io, context, full]
      rw [done]
      exact .inl mirrors
    · let op : Op := { id := m.thread.opCount, frame := f }
      have done : m.io f ret = .ok ((m.withThread (m.thread.suspend f)).setQueues c
          (((m.queues c).prepare (.operation op)).submit ret)) := by
        simp [Machine.io, context, full, op]
      have submitted : s.submitTo c f = ((m.thread.suspend f).withRings s.rings).setRing c
          { s.rings c with inflight := (s.rings c).inflight ++ [op] } := by
        rw [mirrors.same]
        rfl
      have suspended : s.submit f = .ok (s.submitTo c f) := by
        simp [State.submit, mirrors.frames, context]
      rw [done]
      refine Mirrors.step_ok clean (.io ret) (submits.trans (congrArg some suspended)) ?_
      rw [submitted]
      have moved := mirrors.move (m.thread.suspend f) fun c member =>
        mirrors.nested c (List.mem_of_mem_tail member)
      refine moved.set c ((mirrors.shows c).submit_operation op) fun member => ?_
      rw [Queues.submit_unseen]
      exact moved.nested c member

theorem Mirrors.finish (mirrors : m.Mirrors s) (clean : s.fault = none) {f : Handle}
    {rest : List Activation} (top : m.thread.stack = .body (some f) :: rest) (result : Option α)
    (ret : Int) (whole : (m.settle (m.finish f result ret)).broken = false) :
    m.Follows (.finish result ret) s (m.settle (m.finish f result ret)) := by
  have above : s.stack = .body (some f) :: rest := mirrors.stack.trans top
  have finishes : s.act (.finish result) = some (s.finish f result) := by simp [State.act, above]
  have concluded (rings : ContextId → Ring) : (m.thread.withRings rings).conclude f result =
      (m.thread.conclude f result).withRings rings := rfl
  cases called : (m.thread.frames f).caller with
  | some caller =>
    have done : m.finish f result ret =
        ((m.thread.conclude f result).resume caller).map m.withThread := by
      simp [Machine.finish, called]
    rw [done]
    refine mirrors.lift clean (.finish result ret) _ (finishes.trans (congrArg some ?_)) ?_
    · rw [← State.resume_withRings, ← concluded, ← mirrors.same]
      simp [State.finish, mirrors.frames, called]
    · intro next resumed c member
      obtain ⟨received, -, rfl⟩ := State.resume_ok resumed
      exact member
  | none =>
    by_cases daemon : (m.thread.frames f).flags.isDaemon = true
    · have done : m.finish f result ret = .ok (m.withThread (m.thread.conclude f result)) := by
        simp [Machine.finish, called, daemon]
      rw [done]
      refine mirrors.lift clean (.finish result ret) (.ok (m.thread.conclude f result))
        (finishes.trans (congrArg some ?_)) fun next same c member => ?_
      · rw [Except.map, ← concluded, ← mirrors.same]
        simp [State.finish, mirrors.frames, called, daemon]
      · obtain rfl := Except.ok.inj same
        exact List.mem_of_mem_tail member
    · have destroys : s.finish f result =
          ((s.conclude f result).taskFinish (m.thread.frames f).context).destroy f [] none := by
        simp [State.finish, mirrors.frames, called, daemon]
      have fewer (next : State α)
          (destroyed : (m.thread.conclude f result).destroy f [] none = .ok next) (c : ContextId)
          (member : .loop c ∈ next.stack.tail) : .loop c ∈ m.thread.stack.tail := by
        obtain ⟨-, -, rfl⟩ := State.destroy_ok destroyed
        exact member
      cases context : (m.thread.frames f).context with
      | none =>
        have done : m.finish f result ret =
            ((m.thread.conclude f result).destroy f [] none).map m.withThread := by
          simp [Machine.finish, called, daemon, context]
        rw [done]
        refine mirrors.lift clean (.finish result ret) _ (finishes.trans (congrArg some ?_)) fewer
        rw [destroys, context, ← State.destroy_withRings, ← concluded, ← mirrors.same]
        rfl
      | some c =>
        by_cases full : (m.queues c).full = true
        · have done : m.finish f result ret = .ok { m with broken := true } := by
            simp [Machine.finish, called, daemon, context, full]
          rw [done] at whole
          cases whole
        · let q := ((m.queues c).prepare .sentinel).submit ret
          let r := { s.rings c with finished := (s.rings c).finished + 1 }
          have done : m.finish f result ret =
              ((m.thread.conclude f result).destroy f [] none).map fun next =>
                (m.withThread next).setQueues c q := by
            simp [Machine.finish, called, daemon, context, full, q]
          have posted : (s.conclude f result).taskFinish (some c) =
              (m.thread.conclude f result).withRings (Function.update s.rings c r) := by
            rw [State.taskFinish, mirrors.same]
            rfl
          have acted : s.act (.finish result) =
              some (((m.thread.conclude f result).destroy f [] none).map
                (·.withRings (Function.update s.rings c r))) := by
            rw [finishes, destroys, context, posted, State.destroy_withRings]
          rw [done]
          cases destroyed : (m.thread.conclude f result).destroy f [] none with
          | error fault =>
            rw [destroyed] at acted
            exact mirrors.step_error clean (.finish result ret) acted
          | ok next =>
            rw [destroyed] at acted
            refine Mirrors.step_ok clean (.finish result ret) acted ?_
            have moved := mirrors.move next fun c member =>
              mirrors.nested c (fewer next destroyed c member)
            refine moved.set c (mirrors.shows c).submit_sentinel fun member => ?_
            rw [Queues.submit_unseen]
            exact moved.nested c member

theorem Mirrors.shift (mirrors : m.Mirrors s) {c : ContextId} {q : Queues}
    (shows : q.Shows (s.rings c)) (nested : .loop c ∈ m.thread.stack.tail → q.unseen = true) :
    (m.setQueues c q).Mirrors s := by
  have kept : s.setRing c (s.rings c) = s := by simp [State.setRing]
  rw [← kept]
  exact mirrors.set c shows nested

theorem Mirrors.post (mirrors : m.Mirrors s) {c : ContextId} {e : Entry} {q : Queues}
    (posted : (m.queues c).post e = some q) : (m.setQueues c q).Mirrors s := by
  refine mirrors.shift ((mirrors.shows c).post posted) fun member => ?_
  rw [Queues.post_unseen posted]
  exact mirrors.nested c member

theorem Mirrors.enter (mirrors : m.Mirrors s) (clean : s.fault = none) {c : ContextId}
    {rest : List Activation} (top : m.thread.stack = .entering c :: rest)
    {done : Except Fault (Machine α)} (turned : m.turn = some done) :
    m.Follows .turn s (m.settle done) := by
  have above : s.stack = .entering c :: rest := mirrors.stack.trans top
  obtain rfl : done = _ := by simpa [turn, top] using turned.symm
  let thread : State α := { m.thread with stack := .loop c :: rest }
  have same : { s with stack := .loop c :: rest } = thread.withRings s.rings := by
    rw [mirrors.same]
    rfl
  have nested (c' : ContextId) (member : .loop c' ∈ rest) : (m.queues c').unseen = true :=
    mirrors.nested c' (by rwa [top])
  have moved := (mirrors.move thread nested).set c (mirrors.shows c).run (nested c)
  refine Mirrors.step_ok clean (.enter c rest top) ?_ moved
  rw [← same]
  simp [State.act, State.proceed, above]

theorem dispatch_runs {c : ContextId} {res : Int} {op : Op}
    (phase : (m.thread.frames op.frame).phase = .io op.id)
    (intact : (m.thread.frames op.frame).destroyed = false) : m.dispatch c res op =
      .ok ((m.withThread (m.thread.run op.frame (m.thread.frames op.frame).received)).setQueues c
        { m.queues c with unseen := true, stuck := decide (res ≠ 0) }) := by
  simp [Machine.dispatch, State.resume, phase, intact, Except.map]

theorem Mirrors.dispatch_again (mirrors : m.Mirrors s) (spent : s.Spent) (clean : s.fault = none)
    {c : ContextId} {rest : List Activation} {res : Int} {op : Op} {later : List Entry} {e : Event α}
    (plays : m.Plays e (.complete res op.id)) (top : m.thread.stack = .loop c :: rest)
    (running : (m.queues c).running = true)
    (head : (m.queues c).completed = .operation op :: later)
    (unseen : (m.queues c).unseen = true) (waits : m.marks c rest = false) :
    m.Follows e s (m.settle (m.dispatch c res op)) := by
  have above : s.stack = .loop c :: rest := mirrors.stack.trans top
  have runs : (s.rings c).running = true := (mirrors.shows c).running.trans running
  have frames := mirrors.frames
  obtain ⟨op', later', head', dispatched⟩ := (mirrors.shows c).head unseen
  obtain ⟨rfl, -⟩ : op = op' ∧ later = later' := by simpa [head] using head'
  have stuck : (s.rings c).stuck = (m.queues c).stuck := by
    rw [(mirrors.shows c).stuck, unseen, Bool.true_and]
  have again : .loop c ∈ rest ∨ (s.rings c).stuck = true := by
    by_contra! once
    simp [marks, unseen, ← stuck, once] at waits
  have acted : s.act (.complete res op.id) = s.redispatch c op.id := by
    simp [State.act, above, runs, again]
  -- Its awaiter is gone.
  have past := spent.past c op dispatched op.frame
  rw [frames] at past
  by_cases gone : (m.thread.frames op.frame).destroyed = true
  · have done : m.dispatch c res op = .error .resumeDestroyed := by simp [Machine.dispatch, gone]
    rw [done]
    refine mirrors.step_error clean plays (acted.trans ?_)
    simp [State.redispatch, dispatched, frames, gone]
  · have done : m.dispatch c res op = .error .staleAwaiter := by
      simp [Machine.dispatch, gone, past]
    rw [done]
    refine mirrors.step_error clean plays (acted.trans ?_)
    simp [State.redispatch, dispatched, frames, gone]

theorem Mirrors.dispatch_first (mirrors : m.Mirrors s) (identified : s.Identified)
    (clean : s.fault = none) {c : ContextId} {rest : List Activation} {res : Int} {op : Op}
    {later : List Entry} {e : Event α} (plays : m.Plays e (.complete res op.id))
    (top : m.thread.stack = .loop c :: rest) (running : (m.queues c).running = true)
    (head : (m.queues c).completed = .operation op :: later)
    (seen : (m.queues c).unseen = false) : m.Follows e s (m.settle (m.dispatch c res op)) := by
  have above : s.stack = .loop c :: rest := mirrors.stack.trans top
  have runs : (s.rings c).running = true := (mirrors.shows c).running.trans running
  have frames := mirrors.frames
  have alone : .loop c ∉ rest := fun member => by
    have unseen := mirrors.nested c (by rwa [top])
    simp [seen] at unseen
  have unstuck := (mirrors.shows c).unstuck seen
  obtain ⟨inflight, shows⟩ := (mirrors.shows c).dispatch seen head (decide (res ≠ 0))
  have acted : s.act (.complete res op.id) = s.complete c res op.id := by
    simp [State.act, above, runs, alone, unstuck]
  have found := identified.find inflight
  by_cases gone : (m.thread.frames op.frame).destroyed = true
  · have done : m.dispatch c res op = .error .resumeDestroyed := by simp [Machine.dispatch, gone]
    rw [done]
    refine mirrors.step_error clean plays (acted.trans ?_)
    simp [State.complete, found, frames, gone]
  by_cases phase : (m.thread.frames op.frame).phase = .io op.id
  · let thread := m.thread.run op.frame (m.thread.frames op.frame).received
    have resumed : m.thread.resume op.frame = .ok thread := by
      simp [State.resume, gone, phase, thread]
    rw [dispatch_runs phase (by simpa using gone)]
    have taken := mirrors.set c shows fun _ => rfl
    have moved := taken.move thread fun c' member => by
      have member : .loop c' ∈ .loop c :: rest := top ▸ member
      by_cases same : c' = c
      · simp [setQueues, same]
      · have below : .loop c' ∈ rest := by simpa [same] using member
        simpa [setQueues, same] using mirrors.nested c' (by rwa [top])
    refine Mirrors.step_ok clean plays (acted.trans ?_) moved
    have resumes := State.resume_withRings m.thread (s.setRing c { s.rings c with
      inflight := (s.rings c).inflight.erase op
      dispatched := some op
      stuck := decide (res ≠ 0) }).rings op.frame
    have same := taken.same
    rw [resumed] at resumes
    simp only [setQueues] at same
    simp only [State.complete, found, Option.map_some, frames, gone, phase, if_true]
    rw [same, resumes]
    rfl
  · have done : m.dispatch c res op = .error .staleAwaiter := by
      simp [Machine.dispatch, gone, phase]
    rw [done]
    refine mirrors.step_error clean plays (acted.trans ?_)
    simp [State.complete, found, frames, gone, phase]

theorem Mirrors.stop (mirrors : m.Mirrors s) (clean : s.fault = none) {c : ContextId}
    {rest : List Activation} {res : Int} {later : List Entry} {e : Event α}
    (plays : m.Plays e (.stop res)) (top : m.thread.stack = .loop c :: rest)
    (running : (m.queues c).running = true) (head : (m.queues c).completed = .sentinel :: later) :
    m.Follows e s (m.settle (m.take c res .sentinel)) := by
  have above : s.stack = .loop c :: rest := mirrors.stack.trans top
  have runs : (s.rings c).running = true := (mirrors.shows c).running.trans running
  have seen : (m.queues c).unseen = false := by
    by_contra unseen
    obtain ⟨op, later', head', -⟩ := (mirrors.shows c).head (by simpa using unseen)
    simp [head] at head'
  have alone : .loop c ∉ rest := fun member => by
    have unseen := mirrors.nested c (by rwa [top])
    simp [seen] at unseen
  have below {q : Queues} (member : .loop c ∈ m.thread.stack.tail) : q.unseen = true :=
    absurd (by simpa [top] using member) alone
  have unstuck := (mirrors.shows c).unstuck seen
  obtain ⟨posted, shows⟩ := (mirrors.shows c).stop seen head
  have acted : s.act (.stop res) = some (s.stop c res) := by
    simp [State.act, above, runs, posted, alone, unstuck]
  unfold take
  split_ifs with answered timeout
  · refine Mirrors.step_ok clean plays (acted.trans ?_) (mirrors.set c shows below)
    simp [State.stop, answered]
  · have kept := (mirrors.shows c).timedOut
    refine Mirrors.step_ok clean plays (acted.trans ?_) (mirrors.set c kept below)
    simp [State.stop, timeout, Uring.timedOut]
  · refine mirrors.step_error clean plays (acted.trans ?_)
    simp [State.stop, answered, timeout]

theorem Mirrors.take (mirrors : m.Mirrors s) (identified : s.Identified) (spent : s.Spent)
    (clean : s.fault = none) {c : ContextId} {rest : List Activation} {res : Int} {e : Event α}
    (plays : ∀ op, m.Plays e (.complete res op)) (stops : m.Plays e (.stop res))
    (top : m.thread.stack = .loop c :: rest) (running : (m.queues c).running = true)
    (waits : m.marks c rest = false) {done : Except Fault (Machine α)}
    (given : (m.queues c).completed.head?.map (m.take c res) = some done) :
    m.Follows e s (m.settle done) := by
  cases completed : (m.queues c).completed with
  | nil => simp [completed] at given
  | cons entry later =>
    obtain rfl : m.take c res entry = done := by simpa [completed] using given
    cases entry with
    | operation op =>
      cases unseen : (m.queues c).unseen with
      | false =>
        exact mirrors.dispatch_first identified clean (plays op.id) top running completed unseen
      | true =>
        exact mirrors.dispatch_again spent clean (plays op.id) top running completed unseen waits
    | sentinel => exact mirrors.stop clean stops top running completed

theorem Mirrors.leave (mirrors : m.Mirrors s) (clean : s.fault = none) {c : ContextId}
    {rest : List Activation} (top : m.thread.stack = .loop c :: rest)
    (stopped : (m.queues c).running = false) :
    m.Follows .turn s (m.withThread { m.thread with stack := rest }) := by
  have above : s.stack = .loop c :: rest := mirrors.stack.trans top
  have stops : (s.rings c).running = false := (mirrors.shows c).running.trans stopped
  let thread : State α := { m.thread with stack := rest }
  have same : { s with stack := rest } = thread.withRings s.rings := by
    rw [mirrors.same]
    rfl
  have moved := mirrors.move thread fun c' member => mirrors.nested c' (by
    rw [top]
    exact List.mem_of_mem_tail member)
  refine Mirrors.step_ok clean (.leave c rest top) ?_ moved
  rw [← same]
  simp [State.act, State.proceed, above, stops]

theorem Mirrors.turn (mirrors : m.Mirrors s) (identified : s.Identified) (spent : s.Spent)
    (clean : s.fault = none) {done : Except Fault (Machine α)} (turned : m.turn = some done) :
    m.Follows .turn s (m.settle done) := by
  cases stack : m.thread.stack with
  | nil => simp [Machine.turn, stack] at turned
  | cons top rest =>
    cases top with
    | body | launching | unwinding => simp [Machine.turn, stack] at turned
    | entering c => exact mirrors.enter clean stack turned
    | loop c =>
      simp only [Machine.turn, stack] at turned
      split at turned
      · next back =>
        obtain rfl := Option.some.inj turned
        obtain ⟨⟨unseen, unstuck⟩, alone⟩ : ((m.queues c).unseen = true ∧
            (m.queues c).stuck = false) ∧ .loop c ∉ rest := by simpa [marks] using back
        refine .inl (mirrors.shift ((mirrors.shows c).seen unseen unstuck) fun member => ?_)
        rw [stack] at member
        exact absurd member alone
      · next waits =>
        split at turned
        · next running =>
          exact mirrors.take identified spent clean (fun op => .complete op) .stop stack running
            (by simpa using waits) turned
        · next stopped =>
          obtain rfl := Option.some.inj turned
          exact mirrors.leave clean stack (by simpa using stopped)

theorem Mirrors.waitError (mirrors : m.Mirrors s) (identified : s.Identified) (spent : s.Spent)
    (clean : s.fault = none) {res : Int} {found : Bool} {done : Except Fault (Machine α)}
    (waited : m.waitError res found = some done) :
    m.Follows (.waitError res found) s (m.settle done) := by
  unfold Machine.waitError at waited
  split at waited
  · next c rest top =>
    split at waited
    · cases waited
    · next accepted =>
      obtain ⟨⟨waits, running⟩, failed⟩ : (m.marks c rest = false ∧ (m.queues c).running = true) ∧
          res ≠ 0 := by simpa using accepted
      split at waited
      · next given =>
        subst given
        exact mirrors.take identified spent clean (.completeError res) (.stopError res) top running
          waits waited
      · next none =>
        obtain rfl := Option.some.inj waited
        obtain rfl : found = false := by simpa using none
        have runs : (s.rings c).running = true := (mirrors.shows c).running.trans running
        refine Mirrors.step_ok clean (.waitError res) ?_ mirrors
        simp [State.act, mirrors.stack, top, runs, failed]
  · cases waited

end Step

-- Once `finish` has written through a null entry there is nothing to compare.
def Tracks (m : Machine α) (s : State α) : Prop :=
  m.broken = false → m.Mirrors s ∧ s.Identified ∧ s.Spent

end Machine

end KkProxy.Coro
