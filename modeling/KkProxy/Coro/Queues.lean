import KkProxy.Coro.Machine
import KkProxy.Coro.Progress

set_option autoImplicit false

namespace KkProxy.Coro

namespace State

variable {α : Type}

section Spent

variable {s next : State α} {a : Action α}

-- No coroutine waits for an operation that has been dispatched.
structure Spent (s : State α) : Prop where
  fresh : ∀ f op, (s.frames f).phase = .io op → op < s.opCount
  own : ∀ f f' op, (s.frames f).phase = .io op → (s.frames f').phase = .io op → f = f'
  used : ∀ c op, (s.rings c).dispatched = some op → op.id < s.opCount
  past : ∀ c op, (s.rings c).dispatched = some op → ∀ f, (s.frames f).phase ≠ .io op.id

end Spent

end State

namespace Queues

variable {q q' : Queues} {e : Entry} {ret : Int}

def ops (entries : List Entry) : List Op :=
  entries.filterMap fun
    | .operation op => some op
    | .sentinel => none

@[simp] theorem ops_operation (op : Op) (entries : List Entry) :
    ops (.operation op :: entries) = op :: ops entries := rfl

@[simp] theorem ops_sentinel (entries : List Entry) : ops (.sentinel :: entries) = ops entries := rfl

theorem ops_perm {entries entries' : List Entry} (perm : entries.Perm entries') :
    (ops entries).Perm (ops entries') := perm.filterMap _

@[simp] theorem prepare_completed : (q.prepare e).completed = q.completed := rfl
@[simp] theorem prepare_unseen : (q.prepare e).unseen = q.unseen := rfl
@[simp] theorem prepare_stuck : (q.prepare e).stuck = q.stuck := rfl
@[simp] theorem prepare_running : (q.prepare e).running = q.running := rfl

@[simp] theorem submit_completed : (q.submit ret).completed = q.completed := by
  unfold submit
  split_ifs <;> rfl

@[simp] theorem submit_unseen : (q.submit ret).unseen = q.unseen := by
  unfold submit
  split_ifs <;> rfl

@[simp] theorem submit_stuck : (q.submit ret).stuck = q.stuck := by
  unfold submit
  split_ifs <;> rfl

@[simp] theorem submit_running : (q.submit ret).running = q.running := by
  unfold submit
  split_ifs <;> rfl

theorem submit_pending : (q.submit ret).pending.Perm q.pending := by
  unfold submit
  split_ifs
  · exact List.Perm.refl _
  · exact List.Perm.append_right q.remaining (by simpa using List.perm_append_comm)

theorem prepare_pending : (q.prepare e).pending.Perm (e :: q.pending) := by
  change (q.prepared ++ [e] ++ q.accepted ++ q.remaining).Perm _
  simp [pending]

theorem entry_pending (q : Queues) (e : Entry) (ret : Int) :
    ((q.prepare e).submit ret).pending.Perm (e :: q.pending) := submit_pending.trans prepare_pending

theorem post_unseen (posted : q.post e = some q') : q'.unseen = q.unseen := by
  unfold post at posted
  split_ifs at posted
  obtain rfl := Option.some.inj posted
  rfl

theorem post_pending (posted : q.post e = some q') (head : q.unseen = true → q.completed ≠ []) :
    q'.pending.Perm q.pending := by
  unfold post at posted
  split_ifs at posted with accepted
  obtain rfl := Option.some.inj posted
  have moved : (q.accepted.erase e ++ (q.remaining ++ [e])).Perm (q.accepted ++ q.remaining) := by
    have out := (List.perm_cons_erase accepted).symm.append_right q.remaining
    refine List.Perm.trans ?_ out
    rw [← List.append_assoc]
    exact List.perm_append_singleton e _
  have remaining : (if q.unseen then (q.completed ++ [e]).tail else q.completed ++ [e]) =
      q.remaining ++ [e] := by
    unfold Queues.remaining
    split_ifs with unseen
    · exact List.tail_append_of_ne_nil (head unseen)
    · rfl
  change (q.prepared ++ q.accepted.erase e ++
    (if q.unseen then (q.completed ++ [e]).tail else q.completed ++ [e])).Perm _
  rw [remaining, pending, List.append_assoc, List.append_assoc]
  exact moved.append_left q.prepared

theorem seen_pending (unseen : q.unseen = true) : q.seen.pending = q.pending := by
  simp [pending, remaining, seen, unseen]

theorem head_pending {later : List Entry} (seen : q.unseen = false)
    (head : q.completed = e :: later) : q.pending.Perm (e :: (q.prepared ++ q.accepted ++ later)) := by
  have remaining : q.remaining = e :: later := by simp [remaining, seen, head]
  rw [pending, remaining]
  exact List.perm_middle

-- The ring of `Step` that the queues amount to.
structure Shows (q : Queues) (r : Ring) : Prop where
  inflight : r.inflight.Perm (ops q.pending)
  finished : r.finished = q.pending.count .sentinel
  running : r.running = q.running
  stuck : r.stuck = (q.unseen && q.stuck)
  head : q.unseen = true → ∃ op later, q.completed = .operation op :: later ∧
    r.dispatched = some op

section Shows

variable {r : Ring}

theorem Shows.completed (shows : q.Shows r) (unseen : q.unseen = true) : q.completed ≠ [] := by
  obtain ⟨op, later, head, -⟩ := shows.head unseen
  simp [head]

theorem Shows.same (shows : q.Shows r) (pending : q'.pending.Perm q.pending)
    (running : q'.running = q.running) (stuck : r.stuck = (q'.unseen && q'.stuck))
    (head : q'.unseen = true → ∃ op later, q'.completed = .operation op :: later ∧
      r.dispatched = some op) : q'.Shows r where
  inflight := shows.inflight.trans (ops_perm pending.symm)
  finished := shows.finished.trans (pending.symm.count_eq _)
  running := shows.running.trans running.symm
  stuck := stuck
  head := head

theorem Shows.submit_operation (shows : q.Shows r) (op : Op) :
    ((q.prepare (.operation op)).submit ret).Shows { r with inflight := r.inflight ++ [op] } := by
  have more := entry_pending q (.operation op) ret
  refine ⟨?_, ?_, by simpa using shows.running, by simpa using shows.stuck,
    by simpa using shows.head⟩
  · exact (List.perm_append_singleton op r.inflight).trans
      ((shows.inflight.cons op).trans (ops_perm more.symm))
  · rw [more.count_eq]
    simpa using shows.finished

theorem Shows.submit_sentinel (shows : q.Shows r) :
    ((q.prepare .sentinel).submit ret).Shows { r with finished := r.finished + 1 } := by
  have more := entry_pending q .sentinel ret
  refine ⟨?_, ?_, by simpa using shows.running, by simpa using shows.stuck,
    by simpa using shows.head⟩
  · have same := ops_perm more.symm
    rw [ops_sentinel] at same
    exact shows.inflight.trans same
  · rw [more.count_eq]
    simpa using shows.finished

theorem Shows.post (shows : q.Shows r) (posted : q.post e = some q') : q'.Shows r := by
  have pending := post_pending posted shows.completed
  unfold Queues.post at posted
  split_ifs at posted
  obtain rfl := Option.some.inj posted
  refine shows.same pending rfl shows.stuck fun unseen => ?_
  obtain ⟨op, later, head, dispatched⟩ := shows.head unseen
  exact ⟨op, later ++ [e], by simp [head], dispatched⟩

theorem Shows.seen (shows : q.Shows r) (unseen : q.unseen = true) (unstuck : q.stuck = false) :
    q.seen.Shows r := by
  refine shows.same (List.Perm.of_eq (seen_pending unseen)) rfl ?_ fun still => ?_
  · simpa [unstuck, Queues.seen] using shows.stuck
  · simp [Queues.seen] at still

theorem Shows.run (shows : q.Shows r) : { q with running := true }.Shows { r with running := true } :=
  ⟨shows.inflight, shows.finished, rfl, shows.stuck, shows.head⟩

theorem Shows.timedOut (shows : q.Shows r) :
    { q with running := false }.Shows { r with running := false } :=
  ⟨shows.inflight, shows.finished, rfl, shows.stuck, shows.head⟩

theorem Shows.unstuck (shows : q.Shows r) (seen : q.unseen = false) : r.stuck = false := by
  simp [shows.stuck, seen]

theorem Shows.stop (shows : q.Shows r) (seen : q.unseen = false) {later : List Entry}
    (head : q.completed = .sentinel :: later) : 0 < r.finished ∧
      { q.seen with running := false }.Shows
        { r with finished := r.finished - 1, running := false } := by
  have pending := head_pending seen head
  have kept : { q.seen with running := false }.pending = q.prepared ++ q.accepted ++ later := by
    simp [Queues.pending, Queues.remaining, Queues.seen, head]
  have finished := shows.finished.trans (pending.count_eq _)
  rw [List.count_cons_self] at finished
  refine ⟨by omega, ?_, ?_, rfl, ?_, fun still => by simp [Queues.seen] at still⟩
  · have same := ops_perm pending
    rw [ops_sentinel] at same
    rw [kept]
    exact shows.inflight.trans same
  · rw [kept]
    exact Nat.sub_eq_of_eq_add finished
  · simpa [Queues.seen] using shows.unstuck seen

theorem Shows.dispatch (shows : q.Shows r) (seen : q.unseen = false) {op : Op}
    {later : List Entry} (head : q.completed = .operation op :: later) (stuck : Bool) :
    op ∈ r.inflight ∧ { q with unseen := true, stuck }.Shows
      { r with inflight := r.inflight.erase op, dispatched := some op, stuck } := by
  have pending := head_pending seen head
  have kept : { q with unseen := true, stuck }.pending = q.prepared ++ q.accepted ++ later := by
    simp [Queues.pending, Queues.remaining, head]
  have inflight : r.inflight.Perm (op :: ops (q.prepared ++ q.accepted ++ later)) :=
    shows.inflight.trans (ops_perm pending)
  refine ⟨inflight.symm.subset List.mem_cons_self, ?_, ?_, shows.running, (Bool.true_and stuck).symm,
    fun _ => ⟨op, later, head, rfl⟩⟩
  · rw [kept]
    simpa using inflight.erase op
  · rw [kept]
    exact shows.finished.trans ((pending.count_eq _).trans (by simp))

end Shows

end Queues

end KkProxy.Coro
