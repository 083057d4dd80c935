import KkProxy.Uring.Loop

set_option autoImplicit false

namespace KkProxy.Uring

open Runs

inductive Stage where
  | unborn
  -- `io_uring_get_sqe` had no entry for it: it is ready.
  | unqueued
  | prepared
  | suspended
  | resumed
deriving DecidableEq, Repr

structure Ring where
  queue : List UserData
  inflight : List UserData
  awaiters : Nat
  stage : Nat → Stage
  results : Nat → Int
  -- `finish` writes to a null entry, or the loop resumes the null handle of an awaiter.
  fault : Bool

inductive Request where
  | construct
  -- `co_await`; `io_uring_submit` returns `ret`.
  | await (id : Nat) (ret : Int)
  | finish (ret : Int)
  | complete (data : UserData) (res : Int)
  | wait
deriving DecidableEq, Repr

namespace Ring

-- As in `io_uring_queue_init`.
def entries : Nat := 1024

def init : Ring :=
  { queue := [], inflight := [], awaiters := 0, stage := fun _ => .unborn, results := fun _ => 0,
    fault := false }

def setStage (s : Ring) (id : Nat) (stage : Stage) : Ring :=
  { s with stage := Function.update s.stage id stage }

def prepare (s : Ring) (data : UserData) : Ring := { s with queue := s.queue ++ [data] }

def submit (s : Ring) (ret : Int) : Ring :=
  if ret < 0 then s else { s with queue := [], inflight := s.inflight ++ s.queue }

def construct (s : Ring) : Ring :=
  let next := { s with awaiters := s.awaiters + 1 }
  if s.queue.length < entries then
    (next.prepare (.awaiter s.awaiters)).setStage s.awaiters .prepared
  else
    { next.setStage s.awaiters .unqueued with
      results := Function.update s.results s.awaiters (-10086) }

-- The result of `io_uring_submit` is not looked at.
def await (s : Ring) (id : Nat) (ret : Int) : Option Ring :=
  match s.stage id with
  | .unqueued => some s
  | .prepared => some ((s.setStage id .suspended).submit ret)
  | _ => none

def finish (s : Ring) (ret : Int) : Ring :=
  if s.queue.length < entries then (s.prepare .completed).submit ret else { s with fault := true }

def complete (s : Ring) (data : UserData) (res : Int) : Option Ring :=
  if data ∈ s.inflight then
    let taken := { s with inflight := s.inflight.erase data }
    match data with
    | .awaiter id =>
      if s.stage id = .suspended then
        some { taken.setStage id .resumed with results := Function.update s.results id res }
      else some { taken with fault := true }
    | _ => some taken
  else none

def step (s : Ring) (r : Request) : Option Ring :=
  if s.fault then none
  else match r with
    | .construct => some s.construct
    | .await id ret => s.await id ret
    | .finish ret => some (s.finish ret)
    | .complete data res => s.complete data res
    | .wait => some s

section Fields

variable (s : Ring) (id : Nat) (stage : Stage) (data : UserData) (ret : Int)

@[simp] theorem setStage_queue : (s.setStage id stage).queue = s.queue := rfl
@[simp] theorem setStage_inflight : (s.setStage id stage).inflight = s.inflight := rfl
@[simp] theorem setStage_awaiters : (s.setStage id stage).awaiters = s.awaiters := rfl
@[simp] theorem setStage_fault : (s.setStage id stage).fault = s.fault := rfl
@[simp] theorem prepare_queue : (s.prepare data).queue = s.queue ++ [data] := rfl
@[simp] theorem prepare_inflight : (s.prepare data).inflight = s.inflight := rfl
@[simp] theorem prepare_awaiters : (s.prepare data).awaiters = s.awaiters := rfl
@[simp] theorem prepare_stage : (s.prepare data).stage = s.stage := rfl
@[simp] theorem prepare_fault : (s.prepare data).fault = s.fault := rfl

theorem setStage_stage (id' : Nat) :
    (s.setStage id stage).stage id' = if id' = id then stage else s.stage id' := by
  simp only [setStage, Function.update_apply]

theorem submit_queue : (s.submit ret).queue = if ret < 0 then s.queue else [] := by
  unfold submit
  split_ifs <;> rfl

@[simp] theorem submit_stage : (s.submit ret).stage = s.stage := by
  unfold submit
  split_ifs <;> rfl

@[simp] theorem submit_awaiters : (s.submit ret).awaiters = s.awaiters := by
  unfold submit
  split_ifs <;> rfl

@[simp] theorem submit_fault : (s.submit ret).fault = s.fault := by
  unfold submit
  split_ifs <;> rfl

end Fields

def pending (s : Ring) : List UserData := s.queue ++ s.inflight

theorem submit_pending (s : Ring) (ret : Int) : (s.submit ret).pending.Perm s.pending := by
  unfold submit pending
  split_ifs
  · exact List.Perm.refl _
  · simpa using List.perm_append_comm

theorem prepare_pending (s : Ring) (data : UserData) :
    (s.prepare data).pending.Perm (data :: s.pending) := by
  simp [pending, List.perm_middle]

/-- When the loop blocks, the kernel has what each suspended coroutine waits for. -/
structure Submitted (s : Ring) : Prop where
  awaiters : ∀ id, s.stage id = .suspended → .awaiter id ∈ s.inflight
  sentinel : .completed ∉ s.queue

end Ring

-- A ring, and whether an entry was still queued when its `io_uring_submit` failed the last time.
structure Attempts where
  ring : Ring
  failed : Bool

namespace Attempts

def init : Attempts := { ring := .init, failed := false }

-- One `io_uring_submit`, for an entry that is still queued or not.
def attempt (failed queued : Bool) (ret : Int) : Bool := ret < 0 && (failed || queued)

def step (w : Attempts) (r : Request) : Option Attempts :=
  (w.ring.step r).map fun next =>
    { ring := next
      failed :=
        match r with
        | .await id ret =>
          if w.ring.stage id = .prepared then
            attempt w.failed (decide (.awaiter id ∈ w.ring.queue)) ret
          else w.failed
        | .finish ret =>
          if w.ring.queue.length < Ring.entries then attempt w.failed true ret else w.failed
        | _ => w.failed }

def Unstranded (w : Attempts) (r : Request) : Prop := r = .wait → w.ring.Submitted

def Repaired (w : Attempts) (r : Request) : Prop := r = .wait → w.failed = false

instance (w : Attempts) : DecidablePred w.Repaired := fun r =>
  inferInstanceAs (Decidable (r = .wait → w.failed = false))

structure Sound (w : Attempts) : Prop where
  once : ∀ id, w.ring.pending.count (.awaiter id) ≤ 1
  born : ∀ id, w.ring.awaiters ≤ id → w.ring.stage id = .unborn
  numbered : ∀ id, .awaiter id ∈ w.ring.pending → id < w.ring.awaiters
  prepared : ∀ id, w.ring.fault = false → w.ring.stage id = .prepared →
    .awaiter id ∈ w.ring.pending
  suspended : ∀ id, w.ring.stage id = .suspended → .awaiter id ∈ w.ring.pending
  failed : w.failed = true ↔
    .completed ∈ w.ring.queue ∨ ∃ id, w.ring.stage id = .suspended ∧ .awaiter id ∈ w.ring.queue

theorem init_sound : init.Sound where
  once id := by simp [init, Ring.init, Ring.pending]
  born id _ := rfl
  numbered id member := by simp [init, Ring.init, Ring.pending] at member
  prepared id _ prepared := by simp [init, Ring.init] at prepared
  suspended id suspended := by simp [init, Ring.init] at suspended
  failed := by simp [init, Ring.init]

theorem Sound.submit {s : Ring} {failed : Bool} (sound : Sound { ring := s, failed }) (ret : Int)
    {failed' : Bool} (kept : ret < 0 → failed' = failed) (repaired : ¬ ret < 0 → failed' = false) :
    Sound { ring := s.submit ret, failed := failed' } where
  once id := by
    rw [(s.submit_pending ret).count_eq]
    exact sound.once id
  born id beyond := by
    rw [Ring.submit_stage]
    exact sound.born id (s.submit_awaiters ret ▸ beyond)
  numbered id member := by
    rw [Ring.submit_awaiters]
    exact sound.numbered id ((s.submit_pending ret).mem_iff.mp member)
  prepared id clean prepared := by
    rw [Ring.submit_fault] at clean
    rw [Ring.submit_stage] at prepared
    exact (s.submit_pending ret).mem_iff.mpr (sound.prepared id clean prepared)
  suspended id suspended := by
    rw [Ring.submit_stage] at suspended
    exact (s.submit_pending ret).mem_iff.mpr (sound.suspended id suspended)
  failed := by
    rw [Ring.submit_queue, Ring.submit_stage]
    by_cases negative : ret < 0
    · simpa [kept negative, negative] using sound.failed
    · simp [repaired negative, negative]

theorem Sound.suspend {s : Ring} {failed : Bool} (sound : Sound { ring := s, failed }) {id : Nat}
    (clean : s.fault = false) (prepared : s.stage id = .prepared) :
    Sound { ring := s.setStage id .suspended,
            failed := failed || decide (.awaiter id ∈ s.queue) } where
  once := sound.once
  born id' beyond := by
    have other : id' ≠ id := by
      rintro rfl
      exact absurd (prepared.symm.trans (sound.born id' beyond)) (by simp)
    rw [Ring.setStage_stage, if_neg other]
    exact sound.born id' beyond
  numbered := sound.numbered
  prepared id' _ prepared' := by
    rw [Ring.setStage_stage] at prepared'
    split_ifs at prepared'
    exact sound.prepared id' clean prepared'
  suspended id' suspended := by
    rw [Ring.setStage_stage] at suspended
    split_ifs at suspended with same
    · exact same ▸ sound.prepared id clean prepared
    · exact sound.suspended id' suspended
  failed := by
    have before := sound.failed
    simp only [Bool.or_eq_true, decide_eq_true_eq, before, Ring.setStage_queue]
    constructor
    · rintro ((completed | ⟨id', suspended, queued⟩) | queued)
      · exact .inl completed
      · refine .inr ⟨id', ?_, queued⟩
        rw [Ring.setStage_stage]
        split_ifs
        · rfl
        · exact suspended
      · exact .inr ⟨id, by simp [Ring.setStage_stage], queued⟩
    · rintro (completed | ⟨id', suspended, queued⟩)
      · exact .inl (.inl completed)
      · rw [Ring.setStage_stage] at suspended
        split_ifs at suspended with same
        · exact .inr (same ▸ queued)
        · exact .inl (.inr ⟨id', suspended, queued⟩)

theorem Sound.prepare_sentinel {s : Ring} {failed : Bool} (sound : Sound { ring := s, failed }) :
    Sound { ring := s.prepare .completed, failed := true } where
  once id := by
    rw [(s.prepare_pending _).count_eq, List.count_cons_of_ne (by simp)]
    exact sound.once id
  born := sound.born
  numbered id member := sound.numbered id (by simpa using (s.prepare_pending _).mem_iff.mp member)
  prepared id clean prepared :=
    (s.prepare_pending _).mem_iff.mpr (.tail _ (sound.prepared id clean prepared))
  suspended id suspended :=
    (s.prepare_pending _).mem_iff.mpr (.tail _ (sound.suspended id suspended))
  failed := by simp

theorem Sound.prepare_awaiter {s : Ring} {failed : Bool} (sound : Sound { ring := s, failed })
    {id : Nat} (fresh : .awaiter id ∉ s.pending) (bound : id < s.awaiters)
    (idle : s.stage id ≠ .suspended) :
    Sound { ring := s.prepare (.awaiter id), failed } where
  once id' := by
    rw [(s.prepare_pending _).count_eq, List.count_cons]
    split_ifs with same
    · obtain rfl : id = id' := by simpa using same
      simp [List.count_eq_zero.mpr fresh]
    · exact sound.once id'
  born := sound.born
  numbered id' member := by
    rcases List.mem_cons.mp ((s.prepare_pending _).mem_iff.mp member) with same | old
    · obtain rfl : id' = id := by simpa using same
      exact bound
    · exact sound.numbered id' old
  prepared id' clean prepared :=
    (s.prepare_pending _).mem_iff.mpr (.tail _ (sound.prepared id' clean prepared))
  suspended id' suspended :=
    (s.prepare_pending _).mem_iff.mpr (.tail _ (sound.suspended id' suspended))
  failed := by
    have other : ∀ id', s.stage id' = .suspended → id' ≠ id := fun id' suspended same =>
      idle (same ▸ suspended)
    have before := sound.failed
    simp only [before, Ring.prepare_queue, Ring.prepare_stage, List.mem_append, List.mem_singleton]
    constructor
    · rintro (completed | ⟨id', suspended, queued⟩)
      · exact .inl (.inl completed)
      · exact .inr ⟨id', suspended, .inl queued⟩
    · rintro ((completed | same) | ⟨id', suspended, queued | same⟩)
      · exact .inl completed
      · cases same
      · exact .inr ⟨id', suspended, queued⟩
      · exact absurd (UserData.awaiter.inj same) (other id' suspended)

theorem Sound.setStage {s : Ring} {failed : Bool} (sound : Sound { ring := s, failed }) {id : Nat}
    {stage : Stage} (bound : id < s.awaiters) (idle : s.stage id ≠ .suspended)
    (unsuspended : stage ≠ .suspended) (held : stage = .prepared → .awaiter id ∈ s.pending) :
    Sound { ring := s.setStage id stage, failed } where
  once := sound.once
  born id' beyond := by
    rw [Ring.setStage_stage, if_neg (Nat.ne_of_gt (Nat.lt_of_lt_of_le bound beyond))]
    exact sound.born id' beyond
  numbered := sound.numbered
  prepared id' clean prepared := by
    rw [Ring.setStage_stage] at prepared
    split_ifs at prepared with same
    · exact same ▸ held prepared
    · exact sound.prepared id' clean prepared
  suspended id' suspended := by
    rw [Ring.setStage_stage] at suspended
    split_ifs at suspended
    · exact absurd suspended unsuspended
    · exact sound.suspended id' suspended
  failed := by
    have same : ∀ id', (s.setStage id stage).stage id' = .suspended ↔ s.stage id' = .suspended := by
      intro id'
      rw [Ring.setStage_stage]
      split_ifs with same
      · exact iff_of_false unsuspended (same ▸ idle)
      · exact Iff.rfl
    simpa [same] using sound.failed

theorem Sound.construct {s : Ring} {failed : Bool} (sound : Sound { ring := s, failed }) :
    Sound { ring := s.construct, failed } := by
  have fresh : .awaiter s.awaiters ∉ s.pending := fun member =>
    Nat.lt_irrefl _ (sound.numbered _ member)
  have unborn : s.stage s.awaiters = .unborn := sound.born _ (Nat.le_refl _)
  have counted : Sound { ring := { s with awaiters := s.awaiters + 1 }, failed } :=
    { sound with
      born := fun id beyond => sound.born id (Nat.le_of_succ_le beyond)
      numbered := fun id member => Nat.lt_succ_of_lt (sound.numbered id member) }
  have bound := Nat.lt_succ_self s.awaiters
  unfold Ring.construct
  split_ifs
  · have prepared := counted.prepare_awaiter fresh bound (by simp [unborn])
    refine prepared.setStage bound (by simp [unborn]) (by simp) fun _ => ?_
    exact (Ring.prepare_pending _ _).mem_iff.mpr List.mem_cons_self
  · exact { counted.setStage bound (by simp [unborn]) (by simp : Stage.unqueued ≠ .suspended)
      (by simp) with }

theorem Sound.await {s next : Ring} {failed : Bool} (sound : Sound { ring := s, failed })
    (clean : s.fault = false) {id : Nat} {ret : Int} (awaited : s.await id ret = some next) :
    Sound { ring := next
            failed := if s.stage id = .prepared then
              attempt failed (decide (.awaiter id ∈ s.queue)) ret else failed } := by
  unfold Ring.await at awaited
  split at awaited
  · next ready =>
    obtain rfl := Option.some.inj awaited
    simpa [ready] using sound
  · next prepared =>
    obtain rfl := Option.some.inj awaited
    refine (sound.suspend clean prepared).submit ret (fun negative => ?_) (fun accepted => ?_)
    · simp [attempt, prepared, negative]
    · simp [attempt, prepared, accepted]
  · cases awaited

theorem Sound.finish {s : Ring} {failed : Bool} (sound : Sound { ring := s, failed }) (ret : Int) :
    Sound { ring := s.finish ret
            failed := if s.queue.length < Ring.entries then attempt failed true ret else failed } := by
  unfold Ring.finish
  split_ifs
  · refine sound.prepare_sentinel.submit ret (fun negative => ?_) (fun accepted => ?_)
    · simp [attempt, negative]
    · simp [attempt, accepted]
  · exact { sound with prepared := by simp }

theorem Sound.unqueued {s : Ring} {failed : Bool} (sound : Sound { ring := s, failed }) {id : Nat}
    (inflight : .awaiter id ∈ s.inflight) : .awaiter id ∉ s.queue := by
  intro queued
  have twice : (s.queue ++ s.inflight).count (.awaiter id) ≤ 1 := sound.once id
  have first := List.count_pos_iff.mpr queued
  have second := List.count_pos_iff.mpr inflight
  rw [List.count_append] at twice
  omega

theorem Sound.erase {s t : Ring} {failed : Bool} (sound : Sound { ring := s, failed })
    (clean : s.fault = false) {data : UserData} (member : data ∈ s.inflight)
    (queue : t.queue = s.queue) (inflight : t.inflight = s.inflight.erase data)
    (awaiters : t.awaiters = s.awaiters)
    (stage : ∀ id, UserData.awaiter id ≠ data → t.stage id = s.stage id)
    (resumed : ∀ id, UserData.awaiter id = data →
      t.stage id ≠ .suspended ∧ (t.fault = false → t.stage id ≠ .prepared)) :
    Sound { ring := t, failed } := by
  have fewer : t.pending.Sublist s.pending := by
    rw [Ring.pending, Ring.pending, queue, inflight]
    exact (List.Sublist.refl _).append List.erase_sublist
  have others : ∀ id, UserData.awaiter id ≠ data → .awaiter id ∈ s.pending →
      .awaiter id ∈ t.pending := by
    intro id other member
    rw [Ring.pending, queue, inflight, List.mem_append, List.mem_erase_of_ne other]
    exact List.mem_append.mp member
  refine ⟨fun id => ?_, fun id beyond => ?_, fun id member => ?_, fun id clean' prepared => ?_,
    fun id suspended => ?_, ?_⟩
  · exact Nat.le_trans (fewer.count_le _) (sound.once id)
  · have beyond : s.awaiters ≤ id := awaiters ▸ beyond
    have other : UserData.awaiter id ≠ data := fun same =>
      Nat.not_le_of_lt (sound.numbered id (List.mem_append_right _ (same ▸ member))) beyond
    exact (stage id other).trans (sound.born id beyond)
  · exact Nat.lt_of_lt_of_eq (sound.numbered id (fewer.subset member)) awaiters.symm
  · have other : UserData.awaiter id ≠ data := fun same => (resumed id same).2 clean' prepared
    exact others id other (sound.prepared id clean ((stage id other).symm.trans prepared))
  · have other : UserData.awaiter id ≠ data := fun same => (resumed id same).1 suspended
    exact others id other (sound.suspended id ((stage id other).symm.trans suspended))
  · have before := sound.failed
    simp only [before, queue]
    refine or_congr Iff.rfl (exists_congr fun id => ?_)
    by_cases same : UserData.awaiter id = data
    · have unqueued := sound.unqueued (same ▸ member)
      exact iff_of_false (fun lost => unqueued lost.2) (fun lost => unqueued lost.2)
    · rw [stage id same]

theorem Sound.complete {s next : Ring} {failed : Bool} (sound : Sound { ring := s, failed })
    (clean : s.fault = false) {data : UserData} {res : Int}
    (completed : s.complete data res = some next) : Sound { ring := next, failed } := by
  unfold Ring.complete at completed
  split at completed
  · next member =>
    dsimp only at completed
    split at completed
    · next id =>
      split at completed
      · obtain rfl := Option.some.inj completed
        refine sound.erase clean member rfl rfl rfl (fun id' other => ?_) (fun id' same => ?_)
        · exact (Ring.setStage_stage _ _ _ _).trans (if_neg fun same : id' = id => other (by rw [same]))
        · obtain rfl : id' = id := by simpa using same
          simp [Ring.setStage_stage]
      · next unsuspended =>
        obtain rfl := Option.some.inj completed
        refine sound.erase clean member rfl rfl rfl (fun _ _ => rfl) (fun id' same => ?_)
        obtain rfl : id' = id := by simpa using same
        exact ⟨unsuspended, by simp⟩
    · next unaddressed =>
      obtain rfl := Option.some.inj completed
      exact sound.erase clean member rfl rfl rfl (fun _ _ => rfl) fun id same =>
        absurd same.symm (unaddressed id)
  · cases completed

theorem step_sound {w w' : Attempts} {r : Request} (sound : w.Sound)
    (taken : w.step r = some w') : w'.Sound := by
  obtain ⟨next, moved, rfl⟩ := Option.map_eq_some_iff.mp taken
  unfold Ring.step at moved
  split at moved
  · cases moved
  · next clean =>
    have clean : w.ring.fault = false := by simpa using clean
    cases r with
    | construct =>
      obtain rfl := Option.some.inj moved
      exact sound.construct
    | await id ret => exact sound.await clean moved
    | finish ret =>
      obtain rfl := Option.some.inj moved
      exact sound.finish ret
    | complete data res => exact sound.complete clean moved
    | wait =>
      obtain rfl := Option.some.inj moved
      exact sound

theorem Sound.submitted_iff {w : Attempts} (sound : w.Sound) :
    w.ring.Submitted ↔ w.failed = false := by
  constructor
  · rintro ⟨awaiters, sentinel⟩
    by_contra lost
    rcases sound.failed.mp (by simpa using lost) with completed | ⟨id, suspended, queued⟩
    · exact sentinel completed
    · exact sound.unqueued (awaiters id suspended) queued
  · intro repaired
    have none : ¬ (.completed ∈ w.ring.queue ∨
        ∃ id, w.ring.stage id = .suspended ∧ .awaiter id ∈ w.ring.queue) := fun lost => by
      simp [sound.failed.mpr lost] at repaired
    refine ⟨fun id suspended => ?_, fun queued => none (.inl queued)⟩
    rcases List.mem_append.mp (sound.suspended id suspended) with queued | inflight
    · exact absurd (.inr ⟨id, suspended, queued⟩) none
    · exact inflight

/--
The loop never blocks with an entry of a suspended coroutine or a sentinel left behind exactly if
each failed submission of a queued entry is followed by a successful one before the loop blocks.
-/
theorem unstranded_iff (requests : List Request) :
    Always step Unstranded init requests ↔ Always step Repaired init requests := by
  refine always_congr (fun _ _ _ sound taken => step_sound sound taken) (fun w r sound => ?_)
    init_sound
  exact forall_congr' fun _ => sound.submitted_iff

end Attempts

-- The only submission fails, and the loop blocks.
def refused : List Request := [.construct, .await 0 (-11), .wait]

theorem refused_is_stranded :
    ¬ ∀ requests, Always Attempts.step Attempts.Unstranded .init requests := by
  intro claim
  have blocked : (run Attempts.step .init [.construct, .await 0 (-11)]).map
      (fun w => (w.ring.stage 0, w.ring.inflight)) = some (.suspended, []) := by decide +kernel
  obtain ⟨w, reached, view⟩ := Option.map_eq_some_iff.mp blocked
  simp only [Prod.mk.injEq] at view
  obtain ⟨suspended, inflight⟩ := view
  have unstranded := always_iff.mp (claim refused) [.construct, .await 0 (-11)] .wait [] rfl w reached
  simpa [inflight] using (unstranded rfl).awaiters 0 suspended

end KkProxy.Uring
