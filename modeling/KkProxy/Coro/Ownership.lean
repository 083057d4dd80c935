import KkProxy.Coro.Faults
import KkProxy.Coro.Holders

set_option autoImplicit false

namespace KkProxy.Coro

open Runs

namespace State

variable {α : Type}

-- A coroutine that destroys its frame when it ends, if nobody awaits it before.
def SelfOwned (s : State α) (g : Handle) : Prop :=
  (s.frames g).caller = none ∧ (s.frames g).flags.isDaemon = false ∧
    (s.frames g).phase ≠ .created

-- A frame has at most one owner: a task, a call of `launch` in progress, or its final awaiter.
structure Owned (s : State α) : Prop where
  unique : ∀ t u g, s.Holds t g → s.Holds u g → t = u
  apart : ∀ t g, s.Holds t g → g ∉ launches s.stack
  once : (launches s.stack).Nodup
  held : ∀ t g, s.Holds t g → ¬ s.Pending t → (s.frames g).destroyed = false
  launched : ∀ g ∈ launches s.stack, (s.frames g).destroyed = false
  self : ∀ g, s.SelfOwned g → (s.frames g).destroyed = false →
    (∀ t, ¬ s.Holds t g) ∧ g ∉ launches s.stack

theorem init_owned : (init : State α).Owned where
  unique t u g holds := by simp [Holds, init] at holds
  apart t g holds := by simp [Holds, init] at holds
  once := List.nodup_nil
  held t g holds := by simp [Holds, init] at holds
  launched g member := by simp [init, launches] at member
  self g self := absurd rfl self.2.2

theorem Owned.carry {s s' : State α} (owned : s.Owned) (source : TaskId → TaskId)
    (holds : ∀ t g, s'.Holds t g → s.Holds (source t) g)
    (apart : ∀ t u g, s'.Holds t g → s'.Holds u g → source t = source u → t = u)
    (sublist : (launches s'.stack).Sublist (launches s.stack))
    (waits : ∀ t g, s'.Holds t g → s.Pending (source t) → s'.Pending t)
    (fewer : ∀ g, (s'.frames g).destroyed = false → (s.frames g).destroyed = false)
    (spared : ∀ g, (s.frames g).destroyed = false → (s'.frames g).destroyed = true →
      (∀ t, s'.Holds t g → s'.Pending t) ∧ g ∉ launches s'.stack)
    (self : ∀ g, s'.SelfOwned g → s.SelfOwned g) : s'.Owned where
  unique t u g first second :=
    apart t u g first second
      (owned.unique (source t) (source u) g (holds t g first) (holds u g second))
  apart t g held member := owned.apart (source t) g (holds t g held) (sublist.subset member)
  once := sublist.nodup owned.once
  held t g held quiet := by
    have intact := owned.held (source t) g (holds t g held) fun pending =>
      quiet (waits t g held pending)
    by_contra gone
    exact quiet ((spared g intact (by simpa using gone)).1 t held)
  launched g member := by
    have intact := owned.launched g (sublist.subset member)
    by_contra gone
    exact (spared g intact (by simpa using gone)).2 member
  self g selfOwned intact := by
    obtain ⟨unheld, unlaunched⟩ := owned.self g (self g selfOwned) (fewer g intact)
    exact ⟨fun t held => unheld (source t) (holds t g held),
      fun member => unlaunched (sublist.subset member)⟩

theorem Owned.keep {s s' : State α} (owned : s.Owned)
    (holds : ∀ t g, s'.Holds t g → s.Holds t g)
    (sublist : (launches s'.stack).Sublist (launches s.stack))
    (waits : ∀ t, s.Pending t → s'.Pending t)
    (destroyed : ∀ g, (s'.frames g).destroyed = (s.frames g).destroyed)
    (self : ∀ g, s'.SelfOwned g → s.SelfOwned g) : s'.Owned := by
  refine owned.carry id holds (fun _ _ _ _ _ => id) sublist (fun t _ _ => waits t)
    (fun g intact => destroyed g ▸ intact) (fun g intact gone => ?_) self
  simp [destroyed, intact] at gone

theorem Owned.pass {s s' : State α} (owned : s.Owned) (dst src : TaskId)
    (holds : ∀ t g, s'.Holds t g →
      (t = dst ∧ s.Holds src g) ∨ (t ≠ dst ∧ t ≠ src ∧ s.Holds t g))
    (sublist : (launches s'.stack).Sublist (launches s.stack))
    (waits : ∀ t g, s'.Holds t g → s.Pending (if t = dst then src else t) → s'.Pending t)
    (destroyed : ∀ g, (s'.frames g).destroyed = (s.frames g).destroyed)
    (self : ∀ g, s'.SelfOwned g → s.SelfOwned g) : s'.Owned := by
  refine owned.carry (fun t => if t = dst then src else t) (fun t g held => ?_)
    (fun t u g first second same => ?_) sublist waits (fun g intact => destroyed g ▸ intact)
    (fun g intact gone => ?_) self
  · rcases holds t g held with ⟨new, owner⟩ | ⟨old, -, owner⟩
    · simpa [new] using owner
    · simpa [old] using owner
  · rcases holds t g first with ⟨rfl, -⟩ | ⟨old, differ, -⟩ <;>
      rcases holds u g second with ⟨rfl, -⟩ | ⟨old', differ', -⟩ <;> simp_all
  · simp [destroyed, intact] at gone

theorem Owned.release {s s' : State α} (owned : s.Owned) {g : Handle}
    (holds : ∀ t h, s'.Holds t h → s.Holds t h)
    (sublist : (launches s'.stack).Sublist (launches s.stack))
    (waits : ∀ t, s.Pending t → s'.Pending t)
    (destroyed : ∀ h, (s'.frames h).destroyed = if h = g then true else (s.frames h).destroyed)
    (unheld : ∀ t, s'.Holds t g → s'.Pending t) (unlaunched : g ∉ launches s.stack)
    (self : ∀ h, s'.SelfOwned h → s.SelfOwned h) : s'.Owned := by
  refine owned.carry id holds (fun _ _ _ _ _ => id) sublist (fun t _ _ => waits t)
    (fun h intact => ?_) (fun h intact gone => ?_) self
  · rw [destroyed] at intact
    split_ifs at intact
    exact intact
  · rw [destroyed] at gone
    split_ifs at gone with same
    · subst same
      exact ⟨unheld, fun member => unlaunched (sublist.subset member)⟩
    · simp [intact] at gone

theorem Owned.hold {s : State α} (owned : s.Owned) {g : Handle} (home : Option Handle)
    (quiet : ∀ t, ¬ s.Pending t) (unheld : ∀ t, ¬ s.Holds t g) (unlaunched : g ∉ launches s.stack)
    (intact : (s.frames g).destroyed = false)
    (kept : ¬ s.SelfOwned g) : (s.hold (some g) home).Owned where
  unique t u h first second := by
    rcases hold_holds.mp first with ⟨rfl, same⟩ | ⟨old, first⟩ <;>
      rcases hold_holds.mp second with ⟨rfl, same'⟩ | ⟨old', second⟩
    · rfl
    · obtain rfl := Option.some.inj same
      exact absurd second (unheld u)
    · obtain rfl := Option.some.inj same'
      exact absurd first (unheld t)
    · exact owned.unique t u h first second
  apart t h held := by
    rcases hold_holds.mp held with ⟨-, same⟩ | ⟨-, held⟩
    · obtain rfl := Option.some.inj same
      exact unlaunched
    · exact owned.apart t h held
  once := owned.once
  held t h held _ := by
    rcases hold_holds.mp held with ⟨-, same⟩ | ⟨-, held⟩
    · obtain rfl := Option.some.inj same
      exact intact
    · exact owned.held t h held (quiet t)
  launched := owned.launched
  self h selfOwned intact' := by
    obtain ⟨unheld', unlaunched'⟩ := owned.self h selfOwned intact'
    refine ⟨fun t held => ?_, unlaunched'⟩
    rcases hold_holds.mp held with ⟨-, same⟩ | ⟨-, held⟩
    · obtain rfl := Option.some.inj same
      exact kept selfOwned
    · exact unheld' t held

theorem Owned.start {s : State α} (owned : s.Owned) {a : Action α} {who : Option Handle}
    {rest : List Activation} {c : ContextId} {daemon : Bool} {t : TaskId} {g : Handle}
    {below : List Activation} (received : Option α) (top : s.stack = .body who :: rest)
    (holds : s.Holds t g) (starts : Starts who c t g a daemon below) :
    ((s.starting c daemon t g below).run g received).Owned := by
  have quiet : ¬ s.Pending t := Settled.not_pending top (by simp) t
  have intact := owned.held t g holds quiet
  have taken : ∀ u h, ((s.starting c daemon t g below).run g received).Holds u h →
      u ≠ t ∧ s.Holds u h := fun u h held => setHandle_holds.mp held
  have other : ∀ u h, ((s.starting c daemon t g below).run g received).Holds u h → h ≠ g := by
    rintro u h held rfl
    exact (taken u h held).1 (owned.unique u t h (taken u h held).2 holds)
  have member : ∀ h, h ∈ launches ((s.starting c daemon t g below).run g received).stack →
      (h = g ∧ daemon = true) ∨ h ∈ launches s.stack := by
    intro h member
    cases starts with
    | launch =>
      have member : h ∈ g :: launches s.stack := member
      rcases List.mem_cons.mp member with rfl | old
      · exact .inl ⟨rfl, rfl⟩
      · exact .inr old
    | launchDetached => exact .inr member
    | blockRun => exact .inr member
  refine ⟨fun u v h first second => ?_, fun u h held mem => ?_, ?_, fun u h held _ => ?_,
    fun h mem => ?_, fun h selfOwned intact' => ?_⟩
  · exact owned.unique u v h (taken u h first).2 (taken v h second).2
  · rcases member h mem with ⟨same, -⟩ | old
    · exact other u h held same
    · exact owned.apart u h (taken u h held).2 old
  · cases starts with
    | launch => exact List.nodup_cons.mpr ⟨owned.apart t g holds, owned.once⟩
    | launchDetached => exact owned.once
    | blockRun => exact owned.once
  · have quiet : ¬ s.Pending u := Settled.not_pending top (by simp) u
    simpa using owned.held u h (taken u h held).2 quiet
  · rcases member h mem with ⟨rfl, -⟩ | old
    · simpa using intact
    · simpa using owned.launched h old
  · by_cases same : h = g
    · subst same
      refine ⟨fun u held => other u h held rfl, fun mem => ?_⟩
      rcases member h mem with ⟨-, daemon⟩ | old
      · simp [SelfOwned, starting_daemon, daemon] at selfOwned
      · exact owned.apart t h holds old
    · rw [SelfOwned, run_other same, starting_other same] at selfOwned
      rw [run_other same, starting_other same] at intact'
      obtain ⟨unheld, unlaunched⟩ := owned.self h selfOwned intact'
      refine ⟨fun u held => unheld u (taken u h held).2, fun mem => ?_⟩
      rcases member h mem with ⟨same', -⟩ | old
      · exact same same'
      · exact unlaunched old

/-- The destructor that an assignment runs next is not that of its target, nor of a full source. -/
def untangled (s : State α) : Bool :=
  match s.stack with
  | .unwinding (t :: _) (some (dst, src)) :: _ =>
    t ≠ dst && (t ≠ src || (s.tasks src).handle = none)
  | _ => true

def Untangled (s : State α) (_ : Action α) : Prop := s.untangled = true

instance (s : State α) : DecidablePred s.Untangled := fun _ => inferInstanceAs (Decidable (_ = _))

theorem Untangled.next {s : State α} {a : Action α} (untangled : s.Untangled a) {t : TaskId}
    {tasks : List TaskId} {dst src : TaskId} {rest : List Activation}
    (top : s.stack = .unwinding (t :: tasks) (some (dst, src)) :: rest) :
    t ≠ dst ∧ (t = src → (s.tasks src).handle = none) := by
  simpa [Untangled, State.untangled, top, Decidable.imp_iff_not_or] using untangled

def Assigns (s : State α) : Prop :=
  ∀ tasks dst src rest, s.stack = .unwinding tasks (some (dst, src)) :: rest →
    dst ≠ src ∧ (s.tasks dst).alive = true ∧
      ((s.tasks src).alive = false → (s.tasks src).handle = none)

theorem step_assigns {s next : State α} {a : Action α} (assigns : s.Assigns) (settled : s.Settled)
    (untangled : s.Untangled a) (taken : s.step a = some next) : next.Assigns := by
  intro tasks dst src rest top
  rcases step_assigning settled taken top with ⟨target, source, differ, same, -⟩ |
    ⟨tasks', top', same | ⟨t, ends, rfl, same⟩⟩
  · rw [same]
    exact ⟨differ, target, by simp [source]⟩
  · rw [same]
    exact assigns tasks' dst src rest top'
  · obtain ⟨differ, target, source⟩ := assigns tasks' dst src rest top'
    rw [ends] at top'
    have untangled := untangled.next top'
    rw [same, kill_task, kill_task]
    refine ⟨differ, by simp [untangled.1.symm, target], fun dead => ?_⟩
    by_cases killed : src = t
    · exact untangled.2 killed.symm
    · exact source (by simpa [killed] using dead)

structure Ledger (s : State α) : Prop where
  formed : s.Formed
  assigns : s.Assigns
  owned : s.Owned

theorem init_ledger : (init : State α).Ledger where
  formed := init_formed
  assigns tasks dst src rest top := by simp [init] at top
  owned := init_owned

theorem step_selfOwned {s next : State α} {a : Action α} (stacked : s.Stacked)
    (numbered : s.Numbered) (taken : s.step a = some next) (resting : ∀ t, ¬ Launches t a)
    {g : Handle} (selfOwned : next.SelfOwned g) : s.SelfOwned g := by
  obtain ⟨uncalled, plain, started⟩ := selfOwned
  cases (step_effect taken).2 with
  | assign | unwind => exact ⟨by simpa using uncalled, by simpa using plain, by simpa using started⟩
  | start a who rest c daemon t h below received top alive holds starts =>
    cases starts with
    | launch => exact absurd (.launch c) (resting t)
    | launchDetached => exact absurd (.launchDetached c) (resting t)
    | blockRun => exact absurd (.blockRun c) (resting t)
  | awaitDaemon f rest kind t h top =>
    rw [suspendOn_caller] at uncalled
    split_ifs at uncalled
    refine ⟨by simpa using uncalled, by simpa using plain, ?_⟩
    by_cases suspended : g = f
    · simp [suspended, stacked.top top]
    · rwa [suspendOn_phase, if_neg suspended, transform_frames] at started
  | awaitStart f rest kind t h received top =>
    rw [run_caller, suspendOn_caller] at uncalled
    split_ifs at uncalled with callee
    refine ⟨by simpa using uncalled, by simpa using plain, ?_⟩
    by_cases suspended : g = f
    · simp [suspended, stacked.top top]
    · rwa [run_phase, if_neg callee, suspendOn_phase, if_neg suspended, transform_frames] at started
  | submit f rest c top =>
    refine ⟨by simpa using uncalled, by simpa using plain, ?_⟩
    by_cases suspended : g = f
    · simp [suspended, stacked.top top]
    · rwa [submitTo_phase, if_neg suspended] at started
  | finishCaller f rest result caller received top called =>
    refine ⟨by simpa using uncalled, by simpa using plain, ?_⟩
    by_cases resumed : g = caller
    · exact resumed ▸ numbered.callers f caller called
    · by_cases ended : g = f
      · simp [ended, stacked.top top]
      · rwa [run_phase, if_neg resumed, conclude_phase, if_neg ended] at started
  | finishDaemon f rest result top =>
    refine ⟨by simpa using uncalled, by simpa using plain, ?_⟩
    by_cases ended : g = f
    · simp [ended, stacked.top top]
    · rwa [conclude_phase, if_neg ended] at started
  | finishDestroy f rest result top =>
    refine ⟨by simpa using uncalled, by simpa using plain, ?_⟩
    by_cases ended : g = f
    · simp [ended, stacked.top top]
    · simpa [conclude_phase, ended] using started
  | complete c rest res op received top submitted waiting =>
    refine ⟨by simpa using uncalled, by simpa using plain, ?_⟩
    by_cases resumed : g = op.frame
    · simp [resumed, waiting]
    · rwa [run_phase, if_neg resumed, setRing_frames] at started
  | _ => exact ⟨by simpa using uncalled, by simpa using plain, by simpa using started⟩

theorem Owned.launch {s : State α} (owned : s.Owned) (settled : s.Settled) {who : Option Handle}
    {g : Handle} {rest : List Activation} (top : s.stack = .launching who g :: rest) :
    ({ s with stack := rest }.hold (some g) who).Owned := by
  have popped : ({ s with stack := rest } : State α).Owned := by
    refine owned.keep (fun _ _ => id) ?_ (fun t pending => ?_) (fun _ => rfl) (fun _ => id)
    · simp [top, launches]
    · exact absurd pending (Settled.not_pending top (by simp) t)
  have member : g ∈ launches s.stack := by simp [top, launches]
  refine popped.hold who (fun t pending => ?_) (fun t held => owned.apart t g held member)
    ?_ (owned.launched g member) (fun selfOwned => ?_)
  · obtain ⟨tasks, src, rest', below⟩ := pending
    have below : rest = .unwinding tasks (some (t, src)) :: rest' := below
    exact settled tasks (some (t, src)) (by simp [top, below])
  · have once : (g :: launches rest).Nodup := by simpa [top, launches] using owned.once
    exact (List.nodup_cons.mp once).1
  · exact (owned.self g selfOwned (owned.launched g member)).2 member

theorem assigned_holds {s : State α} {dst src t : TaskId} {g : Handle} {rest : List Activation}
    (source : (s.tasks src).alive = false → (s.tasks src).handle = none)
    (held : (({ s with stack := rest }.setHandle dst (s.tasks src).handle).setHandle src
      none).Holds t g) :
    (t = dst ∧ s.Holds src g) ∨ (t ≠ dst ∧ t ≠ src ∧ s.Holds t g) := by
  obtain ⟨other, held⟩ := setHandle_holds.mp held
  rw [Holds, setHandle_task] at held
  by_cases same : t = dst
  · have full : (s.tasks src).handle = some g := by simpa [same] using held.2
    refine .inl ⟨same, ?_, full⟩
    by_contra dead
    simp [source (by simpa using dead)] at full
  · exact .inr ⟨same, other, by simpa [same, Holds] using held⟩

theorem step_owned {s next : State α} {a : Action α} (ledger : s.Ledger)
    (untangled : s.Untangled a) (taken : s.step a = some next) : next.Owned := by
  obtain ⟨⟨stacked, numbered, settled⟩, assigns, owned⟩ := ledger
  have waits : (∀ dst src rest, s.stack ≠ .unwinding [] (some (dst, src)) :: rest) →
      ∀ t, s.Pending t → next.Pending t := by
    intro other t pending
    refine (step_keeps_pending taken pending).resolve_right ?_
    rintro ⟨src, rest, top⟩
    exact other t src rest top
  have self : (∀ t, ¬ Launches t a) → ∀ g, next.SelfOwned g → s.SelfOwned g :=
    fun resting g => step_selfOwned stacked numbered taken resting
  cases (step_effect taken).2 with
  | fault =>
    exact owned.keep (fun _ _ => id) (List.Sublist.refl _) (fun _ => id) (fun _ => rfl)
      (fun _ => id)
  | create who rest home top =>
    have fresh := numbered.fresh s.frameCount (Nat.le_refl _)
    have new : (s.hold (some s.frameCount) home).Owned := by
      refine owned.hold home (Settled.not_pending top (by simp)) (fun t held => ?_)
        (fun member => ?_) (by rw [fresh]; rfl) (fun self => self.2.2 (by rw [fresh]; rfl))
      · exact Nat.lt_irrefl _ (numbered.handles t _ held.2)
      · exact Nat.lt_irrefl _ (numbered.launched member)
    exact new.keep (fun _ _ => id) (List.Sublist.refl _) (fun _ => id) (fun _ => rfl)
      (fun _ => id)
  | move who rest src home top alive =>
    have moved : ∀ t g, ((s.setHandle src none).hold (s.tasks src).handle home).Holds t g →
        (t = s.taskCount ∧ s.Holds src g) ∨ (t ≠ s.taskCount ∧ t ≠ src ∧ s.Holds t g) := by
      intro t g held
      rcases hold_holds.mp held with ⟨new, same⟩ | ⟨old, held⟩
      · exact .inl ⟨new, alive, same⟩
      · exact .inr ⟨old, setHandle_holds.mp held⟩
    exact owned.pass s.taskCount src moved (List.Sublist.refl _)
      (fun t g _ pending => absurd pending (Settled.not_pending top (by simp) _)) (fun _ => rfl)
      (fun _ => id)
  | assignSelf | waitError => exact owned
  | assignEmpty who rest dst src top | drop who rest t top | stop c rest top
  | stopTimedOut c rest top =>
    exact owned.keep (fun _ _ => id) (List.Sublist.refl _) (waits (by simp [top]))
      (fun _ => rfl) (fun _ => id)
  | assign who rest dst src g top target source differ holds =>
    refine owned.release (fun _ _ => id) (List.Sublist.refl _) (waits (by simp [top]))
      (fun h => teardown_destroyed) (fun t held => ?_) (owned.apart dst g ⟨target, holds⟩)
      (self (by rintro _ ⟨⟩))
    obtain rfl := owned.unique dst t g ⟨target, holds⟩ held
    exact ⟨_, src, _, rfl⟩
  | start a who rest c daemon t g below received top alive holds starts =>
    exact owned.start received top ⟨alive, holds⟩ starts
  | awaitReady f rest kind t g top =>
    exact owned.keep (fun u g held => (transform_holds.mp held).2) (by simp)
      (waits (by simp [top])) (by simp) (self (by rintro _ ⟨⟩))
  | awaitDaemon f rest kind t g top | awaitStart f rest kind t g received top =>
    exact owned.keep (fun u g held => (transform_holds.mp held).2) (by simpa using launches_tail _)
      (waits (by simp [top])) (by simp) (self (by rintro _ ⟨⟩))
  | submit f rest c top | finishCaller f rest result caller received top called
  | finishDaemon f rest result top =>
    exact owned.keep (fun _ _ => id) (launches_tail _) (waits (by simp [top])) (by simp)
      (self (by rintro _ ⟨⟩))
  | finishDestroy f rest result top uncalled plain =>
    have running := stacked.top top
    obtain ⟨unheld, unlaunched⟩ :=
      owned.self f ⟨uncalled, plain, by simp [running]⟩ (stacked.intact f running)
    exact owned.release (g := f) (fun t h => (holds_congr (by simp)).mp)
      (by simpa using launches_tail s.stack) (waits (by simp [top]))
      (fun h => by simp [teardown_destroyed])
      (fun t held => absurd ((holds_congr (by simp)).mp held) (unheld t)) unlaunched
      (self (by rintro _ ⟨⟩))
  | unwindDead t tasks pending rest top | unwound rest top | entered c rest top | left c rest top =>
    exact owned.keep (fun _ _ => id) (by simp [top]) (waits (by simp [top])) (fun _ => rfl)
      (fun _ => id)
  | unwindEmpty t tasks pending rest top =>
    exact owned.keep (fun u g held => (kill_holds.mp held).2) (by simp [top])
      (waits (by simp [top])) (fun _ => rfl) (fun _ => id)
  | unwind t tasks pending rest g top alive holds =>
    have killed : ∀ u h, (({ s with stack := rest }.kill t).teardown g tasks pending).Holds u h →
        u ≠ t ∧ s.Holds u h := fun u h held => kill_holds.mp held
    refine owned.release (fun u h held => (killed u h held).2) (by simp [top])
      (waits (by simp [top])) (fun h => teardown_destroyed) (fun u held => ?_)
      (owned.apart t g ⟨alive, holds⟩) (self (by rintro _ ⟨⟩))
    obtain ⟨other, held⟩ := killed u g held
    exact absurd (owned.unique u t g held ⟨alive, holds⟩) other
  | assigned dst src rest top =>
    obtain ⟨differ, target, source⟩ := assigns [] dst src rest top
    refine owned.pass dst src (fun _ _ => assigned_holds source) (by simp [top])
      (fun t g held pending => ?_) (fun _ => rfl) (fun _ => id)
    have target : ∀ u, s.Pending u → u = dst := by
      rintro u ⟨tasks, src', rest', top'⟩
      simp_all
    split_ifs at pending with same
    · exact absurd (target src pending).symm differ
    · exact absurd (target t pending) same
  | launched who g rest top => exact owned.launch settled top
  | complete c rest res op received top =>
    exact owned.keep (fun _ _ => id) (List.Sublist.refl _) (waits (by simp [top])) (by simp)
      (self (by rintro _ ⟨⟩))

theorem Owned.not_struck {s : State α} {a : Action α} {e : Fault} (owned : s.Owned)
    (stacked : s.Stacked) (untangled : s.Untangled a) (struck : Struck s a e) :
    e ≠ .doubleDestroy := by
  rintro rfl
  cases struck with
  | assign who rest dst src g _ top target source differ holds failed =>
    cases failed with
    | twice gone =>
      have intact := owned.held dst g ⟨target, holds⟩ (Settled.not_pending top (by simp) dst)
      simp [intact] at gone
  | start a who rest c daemon t g below _ top alive holds intact starts failed => cases failed
  | await f rest kind t g _ top alive holds intact unfinished plain failed => cases failed
  | finishCaller f rest result caller _ top called failed => cases failed
  | finishDestroy f rest result _ top uncalled plain failed =>
    cases failed with
    | twice gone =>
      have intact := stacked.intact f (stacked.top top)
      simp [intact] at gone
  | unwind t tasks pending rest g _ top alive holds failed =>
    cases failed with
    | twice gone =>
      have intact := owned.held t g ⟨alive, holds⟩ ?_
      · simp [intact] at gone
      · rintro ⟨tasks', src, rest', top'⟩
        obtain ⟨⟨-, rfl⟩, -⟩ : (t :: tasks = tasks' ∧ pending = some (t, src)) ∧ rest = rest' := by
          simpa [top] using top'
        exact (untangled.next top).1 rfl
  | redispatch c rest res op _ top unseen gone => simp at gone

theorem step_ledger {s next : State α} {a : Action α} (ledger : s.Ledger)
    (untangled : s.Untangled a) (taken : s.step a = some next) : next.Ledger where
  formed := step_formed ledger.formed taken
  assigns := step_assigns ledger.assigns ledger.formed.settled untangled taken
  owned := step_owned ledger untangled taken

structure Unique (s : State α) : Prop where
  owner : ∀ t u g, s.Holds t g → s.Holds u g → t = u
  once : s.fault ≠ some .doubleDestroy

/--
If the destructors an assignment runs reach neither its target nor a source that still holds a frame,
every frame has at most one owner at any time and is destroyed at most once.
-/
theorem destroys_once {actions : List (Action α)}
    (untangled : Always State.step Untangled init actions) {s : State α}
    (visited : Visits State.step init actions s) : s.Unique := by
  have preserved : ∀ (s : State α) a next, s.Ledger ∧ s.fault ≠ some .doubleDestroy →
      s.Untangled a → s.step a = some next →
        next.Ledger ∧ next.fault ≠ some .doubleDestroy := by
    rintro s a next ⟨ledger, -⟩ untangled taken
    exact ⟨step_ledger ledger untangled taken, fun fault =>
      ledger.owned.not_struck ledger.formed.stacked untangled (step_fault taken fault) rfl⟩
  obtain ⟨ledger, once⟩ := visits_invariant preserved visited untangled ⟨init_ledger, nofun⟩
  exact ⟨ledger.owned.unique, once⟩

end State

-- A task is assigned to one that holds another frame; both are then dropped.
def assignedThenDropped : List (Action Unit) :=
  [.create none, .create none, .assign 0 1, .proceed, .drop 1, .proceed, .proceed, .drop 0,
    .proceed, .proceed]

theorem destroys_once_assigned :
    ∃ s : State Unit, run State.step .init assignedThenDropped = some s ∧ s.Unique := by
  have ended : (run State.step (.init : State Unit) assignedThenDropped).isSome := by
    decide +kernel
  obtain ⟨s, reached⟩ := Option.isSome_iff_exists.mp ended
  exact ⟨s, reached, State.destroys_once (by decide +kernel) (visits_end reached)⟩

-- A launched coroutine moves a task into a local variable, which is then assigned to its own task.
theorem assign_destroys_twice :
    ¬ ∀ (actions : List (Action Unit)) (s : State Unit), Visits State.step .init actions s →
      s.Unique := by
  intro claim
  have ended : (run State.step (.init : State Unit)
      [.create none, .create none, .launch 0 1, .move 0 (some 1), .io, .proceed, .assign 3 2,
        .proceed, .proceed, .drop 3, .proceed]).map State.fault =
          some (some .doubleDestroy) := by decide +kernel
  obtain ⟨s, reached, fault⟩ := Option.map_eq_some_iff.mp ended
  exact (claim _ s (visits_end reached)).once fault

end KkProxy.Coro
