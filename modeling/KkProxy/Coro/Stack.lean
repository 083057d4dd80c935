import KkProxy.Coro.Effect

set_option autoImplicit false

namespace KkProxy.Coro

open Runs

def bodies : List Activation → List Handle
  | [] => []
  | .body (some f) :: rest => f :: bodies rest
  | _ :: rest => bodies rest

namespace State

variable {α : Type}

-- The coroutines on the stack are the ones that run, and none that runs is destroyed.
structure Stacked (s : State α) : Prop where
  nodup : (bodies s.stack).Nodup
  running : ∀ f ∈ bodies s.stack, (s.frames f).phase = .running
  intact : ∀ f, (s.frames f).phase = .running → (s.frames f).destroyed = false

theorem init_stacked : (init : State α).Stacked :=
  ⟨List.nodup_nil, by simp [init, bodies], fun _ running => by simp [init, Frame.fresh] at running⟩

theorem Stacked.top {s : State α} (stacked : s.Stacked) {f : Handle} {rest : List Activation}
    (top : s.stack = .body (some f) :: rest) : (s.frames f).phase = .running :=
  stacked.running f (by simp [top, bodies])

theorem Stacked.of_same {s t : State α} (stacked : s.Stacked)
    (same : bodies t.stack = bodies s.stack)
    (phase : ∀ f, (t.frames f).phase = (s.frames f).phase)
    (destroyed : ∀ f, (t.frames f).destroyed = (s.frames f).destroyed) : t.Stacked where
  nodup := same ▸ stacked.nodup
  running f member := by
    rw [phase]
    exact stacked.running f (same ▸ member)
  intact f running := by
    rw [phase] at running
    rw [destroyed]
    exact stacked.intact f running

theorem Stacked.run {s : State α} (stacked : s.Stacked) {g : Handle} (received : Option α)
    (intact : (s.frames g).destroyed = false) (idle : (s.frames g).phase ≠ .running) :
    (s.run g received).Stacked where
  nodup := by
    refine List.nodup_cons.mpr ⟨fun member => ?_, stacked.nodup⟩
    exact idle (stacked.running g member)
  running f member := by
    rw [run_phase]
    split_ifs with same
    · rfl
    · have member : f ∈ g :: bodies s.stack := member
      exact stacked.running f ((List.mem_cons.mp member).resolve_left same)
  intact f running := by
    rw [run_phase] at running
    rw [run_destroyed]
    split_ifs at running with same
    · rw [same, intact]
    · exact stacked.intact f running

theorem Stacked.teardown {s : State α} (stacked : s.Stacked) {g : Handle}
    (idle : (s.frames g).phase ≠ .running) (rest : List TaskId)
    (pending : Option (TaskId × TaskId)) : (s.teardown g rest pending).Stacked where
  nodup := stacked.nodup
  running f member := by
    rw [teardown_phase]
    exact stacked.running f member
  intact f running := by
    rw [teardown_phase] at running
    have other : f ≠ g := fun same => idle (same ▸ running)
    rw [teardown_destroyed, if_neg other]
    exact stacked.intact f running

theorem Stacked.leave {s t : State α} (stacked : s.Stacked) {f : Handle} {rest : List Activation}
    (top : s.stack = .body (some f) :: rest) (popped : bodies t.stack = bodies rest)
    (left : (t.frames f).phase ≠ .running)
    (phase : ∀ g, g ≠ f → (t.frames g).phase = (s.frames g).phase)
    (destroyed : ∀ g, (t.frames g).destroyed = (s.frames g).destroyed) : t.Stacked := by
  obtain ⟨nodup, running, intact⟩ := stacked
  rw [top] at nodup running
  have nodup : (f :: bodies rest).Nodup := nodup
  obtain ⟨absent, nodup⟩ := List.nodup_cons.mp nodup
  refine ⟨popped ▸ nodup, fun g member => ?_, fun g running' => ?_⟩
  · rw [popped] at member
    rw [phase g (fun same => absent (same ▸ member))]
    exact running g (List.mem_cons_of_mem f member)
  · have other : g ≠ f := fun same => left (same ▸ running')
    rw [phase g other] at running'
    rw [destroyed]
    exact intact g running'

theorem Stacked.suspendOn {s : State α} (stacked : s.Stacked) {f : Handle}
    {rest : List Activation} (top : s.stack = .body (some f) :: rest) (kind : AwaitKind)
    (t : TaskId) (g : Handle) : ((s.transform kind t).suspendOn f g).Stacked := by
  refine stacked.leave top (by simp [top]) (by simp [suspendOn_phase]) (fun h other => ?_) (by simp)
  rw [suspendOn_phase, if_neg other, transform_frames]

theorem Stacked.conclude {s : State α} (stacked : s.Stacked) {f : Handle}
    {rest : List Activation} (top : s.stack = .body (some f) :: rest) (result : Option α) :
    (s.conclude f result).Stacked := by
  refine stacked.leave top (by simp [top]) (by simp [conclude_phase]) (fun h other => ?_) (by simp)
  rw [conclude_phase, if_neg other]

theorem step_stacked {s next : State α} {a : Action α} (stacked : s.Stacked)
    (taken : s.step a = some next) : next.Stacked := by
  cases (step_effect taken).2 with
  | fault | create | move | assignEmpty | drop =>
    exact stacked.of_same rfl (fun _ => rfl) (fun _ => rfl)
  | assignSelf | waitError => exact stacked
  | assign who rest dst src g top target source differ holds intact idle =>
    exact stacked.teardown idle _ _
  | start a who rest c daemon t g below received top alive holds starts resumes =>
    refine Stacked.run ?_ received resumes.intact resumes.suspended.1
    refine stacked.of_same ?_ (fun _ => starting_phase) (fun _ => starting_destroyed)
    cases starts <;> rfl
  | awaitReady f rest kind t g top alive holds intact finished =>
    exact stacked.of_same (by simp) (by simp) (by simp)
  | awaitDaemon f rest kind t g top alive holds intact unfinished daemon =>
    exact stacked.suspendOn top kind t g
  | awaitStart f rest kind t g received top alive holds intact unfinished plain resumes =>
    exact (stacked.suspendOn top kind t g).run received resumes.intact resumes.suspended.1
  | submit f rest c top context =>
    refine stacked.leave top (by simp [top]) (by simp [submitTo_phase]) (fun h other => ?_) (by simp)
    rw [submitTo_phase, if_neg other]
  | finishCaller f rest result caller received top called resumes =>
    exact (stacked.conclude top result).run received resumes.intact resumes.suspended.1
  | finishDaemon f rest result top uncalled daemon => exact stacked.conclude top result
  | finishDestroy f rest result top uncalled plain =>
    have concluded := stacked.conclude top result
    refine Stacked.teardown ?_ (by simp [conclude_phase]) _ _
    exact concluded.of_same (by simp) (by simp) (by simp)
  | unwind t tasks pending rest g top alive holds intact idle =>
    have killed : ({ s with stack := rest }.kill t).Stacked :=
      stacked.of_same (by simp [top, bodies]) (fun _ => rfl) (fun _ => rfl)
    exact killed.teardown idle tasks pending
  -- No body is left or entered.
  | unwindDead t tasks pending rest top | unwindEmpty t tasks pending rest top
  | unwound rest top | assigned dst src rest top | launched who g rest top
  | entered c rest top | left c rest top =>
    exact stacked.of_same (by simp [top, bodies]) (fun _ => rfl) (fun _ => rfl)
  | complete c rest res op received top submitted waiting intact =>
    refine Stacked.run ?_ received intact (by simp [waiting])
    exact stacked.of_same (by simp) (fun _ => rfl) (fun _ => rfl)
  | stop c rest top | stopTimedOut c rest top =>
    exact stacked.of_same (by simp) (fun _ => rfl) (fun _ => rfl)

end State

end KkProxy.Coro
