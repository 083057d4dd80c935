import KkProxy.Coro.Numbers

set_option autoImplicit false

namespace KkProxy.Coro

-- The coroutines that the calls of `launch` in progress have started.
def launches : List Activation → List Handle
  | [] => []
  | .launching _ g :: rest => g :: launches rest
  | _ :: rest => launches rest

section Launches

variable (rest : List Activation) (who : Option Handle) (c : ContextId) (tasks : List TaskId)
variable (pending : Option (TaskId × TaskId))

@[simp] theorem launches_body : launches (.body who :: rest) = launches rest := rfl
@[simp] theorem launches_entering : launches (.entering c :: rest) = launches rest := rfl
@[simp] theorem launches_loop : launches (.loop c :: rest) = launches rest := rfl
@[simp] theorem launches_unwinding :
    launches (.unwinding tasks pending :: rest) = launches rest := rfl

end Launches

theorem launches_tail (stack : List Activation) :
    (launches stack.tail).Sublist (launches stack) := by
  cases stack with
  | nil => exact List.Sublist.refl _
  | cons a rest =>
    cases a with
    | launching who g => exact List.sublist_cons_self g (launches rest)
    | _ => exact List.Sublist.refl _

namespace State

variable {α : Type}

def Holds (s : State α) (t : TaskId) (g : Handle) : Prop :=
  (s.tasks t).alive = true ∧ (s.tasks t).handle = some g

-- `operator=` has destroyed the frame that `t` holds, and `t` does not hold another one yet.
def Pending (s : State α) (t : TaskId) : Prop :=
  ∃ tasks src rest, s.stack = .unwinding tasks (some (t, src)) :: rest

def Settled (s : State α) : Prop := ∀ tasks pending, .unwinding tasks pending ∉ s.stack.tail

section Holds

variable {s : State α} {t u : TaskId} {g : Handle} {handle home : Option Handle} {kind : AwaitKind}

theorem holds_congr {s' : State α} (same : s'.tasks = s.tasks) : s'.Holds t g ↔ s.Holds t g := by
  rw [Holds, Holds, same]

theorem setHandle_holds : (s.setHandle t none).Holds u g ↔ u ≠ t ∧ s.Holds u g := by
  rw [Holds, Holds, setHandle_task]
  split_ifs with same <;> simp [same]

theorem hold_holds : (s.hold handle home).Holds u g ↔
    u = s.taskCount ∧ handle = some g ∨ u ≠ s.taskCount ∧ s.Holds u g := by
  rw [Holds, Holds, hold_task]
  split_ifs with new <;> simp [new]

theorem kill_holds : (s.kill t).Holds u g ↔ u ≠ t ∧ s.Holds u g := by
  rw [Holds, Holds, kill_task]
  split_ifs with same <;> simp [same]

theorem transform_holds : (s.transform kind t).Holds u g ↔
    (kind = .rvalue → u ≠ t) ∧ s.Holds u g := by
  cases kind with
  | lvalue => simp [transform]
  | rvalue => simp [transform, setHandle_holds]

theorem Numbered.exists_task (numbered : s.Numbered) (holds : s.Holds t g) : t < s.taskCount := by
  by_contra beyond
  have unborn := numbered.unborn t (Nat.not_lt.mp beyond)
  simp [holds.1] at unborn

end Holds

theorem mem_launches {stack : List Activation} {g : Handle} (member : g ∈ launches stack) :
    ∃ who, .launching who g ∈ stack := by
  induction stack with
  | nil => simp [launches] at member
  | cons a rest ih =>
    cases a with
    | launching who g' =>
      rcases List.mem_cons.mp member with rfl | old
      · exact ⟨who, List.mem_cons_self⟩
      · obtain ⟨who, below⟩ := ih old
        exact ⟨who, List.mem_cons_of_mem _ below⟩
    | _ =>
      obtain ⟨who, below⟩ := ih member
      exact ⟨who, List.mem_cons_of_mem _ below⟩

theorem mem_launches_of_mem {stack : List Activation} {who : Option Handle} {g : Handle}
    (member : .launching who g ∈ stack) : g ∈ launches stack := by
  induction stack with
  | nil => simp at member
  | cons a rest ih =>
    rcases List.mem_cons.mp member with rfl | below
    · exact List.mem_cons_self
    · cases a with
      | launching who' g' => exact List.mem_cons_of_mem _ (ih below)
      | _ => exact ih below

theorem Numbered.launched {s : State α} (numbered : s.Numbered) {g : Handle}
    (member : g ∈ launches s.stack) : g < s.frameCount := by
  obtain ⟨who, launching⟩ := mem_launches member
  exact numbered.launching who g launching

theorem init_settled : (init : State α).Settled := by simp [Settled, init]

theorem Settled.not_pending {s : State α} {a : Activation} {rest : List Activation}
    (top : s.stack = a :: rest) (other : ∀ tasks pending, a ≠ .unwinding tasks pending)
    (t : TaskId) : ¬ s.Pending t := by
  rintro ⟨tasks, src, rest', unwinding⟩
  exact other tasks _ (by simpa [top] using congrArg List.head? unwinding)

theorem step_settled {s next : State α} {a : Action α} (settled : s.Settled)
    (taken : s.step a = some next) : next.Settled := by
  intro tasks pending member
  have settled := settled tasks pending
  cases (step_effect taken).2 with
  | start a who rest c daemon t g below received top alive holds starts =>
    cases starts <;> simp_all [starting]
  | awaitDaemon | submit | finishDaemon | unwound | assigned | launched | left =>
    have member := List.mem_of_mem_tail member
    simp_all
  | _ => simp_all

theorem step_keeps_pending {s next : State α} {a : Action α} (taken : s.step a = some next)
    {t : TaskId} (pending : s.Pending t) :
    next.Pending t ∨ ∃ src rest, s.stack = .unwinding [] (some (t, src)) :: rest := by
  obtain ⟨tasks, src, rest, top⟩ := pending
  cases (step_effect taken).2 with
  | fault => exact .inl ⟨tasks, src, rest, top⟩
  | unwindDead u tasks' pending' rest' top' =>
    obtain ⟨⟨rfl, rfl⟩, rfl⟩ : (tasks = u :: tasks' ∧ some (t, src) = pending') ∧ rest = rest' := by
      simpa [top] using top'
    exact .inl ⟨tasks', src, rest, rfl⟩
  | unwindEmpty u tasks' pending' rest' top' =>
    obtain ⟨⟨rfl, rfl⟩, rfl⟩ : (tasks = u :: tasks' ∧ some (t, src) = pending') ∧ rest = rest' := by
      simpa [top] using top'
    exact .inl ⟨tasks', src, rest, rfl⟩
  | unwind u tasks' pending' rest' g top' =>
    obtain ⟨⟨rfl, rfl⟩, rfl⟩ : (tasks = u :: tasks' ∧ some (t, src) = pending') ∧ rest = rest' := by
      simpa [top] using top'
    exact .inl ⟨_, src, rest, rfl⟩
  | assigned dst src' rest' top' =>
    obtain ⟨⟨rfl, rfl, rfl⟩, rfl⟩ : (tasks = [] ∧ t = dst ∧ src = src') ∧ rest = rest' := by
      simpa [top] using top'
    exact .inr ⟨src, rest, top⟩
  | _ => simp_all

theorem step_assigning {s next : State α} {a : Action α} (settled : s.Settled)
    (taken : s.step a = some next) {tasks : List TaskId} {dst src : TaskId}
    {rest : List Activation} (top : next.stack = .unwinding tasks (some (dst, src)) :: rest) :
    ((s.tasks dst).alive = true ∧ (s.tasks src).alive = true ∧ dst ≠ src ∧
      next.tasks = s.tasks ∧
        ∀ g, (s.tasks dst).handle = some g → (next.frames g).destroyed = true) ∨
    ∃ tasks', s.stack = .unwinding tasks' (some (dst, src)) :: rest ∧
      (next.tasks = s.tasks ∨
        ∃ t, tasks' = t :: tasks'.tail ∧ a = .proceed ∧ next.tasks = (s.kill t).tasks) := by
  have below : ∀ b, s.stack ≠ b :: next.stack := by
    intro b under
    refine settled tasks (some (dst, src)) ?_
    simp [under, top]
  cases (step_effect taken).2 with
  | fault => exact .inr ⟨tasks, top, .inl rfl⟩
  | assignEmpty who rest' dst' src' top' target source differ empty =>
    obtain ⟨⟨rfl, rfl, rfl⟩, rfl⟩ : ([] = tasks ∧ dst' = dst ∧ src' = src) ∧ s.stack = rest := by
      simpa using top
    exact .inl ⟨target, source, differ, rfl, by simp [empty]⟩
  | assign who rest' dst' src' g top' target source differ holds =>
    obtain ⟨⟨-, rfl, rfl⟩, rfl⟩ :
        (s.homed g ++ [] = tasks ∧ dst' = dst ∧ src' = src) ∧ s.stack = rest := by
      simpa using top
    refine .inl ⟨target, source, differ, rfl, fun g' holds' => ?_⟩
    obtain rfl : g = g' := by simpa [holds] using holds'
    simp [teardown_destroyed]
  | unwindDead t tasks' pending rest' top' =>
    obtain ⟨⟨rfl, rfl⟩, rfl⟩ : (tasks' = tasks ∧ pending = some (dst, src)) ∧ rest' = rest := by
      simpa using top
    exact .inr ⟨_, top', .inl rfl⟩
  | unwindEmpty t tasks' pending rest' top' =>
    obtain ⟨⟨rfl, rfl⟩, rfl⟩ : (tasks' = tasks ∧ pending = some (dst, src)) ∧ rest' = rest := by
      simpa using top
    exact .inr ⟨_, top', .inr ⟨t, rfl, rfl, rfl⟩⟩
  | unwind t tasks' pending rest' g top' =>
    obtain ⟨⟨-, rfl⟩, rfl⟩ : (_ = tasks ∧ pending = some (dst, src)) ∧ rest' = rest := by
      simpa using top
    exact .inr ⟨_, top', .inr ⟨t, rfl, rfl, rfl⟩⟩
  | _ => simp_all

structure Formed (s : State α) : Prop where
  stacked : s.Stacked
  numbered : s.Numbered
  settled : s.Settled

theorem init_formed : (init : State α).Formed := ⟨init_stacked, init_numbered, init_settled⟩

theorem step_formed {s next : State α} {a : Action α} (formed : s.Formed)
    (taken : s.step a = some next) : next.Formed where
  stacked := step_stacked formed.stacked taken
  numbered := step_numbered formed.numbered formed.stacked taken
  settled := step_settled formed.settled taken

end State

end KkProxy.Coro
