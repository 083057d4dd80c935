import KkProxy.Shared.Isolation
import KkProxy.Ssl.ErrorQueue

set_option autoImplicit false

namespace KkProxy.Ssl

open Runs Isolation

variable {κ ι σ : Type} [DecidableEq κ] [DecidableEq ι]

/-- The streams of a thread; the queues of their engines are kept empty and `errors` in their place. -/
structure Thread (κ ι σ : Type) where
  errors : List ErrEntry
  machines : κ → Machine ι σ

namespace Thread

def fresh (ssl : κ → σ) : Thread κ ι σ :=
  { errors := [], machines := fun k => .fresh (ssl k) }

def step (o : Lib σ) (t : Thread κ ι σ) : κ × ι × Input → Option (Thread κ ι σ)
  | (k, input) => (((t.machines k).withErrors t.errors).step o input).map fun m =>
    { errors := m.stream.engine.errors
      machines := Function.update t.machines k (m.withErrors []) }

def SameResults (k : κ) (s t : Thread κ ι σ) : Prop :=
  (s.machines k).slots = (t.machines k).slots ∧ (s.machines k).delivered = (t.machines k).delivered

def StarvesAlike (o : Lib σ) (k : κ) (s t : Thread κ ι σ) (input : κ × ι × Input) : Prop :=
  input.1 = k →
    ((s.machines k).withErrors s.errors).StarvesAlike o t.errors input.2.1 input.2.2

def Related (k : κ) (s t : Thread κ ι σ) : Prop :=
  s.machines k = t.machines k ∧ (s.machines k).Proper

variable {o : Lib σ}

theorem step_some {t t' : Thread κ ι σ} {k : κ} {input : ι × Input}
    (taken : t.step o (k, input) = some t') :
    ∃ m, ((t.machines k).withErrors t.errors).step o input = some m ∧
      t' = { errors := m.stream.engine.errors
             machines := Function.update t.machines k (m.withErrors []) } := by
  obtain ⟨m, moved, rfl⟩ := Option.map_eq_some_iff.mp taken
  exact ⟨m, moved, rfl⟩

theorem unwinding (contract : o.ErrorContract) (finished : o.FinishedContract) (k : κ) :
    Unwinding (step o) (step o) (fun input : κ × ι × Input => decide (input.1 = k))
      (StarvesAlike o k) (Related k) where
  own := by
    rintro s t ⟨k', i, input⟩ s' ⟨same, proper⟩ alike mine taken
    obtain rfl : k' = k := of_decide_eq_true mine
    obtain ⟨m, moved, rfl⟩ := step_some taken
    obtain ⟨queue, moved'⟩ := Machine.step_alike contract finished (alike rfl) moved
    have moved' : ((t.machines k').withErrors t.errors).step o (i, input) =
        some (m.withErrors queue) := same ▸ moved'
    have before : ((s.machines k').withErrors s.errors).Proper := proper
    have after : m.Proper := Machine.step_proper before moved
    refine ⟨_, congrArg (Option.map _) moved', ?_, ?_⟩
    · simp only [Function.update_self]
      rfl
    · simp only [Function.update_self]
      exact after
  foreign := by
    rintro s t ⟨k', i, input⟩ s' ⟨same, proper⟩ - mine taken
    have other : k ≠ k' := fun equal => of_decide_eq_false mine equal.symm
    obtain ⟨m, moved, rfl⟩ := step_some taken
    unfold Related
    simp only [Function.update_of_ne other]
    exact ⟨same, proper⟩

-- A starved `recv` returns 0 on an empty error queue and -1 on any other.
theorem starved_differ (contract : o.ErrorContract) {k : κ} {s t : Thread κ ι σ}
    {input : κ × ι × Input} (related : Related k s t) (differ : ¬ StarvesAlike o k s t input) :
    decide (input.1 = k) = true ∧ ∃ s', s.step o input = some s' ∧
      ∀ t', t.step o input = some t' → ¬ SameResults k s' t' := by
  obtain ⟨k', i, input⟩ := input
  simp only [StarvesAlike, Machine.StarvesAlike, Classical.not_imp, not_forall] at differ
  obtain ⟨rfl, r, bytes, call, len, flag, rfl, positive, counted, fits, waiting, starved, differ⟩ :=
    differ
  obtain ⟨same, proper⟩ := related
  -- The same step on either queue.
  have outcome (queue : List ErrEntry) :
      ∃ m, ((s.machines k').withErrors queue).step o (i, .received r bytes) = some m ∧
        m.slots i = .returned (.recv len flag)
          (if queue = [] then .received 0 [] else .received (-1) []) := by
    have before : ((s.machines k').withErrors queue).Proper := proper
    obtain ⟨m, taken, returned⟩ :=
      Machine.step_recvRaw o contract before waiting positive counted fits
    have kind : o.readKind (((s.machines k').withErrors queue).stream.engine.feed bytes).ssl
        (((s.machines k').withErrors queue).stream.engine.feed bytes).readBio (toInt32 len) =
          .starved := starved
    rw [Stream.decryptOutcome_eq o contract, kind, if_neg (by decide)] at returned
    refine ⟨m, taken, returned.trans (congrArg (Pc.returned _) ?_)⟩
    exact if_congr (and_iff_right rfl) rfl rfl
  obtain ⟨m, taken, returned⟩ := outcome s.errors
  refine ⟨by simp, _, congrArg (Option.map _) taken, fun t' moved alike => ?_⟩
  obtain ⟨m', taken', rfl⟩ := step_some moved
  obtain ⟨m'', again, returned'⟩ := outcome t.errors
  rw [same] at again
  obtain rfl : m'' = m' := Option.some.inj (again.symm.trans taken')
  have slots := congrFun alike.1 i
  simp only [Function.update_self] at slots
  change m.slots i = m''.slots i at slots
  rw [returned, returned'] at slots
  apply differ
  by_cases own : s.errors = [] <;> by_cases others : t.errors = [] <;>
    simp_all [Machine.withErrors, Stream.withErrors, Engine.withErrors]

end Thread

/--
In a run of several streams on one thread, the operations of stream `k` return and deliver what they
would without the other streams, exactly when every `recv` on it whose bytes do not complete a record
finds an error in the queue if and only if it would without them.
-/
theorem isolated_iff_starvesAlike (o : Lib σ) (contract : o.ErrorContract)
    (finished : o.FinishedContract) (ssl : κ → σ) (k : κ) (inputs : List (κ × ι × Input)) :
    Isolated (Thread.step o) (Thread.step o) (fun input => decide (input.1 = k))
      (Thread.SameResults k) (Thread.fresh ssl) (Thread.fresh ssl) inputs ↔
    Together (Thread.step o) (Thread.step o) (fun input => decide (input.1 = k))
      (Thread.StarvesAlike o k) (Thread.fresh ssl) (Thread.fresh ssl) inputs := by
  refine (Thread.unwinding contract finished k).isolated_iff ?_ ?_ ⟨rfl, Machine.fresh_proper _⟩
  · rintro s t ⟨same, -⟩
    exact ⟨by rw [same], by rw [same]⟩
  · exact fun s t input related differ => Thread.starved_differ contract related differ

theorem Lib.records_finished : Lib.records.FinishedContract := fun _ _ _ =>
  ⟨Int.zero_lt_one, Int.zero_lt_one⟩

-- The first byte of a record arrives on stream `false` after a record that is refused has arrived
-- on stream `true`.
def refusedNearby : List (Bool × Unit × Input) :=
  [(true, (), .call (.recv 2 0)), (true, (), .received 2 [9, 9]),
    (false, (), .call (.recv 2 0)), (false, (), .received 1 [0])]

theorem isolated_iff_starvesAlike_refused :
    Isolated (Thread.step Lib.records) (Thread.step Lib.records)
      (fun input => decide (input.1 = false)) (Thread.SameResults false)
      (Thread.fresh fun _ => .established) (Thread.fresh fun _ => .established) refusedNearby ↔
    Together (Thread.step Lib.records) (Thread.step Lib.records)
      (fun input => decide (input.1 = false)) (Thread.StarvesAlike Lib.records false)
      (Thread.fresh fun _ => .established) (Thread.fresh fun _ => .established) refusedNearby :=
  isolated_iff_starvesAlike Lib.records Lib.records_contract Lib.records_finished
    (fun _ => .established) false refusedNearby

theorem streams_not_isolated :
    ¬ ∀ inputs : List (Bool × Unit × Input),
      Isolated (Thread.step Lib.records) (Thread.step Lib.records)
        (fun input => decide (input.1 = false)) (Thread.SameResults false)
        (Thread.fresh fun _ => .established) (Thread.fresh fun _ => .established) inputs := by
  intro claim
  have shared : (run (Thread.step Lib.records)
      (Thread.fresh fun _ => .established : Thread Bool Unit RecordState) refusedNearby).map
        (fun t => (t.machines false).slots ()) =
      some (.returned (.recv 2 0) (.received (-1) [])) := by decide +kernel
  have alone : (run (Thread.step Lib.records)
      (Thread.fresh fun _ => .established : Thread Bool Unit RecordState)
        (refusedNearby.filter fun input => decide (input.1 = false))).map
        (fun t => (t.machines false).slots ()) =
      some (.returned (.recv 2 0) (.received 0 [])) := by decide +kernel
  obtain ⟨s, reached, failed⟩ := Option.map_eq_some_iff.mp shared
  obtain ⟨t, filtered, same⟩ := claim refusedNearby refusedNearby [] (by simp) s reached
  rw [filtered, Option.map_some, ← same.1, failed] at alone
  cases alone

end KkProxy.Ssl
