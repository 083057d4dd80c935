import KkProxy.Ssl.Output

set_option autoImplicit false

namespace KkProxy.Ssl

open Runs
open Shared (Conveyor)
open Shared.Conveyor (Moves)

variable {σ : Type} (o : Lib σ)

def Pc.loaded : Pc → Bytes
  | .suspended _ p => p.loaded
  | _ => []

def Pc.Offers : Pc → Prop
  | .suspended _ p => p.Offers
  | _ => True

def Pc.call? : Pc → Option Call
  | .idle => none
  | .suspended call _ => some call
  | .returned call _ => some call

def Input.Writes : Input → Prop
  | .call (.recv _ _) => False
  | _ => True

/-- The bytes the raw stream has accepted and those still in the write BIO are all the output. -/
def Stream.GapFree (s : Stream σ) : Prop := s.accepted ++ s.engine.writeBio = s.engine.output

namespace Machine

def conveyor (m : Solo σ) : Conveyor UInt8 := m.stream.conveyor (m.slots ()).loaded

theorem gapFree_iff {m : Solo σ} (free : (m.slots ()).free = true) :
    m.stream.GapFree ↔ m.conveyor.Conserved := by
  have unloaded : (m.slots ()).loaded = [] := by
    cases slot : m.slots () <;> simp_all [Pc.free, Pc.loaded]
  simp [Stream.GapFree, conveyor, unloaded, Stream.conveyor, Engine.conveyor,
    Shared.Conveyor.Conserved]

theorem settle_conveyor (m : Solo σ) (call : Call) (r : Stream σ × Progress) :
    (m.settle () call r).conveyor = r.1.conveyor r.2.loaded := by
  obtain ⟨s, p⟩ := r
  cases p <;> rfl

theorem settle_offers {m : Solo σ} {call : Call} {r : Stream σ × Progress}
    (offers : r.2.Offers) : ((m.settle () call r).slots ()).Offers := by
  obtain ⟨s, p⟩ := r
  cases p <;> exact offers

def Sends (m : Solo σ) (input : Unit × Input) : Prop :=
  ∀ r call p, input.2 = .sent r → m.slots () = .suspended call p → p.goesOn r

structure Flowing (m : Solo σ) : Prop where
  conserved : m.conveyor.Conserved
  offers : (m.slots ()).Offers

theorem fresh_flowing (ssl : σ) : (fresh ssl : Solo σ).Flowing := ⟨rfl, trivial⟩

-- The raw `recv` of `recv` is the only one that needs to know about `SSL_get_error`.
def Decrypts (m : Solo σ) (input : Unit × Input) : Prop :=
  ∃ r bytes call len flag, input.2 = .received r bytes ∧
    m.slots () = .suspended call (.recvRaw len flag)

variable {o}

theorem step_flowing {m m' : Solo σ} {input : Unit × Input} (flowing : m.Flowing)
    (sends : m.Sends input) (contract : m.Decrypts input → o.ErrorContract)
    (taken : m.step o input = some m') : m'.Flowing := by
  obtain ⟨⟨⟩, input⟩ := input
  have settle {c : Call} {r : Stream σ × Progress} (moves : Moves m.conveyor
      (r.1.conveyor r.2.loaded)) (offers : r.2.Offers) : (m.settle () c r).Flowing :=
    ⟨settle_conveyor m c r ▸ moves.conserved flowing.conserved, settle_offers offers⟩
  cases step_effect o taken with
  | call c free =>
    have unloaded : m.conveyor = m.stream.conveyor [] := by
      unfold conveyor
      cases slot : m.slots () <;> simp_all [Pc.free, Pc.loaded]
    have flows := m.stream.start_flows o c
    exact settle (unloaded ▸ flows.moves) flows.offers
  | sent r call p offered flag waiting request fits =>
    have loaded : m.conveyor = m.stream.conveyor offered := by
      simp [conveyor, waiting, Pc.loaded, Suspended.request_loaded request]
    have resumed := m.stream.resumeSent_moves o request (sends r call p rfl waiting)
    exact settle (loaded ▸ resumed.1) resumed.2
  | received r bytes call p len flag waiting request counted fits =>
    cases p with
    | handshakeSend | sendRaw => simp [Suspended.request] at request
    | handshakeRecv type =>
      have unloaded : m.conveyor = (m.stream.obtain bytes).conveyor [] := by
        simp [conveyor, waiting, Pc.loaded, Suspended.loaded, Stream.conveyor, Stream.obtain]
      have flows := (m.stream.obtain bytes).handshakeReceived_flows o type r bytes
      exact settle (unloaded ▸ flows.moves) flows.offers
    | recvRaw len' flag' =>
      obtain ⟨rfl, rfl⟩ : len' = len ∧ flag' = flag := by simpa [Suspended.request] using request
      have unloaded : m.conveyor = (m.stream.obtain bytes).conveyor [] := by
        simp [conveyor, waiting, Pc.loaded, Suspended.loaded, Stream.conveyor, Stream.obtain]
      have documented := contract ⟨r, bytes, call, len', flag', rfl, waiting⟩
      have flows := (m.stream.obtain bytes).recvReceived_flows o documented counted fits
      exact settle (unloaded ▸ flows.moves) flows.offers

def Writing (m : Solo σ) : Prop := ∀ len flag, (m.slots ()).call? ≠ some (.recv len flag)

theorem settle_writing {m : Solo σ} {c : Call} {r : Stream σ × Progress}
    (writes : ∀ len flag, c ≠ .recv len flag) : (m.settle () c r).Writing := by
  intro len flag
  rw [settle_slot]
  cases r.2 <;> simpa [Progress.pc, Pc.call?] using writes len flag

theorem step_writing {m m' : Solo σ} {input : Unit × Input} (writing : m.Writing)
    (writes : input.2.Writes) (taken : m.step o input = some m') : m'.Writing := by
  obtain ⟨⟨⟩, input⟩ := input
  cases step_effect o taken with
  | call c free =>
    apply settle_writing
    rintro len flag rfl
    exact writes
  | sent r call p offered flag waiting request fits =>
    exact settle_writing fun len flag => by simpa [waiting, Pc.call?] using writing len flag
  | received r bytes call p len flag waiting request counted fits =>
    exact settle_writing fun len flag => by simpa [waiting, Pc.call?] using writing len flag

theorem Writing.not_decrypts {m : Solo σ} (writing : m.Writing) (proper : m.Proper)
    (input : Unit × Input) : ¬ m.Decrypts input := by
  rintro ⟨r, bytes, call, len, flag, -, waiting⟩
  have suspends : call.Suspends (.recvRaw len flag) := by
    simpa [waiting, Pc.Proper] using proper ()
  cases call with
  | handshake | send => exact suspends
  | recv len' flag' => exact writing len' flag' (by simp [waiting, Pc.call?])

structure Writes (m : Solo σ) : Prop where
  flowing : m.Flowing
  proper : m.Proper
  writing : m.Writing

theorem fresh_writes (ssl : σ) : (fresh ssl : Solo σ).Writes :=
  ⟨fresh_flowing ssl, fresh_proper ssl, fun _ _ => by simp [fresh, Pc.call?]⟩

theorem step_writes {m m' : Solo σ} {input : Unit × Input} (before : m.Writes)
    (allowed : m.Sends input ∧ input.2.Writes) (taken : m.step o input = some m') :
    m'.Writes where
  flowing := step_flowing before.flowing allowed.1
    (fun decrypts => absurd decrypts (before.writing.not_decrypts before.proper input)) taken
  proper := step_proper before.proper taken
  writing := step_writing before.writing allowed.2 taken

variable (o) in
theorem failed_send_gap {m : Solo σ} {input : Unit × Input} (flowing : m.Flowing)
    (fails : ¬ m.Sends input) :
    ∃ m', m.step o input = some m' ∧ (m'.slots ()).free = true ∧ ¬ m'.stream.GapFree := by
  simp only [Sends, not_forall] at fails
  obtain ⟨r, call, p, sent, waiting, fails⟩ := fails
  obtain ⟨⟨⟩, _⟩ := input
  obtain rfl : _ = Input.sent r := sent
  have offers : p.Offers := by simpa [waiting, Pc.Offers] using flowing.offers
  obtain ⟨offered, flag, request, some⟩ :
      ∃ offered flag, p.request = .send offered flag ∧ offered ≠ [] := by
    cases p with
    | handshakeRecv | recvRaw => exact absurd trivial fails
    | handshakeSend | sendRaw =>
      refine ⟨_, _, rfl, ?_⟩
      simpa [Suspended.Offers] using offers
  have nonpos : r ≤ 0 := by
    cases p <;> simp only [Suspended.goesOn, not_true_eq_false] at fails <;> omega
  obtain ⟨out, resumed, spilled⟩ := m.stream.resumeSent_spills o request fails
  refine ⟨m.settle () call ((m.stream.accept offered r).resumeSent o r p), ?_, ?_, ?_⟩
  · simp only [step, waiting, request]
    exact if_pos (by omega)
  · rw [settle_slot, resumed]
    rfl
  · rw [gapFree_iff (by rw [settle_slot, resumed]; rfl), settle_conveyor, resumed]
    have loaded : m.conveyor = m.stream.conveyor offered := by
      simp [conveyor, waiting, Pc.loaded, Suspended.request_loaded request]
    have conserved := flowing.conserved
    rw [loaded] at conserved
    change ¬ ((m.stream.accept offered r).conveyor []).Conserved
    rw [spilled, Shared.Conveyor.spill_conserved_iff conserved]
    exact some

end Machine

/--
In a run of handshakes and sends made one after the other, no gap is left in the ciphertext at any
moment between two calls exactly when no raw send of the run failed.
-/
theorem send_leaves_no_gap_iff (ssl : σ) (inputs : List (Unit × Input))
    (calls : ∀ input ∈ inputs, input.2.Writes) :
    (∀ m : Solo σ, Visits (Machine.step o) (Machine.fresh ssl) inputs m →
      (m.slots ()).free = true → m.stream.GapFree) ↔
    Always (Machine.step o) Machine.Sends (Machine.fresh ssl : Solo σ) inputs := by
  constructor
  · intro gapFree
    by_contra fails
    obtain ⟨before, input, after, m, rfl, reached, allowed, failed⟩ := exists_first_failure fails
    have writes : m.Writes :=
      run_invariant (fun _ _ _ => Machine.step_writes) reached
        (allowed.and (always_of_forall (fun a member => calls a (by simp [member])) _))
        (Machine.fresh_writes ssl)
    obtain ⟨m', taken, free, gap⟩ := Machine.failed_send_gap o writes.flowing failed
    exact gap (gapFree m' ⟨before ++ [input], after, by simp, run_snoc reached taken⟩ free)
  · intro sends m visited free
    have writes : m.Writes :=
      visits_invariant (fun _ _ _ => Machine.step_writes) visited
        (sends.and (always_of_forall calls _)) (Machine.fresh_writes ssl)
    exact (Machine.gapFree_iff free).mpr writes.flowing.conserved

-- The raw stream accepts one byte of the first record and then fails.
def resetSend : List (Unit × Input) :=
  [((), .call (.send [7, 8] 0)), ((), .sent 1), ((), .sent (-104))]

theorem resetSend_writes : ∀ input ∈ resetSend, input.2.Writes := by
  intro input member
  simp only [resetSend, List.mem_cons, List.not_mem_nil, or_false] at member
  obtain rfl | rfl | rfl := member <;> trivial

theorem send_leaves_no_gap_iff_reset :
    (∀ m : Solo RecordState,
      Visits (Machine.step Lib.records) (Machine.fresh .established) resetSend m →
        (m.slots ()).free = true → m.stream.GapFree) ↔
    Always (Machine.step Lib.records) Machine.Sends
      (Machine.fresh .established : Solo RecordState) resetSend :=
  send_leaves_no_gap_iff Lib.records .established resetSend resetSend_writes

theorem send_leaves_gap :
    ¬ ∀ inputs : List (Unit × Input), (∀ input ∈ inputs, input.2.Writes) →
      ∀ m : Solo RecordState,
        Visits (Machine.step Lib.records) (Machine.fresh .established) inputs m →
          (m.slots ()).free = true → m.stream.GapFree := by
  intro claim
  have ended : (run (Machine.step Lib.records)
      (Machine.fresh .established : Solo RecordState) resetSend).map
      (fun m => ((m.slots ()).free, m.stream.accepted, m.stream.engine.writeBio,
        m.stream.engine.output)) = some (true, [0], [], [0, 7, 0, 8]) := by decide +kernel
  obtain ⟨m, reached, view⟩ := Option.map_eq_some_iff.mp ended
  simp only [Prod.mk.injEq] at view
  have gapFree := claim resetSend resetSend_writes m (visits_end reached) view.1
  simp [Stream.GapFree, view] at gapFree

end KkProxy.Ssl
