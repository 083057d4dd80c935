import KkProxy.Ssl.Calls

set_option autoImplicit false

namespace KkProxy.Ssl

open Runs

variable {ι σ : Type} [DecidableEq ι] (o : Lib σ)

inductive ReadKind where
  | data
  -- No complete data record.
  | starved
  | closed
  | fatal
deriving DecidableEq, Repr

def Lib.readKind (ssl : σ) (bio : Bytes) (num : Int) : ReadKind :=
  let a := o.read ssl bio num
  if 0 < a.ret then .data
  else if a.errors ≠ [] then .fatal
  else match o.getError a.ssl [] a.ret with
    | .wantRead | .wantWrite => .starved
    | .zeroReturn => .closed
    | _ => .fatal

theorem Lib.readKind_data {ssl : σ} {bio : Bytes} {num : Int} :
    o.readKind ssl bio num = .data ↔ 0 < (o.read ssl bio num).ret := by
  unfold readKind
  dsimp only
  split_ifs with positive errors
  · simp [positive]
  · simp [positive]
  · split <;> simp [positive]

theorem Lib.readKind_starved {ssl : σ} {bio : Bytes} {num : Int}
    (failed : (o.read ssl bio num).ret ≤ 0) :
    o.readKind ssl bio num = .starved ↔ (o.read ssl bio num).errors = [] ∧
      o.getError (o.read ssl bio num).ssl [] (o.read ssl bio num).ret ∈
        [.wantRead, .wantWrite] := by
  unfold readKind
  dsimp only
  rw [if_neg (not_lt.mpr failed)]
  split_ifs with errors
  · simp [errors]
  · have quiet : (o.read ssl bio num).errors = [] := not_not.mp errors
    cases o.getError (o.read ssl bio num).ssl [] (o.read ssl bio num).ret <;> simp [quiet]

-- Only an empty error queue lets `SSL_get_error` look at the want state.
theorem getSslStatus_want (contract : o.ErrorContract) {e : Engine σ} {n : Int} (failed : n ≤ 0) :
    (getSslStatus o e n = .wantRead ∨ getSslStatus o e n = .wantWrite) ↔
      e.errors = [] ∧ o.getError e.ssl [] n ∈ [.wantRead, .wantWrite] := by
  by_cases quiet : e.errors = []
  · rw [getSslStatus, quiet]
    cases o.getError e.ssl [] n <;> simp
  · obtain answer | answer := contract.queued e.ssl e.errors n failed quiet <;>
      simp [getSslStatus, answer, quiet]

namespace Stream

-- `recv` returns 0 for a missing record, or -1 if an older error hides that it is missing.
theorem decryptOutcome_eq (contract : o.ErrorContract) (e : Engine σ) (num : Int) :
    decryptOutcome o (e.sslRead o num) =
      if o.readKind e.ssl e.readBio num = .data then
        .received (e.sslRead o num).ret (e.sslRead o num).data
      else if o.readKind e.ssl e.readBio num = .starved ∧ e.errors = [] then .received 0 []
      else .received (-1) [] := by
  have data : o.readKind e.ssl e.readBio num = .data ↔ 0 < (e.sslRead o num).ret :=
    o.readKind_data
  by_cases positive : 0 < (e.sslRead o num).ret
  · rw [if_pos (data.mpr positive)]
    exact if_pos positive
  · have failed : (o.read e.ssl e.readBio num).ret ≤ 0 := not_lt.mp positive
    have starved := o.readKind_starved failed
    have want := (getSslStatus_want o contract failed :
      (getSslStatus o (e.sslRead o num).engine _ = .wantRead ∨ _) ↔ _)
    have queue : (e.sslRead o num).engine.errors =
      e.errors ++ (o.read e.ssl e.readBio num).errors := rfl
    rw [if_neg (by rwa [data])]
    unfold decryptOutcome
    dsimp only
    rw [if_neg positive]
    refine if_congr ?_ rfl rfl
    rw [queue, List.append_eq_nil_iff] at want
    rw [starved]
    exact want.trans ⟨fun ⟨⟨own, new⟩, wants⟩ => ⟨⟨new, wants⟩, own⟩,
      fun ⟨⟨new, wants⟩, own⟩ => ⟨⟨own, new⟩, wants⟩⟩

end Stream

namespace Machine

def lastRead (m : Machine ι σ) (input : Input) (len : Nat) : ReadKind :=
  let arrived := match input with
    | .received _ bytes => bytes
    | _ => []
  o.readKind m.stream.engine.ssl (m.stream.engine.readBio ++ arrived) (toInt32 len)

/--
If this step completes a `recv` into a non-empty buffer, 0 means that the peer's stream has ended
and a negative value that the raw stream or the engine failed.
-/
def ReportsRightly (m : Machine ι σ) (input : ι × Input) : Prop :=
  ∀ m' len flag n buf, 0 < len → m.step o input = some m' →
    m'.slots input.1 = .returned (.recv len flag) (.received n buf) →
      (n = 0 → input.2 = .received 0 [] ∨ m.lastRead o input.2 len = .closed) ∧
      (n < 0 → (∃ r < 0, input.2 = .received r []) ∨ m.lastRead o input.2 len = .fatal)

/-- The bytes a `recv` gets from its raw `recv` complete a data record or are refused. -/
def GetsRecord (m : Machine ι σ) (input : ι × Input) : Prop :=
  ∀ r bytes call len flag, input.2 = .received r bytes → 0 < r → bytes.length = r.toNat →
    bytes.length ≤ len → m.slots input.1 = .suspended call (.recvRaw len flag) →
      m.lastRead o input.2 len = .data ∨ m.lastRead o input.2 len = .fatal

theorem step_recvRaw (contract : o.ErrorContract) {m : Machine ι σ} (proper : m.Proper) {i : ι}
    {call : Call} {len : Nat} {flag : Int} {r : Int} {bytes : Bytes}
    (waiting : m.slots i = .suspended call (.recvRaw len flag)) (positive : 0 < r)
    (counted : bytes.length = r.toNat) (fits : bytes.length ≤ len) :
    ∃ m', m.step o (i, .received r bytes) = some m' ∧
      m'.slots i = .returned (.recv len flag) (Stream.decryptOutcome o
        ((m.stream.engine.feed bytes).sslRead o (toInt32 len))) := by
  obtain rfl : call = .recv len flag :=
    Call.suspends_recvRaw.mp (by simpa [waiting, Pc.Proper] using proper i)
  refine ⟨m.settle i (.recv len flag) ((m.stream.obtain bytes).recvReceived o len r bytes), ?_, ?_⟩
  · simp only [step, waiting, Suspended.request, Stream.resumeReceived]
    exact if_pos ⟨counted, fits⟩
  · rw [settle_slot, Stream.recvReceived_eq o contract positive counted fits]
    rfl

theorem recv_returned {m m' : Machine ι σ} (proper : m.Proper) {i : ι} {input : Input} {len : Nat}
    {flag n : Int} {buf : Bytes} (taken : m.step o (i, input) = some m')
    (returned : m'.slots i = .returned (.recv len flag) (.received n buf)) :
    0 < n ∨ input = .received n [] ∨ ∃ r bytes, input = .received r bytes ∧ 0 < r ∧
      bytes.length = r.toNat ∧ bytes.length ≤ len ∧
        m.slots i = .suspended (.recv len flag) (.recvRaw len flag) := by
  have own := proper i
  cases step_effect o taken with
  | call c free =>
    rw [settle_slot, Progress.pc_returned] at returned
    obtain ⟨rfl, done⟩ := returned
    have start := m.stream.recv_start o len flag
    change (m.stream.recv o len flag).2 = _ at done
    generalize m.stream.recv o len flag = r at start done
    cases start with
    | leftover some =>
      have length := List.length_pos_iff.mpr some
      simp only [Progress.done.injEq, Outcome.received.injEq] at done
      omega
    | decrypted read none reads positive =>
      simp only [Progress.done.injEq, Outcome.received.injEq] at done
      omega
    | starved => cases done
  | sent r call p offered flag' waiting request fits =>
    rw [settle_slot, Progress.pc_returned] at returned
    obtain ⟨rfl, -⟩ := returned
    rw [waiting] at own
    cases p with
    | handshakeRecv | recvRaw => simp [Suspended.request] at request
    | handshakeSend | sendRaw => exact own.elim
  | received r bytes call p len' flag' waiting request counted fits =>
    rw [settle_slot, Progress.pc_returned] at returned
    obtain ⟨rfl, done⟩ := returned
    rw [waiting] at own
    cases p with
    | handshakeSend | sendRaw => simp [Suspended.request] at request
    | handshakeRecv => exact own.elim
    | recvRaw len'' flag'' =>
      obtain ⟨rfl, rfl⟩ : len'' = len ∧ flag'' = flag := own
      obtain ⟨rfl, rfl⟩ : len'' = len' ∧ flag'' = flag' := by
        simpa [Suspended.request] using request
      by_cases positive : 0 < r
      · exact .inr (.inr ⟨r, bytes, rfl, positive, counted, fits, waiting⟩)
      · obtain rfl : bytes = [] := List.length_eq_zero_iff.mp (by omega)
        simp only [Stream.resumeReceived, Stream.recvReceived, if_pos (not_lt.mp positive),
          Progress.done.injEq, Outcome.received.injEq] at done
        exact .inr (.inl (by rw [done.1]))

theorem reportsRightly_iff (contract : o.ErrorContract) (m : Machine ι σ) (proper : m.Proper)
    (input : ι × Input) : m.ReportsRightly o input ↔ m.GetsRecord o input := by
  obtain ⟨i, input⟩ := input
  constructor
  · rintro rightly r bytes call len flag ⟨⟩ positive counted fits waiting
    obtain ⟨m', taken, returned⟩ := step_recvRaw o contract proper waiting positive counted fits
    rw [Stream.decryptOutcome_eq o contract] at returned
    split_ifs at returned with data starved
    · exact .inl data
    · obtain raw | closed := (rightly m' len flag 0 [] (by omega) taken returned).1 rfl
      · simp only [Input.received.injEq] at raw
        omega
      · exact absurd (starved.1.symm.trans closed) (by decide)
    · obtain ⟨r', negative, raw⟩ | fatal :=
        (rightly m' len flag (-1) [] (by omega) taken returned).2 (by decide)
      · simp only [Input.received.injEq] at raw
        omega
      · exact .inr fatal
  · intro gets m' len flag n buf some taken returned
    obtain positive | raw | ⟨r, bytes, rfl, positive, counted, fits, waiting⟩ :=
      recv_returned o proper taken returned
    · omega
    · exact ⟨fun zero => .inl (zero ▸ raw), fun negative => .inl ⟨n, negative, raw⟩⟩
    · obtain ⟨m'', same, outcome⟩ := step_recvRaw o contract proper waiting positive counted fits
      obtain rfl : m'' = m' := Option.some.inj (same.symm.trans taken)
      have result := (Pc.returned.inj (outcome.symm.trans returned)).2
      have kind := gets r bytes _ len flag rfl positive counted fits waiting
      rw [Stream.decryptOutcome_eq o contract] at result
      split_ifs at result with data starved
      · have some := o.readKind_data.mp data
        obtain ⟨same, -⟩ := Outcome.received.inj result
        have same : (o.read _ _ _).ret = n := same
        omega
      · have same : m.lastRead o (.received r bytes) len = .starved := starved.1
        simp [same] at kind
      · obtain ⟨rfl, -⟩ := Outcome.received.inj result
        exact ⟨by omega, fun _ => .inr (kind.resolve_left data)⟩

end Machine

/--
In a run, every `recv` into a non-empty buffer reports the end of the stream and errors as such, and
nothing else, exactly when the bytes each `recv` gets from its raw `recv` complete a data record or
are refused by the engine.
-/
theorem recv_reports_rightly_iff (contract : o.ErrorContract) (ssl : σ)
    (inputs : List (ι × Input)) :
    Always (Machine.step o) (Machine.ReportsRightly o) (Machine.fresh ssl) inputs ↔
      Always (Machine.step o) (Machine.GetsRecord o) (Machine.fresh ssl) inputs :=
  always_congr (fun _ _ _ => Machine.step_proper)
    (fun m input proper => m.reportsRightly_iff o contract proper input) (Machine.fresh_proper ssl)

def splitRecord : List (Unit × Input) := [((), .call (.recv 2 0)), ((), .received 1 [0])]

theorem recv_reports_rightly_iff_split :
    Always (Machine.step Lib.records) (Machine.ReportsRightly Lib.records)
      (Machine.fresh .established) splitRecord ↔
    Always (Machine.step Lib.records) (Machine.GetsRecord Lib.records)
      (Machine.fresh .established) splitRecord :=
  recv_reports_rightly_iff Lib.records Lib.records_contract .established splitRecord

-- `recv` returns 0 for the first chunk, with the peer's stream still open.
theorem recv_reports_end_early :
    ¬ ∀ inputs : List (Unit × Input),
      Always (Machine.step Lib.records) (Machine.ReportsRightly Lib.records)
        (Machine.fresh .established) inputs := by
  intro claim
  have ended : (run (Machine.step Lib.records) (Machine.fresh .established : Solo RecordState)
      [((), .call (.recv 2 0))]).map (fun m =>
        ((m.step Lib.records ((), .received 1 [0])).map fun m' => m'.slots (),
          m.lastRead Lib.records (.received 1 [0]) 2)) =
        some (some (.returned (.recv 2 0) (.received 0 [])), .starved) := by decide +kernel
  obtain ⟨m, reached, view⟩ := Option.map_eq_some_iff.mp ended
  simp only [Prod.mk.injEq] at view
  obtain ⟨m', taken, returned⟩ := Option.map_eq_some_iff.mp view.1
  have rightly := always_iff.mp (claim splitRecord) [((), .call (.recv 2 0))] _ [] rfl m reached
  have zero := (rightly m' 2 0 0 [] (by decide) taken returned).1 rfl
  simp [view.2] at zero

end KkProxy.Ssl
