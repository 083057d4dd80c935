import KkProxy.Ssl.Attempts
import KkProxy.Ssl.Senders

set_option autoImplicit false

namespace KkProxy.Ssl

open Runs

variable {ι σ : Type}

inductive Flushing (chunk : Bytes) (bytesSent : Nat) : Call → Suspended → Prop where
  | handshake (type : HandshakeType) :
    Flushing chunk bytesSent (.handshake type) (.handshakeSend type chunk bytesSent)
  | send (buf : Bytes) (flag : Int) (bytesConsumed : Nat) :
    Flushing chunk bytesSent (.send buf flag) (.sendRaw buf flag bytesConsumed chunk bytesSent)

def Call.failure (r : Int) : Call → Outcome
  | .handshake _ => .handshake (some (makeSysError (-r)))
  | .send _ _ => .sent r
  | .recv _ _ => .received r []

/-- The raw stream may be offered `k` bytes while it is sent `n`, `raw k r` being its answers. -/
inductive Offered (raw : Nat → Int → Prop) (n : Nat) : Nat → Prop where
  | first : Offered raw n n
  | rest {k : Nat} {r : Int} (earlier : Offered raw n k) (answer : raw k r) (positive : 0 < r)
    (part : r.toNat < k) : Offered raw n (k - r.toNat)

def sends (i : ι) (answers : List Int) : List (ι × Input) := answers.map fun r => (i, .sent r)

namespace Machine

variable (m : Machine ι σ) (i : ι) (call : Call) (chunk : Bytes)

def Answered (raw : Nat → Int → Prop) (m : Machine ι σ) (input : ι × Input) : Prop :=
  ∀ r call p offered flag, input.2 = .sent r → m.slots input.1 = .suspended call p →
    p.request = .send offered flag → raw offered.length r

/-- Since `m` the first `bytesSent` bytes of the chunk, and no others, have been accepted. -/
structure Stays (bytesSent : Nat) (m' : Machine ι σ) : Prop where
  slot : ∃ p, m'.slots i = .suspended call p ∧ Flushing chunk bytesSent call p
  rest : bytesSent < chunk.length
  accepted : m'.stream.accepted = m.stream.accepted ++ chunk.take bytesSent

inductive Leaves (r : Int) (m' : Machine ι σ) : Prop where
  | flushed (accepted : m'.stream.accepted = m.stream.accepted ++ chunk)
  | failed (bytesSent : Nat) (nonpos : r ≤ 0) (rest : bytesSent < chunk.length)
    (accepted : m'.stream.accepted = m.stream.accepted ++ chunk.take bytesSent)
    (returned : m'.slots i = .returned call (call.failure r))

variable [DecidableEq ι] (o : Lib σ)

/-- However often the raw stream answers, the loop is left by one of its first `n` answers. -/
def EndsInTime (raw : Nat → Int → Prop) : Prop :=
  ∀ answers m', Always (step o) (Answered raw) m (sends i answers) →
    run (step o) m (sends i answers) = some m' →
      (answers.length < chunk.length ∧ ∃ bytesSent, m.Stays i call chunk bytesSent m') ∨
        ∃ before r after left, answers = before ++ r :: after ∧ before.length < chunk.length ∧
          run (step o) m (sends i (before ++ [r])) = some left ∧ m.Leaves i call chunk r left

inductive FlushStep (bytesSent : Nat) (r : Int) (m' : Machine ι σ) : Prop where
  | leaves (left : m.Leaves i call chunk r m')
  | stays (nonneg : 0 ≤ r) (zero : r = 0 → ∃ type, call = .handshake type)
    (stays : m.Stays i call chunk (bytesSent + r.toNat) m')

variable {m i call chunk o}

theorem accept_accepted (s : Stream σ) (n : Nat) (r : Int) {accepted : Bytes}
    (before : s.accepted = accepted ++ chunk.take n) :
    (s.accept (chunk.drop n) r).accepted = accepted ++ chunk.take (n + r.toNat) := by
  simp [Stream.accept, before, List.take_add]

theorem Stays.step {t t' : Machine ι σ} {n : Nat} {r : Int} (before : m.Stays i call chunk n t)
    (taken : t.step o (i, .sent r) = some t') : m.FlushStep i call chunk n r t' := by
  obtain ⟨⟨p, slot, flushing⟩, rest, kept⟩ := before
  cases step_effect o taken with
  | sent r call' p' offered flag waiting request fits =>
    obtain ⟨rfl, rfl⟩ : call = call' ∧ p = p' := by simpa [slot] using waiting
    have accepted := accept_accepted t.stream n r kept
    have whole (given : ¬ n + r.toNat < chunk.length) :
        (t.stream.accept (chunk.drop n) r).accepted = m.stream.accepted ++ chunk := by
      rw [accepted, List.take_of_length_le (Nat.not_lt.mp given)]
    have failed {out : Outcome} (nonpos : r ≤ 0) (same : call.failure r = out) :
        m.Leaves i call chunk r
          (t.settle i call (t.stream.accept (chunk.drop n) r, .done out)) := by
      rw [Int.toNat_of_nonpos nonpos, Nat.add_zero] at accepted
      exact .failed n nonpos rest accepted (by rw [settle_slot, same]; rfl)
    cases flushing with
    | handshake type =>
      obtain ⟨rfl, -⟩ : chunk.drop n = offered ∧ _ := by simpa [Suspended.request] using request
      simp only [Stream.resumeSent, Stream.handshakeSent]
      split_ifs with negative more
      · exact .leaves (failed (le_of_lt negative) rfl)
      · refine .stays (not_lt.mp negative) (fun _ => ⟨type, rfl⟩) ⟨⟨_, ?_, .handshake type⟩, more, ?_⟩
        · rw [settle_slot]
          rfl
        · exact accepted
      · refine .leaves (.flushed ?_)
        have turn := Stream.handshakeLoop_turn o type (t.stream.accept (chunk.drop n) r)
        exact turn.refills.accepted.trans (whole more)
    | send buf flag' bytesConsumed =>
      obtain ⟨rfl, -⟩ : chunk.drop n = offered ∧ _ := by simpa [Suspended.request] using request
      simp only [Stream.resumeSent, Stream.sendSent]
      split_ifs with nonpos more
      · exact .leaves (failed nonpos rfl)
      · refine .stays (by omega) (by omega) ⟨⟨_, ?_, .send buf flag' bytesConsumed⟩, more, ?_⟩
        · rw [settle_slot]
          rfl
        · exact accepted
      · refine .leaves (.flushed ?_)
        have refills := Stream.sendDrain_refills o buf flag' bytesConsumed
          (t.stream.accept (chunk.drop n) r)
        exact refills.accepted.trans (whole more)

omit [DecidableEq ι] in
theorem Stays.answered_iff {t : Machine ι σ} {n : Nat} {r : Int} {raw : Nat → Int → Prop}
    (stays : m.Stays i call chunk n t) :
    t.Answered raw (i, .sent r) ↔ raw (chunk.length - n) r := by
  obtain ⟨p, slot, flushing⟩ := stays.slot
  have offers : ∃ flag, p.request = .send (chunk.drop n) flag := by
    cases flushing <;> exact ⟨_, rfl⟩
  obtain ⟨flag, offers⟩ := offers
  rw [← List.length_drop]
  constructor
  · intro answered
    exact answered r call p _ flag rfl slot offers
  · rintro answer _ call' p' offered flag' ⟨⟩ waiting request
    obtain ⟨rfl, rfl⟩ : call = call' ∧ p = p' := by simpa [slot] using waiting
    obtain ⟨rfl, -⟩ : chunk.drop n = offered ∧ _ := by simpa [offers] using request
    exact answer

omit [DecidableEq ι] in
theorem Stays.not_leaves {t : Machine ι σ} {n : Nat} {r : Int} (stays : m.Stays i call chunk n t) :
    ¬ m.Leaves i call chunk r t := by
  intro left
  cases left with
  | flushed accepted =>
    have whole : chunk.take n = chunk :=
      List.append_cancel_left (stays.accepted.symm.trans accepted)
    have all := congrArg List.length whole
    rw [List.length_take] at all
    have rest := stays.rest
    omega
  | failed bytesSent nonpos rest accepted returned =>
    obtain ⟨p, slot, -⟩ := stays.slot
    rw [slot] at returned
    cases returned

-- Each answer that does not end the loop is positive, so that the rest of the chunk gets shorter.
theorem run_ends {raw : Nat → Int → Prop}
    (accepts : ∀ type, call = .handshake type → ∀ k, Offered raw chunk.length k → ¬ raw k 0)
    {earlier answers : List Int} {n : Nat} {t m' : Machine ι σ}
    (started : run (Machine.step o) m (sends i earlier) = some t)
    (stays : m.Stays i call chunk n t) (short : earlier.length ≤ n)
    (offered : Offered raw chunk.length (chunk.length - n))
    (allowed : Always (Machine.step o) (Answered raw) t (sends i answers))
    (reached : run (Machine.step o) t (sends i answers) = some m') :
    ((earlier ++ answers).length < chunk.length ∧ ∃ bytesSent, m.Stays i call chunk bytesSent m') ∨
      ∃ before r after left, earlier ++ answers = before ++ r :: after ∧
        before.length < chunk.length ∧
        run (Machine.step o) m (sends i (before ++ [r])) = some left ∧
        m.Leaves i call chunk r left := by
  induction answers generalizing earlier n t with
  | nil =>
    obtain rfl := Option.some.inj reached
    have rest := stays.rest
    exact .inl ⟨by simp only [List.append_nil]; omega, n, stays⟩
  | cons r answers ih =>
    obtain ⟨next, taken, later⟩ := run_cons_some reached
    have answer : raw (chunk.length - n) r := stays.answered_iff.mp allowed.1
    have extended : run (Machine.step o) m (sends i (earlier ++ [r])) = some next := by
      simpa [sends] using run_snoc started taken
    have rest := stays.rest
    cases stays.step taken with
    | leaves left => exact .inr ⟨earlier, r, answers, next, rfl, by omega, extended, left⟩
    | stays nonneg zero stays' =>
      have positive : 0 < r := by
        refine lt_of_le_of_ne nonneg fun same => ?_
        obtain ⟨type, handshake⟩ := zero same.symm
        exact accepts type handshake _ offered (same ▸ answer)
      have rest' := stays'.rest
      have again := ih extended stays' (by simp only [List.length_append, List.length_singleton]; omega)
        (Nat.sub_sub .. ▸ offered.rest answer positive (by omega)) (allowed.2 next taken) later
      simpa using again

structure Lingers (o : Lib σ) (raw : Nat → Int → Prop) (m : Machine ι σ) (i : ι) (call : Call)
    (chunk : Bytes) (answers : List Int) (n : Nat) (m' : Machine ι σ) : Prop where
  reached : run (step o) m (sends i answers) = some m'
  allowed : Always (step o) (Answered raw) m (sends i answers)
  stays : m.Stays i call chunk n m'
  throughout : ∀ t, Visits (step o) m (sends i answers) t →
    ∃ bytesSent, m.Stays i call chunk bytesSent t

theorem Stays.resend {t : Machine ι σ} {type : HandshakeType} {n : Nat} {r : Int}
    (stays : m.Stays i (.handshake type) chunk n t) (nonneg : 0 ≤ r)
    (more : n + r.toNat < chunk.length) :
    ∃ t', t.step o (i, .sent r) = some t' ∧ m.Stays i (.handshake type) chunk (n + r.toNat) t' := by
  obtain ⟨⟨p, slot, ⟨⟩⟩, rest, kept⟩ := stays
  refine ⟨t.settle i (.handshake type) (t.stream.accept (chunk.drop n) r,
    .suspended (.handshakeSend type chunk (n + r.toNat))), ?_, ⟨_, ?_, .handshake type⟩, more, ?_⟩
  · simp only [Machine.step, slot, Suspended.request, Stream.resumeSent, Stream.handshakeSent]
    rw [if_pos (by rw [List.length_drop]; omega), if_neg (not_lt.mpr nonneg), if_pos more]
  · rw [settle_slot]
    rfl
  · exact accept_accepted t.stream n r kept

theorem Lingers.snoc {raw : Nat → Int → Prop} {type : HandshakeType} {answers : List Int} {n : Nat}
    {t : Machine ι σ} (lingers : Lingers o raw m i (.handshake type) chunk answers n t) {r : Int}
    (nonneg : 0 ≤ r) (more : n + r.toNat < chunk.length) (answer : raw (chunk.length - n) r) :
    ∃ t', Lingers o raw m i (.handshake type) chunk (answers ++ [r]) (n + r.toNat) t' := by
  obtain ⟨t', taken, stays⟩ := lingers.stays.resend (o := o) nonneg more
  have reached := run_snoc lingers.reached taken
  have split : sends i (answers ++ [r]) = sends i answers ++ [(i, .sent r)] := by simp [sends]
  refine ⟨t', split ▸ reached, ?_, stays, fun u visited => ?_⟩
  · rw [split, always_append]
    refine ⟨lingers.allowed, fun u same => ?_⟩
    obtain rfl : t = u := Option.some.inj (lingers.reached.symm.trans same)
    exact ⟨lingers.stays.answered_iff.mpr answer, fun _ _ => trivial⟩
  · obtain ⟨before, after, cut, passed⟩ := visited
    obtain rfl | ⟨after', a, rfl⟩ := List.eq_nil_or_concat' after
    · rw [List.append_nil] at cut
      obtain rfl : t' = u := Option.some.inj (reached.symm.trans (split ▸ cut ▸ passed))
      exact ⟨_, stays⟩
    · rw [split, ← List.append_assoc] at cut
      exact lingers.throughout u ⟨before, after', (List.append_inj' cut rfl).1, passed⟩

theorem Lingers.of_offered {raw : Nat → Int → Prop} {type : HandshakeType} {k : Nat}
    (stays : m.Stays i (.handshake type) chunk 0 m) (offered : Offered raw chunk.length k) :
    ∃ answers n t, answers.length ≤ n ∧ n + k = chunk.length ∧
      Lingers o raw m i (.handshake type) chunk answers n t := by
  induction offered with
  | first =>
    refine ⟨[], 0, m, Nat.le_refl _, Nat.zero_add _, rfl, trivial, stays, fun t visited => ⟨0, ?_⟩⟩
    obtain ⟨before, after, cut, passed⟩ := visited
    obtain ⟨rfl, -⟩ := List.append_eq_nil_iff.mp cut.symm
    exact Option.some.inj passed ▸ stays
  | @rest k r earlier answer positive part ih =>
    obtain ⟨answers, n, t, short, sum, lingers⟩ := ih
    obtain rfl : chunk.length - n = k := by omega
    obtain ⟨t', lingers'⟩ := lingers.snoc (le_of_lt positive) (by omega) answer
    exact ⟨_, _, t', by simp only [List.length_append, List.length_singleton]; omega, by omega,
      lingers'⟩

-- A handshake whose raw send answers 0 offers the same bytes again.
theorem Lingers.zeros {raw : Nat → Int → Prop} {type : HandshakeType} {answers : List Int}
    {n : Nat} {t : Machine ι σ}
    (lingers : Lingers o raw m i (.handshake type) chunk answers n t)
    (zero : raw (chunk.length - n) 0) (count : Nat) :
    ∃ t', Lingers o raw m i (.handshake type) chunk (answers ++ List.replicate count 0) n t' := by
  induction count with
  | zero => exact ⟨t, by simpa using lingers⟩
  | succ count ih =>
    obtain ⟨t', lingers'⟩ := ih
    rw [List.replicate_succ', ← List.append_assoc]
    exact lingers'.snoc le_rfl lingers'.stays.rest zero

-- As many zeros follow as the chunk has bytes.
theorem Stays.not_endsInTime {raw : Nat → Int → Prop} {type : HandshakeType} {k : Nat}
    (stays : m.Stays i (.handshake type) chunk 0 m) (offered : Offered raw chunk.length k)
    (zero : raw k 0) : ¬ m.EndsInTime i (.handshake type) chunk o raw := by
  intro ends
  obtain ⟨answers, n, t, short, sum, lingers⟩ := Lingers.of_offered (o := o) stays offered
  obtain rfl : chunk.length - n = k := by omega
  obtain ⟨t', lingers'⟩ := lingers.zeros zero (chunk.length - answers.length)
  obtain ⟨few, -⟩ | ⟨before, r, after, left, split, -, reached, leaves⟩ :=
    ends _ t' lingers'.allowed lingers'.reached
  · rw [List.length_append, List.length_replicate] at few
    omega
  · obtain ⟨bytesSent, remains⟩ := lingers'.throughout left
      ⟨sends i (before ++ [r]), sends i after, by simp [split, sends], reached⟩
    exact remains.not_leaves leaves

/--
A call that has taken a chunk of `n` bytes leaves its loop by one of the first `n` raw sends,
whatever the raw stream answers, exactly when the call is not a handshake or the raw stream never
answers 0.
-/
theorem flush_ends_iff (o : Lib σ) (raw : Nat → Int → Prop) (m : Machine ι σ) (i : ι)
    (call : Call) (p : Suspended) (chunk : Bytes) (waiting : m.slots i = .suspended call p)
    (flushing : Flushing chunk 0 call p) (some : chunk ≠ []) :
    m.EndsInTime i call chunk o raw ↔
      ∀ type, call = .handshake type → ∀ k, Offered raw chunk.length k → ¬ raw k 0 := by
  have stays : m.Stays i call chunk 0 m :=
    ⟨⟨p, waiting, flushing⟩, List.length_pos_iff.mpr some, by simp⟩
  constructor
  · rintro ends type rfl k offered zero
    exact stays.not_endsInTime offered zero ends
  · intro accepts answers m' allowed reached
    have started : run (Machine.step o) m (sends i []) = Option.some m := rfl
    exact run_ends accepts started stays (Nat.le_refl _) (Nat.sub_zero _ ▸ .first) allowed reached

end Machine

theorem greeting_started :
    ∃ m : Solo GreetState,
      run (Machine.step Lib.greeting) (.fresh .silent) [((), .call (.handshake .client))] = some m ∧
      m.slots () = .suspended (.handshake .client) (.handshakeSend .client [22, 3, 1] 0) := by
  have started : (run (Machine.step Lib.greeting) (.fresh .silent : Solo GreetState)
      [((), .call (.handshake .client))]).map (fun m => m.slots ()) =
        some (.suspended (.handshake .client) (.handshakeSend .client [22, 3, 1] 0)) := by
    decide +kernel
  exact Option.map_eq_some_iff.mp started

-- A first answer that accepts two of the three bytes is one of those covered.
theorem flush_ends_iff_greeting :
    ∃ m : Solo GreetState,
      run (Machine.step Lib.greeting) (.fresh .silent) [((), .call (.handshake .client))] = some m ∧
      m.EndsInTime () (.handshake .client) [22, 3, 1] Lib.greeting (fun k r => r ≠ 0 ∧ r ≤ k) ∧
      ∃ m', run (Machine.step Lib.greeting) m (sends () [2]) = some m' ∧
        m.Stays () (.handshake .client) [22, 3, 1] 2 m' := by
  obtain ⟨m, reached, slot⟩ := greeting_started
  have ends := Machine.flush_ends_iff Lib.greeting (fun k r => r ≠ 0 ∧ r ≤ k) m () _ _ [22, 3, 1]
    slot (.handshake .client) (by decide)
  have stays : m.Stays () (.handshake .client) [22, 3, 1] 0 m :=
    ⟨⟨_, slot, .handshake .client⟩, by decide, by simp⟩
  obtain ⟨m', taken, part⟩ :=
    stays.resend (o := Lib.greeting) (show (0 : Int) ≤ 2 by decide) (by decide)
  exact ⟨m, reached, ends.mpr fun _ _ _ _ zero => zero.1 rfl, m',
    by simp [sends, run_cons, taken], part⟩

-- The raw stream accepts two bytes and then none of the third.
theorem handshake_flush_stalls :
    ¬ ∀ m : Solo GreetState,
      run (Machine.step Lib.greeting) (.fresh .silent) [((), .call (.handshake .client))] = some m →
      m.EndsInTime () (.handshake .client) [22, 3, 1] Lib.greeting (fun k r => r ≤ k) := by
  intro claim
  obtain ⟨m, reached, slot⟩ := greeting_started
  have stays : m.Stays () (.handshake .client) [22, 3, 1] 0 m :=
    ⟨⟨_, slot, .handshake .client⟩, by decide, by simp⟩
  have offered : Offered (fun k r => r ≤ (k : Int)) 3 1 :=
    .rest (r := 2) .first (by decide) (by decide) (by decide)
  exact stays.not_endsInTime offered (by decide) (claim m reached)

end KkProxy.Ssl
