import KkProxy.Ssl.Levels

set_option autoImplicit false

namespace KkProxy.Ssl

open Runs
open Shared (Side Duplex)

variable {ι σ : Type} {o : Lib σ}

def Pc.closed (pc : Pc) : Bool := pc.free && !pc.threw

def Pc.delivers : Pc → Bytes
  | .returned _ out => out.delivers
  | _ => []

theorem Pc.closed_loaded {pc : Pc} (closed : pc.closed = true) : pc.loaded = [] := by
  cases pc <;> first | rfl | simp [Pc.closed, Pc.free] at closed

theorem Progress.pc_delivers (call : Call) (progress : Progress) :
    (progress.pc call).delivers = progress.delivers := by
  cases progress <;> rfl

def Input.gives : Input → Bytes
  | .call (.send buf _) => buf
  | _ => []

section Pairs

variable [DecidableEq ι]

theorem Machine.step_slots {m m' : Machine ι σ} {i j : ι} {input : Input}
    (taken : m.step o (i, input) = some m') (other : j ≠ i) : m'.slots j = m.slots j := by
  cases step_effect o taken <;> exact Function.update_of_ne other ..

theorem Machine.step_delivered {m m' : Machine ι σ} {i : ι} {input : Input}
    (taken : m.step o (i, input) = some m') :
    m'.delivered = m.delivered ++ (m'.slots i).delivers := by
  have settled (c : Call) (r : Stream σ × Progress) :
      (m.settle i c r).delivered = m.delivered ++ ((m.settle i c r).slots i).delivers := by
    rw [settle_slot, Progress.pc_delivers]
    rfl
  cases step_effect o taken <;> exact settled _ _

/--
Two streams of which one is the raw stream of the other: what the lower has delivered the upper has
received, and what was given to the lower the upper has been told is accepted; but for the call
whose answer is `pending`, and the bytes the upper's sender `w` offers while it waits.
-/
structure Pair (w : ι) (pending : Option ι) (sent : Bytes) (lower upper : Machine ι σ) : Prop where
  received : lower.delivered =
    upper.stream.received ++ pending.elim [] fun i => (lower.slots i).delivers
  given : sent = upper.stream.accepted ++
    if (lower.slots w).closed = false ∨ pending = some w then (upper.slots w).loaded else []

namespace Pair

variable {w i : ι} {sent : Bytes} {lower lower' upper upper' : Machine ι σ} {input : Input}

theorem given_offered {pending : Option ι} (pair : Pair w pending sent lower upper) :
    sent <+: upper.stream.accepted ++ (upper.slots w).loaded := by
  rw [pair.given, List.prefix_append_right_inj]
  split_ifs
  · exact List.prefix_rfl
  · exact List.nil_prefix

theorem take_received {c : Call} {n : Int} {buf : Bytes} (pair : Pair w (some i) sent lower upper)
    (returned : lower.slots i = .returned c (.received n buf))
    (unloaded : (upper.slots i).loaded = [])
    (taken : upper.step o (i, input) = some upper') (carries : upper.Carries i input upper')
    (bytes : input.bytes = buf.take n.toNat) (ships : input.ships (upper.slots i).loaded = []) :
    Pair w none sent lower upper' where
  received := by
    rw [pair.received, carries.received, bytes, List.append_assoc]
    simp [returned, Pc.delivers, Outcome.delivers]
  given := by
    rw [pair.given, carries.accepted, ships, List.append_nil]
    by_cases own : i = w
    · subst own
      simp [returned, unloaded, Pc.closed, Pc.free, Pc.threw]
    · simp [own, Machine.step_slots taken (Ne.symm own)]

theorem take_sent {c : Call} {n : Int} (pair : Pair w (some w) sent lower upper)
    (returned : lower.slots w = .returned c (.sent n)) (carries : upper.Carries w input upper')
    (bytes : input.bytes = [])
    (ships : input.ships (upper.slots w).loaded = (upper.slots w).loaded) :
    Pair w none sent lower upper' where
  received := by
    rw [pair.received, carries.received, bytes, List.append_assoc]
    simp [returned, Pc.delivers, Outcome.delivers]
  given := by
    rw [pair.given, carries.accepted, ships]
    simp [returned, Pc.closed, Pc.free, Pc.threw]

theorem take_threw {c : Call} {what : String} (pair : Pair w (some i) sent lower upper)
    (returned : lower.slots i = .returned c (.threw what)) : Pair w none sent lower upper where
  received := by
    rw [pair.received]
    simp [returned, Pc.delivers, Outcome.delivers]
  given := by
    rw [pair.given]
    by_cases own : i = w
    · subst own
      simp [returned, Pc.closed, Pc.free, Pc.threw]
    · simp [own]

theorem upper_call {c : Call} (pair : Pair w none sent lower upper)
    (closed : (lower.slots i).closed = true)
    (taken : upper.step o (i, .call c) = some upper')
    (carries : upper.Carries i (.call c) upper') : Pair w none sent lower upper' where
  received := by
    rw [pair.received, carries.received]
    simp [Input.bytes]
  given := by
    rw [pair.given, carries.accepted]
    by_cases own : i = w
    · subst own
      simp [closed, Input.ships]
    · simp [Input.ships, Machine.step_slots taken (Ne.symm own)]

theorem lower_step {pending : Option ι} (pair : Pair w none sent lower upper)
    (taken : lower.step o (i, input) = some lower') (answers : pending = none ∨ pending = some i)
    (delivers : pending = none → (lower'.slots i).delivers = [])
    (silent : i ≠ w → input.gives = [])
    (own : i = w → input.gives = [] ∧ (upper.slots w).loaded = [] ∨
      ((lower'.slots w).closed = false ∨ pending = some w) ∧
        ((lower.slots w).closed = false ∧ input.gives = [] ∨
          (lower.slots w).closed = true ∧ input.gives = (upper.slots w).loaded)) :
    Pair w pending (sent ++ input.gives) lower' upper where
  received := by
    rw [Machine.step_delivered taken, pair.received]
    obtain rfl | rfl := answers
    · simp [delivers rfl]
    · simp
  given := by
    rw [pair.given]
    by_cases same : i = w
    · subst same
      obtain ⟨none, unloaded⟩ | ⟨waits, ⟨waited, none⟩ | ⟨idle, all⟩⟩ := own rfl
      · simp [none, unloaded]
      · simp [none, waited, waits]
      · simp [all, idle, waits]
    · have kept := Machine.step_slots taken (Ne.symm same)
      have other : pending ≠ some w := by
        obtain rfl | rfl := answers
        · simp
        · simpa using same
      simp [silent same, kept, other]

end Pair

end Pairs

-- For each level, a run of the two streams at that level as if they were alone.
structure Ledger (ι σ : Type) where
  inputs : Nat → List (Side × ι × Input)
  links : Nat → Link ι σ

namespace Ledger

def machine (g : Ledger ι σ) (side : Side) (level : Nat) : Machine ι σ :=
  ((g.links level).ends side).1

def given (g : Ledger ι σ) (side : Side) (level : Nat) : Bytes :=
  KkProxy.Ssl.given (Duplex.inputsOf side (g.inputs level))

variable [DecidableEq ι]

def Sound (o : Lib σ) (e : Setting ι σ) (g : Ledger ι σ) : Prop :=
  ∀ level, Link.Reached o e level (g.inputs level) (g.links level)

structure Takes (g : Ledger ι σ) (side : Side) (i : ι) (level : Nat) (input : Input)
    (m : Machine ι σ) (g' : Ledger ι σ) : Prop where
  taken : (g.machine side level).step o (i, input) = some m
  machine : g'.machine side level = m
  other : (g'.links level).ends side.other = (g.links level).ends side.other
  inputs : g'.inputs level = g.inputs level ++ [(side, i, input)]
  elsewhere : ∀ k, k ≠ level → g'.links k = g.links k ∧ g'.inputs k = g.inputs k

structure Apart (side : Side) (i : ι) (g g' : Ledger ι σ) : Prop where
  other : ∀ level, (g'.links level).ends side.other = (g.links level).ends side.other
  given : ∀ level, g'.given side.other level = g.given side.other level
  slots : ∀ level j, j ≠ i → (g'.machine side level).slots j = (g.machine side level).slots j

omit [DecidableEq ι] in
theorem Apart.refl (side : Side) (i : ι) (g : Ledger ι σ) : g.Apart side i g :=
  ⟨fun _ => rfl, fun _ => rfl, fun _ _ _ => rfl⟩

omit [DecidableEq ι] in
theorem Apart.trans {side : Side} {i : ι} {g g' g'' : Ledger ι σ} (first : g.Apart side i g')
    (second : g'.Apart side i g'') : g.Apart side i g'' where
  other level := (second.other level).trans (first.other level)
  given level := (second.given level).trans (first.given level)
  slots level j other := (second.slots level j other).trans (first.slots level j other)

section Takes

variable {g g' : Ledger ι σ} {side : Side} {i : ι} {level : Nat} {input : Input}
  {m : Machine ι σ} (takes : g.Takes (o := o) side i level input m g')

include takes

theorem Takes.machine_ne {k : Nat} (other : k ≠ level) : g'.machine side k = g.machine side k := by
  rw [Ledger.machine, (takes.elsewhere k other).1, Ledger.machine]

theorem Takes.given_ne {k : Nat} (other : k ≠ level) : g'.given side k = g.given side k := by
  rw [Ledger.given, (takes.elsewhere k other).2, Ledger.given]

theorem Takes.given_same : g'.given side level = g.given side level ++ input.gives := by
  have own : Duplex.inputsOf side [(side, i, input)] = [(i, input)] := by
    simp [Duplex.inputsOf]
  rw [Ledger.given, takes.inputs, Duplex.inputsOf, List.filterMap_append]
  change KkProxy.Ssl.given (_ ++ Duplex.inputsOf side [(side, i, input)]) = _
  rw [own, KkProxy.Ssl.given, List.flatMap_append, List.flatMap_singleton]
  rfl

theorem Takes.apart : g.Apart side i g' where
  other k := by
    by_cases same : k = level
    · exact same ▸ takes.other
    · rw [(takes.elsewhere k same).1]
  given k := by
    by_cases same : k = level
    · subst same
      rw [Ledger.given, takes.inputs, Duplex.inputsOf, List.filterMap_append, Ledger.given]
      simp [Duplex.inputsOf]
    · rw [Ledger.given, (takes.elsewhere k same).2, Ledger.given]
  slots k j other := by
    by_cases same : k = level
    · subst same
      rw [takes.machine]
      exact Machine.step_slots takes.taken other
    · rw [takes.machine_ne same]

end Takes

section Steps

variable {e : Setting ι σ} {g : Ledger ι σ} {side : Side} {i : ι} {level : Nat}

variable (contract : o.ErrorContract) (sound : g.Sound o e)

include contract sound

theorem exists_takes {input : Input} {m : Machine ι σ}
    (moved : (g.machine side level).step o (i, input) = some m)
    (allowed : (g.links level).Allows e.roles (side, i, input))
    (sole : (g.links level).Sole e.w (side, i, input))
    (makes : Machine.Makes (e.made side) (i, input))
    (next : m.stream.received <+: ((g.links level).ends side.other).offered) :
    ∃ g', g'.Sound o e ∧ g.Takes (o := o) side i level input m g' := by
  obtain ⟨d, reached, machine, other⟩ :=
    (sound level).step contract moved allowed sole makes next
  refine ⟨{ inputs := Function.update g.inputs level (g.inputs level ++ [(side, i, input)])
            links := Function.update g.links level d }, fun k => ?_, moved, ?_, ?_, ?_, ?_⟩
  · by_cases same : k = level
    · subst same
      simpa using reached
    · simpa [same] using sound k
  · simpa [Ledger.machine] using machine
  · simpa using other
  · simp
  · intro k other
    simp [other]

theorem received_prefix : (g.machine side level).stream.received <+:
    ((g.links level).ends side.other).offered := by
  have conserved : ((g.links level).ends side.other.other).1.stream.received ++
      (g.links level).wire side.other = ((g.links level).ends side.other).offered :=
    ((sound level).sound contract).conserved side.other
  rw [Side.other_other] at conserved
  exact ⟨_, conserved⟩

theorem carries {input : Input} {m : Machine ι σ}
    (moved : (g.machine side level).step o (i, input) = some m)
    (allowed : input.Accepts ∧ input.Plays (e.roles side)) :
    (g.machine side level).Carries i input m :=
  Machine.step_carries contract (((sound level).sound contract).ends side).kept allowed moved

theorem takes_call {c : Call} (plays : c.Plays (e.roles side)) (makes : e.made side i c)
    (closed : ((g.machine side level).slots i).closed = true) :
    ∃ g', g'.Sound o e ∧ g.Takes (o := o) side i level (.call c)
      ((g.machine side level).settle i c ((g.machine side level).stream.start o c)) g' := by
  obtain ⟨free, continues⟩ : ((g.machine side level).slots i).free = true ∧
      ((g.machine side level).slots i).threw = false := by
    simpa [Pc.closed] using closed
  have moved : (g.machine side level).step o (i, .call c) =
      some ((g.machine side level).settle i c ((g.machine side level).stream.start o c)) :=
    if_pos free
  have own : (Input.call c).Plays (e.roles side) := by
    cases c <;> exact plays
  have allowed : (g.links level).Allows e.roles (side, i, .call c) := ⟨⟨trivial, trivial⟩, own⟩
  have sole : (g.links level).Sole e.w (side, i, .call c) := by
    refine ⟨fun sends => e.sender side i c makes ?_, continues⟩
    cases c <;> first | rfl | cases sends
  refine exists_takes contract sound moved allowed sole makes ?_
  rw [(carries contract sound moved ⟨trivial, own⟩).received]
  simpa only [Input.bytes, List.append_nil] using received_prefix contract sound

theorem sender_of_send {call : Call} {p : Suspended} {offered : Bytes} {flag : Int}
    (waiting : (g.machine side level).slots i = .suspended call p)
    (request : p.request = .send offered flag) : i = e.w side ∧ offered ≠ [] := by
  have offers := (((sound level).sound contract).ends side).ordered.offers i
  have loaded : ((g.machine side level).slots i).loaded = offered := by
    rw [waiting]
    exact Suspended.request_loaded request
  have some : offered ≠ [] := by
    rw [show ((g.links level).ends side).1.slots i = .suspended call p from waiting] at offers
    cases p with
    | handshakeRecv | recvRaw => simp [Suspended.request] at request
    | handshakeSend | sendRaw =>
      simp only [Suspended.request, RawRequest.send.injEq] at request
      rw [← request.1]
      simpa [Pc.Offers, Suspended.Offers] using offers
  refine ⟨?_, some⟩
  by_contra other
  exact some (loaded.symm.trans ((sound level).unloaded contract other))

theorem takes_sent {call : Call} {p : Suspended} {offered : Bytes} {flag r : Int}
    (waiting : (g.machine side level).slots i = .suspended call p)
    (request : p.request = .send offered flag) (fits : r ≤ offered.length) (accepts : 0 < r) :
    ∃ g', g'.Sound o e ∧ g.Takes (o := o) side i level (.sent r)
      ((g.machine side level).settle i call
        (((g.machine side level).stream.accept offered r).resumeSent o r p)) g' := by
  have moved : (g.machine side level).step o (i, .sent r) =
      some ((g.machine side level).settle i call
        (((g.machine side level).stream.accept offered r).resumeSent o r p)) := by
    simp only [Machine.step, waiting, request]
    exact if_pos fits
  obtain ⟨rfl, some⟩ := sender_of_send contract sound waiting request
  have loaded : ((g.machine side level).slots (e.w side)).loaded ≠ [] := by
    have carried : p.loaded = offered := Suspended.request_loaded request
    rw [waiting]
    exact fun none => some (carried.symm.trans none)
  have first : ((g.links level).ends side).FirstTaken (e.w side, .sent r) :=
    ((sound level).offered_eq contract side).2 loaded
  refine exists_takes contract sound moved ⟨⟨accepts, first⟩, trivial⟩ trivial trivial ?_
  rw [(carries contract sound moved ⟨accepts, trivial⟩).received]
  simpa only [Input.bytes, List.append_nil] using received_prefix contract sound

theorem takes_received {call : Call} {p : Suspended} {len : Nat} {flag r : Int} {bytes : Bytes}
    (waiting : (g.machine side level).slots i = .suspended call p)
    (request : p.request = .recv len flag) (counted : bytes.length = r.toNat)
    (fits : bytes.length ≤ len)
    (next : (g.machine side level).stream.received ++ bytes <+:
      ((g.links level).ends side.other).offered) :
    ∃ g', g'.Sound o e ∧ g.Takes (o := o) side i level (.received r bytes)
      ((g.machine side level).settle i call
        (((g.machine side level).stream.obtain bytes).resumeReceived o r bytes p)) g' := by
  have moved : (g.machine side level).step o (i, .received r bytes) =
      some ((g.machine side level).settle i call
        (((g.machine side level).stream.obtain bytes).resumeReceived o r bytes p)) := by
    simp only [Machine.step, waiting, request]
    exact if_pos ⟨counted, fits⟩
  refine exists_takes contract sound moved ⟨⟨trivial, trivial⟩, trivial⟩ trivial trivial ?_
  rwa [(carries contract sound moved ⟨trivial, trivial⟩).received]

end Steps

end Ledger

end KkProxy.Ssl
