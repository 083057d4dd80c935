import KkProxy.Net.Endpoint

set_option autoImplicit false

namespace KkProxy.Net

open Shared (Storage)
open Ssl (Bytes)

structure File where
  fd : Int
  ring : Nat
  stateFlag : Int
deriving DecidableEq, Repr

def fileOpen (c : Libc) (ring : Nat) (path : StringView) (flag : Int) (env : Env) : File × Env :=
  ({ fd := c.openFile path.data flag, ring, stateFlag := 0 }, env.call (.openFile path.data flag))

inductive EntryPoint where
  | address (port : UInt16)
  | endpoint (port : UInt16)
  | file (ring : Nat) (flag : Int)
deriving DecidableEq, Repr

inductive Outcome where
  | address (result : Except Text Address)
  | endpoint (result : Except Text Endpoint)
  | file (opened : File)

def EntryPoint.run (c : Libc) (view : StringView) (env : Env) : EntryPoint → Outcome × Env
  | .address port => ((addressFrom c view port env).map Outcome.address id)
  | .endpoint port => ((endpointFrom c view port env).map Outcome.endpoint id)
  | .file ring flag => ((fileOpen c ring view flag env).map Outcome.file id)

def LibcCall.text : LibcCall → Text
  | .inetPton _ text => text
  | .getaddrinfo text _ => text
  | .openFile text _ => text

def StringView.Followed (v : StringView) : Prop := v.behind.head? = some nul

theorem StringView.data_eq_chars_iff {v : StringView} (nulFree : nul ∉ v.chars) :
    v.data = v.chars ↔ v.Followed := by
  have inside : ∀ char ∈ v.chars, decide (char ≠ nul) = true := fun char member => by
    simpa using ne_of_mem_of_not_mem member nulFree
  rw [data, List.takeWhile_append_of_pos inside, List.append_right_eq_self, Followed]
  have terminated := v.terminated
  cases behind : v.behind with
  | nil => simp [behind] at terminated
  | cons char rest => by_cases same : char = nul <;> simp [same]

def Env.Passes (env : Env) (text : Text) : Prop := ∀ made ∈ env.calls, made.text = text

theorem Env.fresh_passes (around : Nat → UInt8) (text : Text) : (Env.fresh around).Passes text := by
  simp [Passes, fresh]

theorem Env.Passes.call {env : Env} {text : Text} (passes : env.Passes text) {made : LibcCall}
    (same : made.text = text) : (env.call made).Passes text := by
  intro other member
  rcases List.mem_append.mp member with old | new
  · exact passes other old
  · obtain rfl := List.mem_singleton.mp new
    exact same

section Passing

variable (c : Libc) {view : StringView} (port : UInt16) {env : Env}

theorem parseFromIp_passes (passes : env.Passes view.data) :
    (parseFromIp c view port env).2.Passes view.data := by
  have first : (env.initResult.call (.inetPton afInet view.data)).Passes view.data :=
    Env.Passes.call passes rfl
  have second := first.call (rfl : LibcCall.text (.inetPton afInet6 view.data) = _)
  unfold parseFromIp
  dsimp only
  split
  · exact first
  · split
    · exact second
    · exact second

theorem parseFromDomain_passes (passes : env.Passes view.data) :
    (parseFromDomain c view port env).2.Passes view.data := by
  have asked : (env.initResult.call (.getaddrinfo view.data resolverHints)).Passes view.data :=
    Env.Passes.call passes rfl
  unfold parseFromDomain
  dsimp only
  split
  · exact asked
  · rw [useEntries_eq]
    split
    · exact asked
    · exact asked

theorem addressFrom_passes (passes : env.Passes view.data) :
    (addressFrom c view port env).2.Passes view.data := by
  have parsed := parseFromIp_passes c port passes
  unfold addressFrom
  split
  · next made => simpa [made] using parsed
  · next made =>
    refine parseFromDomain_passes c port ?_
    simpa [made] using parsed

theorem endpointFrom_passes (passes : env.Passes view.data) :
    (endpointFrom c view port env).2.Passes view.data := by
  have made := addressFrom_passes c port passes
  unfold endpointFrom
  split
  · next same => simpa [same] using made
  · next same => simpa [same] using made

theorem run_passes (entry : EntryPoint) (passes : env.Passes view.data) :
    (entry.run c view env).2.Passes view.data := by
  cases entry with
  | address port => exact addressFrom_passes c port passes
  | endpoint port => exact endpointFrom_passes c port passes
  | file ring flag => exact passes.call rfl

end Passing

structure Env.Alike (env env' : Env) : Prop where
  calls : env.calls = env'.calls
  result : Storage.SameObject sizeofSockaddr env.stack env'.stack

namespace Env.Alike

variable {env env' : Env}

theorem initResult (calls : env.calls = env'.calls) : env.initResult.Alike env'.initResult :=
  ⟨calls, Storage.write_sameObject _ _ (List.replicate sizeofSockaddr 0)⟩

theorem write (alike : env.Alike env') (offset : Nat) (data : Bytes) :
    (env.write offset data).Alike (env'.write offset data) :=
  ⟨alike.calls, alike.result.write offset data⟩

theorem call (alike : env.Alike env') (made : LibcCall) :
    (env.call made).Alike (env'.call made) :=
  ⟨congrArg (· ++ [made]) alike.calls, alike.result⟩

theorem load (alike : env.Alike env') : Address.load env.stack = Address.load env'.stack := by
  have same : env.stack.load 0 sizeofSockaddr = env'.stack.load 0 sizeofSockaddr :=
    alike.result.load (by decide)
  simp only [Address.load, same]

end Env.Alike

structure SameRun {R : Type} (first second : R × Env) : Prop where
  result : first.1 = second.1
  calls : first.2.calls = second.2.calls

section Congruence

variable (c : Libc) {v w : StringView} (port : UInt16) {env env' : Env}

theorem parseFromIp_sameRun (text : v.data = w.data) (calls : env.calls = env'.calls) :
    SameRun (parseFromIp c v port env) (parseFromIp c w port env') := by
  have first := (Env.Alike.initResult calls).call (.inetPton afInet w.data)
  have second := first.call (.inetPton afInet6 w.data)
  unfold parseFromIp
  rw [text]
  dsimp only
  split
  · next sinAddr _ =>
    have filled := ((first.write sinAddrOffset sinAddr).write familyOffset (bytes16 afInet)).write
      portOffset (bytes16 (htons port))
    exact ⟨congrArg Except.ok filled.load, filled.calls⟩
  · split
    · next sin6Addr _ =>
      have filled := ((second.write sin6AddrOffset sin6Addr).write familyOffset
        (bytes16 afInet6)).write portOffset (bytes16 (htons port))
      exact ⟨congrArg Except.ok filled.load, filled.calls⟩
    · exact ⟨rfl, second.calls⟩

theorem parseFromDomain_sameRun (text : v.data = w.data) (chars : v.chars = w.chars)
    (calls : env.calls = env'.calls) :
    SameRun (parseFromDomain c v port env) (parseFromDomain c w port env') := by
  have asked := (Env.Alike.initResult calls).call (.getaddrinfo w.data resolverHints)
  unfold parseFromDomain
  rw [text, chars]
  dsimp only
  split
  · exact ⟨rfl, asked.calls⟩
  · rw [useEntries_eq, useEntries_eq, chars]
    split
    · next entry _ =>
      have filled := ((asked.write 0 (entry.addr.take entry.addr.length)).write portOffset
        (bytes16 (htons port))).write familyOffset (bytes16 entry.family)
      exact ⟨congrArg Except.ok filled.load, filled.calls⟩
    · exact ⟨rfl, asked.calls⟩

theorem addressFrom_sameRun (text : v.data = w.data) (chars : v.chars = w.chars)
    (calls : env.calls = env'.calls) :
    SameRun (addressFrom c v port env) (addressFrom c w port env') := by
  have parsed := parseFromIp_sameRun c port text calls
  unfold addressFrom
  generalize parseFromIp c v port env = first at parsed
  generalize parseFromIp c w port env' = second at parsed
  obtain ⟨result, after⟩ := first
  obtain ⟨result', after'⟩ := second
  obtain rfl : result = result' := parsed.result
  cases result with
  | ok a => exact ⟨rfl, parsed.calls⟩
  | error e => exact parseFromDomain_sameRun c port text chars parsed.calls

theorem endpointFrom_sameRun (text : v.data = w.data) (chars : v.chars = w.chars)
    (calls : env.calls = env'.calls) :
    SameRun (endpointFrom c v port env) (endpointFrom c w port env') := by
  have made := addressFrom_sameRun c port text chars calls
  unfold endpointFrom
  generalize addressFrom c v port env = first at made
  generalize addressFrom c w port env' = second at made
  obtain ⟨result, after⟩ := first
  obtain ⟨result', after'⟩ := second
  obtain rfl : result = result' := made.result
  cases result with
  | ok a => exact ⟨by rw [chars], made.calls⟩
  | error what => exact ⟨rfl, made.calls⟩

theorem run_sameRun (entry : EntryPoint) (text : v.data = w.data) (chars : v.chars = w.chars)
    (calls : env.calls = env'.calls) : SameRun (entry.run c v env) (entry.run c w env') := by
  cases entry with
  | address port =>
    have made := addressFrom_sameRun c port text chars calls
    exact ⟨congrArg Outcome.address made.result, made.calls⟩
  | endpoint port =>
    have made := endpointFrom_sameRun c port text chars calls
    exact ⟨congrArg Outcome.endpoint made.result, made.calls⟩
  | file ring flag =>
    refine ⟨?_, congrArg₂ (· ++ [·]) calls ?_⟩
    · simp only [EntryPoint.run, fileOpen, Prod.map, text]
    · rw [text]

end Congruence

/--
Whatever is behind the two views, the entry point does the same for both, and passes the library no
text but their characters.
-/
def ReadsAlike (c : Libc) (v w : StringView) (entry : EntryPoint) : Prop :=
  ∀ around around',
    SameRun (entry.run c v (.fresh around)) (entry.run c w (.fresh around')) ∧
      (entry.run c v (.fresh around)).2.Passes v.chars ∧
        (entry.run c w (.fresh around')).2.Passes w.chars

theorem parseFromIp_calls (c : Libc) (view : StringView) (port : UInt16) (env : Env) :
    .inetPton afInet view.data ∈ (parseFromIp c view port env).2.calls := by
  have first : .inetPton afInet view.data ∈ env.calls ++ [.inetPton afInet view.data] :=
    List.mem_append_right _ (List.mem_singleton_self _)
  unfold parseFromIp
  dsimp only
  split
  · exact first
  · split
    · exact List.mem_append_left _ first
    · exact List.mem_append_left _ first

theorem parseFromDomain_calls (c : Libc) (view : StringView) (port : UInt16) {env : Env}
    {made : LibcCall} (earlier : made ∈ env.calls) :
    made ∈ (parseFromDomain c view port env).2.calls := by
  have kept : made ∈ env.calls ++ [.getaddrinfo view.data resolverHints] :=
    List.mem_append_left _ earlier
  unfold parseFromDomain
  dsimp only
  split
  · exact kept
  · rw [useEntries_eq]
    split
    · exact kept
    · exact kept

theorem addressFrom_calls (c : Libc) (view : StringView) (port : UInt16) (env : Env) :
    .inetPton afInet view.data ∈ (addressFrom c view port env).2.calls := by
  have first := parseFromIp_calls c view port env
  unfold addressFrom
  split
  · next made => simpa [made] using first
  · next made =>
    refine parseFromDomain_calls c view port ?_
    simpa [made] using first

theorem run_calls (c : Libc) (view : StringView) (env : Env) (entry : EntryPoint) :
    ∃ made ∈ (entry.run c view env).2.calls, made.text = view.data := by
  cases entry with
  | address port => exact ⟨_, addressFrom_calls c view port env, rfl⟩
  | endpoint port =>
    have first := addressFrom_calls c view port env
    refine ⟨.inetPton afInet view.data, ?_, rfl⟩
    change _ ∈ (endpointFrom c view port env).2.calls
    unfold endpointFrom
    split
    · next made => simpa [made] using first
    · next made => simpa [made] using first
  | file ring flag => exact ⟨_, List.mem_append_right _ (List.mem_singleton_self _), rfl⟩

/--
Two views with the same characters, none of them a NUL, are read alike and no further than to their
ends exactly when both are followed by a NUL.
-/
theorem reads_alike_iff (c : Libc) (v w : StringView) (entry : EntryPoint)
    (chars : v.chars = w.chars) (nulFree : nul ∉ v.chars) :
    ReadsAlike c v w entry ↔ v.Followed ∧ w.Followed := by
  have first := StringView.data_eq_chars_iff nulFree
  have second := StringView.data_eq_chars_iff (chars ▸ nulFree)
  constructor
  · intro alike
    obtain ⟨-, passed, passed'⟩ := alike (fun _ => 0) fun _ => 0
    obtain ⟨made, member, text⟩ := run_calls c v (.fresh fun _ => 0) entry
    obtain ⟨made', member', text'⟩ := run_calls c w (.fresh fun _ => 0) entry
    exact ⟨first.mp (text.symm.trans (passed made member)),
      second.mp (text'.symm.trans (passed' made' member'))⟩
  · rintro ⟨followed, followed'⟩ around around'
    have whole := first.mpr followed
    have whole' := second.mpr followed'
    refine ⟨run_sameRun c entry (whole.trans (chars.trans whole'.symm)) chars rfl, ?_, ?_⟩
    · rw [← whole]
      exact run_passes c entry (Env.fresh_passes around _)
    · rw [← whole']
      exact run_passes c entry (Env.fresh_passes around' _)

theorem reads_alike_iff_literal :
    ReadsAlike .loopback (.literal "localhost".toList)
      ⟨"localhost".toList, nul :: ":80".toList ++ [nul], by decide +kernel⟩ (.endpoint 80) ↔
      (StringView.literal "localhost".toList).Followed ∧
        StringView.Followed ⟨"localhost".toList, nul :: ":80".toList ++ [nul], by decide +kernel⟩ :=
  reads_alike_iff .loopback _ _ (.endpoint 80) rfl (by decide +kernel)

-- The host of `127.0.0.1:80` and the same host as a literal.
theorem host_read_beyond_view :
    ¬ ∀ (c : Libc) (v w : StringView) (entry : EntryPoint), v.chars = w.chars → nul ∉ v.chars →
      ReadsAlike c v w entry := by
  intro claim
  let host : StringView := ⟨"127.0.0.1".toList, ":80".toList ++ [nul], by decide +kernel⟩
  obtain ⟨same, -⟩ := claim .loopback host (.literal "127.0.0.1".toList) (.address 80) rfl
    (by decide +kernel) (fun _ => 0) fun _ => 0
  have calls : ((EntryPoint.address 80).run .loopback host (.fresh fun _ => 0)).2.calls.length =
      3 := by decide +kernel
  have calls' : ((EntryPoint.address 80).run .loopback (.literal "127.0.0.1".toList)
      (.fresh fun _ => 0)).2.calls.length = 1 := by decide +kernel
  rw [same.calls, calls'] at calls
  exact absurd calls (by decide)

end KkProxy.Net
