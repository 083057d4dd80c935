import KkProxy.Net.Address

set_option autoImplicit false

namespace KkProxy.Net

open Shared (Storage)
open Ssl (Bytes)

structure Endpoint where
  address : Address
  domain : Text
deriving DecidableEq

def Endpoint.init : Endpoint := { address := .init, domain := [] }

def endpointFrom (c : Libc) (host : StringView) (port : UInt16) (env : Env) :
    Except Text Endpoint × Env :=
  match addressFrom c host port env with
  | (.ok address, env) => (.ok { address, domain := host.chars }, env)
  | (.error what, env) => (.error what, env)

theorem endpointFrom_ok {c : Libc} {host : StringView} {port : UInt16} {env env' : Env}
    {a : Address} (made : addressFrom c host port env = (.ok a, env')) :
    endpointFrom c host port env = (.ok { address := a, domain := host.chars }, env') := by
  rw [endpointFrom, made]

-- Where the reference points that `endpoint::port` returns, in the object at the beginning of `self`.
def portRef (self : Storage) : Except Text Nat :=
  if isV4 self then .ok portOffset
  else if isV6 self then .ok portOffset
  else .error "Invalid address family".toList

def port (self : Storage) : Except Text UInt16 :=
  (portRef self).map fun offset => load16 (self.load offset 2)

def setPort (self : Storage) (q : UInt16) : Except Text Storage :=
  (portRef self).map fun offset => self.write offset (bytes16 q)

def Libc.parses (c : Libc) (text : Text) : Option (UInt16 × Bytes) :=
  match c.pton4 text with
  | some sinAddr => some (afInet, sinAddr)
  | none => (c.pton6 text).map fun sin6Addr => (afInet6, sin6Addr)

def Libc.ntop (c : Libc) (family : UInt16) : Bytes → Text :=
  if family = afInet then c.ntop4 else c.ntop6

def addrOffset (family : UInt16) : Nat := if family = afInet then sinAddrOffset else sin6AddrOffset

structure Shows (c : Libc) (object : Storage) (family port : UInt16) (address : Bytes) : Prop where
  hasFamily : object.load familyOffset 2 = bytes16 family
  hasPort : object.load portOffset 2 = networkOrder port
  hasAddress : object.load (addrOffset family) address.length = address
  prints : (ipAddress c object).1 = c.ntop family address
  within : (ipAddress c object).2.Within sizeofSockaddr

def Survives (c : Libc) (host : StringView) (port : UInt16) : Prop :=
  ∀ family address, c.parses host.data = some (family, address) → ∀ around, ∃ e env,
    endpointFrom c host port (.fresh around) = (.ok e, env) ∧ env.stack.Within sizeofSockaddr ∧
      ∀ arounds around', Shows c ((e.address.copies arounds).place around') family port address

def Libc.OnlyV6 (c : Libc) (text : Text) : Prop := c.pton4 text = none ∧ (c.pton6 text).isSome

theorem Address.Stamped.shows_v4 {c : Libc} {a : Address} {port : UInt16} {address : Bytes}
    (stamped : a.Stamped afInet port) (holds : a.field sinAddrOffset 4 = address)
    (around : Nat → UInt8) : Shows c (a.place around) afInet port address := by
  have length : address.length = 4 := by
    rw [← holds, Address.field, List.length_take, List.length_drop, a.sized]
    rfl
  have stored : (a.place around).load sinAddrOffset 4 = address := by
    rw [Address.place_load (by decide), holds]
  have v4 : isV4 ((a.place around).read familyOffset 2) = true := stamped.place_isV4 around
  refine ⟨?_, ?_, ?_, ?_, ?_⟩
  · rw [Address.place_load (by decide), stamped.family]
  · rw [Address.place_load (by decide), stamped.port]
  · rw [length]
    exact stored
  · simp [ipAddress, v4, stored, Libc.ntop]
  · simp only [ipAddress, v4]
    have looked : ((a.place around).read familyOffset 2).Within sizeofSockaddr :=
      Storage.read_within (Storage.place_within _) (by decide)
    exact Storage.read_within looked (by decide)

/--
The address of a numeric text survives copying and printing, and no access leaves its object,
exactly when the text is not an IPv6 address.
-/
theorem address_survives_iff (c : Libc) (host : StringView) (port : UInt16) :
    Survives c host port ↔ ¬ c.OnlyV6 host.data := by
  constructor
  · rintro survives ⟨rejected, accepted⟩
    obtain ⟨sin6Addr, accepted⟩ := Option.isSome_iff_exists.mp accepted
    have parsed : c.parses host.data = some (afInet6, sin6Addr) := by
      rw [Libc.parses, rejected, accepted]
      rfl
    obtain ⟨e, env, made, within, -⟩ := survives _ _ parsed fun _ => 0
    obtain ⟨a, env', numeric, -, beyond⟩ :=
      parseFromIp_v6 port (.fresh fun _ => 0) rejected accepted
    have same := endpointFrom_ok (addressFrom_numeric port _ numeric)
    obtain ⟨-, rfl⟩ := Prod.mk.inj (made.symm.trans same)
    exact Storage.not_within beyond (by decide) within
  · intro not6 family address parsed around
    cases first : c.pton4 host.data with
    | none =>
      cases second : c.pton6 host.data with
      | none => simp [Libc.parses, first, second] at parsed
      | some sin6Addr => exact absurd ⟨first, by simp [second]⟩ not6
    | some sinAddr =>
      obtain ⟨rfl, rfl⟩ : afInet = family ∧ sinAddr = address := by
        simpa [Libc.parses, first] using parsed
      obtain ⟨a, env, numeric, stamped, holds, within⟩ :=
        parseFromIp_v4 port (.fresh around) first
      refine ⟨_, env, endpointFrom_ok (addressFrom_numeric port _ numeric),
        within (Storage.place_within _), fun arounds around' => ?_⟩
      rw [Address.copies_eq]
      exact stamped.shows_v4 holds around'

theorem ipv6_leaves_object :
    ¬ ∀ (c : Libc) (host : StringView) (port : UInt16), Survives c host port := by
  intro claim
  let host := StringView.literal "::1".toList
  have parsed : Libc.loopback.parses host.data = some (afInet6, loopback6) := by decide +kernel
  obtain ⟨e, env, made, within, -⟩ := claim .loopback host 443 _ _ parsed fun _ => 0
  have accesses : (endpointFrom .loopback host 443 (.fresh fun _ => 0)).2.stack.accesses =
      [(0, 16), (8, 16), (0, 2), (2, 2), (0, 16)] := by decide +kernel
  simp only [made] at accesses
  have beyond := within (8, 16) (by simp [accesses])
  exact absurd beyond (by decide)

/--
`port()` gives `p`, and after a store of `q` through its reference it gives `q`, the `sockaddr`
holds `q` in network byte order, and its other bytes are what they were.
-/
structure KeepsPort (object : Storage) (p q : UInt16) : Prop where
  given : port object = .ok p
  stored : ∃ after, setPort object q = .ok after ∧ port after = .ok q ∧
    after.load portOffset 2 = networkOrder q ∧
      ∀ i, i < portOffset ∨ portOffset + 2 ≤ i → after.bytes i = object.bytes i

theorem portRef_ok {object : Storage} {family : UInt16} (known : family = afInet ∨ family = afInet6)
    (holds : load16 (object.load familyOffset 2) = family) : portRef object = .ok portOffset := by
  rcases known with rfl | rfl
  · simp [portRef, isV4, holds]
  · simp [portRef, isV4, isV6, holds]

-- The port is written with `htons` and read without `ntohs`.
theorem keepsPort_iff {object : Storage} {family p : UInt16} (q : UInt16)
    (known : family = afInet ∨ family = afInet6)
    (hasFamily : object.load familyOffset 2 = bytes16 family)
    (hasPort : object.load portOffset 2 = networkOrder p) :
    KeepsPort object p q ↔ Palindromic p ∧ Palindromic q := by
  have ref := portRef_ok known (by rw [hasFamily, load16_bytes16])
  have given : port object = .ok (htons p) := by
    rw [port, ref, Except.map, hasPort, load16_networkOrder]
  have written : (object.write portOffset (bytes16 q)).load portOffset 2 = bytes16 q :=
    Storage.write_load_of_length rfl
  have kept : (object.write portOffset (bytes16 q)).load familyOffset 2 = bytes16 family :=
    (Storage.write_load_apart (.inl (Nat.le_refl 2))).trans hasFamily
  have ref' := portRef_ok known (by rw [kept, load16_bytes16])
  have set : setPort object q = .ok (object.write portOffset (bytes16 q)) := by
    rw [setPort, ref]
    rfl
  have given' : port (object.write portOffset (bytes16 q)) = .ok q := by
    rw [port, ref', Except.map, written, load16_bytes16]
  constructor
  · rintro ⟨same, after, stored, -, ordered, -⟩
    obtain rfl := Except.ok.inj (set.symm.trans stored)
    exact ⟨(htons_eq_iff p).mp (Except.ok.inj (given.symm.trans same)),
      (bytes16_eq_networkOrder_iff q).mp (written.symm.trans ordered)⟩
  · rintro ⟨first, second⟩
    refine ⟨by rw [given, (htons_eq_iff p).mpr first], _, set, given', ?_, fun i outside => ?_⟩
    · rw [written, (bytes16_eq_networkOrder_iff q).mpr second]
    · refine if_neg ?_
      rw [bytes16_length]
      omega

/--
An endpoint of a host that resolves to an address of either family gives back its port `p`, and any
port `q` stored in it, exactly when both have two equal bytes.
-/
theorem endpoint_keeps_port_iff (c : Libc) (host : StringView) (env : Env) (p q : UInt16)
    (resolves : c.Resolves host.data) :
    (∃ e, (endpointFrom c host p env).1 = .ok e ∧
      ∀ around, KeepsPort (e.address.place around) p q) ↔ Palindromic p ∧ Palindromic q := by
  obtain ⟨a, env', family, made, known, stamped⟩ := addressFrom_stamped p env resolves
  have same : (endpointFrom c host p env).1 = .ok { address := a, domain := host.chars } := by
    rw [endpointFrom_ok made]
  have keeps (around : Nat → UInt8) :
      KeepsPort (a.place around) p q ↔ Palindromic p ∧ Palindromic q :=
    keepsPort_iff q known (by rw [Address.place_load (by decide), stamped.family])
      (by rw [Address.place_load (by decide), stamped.port])
  constructor
  · rintro ⟨e, made', kept⟩
    obtain rfl := Except.ok.inj (same.symm.trans made')
    exact (keeps fun _ => 0).mp (kept fun _ => 0)
  · intro palindromic
    exact ⟨_, same, fun around => (keeps around).mpr palindromic⟩

theorem endpoint_keeps_port_iff_loopback :
    (∃ e, (endpointFrom .loopback (.literal "localhost".toList) 257 (.fresh fun _ => 0)).1 = .ok e ∧
      ∀ around, KeepsPort (e.address.place around) 257 514) ↔ Palindromic 257 ∧ Palindromic 514 :=
  endpoint_keeps_port_iff .loopback (.literal "localhost".toList) (.fresh fun _ => 0) 257 514
    (.domain [.ofV6 loopback6 rfl, .ofV4 loopback4 rfl] (.ofV4 loopback4 rfl) rfl (by simp) rfl)

theorem endpoint_swaps_port :
    ¬ ∀ (c : Libc) (host : StringView) (env : Env) (p q : UInt16), c.Resolves host.data →
      ∃ e, (endpointFrom c host p env).1 = .ok e ∧
        ∀ around, KeepsPort (e.address.place around) p q := by
  intro claim
  obtain ⟨e, made, keeps⟩ := claim .loopback (.literal "127.0.0.1".toList) (.fresh fun _ => 0)
    443 443 (.v4 loopback4 (by decide +kernel))
  have swapped : ((endpointFrom .loopback (.literal "127.0.0.1".toList) 443
      (.fresh fun _ => 0)).1.toOption.map fun e => (port (e.address.place fun _ => 0)).toOption) =
      some (some 47873) := by decide +kernel
  rw [made] at swapped
  have given := (keeps fun _ => 0).given
  simp [Except.toOption, given] at swapped

end KkProxy.Net
