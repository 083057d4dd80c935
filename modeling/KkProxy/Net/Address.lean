import KkProxy.Shared.Storage
import KkProxy.Ssl.OpenSsl
import Mathlib.Tactic.Common

set_option autoImplicit false

/-!
# `address`

An `address` stores a `sockaddr`. Its functions work on the object in memory, through references
to the larger structures of the two families; the C library is a parameter.
-/

namespace KkProxy.Net

open Shared (Storage)
open Ssl (Bytes)

abbrev Text := List Char

def nul : Char := Char.ofNat 0

/-- A `std::string_view`, and what memory holds behind it up to a NUL or further. -/
structure StringView where
  chars : Text
  behind : Text
  terminated : nul ∈ behind

-- What a C function reads that is given `data()`.
def StringView.data (v : StringView) : Text := (v.chars ++ v.behind).takeWhile (· ≠ nul)

def StringView.literal (chars : Text) : StringView := ⟨chars, [nul], List.mem_singleton_self nul⟩

-- A 16-bit integer in the memory of a little-endian machine.
def bytes16 (n : UInt16) : Bytes := [UInt8.ofNat (n.toNat % 256), UInt8.ofNat (n.toNat / 256)]

def load16 : Bytes → UInt16
  | [low, high] => UInt16.ofNat (low.toNat + 256 * high.toNat)
  | _ => 0

def htons (n : UInt16) : UInt16 := UInt16.ofNat (n.toNat % 256 * 256 + n.toNat / 256)

def networkOrder (n : UInt16) : Bytes :=
  [UInt8.ofNat (n.toNat / 256), UInt8.ofNat (n.toNat % 256)]

@[simp] theorem bytes16_length (n : UInt16) : (bytes16 n).length = 2 := rfl

theorem bytes16_htons (n : UInt16) : bytes16 (htons n) = networkOrder n := by
  have bound := n.toNat_lt
  have value : (htons n).toNat = n.toNat % 256 * 256 + n.toNat / 256 := by
    rw [htons, UInt16.toNat_ofNat']
    omega
  rw [bytes16, networkOrder, value]
  congr 2
  · omega
  · congr 1
    omega

theorem load16_bytes16 (n : UInt16) : load16 (bytes16 n) = n := by
  have bound := n.toNat_lt
  apply UInt16.toNat_inj.mp
  simp only [bytes16, load16, UInt16.toNat_ofNat', UInt8.toNat_ofNat']
  omega

theorem load16_networkOrder (n : UInt16) : load16 (networkOrder n) = htons n := by
  rw [← bytes16_htons, load16_bytes16]

def Palindromic (n : UInt16) : Prop := n.toNat / 256 = n.toNat % 256

instance (n : UInt16) : Decidable (Palindromic n) :=
  inferInstanceAs (Decidable (n.toNat / 256 = n.toNat % 256))

theorem htons_eq_iff (n : UInt16) : htons n = n ↔ Palindromic n := by
  have bound := n.toNat_lt
  rw [← UInt16.toNat_inj, htons, UInt16.toNat_ofNat', Palindromic]
  omega

theorem bytes16_eq_networkOrder_iff (n : UInt16) : bytes16 n = networkOrder n ↔ Palindromic n := by
  rw [← htons_eq_iff, ← load16_networkOrder]
  constructor
  · intro same
    rw [← same, load16_bytes16]
  · intro same
    rw [← bytes16_htons, ← load16_networkOrder, same]

def afInet : UInt16 := 2

def afInet6 : UInt16 := 10

def sizeofSockaddr : Nat := 16

def sizeofSockaddrIn : Nat := 16

def sizeofSockaddrIn6 : Nat := 28

def familyOffset : Nat := 0

def portOffset : Nat := 2

def sinAddrOffset : Nat := 4

def sin6AddrOffset : Nat := 8

structure Hints where
  family : Int
  socktype : Int
  flags : Int
deriving DecidableEq, Repr

structure AddrInfo where
  family : UInt16
  addr : Bytes
  v4 : family = afInet → addr.length = sizeofSockaddrIn
  v6 : family = afInet6 → addr.length = sizeofSockaddrIn6

def AddrInfo.usable (entry : AddrInfo) : Bool := entry.family == afInet || entry.family == afInet6

theorem AddrInfo.usable_iff {entry : AddrInfo} :
    entry.usable = true ↔ entry.family = afInet ∨ entry.family = afInet6 := by
  simp [usable]

/-- The C library; `inet_pton` and `inet_ntop` are one function for each family. -/
structure Libc where
  pton4 : Text → Option Bytes
  pton6 : Text → Option Bytes
  ntop4 : Bytes → Text
  ntop6 : Bytes → Text
  getaddrinfo : Text → Hints → Except Int (List AddrInfo)
  gaiStrerror : Int → Text
  openFile : Text → Int → Int
  pton4_length : ∀ text sinAddr, pton4 text = some sinAddr → sinAddr.length = 4
  pton6_length : ∀ text sin6Addr, pton6 text = some sin6Addr → sin6Addr.length = 16

def AddrInfo.ofV4 (sinAddr : Bytes) (length : sinAddr.length = 4) : AddrInfo where
  family := afInet
  addr := bytes16 afInet ++ [0, 0] ++ sinAddr ++ List.replicate 8 0
  v4 _ := by simp [length, sizeofSockaddrIn]
  v6 other := absurd other (by decide)

def AddrInfo.ofV6 (sin6Addr : Bytes) (length : sin6Addr.length = 16) : AddrInfo where
  family := afInet6
  addr := bytes16 afInet6 ++ List.replicate 6 0 ++ sin6Addr ++ List.replicate 4 0
  v4 other := absurd other (by decide)
  v6 _ := by simp [length, sizeofSockaddrIn6]

def AddrInfo.ofUnix : AddrInfo where
  family := 1
  addr := bytes16 1
  v4 other := absurd other (by decide)
  v6 other := absurd other (by decide)

def loopback4 : Bytes := [127, 0, 0, 1]

def loopback6 : Bytes := List.replicate 15 0 ++ [1]

/-- A library that knows the names and the texts of the loopback addresses, and one file. -/
def Libc.loopback : Libc where
  pton4 text := if text = "127.0.0.1".toList then some loopback4 else none
  pton6 text := if text = "::1".toList then some loopback6 else none
  ntop4 sinAddr := if sinAddr = loopback4 then "127.0.0.1".toList else []
  ntop6 sin6Addr := if sin6Addr = loopback6 then "::1".toList else []
  getaddrinfo text _ :=
    if text = "localhost".toList then .ok [.ofV6 loopback6 rfl, .ofV4 loopback4 rfl]
    else if text = "ip4-localhost".toList then
      .ok [.ofUnix, .ofV4 loopback4 rfl, .ofV6 loopback6 rfl]
    else .error (-2)
  gaiStrerror _ := "Name or service not known".toList
  openFile text _ := if text = "/etc/hosts".toList then 3 else -1
  pton4_length text sinAddr accepted := by
    split_ifs at accepted
    rw [← Option.some.inj accepted]
    rfl
  pton6_length text sin6Addr accepted := by
    split_ifs at accepted
    rw [← Option.some.inj accepted]
    rfl

inductive LibcCall where
  | inetPton (family : UInt16) (text : Text)
  | getaddrinfo (text : Text) (hints : Hints)
  | openFile (text : Text) (flags : Int)
deriving DecidableEq, Repr

/-- The memory from a local `address result` on, and the calls of the library so far. -/
structure Env where
  stack : Storage
  calls : List LibcCall

namespace Env

def fresh (around : Nat → UInt8) : Env :=
  { stack := Storage.place [] around, calls := [] }

def call (env : Env) (c : LibcCall) : Env := { env with calls := env.calls ++ [c] }

def write (env : Env) (offset : Nat) (data : Bytes) : Env :=
  { env with stack := env.stack.write offset data }

def initResult (env : Env) : Env := env.write 0 (List.replicate sizeofSockaddr 0)

def copyResult (env : Env) : Env := { env with stack := env.stack.read 0 sizeofSockaddr }

end Env

structure Address where
  sockaddr : Bytes
  sized : sockaddr.length = sizeofSockaddr
deriving DecidableEq

namespace Address

def init : Address := ⟨List.replicate sizeofSockaddr 0, rfl⟩

def load (s : Storage) : Address := ⟨s.load 0 sizeofSockaddr, s.load_length 0 sizeofSockaddr⟩

def place (a : Address) (around : Nat → UInt8) : Storage := Storage.place a.sockaddr around

def copies (a : Address) (arounds : List (Nat → UInt8)) : Address :=
  arounds.foldl (fun a around => load (a.place around)) a

def field (a : Address) (offset n : Nat) : Bytes := (a.sockaddr.drop offset).take n

theorem load_field {s : Storage} {offset n : Nat} (inside : offset + n ≤ sizeofSockaddr) :
    (load s).field offset n = s.load offset n := by
  have part : ((s.load 0 sizeofSockaddr).drop offset).take n = s.load (0 + offset) n :=
    Storage.load_load inside
  simpa [field, load] using part

theorem place_load {a : Address} {around : Nat → UInt8} {offset n : Nat}
    (inside : offset + n ≤ sizeofSockaddr) : (a.place around).load offset n = a.field offset n :=
  Storage.place_load (a.sized ▸ inside)

theorem load_place (a : Address) (around : Nat → UInt8) : load (a.place around) = a := by
  obtain ⟨sockaddr, sized⟩ := a
  have whole : (Storage.place sockaddr around).load 0 sizeofSockaddr = sockaddr := by
    rw [Storage.place_load (by omega), List.drop_zero, List.take_of_length_le (by omega)]
  simp only [load, place, whole]

theorem copies_eq (a : Address) (arounds : List (Nat → UInt8)) : a.copies arounds = a := by
  induction arounds with
  | nil => rfl
  | cons around rest ih =>
    rw [copies, List.foldl_cons, load_place]
    exact ih

end Address

section Parsing

variable (c : Libc) (addr : StringView) (port : UInt16) (env : Env)

-- `std::error_code(0, std::generic_category())`.
structure GenericError where
  value : Int
deriving DecidableEq, Repr

def parseFromIp : Except GenericError Address × Env :=
  let env := env.initResult.call (.inetPton afInet addr.data)
  match c.pton4 addr.data with
  | some sinAddr =>
    let env := ((env.write sinAddrOffset sinAddr).write familyOffset (bytes16 afInet)).write
      portOffset (bytes16 (htons port))
    (.ok (.load env.stack), env.copyResult)
  | none =>
    let env := env.call (.inetPton afInet6 addr.data)
    match c.pton6 addr.data with
    | some sin6Addr =>
      let env := ((env.write sin6AddrOffset sin6Addr).write familyOffset (bytes16 afInet6)).write
        portOffset (bytes16 (htons port))
      (.ok (.load env.stack), env.copyResult)
    | none => (.error ⟨0⟩, env)

-- `AF_UNSPEC`, `SOCK_STREAM` and `AI_ADDRCONFIG`.
def resolverHints : Hints := { family := 0, socktype := 1, flags := 0x20 }

def useEntry (entry : AddrInfo) (size : Nat) : Except Text Address × Env :=
  let env := ((env.write 0 (entry.addr.take size)).write portOffset (bytes16 (htons port))).write
    familyOffset (bytes16 entry.family)
  (.ok (.load env.stack), env.copyResult)

def useEntries : List AddrInfo → Except Text Address × Env
  | [] => (.error ("No valid address found for: ".toList ++ addr.chars), env)
  | entry :: rest =>
    if entry.family = afInet then useEntry port env entry sizeofSockaddrIn
    else if entry.family = afInet6 then useEntry port env entry sizeofSockaddrIn6
    else useEntries rest

def parseFromDomain : Except Text Address × Env :=
  let env := env.initResult.call (.getaddrinfo addr.data resolverHints)
  match c.getaddrinfo addr.data resolverHints with
  | .error ret =>
    (.error ("getaddrinfo failed: ".toList ++ c.gaiStrerror ret ++ " for ".toList ++ addr.chars),
      env)
  | .ok res => useEntries addr port env res

def addressFrom : Except Text Address × Env :=
  match parseFromIp c addr port env with
  | (.ok a, env) => (.ok a, env)
  | (.error _, env) => parseFromDomain c addr port env

end Parsing

def isV4 (self : Storage) : Bool := load16 (self.load familyOffset 2) == afInet

def isV6 (self : Storage) : Bool := load16 (self.load familyOffset 2) == afInet6

def ipAddress (c : Libc) (self : Storage) : Text × Storage :=
  let self := self.read familyOffset 2
  if isV4 self then (c.ntop4 (self.load sinAddrOffset 4), self.read sinAddrOffset 4)
  else
    let self := self.read familyOffset 2
    if isV6 self then (c.ntop6 (self.load sin6AddrOffset 16), self.read sin6AddrOffset 16)
    else ("error".toList, self)

namespace Address

structure Stamped (a : Address) (family port : UInt16) : Prop where
  family : a.field familyOffset 2 = bytes16 family
  port : a.field portOffset 2 = networkOrder port

theorem Stamped.place_isV4 {a : Address} {family port : UInt16} (stamped : a.Stamped family port)
    (around : Nat → UInt8) : isV4 (a.place around) = (family == afInet) := by
  rw [Net.isV4, place_load (by decide), stamped.family, load16_bytes16]

end Address

section Results

variable {c : Libc} {addr : StringView} (port : UInt16) (env : Env)

@[simp] theorem Env.write_stack (offset : Nat) (data : Bytes) :
    (env.write offset data).stack = env.stack.write offset data := rfl

@[simp] theorem Env.call_stack (made : LibcCall) : (env.call made).stack = env.stack := rfl

@[simp] theorem Env.initResult_stack :
    env.initResult.stack = env.stack.write 0 (List.replicate sizeofSockaddr 0) := rfl

@[simp] theorem Env.copyResult_stack :
    env.copyResult.stack = env.stack.read 0 sizeofSockaddr := rfl

theorem parseFromIp_v4 {sinAddr : Bytes} (accepted : c.pton4 addr.data = some sinAddr) :
    ∃ a env', parseFromIp c addr port env = (.ok a, env') ∧ a.Stamped afInet port ∧
      a.field sinAddrOffset 4 = sinAddr ∧
      (env.stack.Within sizeofSockaddr → env'.stack.Within sizeofSockaddr) := by
  have length := c.pton4_length _ _ accepted
  refine ⟨_, _, by rw [parseFromIp, accepted], ⟨?_, ?_⟩, ?_, fun within => ?_⟩
  · rw [Address.load_field (by decide)]
    exact (Storage.write_load_apart (.inl (Nat.le_refl 2))).trans (Storage.write_load_of_length rfl)
  · rw [Address.load_field (by decide), bytes16_htons]
    exact Storage.write_load_of_length rfl
  · rw [Address.load_field (by decide)]
    exact (Storage.write_load_apart (.inr (Nat.le_refl 4))).trans
      ((Storage.write_load_apart (.inr (by decide))).trans (Storage.write_load_of_length length))
  · have zeroed : (env.stack.write 0 (List.replicate sizeofSockaddr 0)).Within sizeofSockaddr :=
      Storage.write_within within (by decide)
    have fits : sinAddrOffset + sinAddr.length ≤ sizeofSockaddr := by
      rw [length]
      decide
    refine Storage.read_within (Storage.write_within (Storage.write_within
      (Storage.write_within zeroed fits) ?_) ?_) (by decide)
    · decide
    · rw [bytes16_length]
      decide

-- `sin6_addr` reaches beyond the object.
theorem parseFromIp_v6 {sin6Addr : Bytes} (rejected : c.pton4 addr.data = none)
    (accepted : c.pton6 addr.data = some sin6Addr) :
    ∃ a env', parseFromIp c addr port env = (.ok a, env') ∧ a.Stamped afInet6 port ∧
      (sin6AddrOffset, 16) ∈ env'.stack.accesses := by
  have length := c.pton6_length _ _ accepted
  refine ⟨_, _, by rw [parseFromIp, rejected, accepted], ⟨?_, ?_⟩, ?_⟩
  · rw [Address.load_field (by decide)]
    exact (Storage.write_load_apart (.inl (Nat.le_refl 2))).trans (Storage.write_load_of_length rfl)
  · rw [Address.load_field (by decide), bytes16_htons]
    exact Storage.write_load_of_length rfl
  · simp [Storage.write, Storage.read, length]

theorem parseFromIp_none (rejected : c.pton4 addr.data = none)
    (rejected6 : c.pton6 addr.data = none) :
    parseFromIp c addr port env =
      (.error ⟨0⟩, (env.initResult.call (.inetPton afInet addr.data)).call
        (.inetPton afInet6 addr.data)) := by
  rw [parseFromIp, rejected, rejected6]

theorem useEntry_stamped {entry : AddrInfo} {size : Nat} (whole : entry.addr.length = size) :
    ∃ a env', useEntry port env entry size = (.ok a, env') ∧ a.Stamped entry.family port ∧
      ∀ offset n, 4 ≤ offset → offset + n ≤ sizeofSockaddr → offset + n ≤ size →
        a.field offset n = (entry.addr.drop offset).take n := by
  refine ⟨_, _, rfl, ⟨?_, ?_⟩, fun offset n header inside copied => ?_⟩
  · rw [Address.load_field (by decide)]
    exact Storage.write_load_of_length rfl
  · rw [Address.load_field (by decide), bytes16_htons]
    exact (Storage.write_load_apart (.inr (Nat.le_refl 2))).trans (Storage.write_load_of_length rfl)
  · have behindFamily : familyOffset + (bytes16 entry.family).length ≤ offset := by
      rw [bytes16_length, familyOffset]
      omega
    have behindPort : portOffset + (bytes16 (htons port)).length ≤ offset := header
    rw [Address.load_field inside, List.take_of_length_le (Nat.le_of_eq whole)]
    refine (Storage.write_load_apart (.inr behindFamily)).trans
      ((Storage.write_load_apart (.inr behindPort)).trans ?_)
    have copy : (env.stack.write 0 entry.addr).load (0 + offset) n =
        (entry.addr.drop offset).take n := Storage.write_load_inside (whole ▸ copied)
    simpa using copy

theorem useEntries_eq (res : List AddrInfo) :
    useEntries addr port env res =
      match res.find? AddrInfo.usable with
      | some entry => useEntry port env entry entry.addr.length
      | none => (.error ("No valid address found for: ".toList ++ addr.chars), env) := by
  induction res with
  | nil => rfl
  | cons entry rest ih =>
    rw [useEntries, List.find?_cons]
    by_cases v4 : entry.family = afInet
    · rw [if_pos v4, AddrInfo.usable_iff.mpr (.inl v4)]
      exact congrArg (useEntry port env entry) (entry.v4 v4).symm
    · by_cases v6 : entry.family = afInet6
      · rw [if_neg v4, if_pos v6, AddrInfo.usable_iff.mpr (.inr v6)]
        exact congrArg (useEntry port env entry) (entry.v6 v6).symm
      · have unusable : entry.usable = false := by simp [AddrInfo.usable, v4, v6]
        rw [if_neg v4, if_neg v6, unusable]
        exact ih

inductive Libc.Resolves (c : Libc) (text : Text) : Prop where
  | v4 (sinAddr : Bytes) (accepted : c.pton4 text = some sinAddr)
  | v6 (sin6Addr : Bytes) (accepted : c.pton6 text = some sin6Addr)
  | domain (res : List AddrInfo) (entry : AddrInfo)
    (answered : c.getaddrinfo text resolverHints = .ok res) (member : entry ∈ res)
    (usable : entry.usable = true)

theorem addressFrom_numeric {a : Address} {env' : Env}
    (parsed : parseFromIp c addr port env = (.ok a, env')) :
    addressFrom c addr port env = (.ok a, env') := by
  rw [addressFrom, parsed]

theorem addressFrom_domain (rejected : c.pton4 addr.data = none)
    (rejected6 : c.pton6 addr.data = none) :
    ∃ env', addressFrom c addr port env = parseFromDomain c addr port env' := by
  refine ⟨(env.initResult.call (.inetPton afInet addr.data)).call (.inetPton afInet6 addr.data), ?_⟩
  rw [addressFrom, parseFromIp_none port env rejected rejected6]

theorem addressFrom_stamped (resolves : c.Resolves addr.data) :
    ∃ a env' family, addressFrom c addr port env = (.ok a, env') ∧
      (family = afInet ∨ family = afInet6) ∧ a.Stamped family port := by
  cases first : c.pton4 addr.data with
  | some sinAddr =>
    obtain ⟨a, env', parsed, stamped, -⟩ := parseFromIp_v4 port env first
    exact ⟨a, env', _, addressFrom_numeric port env parsed, .inl rfl, stamped⟩
  | none =>
    cases second : c.pton6 addr.data with
    | some sin6Addr =>
      obtain ⟨a, env', parsed, stamped, -⟩ := parseFromIp_v6 port env first second
      exact ⟨a, env', _, addressFrom_numeric port env parsed, .inr rfl, stamped⟩
    | none =>
      cases resolves with
      | v4 sinAddr accepted => simp [first] at accepted
      | v6 sin6Addr accepted => simp [second] at accepted
      | domain res entry answered member usable =>
        obtain ⟨env', falls⟩ := addressFrom_domain port env first second
        obtain ⟨chosen, found⟩ : ∃ chosen, res.find? AddrInfo.usable = some chosen :=
          Option.isSome_iff_exists.mp (List.find?_isSome.mpr ⟨entry, member, usable⟩)
        have family := AddrInfo.usable_iff.mp (List.find?_some found)
        rw [falls, parseFromDomain, answered]
        dsimp only
        rw [useEntries_eq, found]
        obtain ⟨a, env'', used, stamped, -⟩ := useEntry_stamped port
          (env'.initResult.call (.getaddrinfo addr.data resolverHints)) (Eq.refl chosen.addr.length)
        exact ⟨a, env'', _, used, family, stamped⟩

end Results

end KkProxy.Net
