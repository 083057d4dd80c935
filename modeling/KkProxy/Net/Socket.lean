import KkProxy.Net.Endpoint
import KkProxy.Uring.Awaiters
import Mathlib.Logic.Function.Basic

set_option autoImplicit false

namespace KkProxy.Net

open Shared (Storage)
open Ssl (Bytes ErrorCode makeSysError)
open Uring (Result)

structure SocketArgs where
  domain : UInt16
  type : Int
  protocol : Int
deriving DecidableEq, Repr

def sockStream : Int := 1

structure Kernel where
  sockets : Int → Option SocketArgs

def Kernel.socket (k : Kernel) (args : SocketArgs) (fd : Nat) : Kernel :=
  { sockets := Function.update k.sockets fd (some args) }

-- What `IORING_OP_CONNECT` gives the kernel: the bytes that `addr` points to are `addrlen` many.
structure ConnectCall where
  fd : Int
  addr : Bytes
  addrlen : Nat
deriving DecidableEq, Repr

structure Socket where
  ring : Nat
  fd : Int
  peer : Endpoint
deriving DecidableEq

namespace Socket

def openPeer (k : Kernel) (ring : Nat) (fd : Nat) (peer : Endpoint) : Socket × Kernel :=
  ({ ring, fd, peer }, k.socket { domain := afInet, type := sockStream, protocol := 0 } fd)

def connect (s : Socket) (around : Nat → UInt8) : ConnectCall :=
  { fd := s.fd
    addr := (s.peer.address.place around).load 0 sizeofSockaddr
    addrlen := sizeofSockaddr }

end Socket

section Connecting

variable (c : Libc) (host : StringView) (port : UInt16) (env : Env) (k : Kernel) (ring : Nat)
variable (fd : Nat) (around : Nat → UInt8)

def dial : Except Text ConnectCall × Kernel :=
  match (endpointFrom c host port env).1 with
  | .error what => (.error what, k)
  | .ok peer =>
    let opened := Socket.openPeer k ring fd peer
    (.ok (opened.1.connect around), opened.2)

def addrLength (family : UInt16) : Nat := if family = afInet then 4 else 16

def sizeofFamily (family : UInt16) : Nat :=
  if family = afInet then sizeofSockaddrIn else sizeofSockaddrIn6

def slice (bytes : Bytes) (offset n : Nat) : Bytes := (bytes.drop offset).take n

structure Reaches (k : Kernel) (call : ConnectCall) (entry : AddrInfo) (port : UInt16) : Prop where
  domain : (k.sockets call.fd).map SocketArgs.domain = some entry.family
  family : slice call.addr familyOffset 2 = bytes16 entry.family
  port : slice call.addr portOffset 2 = networkOrder port
  address : slice call.addr (addrOffset entry.family) (addrLength entry.family) =
    slice entry.addr (addrOffset entry.family) (addrLength entry.family)
  covers : sizeofFamily entry.family ≤ call.addrlen

structure ReachesFirst (c : Libc) (host : StringView) (port : UInt16) (res : List AddrInfo) :
    Prop where
  found : ∀ entry, res.find? AddrInfo.usable = some entry → ∀ env k ring fd around, ∃ call k',
    dial c host port env k ring fd around = (.ok call, k') ∧ Reaches k' call entry port
  missing : res.find? AddrInfo.usable = none → ∀ env k ring fd around, ∃ what,
    dial c host port env k ring fd around = (.error what, k)

variable {c host port} {res : List AddrInfo}

theorem endpointFrom_answers (rejected : c.pton4 host.data = none)
    (rejected6 : c.pton6 host.data = none)
    (answered : c.getaddrinfo host.data resolverHints = .ok res) :
    (∀ entry, res.find? AddrInfo.usable = some entry → ∃ a,
      (endpointFrom c host port env).1 = .ok { address := a, domain := host.chars } ∧
        a.Stamped entry.family port ∧
          ∀ offset n, 4 ≤ offset → offset + n ≤ sizeofSockaddr → offset + n ≤ entry.addr.length →
            a.field offset n = slice entry.addr offset n) ∧
    (res.find? AddrInfo.usable = none → ∃ what, (endpointFrom c host port env).1 = .error what) := by
  obtain ⟨env', falls⟩ := addressFrom_domain port env rejected rejected6
  have resolved : addressFrom c host port env = useEntries host port
      (env'.initResult.call (.getaddrinfo host.data resolverHints)) res := by
    rw [falls, parseFromDomain, answered]
  rw [useEntries_eq] at resolved
  constructor
  · intro entry found
    rw [found] at resolved
    obtain ⟨a, env'', used, stamped, copied⟩ := useEntry_stamped port
      (env'.initResult.call (.getaddrinfo host.data resolverHints)) (Eq.refl entry.addr.length)
    refine ⟨a, ?_, stamped, copied⟩
    rw [endpointFrom_ok (resolved.trans used)]
  · intro missing
    rw [missing] at resolved
    refine ⟨"No valid address found for: ".toList ++ host.chars, ?_⟩
    rw [endpointFrom, resolved]

theorem dial_ok {a : Address}
    (made : (endpointFrom c host port env).1 = .ok { address := a, domain := host.chars }) :
    dial c host port env k ring fd around =
      (.ok { fd, addr := a.sockaddr, addrlen := sizeofSockaddr },
        k.socket { domain := afInet, type := sockStream, protocol := 0 } fd) := by
  have whole : (a.place around).load 0 sizeofSockaddr = a.sockaddr :=
    congrArg Address.sockaddr (Address.load_place a around)
  rw [dial, made]
  simp only [Socket.openPeer, Socket.connect, whole]

-- Only an IPv4 address fits into the `sockaddr` and goes with the domain of the socket.
theorem reaches_iff {a : Address} {entry : AddrInfo}
    (stamped : a.Stamped entry.family port)
    (copied : ∀ offset n, 4 ≤ offset → offset + n ≤ sizeofSockaddr →
      offset + n ≤ entry.addr.length → a.field offset n = slice entry.addr offset n) :
    Reaches (k.socket { domain := afInet, type := sockStream, protocol := 0 } fd)
      { fd, addr := a.sockaddr, addrlen := sizeofSockaddr } entry port ↔ entry.family = afInet := by
  constructor
  · intro reaches
    simpa [Kernel.socket, eq_comm] using reaches.domain
  · intro v4
    refine ⟨?_, stamped.family, stamped.port, ?_, ?_⟩
    · simp [Kernel.socket, v4]
    · rw [v4]
      refine copied sinAddrOffset 4 (by decide) (by decide) ?_
      rw [entry.v4 v4]
      decide
    · have covers : sizeofFamily afInet ≤ sizeofSockaddr := by decide
      exact v4 ▸ covers

/--
For a host that is not numeric, `connect` reaches the first answer of either family exactly if that
is an IPv4 address; if there is no such answer, `from` throws and no socket is created.
-/
theorem connect_reaches_iff (c : Libc) (host : StringView) (port : UInt16) (res : List AddrInfo)
    (rejected : c.pton4 host.data = none) (rejected6 : c.pton6 host.data = none)
    (answered : c.getaddrinfo host.data resolverHints = .ok res) :
    ReachesFirst c host port res ↔
      ∀ entry, res.find? AddrInfo.usable = some entry → entry.family = afInet := by
  constructor
  · intro reaches entry found
    obtain ⟨a, made, stamped, copied⟩ :=
      (endpointFrom_answers (.fresh fun _ => 0) rejected rejected6 answered).1 entry found
    obtain ⟨call, k', called, reached⟩ :=
      reaches.found entry found (.fresh fun _ => 0) ⟨fun _ => none⟩ 0 3 fun _ => 0
    rw [dial_ok _ _ _ _ _ made] at called
    obtain ⟨same, rfl⟩ := Prod.mk.inj called
    obtain rfl := Except.ok.inj same
    exact (reaches_iff _ _ stamped copied).mp reached
  · intro v4
    refine ⟨fun entry found env k ring fd around => ?_, fun missing env k ring fd around => ?_⟩
    · obtain ⟨a, made, stamped, copied⟩ :=
        (endpointFrom_answers env rejected rejected6 answered).1 entry found
      exact ⟨_, _, dial_ok env k ring fd around made,
        (reaches_iff k fd stamped copied).mpr (v4 entry found)⟩
    · obtain ⟨what, thrown⟩ := (endpointFrom_answers env rejected rejected6 answered).2 missing
      refine ⟨what, ?_⟩
      rw [dial, thrown]

theorem connect_reaches_iff_localhost :
    ReachesFirst .loopback (.literal "ip4-localhost".toList) 443
        [.ofUnix, .ofV4 loopback4 rfl, .ofV6 loopback6 rfl] ↔
      ∀ entry, [AddrInfo.ofUnix, .ofV4 loopback4 rfl, .ofV6 loopback6 rfl].find?
        AddrInfo.usable = some entry → entry.family = afInet :=
  connect_reaches_iff .loopback (.literal "ip4-localhost".toList) 443
    [.ofUnix, .ofV4 loopback4 rfl, .ofV6 loopback6 rfl] (by decide +kernel) (by decide +kernel) rfl

-- The resolver answers with the IPv6 address first.
theorem connect_misses_ipv6 :
    ¬ ∀ (c : Libc) (host : StringView) (port : UInt16) (res : List AddrInfo),
      c.pton4 host.data = none → c.pton6 host.data = none →
        c.getaddrinfo host.data resolverHints = .ok res → ReachesFirst c host port res := by
  intro claim
  have reaches := claim .loopback (.literal "localhost".toList) 443
    [.ofV6 loopback6 rfl, .ofV4 loopback4 rfl] (by decide +kernel) (by decide +kernel) rfl
  obtain ⟨call, k, called, reached⟩ := reaches.found (.ofV6 loopback6 rfl) rfl (.fresh fun _ => 0)
    ⟨fun _ => none⟩ 0 3 fun _ => 0
  have domain : ((dial .loopback (.literal "localhost".toList) 443 (.fresh fun _ => 0)
      ⟨fun _ => none⟩ 0 3 fun _ => 0).2.sockets 3).map SocketArgs.domain = some afInet := by
    decide +kernel
  have descriptor : ((dial .loopback (.literal "localhost".toList) 443 (.fresh fun _ => 0)
      ⟨fun _ => none⟩ 0 3 fun _ => 0).1.toOption.map ConnectCall.fd) = some 3 := by decide +kernel
  rw [called] at domain descriptor
  have number : call.fd = 3 := by simpa [Except.toOption] using descriptor
  have wanted := reached.domain
  rw [number, domain] at wanted
  exact absurd wanted (by decide)

end Connecting

-- `socket_accept_awaiter::await_resume`; `addr` is what the kernel has stored of the peer.
def socketAcceptResume (ring : Nat) (addr : Address) (res : Int32) : Result Socket :=
  let ret := Uring.acceptResume res
  if 0 < ret then
    .ok { ring, fd := ret.toInt, peer := { Endpoint.init with address := addr } }
  else .error (makeSysError ret.toInt)

section Convention

inductive Operation where
  | connect | read | write | send | recv | timeout
  | accept (ring : Nat) (addr : Address)
deriving DecidableEq

def errorOf {α : Type} : Result α → Option ErrorCode
  | .ok _ => none
  | .error e => some e

namespace Operation

def error? (res : Int32) : Operation → Option ErrorCode
  | connect => errorOf (Uring.connectResume res)
  | read => errorOf (Uring.readResume res)
  | write => errorOf (Uring.ofInt (Uring.writeResume res))
  | send => errorOf (Uring.ofInt (Uring.sendResume res))
  | recv => errorOf (Uring.ofInt (Uring.recvResume res))
  | timeout => errorOf (Uring.timeoutResume res)
  | accept ring addr => errorOf (socketAcceptResume ring addr res)

def Succeeds (res : Int32) : Operation → Prop
  | timeout => res = -Uring.etime
  | _ => 0 ≤ res

/-- A success is a value; a failure is the error of the system with the positive `errno`. -/
structure Conforms (op : Operation) (res : Int32) : Prop where
  value : op.Succeeds res → op.error? res = none
  error : ¬ op.Succeeds res →
    op.error? res = some { value := -res.toInt, category := .system } ∧ 0 < -res.toInt

theorem Conforms.of_success {op : Operation} {res : Int32} (succeeds : op.Succeeds res) :
    op.Conforms res ↔ op.error? res = none :=
  ⟨fun conforms => conforms.value succeeds,
    fun value => ⟨fun _ => value, fun fails => absurd succeeds fails⟩⟩

theorem Conforms.of_failure {op : Operation} {res : Int32} (fails : ¬ op.Succeeds res) :
    op.Conforms res ↔
      op.error? res = some { value := -res.toInt, category := .system } ∧ 0 < -res.toInt :=
  ⟨fun conforms => conforms.error fails,
    fun error => ⟨fun succeeds => absurd succeeds fails, fun _ => error⟩⟩

def Converts (res : Int32) : Operation → Prop
  | read => res ≠ Int32.minValue
  | timeout => res < 0 ∧ res ≠ Int32.minValue
  | accept _ _ => 0 < res
  | connect | write | send | recv => 0 ≤ res

end Operation

theorem not_nonneg_iff (res : Int32) : ¬ 0 ≤ res ↔ 0 < -res.toInt := by
  rw [Int32.le_iff_toInt_le, Int32.toInt_zero]
  omega

namespace Operation

theorem raw_conforms_iff {op : Operation} {res : Int32} (succeeds : op.Succeeds res ↔ 0 ≤ res)
    (value : 0 ≤ res → op.error? res = none)
    (raw : ∀ e, op.error? res = some e → e.value = res.toInt) : op.Conforms res ↔ 0 ≤ res := by
  by_cases nonneg : 0 ≤ res
  · rw [Conforms.of_success (succeeds.mpr nonneg)]
    exact iff_of_true (value nonneg) nonneg
  · rw [Conforms.of_failure (mt succeeds.mp nonneg)]
    refine iff_of_false (fun ⟨error, positive⟩ => ?_) nonneg
    have same : -res.toInt = res.toInt := raw _ error
    omega

theorem negated_conforms_iff {op : Operation} {res : Int32} (fails : ¬ op.Succeeds res)
    (negated : op.error? res = some (makeSysError (-res).toInt)) :
    op.Conforms res ↔ res < 0 ∧ res ≠ Int32.minValue := by
  rw [Conforms.of_failure fails, negated, ← Uring.neg_toInt_eq_iff, ← not_nonneg_iff, and_comm,
    Int32.not_le]
  simp [makeSysError]

end Operation

/--
An operation turns a result into a value or the right error exactly if the result is one that its
conversion gets right.
-/
theorem conforms_iff (op : Operation) (res : Int32) : op.Conforms res ↔ op.Converts res := by
  cases op with
  | connect =>
    refine Operation.raw_conforms_iff Iff.rfl (fun nonneg => ?_) fun e error => ?_
    · simp [Operation.error?, Uring.connectResume, nonneg, errorOf]
    · simp only [Operation.error?, Uring.connectResume] at error
      split_ifs at error
      · cases error
      · obtain rfl := Option.some.inj error
        rfl
  | read =>
    by_cases nonneg : 0 ≤ res
    · have succeeds : Operation.read.Succeeds res := nonneg
      rw [Operation.Conforms.of_success succeeds]
      refine iff_of_true ?_ fun least => ?_
      · simp [Operation.error?, Uring.readResume, nonneg, errorOf]
      · rw [least] at nonneg
        exact absurd nonneg (by decide)
    · have fails : ¬ Operation.read.Succeeds res := nonneg
      rw [Operation.negated_conforms_iff fails]
      · exact and_iff_right (Int32.not_le.mp nonneg)
      · simp [Operation.error?, Uring.readResume, nonneg, errorOf]
  | write => exact Operation.raw_conforms_iff Iff.rfl (fun _ => rfl) fun e error => by cases error
  | send => exact Operation.raw_conforms_iff Iff.rfl (fun _ => rfl) fun e error => by cases error
  | recv => exact Operation.raw_conforms_iff Iff.rfl (fun _ => rfl) fun e error => by cases error
  | timeout =>
    by_cases elapsed : res = -Uring.etime
    · have succeeds : Operation.timeout.Succeeds res := elapsed
      rw [Operation.Conforms.of_success succeeds]
      subst elapsed
      exact iff_of_true rfl ⟨by decide, by decide⟩
    · refine Operation.negated_conforms_iff elapsed ?_
      simp [Operation.error?, Uring.timeoutResume, elapsed, errorOf]
  | accept ring addr =>
    by_cases positive : 0 < res
    · have succeeds : (Operation.accept ring addr).Succeeds res := Int32.le_of_lt positive
      rw [Operation.Conforms.of_success succeeds]
      refine iff_of_true ?_ positive
      simp [Operation.error?, socketAcceptResume, Uring.acceptResume, positive, errorOf]
    · refine iff_of_false (fun conforms => ?_) positive
      have error : (Operation.accept ring addr).error? res = some (makeSysError res.toInt) := by
        simp [Operation.error?, socketAcceptResume, Uring.acceptResume, positive, errorOf]
      by_cases nonneg : 0 ≤ res
      · have value := conforms.value nonneg
        simp [error] at value
      · obtain ⟨negated, negative⟩ := conforms.error nonneg
        have same : res.toInt = -res.toInt := by
          simpa [error, makeSysError] using negated
        omega

theorem connect_error_negative :
    ¬ ∀ (op : Operation) (res : Int32), op.Conforms res := by
  intro claim
  have failed : ¬ Operation.Succeeds (-111) .connect := by
    change ¬ (0 : Int32) ≤ -111
    decide
  have converted := ((claim .connect (-111)).error failed).1
  exact absurd converted (by decide)

end Convention

end KkProxy.Net
