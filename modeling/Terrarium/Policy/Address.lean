import Mathlib.Data.List.Basic

/-!
# Address — IP addresses, ranges and the egress floor

`crates/terra-policy/src/address.rs` and the part of `std::net` it uses.  An IPv4 address is its
four octets, an IPv6 address its eight segments; `bits` are the numbers that masks apply to.

The *floor* is the set of addresses no guest reaches without a rule that names them: everything that
is not globally routable.  An IPv6 address that carries an IPv4 address inherits its verdict.
-/

namespace Terrarium.Policy

/-! ## Addresses of the standard library -/

structure Ipv4Addr where
  a : UInt8
  b : UInt8
  c : UInt8
  d : UInt8
  deriving DecidableEq

namespace Ipv4Addr

def localhost : Ipv4Addr := ⟨127, 0, 0, 1⟩

variable (ip : Ipv4Addr)

def octets : List UInt8 :=
  [ip.a, ip.b, ip.c, ip.d]

def ofOctets (bs : List UInt8) : Ipv4Addr :=
  ⟨bs.getD 0 0, bs.getD 1 0, bs.getD 2 0, bs.getD 3 0⟩

def bits : BitVec 32 :=
  ip.a.toBitVec ++ ip.b.toBitVec ++ ip.c.toBitVec ++ ip.d.toBitVec

def isPrivate : Bool :=
  ip.a = 10 ∨ ip.a = 172 ∧ 16 ≤ ip.b ∧ ip.b ≤ 31 ∨ ip.a = 192 ∧ ip.b = 168

def isLoopback : Bool :=
  ip.a = 127

def isLinkLocal : Bool :=
  ip.a = 169 ∧ ip.b = 254

def isMulticast : Bool :=
  224 ≤ ip.a ∧ ip.a ≤ 239

def isBroadcast : Bool :=
  ip = ⟨255, 255, 255, 255⟩

def isUnspecified : Bool :=
  ip = ⟨0, 0, 0, 0⟩

end Ipv4Addr

structure Ipv6Addr where
  s0 : UInt16
  s1 : UInt16
  s2 : UInt16
  s3 : UInt16
  s4 : UInt16
  s5 : UInt16
  s6 : UInt16
  s7 : UInt16
  deriving DecidableEq

namespace Ipv6Addr

def localhost : Ipv6Addr := ⟨0, 0, 0, 0, 0, 0, 0, 1⟩

variable (ip : Ipv6Addr)

def octets : List UInt8 :=
  [ip.s0, ip.s1, ip.s2, ip.s3, ip.s4, ip.s5, ip.s6, ip.s7].flatMap fun (s : UInt16) =>
    [(s >>> 8).toUInt8, s.toUInt8]

def segment (high low : UInt8) : UInt16 :=
  UInt16.ofNat (high.toNat * 256 + low.toNat)

def ofOctets (bs : List UInt8) : Ipv6Addr :=
  let at_ i := segment (bs.getD i 0) (bs.getD (i + 1) 0)
  ⟨at_ 0, at_ 2, at_ 4, at_ 6, at_ 8, at_ 10, at_ 12, at_ 14⟩

def bits : BitVec 128 :=
  ip.s0.toBitVec ++ ip.s1.toBitVec ++ ip.s2.toBitVec ++ ip.s3.toBitVec ++
    ip.s4.toBitVec ++ ip.s5.toBitVec ++ ip.s6.toBitVec ++ ip.s7.toBitVec

def lastOctets : Ipv4Addr :=
  ⟨(ip.s6 >>> 8).toUInt8, ip.s6.toUInt8, (ip.s7 >>> 8).toUInt8, ip.s7.toUInt8⟩

def head : List UInt16 :=
  [ip.s0, ip.s1, ip.s2, ip.s3, ip.s4, ip.s5]

def isUnspecified : Bool :=
  ip = ⟨0, 0, 0, 0, 0, 0, 0, 0⟩

def isLoopback : Bool :=
  ip = localhost

/-- The address of `::ffff:a.b.c.d`. -/
def toIpv4Mapped : Option Ipv4Addr :=
  if ip.head = [0, 0, 0, 0, 0, 0xffff] then some ip.lastOctets else none

/-- The address of `::ffff:a.b.c.d` or `::a.b.c.d`. -/
def toIpv4 : Option Ipv4Addr :=
  if ip.head = [0, 0, 0, 0, 0, 0] ∨ ip.head = [0, 0, 0, 0, 0, 0xffff] then some ip.lastOctets
  else none

end Ipv6Addr

inductive IpAddr
  | v4 (ip : Ipv4Addr)
  | v6 (ip : Ipv6Addr)
  deriving DecidableEq

namespace IpAddr

def toCanonical : IpAddr → IpAddr
  | .v4 ip => .v4 ip
  | .v6 ip =>
      match ip.toIpv4Mapped with
      | some mapped => .v4 mapped
      | none => .v6 ip

def isUnspecified : IpAddr → Bool
  | .v4 ip => ip.isUnspecified
  | .v6 ip => ip.isUnspecified

end IpAddr

inductive SocketAddr
  | v4 (ip : Ipv4Addr) (port : UInt16)
  | v6 (ip : Ipv6Addr) (port : UInt16) (flowinfo scopeId : UInt32)
  deriving DecidableEq

namespace SocketAddr

def new : IpAddr → UInt16 → SocketAddr
  | .v4 ip, port => .v4 ip port
  | .v6 ip, port => .v6 ip port 0 0

def ip : SocketAddr → IpAddr
  | .v4 ip _ => .v4 ip
  | .v6 ip _ _ _ => .v6 ip

def port : SocketAddr → UInt16
  | .v4 _ port => port
  | .v6 _ port _ _ => port

end SocketAddr

/-! ## Ranges -/

inductive Cidr
  | v4 (network mask : BitVec 32)
  | v6 (network mask : BitVec 128)
  deriving DecidableEq

namespace Cidr

def ofIp (ip : IpAddr) : Cidr :=
  match ip.toCanonical with
  | .v4 ip => .v4 ip.bits (BitVec.allOnes 32)
  | .v6 ip => .v6 ip.bits (BitVec.allOnes 128)

def contains : Cidr → IpAddr → Bool
  | .v4 network mask, .v4 ip => ip.bits &&& mask = network
  | .v6 network mask, .v6 ip => ip.bits &&& mask = network
  | _, _ => false

end Cidr

/-! ## The floor -/

def isGlobalV4 (ip : Ipv4Addr) : Bool :=
  ¬ (ip.a = 0 ∨ ip.isPrivate ∨ (ip.a = 100 ∧ 64 ≤ ip.b ∧ ip.b < 128) ∨ ip.isLoopback ∨
    ip.isLinkLocal ∨ ip.isMulticast ∨
    (ip.a = 192 ∧ ip.b = 0 ∧ ip.c = 0 ∧ ip.d ≠ 9 ∧ ip.d ≠ 10) ∨
    ([ip.a, ip.b, ip.c] = [192, 0, 2] ∨ [ip.a, ip.b, ip.c] = [198, 51, 100] ∨
      [ip.a, ip.b, ip.c] = [203, 0, 113]) ∨
    (ip.a = 192 ∧ ip.b = 88 ∧ ip.c = 99) ∨ (ip.a = 198 ∧ 18 ≤ ip.b ∧ ip.b < 20) ∨
    ip.a ≥ 240 ∨ ip.isBroadcast)

def nat64WellKnownV4 (ip : Ipv6Addr) : Option Ipv4Addr :=
  if ip.head = [0x64, 0xff9b, 0, 0, 0, 0] then some ip.lastOctets else none

def embeddedIpv4 (ip : Ipv6Addr) : Option Ipv4Addr :=
  ip.toIpv4.or (if ip.head = [0, 0, 0, 0, 0xffff, 0] then some ip.lastOctets else none)

/-- The protocol anycast addresses `2001:1::1` to `2001:1::3`. -/
def isProtocolAnycast (ip : Ipv6Addr) : Bool :=
  ip.head = [0x2001, 1, 0, 0, 0, 0] ∧ ip.s6 = 0 ∧ 1 ≤ ip.s7 ∧ ip.s7 ≤ 3

def isGlobalV6 (ip : Ipv6Addr) : Bool :=
  match nat64WellKnownV4 ip with
  | some ip => isGlobalV4 ip
  | none =>
      ¬ (ip.s0 &&& 0xe000 ≠ 0x2000 ∨
        (ip.s0 = 0x2001 ∧ ip.s1 < 0x200 ∧ ¬ isProtocolAnycast ip ∧
          ¬ (ip.s1 = 3 ∨ ip.s1 = 4 ∧ ip.s2 = 0x112) ∧ ¬ (0x20 ≤ ip.s1 ∧ ip.s1 ≤ 0x3f)) ∨
        ip.s0 = 0x2002 ∨ (ip.s0 = 0x2001 ∧ ip.s1 = 0xdb8) ∨ (ip.s0 = 0x3fff ∧ ip.s1 < 0x1000))

def isFloored : IpAddr → Bool
  | .v4 ip => !isGlobalV4 ip
  | .v6 ip =>
      match embeddedIpv4 ip with
      | some embedded => !isGlobalV4 embedded
      | none => !isGlobalV6 ip

def isHostLoopback (address : IpAddr) : Bool :=
  address = .v4 Ipv4Addr.localhost ∨ address = .v6 Ipv6Addr.localhost

end Terrarium.Policy
