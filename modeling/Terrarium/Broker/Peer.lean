import Terrarium.Policy.Egress

/-!
# Peer — which IPv4 address a peer stands for

`crates/terra-network/src/server/peer.rs`: the broker's own check of a peer, made before the policy
is asked.  Three places decide which IPv4 address an IPv6 address carries: `embeds_ipv4` here, and
the floor and the host-address check of the policy.  Between them no spelling of a blocked IPv4
address is left.
-/

namespace Terrarium.Broker

open Policy

inductive Error
  | invalidArgument
  deriving DecidableEq

def embedsIpv4 (address : Ipv6Addr) : Bool :=
  address.toIpv4Mapped.isSome ∨ address.head = [0, 0, 0, 0, 0xffff, 0] ∨
    (address.head = [0, 0, 0, 0, 0, 0] ∧ ¬ address.isUnspecified ∧ ¬ address.isLoopback)

def hidesIpv4 : IpAddr → Bool
  | .v6 ip => embedsIpv4 ip
  | .v4 _ => false

def hasScope : SocketAddr → Bool
  | .v6 _ _ flowinfo scopeId => scopeId ≠ 0 ∨ flowinfo ≠ 0
  | .v4 _ _ => false

def validatePeer (address : SocketAddr) : Except Error Unit :=
  if address.port = 0 ∨ address.ip.isUnspecified ∨ hidesIpv4 address.ip ∨ hasScope address then
    .error .invalidArgument
  else .ok ()

/-! ## The forms of an IPv4 address -/

/-- The first six segments of the forms that carry an IPv4 address in their last four octets:
mapped, compatible, translated and NAT64. -/
def carrierHeads : List (List UInt16) :=
  [ [0, 0, 0, 0, 0, 0xffff], [0, 0, 0, 0, 0, 0], [0, 0, 0, 0, 0xffff, 0],
    [0x64, 0xff9b, 0, 0, 0, 0] ]

def standsFor : IpAddr → Option Ipv4Addr
  | .v4 ip => some ip
  | .v6 ip => if ip.head ∈ carrierHeads then some ip.lastOctets else none

/-- What the broker's check leaves of the carriers: NAT64, and the loopback address. -/
lemma carrier_of_valid {ip : Ipv6Addr} {port : UInt16} {flowinfo scopeId : UInt32}
    (hvalid : validatePeer (.v6 ip port flowinfo scopeId) = .ok ())
    (hhead : ip.head ∈ carrierHeads) :
    ip.head = [0x64, 0xff9b, 0, 0, 0, 0] ∨ ip = Ipv6Addr.localhost := by
  rw [validatePeer] at hvalid
  split at hvalid
  · cases hvalid
  rename_i hchecks
  rw [not_or, not_or, not_or] at hchecks
  obtain ⟨-, hspecified, hembeds, -⟩ := hchecks
  change ¬ embedsIpv4 ip = true at hembeds
  rw [embedsIpv4, decide_eq_true_eq, not_or, not_or] at hembeds
  obtain ⟨hmapped, htranslated, hcompatible⟩ := hembeds
  simp only [carrierHeads, List.mem_cons, List.not_mem_nil, or_false] at hhead
  rcases hhead with hform | hform | hform | hform
  · rw [Ipv6Addr.toIpv4Mapped, if_pos hform] at hmapped
    exact absurd rfl hmapped
  · right
    by_contra hother
    refine hcompatible ⟨hform, hspecified, ?_⟩
    rw [Ipv6Addr.isLoopback, decide_eq_true_eq]
    exact hother
  · exact absurd hform htranslated
  · exact Or.inl hform

/-! ## The policy's view of them -/

lemma toCanonical_nat64 {ip : Ipv6Addr} (hnat : ip.head = [0x64, 0xff9b, 0, 0, 0, 0]) :
    (IpAddr.v6 ip).toCanonical = .v6 ip := by
  have hmapped : ip.toIpv4Mapped = none := by
    rw [Ipv6Addr.toIpv4Mapped, hnat, if_neg (by decide)]
  simp only [IpAddr.toCanonical, hmapped]

/-- A NAT64 address has the verdict of the address it translates to. -/
lemma isFloored_nat64 {ip : Ipv6Addr} (hnat : ip.head = [0x64, 0xff9b, 0, 0, 0, 0]) :
    isFloored (.v6 ip) = isFloored (.v4 ip.lastOctets) := by
  have hembedded : embeddedIpv4 ip = none := by
    rw [embeddedIpv4, Ipv6Addr.toIpv4, hnat, if_neg (by decide), if_neg (by decide)]
    rfl
  have hwellKnown : nat64WellKnownV4 ip = some ip.lastOctets := by
    rw [nat64WellKnownV4, if_pos hnat]
  simp only [isFloored, hembedded, isGlobalV6, hwellKnown]

lemma nat64Target_eq {ip : Ipv6Addr} (hnat : ip.head = [0x64, 0xff9b, 0, 0, 0, 0]) :
    BoxPolicy.nat64Target (.v6 ip) = some (.v4 ip.lastOctets) := by
  rw [BoxPolicy.nat64Target, nat64WellKnownV4, if_pos hnat]
  rfl

section Policies

variable {C : Type} {p : BoxPolicy C}

/-- A peer that no host grant and no address rule covers is authorized only past the floor and the
host-address check. -/
lemma unblocked_of_authorized [Cache C LearnedKey UInt64] {now t : UInt64} {peer : SocketAddr}
    (hauth : (p.authorizedUntil now peer).1 = some t) (hhost : p.hostGrantCovers peer = false)
    (hrule : p.addressRuleCovers peer.ip.toCanonical (some peer.port) = false) :
    p.isHostAddress peer.ip.toCanonical = false ∧ isFloored peer.ip.toCanonical = false := by
  rcases (BoxPolicy.authorizedUntil_some hauth).2 with hgrant | hallowed
  · rw [hhost] at hgrant
    cases hgrant
  · rcases (BoxPolicy.allowedUntil_some hallowed).2 with hcovers | ⟨hunblocked, -⟩
    · rw [hrule] at hcovers
      cases hcovers
    · exact hunblocked

/-- Whatever form a valid, unblocked peer is written in, the IPv4 address it stands for is neither
floored nor an address of the host. -/
lemma standsFor_unblocked {peer : SocketAddr} (hvalid : validatePeer peer = .ok ())
    (hhost : p.isHostAddress peer.ip.toCanonical = false)
    (hfloor : isFloored peer.ip.toCanonical = false)
    {target : Ipv4Addr} (htarget : standsFor peer.ip = some target) :
    isFloored (.v4 target) = false ∧ IpAddr.v4 target ∉ p.hostAddresses := by
  cases peer with
  | v4 ip port =>
    cases htarget
    exact ⟨hfloor, BoxPolicy.not_mem_hostAddresses hhost⟩
  | v6 ip port flowinfo scopeId =>
    change (if ip.head ∈ carrierHeads then some ip.lastOctets else none) = some target at htarget
    split at htarget
    next hhead =>
      cases htarget
      change p.isHostAddress (IpAddr.v6 ip).toCanonical = false at hhost
      change isFloored (IpAddr.v6 ip).toCanonical = false at hfloor
      rcases carrier_of_valid hvalid hhead with hnat | hloopback
      · rw [toCanonical_nat64 hnat] at hhost hfloor
        refine ⟨(isFloored_nat64 hnat).symm.trans hfloor, ?_⟩
        rw [BoxPolicy.isHostAddress, decide_eq_false_iff_not, not_or, nat64Target_eq hnat] at hhost
        simpa using hhost.2
      · -- `::1` carries `0.0.0.1`, which the floor keeps out.
        rw [hloopback] at hfloor
        exact absurd hfloor (by decide)
    · cases htarget

end Policies

/-- No form of an IPv4 address that is floored or belongs to the host gets past the broker, unless a
host grant or an address rule covers it. -/
theorem no_spelling_passes {C : Type} [Cache C LearnedKey UInt64] {io : AddressText} {net : Network}
    {gw : IpAddr × IpAddr} {p₀ p : BoxPolicy C} {es : List (PolicyEvent C)} {now t : UInt64}
    {peer : SocketAddr} (hnew : BoxPolicy.withClock io net gw = .ok p₀) (hrun : PolicyRun p₀ es p)
    (hvalid : validatePeer peer = .ok ()) (hauth : (p.authorizedUntil now peer).1 = some t)
    (hhost : p.hostGrantCovers peer = false)
    (hrule : p.addressRuleCovers peer.ip.toCanonical (some peer.port) = false) :
    ∀ target, standsFor peer.ip = some target →
      isFloored (.v4 target) = false ∧ IpAddr.v4 target ∉ p.hostAddresses ∧
        ∀ address ∈ net.hostAddresses, address.toCanonical ≠ .v4 target := by
  intro target htarget
  obtain ⟨hunhosted, hunfloored⟩ := unblocked_of_authorized hauth hhost hrule
  obtain ⟨hfloor, haddresses⟩ := standsFor_unblocked hvalid hunhosted hunfloored htarget
  refine ⟨hfloor, haddresses, ?_⟩
  intro address hmem heq
  rw [(BoxPolicy.history_run hnew hrun).configured.hostAddresses] at haddresses
  exact haddresses (List.mem_map.2 ⟨address, hmem, heq⟩)

def openRecipe : Network :=
  { mode := .unrestrictedPublic
    allow := []
    hosts := []
    hostAddresses := [.v4 ⟨9, 9, 9, 9⟩] }

def nat64Peer : SocketAddr :=
  .v6 ⟨0x64, 0xff9b, 0, 0, 0, 0, 0x101, 0x101⟩ 443 0 0

theorem no_spelling_passes_nat64 :
    ∃ p : BoxPolicy (LruList LearnedKey UInt64),
      BoxPolicy.withClock BoxPolicy.noAddresses openRecipe BoxPolicy.someGateways = .ok p ∧
        (p.authorizedUntil 0 nat64Peer).1.isSome = true ∧
          standsFor nat64Peer.ip = some ⟨1, 1, 1, 1⟩ ∧
            isFloored (.v4 ⟨1, 1, 1, 1⟩) = false ∧ IpAddr.v4 ⟨1, 1, 1, 1⟩ ∉ p.hostAddresses := by
  have hnew : BoxPolicy.withClock BoxPolicy.noAddresses openRecipe BoxPolicy.someGateways =
      .ok (BoxPolicy.initial openRecipe BoxPolicy.someGateways : BoxPolicy
        (LruList LearnedKey UInt64)) := by
    rfl
  have hauth : ((BoxPolicy.initial openRecipe BoxPolicy.someGateways :
      BoxPolicy (LruList LearnedKey UInt64)).authorizedUntil 0 nat64Peer).1 =
      some 18446744073709551615 := by
    decide
  have hspelling := no_spelling_passes hnew Run.Trace.nil (by decide) hauth (by decide) (by decide)
    ⟨1, 1, 1, 1⟩ (by decide)
  exact ⟨_, hnew, by decide, by decide, hspelling.1, hspelling.2.1⟩

end Terrarium.Broker
