import Terrarium.Foundations.Cache
import Terrarium.Foundations.Run
import Terrarium.Policy.Rules

/-!
# Runtime — egress grants and bounded DNS learning

`BoxPolicy` of `crates/terra-policy/src/runtime.rs` and `Network` of `config.rs`: the rules a recipe
grants, the addresses learned from DNS answers, and the decision about one peer.

* `learned_dns` is any `Cache`: of the `lru` crate the model uses only the laws stated there.
* The clock is read once by each call that needs it; here the value it returns is an argument of the
  call.  The calls that touch the cache hold its lock from before they read the clock until they
  return, so a history is a sequence of whole calls.  Nothing in those sections panics, so the lock
  is never poisoned.
* `static_dns` is a sorted map in the source; its order only decides the order in which the expanded
  rules are stored, so the model keeps the records in the order of the recipe.
-/

namespace Terrarium.Policy

open Text

def maxConfigBytes : Nat := 65536
def maxRules : Nat := 4096
def maxExpandedRules : Nat := 4096
def maxRuleBytes : Nat := 512
def maxHostAddresses : Nat := 1024
def maxResolvedAddresses : Nat := 32
def learnedAddressesCapacity : Nat := 4096
def learnedDnsTtlSecs : UInt64 := 60

/-- `LEARNED_DNS_TTL_SECS` in nanoseconds, the unit of the clock. -/
def learnedDnsTtl : UInt64 := learnedDnsTtlSecs * 1000000000

def saturatingAdd (a b : UInt64) : UInt64 :=
  if a.toNat + b.toNat < 2 ^ 64 then a + b else UInt64.ofNat (2 ^ 64 - 1)

/-! ## Configuration -/

inductive NetworkMode
  | unrestrictedPublic
  | allowlist
  deriving DecidableEq

structure Network where
  mode : NetworkMode
  allow : List Text
  hosts : List StaticDnsRecord
  hostAddresses : List IpAddr
  deriving DecidableEq

def Network.validateLimits (net : Network) : Except String Unit :=
  let strings := net.allow ++ net.hosts.flatMap fun record => [record.name, record.addr]
  if net.allow.length > maxRules ∨ net.hosts.length > maxRules then
    .error ("network configuration exceeds " ++ toString maxRules ++ " rules or records")
  else if net.hostAddresses.length > maxHostAddresses then
    .error ("host has more than " ++ toString maxHostAddresses ++ " interface addresses")
  else if strings.any fun text => byteLen text > maxRuleBytes then
    .error ("network configuration entry exceeds " ++ toString maxRuleBytes ++ " bytes")
  else if (strings.map byteLen).sum > maxConfigBytes then
    .error ("network configuration exceeds " ++ toString (maxConfigBytes >>> 10) ++ " KiB")
  else .ok ()

/-! ## The policy -/

/-- The learned address and the port it was granted for. -/
abbrev LearnedKey : Type := IpAddr × Port

structure BoxPolicy (C : Type) where
  mode : NetworkMode
  addressRules : List (Cidr × Port)
  nameRules : List (Text × Port)
  learnedDns : C
  staticDns : List (Text × List IpAddr)
  hostGrants : List Port
  hostAddresses : List IpAddr
  gatewayAddresses : IpAddr × IpAddr

namespace BoxPolicy

variable {C : Type}

def gateways (p : BoxPolicy C) : List IpAddr :=
  [p.gatewayAddresses.1, p.gatewayAddresses.2]

def blocksDirectDns (p : BoxPolicy C) : Bool :=
  p.mode = .allowlist ∨ p.staticDns ≠ []

/-! ### Construction -/

def addDnsRecord (io : AddressText) (p : BoxPolicy C) (record : StaticDnsRecord) :
    Except String (BoxPolicy C) :=
  match parseDnsRecord io record p.gateways with
  | .error e => .error e
  | .ok (key, addrs) =>
      if (p.staticDns.lookup key).isSome then
        .error ("duplicate hosts record for '" ++ String.ofList record.name ++
          "': it names the same record as an earlier rule (a name is matched without case and " ++
          "without a trailing dot)")
      else .ok { p with staticDns := p.staticDns ++ [(key, addrs)] }

def resolvedBy (p : BoxPolicy C) (name : Text) : List IpAddr :=
  (p.staticDns.filter fun record => nameCovers name record.1).flatMap Prod.snd

/-- One resolved address of a name rule becomes a grant for the host or an address rule. -/
def expand (port : Port) (p : BoxPolicy C) (addr : IpAddr) : BoxPolicy C :=
  if addr ∈ p.gateways then { p with hostGrants := p.hostGrants ++ [port] }
  else { p with addressRules := p.addressRules ++ [(Cidr.ofIp addr, port)] }

def addAllowRule (io : AddressText) (p : BoxPolicy C) (entry : Text) :
    Except String (BoxPolicy C) :=
  match parseAllow io entry with
  | .error e => .error e
  | .ok rule =>
      if rule.port = some 53 ∧ p.blocksDirectDns then
        .error (ruleError entry
          (" can never open port 53: with 'mode: allowlist' or 'hosts:' records, all guest DNS " ++
            "goes to terra's built-in resolver, which answers A and AAAA queries only.\n" ++
            "Drop the rule, or use 'mode: unrestricted-public' without 'hosts:' records to " ++
            "query other DNS servers directly."))
      else
        match rule with
        | .host port => .ok { p with hostGrants := p.hostGrants ++ [port] }
        | .addr cidr port =>
            -- Only the exact address is refused; a wider range never opens a gateway either,
            -- because `allowedUntil` denies gateways before it looks at the rules.
            match p.gateways.find? fun gateway => Cidr.ofIp gateway = cidr with
            | some gateway =>
                .error (ruleError entry
                  (": " ++ io.display gateway ++ " is the machine terra is running on, which no " ++
                    "address rule opens - write '" ++ String.ofList hostLoopbackSymbol ++
                    "' (with the same ':PORT', if any) to open the host"))
            | none => .ok { p with addressRules := p.addressRules ++ [(cidr, port)] }
        | .name name port =>
            let resolved := p.resolvedBy name
            if resolved = [] ∧ p.mode = .unrestrictedPublic then
              .error (ruleError entry
                (" opens nothing under 'mode: unrestricted-public': every public address is " ++
                  "already reachable, and a name resolved upstream cannot open the LAN or any " ++
                  "other floored range (that is what stops a hostile answer from pointing it " ++
                  "there).\nWrite the address itself - 'allow: [10.0.0.5:445]' - or publish the " ++
                  "name with a 'hosts:' record and keep this rule, or switch to 'mode: " ++
                  "allowlist' where a name rule gates public egress."))
            else
              let expanded := resolved.foldl (expand port) p
              .ok { expanded with nameRules := expanded.nameRules ++ [(name, port)] }

def addEntry (io : AddressText) (p : BoxPolicy C) (entry : Text) : Except String (BoxPolicy C) :=
  match p.addAllowRule io entry with
  | .error e => .error e
  | .ok p =>
      if p.addressRules.length + p.hostGrants.length > maxExpandedRules then
        .error ("network configuration exceeds " ++ toString maxExpandedRules ++
          " expanded grants")
      else .ok p

section Cached

variable [Cache C LearnedKey UInt64]

def initial (net : Network) (gatewayAddresses : IpAddr × IpAddr) : BoxPolicy C :=
  { mode := net.mode
    addressRules := []
    nameRules := []
    learnedDns := Cache.new learnedAddressesCapacity
    staticDns := []
    hostGrants := []
    hostAddresses := net.hostAddresses.map IpAddr.toCanonical
    gatewayAddresses := gatewayAddresses }

def withClock (io : AddressText) (net : Network) (gatewayAddresses : IpAddr × IpAddr) :
    Except String (BoxPolicy C) :=
  match net.validateLimits with
  | .error e => .error e
  | .ok () =>
      match net.hosts.foldlM (addDnsRecord io) (initial net gatewayAddresses) with
      | .error e => .error e
      | .ok p => net.allow.foldlM (addEntry io) p

/-! ### Learning -/

variable (p : BoxPolicy C)

def grantsFor (normalizedName : Text) : List Port :=
  (p.nameRules.filter fun rule => nameCovers rule.1 normalizedName).map Prod.snd

def nat64Target : IpAddr → Option IpAddr
  | .v6 ip => (nat64WellKnownV4 ip).map IpAddr.v4
  | .v4 _ => none

def isHostAddress (ip : IpAddr) : Bool :=
  ip ∈ p.hostAddresses ∨ (nat64Target ip).any fun target => target ∈ p.hostAddresses

/-- One answer is accepted unless it points somewhere no answer may point, or repeats another. -/
def acceptAddress (accepted : List IpAddr) (ip : IpAddr) : List IpAddr :=
  if ¬ isFloored ip ∧ ip ∉ p.gateways ∧ ¬ p.isHostAddress ip ∧ ip ∉ accepted then accepted ++ [ip]
  else accepted

/-- Remember one grant, or extend it when it is already there. -/
def learn (expiresAt : UInt64) (learned : C) (key : LearnedKey) : C :=
  match Cache.peek learned key with
  | some _ => Cache.modify learned key fun previous => max previous expiresAt
  | none => Cache.put learned key expiresAt

def acceptResolved (now : UInt64) (name : Text) (addresses : List IpAddr) :
    List IpAddr × BoxPolicy C :=
  match normalizeHostname name with
  | none => ([], p)
  | some name =>
      let grants := p.grantsFor name
      if p.mode = .allowlist ∧ grants = [] then ([], p)
      else
        -- The answer may come from an attacker: the floor holds for it whatever the name.
        let accepted :=
          ((addresses.take maxResolvedAddresses).map IpAddr.toCanonical).foldl p.acceptAddress []
        match p.mode with
        | .unrestrictedPublic => (accepted, p)
        | .allowlist =>
            let keys := accepted.flatMap fun ip => grants.map fun grant => (ip, grant)
            let learned := keys.foldl (learn (saturatingAdd now learnedDnsTtl)) p.learnedDns
            (accepted, { p with learnedDns := learned })

/-! ### Deciding -/

/-- Look one learned grant up; an expired one is forgotten. -/
def liveGrant (now : UInt64) (learned : C) (key : LearnedKey) : Option UInt64 × C :=
  let found := Cache.get learned key
  match found.1 with
  | some expiresAt =>
      if expiresAt > now then (some expiresAt, found.2) else (none, Cache.pop found.2 key)
  | none => (none, Cache.pop found.2 key)

/-- `Iterator::max` of the expiry times that were found. -/
def latest : Option UInt64 → Option UInt64 → Option UInt64
  | some a, some b => some (max a b)
  | some a, none => some a
  | none, b => b

def addressRuleCovers (ip : IpAddr) (port : Port) : Bool :=
  p.addressRules.any fun rule => rule.1.contains ip ∧ (rule.2 = none ∨ rule.2 = port)

def allowedUntil (now : UInt64) (ip : IpAddr) (port : Port) : Option UInt64 × BoxPolicy C :=
  let ip := ip.toCanonical
  if ip ∈ p.gateways then (none, p)
  else if p.addressRuleCovers ip port then (some (UInt64.ofNat (2 ^ 64 - 1)), p)
  else if p.isHostAddress ip ∨ isFloored ip then (none, p)
  else
    match p.mode with
    | .unrestrictedPublic => (some (UInt64.ofNat (2 ^ 64 - 1)), p)
    | .allowlist =>
        let every := liveGrant now p.learnedDns (ip, none)
        let one := liveGrant now every.2 (ip, port)
        (latest every.1 one.1, { p with learnedDns := one.2 })

def hostGrantCovers (peer : SocketAddr) : Bool :=
  isHostLoopback peer.ip ∧ p.hostGrants.any fun grant => grant.all fun port => port = peer.port

def authorizedUntil (now : UInt64) (peer : SocketAddr) : Option UInt64 × BoxPolicy C :=
  if peer.port = 53 ∧ p.blocksDirectDns then (none, p)
  else if p.hostGrantCovers peer then (some (UInt64.ofNat (2 ^ 64 - 1)), p)
  else p.allowedUntil now peer.ip (some peer.port)

end Cached

/-! ### Runs -/

/-- A call that may change the learned addresses, with the time its clock reads. -/
inductive Op
  | acceptResolved (now : UInt64) (name : Text) (addresses : List IpAddr)
  | authorizedUntil (now : UInt64) (peer : SocketAddr)
  | allows (now : UInt64) (ip : IpAddr) (port : Port)
  deriving DecidableEq

def Op.now : Op → UInt64
  | .acceptResolved now _ _ => now
  | .authorizedUntil now _ => now
  | .allows now _ _ => now

inductive Outcome
  | accepted (addresses : List IpAddr)
  | until (expiresAt : Option UInt64)
  | allowed (b : Bool)
  deriving DecidableEq

def apply [Cache C LearnedKey UInt64] (p : BoxPolicy C) : Op → Outcome × BoxPolicy C
  | .acceptResolved now name addresses =>
      (.accepted (p.acceptResolved now name addresses).1, (p.acceptResolved now name addresses).2)
  | .authorizedUntil now peer =>
      (.until (p.authorizedUntil now peer).1, (p.authorizedUntil now peer).2)
  | .allows now ip port =>
      (.allowed (p.allowedUntil now ip port).1.isSome, (p.allowedUntil now ip port).2)

def step [Cache C LearnedKey UInt64] (p : BoxPolicy C) (op : Op) : Option (Outcome × BoxPolicy C) :=
  some (p.apply op)

end BoxPolicy

abbrev PolicyEvent (C : Type) : Type := Run.Event (BoxPolicy C) BoxPolicy.Op BoxPolicy.Outcome

abbrev PolicyRun {C : Type} [Cache C LearnedKey UInt64] (p : BoxPolicy C)
    (es : List (PolicyEvent C)) (p' : BoxPolicy C) : Prop :=
  Run.Trace BoxPolicy.step p es p'

end Terrarium.Policy
