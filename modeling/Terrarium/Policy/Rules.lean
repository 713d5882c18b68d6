import Terrarium.Foundations.Text
import Terrarium.Policy.Address

/-!
# Rules — allow rules and static DNS records

`crates/terra-policy/src/rules.rs`, with `Cidr::parse` of `address.rs` and `hostname.rs`: how a line
of the recipe becomes a rule, or an error that quotes it.

The address parser and printer of the standard library are taken as given: they are the functions of
`AddressText`, and nothing is assumed of them.
-/

namespace Terrarium.Policy

open Text

/-- How the standard library reads and prints addresses. -/
structure AddressText where
  parseIpv4 : Text → Option Ipv4Addr
  parseIpv6 : Text → Option Ipv6Addr
  display : IpAddr → String

namespace AddressText

/-- `IpAddr::from_str` reads an IPv4 address, or else an IPv6 address. -/
def parseIp (io : AddressText) (t : Text) : Option IpAddr :=
  ((io.parseIpv4 t).map IpAddr.v4).or ((io.parseIpv6 t).map IpAddr.v6)

end AddressText

/-! ## Hostnames -/

def maxNameBytes : Nat := 256

def validLabel (label : Text) : Bool :=
  (1 ≤ label.byteLen ∧ label.byteLen ≤ 63) ∧ label.head? ≠ some '-' ∧ label.getLast? ≠ some '-' ∧
    label.all fun c => c.isAlphanum || c = '-'

def normalizeHostname (hostname : Text) : Option Text :=
  if hostname.byteLen > maxNameBytes then none
  else
    let hostname := toAsciiLowercase (hostname.rdropWhile (· = '.'))
    if (1 ≤ hostname.byteLen ∧ hostname.byteLen ≤ 253) ∧ (hostname.splitOn '.').all validLabel then
      some hostname
    else none

/-! ## Ranges as text -/

def Cidr.parse (io : AddressText) (spec : Text) : Option Cidr :=
  let split : Option (Text × Option Nat) :=
    match splitOnce ['/'] (trim spec) with
    | some (addr, bits) => (parseUnsigned 255 bits).map fun n => (addr, some n)
    | none => some (trim spec, none)
  split.bind fun (addr, bits) =>
    (io.parseIp addr).bind fun address =>
      let bits : Option (Option Nat) :=
        match address, bits with
        | .v6 ip, some n =>
            if ip.toIpv4Mapped.isSome then if 96 ≤ n then some (some (n - 96)) else none
            else some (some n)
        | _, bits => some bits
      bits.bind fun bits =>
        match address.toCanonical with
        | .v4 ip =>
            let n := bits.getD 32
            if n > 32 then none
            else
              let mask := BitVec.allOnes 32 <<< (32 - n)
              some (.v4 (ip.bits &&& mask) mask)
        | .v6 ip =>
            let n := bits.getD 128
            if n > 128 then none
            else
              let mask := BitVec.allOnes 128 <<< (128 - n)
              some (.v6 (ip.bits &&& mask) mask)

/-! ## Allow rules -/

def hostLoopbackSymbol : Text :=
  ['H', 'O', 'S', 'T', '_', 'L', 'O', 'O', 'P', 'B', 'A', 'C', 'K']

/-- The port of a rule; `none` stands for every port. -/
abbrev Port : Type := Option UInt16

def nameCovers (rule name : Text) : Bool :=
  match rule.dropPrefix? ['*', '.'] with
  | none => rule = name
  | some parent =>
      match name.dropSuffix? parent with
      | none => false
      | some sub => sub.getLast? = some '.' ∧ byteLen sub > 1

inductive Rule
  | host (port : Port)
  | addr (cidr : Cidr) (port : Port)
  | name (name : Text) (port : Port)
  deriving DecidableEq

def Rule.port : Rule → Port
  | .host port => port
  | .addr _ port => port
  | .name _ port => port

def ruleError (entry : Text) (message : String) : String :=
  "allow rule '" ++ String.ofList entry ++ "'" ++ message

/-- A port written in a recipe: `1..=65535`, without a sign. -/
def parsePort (text : Text) : Option UInt16 :=
  let text := trim text
  ((parseUnsigned 65535 text).map UInt16.ofNat).filter fun port =>
    port ≠ 0 ∧ text.head? ≠ some '+'

def parseRulePort (entry text : Text) : Except String UInt16 :=
  match parsePort text with
  | some port => .ok port
  | none =>
      .error (ruleError entry (": '" ++ String.ofList text ++ "' is not a port (1-65535)"))

def splitHostPort (io : AddressText) (entry : Text) : Except String (Text × Port) :=
  match entry.dropPrefix? ['['] with
  | some rest =>
      match rest.dropSuffix? [']'] with
      | some host => .ok (host, none)
      | none =>
          match splitOnce [']', ':'] rest with
          | none => .error (ruleError entry ": unclosed '['")
          | some (host, portText) =>
              (parseRulePort entry portText).map fun port => (host, some port)
  | none =>
      match rsplitOnce ':' entry with
      | none => .ok (entry, none)
      | some (host, portText) =>
          if host ≠ [] ∧ ':' ∉ host then
            (parseRulePort entry portText).map fun port => (host, some port)
          else if (io.parseIpv6 host).isSome ∧ (parsePort portText).isSome then
            .error (ruleError entry
              (": an un-bracketed IPv6 address ending in ':" ++ String.ofList portText ++
                "' could be that address or a ':PORT' suffix - write '[" ++ String.ofList entry ++
                "]' for the address on every port, or '[" ++ String.ofList host ++ "]:" ++
                String.ofList portText ++ "' for port " ++ String.ofList portText))
          else .ok (entry, none)

def classify (io : AddressText) (entry host : Text) (port : Port) : Except String Rule :=
  if eqIgnoreAsciiCase host hostLoopbackSymbol then .ok (.host port)
  else if (io.parseIp (((splitOnce ['/'] host).map Prod.fst).getD host)).isSome then
    match Cidr.parse io host with
    | some cidr => .ok (.addr cidr port)
    | none => .error (ruleError entry ": prefix length is out of range")
  else
    let (wildcard, nameWithoutWildcard) : Text × Text :=
      match host.dropPrefix? ['*', '.'] with
      | some parent => (['*', '.'], parent)
      | none => ([], host)
    if wildcard ≠ [] ∧ (io.parseIp nameWithoutWildcard).isSome then
      .error (ruleError entry ": a wildcard must name a hostname")
    else
      match normalizeHostname nameWithoutWildcard with
      | some normalized => .ok (.name (wildcard ++ normalized) port)
      | none => .error (ruleError entry ": not a name the gateway can match")

def parseAllow (io : AddressText) (entry : Text) : Except String Rule :=
  let entry := trim entry
  let afterWildcard := (entry.dropPrefix? ['*', '.']).getD entry
  if '*' ∈ afterWildcard ∨ afterWildcard = [] then
    .error (ruleError entry
      (": the only wildcard is a leading '*.', which covers the subdomains of what follows - " ++
        "write '*.example.com' for those, or 'example.com' for that name exactly, or both to " ++
        "get both"))
  else
    match splitHostPort io entry with
    | .error e => .error e
    | .ok (host, port) => classify io entry host port

/-! ## Static DNS records -/

structure StaticDnsRecord where
  name : Text
  addr : Text
  deriving DecidableEq

def recordError (record : StaticDnsRecord) (message : String) : String :=
  "hosts record '" ++ String.ofList record.name ++ "'" ++ message

def parseDnsRecord (io : AddressText) (record : StaticDnsRecord) (gatewayAddrs : List IpAddr) :
    Except String (Text × List IpAddr) :=
  if trim record.name = [] then .error "hosts record has an empty 'name'"
  else if '*' ∈ record.name then
    .error (recordError record
      " cannot use '*': it is answered as a DNS record, so it names one host exactly")
  else
    match normalizeHostname record.name with
    | none => .error (recordError record " is not a name the gateway can answer")
    | some key =>
        let addr := trim record.addr
        if eqIgnoreAsciiCase addr hostLoopbackSymbol then .ok (key, gatewayAddrs)
        else
          match io.parseIp addr with
          | some ip => .ok (key, [ip.toCanonical])
          | none =>
              .error (recordError record
                (": '" ++ String.ofList record.addr ++ "' is neither an IP address nor '" ++
                  String.ofList hostLoopbackSymbol ++ "' (the machine terra is running on)"))

end Terrarium.Policy
