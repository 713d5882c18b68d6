import Terrarium.Policy.Runtime

/-!
# Egress — every authorized peer was granted

The recipe says what a guest may reach; DNS answers, which an attacker may choose, say which public
addresses a granted name stands for.  This module traces every authorization back to one of the two.

* `AddressRule`, `HostGrant`, `NameRule` — the grants of a recipe, read off its text;
* `Configured` — a policy holds no rule that its recipe does not grant.
-/

namespace Terrarium.Policy

open Text

lemma max_eq_or (a b : UInt64) : max a b = a ∨ max a b = b := by
  change (if a ≤ b then b else a) = a ∨ (if a ≤ b then b else a) = b
  split
  · exact Or.inr rfl
  · exact Or.inl rfl

/-! ## What a recipe grants -/

section Recipe

variable (io : AddressText) (net : Network) (gw : IpAddr × IpAddr)

/-- An allow rule names `rule`, for `port`. -/
def NameRule (rule : Text) (port : Port) : Prop :=
  ∃ entry ∈ net.allow, parseAllow io entry = .ok (.name rule port)

/-- A `hosts` record publishes `addr` under the name `key`. -/
def Published (key : Text) (addr : IpAddr) : Prop :=
  ∃ record ∈ net.hosts, ∃ addrs, parseDnsRecord io record [gw.1, gw.2] = .ok (key, addrs) ∧
    addr ∈ addrs

/-- The address rules of a recipe: those it writes, and those its name rules expand to. -/
inductive AddressRule : Cidr → Port → Prop where
  | written {entry : Text} {cidr : Cidr} {port : Port} :
      entry ∈ net.allow → parseAllow io entry = .ok (.addr cidr port) → AddressRule cidr port
  | expanded {rule key : Text} {addr : IpAddr} {port : Port} :
      NameRule io net rule port → Published io net gw key addr → nameCovers rule key = true →
        AddressRule (Cidr.ofIp addr) port

/-- The grants for services of the host itself. -/
inductive HostGrant : Port → Prop where
  | written {entry : Text} {port : Port} :
      entry ∈ net.allow → parseAllow io entry = .ok (.host port) → HostGrant port
  | expanded {rule key : Text} {addr : IpAddr} {port : Port} :
      NameRule io net rule port → Published io net gw key addr → nameCovers rule key = true →
        addr ∈ [gw.1, gw.2] → HostGrant port

end Recipe

namespace BoxPolicy

variable {C : Type} {io : AddressText} {net : Network} {gw : IpAddr × IpAddr} {p p' : BoxPolicy C}

/-- A policy that holds exactly the fixed settings of its recipe and no rule that is not in it. -/
structure Configured (io : AddressText) (net : Network) (gw : IpAddr × IpAddr) (p : BoxPolicy C) :
    Prop where
  mode : p.mode = net.mode
  gateway : p.gatewayAddresses = gw
  hostAddresses : p.hostAddresses = net.hostAddresses.map IpAddr.toCanonical
  records : ∀ record ∈ p.staticDns, ∀ addr ∈ record.2, Published io net gw record.1 addr
  addressRules : ∀ rule ∈ p.addressRules, AddressRule io net gw rule.1 rule.2
  nameRules : ∀ rule ∈ p.nameRules, NameRule io net rule.1 rule.2
  hostGrants : ∀ port ∈ p.hostGrants, HostGrant io net gw port

lemma Configured.gateways (hc : Configured io net gw p) : p.gateways = [gw.1, gw.2] := by
  rw [BoxPolicy.gateways, hc.gateway]

/-! ## Construction -/

variable {port : Port} {entry : Text}

lemma Configured.addHostGrant (hc : Configured io net gw p) (hgrant : HostGrant io net gw port) :
    Configured io net gw { p with hostGrants := p.hostGrants ++ [port] } := by
  refine { hc with hostGrants := ?_ }
  exact List.forall_mem_append.2 ⟨hc.hostGrants, List.forall_mem_singleton.2 hgrant⟩

lemma Configured.addAddressRule (hc : Configured io net gw p) {cidr : Cidr}
    (hrule : AddressRule io net gw cidr port) :
    Configured io net gw { p with addressRules := p.addressRules ++ [(cidr, port)] } := by
  refine { hc with addressRules := ?_ }
  exact List.forall_mem_append.2 ⟨hc.addressRules, List.forall_mem_singleton.2 hrule⟩

lemma addDnsRecord_ok {record : StaticDnsRecord} (h : addDnsRecord io p record = .ok p') :
    ∃ key addrs, parseDnsRecord io record p.gateways = .ok (key, addrs) ∧
      p' = { p with staticDns := p.staticDns ++ [(key, addrs)] } := by
  rw [addDnsRecord] at h
  split at h
  · cases h
  next key addrs hparse =>
    split at h
    · cases h
    · cases h
      exact ⟨key, addrs, hparse, rfl⟩

lemma Configured.addDnsRecord (hc : Configured io net gw p) {record : StaticDnsRecord}
    (hrecord : record ∈ net.hosts) (h : addDnsRecord io p record = .ok p') :
    Configured io net gw p' := by
  obtain ⟨key, addrs, hparse, rfl⟩ := addDnsRecord_ok h
  refine { hc with records := ?_ }
  refine List.forall_mem_append.2 ⟨hc.records, List.forall_mem_singleton.2 fun addr haddr => ?_⟩
  rw [hc.gateways] at hparse
  exact ⟨record, hrecord, addrs, hparse, haddr⟩

lemma Configured.resolvedBy (hc : Configured io net gw p) {name : Text} {addr : IpAddr}
    (h : addr ∈ p.resolvedBy name) : ∃ key, Published io net gw key addr ∧
    nameCovers name key = true := by
  obtain ⟨record, hrecord, haddr⟩ := List.mem_flatMap.1 h
  obtain ⟨hmem, hcovers⟩ := List.mem_filter.1 hrecord
  exact ⟨record.1, hc.records record hmem addr haddr, hcovers⟩

lemma Configured.expand (hc : Configured io net gw p) {rule key : Text}
    {addr : IpAddr} (hrule : NameRule io net rule port) (hpub : Published io net gw key addr)
    (hcovers : nameCovers rule key = true) : Configured io net gw (expand port p addr) := by
  rw [BoxPolicy.expand]
  split
  next hgateway =>
    rw [hc.gateways] at hgateway
    exact hc.addHostGrant (HostGrant.expanded hrule hpub hcovers hgateway)
  · exact hc.addAddressRule (AddressRule.expanded hrule hpub hcovers)

/-- What adding an allow rule does when it succeeds. -/
inductive RuleAdded (io : AddressText) (p : BoxPolicy C) (entry : Text) : BoxPolicy C → Prop where
  | host {port : Port} :
      parseAllow io entry = .ok (.host port) →
        RuleAdded io p entry { p with hostGrants := p.hostGrants ++ [port] }
  | addr {cidr : Cidr} {port : Port} :
      parseAllow io entry = .ok (.addr cidr port) →
        RuleAdded io p entry { p with addressRules := p.addressRules ++ [(cidr, port)] }
  | name {name : Text} {port : Port} {q : BoxPolicy C} :
      parseAllow io entry = .ok (.name name port) →
        q = (p.resolvedBy name).foldl (BoxPolicy.expand port) p →
          RuleAdded io p entry { q with nameRules := q.nameRules ++ [(name, port)] }

lemma addAllowRule_ok (h : addAllowRule io p entry = .ok p') : RuleAdded io p entry p' := by
  rw [addAllowRule] at h
  split at h
  · cases h
  next rule hparse =>
    split at h
    · cases h
    cases rule with
    | host port =>
      cases h
      exact RuleAdded.host hparse
    | addr cidr port =>
      dsimp only at h
      split at h
      · cases h
      · cases h
        exact RuleAdded.addr hparse
    | name name port =>
      dsimp only at h
      split at h
      · cases h
      · cases h
        exact RuleAdded.name hparse rfl

lemma Configured.ruleAdded (hc : Configured io net gw p)
    (hentry : entry ∈ net.allow) (h : RuleAdded io p entry p') : Configured io net gw p' := by
  cases h with
  | host hparse => exact hc.addHostGrant (HostGrant.written hentry hparse)
  | addr hparse => exact hc.addAddressRule (AddressRule.written hentry hparse)
  | @name name port q hparse hq =>
    have hrule : NameRule io net name port := ⟨entry, hentry, hparse⟩
    -- The records were read off `p`; the loop only adds to the rules built so far.
    have hexpanded : Configured io net gw q := by
      rw [hq]
      refine List.foldlRecOn _ _ hc ?_
      intro m hm addr haddr
      obtain ⟨key, hpub, hcovers⟩ := hc.resolvedBy haddr
      exact hm.expand hrule hpub hcovers
    refine { hexpanded with nameRules := ?_ }
    exact List.forall_mem_append.2 ⟨hexpanded.nameRules, List.forall_mem_singleton.2 hrule⟩

lemma expand_frame (port : Port) (addr : IpAddr) : (expand port p addr).staticDns = p.staticDns ∧
      (expand port p addr).learnedDns = p.learnedDns := by
  rw [BoxPolicy.expand]
  split
  · exact ⟨rfl, rfl⟩
  · exact ⟨rfl, rfl⟩

lemma RuleAdded.frame (h : RuleAdded io p entry p') :
    p'.staticDns = p.staticDns ∧ p'.learnedDns = p.learnedDns := by
  cases h with
  | host | addr => exact ⟨rfl, rfl⟩
  | @name name port q _ hq =>
    change q.staticDns = p.staticDns ∧ q.learnedDns = p.learnedDns
    rw [hq]
    refine List.foldlRecOn (motive := fun m : BoxPolicy C =>
      m.staticDns = p.staticDns ∧ m.learnedDns = p.learnedDns) _ _ ⟨rfl, rfl⟩ ?_
    intro m hm addr _
    obtain ⟨hstatic, hlearned⟩ := expand_frame (p := m) port addr
    exact ⟨hstatic.trans hm.1, hlearned.trans hm.2⟩

lemma addEntry_ok (h : addEntry io p entry = .ok p') : RuleAdded io p entry p' := by
  rw [addEntry] at h
  split at h
  · cases h
  next q hadd =>
    split at h
    · cases h
    · cases h
      exact addAllowRule_ok hadd

lemma not_mem_hostAddresses {ip : IpAddr} (h : p.isHostAddress ip = false) :
    ip ∉ p.hostAddresses := by
  rw [isHostAddress, decide_eq_false_iff_not, not_or] at h
  exact h.1

lemma Configured.of_rules (hc : Configured io net gw p) {learned : C} :
    Configured io net gw { p with learnedDns := learned } := { hc with }

/-- In the history `es`, `ip` was an accepted answer at `since` for a name that the recipe grants
for `grant`. -/
def Taught (io : AddressText) (net : Network) (es : List (PolicyEvent C)) (ip : IpAddr)
    (grant : Port) (since : UInt64) : Prop :=
  ∃ ev ∈ es, ∃ name addresses accepted normalized rule,
    ev.op = .acceptResolved since name addresses ∧ ev.out = .accepted accepted ∧ ip ∈ accepted ∧
      normalizeHostname name = some normalized ∧ NameRule io net rule grant ∧
        nameCovers rule normalized = true

lemma Taught.append {es : List (PolicyEvent C)} {ip : IpAddr} {grant : Port} {since : UInt64}
    (h : Taught io net es ip grant since) (ev : PolicyEvent C) :
    Taught io net (es ++ [ev]) ip grant since := by
  obtain ⟨ev', hev, hrest⟩ := h
  exact ⟨ev', List.mem_append_left _ hev, hrest⟩

section Cached

variable [Cache C LearnedKey UInt64] {learned : C} {op : Op} {out : Outcome} {port : Port}
    {entry : Text}

lemma configured_initial : Configured io net gw (initial net gw : BoxPolicy C) where
  mode := rfl
  gateway := rfl
  hostAddresses := rfl
  records := by
    intro record hrecord
    cases hrecord
  addressRules := by
    intro rule hrule
    cases hrule
  nameRules := by
    intro rule hrule
    cases hrule
  hostGrants := by
    intro port hport
    cases hport

lemma withClock_ok (h : withClock io net gw = .ok p) :
    ∃ q : BoxPolicy C, net.hosts.foldlM (addDnsRecord io) (initial net gw) = .ok q ∧
      net.allow.foldlM (addEntry io) q = .ok p := by
  rw [withClock] at h
  split at h
  · cases h
  · split at h
    · cases h
    next q hq => exact ⟨q, hq, h⟩

lemma withClock_configured (h : withClock io net gw = .ok p) : Configured io net gw p := by
  obtain ⟨q, hhosts, hallow⟩ := withClock_ok h
  have hq : Configured io net gw q := Run.foldlM_invariant configured_initial
    (fun record hrecord s t hs hstep => hs.addDnsRecord hrecord hstep) hhosts
  exact Run.foldlM_invariant hq
    (fun entry hentry s t hs hstep => hs.ruleAdded hentry (addEntry_ok hstep)) hallow

lemma withClock_staticDns (h : withClock io net gw = .ok p) (hhosts : net.hosts ≠ []) :
    p.staticDns ≠ [] := by
  obtain ⟨q, hrecords, hallow⟩ := withClock_ok h
  have hgrow : ∀ (record : StaticDnsRecord) (s t : BoxPolicy C), addDnsRecord io s record = .ok t →
      t.staticDns ≠ [] := by
    intro record s t hstep
    obtain ⟨key, addrs, -, rfl⟩ := addDnsRecord_ok hstep
    simp
  have hq : q.staticDns ≠ [] := by
    cases hlist : net.hosts with
    | nil => exact absurd hlist hhosts
    | cons record rest =>
      rw [hlist, List.foldlM_cons] at hrecords
      obtain ⟨m, hfirst, hrecords⟩ := Fallible.bind_eq_ok.1 hrecords
      exact Run.foldlM_invariant (P := fun s : BoxPolicy C => s.staticDns ≠ [])
        (hgrow record _ m hfirst) (fun record _ s t _ hstep => hgrow record s t hstep) hrecords
  exact Run.foldlM_invariant (P := fun s : BoxPolicy C => s.staticDns ≠ []) hq
    (fun entry _ s t hs hstep => (addEntry_ok hstep).frame.1 ▸ hs) hallow

lemma withClock_learnedDns (h : withClock io net gw = .ok p) :
    p.learnedDns = Cache.new learnedAddressesCapacity := by
  obtain ⟨q, hrecords, hallow⟩ := withClock_ok h
  have hq : q.learnedDns = Cache.new learnedAddressesCapacity := by
    refine Run.foldlM_invariant
      (P := fun s : BoxPolicy C => s.learnedDns = Cache.new learnedAddressesCapacity)
        rfl ?_ hrecords
    intro record _ s t hs hstep
    obtain ⟨key, addrs, -, rfl⟩ := addDnsRecord_ok hstep
    exact hs
  refine Run.foldlM_invariant
    (P := fun s : BoxPolicy C => s.learnedDns = Cache.new learnedAddressesCapacity) hq ?_ hallow
  intro entry _ s t hs hstep
  exact (addEntry_ok hstep).frame.2.trans hs

/-! ## Learning -/

variable {v now t : UInt64} {key k : LearnedKey} {es : List (PolicyEvent C)}

lemma peek_learn {expiresAt : UInt64} (h : Cache.peek (learn expiresAt learned key) k = some v) :
    Cache.peek learned k = some v ∨ k = key ∧ v = expiresAt := by
  rw [learn] at h
  split at h
  · rcases Cache.peek_modify h with hold | ⟨hkey, u, hu, hv⟩
    · exact Or.inl hold
    · -- Extending a grant keeps the later of the two expiry times.
      rcases max_eq_or u expiresAt with hmax | hmax
      · left
        rw [hkey, hu, hv, hmax]
      · exact Or.inr ⟨hkey, hv.trans hmax⟩
  · exact Cache.peek_put h

lemma peek_learn_all {expiresAt : UInt64} {keys : List LearnedKey}
    (h : Cache.peek (keys.foldl (learn expiresAt) learned) k = some v) :
    Cache.peek learned k = some v ∨ k ∈ keys ∧ v = expiresAt := by
  induction keys generalizing learned with
  | nil => exact Or.inl h
  | cons key keys ih =>
    rcases ih h with hfirst | ⟨hmem, hv⟩
    · rcases peek_learn hfirst with hold | ⟨hkey, hv⟩
      · exact Or.inl hold
      · exact Or.inr ⟨hkey ▸ List.mem_cons_self, hv⟩
    · exact Or.inr ⟨List.mem_cons_of_mem key hmem, hv⟩

/-- What a call does to a policy: the rules stay, and every learned grant was there before or was
just accepted as an answer for a name that a rule covers. -/
structure Effect (p : BoxPolicy C) (op : Op) (out : Outcome) (p' : BoxPolicy C) : Prop where
  rules : p' = { p with learnedDns := p'.learnedDns }
  learned : ∀ ip grant v, Cache.peek p'.learnedDns (ip, grant) = some v →
    Cache.peek p.learnedDns (ip, grant) = some v ∨
      ∃ now name addresses accepted normalized, op = .acceptResolved now name addresses ∧
        out = .accepted accepted ∧ ip ∈ accepted ∧ normalizeHostname name = some normalized ∧
          grant ∈ p.grantsFor normalized ∧ v = saturatingAdd now learnedDnsTtl

lemma Effect.refl : Effect p op out p := ⟨rfl, fun _ _ _ h => Or.inl h⟩

lemma acceptResolved_effect (p : BoxPolicy C) (now : UInt64) (name : Text)
    (addresses : List IpAddr) :
    Effect p (.acceptResolved now name addresses)
      (.accepted (p.acceptResolved now name addresses).1)
      (p.acceptResolved now name addresses).2 := by
  generalize hresult : p.acceptResolved now name addresses = result
  rw [acceptResolved] at hresult
  split at hresult
  · subst hresult
    exact Effect.refl
  next normalized hname =>
    dsimp only at hresult
    split at hresult
    · subst hresult
      exact Effect.refl
    · split at hresult
      · subst hresult
        exact Effect.refl
      · subst hresult
        -- Only the allowlist mode learns: every accepted address, for every port of the name.
        refine ⟨rfl, fun ip grant v h => ?_⟩
        rcases peek_learn_all h with hold | ⟨hkey, hv⟩
        · exact Or.inl hold
        · obtain ⟨ip', hip, hpair⟩ := List.mem_flatMap.1 hkey
          obtain ⟨grant', hgrant, heq⟩ := List.mem_map.1 hpair
          cases heq
          exact Or.inr ⟨now, name, addresses, _, normalized, rfl, rfl, hip, hname, hgrant, hv⟩

/-! ## Deciding -/

lemma liveGrant_some (h : (liveGrant now learned key).1 = some t) :
    Cache.peek learned key = some t ∧ now < t := by
  rw [liveGrant, Cache.get_fst] at h
  split at h
  next expiresAt hfound =>
    split at h
    next hlive =>
      cases h
      exact ⟨hfound, hlive⟩
    · cases h
  · cases h

lemma peek_liveGrant (h : Cache.peek (liveGrant now learned key).2 k = some v) :
    Cache.peek learned k = some v := by
  have hpop : ∀ {v}, Cache.peek (Cache.pop (Cache.get learned key).2 key) k = some v →
      Cache.peek learned k = some v := by
    intro v hv
    have hget := Cache.peek_pop hv
    rwa [Cache.peek_get] at hget
  rw [liveGrant] at h
  split at h
  · split at h
    · rwa [Cache.peek_get] at h
    · exact hpop h
  · exact hpop h

lemma latest_eq_some {a b : Option UInt64} (h : latest a b = some t) : a = some t ∨ b = some t := by
  cases a with
  | none => exact Or.inr h
  | some x =>
    cases b with
    | none => exact Or.inl h
    | some y =>
      rcases max_eq_or x y with hmax | hmax
      · exact Or.inl ((congrArg some hmax).symm.trans h)
      · exact Or.inr ((congrArg some hmax).symm.trans h)

lemma allowedUntil_effect (now : UInt64) (ip : IpAddr) (port : Port) :
    Effect p op out (p.allowedUntil now ip port).2 := by
  rw [allowedUntil]
  dsimp only
  split
  · exact Effect.refl
  split
  · exact Effect.refl
  split
  · exact Effect.refl
  split
  · exact Effect.refl
  · exact ⟨rfl, fun _ _ _ h => Or.inl (peek_liveGrant (peek_liveGrant h))⟩

lemma authorizedUntil_effect (now : UInt64) (peer : SocketAddr) :
    Effect p op out (p.authorizedUntil now peer).2 := by
  rw [authorizedUntil]
  split
  · exact Effect.refl
  split
  · exact Effect.refl
  · exact allowedUntil_effect now peer.ip (some peer.port)

lemma step_effect (hstep : p.step op = some (out, p')) : Effect p op out p' := by
  cases op with
  | acceptResolved now name addresses =>
    cases hstep
    exact acceptResolved_effect p now name addresses
  | authorizedUntil now peer =>
    cases hstep
    exact authorizedUntil_effect now peer
  | allows now ip port =>
    cases hstep
    exact allowedUntil_effect now ip port

lemma allowedUntil_some {ip : IpAddr} (h : (p.allowedUntil now ip port).1 = some t) :
    ip.toCanonical ∉ p.gateways ∧
      (p.addressRuleCovers ip.toCanonical port = true ∨
        (p.isHostAddress ip.toCanonical = false ∧ isFloored ip.toCanonical = false) ∧
        (p.mode = .unrestrictedPublic ∨
            ∃ grant, (grant = none ∨ grant = port) ∧
              Cache.peek p.learnedDns (ip.toCanonical, grant) = some t ∧ now < t)) := by
  rw [allowedUntil] at h
  dsimp only at h
  split at h
  · cases h
  rename_i hgateway
  refine ⟨hgateway, ?_⟩
  split at h
  next hrule => exact Or.inl hrule
  split at h
  · cases h
  rename_i hblocked
  rw [not_or, Bool.not_eq_true, Bool.not_eq_true] at hblocked
  refine Or.inr ⟨hblocked, ?_⟩
  split at h
  next hmode => exact Or.inl hmode
  · -- The grant for every port is looked up first, then the one for this port.
    rcases latest_eq_some h with hevery | hone
    · exact Or.inr ⟨none, Or.inl rfl, liveGrant_some hevery⟩
    · obtain ⟨hpeek, hlive⟩ := liveGrant_some hone
      exact Or.inr ⟨port, Or.inr rfl, peek_liveGrant hpeek, hlive⟩

lemma authorizedUntil_some {peer : SocketAddr} (h : (p.authorizedUntil now peer).1 = some t) :
    ¬ (peer.port = 53 ∧ p.blocksDirectDns = true) ∧ (p.hostGrantCovers peer = true ∨
        (p.allowedUntil now peer.ip (some peer.port)).1 = some t) := by
  rw [authorizedUntil] at h
  split at h
  · cases h
  rename_i hdns
  refine ⟨hdns, ?_⟩
  split at h
  next hgrant => exact Or.inl hgrant
  · exact Or.inr h

/-! ## Histories -/

structure History (io : AddressText) (net : Network) (gw : IpAddr × IpAddr)
    (es : List (PolicyEvent C)) (p : BoxPolicy C) : Prop where
  configured : Configured io net gw p
  learned : ∀ ip grant v, Cache.peek p.learnedDns (ip, grant) = some v →
    ∃ since, Taught io net es ip grant since ∧ v = saturatingAdd since learnedDnsTtl

lemma History.snoc (hh : History io net gw es p) (he : Effect p op out p') :
    History io net gw (es ++ [⟨p, op, out, p'⟩]) p' := by
  refine ⟨?_, ?_⟩
  · rw [he.rules]
    exact hh.configured.of_rules
  · intro ip grant v hv
    rcases he.learned ip grant v hv with
      hold | ⟨now, name, addresses, accepted, normalized, hop, hout, hip, hname, hgrant, hexp⟩
    · obtain ⟨since, htaught, heq⟩ := hh.learned ip grant v hold
      exact ⟨since, htaught.append _, heq⟩
    · obtain ⟨rule, hrule, hport⟩ := List.mem_map.1 hgrant
      obtain ⟨hmem, hcovers⟩ := List.mem_filter.1 hrule
      refine ⟨now, ⟨⟨p, op, out, p'⟩, List.mem_append_right _ (List.mem_singleton.2 rfl), name,
        addresses, accepted, normalized, rule.1, hop, hout, hip, hname, ?_, hcovers⟩, hexp⟩
      rw [← hport]
      exact hh.configured.nameRules rule hmem

lemma history_run {p₀ : BoxPolicy C} (hnew : withClock io net gw = .ok p₀)
    (hrun : PolicyRun p₀ es p) : History io net gw es p := by
  induction hrun with
  | nil =>
    refine ⟨withClock_configured hnew, ?_⟩
    intro ip grant v hv
    rw [withClock_learnedDns hnew, Cache.peek_new] at hv
    cases hv
  | snoc _ hstep ih => exact ih.snoc (step_effect hstep)

lemma rules_run (hrun : PolicyRun p es p') : p' = { p with learnedDns := p'.learnedDns } := by
  induction hrun with
  | nil => rfl
  | snoc _ hstep ih => rw [(step_effect hstep).rules, ih]

lemma lt_of_lt_saturatingAdd {since : UInt64} (h : now < saturatingAdd since learnedDnsTtl) :
    now.toNat < since.toNat + learnedDnsTtl.toNat := by
  rw [saturatingAdd, UInt64.lt_iff_toNat_lt] at h
  split at h
  next hfits => rwa [UInt64.toNat_add, Nat.mod_eq_of_lt hfits] at h
  · -- A clock this late saturates, which only shortens the time the grant is good for.
    rename_i hfull
    have hmax : (UInt64.ofNat (2 ^ 64 - 1)).toNat = 2 ^ 64 - 1 := by decide
    omega

/-! ## Soundness -/

/-- The reasons for which `peer` may be authorized at `now`, after the history `es`. -/
inductive Justified (io : AddressText) (net : Network) (gw : IpAddr × IpAddr)
    (es : List (PolicyEvent C)) (now : UInt64) (peer : SocketAddr) : Prop where
  | hostService {grant : Port} :
      isHostLoopback peer.ip = true → HostGrant io net gw grant →
        (grant = none ∨ grant = some peer.port) → Justified io net gw es now peer
  | addressRule {cidr : Cidr} {grant : Port} :
      peer.ip.toCanonical ∉ [gw.1, gw.2] → AddressRule io net gw cidr grant →
        cidr.contains peer.ip.toCanonical = true → (grant = none ∨ grant = some peer.port) →
          Justified io net gw es now peer
  | publicAddress :
      peer.ip.toCanonical ∉ [gw.1, gw.2] →
        peer.ip.toCanonical ∉ net.hostAddresses.map IpAddr.toCanonical →
        isFloored peer.ip.toCanonical = false → net.mode = .unrestrictedPublic →
          Justified io net gw es now peer
  | learnedAddress {grant : Port} {since : UInt64} :
      peer.ip.toCanonical ∉ [gw.1, gw.2] →
        peer.ip.toCanonical ∉ net.hostAddresses.map IpAddr.toCanonical →
        isFloored peer.ip.toCanonical = false → (grant = none ∨ grant = some peer.port) →
          Taught io net es peer.ip.toCanonical grant since → since ≤ now →
            now.toNat < since.toNat + learnedDnsTtl.toNat → Justified io net gw es now peer

/-- Whenever a peer is authorized, it is not a name server while the gateway answers names, and the
recipe or an answer accepted within the last minute for a granted name is the reason. -/
theorem egress_sound {p₀ : BoxPolicy C} {es : List (PolicyEvent C)} {now t : UInt64}
    {peer : SocketAddr} (hnew : withClock io net gw = .ok p₀) (hrun : PolicyRun p₀ es p)
    (hclock : (es.map (fun ev => ev.op.now) ++ [now]).Pairwise (· ≤ ·))
    (hauth : (p.authorizedUntil now peer).1 = some t) :
    ((net.mode = .allowlist ∨ net.hosts ≠ []) → peer.port ≠ 53) ∧
      Justified io net gw es now peer := by
  have hh := history_run hnew hrun
  have hc := hh.configured
  obtain ⟨hdns, hwhy⟩ := authorizedUntil_some hauth
  refine ⟨?_, ?_⟩
  · intro hanswers hport
    refine hdns ⟨hport, ?_⟩
    rw [blocksDirectDns, decide_eq_true_eq, hc.mode]
    rcases hanswers with hmode | hhosts
    · exact Or.inl hmode
    · right
      have hstatic : p.staticDns = p₀.staticDns := by rw [rules_run hrun]
      rw [hstatic]
      exact withClock_staticDns hnew hhosts
  · rcases hwhy with hgrant | hallowed
    · rw [hostGrantCovers, decide_eq_true_eq] at hgrant
      obtain ⟨hloopback, hany⟩ := hgrant
      obtain ⟨grant, hmem, hport⟩ := List.any_eq_true.1 hany
      refine Justified.hostService hloopback (hc.hostGrants grant hmem) ?_
      cases grant with
      | none => exact Or.inl rfl
      | some port =>
        right
        simpa using hport
    · obtain ⟨hgateway, hcase⟩ := allowedUntil_some hallowed
      rw [hc.gateways] at hgateway
      rcases hcase with hrule | ⟨⟨hblocked, hfloor⟩, hreason⟩
      · obtain ⟨rule, hmem, hcovers⟩ := List.any_eq_true.1 hrule
        rw [decide_eq_true_eq] at hcovers
        exact Justified.addressRule hgateway (hc.addressRules rule hmem) hcovers.1 hcovers.2
      · have hhost : peer.ip.toCanonical ∉ net.hostAddresses.map IpAddr.toCanonical := by
          rw [← hc.hostAddresses]
          exact not_mem_hostAddresses hblocked
        rcases hreason with hmode | ⟨grant, hport, hpeek, hlive⟩
        · exact Justified.publicAddress hgateway hhost hfloor (hc.mode ▸ hmode)
        · obtain ⟨since, htaught, hexpires⟩ := hh.learned _ _ _ hpeek
          -- The answer was accepted no later than now, because the clock never goes back.
          have hsince : since ≤ now := by
            obtain ⟨ev, hev, _, _, _, _, _, hop, -⟩ := htaught
            have htimes := (List.pairwise_append.1 hclock).2.2 ev.op.now
              (List.mem_map.2 ⟨ev, hev, rfl⟩) now (List.mem_singleton.2 rfl)
            rwa [hop] at htimes
          exact Justified.learnedAddress hgateway hhost hfloor hport htaught hsince
            (lt_of_lt_saturatingAdd (hexpires ▸ hlive))

end Cached

def noAddresses : AddressText where
  parseIpv4 _ := none
  parseIpv6 _ := none
  display _ := ""

def oneName : Network :=
  { mode := .allowlist
    allow := [['a', '.', 'b', ':', '4', '4', '3']]
    hosts := []
    hostAddresses := [] }

def someGateways : IpAddr × IpAddr :=
  (.v4 ⟨100, 96, 0, 1⟩, .v6 ⟨0xfd53, 0x4d00, 0, 0, 0, 0, 0, 1⟩)

def onePolicy : BoxPolicy (LruList LearnedKey UInt64) :=
  { initial oneName someGateways with nameRules := [(['a', '.', 'b'], some 443)] }

def answers : List Op :=
  [ .acceptResolved 5 ['A', '.', 'b', '.'] [.v4 ⟨1, 1, 1, 1⟩, .v4 ⟨10, 0, 0, 5⟩],
    .acceptResolved 6 ['c', '.', 'd'] [.v4 ⟨9, 9, 9, 9⟩] ]

theorem egress_sound_learned :
    ∃ es p, PolicyRun onePolicy es p ∧ withClock noAddresses oneName someGateways = .ok onePolicy ∧
      (p.authorizedUntil 7 (.v4 ⟨1, 1, 1, 1⟩ 443)).1 = some 60000000005 ∧
        Justified noAddresses oneName someGateways es 7 (.v4 ⟨1, 1, 1, 1⟩ 443) := by
  have hnew : withClock noAddresses oneName someGateways = .ok onePolicy := by rfl
  have hrun := Run.exec_run step onePolicy answers (by decide)
  have hauth : (((Run.exec step onePolicy answers).get (by decide)).2.authorizedUntil 7
      (.v4 ⟨1, 1, 1, 1⟩ 443)).1 = some 60000000005 := by
    decide
  exact ⟨_, _, hrun, hnew, hauth, (egress_sound hnew hrun (by decide) hauth).2⟩

end BoxPolicy
end Terrarium.Policy
