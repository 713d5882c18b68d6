import Terrarium.Vsock.SwitchInvariant

/-!
# Publication — admission of published connections

`connect_publication` of `components/vsock-frontend/src/network/publish.rs`: it asks the switch for
a connection from one host port after another, as the cursor `NEXT_HOST_PORT` goes round the port
range.  There are more attempts than the switch has flows, and each is at another port, so one of
them finds a port that is free.
-/

namespace Terrarium.Vsock

namespace Frontend

abbrev maxHostPortAttempts : Nat := maxNetworkSockets + 1
/-- The first of `PUBLICATION_HOST_PORTS`, and how many there are. -/
abbrev publicationStart : UInt32 := 0x00100000
abbrev publicationSpan : UInt32 := 0x00100000

def nextHostPort (hostPort : UInt32) : UInt32 :=
  publicationStart + (hostPort - publicationStart + 1) % publicationSpan

/-- The connection if there is one, the switch and the cursor; no result when the process aborts. -/
abbrev Admission : Type := Option (Option ConnectionId × VsockSwitch × UInt32)

/-- The loop over the attempts that are left, with the cursor. -/
def tryHostPorts : (attempts : Nat) → VsockSwitch → UInt32 → Admission
  | 0, s, hostPort => some (none, s, hostPort)
  | attempts + 1, s, hostPort =>
    match VsockSwitch.numbered (s.connectPublication hostPort) with
    | none => none
    | some (.ok connection, s') => some (some connection, s', nextHostPort hostPort)
    | some (.error .busy, s') => tryHostPorts attempts s' (nextHostPort hostPort)
    | some (.error .backpressure, s') | some (.error .unknownConnection, s') =>
        some (none, s', nextHostPort hostPort)

def connectPublication (s : VsockSwitch) (hostPort : UInt32) : Admission :=
  tryHostPorts maxHostPortAttempts s hostPort

/-! ## The cursor -/

variable {p : UInt32}

lemma publicationHostPorts_iff :
    publicationHostPorts p = true ↔ 0x00100000 ≤ p.toNat ∧ p.toNat < 0x00200000 := by
  simp [publicationHostPorts, UInt32.le_iff_toNat_le, UInt32.lt_iff_toNat_lt]

lemma toNat_nextHostPort (hp : publicationHostPorts p = true) :
    (nextHostPort p).toNat = 0x00100000 + (p.toNat - 0x00100000 + 1) % 0x00100000 := by
  rw [publicationHostPorts_iff] at hp
  have hsub : (p - publicationStart).toNat = p.toNat - 0x00100000 :=
    UInt32.toNat_sub_of_le _ _ (UInt32.le_iff_toNat_le.2 hp.1)
  have hmod : (p - publicationStart + 1).toNat % 0x00100000 < 0x00100000 := Nat.mod_lt _ (by decide)
  simp only [nextHostPort, UInt32.toNat_add, UInt32.toNat_mod, hsub, UInt32.reduceToNat] at hmod ⊢
  change (0x00100000 + (p.toNat - 0x00100000 + 1) % 2 ^ 32 % 0x00100000) % 2 ^ 32 = _
  omega

lemma toNat_iterate (hp : publicationHostPorts p = true) (n : Nat) :
    (nextHostPort^[n] p).toNat = 0x00100000 + (p.toNat - 0x00100000 + n) % 0x00100000 := by
  have hrange := publicationHostPorts_iff.1 hp
  induction n with
  | zero =>
    rw [Function.iterate_zero_apply]
    omega
  | succ n ih =>
    have hn : publicationHostPorts (nextHostPort^[n] p) = true := by
      rw [publicationHostPorts_iff, ih]
      omega
    rw [Function.iterate_succ_apply', toNat_nextHostPort hn, ih]
    omega

lemma publicationHostPorts_iterate (hp : publicationHostPorts p = true) (n : Nat) :
    publicationHostPorts (nextHostPort^[n] p) = true := by
  rw [publicationHostPorts_iff, toNat_iterate hp]
  omega

/-! ## The attempts -/

variable {s : VsockSwitch}

abbrev publicationTuple (hostPort : UInt32) : Tuple := ⟨publicationPort, hostPort⟩

lemma length_le_of_busy {ports : List UInt32} (hi : s.Invariant) (hnodup : ports.Nodup)
    (hports : ∀ p ∈ ports, s.endpointIndex (publicationTuple p) ≠ none) :
    ports.length ≤ s.networkSocketCount := by
  obtain ⟨flows, hflows⟩ := hi.tuples.fixed
  have hsubset : ports.map publicationTuple ⊆ flows := by
    intro t ht
    obtain ⟨p, hp, rfl⟩ := List.mem_map.1 ht
    obtain ⟨⟨i, e⟩, hfound⟩ := Option.ne_none_iff_exists'.1 (hports p hp)
    have hmem : publicationTuple p ∈ s.tuples := by
      rw [← VsockSwitch.tuple_of_endpointIndex hfound]
      exact List.mem_map_of_mem
        (KeyedList.mem_of_lookup (VsockSwitch.view_of_endpointIndex hfound)).1
    rw [hflows, List.mem_cons, List.mem_cons] at hmem
    -- neither fixed endpoint has the guest port of publications
    rcases hmem with hfixed | hfixed | hflow
    · exact absurd (congrArg Tuple.guestPort hfixed) (show publicationPort ≠ agentPort by decide)
    · exact absurd (congrArg Tuple.guestPort hfixed) (show publicationPort ≠ controlPort by decide)
    · exact hflow
  have hinjective : Function.Injective publicationTuple := fun p q h => congrArg Tuple.hostPort h
  have hle := (List.subperm_of_subset (hnodup.map hinjective) hsubset).length_le
  have hlength : s.endpoints.length = flows.length + 2 := by
    simpa [VsockSwitch.tuples] using congrArg List.length hflows
  rw [List.length_map] at hle
  rw [VsockSwitch.networkSocketCount, hlength]
  exact hle

/-- The connection of a new publication, and the switch with its endpoint. -/
def admitted (s : VsockSwitch) (hostPort : UInt32) : ConnectionId × VsockSwitch :=
  (⟨.publication, publicationPort, hostPort, s.nextConnectionNumber⟩,
    { s with
      nextConnectionNumber := s.nextConnectionNumber + 1
      endpoints := s.endpoints ++ [Endpoint.published hostPort s.nextConnectionNumber] })

lemma connectPublication_of_room (hnet : s.networkEnabled = true)
    (hroom : s.networkSocketCount < s.networkSocketCapacity) (hp : publicationHostPorts p = true) :
    s.connectPublication p = if (s.endpointIndex (publicationTuple p)).isSome then (.error .busy, s)
      else (.ok (admitted s p).1, (admitted s p).2) := by
  have hadmit : ¬ (¬ s.networkEnabled = true ∨ ¬ publicationHostPorts p = true ∨
      s.networkSocketCount ≥ s.networkSocketCapacity) := by
    simp [hnet, hp, hroom]
  rw [VsockSwitch.connectPublication, if_neg hadmit]
  -- a fresh stream always has room for its request
  rfl

lemma numbered_eq {ρ : Type} {r : ρ × VsockSwitch} (h : r.2.nextConnectionNumber < 2 ^ 64) :
    VsockSwitch.numbered r = some r :=
  if_pos h

lemma numbered_ok (r : ConnectionId × VsockSwitch) :
    VsockSwitch.numbered ((.ok r.1, r.2) : Except VsockError ConnectionId × VsockSwitch) =
      (VsockSwitch.numbered r).map fun r => (.ok r.1, r.2) := by
  unfold VsockSwitch.numbered
  split <;> rfl

/-- With room in the switch, the attempts end at the first port that is free. -/
lemma tryHostPorts_of_room (hnet : s.networkEnabled = true)
    (hroom : s.networkSocketCount < s.networkSocketCapacity)
    (hnumber : s.nextConnectionNumber < 2 ^ 64) (n : Nat) (hp : publicationHostPorts p = true) :
    (∀ i < n, s.endpointIndex (publicationTuple (nextHostPort^[i] p)) ≠ none) ∨
      ∃ i, s.endpointIndex (publicationTuple (nextHostPort^[i] p)) = none ∧
        tryHostPorts n s p = (VsockSwitch.numbered (admitted s (nextHostPort^[i] p))).map
          fun r => (some r.1, r.2, nextHostPort^[i + 1] p) := by
  induction n generalizing p with
  | zero => exact Or.inl nofun
  | succ n ih =>
    rw [tryHostPorts, connectPublication_of_room hnet hroom hp]
    cases hfound : s.endpointIndex (publicationTuple p) with
    | none =>
      refine Or.inr ⟨0, hfound, ?_⟩
      simp only [Option.isSome_none, Bool.false_eq_true, if_false, numbered_ok,
        Function.iterate_zero_apply]
      cases VsockSwitch.numbered (admitted s p) <;> rfl
    | some found =>
      have hbusy : VsockSwitch.numbered
          ((.error .busy, s) : Except VsockError ConnectionId × VsockSwitch) =
          some (.error .busy, s) :=
        numbered_eq hnumber
      simp only [Option.isSome_some, if_true, hbusy]
      rcases ih (publicationHostPorts_iterate hp 1) with hbusy | ⟨i, hfree, heq⟩
      · left
        intro i hi
        cases i with
        | zero => exact hfound ▸ nofun
        | succ i => exact hbusy i (Nat.lt_of_succ_lt_succ hi)
      · exact Or.inr ⟨i + 1, hfree, heq⟩

lemma nextConnectionNumber_run {enabled : Bool} {n : Nat} {es : List SwitchEvent}
    (hrun : SwitchRun (.withNetworkSocketCapacity enabled n) es s) :
    s.nextConnectionNumber < 2 ^ 64 := by
  refine hrun.invariant
    (P := fun s => s.nextConnectionNumber < 2 ^ 64) ?_ (show 3 < 2 ^ 64 by decide)
  intro m op out m' _ hstep
  obtain ⟨hnumber, heq⟩ := Option.ite_none_right_eq_some.1 hstep
  rwa [Option.some.inj heq] at hnumber

/-- Whatever the switch and the cursor, a publication is refused exactly if the network is off or
the flows are at their capacity.  Otherwise its connection is new, at ports that nothing used,
unless there are no connection numbers left.  The cursor stays in range. -/
theorem publication_admitted (enabled : Bool) (n : Nat) {es : List SwitchEvent}
    (hrun : SwitchRun (.withNetworkSocketCapacity enabled n) es s)
    (hp : publicationHostPorts p = true) :
    (connectPublication s p = none ↔ s.networkEnabled = true ∧
      s.networkSocketCount < s.networkSocketCapacity ∧ 2 ^ 64 ≤ s.nextConnectionNumber + 1) ∧
    ∀ result s' cursor, connectPublication s p = some (result, s', cursor) →
      (result = none ↔ s.networkEnabled = false ∨ s.networkSocketCapacity ≤ s.networkSocketCount) ∧
      (∀ connection, result = some connection →
        connection.role = .publication ∧ connection.guestPort = publicationPort ∧
        publicationHostPorts connection.hostPort = true ∧ s.endpointIndex connection.tuple = none ∧
        connection.number = s.nextConnectionNumber ∧ s'.endpoints =
          s.endpoints ++ [Endpoint.published connection.hostPort connection.number]) ∧
      publicationHostPorts cursor = true := by
  have hinit := VsockSwitch.invariant_initial enabled n
  have hnumber := nextConnectionNumber_run hrun
  by_cases hfull : s.networkEnabled = false ∨ s.networkSocketCapacity ≤ s.networkSocketCount
  · have hrefused : connectPublication s p = some (none, s, nextHostPort p) := by
      have hadmit : ¬ s.networkEnabled = true ∨ ¬ publicationHostPorts p = true ∨
          s.networkSocketCount ≥ s.networkSocketCapacity := by
        rcases hfull with hoff | hfull
        · exact Or.inl (by simp [hoff])
        · exact Or.inr (Or.inr hfull)
      rw [connectPublication, tryHostPorts, VsockSwitch.connectPublication, if_pos hadmit,
        numbered_eq hnumber]
    rw [hrefused]
    refine ⟨iff_of_false (by simp) ?_, ?_⟩
    · rintro ⟨hnet, hroom, -⟩
      rcases hfull with hoff | hfull
      · exact absurd hoff (by simp [hnet])
      · exact absurd hroom (Nat.not_lt.2 hfull)
    · rintro result s' cursor ⟨⟩
      refine ⟨iff_of_true rfl hfull, ?_, publicationHostPorts_iterate hp 1⟩
      rintro connection ⟨⟩
  · obtain ⟨hnet, hroom⟩ := not_or.1 hfull
    rw [Bool.not_eq_false] at hnet
    rw [Nat.not_le] at hroom
    rcases tryHostPorts_of_room hnet hroom hnumber maxHostPortAttempts hp with
      hbusy | ⟨i, hfree, heq⟩
    · -- Every attempt met a flow, and the attempts are at different ports: more flows than allowed.
      have hcap : s.networkSocketCapacity = min n maxNetworkSockets :=
        VsockSwitch.capacity_run hinit hrun
      have hnodup : ((List.range maxHostPortAttempts).map fun i => nextHostPort^[i] p).Nodup := by
        refine List.nodup_range.map_on fun i hi j hj heq => ?_
        rw [List.mem_range] at hi hj
        have hnat := congrArg UInt32.toNat heq
        rw [toNat_iterate hp, toNat_iterate hp] at hnat
        have hattempts : maxHostPortAttempts = 1025 := rfl
        omega
      have hle := length_le_of_busy (hinit.run hrun) hnodup fun q hq => by
        obtain ⟨i, hi, rfl⟩ := List.mem_map.1 hq
        exact hbusy i (List.mem_range.1 hi)
      rw [List.length_map, List.length_range] at hle
      rw [hcap] at hroom
      exact absurd (Nat.lt_of_lt_of_le hroom (Nat.min_le_right _ _))
        (Nat.not_lt.2 (Nat.le_of_succ_le hle))
    · rw [connectPublication, heq]
      -- The switch has admitted the flow; whether the call returns is a matter of its number.
      by_cases hnext : (admitted s (nextHostPort^[i] p)).2.nextConnectionNumber < 2 ^ 64
      · rw [numbered_eq hnext]
        refine ⟨iff_of_false (by simp) fun h => absurd hnext (Nat.not_lt.2 h.2.2), ?_⟩
        rintro result s' cursor ⟨⟩
        refine ⟨iff_of_false (by simp) hfull, ?_, publicationHostPorts_iterate hp (i + 1)⟩
        rintro connection ⟨⟩
        exact ⟨rfl, rfl, publicationHostPorts_iterate hp i, hfree, rfl, rfl⟩
      · rw [show VsockSwitch.numbered (admitted s (nextHostPort^[i] p)) = none from if_neg hnext]
        refine ⟨iff_of_true rfl ⟨hnet, hroom, Nat.not_lt.1 hnext⟩, ?_⟩
        rintro result s' cursor ⟨⟩

theorem publication_admitted_second : ∃ es s,
    SwitchRun (.withNetworkSocketCapacity true 2) es s ∧
      s.endpointIndex (publicationTuple publicationStart) ≠ none ∧
      ∃ connection s' cursor, connectPublication s publicationStart =
      some (some connection, s', cursor) ∧
        s.endpointIndex connection.tuple = none := by
  obtain ⟨es, hrun⟩ := VsockSwitch.run_of_exec (.withNetworkSocketCapacity true 2)
    [.connectPublication publicationStart] rfl
  obtain ⟨haborts, hreturns⟩ := publication_admitted true 2 hrun
    (show publicationHostPorts publicationStart = true from rfl)
  obtain ⟨⟨result, s', cursor⟩, hresult⟩ := Option.ne_none_iff_exists'.1 (mt haborts.1 (by decide))
  obtain ⟨hnone, hsome, -⟩ := hreturns _ _ _ hresult
  obtain ⟨connection, rfl⟩ := Option.ne_none_iff_exists'.1 (mt hnone.1 (by decide))
  exact ⟨es, _, hrun, by decide, connection, s', cursor, hresult, (hsome connection rfl).2.2.2.1⟩

end Frontend

end Terrarium.Vsock
