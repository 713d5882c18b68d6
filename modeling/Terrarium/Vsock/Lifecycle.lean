import Terrarium.Vsock.SwitchInvariant

/-!
# Lifecycle — the life of a connection number

An abstract machine for what one tuple goes through, and the proof that the switch refines it.

* `Phase` — absent, idle, live, or retiring under an old number;
* `Phase.Step` — the moves a tuple can make; a number that stops being live is spent for good;
* `EndpointStep.phase` — every public call makes one of these moves at every tuple.

From the abstract machine follow the facts that stale connection ids never come back to life and
that no flow slot is leaked.
-/

namespace Terrarium.Vsock

open KeyedList Tokens

/-! ## The abstract machine -/

/-- What one tuple is doing, with the connection numbers involved. -/
inductive Phase
  | absent
  | idle (number : Nat)
  | live (number : Nat)
  | retiring (number old : Nat)
  deriving DecidableEq

namespace Phase

/-- One move of a tuple; numbers from `next` on are fresh. -/
inductive Step (fixed : Prop) (next : Nat) : Phase → Phase → Prop where
  | stay (p : Phase) : Step fixed next p p
  | accept (n : Nat) : Step fixed next (idle n) (live n)
  | create {n : Nat} : ¬ fixed → next ≤ n → Step fixed next absent (live n)
  | finish {n m : Nat} : next ≤ n → Step fixed next (live m) (retiring n m)
  | release {n m old : Nat} : fixed → next ≤ n → Step fixed next (retiring m old) (idle n)
  | remove {m old : Nat} : ¬ fixed → Step fixed next (retiring m old) absent

/-- Number `n` has been used up: it is neither live nor waiting for a connection. -/
def Spent (n : Nat) (p : Phase) : Prop :=
  p ≠ live n ∧ p ≠ idle n

variable {fixed : Prop} {next n : Nat} {p p' : Phase}

/-- A spent number stays spent: new phases only use fresh numbers. -/
lemma Step.spent (hstep : Step fixed next p p') (hn : n < next) (hp : Spent n p) : Spent n p' := by
  cases hstep with
  | stay => exact hp
  | accept m =>
    refine ⟨fun heq => ?_, nofun⟩
    cases heq
    exact hp.2 rfl
  | create _ hm =>
    refine ⟨fun heq => ?_, nofun⟩
    cases heq
    omega
  | finish hm | remove => exact ⟨nofun, nofun⟩
  | release _ hm =>
    refine ⟨nofun, fun heq => ?_⟩
    cases heq
    omega

lemma Step.live_or_spent (hstep : Step fixed next (live n) p') : p' = live n ∨ Spent n p' := by
  cases hstep with
  | stay => exact Or.inl rfl
  | finish => exact Or.inr ⟨nofun, nofun⟩

lemma Step.created (hstep : Step fixed next p (live n)) (hp : Spent n p) : p = absent := by
  cases hstep with
  | stay => exact absurd rfl hp.1
  | accept => exact absurd rfl hp.2
  | create => rfl

def number : Phase → Option Nat
  | absent => none
  | idle n | live n | retiring n _ => some n

lemma Step.number (hstep : Step fixed next p p') (hn : p'.number = some n) :
    p.number = some n ∨ next ≤ n := by
  cases hstep with
  | stay | accept => exact Or.inl hn
  | create _ hm | finish hm | release _ hm =>
    cases hn
    exact Or.inr hm
  | remove => cases hn

lemma Step.retiring {old : Nat} (hstep : Step fixed next (retiring n old) p') (hn : n < next)
    (hp : p'.number = some n) : p' = Phase.retiring n old := by
  cases hstep with
  | stay => rfl
  | release _ hm =>
    cases hp
    omega
  | remove => cases hp

/-- A tuple that may be removed never waits with an idle endpoint. -/
lemma Step.not_idle (hstep : Step fixed next p p') (hfixed : ¬ fixed) (hp : ∀ m, p ≠ idle m) :
    ∀ m, p' ≠ idle m := by
  cases hstep with
  | stay => exact hp
  | accept n | create | finish | remove => exact nofun
  | release hfix => exact absurd hfix hfixed

end Phase

/-! ## The switch refines it -/

def Endpoint.phase (e : Endpoint) : Phase :=
  if e.isLive then .live e.connectionNumber
  else
    match e.retiring with
    | none => .idle e.connectionNumber
    | some old => .retiring e.connectionNumber old

def phaseOf (v : Option Endpoint) : Phase :=
  v.elim .absent Endpoint.phase

namespace Endpoint

variable {e : Endpoint}

lemma phase_live (hlive : e.isLive = true) : e.phase = .live e.connectionNumber := by
  rw [phase, if_pos hlive]

lemma phase_idle (hidle : e.isLive = false) (hret : e.retiring = none) :
    e.phase = .idle e.connectionNumber := by
  rw [phase, if_neg (by simp [hidle]), hret]

lemma phase_retiring (hidle : e.isLive = false) {old : Nat} (hret : e.retiring = some old) :
    e.phase = .retiring e.connectionNumber old := by
  rw [phase, if_neg (by simp [hidle]), hret]

lemma phase_eq_live_iff {n : Nat} : e.phase = .live n ↔ e.isLive = true ∧
    e.connectionNumber = n := by
  constructor
  · intro hphase
    rw [phase] at hphase
    split at hphase
    next hlive => exact ⟨hlive, Phase.live.inj hphase⟩
    · split at hphase <;> cases hphase
  · rintro ⟨hlive, rfl⟩
    exact phase_live hlive

lemma phase_number : e.phase.number = some e.connectionNumber := by
  rw [phase]
  split
  · rfl
  · split <;> rfl

lemma retiring_of_phase {n old : Nat} (h : e.phase = .retiring n old) :
    e.retiring.isSome = true := by
  rw [phase] at h
  split at h
  · cases h
  · split at h
    · cases h
    next hret =>
      rw [hret]
      rfl

lemma phase_retire (h : e.isLive = true ∨ e.retiring = none) (n : Nat) :
    (e.retire n).phase = .retiring n e.connectionNumber := by
  obtain ⟨hnumber, hret⟩ := retire_numbers h n
  rw [phase_retiring (retire_isLive n) hret, hnumber]

lemma phase_reset (hlive : e.isLive = true) (n : Nat) :
    (e.reset n).phase = .retiring n e.connectionNumber := by
  obtain ⟨hnumber, hret⟩ := reset_numbers hlive n
  rw [phase_retiring (reset_isLive n) hret, hnumber]

end Endpoint

namespace VsockSwitch

variable {s s' : VsockSwitch} {t : Tuple} {op : Op} {out : Outcome}

variable {n : Nat} {e : Endpoint} {es : List SwitchEvent} {c : ConnectionId}

theorem Change.phase {e' : Endpoint} (hc : Change s op out t e e' n)
    (hv : e.Valid) : Phase.Step t.isFixed s.nextConnectionNumber e.phase e'.phase := by
  have hkeeps : ∀ {stream : StreamConnection}, e.isLive = true → stream.isLive = true →
      Phase.Step t.isFixed s.nextConnectionNumber e.phase (e.withStream stream).phase := by
    intro stream hlive hlive'
    rw [Endpoint.phase_live hlive, Endpoint.phase_live (e := e.withStream stream) hlive']
    exact Phase.Step.stay _
  cases hc with
  | @received _ _ h bytes _ _ _ hret =>
    by_cases hended : (e.isLive && !(e.stream.rx h bytes).isLive) = true
    · have hlive : e.isLive = true := (Bool.and_eq_true_iff.1 hended).1
      rw [Endpoint.receive_ended hended, Endpoint.phase_live hlive,
        Endpoint.phase_retire (e := e.withStream (e.stream.rx h bytes)) (Or.inr hret)]
      exact Phase.Step.finish (Nat.le_refl _)
    · rw [Endpoint.receive_stays hended]
      cases hlive : e.isLive with
      | true => exact hkeeps hlive (by simpa [hlive] using hended)
      | false =>
        -- An idle endpoint keeps its number, whether the packet opens a connection or not.
        rw [Endpoint.phase_idle hlive hret]
        cases hlive' : (e.stream.rx h bytes).isLive with
        | true =>
          rw [Endpoint.phase_live (e := e.withStream (e.stream.rx h bytes)) hlive']
          exact Phase.Step.accept _
        | false =>
          rw [Endpoint.phase_idle (e := e.withStream (e.stream.rx h bytes)) hlive' hret]
          exact Phase.Step.stay _
  | delivered _ hconn =>
    have hlive := Endpoint.isLive_of_connected hconn
    exact hkeeps hlive (StreamConnection.deliver_isLive _ hlive)
  | shutdown _ hconn =>
    have hlive := Endpoint.isLive_of_connected hconn
    exact hkeeps hlive (StreamConnection.shutdown_isLive hlive)
  | creditRequested _ hconn =>
    have hlive := Endpoint.isLive_of_connected hconn
    exact hkeeps hlive (StreamConnection.requestCredit_outcome.isLive hlive)
  | @consumed _ _ maxBytes _ hconn =>
    have hlive := Endpoint.isLive_of_connected hconn
    by_cases hended : (e.stream.consumeUpstream maxBytes).connection.isNone = true
    · rw [Endpoint.consume_ended hended, Endpoint.phase_live hlive,
        Endpoint.phase_retire (e := e.withStream (e.stream.consumeUpstream maxBytes))
          (Or.inr (hv.not_retiring hlive))]
      exact Phase.Step.finish (Nat.le_refl _)
    · rw [Endpoint.consume_stays hended]
      obtain ⟨connection, hconn'⟩ := Option.ne_none_iff_exists'.1 (by simpa using hended)
      exact hkeeps hlive (StreamConnection.isLive_of_connection hconn')
  | reset _ _ _ hlive =>
    rw [Endpoint.phase_live hlive, Endpoint.phase_reset hlive]
    exact Phase.Step.finish (Nat.le_refl _)

lemma not_fixed_of_classOf {role : Role} (h : classOf t = some role)
    (hrole : role ≠ .agent ∧ role ≠ .control) : ¬ t.isFixed := by
  rintro (rfl | rfl)
  · exact hrole.1 (Option.some.inj (h.symm.trans (by decide)))
  · exact hrole.2 (Option.some.inj (h.symm.trans (by decide)))

lemma phase_resetEndpoint (hn : s.nextConnectionNumber ≤ n) :
    Phase.Step t.isFixed s.nextConnectionNumber e.phase (resetEndpoint n e).1.phase := by
  rw [resetEndpoint]
  split
  next hlive =>
    have hphase : ((e.retire n).withStream { (e.retire n).stream with replies := [] }).phase =
        (e.retire n).phase := rfl
    rw [hphase, Endpoint.phase_live hlive, Endpoint.phase_retire (Or.inl hlive)]
    exact Phase.Step.finish hn
  · exact Phase.Step.stay _

/-- Every public call moves every tuple as the abstract machine allows. -/
theorem EndpointStep.phase {v v' : Option Endpoint} (hstep : EndpointStep s op out t v v')
    (hv : ∀ e, v = some e → e.Valid) :
    Phase.Step t.isFixed s.nextConnectionNumber (phaseOf v) (phaseOf v') := by
  cases hstep with
  | untouched | drained => exact Phase.Step.stay _
  | changed hc => exact hc.phase (hv _ rfl)
  | @admitted role h _ _ htuple hrole hopens =>
    have hclass : classOf t = some role := by
      rw [← htuple]
      exact classOf_of_classify hrole
    refine Phase.Step.create (not_fixed_of_classOf hclass ?_) (Nat.le_refl _)
    rcases (opensFlow_iff.1 hopens).1 with rfl | rfl
    · decide
    · decide
  | published _ htuple _ hp =>
    exact Phase.Step.create (not_fixed_of_classOf (htuple ▸ classOf_publication hp) (by decide))
      (Nat.le_refl _)
  | @lost e n _ _ hlive hn =>
    change Phase.Step _ _ e.phase (e.reset n).phase
    rw [Endpoint.phase_live hlive, Endpoint.phase_reset hlive]
    exact Phase.Step.finish hn
  | cleared _ hn => exact phase_resetEndpoint hn
  | @released e c _ _ _ hret _ hfixed =>
    have hidle := (hv e rfl).retired (by rw [hret]; rfl)
    change Phase.Step _ _ e.phase (e.release _).phase
    rw [Endpoint.phase_retiring hidle hret, Endpoint.phase_idle
      (e := e.release s.nextConnectionNumber) hidle rfl]
    exact Phase.Step.release hfixed (Nat.le_refl _)
  | @removed e c _ _ _ hret _ hfixed =>
    have hidle := (hv e rfl).retired (by rw [hret]; rfl)
    change Phase.Step _ _ e.phase _
    rw [Endpoint.phase_retiring hidle hret]
    exact Phase.Step.remove hfixed

/-! ## Runs -/

def phase (s : VsockSwitch) (t : Tuple) : Phase :=
  phaseOf (s.view t)

theorem Invariant.phase (hi : Invariant s) (hstep : s.step op = some (out, s')) (t : Tuple) :
    Phase.Step t.isFixed s.nextConnectionNumber (s.phase t) (s'.phase t) :=
  (hi.endpointStep hstep t).phase fun _ hv => hi.valid hv

lemma CallEffect.next_le (he : CallEffect s op out s') (hv : ∀ {t e}, s.view t = some e → e.Valid) :
    s.nextConnectionNumber ≤ s'.nextConnectionNumber := by
  cases he with
  | refused | removed => exact Nat.le_refl _
  | rejected =>
    rw [reject]
    split <;> exact Nat.le_refl _
  | changed hi hc => exact (hc.refresh (hv (view_of_endpointIndex hi))).mono
  | admitted | published | released => exact Nat.le_succ _
  | drained _ _ heffect => exact Nat.le_of_eq heffect.number.symm
  | cleared => exact le_sweep le_resetEndpoint _ _
  | lost => exact le_sweep le_resetNetworkEndpoint _ _

lemma Invariant.next_le (hi : Invariant s) (hstep : s.step op = some (out, s')) :
    s.nextConnectionNumber ≤ s'.nextConnectionNumber :=
  (hi.effect hstep).next_le hi.valid

lemma Invariant.number_lt (hi : Invariant s) (hv : s.view t = some e) :
    e.connectionNumber < s.nextConnectionNumber :=
  hi.issued.below _ (List.mem_flatMap.2 ⟨e, (mem_of_lookup hv).1, List.mem_cons_self⟩)

lemma Invariant.guestTuple_ne (hi : Invariant s) (hv : s.view t = some e) (hlive : e.isLive = true)
    {h : VsockHeader}
    {bytes : List UInt8} (hun : Untouched s (.rx h bytes) out t (some e)) : h.guestTuple ≠ t := by
  intro hguest
  rcases hun hguest with hnone | ⟨e', he', hcase⟩
  · cases hnone
  · cases he'
    rcases hcase with hret | hunclassified
    · rw [(hi.valid hv).not_retiring hlive] at hret
      cases hret
    · have hrole := hi.classified hv hlive
      rw [← hguest] at hrole
      exact absurd (hunclassified.symm.trans hrole) (by simp)

lemma Invariant.spent_run (hi : Invariant s) (hn : n < s.nextConnectionNumber)
    (hspent : (s.phase t).Spent n)
    (hrun : SwitchRun s es s') : n < s'.nextConnectionNumber ∧ (s'.phase t).Spent n := by
  induction hrun with
  | nil => exact ⟨hn, hspent⟩
  | snoc hrun hstep ih =>
    obtain ⟨hn', hspent'⟩ := ih
    have hi' := hi.run hrun
    exact ⟨Nat.lt_of_lt_of_le hn' (hi'.next_le hstep), (hi'.phase hstep t).spent hn' hspent'⟩

/-! ## Connection ids -/

/-- The connection that `c` names is connecting or connected. -/
def isOpen (s : VsockSwitch) (c : ConnectionId) : Bool :=
  (s.view c.tuple).any fun e => e.connectionNumber = c.number && e.isLive

lemma isOpen_iff : s.isOpen c = true ↔
      ∃ e, s.view c.tuple = some e ∧ e.connectionNumber = c.number ∧ e.isLive = true := by
  rw [isOpen]
  cases hv : s.view c.tuple with
  | none | some e => simp

lemma isOpen_iff_phase : s.isOpen c ↔ s.phase c.tuple = .live c.number := by
  rw [isOpen, phase]
  cases hv : s.view c.tuple with
  | none => simp [phaseOf]
  | some e =>
    change _ ↔ e.phase = _
    rw [Endpoint.phase_eq_live_iff]
    simp [and_comm]

lemma isOpen_of_isCurrent (hc : s.isCurrent c = true) : s.isOpen c = true := by
  obtain ⟨⟨i, e⟩, hfound⟩ := Option.isSome_iff_exists.1 hc
  obtain ⟨hi, hconn⟩ := connectionIndex_eq_some.1 hfound
  have hnumber : e.connectionNumber = c.number := by
    obtain ⟨-, -, rfl⟩ := Option.map_eq_some_iff.1 hconn
    rfl
  exact isOpen_iff.2 ⟨e, view_of_endpointIndex hi, hnumber, Endpoint.isLive_of_connected hconn⟩

/-- What every call answers when it is given an id whose connection has ended. -/
structure Stale (s : VsockSwitch) (c : ConnectionId) : Prop where
  notCurrent : s.isCurrent c = false
  deliver : ∀ bytes : List UInt8, s.deliver c bytes =
    (.error (if bytes.length > maxPacketDataBytes.toNat then .backpressure
      else .unknownConnection), s)
  shutdown : s.shutdown c = (.error .unknownConnection, s)
  consumeUpstream : ∀ maxBytes, s.consumeUpstream c maxBytes = (.error .unknownConnection, s)
  requestCredit : s.requestCredit c = (.error .unknownConnection, s)
  resetConnection : s.resetConnection c = (.error .unknownConnection, s)

lemma stale_of_not_open (hc : s.isOpen c = false) : Stale s c := by
  have hnone : s.connectionIndex c = none := by
    by_contra hsome
    have hcurrent : s.isCurrent c = true := Option.isSome_iff_ne_none.2 hsome
    rw [isOpen_of_isCurrent hcurrent] at hc
    cases hc
  have hreset : (s.endpointIndex c.tuple).filter (fun found =>
      found.2.connectionNumber = c.number && found.2.isLive) = none := by
    cases hi : s.endpointIndex c.tuple with
    | none => rfl
    | some found =>
      rw [isOpen, view_of_endpointIndex hi] at hc
      rw [Option.filter_some, if_neg]
      simpa using hc
  refine ⟨?_, ?_, ?_, ?_, ?_, ?_⟩
  · rw [isCurrent, hnone]
    rfl
  · intro bytes
    rw [VsockSwitch.deliver]
    split
    · rfl
    · rw [onStream, hnone]
  · rw [VsockSwitch.shutdown, onStream, hnone]
  · intro maxBytes
    rw [VsockSwitch.consumeUpstream, hnone]
  · rw [VsockSwitch.requestCredit, onStream, hnone]
  · rw [VsockSwitch.resetConnection, hreset]

/-- The host has been given `c`: as a connected endpoint's id, or by `connect_publication`. -/
def Returned (es : List SwitchEvent) (c : ConnectionId) : Prop :=
  ∃ ev ∈ es, ev.post.isCurrent c = true ∨ ev.out = .published (.ok c)

lemma step_published {r : Except VsockError ConnectionId}
    (hstep : s.step op = some (.published r, s')) : ∃ p, op = .connectPublication p := by
  have hout := (apply_of_step hstep).1
  cases op with
  | connectPublication p => exact ⟨p, rfl⟩
  | _ => cases hout

lemma Invariant.published_isOpen (hi : Invariant s)
    (hstep : s.step op = some (.published (.ok c), s')) : s'.isOpen c = true := by
  obtain ⟨p, rfl⟩ := step_published hstep
  have hview := hi.endpointStep hstep ⟨publicationPort, p⟩
  generalize hv : s.view ⟨publicationPort, p⟩ = v at hview
  generalize hv' : s'.view ⟨publicationPort, p⟩ = v' at hview
  cases hview with
  | untouched hun =>
    obtain ⟨err, herr⟩ := hun rfl
    cases herr
  | changed hc =>
    cases hc with
    | received hop | delivered hop | shutdown hop | creditRequested hop | consumed hop
    | reset hop => cases hop
  | admitted hop | lost hop | cleared hop | released hop | removed hop => cases hop
  | @published p' hop htuple _ _ hout =>
    cases hop
    cases hout
    exact isOpen_iff.2 ⟨_, hv', rfl, rfl⟩
  | drained hop =>
    rcases hop with ⟨k, hop⟩ | ⟨k, k', hop⟩
    · cases hop
    · cases hop

/-- An id the host has been given is open, or its number is spent. -/
lemma Invariant.open_or_spent (hi : Invariant s) (hrun : SwitchRun s es s') (hret : Returned es c) :
    c.number < s'.nextConnectionNumber ∧
    (s'.isOpen c = true ∨ (s'.phase c.tuple).Spent c.number) := by
  have hissued : ∀ {m : VsockSwitch}, Invariant m → m.isOpen c = true →
      c.number < m.nextConnectionNumber := by
    intro m hm hopen
    obtain ⟨e, hv, hnumber, -⟩ := isOpen_iff.1 hopen
    rw [← hnumber]
    exact hm.number_lt hv
  induction hrun with
  | nil =>
    obtain ⟨ev, hev, -⟩ := hret
    cases hev
  | @snoc m t es op out hrun hstep ih =>
    have hi' := hi.run hrun
    have hi'' := hi'.step hstep
    obtain ⟨ev, hev, hgiven⟩ := hret
    rcases List.mem_append.1 hev with hev | hev
    · -- Given earlier: one more move of the tuple.
      obtain ⟨hn, hcase⟩ := ih ⟨ev, hev, hgiven⟩
      have hmove := hi'.phase hstep c.tuple
      refine ⟨Nat.lt_of_lt_of_le hn (hi'.next_le hstep), ?_⟩
      rcases hcase with hopen | hspent
      · rw [isOpen_iff_phase.1 hopen] at hmove
        rcases hmove.live_or_spent with hlive | hspent
        · exact Or.inl (isOpen_iff_phase.2 hlive)
        · exact Or.inr hspent
      · exact Or.inr (hmove.spent hn hspent)
    · -- Given by this very step.
      rw [List.mem_singleton.1 hev] at hgiven
      have hopen : t.isOpen c = true := by
        rcases hgiven with hcurrent | hout
        · exact isOpen_of_isCurrent hcurrent
        · dsimp only at hout
          subst hout
          exact hi'.published_isOpen hstep
      exact ⟨hissued hi'' hopen, Or.inl hopen⟩

/-- No flow slot is leaked: an endpoint that may be removed is live or on its way out. -/
lemma Invariant.flow_run (hi : Invariant s) (hfixed : ¬ t.isFixed)
    (hidle : ∀ m, s.phase t ≠ .idle m) (hrun : SwitchRun s es s') : ∀ m, s'.phase t ≠ .idle m := by
  induction hrun with
  | nil => exact hidle
  | snoc hrun hstep ih => exact ((hi.run hrun).phase hstep t).not_idle hfixed ih

lemma initial_not_idle {enabled : Bool} (hfixed : ¬ t.isFixed) (m : Nat) :
    (withNetworkSocketCapacity enabled n).phase t ≠ .idle m := by
  have hagent : agentTuple ≠ t := fun heq => hfixed (Or.inl heq.symm)
  have hcontrol : controlTuple ≠ t := fun heq => hfixed (Or.inr heq.symm)
  have hnone : (withNetworkSocketCapacity enabled n).view t = none := by
    refine lookup_eq_none_iff.2 ?_
    change t ∉ [agentTuple, controlTuple]
    simp [hagent.symm, hcontrol.symm]
  rw [phase, hnone]
  intro heq
  cases heq

/-- Tuples and connection numbers are unique, a retiring endpoint is never live, every flow is live
or retiring, and an id whose connection has ended is refused by every call for the rest of the run
without any effect. -/
theorem connection_identity (enabled : Bool) (n : Nat) {es : List SwitchEvent}
    (hrun : SwitchRun (withNetworkSocketCapacity enabled n) es s) :
    (s.endpoints.map Endpoint.tuple).Nodup ∧
      (s.endpoints.flatMap Endpoint.numbers).Nodup ∧
      (∀ m ∈ s.endpoints.flatMap Endpoint.numbers, m < s.nextConnectionNumber) ∧
      (∀ e ∈ s.endpoints, e.retiring.isSome → e.isLive = false) ∧
      (∀ i e, fixedEndpoints ≤ i → s.endpoints[i]? = some e →
        e.isLive = true ∨ e.retiring.isSome) ∧
      ∀ c, Returned es c → s.isOpen c = false → ∀ es' s', SwitchRun s es' s' →
        s'.isOpen c = false ∧ Stale s' c := by
  have hinit := invariant_initial enabled n
  have hi := hinit.run hrun
  refine ⟨hi.tuples.nodup, hi.issued.nodup, hi.issued.below, ?_, ?_, ?_⟩
  · intro e he
    exact (hi.valid (view_of_mem hi.tuples he)).retired
  · intro i e hflow he
    have hindex : s.endpointIndex e.tuple = some (i, e) := locate_of_getElem? hi.tuples.nodup he
    have hfixed : ¬ e.tuple.isFixed := fun hfix =>
      absurd ((fixed_iff_index hi.tuples hindex).1 hfix) (Nat.not_lt.2 hflow)
    have hnot := hinit.flow_run hfixed (initial_not_idle hfixed) hrun
    rw [phase, view_of_endpointIndex hindex] at hnot
    by_contra hcon
    push Not at hcon
    refine hnot e.connectionNumber (Endpoint.phase_idle (Bool.eq_false_iff.2 hcon.1) ?_)
    simpa using hcon.2
  · intro c hret hclosed es' s' hrun'
    obtain ⟨hn, hcase⟩ := hinit.open_or_spent hrun hret
    have hspent : (s.phase c.tuple).Spent c.number := by
      rcases hcase with hopen | hspent
      · rw [hclosed] at hopen
        cases hopen
      · exact hspent
    have hclosed' : s'.isOpen c = false := by
      rw [Bool.eq_false_iff]
      intro hopen
      exact (hi.spent_run hn hspent hrun').2.1 (isOpen_iff_phase.1 hopen)
    exact ⟨hclosed', stale_of_not_open hclosed'⟩

lemma run_of_reset_flow :
    ∃ es s, SwitchRun oneFlow es s ∧ Returned es firstFlow ∧ s.isOpen firstFlow = false := by
  have hopen := Run.Trace.single (step_eq_apply oneFlow
    (.rx (guestHeader ⟨49152, tcpPort⟩ opRequest 0 0 65536 0) []) (by decide))
  have hrun := hopen.snoc (step_eq_apply _ (.resetConnection firstFlow) (by decide))
  refine ⟨_, _, hrun, ?_, by decide⟩
  refine ⟨_, List.mem_append_left _ (List.mem_singleton.2 rfl), Or.inl ?_⟩
  decide

theorem connection_identity_reset :
    ∃ es s, SwitchRun oneFlow es s ∧ Returned es firstFlow ∧ s.isOpen firstFlow = false ∧
      Stale s firstFlow := by
  obtain ⟨es, s, hrun, hret, hclosed⟩ := run_of_reset_flow
  obtain ⟨-, -, -, -, -, hstale⟩ := connection_identity true 1 hrun
  exact ⟨es, s, hrun, hret, hclosed, (hstale _ hret hclosed [] s Run.Trace.nil).2⟩

/-- A payload larger than a packet is refused as backpressure before the id is looked at. -/
theorem deliver_stale_oversized :
    ∃ es s, SwitchRun oneFlow es s ∧ Returned es firstFlow ∧ s.isOpen firstFlow = false ∧
      (s.deliver firstFlow (List.replicate 65537 0)).1 = .error .backpressure := by
  obtain ⟨es, s, hrun, hret, hclosed⟩ := run_of_reset_flow
  refine ⟨es, s, hrun, hret, hclosed, ?_⟩
  rw [VsockSwitch.deliver, if_pos]
  rw [List.length_replicate]
  decide

end VsockSwitch

end Terrarium.Vsock
