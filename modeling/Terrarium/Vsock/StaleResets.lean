import Terrarium.Vsock.Teardown

/-!
# StaleResets — resets that outlive their connection

A reset is stamped with the connection number its tuple has when it leaves the switch, or when the
packet it answers was rejected.  A fresh connection is safe from old resets if none of them carries
its number.  The numbers keep them apart, except that an idle agent or control endpoint answers
stray packets under the very number its next connection will have.

* `Clean` — no reset carries the number of an endpoint that could still be connected;
* `Invariant.clean` — one call keeps a switch clean, unless it answers such a packet.
-/

namespace Terrarium.Vsock

open KeyedList

namespace StreamConnection

variable {s s' : StreamConnection} {h : VsockHeader} {data : List UInt8} {c : Connection}

/-! ## Calls that queue no reset -/

/-- The packets that an idle stream answers with a reset. -/
def refuses (h : VsockHeader) (data : List UInt8) : Bool :=
  h.op != opRst && (malformed h data || h.op != opRequest || h.fwdCnt != 0)

lemma rx_request_hasReset (hidle : s.isLive = false) (hwell : malformed h data = false)
    (hop : h.op = opRequest) (hfwd : h.fwdCnt = 0) : HasReset (s.rx h data) → HasReset s := by
  obtain ⟨hnone, hcing⟩ := isLive_eq_false_iff.1 hidle
  rw [rx, if_neg (by simp [hwell]), if_neg (by simp [hcing]), if_pos hop, onRequest,
    if_neg (by simp [hfwd, hnone, hcing])]
  dsimp only
  rw [respond_of_not_credit _ (by decide)]
  split
  next s'' hq =>
    split at hq
    · cases hq
      exact (hasReset_push (by change opResponse ≠ opRst; decide)).1
    · cases hq
  · exact id

lemma rx_idle_hasReset (hidle : s.isLive = false)
    (hquiet : (refuses h data && s.canQueueReply 0) = false) :
    HasReset (s.rx h data) → HasReset s := by
  by_cases hopens : h.op = opRequest ∧ malformed h data = false ∧ h.fwdCnt = 0
  · exact rx_request_hasReset hidle hopens.2.1 hopens.1 hopens.2.2
  have hout := rx_outcome s h data
  generalize s.rx h data = s' at hout ⊢
  have hdead : s.isLive = true → HasReset s' → HasReset s := by
    intro hlive
    rw [hidle] at hlive
    cases hlive
  cases hout with
  | ignored => exact id
  | refused _ hop =>
    -- The packet is refused, so the queue must have been full.
    have hrefuses : refuses h data = true := by
      by_contra hcon
      simp only [refuses, Bool.and_eq_true, Bool.or_eq_true, bne_iff_ne, not_and, not_or] at hcon
      obtain ⟨⟨hwell, hreq⟩, hfwd⟩ := hcon hop
      exact hopens ⟨not_not.1 hreq, Bool.eq_false_iff.2 hwell, not_not.1 hfwd⟩
    rw [hrefuses, Bool.true_and] at hquiet
    rw [tryRst_eq, hquiet]
    exact id
  | opened => exact (hasReset_push (by change opResponse ≠ opRst; decide)).1
  | established hcing => exact hdead (by simp [isLive, hcing])
  | closed hlive | rejected hlive => exact hdead hlive
  | forged hc | starved hc | overflowed hc | received hc | halfClosed hc | answered hc
  | credited hc => exact hdead (isLive_of_connection hc)

lemma rx_connects (hnone : s.connection = none) (hop : h.op = opRequest)
    (hsome : (s.rx h data).connection.isSome = true) : s.isLive = false := by
  have hout := rx_outcome s h data
  generalize s.rx h data = s' at hout hsome
  cases hout with
  | ignored hidle | refused hidle | opened hidle => exact hidle
  | established _ hresp =>
    rw [hop] at hresp
    exact absurd hresp (by decide)
  | closed | rejected | forged | starved | overflowed => cases hsome
  | received hc | halfClosed hc | answered hc | credited hc => exact nomatch hnone.symm.trans hc

lemma onShutdown_hasReset (flags : UInt32) : HasReset (s.onShutdown flags) → HasReset s := by
  rw [onShutdown]
  cases hc : s.connection with
  | none => exact id
  | some c =>
    dsimp only
    split
    · rintro ⟨r, hr, hop⟩
      exact ⟨r, List.mem_of_mem_filter hr, hop⟩
    · exact id

/-- A packet that leaves a live stream live queues no reset. -/
lemma rx_live_hasReset (hlive : s.isLive = true) (hlive' : (s.rx h data).isLive = true) :
    HasReset (s.rx h data) → HasReset s := by
  have hout := rx_outcome s h data
  generalize s.rx h data = s' at hout hlive' ⊢
  have hup : s.isLive = false → HasReset s' → HasReset s := by
    intro hidle
    rw [hlive] at hidle
    cases hidle
  cases hout with
  | ignored hidle | refused hidle | opened hidle => exact hup hidle
  | established => exact id
  | closed | rejected | forged | starved | overflowed => cases hlive'
  | received _ _ _ _ hn | credited _ _ _ hn => exact hn.hasReset.1
  | halfClosed _ _ _ hn => exact fun hreset => hn.hasReset.1 (onShutdown_hasReset _ hreset)
  | answered _ _ _ hn _ ha => exact fun hreset => hn.hasReset.1 (ha.hasReset.1 hreset)

lemma CreditRequested.hasReset (hr : CreditRequested s s') : HasReset s' → HasReset s := by
  cases hr with
  | unchanged => exact id
  | queued => exact (hasReset_push (by change opCreditRequest ≠ opRst; decide)).1

lemma deliver_hasReset (data : List UInt8) : HasReset (s.deliver data).2 → HasReset s := by
  have hout := deliver_outcome s data
  generalize s.deliver data = res at hout ⊢
  cases hout with
  | refused hr => exact hr.hasReset
  | empty => exact id
  | queued => exact (hasReset_push (by change opRw ≠ opRst; decide)).1

lemma shutdown_hasReset : HasReset s.shutdown.2 → HasReset s := by
  have hout := shutdown_outcome (s := s)
  generalize s.shutdown = res at hout ⊢
  cases hout with
  | unchanged => exact id
  | queued => exact (hasReset_push (by change opShutdown ≠ opRst; decide)).1

lemma consume_hasReset (hc : s.connection = some c) (maxBytes : Nat) :
    HasReset (s.consumeUpstream maxBytes) → HasReset s := by
  have hout := consumeUpstream_outcome hc maxBytes
  generalize s.consumeUpstream maxBytes = s' at hout ⊢
  cases hout with
  | nothing | deferred | starved => exact id
  | announced _ ha => exact ha.hasReset.1

end StreamConnection

open StreamConnection

namespace VsockSwitch

variable {s s' : VsockSwitch} {t : Tuple} {e e' : Endpoint} {op : Op} {out : Outcome}
  {es : List SwitchEvent}

/-! ## Endpoints that have queued no reset -/

/-- The call is a packet that an idle endpoint answers with a reset. -/
def answersIdle (s : VsockSwitch) : Op → Bool
  | .rx h bytes =>
      (s.classify h.srcPort h.dstPort).isSome &&
        (s.view h.guestTuple).any fun e =>
          !e.isLive && e.retiring.isNone && (refuses h bytes && e.stream.canQueueReply 0)
  | _ => false

lemma receive_quiet (hret : e.retiring = none) {h : VsockHeader} {bytes : List UInt8}
    (hquiet : e.isLive = false → (refuses h bytes && e.stream.canQueueReply 0) = false) {n : Nat}
    (hret' : (e.receive h bytes n).retiring = none)
    (hreset : HasReset (e.receive h bytes n).stream) : HasReset e.stream := by
  by_cases hended : (e.isLive && !(e.stream.rx h bytes).isLive) = true
  · have hnumbers := Endpoint.retire_numbers (e := e.withStream (e.stream.rx h bytes))
      (Or.inr hret) n
    rw [Endpoint.receive_ended hended, hnumbers.2] at hret'
    cases hret'
  · rw [Endpoint.receive_stays hended] at hreset
    cases hlive : e.isLive with
    | true =>
      refine rx_live_hasReset hlive ?_ hreset
      simpa [hlive] using hended
    | false => exact rx_idle_hasReset hlive (hquiet hlive) hreset

lemma Invariant.next_pos (hi : Invariant s) : 0 < s.nextConnectionNumber := by
  obtain ⟨agent, rest, hends, -⟩ := hi.tuples.agent_first
  have hmem : agent ∈ s.endpoints := by
    rw [hends]
    exact List.mem_cons_self
  exact Nat.lt_of_le_of_lt (Nat.zero_le _) (hi.number_lt (view_of_mem hi.tuples hmem))

lemma phase_number_of_view (hv : s.view t = some e) :
    (s.phase t).number = some e.connectionNumber := by
  rw [phase, hv]
  exact Endpoint.phase_number

section Step

variable (hi : Invariant s) (hstep : s.step op = some (out, s'))

include hi hstep

/-- A switch whose endpoints have no reset queued, other than the retiring ones, stays that way
unless an idle endpoint answers a packet with one. -/
lemma Invariant.quiet_step (hcond : s.answersIdle op = false)
    (hq : ∀ e, s.view t = some e → e.retiring = none → ¬ HasReset e.stream)
    (hv' : s'.view t = some e') (hret' : e'.retiring = none) : ¬ HasReset e'.stream := by
  intro hreset
  have hview := hi.endpointStep hstep t
  generalize hv : s.view t = v at hview hq
  rw [hv'] at hview
  cases hview with
  | untouched => exact hq e' rfl hret' hreset
  | @changed e _ n hc =>
    have hvalid := hi.valid hv
    have hdone : e.retiring = none → HasReset e.stream → False := hq e rfl
    cases hc with
    | @received role _ h bytes hop hguest hrole hret =>
      refine hdone hret (receive_quiet hret ?_ hret' hreset)
      intro hidle
      subst hop
      rw [answersIdle, hrole, hguest, hv] at hcond
      simpa [hidle, hret] using hcond
    | delivered _ hconn => exact hdone hret' (deliver_hasReset _ hreset)
    | shutdown _ hconn => exact hdone hret' (shutdown_hasReset hreset)
    | creditRequested _ hconn => exact hdone hret' (requestCredit_outcome.hasReset hreset)
    | @consumed _ c maxBytes _ hconn =>
      obtain ⟨connection, hc, -⟩ := Option.map_eq_some_iff.1 hconn
      have hret := hvalid.not_retiring (Endpoint.isLive_of_connected hconn)
      by_cases hended : (e.stream.consumeUpstream maxBytes).connection.isNone = true
      · have hnumbers := Endpoint.retire_numbers
          (e := e.withStream (e.stream.consumeUpstream maxBytes)) (Or.inr hret)
          s.nextConnectionNumber
        rw [Endpoint.consume_ended hended, hnumbers.2] at hret'
        cases hret'
      · rw [Endpoint.consume_stays hended] at hreset
        exact hdone hret (consume_hasReset hc maxBytes hreset)
    | reset _ _ _ hlive =>
      rw [(Endpoint.reset_numbers hlive _).2] at hret'
      cases hret'
  | admitted =>
    obtain ⟨r, hr, hop⟩ := hreset
    rw [List.mem_singleton.1 hr] at hop
    exact absurd hop (by change opResponse ≠ opRst; decide)
  | published =>
    obtain ⟨r, hr, hop⟩ := hreset
    rw [List.mem_singleton.1 hr] at hop
    exact absurd hop (by change opRequest ≠ opRst; decide)
  | lost _ _ hlive =>
    rw [(Endpoint.reset_numbers hlive _).2] at hret'
    cases hret'
  | cleared =>
    obtain ⟨r, hr, -⟩ := hreset
    cases hr
  | @drained e taken rest _ hd =>
    obtain ⟨r, hr, hop⟩ := hreset
    refine hq e rfl hret' ⟨r, ?_, hop⟩
    rw [hd.queue]
    exact List.mem_append_right _ hr
  | released _ _ _ _ hempty =>
    obtain ⟨r, hr, -⟩ := hreset
    have hr' : r ∈ ([] : List Reply) := hempty ▸ hr
    cases hr'

/-! ## Numbers that are out of use -/

def NotHeld (s : VsockSwitch) (t : Tuple) (n : Nat) : Prop :=
  ∀ e, s.view t = some e → e.connectionNumber ≠ n

lemma Invariant.number_step (hv' : s'.view t = some e') :
    (∃ e, s.view t = some e ∧ e.connectionNumber = e'.connectionNumber) ∨
      s.nextConnectionNumber ≤ e'.connectionNumber := by
  rcases (hi.phase hstep t).number (phase_number_of_view hv') with hold | hfresh
  · cases hv : s.view t with
    | none =>
      rw [VsockSwitch.phase, hv] at hold
      cases hold
    | some e =>
      rw [phase_number_of_view hv, Option.some.injEq] at hold
      exact Or.inl ⟨e, rfl, hold⟩
  · exact Or.inr hfresh

lemma Invariant.notHeld_step {n : Nat} (hn : n < s.nextConnectionNumber) (hnot : NotHeld s t n) :
    NotHeld s' t n := by
  intro e' hv' heq
  rcases hi.number_step hstep hv' with ⟨e, hv, hsame⟩ | hfresh
  · exact hnot e hv (hsame.trans heq)
  · omega

lemma Invariant.unclassified_step {g p : UInt32} (hnone : s.classify g p = none) :
    s'.classify g p = none := by
  rcases (hi.effect hstep).networkEnabled with hsame | ⟨-, hoff⟩
  · simpa only [classify, hsame] using hnone
  · cases hrole : s'.classify g p with
    | none => rfl
    | some role =>
      have hagent := eq_agentTuple_of_classify hoff hrole
      cases hagent
      simp [classify] at hnone

/-- The endpoint takes no connection under its present number. -/
def Deaf (s : VsockSwitch) (t : Tuple) (e : Endpoint) : Prop :=
  e.retiring.isSome ∨ s.classify t.guestPort t.hostPort = none

lemma Invariant.deaf_step (hv : s.view t = some e) (hv' : s'.view t = some e')
    (hsame : e.connectionNumber = e'.connectionNumber) (hdeaf : Deaf s t e) : Deaf s' t e' := by
  rcases hdeaf with hret | hnone
  · left
    obtain ⟨old, hold⟩ := Option.isSome_iff_exists.1 hret
    have hidle := (hi.valid hv).retired hret
    have hmove := hi.phase hstep t
    have hphase : s.phase t = .retiring e.connectionNumber old := by
      rw [VsockSwitch.phase, hv]
      exact Endpoint.phase_retiring hidle hold
    rw [hphase] at hmove
    have hstay := hmove.retiring (hi.number_lt hv) (hsame ▸ phase_number_of_view hv')
    rw [VsockSwitch.phase, hv'] at hstay
    exact Endpoint.retiring_of_phase hstay
  · exact Or.inr (hi.unclassified_step hstep hnone)

/-! ## Clean switches -/

/-- What is known of an old reset. -/
abbrev Outdated (s : VsockSwitch) (r : Reply) : Prop :=
  r.connectionNumber < s.nextConnectionNumber ∧
    ∀ e, s.view r.header.replyTuple = some e → e.connectionNumber = r.connectionNumber →
      Deaf s r.header.replyTuple e

/-- No reset that is queued, kept aside or already handed out carries the number of an endpoint that
could still be connected under it. -/
structure Clean (es : List SwitchEvent) (s : VsockSwitch) : Prop where
  queued : ∀ t e, s.view t = some e → e.retiring = none → ¬ HasReset e.stream
  stale : ∀ r : Reply, r.header.op = opRst → (r ∈ s.rejected ∨ ∃ ev ∈ es, r ∈ ev.out.taken) →
    Outdated s r

lemma Invariant.stale_step {r : Reply} (hold : Outdated s r) : Outdated s' r := by
  refine ⟨Nat.lt_of_lt_of_le hold.1 (hi.next_le hstep), ?_⟩
  intro e' hv' heq
  rcases hi.number_step hstep hv' with ⟨e, hv, hsame⟩ | hfresh
  · exact hi.deaf_step hstep hv hv' hsame (hold.2 e hv (hsame.trans heq))
  · exact absurd (heq ▸ hold.1) (Nat.not_lt.2 hfresh)

/-- One call keeps a switch clean, unless it makes an idle endpoint answer with a reset. -/
theorem Invariant.clean (hcond : s.answersIdle op = false) (hc : Clean es s) :
    Clean (es ++ [⟨s, op, out, s'⟩]) s' := by
  refine ⟨?_, ?_⟩
  · intro t e' hv' hret'
    exact hi.quiet_step hstep hcond (hc.queued t) hv' hret'
  · intro r hrst hr
    have hold : r ∈ s.rejected ∨ (∃ ev ∈ es, r ∈ ev.out.taken) → Outdated s' r := fun hr =>
      hi.stale_step hstep (hc.stale r hrst hr)
    rcases hr with hr | ⟨ev, hev, hr⟩
    · rcases (hi.effect hstep).mem_rejected hr with
        hr | ⟨h, bytes, -, -, -, htuple, hnumber, hsame, hdeaf⟩
      · exact hold (Or.inl hr)
      · -- The packet has just been rejected, under the number its tuple has.
        rw [Outdated, htuple, hsame, hnumber]
        cases hv : s.view h.guestTuple with
        | none =>
          refine ⟨(hi.step hstep).next_pos, fun e he => ?_⟩
          cases he
        | some e =>
          refine ⟨Nat.lt_of_lt_of_le (hi.number_lt hv) (hi.next_le hstep), ?_⟩
          rintro e' he' -
          cases he'
          exact (hdeaf e hv).imp id (hi.unclassified_step hstep)
    · rcases List.mem_append.1 hev with hev | hev
      · exact hold (Or.inr ⟨ev, hev, hr⟩)
      · rw [List.mem_singleton.1 hev] at hr
        cases hop : op.takes with
        | false =>
          rw [taken_eq_nil hstep hop] at hr
          cases hr
        | true =>
          have heffect := hi.takeEffect hstep hop
          rcases heffect.view r.header.replyTuple with ⟨hv, -⟩ | ⟨e, taken, rest, hv, hv', hd⟩
          · exact hold (Or.inl (heffect.origin r hr hv))
          · rcases hd.resets r hr rfl with hmem | hmem
            · -- It has just left the queue of an endpoint, which must be retiring.
              obtain ⟨r₀, hr₀, hstamp⟩ := List.mem_map.1 hmem
              have hreset : HasReset e.stream := by
                refine ⟨r₀, ?_, ?_⟩
                · rw [hd.queue]
                  exact List.mem_append_left _ hr₀
                · rw [← hrst, ← hstamp]
                  rfl
              have hret : e.retiring.isSome := by
                rw [Option.isSome_iff_ne_none]
                exact fun hnone => hc.queued _ e hv hnone hreset
              have hnumber : r.connectionNumber = e.connectionNumber := by
                rw [← hstamp]
                rfl
              refine ⟨?_, ?_⟩
              · rw [hnumber]
                exact Nat.lt_of_lt_of_le (hi.number_lt hv) (hi.next_le hstep)
              · intro e' he' _
                rw [hv', Option.some.injEq] at he'
                subst he'
                exact Or.inl hret
            · exact hold (Or.inl hmem)

end Step

lemma clean_initial (enabled : Bool) (n : Nat) :
    Clean [] (withNetworkSocketCapacity enabled n) := by
  refine ⟨?_, ?_⟩
  · rintro t e hv - ⟨r, hr, -⟩
    have he : e ∈ [Endpoint.new .agent agentPort agentPort 1,
        Endpoint.new .control controlPort controlPort 2] := (mem_of_lookup hv).1
    simp only [List.mem_cons, List.not_mem_nil, or_false] at he
    rcases he with rfl | rfl <;> cases hr
  · rintro r - (hr | ⟨ev, hev, -⟩)
    · cases hr
    · cases hev

lemma clean_run (enabled : Bool) (n : Nat)
    (hrun : SwitchRun (withNetworkSocketCapacity enabled n) es s)
    (hcond : ∀ ev ∈ es, ev.pre.answersIdle ev.op = false) : Clean es s := by
  induction hrun with
  | nil => exact clean_initial enabled n
  | @snoc m t es op out hrun hstep ih =>
    have hclean := ih fun ev hev => hcond ev (List.mem_append_left _ hev)
    have hlast : m.answersIdle op = false :=
      hcond ⟨m, op, out, t⟩ (List.mem_append_right _ (List.mem_singleton.2 rfl))
    exact ((invariant_initial enabled n).run hrun).clean hstep hlast hclean

/-! ## Fresh connections -/

/-- The event is the acceptance of a guest's request: the tuple becomes connected by it. -/
def Accepts (ev : SwitchEvent) (t : Tuple) : Prop :=
  (∃ h bytes, ev.op = .rx h bytes ∧ h.op = opRequest ∧ h.guestTuple = t) ∧
    (∀ e, ev.pre.view t = some e → e.stream.connection = none) ∧
      ∃ e, ev.post.view t = some e ∧ e.stream.connection.isSome = true

lemma Invariant.not_deaf (hi : Invariant s) (hv : s.view t = some e)
    (hconn : e.stream.connection.isSome = true) : ¬ Deaf s t e := by
  obtain ⟨c, hc⟩ := Option.isSome_iff_exists.1 hconn
  have hlive : e.isLive = true := isLive_of_connection hc
  rintro (hret | hnone)
  · rw [(hi.valid hv).not_retiring hlive] at hret
    cases hret
  · rw [hi.classified hv hlive] at hnone
    cases hnone

lemma Invariant.notHeld_run {n : Nat} (hi : Invariant s) (hn : n < s.nextConnectionNumber)
    (hnot : NotHeld s t n)
    (hrun : SwitchRun s es s') : n < s'.nextConnectionNumber ∧ NotHeld s' t n := by
  induction hrun with
  | nil => exact ⟨hn, hnot⟩
  | snoc hrun hstep ih =>
    have hi' := hi.run hrun
    exact ⟨Nat.lt_of_lt_of_le ih.1 (hi'.next_le hstep), hi'.notHeld_step hstep ih.1 ih.2⟩

lemma not_current_of_notHeld {r : Reply} (hnot : NotHeld s r.header.replyTuple r.connectionNumber)
    (habsent : s.view r.header.replyTuple = none → r.connectionNumber ≠ 0) :
    s.isReplyCurrent r = false := by
  rw [isReplyCurrent]
  cases hi : s.endpointIndex r.header.replyTuple with
  | none => simpa using habsent (view_eq_none_of_endpointIndex hi)
  | some found =>
    have hne := hnot found.2 (view_of_endpointIndex hi)
    simp [hne]

lemma Invariant.fixed_view (hi : Invariant s) (ht : t.isFixed) : s.view t ≠ none := by
  obtain ⟨flows, hfixed⟩ := hi.tuples.fixed
  intro hnone
  refine lookup_eq_none_iff.1 hnone ?_
  change t ∈ s.tuples
  rw [hfixed]
  rcases ht with rfl | rfl
  · exact List.mem_cons_self
  · exact List.mem_cons_of_mem _ List.mem_cons_self

/-- A request that opens a flow finds no reset for the flow's tuple kept aside. -/
lemma Invariant.admission_purges (hi : Invariant s) (hstep : s.step op = some (out, s'))
    (hacc : Accepts ⟨s, op, out, s'⟩ t) (hnone : s.view t = none) :
    ∀ r ∈ s'.rejected, r.header.replyTuple ≠ t := by
  obtain ⟨⟨h, bytes, hop, -, htuple⟩, -, e, hv', -⟩ := hacc
  subst hop htuple
  have hgone : s'.view h.guestTuple = s.view h.guestTuple → False := by
    intro hsame
    rw [hsame, hnone] at hv'
    cases hv'
  have he := hi.effect hstep
  cases he with
  | refused => exact (hgone rfl).elim
  | rejected hop =>
    cases hop
    exact (hgone (reject_view h _)).elim
  | changed hindex hc =>
    cases hc with
    | received hop htuple =>
      cases hop
      rw [← htuple] at hindex
      rw [view_of_endpointIndex hindex] at hnone
      cases hnone
    | delivered hop | shutdown hop | creditRequested hop | consumed hop | reset hop => cases hop
  | admitted hop =>
    cases hop
    intro r hr
    simpa using (List.mem_filter.1 hr).2
  | drained hop =>
    rcases hop with ⟨k, hop⟩ | ⟨k, k', hop⟩
    · cases hop
    · cases hop
  | published hop | released hop | removed hop | cleared hop | lost hop => cases hop

lemma Invariant.accepts_idle (hi : Invariant s) (hstep : s.step op = some (out, s'))
    (hacc : Accepts ⟨s, op, out, s'⟩ t) (hv : s.view t = some e) :
    s.phase t = .idle e.connectionNumber := by
  obtain ⟨⟨h, bytes, hop, hreq, htuple⟩, hpre, e', hv', hconn⟩ := hacc
  have hnone := hpre e hv
  have hview := hi.endpointStep hstep t
  rw [hv, hv'] at hview
  subst hop
  cases hview with
  | untouched =>
    rw [hnone] at hconn
    cases hconn
  | changed hc =>
    cases hc with
    | received hop _ _ hret =>
      cases hop
      have hdown : e.isLive = false := by
        by_cases hended : (e.isLive && !(e.stream.rx h bytes).isLive) = true
        · have hdead :=
            Endpoint.retire_isLive (e := e.withStream (e.stream.rx h bytes)) s.nextConnectionNumber
          rw [Endpoint.receive_ended hended, (isLive_eq_false_iff.1 hdead).1] at hconn
          cases hconn
        · rw [Endpoint.receive_stays hended] at hconn
          exact rx_connects hnone hreq hconn
      rw [VsockSwitch.phase, hv]
      exact Endpoint.phase_idle hdown hret
    | delivered hop | shutdown hop | creditRequested hop | consumed hop | reset hop => cases hop
  | drained hop =>
    rcases hop with ⟨k, hop⟩ | ⟨k, k', hop⟩
    · cases hop
    · cases hop
  | lost hop | cleared hop | released hop => cases hop

/-- In a run in which no idle endpoint answers a packet with a reset, a fresh connection has nothing
to fear from resets generated before its request: none is queued at its endpoint, and those kept
aside or already handed out are never current again while the tuple has an endpoint. -/
theorem fresh_connection_not_reset (enabled : Bool) (n : Nat)
    (hrun : SwitchRun (withNetworkSocketCapacity enabled n) es s)
    (hcond : ∀ ev ∈ es, ev.pre.answersIdle ev.op = false) :
    ∀ before ev after t, es = before ++ ev :: after → Accepts ev t →
      (∀ e, ev.post.view t = some e → ∀ r ∈ e.stream.replies, r.header.op ≠ opRst) ∧
        ∀ r : Reply, r.header.op = opRst → r.header.replyTuple = t →
          ∀ es' s', SwitchRun ev.post es' s' →
            (r ∈ ev.post.rejected → s'.isReplyCurrent r = false) ∧
              ((∃ ev' ∈ before, r ∈ ev'.out.taken) →
                (s'.view t = none → r.connectionNumber ≠ 0) → s'.isReplyCurrent r = false) := by
  intro before ev after t hes hacc
  have hinit := invariant_initial enabled n
  obtain ⟨hbefore, hstep, -⟩ := hrun.split hes
  have hi := hinit.run hbefore
  have hi' := hi.step hstep
  have hrun' := hbefore.snoc hstep
  have hclean : Clean (before ++ [ev]) ev.post := by
    rw [hes] at hcond
    obtain ⟨hbefore, hlater⟩ := List.forall_mem_append.1 hcond
    exact clean_run enabled n hrun'
      (List.forall_mem_append.2
        ⟨hbefore, List.forall_mem_singleton.2 (hlater ev List.mem_cons_self)⟩)
  obtain ⟨e, hv, hconn⟩ := hacc.2.2
  have hlive : e.isLive = true := by
    obtain ⟨c, hc⟩ := Option.isSome_iff_exists.1 hconn
    exact isLive_of_connection hc
  refine ⟨?_, ?_⟩
  · intro e' hv' r hr hrst
    rw [hv, Option.some.injEq] at hv'
    subst hv'
    exact hclean.queued t e hv ((hi'.valid hv).not_retiring hlive) ⟨r, hr, hrst⟩
  · rintro r hrst rfl es' s' hlater
    -- The new connection's number is not the reset's, and no later number will be.
    have hsafe : (r ∈ ev.post.rejected ∨ ∃ ev' ∈ before ++ [ev], r ∈ ev'.out.taken) →
        NotHeld s' r.header.replyTuple r.connectionNumber := by
      intro hr
      obtain ⟨hlt, hdeaf⟩ := hclean.stale r hrst hr
      refine (hi'.notHeld_run hlt ?_ hlater).2
      intro e' hv' heq
      rw [hv, Option.some.injEq] at hv'
      subst hv'
      exact hi'.not_deaf hv hconn (hdeaf e hv heq)
    refine ⟨?_, ?_⟩
    · intro hr
      refine not_current_of_notHeld (hsafe (Or.inl hr)) fun habsent => ?_
      cases hpre : ev.pre.view r.header.replyTuple with
      | none => exact absurd rfl (hi.admission_purges hstep hacc hpre r hr)
      | some e₀ =>
        -- Only the fixed endpoints are ever idle, and they are never removed.
        have hphase := hi.accepts_idle hstep hacc hpre
        have hfixed : r.header.replyTuple.isFixed := by
          by_contra hflow
          exact hinit.flow_run hflow (initial_not_idle hflow) hbefore _ hphase
        exact absurd habsent ((hi'.run hlater).fixed_view hfixed)
    · rintro ⟨ev', hev', hr⟩ habsent
      exact not_current_of_notHeld (hsafe (Or.inr ⟨ev', List.mem_append_left _ hev', hr⟩)) habsent

lemma accepts_of {ev : SwitchEvent} {h : VsockHeader} {bytes : List UInt8}
    (hop : ev.op = .rx h bytes) (hreq : h.op = opRequest)
    (hpre : (ev.pre.view h.guestTuple).all (fun e => e.stream.connection.isNone) = true)
    (hpost : (ev.post.view h.guestTuple).any (fun e => e.stream.connection.isSome) = true) :
    Accepts ev h.guestTuple := by
  refine ⟨⟨h, bytes, hop, hreq, rfl⟩, ?_, ?_⟩
  · intro e hv
    rw [hv] at hpre
    simpa using hpre
  · obtain ⟨e, hv, hconn⟩ := (Option.any_eq_true _ _).1 hpost
    exact ⟨e, hv, hconn⟩

/-- The agent connects, breaks the protocol, and connects again once its reset has been taken. -/
def reconnectOps : List Op :=
  [ .rx (guestHeader agentTuple opRequest 0 0 65536 0) [],
    .rx (guestHeader agentTuple opRequest 0 0 65536 0) [],
    .takeReply 0,
    .retireConnection ⟨.agent, agentPort, agentPort, 1⟩,
    .rx (guestHeader agentTuple opRequest 0 0 65536 0) [] ]

theorem fresh_connection_not_reset_agent :
    ∃ es s, ∃ r : Reply, SwitchRun oneFlow es s ∧
      (∀ ev ∈ es, ev.pre.answersIdle ev.op = false) ∧ (∃ ev ∈ es, r ∈ ev.out.taken) ∧
        r.header.op = opRst ∧ r.header.replyTuple = agentTuple ∧
          s.isOpen ⟨.agent, agentPort, agentPort, 4⟩ = true ∧ s.isReplyCurrent r = false := by
  have hrun := Run.exec_run step oneFlow reconnectOps (by decide)
  have hcond : ∀ ev ∈ ((Run.exec step oneFlow reconnectOps).get (by decide)).1,
      ev.pre.answersIdle ev.op = false := by
    decide
  have hfresh := fresh_connection_not_reset true 1 hrun hcond
    (List.take 4 ((Run.exec step oneFlow reconnectOps).get (by decide)).1)
    (List.get ((Run.exec step oneFlow reconnectOps).get (by decide)).1 ⟨4, by decide⟩)
    [] agentTuple rfl
    (accepts_of (h := guestHeader agentTuple opRequest 0 0 65536 0) rfl rfl (by decide) (by decide))
  have hresets := hfresh.2 ((rstReply agentPort agentPort).stamped 3) rfl rfl [] _ Run.Trace.nil
  exact ⟨_, _, (rstReply agentPort agentPort).stamped 3, hrun,
    hcond, by decide, rfl, rfl, by decide, hresets.2 (by decide) (by decide)⟩

/-- The idle agent endpoint answers a stray packet with a reset, then the agent connects. -/
def strayOps : List Op :=
  [ .rx (guestHeader agentTuple opCreditUpdate 0 0 0 0) [],
    .rx (guestHeader agentTuple opRequest 0 0 65536 0) [],
    .takeReply 0 ]

theorem idle_reset_outlives_request :
    ∃ before ev after s, ∃ r : Reply, SwitchRun oneFlow (before ++ ev :: after) s ∧
        Accepts ev agentTuple ∧ r.header.op = opRst ∧ r.header.replyTuple = agentTuple ∧
          (∃ e ∈ ev.pre.endpoints, e.tuple = agentTuple ∧
            ∃ r' ∈ e.stream.replies, r = r'.stamped e.connectionNumber) ∧
            (∃ ev' ∈ after, r ∈ ev'.out.taken) ∧ s.isReplyCurrent r = true := by
  have hrun := Run.exec_run step oneFlow strayOps (by decide)
  refine ⟨List.take 1 ((Run.exec step oneFlow strayOps).get (by decide)).1,
    List.get ((Run.exec step oneFlow strayOps).get (by decide)).1 ⟨1, by decide⟩,
    List.drop 2 ((Run.exec step oneFlow strayOps).get (by decide)).1,
    _, (rstReply agentPort agentPort).stamped 1, hrun, ?_, rfl, rfl, by decide, by decide,
    by decide⟩
  exact accepts_of (h := guestHeader agentTuple opRequest 0 0 65536 0) rfl rfl (by decide)
    (by decide)

end VsockSwitch

end Terrarium.Vsock
