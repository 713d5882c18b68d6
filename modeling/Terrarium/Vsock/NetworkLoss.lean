import Terrarium.Vsock.Lifecycle

/-!
# NetworkLoss — after the network is gone

`disable_network` resets every connection but the agent's and turns the network off for good.  From
then on no flow is added, the flows that are left only drain, and each one leaves as soon as its
resets have been taken and its binding is released.

* `Winding` — a flow that is on its way out;
* `Invariant.winding_step` — a call either removes such a flow or lets it drain further.
-/

namespace Terrarium.Vsock

open KeyedList

namespace VsockSwitch

variable {s s' : VsockSwitch} {t : Tuple} {e e' : Endpoint} {op : Op} {out : Outcome}
  {es : List SwitchEvent}

/-! ## Without a network -/

lemma Invariant.disabled_step (hi : Invariant s) (hstep : s.step op = some (out, s'))
    (hoff : s.networkEnabled = false) : s'.networkEnabled = false := by
  rcases (hi.effect hstep).networkEnabled with hsame | ⟨-, hoff'⟩
  · rw [hsame]
    exact hoff
  · exact hoff'

lemma Invariant.disabled_run (hi : Invariant s) (hoff : s.networkEnabled = false)
    (hrun : SwitchRun s es s') : s'.networkEnabled = false := by
  induction hrun with
  | nil => exact hoff
  | snoc hrun hstep ih => exact (hi.run hrun).disabled_step hstep ih

lemma disableNetwork_length : s.disableNetwork.endpoints.length = s.endpoints.length := by
  change (s.endpoints.take 1 ++ (sweep resetNetworkEndpoint _ _).1).length = _
  rw [List.length_append, sweep_length, ← List.length_append, List.take_append_drop]

lemma CallEffect.length_le (he : CallEffect s op out s') (hw : Tuples s)
    (hoff : s.networkEnabled = false) : s'.endpoints.length ≤ s.endpoints.length := by
  cases he with
  | refused => exact Nat.le_refl _
  | rejected =>
    rw [reject]
    split <;> exact Nat.le_refl _
  | changed | released => exact Nat.le_of_eq (List.length_set ..)
  | @admitted role h _ _ hfree hrole =>
    -- Only the agent's ports are classified, and the agent's endpoint is never missing.
    have hagent : h.guestTuple = agentTuple := eq_agentTuple_of_classify hoff hrole
    obtain ⟨flows, hfixed⟩ := hw.fixed
    refine absurd ?_ (lookup_eq_none_iff.1 hfree)
    change h.guestTuple ∈ s.tuples
    rw [hfixed, hagent]
    exact List.mem_cons_self
  | published _ _ hon =>
    rw [hoff] at hon
    cases hon
  | removed => exact (List.eraseIdx_sublist _ _).length_le
  | drained _ _ heffect => exact Nat.le_of_eq (length_eq_of_tuples heffect.tuples)
  | cleared => exact Nat.le_of_eq (sweep_length ..)
  | lost => exact Nat.le_of_eq disableNetwork_length

/-- Without a network no flow appears. -/
theorem Invariant.absent_step (hi : Invariant s) (hstep : s.step op = some (out, s'))
    (hoff : s.networkEnabled = false) (hfixed : ¬ t.isFixed) (hv : s.view t = none) :
    s'.view t = none := by
  have hview := hi.endpointStep hstep t
  rw [hv] at hview
  generalize s'.view t = v' at hview ⊢
  cases hview with
  | untouched => rfl
  | admitted _ htuple hrole =>
    have hagent := eq_agentTuple_of_classify hoff hrole
    exact absurd (Or.inl (htuple.symm.trans hagent)) hfixed
  | published _ _ hon =>
    rw [hoff] at hon
    cases hon

/-! ## Flows on their way out -/

/-- Endpoint `e'` is `e`, retiring under the old number `old`, with at most fewer replies queued. -/
structure Winding (e e' : Endpoint) (old : Nat) : Prop where
  role : e'.role = e.role
  retiring : e'.retiring = some old
  dead : e'.isLive = false
  replies : e'.stream.replies <:+ e.stream.replies

lemma Winding.trans {e'' : Endpoint} {old : Nat} (h₁ : Winding e e' old)
    (h₂ : Winding e' e'' old) : Winding e e'' old :=
  ⟨h₂.role.trans h₁.role, h₂.retiring, h₂.dead, h₂.replies.trans h₁.replies⟩

/-- A call removes a flow that is on its way out, or lets it drain further. -/
theorem Invariant.winding_step {old : Nat} (hi : Invariant s) (hstep : s.step op = some (out, s'))
    (hfixed : ¬ t.isFixed) (hv : s.view t = some e) (hret : e.retiring = some old) :
    s'.view t = none ∨ ∃ e', s'.view t = some e' ∧ Winding e e' old := by
  have hdead : e.isLive = false := (hi.valid hv).retired (by rw [hret]; rfl)
  have hlive : ∀ {P : Prop}, e.isLive = true → P := by
    intro P hlive
    rw [hdead] at hlive
    cases hlive
  have hview := hi.endpointStep hstep t
  rw [hv] at hview
  generalize s'.view t = v' at hview ⊢
  cases hview with
  | untouched => exact Or.inr ⟨e, rfl, rfl, hret, hdead, List.suffix_refl _⟩
  | changed hc =>
    -- Every call that changes an endpoint needs it live, or at least not retiring.
    cases hc with
    | received _ _ _ hnone =>
      rw [hret] at hnone
      cases hnone
    | delivered _ hconn | shutdown _ hconn | creditRequested _ hconn | consumed _ hconn =>
      exact hlive (Endpoint.isLive_of_connected hconn)
    | reset _ _ _ hup => exact hlive hup
  | lost _ _ hup => exact hlive hup
  | @cleared _ n _ _ =>
    refine Or.inr ⟨_, rfl, ?_⟩
    rw [resetEndpoint, if_neg (by simp [hdead])]
    exact ⟨rfl, hret, hdead, List.nil_suffix⟩
  | @drained _ taken rest _ hd =>
    refine Or.inr ⟨_, rfl, rfl, hret, hdead, ?_⟩
    rw [hd.queue]
    exact List.suffix_append taken rest
  | released _ _ _ _ _ hfix => exact absurd hfix hfixed
  | removed => exact Or.inl rfl

lemma Invariant.winding_run {old : Nat} (hi : Invariant s) (hoff : s.networkEnabled = false)
    (hfixed : ¬ t.isFixed) (hv : s.view t = some e) (hret : e.retiring = some old)
    (hrun : SwitchRun s es s') :
    s'.view t = none ∨ ∃ e', s'.view t = some e' ∧ Winding e e' old := by
  induction hrun with
  | nil =>
    have hdead : e.isLive = false := (hi.valid hv).retired (by rw [hret]; rfl)
    exact Or.inr ⟨e, hv, rfl, hret, hdead, List.suffix_refl _⟩
  | snoc hrun hstep ih =>
    have hi' := hi.run hrun
    -- A flow that is gone stays gone, because no flow is admitted without a network.
    rcases ih with hnone | ⟨e', hv', hw⟩
    · exact Or.inl (hi'.absent_step hstep (hi.disabled_run hoff hrun) hfixed hnone)
    · rcases hi'.winding_step hstep hfixed hv' hw.retiring with hnone | ⟨e'', hv'', hw'⟩
      · exact Or.inl hnone
      · exact Or.inr ⟨e'', hv'', hw.trans hw'⟩

/-- A retiring flow whose queue is empty is removed when its connection is released. -/
lemma Invariant.retireConnection_removes (hi : Invariant s) {c : ConnectionId}
    (hfixed : ¬ c.tuple.isFixed) (hv : s.view c.tuple = some e) (hrole : e.role = c.role)
    (hret : e.retiring = some c.number) (hempty : e.stream.replies = []) :
    (s.retireConnection c).1 = true ∧ (s.retireConnection c).2.view c.tuple = none := by
  obtain ⟨i, hindex⟩ := endpointIndex_of_view hv
  have hflow : fixedEndpoints ≤ i := by
    by_contra hlt
    exact hfixed ((fixed_iff_index hi.tuples hindex).2 (Nat.lt_of_not_le hlt))
  rw [retireConnection, hindex]
  dsimp only
  rw [if_neg (by simp [hrole, hret, hempty]), if_pos hflow]
  refine ⟨rfl, ?_⟩
  have hgone := lookup_eraseIdx hi.tuples.nodup hindex c.tuple
  rw [if_pos rfl] at hgone
  exact hgone

/-! ## The moment of loss -/

lemma isCurrent_of_view_eq {c : ConnectionId} (hview : s'.view c.tuple = s.view c.tuple)
    (hc : s.isCurrent c = true) : s'.isCurrent c = true := by
  obtain ⟨⟨i, e⟩, hfound⟩ := Option.isSome_iff_exists.1 hc
  obtain ⟨hindex, hconn⟩ := connectionIndex_eq_some.1 hfound
  obtain ⟨i', hindex'⟩ := endpointIndex_of_view (hview.trans (view_of_endpointIndex hindex))
  rw [isCurrent, connectionIndex_eq_some.2 ⟨hindex', hconn⟩]
  rfl

lemma Invariant.disableNetwork_agent (hi : Invariant s) :
    s.disableNetwork.view agentTuple = s.view agentTuple := by
  have hview := disableNetwork_step hi.tuples .done agentTuple
  generalize s.view agentTuple = v, s.disableNetwork.view agentTuple = v' at hview ⊢
  cases hview with
  | untouched => rfl
  | changed hc =>
    cases hc with
    | received hop | delivered hop | shutdown hop | creditRequested hop | consumed hop
    | reset hop => cases hop
  | lost _ hne => exact absurd rfl hne
  | drained hop =>
    rcases hop with ⟨k, hop⟩ | ⟨k, k', hop⟩
    · cases hop
    · cases hop
  | admitted hop | published hop | cleared hop | released hop | removed hop => cases hop

lemma step_disableNetwork (hstep : s.step .disableNetwork = some (out, s')) :
    s' = s.disableNetwork :=
  (apply_of_step hstep).2.symm

lemma Invariant.flow_retiring (hi : Invariant s) (hoff : s.networkEnabled = false)
    (hflow : ∀ m, s.phase t ≠ .idle m) (hfixed : ¬ t.isFixed) (hv : s.view t = some e) :
    ∃ old, e.retiring = some old := by
  have hdead : e.isLive = false := by
    rw [Bool.eq_false_iff]
    intro hlive
    exact hfixed (Or.inl (hi.network hoff hv hlive))
  rw [VsockSwitch.phase, hv] at hflow
  rw [← Option.isSome_iff_exists, Option.isSome_iff_ne_none]
  exact fun hnone => hflow e.connectionNumber (Endpoint.phase_idle hdead hnone)

/-- After the network is lost only the agent's endpoint is ever live, no flow is added, the agent's
connection is as it was, and each flow that was there is removed when it is released with an empty
queue, which only shrinks. -/
theorem network_loss (enabled : Bool) (n : Nat) {es es' : List SwitchEvent}
    {s₀ s₁ s₂ : VsockSwitch} (hrun : SwitchRun (withNetworkSocketCapacity enabled n) es s₀)
    (hloss : s₀.step .disableNetwork = some (out, s₁)) (hlater : SwitchRun s₁ es' s₂) :
    (∀ e ∈ s₂.endpoints, e.isLive = true → e.role = .agent) ∧
      s₁.networkSocketCount = s₀.networkSocketCount ∧
      (∀ ev ∈ es', ev.post.networkSocketCount ≤ ev.pre.networkSocketCount) ∧
      s₁.view agentTuple = s₀.view agentTuple ∧
      (∀ c, c.tuple = agentTuple → s₀.isCurrent c = true → s₁.isCurrent c = true) ∧
      ∀ e ∈ s₁.endpoints, ¬ e.tuple.isFixed → ∃ old, e.retiring = some old ∧
        (s₂.view e.tuple = none ∨ ∃ e', s₂.view e.tuple = some e' ∧ Winding e e' old ∧
          (∀ r ∈ e'.stream.replies, r.header.op = opRst) ∧
            (e'.stream.replies = [] → (s₂.retireConnection (e.identity old)).1 = true ∧
              (s₂.retireConnection (e.identity old)).2.view e.tuple = none)) := by
  have hinit := invariant_initial enabled n
  have hi₀ := hinit.run hrun
  have hi₁ := hi₀.step hloss
  have hi₂ := hi₁.run hlater
  have hs₁ := step_disableNetwork hloss
  have hoff : s₁.networkEnabled = false := by
    rw [hs₁]
    rfl
  have hagent : s₁.view agentTuple = s₀.view agentTuple := by
    rw [hs₁]
    exact hi₀.disableNetwork_agent
  refine ⟨?_, ?_, ?_, hagent, ?_, ?_⟩
  · intro e he hlive
    have hv := view_of_mem hi₂.tuples he
    have htuple := hi₂.network (hi₁.disabled_run hoff hlater) hv hlive
    have hrole := (hi₂.valid hv).role
    rw [htuple] at hrole
    exact Option.some.inj (hrole.symm.trans (by decide))
  · rw [hs₁, networkSocketCount, networkSocketCount, disableNetwork_length]
  · intro ev hev
    obtain ⟨before, hbefore, hstep⟩ := hlater.event hev
    have hi := hi₁.run hbefore
    have hlength := (hi.effect hstep).length_le hi.tuples (hi₁.disabled_run hoff hbefore)
    exact Nat.sub_le_sub_right hlength fixedEndpoints
  · intro c hc
    exact isCurrent_of_view_eq (hc ▸ hagent)
  · intro e he hfixed
    have hv := view_of_mem hi₁.tuples he
    have hflow := hinit.flow_run hfixed (initial_not_idle hfixed) (hrun.snoc hloss)
    obtain ⟨old, hret⟩ := hi₁.flow_retiring hoff hflow hfixed hv
    refine ⟨old, hret, ?_⟩
    rcases hi₁.winding_run hoff hfixed hv hret hlater with hnone | ⟨e', hv', hw⟩
    · exact Or.inl hnone
    · refine Or.inr ⟨e', hv', hw, ?_, ?_⟩
      · exact (hi₂.valid hv').quiet hw.dead
      · exact hi₂.retireConnection_removes (c := e.identity old) hfixed hv' hw.role hw.retiring

def openOps : List Op :=
  [ .rx (guestHeader agentTuple opRequest 0 0 65536 0) [],
    .rx (guestHeader ⟨49152, tcpPort⟩ opRequest 0 0 65536 0) [] ]

def lostSwitch : VsockSwitch :=
  ((Run.exec step oneFlow openOps).get (by decide)).2.disableNetwork

theorem network_loss_flow :
    ∃ s₀ s₁ s₂ es es', SwitchRun oneFlow es s₀ ∧
      s₀.step .disableNetwork = some (.done, s₁) ∧ SwitchRun s₁ es' s₂ ∧
        s₁.isCurrent ⟨.agent, agentPort, agentPort, 1⟩ = true ∧
          (s₂.retireConnection firstFlow).1 = true ∧
            (s₂.retireConnection firstFlow).2.view ⟨49152, tcpPort⟩ = none := by
  have hrun := Run.exec_run step oneFlow openOps (by decide)
  have hloss := step_eq_apply ((Run.exec step oneFlow openOps).get (by decide)).2
    .disableNetwork (by decide)
  have hdrain := Run.exec_run step lostSwitch [.takeReply 0, .takeReply 0, .takeReply 0] (by decide)
  obtain ⟨-, -, -, -, hagent, hflows⟩ := network_loss true 1 hrun hloss hdrain
  obtain ⟨old, hret, hcase⟩ :=
    hflows (lostSwitch.endpoints.get ⟨2, by decide⟩) (List.get_mem _ _) (by decide)
  have hold : old = 3 := Option.some.inj (hret.symm.trans (by decide))
  subst hold
  rcases hcase with hnone | ⟨e, hv, -, -, hremoved⟩
  · exact absurd hnone (by decide)
  · have hempty : e.stream.replies = [] := by
      have hall : ∀ e' ∈ ((Run.exec step lostSwitch
          [.takeReply 0, .takeReply 0, .takeReply 0]).get (by decide)).2.view ⟨49152, tcpPort⟩,
          e'.stream.replies = [] := by
        decide
      exact hall e hv
    exact ⟨_, _, _, _, _, hrun, hloss, hdrain, hagent _ rfl (by decide), hremoved hempty⟩

end VsockSwitch

end Terrarium.Vsock
