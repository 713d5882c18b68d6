import Terrarium.Foundations.Rotation
import Terrarium.Vsock.SwitchInvariant

/-!
# FairDrain — every endpoint gets its turn

Replies are drained by two nested rotations: one over the classes (agent, control, flows), one over
the flows. `waiting` measures both cursors at once; every call of `take_reply` that serves somebody
else lowers it.

* `Fair` — how long an endpoint can be passed over, and what a batch of replies leaves behind.
-/

namespace Terrarium.Vsock
namespace VsockSwitch

open Rotation StreamConnection

variable {s s' s'' : VsockSwitch} {index maxBytes : Nat} {e : Endpoint} {r : Reply}

/-! ## Serving one endpoint -/

/-- The head of an endpoint's queue fits a byte limit. -/
def HeadFits (e : Endpoint) (maxBytes : Nat) : Prop :=
  ∃ head rest, e.stream.replies = head :: rest ∧ head.payload.length ≤ maxBytes

/-- `r` is the head of the queue at an index, handed out. -/
def Serves (s : VsockSwitch) (index : Nat) (r : Reply) (s' : VsockSwitch) : Prop :=
  ∃ e head rest, s.endpoints[index]? = some e ∧ e.stream.replies = head :: rest ∧
    r = head.stamped e.connectionNumber ∧ s'.endpoints = s.endpoints.set index (e.drain [head] rest)

lemma takeReplyFrom_some (h : s.takeReplyFrom index maxBytes = some (r, s')) :
    Serves s index r s' ∧ r.payload.length ≤ maxBytes ∧
    s' = { s with endpoints := s'.endpoints } := by
  obtain ⟨e, he, htake⟩ := Option.bind_eq_some_iff.1 h
  obtain ⟨⟨head, stream⟩, hstream, heq⟩ := Option.map_eq_some_iff.1 htake
  cases heq
  obtain ⟨rest, hreplies, hfits, rfl⟩ := takeReply_eq_some.1 hstream
  refine ⟨⟨e, head, rest, he, hreplies, rfl, ?_⟩, hfits, rfl⟩
  simp [setEndpoint, Endpoint.drain]

lemma takeReplyFrom_ne_none (he : s.endpoints[index]? = some e) (hfits : HeadFits e maxBytes) :
    s.takeReplyFrom index maxBytes ≠ none := by
  obtain ⟨head, rest, hreplies, hfits⟩ := hfits
  rw [takeReplyFrom, he, Option.bind_some, takeReply_eq_some.2 ⟨rest, hreplies, hfits, rfl⟩]
  exact Option.some_ne_none _

/-! ## The two rotations -/

def flowReply (s : VsockSwitch) (maxBytes slot : Nat) : Option (Reply × VsockSwitch) :=
  (s.takeReplyFrom (fixedEndpoints + slot) maxBytes).map fun r =>
    (r.1, { r.2 with
      nextFlowReply := (fixedEndpoints + slot - fixedEndpoints + 1) % s.networkSocketCount })

lemma takeFlowReply_eq_scan : s.takeFlowReply maxBytes =
    scan s.networkSocketCount s.nextFlowReply (s.flowReply maxBytes) := rfl

def classReply (s : VsockSwitch) (maxBytes replyClass : Nat) : Option (Reply × VsockSwitch) :=
  (if replyClass < fixedEndpoints then s.takeReplyFrom replyClass maxBytes
    else s.takeFlowReply maxBytes).map
    fun r => (r.1, { r.2 with nextReply := (replyClass + 1) % replyClasses })

lemma takeClassReply_eq_scan : s.takeClassReply maxBytes =
    scan replyClasses s.nextReply (s.classReply maxBytes) := rfl

def classAt (index : Nat) : Nat :=
  min index fixedEndpoints

lemma flow_index (hindex : index < s.endpoints.length) (hflow : fixedEndpoints ≤ index) :
    index - fixedEndpoints < s.networkSocketCount ∧
    fixedEndpoints + (index - fixedEndpoints) = index := by
  rw [networkSocketCount]
  omega

lemma flowReply_ne_none (he : s.endpoints[index]? = some e) (hfits : HeadFits e maxBytes)
    (hflow : fixedEndpoints ≤ index) : s.flowReply maxBytes (index - fixedEndpoints) ≠ none := by
  rw [flowReply, Nat.add_sub_cancel' hflow, ne_eq, Option.map_eq_none_iff]
  exact takeReplyFrom_ne_none he hfits

lemma classReply_ne_none (he : s.endpoints[index]? = some e) (hfits : HeadFits e maxBytes) :
    s.classReply maxBytes (classAt index) ≠ none := by
  rw [classReply, classAt, ne_eq, Option.map_eq_none_iff]
  by_cases hfixed : index < fixedEndpoints
  · rw [min_eq_left hfixed.le, if_pos hfixed]
    exact takeReplyFrom_ne_none he hfits
  · have hflow := Nat.le_of_not_lt hfixed
    rw [min_eq_right hflow, if_neg (lt_irrefl _), takeFlowReply_eq_scan]
    intro hnone
    have hlt := (List.getElem?_eq_some_iff.1 he).1
    exact flowReply_ne_none he hfits hflow (give_of_scan hnone (flow_index hlt hflow).1)

/-- What one call takes from a class: from the endpoint itself, or from a flow the flows' cursor
then passes. -/
lemma classReply_some {replyClass : Nat} (h : s.classReply maxBytes replyClass = some (r, s')) :
    ∃ index, Serves s index r s' ∧ r.payload.length ≤ maxBytes ∧ s'.rejected = s.rejected ∧
      s'.nextReply = (replyClass + 1) % replyClasses ∧
      (replyClass < fixedEndpoints → index = replyClass ∧ s'.nextFlowReply = s.nextFlowReply) := by
  obtain ⟨⟨r', s₁⟩, hreply, heq⟩ := Option.map_eq_some_iff.1 h
  cases heq
  split at hreply
  · obtain ⟨hserves, hfits, hsame⟩ := takeReplyFrom_some hreply
    exact ⟨replyClass, hserves, hfits, by rw [hsame], rfl, fun _ => ⟨rfl, by rw [hsame]⟩⟩
  next hflows =>
    rw [takeFlowReply_eq_scan] at hreply
    obtain ⟨slot, hflow⟩ := of_scan hreply
    obtain ⟨⟨r'', s₂⟩, hfrom, heq⟩ := Option.map_eq_some_iff.1 hflow
    cases heq
    obtain ⟨hserves, hfits, hsame⟩ := takeReplyFrom_some hfrom
    exact ⟨_, hserves, hfits, by rw [hsame], rfl, fun hfixed => absurd hfixed hflows⟩

lemma takeReply_cases (s : VsockSwitch) (maxBytes : Nat) :
    (∃ index r s', s.takeReply maxBytes = (some r, s') ∧ Serves s index r s' ∧
      r.payload.length ≤ maxBytes ∧ s'.rejected = s.rejected) ∨
    (∀ e ∈ s.endpoints, ¬ HeadFits e maxBytes) ∧
      ((∃ r rest, s.rejected = r :: rest ∧ s.takeReply maxBytes =
        (some r, { s with rejected := rest })) ∨
        s.rejected = [] ∧ s.takeReply maxBytes = (none, s)) := by
  rw [takeReply]
  cases hclass : s.takeClassReply maxBytes with
  | some taken =>
    rw [takeClassReply_eq_scan] at hclass
    obtain ⟨replyClass, hreply⟩ := of_scan hclass
    obtain ⟨index, hserves, hfits, hrejected, -⟩ := classReply_some hreply
    exact Or.inl ⟨index, _, _, rfl, hserves, hfits, hrejected⟩
  | none =>
    refine Or.inr ⟨fun e he hfits => ?_, ?_⟩
    · obtain ⟨index, he⟩ := List.mem_iff_getElem?.1 he
      have hlt : classAt index < replyClasses := Nat.lt_succ_of_le (min_le_right _ _)
      exact classReply_ne_none he hfits (give_of_scan hclass hlt)
    · cases hrejected : s.rejected with
      | nil => exact Or.inr ⟨rfl, rfl⟩
      | cons r rest => exact Or.inl ⟨r, rest, rfl, rfl⟩

/-! ## Waiting -/

/-- How many calls can still serve other endpoints first. -/
def waiting (s : VsockSwitch) (index : Nat) : Nat :=
  (if index < fixedEndpoints then 0
    else 3 * distance s.networkSocketCount s.nextFlowReply (index - fixedEndpoints)) +
    distance replyClasses s.nextReply (classAt index)

lemma waiting_lt (hindex : index < s.endpoints.length) :
    s.waiting index < 3 * max s.networkSocketCount 1 := by
  have hclass : distance replyClasses s.nextReply (classAt index) < 3 :=
    distance_lt _ (Nat.lt_succ_of_le (min_le_right _ _))
  rw [waiting]
  split
  · omega
  next hflow =>
    have hslot := distance_lt s.nextFlowReply (flow_index hindex (Nat.le_of_not_lt hflow)).1
    omega

lemma distance_mod (count cursor slot : Nat) : distance count (cursor % count) slot =
    distance count cursor slot := by
  rw [distance, Nat.mod_mod, distance]

/-- A call that passes over an endpoint brings one of the cursors closer to it. -/
lemma waiting_takeReply (he : s.endpoints[index]? = some e) (hfits : HeadFits e maxBytes)
    (hpassed : ∀ r, (s.takeReply maxBytes).1 = some r →
      ¬ Serves s index r (s.takeReply maxBytes).2) :
    (s.takeReply maxBytes).2.waiting index < s.waiting index ∧
      (s.takeReply maxBytes).2.endpoints.length = s.endpoints.length := by
  have hindex := (List.getElem?_eq_some_iff.1 he).1
  have hclass : classAt index < replyClasses := Nat.lt_succ_of_le (min_le_right _ _)
  obtain ⟨found, ⟨r, s'⟩, hscan, hfound, hgive, hcloser⟩ :=
    scan_approaches s.nextReply hclass (classReply_ne_none he hfits)
  have htake : s.takeReply maxBytes = (some r, s') := by
    rw [takeReply, takeClassReply_eq_scan, hscan]
  rw [htake] at hpassed ⊢
  obtain ⟨served, hserves, -, -, hnext, hfixed⟩ := classReply_some hgive
  have hlength : s'.endpoints.length = s.endpoints.length := by
    obtain ⟨_, _, _, _, _, _, hset⟩ := hserves
    rw [hset, List.length_set]
  have hcount : s'.networkSocketCount = s.networkSocketCount := by
    rw [networkSocketCount, hlength, networkSocketCount]
  refine ⟨?_, hlength⟩
  rw [waiting, waiting, hcount, hnext, distance_mod]
  split
  next hflow =>
    rw [classAt, min_eq_left hflow.le] at hcloser ⊢
    rcases hcloser with rfl | hcloser
    · obtain ⟨rfl, -⟩ := hfixed hflow
      exact absurd hserves (hpassed r rfl)
    · omega
  next hflow =>
    have hflow' := Nat.le_of_not_lt hflow
    rw [classAt, min_eq_right hflow'] at hcloser ⊢
    rcases Nat.lt_or_ge found fixedEndpoints with hless | hflows
    · -- The agent or control endpoint was served; the flows' cursor stands still.
      rw [(hfixed hless).2]
      rcases hcloser with rfl | hcloser
      · exact absurd hless (lt_irrefl _)
      · omega
    · -- Another flow was served, and the classes start anew.
      obtain rfl : found = fixedEndpoints := Nat.le_antisymm (Nat.le_of_lt_succ hfound) hflows
      obtain ⟨⟨r', s₁⟩, hreply, heq⟩ := Option.map_eq_some_iff.1 hgive
      cases heq
      rw [if_neg (lt_irrefl _), takeFlowReply_eq_scan] at hreply
      obtain ⟨hslot, hsum⟩ := flow_index hindex hflow'
      obtain ⟨slot, ⟨r'', s₂⟩, hscan', -, hgive', hcloser'⟩ :=
        scan_approaches s.nextFlowReply hslot (flowReply_ne_none he hfits hflow')
      rw [hscan'] at hreply
      cases hreply
      obtain ⟨⟨r', s₃⟩, hfrom, heq⟩ := Option.map_eq_some_iff.1 hgive'
      cases heq
      rw [Nat.add_sub_cancel_left, distance_mod]
      have hrestart : distance replyClasses (fixedEndpoints + 1) fixedEndpoints = 2 := by decide
      rcases hcloser' with rfl | hcloser'
      · rw [hsum] at hfrom
        exact absurd (takeReplyFrom_some hfrom).1 (hpassed _ rfl)
      · omega

/-- A change between two calls that adds and removes no endpoint. -/
structure Undisturbed (s s' : VsockSwitch) : Prop where
  tuples : s'.tuples = s.tuples
  nextReply : s'.nextReply = s.nextReply
  nextFlowReply : s'.nextFlowReply = s.nextFlowReply

/-- So many calls of `take_reply` pass over an endpoint whose head reply fits. -/
inductive Passes (index : Nat) (s : VsockSwitch) : Nat → VsockSwitch → Prop where
  | none : Passes index s 0 s
  | between {calls : Nat} {s' s'' : VsockSwitch} :
      Passes index s calls s' → Undisturbed s' s'' → Passes index s calls s''
  | call {calls maxBytes : Nat} {s' : VsockSwitch} {e : Endpoint} :
      Passes index s calls s' → s'.endpoints[index]? = some e → HeadFits e maxBytes →
        (∀ r, (s'.takeReply maxBytes).1 = some r → ¬ Serves s' index r (s'.takeReply maxBytes).2) →
          Passes index s (calls + 1) (s'.takeReply maxBytes).2

theorem Passes.waiting {calls : Nat} (h : Passes index s calls s') :
    calls + s'.waiting index ≤ s.waiting index ∧ s'.endpoints.length = s.endpoints.length := by
  induction h with
  | none => exact ⟨(Nat.zero_add _).le, rfl⟩
  | between _ hbetween ih =>
    obtain ⟨hle, hlength⟩ := ih
    have hsame := length_eq_of_tuples hbetween.tuples
    refine ⟨?_, hsame.trans hlength⟩
    rw [VsockSwitch.waiting, networkSocketCount, hsame, hbetween.nextReply, hbetween.nextFlowReply]
    exact hle
  | call _ he hfits hpassed ih =>
    obtain ⟨hless, hlength⟩ := waiting_takeReply he hfits hpassed
    exact ⟨by omega, hlength.trans ih.2⟩

/-! ## Batches -/

structure Batch (maxItems maxBytes : Nat) (taken : List Reply × VsockSwitch) : Prop where
  items : taken.1.length ≤ maxItems
  bytes : payloadBytes taken.1 ≤ maxBytes
  /-- The batch ends early only when nothing is left that fits. -/
  stops : taken.1.length < maxItems →
    taken.2.rejected = [] ∧ ∀ e ∈ taken.2.endpoints, ¬ HeadFits e (maxBytes - payloadBytes taken.1)

lemma Batch.cons {maxItems : Nat} {rs : List Reply}
    (h : Batch maxItems (maxBytes - r.payload.length) (rs, s'))
    (hfits : r.payload.length ≤ maxBytes) : Batch (maxItems + 1) maxBytes (r :: rs, s') := by
  have hbytes : payloadBytes rs ≤ maxBytes - r.payload.length := h.bytes
  refine ⟨Nat.succ_le_succ h.items, ?_, fun hlt => ?_⟩
  · rw [payloadBytes_cons]
    omega
  · rw [payloadBytes_cons, ← Nat.sub_sub]
    exact h.stops (Nat.lt_of_succ_lt_succ hlt)

lemma takeRepliesUpTo_batch (hrejected : ∀ r ∈ s.rejected, r.payload = [])
    (maxItems maxBytes : Nat) : Batch maxItems maxBytes (s.takeRepliesUpTo maxItems maxBytes) := by
  induction maxItems generalizing s maxBytes with
  | zero => exact ⟨le_refl _, Nat.zero_le _, fun hlt => absurd hlt (lt_irrefl _)⟩
  | succ maxItems ih =>
    rw [takeRepliesUpTo]
    rcases takeReply_cases s maxBytes with
      ⟨_, r, s', htake, -, hfits, hsame⟩ | ⟨hnothing, ⟨r, rest, hcons, htake⟩ | ⟨hnil, htake⟩⟩
    · rw [htake]
      exact (ih (hsame ▸ hrejected) _).cons hfits
    · rw [htake]
      rw [hcons, List.forall_mem_cons] at hrejected
      refine Batch.cons (ih hrejected.2 _) ?_
      rw [hrejected.1]
      exact Nat.zero_le _
    · rw [htake]
      exact ⟨Nat.zero_le _, Nat.zero_le _, fun _ => ⟨hnil, hnothing⟩⟩

structure Fair (s : VsockSwitch) : Prop where
  /-- An endpoint is not passed over more often than the flows' number allows. -/
  turns : ∀ {index calls s'}, index < s.endpoints.length → Passes index s calls s' →
    calls < 3 * max s.networkSocketCount 1
  /-- A reset that was kept outside the endpoints waits until no endpoint's head fits. -/
  resets : ∀ {maxBytes r}, (s.takeReply maxBytes).1 = some r →
    (∃ index, Serves s index r (s.takeReply maxBytes).2) ∨ ∀ e ∈ s.endpoints, ¬ HeadFits e maxBytes
  batches : ∀ maxItems maxBytes, Batch maxItems maxBytes (s.takeRepliesUpTo maxItems maxBytes)

lemma rejected_run {es : List SwitchEvent} (hi : Invariant s) (hrun : SwitchRun s es s')
    (hs : ∀ r ∈ s.rejected, r.payload = []) : ∀ r ∈ s'.rejected, r.payload = [] := by
  induction hrun with
  | nil => exact hs
  | snoc hrun hstep ih =>
    intro r hr
    rcases ((hi.run hrun).effect hstep).mem_rejected hr with hr | ⟨_, _, -, -, hpayload, -⟩
    · exact ih r hr
    · exact hpayload

/-- Draining is fair in every state a switch can reach. -/
theorem draining_fair (enabled : Bool) (n : Nat) {es : List SwitchEvent}
    (hrun : SwitchRun (withNetworkSocketCapacity enabled n) es s) : Fair s := by
  have hrejected := rejected_run (invariant_initial enabled n) hrun nofun
  refine ⟨fun hindex hpasses => ?_, fun {maxBytes r} htaken => ?_, takeRepliesUpTo_batch hrejected⟩
  · have hwaiting := waiting_lt hindex
    have hcalls := hpasses.waiting.1
    omega
  · rcases takeReply_cases s maxBytes with ⟨index, r', s', htake, hserves, -⟩ | ⟨hnothing, -⟩
    · rw [htake] at htaken ⊢
      cases htaken
      exact Or.inl ⟨index, hserves⟩
    · exact Or.inr hnothing

theorem draining_fair_flows :
    ∃ es s, SwitchRun (withNetworkSocketCapacity true 2) es s ∧
      (s.endpoints.map fun e => e.stream.replies.length) = [0, 0, 1, 1] ∧ Fair s := by
  obtain ⟨es, hrun⟩ := run_of_exec (withNetworkSocketCapacity true 2)
    [.rx (guestHeader ⟨49152, tcpPort⟩ opRequest 0 0 65536 0) [],
      .rx (guestHeader ⟨49153, tcpPort⟩ opRequest 0 0 65536 0) []] rfl
  exact ⟨es, _, hrun, by decide, draining_fair true 2 hrun⟩

/-! ## Emptying the queues -/

/-- All replies that wait, as they will be handed out. -/
def queued (s : VsockSwitch) : List Reply :=
  s.endpoints.flatMap (fun e => e.stream.replies.map fun r => r.stamped e.connectionNumber) ++
    s.rejected

lemma mem_queued (he : e ∈ s.endpoints) (hr : r ∈ e.stream.replies) :
    r.stamped e.connectionNumber ∈ s.queued :=
  List.mem_append_left _ (List.mem_flatMap.2 ⟨e, he, List.mem_map_of_mem hr⟩)

lemma queued_takeReply (s : VsockSwitch) (maxBytes : Nat) :
    s.queued.Perm ((s.takeReply maxBytes).1.toList ++ (s.takeReply maxBytes).2.queued) := by
  rcases takeReply_cases s maxBytes with
    ⟨index, _, s', htake, ⟨e, head, rest, he, hreplies, rfl, hset⟩, -, hsame⟩ |
      ⟨-, ⟨r, rest, hcons, htake⟩ | ⟨-, htake⟩⟩
  · obtain ⟨hlt, hget⟩ := List.getElem?_eq_some_iff.1 he
    rw [htake, queued, queued, hset, hsame, List.set_eq_take_append_cons_drop, if_pos hlt]
    -- The queues before the one that was served, this queue, and those behind it.
    conv_lhs => rw [← List.take_append_drop index s.endpoints, List.drop_eq_getElem_cons hlt, hget]
    simp only [List.flatMap_append, List.flatMap_cons, hreplies, List.map_cons, List.cons_append,
      List.append_assoc]
    exact List.perm_middle
  · rw [htake, queued, hcons]
    exact List.perm_middle
  · rw [htake]
    exact .refl _

lemma queued_takeRepliesUpTo (s : VsockSwitch) (maxItems maxBytes : Nat) :
    s.queued.Perm ((s.takeRepliesUpTo maxItems maxBytes).1 ++
      (s.takeRepliesUpTo maxItems maxBytes).2.queued) := by
  induction maxItems generalizing s maxBytes with
  | zero => exact .refl _
  | succ maxItems ih =>
    have hone := queued_takeReply s maxBytes
    rw [takeRepliesUpTo]
    rcases htake : s.takeReply maxBytes with ⟨_ | r, s'⟩
    · rwa [htake] at hone
    · rw [htake] at hone
      exact hone.trans ((ih s' _).cons r)

/-- What is taken from an endpoint's queue comes from its front, and keeps its order. -/
lemma takeRepliesUpTo_queue (he : s.endpoints[index]? = some e) (maxItems maxBytes : Nat) :
    ∃ e' taken, (s.takeRepliesUpTo maxItems maxBytes).2.endpoints[index]? = some e' ∧
      e.stream.replies = taken ++ e'.stream.replies ∧
      (taken.map fun r => r.stamped e.connectionNumber).Sublist
        (s.takeRepliesUpTo maxItems maxBytes).1 := by
  induction maxItems generalizing s e maxBytes with
  | zero => exact ⟨e, [], he, rfl, List.Sublist.refl _⟩
  | succ maxItems ih =>
    rw [takeRepliesUpTo]
    rcases takeReply_cases s maxBytes with
      ⟨served, _, s', htake, ⟨donor, head, rest, hfrom, hreplies, rfl, hset⟩, -, -⟩ |
        ⟨-, ⟨r, rest, -, htake⟩ | ⟨-, htake⟩⟩
    · rw [htake]
      by_cases hserved : served = index
      · -- This endpoint gives its head: it stands first in what the batch returns.
        subst hserved
        cases hfrom.symm.trans he
        have hnext : s'.endpoints[served]? = some (e.drain [head] rest) := by
          rw [hset, List.getElem?_set_self (List.getElem?_eq_some_iff.1 he).1]
        obtain ⟨e', taken, he', hqueue, hsub⟩ := ih hnext (maxBytes - head.payload.length)
        exact ⟨e', head :: taken, he', hreplies.trans (congrArg (head :: ·) hqueue),
          hsub.cons_cons _⟩
      · -- Another endpoint gives, and this one's queue waits for the rest of the batch.
        have hnext : s'.endpoints[index]? = some e := by
          rw [hset, List.getElem?_set_ne hserved, he]
        obtain ⟨e', taken, he', hqueue, hsub⟩ := ih hnext (maxBytes - head.payload.length)
        exact ⟨e', taken, he', hqueue, hsub.cons _⟩
    · rw [htake]
      have hnext : { s with rejected := rest }.endpoints[index]? = some e := he
      obtain ⟨e', taken, he', hqueue, hsub⟩ := ih hnext (maxBytes - r.payload.length)
      exact ⟨e', taken, he', hqueue, hsub.cons _⟩
    · rw [htake]
      exact ⟨e, [], he, rfl, List.Sublist.refl _⟩

/-- A batch whose limits cover all that waits leaves nothing behind. -/
lemma Batch.empties {maxItems : Nat} {rs : List Reply} (h : Batch maxItems maxBytes (rs, s'))
    (hperm : s.queued.Perm (rs ++ s'.queued)) (hitems : s.queued.length ≤ maxItems)
    (hbytes : payloadBytes s.queued ≤ maxBytes) : s'.queued = [] := by
  rcases Nat.lt_or_ge rs.length maxItems with hlt | hge
  · -- The batch ended early, and a head that is left would have fitted.
    obtain ⟨hrejected, hnothing⟩ := h.stops hlt
    refine List.append_eq_nil_iff.2 ⟨List.flatMap_eq_nil_iff.2 fun e he => ?_, hrejected⟩
    cases hreplies : e.stream.replies with
    | nil => rfl
    | cons head rest =>
      refine absurd ⟨head, rest, hreplies, ?_⟩ (hnothing e he)
      change head.payload.length ≤ maxBytes - payloadBytes rs
      have hsize : payloadBytes s.queued = payloadBytes (rs ++ s'.queued) :=
        List.Perm.sum_nat (hperm.map fun r : Reply => r.payload.length)
      have hhead : head.payload.length ≤ payloadBytes s'.queued := payloadBytes_le_of_sublist
        (List.singleton_sublist.2 (mem_queued he (hreplies ▸ List.mem_cons_self)))
      rw [payloadBytes_append] at hsize
      omega
  · -- The batch is full, so it holds all there was.
    have hlength := hperm.length_eq
    rw [List.length_append] at hlength
    exact List.length_eq_zero_iff.1 (by omega)

/-- A drain whose limits cover all that waits hands out exactly that, every endpoint's queue whole
and in its order, and leaves nothing behind. -/
theorem draining_empties (enabled : Bool) (n : Nat) {es : List SwitchEvent}
    (hrun : SwitchRun (withNetworkSocketCapacity enabled n) es s) {maxItems maxBytes : Nat}
    (hitems : s.queued.length ≤ maxItems) (hbytes : payloadBytes s.queued ≤ maxBytes) :
    (s.takeRepliesUpTo maxItems maxBytes).1.Perm s.queued ∧
      (s.takeRepliesUpTo maxItems maxBytes).2.queued = [] ∧
      ∀ e ∈ s.endpoints, (e.stream.replies.map fun r => r.stamped e.connectionNumber).Sublist
        (s.takeRepliesUpTo maxItems maxBytes).1 := by
  have hrejected := rejected_run (invariant_initial enabled n) hrun nofun
  have hperm := queued_takeRepliesUpTo s maxItems maxBytes
  have hempty := Batch.empties (takeRepliesUpTo_batch hrejected _ _) hperm hitems hbytes
  rw [hempty, List.append_nil] at hperm
  refine ⟨hperm.symm, hempty, fun e he => ?_⟩
  obtain ⟨index, he⟩ := List.mem_iff_getElem?.1 he
  obtain ⟨e', taken, he', hqueue, hsub⟩ := takeRepliesUpTo_queue he maxItems maxBytes
  -- What were left of the queue would still be waiting.
  have hrest : e'.stream.replies = [] := by
    refine List.eq_nil_iff_forall_not_mem.2 fun r hr => ?_
    have hwaits := mem_queued (List.mem_of_getElem? he') hr
    rw [hempty] at hwaits
    cases hwaits
  rw [hqueue, hrest, List.append_nil]
  exact hsub

theorem draining_empties_flows :
    ∃ es s, SwitchRun (withNetworkSocketCapacity true 2) es s ∧ s.queued.length = 3 ∧
      (s.takeRepliesUpTo 3 0).1.Perm s.queued := by
  obtain ⟨es, hrun⟩ := run_of_exec (withNetworkSocketCapacity true 2)
    [.rx (guestHeader ⟨49152, tcpPort⟩ opRequest 0 0 65536 0) [],
      .rx (guestHeader ⟨49153, tcpPort⟩ opRequest 0 0 65536 0) [],
      .rx (guestHeader ⟨49154, tcpPort⟩ opRequest 0 0 65536 0) []] rfl
  exact ⟨es, _, hrun, by decide, (draining_empties true 2 hrun (by decide) (by decide)).1⟩

end VsockSwitch
end Terrarium.Vsock
