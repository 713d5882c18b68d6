import Terrarium.Vsock.Lifecycle
import Terrarium.Vsock.StreamData

/-!
# ByteStreams — every connection is a pair of byte streams

What a run did for one connection is read off its history: the data accepted from the guest, the
input removed by the host, the buffers delivered by the host and the replies handed out for it.

* `acceptedOf`, `removedOf`, `deliveredOf`, `takenOf` — what one event contributes;
* `Held` — the ledger of a connection agrees with its endpoint.
-/

namespace Terrarium.Vsock

open KeyedList StreamConnection

namespace VsockSwitch

/-! ## The history of one connection -/

/-- The payload of a data packet accepted for `c`: the connection is current before the packet and
still is afterwards. -/
def acceptedOf (c : ConnectionId) (ev : SwitchEvent) : List UInt8 :=
  match ev.op with
  | .rx h bytes =>
      if h.op = opRw ∧ h.guestTuple = c.tuple ∧ ev.pre.isCurrent c ∧ ev.post.isCurrent c then bytes
      else []
  | _ => []

/-- The bytes a call of `consume_upstream` removed from the input of `c`. -/
def removedOf (c : ConnectionId) (ev : SwitchEvent) : List UInt8 :=
  match ev.op with
  | .consumeUpstream c' maxBytes => if c' = c then ev.pre.peekUpstream c maxBytes else []
  | _ => []

/-- The buffer of a `deliver` call for `c` that returned `Ok`. -/
def deliveredOf (c : ConnectionId) (ev : SwitchEvent) : List UInt8 :=
  match ev.op, ev.out with
  | .deliver c' bytes, .result r => if c' = c then acceptedBytes bytes r else []
  | _, _ => []

def takenOf (c : ConnectionId) (ev : SwitchEvent) : List Reply :=
  ev.out.taken.filter fun r => r.header.replyTuple = c.tuple ∧ r.connectionNumber = c.number

def accepted (c : ConnectionId) (es : List SwitchEvent) : List UInt8 :=
  es.flatMap (acceptedOf c)

def removed (c : ConnectionId) (es : List SwitchEvent) : List UInt8 :=
  es.flatMap (removedOf c)

def delivered (c : ConnectionId) (es : List SwitchEvent) : List UInt8 :=
  es.flatMap (deliveredOf c)

def taken (c : ConnectionId) (es : List SwitchEvent) : List Reply :=
  es.flatMap (takenOf c)

section Snoc

variable (c : ConnectionId) (es : List SwitchEvent) (ev : SwitchEvent)

@[simp] lemma accepted_snoc : accepted c (es ++ [ev]) = accepted c es ++ acceptedOf c ev := by
  simp [accepted]

@[simp] lemma removed_snoc : removed c (es ++ [ev]) = removed c es ++ removedOf c ev := by
  simp [removed]

@[simp] lemma delivered_snoc : delivered c (es ++ [ev]) = delivered c es ++ deliveredOf c ev := by
  simp [delivered]

@[simp] lemma taken_snoc : taken c (es ++ [ev]) = taken c es ++ takenOf c ev := by
  simp [taken]

end Snoc

variable {s s' : VsockSwitch} {c : ConnectionId} {e e' : Endpoint} {op : Op} {out : Outcome}
  {es : List SwitchEvent} {ev : SwitchEvent}

/-! ## Connections and their endpoints -/

lemma Invariant.identity_eq (hi : Invariant s) (hclass : classOf c.tuple = some c.role)
    (hv : s.view c.tuple = some e) (hnumber : e.connectionNumber = c.number) :
    e.identity e.connectionNumber = c := by
  have htuple := tuple_of_view hv
  have hrole : e.role = c.role := by
    have hclass' := (hi.valid hv).role
    rw [htuple, hclass] at hclass'
    exact (Option.some.inj hclass').symm
  have hports : e.stream.guestPort = c.guestPort ∧ e.stream.hostPort = c.hostPort := by
    simpa [ConnectionId.tuple, Endpoint.tuple, StreamConnection.tuple] using htuple
  rw [Endpoint.identity, hrole, hports.1, hports.2, hnumber]

lemma isCurrent_of_view (hv : s.view c.tuple = some e) (hid : e.identity e.connectionNumber = c) :
    s.isCurrent c = e.stream.connection.isSome := by
  obtain ⟨i, hi⟩ := endpointIndex_of_view hv
  cases hc : e.stream.connection with
  | none => simp [isCurrent, connectionIndex, hi, Endpoint.connected, hc]
  | some connection => simp [isCurrent, connectionIndex, hi, Endpoint.connected, hc, hid]

lemma peekUpstream_of_connected (hv : s.view c.tuple = some e) (hc : e.connected = some c)
    (maxBytes : Nat) : s.peekUpstream c maxBytes = e.stream.upstream.take maxBytes := by
  obtain ⟨i, hi⟩ := endpointIndex_of_view hv
  rw [peekUpstream, connectionIndex_eq_some.2 ⟨hi, hc⟩]

lemma peekUpstream_of_not_current (hc : s.isCurrent c = false) (maxBytes : Nat) :
    s.peekUpstream c maxBytes = [] := by
  have hnone : s.connectionIndex c = none := by simpa [isCurrent] using hc
  rw [peekUpstream, hnone]

/-- Only the class its ports have makes an id the id of a connection. -/
lemma Invariant.class_of_current (hi : Invariant s) (hc : s.isCurrent c = true) :
    classOf c.tuple = some c.role := by
  obtain ⟨⟨i, e⟩, hfound⟩ := Option.isSome_iff_exists.1 hc
  obtain ⟨hindex, hconn⟩ := connectionIndex_eq_some.1 hfound
  have hrole := (hi.valid (view_of_endpointIndex hindex)).role
  rw [tuple_of_endpointIndex hindex] at hrole
  obtain ⟨-, -, rfl⟩ := Option.map_eq_some_iff.1 hconn
  exact hrole

/-! ## Silent events -/

lemma silent_of_not_current (hstep : s.step op = some (out, s')) (hc : s.isCurrent c = false) :
    acceptedOf c ⟨s, op, out, s'⟩ = [] ∧ removedOf c ⟨s, op, out, s'⟩ =
    [] ∧ deliveredOf c ⟨s, op, out, s'⟩ = [] := by
  refine ⟨?_, ?_, ?_⟩
  · cases op with
    | rx h bytes => simp [acceptedOf, hc]
    | _ => rfl
  · cases op with
    | consumeUpstream c' maxBytes =>
      rw [removedOf]
      dsimp only
      split
      · exact peekUpstream_of_not_current hc maxBytes
      · rfl
    | _ => rfl
  · cases op with
    | deliver c' bytes =>
      have hout : Outcome.result (s.deliver c' bytes).1 = out := (apply_of_step hstep).1
      subst hout
      rw [deliveredOf]
      dsimp only
      split
      next heq =>
        have hnone : s.connectionIndex c' = none := by
          rw [heq]
          simpa [isCurrent] using hc
        rw [VsockSwitch.deliver]
        split
        · rfl
        · rw [onStream, hnone]
          rfl
      · rfl
    | _ => rfl

lemma takenOf_of_nil (hout : out.taken = []) : takenOf c ⟨s, op, out, s'⟩ = [] := by
  rw [takenOf, hout]
  rfl

lemma carried_stamped (rs : List Reply) (n : Nat) : carried (rs.map fun r => r.stamped n) =
    carried rs := by
  simp [carried, List.filter_map, Function.comp_def, Reply.stamped]

lemma carried_drop_resets (rs : List Reply) : carried (rs.filter fun r => r.header.op ≠ opRst) =
    carried rs := by
  rw [carried, carried, List.filter_filter]
  congr 1
  refine List.filter_congr fun r _ => ?_
  by_cases hrst : r.header.op = opRst
  · rw [hrst]
    decide
  · simp [hrst]

/-- What a batch of replies carries for one number of a drained tuple. -/
lemma Drained.carried_eq {t : Tuple} {taken rest rs : List Reply}
    (hd : Drained s t e taken rest rs) (n : Nat) :
    carried (rs.filter fun r => r.header.replyTuple = t ∧ r.connectionNumber = n) =
      if e.connectionNumber = n then carried taken else [] := by
  have hothers : carried (rs.filter fun r => r.header.replyTuple = t ∧ r.connectionNumber = n) =
      carried ((rs.filter fun r => r.header.replyTuple = t ∧ r.header.op ≠ opRst).filter
        fun r => r.connectionNumber = n) := by
    rw [← carried_drop_resets, List.filter_filter, List.filter_filter]
    congr 2
    funext r
    by_cases ht : r.header.replyTuple = t
    · simp [ht, Bool.and_comm]
    · simp [ht]
  rw [hothers, hd.others, List.filter_map]
  split
  next hn =>
    have hall : (fun r : Reply => decide (r.connectionNumber = n)) ∘
        (fun r : Reply => r.stamped e.connectionNumber) = fun _ => true := by
      funext r
      simpa [Reply.stamped] using hn
    rw [hall, List.filter_true, carried_stamped, carried_drop_resets]
  next hn =>
    have hnone : (fun r : Reply => decide (r.connectionNumber = n)) ∘
        (fun r : Reply => r.stamped e.connectionNumber) = fun _ => false := by
      funext r
      simpa [Reply.stamped] using hn
    rw [hnone, List.filter_false]
    rfl

/-! ## The ledger of a connection -/

/-- The ledger of `c` agrees with the endpoint that holds its number. -/
structure Held (c : ConnectionId) (es : List SwitchEvent) (e : Endpoint) : Prop where
  number : e.connectionNumber = c.number
  retiring : e.retiring = none
  input : removed c es ++ e.stream.upstream = accepted c es
  output : SendOk e.stream.sending (carried (taken c es)) (carried e.stream.replies)
    (delivered c es)

structure Blank (c : ConnectionId) (es : List SwitchEvent) : Prop where
  accepted : accepted c es = []
  removed : removed c es = []
  delivered : delivered c es = []
  taken : carried (taken c es) = []

/-- Where connection `c` stands after the history `es`. -/
inductive Progress (c : ConnectionId) (es : List SwitchEvent) (s : VsockSwitch) : Prop where
  | unissued : s.nextConnectionNumber ≤ c.number → Blank c es → Progress c es s
  | held {e : Endpoint} : s.view c.tuple = some e → Held c es e → Progress c es s
  | ended :
      c.number < s.nextConnectionNumber → (s.phase c.tuple).Spent c.number →
        removed c es <+: accepted c es → Progress c es s

lemma Blank.snoc (hb : Blank c es) (hev : Blank c [ev]) : Blank c (es ++ [ev]) := by
  refine ⟨?_, ?_, ?_, ?_⟩
  · rw [VsockSwitch.accepted, List.flatMap_append, ← VsockSwitch.accepted, hb.accepted]
    exact hev.accepted
  · rw [VsockSwitch.removed, List.flatMap_append, ← VsockSwitch.removed, hb.removed]
    exact hev.removed
  · rw [VsockSwitch.delivered, List.flatMap_append, ← VsockSwitch.delivered, hb.delivered]
    exact hev.delivered
  · rw [VsockSwitch.taken, List.flatMap_append, carried_append, ← VsockSwitch.taken, hb.taken]
    exact hev.taken

lemma Held.next (hh : Held c es e) (hnumber : e'.connectionNumber = e.connectionNumber)
    (hret : e'.retiring = none)
    (hin : removedOf c ev ++ e'.stream.upstream = e.stream.upstream ++ acceptedOf c ev)
    (hout : Sends e.stream.sending (carried e.stream.replies) e'.stream.sending
      (carried e'.stream.replies) (deliveredOf c ev))
    (htaken : takenOf c ev = []) : Held c (es ++ [ev]) e' := by
  refine ⟨hnumber.trans hh.number, hret, ?_, ?_⟩
  · rw [removed_snoc, accepted_snoc, List.append_assoc, hin, ← List.append_assoc, hh.input]
  · rw [taken_snoc, delivered_snoc, htaken, List.append_nil]
    exact hh.output.step hout

lemma Held.silent (hh : Held c es e) (hacc : acceptedOf c ev = []) (hrem : removedOf c ev = [])
    (hdel : deliveredOf c ev = []) (htaken : takenOf c ev = []) : Held c (es ++ [ev]) e := by
  refine hh.next rfl hh.retiring ?_ ?_ htaken
  · rw [hacc, hrem, List.append_nil]
    rfl
  · rw [hdel]
    exact sends_of_eq rfl ⟨rfl, rfl⟩

lemma Held.drain (hh : Held c es e) {taken rest : List Reply}
    (hqueue : e.stream.replies = taken ++ rest)
    (hacc : acceptedOf c ev = []) (hrem : removedOf c ev = []) (hdel : deliveredOf c ev = [])
    (htaken : carried (takenOf c ev) = carried taken) :
    Held c (es ++ [ev]) (e.drain taken rest) := by
  refine { hh with input := ?_, output := ?_ }
  · rw [removed_snoc, accepted_snoc, hacc, hrem, List.append_nil, List.append_nil]
    exact hh.input
  · have hout := hh.output
    rw [hqueue, carried_append] at hout
    rw [taken_snoc, delivered_snoc, hdel, List.append_nil, carried_append, htaken]
    refine ⟨fun hopen => ?_, ?_, ?_⟩
    · rw [List.append_assoc]
      exact hout.bytes hopen
    · rw [List.append_assoc]
      exact hout.ordered
    · rw [List.append_assoc]
      exact hout.closed

lemma Held.finish (hh : Held c es e) (hrem : removedOf c ev <+: e.stream.upstream) :
    removed c (es ++ [ev]) <+: accepted c (es ++ [ev]) := by
  rw [removed_snoc, accepted_snoc, ← hh.input, List.append_assoc]
  exact List.prefix_append_right_inj _ |>.2 (hrem.trans (List.prefix_append _ _))

lemma held_of_empty (hnumber : e.connectionNumber = c.number) (hret : e.retiring = none)
    (hup : e.stream.upstream = []) (hrep : carried e.stream.replies = []) (hb : Blank c es) :
    Held c es e := by
  refine ⟨hnumber, hret, ?_, ?_⟩
  · rw [hb.removed, hb.accepted, hup]
    rfl
  · rw [hrep, hb.delivered, hb.taken]
    exact sendOk_nil _

/-! ## One call -/

lemma spent_of_retiring (hv : s.view c.tuple = some e) (hidle : e.isLive = false) {old : Nat}
    (hold : e.retiring = some old) (n : Nat) : (s.phase c.tuple).Spent n := by
  have hphase : s.phase c.tuple = .retiring e.connectionNumber old := by
    rw [phase, hv]
    exact Endpoint.phase_retiring hidle hold
  rw [hphase]
  exact ⟨by simp, by simp⟩

lemma spent_of_ne {t : Tuple} {n : Nat}
    (hne : ∀ e, s.view t = some e → e.connectionNumber ≠ n) : (s.phase t).Spent n := by
  rw [phase]
  cases hv : s.view t with
  | none => exact ⟨by simp [phaseOf], by simp [phaseOf]⟩
  | some e =>
    change e.phase.Spent n
    have hne := hne e hv
    rw [Endpoint.phase]
    split
    · exact ⟨fun heq => hne (Phase.live.inj heq), by simp⟩
    · split
      · exact ⟨by simp, fun heq => hne (Phase.idle.inj heq)⟩
      · exact ⟨by simp, by simp⟩

/-- A number that is not spent is held by a live or an idle endpoint. -/
lemma exists_of_not_spent {t : Tuple} {n : Nat} (h : ¬ (s.phase t).Spent n) :
    ∃ e, s.view t = some e ∧ e.connectionNumber = n ∧
    (e.isLive = true ∨ e.isLive = false ∧ e.retiring = none) := by
  obtain ⟨e, hv, hnumber⟩ : ∃ e, s.view t = some e ∧ e.connectionNumber = n := by
    by_contra hnone
    push Not at hnone
    exact h (spent_of_ne hnone)
  refine ⟨e, hv, hnumber, ?_⟩
  cases hlive : e.isLive with
  | true => exact Or.inl rfl
  | false =>
    refine Or.inr ⟨rfl, ?_⟩
    by_contra hret
    rw [phase, hv] at h
    obtain ⟨old, hold⟩ := Option.ne_none_iff_exists'.1 hret
    change ¬ e.phase.Spent n at h
    rw [Endpoint.phase_retiring hlive hold] at h
    exact h ⟨by simp, by simp⟩

lemma view_of_absent {t : Tuple} (h : s.phase t = .absent) : s.view t = none := by
  rw [phase] at h
  cases hv : s.view t with
  | none => rfl
  | some e =>
    rw [hv] at h
    change e.phase = .absent at h
    rw [Endpoint.phase] at h
    split at h
    · cases h
    · split at h <;> cases h

section Step

variable (hi : Invariant s) (hstep : s.step op = some (out, s'))

include hi hstep

lemma Invariant.silent_of_unissued (hn : s.nextConnectionNumber ≤ c.number) :
    Blank c [⟨s, op, out, s'⟩] := by
  have hne : ∀ e, s.view c.tuple = some e → e.connectionNumber ≠ c.number := by
    intro e hv heq
    have hlt := hi.number_lt hv
    omega
  have hcurrent : s.isCurrent c = false := by
    rw [Bool.eq_false_iff]
    intro hc
    obtain ⟨e, hv, hnumber, -⟩ := isOpen_iff.1 (isOpen_of_isCurrent hc)
    exact hne e hv hnumber
  obtain ⟨hacc, hrem, hdel⟩ := silent_of_not_current hstep hcurrent
  refine ⟨by
    simpa [accepted] using hacc, by simpa [removed] using hrem, by simpa [delivered] using hdel, ?_⟩
  rw [taken, List.flatMap_singleton]
  cases hop : op.takes with
  | false =>
    rw [takenOf_of_nil (taken_eq_nil hstep hop)]
    rfl
  | true =>
    have heffect := hi.takeEffect hstep hop
    rcases heffect.view c.tuple with ⟨hv, -⟩ | ⟨e, taken, rest, hv, -, hd⟩
    · refine carried_of_resets fun r hr => ?_
      obtain ⟨hr, hmatch⟩ := List.mem_filter.1 hr
      exact hi.resets r (heffect.origin r hr ((of_decide_eq_true hmatch).1 ▸ hv))
    · rw [takenOf, hd.carried_eq, if_neg (hne e hv)]

lemma Invariant.progress_unissued (hn : s.nextConnectionNumber ≤ c.number) (hb : Blank c es) :
    Progress c (es ++ [⟨s, op, out, s'⟩]) s' := by
  have hb' := hb.snoc (hi.silent_of_unissued hstep hn)
  by_cases hn' : s'.nextConnectionNumber ≤ c.number
  · exact Progress.unissued hn' hb'
  by_cases hspent : (s'.phase c.tuple).Spent c.number
  · refine Progress.ended (Nat.lt_of_not_le hn') hspent ?_
    rw [hb'.removed]
    exact List.nil_prefix
  -- The number has just been given to the endpoint of this tuple.
  obtain ⟨e', hv', hnumber, hcase⟩ := exists_of_not_spent hspent
  have hvalid := (hi.step hstep).valid hv'
  refine Progress.held hv' ?_
  rcases hcase with hlive | ⟨hidle, hret⟩
  · have hold : (s.phase c.tuple).Spent c.number := spent_of_ne fun e hv heq => by
      have hlt := hi.number_lt hv
      omega
    have hmove := hi.phase hstep c.tuple
    have hphase : s'.phase c.tuple = .live c.number :=
      isOpen_iff_phase.1 (isOpen_iff.2 ⟨e', hv', hnumber, hlive⟩)
    rw [hphase] at hmove
    have hview := hi.endpointStep hstep c.tuple
    rw [view_of_absent (hmove.created hold), hv'] at hview
    have hret := hvalid.not_retiring hlive
    cases hview with
    | admitted | published => exact held_of_empty hnumber hret rfl rfl hb'
  · have hnone := (isLive_eq_false_iff.1 hidle).1
    exact held_of_empty hnumber hret (hvalid.bounded.idle hnone)
      (carried_of_resets (hvalid.quiet hidle)) hb'

lemma Invariant.progress_retired (hv : s.view c.tuple = some e) (hh : Held c es e)
    (hremoved : removedOf c ⟨s, op, out, s'⟩ <+: e.stream.upstream) {e' : Endpoint}
    (hv' : s'.view c.tuple = some e')
    (hidle : e'.isLive = false) {old : Nat} (hold : e'.retiring = some old) :
    Progress c (es ++ [⟨s, op, out, s'⟩]) s' :=
  Progress.ended (hh.number ▸ Nat.lt_of_lt_of_le (hi.number_lt hv) (hi.next_le hstep))
    (spent_of_retiring hv' hidle hold _) (hh.finish hremoved)

/-- A call that is not directed at the endpoint contributes nothing to its connection. -/
lemma Invariant.silent_of_untouched (hv : s.view c.tuple = some e)
    (hun : Untouched s op out c.tuple (some e)) :
    acceptedOf c ⟨s, op, out, s'⟩ = [] ∧ removedOf c ⟨s, op, out, s'⟩ = [] ∧
      deliveredOf c ⟨s, op, out, s'⟩ = [] ∧ takenOf c ⟨s, op, out, s'⟩ = [] := by
  cases hcurrent : s.isCurrent c with
  | false =>
    obtain ⟨hacc, hrem, hdel⟩ := silent_of_not_current hstep hcurrent
    refine ⟨hacc, hrem, hdel, ?_⟩
    cases op with
    | takeReply k | takeRepliesUpTo k k' => cases hun.1
    | _ => exact takenOf_of_nil (taken_eq_nil hstep rfl)
  | true =>
    obtain ⟨⟨i, e₀⟩, hfound⟩ := Option.isSome_iff_exists.1 hcurrent
    obtain ⟨hindex, hconn⟩ := connectionIndex_eq_some.1 hfound
    rw [view_of_endpointIndex hindex, Option.some.injEq] at hv
    subst hv
    cases op with
    | takeReply k | takeRepliesUpTo k k' => cases hun.1
    | rx h bytes =>
      refine ⟨?_, rfl, rfl, takenOf_of_nil (taken_eq_nil hstep rfl)⟩
      refine if_neg fun hboth => ?_
      exact hi.guestTuple_ne (view_of_endpointIndex hindex)
        (Endpoint.isLive_of_connected hconn) hun hboth.2.1
    | deliver c' bytes =>
      refine ⟨rfl, rfl, ?_, takenOf_of_nil (taken_eq_nil hstep rfl)⟩
      cases hout : out with
      | result r =>
        rw [deliveredOf]
        dsimp only
        split
        next heq =>
          obtain ⟨err, herr⟩ := hun (congrArg ConnectionId.tuple heq)
          rw [hout] at herr
          cases herr
          rfl
        · rfl
      | _ => rfl
    | consumeUpstream c' maxBytes =>
      refine ⟨rfl, ?_, rfl, takenOf_of_nil (taken_eq_nil hstep rfl)⟩
      refine if_neg fun heq => ?_
      exact hun (congrArg ConnectionId.tuple heq) _ rfl (heq ▸ hconn)
    | _ => exact ⟨rfl, rfl, rfl, takenOf_of_nil (taken_eq_nil hstep rfl)⟩

lemma Invariant.progress_ended (hn : c.number < s.nextConnectionNumber)
    (hspent : (s.phase c.tuple).Spent c.number)
    (hshort : removed c es <+: accepted c es) : Progress c (es ++ [⟨s, op, out, s'⟩]) s' := by
  have hcurrent : s.isCurrent c = false := by
    rw [Bool.eq_false_iff]
    exact fun hc => hspent.1 (isOpen_iff_phase.1 (isOpen_of_isCurrent hc))
  obtain ⟨hacc, hrem, -⟩ := silent_of_not_current hstep hcurrent
  refine Progress.ended (Nat.lt_of_lt_of_le hn (hi.next_le hstep))
    ((hi.phase hstep c.tuple).spent hn hspent) ?_
  rw [removed_snoc, accepted_snoc, hacc, hrem, List.append_nil, List.append_nil]
  exact hshort

end Step

lemma Invariant.progress_received (hi : Invariant s) (hclass : classOf c.tuple = some c.role)
    {h : VsockHeader} {bytes : List UInt8} (hstep : s.step (.rx h bytes) = some (out, s'))
    (htuple : h.guestTuple = c.tuple) (hv : s.view c.tuple = some e)
    (hv' : s'.view c.tuple = some (e.receive h bytes s.nextConnectionNumber))
    (hh : Held c es e) : Progress c (es ++ [⟨s, .rx h bytes, out, s'⟩]) s' := by
  by_cases hended : (e.isLive && !(e.stream.rx h bytes).isLive) = true
  · rw [Endpoint.receive_ended hended] at hv'
    exact hi.progress_retired hstep hv hh List.nil_prefix hv' (Endpoint.retire_isLive _)
      (Endpoint.retire_numbers (e := e.withStream (e.stream.rx h bytes)) (Or.inr hh.retiring) _).2
  · rw [Endpoint.receive_stays hended] at hv'
    have hstays : e.stream.isLive = true → (e.stream.rx h bytes).isLive = true := by
      intro hlive
      have hlive' : e.isLive = true := hlive
      simpa [hlive'] using hended
    obtain ⟨hup, hsends⟩ := rx_sends (hi.valid hv).bounded hstays
    have hpre := isCurrent_of_view hv (hi.identity_eq hclass hv hh.number)
    have hpost := isCurrent_of_view hv' ((hi.step hstep).identity_eq hclass hv' hh.number)
    -- The packet's data is accepted exactly when the endpoint is connected.
    have hacc : acceptedOf c ⟨s, .rx h bytes, out, s'⟩ =
        if e.stream.connection.isSome ∧ h.op = opRw then bytes else [] := by
      rw [acceptedOf]
      rw [hpre, hpost]
      cases hc : e.stream.connection with
      | none => simp
      | some connection =>
        have hsome : (e.stream.rx h bytes).connection.isSome = true :=
          rx_connected hc (hstays (isLive_of_connection hc))
        simp [Endpoint.withStream, hsome, htuple]
    refine Progress.held hv'
      (hh.next rfl hh.retiring ?_ hsends (takenOf_of_nil (taken_eq_nil hstep rfl)))
    rw [hacc]
    exact hup

lemma Invariant.progress_consumed (hi : Invariant s) {maxBytes : Nat}
    (hstep : s.step (.consumeUpstream c maxBytes) = some (out, s')) (hconn : e.connected = some c)
    (hv : s.view c.tuple = some e)
    (hv' : s'.view c.tuple = some (e.consume maxBytes s.nextConnectionNumber))
    (hh : Held c es e) : Progress c (es ++ [⟨s, .consumeUpstream c maxBytes, out, s'⟩]) s' := by
  obtain ⟨connection, hc, -⟩ := Option.map_eq_some_iff.1 hconn
  have hrem : removedOf c ⟨s, .consumeUpstream c maxBytes, out, s'⟩ =
      e.stream.upstream.take maxBytes := by
    rw [removedOf]
    dsimp only
    rw [if_pos rfl]
    exact peekUpstream_of_connected hv hconn maxBytes
  by_cases hended : (e.stream.consumeUpstream maxBytes).connection.isNone = true
  · rw [Endpoint.consume_ended hended] at hv'
    refine hi.progress_retired hstep hv hh ?_ hv' (Endpoint.retire_isLive _)
      (Endpoint.retire_numbers (e := e.withStream (e.stream.consumeUpstream maxBytes))
        (Or.inr hh.retiring) _).2
    rw [hrem]
    exact List.take_prefix _ _
  · rw [Endpoint.consume_stays hended] at hv'
    obtain ⟨hsplit, hsends⟩ := consume_sends hc (Bool.eq_false_iff.2 hended)
    refine Progress.held hv'
      (hh.next rfl hh.retiring ?_ hsends (takenOf_of_nil (taken_eq_nil hstep rfl)))
    rw [hrem]
    exact hsplit.trans (List.append_nil _).symm

lemma Held.call (hh : Held c es e) (hstep : s.step op = some (out, s')) (hop : op.takes = false)
    {stream : StreamConnection} {bytes : List UInt8}
    (hacc : acceptedOf c ⟨s, op, out, s'⟩ = []) (hrem : removedOf c ⟨s, op, out, s'⟩ = [])
    (hdel : deliveredOf c ⟨s, op, out, s'⟩ = bytes)
    (hsends : stream.upstream = e.stream.upstream ∧
      Sends e.stream.sending (carried e.stream.replies) stream.sending
      (carried stream.replies) bytes) :
    Held c (es ++ [⟨s, op, out, s'⟩]) (e.withStream stream) := by
  refine hh.next rfl hh.retiring ?_ ?_ (takenOf_of_nil (taken_eq_nil hstep hop))
  · rw [hacc, hrem, List.append_nil]
    exact hsends.1
  · rw [hdel]
    exact hsends.2

lemma Invariant.progress_held (hi : Invariant s) (hclass : classOf c.tuple = some c.role)
    (hstep : s.step op = some (out, s')) (hv : s.view c.tuple = some e) (hh : Held c es e) :
    Progress c (es ++ [⟨s, op, out, s'⟩]) s' := by
  have hid := hi.identity_eq hclass hv hh.number
  have hself : ∀ {c' : ConnectionId}, e.connected = some c' → c' = c := by
    intro c' hconn
    obtain ⟨-, -, rfl⟩ := Option.map_eq_some_iff.1 hconn
    exact hid
  have hview := hi.endpointStep hstep c.tuple
  rw [hv] at hview
  generalize hv' : s'.view c.tuple = v' at hview
  cases hview with
  | untouched hun =>
    obtain ⟨hacc, hrem, hdel, htaken⟩ := hi.silent_of_untouched hstep hv hun
    exact Progress.held hv' (hh.silent hacc hrem hdel htaken)
  | changed hc =>
    cases hc with
    | received hop htuple =>
      subst hop
      exact hi.progress_received hclass hstep htuple hv hv' hh
    | @delivered _ c' bytes hop hconn hout =>
      cases hself hconn
      subst hop hout
      refine Progress.held hv' (hh.call hstep rfl rfl rfl ?_ (deliver_sends _ bytes))
      exact if_pos rfl
    | shutdown hop hconn =>
      subst hop
      exact Progress.held hv' (hh.call hstep rfl rfl rfl rfl (shutdown_sends _))
    | creditRequested hop hconn =>
      subst hop
      exact Progress.held hv' (hh.call hstep rfl rfl rfl rfl requestCredit_outcome.sends)
    | consumed hop hconn =>
      cases hself hconn
      subst hop
      exact hi.progress_consumed hstep hconn hv hv' hh
    | reset hop _ _ hlive =>
      subst hop
      exact hi.progress_retired hstep hv hh List.nil_prefix hv' (Endpoint.reset_isLive _)
        (Endpoint.reset_numbers hlive _).2
  | lost hop _ hlive =>
    subst hop
    exact hi.progress_retired hstep hv hh List.nil_prefix hv' (Endpoint.reset_isLive _)
      (Endpoint.reset_numbers hlive _).2
  | @cleared _ n hop _ =>
    subst hop
    cases hlive : e.isLive with
    | true =>
      have hretiring : (resetEndpoint n e).1.retiring = some e.connectionNumber := by
        rw [resetEndpoint, if_pos hlive]
        exact (Endpoint.retire_numbers (Or.inl hlive) n).2
      exact hi.progress_retired hstep hv hh List.nil_prefix hv' (resetEndpoint_isLive n e) hretiring
    | false =>
      -- An idle endpoint only had resets to lose.
      have hsame : (resetEndpoint n e).1 = e.withStream { e.stream with replies := [] } := by
        rw [resetEndpoint, if_neg (by simp [hlive])]
      rw [hsame] at hv'
      refine Progress.held hv' (hh.call hstep rfl rfl rfl rfl ⟨rfl, sends_of_eq ?_ ⟨rfl, rfl⟩⟩)
      exact (carried_of_resets ((hi.valid hv).quiet hlive)).symm
  | @drained _ taken rest hop hd =>
    have htaken : carried (takenOf c ⟨s, op, out, s'⟩) = carried taken := by
      rw [takenOf, hd.carried_eq, if_pos hh.number]
    refine Progress.held hv' ?_
    rcases hop with ⟨k, rfl⟩ | ⟨k, k', rfl⟩
    · exact hh.drain hd.queue rfl rfl rfl htaken
    · exact hh.drain hd.queue rfl rfl rfl htaken
  | released _ _ _ hret | removed _ _ _ hret =>
    rw [hh.retiring] at hret
    cases hret

/-- One public call keeps the ledger of every connection. -/
theorem Invariant.progress (hi : Invariant s) (hclass : classOf c.tuple = some c.role)
    (hstep : s.step op = some (out, s')) (hp : Progress c es s) :
    Progress c (es ++ [⟨s, op, out, s'⟩]) s' := by
  cases hp with
  | unissued hn hb => exact hi.progress_unissued hstep hn hb
  | held hv hh => exact hi.progress_held hclass hstep hv hh
  | ended hn hspent hshort => exact hi.progress_ended hstep hn hspent hshort

/-! ## Whole runs -/

lemma progress_initial (enabled : Bool) (n : Nat) (c : ConnectionId) :
    Progress c [] (withNetworkSocketCapacity enabled n) := by
  have hb : Blank c [] := ⟨rfl, rfl, rfl, rfl⟩
  by_cases hn : (withNetworkSocketCapacity enabled n).nextConnectionNumber ≤ c.number
  · exact Progress.unissued hn hb
  by_cases hspent : ((withNetworkSocketCapacity enabled n).phase c.tuple).Spent c.number
  · exact Progress.ended (Nat.lt_of_not_le hn) hspent (List.nil_prefix)
  obtain ⟨e, hv, hnumber, -⟩ := exists_of_not_spent hspent
  have he : e ∈ [Endpoint.new .agent agentPort agentPort 1,
      Endpoint.new .control controlPort controlPort 2] := (mem_of_lookup hv).1
  refine Progress.held hv ?_
  simp only [List.mem_cons, List.not_mem_nil, or_false] at he
  rcases he with rfl | rfl
  · exact held_of_empty hnumber rfl rfl rfl hb
  · exact held_of_empty hnumber rfl rfl rfl hb

lemma progress_run (enabled : Bool) (n : Nat) (hclass : classOf c.tuple = some c.role)
    (hrun : SwitchRun (withNetworkSocketCapacity enabled n) es s) : Progress c es s := by
  induction hrun with
  | nil => exact progress_initial enabled n c
  | snoc hrun hstep ih => exact ((invariant_initial enabled n).run hrun).progress hclass hstep ih

lemma blank_of_class (enabled : Bool) (n : Nat) (hclass : classOf c.tuple ≠ some c.role)
    (hrun : SwitchRun (withNetworkSocketCapacity enabled n) es s) : accepted c es =
    [] ∧ removed c es = [] := by
  have hsilent : ∀ ev ∈ es, acceptedOf c ev = [] ∧ removedOf c ev = [] := by
    intro ev hev
    obtain ⟨before, hbefore, hstep⟩ := hrun.event hev
    have hi := (invariant_initial enabled n).run hbefore
    have hcurrent : ev.pre.isCurrent c = false := by
      rw [Bool.eq_false_iff]
      exact fun hc => hclass (hi.class_of_current hc)
    obtain ⟨hacc, hrem, -⟩ := silent_of_not_current hstep hcurrent
    exact ⟨hacc, hrem⟩
  rw [accepted, removed, List.flatMap_eq_nil_iff, List.flatMap_eq_nil_iff]
  exact ⟨fun ev hev => (hsilent ev hev).1, fun ev hev => (hsilent ev hev).2⟩

/-- While a connection stands, the input removed so far and the input still queued are the data
accepted from the guest; the data replies handed out and those still queued are the buffers
delivered, until the guest closes its receiving direction; and no data follows a shutdown.  What
has been removed is at any time a prefix of what was accepted. -/
theorem byte_streams_preserved (enabled : Bool) (n : Nat)
    (hrun : SwitchRun (withNetworkSocketCapacity enabled n) es s) :
    (∀ e ∈ s.endpoints, e.isLive = true → ∀ c, e.identity e.connectionNumber = c →
      removed c es ++ e.stream.upstream = accepted c es ∧
        (e.stream.connection.any Connection.peerReceiveClosed = false →
          rwBytes (taken c es ++ e.stream.replies) = delivered c es) ∧
        NoDataAfterShutdown (taken c es ++ e.stream.replies)) ∧
      ∀ c, removed c es <+: accepted c es := by
  have hi := (invariant_initial enabled n).run hrun
  refine ⟨?_, ?_⟩
  · rintro e he hlive c rfl
    have hv : s.view (e.identity e.connectionNumber).tuple = some e := view_of_mem hi.tuples he
    have hopen : s.isOpen (e.identity e.connectionNumber) = true := isOpen_iff.2 ⟨e, hv, rfl, hlive⟩
    have hclass : classOf (e.identity e.connectionNumber).tuple = some e.role := (hi.valid hv).role
    cases progress_run (c := e.identity e.connectionNumber) enabled n hclass hrun with
    | unissued hn => exact absurd (hi.number_lt hv) (Nat.not_lt.2 hn)
    | ended _ hspent => exact absurd (isOpen_iff_phase.1 hopen) hspent.1
    | held hv' hh =>
      rw [hv, Option.some.injEq] at hv'
      subst hv'
      have hbytes := hh.output.bytes
      have hordered := hh.output.ordered
      rw [← carried_append] at hbytes hordered
      refine ⟨hh.input, fun hopen => ?_, hordered.replies⟩
      rw [← dataOf_carried]
      refine hbytes ?_
      cases hc : e.stream.connection with
      | none =>
        rw [sending_idle hc]
        rfl
      | some connection =>
        rw [hc] at hopen
        rw [sending_eq hc]
        exact hopen
  · intro c
    by_cases hclass : classOf c.tuple = some c.role
    · cases progress_run enabled n hclass hrun with
      | unissued _ hb =>
        rw [hb.removed]
        exact List.nil_prefix
      | held _ hh =>
        rw [← hh.input]
        exact List.prefix_append _ _
      | ended _ _ hshort => exact hshort
    · obtain ⟨hacc, hrem⟩ := blank_of_class enabled n hclass hrun
      rw [hacc, hrem]

def exchangeOps : List Op :=
  [ .rx (guestHeader ⟨49152, tcpPort⟩ opRequest 0 0 65536 0) [],
    .rx (guestHeader ⟨49152, tcpPort⟩ opRw 3 0 65536 0) [1, 2, 3],
    .consumeUpstream firstFlow 2,
    .deliver firstFlow [7, 8],
    .takeRepliesUpTo 8 4096 ]

theorem byte_streams_preserved_exchange :
    ∃ es s e, SwitchRun oneFlow es s ∧ e ∈ s.endpoints ∧ e.isLive = true ∧
      accepted firstFlow es = [1, 2, 3] ∧ removed firstFlow es = [1, 2] ∧
        delivered firstFlow es = [7, 8] ∧
          removed firstFlow es ++ e.stream.upstream = accepted firstFlow es ∧
            rwBytes (taken firstFlow es ++ e.stream.replies) = delivered firstFlow es := by
  have hrun := Run.exec_run step oneFlow exchangeOps (by decide)
  have hmem := List.get_mem
    (VsockSwitch.endpoints ((Run.exec step oneFlow exchangeOps).get (by decide)).2) ⟨2, by decide⟩
  obtain ⟨hstream, -⟩ := byte_streams_preserved true 1 hrun
  obtain ⟨hin, hout, -⟩ := hstream _ hmem (by decide) firstFlow (by decide)
  exact ⟨_, _, _, hrun, hmem, by decide, by decide, by decide, by decide, hin, hout (by decide)⟩

def abandonOps : List Op :=
  [ .rx (guestHeader ⟨49152, tcpPort⟩ opRequest 0 0 65536 0) [],
    .rx (guestHeader ⟨49152, tcpPort⟩ opRw 3 0 65536 0) [1, 2, 3],
    .rx (guestHeader ⟨49152, tcpPort⟩ opRst 0 0 0 0) [] ]

/-- A reset discards the input that the host has not consumed yet. -/
theorem reset_discards_input :
    ∃ es s e, SwitchRun oneFlow es s ∧ e ∈ s.endpoints ∧
      e.tuple = ⟨49152, tcpPort⟩ ∧ e.retiring = some 3 ∧
        accepted firstFlow es = [1, 2, 3] ∧ removed firstFlow es ++ e.stream.upstream = [] := by
  have hrun := Run.exec_run step oneFlow abandonOps (by decide)
  have hmem := List.get_mem
    (VsockSwitch.endpoints ((Run.exec step oneFlow abandonOps).get (by decide)).2) ⟨2, by decide⟩
  exact ⟨_, _, _, hrun, hmem, by decide, by decide, by decide, by decide⟩

end VsockSwitch

end Terrarium.Vsock
