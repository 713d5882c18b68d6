import Terrarium.Vsock.Lifecycle

/-!
# Teardown — is the guest told?

A live endpoint that stops being live leaves a reset for the guest in its reply queue, if there was
room for one.  This file says exactly when there was.

* `ending` — which packets end a live stream, and how many replies they queue before the reset;
* `rx_ending` — the packet ends the stream as predicted, and the reset is queued if it fits;
* `RoomForReset` — the condition on the state before a call under which the guest is told.
-/

namespace Terrarium.Vsock

open KeyedList

namespace StreamConnection

variable {s s' : StreamConnection} {h : VsockHeader} {data : List UInt8} {c c' : Connection}

/-! ## Queued resets -/

def HasReset (s : StreamConnection) : Prop :=
  ∃ r ∈ s.replies, r.header.op = opRst

lemma hasReset_of_replies (h : s'.replies = s.replies) : HasReset s' ↔ HasReset s := by
  rw [HasReset, HasReset, h]

lemma exists_reset_filter (rs : List Reply) :
    (∃ r ∈ rs.filter (fun reply => reply.header.op == opRst), r.header.op = opRst) ↔
      ∃ r ∈ rs, r.header.op = opRst := by
  simp

lemma hasReset_push {r : Reply} (hop : r.header.op ≠ opRst) {replies : List Reply} :
    (∃ r' ∈ replies ++ [r], r'.header.op = opRst) ↔ ∃ r' ∈ replies, r'.header.op = opRst := by
  simp [or_and_right, exists_or, hop]

lemma Announced.hasReset {fwdCnt : UInt32} (ha : Announced s fwdCnt s') : HasReset s' ↔
    HasReset s := by
  cases ha with
  | @coalesced front last hrep hop =>
    have hne : last.header.op ≠ opRst := by
      rw [hop]
      decide
    rw [HasReset, HasReset, hrep, hasReset_push hne]
    exact hasReset_push (r := { last with header := { last.header with fwdCnt := fwdCnt } }) hne
  | queued => exact hasReset_push (by change opCreditUpdate ≠ opRst; decide)

lemma Noted.hasReset (hn : Noted s h s') : HasReset s' ↔ HasReset s := by
  cases hn with
  | stale | taken => exact Iff.rfl
  | flushed _ _ _ ha => exact ha.hasReset

lemma Bounded.tryRst_hasReset (hb : Bounded s) (g p : UInt32) :
    HasReset (s.tryRst g p).dropConnection ↔
      HasReset s ∨ s.replies.length < maxQueuedReplies := by
  rw [← hb.canQueueReply_zero, HasReset, dropConnection_replies, tryRst_replies]
  split
  next hq => refine iff_of_true ⟨rstReply g p, by simp, rfl⟩ (Or.inr hq)
  next hq => exact ⟨Or.inl, fun hor => hor.resolve_right hq⟩

/-! ## Packets that end a stream -/

/-- The packet's credit fields are taken over and its smaller window calls for an update. -/
def flushes (s : StreamConnection) (c : Connection) (h : VsockHeader) : Bool :=
  (h.fwdCnt == c.peerFwdCnt || ackAhead h.fwdCnt c.peerFwdCnt) &&
    decide (unackedBytes c.txFwdCnt h.fwdCnt ≤ u32OrMax s.maxTxBytes) &&
    flushesReceiveCredit c h

/-- A credit update would need a queue slot and there is none. -/
def isStarved (s : StreamConnection) : Bool :=
  !s.endsInCreditUpdate && !s.canQueueReply 0

lemma Announced.isStarved {fwdCnt : UInt32} (ha : Announced s fwdCnt s') : s.isStarved = false := by
  cases ha with
  | coalesced hrep hop =>
    have hlast : s.endsInCreditUpdate = true := endsInCreditUpdate_iff.2 ⟨_, _, hrep, hop⟩
    simp [StreamConnection.isStarved, hlast]
  | queued _ hq => simp [StreamConnection.isStarved, hq]

lemma isStarved_of_respond (hr : s.respond c opCreditUpdate 0 = none) : s.isStarved = true := by
  obtain ⟨hlast, hq⟩ := respond_creditUpdate_none hr
  simp [isStarved, hlast, hq]

/-- Whether a packet other than a reset ends a live stream; if so, the number of queue slots it
takes before the reset. -/
def ending (s : StreamConnection) (h : VsockHeader) (data : List UInt8) : Option Nat :=
  if malformed h data then some 0
  else
    match s.connection with
    | none => if h.op = opResponse ∧ h.fwdCnt = 0 then none else some 0
    | some c =>
        if ¬ (h.op = opShutdown ∨ h.op = opRw ∨ h.op = opCreditUpdate ∨ h.op = opCreditRequest) then
          some 0
        else if h.op = opRw ∧ c.rxShutdown then some 0
        else if ackAhead h.fwdCnt c.txFwdCnt then some 0
        else if (s.flushes c h ∨ h.op = opCreditRequest) ∧ s.isStarved then some 0
        else if h.op = opRw ∧ s.overflowsWindow c h data then
          some (if s.flushes c h ∧ ¬ s.endsInCreditUpdate then 1 else 0)
        else none

/-- `s'` is what became of the live stream `s`, as `ending` predicts it. -/
def EndsAs (s s' : StreamConnection) : Option Nat → Prop
  | none => s'.isLive = true
  | some k =>
      s'.isLive = false ∧ (HasReset s' ↔ HasReset s ∨ s.replies.length + k < maxQueuedReplies)

lemma Bounded.endsAs_reset (hb : Bounded s) (g p : UInt32) :
    EndsAs s (s.tryRst g p).dropConnection (some 0) :=
  ⟨rfl, hb.tryRst_hasReset g p⟩

lemma Bounded.endsAs_starved (hb : Bounded s) (hstarved : s.isStarved = true) :
    EndsAs s s.dropConnection (some 0) := by
  have hfull : ¬ s.replies.length < maxQueuedReplies := by
    rw [← hb.canQueueReply_zero]
    simp only [isStarved, Bool.and_eq_true, Bool.not_eq_true'] at hstarved
    simp [hstarved.2]
  exact ⟨rfl, ⟨Or.inl, fun hor => hor.resolve_right hfull⟩⟩

lemma Bounded.endsAs_reject (hb : Bounded s) (hlive : s.isLive = true) (hop : h.op ≠ opRst) :
    EndsAs s (s.rejectPacket h) (some 0) := by
  rw [rejectPacket_outcome_live hlive, if_pos hop]
  exact hb.endsAs_reset _ _

inductive NoteEnding (s : StreamConnection) (c : Connection) (h : VsockHeader) :
    StreamConnection × Bool → Prop where
  | starved : s.flushes c h = true → s.isStarved = true → NoteEnding s c h (s.dropConnection, false)
  | flushed {s₁ : StreamConnection} :
      s.flushes c h = true → s.isStarved = false → Noted s h s₁ →
        s₁.endsInCreditUpdate = true →
          s₁.replies.length = s.replies.length + (if s.endsInCreditUpdate then 0 else 1) →
            NoteEnding s c h (s₁, true)
  | kept {s₁ : StreamConnection} :
      s.flushes c h = false → Noted s h s₁ → s₁.replies = s.replies → NoteEnding s c h (s₁, true)

lemma Announced.length {fwdCnt : UInt32} (ha : Announced s fwdCnt s') :
    s'.replies.length = s.replies.length + (if s.endsInCreditUpdate then 0 else 1) := by
  cases ha with
  | coalesced hrep hop =>
    rw [if_pos (endsInCreditUpdate_iff.2 ⟨_, _, hrep, hop⟩), hrep]
    simp
  | queued hlast _ =>
    rw [hlast]
    simp

lemma notePeerCredit_ending (hc : s.connection = some c)
    (hforged : ackAhead h.fwdCnt c.txFwdCnt = false) : NoteEnding s c h (s.notePeerCredit h) := by
  rw [notePeerCredit, hc]
  dsimp only
  rw [if_neg (by simp [hforged])]
  split
  next hold =>
    refine NoteEnding.kept ?_ Noted.stale rfl
    simp [flushes, hold.1, hold.2]
  rename_i hnew
  have hnew' : (h.fwdCnt == c.peerFwdCnt || ackAhead h.fwdCnt c.peerFwdCnt) = true := by
    by_contra hcon
    simp only [Bool.or_eq_true, beq_iff_eq, not_or] at hcon
    exact hnew ⟨hcon.1, hcon.2⟩
  split
  next hacked =>
    refine NoteEnding.kept ?_ Noted.stale rfl
    have hgt : ¬ unackedBytes c.txFwdCnt h.fwdCnt ≤ u32OrMax s.maxTxBytes := UInt32.not_le.2 hacked
    simp [flushes, hgt]
  rename_i hacked
  have hle : unackedBytes c.txFwdCnt h.fwdCnt ≤ u32OrMax s.maxTxBytes := UInt32.not_lt.1 hacked
  cases hflush : flushesReceiveCredit c h with
  | false =>
    refine NoteEnding.kept ?_ (Noted.taken hc hle) rfl
    simp [flushes, hflush]
  | true =>
    have hflushes : s.flushes c h = true := by
      simp [flushes, hflush, hle, hnew']
    cases hr : respond { s with connection := some (credited c h) }
      (credited c h) opCreditUpdate 0 with
    | some s₁ =>
      have ha := respond_creditUpdate_some hr
      exact NoteEnding.flushed hflushes ha.isStarved (Noted.flushed hc hle hflush ha)
        ha.endsInCreditUpdate ha.length
    | none => exact NoteEnding.starved hflushes (isStarved_of_respond hr :)

lemma Noted.overflows (hn : Noted s h s') (hc : s.connection = some c)
    (hc' : s'.connection = some c') :
    s'.overflowsWindow c' h data = s.overflowsWindow c h data := by
  have hqueued : queuedBytes c' = queuedBytes c := by
    cases hn with
    | stale =>
      rw [hc, Option.some.injEq] at hc'
      rw [hc']
    | @taken c₁ hc₁ _ =>
      rw [hc, Option.some.injEq] at hc₁
      subst hc₁
      cases hc'
      rfl
    | @flushed _ c₁ hc₁ _ _ ha =>
      rw [hc, Option.some.injEq] at hc₁
      subst hc₁
      rw [ha.connection] at hc'
      cases hc'
      rfl
  rw [overflowsWindow, overflowsWindow, hqueued, hn.upstream, hn.shape.rxAlloc]

/-- Whatever a packet with credit does after its credit has been looked at, unless it is data or a
request for credit, leaves the connection standing. -/
lemma onShutdown_isLive (hc : s.connection = some c) (flags : UInt32) :
    (s.onShutdown flags).isLive = true := by
  rw [onShutdown, hc]
  dsimp only
  split <;> rfl

lemma onData_ending (data : List UInt8) (hb : Bounded s') (hn : Noted s h s')
    (hc : s.connection = some c) {k : Nat} (hlen : s'.replies.length = s.replies.length + k) :
    EndsAs s (s'.onData h data) (if s.overflowsWindow c h data then some k else none) := by
  obtain ⟨c', hc'⟩ := hn.connection hc
  rw [onData, hc', ← hn.overflows hc hc']
  dsimp only
  split
  · refine ⟨rfl, ?_⟩
    rw [hb.tryRst_hasReset, hn.hasReset, hlen]
  · rfl

lemma onCreditRequest_ending (hb : Bounded s) (hc : s.connection = some c) (hn : Noted s h s')
    (hrep : s'.replies = s.replies) : EndsAs s s'.onCreditRequest (if s.isStarved then some 0
      else none) := by
  obtain ⟨c', hc'⟩ := hn.connection hc
  rw [onCreditRequest, hc']
  dsimp only
  have hsame : s'.isStarved = s.isStarved := by
    have hroom : s'.canQueueReply 0 = s.canQueueReply 0 := by
      rw [Bool.eq_iff_iff, (hn.bounded hb).canQueueReply_zero, hb.canQueueReply_zero, hrep]
    rw [isStarved, isStarved, endsInCreditUpdate, endsInCreditUpdate, hrep, hroom]
  cases hr : respond
      { s' with
        connection := some { c' with isReceiveCreditRequested := queuedBytes c' != 0 } }
      { c' with isReceiveCreditRequested := queuedBytes c' != 0 } opCreditUpdate 0 with
  | some s'' =>
    have ha := respond_creditUpdate_some hr
    have hfed : s.isStarved = false := hsame.symm.trans ha.isStarved
    rw [hfed, if_neg Bool.false_ne_true]
    exact isLive_of_connection ha.connection
  | none =>
    have hstarved : s.isStarved = true := hsame.symm.trans (isStarved_of_respond hr :)
    rw [hstarved, if_pos rfl]
    refine ⟨rfl, ?_⟩
    rw [hasReset_of_replies (s := s) (by exact hrep)]
    exact (hb.endsAs_starved hstarved).2

lemma onConnected_ending (hb : Bounded s) (hc : s.connection = some c)
    (hop : h.op = opShutdown ∨ h.op = opRw ∨ h.op = opCreditUpdate ∨ h.op = opCreditRequest)
    (hwell : malformed h data = false) : EndsAs s (s.onConnected h data) (s.ending h data) := by
  have hlive := isLive_of_connection hc
  have hnotRst : h.op ≠ opRst := by
    intro hrst
    rw [hrst] at hop
    exact absurd hop (by decide)
  rw [ending, if_neg (by simp [hwell]), hc, onConnected, hc]
  dsimp only
  rw [if_neg (not_not.2 hop)]
  by_cases hclosed : h.op = opRw ∧ c.rxShutdown = true
  · rw [if_pos hclosed, if_pos hclosed]
    exact hb.endsAs_reject hlive hnotRst
  rw [if_neg hclosed, if_neg hclosed]
  cases hforged : ackAhead h.fwdCnt c.txFwdCnt with
  | true =>
    rw [notePeerCredit, hc]
    dsimp only
    rw [if_pos hforged, if_pos rfl]
    exact hb.endsAs_reset _ _
  | false =>
    rw [if_neg Bool.false_ne_true]
    have hnote := notePeerCredit_ending hc hforged
    generalize s.notePeerCredit h = note at hnote ⊢
    cases hnote with
    | starved hflush hstarved =>
      rw [if_pos ⟨Or.inl hflush, hstarved⟩]
      exact hb.endsAs_starved hstarved
    | @flushed s₁ hflush hfed hn hlast hlen =>
      -- The update is queued: the only further danger is data that does not fit.
      obtain ⟨c₁, hc₁⟩ := hn.connection hc
      have hfed₁ : s₁.isStarved = false := by simp [isStarved, hlast]
      rw [if_neg (by simp [hfed])]
      dsimp only
      rcases hop with hop | hop | hop | hop
      · simpa [EndsAs, hop, opShutdown, opRw] using onShutdown_isLive hc₁ h.flags
      · have hdata := onData_ending data (hn.bounded hb) hn hc hlen
        have hslots : (if s.flushes c h = true ∧ ¬ s.endsInCreditUpdate = true then 1 else 0) =
            if s.endsInCreditUpdate = true then 0 else 1 := by
          by_cases hends : s.endsInCreditUpdate = true
          · simp [hends]
          · simp [hends, hflush]
        rw [hslots]
        simpa [hop, opShutdown, opRw] using hdata
      · simpa [EndsAs, hop, opShutdown, opRw, opCreditUpdate, opCreditRequest]
          using isLive_of_connection hc₁
      · have hanswer := onCreditRequest_ending (h := h) (hn.bounded hb) hc₁ Noted.stale rfl
        simpa [EndsAs, hop, opShutdown, opRw, opCreditRequest, hfed₁] using hanswer
    | @kept s₁ hflush hn hrep =>
      obtain ⟨c₁, hc₁⟩ := hn.connection hc
      dsimp only
      rcases hop with hop | hop | hop | hop
      · simpa [EndsAs, hop, hflush, opShutdown, opRw, opCreditRequest]
          using onShutdown_isLive hc₁ h.flags
      · have hdata := onData_ending data (k := 0) (hn.bounded hb) hn hc (by rw [hrep, Nat.add_zero])
        simpa [hop, hflush, opShutdown, opRw, opCreditRequest] using hdata
      · simpa [EndsAs, hop, hflush, opShutdown, opRw, opCreditUpdate, opCreditRequest]
          using isLive_of_connection hc₁
      · have hanswer := onCreditRequest_ending hb hc hn hrep
        simpa [hop, opShutdown, opRw, opCreditRequest] using hanswer

/-- A packet other than a reset ends a live stream exactly as `ending` predicts. -/
theorem rx_ending (data : List UInt8) (hb : Bounded s) (hlive : s.isLive = true)
    (hop : h.op ≠ opRst) : EndsAs s (s.rx h data) (s.ending h data) := by
  cases hwell : malformed h data with
  | true =>
    rw [rx, if_pos hwell, ending, if_pos hwell]
    exact hb.endsAs_reject hlive hop
  | false =>
    have hreject := hb.endsAs_reject hlive hop
    have hresponse : { s.rejectPacket h with isConnecting := false } = s.rejectPacket h := by
      rw [rejectPacket_outcome_live hlive]
      rfl
    rw [rx, if_neg (by simp [hwell])]
    cases hc : s.connection with
    | none =>
      have hcing : s.isConnecting = true := by simpa [isLive, hc] using hlive
      have hending : s.ending h data = if h.op = opResponse ∧ h.fwdCnt = 0 then none
          else some 0 := by
        rw [ending, if_neg (by simp [hwell]), hc]
      rw [hending]
      by_cases hresp : h.op = opResponse
      · by_cases hfwd : h.fwdCnt = 0
        · simp [EndsAs, isLive, onResponse, hcing, hresp, hfwd, opResponse, opRequest]
        · simpa [onResponse, hcing, hresp, hfwd, hresponse, opResponse, opRequest] using hreject
      · simpa [hcing, hresp, hop] using hreject
    | some c =>
      have hcing := hb.notConnecting hc
      rw [if_neg (by simp [hcing])]
      by_cases hcredit : h.op = opShutdown ∨ h.op = opRw ∨ h.op = opCreditUpdate ∨
        h.op = opCreditRequest
      · have hother : h.op ≠ opRequest ∧ h.op ≠ opResponse := by
          rcases hcredit with heq | heq | heq | heq <;> rw [heq] <;> decide
        rw [if_neg hother.1, if_neg hother.2, if_neg hop, if_pos hcredit]
        exact onConnected_ending hb hc hcredit hwell
      · have hending : s.ending h data = some 0 := by
          rw [ending, if_neg (by simp [hwell]), hc]
          exact if_pos hcredit
        rw [hending]
        split
        · rw [onRequest, if_pos (Or.inr (Or.inl (by rw [hc]; rfl)))]
          exact hreject
        split
        · rw [onResponse, if_pos (Or.inl (by simp [hcing])), hresponse]
          exact hreject
        exact hreject

/-- Consuming input has to announce credit and cannot. -/
def consumeStarves (s : StreamConnection) (c : Connection) (maxBytes : Nat) : Bool :=
  let count := min maxBytes s.upstream.length
  count != 0 && !(s.drained c count).defersCredit (consumed c count) && s.isStarved

lemma consume_isConnecting (hb : Bounded s) (hc : s.connection = some c) (maxBytes : Nat) :
    (s.consumeUpstream maxBytes).isConnecting = false := by
  have hcing := hb.notConnecting hc
  have hout := consumeUpstream_outcome hc maxBytes
  generalize s.consumeUpstream maxBytes = s' at hout ⊢
  cases hout with
  | nothing | deferred => exact hcing
  | announced _ ha =>
    rw [ha.isConnecting]
    exact hcing
  | starved => rfl

lemma consume_ending (hb : Bounded s) (hc : s.connection = some c) (maxBytes : Nat) :
    EndsAs s (s.consumeUpstream maxBytes) (if s.consumeStarves c maxBytes then some 0
      else none) := by
  have hout := consumeUpstream_outcome hc maxBytes
  generalize s.consumeUpstream maxBytes = s' at hout ⊢
  cases hout with
  | nothing hzero =>
    rw [if_neg (by simp [consumeStarves, hzero])]
    exact isLive_of_connection hc
  | @deferred count hcount hdefer =>
    rw [if_neg (by simp [consumeStarves, ← hcount, hdefer])]
    rfl
  | @announced _ count hcount ha =>
    have hfed : s.isStarved = false := ha.isStarved
    rw [if_neg (by simp [consumeStarves, hfed])]
    exact isLive_of_connection ha.connection
  | @starved count hcount hsome hdefer hlast hq =>
    have hstarved : s.isStarved = true := by simp [isStarved, hlast, hq]
    rw [if_pos (by simp [consumeStarves, ← hcount, hsome, hdefer, hstarved])]
    exact hb.endsAs_starved hstarved

end StreamConnection

/-! ## Calls that end a connection -/

open StreamConnection

/-- Whether a call ends the connection of a live endpoint and owes the guest a reset for it; if so,
the number of queue slots it takes before the reset. -/
def Endpoint.teardown (e : Endpoint) : Op → Option Nat
  | .rx h bytes =>
      if h.guestTuple = e.tuple ∧ h.op ≠ opRst then e.stream.ending h bytes else none
  | .consumeUpstream c maxBytes =>
      if e.connected = some c then
        e.stream.connection.bind fun connection =>
          if e.stream.consumeStarves connection maxBytes then some 0 else none
      else none
  | .resetConnection c =>
      if c.tuple = e.tuple ∧ c.number = e.connectionNumber then some 0 else none
  | .disableNetwork => if e.tuple = agentTuple then none else some 0
  | _ => none

namespace VsockSwitch

variable {s s' : VsockSwitch} {t : Tuple} {e e' : Endpoint} {op : Op} {out : Outcome}

/-- The guest asked for the end of its connection, or the whole device was reset. -/
def Excused (op : Op) (t : Tuple) : Prop :=
  (∃ h bytes, op = .rx h bytes ∧ h.guestTuple = t ∧ h.op = opRst) ∨ op = .resetConnections

/-- What became of a live endpoint, as `teardown` predicts it. -/
def TornDown (e : Endpoint) (v' : Option Endpoint) : Option Nat → Prop
  | none => ∃ e', v' = some e' ∧ e'.isLive = true
  | some k =>
      ∃ e', v' = some e' ∧ e'.isLive = false ∧
        (HasReset e'.stream ↔ HasReset e.stream ∨ e.stream.replies.length + k < maxQueuedReplies)

lemma retire_hasReset (e : Endpoint) (n : Nat) : HasReset (e.retire n).stream ↔
    HasReset e.stream := by
  rw [Endpoint.retire]
  split
  · exact exists_reset_filter _
  · exact exists_reset_filter _

lemma reset_tornDown (hv : e.Valid) (n : Nat) : TornDown e (some (e.reset n)) (some 0) := by
  refine ⟨_, rfl, Endpoint.reset_isLive n, ?_⟩
  rw [Endpoint.reset, retire_hasReset]
  exact hv.bounded.tryRst_hasReset _ _

lemma receive_tornDown (hv : e.Valid) (hlive : e.isLive = true) {h : VsockHeader}
    (hop : h.op ≠ opRst) (bytes : List UInt8) (n : Nat) :
    TornDown e (some (e.receive h bytes n)) (e.stream.ending h bytes) := by
  have hends := rx_ending bytes hv.bounded hlive hop
  generalize e.stream.ending h bytes = k at hends ⊢
  cases k with
  | none =>
    have hlive' : (e.stream.rx h bytes).isLive = true := hends
    refine ⟨_, rfl, ?_⟩
    rw [Endpoint.receive_stays (by simp [hlive'])]
    exact hlive'
  | some k =>
    refine ⟨_, rfl, ?_⟩
    rw [Endpoint.receive_ended (by simp [hlive, hends.1]), retire_hasReset]
    exact ⟨Endpoint.retire_isLive n, hends.2⟩

lemma consume_tornDown (hv : e.Valid) {c : Connection} (hc : e.stream.connection = some c)
    (maxBytes n : Nat) :
    TornDown e (some (e.consume maxBytes n)) (if e.stream.consumeStarves c maxBytes then some 0
      else none) := by
  have hends := consume_ending hv.bounded hc maxBytes
  generalize (if e.stream.consumeStarves c maxBytes then some 0 else none) = k at hends ⊢
  have hcing := consume_isConnecting hv.bounded hc maxBytes
  cases k with
  | none =>
    have hlive : (e.stream.consumeUpstream maxBytes).isLive = true := hends
    have hsome : (e.stream.consumeUpstream maxBytes).connection.isNone = false := by
      simpa [isLive, hcing, ← Option.isSome_iff_ne_none] using hlive
    refine ⟨_, rfl, ?_⟩
    rw [Endpoint.consume_stays (by simp [hsome])]
    exact hlive
  | some k =>
    have hnone : (e.stream.consumeUpstream maxBytes).connection.isNone = true := by
      rw [(isLive_eq_false_iff.1 hends.1).1]
      rfl
    refine ⟨_, rfl, ?_⟩
    rw [Endpoint.consume_ended hnone, retire_hasReset]
    exact ⟨Endpoint.retire_isLive n, hends.2⟩

lemma Invariant.teardown_untouched (hi : Invariant s) (hv : s.view t = some e)
    (hlive : e.isLive = true) (hun : Untouched s op out t (some e)) : e.teardown op = none := by
  have htuple := tuple_of_view hv
  cases op with
  | rx h bytes =>
    refine if_neg fun hboth => ?_
    exact hi.guestTuple_ne hv hlive hun (hboth.1.trans htuple)
  | consumeUpstream c maxBytes =>
    refine if_neg fun hconn => ?_
    exact hun ((tuple_of_connected hconn).trans htuple) e rfl hconn
  | resetConnection c =>
    refine if_neg fun hboth => ?_
    exact hun (hboth.1.trans htuple) e rfl ⟨hboth.2.symm, hlive⟩
  | disableNetwork =>
    refine if_pos ?_
    rcases hun with hnone | hagent | ⟨e', he', hidle⟩
    · cases hnone
    · exact htuple.trans hagent
    · cases he'
      rw [hlive] at hidle
      cases hidle
  | _ => rfl

/-- A call tears a live endpoint down exactly as `teardown` predicts. -/
lemma Invariant.tornDown (hi : Invariant s) (hstep : s.step op = some (out, s'))
    (hv : s.view t = some e)
    (hlive : e.isLive = true) (hex : ¬ Excused op t) : TornDown e (s'.view t) (e.teardown op) := by
  have hvalid := hi.valid hv
  have htuple := tuple_of_view hv
  have hret := hvalid.not_retiring hlive
  have hview := hi.endpointStep hstep t
  rw [hv] at hview
  generalize s'.view t = v' at hview ⊢
  cases hview with
  | untouched hun =>
    rw [hi.teardown_untouched hv hlive hun]
    exact ⟨e, rfl, hlive⟩
  | changed hc =>
    cases hc with
    | @received _ _ h bytes hop hguest =>
      subst hop
      have hnotRst : h.op ≠ opRst := fun hrst =>
        hex (Or.inl ⟨h, bytes, rfl, hguest, hrst⟩)
      have hdown : e.teardown (.rx h bytes) = e.stream.ending h bytes :=
        if_pos ⟨hguest.trans htuple.symm, hnotRst⟩
      rw [hdown]
      exact receive_tornDown hvalid hlive hnotRst bytes _
    | delivered hop hconn =>
      subst hop
      exact ⟨_, rfl, StreamConnection.deliver_isLive _ hlive⟩
    | shutdown hop hconn =>
      subst hop
      exact ⟨_, rfl, StreamConnection.shutdown_isLive hlive⟩
    | creditRequested hop hconn =>
      subst hop
      exact ⟨_, rfl, StreamConnection.requestCredit_outcome.isLive hlive⟩
    | @consumed _ c maxBytes hop hconn =>
      subst hop
      obtain ⟨connection, hc, -⟩ := Option.map_eq_some_iff.1 hconn
      have hdown : e.teardown (.consumeUpstream c maxBytes) =
          if e.stream.consumeStarves connection maxBytes then some 0 else none := by
        rw [Endpoint.teardown, if_pos hconn, hc]
        rfl
      rw [hdown]
      exact consume_tornDown hvalid hc maxBytes _
    | @reset _ c hop hguest hnumber =>
      subst hop
      have hdown : e.teardown (.resetConnection c) = some 0 :=
        if_pos ⟨hguest.trans htuple.symm, hnumber.symm⟩
      rw [hdown]
      exact reset_tornDown hvalid _
  | lost hop hagent =>
    subst hop
    have hdown : e.teardown .disableNetwork = some 0 :=
      if_neg fun heq => hagent (htuple.symm.trans heq)
    rw [hdown]
    exact reset_tornDown hvalid _
  | cleared hop => exact absurd (Or.inr hop) hex
  | drained hop =>
    rcases hop with ⟨k, rfl⟩ | ⟨k, k', rfl⟩
    · exact ⟨_, rfl, hlive⟩
    · exact ⟨_, rfl, hlive⟩
  | released _ _ _ hold | removed _ _ _ hold =>
    rw [hret] at hold
    cases hold

/-! ## The guest is told -/

/-- Wherever this call ends a connection, its endpoint has queued a reset before or has a free slot
for one. -/
def RoomForReset (s : VsockSwitch) (op : Op) : Prop :=
  ∀ t e k, s.view t = some e → e.isLive = true → e.teardown op = some k →
    HasReset e.stream ∨ e.stream.replies.length + k < maxQueuedReplies

lemma ending_le_one {stream : StreamConnection} {h : VsockHeader} {bytes : List UInt8} {k : Nat}
    (hk : stream.ending h bytes = some k) : k ≤ 1 := by
  rw [ending] at hk
  split at hk
  · cases hk
    exact Nat.zero_le 1
  · split at hk
    · split at hk <;> cases hk
      exact Nat.zero_le 1
    · repeat' split at hk
      all_goals cases hk
      all_goals decide

lemma teardown_le_one {k : Nat} (hk : e.teardown op = some k) : k ≤ 1 := by
  cases op with
  | rx h bytes =>
    rw [Endpoint.teardown] at hk
    split at hk
    · exact ending_le_one hk
    · cases hk
  | consumeUpstream c maxBytes =>
    rw [Endpoint.teardown] at hk
    split at hk
    · obtain ⟨connection, -, hk⟩ := Option.bind_eq_some_iff.1 hk
      split at hk <;> cases hk
      exact Nat.zero_le 1
    · cases hk
  | resetConnection c | disableNetwork =>
    rw [Endpoint.teardown] at hk
    split at hk <;> cases hk
    exact Nat.zero_le 1
  | _ => cases hk

lemma roomForReset_of_slots (op : Op)
    (hslots : ∀ e ∈ s.endpoints, e.stream.replies.length + 1 < maxQueuedReplies) :
    RoomForReset s op := by
  intro t e k hv _ hdown
  have hone := teardown_le_one hdown
  have hfree := hslots e (mem_of_lookup hv).1
  exact Or.inr (by omega)

/-- Every live endpoint that this call left dead has a reset for its tuple in its reply queue,
unless the guest itself or a reset of the whole device ended the connection. -/
def Told (ev : SwitchEvent) : Prop :=
  ∀ t e, ev.pre.view t = some e → e.isLive = true → (ev.post.view t).any Endpoint.isLive = false →
    ¬ Excused ev.op t →
      ∃ e', ev.post.view t = some e' ∧
        ∃ r ∈ e'.stream.replies, r.header.op = opRst ∧ r.header.replyTuple = t

lemma not_told_of {ev : SwitchEvent} (t : Tuple)
    (hlive : (ev.pre.view t).any Endpoint.isLive = true) (hsilent : (ev.post.view t).all (fun e =>
      !e.isLive && e.stream.replies.all fun r => r.header.op != opRst) = true)
    (hex : ¬ Excused ev.op t) : ¬ Told ev := by
  intro htold
  obtain ⟨e, hv, hlive⟩ := (Option.any_eq_true _ _).1 hlive
  have hdead : (ev.post.view t).any Endpoint.isLive = false := by
    cases hv' : ev.post.view t with
    | none => rfl
    | some e' =>
      rw [hv'] at hsilent
      simp only [Option.all_some, Bool.and_eq_true, Bool.not_eq_true'] at hsilent
      simp [hsilent.1]
  obtain ⟨e', hv', r, hr, hop, -⟩ := htold t e hv hlive hdead hex
  rw [hv'] at hsilent
  simp only [Option.all_some, Bool.and_eq_true, List.all_eq_true] at hsilent
  have hne := hsilent.2 r hr
  simp [hop] at hne

lemma not_excused_of_teardown {k : Nat} (hdown : e.teardown op = some k) (t : Tuple) :
    ¬ Excused op t := by
  rintro (⟨h, bytes, rfl, hguest, hrst⟩ | rfl)
  · rw [Endpoint.teardown, if_neg (fun hboth => hboth.2 hrst)] at hdown
    cases hdown
  · cases hdown

/-- A call tells the guest of every connection it ends exactly when there is room for the resets. -/
lemma Invariant.told_iff (hi : Invariant s) (hstep : s.step op = some (out, s')) :
    Told ⟨s, op, out, s'⟩ ↔ RoomForReset s op := by
  constructor
  · intro htold t e k hv hlive hdown
    have hex := not_excused_of_teardown hdown t
    have htorn := hi.tornDown hstep hv hlive hex
    rw [hdown] at htorn
    obtain ⟨e', hv', hdead, hiff⟩ := htorn
    obtain ⟨e'', hv'', r, hr, hop, -⟩ := htold t e hv hlive (by simp [hv', hdead]) hex
    rw [hv', Option.some.injEq] at hv''
    subst hv''
    exact hiff.1 ⟨r, hr, hop⟩
  · intro hroom t e hv hlive hdead hex
    have htorn := hi.tornDown hstep hv hlive hex
    cases hdown : e.teardown op with
    | none =>
      rw [hdown] at htorn
      obtain ⟨e', hv', hlive'⟩ := htorn
      rw [hv'] at hdead
      exact absurd hlive' (Bool.eq_false_iff.1 hdead)
    | some k =>
      rw [hdown] at htorn
      obtain ⟨e', hv', -, hiff⟩ := htorn
      obtain ⟨r, hr, hop⟩ := hiff.2 (hroom t e k hv hlive hdown)
      exact ⟨e', hv', r, hr, hop, (hi.step hstep).addressed.queued hv' r hr⟩

/-- A run tells the guest of every connection that the device ends exactly when each of its calls
finds room for the resets it owes. -/
theorem teardown_told (enabled : Bool) (n : Nat) {es : List SwitchEvent}
    (hrun : SwitchRun (withNetworkSocketCapacity enabled n) es s) :
    (∀ ev ∈ es, Told ev) ↔ ∀ ev ∈ es, RoomForReset ev.pre ev.op := by
  have hiff : ∀ ev ∈ es, (Told ev ↔ RoomForReset ev.pre ev.op) := by
    intro ev hev
    obtain ⟨before, hbefore, hstep⟩ := hrun.event hev
    exact ((invariant_initial enabled n).run hbefore).told_iff hstep
  exact forall₂_congr hiff

def hangUpOps : List Op :=
  [ .rx (guestHeader ⟨49152, tcpPort⟩ opRequest 0 0 65536 0) [],
    .resetConnection firstFlow ]

theorem teardown_told_hangUp :
    ∃ es s, SwitchRun oneFlow es s ∧
      (∃ ev ∈ es, ev.op = .resetConnection firstFlow) ∧
        (∀ ev ∈ es, RoomForReset ev.pre ev.op) ∧ ∀ ev ∈ es, Told ev := by
  have hrun := Run.exec_run step oneFlow hangUpOps (by decide)
  have hroom : ∀ ev ∈ ((Run.exec step oneFlow hangUpOps).get (by decide)).1,
      ∀ e ∈ ev.pre.endpoints, e.stream.replies.length + 1 < maxQueuedReplies := by
    decide
  have hroom' := fun ev hev => roomForReset_of_slots ev.op (hroom ev hev)
  exact ⟨_, _, hrun, by decide, hroom', (teardown_told true 1 hrun).2 hroom'⟩

/-- A flow whose reply queue is filled with requests for credit and their answers. -/
def crowdedOps : List Op :=
  .rx (guestHeader ⟨49152, tcpPort⟩ opRequest 0 0 65536 0) [] ::
    ((List.range 64).flatMap fun i =>
      [ .rx (guestHeader ⟨49152, tcpPort⟩ opCreditRequest 0 0 (65537 + UInt32.ofNat i) 0) [],
        .requestCredit firstFlow ])

/-- The host resets a flow whose reply queue is full: the reset is lost, as all that is queued. -/
theorem crowded_reset_lost :
    ∃ es s ev, SwitchRun oneFlow es s ∧ ev ∈ es ∧
      ev.op = .resetConnection firstFlow ∧ ¬ Told ev := by
  have hrun := Run.exec_run step oneFlow crowdedOps (by decide +kernel)
  have hstep := hrun.snoc (step_eq_apply _ (.resetConnection firstFlow) (by decide +kernel))
  refine ⟨_, _, _, hstep, List.mem_append_right _ (List.mem_singleton.2 rfl), rfl, ?_⟩
  refine not_told_of ⟨49152, tcpPort⟩ (by decide +kernel) (by decide +kernel) ?_
  rintro (⟨h, bytes, hop, -⟩ | hop)
  · cases hop
  · cases hop

end VsockSwitch

end Terrarium.Vsock
