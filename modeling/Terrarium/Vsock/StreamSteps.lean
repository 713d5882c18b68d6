import Mathlib.Data.List.ModifyLast
import Mathlib.Tactic.Common
import Terrarium.Vsock.Stream

/-!
# StreamSteps — what one call can do to a stream

Every later argument about streams goes through this file: `RxOutcome` lists the ways a guest packet
can leave a stream, and the equations below say what the host calls do.  No later module unfolds
`rx` or `respond` again.

* `Noted` — how a packet's credit fields are taken over by a connection that stands;
* `RxOutcome` / `rx_outcome` — inversion of `rx`.
-/

namespace Terrarium.Vsock
namespace StreamConnection

variable {s s' : StreamConnection} {h : VsockHeader} {data : List UInt8} {c : Connection}

/-! ## Queueing -/

lemma queueReply_of_not_credit {r : Reply} (hop : r.header.op ≠ opCreditUpdate) : s.queueReply r =
      if s.canQueueReply r.payload.length then
        some { s with
          replyBytes := s.replyBytes + r.payload.length
          replies := s.replies ++ [r] }
      else none := by
  simp [queueReply, hop]

section

variable (g p : UInt32)

theorem tryRst_eq : s.tryRst g p =
      if s.canQueueReply 0 then { s with replies := s.replies ++ [rstReply g p] } else s := by
  have hop : (rstReply g p).header.op ≠ opCreditUpdate := by
    change opRst ≠ opCreditUpdate
    decide
  rw [tryRst, rst, queueReply_of_not_credit hop]
  by_cases hq : s.canQueueReply 0
  · simp [rstReply, hq]
  · simp [rstReply, hq]

@[simp] lemma tryRst_connection : (s.tryRst g p).connection = s.connection := by
  rw [tryRst_eq]; split <;> rfl

@[simp] lemma tryRst_isConnecting : (s.tryRst g p).isConnecting = s.isConnecting := by
  rw [tryRst_eq]; split <;> rfl

@[simp] lemma tryRst_isLive : (s.tryRst g p).isLive = s.isLive := by
  simp [isLive]

@[simp] lemma tryRst_tuple : (s.tryRst g p).tuple = s.tuple := by
  rw [tryRst_eq]; split <;> rfl

@[simp] lemma tryRst_rxAlloc : (s.tryRst g p).rxAlloc = s.rxAlloc := by
  rw [tryRst_eq]; split <;> rfl

@[simp] lemma tryRst_maxTxBytes : (s.tryRst g p).maxTxBytes = s.maxTxBytes := by
  rw [tryRst_eq]; split <;> rfl

@[simp] lemma tryRst_upstream : (s.tryRst g p).upstream = s.upstream := by
  rw [tryRst_eq]; split <;> rfl

lemma tryRst_replies : (s.tryRst g p).replies =
      if s.canQueueReply 0 then s.replies ++ [rstReply g p] else s.replies := by
  rw [tryRst_eq]; split <;> rfl

end

@[simp] lemma dropConnection_replies : s.dropConnection.replies = s.replies := rfl

lemma isLive_of_connection (hc : s.connection = some c) : s.isLive = true := by
  simp [isLive, hc]

lemma isLive_eq_false_iff : s.isLive = false ↔ s.connection = none ∧ s.isConnecting = false := by
  simp [isLive]

def creditUpdateReply (s : StreamConnection) (fwdCnt : UInt32) : Reply :=
  { connectionNumber := 0
    header := s.creditHeader opCreditUpdate 0 fwdCnt
    payload := [] }

/-- A credit update is coalesced with the newest reply when that is one too, or queued. -/
lemma respond_creditUpdate (c : Connection) :
    s.respond c opCreditUpdate 0 = if s.endsInCreditUpdate then
        some { s with
          replies := rewriteLast c.rxFwdCnt s.replies
          connection := noteCreditUpdate c.rxFwdCnt s.connection }
      else if s.canQueueReply 0 then
        some { s with
          replies := s.replies ++ [s.creditUpdateReply c.rxFwdCnt]
          connection := noteCreditUpdate c.rxFwdCnt s.connection }
      else none := by
  by_cases hlast : s.endsInCreditUpdate
  · simp [respond, hlast]
  · by_cases hq : s.canQueueReply 0
    · simp [respond, hlast, queueReply, creditUpdateReply, creditHeader, hq]
    · simp [respond, hlast, queueReply, hq]

lemma respond_of_not_credit (c : Connection) {op : UInt16} (hop : op ≠ opCreditUpdate)
    (flags : UInt32) : s.respond c op flags = if s.canQueueReply 0 then
        some { s with
          replies := s.replies ++
            [{ connectionNumber := 0
               header := s.creditHeader op flags c.rxFwdCnt
               payload := [] }] }
      else none := by
  have hne : ¬ (op = opCreditUpdate ∧ s.endsInCreditUpdate) := fun hboth => hop hboth.1
  rw [respond, if_neg hne, queueReply_of_not_credit (by simpa [creditHeader] using hop)]
  by_cases hq : s.canQueueReply 0
  · simp [hq]
  · simp [hq]

lemma endsInCreditUpdate_iff : s.endsInCreditUpdate ↔
      ∃ front last, s.replies = front ++ [last] ∧ last.header.op = opCreditUpdate := by
  constructor
  · intro hlast
    cases hl : s.replies.getLast? with
    | none => simp [endsInCreditUpdate, hl] at hlast
    | some last =>
      obtain ⟨front, hfront⟩ := List.getLast?_eq_some_iff.1 hl
      exact ⟨front, last, hfront, by simpa [endsInCreditUpdate, hl] using hlast⟩
  · rintro ⟨front, last, hrep, hop⟩
    simp [endsInCreditUpdate, hrep, hop]

lemma rewriteLast_concat (fwdCnt : UInt32) (front : List Reply) (last : Reply) :
    rewriteLast fwdCnt (front ++ [last]) =
      front ++ [{ last with header := { last.header with fwdCnt := fwdCnt } }] := by
  simp [rewriteLast, List.modifyLast_concat]

structure SameShape (s s' : StreamConnection) : Prop where
  tuple : s'.tuple = s.tuple
  rxAlloc : s'.rxAlloc = s.rxAlloc
  maxTxBytes : s'.maxTxBytes = s.maxTxBytes

namespace SameShape

variable {s' s'' : StreamConnection}

lemma trans (h₁ : SameShape s s') (h₂ : SameShape s' s'') : SameShape s s'' :=
  ⟨h₂.tuple.trans h₁.tuple, h₂.rxAlloc.trans h₁.rxAlloc, h₂.maxTxBytes.trans h₁.maxTxBytes⟩

lemma tryRst (g p : UInt32) : SameShape s (s.tryRst g p) := ⟨by simp, by simp, by simp⟩

end SameShape

/-! ## Announcing receive credit -/

/-- `s'` is `s` after the credit `fwdCnt` has been announced in its reply queue. -/
inductive Announced (s : StreamConnection) (fwdCnt : UInt32) : StreamConnection → Prop where
  | coalesced {front : List Reply} {last : Reply} :
      s.replies = front ++ [last] → last.header.op = opCreditUpdate →
        Announced s fwdCnt
          { s with
            replies := front ++ [{ last with header := { last.header with fwdCnt := fwdCnt } }]
            connection := noteCreditUpdate fwdCnt s.connection }
  | queued :
      s.endsInCreditUpdate = false → s.canQueueReply 0 →
        Announced s fwdCnt
          { s with
            replies := s.replies ++ [s.creditUpdateReply fwdCnt]
            connection := noteCreditUpdate fwdCnt s.connection }

lemma respond_creditUpdate_some (hr : s.respond c opCreditUpdate 0 = some s') :
    Announced s c.rxFwdCnt s' := by
  rw [respond_creditUpdate] at hr
  split at hr
  next hlast =>
    obtain ⟨front, last, hrep, hop⟩ := endsInCreditUpdate_iff.1 hlast
    rw [Option.some.injEq, hrep, rewriteLast_concat] at hr
    subst hr
    exact Announced.coalesced hrep hop
  next hlast =>
    split at hr
    next hq =>
      cases hr
      exact Announced.queued (by simpa using hlast) hq
    · cases hr

lemma respond_creditUpdate_none (hr : s.respond c opCreditUpdate 0 = none) :
    s.endsInCreditUpdate = false ∧ s.canQueueReply 0 = false := by
  rw [respond_creditUpdate] at hr
  split at hr
  · cases hr
  next hlast =>
    split at hr
    · cases hr
    next hq => exact ⟨by simpa using hlast, by simpa using hq⟩

namespace Announced

variable {s' : StreamConnection} {fwdCnt : UInt32}

lemma connection (ha : Announced s fwdCnt s') :
    s'.connection = noteCreditUpdate fwdCnt s.connection := by
  cases ha <;> rfl

lemma isConnecting (ha : Announced s fwdCnt s') : s'.isConnecting = s.isConnecting := by
  cases ha <;> rfl

lemma shape (ha : Announced s fwdCnt s') : SameShape s s' := by
  cases ha <;> exact ⟨rfl, rfl, rfl⟩

lemma upstream (ha : Announced s fwdCnt s') : s'.upstream = s.upstream := by
  cases ha <;> rfl

end Announced

/-! ## Peer credit -/

/-- `Noted s h s'`: the connection of `s` stands, and `s'` has looked at the credit of `h`. -/
inductive Noted (s : StreamConnection) (h : VsockHeader) : StreamConnection → Prop where
  | stale : Noted s h s
  | taken {c : Connection} :
      s.connection = some c →
        unackedBytes c.txFwdCnt h.fwdCnt ≤ u32OrMax s.maxTxBytes →
          Noted s h { s with connection := some (credited c h) }
  | flushed {s' : StreamConnection} {c : Connection} :
      s.connection = some c →
        unackedBytes c.txFwdCnt h.fwdCnt ≤ u32OrMax s.maxTxBytes →
          flushesReceiveCredit c h →
            Announced { s with connection := some (credited c h) } c.rxFwdCnt s' →
              Noted s h s'

/-- Outcomes of `note_peer_credit` on a connected stream. -/
inductive NoteOutcome (s : StreamConnection) (c : Connection) (h : VsockHeader) :
    StreamConnection × Bool → Prop where
  | forged :
      ackAhead h.fwdCnt c.txFwdCnt →
        NoteOutcome s c h ((s.tryRst s.guestPort s.hostPort).dropConnection, false)
  | starved :
      ackAhead h.fwdCnt c.txFwdCnt = false → s.endsInCreditUpdate = false →
        s.canQueueReply 0 = false → NoteOutcome s c h (s.dropConnection, false)
  | noted {s' : StreamConnection} :
      ackAhead h.fwdCnt c.txFwdCnt = false → Noted s h s' → NoteOutcome s c h (s', true)

lemma notePeerCredit_outcome (hc : s.connection = some c) :
    NoteOutcome s c h (s.notePeerCredit h) := by
  rw [notePeerCredit, hc]
  dsimp only
  by_cases hforged : ackAhead h.fwdCnt c.txFwdCnt
  · rw [if_pos hforged]
    exact NoteOutcome.forged hforged
  rw [if_neg hforged]
  have hforged' : ackAhead h.fwdCnt c.txFwdCnt = false := by simpa using hforged
  split
  · exact NoteOutcome.noted hforged' Noted.stale
  split
  · exact NoteOutcome.noted hforged' Noted.stale
  rename_i hacked
  have hle : unackedBytes c.txFwdCnt h.fwdCnt ≤ u32OrMax s.maxTxBytes := UInt32.not_lt.1 hacked
  by_cases hflush : flushesReceiveCredit c h
  · -- The window shrank: the deferred receive credit has to be announced at once.
    rw [if_pos hflush]
    cases hr : respond { s with connection := some (credited c h) }
      (credited c h) opCreditUpdate 0 with
    | some s'' =>
      exact NoteOutcome.noted hforged' (Noted.flushed hc hle hflush (respond_creditUpdate_some hr))
    | none =>
      obtain ⟨hlast, hq⟩ := respond_creditUpdate_none hr
      exact NoteOutcome.starved hforged' hlast hq
  · rw [if_neg hflush]
    exact NoteOutcome.noted hforged' (Noted.taken hc hle)

/-! ## Guest packets -/

/-- The ways a guest packet can leave a stream. -/
inductive RxOutcome (s : StreamConnection) (h : VsockHeader) (data : List UInt8) :
    StreamConnection → Prop where
  /-- An idle stream has nothing to reset, or no queue slot left to answer a request. -/
  | ignored :
      s.isLive = false → h.op = opRst ∨ h.op = opRequest → RxOutcome s h data s
  /-- An idle stream answers with a reset. -/
  | refused :
      s.isLive = false → h.op ≠ opRst → RxOutcome s h data (s.tryRst h.srcPort h.dstPort)
  /-- A request is accepted. -/
  | opened :
      s.isLive = false → h.op = opRequest → h.fwdCnt = 0 → s.canQueueReply 0 →
        RxOutcome s h data
          { s with
            replies := s.replies ++
              [{ connectionNumber := 0
                 header := s.creditHeader opResponse 0 0
                 payload := [] }]
            connection := some (Connection.new h.bufAlloc) }
  /-- The guest accepts the host's own request. -/
  | established :
      s.isConnecting = true → h.op = opResponse → h.fwdCnt = 0 →
        RxOutcome s h data
          { s with isConnecting := false, connection := some (Connection.new h.bufAlloc) }
  /-- The guest resets the connection. -/
  | closed :
      s.isLive = true → h.op = opRst → RxOutcome s h data s.dropConnection
  /-- The packet breaks the protocol: reset and drop. -/
  | rejected :
      s.isLive = true → h.op ≠ opRst →
        RxOutcome s h data (s.tryRst h.srcPort h.dstPort).dropConnection
  /-- The packet acknowledges bytes that were never sent: reset and drop. -/
  | forged {c : Connection} :
      s.connection = some c → h.op ≠ opRst → ackAhead h.fwdCnt c.txFwdCnt →
        RxOutcome s h data (s.tryRst s.guestPort s.hostPort).dropConnection
  /-- A credit update finds no queue slot: drop. -/
  | starved {c : Connection} :
      s.connection = some c → h.op ≠ opRst → ackAhead h.fwdCnt c.txFwdCnt = false →
        s.endsInCreditUpdate = false → s.canQueueReply 0 = false →
          RxOutcome s h data s.dropConnection
  /-- The data does not fit the receive window: reset and drop. -/
  | overflowed {s₁ : StreamConnection} {c c₁ : Connection} :
      s.connection = some c → h.op = opRw → malformed h data = false → c.rxShutdown = false →
        ackAhead h.fwdCnt c.txFwdCnt = false →
          Noted s h s₁ → s₁.connection = some c₁ → s₁.overflowsWindow c₁ h data = true →
            RxOutcome s h data (s₁.tryRst h.srcPort h.dstPort).dropConnection
  /-- The data is accepted. -/
  | received {s₁ : StreamConnection} {c c₁ : Connection} :
      s.connection = some c → h.op = opRw → malformed h data = false →
        ackAhead h.fwdCnt c.txFwdCnt = false →
          Noted s h s₁ → s₁.connection = some c₁ → s₁.overflowsWindow c₁ h data = false →
            RxOutcome s h data
              { s₁ with
                connection := some { c₁ with rxReceived := c₁.rxReceived + h.len }
                upstream := s₁.upstream ++ data }
  /-- The guest closes one or both directions. -/
  | halfClosed {s₁ : StreamConnection} {c : Connection} :
      s.connection = some c → h.op = opShutdown → ackAhead h.fwdCnt c.txFwdCnt = false →
        Noted s h s₁ → RxOutcome s h data (s₁.onShutdown h.flags)
  /-- The guest asks for credit and gets an update. -/
  | answered {s₁ s₂ : StreamConnection} {c c₁ : Connection} :
      s.connection = some c → h.op = opCreditRequest → ackAhead h.fwdCnt c.txFwdCnt = false →
        Noted s h s₁ → s₁.connection = some c₁ →
          Announced
            { s₁ with
              connection := some { c₁ with isReceiveCreditRequested := queuedBytes c₁ != 0 } }
            c₁.rxFwdCnt s₂ →
              RxOutcome s h data s₂
  /-- The guest reports its credit. -/
  | credited {s₁ : StreamConnection} {c : Connection} :
      s.connection = some c → h.op = opCreditUpdate → ackAhead h.fwdCnt c.txFwdCnt = false →
        Noted s h s₁ → RxOutcome s h data s₁

lemma Noted.connection (hn : Noted s h s') (hc : s.connection = some c) :
    ∃ c₁, s'.connection = some c₁ := by
  cases hn with
  | stale => exact ⟨c, hc⟩
  | taken => exact ⟨_, rfl⟩
  | flushed _ _ _ ha =>
    rw [ha.connection]
    exact ⟨_, rfl⟩

lemma Announced.endsInCreditUpdate {fwdCnt : UInt32} (ha : Announced s fwdCnt s') :
    s'.endsInCreditUpdate = true := by
  cases ha with
  | coalesced _ hop => exact endsInCreditUpdate_iff.2 ⟨_, _, rfl, hop⟩
  | queued => exact endsInCreditUpdate_iff.2 ⟨_, _, rfl, rfl⟩

/-- Only the flush itself queues anything, so a full queue stays full for the next update. -/
lemma Noted.starved (hn : Noted s h s') (hlast : s'.endsInCreditUpdate = false)
    (hq : s'.canQueueReply 0 = false) :
    s.endsInCreditUpdate = false ∧ s.canQueueReply 0 = false ∧
    s'.dropConnection = s.dropConnection := by
  cases hn with
  | stale | taken => exact ⟨hlast, hq, rfl⟩
  | flushed _ _ _ ha =>
    rw [ha.endsInCreditUpdate] at hlast
    cases hlast

lemma rejectPacket_outcome_idle (hidle : s.isLive = false) :
    s.rejectPacket h = if h.op ≠ opRst then s.tryRst h.srcPort h.dstPort else s := by
  obtain ⟨hconn, hcing⟩ := isLive_eq_false_iff.1 hidle
  by_cases hop : h.op = opRst
  · simp [rejectPacket, hop, hconn, hcing]
  · simp [rejectPacket, hop, hconn, hcing]

lemma rejectPacket_outcome_live (hlive : s.isLive = true) : s.rejectPacket h =
      (if h.op ≠ opRst then s.tryRst h.srcPort h.dstPort else s).dropConnection := by
  have hor : (s.connection.isSome || s.isConnecting) = true := hlive
  by_cases hop : h.op = opRst
  · simp [rejectPacket, hop, hor]
  · simp [rejectPacket, hop, hor]

lemma rejectPacket_outcome : RxOutcome s h data (s.rejectPacket h) := by
  by_cases hlive : s.isLive = true
  · rw [rejectPacket_outcome_live hlive]
    by_cases hop : h.op = opRst
    · simpa [hop] using RxOutcome.closed hlive hop
    · simpa [hop] using RxOutcome.rejected hlive hop
  · have hidle : s.isLive = false := by simpa using hlive
    rw [rejectPacket_outcome_idle hidle]
    by_cases hop : h.op = opRst
    · simpa [hop] using RxOutcome.ignored hidle (Or.inl hop)
    · simpa [hop] using RxOutcome.refused hidle hop

lemma onRequest_outcome (hop : h.op = opRequest) : RxOutcome s h data (s.onRequest h) := by
  rw [onRequest]
  split
  · exact rejectPacket_outcome
  next hcond =>
    push Not at hcond
    obtain ⟨hfwd, hconn, hcing⟩ := hcond
    have hidle : s.isLive = false := by
      simp only [isLive]
      simp_all
    dsimp only
    rw [respond_of_not_credit _ (by decide)]
    by_cases hq : s.canQueueReply 0
    · simpa [hq, Connection.new] using RxOutcome.opened hidle hop hfwd hq
    · simpa [hq] using RxOutcome.ignored hidle (Or.inr hop)

lemma onResponse_outcome (hop : h.op = opResponse) : RxOutcome s h data (s.onResponse h) := by
  rw [onResponse]
  split
  · -- `reject_packet` has already cleared the flag of a live stream.
    have hsame : { s.rejectPacket h with isConnecting := false } = s.rejectPacket h := by
      by_cases hlive : s.isLive = true
      · rw [rejectPacket_outcome_live hlive]
        rfl
      · have hidle : s.isLive = false := by simpa using hlive
        rw [rejectPacket_outcome_idle hidle]
        have hcing := (isLive_eq_false_iff.1 hidle).2
        split
        · rw [tryRst_eq]
          split <;> (rw [← hcing])
        · rw [← hcing]
    rw [hsame]
    exact rejectPacket_outcome
  next hcond =>
    push Not at hcond
    exact RxOutcome.established hcond.1 hop hcond.2

lemma onRst_outcome (hop : h.op = opRst) : RxOutcome s h data s.onRst := by
  rw [onRst]
  split
  next hlive => exact RxOutcome.closed hlive hop
  next hlive => exact RxOutcome.ignored (by simpa [isLive] using hlive) (Or.inl hop)

lemma onConnected_outcome (hwell : malformed h data = false)
    (hop : h.op = opShutdown ∨ h.op = opRw ∨ h.op = opCreditUpdate ∨ h.op = opCreditRequest)
    (hcing : s.isConnecting = false) : RxOutcome s h data (s.onConnected h data) := by
  have hnotRst : h.op ≠ opRst := by
    intro hrst
    rw [hrst] at hop
    exact absurd hop (by decide)
  rw [onConnected]
  cases hc : s.connection with
  | none => exact RxOutcome.refused (by simp [isLive, hc, hcing]) hnotRst
  | some c =>
    dsimp only
    split
    · exact rejectPacket_outcome
    rename_i hclosed
    have hnote := notePeerCredit_outcome (h := h) hc
    generalize s.notePeerCredit h = note at hnote
    cases hnote with
    | forged hf => exact RxOutcome.forged hc hnotRst hf
    | starved hf hlast hq => exact RxOutcome.starved hc hnotRst hf hlast hq
    | @noted s₁ hf hn =>
      obtain ⟨c₁, hc₁⟩ := hn.connection hc
      dsimp only
      split
      next hshut => exact RxOutcome.halfClosed hc hshut hf hn
      split
      next hrw =>
        rw [onData, hc₁]
        dsimp only
        have hopen : c.rxShutdown = false := by
          simpa [hrw] using hclosed
        cases hover : s₁.overflowsWindow c₁ h data with
        | true => exact RxOutcome.overflowed hc hrw hwell hopen hf hn hc₁ hover
        | false => exact RxOutcome.received hc hrw hwell hf hn hc₁ hover
      split
      next hreq =>
        rw [onCreditRequest, hc₁]
        dsimp only
        cases hr : respond
            { s₁ with
              connection := some { c₁ with isReceiveCreditRequested := queuedBytes c₁ != 0 } }
            { c₁ with isReceiveCreditRequested := queuedBytes c₁ != 0 } opCreditUpdate 0 with
        | some s₂ => exact RxOutcome.answered hc hreq hf hn hc₁ (respond_creditUpdate_some hr)
        | none =>
          obtain ⟨hlast, hq⟩ := respond_creditUpdate_none hr
          obtain ⟨hlast', hq', hdrop⟩ := hn.starved hlast hq
          have hstarved : RxOutcome s h data s.dropConnection :=
            RxOutcome.starved hc hnotRst hf hlast' hq'
          rw [← hdrop] at hstarved
          exact hstarved
      next hnshut hnrw hnreq =>
        have hupd : h.op = opCreditUpdate := by
          rcases hop with hop | hop | hop | hop
          · exact absurd hop hnshut
          · exact absurd hop hnrw
          · exact hop
          · exact absurd hop hnreq
        exact RxOutcome.credited hc hupd hf hn

theorem rx_outcome (s : StreamConnection) (h : VsockHeader) (data : List UInt8) :
    RxOutcome s h data (s.rx h data) := by
  rw [rx]
  split
  · exact rejectPacket_outcome
  rename_i hwell
  split
  · exact rejectPacket_outcome
  rename_i hconnecting
  split
  next hop => exact onRequest_outcome hop
  split
  next hop => exact onResponse_outcome hop
  split
  next hop => exact onRst_outcome hop
  split
  next hnreq hnresp hnrst hop =>
    refine onConnected_outcome (by simpa using hwell) hop ?_
    by_contra hcing
    simp [hcing, hnresp, hnrst] at hconnecting
  · exact rejectPacket_outcome

/-! ## Host calls -/

def creditRequestReply (s : StreamConnection) (c : Connection) : Reply :=
  { connectionNumber := 0
    header := s.creditHeader opCreditRequest 0 c.rxFwdCnt
    payload := [] }

/-- The stream after `request_credit`: unchanged, or with one more queued request. -/
inductive CreditRequested (s : StreamConnection) : StreamConnection → Prop where
  | unchanged : CreditRequested s s
  | queued {c : Connection} :
      s.connection = some c → s.canQueueReply 0 →
        CreditRequested s
          { s with
            replies := s.replies ++ [s.creditRequestReply c]
            connection := some { c with isCreditRequested := true } }

lemma requestCredit_outcome : CreditRequested s s.requestCredit.2 := by
  rw [requestCredit]
  cases hc : s.connection with
  | none => exact CreditRequested.unchanged
  | some c =>
    dsimp only
    split
    · exact CreditRequested.unchanged
    rw [queueReply_of_not_credit (by change opCreditRequest ≠ opCreditUpdate; decide)]
    by_cases hq : s.canQueueReply 0
    · simpa [hq, hc, creditRequestReply] using CreditRequested.queued hc hq
    · simpa [hq] using CreditRequested.unchanged

def dataReply (s : StreamConnection) (c : Connection) (data : List UInt8) : Reply :=
  { connectionNumber := 0
    header := { s.creditHeader opRw 0 c.rxFwdCnt with len := UInt32.ofNat data.length }
    payload := data }

inductive DeliverOutcome (s : StreamConnection) (data : List UInt8) :
    Except VsockError Unit × StreamConnection → Prop where
  | refused {err : VsockError} {s' : StreamConnection} :
      CreditRequested s s' → DeliverOutcome s data (.error err, s')
  | empty {c : Connection} :
      s.connection = some c → data = [] → DeliverOutcome s data (.ok (), s)
  | queued {c : Connection} :
      s.connection = some c → c.txShutdown = false → data.length ≤ s.sendCapacity →
        data.length < 2 ^ 32 → s.canQueueReply data.length →
          DeliverOutcome s data
            (.ok (),
              { s with
                connection :=
                  some { c with txFwdCnt := c.txFwdCnt + UInt32.ofNat data.length }
                replies := s.replies ++ [s.dataReply c data]
                replyBytes := s.replyBytes + data.length })

lemma deliver_outcome (s : StreamConnection) (data : List UInt8) :
    DeliverOutcome s data (s.deliver data) := by
  rw [deliver]
  cases hc : s.connection with
  | none => exact DeliverOutcome.refused CreditRequested.unchanged
  | some c =>
    dsimp only
    split
    · exact DeliverOutcome.refused CreditRequested.unchanged
    rename_i hopen
    split
    next hempty => exact DeliverOutcome.empty hc (List.isEmpty_iff.1 hempty)
    split
    · exact DeliverOutcome.refused CreditRequested.unchanged
    rename_i hlen
    split
    · -- Too much for now: a credit request may have been queued on the way out.
      split
      · exact DeliverOutcome.refused requestCredit_outcome
      · exact DeliverOutcome.refused CreditRequested.unchanged
    rename_i hcap
    rw [queueReply_of_not_credit (by change opRw ≠ opCreditUpdate; decide)]
    have hsame : canQueueReply
        { s with connection := some { c with txFwdCnt := c.txFwdCnt + UInt32.ofNat data.length } }
        data.length = s.canQueueReply data.length := rfl
    by_cases hq : s.canQueueReply data.length
    · simpa [hsame, hq, dataReply] using DeliverOutcome.queued hc (by simpa using hopen)
        (Nat.le_of_not_lt hcap)
          (Nat.lt_of_not_le hlen) hq
    · simpa [hsame, hq] using DeliverOutcome.refused CreditRequested.unchanged

def shutdownReply (s : StreamConnection) (c : Connection) : Reply :=
  { connectionNumber := 0
    header := s.creditHeader opShutdown flagShutdownSend c.rxFwdCnt
    payload := [] }

/-- Outcomes of `shutdown`; its own drop branch is unreachable. -/
inductive ShutdownOutcome (s : StreamConnection) :
    Except VsockError Unit × StreamConnection → Prop where
  | unchanged {r : Except VsockError Unit} : ShutdownOutcome s (r, s)
  | queued {c : Connection} :
      s.connection = some c → c.txShutdown = false → s.canQueueReply 0 →
        ShutdownOutcome s
          (.ok (),
            { s with
              connection := some { c with txShutdown := true }
              replies := s.replies ++ [s.shutdownReply c] })

lemma shutdown_outcome : ShutdownOutcome s s.shutdown := by
  rw [shutdown]
  cases hc : s.connection with
  | none => exact ShutdownOutcome.unchanged
  | some c =>
    dsimp only
    split
    · exact ShutdownOutcome.unchanged
    rename_i hopen
    split
    · exact ShutdownOutcome.unchanged
    rename_i hq
    have hq' : s.canQueueReply 0 = true := by simpa using hq
    have hq'' :
        canQueueReply { s with connection := some { c with txShutdown := true } } 0 = true := hq'
    rw [respond_of_not_credit _ (by decide), if_pos hq'']
    exact ShutdownOutcome.queued hc (by simpa using hopen) hq'

/-- The connection after `count` consumed bytes, as `advance_receive_credit` compares it. -/
def consumed (c : Connection) (count : Nat) : Connection :=
  { c with rxFwdCnt := c.rxFwdCnt + u32OrMax count }

/-- The same connection as it is stored: an explicit request for credit ends with the queue. -/
def consumedActive (c : Connection) (count : Nat) : Connection :=
  if queuedBytes (consumed c count) = 0 then
    { consumed c count with isReceiveCreditRequested := false }
  else consumed c count

/-- The stream with `count` bytes taken from its input and counted as consumed. -/
def drained (s : StreamConnection) (c : Connection) (count : Nat) : StreamConnection :=
  { s with upstream := s.upstream.drop count, connection := some (consumedActive c count) }

/-- Outcomes of `consume_upstream` on a connected stream. -/
inductive ConsumeOutcome (s : StreamConnection) (c : Connection) (maxBytes : Nat) :
    StreamConnection → Prop where
  | nothing : min maxBytes s.upstream.length = 0 → ConsumeOutcome s c maxBytes s
  | deferred {count : Nat} :
      count = min maxBytes s.upstream.length →
        (s.drained c count).defersCredit (consumed c count) →
          ConsumeOutcome s c maxBytes (s.drained c count)
  | announced {s' : StreamConnection} {count : Nat} :
      count = min maxBytes s.upstream.length →
        Announced (s.drained c count) (consumed c count).rxFwdCnt s' →
          ConsumeOutcome s c maxBytes s'
  | starved {count : Nat} :
      count = min maxBytes s.upstream.length → count ≠ 0 →
        (s.drained c count).defersCredit (consumed c count) = false →
          s.endsInCreditUpdate = false → s.canQueueReply 0 = false →
            ConsumeOutcome s c maxBytes s.dropConnection

lemma consumeUpstream_outcome (hc : s.connection = some c) (maxBytes : Nat) :
    ConsumeOutcome s c maxBytes (s.consumeUpstream maxBytes) := by
  rw [consumeUpstream]
  split
  next hcount =>
    rw [advanceReceiveCredit, hc]
    change ConsumeOutcome s c maxBytes
      (if (s.drained c (min maxBytes s.upstream.length)).defersCredit
          (consumed c (min maxBytes s.upstream.length)) = true then
        s.drained c (min maxBytes s.upstream.length)
      else _)
    split
    next hdefer => exact ConsumeOutcome.deferred rfl hdefer
    next hdefer =>
      split
      next s' hr => exact ConsumeOutcome.announced rfl (respond_creditUpdate_some hr)
      next hr =>
        obtain ⟨hlast, hq⟩ := respond_creditUpdate_none hr
        exact ConsumeOutcome.starved rfl hcount (Bool.eq_false_iff.2 hdefer) hlast hq
  next hcount => exact ConsumeOutcome.nothing (not_not.1 hcount)

lemma takeReply_eq_some {maxBytes : Nat} {r : Reply} : s.takeReply maxBytes = some (r, s') ↔
      ∃ rest, s.replies = r :: rest ∧ r.payload.length ≤ maxBytes ∧
        s' = { s with replies := rest, replyBytes := s.replyBytes - r.payload.length } := by
  constructor
  · intro htake
    rw [takeReply] at htake
    cases hrep : s.replies with
    | nil => simp [hrep] at htake
    | cons r' rest =>
      simp only [hrep] at htake
      split at htake
      · cases htake
      next hfit =>
        obtain ⟨rfl, rfl⟩ := htake
        exact ⟨rest, rfl, Nat.le_of_not_lt hfit, rfl⟩
  · rintro ⟨rest, hrep, hfit, rfl⟩
    simp [takeReply, hrep, Nat.not_lt.2 hfit]

def requestReply (s : StreamConnection) : Reply :=
  { connectionNumber := 0
    header := s.creditHeader opRequest 0 0
    payload := [] }

lemma request_eq (s : StreamConnection) : s.request = if s.isLive = false ∧ s.canQueueReply 0 then
        some { s with replies := s.replies ++ [s.requestReply], isConnecting := true }
      else none := by
  rw [request, queueReply_of_not_credit (by change opRequest ≠ opCreditUpdate; decide)]
  cases hlive : s.isLive with
  | true =>
    have hor : (s.connection.isSome || s.isConnecting) = true := hlive
    simp [hor]
  | false =>
    have hor : (s.connection.isSome || s.isConnecting) = false := hlive
    by_cases hq : s.canQueueReply 0
    · simp [hor, hq, requestReply, creditHeader]
    · simp [hor, hq]

lemma request_new (g p rxAlloc : UInt32) (maxTx : Nat) : (new g p rxAlloc maxTx).request =
      some { new g p rxAlloc maxTx with
        replies := [(new g p rxAlloc maxTx).requestReply]
        isConnecting := true } := by
  have hq : (new g p rxAlloc maxTx).canQueueReply 0 = true := by
    simp [new, canQueueReply]
  rw [request_eq, if_pos ⟨rfl, hq⟩]
  rfl

/-! ## What no call changes -/

lemma Noted.shape (hn : Noted s h s') : SameShape s s' := by
  cases hn with
  | stale | taken => exact ⟨rfl, rfl, rfl⟩
  | flushed _ _ _ ha => exact { ha.shape with }

lemma Noted.upstream (hn : Noted s h s') : s'.upstream = s.upstream := by
  cases hn with
  | stale | taken => rfl
  | flushed _ _ _ ha => exact ha.upstream

lemma onShutdown_shape (flags : UInt32) : SameShape s (s.onShutdown flags) := by
  rw [onShutdown]
  split
  · exact ⟨rfl, rfl, rfl⟩
  · dsimp only
    split <;> exact ⟨rfl, rfl, rfl⟩

lemma rx_shape (s : StreamConnection) (h : VsockHeader) (data : List UInt8) :
    SameShape s (s.rx h data) := by
  have hout := rx_outcome s h data
  generalize s.rx h data = s' at hout ⊢
  cases hout with
  | ignored | opened | established | closed | starved => exact ⟨rfl, rfl, rfl⟩
  | refused => exact SameShape.tryRst _ _
  | rejected | forged => exact (SameShape.tryRst _ _).trans ⟨rfl, rfl, rfl⟩
  | overflowed _ _ _ _ _ hn => exact hn.shape.trans ((SameShape.tryRst _ _).trans ⟨rfl, rfl, rfl⟩)
  | received _ _ _ _ hn => exact hn.shape.trans ⟨rfl, rfl, rfl⟩
  | halfClosed _ _ _ hn => exact hn.shape.trans (onShutdown_shape _)
  | answered _ _ _ hn _ ha => exact hn.shape.trans { ha.shape with }
  | credited _ _ _ hn => exact hn.shape

lemma CreditRequested.shape (hr : CreditRequested s s') : SameShape s s' := by
  cases hr <;> exact ⟨rfl, rfl, rfl⟩

lemma deliver_shape (s : StreamConnection) (data : List UInt8) :
    SameShape s (s.deliver data).2 := by
  have hout := deliver_outcome s data
  generalize s.deliver data = r at hout ⊢
  cases hout with
  | refused hr => exact hr.shape
  | empty | queued => exact ⟨rfl, rfl, rfl⟩

lemma shutdown_shape (s : StreamConnection) : SameShape s s.shutdown.2 := by
  have hout := shutdown_outcome (s := s)
  generalize s.shutdown = r at hout ⊢
  cases hout <;> exact ⟨rfl, rfl, rfl⟩

lemma consumeUpstream_shape (hc : s.connection = some c) (maxBytes : Nat) :
    SameShape s (s.consumeUpstream maxBytes) := by
  have hout := consumeUpstream_outcome hc maxBytes
  generalize s.consumeUpstream maxBytes = s' at hout ⊢
  cases hout with
  | nothing | deferred | starved => exact ⟨rfl, rfl, rfl⟩
  | announced _ ha => exact { ha.shape with }

/-! ## Calls that never end a connection -/

lemma CreditRequested.isLive (hr : CreditRequested s s') (hlive : s.isLive = true) :
    s'.isLive = true := by
  cases hr with
  | unchanged => exact hlive
  | queued => exact isLive_of_connection rfl

lemma deliver_isLive (data : List UInt8) (hlive : s.isLive = true) :
    (s.deliver data).2.isLive = true := by
  have hout := deliver_outcome s data
  generalize s.deliver data = r at hout ⊢
  cases hout with
  | refused hr => exact hr.isLive hlive
  | empty => exact hlive
  | queued => exact isLive_of_connection rfl

lemma shutdown_isLive (hlive : s.isLive = true) : s.shutdown.2.isLive = true := by
  have hout := shutdown_outcome (s := s)
  generalize s.shutdown = r at hout ⊢
  cases hout with
  | unchanged => exact hlive
  | queued => exact isLive_of_connection rfl

end StreamConnection
end Terrarium.Vsock
