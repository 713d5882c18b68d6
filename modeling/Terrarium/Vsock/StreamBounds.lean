import Terrarium.Foundations.Counter
import Terrarium.Vsock.StreamSteps

/-!
# StreamBounds — the resource invariant of one stream

`Bounded` ties the byte total to the reply queue, bounds both queues, and ties the wrapping credit
counters to the bytes that are really queued.  Every call of `StreamSteps` keeps it; these are the
facts that keep a hostile guest from growing host memory.
-/

namespace Terrarium.Vsock
namespace StreamConnection

variable {s s' : StreamConnection} {h : VsockHeader} {data : List UInt8}

def payloadBytes (replies : List Reply) : Nat :=
  (replies.map fun reply => reply.payload.length).sum

@[simp] lemma payloadBytes_nil : payloadBytes [] = 0 := rfl

@[simp] lemma payloadBytes_cons (r : Reply) (rs : List Reply) :
    payloadBytes (r :: rs) = r.payload.length + payloadBytes rs := by
  simp [payloadBytes]

@[simp] lemma payloadBytes_append (rs rs' : List Reply) :
    payloadBytes (rs ++ rs') = payloadBytes rs + payloadBytes rs' := by
  simp [payloadBytes]

lemma payloadBytes_eq_zero {rs : List Reply} (hrs : ∀ r ∈ rs, r.payload = []) :
    payloadBytes rs = 0 := by
  induction rs with
  | nil => rfl
  | cons r rs ih =>
    have hr : r.payload = [] := hrs r (by simp)
    have htail : payloadBytes rs = 0 := ih fun r' hr' => hrs r' (by simp [hr'])
    simp [hr, htail]

lemma payloadBytes_le_of_sublist {rs rs' : List Reply} (h : rs'.Sublist rs) :
    payloadBytes rs' ≤ payloadBytes rs := by
  induction h with
  | slnil => exact Nat.le_refl _
  | cons r _ ih =>
    rw [payloadBytes_cons]
    exact le_trans ih (Nat.le_add_left _ _)
  | cons_cons r _ ih =>
    rw [payloadBytes_cons, payloadBytes_cons]
    exact Nat.add_le_add_left ih _

/-! ## The invariant -/

/-- The credit counters of a connection agree with the queues of its stream. -/
structure CreditBounds (s : StreamConnection) (c : Connection) : Prop where
  queued : (queuedBytes c).toNat = s.upstream.length
  unacked : (unackedBytes c.txFwdCnt c.peerFwdCnt).toNat ≤ s.maxTxBytes
  unannounced : (c.rxFwdCnt - c.rxCreditUpdateFwdCnt).toNat ≤ s.rxAlloc.toNat

structure Bounded (s : StreamConnection) : Prop where
  budget : s.maxTxBytes < 2 ^ 32
  replyBytes : s.replyBytes = payloadBytes s.replies
  replyBound : s.replyBytes ≤ s.maxTxBytes
  replyCount : s.replies.length ≤ maxQueuedReplies
  upstreamBound : s.upstream.length ≤ s.rxAlloc.toNat
  dataOnly : ∀ r ∈ s.replies, r.header.op ≠ opRw → r.payload = []
  addressed : ∀ r ∈ s.replies, r.header.replyTuple = s.tuple
  exclusive : s.isConnecting = true → s.connection = none
  idle : s.connection = none → s.upstream = []
  credit : ∀ c, s.connection = some c → CreditBounds s c

lemma bounded_new (g p rxAlloc : UInt32) {maxTx : Nat} (hmax : maxTx < 2 ^ 32) :
    Bounded (new g p rxAlloc maxTx) := by
  exact ⟨hmax, rfl, Nat.zero_le _, Nat.zero_le _, Nat.zero_le _, nofun, nofun, fun _ => rfl,
    fun _ => rfl, nofun⟩

lemma canQueueReply_iff (n : Nat) :
    s.canQueueReply n ↔ s.replies.length < maxQueuedReplies ∧ s.replyBytes + n ≤ s.maxTxBytes := by
  simp [canQueueReply]

/-- Within its bounds a stream refuses an empty reply only for want of a queue slot. -/
lemma Bounded.canQueueReply_zero (hb : Bounded s) : s.canQueueReply 0 ↔
    s.replies.length < maxQueuedReplies := by
  rw [canQueueReply_iff]
  exact ⟨fun hq => hq.1, fun hq => ⟨hq, hb.replyBound⟩⟩

namespace Bounded

/-! ## Elementary changes -/

lemma drop (hb : Bounded s) : Bounded s.dropConnection :=
  { hb with
    upstreamBound := Nat.zero_le _, exclusive := fun _ => rfl
    idle := fun _ => rfl, credit := nofun }

lemma pushEmpty (hb : Bounded s) (hq : s.canQueueReply 0) {r : Reply} (hr : r.payload = [])
    (haddr : r.header.replyTuple = s.tuple) : Bounded { s with replies := s.replies ++ [r] } := by
  have hroom := (canQueueReply_iff 0).1 hq
  refine { hb with
    replyBytes := ?_, replyCount := ?_, dataOnly := ?_, addressed := ?_, credit :=
      fun c hc => { hb.credit c hc with } }
  · simp [hb.replyBytes, hr]
  · rw [List.length_append]
    exact hroom.1
  · exact List.forall_mem_append.2 ⟨hb.dataOnly, List.forall_mem_singleton.2 fun _ => hr⟩
  · exact List.forall_mem_append.2 ⟨hb.addressed, List.forall_mem_singleton.2 haddr⟩

lemma tryRst (hb : Bounded s) {g p : UInt32} (htuple : ⟨g, p⟩ = s.tuple) :
    Bounded (s.tryRst g p) := by
  rw [tryRst_eq]
  split
  next hq => exact hb.pushEmpty hq rfl htuple
  · exact hb

variable {c : Connection}

lemma absurd_connecting {P : Prop} (hb : Bounded s) (hc : s.connection = some c)
    (hcing : s.isConnecting = true) : P :=
  nomatch hc.symm.trans (hb.exclusive hcing)

lemma notConnecting (hb : Bounded s) (hc : s.connection = some c) : s.isConnecting = false :=
  Bool.eq_false_iff.2 (hb.absurd_connecting hc)

lemma withConnection (hb : Bounded s) (hcing : s.isConnecting = false)
    (hc : CreditBounds s c) : Bounded { s with connection := some c } := by
  refine { hb with exclusive := ?_, idle := nofun, credit := ?_ }
  · intro htrue
    rw [hcing] at htrue
    cases htrue
  · rintro c' ⟨⟩
    exact { hc with }

lemma announce {fwdCnt : UInt32} (hc : s.connection = some c)
    (hb : Bounded { s with connection := some { c with rxCreditUpdateFwdCnt := fwdCnt } })
    (ha : Announced s fwdCnt s') : Bounded s' := by
  cases ha with
  | @coalesced front last hrep hop =>
    have hbytes := hb.replyBytes
    have hcount := hb.replyCount
    have hdata := hb.dataOnly
    have haddr := hb.addressed
    rw [hrep] at hbytes hcount hdata haddr
    simp only [hc, noteCreditUpdate, Option.map_some]
    refine { hb with
      replyBytes := by simpa using hbytes, replyCount := by simpa using hcount
      dataOnly := ?_, addressed := ?_, credit := fun c' hc' => { hb.credit c' hc' with } }
    · intro r hr hne
      rcases List.mem_append.1 hr with hr | hr
      · exact hdata r (List.mem_append_left _ hr) hne
      · rw [List.mem_singleton.1 hr] at hne ⊢
        exact hdata last (List.mem_append_right _ (List.mem_singleton.2 rfl)) hne
    · intro r hr
      rcases List.mem_append.1 hr with hr | hr
      · exact haddr r (List.mem_append_left _ hr)
      · rw [List.mem_singleton.1 hr]
        exact haddr last (List.mem_append_right _ (List.mem_singleton.2 rfl))
  | queued _ hq =>
    simp only [hc, noteCreditUpdate, Option.map_some]
    exact hb.pushEmpty hq (r := s.creditUpdateReply fwdCnt) rfl rfl

lemma announced (hb : Bounded s) (hc : s.connection = some c) (ha : Announced s c.rxFwdCnt s') :
    Bounded s' := by
  refine announce hc (hb.withConnection (hb.notConnecting hc) ?_) ha
  exact { hb.credit c hc with unannounced := by simp }

end Bounded

/-! ## Guest packets -/

lemma le_of_le_u32OrMax {w : UInt32} {n : Nat} (hw : w ≤ u32OrMax n) (hn : n < 2 ^ 32) :
    w.toNat ≤ n := by
  have hle := UInt32.le_iff_toNat_le.1 hw
  rwa [u32OrMax, if_pos hn, UInt32.toNat_ofNat_of_lt' hn] at hle

variable {c : Connection}

lemma CreditBounds.credited (hcred : CreditBounds s c) (hmax : s.maxTxBytes < 2 ^ 32)
    (hle : unackedBytes c.txFwdCnt h.fwdCnt ≤ u32OrMax s.maxTxBytes) :
    CreditBounds s (credited c h) :=
  { hcred with unacked := le_of_le_u32OrMax hle hmax }

lemma Noted.bounded (hn : Noted s h s') (hb : Bounded s) : Bounded s' := by
  cases hn with
  | stale => exact hb
  | taken hc hle =>
    exact hb.withConnection (hb.notConnecting hc) ((hb.credit _ hc).credited hb.budget hle)
  | @flushed _ c hc hle _ ha =>
    have hb' := hb.withConnection (hb.notConnecting hc) ((hb.credit _ hc).credited hb.budget hle)
    exact hb'.announced (c := credited c h) rfl ha

lemma creditBounds_new (hidle : s.upstream = []) (bufAlloc : UInt32) :
    CreditBounds s (Connection.new bufAlloc) := by
  refine ⟨?_, ?_, ?_⟩
  · simp [Connection.new, queuedBytes, hidle]
  · simp [Connection.new, unackedBytes]
  · simp [Connection.new]

/-- Data that passes the window test keeps the counters in step with the queue. -/
lemma Bounded.received (hb : Bounded s) (hc : s.connection = some c)
    (hlen : data.length = h.len.toNat) (hfit : s.overflowsWindow c h data = false) :
    Bounded
      { s with
        connection := some { c with rxReceived := c.rxReceived + h.len }
        upstream := s.upstream ++ data } := by
  have hcred := hb.credit c hc
  have halloc := s.rxAlloc.toNat_lt
  simp only [overflowsWindow, Bool.or_eq_false_iff, decide_eq_false_iff_not, not_lt] at hfit
  have hdist : (queuedBytes { c with rxReceived := c.rxReceived + h.len }).toNat =
      (queuedBytes c).toNat + h.len.toNat :=
    Counter.toNat_add_sub (Nat.lt_of_le_of_lt hfit.1 halloc)
  refine { hb with
    upstreamBound := ?_, exclusive := hb.absurd_connecting hc, idle := nofun, credit := ?_ }
  · simpa using hfit.2
  · rintro c' ⟨⟩
    refine { hcred with queued := ?_ }
    rw [hdist, hcred.queued, List.length_append, hlen]

/-- Closing a direction drops whole data replies, never part of one. -/
lemma Bounded.onShutdown (hb : Bounded s) (flags : UInt32) : Bounded (s.onShutdown flags) := by
  rw [StreamConnection.onShutdown]
  cases hc : s.connection with
  | none => exact hb
  | some c =>
    have hb' : Bounded { s with connection := some (closedBy c flags) } :=
      hb.withConnection (hb.notConnecting hc) { hb.credit c hc with }
    dsimp only
    split
    · have hdata : ∀ r ∈ s.replies.filter (fun reply => reply.header.op != opRw), r.payload =
          [] := by
        intro r hr
        rw [List.mem_filter] at hr
        exact hb.dataOnly r hr.1 (by simpa using hr.2)
      exact { hb' with
        replyBytes := (payloadBytes_eq_zero hdata).symm
        replyBound := Nat.zero_le _
        replyCount := le_trans (List.length_filter_le _ _) hb.replyCount
        dataOnly := fun r hr _ => hdata r hr
        addressed := fun r hr => hb.addressed r (List.mem_of_mem_filter hr)
        credit := fun c' hc' => { hb'.credit c' hc' with } }
    · exact hb'

lemma length_eq_of_wellFormed (hwell : malformed h data = false) : data.length = h.len.toNat := by
  simp only [malformed, Bool.or_eq_false_iff, bne_eq_false_iff_eq] at hwell
  exact hwell.1.1.2

lemma Bounded.rx (hb : Bounded s) (htuple : h.guestTuple = s.tuple) : Bounded (s.rx h data) := by
  have hout := rx_outcome s h data
  generalize s.rx h data = s' at hout ⊢
  cases hout with
  | ignored => exact hb
  | refused => exact hb.tryRst htuple
  | opened hidle _ _ hq =>
    have hup := hb.idle (isLive_eq_false_iff.1 hidle).1
    exact (hb.pushEmpty hq rfl rfl).withConnection (isLive_eq_false_iff.1 hidle).2
      { creditBounds_new hup _ with }
  | established hcing =>
    have hup := hb.idle (hb.exclusive hcing)
    have hb' : Bounded { s with isConnecting := false } :=
      { hb with
        exclusive := fun _ => hb.exclusive hcing, credit := fun c hc => { hb.credit c hc with } }
    exact hb'.withConnection rfl
      (creditBounds_new (s := { s with isConnecting := false }) hup h.bufAlloc)
  | closed | starved => exact hb.drop
  | rejected => exact (hb.tryRst htuple).drop
  | forged => exact (hb.tryRst rfl).drop
  | overflowed _ _ _ _ _ hn =>
    exact ((hn.bounded hb).tryRst (htuple.trans hn.shape.tuple.symm)).drop
  | received _ _ hwell _ hn hc₁ hfit =>
    exact (hn.bounded hb).received hc₁ (length_eq_of_wellFormed hwell) hfit
  | halfClosed _ _ _ hn => exact (hn.bounded hb).onShutdown _
  | @answered s₁ _ _ c₁ _ _ _ hn hc₁ ha =>
    have hb₁ := hn.bounded hb
    have hb₂ := hb₁.withConnection (hb₁.notConnecting hc₁)
      (c := { c₁ with isReceiveCreditRequested := queuedBytes c₁ != 0 }) { hb₁.credit c₁ hc₁ with }
    exact hb₂.announced rfl ha
  | credited _ _ _ hn => exact hn.bounded hb

/-! ## Host calls -/

lemma CreditRequested.bounded (hr : CreditRequested s s') (hb : Bounded s) : Bounded s' := by
  cases hr with
  | unchanged => exact hb
  | @queued c hc hq =>
    exact (hb.pushEmpty hq (r := s.creditRequestReply c) rfl rfl).withConnection
      (hb.notConnecting hc) { hb.credit c hc with }

lemma sendCapacity_le (hc : s.connection = some c) (hopen : c.txShutdown = false) :
    s.sendCapacity ≤ s.maxTxBytes - (unackedBytes c.txFwdCnt c.peerFwdCnt).toNat := by
  have havail :
      s.availableSendCredit ≤ s.maxTxBytes - (unackedBytes c.txFwdCnt c.peerFwdCnt).toNat := by
    rw [availableSendCredit, hc]
    simp [Option.filter, hopen]
  rw [sendCapacity]
  split
  · exact Nat.zero_le _
  · omega

lemma Bounded.deliver (hb : Bounded s) : Bounded (s.deliver data).2 := by
  have hout := deliver_outcome s data
  generalize s.deliver data = r at hout ⊢
  cases hout with
  | refused hr => exact hr.bounded hb
  | empty => exact hb
  | @queued c hc hopen hcap hlen hq =>
    have hcred := hb.credit c hc
    have hroom := (canQueueReply_iff _).1 hq
    have hsend := le_trans hcap (sendCapacity_le hc hopen)
    have hunacked := hcred.unacked
    have hbudget := hb.budget
    have hdist : (unackedBytes (c.txFwdCnt + UInt32.ofNat data.length) c.peerFwdCnt).toNat =
        (unackedBytes c.txFwdCnt c.peerFwdCnt).toNat + data.length := by
      have hfit :
          (c.txFwdCnt - c.peerFwdCnt).toNat + (UInt32.ofNat data.length).toNat < 2 ^ 32 := by
        rw [UInt32.toNat_ofNat_of_lt' hlen]
        simp only [unackedBytes] at hunacked hsend
        omega
      have := Counter.toNat_add_sub hfit
      rwa [UInt32.toNat_ofNat_of_lt' hlen] at this
    refine { hb with
      replyBytes := ?_, replyBound := hroom.2, replyCount := ?_, dataOnly := ?_, addressed := ?_
      exclusive := hb.absurd_connecting hc, idle := nofun, credit := ?_ }
    · simp [hb.replyBytes, dataReply]
    · rw [List.length_append]
      exact hroom.1
    · exact List.forall_mem_append.2
        ⟨hb.dataOnly, List.forall_mem_singleton.2 fun hop => absurd rfl hop⟩
    · exact List.forall_mem_append.2 ⟨hb.addressed, List.forall_mem_singleton.2 rfl⟩
    · rintro c' ⟨⟩
      refine { hcred with unacked := ?_ }
      dsimp only
      omega

lemma Bounded.shutdown (hb : Bounded s) : Bounded s.shutdown.2 := by
  have hout := shutdown_outcome (s := s)
  generalize s.shutdown = r at hout ⊢
  cases hout with
  | unchanged => exact hb
  | @queued c hc hopen hq =>
    exact (hb.pushEmpty hq (r := s.shutdownReply c) rfl rfl).withConnection (hb.notConnecting hc)
      { hb.credit c hc with }

lemma Bounded.request (hb : Bounded s) (hnone : s.connection = none) (hq : s.canQueueReply 0) :
    Bounded { s with replies := s.replies ++ [s.requestReply], isConnecting := true } := by
  have hb' := hb.pushEmpty hq (r := s.requestReply) rfl rfl
  exact { hb' with exclusive := fun _ => hnone, credit := fun c hc => { hb'.credit c hc with } }

/-- Draining `count` bytes moves the consumed counter by exactly that much. -/
lemma Bounded.drained_queued (hb : Bounded s) (hc : s.connection = some c)
    {count : Nat} (hcount : count ≤ s.upstream.length) :
    (queuedBytes (consumed c count)).toNat = (s.upstream.drop count).length := by
  have hcred := hb.credit c hc
  have halloc := s.rxAlloc.toNat_lt
  have hup := hb.upstreamBound
  have hlt : count < 2 ^ 32 := by omega
  have hword : (u32OrMax count).toNat = count := by
    rw [u32OrMax, if_pos hlt, UInt32.toNat_ofNat_of_lt' hlt]
  have hqueued : (c.rxReceived - c.rxFwdCnt).toNat = s.upstream.length := hcred.queued
  have hsub : (c.rxReceived - (c.rxFwdCnt + u32OrMax count)).toNat =
      (c.rxReceived - c.rxFwdCnt).toNat - (u32OrMax count).toNat :=
    Counter.toNat_sub_add (by rw [hword, hqueued]; exact hcount)
  rw [hword, hqueued] at hsub
  simpa [queuedBytes, consumed] using hsub

lemma Bounded.drained (hb : Bounded s) {c' : Connection} (hc : s.connection = some c) {count : Nat}
    (hcount : count ≤ s.upstream.length) (hrx : queuedBytes c' = queuedBytes (consumed c count))
    (htx : unackedBytes c'.txFwdCnt c'.peerFwdCnt = unackedBytes c.txFwdCnt c.peerFwdCnt)
    (hann : (c'.rxFwdCnt - c'.rxCreditUpdateFwdCnt).toNat ≤ s.rxAlloc.toNat) :
    Bounded { s with upstream := s.upstream.drop count, connection := some c' } := by
  have hup := hb.upstreamBound
  refine { hb with
    upstreamBound := ?_, exclusive := hb.absurd_connecting hc, idle := nofun, credit := ?_ }
  · rw [List.length_drop]
    exact le_trans (Nat.sub_le _ _) hup
  · rintro c'' ⟨⟩
    refine ⟨?_, ?_, hann⟩
    · rw [hrx]
      exact hb.drained_queued hc hcount
    · rw [htx]
      exact (hb.credit c hc).unacked

lemma consumedActive_rxFwdCnt (c : Connection) (count : Nat) :
    (consumedActive c count).rxFwdCnt = (consumed c count).rxFwdCnt := by
  rw [consumedActive]
  split <;> rfl

lemma consumedActive_queuedBytes (c : Connection) (count : Nat) :
    queuedBytes (consumedActive c count) = queuedBytes (consumed c count) := by
  rw [consumedActive]
  split <;> rfl

lemma consumedActive_unackedBytes (c : Connection) (count : Nat) :
    unackedBytes (consumedActive c count).txFwdCnt (consumedActive c count).peerFwdCnt =
      unackedBytes c.txFwdCnt c.peerFwdCnt := by
  rw [consumedActive]
  split <;> rfl

lemma consumedActive_rxCreditUpdateFwdCnt (c : Connection) (count : Nat) :
    (consumedActive c count).rxCreditUpdateFwdCnt = c.rxCreditUpdateFwdCnt := by
  rw [consumedActive]
  split <;> rfl

/-- Credit is only deferred while less than half a window is unannounced. -/
lemma unannounced_of_defersCredit (hdefer : s.defersCredit c) :
    (c.rxFwdCnt - c.rxCreditUpdateFwdCnt).toNat ≤ s.rxAlloc.toNat := by
  simp only [defersCredit, Bool.and_eq_true, decide_eq_true_eq] at hdefer
  have hlt := UInt32.lt_iff_toNat_lt.1 hdefer.1.2
  have hmin : (min s.rxAlloc c.peerBufAlloc).toNat ≤ s.rxAlloc.toNat := by
    change (if s.rxAlloc ≤ c.peerBufAlloc then s.rxAlloc else c.peerBufAlloc).toNat ≤ _
    split
    · exact le_refl _
    next hlt' => exact UInt32.le_iff_toNat_le.1 (UInt32.le_of_lt (UInt32.not_le.1 hlt'))
  rw [UInt32.toNat_div] at hlt
  have hhalf := Nat.div_le_self (min s.rxAlloc c.peerBufAlloc).toNat (2 : UInt32).toNat
  omega

lemma Bounded.consumeUpstream (hb : Bounded s) (hc : s.connection = some c)
    (maxBytes : Nat) : Bounded (s.consumeUpstream maxBytes) := by
  have hout := consumeUpstream_outcome hc maxBytes
  generalize s.consumeUpstream maxBytes = s' at hout ⊢
  cases hout with
  | nothing => exact hb
  | @deferred count hcount hdefer =>
    refine hb.drained hc (by omega) (consumedActive_queuedBytes c count)
      (consumedActive_unackedBytes c count) ?_
    rw [consumedActive_rxFwdCnt, consumedActive_rxCreditUpdateFwdCnt]
    exact unannounced_of_defersCredit hdefer
  | @announced _ count hcount ha =>
    refine Bounded.announce (c := consumedActive c count) rfl ?_ ha
    refine hb.drained hc (by omega) (consumedActive_queuedBytes c count)
      (consumedActive_unackedBytes c count) ?_
    rw [consumedActive_rxFwdCnt]
    simp
  | starved => exact hb.drop

lemma Bounded.drain (hb : Bounded s) (taken rest : List Reply) (hrep : s.replies = taken ++ rest) :
    Bounded { s with replies := rest, replyBytes := s.replyBytes - payloadBytes taken } := by
  have hbytes := hb.replyBytes
  have hcount := hb.replyCount
  have hbound := hb.replyBound
  rw [hrep] at hbytes hcount
  rw [payloadBytes_append] at hbytes
  rw [List.length_append] at hcount
  have hmem : ∀ r ∈ rest, r ∈ s.replies := fun r hr => hrep ▸ List.mem_append_right _ hr
  refine { hb with
    replyBytes := ?_, replyBound := ?_, replyCount := ?_, dataOnly :=
      fun r hr => hb.dataOnly r (hmem r hr)
    addressed := fun r hr => hb.addressed r (hmem r hr), credit :=
      fun c hc => { hb.credit c hc with } }
  all_goals
    dsimp only
    omega

lemma Bounded.quiesce (hb : Bounded s) (rs : List Reply) (hsub : rs.Sublist s.replies)
    (hrw : ∀ r ∈ rs, r.header.op ≠ opRw) :
    Bounded { s.dropConnection with replies := rs, replyBytes := 0 } := by
  have hmem : ∀ r ∈ rs, r ∈ s.replies := fun r hr => hsub.subset hr
  exact { hb.drop with
    replyBytes := (payloadBytes_eq_zero fun r hr => hb.dataOnly r (hmem r hr) (hrw r hr)).symm
    replyBound := Nat.zero_le _
    replyCount := le_trans hsub.length_le hb.replyCount
    dataOnly := fun r hr => hb.dataOnly r (hmem r hr)
    addressed := fun r hr => hb.addressed r (hmem r hr)
    credit := nofun }

end StreamConnection
end Terrarium.Vsock
