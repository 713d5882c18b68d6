import Terrarium.Vsock.StreamBounds

/-!
# StreamData — the bytes a stream carries

The reply queue mixes data, shutdown, credit and reset replies, and credit updates are rewritten in
place.  `carried` forgets everything but data and shutdown; this file says what each call does to
the carried replies and to the input queue of a connection that stays open.

* `carried`, `dataOf`, `Ordered` — the outgoing stream, its bytes, and “no data after shutdown”;
* `SendOk` — the outgoing stream agrees with what the host delivered.
-/

namespace Terrarium.Vsock
namespace StreamConnection

/-! ## The outgoing stream -/

/-- The data and shutdown replies among `rs`, in order: operation and payload. -/
def carried (rs : List Reply) : List (UInt16 × List UInt8) :=
  (rs.filter fun r => r.header.op = opRw ∨ r.header.op = opShutdown).map fun r =>
    (r.header.op, r.payload)

def dataOf (stream : List (UInt16 × List UInt8)) : List UInt8 :=
  (stream.filter fun m => m.1 = opRw).flatMap Prod.snd

/-- No data follows a shutdown. -/
def Ordered (stream : List (UInt16 × List UInt8)) : Prop :=
  stream.Pairwise fun m m' => m.1 = opShutdown → m'.1 ≠ opRw

@[simp] lemma carried_append (rs rs' : List Reply) :
    carried (rs ++ rs') = carried rs ++ carried rs' := by
  simp [carried]

lemma carried_other {r : Reply} (hrw : r.header.op ≠ opRw) (hshut : r.header.op ≠ opShutdown) :
    carried [r] = [] := by
  simp [carried, hrw, hshut]

lemma carried_of_resets {rs : List Reply} (h : ∀ r ∈ rs, r.header.op = opRst) :
    carried rs = [] := by
  rw [carried, List.map_eq_nil_iff, List.filter_eq_nil_iff]
  intro r hr
  rw [h r hr]
  decide

@[simp] lemma dataOf_append (m m' : List (UInt16 × List UInt8)) :
    dataOf (m ++ m') = dataOf m ++ dataOf m' := by
  simp [dataOf]

def rwBytes (rs : List Reply) : List UInt8 :=
  (rs.filter fun r => r.header.op = opRw).flatMap Reply.payload

def NoDataAfterShutdown (rs : List Reply) : Prop :=
  rs.Pairwise fun r r' => r.header.op = opShutdown → r'.header.op ≠ opRw

lemma dataOf_carried (rs : List Reply) : dataOf (carried rs) = rwBytes rs := by
  rw [dataOf, carried, rwBytes, List.filter_map, List.filter_filter, List.flatMap_map]
  congr 2
  funext r
  by_cases hrw : r.header.op = opRw
  · simp [hrw]
  · simp [hrw]

lemma Ordered.replies {rs : List Reply} (ho : Ordered (carried rs)) : NoDataAfterShutdown rs := by
  rw [Ordered, carried, List.pairwise_map, List.pairwise_filter] at ho
  refine ho.imp ?_
  intro r r' hpair hshut hrw
  exact hpair (by simp [hshut]) (by simp [hrw]) hshut hrw

variable {s s' : StreamConnection} {h : VsockHeader} {data : List UInt8} {c c' : Connection}

/-- Two connections agree on which directions have been closed towards the guest. -/
structure SameFlags (c c' : Connection) : Prop where
  txShutdown : c'.txShutdown = c.txShutdown
  peerReceiveClosed : c'.peerReceiveClosed = c.peerReceiveClosed

lemma SameFlags.trans {c₁ c₂ c₃ : Connection} (h₁ : SameFlags c₁ c₂) (h₂ : SameFlags c₂ c₃) :
    SameFlags c₁ c₃ :=
  ⟨h₂.txShutdown.trans h₁.txShutdown, h₂.peerReceiveClosed.trans h₁.peerReceiveClosed⟩

lemma carried_filter_not_data (rs : List Reply) : carried (rs.filter fun r => r.header.op != opRw) =
      (carried rs).filter fun m => m.1 != opRw := by
  simp only [carried, List.filter_filter, List.filter_map, Function.comp_def, Bool.and_comm]

/-! ## What a call sends -/

/-- What one call does to the outgoing stream of a connection; the last argument are the bytes the
call accepted for delivery. -/
inductive Sends (c : Connection) (stream : List (UInt16 × List UInt8)) :
    Connection → List (UInt16 × List UInt8) → List UInt8 → Prop where
  | kept {c' : Connection} : SameFlags c c' → Sends c stream c' stream []
  | data {c' : Connection} {bytes : List UInt8} :
      c.txShutdown = false → SameFlags c c' →
        Sends c stream c' (stream ++ [(opRw, bytes)]) bytes
  | shut {c' : Connection} :
      c.txShutdown = false → c'.txShutdown = true →
        c'.peerReceiveClosed = c.peerReceiveClosed →
          Sends c stream c' (stream ++ [(opShutdown, [])]) []
  | cut {c' : Connection} :
      c'.txShutdown = true → c'.peerReceiveClosed = true →
        Sends c stream c' (stream.filter fun m => m.1 != opRw) []

/-- The outgoing stream agrees with what the host delivered: `taken` has left the queue, `queued`
has not. -/
structure SendOk (c : Connection) (taken queued : List (UInt16 × List UInt8))
    (delivered : List UInt8) : Prop where
  bytes : c.peerReceiveClosed = false → dataOf (taken ++ queued) = delivered
  ordered : Ordered (taken ++ queued)
  closed : ∀ m ∈ taken ++ queued, m.1 = opShutdown → c.txShutdown = true

variable {taken queued queued' : List (UInt16 × List UInt8)} {delivered bytes : List UInt8}

lemma sendOk_nil (c : Connection) : SendOk c [] [] [] :=
  ⟨fun _ => rfl, List.Pairwise.nil, nofun⟩

lemma SendOk.ordered_push (hok : SendOk c taken queued delivered) (hopen : c.txShutdown = false)
    (m : UInt16 × List UInt8) : Ordered (taken ++ (queued ++ [m])) := by
  rw [← List.append_assoc]
  refine List.pairwise_append.2 ⟨hok.ordered, List.pairwise_singleton _ _, ?_⟩
  intro m₁ hm₁ m₂ _ hshut
  rw [hok.closed m₁ hm₁ hshut] at hopen
  cases hopen

lemma SendOk.step (hok : SendOk c taken queued delivered)
    (hs : Sends c queued c' queued' bytes) : SendOk c' taken queued' (delivered ++ bytes) := by
  cases hs with
  | kept hflags =>
    refine ⟨fun hopen => ?_, hok.ordered, fun m hm hshut => ?_⟩
    · rw [List.append_nil]
      exact hok.bytes (hflags.peerReceiveClosed ▸ hopen)
    · rw [hflags.txShutdown]
      exact hok.closed m hm hshut
  | data hopen hflags =>
    refine ⟨fun hrecv => ?_, hok.ordered_push hopen _, fun m hm hshut => ?_⟩
    · rw [← List.append_assoc, dataOf_append, hok.bytes (hflags.peerReceiveClosed ▸ hrecv)]
      simp [dataOf]
    · rw [hflags.txShutdown]
      rw [← List.append_assoc] at hm
      rcases List.mem_append.1 hm with hm | hm
      · exact hok.closed m hm hshut
      · rw [List.mem_singleton.1 hm] at hshut
        change opRw = opShutdown at hshut
        exact absurd hshut (by decide)
  | shut hopen hclosed hrecv =>
    refine ⟨fun hrecv' => ?_, hok.ordered_push hopen _, fun _ _ _ => hclosed⟩
    rw [← List.append_assoc, dataOf_append, hok.bytes (hrecv ▸ hrecv')]
    simp [dataOf]
  | cut hclosed hrecv =>
    refine ⟨fun hrecv' => ?_, ?_, fun _ _ _ => hclosed⟩
    · rw [hrecv] at hrecv'
      cases hrecv'
    · exact hok.ordered.sublist (List.filter_sublist.append_left taken)

/-! ## The calls -/

/-- The connection whose flags govern sending; while there is none, a new one's. -/
def sending (s : StreamConnection) : Connection :=
  s.connection.getD (Connection.new 0)

lemma sending_eq (hc : s.connection = some c) : s.sending = c := by
  rw [sending, hc]
  rfl

lemma sending_idle (hnone : s.connection = none) : s.sending = Connection.new 0 := by
  rw [sending, hnone]
  rfl

lemma sends_of_eq (hrep : carried s'.replies = carried s.replies)
    (hflags : SameFlags s.sending s'.sending) :
    Sends s.sending (carried s.replies) s'.sending (carried s'.replies) [] := by
  rw [hrep]
  exact Sends.kept hflags

lemma tryRst_carried (g p : UInt32) : carried (s.tryRst g p).replies = carried s.replies := by
  have hnone : carried [rstReply g p] = [] := by
    refine carried_other ?_ ?_
    · change opRst ≠ opRw
      decide
    · change opRst ≠ opShutdown
      decide
  rw [tryRst_replies]
  split
  · rw [carried_append, hnone, List.append_nil]
  · rfl

/-- Credit updates are not carried, not even when they are rewritten in place. -/
lemma Announced.sends {fwdCnt : UInt32} (ha : Announced s fwdCnt s') :
    carried s'.replies = carried s.replies ∧ SameFlags s.sending s'.sending := by
  have hnone : ∀ r : Reply, r.header.op = opCreditUpdate → carried [r] = [] := by
    intro r hr
    refine carried_other ?_ ?_
    · rw [hr]
      decide
    · rw [hr]
      decide
  constructor
  · cases ha with
    | @coalesced front last hrep hop =>
      rw [hrep, carried_append, carried_append, hnone last hop,
        hnone { last with header := { last.header with fwdCnt := fwdCnt } } hop]
    | queued => rw [carried_append, hnone _ rfl, List.append_nil]
  · have hconn := ha.connection
    cases hc : s.connection with
    | none =>
      rw [hc] at hconn
      rw [sending_idle hc, sending_idle hconn]
      exact ⟨rfl, rfl⟩
    | some c =>
      rw [hc] at hconn
      rw [sending_eq hc, sending_eq hconn]
      exact ⟨rfl, rfl⟩

lemma Noted.sends (hn : Noted s h s') :
    carried s'.replies = carried s.replies ∧ SameFlags s.sending s'.sending := by
  cases hn with
  | stale => exact ⟨rfl, rfl, rfl⟩
  | @taken c hc _ =>
    rw [sending_eq hc]
    exact ⟨rfl, rfl, rfl⟩
  | @flushed _ c hc _ _ ha =>
    obtain ⟨hsame, hflags⟩ := ha.sends
    rw [sending_eq hc]
    exact ⟨hsame, hflags.txShutdown, hflags.peerReceiveClosed⟩

/-- Closing the receiving direction discards the queued data; closing the other one does not. -/
lemma onShutdown_sends (hc : s.connection = some c) (flags : UInt32) :
    (s.onShutdown flags).upstream = s.upstream ∧
      Sends s.sending (carried s.replies) (s.onShutdown flags).sending
        (carried (s.onShutdown flags).replies) [] := by
  rw [sending_eq hc, onShutdown, hc]
  dsimp only
  split
  next hrcv =>
    rw [carried_filter_not_data]
    refine ⟨rfl, Sends.cut ?_ ?_⟩
    · simp [sending, closedBy, hrcv]
    · simp [sending, closedBy, hrcv]
  next hrcv =>
    have hflag : flags &&& flagShutdownRcv = 0 := not_not.1 hrcv
    refine ⟨rfl, Sends.kept ⟨?_, ?_⟩⟩
    · simp [sending, closedBy, hflag]
    · simp [sending, closedBy, hflag]

lemma Sends.after {c₁ c₂ c₃ : Connection} {m m' : List (UInt16 × List UInt8)}
    (hflags : SameFlags c₁ c₂) (hs : Sends c₂ m c₃ m' bytes) : Sends c₁ m c₃ m' bytes := by
  cases hs with
  | kept hkept => exact Sends.kept (hflags.trans hkept)
  | data hopen hkept => exact Sends.data (hflags.txShutdown ▸ hopen) (hflags.trans hkept)
  | shut hopen hclosed hrecv =>
    exact Sends.shut (hflags.txShutdown ▸ hopen) hclosed (hrecv.trans hflags.peerReceiveClosed)
  | cut hclosed hrecv => exact Sends.cut hclosed hrecv

/-- Unless it ends a live stream, a packet appends its data to the input of a connection and
touches the outgoing stream only by closing it. -/
lemma rx_sends (hb : Bounded s) (hstays : s.isLive = true → (s.rx h data).isLive = true) :
    (s.rx h data).upstream =
        s.upstream ++ (if s.connection.isSome ∧ h.op = opRw then data else []) ∧
      Sends s.sending (carried s.replies) (s.rx h data).sending
        (carried (s.rx h data).replies) [] := by
  have hout := rx_outcome s h data
  generalize s.rx h data = s' at hout hstays ⊢
  have hnodata : ¬ (s.connection.isSome ∧ h.op = opRw) → s'.upstream = s.upstream →
      s'.upstream = s.upstream ++ (if s.connection.isSome ∧ h.op = opRw then data else []) := by
    intro hno hsame
    rw [if_neg hno, hsame, List.append_nil]
  have hidle : s.isLive = false → ¬ (s.connection.isSome ∧ h.op = opRw) := by
    intro hidle hboth
    rw [(isLive_eq_false_iff.1 hidle).1] at hboth
    cases hboth.1
  have hop : ∀ {op : UInt16}, h.op = op → op ≠ opRw → ¬ (s.connection.isSome ∧ h.op = opRw) :=
    fun hop hne hboth => hne (hop.symm.trans hboth.2)
  cases hout with
  | ignored hdown => exact ⟨hnodata (hidle hdown) rfl, sends_of_eq rfl ⟨rfl, rfl⟩⟩
  | refused hdown =>
    refine ⟨hnodata (hidle hdown) (tryRst_upstream _ _), sends_of_eq (tryRst_carried _ _) ?_⟩
    rw [sending, sending, tryRst_connection]
    exact ⟨rfl, rfl⟩
  | opened hdown =>
    refine ⟨hnodata (hidle hdown) rfl, sends_of_eq ?_ ?_⟩
    · rw [carried_append, carried_other, List.append_nil]
      · change opResponse ≠ opRw
        decide
      · change opResponse ≠ opShutdown
        decide
    · rw [sending_idle (isLive_eq_false_iff.1 hdown).1]
      exact ⟨rfl, rfl⟩
  | established hcing hresp =>
    refine ⟨hnodata (hop hresp (by decide)) rfl, sends_of_eq rfl ?_⟩
    rw [sending_idle (hb.exclusive hcing)]
    exact ⟨rfl, rfl⟩
  | closed hlive | rejected hlive => cases hstays hlive
  | forged hc | starved hc | overflowed hc => cases hstays (isLive_of_connection hc)
  | @received s₁ c c₁ hc hrw _ _ hn hc₁ _ =>
    obtain ⟨hsame, hflags⟩ := hn.sends
    rw [sending_eq hc₁] at hflags
    refine ⟨?_, sends_of_eq hsame ⟨hflags.txShutdown, hflags.peerReceiveClosed⟩⟩
    rw [if_pos ⟨by rw [hc]; rfl, hrw⟩, hn.upstream]
  | @halfClosed s₁ c hc hshut _ hn =>
    obtain ⟨hsame, hflags⟩ := hn.sends
    obtain ⟨c₁, hc₁⟩ := hn.connection hc
    obtain ⟨hup, hsends⟩ := onShutdown_sends hc₁ h.flags
    refine ⟨hnodata (hop hshut (by decide)) (hup.trans hn.upstream), ?_⟩
    rw [hsame] at hsends
    exact hsends.after hflags
  | @answered s₁ s₂ c c₁ hc hreq _ hn hc₁ ha =>
    obtain ⟨hsame, hflags⟩ := hn.sends
    obtain ⟨hsame', hflags'⟩ := ha.sends
    rw [sending_eq hc₁] at hflags
    refine ⟨hnodata (hop hreq (by decide)) (ha.upstream.trans hn.upstream),
      sends_of_eq (hsame'.trans hsame) (hflags.trans ?_)⟩
    exact ⟨hflags'.txShutdown, hflags'.peerReceiveClosed⟩
  | @credited s₁ c hc hupd _ hn =>
    obtain ⟨hsame, hflags⟩ := hn.sends
    exact ⟨hnodata (hop hupd (by decide)) hn.upstream, sends_of_eq hsame hflags⟩

lemma rx_connected (hc : s.connection = some c)
    (hlive : (s.rx h data).isLive = true) : (s.rx h data).connection.isSome = true := by
  have hout := rx_outcome s h data
  generalize s.rx h data = s' at hout hlive ⊢
  have hup := isLive_of_connection hc
  cases hout with
  | ignored hdown | refused hdown =>
    rw [hup] at hdown
    cases hdown
  | opened | established | received => rfl
  | closed | rejected | forged | starved | overflowed => cases hlive
  | halfClosed _ _ _ hn =>
    obtain ⟨c₁, hc₁⟩ := hn.connection hc
    rw [onShutdown, hc₁]
    dsimp only
    split <;> rfl
  | answered _ _ _ _ _ ha =>
    rw [ha.connection]
    rfl
  | credited _ _ _ hn =>
    obtain ⟨c₁, hc₁⟩ := hn.connection hc
    rw [hc₁]
    rfl

def acceptedBytes (data : List UInt8) : Except VsockError Unit → List UInt8
  | .ok () => data
  | .error _ => []

lemma CreditRequested.sends (hr : CreditRequested s s') : s'.upstream = s.upstream ∧
      Sends s.sending (carried s.replies) s'.sending (carried s'.replies) [] := by
  cases hr with
  | unchanged => exact ⟨rfl, sends_of_eq rfl ⟨rfl, rfl⟩⟩
  | @queued c hc _ =>
    refine ⟨rfl, sends_of_eq ?_ ?_⟩
    · rw [carried_append, carried_other, List.append_nil]
      · change opCreditRequest ≠ opRw
        decide
      · change opCreditRequest ≠ opShutdown
        decide
    · rw [sending_eq hc]
      exact ⟨rfl, rfl⟩

lemma deliver_sends (s : StreamConnection) (data : List UInt8) :
    (s.deliver data).2.upstream = s.upstream ∧
      Sends s.sending (carried s.replies) (s.deliver data).2.sending
        (carried (s.deliver data).2.replies) (acceptedBytes data (s.deliver data).1) := by
  have hout := deliver_outcome s data
  generalize s.deliver data = res at hout ⊢
  cases hout with
  | refused hr => exact hr.sends
  | empty _ hempty =>
    rw [acceptedBytes, hempty]
    exact ⟨rfl, sends_of_eq rfl ⟨rfl, rfl⟩⟩
  | @queued c hc hopen =>
    have hpush : carried [s.dataReply c data] = [(opRw, data)] := rfl
    refine ⟨rfl, ?_⟩
    rw [carried_append, hpush, sending_eq hc]
    exact Sends.data hopen ⟨rfl, rfl⟩

lemma shutdown_sends (s : StreamConnection) : s.shutdown.2.upstream = s.upstream ∧
      Sends s.sending (carried s.replies) s.shutdown.2.sending
        (carried s.shutdown.2.replies) [] := by
  have hout := shutdown_outcome (s := s)
  generalize s.shutdown = res at hout ⊢
  cases hout with
  | unchanged => exact ⟨rfl, sends_of_eq rfl ⟨rfl, rfl⟩⟩
  | @queued c hc hopen =>
    have hpush : carried [s.shutdownReply c] = [(opShutdown, [])] := rfl
    refine ⟨rfl, ?_⟩
    rw [carried_append, hpush, sending_eq hc]
    exact Sends.shut hopen rfl rfl

lemma take_append_drop_min (l : List UInt8) (n : Nat) :
    l.take n ++ l.drop (min n l.length) = l := by
  have htake : l.take n = l.take (min n l.length) := by
    rw [List.take_eq_take_iff]
    omega
  rw [htake, List.take_append_drop]

/-- Consuming takes bytes from the front of the input, unless it ends the connection. -/
lemma consume_sends (hc : s.connection = some c) {maxBytes : Nat}
    (hstays : (s.consumeUpstream maxBytes).connection.isNone = false) :
    s.upstream.take maxBytes ++ (s.consumeUpstream maxBytes).upstream = s.upstream ∧
      Sends s.sending (carried s.replies) (s.consumeUpstream maxBytes).sending
        (carried (s.consumeUpstream maxBytes).replies) [] := by
  have hout := consumeUpstream_outcome hc maxBytes
  generalize s.consumeUpstream maxBytes = s' at hout hstays ⊢
  have hflags : ∀ count, SameFlags s.sending (consumedActive c count) := by
    intro count
    rw [sending_eq hc, consumedActive]
    split <;> exact ⟨rfl, rfl⟩
  cases hout with
  | nothing hzero =>
    have hsplit := take_append_drop_min s.upstream maxBytes
    rw [hzero] at hsplit
    exact ⟨hsplit, sends_of_eq rfl ⟨rfl, rfl⟩⟩
  | @deferred count hcount =>
    refine ⟨?_, sends_of_eq rfl (hflags count)⟩
    rw [hcount]
    exact take_append_drop_min _ _
  | @announced _ count hcount ha =>
    obtain ⟨hsame, hflags'⟩ := ha.sends
    refine ⟨?_, sends_of_eq hsame ((hflags count).trans hflags')⟩
    rw [ha.upstream, hcount]
    exact take_append_drop_min _ _
  | starved => cases hstays

end StreamConnection
end Terrarium.Vsock
