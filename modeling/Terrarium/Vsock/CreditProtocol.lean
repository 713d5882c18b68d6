import Terrarium.Foundations.Run
import Terrarium.Vsock.StreamBounds

/-!
# CreditProtocol — a host stream and a conforming guest

A two-party model of one connection: the host's `StreamConnection`, a guest that keeps its own
counters, and a FIFO channel in each direction.  Replies and packets may stay in flight for any
time, so each party works with a stale view of the other's counters.

* `Guest` — a guest that opens one connection, keeps within the window it has been told of, and
  acknowledges only bytes it has received;
* `Agreement` — the true totals behind the wrapping counters, and what holds between them.

The host's checks are never stricter than what it has advertised: a conforming guest is never reset
for overflowing the window or for a forged acknowledgement.
-/

namespace Terrarium.Vsock

open Counter StreamConnection

/-! ## The two parties -/

/-- The flow-control state of the guest's driver. -/
structure Guest where
  started : Bool
  /-- Payload bytes sent, as a wrapping counter. -/
  txCnt : UInt32
  /-- The newest `fwd_cnt` of the host seen so far, in wrapping order. -/
  seenFwd : UInt32
  /-- Payload bytes received so far. -/
  received : Nat
  /-- Payload bytes passed on to the application so far: the guest's own free-running `fwd_cnt`. -/
  consumed : Nat
  deriving DecidableEq

structure Link where
  host : StreamConnection
  /-- Replies taken from the host's queue that the guest has not seen yet. -/
  toGuest : List Reply
  /-- Packets sent by the guest that the host has not seen yet. -/
  toHost : List (VsockHeader × List UInt8)
  guest : Guest
  deriving DecidableEq

def VsockHeader.opens (h : VsockHeader) : Bool :=
  h.op = opRequest || h.op = opResponse

def newerFwd (seen fwd : UInt32) : UInt32 :=
  if ackAhead fwd seen then fwd else seen

namespace Link

def initial (guestPort hostPort rxAlloc : UInt32) (maxTxBytes : Nat) : Link :=
  { host := StreamConnection.new guestPort hostPort rxAlloc maxTxBytes
    toGuest := []
    toHost := []
    guest := { started := false, txCnt := 0, seenFwd := 0, received := 0, consumed := 0 } }

/-- What a conforming guest may send: its opening packet first and once, its own `fwd_cnt` in every
packet, and data only within the window it has been told of. -/
def maySend (w : Link) (h : VsockHeader) : Bool :=
  h.guestTuple = w.host.tuple &&
    h.fwdCnt = UInt32.ofNat w.guest.consumed &&
    h.opens = !w.guest.started &&
    (h.op != opRw ||
      (w.guest.txCnt - w.guest.seenFwd).toNat + h.len.toNat ≤ w.host.rxAlloc.toNat)

inductive Action
  | request
  | deliver (data : List UInt8)
  | shutdown
  | requestCredit
  | consume (maxBytes : Nat)
  | reset
  | takeReply (maxBytes : Nat)
  | hostReceive
  | guestSend (h : VsockHeader) (data : List UInt8)
  | guestReceive
  | guestConsume (count : Nat)
  deriving DecidableEq

/-- The state after an action; `none` when the action is not possible. -/
def next (w : Link) : Action → Option Link
  | .request => w.host.request.map fun host => { w with host := host }
  | .deliver data => some { w with host := (w.host.deliver data).2 }
  | .shutdown => some { w with host := w.host.shutdown.2 }
  | .requestCredit => some { w with host := w.host.requestCredit.2 }
  | .consume maxBytes => some { w with host := w.host.consumeUpstream maxBytes }
  | .reset =>
      if w.host.isLive then
        some { w with host := (w.host.tryRst w.host.guestPort w.host.hostPort).dropConnection }
      else none
  | .takeReply maxBytes =>
      (w.host.takeReply maxBytes).map fun r =>
        { w with host := r.2, toGuest := w.toGuest ++ [r.1] }
  | .hostReceive =>
      match w.toHost with
      | [] => none
      | (h, data) :: rest => some { w with host := w.host.rx h data, toHost := rest }
  | .guestSend h data =>
      if w.maySend h then
        some
          { w with
            toHost := w.toHost ++ [(h, data)]
            guest :=
              { w.guest with
                started := true
                txCnt := if h.op = opRw then w.guest.txCnt + h.len else w.guest.txCnt } }
      else none
  | .guestReceive =>
      match w.toGuest with
      | [] => none
      | reply :: rest =>
          some
            { w with
              toGuest := rest
              guest :=
                { w.guest with
                  seenFwd := newerFwd w.guest.seenFwd reply.header.fwdCnt
                  received := w.guest.received + reply.payload.length } }
  | .guestConsume count =>
      if w.guest.consumed + count ≤ w.guest.received then
        some { w with guest := { w.guest with consumed := w.guest.consumed + count } }
      else none

def step (w : Link) (action : Action) : Option (Unit × Link) :=
  (w.next action).map fun w' => ((), w')

/-! ## The true totals -/

/-- Payload bytes announced by the data packets in flight. -/
def dataBytes (packets : List (VsockHeader × List UInt8)) : Nat :=
  (packets.map fun p => if p.1.op = opRw then p.1.len.toNat else 0).sum

def replyFwds (replies : List Reply) : List UInt32 :=
  replies.map fun r => r.header.fwdCnt

/-- The totals behind a connection's counters: bytes received `r`, consumed `k`, sent `t` and
acknowledged `p`. -/
structure Counts (c : Connection) (r k t p : Nat) : Prop where
  received : c.rxReceived = UInt32.ofNat r
  consumed : c.rxFwdCnt = UInt32.ofNat k
  sent : c.txFwdCnt = UInt32.ofNat t
  acked : c.peerFwdCnt = UInt32.ofNat p

/-- How the host's totals relate to the guest's and to what is in flight. -/
structure Synced (w : Link) (r k t p : Nat) : Prop where
  queued : r = k + w.host.upstream.length
  window : t ≤ p + w.host.maxTxBytes
  credit : ∃ seen, w.guest.seenFwd = UInt32.ofNat seen ∧
    w.guest.txCnt = UInt32.ofNat (r + dataBytes w.toHost) ∧
      r + dataBytes w.toHost ≤ seen + w.host.rxAlloc.toNat ∧
        Rising seen (replyFwds w.toGuest ++ replyFwds w.host.replies) k
  acks : Rising p (w.toHost.map fun q => q.1.fwdCnt) w.guest.consumed
  bytes : w.guest.received + payloadBytes w.toGuest + payloadBytes w.host.replies ≤ t
  guest : w.guest.consumed ≤ w.guest.received

/-- The guest's opening packet has not been sent, or is the next one the host will see. -/
def Awaiting (w : Link) : Prop :=
  (w.guest.started = false ∧ w.toHost = []) ∨
    ∃ q rest, w.guest.started = true ∧ w.toHost = q :: rest ∧ q.1.opens = true ∧
      ∀ q' ∈ rest, q'.1.opens = false

/-- Where the connection stands. -/
inductive Stage (w : Link) : Prop where
  | opening : w.host.connection = none → Synced w 0 0 0 0 → Awaiting w → Stage w
  | connected {c : Connection} {r k t p : Nat} :
      w.host.connection = some c → Counts c r k t p → Synced w r k t p →
        w.guest.started = true → (∀ q ∈ w.toHost, q.1.opens = false) → Stage w
  | closed :
      w.host.connection = none → w.guest.started = true →
        (∀ q ∈ w.toHost, q.1.opens = false) → Stage w

structure Agreement (w : Link) : Prop where
  bounded : Bounded w.host
  addressed : ∀ q ∈ w.toHost, q.1.guestTuple = w.host.tuple
  budget : w.host.maxTxBytes ≤ 2 ^ 31
  stage : Stage w

/-! ## Reply queues -/

/-- Going from replies `rs` at total `k` to `rs'` at `k'` keeps the announced credit rising. -/
def Advances (rs : List Reply) (k : Nat) (rs' : List Reply) (k' : Nat) : Prop :=
  ∀ (lo : Nat) (front : List UInt32), Rising lo (front ++ replyFwds rs) k →
    Rising lo (front ++ replyFwds rs') k'

namespace Advances

variable {rs rs' rs'' : List Reply} {k k' k'' : Nat}

lemma raise (hle : k ≤ k') : Advances rs k rs k' := fun _ _ h => h.raise hle

lemma trans (h₁ : Advances rs k rs' k') (h₂ : Advances rs' k' rs'' k'') : Advances rs k rs'' k'' :=
  fun lo front h => h₂ lo front (h₁ lo front h)

lemma push {r : Reply} (hr : r.header.fwdCnt = UInt32.ofNat k) : Advances rs k (rs ++ [r]) k := by
  intro lo front h
  rw [replyFwds, List.map_append, ← List.append_assoc]
  change Rising lo (front ++ replyFwds rs ++ [r.header.fwdCnt]) k
  rw [hr]
  exact h.push

lemma sublist (hsub : rs'.Sublist rs) : Advances rs k rs' k :=
  fun _ front h => h.sublist ((hsub.map _).append_left front)

end Advances

variable {s s' : StreamConnection} {k t r p : Nat} {data : List UInt8}
    {rest : List (VsockHeader × List UInt8)}

lemma announced_advances {fwdCnt : UInt32} (ha : Announced s fwdCnt s')
    (hk : fwdCnt = UInt32.ofNat k) :
    Advances s.replies k s'.replies k ∧ payloadBytes s'.replies = payloadBytes s.replies := by
  cases ha with
  | @coalesced front last hrep _ =>
    constructor
    · rw [hrep]
      -- The rewritten reply is dropped and sent again with the newest total.
      exact Advances.trans (Advances.sublist (List.sublist_append_left front [last]))
        (Advances.push hk)
    · rw [hrep]
      simp
  | queued => exact ⟨Advances.push hk, by simp [creditUpdateReply]⟩

lemma creditRequested_advances {c : Connection}
    (hr : CreditRequested s s') (hc : s.connection = some c) (hcount : Counts c r k t p) :
    Advances s.replies k s'.replies k ∧ payloadBytes s'.replies = payloadBytes s.replies ∧
      s'.upstream = s.upstream ∧ ∃ c', s'.connection = some c' ∧ Counts c' r k t p := by
  cases hr with
  | unchanged => exact ⟨Advances.raise (Nat.le_refl k), rfl, rfl, c, hc, hcount⟩
  | @queued c' hc' _ =>
    rw [hc, Option.some.injEq] at hc'
    subst hc'
    exact ⟨Advances.push hcount.consumed, by
      simp [creditRequestReply], rfl, _, rfl, { hcount with }⟩

/-- Taking over the peer's credit moves the acknowledged total up to the packet's at most. -/
lemma noted_advances {c : Connection} {h : VsockHeader} {m : Nat} (hn : Noted s h s')
    (hc : s.connection = some c)
    (hcount : Counts c r k t p) (hm : h.fwdCnt = UInt32.ofNat m) (hle : p ≤ m) :
    Advances s.replies k s'.replies k ∧ payloadBytes s'.replies = payloadBytes s.replies ∧
    s'.upstream = s.upstream ∧
        ∃ c' p', s'.connection = some c' ∧ Counts c' r k t p' ∧ p ≤ p' ∧ p' ≤ m := by
  cases hn with
  | stale => exact ⟨Advances.raise (Nat.le_refl k), rfl, rfl, c, p, hc, hcount, Nat.le_refl p, hle⟩
  | @taken c' hc' _ =>
    rw [hc, Option.some.injEq] at hc'
    subst hc'
    exact ⟨Advances.raise (Nat.le_refl k), rfl, rfl, _, m, rfl, { hcount with acked := hm }, hle,
      Nat.le_refl m⟩
  | @flushed _ c' hc' _ _ ha =>
    rw [hc, Option.some.injEq] at hc'
    subst hc'
    obtain ⟨hadv, hbytes⟩ := announced_advances ha hcount.consumed
    exact ⟨hadv, hbytes, ha.upstream, _, m, ha.connection, { hcount with acked := hm }, hle,
      Nat.le_refl m⟩

/-! ## Keeping the parties in step -/

variable {w w' : Link} {r k t p : Nat} {h : VsockHeader} {c : Connection} {host : StreamConnection}

lemma dataBytes_cons (q : VsockHeader × List UInt8) (rest : List (VsockHeader × List UInt8)) :
    dataBytes (q :: rest) = (if q.1.op = opRw then q.1.len.toNat else 0) + dataBytes rest := by
  simp [dataBytes]

lemma dataBytes_append (packets packets' : List (VsockHeader × List UInt8)) :
    dataBytes (packets ++ packets') = dataBytes packets + dataBytes packets' := by
  simp [dataBytes]

/-- A change on the host's side, with the packets it has taken from the channel. -/
lemma Synced.update (hs : Synced w r k t p) {toHost : List (VsockHeader × List UInt8)}
    {r' k' t' p' : Nat} (hshape : SameShape w.host host) (hqueued : r' = k' + host.upstream.length)
    (hreplies : Advances w.host.replies k host.replies k')
    (hbytes : payloadBytes host.replies + t ≤ payloadBytes w.host.replies + t')
    (hwindow : t' ≤ p' + w.host.maxTxBytes) (hsent : r' + dataBytes toHost = r + dataBytes w.toHost)
    (hacks : Rising p' (toHost.map fun q => q.1.fwdCnt) w.guest.consumed) :
    Synced { w with host := host, toHost := toHost } r' k' t' p' := by
  obtain ⟨seen, hseen, htx, hle, hrise⟩ := hs.credit
  refine ⟨hqueued, ?_, ⟨seen, hseen, ?_, ?_, ?_⟩, hacks, ?_, hs.guest⟩
  · rw [hshape.maxTxBytes]
    exact hwindow
  · dsimp only
    rw [hsent]
    exact htx
  · dsimp only
    rw [hsent, hshape.rxAlloc]
    exact hle
  · exact hreplies seen _ hrise
  · have hb := hs.bytes
    dsimp only
    omega

lemma Synced.updateHost (hs : Synced w r k t p) (hshape : SameShape w.host host)
    (hup : host.upstream = w.host.upstream) (hreplies : Advances w.host.replies k host.replies k)
    (hbytes : payloadBytes host.replies ≤ payloadBytes w.host.replies) :
    Synced { w with host := host } r k t p := by
  refine hs.update hshape ?_ hreplies (Nat.add_le_add_right hbytes t) hs.window rfl hs.acks
  rw [hup]
  exact hs.queued

lemma agreement_initial (g p rxAlloc : UInt32) {maxTx : Nat} (hmax : maxTx ≤ 2 ^ 31) :
    Agreement (initial g p rxAlloc maxTx) := by
  have hlt : maxTx < 2 ^ 32 := Nat.lt_of_le_of_lt hmax (by decide)
  refine ⟨bounded_new g p rxAlloc hlt, nofun, hmax, ?_⟩
  refine Stage.opening rfl ?_ (Or.inl ⟨rfl, rfl⟩)
  refine ⟨rfl, Nat.zero_le _, ⟨0, rfl, rfl, Nat.zero_le _, ?_⟩, ?_, Nat.le_refl 0, Nat.le_refl 0⟩
  · exact Rising.nil (Nat.le_refl 0)
  · exact Rising.nil (Nat.le_refl 0)

lemma Synced.consumed_le (hs : Synced w r k t p) : w.guest.consumed ≤ t := by
  have hb := hs.bytes
  have hg := hs.guest
  omega

/-! ## Host calls -/

/-- What a step of the host leaves to show once the ports, the budgets and the bounds are kept. -/
lemma Agreement.ofShape (ha : Agreement w) (hshape : SameShape w.host host) (hb : Bounded host)
    (hsub : rest ⊆ w.toHost) (hstage : Stage { w with host := host, toHost := rest }) :
    Agreement { w with host := host, toHost := rest } := by
  refine ⟨hb, ?_, ?_, hstage⟩
  · intro q hq
    rw [hshape.tuple]
    exact ha.addressed q (hsub hq)
  · rw [hshape.maxTxBytes]
    exact ha.budget

/-- A host call that leaves an unconnected stream alone, and keeps a connected one in step with the
guest or ends its connection. -/
lemma Agreement.hostCall (ha : Agreement w) (hshape : SameShape w.host host) (hb : Bounded host)
    (hidle : w.host.connection = none → host = w.host)
    (hconn : ∀ {c r k t p}, w.host.connection = some c → Counts c r k t p → Synced w r k t p →
      host.connection = none ∨ ∃ c' r' k' t' p', host.connection = some c' ∧
        Counts c' r' k' t' p' ∧ Synced { w with host := host } r' k' t' p') :
    Agreement { w with host := host } := by
  refine ha.ofShape hshape hb (List.Subset.refl _) ?_
  cases ha.stage with
  | opening hnone hs hwait =>
    rw [hidle hnone]
    exact Stage.opening hnone hs hwait
  | closed hnone hstart hops =>
    rw [hidle hnone]
    exact Stage.closed hnone hstart hops
  | connected hc hcount hs hstart hops =>
    rcases hconn hc hcount hs with hnone | ⟨c', r', k', t', p', hc', hcount', hs'⟩
    · exact Stage.closed hnone hstart hops
    · exact Stage.connected hc' hcount' hs' hstart hops

lemma requestCredit_idle (hnone : s.connection = none) : s.requestCredit.2 = s := by
  rw [StreamConnection.requestCredit, hnone]

lemma Agreement.requestCredit (ha : Agreement w) :
    Agreement { w with host := w.host.requestCredit.2 } := by
  have hreq := requestCredit_outcome (s := w.host)
  refine ha.hostCall hreq.shape (hreq.bounded ha.bounded) requestCredit_idle ?_
  intro c r k t p hc hcount hs
  obtain ⟨hadv, hbytes, hup, c', hc', hcount'⟩ := creditRequested_advances hreq hc hcount
  exact Or.inr
    ⟨c', r, k, t, p, hc', hcount', hs.updateHost hreq.shape hup hadv (Nat.le_of_eq hbytes)⟩

lemma Agreement.deliver (ha : Agreement w) (data : List UInt8) :
    Agreement { w with host := (w.host.deliver data).2 } := by
  have hshape := deliver_shape w.host data
  refine ha.hostCall hshape ha.bounded.deliver ?_ ?_
  · intro hnone
    rw [StreamConnection.deliver, hnone]
  · intro c r k t p hc hcount hs
    refine Or.inr ?_
    have hout := deliver_outcome w.host data
    generalize w.host.deliver data = res at hout hshape ⊢
    cases hout with
    | refused hreq =>
      obtain ⟨hadv, hbytes, hup, c', hc', hcount'⟩ := creditRequested_advances hreq hc hcount
      exact ⟨c', r, k, t, p, hc', hcount', hs.updateHost hshape hup hadv (Nat.le_of_eq hbytes)⟩
    | empty => exact ⟨c, r, k, t, p, hc, hcount, hs⟩
    | @queued c' hc' hopen hcap hlen _ =>
      rw [hc, Option.some.injEq] at hc'
      subst hc'
      -- The send window bounds what is unacknowledged, so the true distance does not wrap.
      have hwindow := hs.window
      have hbudget := ha.budget
      have hacked : p ≤ t := Nat.le_trans hs.acks.le hs.consumed_le
      have hdist : (unackedBytes c.txFwdCnt c.peerFwdCnt).toNat = t - p := by
        rw [unackedBytes, hcount.sent, hcount.acked]
        exact toNat_ofNat_sub hacked (by omega)
      have hfit := Nat.le_trans hcap (sendCapacity_le hc hopen)
      refine ⟨_, r, k, t + data.length, p, rfl, ?_, ?_⟩
      · exact { hcount with sent := by rw [UInt32.ofNat_add, ← hcount.sent] }
      · refine hs.update hshape hs.queued (Advances.push hcount.consumed) ?_ ?_ rfl hs.acks
        · simp only [payloadBytes_append, payloadBytes_cons, payloadBytes_nil, dataReply]
          omega
        · omega

lemma Agreement.shutdown (ha : Agreement w) : Agreement { w with host := w.host.shutdown.2 } := by
  have hshape := shutdown_shape w.host
  refine ha.hostCall hshape ha.bounded.shutdown ?_ ?_
  · intro hnone
    rw [StreamConnection.shutdown, hnone]
  · intro c r k t p hc hcount hs
    refine Or.inr ?_
    have hout := shutdown_outcome (s := w.host)
    generalize w.host.shutdown = res at hout hshape ⊢
    cases hout with
    | unchanged => exact ⟨c, r, k, t, p, hc, hcount, hs⟩
    | @queued c' hc' _ _ =>
      rw [hc, Option.some.injEq] at hc'
      subst hc'
      refine ⟨_, r, k, t, p, rfl, { hcount with }, ?_⟩
      exact hs.updateHost hshape rfl (Advances.push hcount.consumed) (by simp [shutdownReply])

lemma counts_consumedActive (hcount : Counts c r k t p)
    {count : Nat} (hlt : count < 2 ^ 32) : Counts (consumedActive c count) r (k + count) t p := by
  have hconsumed : Counts (consumed c count) r (k + count) t p := by
    refine { hcount with consumed := ?_ }
    rw [StreamConnection.consumed, UInt32.ofNat_add, ← hcount.consumed]
    rw [u32OrMax, if_pos hlt]
  rw [consumedActive]
  split
  · exact { hconsumed with }
  · exact hconsumed

lemma Agreement.consume (ha : Agreement w) (maxBytes : Nat) :
    Agreement { w with host := w.host.consumeUpstream maxBytes } := by
  cases hc₀ : w.host.connection with
  | none =>
    -- An unconnected stream has nothing to consume.
    have hsame : w.host.consumeUpstream maxBytes = w.host := by
      rw [StreamConnection.consumeUpstream, ha.bounded.idle hc₀]
      simp
    rw [hsame]
    exact ha
  | some c₀ =>
    have hshape := consumeUpstream_shape hc₀ maxBytes
    refine ha.hostCall hshape (ha.bounded.consumeUpstream hc₀ maxBytes) ?_ ?_
    · intro hnone
      rw [hc₀] at hnone
      cases hnone
    · intro c r k t p hc hcount hs
      have hout := consumeUpstream_outcome hc maxBytes
      generalize w.host.consumeUpstream maxBytes = host at hout hshape ⊢
      have hup := ha.bounded.upstreamBound
      have halloc := w.host.rxAlloc.toNat_lt
      have hqueued := hs.queued
      cases hout with
      | nothing => exact Or.inr ⟨c, r, k, t, p, hc, hcount, hs⟩
      | @deferred count hcount' _ =>
        refine Or.inr ⟨_, r, k + count, t, p, rfl, counts_consumedActive hcount (by omega), ?_⟩
        refine hs.update hshape ?_ (Advances.raise (Nat.le_add_right k count))
          (Nat.le_refl _) hs.window rfl hs.acks
        simp only [StreamConnection.drained, List.length_drop]
        omega
      | @announced _ count hcount' hann =>
        have hcounts : Counts (consumedActive c count) r (k + count) t p :=
          counts_consumedActive hcount (by omega)
        have hfwd : (consumed c count).rxFwdCnt = UInt32.ofNat (k + count) := by
          rw [← consumedActive_rxFwdCnt]
          exact hcounts.consumed
        obtain ⟨hadv, hbytes⟩ := announced_advances hann hfwd
        refine Or.inr ⟨_, r, k + count, t, p, hann.connection, { hcounts with }, ?_⟩
        refine hs.update hshape ?_ ((Advances.raise (Nat.le_add_right k count)).trans hadv) ?_
          hs.window rfl hs.acks
        · rw [hann.upstream]
          simp only [StreamConnection.drained, List.length_drop]
          omega
        · rw [hbytes]
          exact Nat.le_refl _
      | starved => exact Or.inl rfl

/-- Before the connection opens, the only replies are the host's own request and resets. -/
lemma Agreement.beforeOpening (ha : Agreement w) (hs : Synced w 0 0 0 0) (hwait : Awaiting w)
    (hshape : SameShape w.host host) (hb : Bounded host) (hnone : host.connection = none)
    (hreplies : Advances w.host.replies 0 host.replies 0)
    (hbytes : payloadBytes host.replies = payloadBytes w.host.replies) :
    Agreement { w with host := host } := by
  refine ha.ofShape hshape hb (List.Subset.refl _) (Stage.opening hnone ?_ hwait)
  refine hs.updateHost hshape ?_ hreplies (Nat.le_of_eq hbytes)
  rw [hb.idle hnone]
  exact (List.eq_nil_of_length_eq_zero (by have := hs.queued; omega)).symm

lemma tryRst_advances (s : StreamConnection) (g p : UInt32) :
    Advances s.replies 0 (s.tryRst g p).replies 0 ∧
      payloadBytes (s.tryRst g p).replies = payloadBytes s.replies := by
  rw [tryRst_replies]
  split
  · exact ⟨Advances.push rfl, by simp [rstReply]⟩
  · exact ⟨Advances.raise (Nat.le_refl 0), rfl⟩

lemma Agreement.reset (ha : Agreement w) : Agreement
      { w with host := (w.host.tryRst w.host.guestPort w.host.hostPort).dropConnection } := by
  have hshape : SameShape w.host (w.host.tryRst w.host.guestPort w.host.hostPort).dropConnection :=
    (SameShape.tryRst _ _).trans ⟨rfl, rfl, rfl⟩
  have hb : Bounded (w.host.tryRst w.host.guestPort w.host.hostPort).dropConnection :=
    (ha.bounded.tryRst rfl).drop
  cases ha.stage with
  | opening hnone hs hwait =>
    obtain ⟨hadv, hbytes⟩ := tryRst_advances w.host w.host.guestPort w.host.hostPort
    exact ha.beforeOpening hs hwait hshape hb rfl hadv hbytes
  | connected hc _ _ hstart hops | closed hnone hstart hops =>
    exact ha.ofShape hshape hb (List.Subset.refl _) (Stage.closed rfl hstart hops)

lemma Agreement.request (ha : Agreement w)
    (hreq : w.host.request = some host) : Agreement { w with host := host } := by
  rw [request_eq] at hreq
  split at hreq
  next hidle =>
    simp only [Option.some.injEq] at hreq
    subst hreq
    have hnone := (isLive_eq_false_iff.1 hidle.1).1
    have hb := ha.bounded.request hnone hidle.2
    cases ha.stage with
    | opening _ hs hwait =>
      exact ha.beforeOpening hs hwait ⟨rfl, rfl, rfl⟩ hb hnone (Advances.push rfl)
        (by simp [requestReply])
    | connected hc =>
      rw [hnone] at hc
      cases hc
    | closed _ hstart hops =>
        exact { ha with bounded := hb, stage := Stage.closed hnone hstart hops }
  · cases hreq

lemma Agreement.takeReply (ha : Agreement w) {maxBytes : Nat} {reply : Reply}
    (htake : w.host.takeReply maxBytes = some (reply, host)) :
    Agreement { w with host := host, toGuest := w.toGuest ++ [reply] } := by
  obtain ⟨rest, hrep, -, hhost⟩ := takeReply_eq_some.1 htake
  have hb : Bounded host := by
    have hdrain := ha.bounded.drain [reply] rest hrep
    simpa [hhost] using hdrain
  have hs' : ∀ {r k t p}, Synced w r k t p →
      Synced { w with host := host, toGuest := w.toGuest ++ [reply] } r k t p := by
    intro r k t p hs
    subst hhost
    obtain ⟨seen, hseen, htx, hle, hrise⟩ := hs.credit
    refine { hs with credit := ⟨seen, hseen, htx, hle, ?_⟩, bytes := ?_ }
    · rw [hrep] at hrise
      simpa [replyFwds] using hrise
    · have hbytes := hs.bytes
      rw [hrep] at hbytes
      simp only [payloadBytes_append, payloadBytes_cons, payloadBytes_nil] at hbytes ⊢
      omega
  subst hhost
  refine { ha with bounded := hb, stage := ?_ }
  cases ha.stage with
  | opening hnone hs hwait => exact Stage.opening hnone (hs' hs) hwait
  | connected hc hcount hs hstart hops => exact Stage.connected hc hcount (hs' hs) hstart hops
  | closed hnone hstart hops => exact Stage.closed hnone hstart hops

/-! ## The guest -/

lemma Agreement.guestMove (ha : Agreement w) {toGuest : List Reply} {guest : Guest}
    (hstart : guest.started = w.guest.started)
    (hs' : ∀ {r k t p}, Synced w r k t p →
      Synced { w with toGuest := toGuest, guest := guest } r k t p) :
    Agreement { w with toGuest := toGuest, guest := guest } := by
  refine { ha with stage := ?_ }
  cases ha.stage with
  | opening hnone hs hwait =>
    refine Stage.opening hnone (hs' hs) ?_
    simpa [Awaiting, hstart] using hwait
  | connected hc hcount hs hst hops =>
    exact Stage.connected hc hcount (hs' hs) (hstart.trans hst) hops
  | closed hnone hst hops => exact Stage.closed hnone (hstart.trans hst) hops

lemma Agreement.guestReceive (ha : Agreement w) {reply : Reply} {rest : List Reply}
    (hwire : w.toGuest = reply :: rest) :
    Agreement
      { w with
        toGuest := rest
        guest :=
          { w.guest with
            seenFwd := newerFwd w.guest.seenFwd reply.header.fwdCnt
            received := w.guest.received + reply.payload.length } } := by
  refine ha.guestMove rfl ?_
  intro r k t p hs
  obtain ⟨seen, hseen, htx, hle, hrise⟩ := hs.credit
  rw [hwire] at hrise
  obtain ⟨m, hlow, -, hm, hrest⟩ := Rising.uncons hrise
  refine { hs with credit := ?_, bytes := ?_, guest := ?_ }
  · -- Whether or not the guest takes the value over, what it believes is a total it was told.
    have hle' : r + dataBytes w.toHost ≤ m + w.host.rxAlloc.toNat := by omega
    rw [newerFwd]
    split
    · exact ⟨m, hm, htx, hle', hrest⟩
    · exact ⟨seen, hseen, htx, hle, hrest.lower hlow⟩
  · have hbytes := hs.bytes
    rw [hwire, payloadBytes_cons] at hbytes
    dsimp only
    omega
  · have hguest := hs.guest
    dsimp only
    omega

lemma Agreement.guestConsume (ha : Agreement w) {count : Nat}
    (hle : w.guest.consumed + count ≤ w.guest.received) :
    Agreement { w with guest := { w.guest with consumed := w.guest.consumed + count } } := by
  refine ha.guestMove rfl ?_
  intro r k t p hs
  exact { hs with acks := hs.acks.raise (Nat.le_add_right _ _), guest := hle }

lemma of_maySend (hsend : w.maySend h) : h.guestTuple = w.host.tuple ∧
    h.fwdCnt = UInt32.ofNat w.guest.consumed ∧ h.opens = !w.guest.started ∧ (h.op = opRw →
      (w.guest.txCnt - w.guest.seenFwd).toNat + h.len.toNat ≤ w.host.rxAlloc.toNat) := by
  simp only [maySend, Bool.and_eq_true, decide_eq_true_eq, Bool.or_eq_true, bne_iff_ne,
    and_assoc] at hsend
  obtain ⟨htuple, hfwd, hopens, hwin⟩ := hsend
  exact ⟨htuple, hfwd, hopens, fun hop => hwin.resolve_left fun hne => hne hop⟩

abbrev sent (w : Link) (h : VsockHeader) (data : List UInt8) : Link :=
  { w with
    toHost := w.toHost ++ [(h, data)]
    guest :=
      { w.guest with
        started := true
        txCnt := if h.op = opRw then w.guest.txCnt + h.len else w.guest.txCnt } }

lemma Synced.guestSend (hs : Synced w r k t p) (data : List UInt8) (hsend : w.maySend h) :
    Synced (w.sent h data) r k t p := by
  obtain ⟨-, hfwd, -, hwin⟩ := of_maySend hsend
  obtain ⟨seen, hseen, htx, hle, hrise⟩ := hs.credit
  have hrk := hs.queued
  have hk := hrise.le
  have halloc := w.host.rxAlloc.toNat_lt
  have hdist : (w.guest.txCnt - w.guest.seenFwd).toNat = r + dataBytes w.toHost - seen := by
    rw [htx, hseen]
    exact toNat_ofNat_sub (by omega) (by omega)
  refine { hs with credit := ⟨seen, hseen, ?_, ?_, hrise⟩, acks := ?_ }
  · simp only [dataBytes_append, dataBytes_cons]
    split
    · rw [htx, ofNat_toNat_add]
      simp [dataBytes, Nat.add_assoc]
    · simpa [dataBytes] using htx
  · simp only [dataBytes_append, dataBytes_cons]
    split
    next hop =>
      have hfit := hwin hop
      rw [hdist] at hfit
      simp only [dataBytes, List.map_nil, List.sum_nil] at hfit hle ⊢
      omega
    · simpa [dataBytes] using hle
  · dsimp only
    rw [List.map_append, List.map_singleton, hfwd]
    exact hs.acks.push

lemma Agreement.guestSend (ha : Agreement w) (data : List UInt8) (hsend : w.maySend h) :
    Agreement (w.sent h data) := by
  obtain ⟨htuple, -, hopens, -⟩ := of_maySend hsend
  have hlater : w.guest.started = true → (∀ q ∈ w.toHost, q.1.opens = false) →
      ∀ q ∈ w.toHost ++ [(h, data)], q.1.opens = false := by
    intro hstart hops
    rw [hstart] at hopens
    exact List.forall_mem_append.2 ⟨hops, List.forall_mem_singleton.2 hopens⟩
  refine { ha with addressed := ?_, stage := ?_ }
  · exact List.forall_mem_append.2 ⟨ha.addressed, List.forall_mem_singleton.2 htuple⟩
  · cases ha.stage with
    | opening hnone hs hwait =>
      refine Stage.opening hnone (hs.guestSend data hsend) (Or.inr ?_)
      rcases hwait with ⟨hstart, hempty⟩ | ⟨q, rest, hstart, hwire, hq, hrest⟩
      · refine ⟨(h, data), [], rfl, ?_, ?_, nofun⟩
        · rw [sent, hempty]
          rfl
        · rw [hopens, hstart]
          rfl
      · refine ⟨q, rest ++ [(h, data)], rfl, ?_, hq, ?_⟩
        · rw [sent, hwire]
          rfl
        · rw [hstart] at hopens
          exact List.forall_mem_append.2 ⟨hrest, List.forall_mem_singleton.2 hopens⟩
    | connected hc hcount hs hstart hops =>
      exact Stage.connected hc hcount (hs.guestSend data hsend) rfl (hlater hstart hops)
    | closed hnone hstart hops => exact Stage.closed hnone rfl (hlater hstart hops)

/-! ## The host receives -/

/-- An acknowledgement of bytes that were sent is never taken for a forged one. -/
lemma ackAhead_ofNat_eq_false {m : Nat} (hle : m ≤ t) (hdist : t ≤ m + 2 ^ 31) :
    ackAhead (UInt32.ofNat m) (UInt32.ofNat t) = false := by
  by_cases heq : m = t
  · simp [ackAhead, heq]
  · have hfar : ¬ UInt32.ofNat m - UInt32.ofNat t < 0x80000000 := by
      rw [UInt32.lt_iff_toNat_lt, UInt32.toNat_sub]
      simp only [UInt32.toNat_ofNat', UInt32.reduceToNat]
      omega
    simp [ackAhead, hfar]

lemma Synced.not_forged (hs : Synced w r k t p) (hbudget : w.host.maxTxBytes ≤ 2 ^ 31)
    (hcount : Counts c r k t p)
    (hwire : w.toHost = (h, data) :: rest) : ackAhead h.fwdCnt c.txFwdCnt = false := by
  have hacks := hs.acks
  rw [hwire, List.map_cons] at hacks
  obtain ⟨m, hlow, hhigh, hm, -⟩ := Rising.uncons hacks
  have hsent := hs.consumed_le
  have hwindow := hs.window
  rw [hcount.sent, hm]
  exact ackAhead_ofNat_eq_false (by omega) (by omega)

lemma Synced.fits (hs : Synced w r k t p) {p' : Nat} (hcount : Counts c r k t p')
    (hshape : SameShape w.host s) (hup : s.upstream = w.host.upstream)
    (hwire : w.toHost = (h, data) :: rest) (hop : h.op = opRw) (hwell : malformed h data = false) :
    s.overflowsWindow c h data = false := by
  obtain ⟨seen, -, -, hle, hrise⟩ := hs.credit
  have hrk := hs.queued
  have hk := hrise.le
  have halloc := w.host.rxAlloc.toNat_lt
  have hlen := length_eq_of_wellFormed hwell
  rw [hwire, dataBytes_cons, if_pos hop] at hle
  dsimp only at hle
  have hqueued : (queuedBytes c).toNat = w.host.upstream.length := by
    rw [queuedBytes, hcount.received, hcount.consumed, toNat_ofNat_sub (by omega) (by omega)]
    omega
  simp only [overflowsWindow, hqueued, hup, hshape.rxAlloc, hlen, Bool.or_self,
    decide_eq_false_iff_not, not_lt]
  omega

lemma opens_eq_false_iff : h.opens = false ↔ h.op ≠ opRequest ∧ h.op ≠ opResponse := by
  simp [VsockHeader.opens]

lemma dataBytes_rest (hwire : w.toHost = (h, data) :: rest)
    (hop : h.op ≠ opRw) (n : Nat) : n + dataBytes rest = n + dataBytes w.toHost := by
  rw [hwire, dataBytes_cons, if_neg hop, Nat.zero_add]

section HostReceive

variable {h : VsockHeader} {data : List UInt8} {rest : List (VsockHeader × List UInt8)}

/-- The opening packet opens the connection with all totals at zero, or it never opens. -/
lemma Stage.hostReceive_opening (hwire : w.toHost = (h, data) :: rest)
    (hnone : w.host.connection = none) (hs : Synced w 0 0 0 0) (hwait : Awaiting w) :
    Stage { w with host := w.host.rx h data, toHost := rest } := by
  obtain ⟨hstart, hrest⟩ : w.guest.started = true ∧ ∀ q ∈ rest, q.1.opens = false := by
    rcases hwait with ⟨-, hempty⟩ | ⟨q, rest', hstart, hwire', -, hrest⟩
    · rw [hempty] at hwire
      cases hwire
    · rw [hwire'] at hwire
      cases hwire
      exact ⟨hstart, hrest⟩
  have hacks : Rising 0 (rest.map fun q => q.1.fwdCnt) w.guest.consumed := by
    have hacks := hs.acks
    rw [hwire, List.map_cons] at hacks
    obtain ⟨m, hlow, -, -, hrise⟩ := Rising.uncons hacks
    exact hrise.lower hlow
  have hshape := rx_shape w.host h data
  have hout := rx_outcome w.host h data
  generalize w.host.rx h data = host at hout hshape ⊢
  cases hout with
  | ignored => exact Stage.closed hnone hstart hrest
  | refused => exact Stage.closed (by rw [tryRst_connection]; exact hnone) hstart hrest
  | opened _ hop =>
    have hrw : h.op ≠ opRw := by
      rw [hop]
      decide
    refine Stage.connected rfl ⟨rfl, rfl, rfl, rfl⟩ ?_ hstart hrest
    exact hs.update hshape hs.queued (Advances.push rfl)
      (by simp) hs.window (dataBytes_rest hwire hrw 0) hacks
  | established _ hop =>
    have hrw : h.op ≠ opRw := by
      rw [hop]
      decide
    refine Stage.connected rfl ⟨rfl, rfl, rfl, rfl⟩ ?_ hstart hrest
    exact hs.update hshape hs.queued (Advances.raise (Nat.le_refl 0)) (Nat.le_refl _) hs.window
      (dataBytes_rest hwire hrw 0) hacks
  | closed | rejected => exact Stage.closed rfl hstart hrest
  | forged hc | starved hc | overflowed hc | received hc | halfClosed hc | answered hc
  | credited hc => exact nomatch hnone.symm.trans hc

/-- Once the connection is over nothing the guest has in flight opens another one. -/
lemma rx_stays_closed (hnone : w.host.connection = none) (hops : h.opens = false) :
    (w.host.rx h data).connection = none := by
  obtain ⟨hreq, hresp⟩ := opens_eq_false_iff.1 hops
  have hout := rx_outcome w.host h data
  generalize w.host.rx h data = host at hout ⊢
  cases hout with
  | ignored => exact hnone
  | refused =>
    rw [tryRst_connection]
    exact hnone
  | opened _ hop => exact absurd hop hreq
  | established _ hop => exact absurd hop hresp
  | closed | rejected => rfl
  | forged hc | starved hc | overflowed hc | received hc | halfClosed hc | answered hc
  | credited hc => exact nomatch hnone.symm.trans hc

lemma onShutdown_advances {s : StreamConnection} {c : Connection} (flags : UInt32)
    (hc : s.connection = some c) (hcount : Counts c r k t p) :
    Advances s.replies k (s.onShutdown flags).replies k ∧
      payloadBytes (s.onShutdown flags).replies ≤ payloadBytes s.replies ∧
        (s.onShutdown flags).upstream = s.upstream ∧
          ∃ c', (s.onShutdown flags).connection = some c' ∧ Counts c' r k t p := by
  have hcount' : Counts (closedBy c flags) r k t p := { hcount with }
  rw [StreamConnection.onShutdown, hc]
  dsimp only
  split
  · refine ⟨Advances.sublist List.filter_sublist, ?_, rfl, _, rfl, hcount'⟩
    exact payloadBytes_le_of_sublist List.filter_sublist
  · exact ⟨Advances.raise (Nat.le_refl k), Nat.le_refl _, rfl, _, rfl, hcount'⟩

/-- A packet of the open connection keeps both parties in step or ends the connection, but never
for its window or its acknowledgement. -/
lemma Stage.hostReceive_connected (ha : Agreement w) (hwire : w.toHost = (h, data) :: rest)
    {c : Connection}
    (hc : w.host.connection = some c) (hcount : Counts c r k t p) (hs : Synced w r k t p)
    (hstart : w.guest.started = true) (hops : ∀ q ∈ w.toHost, q.1.opens = false) :
    Stage { w with host := w.host.rx h data, toHost := rest } := by
  have hrest : ∀ q ∈ rest, q.1.opens = false := fun q hq =>
    hops q (by rw [hwire]; exact List.mem_cons_of_mem _ hq)
  have hacks := hs.acks
  rw [hwire, List.map_cons] at hacks
  obtain ⟨m, hlow, -, hm, hrise⟩ := Rising.uncons hacks
  have hlive : w.host.isLive = true := isLive_of_connection hc
  have hshape := rx_shape w.host h data
  have hout := rx_outcome w.host h data
  generalize w.host.rx h data = host at hout hshape ⊢
  have hwindow := hs.window
  -- A packet without data only moves what is acknowledged.
  have hquiet : ∀ {c₂ : Connection} {p' : Nat}, h.op ≠ opRw → host.connection = some c₂ →
      Counts c₂ r k t p' →
      host.upstream = w.host.upstream → Advances w.host.replies k host.replies k →
      payloadBytes host.replies ≤ payloadBytes w.host.replies → p ≤ p' → p' ≤ m →
      Stage { w with host := host, toHost := rest } := by
    intro c₂ p' hop hc₂ hcount₂ hup hadv hbytes hpp hpm
    refine Stage.connected hc₂ hcount₂ ?_ hstart hrest
    refine hs.update hshape ?_ hadv (Nat.add_le_add_right hbytes t) ?_ (dataBytes_rest hwire hop r)
      (hrise.lower hpm)
    · rw [hup]
      exact hs.queued
    · omega
  cases hout with
  | ignored hidle | refused hidle | opened hidle =>
    rw [hlive] at hidle
    cases hidle
  | established hcing =>
    rw [ha.bounded.notConnecting hc] at hcing
    cases hcing
  | closed | rejected | forged | starved | overflowed => exact Stage.closed rfl hstart hrest
  | @received s₁ c' c₁ hc' hop hwell _ hn hc₁ _ =>
    obtain ⟨hadv, hbytes, hup, c₂, p', hc₂, hcount', hpp, hpm⟩ :=
      noted_advances hn hc hcount hm hlow
    rw [hc₁, Option.some.injEq] at hc₂
    subst hc₂
    refine Stage.connected (r := r + h.len.toNat) (k := k) (t := t) (p := p') rfl ?_ ?_ hstart hrest
    · exact { hcount' with received := by rw [← ofNat_toNat_add, ← hcount'.received] }
    · refine hs.update hshape ?_ hadv ?_ ?_ ?_ (hrise.lower hpm)
      · rw [List.length_append, hup, length_eq_of_wellFormed hwell, hs.queued, Nat.add_assoc]
      · rw [hbytes]
      · omega
      · rw [hwire, dataBytes_cons, if_pos hop, Nat.add_assoc]
  | @halfClosed s₁ c' hc' hop _ hn =>
    obtain ⟨hadv, hbytes, hup, c₁, p', hc₁, hcount', hpp, hpm⟩ :=
      noted_advances hn hc hcount hm hlow
    obtain ⟨hadv', hbytes', hup', c₂, hc₂, hcount₂⟩ := onShutdown_advances h.flags hc₁ hcount'
    exact hquiet (by rw [hop]; decide) hc₂ hcount₂ (hup'.trans hup) (hadv.trans hadv')
      (hbytes ▸ hbytes') hpp hpm
  | @answered s₁ s₂ c' c₁ hc' hop _ hn hc₁ hann =>
    obtain ⟨hadv, hbytes, hup, c₂, p', hc₂, hcount', hpp, hpm⟩ :=
      noted_advances hn hc hcount hm hlow
    rw [hc₁, Option.some.injEq] at hc₂
    subst hc₂
    obtain ⟨hadv', hbytes'⟩ := announced_advances hann hcount'.consumed
    exact hquiet (by rw [hop]; decide) hann.connection { hcount' with } (hann.upstream.trans hup)
      (hadv.trans hadv') (Nat.le_of_eq (hbytes'.trans hbytes)) hpp hpm
  | @credited s₁ c' hc' hop _ hn =>
    obtain ⟨hadv, hbytes, hup, c₁, p', hc₁, hcount', hpp, hpm⟩ :=
      noted_advances hn hc hcount hm hlow
    exact hquiet (by rw [hop]; decide) hc₁ hcount' hup hadv (Nat.le_of_eq hbytes) hpp hpm

lemma Agreement.hostReceive (ha : Agreement w) (hwire : w.toHost = (h, data) :: rest) :
    Agreement { w with host := w.host.rx h data, toHost := rest } := by
  have htuple : h.guestTuple = w.host.tuple :=
    ha.addressed (h, data) (by rw [hwire]; exact List.mem_cons_self)
  have hsub : rest ⊆ w.toHost := hwire ▸ List.subset_cons_self _ _
  refine ha.ofShape (rx_shape w.host h data) (ha.bounded.rx htuple) hsub ?_
  cases ha.stage with
  | opening hnone hs hwait => exact Stage.hostReceive_opening hwire hnone hs hwait
  | connected hc hcount hs hstart hops =>
      exact Stage.hostReceive_connected ha hwire hc hcount hs hstart hops
  | closed hnone hstart hops =>
    have hop : h.opens = false := hops (h, data) (hwire ▸ List.mem_cons_self)
    exact Stage.closed (rx_stays_closed hnone hop) hstart fun q hq => hops q (hsub hq)

end HostReceive

/-! ## Runs -/

lemma Agreement.step {action : Action} {u : Unit} (ha : Agreement w)
    (hstep : w.step action = some (u, w')) : Agreement w' := by
  obtain ⟨w₁, hnext, heq⟩ := Option.map_eq_some_iff.1 hstep
  cases heq
  cases action with
  | request =>
    obtain ⟨host, hreq, rfl⟩ := Option.map_eq_some_iff.1 hnext
    exact ha.request hreq
  | deliver data =>
    cases hnext
    exact ha.deliver data
  | shutdown =>
    cases hnext
    exact ha.shutdown
  | requestCredit =>
    cases hnext
    exact ha.requestCredit
  | consume maxBytes =>
    cases hnext
    exact ha.consume maxBytes
  | reset =>
    rw [next] at hnext
    split at hnext
    · cases hnext
      exact ha.reset
    · cases hnext
  | takeReply maxBytes =>
    obtain ⟨⟨reply, host⟩, htake, rfl⟩ := Option.map_eq_some_iff.1 hnext
    exact ha.takeReply htake
  | hostReceive =>
    rw [next] at hnext
    split at hnext
    · cases hnext
    next h data rest hwire =>
      cases hnext
      exact ha.hostReceive hwire
  | guestSend h data =>
    rw [next] at hnext
    split at hnext
    next hsend =>
      cases hnext
      exact ha.guestSend data hsend
    · cases hnext
  | guestReceive =>
    rw [next] at hnext
    split at hnext
    · cases hnext
    next reply rest hwire =>
      cases hnext
      exact ha.guestReceive hwire
  | guestConsume count =>
    rw [next] at hnext
    split at hnext
    next hle =>
      cases hnext
      exact ha.guestConsume hle
    · cases hnext

/-- In every run against a conforming guest, the packet the host looks at next is neither taken for
a forged acknowledgement nor found to overflow the receive window. -/
theorem conforming_guest_not_reset (g p rxAlloc : UInt32) {maxTx : Nat} (hmax : maxTx ≤ 2 ^ 31)
    {es : List (Run.Event Link Action Unit)}
    (hrun : Run.Trace step (initial g p rxAlloc maxTx) es w)
    {h : VsockHeader} {data : List UInt8} {rest : List (VsockHeader × List UInt8)}
    (hwire : w.toHost = (h, data) :: rest) :
    (∀ c, w.host.connection = some c → ackAhead h.fwdCnt c.txFwdCnt = false) ∧
      (h.op = opRw → malformed h data = false →
        ∀ s c, w.host.notePeerCredit h = (s, true) → s.connection = some c →
          s.overflowsWindow c h data = false) := by
  have ha : Agreement w :=
    hrun.invariant (fun ha hstep => ha.step hstep) (agreement_initial g p rxAlloc hmax)
  have hsynced : ∀ {c : Connection}, w.host.connection = some c → ∃ r k t p, Counts c r k t p ∧
      Synced w r k t p := by
    intro c hc
    cases ha.stage with
    | opening hnone | closed hnone =>
      rw [hnone] at hc
      cases hc
    | connected hc' hcount hs =>
      rw [hc, Option.some.injEq] at hc'
      subst hc'
      exact ⟨_, _, _, _, hcount, hs⟩
  constructor
  · intro c hc
    obtain ⟨r, k, t, p', hcount, hs⟩ := hsynced hc
    exact hs.not_forged ha.budget hcount hwire
  · intro hop hwell s c hnote hc
    cases hc₀ : w.host.connection with
    | none =>
      rw [StreamConnection.notePeerCredit, hc₀] at hnote
      cases hnote
    | some c₀ =>
      obtain ⟨r, k, t, p', hcount, hs⟩ := hsynced hc₀
      have hout := notePeerCredit_outcome (h := h) hc₀
      rw [hnote] at hout
      cases hout with
      | noted _ hn =>
        -- The credit of the packet itself is taken over before its data is looked at.
        have hacks := hs.acks
        rw [hwire, List.map_cons] at hacks
        obtain ⟨m, hlow, -, hm, -⟩ := Rising.uncons hacks
        obtain ⟨-, -, hup, c₁, p₁, hc₁, hcount₁, -, -⟩ := noted_advances hn hc₀ hcount hm hlow
        rw [hc, Option.some.injEq] at hc₁
        subst hc₁
        exact hs.fits hcount₁ hn.shape hup hwire hop hwell

theorem conforming_guest_not_reset_data :
    ∃ es w h, Run.Trace step (initial 49152 tcpPort 4 8) es w ∧ w.toHost = [(h, [7, 8])] ∧
      w.host.connection.isSome ∧
        (∀ c, w.host.connection = some c → ackAhead h.fwdCnt c.txFwdCnt = false) ∧
          (h.op = opRw → malformed h [7, 8] = false →
            ∀ s c, w.host.notePeerCredit h = (s, true) → s.connection = some c →
              s.overflowsWindow c h [7, 8] = false) := by
  obtain ⟨es, hrun⟩ : ∃ es, Run.Trace step (initial 49152 tcpPort 4 8) es _ := Run.exec_reaches
      [.guestSend (guestHeader ⟨49152, tcpPort⟩ opRequest 0 0 64 0) [], .hostReceive,
        .guestSend (guestHeader ⟨49152, tcpPort⟩ opRw 2 0 64 0) [7, 8]] rfl
  exact ⟨es, _, guestHeader ⟨49152, tcpPort⟩ opRw 2 0 64 0, hrun, rfl, rfl,
    conforming_guest_not_reset 49152 tcpPort 4 (by decide) hrun rfl⟩

end Link

end Terrarium.Vsock
