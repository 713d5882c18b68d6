import Terrarium.Vsock.SwitchView

/-!
# EndpointSteps — what one public call can do

`CallEffect` lists everything one public call can do to a switch, together with what the call
returned; `step_effect` proves the list complete.  `EndpointStep` is the same list seen from the
endpoint of one tuple.  Safety arguments about whole runs only ever split on these two.
-/

namespace Terrarium.Vsock

open KeyedList

namespace VsockSwitch

/-! ## The list of changes -/

/-- The call is not directed at the endpoint `v` of `t`, or the endpoint refuses it. -/
def Untouched (s : VsockSwitch) (op : Op) (out : Outcome) (t : Tuple) (v : Option Endpoint) :
    Prop :=
  match op with
  | .rx h _ =>
      h.guestTuple = t →
        v = none ∨ ∃ e, v = some e ∧ (e.retiring.isSome ∨ s.classify h.srcPort h.dstPort = none)
  | .deliver c _ => c.tuple = t → ∃ err, out = .result (.error err)
  | .consumeUpstream c _ | .shutdown c | .requestCredit c =>
      c.tuple = t → ∀ e, v = some e → e.connected ≠ some c
  | .resetConnection c =>
      c.tuple = t → ∀ e, v = some e → ¬ (e.connectionNumber = c.number ∧ e.isLive = true)
  | .connectPublication p =>
      t = ⟨publicationPort, p⟩ → ∃ err, out = .published (.error err)
  | .takeReply _ | .takeRepliesUpTo _ _ =>
      v = none ∧ ∀ r ∈ out.taken, r.header.replyTuple = t → r.header.op = opRst
  | .resetConnections => v = none
  | .retireConnection c =>
      c.tuple = t → ∀ e, v = some e →
        ¬ (e.role = c.role ∧ e.retiring = some c.number ∧ e.stream.replies = [])
  | .disableNetwork => v = none ∨ t = agentTuple ∨ ∃ e, v = some e ∧ e.isLive = false

/-- What a call does to the one endpoint it is directed at; the last argument is the next free
connection number afterwards. -/
inductive Change (s : VsockSwitch) (op : Op) (out : Outcome) (t : Tuple) :
    Endpoint → Endpoint → Nat → Prop where
  | received {role : Role} {e : Endpoint} {h : VsockHeader} {bytes : List UInt8} :
      op = .rx h bytes → h.guestTuple = t → s.classify h.srcPort h.dstPort = some role →
        e.retiring = none →
          Change s op out t e (e.receive h bytes s.nextConnectionNumber)
            (if e.isLive && !(e.stream.rx h bytes).isLive then s.nextConnectionNumber + 1
              else s.nextConnectionNumber)
  | delivered {e : Endpoint} {c : ConnectionId} {bytes : List UInt8} :
      op = .deliver c bytes → e.connected = some c → out = .result (e.stream.deliver bytes).1 →
        Change s op out t e (e.withStream (e.stream.deliver bytes).2) s.nextConnectionNumber
  | shutdown {e : Endpoint} {c : ConnectionId} :
      op = .shutdown c → e.connected = some c → out = .result e.stream.shutdown.1 →
        Change s op out t e (e.withStream e.stream.shutdown.2) s.nextConnectionNumber
  | creditRequested {e : Endpoint} {c : ConnectionId} :
      op = .requestCredit c → e.connected = some c →
        Change s op out t e (e.withStream e.stream.requestCredit.2) s.nextConnectionNumber
  | consumed {e : Endpoint} {c : ConnectionId} {maxBytes : Nat} :
      op = .consumeUpstream c maxBytes → e.connected = some c →
        Change s op out t e (e.consume maxBytes s.nextConnectionNumber)
          (if (e.stream.consumeUpstream maxBytes).connection.isNone then
            s.nextConnectionNumber + 1 else s.nextConnectionNumber)
  | reset {e : Endpoint} {c : ConnectionId} :
      op = .resetConnection c → c.tuple = t → e.connectionNumber = c.number → e.isLive = true →
        Change s op out t e (e.reset s.nextConnectionNumber) (s.nextConnectionNumber + 1)

/-- Everything one public call can do to a switch. -/
inductive CallEffect (s : VsockSwitch) (op : Op) (out : Outcome) : VsockSwitch → Prop where
  | refused : (∀ t, Untouched s op out t (s.view t)) → CallEffect s op out s
  | rejected {h : VsockHeader} {bytes : List UInt8} :
      op = .rx h bytes → (∀ t, Untouched s op out t (s.view t)) →
        CallEffect s op out (s.reject h)
  | changed {t : Tuple} {i n : Nat} {e e' : Endpoint} :
      s.endpointIndex t = some (i, e) → Change s op out t e e' n →
        CallEffect s op out
          { s with endpoints := s.endpoints.set i e', nextConnectionNumber := n }
  | admitted {role : Role} {h : VsockHeader} {bytes : List UInt8} :
      op = .rx h bytes → s.view h.guestTuple = none →
        s.classify h.srcPort h.dstPort = some role → opensFlow role h bytes →
          s.networkSocketCount < s.networkSocketCapacity →
            CallEffect s op out
              { s.purgeRejected h.guestTuple with
                endpoints := s.endpoints ++ [Endpoint.admitted role h s.nextConnectionNumber]
                nextConnectionNumber := s.nextConnectionNumber + 1 }
  | published {p : UInt32} :
      op = .connectPublication p → s.view ⟨publicationPort, p⟩ = none →
        s.networkEnabled = true → publicationHostPorts p = true →
          s.networkSocketCount < s.networkSocketCapacity →
            out = .published (.ok ⟨.publication, publicationPort, p, s.nextConnectionNumber⟩) →
              CallEffect s op out
                { s with
                  endpoints := s.endpoints ++ [Endpoint.published p s.nextConnectionNumber]
                  nextConnectionNumber := s.nextConnectionNumber + 1 }
  | released {i : Nat} {e : Endpoint} {c : ConnectionId} :
      op = .retireConnection c → s.endpointIndex c.tuple = some (i, e) → i < fixedEndpoints →
        e.role = c.role → e.retiring = some c.number → e.stream.replies = [] →
          CallEffect s op out
            { s.purgeRejected c.tuple with
              endpoints := s.endpoints.set i (e.release s.nextConnectionNumber)
              nextConnectionNumber := s.nextConnectionNumber + 1 }
  | removed {i : Nat} {e : Endpoint} {c : ConnectionId} :
      op = .retireConnection c → s.endpointIndex c.tuple = some (i, e) → fixedEndpoints ≤ i →
        e.role = c.role → e.retiring = some c.number → e.stream.replies = [] →
          CallEffect s op out
            { s.purgeRejected c.tuple with endpoints := s.endpoints.eraseIdx i }
  | drained {s' : VsockSwitch} {rs : List Reply} :
      (∃ k, op = .takeReply k) ∨ (∃ k k', op = .takeRepliesUpTo k k') → out = .replies rs →
        TakeEffect s rs s' → CallEffect s op out s'
  | cleared : op = .resetConnections → CallEffect s op out s.resetConnections
  | lost : op = .disableNetwork → CallEffect s op out s.disableNetwork

variable {s s' : VsockSwitch} {t : Tuple} {e : Endpoint} {c : ConnectionId} {op : Op}
    {out : Outcome}

/-! ## Guest packets -/

lemma retireEndpoint_eq (i : Nat) (e : Endpoint) : s.retireEndpoint i e =
      { s with
        endpoints := s.endpoints.set i (e.retire s.nextConnectionNumber)
        nextConnectionNumber := s.nextConnectionNumber + 1 } := rfl

lemma rxAt_eq {i : Nat} (h : VsockHeader) (bytes : List UInt8) (hret : e.retiring = none) :
    (s.rxAt i e h bytes).2 =
      { s with
        endpoints := s.endpoints.set i (e.receive h bytes s.nextConnectionNumber)
        nextConnectionNumber :=
          if e.isLive && !(e.stream.rx h bytes).isLive then s.nextConnectionNumber + 1
          else s.nextConnectionNumber } := by
  rw [rxAt, if_neg (by simp [hret]), Endpoint.receive]
  dsimp only [Endpoint.withStream_isLive]
  by_cases hended : (e.isLive && !(e.stream.rx h bytes).isLive) = true
  · simp only [hended, if_true, retireEndpoint_eq]
  · simp only [hended, setEndpoint]
    rfl

lemma opensFlow_iff {role : Role} {h : VsockHeader} {bytes : List UInt8} : opensFlow role h bytes ↔
      (role = .tcp ∨ role = .udp) ∧ h.op = opRequest ∧ h.type_ = typeStream ∧
        h.srcCid = guestCid ∧ h.dstCid = hostCid ∧ h.len = 0 ∧ bytes = [] ∧ h.flags = 0 ∧
        h.fwdCnt = 0 := by
  simp [opensFlow, and_assoc]

lemma receive_new {role : Role} {h : VsockHeader} {bytes : List UInt8} (n m : Nat)
    (hopens : opensFlow role h bytes) :
    (Endpoint.new role h.srcPort h.dstPort n).receive h bytes m = Endpoint.admitted role h n := by
  obtain ⟨-, hop, htype, hsrc, hdst, hlen, rfl, hflags, hfwd⟩ := opensFlow_iff.1 hopens
  have hwell : StreamConnection.malformed h [] = false := by
    simp only [StreamConnection.malformed, hop, htype, hsrc, hdst, hlen, hflags]
    decide
  have hrx : (Endpoint.new role h.srcPort h.dstPort n).stream.rx h [] =
      (Endpoint.admitted role h n).stream := by
    rw [StreamConnection.rx, if_neg (by simp [hwell]), if_neg (by simp [Endpoint.new,
      StreamConnection.new]), if_pos hop, StreamConnection.onRequest, if_neg (by simp [Endpoint.new,
      StreamConnection.new, hfwd])]
    dsimp only
    rw [StreamConnection.respond_of_not_credit _ (by decide), if_pos (by simp [Endpoint.new,
      StreamConnection.new, StreamConnection.canQueueReply])]
    rfl
  rw [Endpoint.receive, hrx]
  rfl

lemma rx_effect (h : VsockHeader) (bytes : List UInt8) (out : Outcome) :
    CallEffect s (.rx h bytes) out (s.rx h bytes).2 := by
  rw [rx]
  cases hrole : s.classify h.srcPort h.dstPort with
  | none =>
    refine CallEffect.rejected rfl fun t _ => ?_
    cases hv : s.view t with
    | none => exact Or.inl rfl
    | some e => exact Or.inr ⟨e, rfl, Or.inr hrole⟩
  | some role =>
    cases hi : s.endpointIndex h.guestTuple with
    | some found =>
      obtain ⟨i, e⟩ := found
      dsimp only
      cases hret : e.retiring with
      | some n =>
        rw [rxAt, if_pos (by simp [hret])]
        refine CallEffect.rejected rfl fun t ht => ?_
        exact Or.inr ⟨e, ht ▸ view_of_endpointIndex hi, Or.inl (by simp [hret])⟩
      | none =>
        rw [rxAt_eq h bytes hret]
        exact CallEffect.changed hi (Change.received rfl rfl hrole hret)
    | none =>
      have hv := view_eq_none_of_endpointIndex hi
      dsimp only
      split
      · exact CallEffect.rejected rfl fun t ht => Or.inl (ht ▸ hv)
      next hopens =>
        push Not at hopens
        -- The pushed endpoint is idle, so the packet cannot retire it.
        rw [rxAt_eq h bytes rfl, receive_new _ _ hopens.1,
          List.set_append_right _ _ (Nat.le_refl _), Nat.sub_self, List.set_cons_zero]
        exact CallEffect.admitted rfl hv hrole hopens.1 hopens.2

/-! ## Host calls -/

lemma connectionIndex_eq_some {i : Nat} : s.connectionIndex c = some (i, e) ↔
      s.endpointIndex c.tuple = some (i, e) ∧ e.connected = some c := by
  simp [connectionIndex, Option.filter_eq_some_iff]

lemma connected_ne_of_connectionIndex (hc : s.connectionIndex c = none)
    (e : Endpoint) (hv : s.view c.tuple = some e) : e.connected ≠ some c := by
  intro hconn
  obtain ⟨i, hi⟩ := endpointIndex_of_view hv
  rw [connectionIndex_eq_some.2 ⟨hi, hconn⟩] at hc
  cases hc

lemma tuple_of_connected (hc : e.connected = some c) : c.tuple = e.tuple := by
  obtain ⟨-, -, rfl⟩ := Option.map_eq_some_iff.1 hc
  rfl

/-- A stream call replaces the stream of a current connection and nothing else. -/
lemma onStream_cases {ρ : Type} (c : ConnectionId)
    (call : StreamConnection → Except VsockError ρ × StreamConnection) :
    (s.connectionIndex c = none ∧ s.onStream c call = (.error .unknownConnection, s)) ∨
      ∃ i e, s.endpointIndex c.tuple = some (i, e) ∧ e.connected = some c ∧ s.onStream c call =
          ((call e.stream).1, s.setEndpoint i (e.withStream (call e.stream).2)) := by
  rw [onStream]
  cases hc : s.connectionIndex c with
  | none => exact Or.inl ⟨rfl, rfl⟩
  | some found =>
    obtain ⟨i, e⟩ := found
    obtain ⟨hi, hconn⟩ := connectionIndex_eq_some.1 hc
    exact Or.inr ⟨i, e, hi, hconn, rfl⟩

lemma deliver_effect (c : ConnectionId) (bytes : List UInt8) :
    CallEffect s (.deliver c bytes) (.result (s.deliver c bytes).1) (s.deliver c bytes).2 := by
  rw [deliver]
  split
  · exact CallEffect.refused fun t _ => ⟨.backpressure, rfl⟩
  · rcases onStream_cases (s := s) c (fun stream => stream.deliver bytes) with
      ⟨-, heq⟩ | ⟨i, e, hi, hconn, heq⟩
    · rw [heq]
      exact CallEffect.refused fun t _ => ⟨.unknownConnection, rfl⟩
    · rw [heq]
      exact CallEffect.changed hi (Change.delivered rfl hconn rfl)

lemma shutdown_effect (c : ConnectionId) :
    CallEffect s (.shutdown c) (.result (s.shutdown c).1) (s.shutdown c).2 := by
  rw [shutdown]
  rcases onStream_cases (s := s) c (fun stream => stream.shutdown) with
    ⟨hnone, heq⟩ | ⟨i, e, hi, hconn, heq⟩
  · rw [heq]
    exact CallEffect.refused fun t ht e hv => connected_ne_of_connectionIndex hnone e (ht ▸ hv)
  · rw [heq]
    exact CallEffect.changed hi (Change.shutdown rfl hconn rfl)

lemma requestCredit_effect (c : ConnectionId) :
    CallEffect s (.requestCredit c) (.credit (s.requestCredit c).1) (s.requestCredit c).2 := by
  rw [requestCredit]
  rcases onStream_cases
    (s := s) c (fun stream => (Except.ok stream.requestCredit.1, stream.requestCredit.2)) with
    ⟨hnone, heq⟩ | ⟨i, e, hi, hconn, heq⟩
  · rw [heq]
    exact CallEffect.refused fun t ht e hv => connected_ne_of_connectionIndex hnone e (ht ▸ hv)
  · rw [heq]
    exact CallEffect.changed hi (Change.creditRequested rfl hconn)

lemma consumeUpstream_effect (c : ConnectionId) (maxBytes : Nat) (out : Outcome) :
    CallEffect s (.consumeUpstream c maxBytes) out (s.consumeUpstream c maxBytes).2 := by
  rw [consumeUpstream]
  cases hc : s.connectionIndex c with
  | none => exact CallEffect.refused fun t ht e hv => connected_ne_of_connectionIndex hc e (ht ▸ hv)
  | some found =>
    obtain ⟨i, e⟩ := found
    obtain ⟨hi, hconn⟩ := connectionIndex_eq_some.1 hc
    have hchange : Change s (.consumeUpstream c maxBytes) out c.tuple e _ _ :=
      Change.consumed rfl hconn
    have heffect := CallEffect.changed hi hchange
    rw [Endpoint.consume] at heffect
    cases hnone : (e.stream.consumeUpstream maxBytes).connection.isNone with
    | true => simpa [hnone, Endpoint.withStream, retireEndpoint_eq] using heffect
    | false => simpa [hnone, Endpoint.withStream, setEndpoint] using heffect

lemma resetConnection_effect (c : ConnectionId) (out : Outcome) :
    CallEffect s (.resetConnection c) out (s.resetConnection c).2 := by
  rw [resetConnection]
  cases hf : (s.endpointIndex c.tuple).filter fun found =>
      found.2.connectionNumber = c.number && found.2.isLive with
  | none =>
    refine CallEffect.refused fun t ht e hv hlive => ?_
    subst ht
    obtain ⟨i, hi⟩ := endpointIndex_of_view hv
    simp [hi, hlive.1, hlive.2] at hf
  | some found =>
    obtain ⟨i, e⟩ := found
    obtain ⟨hi, hcond⟩ := Option.filter_eq_some_iff.1 hf
    simp only [Bool.and_eq_true, decide_eq_true_eq] at hcond
    have htuple : c.tuple = e.tuple := (tuple_of_endpointIndex hi).symm
    have hports : c.guestPort = e.stream.guestPort ∧ c.hostPort = e.stream.hostPort := by
      simpa [ConnectionId.tuple, Endpoint.tuple, StreamConnection.tuple] using htuple
    rw [hports.1, hports.2]
    exact CallEffect.changed hi (Change.reset rfl rfl hcond.1 hcond.2)

lemma connectPublication_effect (p : UInt32) :
    CallEffect s (.connectPublication p) (.published (s.connectPublication p).1)
      (s.connectPublication p).2 := by
  rw [connectPublication]
  split
  · exact CallEffect.refused fun _ _ => ⟨.backpressure, rfl⟩
  rename_i hadmit
  push Not at hadmit
  split
  · exact CallEffect.refused fun _ _ => ⟨.busy, rfl⟩
  rename_i hfree
  have hi : s.endpointIndex ⟨publicationPort, p⟩ = none := by simpa using hfree
  -- A fresh stream always has room for its request.
  simp only [Endpoint.new, StreamConnection.request_new]
  exact CallEffect.published rfl (view_eq_none_of_endpointIndex hi) hadmit.1 hadmit.2.1
    hadmit.2.2 rfl

lemma retireConnection_effect (c : ConnectionId) (out : Outcome) :
    CallEffect s (.retireConnection c) out (s.retireConnection c).2 := by
  rw [retireConnection]
  cases hi : s.endpointIndex c.tuple with
  | none =>
    refine CallEffect.refused fun t ht e hv => ?_
    rw [← ht, view_eq_none_of_endpointIndex hi] at hv
    cases hv
  | some found =>
    dsimp only
    split
    next hbusy =>
      refine CallEffect.refused fun t ht e' hv hidle => ?_
      rw [← ht, view_of_endpointIndex hi, Option.some.injEq] at hv
      subst hv
      exact hbusy.elim (fun hne => hne hidle.1)
        fun hne => hne.elim (fun hne => hne hidle.2.1) fun hne => hne hidle.2.2
    rename_i hidle
    push Not at hidle
    split
    next hflow => exact CallEffect.removed rfl hi hflow hidle.1 hidle.2.1 hidle.2.2
    next hfixed =>
      exact CallEffect.released rfl hi (Nat.lt_of_not_le hfixed) hidle.1 hidle.2.1 hidle.2.2

theorem step_effect (hw : Tuples s) (ha : Addressed s)
    (hstep : s.step op = some (out, s')) : CallEffect s op out s' := by
  obtain ⟨rfl, rfl⟩ := apply_of_step hstep
  cases op with
  | rx h bytes => exact rx_effect h bytes _
  | deliver c bytes => exact deliver_effect c bytes
  | consumeUpstream c maxBytes => exact consumeUpstream_effect c maxBytes _
  | shutdown c => exact shutdown_effect c
  | requestCredit c => exact requestCredit_effect c
  | resetConnection c => exact resetConnection_effect c _
  | connectPublication p => exact connectPublication_effect p
  | takeReply n => exact CallEffect.drained (Or.inl ⟨n, rfl⟩) rfl (takeReply_effect hw ha n)
  | takeRepliesUpTo k n =>
    exact CallEffect.drained (Or.inr ⟨k, n, rfl⟩) rfl (takeRepliesUpTo_effect hw ha k n)
  | retireConnection c => exact retireConnection_effect c _
  | resetConnections => exact CallEffect.cleared rfl
  | disableNetwork => exact CallEffect.lost rfl

/-! ## The same, seen from one tuple -/

/-- Everything one public call can do to the endpoint of tuple `t`. -/
inductive EndpointStep (s : VsockSwitch) (op : Op) (out : Outcome) (t : Tuple) :
    Option Endpoint → Option Endpoint → Prop where
  | untouched {v : Option Endpoint} : Untouched s op out t v → EndpointStep s op out t v v
  | changed {e e' : Endpoint} {n : Nat} :
      Change s op out t e e' n → EndpointStep s op out t (some e) (some e')
  | admitted {role : Role} {h : VsockHeader} {bytes : List UInt8} :
      op = .rx h bytes → h.guestTuple = t → s.classify h.srcPort h.dstPort = some role →
        opensFlow role h bytes →
          EndpointStep s op out t none
            (some (Endpoint.admitted role h s.nextConnectionNumber))
  | published {p : UInt32} :
      op = .connectPublication p → t = ⟨publicationPort, p⟩ → s.networkEnabled = true →
        publicationHostPorts p = true →
          out = .published (.ok ⟨.publication, publicationPort, p, s.nextConnectionNumber⟩) →
            EndpointStep s op out t none
              (some (Endpoint.published p s.nextConnectionNumber))
  | lost {e : Endpoint} {n : Nat} :
      op = .disableNetwork → t ≠ agentTuple → e.isLive = true → s.nextConnectionNumber ≤ n →
        EndpointStep s op out t (some e) (some (e.reset n))
  | cleared {e : Endpoint} {n : Nat} :
      op = .resetConnections → s.nextConnectionNumber ≤ n →
        EndpointStep s op out t (some e) (some (resetEndpoint n e).1)
  | drained {e : Endpoint} {taken rest : List Reply} :
      (∃ k, op = .takeReply k) ∨ (∃ k k', op = .takeRepliesUpTo k k') →
        Drained s t e taken rest out.taken →
          EndpointStep s op out t (some e) (some (e.drain taken rest))
  | released {e : Endpoint} {c : ConnectionId} :
      op = .retireConnection c → c.tuple = t → e.role = c.role → e.retiring = some c.number →
        e.stream.replies = [] → t.isFixed →
          EndpointStep s op out t (some e) (some (e.release s.nextConnectionNumber))
  | removed {e : Endpoint} {c : ConnectionId} :
      op = .retireConnection c → c.tuple = t → e.role = c.role → e.retiring = some c.number →
        e.stream.replies = [] → ¬ t.isFixed → EndpointStep s op out t (some e) none

@[simp] lemma reject_view (h : VsockHeader) (t : Tuple) : (s.reject h).view t = s.view t := by
  rw [reject]
  split <;> rfl

lemma receive_tuple (e : Endpoint) (h : VsockHeader) (bytes : List UInt8) (n : Nat) :
    (e.receive h bytes n).tuple = e.tuple := by
  have hrx := (StreamConnection.rx_shape e.stream h bytes).tuple
  simp only [Endpoint.receive]
  split
  · rw [Endpoint.retire_tuple]
    exact hrx
  · exact hrx

lemma consume_tuple (hc : e.connected = some c) (maxBytes n : Nat) :
    (e.consume maxBytes n).tuple = e.tuple := by
  obtain ⟨connection, hconn, -⟩ := Option.map_eq_some_iff.1 hc
  have hshape := (StreamConnection.consumeUpstream_shape hconn maxBytes).tuple
  simp only [Endpoint.consume]
  split
  · rw [Endpoint.retire_tuple]
    exact hshape
  · exact hshape

lemma reset_tuple (e : Endpoint) (n : Nat) : (e.reset n).tuple = e.tuple := by
  rw [Endpoint.reset, Endpoint.retire_tuple, Endpoint.withStream_tuple,
    StreamConnection.tryRst_tuple]
  rfl

lemma Change.tuple {e e' : Endpoint} {n : Nat} (hc : Change s op out t e e' n) :
    e'.tuple = e.tuple := by
  cases hc with
  | received => exact receive_tuple _ _ _ _
  | delivered => exact (StreamConnection.deliver_shape _ _).tuple
  | shutdown => exact (StreamConnection.shutdown_shape _).tuple
  | creditRequested => exact StreamConnection.requestCredit_outcome.shape.tuple
  | consumed _ hconn => exact consume_tuple hconn _ _
  | reset => exact reset_tuple _ _

lemma Change.elsewhere {e e' : Endpoint} {n : Nat} {t' : Tuple} (hc : Change s op out t e e' n)
    (he : e.tuple = t) (ht : t' ≠ t) (v : Option Endpoint) : Untouched s op out t' v := by
  have hid : ∀ {c : ConnectionId}, e.connected = some c → c.tuple ≠ t' := by
    intro c hconn
    rw [tuple_of_connected hconn, he]
    exact ht.symm
  cases hc with
  | received hop htuple | reset hop htuple =>
    subst hop
    exact fun heq => absurd (heq.symm.trans htuple) ht
  | delivered hop hconn | shutdown hop hconn | creditRequested hop hconn | consumed hop hconn =>
    subst hop
    exact fun heq => absurd heq (hid hconn)

lemma resetEndpoint_tuple (n : Nat) (e : Endpoint) : (resetEndpoint n e).1.tuple = e.tuple := by
  rw [resetEndpoint]
  split
  · exact Endpoint.retire_tuple n
  · rfl

lemma resetEndpoint_isLive (n : Nat) (e : Endpoint) : (resetEndpoint n e).1.isLive = false := by
  rw [resetEndpoint]
  split
  · exact Endpoint.retire_isLive (e := e) n
  next hidle => exact Bool.eq_false_iff.2 hidle

lemma le_resetEndpoint (n : Nat) (e : Endpoint) : n ≤ (resetEndpoint n e).2 := by
  rw [resetEndpoint]
  split
  · exact Nat.le_succ n
  · exact Nat.le_refl n

lemma resetNetworkEndpoint_eq (n : Nat) (e : Endpoint) :
    resetNetworkEndpoint n e = if e.isLive then (e.reset n, n + 1) else (e, n) := rfl

lemma resetNetworkEndpoint_tuple (n : Nat) (e : Endpoint) :
    (resetNetworkEndpoint n e).1.tuple = e.tuple := by
  rw [resetNetworkEndpoint_eq]
  split
  · exact reset_tuple e n
  · rfl

lemma le_resetNetworkEndpoint (n : Nat) (e : Endpoint) : n ≤ (resetNetworkEndpoint n e).2 := by
  rw [resetNetworkEndpoint_eq]
  split
  · exact Nat.le_succ n
  · exact Nat.le_refl n

lemma Tuples.agent_first (hw : Tuples s) :
    ∃ agent rest, s.endpoints = agent :: rest ∧ agent.tuple = agentTuple := by
  obtain ⟨flows, hfixed⟩ := hw.fixed
  obtain ⟨agent, rest, hends, hagent, -⟩ := List.map_eq_cons_iff.1 hfixed
  exact ⟨agent, rest, hends, hagent⟩

lemma resetConnections_step (out : Outcome) (t : Tuple) :
    EndpointStep s .resetConnections out t (s.view t) (s.resetConnections.view t) := by
  obtain ⟨m, hm, hlook⟩ :=
    lookup_sweep resetEndpoint_tuple le_resetEndpoint s.nextConnectionNumber s.endpoints t
  have hview : s.resetConnections.view t = (s.view t).map fun e => (resetEndpoint m e).1 := hlook
  rw [hview]
  cases hv : s.view t with
  | none => exact EndpointStep.untouched rfl
  | some e => exact EndpointStep.cleared rfl hm

lemma disableNetwork_step (hw : Tuples s) (out : Outcome) (t : Tuple) :
    EndpointStep s .disableNetwork out t (s.view t) (s.disableNetwork.view t) := by
  obtain ⟨agent, rest, hends, hagent⟩ := hw.agent_first
  obtain ⟨m, hm, hlook⟩ := lookup_sweep resetNetworkEndpoint_tuple le_resetNetworkEndpoint
    s.nextConnectionNumber rest t
  have hbefore : s.view t = if agentTuple = t then some agent
      else lookup Endpoint.tuple rest t := by
    rw [view, hends, lookup_cons, hagent]
  have hafter : s.disableNetwork.view t = if agentTuple = t then some agent
      else (lookup Endpoint.tuple rest t).map fun e => (resetNetworkEndpoint m e).1 := by
    rw [← hlook, view, disableNetwork, resetNetworkConnections]
    rw [hends, List.take_succ_cons, List.take_zero, List.drop_succ_cons, List.drop_zero,
      List.singleton_append, lookup_cons, hagent]
  rw [hbefore, hafter]
  split
  next ht => exact EndpointStep.untouched (Or.inr (Or.inl ht.symm))
  next ht =>
    cases hv : lookup Endpoint.tuple rest t with
    | none => exact EndpointStep.untouched (Or.inl rfl)
    | some e =>
      rw [Option.map_some, resetNetworkEndpoint_eq]
      cases hlive : e.isLive with
      | true => exact EndpointStep.lost rfl (fun heq => ht heq.symm) hlive hm
      | false => exact EndpointStep.untouched (Or.inr (Or.inr ⟨e, rfl, hlive⟩))

lemma CallEffect.endpointStep (hw : Tuples s) (ha : Addressed s)
    (he : CallEffect s op out s') (t : Tuple) : EndpointStep s op out t (s.view t) (s'.view t) := by
  cases he with
  | refused hun => exact EndpointStep.untouched (hun t)
  | rejected _ hun =>
    rw [reject_view]
    exact EndpointStep.untouched (hun t)
  | @changed t₀ i n e e' hi hc =>
    have htuple := tuple_of_endpointIndex hi
    have hview := view_setEndpoint hi (hc.tuple.trans htuple) t
    change EndpointStep s op out t (s.view t) ((s.setEndpoint i e').view t)
    rw [hview]
    split
    next ht =>
      subst ht
      rw [view_of_endpointIndex hi]
      exact EndpointStep.changed hc
    next ht => exact EndpointStep.untouched (hc.elsewhere htuple ht _)
  | @admitted role h bytes hop hfree hrole hopens _ =>
    have hview := lookup_push (a := Endpoint.admitted role h s.nextConnectionNumber) hfree t
    change EndpointStep s op out t (s.view t) (lookup Endpoint.tuple _ t)
    rw [hview]
    split
    next ht =>
      have ht' : h.guestTuple = t := ht.symm
      rw [← ht', hfree]
      exact EndpointStep.admitted hop rfl hrole hopens
    next ht =>
      subst hop
      exact EndpointStep.untouched fun heq => absurd heq.symm ht
  | @published p hop hfree henabled hport _ hout =>
    have hview := lookup_push (a := Endpoint.published p s.nextConnectionNumber) hfree t
    change EndpointStep s op out t (s.view t) (lookup Endpoint.tuple _ t)
    rw [hview]
    split
    next ht =>
      have ht' : t = ⟨publicationPort, p⟩ := ht
      rw [ht', hfree]
      exact EndpointStep.published hop rfl henabled hport hout
    next ht =>
      subst hop
      exact EndpointStep.untouched fun heq => absurd heq ht
  | @released i e c hop hi hfixed hrole hret hempty =>
    have hkey : (e.release s.nextConnectionNumber).tuple = c.tuple :=
      tuple_of_endpointIndex (e := e) hi
    have hview := view_setEndpoint hi hkey t
    change EndpointStep s op out t (s.view t) ((s.setEndpoint i _).view t)
    rw [hview]
    split
    next ht =>
      subst ht
      rw [view_of_endpointIndex hi]
      exact EndpointStep.released hop rfl hrole hret hempty ((fixed_iff_index hw hi).2 hfixed)
    next ht =>
      subst hop
      exact EndpointStep.untouched fun heq => absurd heq.symm ht
  | @removed i e c hop hi hflow hrole hret hempty =>
    have hview := lookup_eraseIdx hw.nodup hi t
    change EndpointStep s op out t (s.view t) (lookup Endpoint.tuple _ t)
    rw [hview]
    split
    next ht =>
      subst ht
      rw [view_of_endpointIndex hi]
      refine EndpointStep.removed hop rfl hrole hret hempty fun hfixed => ?_
      exact absurd ((fixed_iff_index hw hi).1 hfixed) (Nat.not_lt.2 hflow)
    next ht =>
      subst hop
      exact EndpointStep.untouched fun heq => absurd heq.symm ht
  | drained hop hout heffect =>
    rcases heffect.view t with ⟨hv, hv'⟩ | ⟨e, taken, rest, hv, hv', hd⟩
    · have hresets : ∀ r ∈ out.taken, r.header.replyTuple = t → r.header.op = opRst := by
        intro r hr ht
        rw [hout] at hr
        exact ha.rejected r (heffect.origin r hr (ht ▸ hv))
      rw [hv, hv']
      rcases hop with ⟨k, rfl⟩ | ⟨k, k', rfl⟩
      · exact EndpointStep.untouched ⟨rfl, hresets⟩
      · exact EndpointStep.untouched ⟨rfl, hresets⟩
    · rw [hv, hv']
      subst hout
      exact EndpointStep.drained hop hd
  | cleared hop =>
    subst hop
    exact resetConnections_step out t
  | lost hop =>
    subst hop
    exact disableNetwork_step hw out t

end VsockSwitch

end Terrarium.Vsock
