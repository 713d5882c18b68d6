import Terrarium.Foundations.Tokens
import Terrarium.Vsock.EndpointSteps

/-!
# SwitchInvariant — what holds of every reachable switch

* `Endpoint.Valid` — one endpoint: its stream is within bounds, its budgets and ports are those of
  its role, and an endpoint that is not live has nothing but resets queued;
* `Invariant` — the whole switch: unique tuples and connection numbers, valid endpoints, bounded
  flows and bounded resets;
* `Invariant.step`, `Invariant.run` — every public call keeps it.
-/

namespace Terrarium.Vsock

open KeyedList Tokens

/-! ## Roles and ports -/

/-- The role a tuple has while the network is enabled. -/
def classOf (t : Tuple) : Option Role :=
  (VsockSwitch.withNetworkSocketCapacity true 0).classify t.guestPort t.hostPort

variable {p : UInt32}

variable {s : VsockSwitch} {g : UInt32} {role : Role}

lemma eq_agentTuple_of_classify (hnet : s.networkEnabled = false)
    (h : s.classify g p = some role) : (⟨g, p⟩ : Tuple) = agentTuple := by
  simp only [VsockSwitch.classify, hnet] at h
  split at h
  next hports =>
    rw [hports.1, hports.2]
    rfl
  · simp at h

/-- Of a live network's ports, and always of the agent's, the switch knows the role. -/
lemma classify_eq_classOf {t : Tuple} (h : s.networkEnabled = false → t = agentTuple) :
    s.classify t.guestPort t.hostPort = classOf t := by
  cases hnet : s.networkEnabled with
  | true => simp [classOf, VsockSwitch.classify, VsockSwitch.withNetworkSocketCapacity, hnet]
  | false =>
    rw [h hnet]
    rfl

lemma classOf_of_classify (h : s.classify g p = some role) : classOf ⟨g, p⟩ = some role := by
  rw [← classify_eq_classOf fun hnet => eq_agentTuple_of_classify hnet h]
  exact h

lemma classOf_publication (hp : publicationHostPorts p = true) :
    classOf ⟨publicationPort, p⟩ = some .publication := by
  have hne : ∀ {q}, publicationHostPorts q = false → p ≠ q := by
    rintro q hq rfl
    rw [hp] at hq
    cases hq
  have htcp : p ≠ tcpPort := hne (by decide)
  have hudp : p ≠ udpPort := hne (by decide)
  have hagent : ¬ publicationPort = agentPort := by decide
  have hcontrol : ¬ publicationPort = controlPort := by decide
  simp [classOf, VsockSwitch.classify, htcp, hudp, hagent, hcontrol, hp,
    VsockSwitch.withNetworkSocketCapacity]

/-- The calls that hand out replies. -/
def Op.takes : Op → Bool
  | .takeReply _ | .takeRepliesUpTo _ _ => true
  | _ => false

/-! ## One endpoint -/

namespace Endpoint

open StreamConnection

/-- The part of an endpoint's invariant that does not depend on its life cycle. -/
structure Sound (e : Endpoint) : Prop where
  bounded : Bounded e.stream
  budget : (e.stream.rxAlloc, e.stream.maxTxBytes) = e.role.buffers
  role : classOf e.tuple = some e.role

structure Valid (e : Endpoint) : Prop extends Sound e where
  quiet : e.isLive = false → ∀ r ∈ e.stream.replies, r.header.op = opRst
  retired : e.retiring.isSome → e.isLive = false

variable {e : Endpoint}

variable {stream : StreamConnection} {c : ConnectionId}

lemma Sound.withStream (hs : Sound e)
    (hshape : SameShape e.stream stream) (hb : Bounded stream) : Sound (e.withStream stream) := by
  refine ⟨hb, ?_, ?_⟩
  · exact (Prod.ext hshape.rxAlloc hshape.maxTxBytes).trans hs.budget
  · exact (congrArg classOf hshape.tuple).trans hs.role

lemma Sound.retire (hs : Sound e) (n : Nat) : Valid (e.retire n) := by
  have hreset : ∀ r ∈ e.stream.replies.filter (fun reply => reply.header.op == opRst),
      r.header.op = opRst := by
    intro r hr
    simpa using (List.mem_filter.1 hr).2
  have hb := hs.bounded.quiesce _ List.filter_sublist fun r hr hrw => by
    rw [hreset r hr] at hrw
    exact absurd hrw (by decide)
  rw [Endpoint.retire]
  split <;> exact { hs with bounded := hb, quiet := fun _ => hreset, retired := fun _ => rfl }

lemma Sound.live (hs : Sound e) (hlive : e.isLive = true) (hret : e.retiring = none) : Valid e := by
  refine ⟨hs, ?_, ?_⟩
  · intro hidle
    rw [hlive] at hidle
    cases hidle
  · intro hsome
    rw [hret] at hsome
    cases hsome

lemma Valid.not_retiring (hv : Valid e) (hlive : e.isLive = true) : e.retiring = none := by
  by_contra hsome
  have hidle := hv.retired (Option.isSome_iff_ne_none.2 hsome)
  rw [hlive] at hidle
  cases hidle

lemma isLive_of_connected (hc : e.connected = some c) : e.isLive = true := by
  obtain ⟨connection, hconn, -⟩ := Option.map_eq_some_iff.1 hc
  exact isLive_of_connection hconn

lemma buffers_lt (role : Role) : role.buffers.2 < 2 ^ 32 := by
  cases role <;> decide

lemma sound_new {role : Role} {g p : UInt32} (n : Nat) (hrole : classOf ⟨g, p⟩ = some role) :
    Sound (Endpoint.new role g p n) :=
  ⟨bounded_new g p _ (buffers_lt role), rfl, hrole⟩

lemma canQueueReply_new (role : Role) (g p : UInt32) (n : Nat) :
    (Endpoint.new role g p n).stream.canQueueReply 0 = true := by
  simp [Endpoint.new, StreamConnection.new, canQueueReply]

/-- A packet leaves an idle stream idle only by queueing a reset or nothing. -/
lemma quiet_rx {h : VsockHeader} {bytes : List UInt8}
    (hidle : stream.isLive = false) (hidle' : (stream.rx h bytes).isLive = false) :
    ∀ r ∈ (stream.rx h bytes).replies, r ∈ stream.replies ∨ r.header.op = opRst := by
  have hout := rx_outcome stream h bytes
  generalize stream.rx h bytes = stream' at hout hidle' ⊢
  have hnone := (isLive_eq_false_iff.1 hidle).1
  have hcontra : ∀ {c : Connection}, stream.connection = some c → False := by
    intro c hc
    rw [hnone] at hc
    cases hc
  cases hout with
  | ignored => exact fun r hr => Or.inl hr
  | refused =>
    intro r hr
    rw [tryRst_replies] at hr
    split at hr
    · rcases List.mem_append.1 hr with hr | hr
      · exact Or.inl hr
      · rw [List.mem_singleton.1 hr]
        exact Or.inr rfl
    · exact Or.inl hr
  | opened | established => cases hidle'
  | closed hlive | rejected hlive =>
    rw [hidle] at hlive
    cases hlive
  | forged hc | starved hc | overflowed hc | received hc | halfClosed hc | answered hc
  | credited hc => exact (hcontra hc).elim

lemma Valid.receive (hv : Valid e) {h : VsockHeader} (htuple : h.guestTuple = e.tuple)
    (hret : e.retiring = none) (bytes : List UInt8) (n : Nat) : Valid (e.receive h bytes n) := by
  have hs : Sound (e.withStream (e.stream.rx h bytes)) :=
    hv.toSound.withStream (rx_shape e.stream h bytes) (hv.bounded.rx htuple)
  simp only [Endpoint.receive]
  split
  · exact hs.retire n
  next hstays =>
    cases hlive : (e.withStream (e.stream.rx h bytes)).isLive with
    | true => exact hs.live hlive hret
    | false =>
      have hidle : e.isLive = false := by
        by_contra hlive'
        rw [hlive] at hstays
        simp [Bool.eq_true_of_not_eq_false hlive'] at hstays
      refine ⟨hs, fun _ r hr => ?_, fun _ => hlive⟩
      rcases quiet_rx hidle hlive r hr with hr | hr
      · exact hv.quiet hidle r hr
      · exact hr

lemma Valid.consume (hv : Valid e) (hc : e.connected = some c)
    (maxBytes n : Nat) : Valid (e.consume maxBytes n) := by
  obtain ⟨connection, hconn, -⟩ := Option.map_eq_some_iff.1 hc
  have hs : Sound (e.withStream (e.stream.consumeUpstream maxBytes)) :=
    hv.toSound.withStream (consumeUpstream_shape hconn maxBytes)
      (hv.bounded.consumeUpstream hconn maxBytes)
  simp only [Endpoint.consume]
  split
  · exact hs.retire n
  next hsome =>
    refine hs.live ?_ (hv.not_retiring (isLive_of_connected hc))
    obtain ⟨connection', hconn'⟩ := Option.ne_none_iff_exists'.1 (by simpa using hsome)
    exact isLive_of_connection hconn'

lemma Sound.reset (hs : Sound e) (n : Nat) : Valid (e.reset n) :=
  (hs.withStream (SameShape.tryRst _ _) (hs.bounded.tryRst rfl)).retire n

lemma Valid.withStream (hv : Valid e) (hc : e.connected = some c)
    (hshape : SameShape e.stream stream) (hb : Bounded stream)
    (hlive : stream.isLive = true) : Valid (e.withStream stream) :=
  (hv.toSound.withStream hshape hb).live hlive (hv.not_retiring (isLive_of_connected hc))

lemma Valid.drain (hv : Valid e) {taken rest : List Reply}
    (hrep : e.stream.replies = taken ++ rest) : Valid (e.drain taken rest) := by
  have hs : Sound (e.drain taken rest) :=
    hv.toSound.withStream ⟨rfl, rfl, rfl⟩ (hv.bounded.drain taken rest hrep)
  refine ⟨hs, fun hidle r hr => ?_, hv.retired⟩
  exact hv.quiet hidle r (by rw [hrep]; exact List.mem_append_right _ hr)

lemma Valid.clear (hv : Valid e) (hidle : e.isLive = false) :
    Valid (e.withStream { e.stream with replies := [] }) := by
  have hbytes : e.stream.replyBytes = 0 := by
    rw [hv.bounded.replyBytes]
    refine payloadBytes_eq_zero fun r hr => hv.bounded.dataOnly r hr ?_
    rw [hv.quiet hidle r hr]
    decide
  have hb : Bounded { e.stream with replies := [] } := by
    have hb := hv.bounded.drain e.stream.replies [] (by simp)
    rw [← hv.bounded.replyBytes, Nat.sub_self, ← hbytes] at hb
    exact hb
  exact ⟨hv.toSound.withStream ⟨rfl, rfl, rfl⟩ hb, nofun, hv.retired⟩

end Endpoint

namespace VsockSwitch

variable {s s' : VsockSwitch} {t : Tuple} {op : Op} {out : Outcome}

variable {e e' : Endpoint} {n : Nat}

lemma Change.valid (hc : Change s op out t e e' n) (hv : e.Valid) (he : e.tuple = t) :
    e'.Valid := by
  cases hc with
  | received _ htuple _ hret => exact hv.receive (htuple.trans he.symm) hret _ _
  | delivered _ hconn _ =>
    exact hv.withStream hconn (StreamConnection.deliver_shape _ _) hv.bounded.deliver
      (StreamConnection.deliver_isLive _ (Endpoint.isLive_of_connected hconn))
  | shutdown _ hconn _ =>
    exact hv.withStream hconn (StreamConnection.shutdown_shape _) hv.bounded.shutdown
      (StreamConnection.shutdown_isLive (Endpoint.isLive_of_connected hconn))
  | creditRequested _ hconn =>
    have hreq := StreamConnection.requestCredit_outcome (s := e.stream)
    exact hv.withStream hconn hreq.shape (hreq.bounded hv.bounded)
      (hreq.isLive (Endpoint.isLive_of_connected hconn))
  | consumed _ hconn => exact hv.consume hconn _ _
  | reset => exact hv.toSound.reset _

lemma admitted_valid {role : Role} {h : VsockHeader}
    (hrole : s.classify h.srcPort h.dstPort = some role)
    (n : Nat) : (Endpoint.admitted role h n).Valid := by
  have hs := Endpoint.sound_new n (classOf_of_classify hrole)
  refine Endpoint.Sound.live ?_ rfl rfl
  refine hs.withStream ⟨rfl, rfl, rfl⟩ ?_
  have hcred := StreamConnection.creditBounds_new
    (s := (Endpoint.new role h.srcPort h.dstPort n).stream) rfl h.bufAlloc
  exact (hs.bounded.pushEmpty (Endpoint.canQueueReply_new ..) rfl rfl).withConnection rfl
    { hcred with }

lemma published_valid {p : UInt32} (hp : publicationHostPorts p = true) (n : Nat) :
    (Endpoint.published p n).Valid := by
  have hs := Endpoint.sound_new n (classOf_publication hp)
  refine Endpoint.Sound.live ?_ rfl rfl
  refine hs.withStream ⟨rfl, rfl, rfl⟩ ?_
  exact hs.bounded.request rfl (Endpoint.canQueueReply_new ..)

lemma resetEndpoint_valid (hv : e.Valid) (n : Nat) : (resetEndpoint n e).1.Valid := by
  rw [resetEndpoint]
  split
  · exact (hv.toSound.retire n).clear (Endpoint.retire_isLive n)
  next hidle => exact hv.clear (by simpa using hidle)

lemma EndpointStep.valid {v v' : Option Endpoint} (hstep : EndpointStep s op out t v v')
    (hv : ∀ e, v = some e → e.Valid ∧ e.tuple = t) (he' : v' = some e') : e'.Valid := by
  subst he'
  cases hstep with
  | untouched => exact (hv e' rfl).1
  | changed hc => exact hc.valid (hv _ rfl).1 (hv _ rfl).2
  | admitted _ _ hrole => exact admitted_valid hrole _
  | published _ _ _ hp => exact published_valid hp _
  | lost => exact (hv _ rfl).1.toSound.reset _
  | cleared => exact resetEndpoint_valid (hv _ rfl).1 _
  | drained _ hd => exact (hv _ rfl).1.drain hd.queue
  | @released e _ _ _ _ hret =>
    have hvalid := (hv _ rfl).1
    have hidle := hvalid.retired (by rw [hret]; rfl)
    exact { hvalid with retired := fun _ => hidle }

/-! ## The vector -/

lemma CallEffect.tuples (hw : Tuples s) (he : CallEffect s op out s') : Tuples s' := by
  have hsame : s'.tuples = s.tuples → Tuples s' := by
    intro heq
    exact ⟨heq ▸ hw.nodup, heq ▸ hw.fixed⟩
  have hpush : ∀ e : Endpoint, s.view e.tuple = none → s'.endpoints = s.endpoints ++ [e] →
      Tuples s' := by
    intro e hfree hends
    have heq : s'.tuples = s.tuples ++ [e.tuple] := by
      rw [VsockSwitch.tuples, hends, List.map_append]
      rfl
    obtain ⟨flows, hfixed⟩ := hw.fixed
    refine ⟨?_, flows ++ [e.tuple], ?_⟩
    · rw [heq, List.nodup_append]
      refine ⟨hw.nodup, List.nodup_singleton _, ?_⟩
      intro t₁ ht₁ t₂ ht₂ hboth
      rw [hboth, List.mem_singleton.1 ht₂] at ht₁
      exact lookup_eq_none_iff.1 hfree ht₁
    · rw [heq, hfixed]
      rfl
  cases he with
  | refused => exact hw
  | rejected =>
    refine hsame ?_
    rw [reject]
    split <;> rfl
  | changed hi hc => exact hsame (map_key_set hi (hc.tuple.trans (tuple_of_endpointIndex hi)))
  | @admitted role h _ _ hfree =>
    exact hpush (Endpoint.admitted role h s.nextConnectionNumber) hfree rfl
  | @published p _ hfree => exact hpush (Endpoint.published p s.nextConnectionNumber) hfree rfl
  | @released i e c _ hi =>
    have hkey : (e.release s.nextConnectionNumber).tuple = c.tuple :=
      tuple_of_endpointIndex (e := e) hi
    exact hsame (map_key_set hi hkey)
  | @removed i e c _ _ hflow =>
    obtain ⟨flows, hfixed⟩ := hw.fixed
    have heq : (s.endpoints.eraseIdx i).map Endpoint.tuple = s.tuples.eraseIdx i := by
      rw [VsockSwitch.tuples, List.eraseIdx_map]
    refine ⟨?_, flows.eraseIdx (i - 2), ?_⟩
    · change ((s.endpoints.eraseIdx i).map Endpoint.tuple).Nodup
      rw [heq]
      exact hw.nodup.sublist (List.eraseIdx_sublist _ _)
    · change (s.endpoints.eraseIdx i).map Endpoint.tuple = _
      obtain ⟨j, rfl⟩ := Nat.exists_eq_add_of_le' hflow
      rw [heq, hfixed]
      rfl
  | drained _ _ heffect => exact hsame heffect.tuples
  | cleared => exact hsame (map_key_sweep resetEndpoint_tuple _ _)
  | lost =>
    obtain ⟨agent, rest, hends, -⟩ := hw.agent_first
    refine hsame ?_
    rw [VsockSwitch.tuples, VsockSwitch.tuples, disableNetwork, resetNetworkConnections]
    rw [List.map_append, map_key_sweep resetNetworkEndpoint_tuple, hends]
    rfl

/-! ## Connection numbers -/

lemma numbers_of_retiring {m : Nat} (h : e.connectionNumber = n ∧ e.retiring = some m) :
    e.numbers = [n, m] := by
  rw [Endpoint.numbers, h.1, h.2]
  rfl

lemma numbers_retire (h : e.isLive = true ∨ e.retiring = none) (n : Nat) :
    (e.retire n).numbers = [n, e.connectionNumber] :=
  numbers_of_retiring (Endpoint.retire_numbers h n)

lemma numbers_reset (hlive : e.isLive = true) (n : Nat) :
    (e.reset n).numbers = [n, e.connectionNumber] :=
  numbers_of_retiring (Endpoint.reset_numbers hlive n)

lemma refresh_retire (n : Nat) : Refresh n (n + 1) e.numbers [n, e.connectionNumber] := by
  refine ⟨Nat.le_succ n, fun _ hlt => ?_, ?_⟩
  · have hold := hlt e.connectionNumber List.mem_cons_self
    have hne : n ≠ e.connectionNumber := by omega
    simp [hne]
  · intro m hm
    rcases List.mem_cons.1 hm with rfl | hm
    · exact Or.inr ⟨Nat.le_refl m, Nat.lt_succ_self m⟩
    · rw [List.mem_singleton.1 hm]
      exact Or.inl List.mem_cons_self

lemma refresh_ended (hret : e.retiring = none) (stream : StreamConnection) (n : Nat) :
    Refresh n (n + 1) e.numbers ((e.withStream stream).retire n).numbers := by
  rw [numbers_retire (e := e.withStream stream) (Or.inr hret)]
  exact refresh_retire n

lemma Change.refresh (hc : Change s op out t e e' n)
    (hv : e.Valid) : Refresh s.nextConnectionNumber n e.numbers e'.numbers := by
  cases hc with
  | received _ _ _ hret =>
    split
    next hended =>
      rw [Endpoint.receive_ended hended]
      exact refresh_ended hret _ _
    next hended =>
      rw [Endpoint.receive_stays hended]
      exact Refresh.refl _ _
  | delivered | shutdown | creditRequested => exact Refresh.refl _ _
  | consumed _ hconn =>
    have hret := hv.not_retiring (Endpoint.isLive_of_connected hconn)
    split
    next hended =>
      rw [Endpoint.consume_ended hended]
      exact refresh_ended hret _ _
    next hended =>
      rw [Endpoint.consume_stays hended]
      exact Refresh.refl _ _
  | reset _ _ _ hlive =>
    rw [numbers_reset hlive]
    exact refresh_retire _

lemma refresh_resetEndpoint (n : Nat) (e : Endpoint) :
    Refresh n (resetEndpoint n e).2 e.numbers (resetEndpoint n e).1.numbers := by
  rw [resetEndpoint]
  split
  next hlive =>
    change Refresh n (n + 1) e.numbers (e.retire n).numbers
    rw [numbers_retire (Or.inl hlive)]
    exact refresh_retire n
  · exact Refresh.refl _ _

lemma refresh_resetNetworkEndpoint (n : Nat) (e : Endpoint) :
    Refresh n (resetNetworkEndpoint n e).2 e.numbers (resetNetworkEndpoint n e).1.numbers := by
  rw [resetNetworkEndpoint_eq]
  split
  next hlive =>
    change Refresh n (n + 1) e.numbers (e.reset n).numbers
    rw [numbers_reset hlive]
    exact refresh_retire n
  · exact Refresh.refl _ _

lemma CallEffect.issued (he : CallEffect s op out s') (hv : ∀ {t e}, s.view t = some e → e.Valid)
    (hn : Issued Endpoint.numbers s.endpoints s.nextConnectionNumber) :
    Issued Endpoint.numbers s'.endpoints s'.nextConnectionNumber := by
  have hset : ∀ {t : Tuple} {i n : Nat} {e e' : Endpoint}, s.endpointIndex t = some (i, e) →
      Refresh s.nextConnectionNumber n e.numbers e'.numbers →
      Issued Endpoint.numbers (s.endpoints.set i e') n := by
    intro t i n e e' hi hr
    obtain ⟨before, after, hends, rfl, -, -⟩ := locate_split hi
    rw [hends] at hn ⊢
    rw [List.set_append_right _ _ (Nat.le_refl _), Nat.sub_self, List.set_cons_zero]
    exact hn.replace hr
  cases he with
  | refused => exact hn
  | rejected =>
    rw [reject]
    split
    · exact hn
    · exact hn
  | changed hi hc => exact hset hi (hc.refresh (hv (view_of_endpointIndex hi)))
  | admitted | published => exact hn.push rfl
  | @released i e c _ hi =>
    refine hset hi ⟨Nat.le_succ _, fun _ _ => List.nodup_singleton _, ?_⟩
    intro m hm
    rw [List.mem_singleton.1 hm]
    exact Or.inr ⟨Nat.le_refl _, Nat.lt_succ_self _⟩
  | removed => exact hn.remove _
  | drained _ _ heffect =>
    rw [heffect.number]
    exact hn.congr heffect.numbers
  | cleared => exact Issued.sweep [] refresh_resetEndpoint hn
  | lost =>
    have hn' : Issued Endpoint.numbers
        (s.endpoints.take 1 ++ s.endpoints.drop 1) s.nextConnectionNumber := by
      rwa [List.take_append_drop]
    exact Issued.sweep _ refresh_resetNetworkEndpoint hn'

/-! ## Rejected packets -/

/-- A reset kept outside the endpoints was there before, or answers the packet just received
under the number its tuple has at that moment. -/
lemma CallEffect.mem_rejected (he : CallEffect s op out s') {r : Reply} (hr : r ∈ s'.rejected) :
    r ∈ s.rejected ∨
      ∃ h bytes, op = .rx h bytes ∧ r.header.op = opRst ∧ r.payload = [] ∧
      r.header.replyTuple = h.guestTuple ∧
          r.connectionNumber = ((s.view h.guestTuple).map Endpoint.connectionNumber).getD 0 ∧
            s'.view h.guestTuple = s.view h.guestTuple ∧ ∀ e, s.view h.guestTuple = some e →
                e.retiring.isSome ∨ s.classify h.srcPort h.dstPort = none := by
  cases he with
  | refused | changed | published | lost => exact Or.inl hr
  | @rejected h bytes hop hun =>
    rw [reject] at hr
    split at hr
    · rcases List.mem_append.1 hr with hr | hr
      · exact Or.inl hr
      · refine Or.inr ⟨h, bytes, hop, ?_⟩
        rw [List.mem_singleton.1 hr]
        refine ⟨rfl, rfl, rfl, ?_, reject_view h _, ?_⟩
        · cases hi : s.endpointIndex h.guestTuple with
          | none => simp [view_eq_none_of_endpointIndex hi]
          | some found => simp [view_of_endpointIndex hi]
        · intro e hv
          subst hop
          rcases hun h.guestTuple rfl with hnone | ⟨e', he', hcase⟩
          · rw [hv] at hnone
            cases hnone
          · rw [hv, Option.some.injEq] at he'
            subst he'
            exact hcase
    · exact Or.inl hr
  | admitted | released | removed => exact Or.inl (List.mem_of_mem_filter hr)
  | drained _ _ heffect =>
    obtain ⟨dropped, hdropped⟩ := heffect.rejected
    exact Or.inl (by rw [hdropped]; exact List.mem_append_right _ hr)
  | cleared => cases hr

lemma CallEffect.rejected_length (he : CallEffect s op out s')
    (hlen : s.rejected.length ≤ maxRejectedResets) : s'.rejected.length ≤ maxRejectedResets := by
  cases he with
  | refused | changed | published | lost => exact hlen
  | rejected =>
    rw [reject]
    split
    next hroom =>
      rw [List.length_append]
      exact hroom.2
    · exact hlen
  | admitted | released | removed => exact le_trans (List.length_filter_le _ _) hlen
  | drained _ _ heffect =>
    obtain ⟨dropped, hdropped⟩ := heffect.rejected
    rw [hdropped, List.length_append] at hlen
    exact le_trans (Nat.le_add_left _ _) hlen
  | cleared => exact Nat.zero_le _

/-! ## Admission -/

lemma length_eq_of_tuples (h : s'.tuples = s.tuples) :
    s'.endpoints.length = s.endpoints.length := by
  have hlen := congrArg List.length h
  simpa [VsockSwitch.tuples] using hlen

lemma CallEffect.flows (he : CallEffect s op out s')
    (hcap : s.networkSocketCount ≤ s.networkSocketCapacity) :
    s'.networkSocketCount ≤ s'.networkSocketCapacity ∧
    s'.networkSocketCapacity = s.networkSocketCapacity := by
  have hpush : ∀ e : Endpoint, s.networkSocketCount < s.networkSocketCapacity →
      (s.endpoints ++ [e]).length - fixedEndpoints ≤ s.networkSocketCapacity := by
    intro e hroom
    rw [List.length_append, List.length_singleton]
    have hcount : s.endpoints.length - 2 < s.networkSocketCapacity := hroom
    change s.endpoints.length + 1 - 2 ≤ s.networkSocketCapacity
    omega
  have hset : ∀ (i : Nat) (e : Endpoint),
      (s.endpoints.set i e).length - fixedEndpoints ≤ s.networkSocketCapacity := by
    intro i e
    rw [List.length_set]
    exact hcap
  cases he with
  | refused => exact ⟨hcap, rfl⟩
  | rejected =>
    rw [reject]
    split
    · exact ⟨hcap, rfl⟩
    · exact ⟨hcap, rfl⟩
  | changed | released => exact ⟨hset _ _, rfl⟩
  | admitted _ _ _ _ hroom | published _ _ _ _ hroom => exact ⟨hpush _ hroom, rfl⟩
  | removed =>
    refine ⟨le_trans (Nat.sub_le_sub_right ?_ _) hcap, rfl⟩
    exact (List.eraseIdx_sublist _ _).length_le
  | drained _ _ heffect =>
    refine ⟨?_, heffect.capacity⟩
    rw [networkSocketCount, length_eq_of_tuples heffect.tuples, heffect.capacity]
    exact hcap
  | cleared =>
    refine ⟨?_, rfl⟩
    change (sweep resetEndpoint _ _).1.length - fixedEndpoints ≤ _
    rw [sweep_length]
    exact hcap
  | lost =>
    refine ⟨?_, rfl⟩
    change (s.endpoints.take 1 ++ (sweep resetNetworkEndpoint _ _).1).length - fixedEndpoints ≤ _
    rw [List.length_append, sweep_length, ← List.length_append, List.take_append_drop]
    exact hcap

/-! ## The network switch -/

lemma CallEffect.networkEnabled (he : CallEffect s op out s') :
    s'.networkEnabled = s.networkEnabled ∨ op = .disableNetwork ∧ s'.networkEnabled = false := by
  cases he with
  | refused | changed | admitted | published | released | removed | cleared => exact Or.inl rfl
  | rejected =>
    rw [reject]
    split <;> exact Or.inl rfl
  | drained _ _ heffect => exact Or.inl heffect.enabled
  | lost hop => exact Or.inr ⟨hop, rfl⟩

/-- An endpoint is live after a call because it was live before, or because the call's packet or
publication opened it while its ports were classified. -/
lemma EndpointStep.live {v v' : Option Endpoint} (hstep : EndpointStep s op out t v v')
    (he' : v' = some e') (hlive : e'.isLive = true) :
    (∃ e, v = some e ∧ e.isLive = true ∧ (op = .disableNetwork → t = agentTuple)) ∨
      (∃ role h bytes, op = .rx h bytes ∧ h.guestTuple = t ∧
        s.classify h.srcPort h.dstPort = some role) ∨
      s.networkEnabled = true ∧ op ≠ .disableNetwork := by
  subst he'
  cases hstep with
  | untouched hun =>
    refine Or.inl ⟨e', rfl, hlive, fun hop => ?_⟩
    subst hop
    rcases hun with hnone | hagent | ⟨e, hsome, hidle⟩
    · cases hnone
    · exact hagent
    · cases hsome
      rw [hlive] at hidle
      cases hidle
  | changed hc =>
    cases hc with
    | received hop htuple hrole => exact Or.inr (Or.inl ⟨_, _, _, hop, htuple, hrole⟩)
    | delivered hop hconn | shutdown hop hconn | creditRequested hop hconn | consumed hop hconn =>
      exact Or.inl ⟨_, rfl, Endpoint.isLive_of_connected hconn, fun heq => by cases hop ▸ heq⟩
    | reset =>
      rw [Endpoint.reset_isLive] at hlive
      cases hlive
  | admitted hop htuple hrole => exact Or.inr (Or.inl ⟨_, _, _, hop, htuple, hrole⟩)
  | published hop _ henabled => exact Or.inr (Or.inr ⟨henabled, fun heq => by cases hop ▸ heq⟩)
  | lost =>
    rw [Endpoint.reset_isLive] at hlive
    cases hlive
  | cleared =>
    rw [resetEndpoint_isLive] at hlive
    cases hlive
  | drained hop =>
    refine Or.inl ⟨_, rfl, hlive, fun heq => ?_⟩
    rcases hop with ⟨k, rfl⟩ | ⟨k, k', rfl⟩
    · cases heq
    · cases heq
  | released hop => exact Or.inl ⟨_, rfl, hlive, fun heq => by cases hop ▸ heq⟩

/-! ## The invariant -/

structure Invariant (s : VsockSwitch) : Prop where
  tuples : Tuples s
  valid : ∀ {t e}, s.view t = some e → e.Valid
  issued : Issued Endpoint.numbers s.endpoints s.nextConnectionNumber
  resets : ∀ r ∈ s.rejected, r.header.op = opRst
  resetBound : s.rejected.length ≤ maxRejectedResets
  flows : s.networkSocketCount ≤ s.networkSocketCapacity
  network : s.networkEnabled = false → ∀ {t e}, s.view t = some e → e.isLive = true →
    t = agentTuple

lemma Invariant.addressed (hi : Invariant s) : Addressed s := by
  refine ⟨?_, hi.resets⟩
  intro t e hv r hr
  rw [(hi.valid hv).bounded.addressed r hr]
  exact tuple_of_view hv

lemma Invariant.effect (hi : Invariant s) (hstep : s.step op = some (out, s')) :
    CallEffect s op out s' :=
  step_effect hi.tuples hi.addressed hstep

lemma Invariant.endpointStep (hi : Invariant s) (hstep : s.step op = some (out, s')) (t : Tuple) :
    EndpointStep s op out t (s.view t) (s'.view t) :=
  (hi.effect hstep).endpointStep hi.tuples hi.addressed t

lemma taken_eq_nil (hstep : s.step op = some (out, s')) (hop : op.takes = false) :
    out.taken = [] := by
  obtain ⟨rfl, -⟩ := apply_of_step hstep
  cases op with
  | takeReply k | takeRepliesUpTo k k' => cases hop
  | _ => rfl

lemma Invariant.takeEffect (hi : Invariant s) (hstep : s.step op = some (out, s'))
    (hop : op.takes = true) : TakeEffect s out.taken s' := by
  obtain ⟨rfl, rfl⟩ := apply_of_step hstep
  cases op with
  | takeReply k => exact takeReply_effect hi.tuples hi.addressed k
  | takeRepliesUpTo k k' => exact takeRepliesUpTo_effect hi.tuples hi.addressed k k'
  | _ => cases hop

lemma invariant_initial (enabled : Bool) (n : Nat) :
    Invariant (withNetworkSocketCapacity enabled n) := by
  have hagent : (Endpoint.new .agent agentPort agentPort 1).Valid :=
    ⟨Endpoint.sound_new 1 (by decide), nofun, nofun⟩
  have hcontrol : (Endpoint.new .control controlPort controlPort 2).Valid :=
    ⟨Endpoint.sound_new 2 (by decide), nofun, nofun⟩
  have hmem : ∀ {t e}, (withNetworkSocketCapacity enabled n).view t = some e → e.Valid ∧
      e.isLive = false := by
    intro t e hv
    have he : e ∈ [Endpoint.new .agent agentPort agentPort 1,
        Endpoint.new .control controlPort controlPort 2] := (mem_of_lookup hv).1
    simp only [List.mem_cons, List.not_mem_nil, or_false] at he
    rcases he with rfl | rfl
    · exact ⟨hagent, rfl⟩
    · exact ⟨hcontrol, rfl⟩
  refine ⟨⟨?_, [], rfl⟩, fun hv => (hmem hv).1, ⟨?_, ?_⟩, ?_, Nat.zero_le _, Nat.zero_le _, ?_⟩
  · change [agentTuple, controlTuple].Nodup
    decide
  · change [1, 2].Nodup
    decide
  · change ∀ m ∈ [1, 2], m < 3
    decide
  · intro r hr
    cases hr
  · intro _ t e hv hlive
    rw [(hmem hv).2] at hlive
    cases hlive

theorem Invariant.step (hi : Invariant s) (hstep : s.step op = some (out, s')) : Invariant s' := by
  have he := hi.effect hstep
  refine ⟨he.tuples hi.tuples, ?_, he.issued hi.valid hi.issued, ?_,
    he.rejected_length hi.resetBound, (he.flows hi.flows).1, ?_⟩
  · intro t e' hv'
    exact (hi.endpointStep hstep t).valid (fun e hv => ⟨hi.valid hv, tuple_of_view hv⟩) hv'
  · intro r hr
    rcases he.mem_rejected hr with hr | ⟨-, -, -, hop, -⟩
    · exact hi.resets r hr
    · exact hop
  · intro hoff t e' hv' hlive
    have hcases := (hi.endpointStep hstep t).live hv' hlive
    rcases he.networkEnabled with hsame | ⟨hop, -⟩
    · -- The network was off already: nothing but the agent's ports is classified.
      rw [hsame] at hoff
      rcases hcases with ⟨e, hv, hlive', -⟩ | ⟨role, h, bytes, -, htuple, hrole⟩ | ⟨hon, -⟩
      · exact hi.network hoff hv hlive'
      · rw [← htuple]
        exact eq_agentTuple_of_classify hoff hrole
      · rw [hoff] at hon
        cases hon
    · rcases hcases with ⟨-, -, -, hagent⟩ | ⟨role, h, bytes, hrx, -⟩ | ⟨-, hne⟩
      · exact hagent hop
      · rw [hop] at hrx
        cases hrx
      · exact absurd hop hne

lemma Invariant.classified (hi : Invariant s) (hv : s.view t = some e)
    (hlive : e.isLive = true) : s.classify t.guestPort t.hostPort = some e.role := by
  have hrole : classOf t = some e.role := tuple_of_view hv ▸ (hi.valid hv).role
  rw [← hrole]
  exact classify_eq_classOf fun hnet => hi.network hnet hv hlive

/-- Every run of a fresh switch stays within the invariant. -/
theorem Invariant.run {es : List SwitchEvent} (hi : Invariant s) (hrun : SwitchRun s es s') :
    Invariant s' :=
  hrun.invariant (fun hi hstep => hi.step hstep) hi

lemma capacity_run {es : List SwitchEvent} (hi : Invariant s) (hrun : SwitchRun s es s') :
    s'.networkSocketCapacity = s.networkSocketCapacity := by
  induction hrun with
  | nil => rfl
  | snoc hrun hstep ih =>
    have hi' := hi.run hrun
    exact ((hi'.effect hstep).flows hi'.flows).2.trans ih

/-! ## Resource bounds -/

/-- The bounds that keep a guest from growing host memory through one endpoint. -/
structure WithinBudget (e : Endpoint) : Prop where
  replyTotal : e.stream.replyBytes = (e.stream.replies.map fun r => r.payload.length).sum
  replyBytes : e.stream.replyBytes ≤ e.stream.maxTxBytes
  replyCount : e.stream.replies.length ≤ maxQueuedReplies
  upstream : e.stream.upstream.length ≤ e.stream.rxAlloc.toNat
  queued : ∀ c, e.stream.connection = some c →
    (c.rxReceived - c.rxFwdCnt).toNat = e.stream.upstream.length
  unacked : ∀ c, e.stream.connection = some c →
    (c.txFwdCnt - c.peerFwdCnt).toNat ≤ e.stream.maxTxBytes
  unannounced : ∀ c, e.stream.connection = some c →
    (c.rxFwdCnt - c.rxCreditUpdateFwdCnt).toNat ≤ e.stream.rxAlloc.toNat

/-- In every state a switch can reach, each endpoint stays within its queue and credit budgets,
flows stay within the capacity and rejected packets within their own bound. -/
theorem resources_bounded (enabled : Bool) (n : Nat) {es : List SwitchEvent}
    (hrun : SwitchRun (withNetworkSocketCapacity enabled n) es s) :
    (∀ e ∈ s.endpoints, WithinBudget e) ∧
      s.networkSocketCount ≤ min n maxNetworkSockets ∧
        s.rejected.length ≤ maxRejectedResets := by
  have hinit := invariant_initial enabled n
  have hi := hinit.run hrun
  refine ⟨?_, ?_, hi.resetBound⟩
  · intro e he
    have hb := (hi.valid (view_of_mem hi.tuples he)).bounded
    exact ⟨hb.replyBytes, hb.replyBound, hb.replyCount, hb.upstreamBound,
      fun c hc => (hb.credit c hc).queued, fun c hc => (hb.credit c hc).unacked,
      fun c hc => (hb.credit c hc).unannounced⟩
  · have hcap := capacity_run hinit hrun
    calc s.networkSocketCount ≤ s.networkSocketCapacity := hi.flows
      _ = min n maxNetworkSockets := hcap

theorem resources_bounded_flow :
    ∃ es s, SwitchRun oneFlow es s ∧
      (s.endpoints.map fun e => e.stream.upstream.length) = [0, 0, 3] ∧
        (∀ e ∈ s.endpoints, WithinBudget e) ∧
          s.networkSocketCount ≤ min 1 maxNetworkSockets ∧
            s.rejected.length ≤ maxRejectedResets := by
  obtain ⟨es, hrun⟩ := run_of_exec oneFlow
    [.rx (guestHeader ⟨49152, tcpPort⟩ opRequest 0 0 65536 0) [],
      .rx (guestHeader ⟨49152, tcpPort⟩ opRw 3 0 65536 0) [1, 2, 3]] rfl
  exact ⟨es, _, hrun, by decide, resources_bounded true 1 hrun⟩

end VsockSwitch

end Terrarium.Vsock
