import Terrarium.Vsock.StreamBounds
import Terrarium.Vsock.Switch

/-!
# SwitchView — the switch as a map from tuples to endpoints

The switch keeps its endpoints in a vector; what the vector means is a map from port tuples to
endpoints, `view`.  This file names the changes one endpoint can undergo and says what draining
replies does to the map.

* `Tuples` — the vector starts with the two fixed endpoints and no tuple occurs twice;
* `TakeEffect` — what handing out a batch of replies changes, and how batches compose.
-/

namespace Terrarium.Vsock

open KeyedList

/-! ## Endpoints by tuple -/

def agentTuple : Tuple := ⟨agentPort, agentPort⟩

def controlTuple : Tuple := ⟨controlPort, controlPort⟩

/-- The tuples of the two endpoints that are never removed. -/
def Tuple.isFixed (t : Tuple) : Prop :=
  t = agentTuple ∨ t = controlTuple

instance (t : Tuple) : Decidable t.isFixed := by
  unfold Tuple.isFixed
  infer_instance

namespace VsockSwitch

def view (s : VsockSwitch) (t : Tuple) : Option Endpoint :=
  lookup Endpoint.tuple s.endpoints t

def tuples (s : VsockSwitch) : List Tuple :=
  s.endpoints.map Endpoint.tuple

/-- The vector starts with the two fixed endpoints and no tuple occurs twice. -/
structure Tuples (s : VsockSwitch) : Prop where
  nodup : s.tuples.Nodup
  fixed : ∃ flows, s.tuples = agentTuple :: controlTuple :: flows

variable {s : VsockSwitch} {t t₀ : Tuple} {i : Nat} {e e' : Endpoint}

lemma view_of_endpointIndex (hi : s.endpointIndex t = some (i, e)) : s.view t = some e :=
    lookup_of_locate hi

lemma view_eq_none_of_endpointIndex (hi : s.endpointIndex t = none) : s.view t = none :=
    locate_eq_none_iff.1 hi

lemma endpointIndex_of_view (hv : s.view t = some e) : ∃ i, s.endpointIndex t = some (i, e) := by
  obtain ⟨⟨i, e'⟩, hi, rfl⟩ := Option.map_eq_some_iff.1 hv
  exact ⟨i, hi⟩

lemma tuple_of_view (hv : s.view t = some e) : e.tuple = t := (mem_of_lookup hv).2

lemma tuple_of_endpointIndex (hi : s.endpointIndex t = some (i, e)) : e.tuple = t :=
  tuple_of_view (view_of_endpointIndex hi)

lemma view_of_mem (hw : Tuples s) (he : e ∈ s.endpoints) : s.view e.tuple = some e :=
    lookup_of_mem hw.nodup he

lemma view_setEndpoint (hi : s.endpointIndex t₀ = some (i, e)) (he' : e'.tuple = t₀) (t : Tuple) :
    (s.setEndpoint i e').view t = if t = t₀ then some e' else s.view t :=
  lookup_set hi he' t

lemma fixed_iff_index (hw : Tuples s) (hi : s.endpointIndex t = some (i, e)) : t.isFixed ↔
    i < fixedEndpoints := by
  obtain ⟨flows, hfixed⟩ := hw.fixed
  obtain ⟨before, after, hsplit, rfl, rfl, -⟩ := locate_split hi
  have hnd := hw.nodup
  rw [tuples, hsplit, List.map_append, List.map_cons] at hfixed hnd
  match before with
  | [] =>
    simp only [List.map_nil, List.nil_append, List.cons.injEq] at hfixed
    simp [Tuple.isFixed, hfixed.1]
  | [b] =>
    simp only [List.map_cons, List.map_nil, List.cons_append, List.nil_append,
      List.cons.injEq] at hfixed
    simp [Tuple.isFixed, hfixed.2.1]
  | b₁ :: b₂ :: rest =>
    simp only [List.map_cons, List.cons_append, List.cons.injEq] at hfixed hnd
    obtain ⟨h₁, h₂, -⟩ := hfixed
    rw [h₁, h₂] at hnd
    have hne : e.tuple ≠ agentTuple ∧ e.tuple ≠ controlTuple := by
      simp only [List.nodup_cons, List.mem_cons, List.mem_append, not_or] at hnd
      exact ⟨fun heq => hnd.1.2.2.1 heq.symm, fun heq => hnd.2.1.2.1 heq.symm⟩
    constructor
    · intro hfix
      rcases hfix with hfix | hfix
      · exact absurd hfix hne.1
      · exact absurd hfix hne.2
    · intro hlt
      have hlt' : rest.length + 2 < 2 := hlt
      omega

end VsockSwitch

/-! ## Changes of one endpoint -/

namespace Endpoint

variable {e : Endpoint}

@[simp] lemma withStream_tuple (stream : StreamConnection) :
    (e.withStream stream).tuple = stream.tuple := rfl

@[simp] lemma withStream_isLive (stream : StreamConnection) :
    (e.withStream stream).isLive = stream.isLive := rfl

@[simp] lemma retire_tuple (n : Nat) : (e.retire n).tuple = e.tuple := by
  rw [retire]
  split <;> rfl

@[simp] lemma retire_isLive (n : Nat) : (e.retire n).isLive = false := by
  rfl

lemma retire_numbers (h : e.isLive = true ∨ e.retiring = none) (n : Nat) :
    (e.retire n).connectionNumber = n ∧ (e.retire n).retiring = some e.connectionNumber := by
  have hcond : (e.isLive || e.retiring.isNone) = true := by
    rcases h with h | h
    · simp [h]
    · simp [h]
  rw [retire]
  rw [if_pos hcond]
  exact ⟨rfl, rfl⟩

def numbers (e : Endpoint) : List Nat :=
  e.connectionNumber :: e.retiring.toList

/-- The endpoint after a guest packet; a connection that ended is retired under number `n`. -/
def receive (e : Endpoint) (h : VsockHeader) (bytes : List UInt8) (n : Nat) : Endpoint :=
  let e' := e.withStream (e.stream.rx h bytes)
  if e.isLive && !e'.isLive then e'.retire n else e'

/-- The endpoint after consuming input; a connection that ended is retired under number `n`. -/
def consume (e : Endpoint) (maxBytes n : Nat) : Endpoint :=
  let e' := e.withStream (e.stream.consumeUpstream maxBytes)
  if e'.stream.connection.isNone then e'.retire n else e'

lemma receive_ended {h : VsockHeader} {bytes : List UInt8}
    (hended : (e.isLive && !(e.stream.rx h bytes).isLive) = true) (n : Nat) :
    e.receive h bytes n = (e.withStream (e.stream.rx h bytes)).retire n :=
  if_pos hended

lemma receive_stays {h : VsockHeader} {bytes : List UInt8}
    (hstays : ¬ (e.isLive && !(e.stream.rx h bytes).isLive) = true) (n : Nat) :
    e.receive h bytes n = e.withStream (e.stream.rx h bytes) :=
  if_neg hstays

lemma consume_ended {maxBytes : Nat}
    (hended : (e.stream.consumeUpstream maxBytes).connection.isNone = true)
    (n : Nat) : e.consume maxBytes n =
    (e.withStream (e.stream.consumeUpstream maxBytes)).retire n :=
  if_pos hended

lemma consume_stays {maxBytes : Nat}
    (hstays : ¬ (e.stream.consumeUpstream maxBytes).connection.isNone = true)
    (n : Nat) : e.consume maxBytes n = e.withStream (e.stream.consumeUpstream maxBytes) :=
  if_neg hstays

def reset (e : Endpoint) (n : Nat) : Endpoint :=
  (e.withStream (e.stream.tryRst e.stream.guestPort e.stream.hostPort)).retire n

@[simp] lemma reset_isLive (n : Nat) : (e.reset n).isLive = false := retire_isLive n

lemma reset_numbers (hlive : e.isLive = true) (n : Nat) :
    (e.reset n).connectionNumber = n ∧ (e.reset n).retiring = some e.connectionNumber := by
  refine retire_numbers (Or.inl ?_) n
  rw [withStream_isLive, StreamConnection.tryRst_isLive]
  exact hlive

def admitted (role : Role) (h : VsockHeader) (n : Nat) : Endpoint :=
  let e := Endpoint.new role h.srcPort h.dstPort n
  e.withStream
    { e.stream with
      replies :=
        [{ connectionNumber := 0
           header := e.stream.creditHeader opResponse 0 0
           payload := [] }]
      connection := some (Connection.new h.bufAlloc) }

def published (hostPort : UInt32) (n : Nat) : Endpoint :=
  let e := Endpoint.new .publication publicationPort hostPort n
  e.withStream { e.stream with replies := [e.stream.requestReply], isConnecting := true }

/-- The endpoint without the replies `taken` from the front of its queue, `rest` remaining. -/
def drain (e : Endpoint) (taken rest : List Reply) : Endpoint :=
  e.withStream
    { e.stream with
      replies := rest
      replyBytes := e.stream.replyBytes - StreamConnection.payloadBytes taken }

def release (e : Endpoint) (n : Nat) : Endpoint :=
  { e with retiring := none, connectionNumber := n }

end Endpoint

/-! ## Replies by tuple -/

/-- A reply as it is handed out: marked with a connection number. -/
def Reply.stamped (r : Reply) (n : Nat) : Reply :=
  { r with connectionNumber := n }

def Outcome.taken : Outcome → List Reply
  | .replies rs => rs
  | _ => []

namespace VsockSwitch

variable {s s' : VsockSwitch} {t : Tuple}

/-- Queued replies name the tuple they are queued for; only resets are kept outside endpoints. -/
structure Addressed (s : VsockSwitch) : Prop where
  queued : ∀ {t e}, s.view t = some e → ∀ r ∈ e.stream.replies, r.header.replyTuple = t
  rejected : ∀ r ∈ s.rejected, r.header.op = opRst

/-- `s'` differs from `s` at most in its endpoints and its rotation. -/
structure SameBut (s s' : VsockSwitch) : Prop where
  number : s'.nextConnectionNumber = s.nextConnectionNumber
  enabled : s'.networkEnabled = s.networkEnabled
  capacity : s'.networkSocketCapacity = s.networkSocketCapacity
  rejected : s'.rejected = s.rejected

/-- `reply` is the head of some endpoint's queue, handed out under that endpoint's number. -/
inductive TakesHead (s s' : VsockSwitch) : Reply → Prop where
  | intro {i : Nat} {e : Endpoint} {r : Reply} {rest : List Reply} :
      s.endpointIndex e.tuple = some (i, e) → e.stream.replies = r :: rest →
        s'.endpoints = s.endpoints.set i (e.drain [r] rest) → SameBut s s' →
          TakesHead s s' (r.stamped e.connectionNumber)

variable {r : Reply} {maxBytes : Nat}

lemma takeReplyFrom_head (hw : Tuples s) {index : Nat}
    (htake : s.takeReplyFrom index maxBytes = some (r, s')) : TakesHead s s' r := by
  obtain ⟨e, he, htake⟩ := Option.bind_eq_some_iff.1 htake
  obtain ⟨⟨r', stream⟩, hstream, heq⟩ := Option.map_eq_some_iff.1 htake
  obtain ⟨rfl, rfl⟩ := heq
  obtain ⟨rest, hrep, -, rfl⟩ := StreamConnection.takeReply_eq_some.1 hstream
  refine TakesHead.intro (locate_of_getElem? hw.nodup he) hrep ?_ ⟨rfl, rfl, rfl, rfl⟩
  simp [setEndpoint, Endpoint.drain]

lemma TakesHead.rotate (hhead : TakesHead s s' r) {s'' : VsockSwitch}
    (hends : s''.endpoints = s'.endpoints) (hsame : SameBut s' s'') : TakesHead s s'' r := by
  cases hhead with
  | intro hi hrep hset hbut =>
    refine TakesHead.intro hi hrep (hends.trans hset) ?_
    exact ⟨hsame.number.trans hbut.number, hsame.enabled.trans hbut.enabled,
      hsame.capacity.trans hbut.capacity, hsame.rejected.trans hbut.rejected⟩

lemma takeFlowReply_head (hw : Tuples s) (htake : s.takeFlowReply maxBytes = some (r, s')) :
    TakesHead s s' r := by
  obtain ⟨offset, -, hfound⟩ := List.exists_of_findSome?_eq_some htake
  obtain ⟨⟨r', s₁⟩, hfrom, heq⟩ := Option.map_eq_some_iff.1 hfound
  obtain ⟨rfl, rfl⟩ := heq
  exact (takeReplyFrom_head hw hfrom).rotate rfl ⟨rfl, rfl, rfl, rfl⟩

lemma takeClassReply_head (hw : Tuples s)
    (htake : s.takeClassReply maxBytes = some (r, s')) : TakesHead s s' r := by
  obtain ⟨offset, -, hfound⟩ := List.exists_of_findSome?_eq_some htake
  obtain ⟨⟨r', s₁⟩, hfrom, heq⟩ := Option.map_eq_some_iff.1 hfound
  obtain ⟨rfl, rfl⟩ := heq
  have hhead : TakesHead s s₁ r' := by
    split at hfrom
    · exact takeReplyFrom_head hw hfrom
    · exact takeFlowReply_head hw hfrom
  exact hhead.rotate rfl ⟨rfl, rfl, rfl, rfl⟩

inductive TakeOutcome (s : VsockSwitch) : Option Reply × VsockSwitch → Prop where
  | nothing : TakeOutcome s (none, s)
  | rejected {r : Reply} {rest : List Reply} :
      s.rejected = r :: rest → TakeOutcome s (some r, { s with rejected := rest })
  | queued {s' : VsockSwitch} {r : Reply} : TakesHead s s' r → TakeOutcome s (some r, s')

lemma takeReply_outcome (hw : Tuples s) (maxBytes : Nat) :
    TakeOutcome s (s.takeReply maxBytes) := by
  rw [takeReply]
  cases hclass : s.takeClassReply maxBytes with
  | some r => exact TakeOutcome.queued (takeClassReply_head hw hclass)
  | none =>
    cases hrej : s.rejected with
    | nil => exact TakeOutcome.nothing
    | cons r rest => exact TakeOutcome.rejected hrej

/-! ## Several replies at once -/

/-- What handing out `rs` did to the endpoint of `t`. -/
structure Drained (s : VsockSwitch) (t : Tuple) (e : Endpoint) (taken rest : List Reply)
    (rs : List Reply) : Prop where
  queue : e.stream.replies = taken ++ rest
  others :
    (rs.filter fun r => r.header.replyTuple = t ∧ r.header.op ≠ opRst) =
      (taken.filter fun r => r.header.op ≠ opRst).map fun r => r.stamped e.connectionNumber
  resets :
    ∀ r ∈ rs, r.header.replyTuple = t →
      r ∈ taken.map (fun r => r.stamped e.connectionNumber) ∨ r ∈ s.rejected

/-- `s'` is `s` after the replies `rs` have been handed out. -/
structure TakeEffect (s : VsockSwitch) (rs : List Reply) (s' : VsockSwitch) : Prop where
  number : s'.nextConnectionNumber = s.nextConnectionNumber
  enabled : s'.networkEnabled = s.networkEnabled
  capacity : s'.networkSocketCapacity = s.networkSocketCapacity
  tuples : s'.tuples = s.tuples
  numbers : s'.endpoints.map Endpoint.numbers = s.endpoints.map Endpoint.numbers
  rejected : ∃ dropped, s.rejected = dropped ++ s'.rejected
  origin : ∀ r ∈ rs, s.view r.header.replyTuple = none → r ∈ s.rejected
  view : ∀ t, (s.view t = none ∧ s'.view t = none) ∨
    ∃ e taken rest, s.view t = some e ∧ s'.view t = some (e.drain taken rest) ∧
      Drained s t e taken rest rs

lemma drain_nil (e : Endpoint) : e.drain [] e.stream.replies = e := by
  simp [Endpoint.drain, Endpoint.withStream]

lemma drain_drain (e : Endpoint) (taken rest taken' rest' : List Reply) :
    (e.drain taken rest).drain taken' rest' = e.drain (taken ++ taken') rest' := by
  simp [Endpoint.drain, Endpoint.withStream, Nat.sub_sub]

lemma TakeEffect.refl (s : VsockSwitch) : TakeEffect s [] s := by
  refine ⟨rfl, rfl, rfl, rfl, rfl, ⟨[], rfl⟩, nofun, ?_⟩
  intro t
  cases hv : s.view t with
  | none => exact Or.inl ⟨rfl, rfl⟩
  | some e =>
    refine Or.inr ⟨e, [], e.stream.replies, rfl, by rw [drain_nil], rfl, rfl, ?_⟩
    intro r hr
    cases hr

lemma TakeEffect.trans {s₁ s₂ : VsockSwitch} {rs rs' : List Reply}
    (h₁ : TakeEffect s rs s₁) (h₂ : TakeEffect s₁ rs' s₂) : TakeEffect s (rs ++ rs') s₂ := by
  obtain ⟨dropped, hdropped⟩ := h₁.rejected
  obtain ⟨dropped', hdropped'⟩ := h₂.rejected
  refine ⟨h₂.number.trans h₁.number, h₂.enabled.trans h₁.enabled,
    h₂.capacity.trans h₁.capacity, h₂.tuples.trans h₁.tuples, h₂.numbers.trans h₁.numbers,
    ⟨dropped ++ dropped', by rw [hdropped, hdropped', List.append_assoc]⟩, ?_, ?_⟩
  · intro r hr hnone
    rcases List.mem_append.1 hr with hr | hr
    · exact h₁.origin r hr hnone
    · rw [hdropped]
      refine List.mem_append_right _ (h₂.origin r hr ?_)
      rcases h₁.view r.header.replyTuple with ⟨-, hv₁⟩ | ⟨e, -, -, hv, -⟩
      · exact hv₁
      · rw [hnone] at hv
        cases hv
  intro t
  rcases h₁.view t with ⟨hv, hv₁⟩ | ⟨e, taken, rest, hv, hv₁, hd⟩
  · rcases h₂.view t with ⟨-, hv₂⟩ | ⟨e', -, -, hv₁', -⟩
    · exact Or.inl ⟨hv, hv₂⟩
    · rw [hv₁] at hv₁'
      cases hv₁'
  · rcases h₂.view t with ⟨hv₁', -⟩ | ⟨e', taken', rest', hv₁', hv₂, hd'⟩
    · rw [hv₁] at hv₁'
      cases hv₁'
    · rw [hv₁, Option.some.injEq] at hv₁'
      subst hv₁'
      have hrest : rest = taken' ++ rest' := hd'.queue
      refine Or.inr ⟨e, taken ++ taken', rest', hv, ?_, ?_, ?_, ?_⟩
      · rw [hv₂, drain_drain]
      · rw [hd.queue, hrest, List.append_assoc]
      · rw [List.filter_append, hd.others, hd'.others, List.filter_append, List.map_append]
        rfl
      · intro r hr htuple
        rcases List.mem_append.1 hr with hr | hr
        · rcases hd.resets r hr htuple with hmem | hmem
          · exact Or.inl (by rw [List.map_append]; exact List.mem_append_left _ hmem)
          · exact Or.inr hmem
        · rcases hd'.resets r hr htuple with hmem | hmem
          · exact Or.inl (by rw [List.map_append]; exact List.mem_append_right _ hmem)
          · exact Or.inr (by rw [hdropped]; exact List.mem_append_right _ hmem)

lemma TakeEffect.wellFormed {rs : List Reply} (he : TakeEffect s rs s') (hw : Tuples s)
    (ha : Addressed s) : Tuples s' ∧ Addressed s' := by
  obtain ⟨dropped, hdropped⟩ := he.rejected
  refine ⟨⟨he.tuples ▸ hw.nodup, he.tuples ▸ hw.fixed⟩, ?_, ?_⟩
  · intro t e' hv' r hr
    rcases he.view t with ⟨-, hv⟩ | ⟨e, taken, rest, hv, hv₁, hd⟩
    · rw [hv] at hv'
      cases hv'
    · rw [hv₁, Option.some.injEq] at hv'
      subst hv'
      exact ha.queued hv r (by rw [hd.queue]; exact List.mem_append_right _ hr)
  · intro r hr
    exact ha.rejected r (by rw [hdropped]; exact List.mem_append_right _ hr)

lemma TakesHead.effect (ha : Addressed s) (hhead : TakesHead s s' r) : TakeEffect s [r] s' := by
  cases hhead with
  | @intro i e r rest hi hrep hset hbut =>
    have hkey : (e.drain [r] rest).tuple = e.tuple := rfl
    have hview : ∀ t, s'.view t = if t = e.tuple then some (e.drain [r] rest) else s.view t := by
      intro t
      rw [VsockSwitch.view, hset]
      exact lookup_set hi hkey t
    have haddr : r.header.replyTuple = e.tuple :=
      ha.queued (view_of_endpointIndex hi) r (by rw [hrep]; exact List.mem_cons_self)
    refine ⟨hbut.number, hbut.enabled, hbut.capacity, ?_, ?_,
      ⟨[], by rw [hbut.rejected]; rfl⟩, ?_, ?_⟩
    · rw [VsockSwitch.tuples, hset]
      exact map_key_set hi hkey
    · rw [hset]
      exact map_set_of_eq hi rfl
    · intro r' hr' hnone
      rw [List.mem_singleton.1 hr'] at hnone
      change s.view r.header.replyTuple = none at hnone
      rw [haddr, view_of_endpointIndex hi] at hnone
      cases hnone
    · intro t
      by_cases ht : t = e.tuple
      · subst ht
        refine Or.inr ⟨e, [r], rest, view_of_endpointIndex hi, ?_, by rw [hrep]; rfl, ?_, ?_⟩
        · rw [hview, if_pos rfl]
        · by_cases hop : r.header.op = opRst
          · simp [Reply.stamped, hop]
          · simp [Reply.stamped, hop, haddr]
        · intro r' hr' _
          exact Or.inl (by simpa using hr')
      · have hother : (r.stamped e.connectionNumber).header.replyTuple ≠ t := by
          change r.header.replyTuple ≠ t
          rw [haddr]
          exact fun heq => ht heq.symm
        have hsame : s'.view t = s.view t := by rw [hview, if_neg ht]
        cases hv : s.view t with
        | none => exact Or.inl ⟨rfl, by rw [hsame, hv]⟩
        | some e' =>
          refine Or.inr ⟨e', [], e'.stream.replies, rfl, by rw [hsame, hv, drain_nil], rfl, ?_, ?_⟩
          · simp [hother]
          · intro r' hr' htuple
            rw [List.mem_singleton.1 hr'] at htuple
            exact absurd htuple hother

lemma takeReply_effect (hw : Tuples s) (ha : Addressed s) (maxBytes : Nat) :
    TakeEffect s (s.takeReply maxBytes).1.toList (s.takeReply maxBytes).2 := by
  have hout := takeReply_outcome hw maxBytes
  generalize s.takeReply maxBytes = r at hout ⊢
  cases hout with
  | nothing => exact TakeEffect.refl s
  | @rejected r rest hrej =>
    -- Only a reset leaves, and it leaves every endpoint alone.
    have hop : r.header.op = opRst := ha.rejected r (by rw [hrej]; exact List.mem_cons_self)
    refine ⟨rfl, rfl, rfl, rfl, rfl, ⟨[r], hrej⟩, ?_, ?_⟩
    · intro r' hr' _
      rw [List.mem_singleton.1 hr', hrej]
      exact List.mem_cons_self
    intro t
    cases hv : s.view t with
    | none => exact Or.inl ⟨rfl, hv⟩
    | some e =>
      refine Or.inr ⟨e, [], e.stream.replies, rfl, by rw [drain_nil]; exact hv, rfl, ?_, ?_⟩
      · simp [hop]
      · intro r' hr' _
        refine Or.inr ?_
        rw [hrej, List.mem_singleton.1 hr']
        exact List.mem_cons_self
  | queued hhead => exact hhead.effect ha

lemma takeRepliesUpTo_effect (hw : Tuples s) (ha : Addressed s) (maxItems remaining : Nat) :
    TakeEffect s (s.takeRepliesUpTo maxItems remaining).1
      (s.takeRepliesUpTo maxItems remaining).2 := by
  induction maxItems generalizing s remaining with
  | zero => exact TakeEffect.refl s
  | succ maxItems ih =>
    have hone := takeReply_effect hw ha remaining
    rw [takeRepliesUpTo]
    rcases hr : s.takeReply remaining with ⟨o, s₁⟩
    rw [hr] at hone
    cases o with
    | none => exact hone
    | some reply =>
      obtain ⟨hw₁, ha₁⟩ := hone.wellFormed hw ha
      exact hone.trans (ih hw₁ ha₁ _)

end VsockSwitch

end Terrarium.Vsock
