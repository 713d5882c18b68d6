import Terrarium.Fs.IoScheduler

/-!
# IoSchedule — every sequence of calls on the scheduler

The work of the operation that call `n` enqueues is called `n`, so that operations can be told
apart.  A poll is given the position of the active operation whose work it finds finished, if any.

* `exists_started` — an operation that is not discarded starts, however the others are scheduled.
-/

namespace Terrarium.Fs
namespace IoScheduler

open Dispatch (Conflict Event Step Steps arrivals starts finishes discards)

inductive Call where
  | enqueue (identity : Option Identity) (reply : PendingReply)
  | discardPending
  | pollComplete (ready : Option (Nat × Except Errno Bytes))

def Call.isPoll : Call → Prop
  | .pollComplete _ => True
  | _ => False

def step (n : Nat) (s : IoScheduler Nat) : Call → IoScheduler Nat
  | .enqueue identity reply =>
      match s.enqueue (⟨identity, n⟩, reply) with
      | .ok s => s
      | .error _ => s
  | .discardPending => s.discardPending
  | .pollComplete ready => (s.pollComplete ready).2

section Calls

variable (calls : Nat → Call)

def run : Nat → IoScheduler Nat
  | 0 => new
  | n + 1 => step n (run n) (calls n)

def enqueuedAt (n : Nat) : List (Operation Nat) :=
  match calls n with
  | .enqueue identity reply =>
      match (run calls n).enqueue (⟨identity, n⟩, reply) with
      | .ok _ => [(⟨identity, n⟩, reply)]
      | .error _ => []
  | _ => []

def startedAt (n : Nat) : List (Operation Nat) :=
  match calls n with
  | .pollComplete _ => (run calls n).startReady.active.drop (run calls n).active.length
  | _ => []

/-- The active operation that call `n` returned with its result. -/
def returnedAt (n : Nat) : List (Operation Nat) :=
  match calls n with
  | .pollComplete (some (index, result)) =>
      ((run calls n).startReady.active[index]?).toList.filter fun operation =>
        ((run calls n).pollComplete (some (index, result))).1 =
          some ⟨operation.1.identity, operation.2, result⟩
  | _ => []

def enqueued (n : Nat) : List (Operation Nat) := (List.range n).flatMap (enqueuedAt calls)

def started (n : Nat) : List (Operation Nat) := (List.range n).flatMap (startedAt calls)

def returned (n : Nat) : List (Operation Nat) := (List.range n).flatMap (returnedAt calls)

lemma enqueued_succ (n : Nat) :
    enqueued calls (n + 1) = enqueued calls n ++ enqueuedAt calls n := by
  simp [enqueued, List.range_succ]

lemma started_succ (n : Nat) : started calls (n + 1) = started calls n ++ startedAt calls n := by
  simp [started, List.range_succ]

lemma returned_succ (n : Nat) :
    returned calls (n + 1) = returned calls n ++ returnedAt calls n := by
  simp [returned, List.range_succ]

end Calls

variable {calls : Nat → Call} {n m : Nat} {operation other : Operation Nat}

/-! ## One call -/

lemma enqueue_cases (s : IoScheduler Nat) (operation : Operation Nat) :
    (s.pending.length + s.active.length = maxPendingIo ∧ s.enqueue operation = .error ebusy) ∨
      (s.pending.length + s.active.length ≠ maxPendingIo ∧
        s.enqueue operation = .ok { s with pending := s.pending ++ [operation] }) := by
  unfold enqueue
  by_cases hfull : s.pending.length + s.active.length = maxPendingIo
  · exact Or.inl ⟨hfull, if_pos hfull⟩
  · exact Or.inr ⟨hfull, if_neg hfull⟩

lemma pollComplete_cases (s : IoScheduler Nat) (ready : Option (Nat × Except Errno Bytes)) :
    s.pollComplete ready = (none, s.startReady) ∧
        (∀ index result, ready = some (index, result) → s.startReady.active[index]? = none) ∨
      ∃ index result operation, ready = some (index, result) ∧
        s.startReady.active[index]? = some operation ∧ s.pollComplete ready =
          (some ⟨operation.1.identity, operation.2, result⟩,
            s.startReady.finish index operation) := by
  unfold pollComplete
  cases ready with
  | none => exact Or.inl ⟨rfl, nofun⟩
  | some ready =>
    obtain ⟨index, result⟩ := ready
    cases hactive : s.startReady.active[index]? with
    | none =>
      refine Or.inl ⟨by simp only [hactive], ?_⟩
      rintro _ _ ⟨⟩
      exact hactive
    | some operation =>
      exact Or.inr ⟨index, result, operation, rfl, hactive, by simp only [hactive]⟩

lemma returnedAt_eq {index : Nat} {result : Except Errno Bytes}
    (hcall : calls n = .pollComplete (some (index, result))) :
    returnedAt calls n = ((run calls n).startReady.active[index]?).toList := by
  simp only [returnedAt, hcall]
  cases hget : (run calls n).startReady.active[index]? with
  | none => rfl
  | some operation => simp [pollComplete, hget]

lemma exists_steps (calls : Nat → Call) (n : Nat) :
    (run calls n).Described ∧ ∃ events, Steps file room events (run calls n).queue ∧
      arrivals events = enqueued calls n ∧ starts events = started calls n ∧
      finishes events = returned calls n := by
  induction n with
  | zero => exact ⟨described_new, [], Steps.nil, rfl, rfl, rfl⟩
  | succ n ih =>
    obtain ⟨hdescribed, events, hsteps, harrivals, hstarts, hfinishes⟩ := ih
    rw [enqueued_succ, started_succ, returned_succ, run]
    cases hcall : calls n with
    | enqueue identity reply =>
      simp only [step, enqueuedAt, startedAt, returnedAt, hcall, List.append_nil]
      rcases enqueue_cases (run calls n) (⟨identity, n⟩, reply) with ⟨-, hrefused⟩ | ⟨-, haccepted⟩
      · simp only [hrefused, List.append_nil]
        exact ⟨hdescribed, events, hsteps, harrivals, hstarts, hfinishes⟩
      · simp only [haccepted]
        exact ⟨{ hdescribed with }, _,
          hsteps.snoc (Step.arrive _), by simp [Event.arrived, harrivals],
          by simp [Event.started, hstarts], by simp [Event.finished, hfinishes]⟩
    | discardPending =>
      simp only [step, enqueuedAt, startedAt, returnedAt, hcall, List.append_nil]
      exact ⟨{ hdescribed with }, _, hsteps.snoc Step.discard, by simp [Event.arrived, harrivals],
        by simp [Event.started, hstarts], by simp [Event.finished, hfinishes]⟩
    | pollComplete ready =>
      obtain ⟨operations, hactive, hstarted⟩ := steps_startMany maxActiveIo hdescribed hsteps
      change (run calls n).startReady.active = _ at hactive
      have hstartedAt : startedAt calls n = operations := by
        simp only [startedAt, hcall, hactive, List.drop_left]
      simp only [step, enqueuedAt, hcall, hstartedAt, List.append_nil]
      rcases pollComplete_cases (run calls n) ready with
        ⟨hpoll, hnone⟩ | ⟨index, result, operation, rfl, hget, hpoll⟩
      · have hreturned : returnedAt calls n = [] := by
          cases ready with
          | none => simp only [returnedAt, hcall]
          | some ready => rw [returnedAt_eq hcall, hnone ready.1 ready.2 rfl, Option.toList_none]
        rw [hpoll, hreturned]
        exact ⟨hdescribed.startReady, _,
          hstarted, by simp [harrivals], by simp [hstarts], by simp [hfinishes]⟩
      · have hreturned : returnedAt calls n = [operation] := by
          rw [returnedAt_eq hcall, hget, Option.toList_some]
        rw [hpoll, hreturned]
        exact ⟨hdescribed.startReady.finish hget, _, hstarted.snoc (step_finish hget),
          by simp [-List.append_assoc, Event.arrived, harrivals], by
            simp [-List.append_assoc, Event.started, hstarts],
          by simp [-List.append_assoc, Event.finished, hfinishes]⟩

/-! ## Bounds -/

lemma length_active_le (calls : Nat → Call) (n : Nat) :
    (run calls n).active.length ≤ maxActiveIo := by
  obtain ⟨-, events, hsteps, -⟩ := exists_steps calls n
  have hbound := hsteps.bounded (fun _ => true) maxActiveIo fun active _ hroom _ => by
    rw [List.countP_true]
    exact hroom
  rw [List.countP_true] at hbound
  exact hbound

lemma length_le (calls : Nat → Call) (n : Nat) :
    (run calls n).pending.length + (run calls n).active.length ≤ maxPendingIo := by
  induction n with
  | zero => exact Nat.zero_le _
  | succ n ih =>
    rw [run]
    cases calls n with
    | enqueue identity reply =>
      simp only [step]
      rcases enqueue_cases (run calls n) (⟨identity, n⟩, reply) with ⟨-, hrefused⟩
        | ⟨hroom, haccepted⟩
      · rw [hrefused]
        exact ih
      · rw [haccepted]
        simp only [List.length_append, List.length_singleton]
        omega
    | discardPending => exact le_trans (Nat.add_le_add_right (Nat.zero_le _) _) ih
    | pollComplete ready =>
      simp only [step]
      rw [← length_startReady] at ih
      rcases pollComplete_cases (run calls n) ready with
        ⟨hpoll, -⟩ | ⟨index, result, operation, -, hget, hpoll⟩
      · rw [hpoll]
        exact ih
      · rw [hpoll]
        exact le_trans (Nat.add_le_add_left (List.length_eraseIdx_le _ _) _) ih

/-! ## An operation that waits -/

variable {s : IoScheduler Nat}

variable {before after : List (Operation Nat)}

/-- A start takes an operation that waits, or one before it, or one behind it. -/
lemma start_waiting {index : Nat} (hpending : s.pending = before ++ operation :: after)
    (hnext : s.nextStart = some (index, other)) :
    operation ∈ (s.start index other).active ∨
      ∃ before' after', (s.start index other).pending = before' ++ operation :: after' ∧
        (before'.length < before.length ∨ before'.length = before.length ∧
          before.length < index) := by
  obtain ⟨-, -, front, back, hsplit, hlength, herase, -⟩ := nextStart_eq_some hnext
  subst hlength
  rcases Nat.lt_trichotomy front.length before.length with hlt | heq | hgt
  · refine Or.inr ⟨before.eraseIdx front.length, after, ?_, ?_⟩
    · simp only [start, hpending]
      exact List.eraseIdx_append_of_lt_length hlt _
    · rw [List.length_eraseIdx_of_lt hlt]
      omega
  · left
    have hsame := (List.append_inj (hsplit.symm.trans hpending) heq).2
    simp only [start, List.mem_append, List.mem_singleton]
    exact Or.inr (List.cons.inj hsame).1.symm
  · refine Or.inr ⟨before, after.eraseIdx (front.length - before.length - 1), ?_, Or.inr ⟨rfl, hgt⟩⟩
    simp only [start, hpending]
    rw [List.eraseIdx_append_of_length_le hgt.le]
    obtain ⟨position, hposition⟩ : ∃ position, front.length - before.length = position + 1 :=
      ⟨front.length - before.length - 1, by omega⟩
    rw [hposition, List.eraseIdx_cons_succ, Nat.add_sub_cancel]

lemma startMany_waiting (fuel : Nat) (hpending : s.pending = before ++ operation :: after) :
    operation ∈ (startMany fuel s).active ∨
      ∃ before' after', (startMany fuel s).pending = before' ++ operation :: after' ∧
        before'.length ≤ before.length := by
  refine startMany_rule (P := fun t => operation ∈ t.active ∨ ∃ before' after',
    t.pending = before' ++ operation :: after' ∧ before'.length ≤ before.length) fuel
    (fun t index other ht hnext => ?_) (Or.inr ⟨before, after, hpending, le_rfl⟩)
  rcases ht with hactive | ⟨before', after', hpending', hle⟩
  · exact Or.inl (List.mem_append_left _ hactive)
  · rcases start_waiting hpending' hnext with hactive | ⟨before'', after'', hpending'', hle'⟩
    · exact Or.inl hactive
    · exact Or.inr ⟨before'', after'', hpending'', by omega⟩

lemma startReady_eq (s : IoScheduler Nat) : s.startReady = match s.nextStart with
      | none => s
      | some (index, other) => startMany 31 (s.start index other) := by
  change startMany (31 + 1) s = _
  rw [startMany]
  cases s.nextStart with
  | none | some next => rfl

/-- With room, an operation whose file is free starts, or one before it does. -/
lemma startReady_waiting (hpending : s.pending = before ++ operation :: after)
    (hstart : s.startable operation = true) (hroom : s.active.length < maxActiveIo) :
    operation ∈ s.startReady.active ∨
    ∃ before' after', s.startReady.pending = before' ++ operation :: after' ∧
        before'.length < before.length := by
  rw [startReady_eq]
  cases hnext : s.nextStart with
  | none =>
    rcases nextStart_eq_none hnext with hfull | hblocked
    · exact absurd hroom (Nat.not_lt.2 hfull)
    · have hfalse := hblocked operation (by simp [hpending])
      cases hstart.symm.trans hfalse
  | some next =>
    obtain ⟨index, other⟩ := next
    rcases start_waiting hpending hnext with hactive
      | ⟨before', after', hpending', hless | ⟨-, hgt⟩⟩
    · refine Or.inl (startMany_rule (P := fun t => operation ∈ t.active) 31 ?_ hactive)
      exact fun t _ _ ht _ => List.mem_append_left _ ht
    · rcases startMany_waiting 31 hpending' with hactive | ⟨before'', after'', hpending'', hle⟩
      · exact Or.inl hactive
      · exact Or.inr ⟨before'', after'', hpending'', hle.trans_lt hless⟩
    · -- the first operation that can start is not behind this one
      obtain ⟨-, -, front, back, hsplit, hlength, -, hfront⟩ := nextStart_eq_some hnext
      have hmem : operation ∈ front := by
        have hget : s.pending[before.length]? = some operation := by
          rw [hpending, List.getElem?_append_right le_rfl, Nat.sub_self]
          rfl
        rw [hsplit, List.getElem?_append_left (hlength ▸ hgt)] at hget
        exact List.mem_of_getElem? hget
      cases hstart.symm.trans (hfront operation hmem)

lemma startReady_of_full (h : maxActiveIo ≤ s.active.length) : s.startReady = s := by
  have hnext : s.nextStart = none := by
    unfold nextStart
    rw [if_neg (Nat.not_lt.2 h)]
  rw [startReady_eq, hnext]

/-! ## Every operation has its turn -/

/-- Polling goes on, and the work of every active operation finishes. -/
structure Fair (calls : Nat → Call) : Prop where
  polls : ∀ n, ∃ m, n ≤ m ∧ (calls m).isPoll
  finishes : ∀ n, ∀ operation ∈ (run calls n).active, ∃ m, n ≤ m ∧ operation ∈ returnedAt calls m

/-- The operation is not pending when the pending operations are discarded. -/
def Kept (calls : Nat → Call) (n : Nat) (operation : Operation Nat) : Prop :=
  ∀ m, n ≤ m → calls m = .discardPending → operation ∉ (run calls m).pending

lemma mem_returnedAt (h : operation ∈ returnedAt calls m) :
    ∃ index result, calls m = .pollComplete (some (index, result)) ∧
      (run calls m).startReady.active[index]? = some operation ∧
      run calls (m + 1) = (run calls m).startReady.finish index operation := by
  unfold returnedAt at h
  split at h
  next index result hcall =>
    have hget := Option.mem_toList.1 (List.mem_filter.1 h).1
    refine ⟨index, result, hcall, hget, ?_⟩
    simp only [run, step, hcall, pollComplete, hget]
  · cases h

lemma not_conflict_finish {index : Nat} (h : s.Described)
    (hget : s.active[index]? = some operation) :
    ∀ other ∈ (s.finish index operation).active, ¬ Conflict file operation other := by
  obtain ⟨before, after, hsplit, -, herase⟩ := Dispatch.split_at hget
  have hothers := h.exclusive
  rw [hsplit, List.pairwise_middle fun hconflict => mt Conflict.symm hconflict,
    List.pairwise_cons] at hothers
  simpa only [finish, herase] using hothers.1

lemma exists_ready (hpoll : (calls m).isPoll) : ∃ ready, calls m = .pollComplete ready := by
  cases hcall : calls m with
  | enqueue identity reply | discardPending =>
    rw [hcall] at hpoll
    exact hpoll.elim
  | pollComplete ready => exact ⟨ready, rfl⟩

lemma pending_poll (hpoll : (calls m).isPoll) :
    (run calls (m + 1)).pending = (run calls m).startReady.pending := by
  obtain ⟨ready, hcall⟩ := exists_ready hpoll
  simp only [run, hcall, step]
  rcases pollComplete_cases (run calls m) ready with ⟨hresult, -⟩
    | ⟨index, result, other, -, -, hresult⟩
  · rw [hresult]
  · rw [hresult]
    rfl

lemma waiting_succ (hpending : (run calls m).pending = before ++ operation :: after)
    (hkept : calls m = .discardPending → operation ∉ (run calls m).pending) :
    (calls m).isPoll ∧ operation ∈ (run calls m).startReady.active ∨
      ∃ before' after', (run calls (m + 1)).pending = before' ++ operation :: after' ∧
        before'.length ≤ before.length := by
  cases hcall : calls m with
  | enqueue identity reply =>
    simp only [run, hcall, step]
    rcases enqueue_cases (run calls m) (⟨identity, m⟩, reply) with ⟨-, hrefused⟩ | ⟨-, haccepted⟩
    · rw [hrefused]
      exact Or.inr ⟨before, after, hpending, le_rfl⟩
    · rw [haccepted]
      refine Or.inr ⟨before, after ++ [(⟨identity, m⟩, reply)], ?_, le_rfl⟩
      simp [hpending]
  | discardPending => exact absurd (by simp [hpending]) (hkept hcall)
  | pollComplete ready =>
    rcases startMany_waiting maxActiveIo hpending with hactive | ⟨before', after', hpending', hle⟩
    · exact Or.inl ⟨trivial, hactive⟩
    · refine Or.inr ⟨before', after', ?_, hle⟩
      rw [pending_poll (by rw [hcall]; trivial)]
      exact hpending'

lemma active_succ (hfull : (calls m).isPoll → maxActiveIo ≤ (run calls m).active.length) :
    (run calls (m + 1)).active.Sublist (run calls m).active := by
  rw [run]
  cases hcall : calls m with
  | enqueue identity reply =>
    simp only [step]
    rcases enqueue_cases (run calls m) (⟨identity, m⟩, reply) with ⟨-, hrefused⟩ | ⟨-, haccepted⟩
    · rw [hrefused]
    · rw [haccepted]
  | discardPending => exact List.Sublist.refl _
  | pollComplete ready =>
    have hsame := startReady_of_full (hfull (by rw [hcall]; trivial))
    simp only [step]
    rcases pollComplete_cases (run calls m) ready with ⟨hpoll, -⟩
      | ⟨index, result, other, -, -, hpoll⟩
    · rw [hpoll, hsame]
    · rw [hpoll, hsame]
      exact List.eraseIdx_sublist _ _

/-- From call `n` on the operation is never started, and `ahead` operations stay before it. -/
structure Stuck (calls : Nat → Call) (n : Nat) (operation : Operation Nat)
    (ahead : Nat) : Prop where
  never : ∀ m, n ≤ m → (calls m).isPoll → operation ∉ (run calls m).startReady.active
  least : ∀ m before after, n ≤ m →
    (run calls m).pending = before ++ operation :: after → ahead ≤ before.length
  stays : ∀ m, n ≤ m → ∃ before after, (run calls m).pending = before ++ operation :: after ∧
    before.length = ahead

namespace Stuck

variable {ahead : Nat}

lemma described (calls : Nat → Call) (m : Nat) : (run calls m).Described := (exists_steps calls m).1

lemma full (h : Stuck calls n operation ahead) (hm : n ≤ m)
    (hstart : (run calls m).startable operation = true)
    (hpoll : (calls m).isPoll) : maxActiveIo ≤ (run calls m).active.length := by
  by_contra hroom
  obtain ⟨before, after, hpending, hlength⟩ := h.stays m hm
  rcases startReady_waiting hpending hstart (Nat.lt_of_not_le hroom) with
    hactive | ⟨before', after', hpending', hless⟩
  · exact h.never m hm hpoll hactive
  · rw [← pending_poll hpoll] at hpending'
    have hge := h.least (m + 1) before' after' (hm.trans (Nat.le_succ m)) hpending'
    exact absurd hless (Nat.not_lt.2 (hlength ▸ hge))

lemma exists_free (hfair : Fair calls) (n : Nat) (operation : Operation Nat) :
    ∃ m, n ≤ m ∧ (run calls m).startable operation = true := by
  by_cases hstart : (run calls n).startable operation = true
  · exact ⟨n, le_rfl, hstart⟩
  · rw [(described calls n).startable_iff] at hstart
    obtain ⟨other, hstart⟩ := not_forall.1 hstart
    obtain ⟨hother, hconflict⟩ := Classical.not_imp.1 hstart
    obtain ⟨identity, hidentity, hoperation⟩ := not_not.1 hconflict
    obtain ⟨m, hm, hreturned⟩ := hfair.finishes n other hother
    obtain ⟨index, result, -, hget, hrun⟩ := mem_returnedAt hreturned
    refine ⟨m + 1, hm.trans (Nat.le_succ m), ?_⟩
    rw [(described calls (m + 1)).startable_iff, hrun]
    rintro active hactive ⟨identity', hactive', hoperation'⟩
    cases hoperation.symm.trans hoperation'
    exact not_conflict_finish (described calls m).startReady hget active hactive
      ⟨identity, hidentity, hactive'⟩

lemma stays_free {first : Nat} (h : Stuck calls n operation ahead) (hfirst : n ≤ first)
    (hstart : (run calls first).startable operation = true) (hm : first ≤ m) :
    (run calls m).startable operation = true := by
  induction m, hm using Nat.le_induction with
  | base => exact hstart
  | succ m hm ih =>
    have hsub := active_succ fun hpoll => h.full (hfirst.trans hm) ih hpoll
    rw [(described _ _).startable_iff] at ih ⊢
    exact fun other hother => ih other (hsub.subset hother)

/-- An operation is not stuck: another one finishes, which leaves room for the next poll. -/
lemma false (hfair : Fair calls) (h : Stuck calls n operation ahead) : False := by
  obtain ⟨first, hfirst, hstart⟩ := exists_free hfair n operation
  have hfull : ∀ m, first ≤ m → (calls m).isPoll → maxActiveIo ≤ (run calls m).active.length :=
    fun m hm hpoll => h.full (hfirst.trans hm) (h.stays_free hfirst hstart hm) hpoll
  obtain ⟨poll, hpoll, hisPoll⟩ := hfair.polls first
  have hnonempty : (run calls poll).active ≠ [] := by
    intro hnil
    have hlength := hfull poll hpoll hisPoll
    rw [hnil] at hlength
    exact absurd hlength (by decide)
  obtain ⟨other, hother⟩ := List.exists_mem_of_ne_nil _ hnonempty
  obtain ⟨last, hlast, hreturned⟩ := hfair.finishes poll other hother
  obtain ⟨index, result, hcall, hget, hrun⟩ := mem_returnedAt hreturned
  have hroom : ∀ m, last + 1 ≤ m → (run calls m).active.length < maxActiveIo := by
    intro m hm
    induction m, hm using Nat.le_induction with
    | base =>
      have hle := length_active_le calls last
      rw [startReady_of_full (hfull last (hpoll.trans hlast) (by rw [hcall]; trivial))] at hget hrun
      obtain ⟨hlt, -⟩ := List.getElem?_eq_some_iff.1 hget
      rw [hrun]
      simp only [finish, List.length_eraseIdx_of_lt hlt]
      omega
    | succ m hm ih =>
      exact lt_of_le_of_lt (active_succ (hfull m (by omega))).length_le ih
  obtain ⟨next, hnext, hisPoll'⟩ := hfair.polls (last + 1)
  exact absurd (hroom next hnext) (Nat.not_lt.2 (hfull next (by omega) hisPoll'))

end Stuck

/-- An operation that is not discarded starts. -/
theorem exists_started (hfair : Fair calls) (hkept : Kept calls n operation)
    (hpending : operation ∈ (run calls n).pending) :
    ∃ m, n ≤ m ∧ (calls m).isPoll ∧ operation ∈ (run calls m).startReady.active := by
  obtain ⟨before, after, hsplit⟩ := List.append_of_mem hpending
  clear hpending
  -- induction on the number of operations before it
  induction hahead : before.length using Nat.strong_induction_on generalizing n before after with
  | _ ahead ih =>
    by_contra hnever
    have hleast : ∀ m before' after', n ≤ m →
        (run calls m).pending = before' ++ operation :: after' → ahead ≤ before'.length := by
      intro m before' after' hm hpending
      by_contra hless
      obtain ⟨m', hm', hstarted⟩ := ih before'.length (Nat.lt_of_not_le hless)
        (fun m' hm' => hkept m' (hm.trans hm')) before' after' hpending rfl
      exact hnever ⟨m', hm.trans hm', hstarted⟩
    refine Stuck.false hfair ⟨fun m hm hpoll hactive => hnever ⟨m, hm, hpoll, hactive⟩, hleast, ?_⟩
    intro m hm
    induction m, hm using Nat.le_induction with
    | base => exact ⟨before, after, hsplit, hahead⟩
    | succ m hm ihm =>
      obtain ⟨before', after', hpending, hlength⟩ := ihm
      rcases waiting_succ hpending (hkept m hm) with hstarted | ⟨before'', after'', hpending', hle⟩
      · exact absurd ⟨m, hm, hstarted⟩ hnever
      · have hge := hleast (m + 1) before'' after'' (hm.trans (Nat.le_succ m)) hpending'
        exact ⟨before'', after'', hpending', le_antisymm (hlength ▸ hle) hge⟩

lemma exists_returned (hfair : Fair calls) (hkept : Kept calls n operation)
    (hpending : operation ∈ (run calls n).pending) : ∃ m, operation ∈ returnedAt calls m := by
  obtain ⟨m, -, hpoll, hactive⟩ := exists_started hfair hkept hpending
  -- it is active after the poll that started it, or that poll returned it
  by_cases hreturned : operation ∈ returnedAt calls m
  · exact ⟨m, hreturned⟩
  · have hactive' : operation ∈ (run calls (m + 1)).active := by
      obtain ⟨ready, hcall⟩ := exists_ready hpoll
      simp only [run, hcall, step]
      rcases pollComplete_cases (run calls m) ready with ⟨hresult, -⟩
        | ⟨index, result, other, rfl, hget, hresult⟩
      · rw [hresult]
        exact hactive
      · rw [hresult]
        obtain ⟨before, after, hsplit, -, herase⟩ := Dispatch.split_at hget
        have hother : operation ≠ other := by
          rintro rfl
          exact hreturned (by simp [returnedAt_eq hcall, hget])
        simp only [finish, herase]
        rw [hsplit] at hactive
        simpa [hother] using hactive
    obtain ⟨m', -, hreturned'⟩ := hfair.finishes (m + 1) operation hactive'
    exact ⟨m', hreturned'⟩

/-! ## At most once -/

lemma work_of_mem_enqueuedAt (h : operation ∈ enqueuedAt calls n) : operation.1.work = n := by
  unfold enqueuedAt at h
  split at h
  · split at h
    · rw [List.mem_singleton.1 h]
    · cases h
  · cases h

lemma nodup_enqueued (calls : Nat → Call) (n : Nat) : (enqueued calls n).Nodup := by
  induction n with
  | zero => exact List.nodup_nil
  | succ n ih =>
    rw [enqueued_succ, List.nodup_append]
    refine ⟨ih, ?_, ?_⟩
    · unfold enqueuedAt
      split
      · split
        · exact List.nodup_singleton _
        · exact List.nodup_nil
      · exact List.nodup_nil
    · -- earlier operations have other numbers
      rintro operation hoperation other hother rfl
      obtain ⟨m, hm, hoperation⟩ := List.mem_flatMap.1 hoperation
      have hwork := work_of_mem_enqueuedAt hoperation
      rw [work_of_mem_enqueuedAt hother] at hwork
      exact absurd (List.mem_range.1 hm) (by omega)

lemma nodup_returned (calls : Nat → Call) (n : Nat) :
    (returned calls n).Nodup ∧ returned calls n ⊆ enqueued calls n := by
  obtain ⟨-, events, hsteps, harrivals, -, hfinishes⟩ := exists_steps calls n
  have hconserved := hsteps.conserved
  rw [harrivals, hfinishes] at hconserved
  have hsub : (returned calls n).Sublist
      ((run calls n).queue.pending ++
        ((run calls n).queue.active ++ (returned calls n ++ discards events))) :=
    ((List.sublist_append_left _ _).trans (List.sublist_append_right _ _)).trans
      (List.sublist_append_right _ _)
  exact ⟨(hconserved.nodup (nodup_enqueued calls n)).sublist hsub,
    fun operation hoperation => hconserved.symm.subset (hsub.subset hoperation)⟩

lemma returnedAt_unique (h : operation ∈ returnedAt calls n) (h' : operation ∈ returnedAt calls m) :
    n = m := by
  have hlater : ∀ {n m}, n < m → operation ∈ returnedAt calls n →
      operation ∉ returnedAt calls m := by
    intro n m hlt h h'
    have hnodup := (nodup_returned calls (m + 1)).1
    rw [returned_succ, List.nodup_append] at hnodup
    have hearlier : operation ∈ returned calls m := List.mem_flatMap.2 ⟨n, List.mem_range.2 hlt, h⟩
    exact hnodup.2.2 operation hearlier operation h' rfl
  rcases Nat.lt_trichotomy n m with hlt | heq | hgt
  · exact absurd h' (hlater hlt h)
  · exact heq
  · exact absurd h (hlater hgt h')

/-! ## The scheduler -/

structure Scheduled (calls : Nat → Call) : Prop where
  /-- Two operations on one file are never active together. -/
  exclusive : ∀ n, (run calls n).active.Pairwise fun a b => ¬ Conflict file a b
  /-- Operations on one file start in the order they were enqueued. -/
  ordered :
    ∀ n identity, ((started calls n).filter fun operation => file operation = some identity).Sublist
    ((enqueued calls n).filter fun operation => file operation = some identity)
  bounded : ∀ n, (run calls n).active.length ≤ maxActiveIo ∧
    (run calls n).pending.length + (run calls n).active.length ≤ maxPendingIo
  /-- An operation is refused exactly when the bound is reached. -/
  refused : ∀ n operation, (∃ errno, (run calls n).enqueue operation = .error errno) ↔
    (run calls n).pending.length + (run calls n).active.length = maxPendingIo
  /-- A poll that returns nothing leaves no capacity idle. -/
  busy : ∀ n ready, calls n = .pollComplete ready → ((run calls n).pollComplete ready).1 = none →
    (run calls (n + 1)).active.length = maxActiveIo ∨
      ∀ operation ∈ (run calls (n + 1)).pending, ∃ active ∈ (run calls (n + 1)).active,
        Conflict file active operation
  /-- The two tables are exact. -/
  described : ∀ n, (run calls n).Described
  hasWork : ∀ n resetCount, (run calls n).hasWorkFromResetCount resetCount = true ↔
    ∃ operation ∈ (run calls n).active ++ (run calls n).pending, operation.2.resetCount = resetCount
  /-- No operation is returned twice, and none that was not enqueued. -/
  once : ∀ n, (returned calls n).Nodup ∧ returned calls n ⊆ enqueued calls n
  /-- An operation that is not discarded is returned, if the works finish and polling goes on. -/
  served : Fair calls → ∀ n, ∀ operation ∈ enqueuedAt calls n, Kept calls (n + 1) operation →
    ∃! m, operation ∈ returnedAt calls m

lemma mem_pending_of_enqueuedAt (h : operation ∈ enqueuedAt calls n) : operation ∈
    (run calls (n + 1)).pending := by
  unfold enqueuedAt at h
  split at h
  next identity reply hcall =>
    rcases enqueue_cases (run calls n) (⟨identity, n⟩, reply) with ⟨-, hrefused⟩ | ⟨-, haccepted⟩
    · rw [hrefused] at h
      cases h
    · rw [haccepted] at h
      rw [List.mem_singleton.1 h]
      simp only [run, step, hcall, haccepted]
      exact List.mem_append_right _ List.mem_cons_self
  · cases h

lemma busy_of_poll {ready : Option (Nat × Except Errno Bytes)}
    (hcall : calls n = .pollComplete ready) (hnone : ((run calls n).pollComplete ready).1 = none) :
    (run calls (n + 1)).active.length = maxActiveIo ∨
      ∀ operation ∈ (run calls (n + 1)).pending, ∃ active ∈ (run calls (n + 1)).active,
        Conflict file active operation := by
  have hrun : run calls (n + 1) = (run calls n).startReady := by
    simp only [run, step, hcall]
    rcases pollComplete_cases (run calls n) ready with ⟨hpoll, -⟩
      | ⟨index, result, operation, -, -, hpoll⟩
    · rw [hpoll]
    · rw [hpoll] at hnone
      cases hnone
  rcases nextStart_eq_none (nextStart_startReady (run calls n)) with hfull | hblocked
  · left
    exact le_antisymm (length_active_le calls (n + 1)) (hrun ▸ hfull)
  · right
    intro operation hpending
    have hdescribed := Stuck.described calls (n + 1)
    rw [hrun] at hpending hdescribed ⊢
    have hstart := hblocked operation hpending
    by_contra hfree
    refine Bool.eq_false_iff.1 hstart (hdescribed.startable_iff.2 fun other hother hconflict => ?_)
    exact hfree ⟨other, hother, hconflict⟩

theorem run_scheduled (calls : Nat → Call) : Scheduled calls where
  exclusive n := (exists_steps calls n).1.exclusive
  ordered n identity := by
    obtain ⟨-, events, hsteps, harrivals, hstarts, -⟩ := exists_steps calls n
    have hordered := hsteps.ordered identity
    rw [harrivals, hstarts, List.filter_append] at hordered
    exact (List.sublist_append_left _ _).trans hordered
  bounded n := ⟨length_active_le calls n, length_le calls n⟩
  refused n operation := by
    rcases enqueue_cases (run calls n) operation with ⟨hfull, hrefused⟩ | ⟨hroom, haccepted⟩
    · exact ⟨fun _ => hfull, fun _ => ⟨ebusy, hrefused⟩⟩
    · refine ⟨fun ⟨errno, herror⟩ => ?_, fun hfull => absurd hfull hroom⟩
      rw [haccepted] at herror
      cases herror
  busy n ready := busy_of_poll
  described n := (exists_steps calls n).1
  hasWork n := (exists_steps calls n).1.hasWork_iff
  once := nodup_returned calls
  served hfair n operation henqueued hkept := by
    obtain ⟨m, hreturned⟩ := exists_returned hfair hkept (mem_pending_of_enqueuedAt henqueued)
    exact ⟨m, hreturned, fun m' hreturned' => returnedAt_unique hreturned' hreturned⟩

/-- Two requests on one file and one on another, and then polls that find the first active work
finished. -/
def threeRequests : Nat → Call
  | 0 | 1 => .enqueue (some (0, 1)) ⟨1, 0, [], 7, 0⟩
  | 2 => .enqueue (some (0, 2)) ⟨1, 0, [], 8, 0⟩
  | 3 => .pollComplete none
  | _ + 4 => .pollComplete (some (0, .ok []))

lemma run_threeRequests (n : Nat) :
    (run threeRequests (n + 7)).pending = [] ∧ (run threeRequests (n + 7)).active = [] := by
  induction n with
  | zero => decide +kernel
  | succ n ih =>
    have hnext : (run threeRequests (n + 7)).nextStart = none := by
      simp [nextStart, ih.1]
    have hready : (run threeRequests (n + 7)).startReady = run threeRequests (n + 7) := by
      rw [startReady_eq, hnext]
    have hrun : run threeRequests (n + 8) = run threeRequests (n + 7) := by
      rw [run]
      simp only [threeRequests, step, pollComplete, hready, ih.2, List.getElem?_nil]
    rw [hrun]
    exact ih

lemma fair_threeRequests : Fair threeRequests where
  polls n := ⟨n + 4, Nat.le_add_right n 4, trivial⟩
  finishes n operation hactive := by
    rcases Nat.lt_or_ge n 7 with hless | hmore
    · have hall : ∀ n < 7, ∀ operation ∈ (run threeRequests n).active,
          ∃ m < 7, n ≤ m ∧ operation ∈ returnedAt threeRequests m := by
        decide +kernel
      obtain ⟨m, -, hreturned⟩ := hall n hless operation hactive
      exact ⟨m, hreturned⟩
    · obtain ⟨later, rfl⟩ := Nat.exists_eq_add_of_le' hmore
      rw [(run_threeRequests later).2] at hactive
      cases hactive

theorem run_scheduled_threeRequests :
    ((run threeRequests 4).active.map fun operation => operation.1.work) = [0, 2] ∧
      ∃! m, (⟨some (0, 1), 1⟩, ⟨1, 0, [], 7, 0⟩) ∈ returnedAt threeRequests m := by
  refine ⟨by decide +kernel, ?_⟩
  refine (run_scheduled threeRequests).served fair_threeRequests 1 _ (by decide) ?_
  intro m _ hdiscard
  rcases m with _ | _ | _ | _ | m <;> cases hdiscard

end IoScheduler
end Terrarium.Fs
