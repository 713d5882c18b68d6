import Terrarium.Fs.Stretches
import Terrarium.Fs.Transport

/-!
# TableSteps — the ways a step changes the tables

* `TableStep` — the ways a step changes the tables, each with its log;
* `spec_processRequest` — accepting a request is one of them.
-/

namespace Terrarium.Fs

open Async (Safe Ready Quiet Post Task)

/-! ## The event worker -/

/-- A stretch of the event worker forgets at most one name. -/
inductive EventStretch (resetCount : Nat) : Post World (Except Errno Bytes) where
  | quiet {world : World} {result : Option (Except Errno Bytes)} :
    EventStretch resetCount world world result
  | erased {world : World} {state : State} {result : Option (Except Errno Bytes)}
      (hcurrent : world.resetCount = some resetCount) (hstate : world.state = some state)
        (key : EntryKey) :
      EventStretch resetCount world
        { world with state := some { state with eventEntries := state.eventEntries.erase key } }
          result

section Events

variable {resetCount : Nat} {world : World}

lemma eventStretch_quiet : Quiet (EventStretch resetCount) where
  suspended _ := .quiet
  failed _ _ := .quiet

variable {β : Type} {Q : Post World (Except Errno β)}

lemma safe_parentIdentity (hQ : Quiet Q) {root : Node} {path : Bytes} {next : Identity → Work β}
    (hnext : ∀ identity later, Safe Q (next identity).run later later) :
    Safe Q (parentIdentity root path >>= next).run world world := by
  unfold parentIdentity
  split
  · rw [bind_assoc]
    refine hQ.callResult fun descriptor later => ?_
    exact hQ.callResult hnext
  · exact hQ.callResult hnext

lemma safe_currentIdentity (hQ : Quiet Q) {root : Node} {event : FileEvent} {child : Nat}
    {next : Option Identity → Work β}
    (hnext : ∀ identity later, Safe Q (next identity).run later later) :
    Safe Q (currentIdentity root event child >>= next).run world world := by
  unfold currentIdentity
  split
  · rw [bind_assoc]
    refine hQ.callResult fun identity later => ?_
    exact hnext _ later
  · rw [pure_bind]
    exact hnext none world

lemma safe_encodeEvent (resetCount : Nat) (event : FileEvent) (world : World) :
    Safe (EventStretch resetCount) (encodeEvent resetCount event).run world world := by
  refine eventStretch_quiet.immediate fun _ _ => ?_
  refine eventStretch_quiet.callResult fun root later => ?_
  refine safe_parentIdentity eventStretch_quiet fun parent later => ?_
  refine safe_read eventStretch_quiet (fun state => ?_) fun found => ?_
  · cases state.nodeIdByIdentity.lookup parent with
    | none | some id => rfl
  · refine safe_currentIdentity eventStretch_quiet fun identity later => ?_
    refine safe_withState eventStretch_quiet fun state hcurrent hstate => ?_
    generalize (identity.any fun identity => decide
      (state.nodeIdByIdentity.lookup identity = some found.2)) = sameInode
    cases sameInode with
    | false => exact .erased hcurrent hstate _
    | true =>
      have hsame : { later with state := some state } = later := by
        rw [← hstate]
      change EventStretch resetCount later { later with state := some state } _
      rw [hsame]
      exact .quiet

end Events

/-! ## Suspended tasks -/

namespace IoScheduler

variable {ω : Type} {s : IoScheduler ω} {φ : Operation ω → Prop} {index : Nat}
    {operation : Operation ω}

def Forall (φ : Operation ω → Prop) (s : IoScheduler ω) : Prop :=
  (∀ operation ∈ s.pending, φ operation) ∧ ∀ operation ∈ s.active, φ operation

lemma forall_new : (new : IoScheduler ω).Forall φ := ⟨List.forall_mem_nil _, List.forall_mem_nil _⟩

lemma Forall.discardPending (h : s.Forall φ) : s.discardPending.Forall φ :=
    ⟨List.forall_mem_nil _, h.2⟩

lemma Forall.enqueue (h : s.Forall φ) (hoperation : φ operation) {s' : IoScheduler ω}
    (henqueue : s.enqueue operation = .ok s') : s'.Forall φ := by
  unfold IoScheduler.enqueue at henqueue
  split at henqueue
  · cases henqueue
  · cases henqueue
    exact ⟨List.forall_mem_append.2 ⟨h.1, List.forall_mem_singleton.2 hoperation⟩, h.2⟩

lemma Forall.startReady (h : s.Forall φ) : s.startReady.Forall φ := by
  refine startMany_rule maxActiveIo (fun s index operation h hnext => ?_) h
  obtain ⟨-, -, before, after, hpending, -, -, -⟩ := nextStart_eq_some hnext
  refine ⟨fun other hother => h.1 other (List.mem_of_mem_eraseIdx hother),
    List.forall_mem_append.2 ⟨h.2, List.forall_mem_singleton.2 (h.1 operation ?_)⟩⟩
  rw [hpending]
  exact List.mem_append_right _ List.mem_cons_self

lemma Forall.finish (h : s.Forall φ) : (s.finish index operation).Forall φ :=
  ⟨h.1, fun other hother => h.2 other (List.mem_of_mem_eraseIdx hother)⟩

lemma Forall.setActive (h : s.Forall φ) (hoperation : φ operation) :
    { s with active := s.active.set index operation }.Forall φ := by
  refine ⟨h.1, fun other hother => ?_⟩
  rcases List.mem_or_eq_of_mem_set hother with hother | rfl
  · exact h.2 other hother
  · exact hoperation

lemma pollComplete_of_active (hactive : s.startReady.active[index]? = some operation)
    (result : Except Errno Bytes) :
    (s.pollComplete (some (index, result))).2 = s.startReady.finish index operation := by
  unfold pollComplete
  simp only [hactive]

end IoScheduler

/-- The stretches of an operation's task are known. -/
def Known (operation : Operation RequestWork) : Prop :=
  Ready (Stretch operation.2.resetCount operation.1.work.opcode) operation.1.work.task.run

/-- Every suspended task is one whose stretches are known. -/
structure Prepared (s : System) : Prop where
  operations : s.scheduler.Forall Known
  worker : ∀ {resetCount unique abort : Nat} {task : Work Bytes},
    s.worker = .encoding resetCount unique abort task → Ready (EventStretch resetCount) task.run

/-! ## Changes of the tables -/

/-- The tables differ in what is kept about event requests only. -/
def SameTables (state state' : State) : Prop :=
  ∃ eventRequest eventsEnabled,
    state' = { state with eventRequest := eventRequest, eventsEnabled := eventsEnabled }

def Uncounted (log : List LogEntry) : Prop :=
  ∀ entry ∈ log, ∃ opcode result, entry = .answered opcode result ∧
    (opcode.isEntry = true → ∀ body, result ≠ .ok body)

def forgetAll (items : List (Nat × Nat)) (state : State) : State :=
  items.foldl (fun state item => state.forget item.1 item.2) state

/-- A step of the tables; `polled` is the opcode of the operation that was polled, if any. -/
inductive TableStep (polled : Option Opcode) (state : State) : List LogEntry → State → Prop where
  | keep {log : List LogEntry} {state' : State} (hsame : SameTables state state')
    (hlog : Uncounted log) :
      TableStep polled state log state'
  | cleared {log : List LogEntry} {state' : State} (hsame : SameTables state.clearRuntime state')
      (hlog : ∀ entry ∈ log, ∃ body, entry = .answered .init (.ok body)) :
      TableStep polled state (.cleared :: log) state'
  | forgot (items : List (Nat × Nat)) :
      TableStep polled state (items.map fun item => .forgot item.1 item.2) (forgetAll items state)
  | answered {opcode : Opcode} {state' : State} {result : Except Errno Bytes}
      (hpolled : polled = some opcode) (hchange : Change opcode state state' (some result)) :
      TableStep polled state [.answered opcode result] state'
  | suspended {opcode : Opcode} {state' : State} (hpolled : polled = some opcode)
      (hchange : Change opcode state state' none) :
      TableStep polled state [] state'
  | releasedHandle {log : List LogEntry} (id : Nat) (hlog : Uncounted log) :
      TableStep polled state log (state.removeHandle id).2
  | releasedDirectory {log : List LogEntry} (id : Nat) (hlog : Uncounted log) :
      TableStep polled state log (state.removeDirectory id)
  | erased {log : List LogEntry} {state' : State} (key : EntryKey)
      (hsame : SameTables { state with eventEntries := state.eventEntries.erase key } state')
      (hlog : Uncounted log) : TableStep polled state log state'

/-- The device is closed, or the tables made a step. -/
def Moves (polled : Option Opcode) (world : World) (log : List LogEntry) (world' : World) : Prop :=
  world'.state = none ∨
    ∃ state state', world.state = some state ∧ world'.state = some state' ∧
    TableStep polled state log state'

lemma SameTables.refl (state : State) : SameTables state state :=
    ⟨state.eventRequest, state.eventsEnabled, rfl⟩

lemma SameTables.trans {a b c : State} (h : SameTables a b) (h' : SameTables b c) :
    SameTables a c := by
  obtain ⟨eventRequest, eventsEnabled, rfl⟩ := h
  obtain ⟨eventRequest', eventsEnabled', rfl⟩ := h'
  exact ⟨eventRequest', eventsEnabled', rfl⟩

lemma uncounted_nil : Uncounted [] := List.forall_mem_nil _

lemma uncounted_answer {opcode : Opcode} {result : Except Errno Bytes}
    (h : opcode.isEntry = true → ∀ body, result ≠ .ok body) :
    Uncounted [.answered opcode result] := by
  intro entry hentry
  exact ⟨opcode, result, List.mem_singleton.1 hentry, h⟩

lemma Uncounted.append {log log' : List LogEntry} (h : Uncounted log) (h' : Uncounted log') :
    Uncounted (log ++ log') :=
  List.forall_mem_append.2 ⟨h, h'⟩

lemma moves_same {polled : Option Opcode} {world world' : World} (h : world'.state = world.state) :
    Moves polled world [] world' := by
  cases hstate : world.state with
  | none => exact Or.inl (h.trans hstate)
  | some state =>
    exact Or.inr ⟨state, state, hstate, h.trans hstate, .keep (.refl state) uncounted_nil⟩

/-! ## Requests that are answered at once -/

section Process

variable {polled : Option Opcode} {state : State} {request : Request}

lemma u64At_toOption (bytes : Bytes) (start : Nat) (h : start + 8 ≤ bytes.length) :
    u64At bytes start = .ok ((u64At bytes start).toOption.getD 0) := by
  unfold u64At numberAt
  rw [if_pos h]
  rfl

lemma forgetEach_items {body : Bytes} {offsets : List Nat}
    (h : ∀ offset ∈ offsets, offset + 16 ≤ body.length) (state : State) :
    forgetEach body offsets state = (.ok (), forgetAll (offsets.map fun offset =>
      ((u64At body offset).toOption.getD 0, (u64At body (offset + 8)).toOption.getD 0)) state) := by
  induction offsets generalizing state with
  | nil => rfl
  | cons offset offsets ih =>
    have hoffset := h offset List.mem_cons_self
    have hid := u64At_toOption body offset (by omega)
    have hcount := u64At_toOption body (offset + 8) (by omega)
    rw [forgetEach, hid]
    rw [hcount]
    simp only
    rw [ih fun offset hoffset => h offset (List.mem_cons_of_mem _ hoffset)]
    rfl

lemma forgetRequest_items (hforget : request.opcode = .forget ∨ request.opcode = .forgetMulti) :
    (forgetRequest state request).2 = forgetAll (forgetItems request) state := by
  unfold forgetRequest forgetItems
  rcases hforget with hforget | hforget
  · rw [hforget]
    rfl
  · rw [hforget]
    cases u32At request.body 0 with
    | error error => rfl
    | ok count =>
      simp only
      split
      · rfl
      next hshape =>
        rw [forgetEach_items, List.map_map]
        · rfl
        · intro offset hoffset
          obtain ⟨index, hindex, rfl⟩ := List.mem_map.1 hoffset
          have hlt := List.mem_range.1 hindex
          omega

lemma releaseFile_cases (state : State) (request : Request) :
    (releaseFile state request).2 = state ∨ ∃ id, (releaseFile state request).2 =
    (state.removeHandle id).2 := by
  unfold releaseFile
  split
  next id _ _ _ _ _ =>
    refine Or.inr ⟨id, ?_⟩
    split
    next hremove =>
      rw [hremove]
      split
      · rfl
      · rfl
    next hremove => rw [hremove]
  · exact Or.inl rfl

/-- A negotiation clears the tables; the other requests release a handle, or leave the tables as
they are. -/
lemma executeImmediate_cases {result : Except Errno Bytes} {state' : State}
    (h : executeImmediate state request = some (result, state')) : request.opcode.isEntry = false ∧
      ((∃ body enabled, request.opcode = .init ∧ result = .ok body ∧
        state' = { state.clearRuntime with eventsEnabled := enabled }) ∨
      System.clearedBy request result = [] ∧
        (state' = state ∨
          (∃ id, state' = (state.removeHandle id).2) ∨
          ∃ id, state' = state.removeDirectory id)) := by
  cases hopcode : request.opcode with
  | init =>
    simp only [executeImmediate, hopcode] at h
    refine ⟨rfl, ?_⟩
    split at h
    next body _ =>
      cases h
      exact Or.inl ⟨body, _, rfl, rfl, rfl⟩
    · cases h
      exact Or.inr ⟨by simp only [System.clearedBy, hopcode], Or.inl rfl⟩
  | release =>
    simp only [executeImmediate, hopcode, Option.some.injEq] at h
    refine ⟨rfl, Or.inr ⟨by simp only [System.clearedBy, hopcode], ?_⟩⟩
    have hreleased := releaseFile_cases state request
    rw [h] at hreleased
    exact hreleased.imp_right Or.inl
  | releasedir =>
    simp only [executeImmediate, hopcode, Option.some.injEq, Prod.mk.injEq] at h
    refine ⟨rfl, Or.inr ⟨by simp only [System.clearedBy, hopcode], ?_⟩⟩
    obtain ⟨-, rfl⟩ := h
    unfold releaseDirectory
    cases u64At request.body 0 with
    | error error => exact Or.inl rfl
    | ok handle => exact Or.inr (Or.inr ⟨handle, rfl⟩)
  | _ =>
    -- the rest is left to the host, or answered without a look at the tables
    simp only [executeImmediate, hopcode] at h
    cases h
    all_goals exact ⟨rfl, Or.inr ⟨by simp only [System.clearedBy, hopcode], Or.inl rfl⟩⟩

lemma tables_executeImmediate {result : Except Errno Bytes} {state' : State}
    (h : executeImmediate state request = some (result, state')) :
    TableStep polled state
      (System.clearedBy request result ++ [.answered request.opcode result]) state' := by
  obtain ⟨hopcode, hcases⟩ := executeImmediate_cases h
  have hanswer : Uncounted [.answered request.opcode result] :=
    uncounted_answer fun h => absurd h (by rw [hopcode]; exact Bool.false_ne_true)
  rcases hcases with ⟨body, _, hinit, rfl, rfl⟩ | ⟨hcleared, hstate'⟩
  · simp only [System.clearedBy, hinit]
    exact .cleared ⟨_, _, rfl⟩ fun entry hentry => ⟨body, List.mem_singleton.1 hentry⟩
  · rw [hcleared]
    rcases hstate' with rfl | ⟨id, rfl⟩ | ⟨id, rfl⟩
    · exact .keep (.refl _) hanswer
    · exact .releasedHandle id hanswer
    · exact .releasedDirectory id hanswer

lemma uncounted_error {opcode : Opcode} {error : Errno} :
    Uncounted [.answered opcode (.error error)] :=
  uncounted_answer nofun

lemma clearedBy_error (request : Request) (error : Errno) :
    System.clearedBy request (.error error) = [] := by
  unfold System.clearedBy
  split
  next hresult => cases hresult
  · rfl

lemma executeRequest_cases (polled : Option Opcode) (state : State)
    (scheduler : IoScheduler RequestWork) (request : Request) (target : PendingReply) :
    (∃ result state', executeRequest state scheduler request target = .answered result state' ∧
      TableStep polled state (System.clearedBy request result ++ [.answered request.opcode result])
        state' ∧
      (state' = state ∨ executeImmediate state request = some (result, state'))) ∨
    ∃ prepared scheduler', executeRequest state scheduler request target = .queued scheduler' ∧
      prepareIo state request target.resetCount = .ok prepared ∧
      scheduler.enqueue (prepared, target) = .ok scheduler' := by
  have hrefused : ∀ error, TableStep polled state
      (System.clearedBy request (.error error) ++ [.answered request.opcode (.error error)])
        state := by
    intro error
    rw [clearedBy_error]
    exact .keep (.refl state) uncounted_error
  unfold executeRequest
  split
  · exact Or.inl ⟨_, _, rfl, hrefused ebusy, Or.inl rfl⟩
  · cases himmediate : executeImmediate state request with
    | some answer =>
        exact Or.inl ⟨answer.1, answer.2, rfl, tables_executeImmediate himmediate, Or.inr rfl⟩
    | none =>
      cases hprepare : prepareIo state request target.resetCount with
      | error error => exact Or.inl ⟨_, _, rfl, hrefused error, Or.inl rfl⟩
      | ok prepared =>
        cases henqueue : scheduler.enqueue (prepared, target) with
        | error error =>
          refine Or.inl ⟨.error error, state, ?_, hrefused error, Or.inl rfl⟩
          simp only [bind, Except.bind, henqueue]
        | ok scheduler' =>
          refine Or.inr ⟨prepared, scheduler', ?_, rfl, henqueue⟩
          simp only [bind, Except.bind, henqueue]

end Process

/-! ## Guest memory -/

section Guest

variable {target : PendingReply} {payload : Bytes} {memory : Memory}

lemma accepted_sendReply : ∀ access ∈ (sendReply target payload memory).2, access.accepted =
    target.resetCount := by
  intro access haccess
  unfold sendReply at haccess
  split at haccess
  · exact (List.not_mem_nil haccess).elim
  · split at haccess
    · rcases List.mem_pair.1 haccess with rfl | rfl
      · rfl
      · rfl
    · rw [List.mem_singleton.1 haccess]
      rfl

lemma accepted_sendOrComplete :
    ∀ access ∈ sendOrComplete target payload memory, access.accepted = target.resetCount := by
  intro access haccess
  unfold sendOrComplete at haccess
  simp only at haccess
  split at haccess
  · exact accepted_sendReply access haccess
  · rcases List.mem_append.1 haccess with haccess | haccess
    · exact accepted_sendReply access haccess
    · rw [List.mem_singleton.1 haccess]
      rfl

end Guest

/-! ## One step -/

structure Spec (s : System) (polled : Option Opcode) (out : Output) (s' : System) : Prop where
  tables : Moves polled s.world out.log s'.world
  operations : s'.scheduler.Forall Known
  accesses : ∀ access ∈ out.accesses, s.world.resetCount = some access.accepted

section Respond

variable {s : System} {state : State} {arrival : Arrival} {request : Request}
    {target : PendingReply}

lemma known_prepared {prepared : PreparedIo RequestWork}
    (h : prepareIo state request target.resetCount = .ok prepared) : Known (prepared, target) := by
  obtain ⟨hopcode, hsafe⟩ := safe_prepareIo h
  unfold Known
  rw [hopcode]
  exact Async.ready_of_safe hsafe

lemma spec_respond (h : s.scheduler.Forall Known) (hstate : s.world.state = some state)
    (htarget : s.world.resetCount = some target.resetCount) :
    Spec s none (s.respond state arrival request target).1
      (s.respond state arrival request target).2 := by
  unfold System.respond
  rcases executeRequest_cases none state s.scheduler request target with
    ⟨result, state', hexecute, htables, -⟩ | ⟨prepared, scheduler', hexecute, hprepare, henqueue⟩
  · rw [hexecute]
    refine ⟨Or.inr ⟨state, state', hstate, rfl, htables⟩, h, fun access haccess => ?_⟩
    rw [accepted_sendOrComplete access haccess, htarget]
  · rw [hexecute]
    refine ⟨moves_same hstate.symm, h.enqueue (known_prepared hprepare) henqueue,
      fun access haccess => ?_⟩
    exact (List.not_mem_nil haccess).elim

lemma replyToEventRequest_cases (state : State) (current : Option Nat) (result : Except Errno Bytes)
    (memory : Memory) :
    SameTables state (replyToEventRequest state current result memory).2.2 ∧
      Uncounted (replyToEventRequest state current result memory).2.1.log ∧
      ∀ access ∈ (replyToEventRequest state current result memory).2.1.accesses, current =
      some access.accepted := by
  unfold replyToEventRequest
  cases state.eventRequest with
  | none => exact ⟨.refl state, uncounted_nil, List.forall_mem_nil _⟩
  | some request =>
    simp only
    split
    next hcurrent =>
      refine ⟨⟨none, _, rfl⟩, uncounted_answer fun h => absurd h Bool.false_ne_true,
        fun access haccess => ?_⟩
      rw [accepted_sendReply access haccess, hcurrent]
    · exact ⟨⟨none, _, rfl⟩, uncounted_nil, List.forall_mem_nil _⟩

lemma cancelEventRequest_cases (state : State) (current : Option Nat) (memory : Memory) :
    SameTables state (cancelEventRequest state current memory).2.2 ∧
      Uncounted (cancelEventRequest state current memory).2.1.log ∧
      ∀ access ∈ (cancelEventRequest state current memory).2.1.accesses, current =
      some access.accepted := by
  obtain ⟨hsame, hrest⟩ :=
    replyToEventRequest_cases { state with eventsEnabled := false } current (.error enodev) memory
  exact ⟨SameTables.trans ⟨_, false, rfl⟩ hsame, hrest⟩

lemma respond_cancelEvents (hopcode : request.opcode = .cancelEvents) :
    s.respond state arrival request target =
      (⟨sendOrComplete target (encodeResponse target.unique (.ok [])) arrival.memory,
        [.answered .cancelEvents (.ok [])]⟩, s.setState state) := by
  have hexecute : executeRequest state s.scheduler request target = .answered (.ok []) state := by
    unfold executeRequest executeImmediate
    rw [hopcode]
    rfl
  unfold System.respond System.clearedBy
  rw [hexecute, hopcode]
  rfl

theorem spec_processRequest (arrival : Arrival) {accepted : Nat} (h : s.scheduler.Forall Known)
    (hstate : s.world.state = some state) (haccepted : s.world.resetCount = some accepted) :
    Spec s none (s.processRequest state accepted arrival).1
      (s.processRequest state accepted arrival).2 := by
  have hmalformed : ∀ access ∈ [GuestAccess.complete accepted arrival.queue arrival.head 0],
      s.world.resetCount = some access.accepted := by
    intro access haccess
    rw [List.mem_singleton.1 haccess]
    exact haccepted
  unfold System.processRequest
  simp only
  split
  · exact ⟨moves_same rfl, h, hmalformed⟩
  next input output _ =>
    split
    · split
      · exact ⟨moves_same rfl, h, hmalformed⟩
      · refine ⟨moves_same rfl, h, fun access haccess => ?_⟩
        rw [accepted_sendOrComplete access haccess]
        exact haccepted
    next request _ =>
      split
      next hforget =>
        refine ⟨Or.inr ⟨state, _, hstate, rfl, ?_⟩, h, hmalformed⟩
        rw [forgetRequest_items hforget]
        exact .forgot _
      · split
        · exact ⟨moves_same rfl, h, hmalformed⟩
        · split
          · refine ⟨Or.inr
              ⟨state, _, hstate, rfl, .keep ⟨_, state.eventsEnabled, rfl⟩ uncounted_nil⟩, h, ?_⟩
            exact List.forall_mem_nil _
          · split
            next hopcode =>
              obtain ⟨hsame, hlog, haccesses⟩ :=
                cancelEventRequest_cases state s.world.resetCount arrival.memory
              split
              · rw [respond_cancelEvents hopcode]
                refine ⟨Or.inr ⟨state, _, hstate, rfl, .keep hsame (hlog.append ?_)⟩, h,
                  fun access haccess => ?_⟩
                · exact uncounted_answer fun h => absurd h Bool.false_ne_true
                · rcases List.mem_append.1 haccess with haccess | haccess
                  · exact haccesses access haccess
                  · rw [accepted_sendOrComplete access haccess]
                    exact haccepted
              · exact ⟨Or.inr ⟨state, _, hstate, rfl, .keep hsame hlog⟩, h, haccesses⟩
            · exact spec_respond h hstate haccepted

end Respond

end Terrarium.Fs
