import Terrarium.Fs.TableInvariant

/-!
# Epochs — what a reset separates

A reset or a negotiation (`INIT`) starts a new epoch for the guest.  The worker clears the tables
only when it next looks at the reset count, while operations of the old epoch are still suspended.

* `outdated_step` — an operation that goes on after a reset touches neither guest memory nor the
  tables;
* `State.Blank` — tables that hold the root only; between a restart and the next request that is
  accepted, the tables are blank at some moment (`blank_between`).
-/

namespace Terrarium.Fs

open FiniteMap (size)

/-! ## Outdated operations -/

/-- The reset count under which the operation was accepted that an action resumes. -/
def System.resumed (s : System) : Action → Option Nat
  | .poll index _ _ =>
      (s.scheduler.startReady.active[index]?).map fun operation => operation.2.resetCount
  | .pollEvent _ _ =>
      match s.worker with
      | .encoding resetCount _ _ _ => some resetCount
      | _ => none
  | _ => none

section Step

variable {s s' : System} {out : Output} {action : Action}

theorem outdated_step (h : Prepared s) (hstep : s.step action = some (out, s')) {resetCount : Nat}
    (hresumed : s.resumed action = some resetCount)
    (houtdated : s.world.resetCount ≠ some resetCount) :
    s'.world = s.world ∧ out.accesses = [] := by
  cases action with
  | poll index replies memory =>
    obtain ⟨operation, hactive, hpolled, -⟩ := polled_pollOperation h.operations hstep
    simp only [System.resumed, hactive, Option.map_some, Option.some.injEq] at hresumed
    exact hpolled.stale (hresumed ▸ houtdated)
  | pollEvent replies memory =>
    obtain ⟨begun, unique, abort, task, hworker, -, hpolled⟩ := polled_pollEvent h hstep
    simp only [System.resumed, hworker, Option.some.injEq] at hresumed
    exact hpolled.stale (hresumed ▸ houtdated)
  | _ => cases hresumed

/-! ## Blank tables -/

structure State.Blank (state : State) : Prop where
  nodes : ∀ id ∈ state.nodes, id = 1
  handles : state.handles = ∅
  directories : state.directories = ∅
  eventEntries : state.eventEntries = ∅

def System.Blank (s : System) : Prop :=
  ∀ state, s.world.state = some state → state.Blank

lemma State.blank_clearRuntime (state : State) : state.clearRuntime.Blank := by
  refine ⟨fun id hid => ?_, rfl, rfl, rfl⟩
  unfold State.clearRuntime State.new at hid
  split at hid
  · exact absurd hid Finmap.notMem_empty
  next record _ => exact (Finmap.mem_singleton id 1 record).1 hid

lemma SameTables.blank {state state' : State} (h : SameTables state state') (hblank : state.Blank) :
    state'.Blank := by
  obtain ⟨_, _, rfl⟩ := h
  exact { hblank with }

lemma not_cleared_of_uncounted {log : List LogEntry} (h : Uncounted log) : .cleared ∉ log := by
  intro hmem
  obtain ⟨opcode, result, heq, -⟩ := h _ hmem
  cases heq

lemma blank_of_cleared {polled : Option Opcode} {state state' : State} {log : List LogEntry}
    (h : TableStep polled state log state') (hcleared : .cleared ∈ log) : state'.Blank := by
  cases h with
  | keep _ hlog => exact absurd hcleared (not_cleared_of_uncounted hlog)
  | cleared hsame _ => exact hsame.blank (State.blank_clearRuntime state)
  | forgot items =>
    obtain ⟨item, -, heq⟩ := List.mem_map.1 hcleared
    cases heq
  | answered _ _ => cases List.mem_singleton.1 hcleared
  | suspended _ _ => exact (List.not_mem_nil hcleared).elim
  | releasedHandle _ hlog | releasedDirectory _ hlog | erased _ _ hlog =>
    exact absurd hcleared (not_cleared_of_uncounted hlog)

lemma blank_step (h : Prepared s) (hstep : s.step action = some (out, s'))
    (hcleared : .cleared ∈ out.log) : s'.Blank := by
  intro state' hstate'
  rcases (spec_step h hstep).1.tables with hnone | ⟨state, state'', -, hstate'', htable⟩
  · cases hnone.symm.trans hstate'
  · cases hstate''.symm.trans hstate'
    exact blank_of_cleared htable hcleared

/-! ## The reset counts -/

/-- The loop has not yet noticed a reset. -/
def System.Behind (s : System) : Prop :=
  ∀ resetCount, s.world.resetCount = some resetCount → s.knownResetCount < resetCount

def System.CountNoWrap (s : System) (action : Action) : Prop :=
  action = .reset → ∀ resetCount, s.world.resetCount = some resetCount → resetCount + 1 < 2 ^ 64

lemma step_counts (h : Prepared s) (hstep : s.step action = some (out, s')) :
    (action = .reset ∧ ∃ resetCount, s.world.resetCount = some resetCount ∧
      s'.world.resetCount = some ((resetCount + 1) % 2 ^ 64) ∧
      s'.knownResetCount = s.knownResetCount) ∨
    (∃ resetCount, s.world.resetCount = some resetCount ∧ s'.world.resetCount = some resetCount ∧
      s'.knownResetCount = resetCount ∧ .cleared ∈ out.log) ∨
    s'.world.resetCount = none ∨
    (s'.world.resetCount = s.world.resetCount ∧ s'.knownResetCount = s.knownResetCount) := by
  cases action with
  | reset =>
    obtain ⟨resetCount, hcount, heq⟩ := Option.map_eq_some_iff.1 hstep
    cases heq
    exact Or.inl ⟨rfl, resetCount, hcount, rfl, rfl⟩
  | observe =>
    obtain ⟨resetCount, hcount, heq⟩ := Option.map_eq_some_iff.1 hstep
    unfold System.observe at heq
    split at heq
    · cases heq
      exact Or.inr (Or.inr (Or.inr ⟨rfl, rfl⟩))
    · cases heq
      exact Or.inr (Or.inl ⟨resetCount, hcount, hcount, rfl, List.mem_cons_self⟩)
  | poll index replies memory =>
    obtain ⟨operation, -, hpolled, -⟩ := polled_pollOperation h.operations hstep
    exact Or.inr (Or.inr (Or.inr ⟨hpolled.count, hpolled.known⟩))
  | process arrival =>
    simp only [System.step] at hstep
    split at hstep
    next resetCount state _ _ =>
      split at hstep
      · have heq := Option.some.inj hstep
        obtain ⟨-, hknown, hcount⟩ := frame_processRequest s state arrival resetCount
        rw [heq] at hknown hcount
        exact Or.inr (Or.inr (Or.inr ⟨hcount, hknown⟩))
      · cases hstep
    · cases hstep
  | takeEventRequest =>
    simp only [System.step] at hstep
    split at hstep
    · split at hstep
      · cases hstep
        refine Or.inr (Or.inr (Or.inr ?_))
        unfold System.takeEventRequest
        repeat' split
        all_goals exact ⟨rfl, rfl⟩
      · cases hstep
    · cases hstep
  | pollEvent replies memory =>
    obtain ⟨_, _, _, _, -, -, hpolled⟩ := polled_pollEvent h hstep
    exact Or.inr (Or.inr (Or.inr ⟨hpolled.count, hpolled.known⟩))
  | event event | eventsEnded | abortEvent =>
    simp only [System.step] at hstep
    repeat' split at hstep
    all_goals cases hstep
    all_goals exact Or.inr (Or.inr (Or.inr ⟨rfl, rfl⟩))
  | close =>
    cases hstep
    exact Or.inr (Or.inr (Or.inl rfl))

/-- A device that is behind stays behind until it clears the tables. -/
lemma Behind.step (h : Prepared s) (hbehind : s.Behind) (hstep : s.step action = some (out, s'))
    (hwrap : s.CountNoWrap action) : s'.Behind ∨ s'.Blank := by
  rcases step_counts h hstep with
    ⟨rfl, resetCount, hcount, hcount', hknown⟩ | ⟨_, _, _, _, hcleared⟩ | hnone | ⟨hcount, hknown⟩
  · refine Or.inl fun current hcurrent => ?_
    rw [hcount', Nat.mod_eq_of_lt (hwrap rfl resetCount hcount)] at hcurrent
    cases hcurrent
    rw [hknown]
    exact Nat.lt_succ_of_lt (hbehind resetCount hcount)
  · exact Or.inr (blank_step h hstep hcleared)
  · refine Or.inl fun current hcurrent => ?_
    cases hnone.symm.trans hcurrent
  · refine Or.inl fun current hcurrent => ?_
    rw [hknown]
    exact hbehind current (hcount.symm.trans hcurrent)

/-- The loop does not know of more resets than there were. -/
def System.Knows (s : System) : Prop :=
  ∀ resetCount, s.world.resetCount = some resetCount → s.knownResetCount ≤ resetCount

lemma Knows.step (h : Prepared s) (hknows : s.Knows) (hstep : s.step action = some (out, s'))
    (hwrap : s.CountNoWrap action) : s'.Knows := by
  intro current hcurrent
  rcases step_counts h hstep with
    ⟨rfl, resetCount, hcount, hcount', hknown⟩ | ⟨resetCount, -, hcount', hknown, -⟩ | hnone
      | ⟨hcount, hknown⟩
  · rw [hcount', Nat.mod_eq_of_lt (hwrap rfl resetCount hcount)] at hcurrent
    cases hcurrent
    rw [hknown]
    exact Nat.le_succ_of_le (hknows resetCount hcount)
  · cases hcount'.symm.trans hcurrent
    exact hknown.le
  · cases hnone.symm.trans hcurrent
  · rw [hknown]
    exact hknows current (hcount.symm.trans hcurrent)

lemma behind_of_reset (hknows : s.Knows) (hstep : s.step .reset = some (out, s'))
    (hwrap : s.CountNoWrap .reset) : s'.Behind := by
  intro current hcurrent
  obtain ⟨resetCount, hcount, heq⟩ := Option.map_eq_some_iff.1 hstep
  cases heq
  rw [Nat.mod_eq_of_lt (hwrap rfl resetCount hcount)] at hcurrent
  cases hcurrent
  exact Nat.lt_succ_of_le (hknows resetCount hcount)

end Step

/-! ## The request for events -/

section EventRequest

variable {state state' : State}

variable {result : Except Errno Nat}

lemma State.eventRequest_nodeId {child : Node} {stat : Stat}
    (h : state.nodeId child stat = (result, state')) :
    state'.eventRequest = state.eventRequest := by
  obtain ⟨_, _, _, _, rfl⟩ := State.nodeId_frame h
  rfl

@[simp] lemma State.eventRequest_setNode (state : State) (id : Nat) (change : Node → Node) :
    (state.setNode id change).eventRequest = state.eventRequest := by
  unfold State.setNode
  split
  all_goals rfl

@[simp] lemma State.eventRequest_forget (state : State) (id count : Nat) :
    (state.forget id count).eventRequest = state.eventRequest := by
  unfold State.forget
  split
  · rfl
  · dsimp only
    rw [(State.keepsNodes_markUnusedIfUnheld _ _).2]
    split
    all_goals rfl

lemma eventRequest_forgetAll (items : List (Nat × Nat)) (state : State) :
    (forgetAll items state).eventRequest = state.eventRequest := by
  induction items generalizing state with
  | nil => rfl
  | cons item items ih =>
    exact (ih (state.forget item.1 item.2)).trans (State.eventRequest_forget state item.1 item.2)

lemma Change.eventRequest_eq {opcode : Opcode} {result : Option (Except Errno Bytes)}
    (h : Change opcode state state' result) : state'.eventRequest = state.eventRequest := by
  cases h with
  | entered _ hnode | refused hnode => exact State.eventRequest_nodeId hnode
  | lookedUp request _ hnode =>
    exact (State.keepsNodes_rememberLookup _ request _).2.trans (State.eventRequest_nodeId hnode)
  | created _ hnode hhandle | unopened _ hnode hhandle =>
    exact (State.keepsNodes_storeHandle hhandle).2.trans (State.eventRequest_nodeId hnode)
  | linked _ _ =>
    unfold State.incrementLookup
    split
    all_goals rfl
  | repointed _ stat parent name =>
    unfold State.repointNode
    split
    · rfl
    · exact State.eventRequest_setNode _ _ _
  | released _ id change _ => exact State.eventRequest_setNode _ _ _
  | opened _ hhandle => exact (State.keepsNodes_storeHandle hhandle).2
  | openedDirectory _ hhandle => exact (State.keepsNodes_storeDirectory hhandle).2

lemma eventRequest_executeImmediate {request : Request} {result : Except Errno Bytes}
    (h : executeImmediate state request = some (result, state')) :
    state'.eventRequest = none ∨ state'.eventRequest = state.eventRequest := by
  obtain ⟨-, ⟨_, _, -, -, rfl⟩ | ⟨-, rfl | ⟨id, rfl⟩ | ⟨id, rfl⟩⟩⟩ := executeImmediate_cases h
  · exact Or.inl rfl
  · exact Or.inr rfl
  · exact Or.inr (State.keepsNodes_removeHandle _ _).2
  · exact Or.inr (State.keepsNodes_removeDirectory _ _).2

end EventRequest

def EventWorker.abort : EventWorker → Option Nat
  | .waiting _ _ abort => some abort
  | .encoding _ _ abort _ => some abort
  | .idle => none
  | .ended => none

/-- The abort handle for which the event worker has begun a message. -/
def EventWorker.begun : EventWorker → Option Nat
  | .encoding _ _ abort _ => some abort
  | _ => none

def World.pendingAbort (world : World) : Option Nat :=
  (world.state.bind State.eventRequest).map EventRequest.abort

structure Aborts (s : System) (action : Action) (s' : System) : Prop where
  next : s.nextAbort ≤ s'.nextAbort
  pending : s'.world.pendingAbort = none ∨ s'.world.pendingAbort = s.world.pendingAbort ∨
    s'.world.pendingAbort = some s.nextAbort ∧ s'.nextAbort = s.nextAbort + 1
  worker : s'.worker.abort = none ∨ s'.worker.abort = s.worker.abort ∨
    action = .takeEventRequest ∧ s'.worker.abort = s.world.pendingAbort
  begun : s'.worker.begun = none ∨ s'.worker.begun = s.worker.begun ∨ ∃ event, action = .event event

section Aborts

variable {s s' : System} {out : Output} {action : Action} {state : State}

lemma Aborts.of_worker (hworker : s'.worker = s.worker) (hnext : s'.nextAbort = s.nextAbort)
    (hpending : s'.world.pendingAbort = none ∨ s'.world.pendingAbort = s.world.pendingAbort) :
    Aborts s action s' := by
  refine ⟨hnext.ge, ?_, Or.inr (Or.inl ?_), Or.inr (Or.inl ?_)⟩
  · rcases hpending with hnone | hsame
    · exact Or.inl hnone
    · exact Or.inr (Or.inl hsame)
  · rw [hworker]
  · rw [hworker]

lemma pendingAbort_of_state {world : World} (h : world.state = some state) :
    world.pendingAbort = state.eventRequest.map EventRequest.abort := by
  unfold World.pendingAbort
  rw [h]
  rfl

lemma pendingAbort_of_eventRequest {world world' : World} {state' : State}
    (hstate : world.state = some state) (hstate' : world'.state = some state')
    (h : state'.eventRequest = none ∨ state'.eventRequest = state.eventRequest) :
    world'.pendingAbort = none ∨ world'.pendingAbort = world.pendingAbort := by
  rw [pendingAbort_of_state hstate, pendingAbort_of_state hstate']
  rcases h with h | h
  · rw [h]
    exact Or.inl rfl
  · rw [h]
    exact Or.inr rfl

lemma Stretch.pendingAbort_eq {resetCount : Nat} {opcode : Opcode} {since now : World}
    {result : Option (Except Errno Bytes)} (h : Stretch resetCount opcode since now result) :
    now.pendingAbort = since.pendingAbort := by
  cases h with
  | quiet _ => rfl
  | change _ hstate hchange =>
    rw [pendingAbort_of_state hstate, pendingAbort_of_state rfl, hchange.eventRequest_eq]

lemma EventStretch.pendingAbort_eq {resetCount : Nat} {since now : World}
    {result : Option (Except Errno Bytes)}
    (h : EventStretch resetCount since now result) : now.pendingAbort = since.pendingAbort := by
  cases h with
  | quiet => rfl
  | erased _ hstate _ => rw [pendingAbort_of_state hstate, pendingAbort_of_state rfl]

lemma aborts_respond {arrival : Arrival} {request : Request} {target : PendingReply}
    (hstate : s.world.state = some state) (action : Action) :
    Aborts s action (s.respond state arrival request target).2 := by
  unfold System.respond
  rcases executeRequest_cases none state s.scheduler request target with
    ⟨result, state', hexecute, -, hstate'⟩ | ⟨_, _, hexecute, -⟩
  · rw [hexecute]
    refine Aborts.of_worker rfl rfl (pendingAbort_of_eventRequest hstate rfl ?_)
    rcases hstate' with rfl | himmediate
    · exact Or.inr rfl
    · exact eventRequest_executeImmediate himmediate
  · rw [hexecute]
    exact Aborts.of_worker rfl rfl (pendingAbort_of_eventRequest hstate rfl (Or.inr rfl))

lemma eventRequest_replyToEventRequest (state : State) (current : Option Nat)
    (result : Except Errno Bytes) (memory : Memory) :
    (replyToEventRequest state current result memory).2.2.eventRequest = none := by
  unfold replyToEventRequest
  cases hrequest : state.eventRequest with
  | none => exact hrequest
  | some request =>
    dsimp only
    split
    all_goals rfl

lemma aborts_processRequest {arrival : Arrival} {accepted : Nat}
    (hstate : s.world.state = some state)
    (action : Action) : Aborts s action (s.processRequest state accepted arrival).2 := by
  have hsame : Aborts s action s := Aborts.of_worker rfl rfl (Or.inr rfl)
  have hcancelled : ∀ memory : Memory,
      (s.setState (cancelEventRequest state s.world.resetCount memory).2.2).world.pendingAbort =
      none := by
    intro memory
    rw [pendingAbort_of_state rfl, cancelEventRequest, eventRequest_replyToEventRequest]
    rfl
  unfold System.processRequest
  dsimp only
  split
  · exact hsame
  · split
    · split
      · exact hsame
      · exact hsame
    next request _ =>
      split
      next hforget =>
        refine Aborts.of_worker rfl rfl (Or.inr ?_)
        rw [pendingAbort_of_state hstate, pendingAbort_of_state rfl, forgetRequest_items hforget,
          eventRequest_forgetAll]
      · split
        · exact hsame
        · split
          · exact ⟨Nat.le_succ _, Or.inr (Or.inr ⟨rfl, rfl⟩), Or.inr (Or.inl rfl),
              Or.inr (Or.inl rfl)⟩
          · split
            next hopcode =>
              split
              · rw [respond_cancelEvents hopcode]
                exact Aborts.of_worker rfl rfl (Or.inl (hcancelled arrival.memory))
              · exact Aborts.of_worker rfl rfl (Or.inl (hcancelled arrival.memory))
            · exact aborts_respond hstate action

lemma pendingAbort_sendEvent (s : System) (resetCount unique : Nat) (payload : Bytes)
    (memory : Memory) : (s.sendEvent resetCount unique payload memory).2.world.pendingAbort = none ∨
      (s.sendEvent resetCount unique payload memory).2.world.pendingAbort =
      s.world.pendingAbort := by
  unfold System.sendEvent
  split
  · split
    · exact Or.inr rfl
    · split
      · refine Or.inl ?_
        dsimp only
        rw [pendingAbort_of_state rfl, eventRequest_replyToEventRequest]
        rfl
      · exact Or.inr rfl
  · exact Or.inr rfl

variable {replies : ∀ call, HostCall.Reply call} {memory : Memory}

lemma aborts_pollEvent (h : Prepared s)
    (hpoll : s.pollEvent replies memory = some (out, s')) (action : Action) :
    Aborts s action s' := by
  obtain ⟨resetCount, unique, abort, task, hworker, -, world, result, hstretch, hcases⟩ :=
    pollEvent_cases h hpoll
  have habort : s.worker.abort = some abort := by
    rw [hworker]
    rfl
  have hpending := hstretch.pendingAbort_eq
  rcases hcases with ⟨payload, hsend⟩ | ⟨-, rfl | ⟨task', rfl, -⟩⟩
  · have hsent := pendingAbort_sendEvent { s with world := world, worker := .idle } resetCount
      unique payload memory
    obtain ⟨-, -, -, -, heq, -⟩ :=
      sendEvent_cases { s with world := world, worker := .idle } resetCount unique payload memory
    rw [hsend] at hsent heq
    simp only at heq
    refine ⟨?_, ?_, Or.inl ?_, Or.inl ?_⟩
    · rw [heq]
    · rcases hsent with hnone | hsame
      · exact Or.inl hnone
      · exact Or.inr (Or.inl (hsame.trans hpending))
    · rw [heq]
      rfl
    · rw [heq]
      rfl
  · exact ⟨le_refl _, Or.inr (Or.inl hpending), Or.inr (Or.inl habort.symm), Or.inl rfl⟩
  · refine ⟨le_refl _, Or.inr (Or.inl hpending), Or.inr (Or.inl habort.symm), Or.inr (Or.inl ?_)⟩
    rw [hworker]
    rfl

lemma aborts_takeEventRequest (s : System) : Aborts s .takeEventRequest s.takeEventRequest := by
  unfold System.takeEventRequest
  split
  · exact Aborts.of_worker rfl rfl (Or.inr rfl)
  next state hstate =>
    split
    next reply abort hrequest =>
      have hpending : s.world.pendingAbort = some abort := by
        rw [pendingAbort_of_state hstate, hrequest]
        rfl
      refine ⟨le_refl _, Or.inr (Or.inl ?_), Or.inr (Or.inr ⟨rfl, hpending.symm⟩), Or.inl rfl⟩
      rw [hpending]
      rfl
    · exact Aborts.of_worker rfl rfl (Or.inr rfl)

lemma aborts_step (h : Prepared s) (hstep : s.step action = some (out, s')) :
    Aborts s action s' := by
  cases action with
  | reset =>
    obtain ⟨resetCount, -, heq⟩ := Option.map_eq_some_iff.1 hstep
    cases heq
    exact Aborts.of_worker rfl rfl (Or.inr rfl)
  | observe =>
    obtain ⟨resetCount, -, heq⟩ := Option.map_eq_some_iff.1 hstep
    unfold System.observe at heq
    split at heq
    · cases heq
      exact Aborts.of_worker rfl rfl (Or.inr rfl)
    · cases heq
      refine Aborts.of_worker rfl rfl (Or.inl ?_)
      unfold World.pendingAbort
      cases s.world.state with
      | none | some state => rfl
  | poll index replies memory =>
    obtain ⟨operation, -, hpolled, hnext, result, hstretch⟩ :=
      polled_pollOperation h.operations hstep
    exact Aborts.of_worker hpolled.worker hnext (Or.inr hstretch.pendingAbort_eq)
  | process arrival =>
    simp only [System.step] at hstep
    split at hstep
    next resetCount state _ hstate =>
      split at hstep
      · have heq := Option.some.inj hstep
        have haborts : Aborts s (.process arrival) (s.processRequest state resetCount arrival).2 :=
          aborts_processRequest hstate _
        rw [heq] at haborts
        exact haborts
      · cases hstep
    · cases hstep
  | takeEventRequest =>
    simp only [System.step] at hstep
    split at hstep
    · split at hstep
      · cases hstep
        have haborts : Aborts { s with signalled := false } .takeEventRequest
            { s with signalled := false }.takeEventRequest := aborts_takeEventRequest _
        exact { haborts with }
      · cases hstep
    · cases hstep
  | event event =>
    simp only [System.step] at hstep
    split at hstep
    next resetCount unique abort hwaiting =>
      split at hstep
      · cases hstep
      · cases hstep
        refine ⟨le_refl _, Or.inr (Or.inl rfl), Or.inr (Or.inl ?_), Or.inr (Or.inr ⟨event, rfl⟩)⟩
        rw [hwaiting]
        rfl
    · cases hstep
  | pollEvent replies memory => exact aborts_pollEvent h hstep _
  | eventsEnded | abortEvent =>
    simp only [System.step] at hstep
    repeat' split at hstep
    all_goals cases hstep
    all_goals exact ⟨le_refl _, Or.inr (Or.inl rfl), Or.inl rfl, Or.inl rfl⟩
  | close =>
    cases hstep
    exact Aborts.of_worker rfl rfl (Or.inl rfl)

/-- Abort handles are numbered in order. -/
structure System.Fresh (s : System) : Prop where
  worker : ∀ {abort : Nat}, s.worker.abort = some abort → abort < s.nextAbort
  pending : ∀ {abort : Nat}, s.world.pendingAbort = some abort → abort < s.nextAbort

lemma Fresh.step (h : s.Fresh) (haborts : Aborts s action s') : s'.Fresh := by
  refine ⟨fun {abort} hworker => ?_, fun {abort} hpending => ?_⟩
  · refine lt_of_lt_of_le ?_ haborts.next
    rcases haborts.worker with hnone | hsame | ⟨-, hpending⟩
    · cases hnone.symm.trans hworker
    · exact h.worker (hsame.symm.trans hworker)
    · exact h.pending (hpending.symm.trans hworker)
  · rcases haborts.pending with hnone | hsame | ⟨hnew, hnext⟩
    · cases hnone.symm.trans hpending
    · exact lt_of_lt_of_le (h.pending (hsame.symm.trans hpending)) haborts.next
    · cases hnew.symm.trans hpending
      rw [hnext]
      exact Nat.lt_succ_self _

/-- No message has been begun for a request for events that has a handle from `first` on. -/
structure System.Unbegun (first : Nat) (s : System) : Prop where
  begun : ∀ {abort : Nat}, s.worker.begun = some abort → abort < first
  pending : ∀ {abort : Nat}, s.world.pendingAbort = some abort → first ≤ abort
  next : first ≤ s.nextAbort

lemma Unbegun.step {first : Nat} (h : s.Unbegun first) (haborts : Aborts s action s')
    (hother : ∀ event, action ≠ .event event) : s'.Unbegun first := by
  refine ⟨fun {abort} hbegun => ?_, fun {abort} hpending => ?_, le_trans h.next haborts.next⟩
  · rcases haborts.begun with hnone | hsame | ⟨event, heq⟩
    · cases hnone.symm.trans hbegun
    · exact h.begun (hsame.symm.trans hbegun)
    · exact absurd heq (hother event)
  · rcases haborts.pending with hnone | hsame | ⟨hnew, -⟩
    · cases hnone.symm.trans hpending
    · exact h.pending (hsame.symm.trans hpending)
    · cases hnew.symm.trans hpending
      exact h.next

lemma EventWorker.abort_of_begun {worker : EventWorker} {abort : Nat}
    (h : worker.begun = some abort) : worker.abort = some abort := by
  cases worker with
  | encoding _ _ _ _ => exact h
  | _ => cases h

/-- A request for events is accepted; messages that were begun before are not for it. -/
lemma unbegun_of_accepted (h : s.Fresh) (haborts : Aborts s action s')
    (hnone : s.world.pendingAbort = none)
    (hsome : s'.world.pendingAbort ≠ none) (hother : ∀ event, action ≠ .event event) :
    s'.Unbegun s.nextAbort := by
  refine ⟨fun {abort} hbegun => ?_, fun {abort} hpending => ?_, haborts.next⟩
  · rcases haborts.begun with hnone | hsame | ⟨event, heq⟩
    · cases hnone.symm.trans hbegun
    · exact h.worker (EventWorker.abort_of_begun (hsame.symm.trans hbegun))
    · exact absurd heq (hother event)
  · rcases haborts.pending with hgone | hsame | ⟨hnew, -⟩
    · exact absurd hgone hsome
    · exact absurd (hsame.trans hnone) hsome
    · cases hnew.symm.trans hpending
      exact le_refl _

lemma Unbegun.not_pollEvent {first : Nat} (h : s.Unbegun first) (hprepared : Prepared s) :
    s.step (.pollEvent replies memory) ≠ some (out, s') := by
  intro hstep
  obtain ⟨_, _, abort, _, hworker, haborted, -⟩ := polled_pollEvent hprepared hstep
  have hlt : abort < first := h.begun (by rw [hworker]; rfl)
  have hle : first ≤ abort := by
    refine h.pending ?_
    unfold System.isAborted at haborted
    unfold World.pendingAbort
    cases hrequest : s.world.state.bind State.eventRequest with
    | none =>
      rw [hrequest] at haborted
      cases haborted
    | some request =>
      rw [hrequest] at haborted
      simp only [ne_eq, decide_not, Bool.not_eq_false', decide_eq_true_eq] at haborted
      rw [← haborted]
      rfl
  exact absurd hlt (Nat.not_lt.2 hle)

end Aborts

/-! ## Runs -/

abbrev DeviceEvent : Type := Run.Event System Action Output

/-- The event starts a new epoch: a reset, or a successful `INIT`. -/
def Restarts (e : DeviceEvent) : Prop :=
  e.op = .reset ∨ (∃ arrival, e.op = .process arrival) ∧ .cleared ∈ e.out.log

def Accepts (e : DeviceEvent) : Prop :=
  ∃ arrival, e.op = .process arrival

/-- What a table can hold: a node other than the root, a handle, a directory or an event entry. -/
inductive TableEntry where
  | node (id : Nat)
  | handle (id : Nat)
  | directory (id : Nat)
  | eventEntry (key : EntryKey)

def State.Holds (state : State) : TableEntry → Prop
  | .node id => id ∈ state.nodes ∧ id ≠ 1
  | .handle id => id ∈ state.handles
  | .directory id => id ∈ state.directories
  | .eventEntry key => key ∈ state.eventEntries

def System.Holds (s : System) (entry : TableEntry) : Prop :=
  ∃ state, s.world.state = some state ∧ state.Holds entry

lemma State.Blank.not_holds {state : State} (h : state.Blank) (entry : TableEntry) :
    ¬ state.Holds entry := by
  intro hholds
  cases entry with
  | node id => exact hholds.2 (h.nodes id hholds.1)
  | handle id | directory id | eventEntry key =>
    simp only [State.Holds, h.handles, h.directories, h.eventEntries] at hholds
    exact Finmap.notMem_empty hholds

lemma System.Blank.not_holds {s : System} (h : s.Blank) (entry : TableEntry) : ¬ s.Holds entry := by
  rintro ⟨state, hstate, hholds⟩
  exact (h state hstate).not_holds entry hholds

structure Isolated (es : List DeviceEvent) : Prop where
  /-- A step touches guest memory for requests of the current reset count only. -/
  current : ∀ e ∈ es, ∀ access ∈ e.out.accesses, e.pre.world.resetCount = some access.accepted
  /-- An operation accepted under another reset count than the current one changes nothing. -/
  outdated : ∀ e ∈ es, ∀ resetCount, e.pre.resumed e.op = some resetCount →
    e.pre.world.resetCount ≠ some resetCount → e.post.world = e.pre.world ∧ e.out.accesses = []
  /-- What is in the tables when a request is accepted after a restart, and later, was created after
  the restart. -/
  created : ∀ before b mid p rest, es = before ++ b :: (mid ++ p :: rest) → Restarts b → Accepts p →
    ∀ q ∈ p :: rest, ∀ entry, q.pre.Holds entry →
      ∃ c ∈ mid ++ p :: rest, ¬ c.pre.Holds entry ∧ c.post.Holds entry
  /-- The message that answers a request for events is about an event after the request. -/
  awaited : ∀ before p mid e rest, es = before ++ p :: (mid ++ e :: rest) → Accepts p →
    p.pre.world.pendingAbort = none → p.post.world.pendingAbort ≠ none →
    (∃ replies memory, e.op = .pollEvent replies memory) → ∃ q ∈ mid, ∃ event, q.op = .event event

section Runs

variable {s t : System} {es : List DeviceEvent}

structure System.Steady (s : System) : Prop where
  prepared : Prepared s
  knows : s.Knows
  fresh : s.Fresh

lemma System.Steady.step {s' : System} {out : Output} {action : Action} (h : s.Steady)
    (hstep : s.step action = some (out, s')) (hcount : s.CountNoWrap action) : s'.Steady :=
  ⟨(spec_step h.prepared hstep).2, Knows.step h.prepared h.knows hstep hcount,
    Fresh.step h.fresh (aborts_step h.prepared hstep)⟩

lemma steady_configure {tag : Bytes} {maxNodes : Nat} {root : Node} {stat : Stat}
    (h : System.configure tag maxNodes root stat = some s) : s.Steady := by
  have hprepared := prepared_configure h
  unfold System.configure at h
  split at h
  · cases h
  · cases h
    exact ⟨hprepared, fun resetCount _ => Nat.zero_le resetCount, nofun, nofun⟩

lemma not_behind_of_accepts {arrival : Arrival} {out : Output} {s' : System}
    (hstep : s.step (.process arrival) = some (out, s')) : ¬ s.Behind := by
  intro hbehind
  simp only [System.step] at hstep
  split at hstep
  next resetCount _ hcount _ =>
    split at hstep
    next hknown =>
      have hlt := hbehind resetCount hcount
      rw [hknown] at hlt
      exact lt_irrefl _ hlt
    · cases hstep
  · cases hstep

lemma created_since {u : System} (hblank : s.Blank) (hrun : Run.Trace System.step s es u)
    {entry : TableEntry}
    (hholds : u.Holds entry) : ∃ c ∈ es, ¬ c.pre.Holds entry ∧ c.post.Holds entry :=
  Run.Trace.arises (P := fun u => u.Holds entry) hrun (hblank.not_holds entry) hholds

section Counted

variable (h : s.Steady) (hrun : Run.Trace System.step s es t)
    (hcount : ∀ e ∈ es, e.pre.CountNoWrap e.op)

include h hrun hcount

lemma Steady.run : t.Steady :=
  hrun.invariant_where (C := System.CountNoWrap)
    (fun hm hwrap hstep => hm.step hstep hwrap) hcount h

lemma Behind.run (hbehind : s.Behind) : t.Behind ∨ ∃ e ∈ es, e.post.Blank := by
  induction hrun with
  | nil => exact Or.inl hbehind
  | @snoc m t es op out hrun hstep ih =>
    obtain ⟨hbefore, hlast⟩ := List.forall_mem_append.1 hcount
    rcases ih hbefore with hbehind | ⟨e, he, hblank⟩
    · rcases Behind.step (Steady.run h hrun hbefore).prepared hbehind hstep
        (hlast _ List.mem_cons_self) with hbehind | hblank
      · exact Or.inl hbehind
      · exact Or.inr ⟨_, List.mem_append_right _ List.mem_cons_self, hblank⟩
    · exact Or.inr ⟨e, List.mem_append_left _ he, hblank⟩

lemma Unbegun.run {first : Nat} (hunbegun : s.Unbegun first)
    (hother : ∀ e ∈ es, ∀ event, e.op ≠ .event event) : t.Steady ∧ t.Unbegun first := by
  refine hrun.invariant_where (P := fun m => m.Steady ∧ m.Unbegun first)
    (C := fun m op => m.CountNoWrap op ∧ ∀ event, op ≠ .event event) ?_
    (fun e he => ⟨hcount e he, hother e he⟩) ⟨h, hunbegun⟩
  rintro m op out m' ⟨hm, hunbegun⟩ ⟨hwrap, hother⟩ hstep
  exact ⟨hm.step hstep hwrap, Unbegun.step hunbegun (aborts_step hm.prepared hstep) hother⟩

variable {p : DeviceEvent} {mid : List DeviceEvent}

omit h hrun hcount in
/-- Between a restart and the next request the tables are blank at some moment. -/
theorem blank_between {b : DeviceEvent} (h : b.pre.Steady)
    (hb : b.pre.step b.op = some (b.out, b.post)) (hrestarts : Restarts b)
    (hmid : Run.Trace System.step b.post mid p.pre) (hp : p.pre.step p.op = some (p.out, p.post))
    (haccepts : Accepts p)
    (hcount : ∀ e ∈ b :: mid, e.pre.CountNoWrap e.op) : b.post.Blank ∨ ∃ c ∈ mid, c.post.Blank := by
  obtain ⟨arrival, haccepts⟩ := haccepts
  rw [haccepts] at hp
  rcases hrestarts with hreset | ⟨-, hcleared⟩
  · have hbefore := h.step hb (hcount b List.mem_cons_self)
    rw [hreset] at hb
    have hwrap : b.pre.CountNoWrap .reset := hreset ▸ hcount b List.mem_cons_self
    have hbehind := behind_of_reset h.knows hb hwrap
    rcases Behind.run hbefore hmid (fun e he => hcount e (List.mem_cons_of_mem _ he))
      hbehind with hbehind | hblank
    · exact absurd hbehind (not_behind_of_accepts hp)
    · exact Or.inr hblank
  · exact Or.inl (blank_step h.prepared hb hcleared)

lemma created_of_run {before rest : List DeviceEvent} {b q : DeviceEvent}
    (hes : es = before ++ b :: (mid ++ p :: rest)) (hrestarts : Restarts b) (haccepts : Accepts p)
    (hq : q ∈ p :: rest) {entry : TableEntry} (hholds : q.pre.Holds entry) :
    ∃ c ∈ mid ++ p :: rest, ¬ c.pre.Holds entry ∧ c.post.Holds entry := by
  obtain ⟨hbefore, hb, hafter⟩ := hrun.split hes
  obtain ⟨hmid, hp, -⟩ := hafter.split rfl
  have hsteady : b.pre.Steady :=
    Steady.run h hbefore fun e he => hcount e (hes ▸ List.mem_append_left _ he)
  have hbetween : ∀ e ∈ b :: mid, e.pre.CountNoWrap e.op := by
    intro e he
    refine hcount e (hes ▸ List.mem_append_right _ ?_)
    rcases List.mem_cons.1 he with rfl | he
    · exact List.mem_cons_self
    · exact List.mem_cons_of_mem _ (List.mem_append_left _ he)
  -- The run up to `q` ends in the part of the history that `q` starts.
  obtain ⟨middle, later, hsplit⟩ := List.append_of_mem hq
  rcases blank_between hsteady hb hrestarts hmid hp haccepts hbetween with hblank | ⟨c, hc, hblank⟩
  · have hwhole : mid ++ p :: rest = (mid ++ middle) ++ q :: later := by
      rw [hsplit, List.append_assoc]
    obtain ⟨hrunq, -, -⟩ := hafter.split hwhole
    obtain ⟨d, hd, hcreated⟩ := created_since hblank hrunq hholds
    exact ⟨d, hwhole ▸ List.mem_append_left _ hd, hcreated⟩
  · obtain ⟨first, second, hmiddle⟩ := List.append_of_mem hc
    have hwhole : mid ++ p :: rest = first ++ c :: ((second ++ middle) ++ q :: later) := by
      rw [hsplit, hmiddle]
      simp only [List.append_assoc, List.cons_append]
    obtain ⟨-, -, hlate⟩ := hafter.split hwhole
    obtain ⟨hrunq, -, -⟩ := hlate.split rfl
    obtain ⟨d, hd, hcreated⟩ := created_since hblank hrunq hholds
    exact ⟨d, hwhole ▸ List.mem_append_right _ (List.mem_cons_of_mem _ (List.mem_append_left _ hd)),
      hcreated⟩

lemma awaited_of_run {before rest : List DeviceEvent} {e : DeviceEvent}
    (hes : es = before ++ p :: (mid ++ e :: rest)) (haccepts : Accepts p)
    (hnone : p.pre.world.pendingAbort = none) (hsome : p.post.world.pendingAbort ≠ none)
    (hpoll : ∃ replies memory, e.op = .pollEvent replies memory) :
    ∃ q ∈ mid, ∃ event, q.op = .event event := by
  obtain ⟨hbefore, hp, hafter⟩ := hrun.split hes
  obtain ⟨hmid, he, -⟩ := hafter.split rfl
  obtain ⟨arrival, haccepts⟩ := haccepts
  obtain ⟨replies, memory, hpoll⟩ := hpoll
  have hsteady : p.pre.Steady :=
    Steady.run h hbefore fun e he => hcount e (hes ▸ List.mem_append_left _ he)
  have hp' := hsteady.step hp (hcount p (hes ▸ List.mem_append_right _ List.mem_cons_self))
  have hcountMid : ∀ e ∈ mid, e.pre.CountNoWrap e.op := fun e he =>
    hcount e (hes ▸ List.mem_append_right _ (List.mem_cons_of_mem _ (List.mem_append_left _ he)))
  by_contra hothers
  push Not at hothers
  have hunbegun : p.post.Unbegun p.pre.nextAbort := by
    refine unbegun_of_accepted hsteady.fresh (aborts_step hsteady.prepared hp) hnone hsome
      fun event => ?_
    rw [haccepts]
    exact nofun
  rw [hpoll] at he
  obtain ⟨hlast, hunbegun⟩ := Unbegun.run hp' hmid hcountMid hunbegun hothers
  exact Unbegun.not_pollEvent hunbegun hlast.prepared he

end Counted

/-- The epochs of every run in which the reset count does not wrap around are isolated. -/
theorem epochs_isolated {tag : Bytes} {maxNodes : Nat} {root : Node} {stat : Stat}
    (hconfigure : System.configure tag maxNodes root stat = some s)
    (hrun : Run.Trace System.step s es t)
    (hcount : ∀ e ∈ es, e.pre.CountNoWrap e.op) : Isolated es := by
  have hsteady := steady_configure hconfigure
  have hprepared : ∀ e ∈ es, Prepared e.pre ∧ e.pre.step e.op = some (e.out, e.post) := by
    intro e he
    obtain ⟨before, after, hes⟩ := List.append_of_mem he
    obtain ⟨hbefore, hstep, -⟩ := hrun.split hes
    refine ⟨(Steady.run hsteady hbefore fun e he => hcount e
      (hes ▸ List.mem_append_left _ he)).prepared, hstep⟩
  exact {
    current := fun e he => (spec_step (hprepared e he).1 (hprepared e he).2).1.accesses
    outdated := fun e he _ hresumed houtdated =>
      outdated_step (hprepared e he).1 (hprepared e he).2 hresumed houtdated
    created := fun _ _ _ _ _ hes hrestarts haccepts _ hq _ hholds =>
      created_of_run hsteady hrun hcount hes hrestarts haccepts hq hholds
    awaited := fun _ _ _ _ _ hes haccepts hnone hsome hpoll =>
      awaited_of_run hsteady hrun hcount hes haccepts hnone hsome hpoll }

end Runs

def System.countNoWrapAll (es : List DeviceEvent) : Bool :=
  es.all fun e => e.pre.world.resetCount.all fun resetCount => resetCount + 1 < 2 ^ 64

lemma countNoWrap_of_all {es : List DeviceEvent} (h : System.countNoWrapAll es = true) :
    ∀ e ∈ es, e.pre.CountNoWrap e.op := by
  intro e he _ resetCount hcount
  have hall := List.all_eq_true.1 h e he
  simp only [hcount, Option.all_some, decide_eq_true_iff] at hall
  exact hall

def Sample.relookup : List Action :=
  Sample.lookup ++ [.reset, .observe] ++ Sample.lookup

def nodeCounts (es : List DeviceEvent) : List (Option Nat) :=
  es.map fun e => e.pre.world.state.map fun state => size state.nodes

theorem epochs_isolated_reset : ∃ es t,
    System.configure [116] 2 Sample.root (Sample.stat 1) = some Sample.device ∧
      Run.Trace System.step Sample.device es t ∧ (∀ e ∈ es, e.pre.CountNoWrap e.op) ∧
      nodeCounts es =
      [some 1, some 1, some 1, some 1, some 2, some 2, some 1, some 1, some 1, some 1] ∧
      Isolated es := by
  have hconfigure : System.configure [116] 2 Sample.root (Sample.stat 1) = some Sample.device :=
    if_neg (by decide)
  obtain ⟨es, t, hrun, hcheck⟩ := Run.exec_any Sample.relookup
    (fun run => System.countNoWrapAll run.1 && nodeCounts run.1 =
      [some 1, some 1, some 1, some 1, some 2, some 2, some 1, some 1, some 1, some 1])
    (by decide +kernel : (Run.exec System.step Sample.device Sample.relookup).any _ = true)
  obtain ⟨hcount, hnodes⟩ := Bool.and_eq_true_iff.1 hcheck
  exact ⟨es, t, hconfigure, hrun, countNoWrap_of_all hcount, of_decide_eq_true hnodes,
    epochs_isolated hconfigure hrun (countNoWrap_of_all hcount)⟩

end Terrarium.Fs
