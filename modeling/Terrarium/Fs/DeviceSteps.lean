import Terrarium.Fs.TableSteps

/-!
# DeviceSteps — every step of the device

* `Polled`, `EventPolled` — what it does when an operation or the event worker goes on;
* `spec_step` — every step of a prepared device changes the tables in one of the known ways, leaves
  the device prepared, and touches guest memory only for requests of the current reset count.
-/

namespace Terrarium.Fs

open Async (Safe Ready Quiet Post Task)

/-! ## Polling an operation -/

section Stretches

variable {resetCount : Nat} {opcode : Opcode} {since now : World}
    {result : Option (Except Errno Bytes)}

lemma Stretch.resetCount_eq (h : Stretch resetCount opcode since now result) :
    now.resetCount = since.resetCount := by
  cases h with
  | quiet _ | change _ _ _ => rfl

lemma Stretch.stale (h : Stretch resetCount opcode since now result)
    (hstale : since.resetCount ≠ some resetCount) : now = since := by
  cases h with
  | quiet _ => rfl
  | change hcurrent _ _ => exact absurd hcurrent hstale

lemma Stretch.moves_suspended (h : Stretch resetCount opcode since now none) :
    Moves (some opcode) since [] now := by
  cases h with
  | quiet _ => exact moves_same rfl
  | change _ hstate hchange => exact Or.inr ⟨_, _, hstate, rfl, .suspended rfl hchange⟩

lemma Stretch.moves_done {answer : Except Errno Bytes}
    (h : Stretch resetCount opcode since now (some answer)) :
    Moves (some opcode) since (if now.resetCount = some resetCount then [.answered opcode answer]
      else []) now := by
  cases h with
  | quiet hresult =>
    split
    · cases hstate : since.state with
      | none => exact Or.inl hstate
      | some state =>
        refine Or.inr ⟨state, state, hstate, hstate, .keep (.refl state) (uncounted_answer ?_)⟩
        exact fun hentry body heq => hresult hentry body (congrArg some heq)
    · exact moves_same rfl
  | change hcurrent hstate hchange =>
    simp only [if_pos hcurrent]
    exact Or.inr ⟨_, _, hstate, rfl, .answered rfl hchange⟩

end Stretches

structure Polled (s : System) (operation : Operation RequestWork) (out : Output)
    (s' : System) : Prop where
  spec : Spec s (some operation.1.work.opcode) out s'
  count : s'.world.resetCount = s.world.resetCount
  stale : s.world.resetCount ≠ some operation.2.resetCount → s'.world = s.world ∧ out.accesses = []
  worker : s'.worker = s.worker
  known : s'.knownResetCount = s.knownResetCount

section Poll

variable {s s' : System} {out : Output} {index : Nat} {replies : ∀ call, HostCall.Reply call}
    {memory : Memory}

lemma polled_pollOperation (h : s.scheduler.Forall Known)
    (hpoll : s.pollOperation index replies memory = some (out, s')) :
    ∃ operation, s.scheduler.startReady.active[index]? = some operation ∧
    Polled s operation out s' ∧
      s'.nextAbort = s.nextAbort ∧
      ∃ result, Stretch operation.2.resetCount operation.1.work.opcode s.world s'.world result := by
  unfold System.pollOperation at hpoll
  split at hpoll
  · cases hpoll
  next operation hactive =>
    refine ⟨operation, hactive, ?_⟩
    have hknown := h.startReady.2 operation (List.mem_of_getElem? hactive)
    have hsafe := hknown replies s.world
    dsimp only at hpoll
    cases htask : (operation.1.work.task.run.resume replies).poll s.world with
    | mk task world =>
      rw [htask] at hpoll
      rcases hsafe.of_poll htask with ⟨result, rfl, hstretch⟩
        | ⟨⟨call, next, rfl⟩, hstretch, hready⟩
      · cases hpoll
        refine ⟨⟨⟨hstretch.moves_done, ?_, fun access haccess => ?_⟩, hstretch.resetCount_eq,
          fun hstale => ?_,
          rfl, rfl⟩, rfl, _, hstretch⟩
        · rw [IoScheduler.pollComplete_of_active hactive]
          exact h.startReady.finish
        · split at haccess
          next hcurrent =>
            rw [accepted_sendOrComplete access haccess, ← hstretch.resetCount_eq, hcurrent]
          · exact (List.not_mem_nil haccess).elim
        · have hworld := hstretch.stale hstale
          subst hworld
          exact ⟨rfl, if_neg hstale⟩
      · cases hpoll
        refine ⟨⟨⟨hstretch.moves_suspended, ?_, fun access haccess => ?_⟩, hstretch.resetCount_eq,
          fun hstale => ⟨hstretch.stale hstale, rfl⟩, rfl, rfl⟩, rfl, _, hstretch⟩
        · exact h.startReady.setActive hready
        · exact (List.not_mem_nil haccess).elim

lemma pollOperation_done {operation : Operation RequestWork} {result : Except Errno Bytes}
    {world : World} (hactive : s.scheduler.startReady.active[index]? = some operation)
    (hpoll : (operation.1.work.task.run.resume replies).poll s.world = (.done result, world))
    (hcurrent : world.resetCount = some operation.2.resetCount) (memory : Memory) :
    ∃ accesses, s.pollOperation index replies memory =
    some (⟨accesses, [.answered operation.1.work.opcode result]⟩,
      { s with world := world, scheduler := s.scheduler.startReady.finish index operation }) := by
  unfold System.pollOperation
  simp only [hactive, hpoll, if_pos hcurrent]
  rw [IoScheduler.pollComplete_of_active hactive]
  exact ⟨_, rfl⟩

end Poll

/-! ## The event worker's steps -/

section EventSteps

variable {resetCount : Nat} {since now : World} {result : Option (Except Errno Bytes)}

lemma EventStretch.resetCount_eq (h : EventStretch resetCount since now result) :
    now.resetCount = since.resetCount := by
  cases h with
  | quiet | erased _ _ _ => rfl

lemma EventStretch.stale (h : EventStretch resetCount since now result)
    (hstale : since.resetCount ≠ some resetCount) : now = since := by
  cases h with
  | quiet => rfl
  | erased hcurrent _ _ => exact absurd hcurrent hstale

/-- Later there are no tables, or tables that differ in the request for events only. -/
def World.KeepsTables (now later : World) : Prop :=
  later.state = none ∨ ∃ state state', now.state = some state ∧ later.state = some state' ∧
    SameTables state state'

lemma World.KeepsTables.refl (world : World) : world.KeepsTables world := by
  cases hstate : world.state with
  | none => exact Or.inl hstate
  | some state => exact Or.inr ⟨state, state, hstate, hstate, .refl state⟩

lemma EventStretch.moves (h : EventStretch resetCount since now result) {log : List LogEntry}
    {world : World}
    (hlog : Uncounted log) (hsame : now.KeepsTables world) : Moves none since log world := by
  rcases hsame with hnone | ⟨state, state', hnow, hworld, hsame⟩
  · exact Or.inl hnone
  · cases h with
    | quiet => exact Or.inr ⟨state, state', hnow, hworld, .keep hsame hlog⟩
    | erased _ hstate key =>
      cases hnow
      exact Or.inr ⟨_, state', hstate, hworld, .erased key hsame hlog⟩

lemma sendEvent_cases (s : System) (resetCount unique : Nat) (payload : Bytes) (memory : Memory) :
    s.world.KeepsTables (s.sendEvent resetCount unique payload memory).2.world ∧
      Uncounted (s.sendEvent resetCount unique payload memory).1.log ∧
      (∀ access ∈ (s.sendEvent resetCount unique payload memory).1.accesses,
        s.world.resetCount = some access.accepted) ∧
      (s.world.resetCount ≠ some resetCount →
        s.sendEvent resetCount unique payload memory = (⟨[], []⟩, s)) ∧
      (s.sendEvent resetCount unique payload memory).2 =
        { s with world := (s.sendEvent resetCount unique payload memory).2.world } ∧
      (s.sendEvent resetCount unique payload memory).2.world.resetCount = s.world.resetCount := by
  unfold System.sendEvent
  split
  next hcurrent =>
    cases hstate : s.world.state with
    | none =>
      exact ⟨.refl _, uncounted_nil, List.forall_mem_nil _, fun h => absurd hcurrent h, rfl, rfl⟩
    | some state =>
      simp only
      split
      · obtain ⟨hreply, hlog, haccesses⟩ :=
          replyToEventRequest_cases state s.world.resetCount (.ok payload) memory
        exact ⟨Or.inr ⟨state, _, hstate, rfl, hreply⟩, hlog, haccesses,
          fun h => absurd hcurrent h, rfl, rfl⟩
      · exact ⟨.refl _, uncounted_nil, List.forall_mem_nil _, fun h => absurd hcurrent h, rfl, rfl⟩
  · exact ⟨.refl _, uncounted_nil, List.forall_mem_nil _, fun _ => rfl, rfl, rfl⟩

/-- What a poll of the event worker does, which was begun under `resetCount`. -/
structure EventPolled (s : System) (resetCount : Nat) (out : Output) (s' : System) : Prop where
  spec : Spec s none out s'
  count : s'.world.resetCount = s.world.resetCount
  stale : s.world.resetCount ≠ some resetCount → s'.world = s.world ∧ out.accesses = []
  worker : ∀ {resetCount unique abort : Nat} {task : Work Bytes},
    s'.worker = .encoding resetCount unique abort task → Ready (EventStretch resetCount) task.run
  known : s'.knownResetCount = s.knownResetCount

variable {s s' : System} {out : Output} {replies : ∀ call, HostCall.Reply call} {memory : Memory}

/-- The message is sent, its entry is not found, or the worker waits for the host once more. -/
lemma pollEvent_cases (h : Prepared s) (hpoll : s.pollEvent replies memory = some (out, s')) :
    ∃ resetCount unique abort task, s.worker = .encoding resetCount unique abort task ∧
    s.isAborted abort = false ∧
      ∃ world result, EventStretch resetCount s.world world result ∧
        ((∃ payload, { s with world := world, worker := .idle }.sendEvent resetCount unique payload
          memory = (out, s')) ∨
          out = ⟨[], []⟩ ∧
          (s' = { s with world := world, worker := .waiting resetCount unique abort } ∨
            ∃ task',
              s' = { s with world := world, worker := .encoding resetCount unique abort task' } ∧
              Ready (EventStretch resetCount) task'.run)) := by
  unfold System.pollEvent at hpoll
  cases hworker : s.worker with
  | encoding resetCount unique abort task =>
    simp only [hworker] at hpoll
    split at hpoll
    · cases hpoll
    next habort =>
      refine ⟨resetCount, unique, abort, task, rfl, Bool.eq_false_iff.2 habort, ?_⟩
      have hsafe := h.worker hworker replies s.world
      cases htask : (task.run.resume replies).poll s.world with
      | mk task' world =>
        rw [htask] at hpoll
        rcases hsafe.of_poll htask with ⟨result, rfl, hstretch⟩
          | ⟨⟨call, next, rfl⟩, hstretch, hready⟩
        · cases result with
          | error reason =>
            cases hpoll
            exact ⟨world, _, hstretch, Or.inr ⟨rfl, Or.inl rfl⟩⟩
          | ok payload => exact ⟨world, _, hstretch, Or.inl ⟨payload, Option.some.inj hpoll⟩⟩
        · cases hpoll
          exact ⟨world, _, hstretch, Or.inr ⟨rfl, Or.inr ⟨_, rfl, hready⟩⟩⟩
  | _ =>
    simp only [hworker] at hpoll
    cases hpoll

lemma polled_pollEvent (h : Prepared s) (hpoll : s.pollEvent replies memory = some (out, s')) :
    ∃ resetCount unique abort task, s.worker = .encoding resetCount unique abort task ∧
      s.isAborted abort = false ∧ EventPolled s resetCount out s' := by
  obtain ⟨resetCount, unique, abort, task, hworker, haborted, world, result, hstretch, hcases⟩ :=
    pollEvent_cases h hpoll
  refine ⟨resetCount, unique, abort, task, hworker, haborted, ?_⟩
  have hmoves := hstretch.moves uncounted_nil (.refl world)
  rcases hcases with ⟨payload, hsend⟩ | ⟨rfl, rfl | ⟨task', rfl, hready⟩⟩
  · obtain ⟨hsame, hlog, haccesses, hstale, heq, hcount⟩ :=
      sendEvent_cases { s with world := world, worker := .idle } resetCount unique payload memory
    simp only [hsend] at hsame hlog haccesses hstale heq hcount
    refine ⟨⟨hstretch.moves hlog hsame, ?_, fun access haccess => ?_⟩, ?_, fun hother => ?_,
      fun hencoding => ?_, ?_⟩
    · rw [heq]
      exact h.operations
    · rw [← hstretch.resetCount_eq]
      exact haccesses access haccess
    · exact hcount.trans hstretch.resetCount_eq
    · have hworld := hstretch.stale hother
      subst hworld
      have hnothing := hstale hother
      simp only [Prod.mk.injEq] at hnothing
      rw [hnothing.1, hnothing.2]
      exact ⟨rfl, rfl⟩
    · rw [heq] at hencoding
      cases hencoding
    · rw [heq]
  · exact ⟨⟨hmoves, h.operations, List.forall_mem_nil _⟩, hstretch.resetCount_eq,
      fun hstale => ⟨hstretch.stale hstale, rfl⟩, nofun, rfl⟩
  · refine ⟨⟨hmoves, h.operations, List.forall_mem_nil _⟩, hstretch.resetCount_eq,
      fun hstale => ⟨hstretch.stale hstale, rfl⟩, fun hencoding => ?_, rfl⟩
    cases hencoding
    exact hready

end EventSteps

/-! ## Every step -/

section Steps

variable {s s' : System} {out : Output} {action : Action} {state : State} {arrival : Arrival}

lemma frame_respond {request : Request} {target : PendingReply} :
    (s.respond state arrival request target).2.worker = s.worker ∧
      (s.respond state arrival request target).2.knownResetCount = s.knownResetCount ∧
      (s.respond state arrival request target).2.world.resetCount = s.world.resetCount := by
  unfold System.respond
  split
  · exact ⟨rfl, rfl, rfl⟩
  · exact ⟨rfl, rfl, rfl⟩

lemma frame_processRequest (s : System) (state : State) (arrival : Arrival) (accepted : Nat) :
    (s.processRequest state accepted arrival).2.worker = s.worker ∧
      (s.processRequest state accepted arrival).2.knownResetCount = s.knownResetCount ∧
      (s.processRequest state accepted arrival).2.world.resetCount = s.world.resetCount := by
  unfold System.processRequest
  repeat' split
  all_goals first
    | exact ⟨rfl, rfl, rfl⟩
    | exact frame_respond

lemma spec_observe (h : s.scheduler.Forall Known) (resetCount : Nat) :
    Spec s none (s.observe resetCount).1 (s.observe resetCount).2 := by
  unfold System.observe
  split
  · exact ⟨moves_same rfl, h, List.forall_mem_nil _⟩
  · refine ⟨?_, h.discardPending, List.forall_mem_nil _⟩
    cases hstate : s.world.state with
    | none => exact Or.inl (by simp only [Option.map_none])
    | some state =>
      refine Or.inr ⟨state, state.clearRuntime, hstate, ?_, .cleared (.refl _)
        (List.forall_mem_nil _)⟩
      simp only [Option.map_some]

lemma spec_takeEventRequest (h : s.scheduler.Forall Known) :
    Spec s none ⟨[], []⟩ s.takeEventRequest := by
  unfold System.takeEventRequest
  cases hstate : s.world.state with
  | none => exact ⟨moves_same rfl, h, List.forall_mem_nil _⟩
  | some state =>
    simp only
    split
    · refine ⟨Or.inr
        ⟨state, _, hstate, rfl, .keep ⟨_, state.eventsEnabled, rfl⟩ uncounted_nil⟩, h, ?_⟩
      exact List.forall_mem_nil _
    · exact ⟨moves_same rfl, h, List.forall_mem_nil _⟩

lemma worker_takeEventRequest (s : System) : s.takeEventRequest.worker = s.worker ∨
    ∃ resetCount unique abort, s.takeEventRequest.worker = .waiting resetCount unique abort := by
  unfold System.takeEventRequest
  repeat' split
  · exact Or.inl rfl
  · exact Or.inr ⟨_, _, _, rfl⟩
  · exact Or.inl rfl

lemma spec_setWorker (h : Prepared s) {worker : EventWorker}
    (hworker : ∀ {resetCount unique abort : Nat} {task : Work Bytes},
      worker = .encoding resetCount unique abort task → Ready (EventStretch resetCount) task.run) :
    Spec s none ⟨[], []⟩ { s with worker := worker } ∧ Prepared { s with worker := worker } :=
  ⟨⟨moves_same rfl, h.operations, List.forall_mem_nil _⟩, ⟨h.operations, hworker⟩⟩

/-- The opcode of the operation that an action polls. -/
def System.polled (s : System) : Action → Option Opcode
  | .poll index _ _ =>
      (s.scheduler.startReady.active[index]?).map fun operation => operation.1.work.opcode
  | _ => none

theorem spec_step (h : Prepared s) (hstep : s.step action = some (out, s')) :
    Spec s (s.polled action) out s' ∧ Prepared s' := by
  cases action with
  | reset =>
    obtain ⟨resetCount, -, heq⟩ := Option.map_eq_some_iff.1 hstep
    cases heq
    exact ⟨⟨moves_same rfl, h.operations, List.forall_mem_nil _⟩, ⟨h.operations, h.worker⟩⟩
  | observe =>
    obtain ⟨resetCount, -, heq⟩ := Option.map_eq_some_iff.1 hstep
    have hspec := spec_observe h.operations resetCount
    have hworker : (s.observe resetCount).2.worker = s.worker := by
      unfold System.observe
      split
      · rfl
      · rfl
    rw [heq] at hspec hworker
    exact ⟨hspec, hspec.operations, fun hencoding => h.worker (hworker ▸ hencoding)⟩
  | poll index replies memory =>
    obtain ⟨operation, hactive, hpolled, -⟩ := polled_pollOperation h.operations hstep
    have hopcode : s.polled (.poll index replies memory) = some operation.1.work.opcode := by
      simp only [System.polled, hactive, Option.map_some]
    rw [hopcode]
    exact ⟨hpolled.spec, hpolled.spec.operations,
      fun hencoding => h.worker (hpolled.worker ▸ hencoding)⟩
  | process arrival =>
    simp only [System.step] at hstep
    split at hstep
    next resetCount state hcount hstate =>
      split at hstep
      · have heq := Option.some.inj hstep
        have hspec := spec_processRequest arrival h.operations hstate hcount
        have hworker := (frame_processRequest s state arrival resetCount).1
        rw [heq] at hspec hworker
        exact ⟨hspec, hspec.operations, fun hencoding => h.worker (hworker ▸ hencoding)⟩
      · cases hstep
    · cases hstep
  | takeEventRequest =>
    simp only [System.step] at hstep
    split at hstep
    next hidle =>
      split at hstep
      · cases hstep
        have hspec : Spec { s with signalled := false } none ⟨[], []⟩
          { s with signalled := false }.takeEventRequest :=
          spec_takeEventRequest h.operations
        refine ⟨{ hspec with }, hspec.operations, fun hencoding => ?_⟩
        rcases worker_takeEventRequest { s with signalled := false } with hworker
          | ⟨_, _, _, hworker⟩
        · exact h.worker (hworker.symm.trans hencoding)
        · cases hworker.symm.trans hencoding
      · cases hstep
    · cases hstep
  | event event =>
    simp only [System.step] at hstep
    split at hstep
    · split at hstep
      · cases hstep
      · cases hstep
        refine spec_setWorker h fun hencoding => ?_
        cases hencoding
        exact Async.ready_of_safe (safe_encodeEvent _ event)
    · cases hstep
  | eventsEnded | abortEvent =>
    simp only [System.step] at hstep
    repeat' split at hstep
    all_goals cases hstep
    all_goals exact spec_setWorker h nofun
  | pollEvent replies memory =>
    obtain ⟨resetCount, unique, abort, task, -, -, hpolled⟩ := polled_pollEvent h hstep
    exact ⟨hpolled.spec, hpolled.spec.operations, hpolled.worker⟩
  | close =>
    cases hstep
    exact ⟨⟨Or.inl rfl, h.operations, List.forall_mem_nil _⟩, ⟨h.operations, h.worker⟩⟩

lemma prepared_configure {tag : Bytes} {maxNodes : Nat} {root : Node} {stat : Stat}
    (h : System.configure tag maxNodes root stat = some s) : Prepared s := by
  unfold System.configure at h
  split at h
  · cases h
  · cases h
    exact ⟨IoScheduler.forall_new, nofun⟩

end Steps

end Terrarium.Fs
