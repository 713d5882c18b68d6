import Terrarium.Foundations.Run
import Terrarium.Fs.Requests

/-!
# Transport — the device and its guest

The device accepts requests from two rings of the guest's memory.  Requests that need no host are
answered at once; others become operations of the scheduler, whose work is resumed as the host
answers.  A second task answers one request with the next file event.  The guest may reset the
device at any time; the worker's loop notices that later and clears the tables.

* `Action`, `System.step` — what can happen between two suspensions of the device's tasks;
* `Output` — which guest memory a step touches, on behalf of which request, and a log of what it did
  to the guest's nodes.

The loop of `run` observes a reset, polls operations and then processes a request; here these are
separate actions, which may come in any order that the loop's own checks permit.
-/

namespace Terrarium.Fs

open Async (Task)

/-! ## What a step does to the guest -/

/-- An access to guest memory for a request accepted under the reset count `accepted`. -/
inductive GuestAccess where
  | write (accepted : Nat) (output : List SplitRingDescriptor) (payload : Bytes)
  | complete (accepted queue head used : Nat)
  deriving DecidableEq

def GuestAccess.accepted : GuestAccess → Nat
  | write accepted _ _ => accepted
  | complete accepted _ _ _ => accepted

/-- What a step means for the guest's nodes. -/
inductive LogEntry where
  | cleared
  | forgot (id count : Nat)
  | answered (opcode : Opcode) (result : Except Errno Bytes)

structure Output where
  accesses : List GuestAccess
  log : List LogEntry

/-- Whether the guest's memory lets a reply be written and its ring entry be completed. -/
structure Memory where
  writes : Bool
  completes : Bool
  deriving DecidableEq

def encodeResponse (unique : Nat) : Except Errno Bytes → Bytes
  | .ok body => reply unique 0 body
  | .error errno => reply unique errno []

/-- Copies a reply into the guest's buffers and completes its ring entry; returns whether that
worked. -/
def sendReply (target : PendingReply) (payload : Bytes) (memory : Memory) :
    Bool × List GuestAccess :=
  if (target.output.map SplitRingDescriptor.len).sum < payload.length then
    (false, [])
  else if memory.writes ∧ payload.length < 2 ^ 32 then
    (memory.completes, [.write target.resetCount target.output payload,
      .complete target.resetCount target.queue target.head payload.length])
  else
    (false, [.write target.resetCount target.output payload])

/-- A reply, or an empty entry where it cannot be sent. -/
def sendOrComplete (target : PendingReply) (payload : Bytes) (memory : Memory) : List GuestAccess :=
  let (sent, accesses) := sendReply target payload memory
  if sent then accesses else accesses ++ [.complete target.resetCount target.queue target.head 0]

/-! ## The state of the device -/

/-- The task that answers a request with the next event.  It knows the reset count and the number of
the request it was begun for, and the request's abort handle. -/
inductive EventWorker where
  | idle
  | waiting (resetCount unique abort : Nat)
  | encoding (resetCount unique abort : Nat) (task : Work Bytes)
  | ended

structure System where
  world : World
  scheduler : IoScheduler RequestWork
  knownResetCount : Nat
  worker : EventWorker
  /-- The channel to the event worker, which holds one signal. -/
  signalled : Bool
  nextAbort : Nat

namespace System

def configure (tag : Bytes) (maxNodes : Nat) (root : Node) (stat : Stat) : Option System :=
  if tag = [] ∨ 36 < tag.length ∨ maxNodes < 1 ∨ maxNodeCount < maxNodes then
    none
  else
    some {
      world := ⟨some (.new maxNodes (some ⟨stat.dev, stat.ino, 1, root⟩)), some 0⟩
      scheduler := .new
      knownResetCount := 0
      worker := .idle
      signalled := false
      nextAbort := 0 }

def setState (s : System) (state : State) : System :=
  { s with world := { s.world with state := some state } }

end System

/-! ## Accepting a request -/

inductive Outcome where
  | queued (scheduler : IoScheduler RequestWork)
  | answered (result : Except Errno Bytes) (state : State)

def executeRequest (state : State) (scheduler : IoScheduler RequestWork) (request : Request)
    (target : PendingReply) : Outcome :=
  if request.opcode = .init ∧ scheduler.hasWorkFromResetCount target.resetCount then
    .answered (.error ebusy) state
  else
    match executeImmediate state request with
    | some (result, state) => .answered result state
    | none =>
        match prepareIo state request target.resetCount >>= fun operation =>
          scheduler.enqueue (operation, target) with
        | .ok scheduler => .queued scheduler
        | .error errno => .answered (.error errno) state

/-- Answers the request for events, if there is one; its abort handle is used. -/
def replyToEventRequest (state : State) (current : Option Nat) (result : Except Errno Bytes)
    (memory : Memory) : Bool × Output × State :=
  match state.eventRequest with
  | none => (true, ⟨[], []⟩, state)
  | some request =>
      let state := { state with eventRequest := none }
      if current = some request.reply.resetCount then
        let (sent, accesses) :=
          sendReply request.reply (encodeResponse request.reply.unique result) memory
        (sent, ⟨accesses, [.answered .receiveEvent result]⟩, state)
      else
        (true, ⟨[], []⟩, state)

def cancelEventRequest (state : State) (current : Option Nat) (memory : Memory) :
    Bool × Output × State :=
  replyToEventRequest { state with eventsEnabled := false } current (.error enodev) memory

/-- A request in a ring: its head, and its buffers if they can be read. -/
structure Arrival where
  queue : Nat
  head : Nat
  buffers : Option (Bytes × List SplitRingDescriptor)
  memory : Memory

def Arrival.target (arrival : Arrival) (accepted unique : Nat) (output : List SplitRingDescriptor) :
    PendingReply :=
  ⟨arrival.queue, arrival.head, output, unique, accepted⟩

def forgetItems (request : Request) : List (Nat × Nat) :=
  match request.opcode with
  | .forget => [(request.node, (u64At request.body 0).toOption.getD 0)]
  | .forgetMulti =>
      match u32At request.body 0 with
      | .error _ => []
      | .ok count =>
          if maxNodeCount < count ∨ request.body.length ≠ 8 + count * 16 then
            []
          else
            (List.range count).map fun index =>
              ((u64At request.body (8 + 16 * index)).toOption.getD 0,
                (u64At request.body (8 + 16 * index + 8)).toOption.getD 0)
  | _ => []

def wantsEvent (state : State) (request : Request) (output : List SplitRingDescriptor) : Bool :=
  request.opcode = .receiveEvent && state.eventsEnabled && state.eventRequest.isNone &&
    request.node = 1 && request.body.isEmpty && 296 ≤ (output.map SplitRingDescriptor.len).sum

namespace System

/-- The tables are new to the guest. -/
def clearedBy (request : Request) (result : Except Errno Bytes) : List LogEntry :=
  match request.opcode, result with
  | .init, .ok _ => [.cleared]
  | _, _ => []

variable (s : System)

/-- Executes a request that has room for an answer. -/
def respond (state : State) (arrival : Arrival) (request : Request) (target : PendingReply) :
    Output × System :=
  match executeRequest state s.scheduler request target with
  | .queued scheduler => (⟨[], []⟩, { s.setState state with scheduler := scheduler })
  | .answered result state =>
      (⟨sendOrComplete target (encodeResponse target.unique result) arrival.memory,
        clearedBy request result ++ [.answered request.opcode result]⟩, s.setState state)

/-- `process_request`; the reset count does not change during the call. -/
def processRequest (state : State) (accepted : Nat) (arrival : Arrival) : Output × System :=
  let malformed : GuestAccess := .complete accepted arrival.queue arrival.head 0
  match arrival.buffers with
  | none => (⟨[malformed], []⟩, s)
  | some (input, output) =>
      match request input with
      | .error errno =>
          if output = [] then
            (⟨[malformed], []⟩, s)
          else
            (⟨sendOrComplete (arrival.target accepted 0 output)
              (reply 0 errno []) arrival.memory, []⟩, s)
      | .ok request =>
          if request.opcode = .forget ∨ request.opcode = .forgetMulti then
            (⟨[malformed], (forgetItems request).map fun item => .forgot item.1 item.2⟩,
              s.setState (forgetRequest state request).2)
          else if output = [] then
            (⟨[malformed], []⟩, s)
          else
            let target := arrival.target accepted request.unique output
            if wantsEvent state request output then
              (⟨[], []⟩,
                { s.setState { state with eventRequest := some ⟨target, s.nextAbort, true⟩ } with
                  signalled := true
                  nextAbort := s.nextAbort + 1 })
            else if request.opcode = .cancelEvents then
              let (replied, output, state) :=
                cancelEventRequest state s.world.resetCount arrival.memory
              if replied then
                let (output', s) := s.respond state arrival request target
                (⟨output.accesses ++ output'.accesses, output.log ++ output'.log⟩, s)
              else
                (output, s.setState state)
            else
              s.respond state arrival request target

/-! ## Polling -/

/-- The active operation at an index goes on. -/
def pollOperation (index : Nat) (replies : ∀ call, HostCall.Reply call)
    (memory : Memory) : Option (Output × System) :=
  match s.scheduler.startReady.active[index]? with
  | none => none
  | some operation =>
      let work := operation.1.work
      match (work.task.run.resume replies).poll s.world with
      | (.done result, world) =>
          let accesses :=
            if world.resetCount = some operation.2.resetCount then
              sendOrComplete operation.2 (encodeResponse operation.2.unique result) memory
            else
              []
          let log := if world.resetCount = some operation.2.resetCount then
            [.answered work.opcode result] else []
          some (⟨accesses, log⟩,
            { s with
              world := world, scheduler := (s.scheduler.pollComplete (some (index, result))).2 })
      | (task, world) =>
          let scheduler := s.scheduler.startReady
          some (⟨[], []⟩,
            { s with
              world := world
              scheduler :=
                { scheduler with
                  active := scheduler.active.set index
                    ({ operation.1 with work := ⟨work.opcode, task⟩ }, operation.2) } })

/-- The event worker takes the request that it was signalled about. -/
def takeEventRequest : System :=
  match s.world.state with
  | none => s
  | some state =>
      match state.eventRequest with
      | some ⟨reply, abort, true⟩ =>
          { s.setState { state with eventRequest := some ⟨reply, abort, false⟩ } with
            worker := .waiting reply.resetCount reply.unique abort }
      | _ => s

/-- A request's abort handle is used exactly when the request is taken from the tables. -/
def isAborted (abort : Nat) : Bool :=
  match s.world.state.bind State.eventRequest with
  | some request => request.abort ≠ abort
  | none => true

/-- The event worker sends its message, if the request it was begun for is still there. -/
def sendEvent (resetCount unique : Nat) (payload : Bytes) (memory : Memory) : Output × System :=
  if s.world.resetCount = some resetCount then
    match s.world.state with
    | none => (⟨[], []⟩, s)
    | some state =>
        if state.eventRequest.any fun request => request.reply.unique = unique then
          let (_, output, state) :=
            replyToEventRequest state s.world.resetCount (.ok payload) memory
          (output, s.setState state)
        else
          (⟨[], []⟩, s)
  else
    (⟨[], []⟩, s)

def pollEvent (replies : ∀ call, HostCall.Reply call) (memory : Memory) :
    Option (Output × System) :=
  match s.worker with
  | .encoding resetCount unique abort task =>
      if s.isAborted abort then
        none
      else
        match (task.run.resume replies).poll s.world with
        | (.done (.ok payload), world) =>
            some ({ s with world := world, worker := .idle }.sendEvent resetCount unique
              payload memory)
        | (.done (.error _), world) =>
            some (⟨[], []⟩, { s with world := world, worker := .waiting resetCount unique abort })
        | (task, world) =>
            some (⟨[], []⟩,
              { s with world := world, worker := .encoding resetCount unique abort task })
  | _ => none

end System

/-! ## Runs -/

inductive Action where
  | reset
  /-- The loop looks at the reset count. -/
  | observe
  /-- The scheduler starts operations, and the one at an index goes on with the host's reply. -/
  | poll (index : Nat) (replies : ∀ call, HostCall.Reply call) (memory : Memory)
  | process (arrival : Arrival)
  | takeEventRequest
  | event (event : FileEvent)
  | eventsEnded
  | pollEvent (replies : ∀ call, HostCall.Reply call) (memory : Memory)
  /-- The event worker sees that its request was aborted. -/
  | abortEvent
  | close

namespace System

def observe (s : System) (resetCount : Nat) : Output × System :=
  if resetCount = s.knownResetCount then
    (⟨[], []⟩, s)
  else
    (⟨[], [.cleared]⟩,
      { s with
        world := { s.world with state := s.world.state.map State.clearRuntime }
        scheduler := s.scheduler.discardPending
        knownResetCount := resetCount })

def step (s : System) : Action → Option (Output × System)
  | .reset =>
      s.world.resetCount.map fun resetCount =>
        (⟨[], []⟩,
          { s with world := { s.world with resetCount := some ((resetCount + 1) % 2 ^ 64) } })
  | .observe => s.world.resetCount.map s.observe
  | .poll index replies memory => s.pollOperation index replies memory
  | .process arrival =>
      match s.world.resetCount, s.world.state with
      | some resetCount, some state =>
          if resetCount = s.knownResetCount then some (s.processRequest state resetCount arrival)
            else none
      | _, _ => none
  | .takeEventRequest =>
      match s.worker with
      | .idle => if s.signalled then some (⟨[], []⟩, { s with signalled := false }.takeEventRequest)
          else none
      | _ => none
  | .event event =>
      match s.worker with
      | .waiting resetCount unique abort =>
          if s.isAborted abort then none
          else some (⟨[], []⟩,
            { s with worker := .encoding resetCount unique abort (encodeEvent resetCount event) })
      | _ => none
  | .eventsEnded =>
      match s.worker with
      | .waiting _ _ abort =>
          if s.isAborted abort then none else some (⟨[], []⟩, { s with worker := .ended })
      | _ => none
  | .pollEvent replies memory => s.pollEvent replies memory
  | .abortEvent =>
      match s.worker with
      | .waiting _ _ abort =>
          if s.isAborted abort then some (⟨[], []⟩, { s with worker := .idle }) else none
      | .encoding _ _ abort _ =>
          if s.isAborted abort then some (⟨[], []⟩, { s with worker := .idle }) else none
      | _ => none
  | .close => some (⟨[], []⟩, { s with world := ⟨none, none⟩ })

end System
end Terrarium.Fs
