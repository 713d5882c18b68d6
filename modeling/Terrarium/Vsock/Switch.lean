import Terrarium.Foundations.KeyedList
import Terrarium.Foundations.Run
import Terrarium.Vsock.Stream

/-!
# Switch — the endpoints of one vsock device

`Endpoint` and `VsockSwitch` of `components/vsock-device/src/switch.rs`: the fixed agent and control
endpoints followed by the flows, the connection numbers that tell successive connections on one port
tuple apart, admission, retirement, and the rotation that drains replies.

`endpoint_index` and `connection_index` return an index which every caller uses to access the
endpoint; the model returns the index and the endpoint together.

Connection numbers are `u64` in the source, where running out of them aborts the process.  Here the
counter is a natural number and `step` has no successor once it would leave the `u64` range.
-/

namespace Terrarium.Vsock

open KeyedList

/-! ## Roles and endpoints -/

inductive Role
  | agent
  | control
  | tcp
  | udp
  | publication
  deriving DecidableEq

def Role.buffers : Role → UInt32 × Nat
  | .agent => (agentUpstreamBytes, agentReplyBytes)
  | .control => (controlUpstreamBytes, controlReplyBytes)
  | .tcp | .udp | .publication => (flowUpstreamBytes, flowReplyBytes)

structure ConnectionId where
  role : Role
  guestPort : UInt32
  hostPort : UInt32
  number : Nat
  deriving DecidableEq

def ConnectionId.tuple (c : ConnectionId) : Tuple :=
  ⟨c.guestPort, c.hostPort⟩

structure Endpoint where
  role : Role
  stream : StreamConnection
  connectionNumber : Nat
  retiring : Option Nat
  deriving DecidableEq

namespace Endpoint

def new (role : Role) (guestPort hostPort : UInt32) (connectionNumber : Nat) : Endpoint :=
  { role := role
    stream := StreamConnection.new guestPort hostPort role.buffers.1 role.buffers.2
    connectionNumber := connectionNumber
    retiring := none }

def tuple (e : Endpoint) : Tuple :=
  e.stream.tuple

def identity (e : Endpoint) (connectionNumber : Nat) : ConnectionId :=
  { role := e.role
    guestPort := e.stream.guestPort
    hostPort := e.stream.hostPort
    number := connectionNumber }

def connected (e : Endpoint) : Option ConnectionId :=
  e.stream.connection.map fun _ => e.identity e.connectionNumber

def isLive (e : Endpoint) : Bool :=
  e.stream.isLive

def retire (e : Endpoint) (connectionNumber : Nat) : Endpoint :=
  let e' :=
    if e.isLive || e.retiring.isNone then
      { e with retiring := some e.connectionNumber, connectionNumber := connectionNumber }
    else e
  { e' with
    stream :=
      { e'.stream.dropConnection with
        replies := e'.stream.replies.filter fun reply => reply.header.op == opRst
        replyBytes := 0 } }

def withStream (e : Endpoint) (stream : StreamConnection) : Endpoint :=
  { e with stream := stream }

end Endpoint

/-! ## The switch -/

/-- Fixed agent and control endpoints followed by at most `maxNetworkSockets` flows. -/
structure VsockSwitch where
  endpoints : List Endpoint
  nextConnectionNumber : Nat
  networkEnabled : Bool
  networkSocketCapacity : Nat
  nextReply : Nat
  nextFlowReply : Nat
  rejected : List Reply
  deriving DecidableEq

abbrev fixedEndpoints : Nat := 2
/-- Agent, control, then every flow as one class. -/
abbrev replyClasses : Nat := fixedEndpoints + 1

namespace VsockSwitch

def withNetworkSocketCapacity (networkEnabled : Bool) (networkSocketCapacity : Nat) : VsockSwitch :=
  { endpoints :=
      [ Endpoint.new .agent agentPort agentPort 1,
        Endpoint.new .control controlPort controlPort 2 ]
    nextConnectionNumber := 3
    networkEnabled := networkEnabled
    networkSocketCapacity := min networkSocketCapacity maxNetworkSockets
    nextReply := 0
    nextFlowReply := 0
    rejected := [] }

variable (s : VsockSwitch)

def allocateConnectionNumber : Nat × VsockSwitch :=
  (s.nextConnectionNumber, { s with nextConnectionNumber := s.nextConnectionNumber + 1 })

def classify (guestPort hostPort : UInt32) : Option Role :=
  if guestPort = agentPort ∧ hostPort = agentPort then
    some .agent
  else if guestPort = controlPort ∧ hostPort = controlPort ∧ s.networkEnabled then
    some .control
  else if hostPort = tcpPort ∧ s.networkEnabled ∧ isFlowGuestPort guestPort then
    some .tcp
  else if hostPort = udpPort ∧ s.networkEnabled ∧ isFlowGuestPort guestPort then
    some .udp
  else if guestPort = publicationPort ∧ s.networkEnabled ∧ publicationHostPorts hostPort then
    some .publication
  else none

def endpointIndex (t : Tuple) : Option (Nat × Endpoint) :=
  locate Endpoint.tuple s.endpoints t

def connectionIndex (c : ConnectionId) : Option (Nat × Endpoint) :=
  (s.endpointIndex c.tuple).filter fun found => found.2.connected = some c

def setEndpoint (index : Nat) (e : Endpoint) : VsockSwitch :=
  { s with endpoints := s.endpoints.set index e }

def networkSocketCount : Nat :=
  s.endpoints.length - fixedEndpoints

def reject (h : VsockHeader) : VsockSwitch :=
  if h.op ≠ opRst ∧ s.rejected.length < maxRejectedResets then
    let connectionNumber :=
      match s.endpointIndex h.guestTuple with
      | none => 0
      | some (_, e) => e.connectionNumber
    { s with
      rejected := s.rejected ++
        [{ connectionNumber := connectionNumber
           header := { hostHeader h.dstPort h.srcPort with op := opRst }
           payload := [] }] }
  else s

def purgeRejected (t : Tuple) : VsockSwitch :=
  { s with rejected := s.rejected.filter fun reply => reply.header.replyTuple != t }

def retireEndpoint (index : Nat) (e : Endpoint) : VsockSwitch :=
  let (connectionNumber, s') := s.allocateConnectionNumber
  s'.setEndpoint index (e.retire connectionNumber)

/-! ## Guest packets -/

/-- The tail of `rx`, once the packet's endpoint is known. -/
def rxAt (index : Nat) (e : Endpoint) (h : VsockHeader) (bytes : List UInt8) :
    Option ConnectionId × VsockSwitch :=
  if e.retiring.isSome then
    (none, s.reject h)
  else
    let touched := e.identity e.connectionNumber
    let e' := e.withStream (e.stream.rx h bytes)
    if e.isLive && !e'.isLive then
      (some touched, s.retireEndpoint index e')
    else
      (some touched, s.setEndpoint index e')

/-- The header checks a request has to pass to open a flow. -/
def opensFlow (role : Role) (h : VsockHeader) (bytes : List UInt8) : Bool :=
  (role == .tcp || role == .udp) &&
    h.op == opRequest &&
    h.type_ == typeStream &&
    h.srcCid == guestCid &&
    h.dstCid == hostCid &&
    h.len == 0 &&
    bytes.isEmpty &&
    h.flags == 0 &&
    h.fwdCnt == 0

def rx (h : VsockHeader) (bytes : List UInt8) : Option ConnectionId × VsockSwitch :=
  match s.classify h.srcPort h.dstPort with
  | none => (none, s.reject h)
  | some role =>
      match s.endpointIndex h.guestTuple with
      | some (index, e) => s.rxAt index e h bytes
      | none =>
          if ¬ opensFlow role h bytes ∨ s.networkSocketCount ≥ s.networkSocketCapacity then
            (none, s.reject h)
          else
            -- Resets kept for earlier packets of this tuple must not reach the new connection.
            let (connectionNumber, s') := (s.purgeRejected h.guestTuple).allocateConnectionNumber
            let e := Endpoint.new role h.srcPort h.dstPort connectionNumber
            { s' with endpoints := s'.endpoints ++ [e] }.rxAt s'.endpoints.length e h bytes

/-! ## Host calls -/

/-- Queue a host-initiated request to the guest publication listener. -/
def connectPublication (hostPort : UInt32) : Except VsockError ConnectionId × VsockSwitch :=
  if ¬ s.networkEnabled ∨ ¬ publicationHostPorts hostPort ∨
      s.networkSocketCount ≥ s.networkSocketCapacity then
    (.error .backpressure, s)
  else if (s.endpointIndex ⟨publicationPort, hostPort⟩).isSome then
    (.error .busy, s)
  else
    let (connectionNumber, s') := s.allocateConnectionNumber
    let e := Endpoint.new .publication publicationPort hostPort connectionNumber
    match e.stream.request with
    -- The connection number is spent even though no endpoint is added.
    | none => (.error .backpressure, s')
    | some stream =>
        (.ok (e.identity connectionNumber),
          { s' with endpoints := s'.endpoints ++ [e.withStream stream] })

def isCurrent (c : ConnectionId) : Bool :=
  (s.connectionIndex c).isSome

/-- Run a stream call on a current connection. -/
def onStream {ρ : Type} (s : VsockSwitch) (c : ConnectionId)
    (call : StreamConnection → Except VsockError ρ × StreamConnection) :
    Except VsockError ρ × VsockSwitch :=
  match s.connectionIndex c with
  | none => (.error .unknownConnection, s)
  | some (index, e) =>
      let r := call e.stream
      (r.1, s.setEndpoint index (e.withStream r.2))

def requestCredit (c : ConnectionId) : Except VsockError Bool × VsockSwitch :=
  s.onStream c fun stream => (.ok stream.requestCredit.1, stream.requestCredit.2)

def deliver (c : ConnectionId) (bytes : List UInt8) : Except VsockError Unit × VsockSwitch :=
  if bytes.length > maxPacketDataBytes.toNat then
    (.error .backpressure, s)
  else
    s.onStream c fun stream => stream.deliver bytes

def shutdown (c : ConnectionId) : Except VsockError Unit × VsockSwitch :=
  s.onStream c fun stream => stream.shutdown

def resetConnection (c : ConnectionId) : Except VsockError Unit × VsockSwitch :=
  match (s.endpointIndex c.tuple).filter fun found =>
      found.2.connectionNumber = c.number && found.2.isLive with
  | none => (.error .unknownConnection, s)
  | some (index, e) =>
      (.ok (),
        s.retireEndpoint index (e.withStream (e.stream.tryRst c.guestPort c.hostPort)))

def consumeUpstream (c : ConnectionId) (maxBytes : Nat) : Except VsockError Unit × VsockSwitch :=
  match s.connectionIndex c with
  | none => (.error .unknownConnection, s)
  | some (index, e) =>
      let e' := e.withStream (e.stream.consumeUpstream maxBytes)
      -- Consuming may end the connection when its credit update finds no room.
      if e'.stream.connection.isNone then
        (.ok (), s.retireEndpoint index e')
      else
        (.ok (), s.setEndpoint index e')

/-- The input bytes `peek_upstream` shows of a current connection. -/
def peekUpstream (c : ConnectionId) (maxBytes : Nat) : List UInt8 :=
  match s.connectionIndex c with
  | none => []
  | some (_, e) => e.stream.upstream.take maxBytes

/-- Return true when the retired connection number and its queued reset have been released. -/
def retireConnection (c : ConnectionId) : Bool × VsockSwitch :=
  match s.endpointIndex c.tuple with
  | none => (false, s)
  | some (index, e) =>
      if e.role ≠ c.role ∨ e.retiring ≠ some c.number ∨ e.stream.replies ≠ [] then
        (false, s)
      -- A flow leaves for good; a fixed endpoint stays, under a number of its own.
      else if index ≥ fixedEndpoints then
        (true, { s with endpoints := s.endpoints.eraseIdx index }.purgeRejected c.tuple)
      else
        let (connectionNumber, s') := s.allocateConnectionNumber
        let e' := { e with retiring := none, connectionNumber := connectionNumber }
        (true, (s'.setEndpoint index e').purgeRejected c.tuple)

/-! ## Resets -/

/-- Physical reset of one endpoint, with the next free connection number. -/
def resetEndpoint (connectionNumber : Nat) (e : Endpoint) : Endpoint × Nat :=
  let r := if e.isLive then (e.retire connectionNumber, connectionNumber + 1)
    else (e, connectionNumber)
  (r.1.withStream { r.1.stream with replies := [] }, r.2)

def resetConnections : VsockSwitch :=
  let r := sweep resetEndpoint s.nextConnectionNumber s.endpoints
  { s with endpoints := r.1, nextConnectionNumber := r.2, rejected := [] }

/-- Network loss at one endpoint, with the next free connection number. -/
def resetNetworkEndpoint (connectionNumber : Nat) (e : Endpoint) : Endpoint × Nat :=
  if e.isLive then
    ((e.withStream (e.stream.tryRst e.stream.guestPort e.stream.hostPort)).retire connectionNumber,
      connectionNumber + 1)
  else (e, connectionNumber)

/-- Every endpoint but the first, the agent's, loses its connection. -/
def resetNetworkConnections : VsockSwitch :=
  let r := sweep resetNetworkEndpoint s.nextConnectionNumber (s.endpoints.drop 1)
  { s with endpoints := s.endpoints.take 1 ++ r.1, nextConnectionNumber := r.2 }

def disableNetwork : VsockSwitch :=
  { s with networkEnabled := false }.resetNetworkConnections

/-! ## Draining replies -/

def takeReplyFrom (index maxBytes : Nat) : Option (Reply × VsockSwitch) :=
  s.endpoints[index]?.bind fun e =>
    (e.stream.takeReply maxBytes).map fun r =>
      ({ r.1 with connectionNumber := e.connectionNumber },
        s.setEndpoint index (e.withStream r.2))

def takeFlowReply (maxBytes : Nat) : Option (Reply × VsockSwitch) :=
  let count := s.networkSocketCount
  (List.range count).findSome? fun offset =>
    let index := fixedEndpoints + (s.nextFlowReply + offset) % count
    (s.takeReplyFrom index maxBytes).map fun r =>
      (r.1, { r.2 with nextFlowReply := (index - fixedEndpoints + 1) % count })

/-- One turn of the class rotation; a class that has nothing to give leaves the switch alone. -/
def takeClassReply (maxBytes : Nat) : Option (Reply × VsockSwitch) :=
  (List.range replyClasses).findSome? fun offset =>
    let replyClass := (s.nextReply + offset) % replyClasses
    let reply :=
      if replyClass < fixedEndpoints then s.takeReplyFrom replyClass maxBytes
      else s.takeFlowReply maxBytes
    reply.map fun r => (r.1, { r.2 with nextReply := (replyClass + 1) % replyClasses })

def takeReply (maxBytes : Nat) : Option Reply × VsockSwitch :=
  match s.takeClassReply maxBytes with
  | some (reply, s') => (some reply, s')
  | none =>
      match s.rejected with
      | [] => (none, s)
      | reply :: rest => (some reply, { s with rejected := rest })

/-- The loop of `take_replies_up_to`, on the number of items still wanted. -/
def takeRepliesUpTo (s : VsockSwitch) : Nat → Nat → List Reply × VsockSwitch
  | 0, _ => ([], s)
  | maxItems + 1, remaining =>
      match s.takeReply remaining with
      | (none, s') => ([], s')
      | (some reply, s') =>
          let r := takeRepliesUpTo s' maxItems (remaining - reply.payload.length)
          (reply :: r.1, r.2)

def isReplyCurrent (reply : Reply) : Bool :=
  match s.endpointIndex reply.header.replyTuple with
  | none => reply.connectionNumber = 0
  | some (_, e) =>
      e.connectionNumber = reply.connectionNumber &&
        (reply.header.op != opRw ||
          !(e.stream.connection.any fun connection => connection.peerReceiveClosed))

end VsockSwitch

/-! ## Runs -/

/-- The public operations that can change a switch. -/
inductive Op
  | rx (h : VsockHeader) (bytes : List UInt8)
  | deliver (c : ConnectionId) (bytes : List UInt8)
  | consumeUpstream (c : ConnectionId) (maxBytes : Nat)
  | shutdown (c : ConnectionId)
  | requestCredit (c : ConnectionId)
  | resetConnection (c : ConnectionId)
  | connectPublication (hostPort : UInt32)
  | takeReply (maxBytes : Nat)
  | takeRepliesUpTo (maxItems maxBytes : Nat)
  | retireConnection (c : ConnectionId)
  | resetConnections
  | disableNetwork
  deriving DecidableEq

inductive Outcome
  | touched (c : Option ConnectionId)
  | result (r : Except VsockError Unit)
  | credit (r : Except VsockError Bool)
  | published (r : Except VsockError ConnectionId)
  | replies (rs : List Reply)
  | released (b : Bool)
  | done

namespace VsockSwitch

def apply (s : VsockSwitch) : Op → Outcome × VsockSwitch
  | .rx h bytes => (.touched (s.rx h bytes).1, (s.rx h bytes).2)
  | .deliver c bytes => (.result (s.deliver c bytes).1, (s.deliver c bytes).2)
  | .consumeUpstream c n => (.result (s.consumeUpstream c n).1, (s.consumeUpstream c n).2)
  | .shutdown c => (.result (s.shutdown c).1, (s.shutdown c).2)
  | .requestCredit c => (.credit (s.requestCredit c).1, (s.requestCredit c).2)
  | .resetConnection c => (.result (s.resetConnection c).1, (s.resetConnection c).2)
  | .connectPublication p => (.published (s.connectPublication p).1, (s.connectPublication p).2)
  | .takeReply n => (.replies (s.takeReply n).1.toList, (s.takeReply n).2)
  | .takeRepliesUpTo k n => (.replies (s.takeRepliesUpTo k n).1, (s.takeRepliesUpTo k n).2)
  | .retireConnection c => (.released (s.retireConnection c).1, (s.retireConnection c).2)
  | .resetConnections => (.done, s.resetConnections)
  | .disableNetwork => (.done, s.disableNetwork)

/-- The process aborts when it runs out of connection numbers. -/
def numbered {ρ : Type} (r : ρ × VsockSwitch) : Option (ρ × VsockSwitch) :=
  if r.2.nextConnectionNumber < 2 ^ 64 then some r else none

/-- One public call; no successor when it would run out of connection numbers. -/
def step (s : VsockSwitch) (op : Op) : Option (Outcome × VsockSwitch) :=
  numbered (s.apply op)

lemma step_eq_apply (s : VsockSwitch) (op : Op)
    (h : (s.apply op).2.nextConnectionNumber < 2 ^ 64) : s.step op = some (s.apply op) :=
  if_pos h

lemma apply_of_step {s s' : VsockSwitch} {op : Op} {out : Outcome}
    (h : s.step op = some (out, s')) : (s.apply op).1 = out ∧ (s.apply op).2 = s' := by
  simp only [step, numbered, Option.ite_none_right_eq_some, Option.some.injEq] at h
  rw [h.2]
  exact ⟨rfl, rfl⟩

end VsockSwitch

abbrev SwitchEvent : Type := Run.Event VsockSwitch Op Outcome

abbrev SwitchRun (s : VsockSwitch) (es : List SwitchEvent) (t : VsockSwitch) : Prop :=
  Run.Trace VsockSwitch.step s es t

lemma VsockSwitch.run_of_exec (s : VsockSwitch) {t : VsockSwitch} (ops : List Op)
    (h : (Run.exec VsockSwitch.step s ops).map Prod.snd = some t) : ∃ es, SwitchRun s es t :=
  Run.exec_reaches ops h

/-- A switch with room for one flow, and the identity of the first flow that a guest opens on it. -/
abbrev VsockSwitch.oneFlow : VsockSwitch := withNetworkSocketCapacity true 1

abbrev VsockSwitch.firstFlow : ConnectionId := ⟨.tcp, 49152, tcpPort, 3⟩

end Terrarium.Vsock
