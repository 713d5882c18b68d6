import Terrarium.Vsock.Packet

/-!
# Stream — one bounded vsock stream

`StreamConnection` of `components/vsock-device/src/switch.rs`: the credit counters of a connection,
its input byte queue and its reply queue, with one function per method of the source.

A method that mutates `self` returns the new stream.  `queue_reply`, `respond`, `rst` and `request`
return `false` exactly when they leave `self` alone, so they are modelled by `Option`: `none` is the
refused call.  `usize` counts and the byte queues are `Nat` and `List UInt8`; the 32-bit counters
are `UInt32`, whose `+` and `-` wrap as `wrapping_add` and `wrapping_sub` do.
-/

namespace Terrarium.Vsock

/-! ## Connections -/

structure Connection where
  peerBufAlloc : UInt32
  peerFwdCnt : UInt32
  rxReceived : UInt32
  rxFwdCnt : UInt32
  rxCreditUpdateFwdCnt : UInt32
  isReceiveCreditRequested : Bool
  txFwdCnt : UInt32
  isCreditRequested : Bool
  txShutdown : Bool
  peerReceiveClosed : Bool
  rxShutdown : Bool
  deriving DecidableEq

def Connection.new (peerBufAlloc : UInt32) : Connection :=
  { peerBufAlloc := peerBufAlloc
    peerFwdCnt := 0
    rxReceived := 0
    rxFwdCnt := 0
    rxCreditUpdateFwdCnt := 0
    isReceiveCreditRequested := false
    txFwdCnt := 0
    isCreditRequested := false
    txShutdown := false
    peerReceiveClosed := false
    rxShutdown := false }

def queuedBytes (connection : Connection) : UInt32 :=
  connection.rxReceived - connection.rxFwdCnt

def unackedBytes (sent acknowledged : UInt32) : UInt32 :=
  sent - acknowledged

def ackAhead (acknowledged sent : UInt32) : Bool :=
  acknowledged != sent && acknowledged - sent < 0x80000000

/-- `u32::saturating_sub`. -/
def saturatingSub (a b : UInt32) : UInt32 :=
  if b ≤ a then a - b else 0

/-- `u32::try_from(n).unwrap_or(u32::MAX)`. -/
def u32OrMax (n : Nat) : UInt32 :=
  if n < 2 ^ 32 then UInt32.ofNat n else 0xffffffff

/-! ## Replies and streams -/

structure Reply where
  connectionNumber : Nat
  header : VsockHeader
  payload : List UInt8
  deriving DecidableEq

inductive VsockError
  | backpressure
  | busy
  | unknownConnection
  deriving DecidableEq

structure StreamConnection where
  connection : Option Connection
  isConnecting : Bool
  guestPort : UInt32
  hostPort : UInt32
  rxAlloc : UInt32
  maxTxBytes : Nat
  upstream : List UInt8
  replies : List Reply
  replyBytes : Nat
  deriving DecidableEq

def hostHeader (hostPort guestPort : UInt32) : VsockHeader :=
  { srcCid := hostCid
    dstCid := guestCid
    srcPort := hostPort
    dstPort := guestPort
    len := 0
    type_ := typeStream
    op := 0
    flags := 0
    bufAlloc := 0
    fwdCnt := 0 }

namespace StreamConnection

def new (guestPort hostPort rxAlloc : UInt32) (maxTxBytes : Nat) : StreamConnection :=
  { connection := none
    isConnecting := false
    guestPort := guestPort
    hostPort := hostPort
    rxAlloc := rxAlloc
    maxTxBytes := maxTxBytes
    upstream := []
    replies := []
    replyBytes := 0 }

variable (s : StreamConnection)

/-- Connected or connecting; `Endpoint::is_live` of the source. -/
def isLive : Bool :=
  s.connection.isSome || s.isConnecting

def tuple : Tuple :=
  ⟨s.guestPort, s.hostPort⟩

/-! ## Queueing replies -/

def canQueueReply (payloadLen : Nat) : Bool :=
  s.replies.length < maxQueuedReplies && s.replyBytes + payloadLen ≤ s.maxTxBytes

def noteCreditUpdate (fwdCnt : UInt32) (connection : Option Connection) : Option Connection :=
  connection.map fun c => { c with rxCreditUpdateFwdCnt := fwdCnt }

def queueReply (reply : Reply) : Option StreamConnection :=
  if s.canQueueReply reply.payload.length then
    some
      { s with
        replyBytes := s.replyBytes + reply.payload.length
        replies := s.replies ++ [reply]
        connection :=
          if reply.header.op = opCreditUpdate then
            noteCreditUpdate reply.header.fwdCnt s.connection
          else s.connection }
  else none

def rstReply (guestPort hostPort : UInt32) : Reply :=
  { connectionNumber := 0
    header := { hostHeader hostPort guestPort with op := opRst }
    payload := [] }

def rst (guestPort hostPort : UInt32) : Option StreamConnection :=
  s.queueReply (rstReply guestPort hostPort)

/-- `rst` as a statement: its result is ignored by every caller. -/
def tryRst (guestPort hostPort : UInt32) : StreamConnection :=
  (s.rst guestPort hostPort).getD s

/-- A header of this stream that carries its receive window and `fwdCnt`. -/
def creditHeader (op : UInt16) (flags fwdCnt : UInt32) : VsockHeader :=
  { hostHeader s.hostPort s.guestPort with
    op := op
    flags := flags
    bufAlloc := s.rxAlloc
    fwdCnt := fwdCnt }

def endsInCreditUpdate : Bool :=
  s.replies.getLast?.any fun reply => reply.header.op = opCreditUpdate

def rewriteLast (fwdCnt : UInt32) (replies : List Reply) : List Reply :=
  replies.modifyLast fun reply => { reply with header := { reply.header with fwdCnt := fwdCnt } }

def respond (connection : Connection) (op : UInt16) (flags : UInt32) : Option StreamConnection :=
  -- An update that is still waiting at the end of the queue is brought up to date instead.
  if op = opCreditUpdate ∧ s.endsInCreditUpdate then
    some
      { s with
        replies := rewriteLast connection.rxFwdCnt s.replies
        connection := noteCreditUpdate connection.rxFwdCnt s.connection }
  else
    s.queueReply
      { connectionNumber := 0
        header := s.creditHeader op flags connection.rxFwdCnt
        payload := [] }

def dropConnection : StreamConnection :=
  { s with
    connection := none
    isConnecting := false
    upstream := [] }

/-! ## Guest packets -/

/-- A connection that has taken over the window and acknowledgement of `h`. -/
def credited (connection : Connection) (h : VsockHeader) : Connection :=
  let unacked := unackedBytes connection.txFwdCnt h.fwdCnt
  let priorAvailable :=
    saturatingSub connection.peerBufAlloc
      (unackedBytes connection.txFwdCnt connection.peerFwdCnt)
  let available := saturatingSub h.bufAlloc unacked
  { connection with
    peerBufAlloc := h.bufAlloc
    peerFwdCnt := h.fwdCnt
    isCreditRequested :=
      if available > priorAvailable then false else connection.isCreditRequested }

/-- Whether the peer's window shrinks while consumed bytes are still unannounced. -/
def flushesReceiveCredit (connection : Connection) (h : VsockHeader) : Bool :=
  h.bufAlloc < connection.peerBufAlloc &&
    connection.rxFwdCnt != connection.rxCreditUpdateFwdCnt

/-- The stream after a packet's credit fields have been looked at, and whether it still stands. -/
def notePeerCredit (h : VsockHeader) : StreamConnection × Bool :=
  match s.connection with
  | none => (s, false)
  | some connection =>
      -- The guest acknowledges bytes that were never sent.
      if ackAhead h.fwdCnt connection.txFwdCnt then
        ((s.tryRst s.guestPort s.hostPort).dropConnection, false)
      -- An acknowledgement older than the one on record is ignored.
      else if h.fwdCnt ≠ connection.peerFwdCnt ∧ ¬ ackAhead h.fwdCnt connection.peerFwdCnt then
        (s, true)
      else if unackedBytes connection.txFwdCnt h.fwdCnt > u32OrMax s.maxTxBytes then
        (s, true)
      else
        let updated := credited connection h
        let s' := { s with connection := some updated }
        -- Consumed bytes are announced now, before the guest's window closes on the update.
        if flushesReceiveCredit connection h then
          match s'.respond updated opCreditUpdate 0 with
          | some s'' => (s'', true)
          | none => (s'.dropConnection, false)
        else (s', true)

def rejectPacket (h : VsockHeader) : StreamConnection :=
  -- A reset is never answered with a reset.
  let s' := if h.op ≠ opRst then s.tryRst h.srcPort h.dstPort else s
  if s'.connection.isSome || s'.isConnecting then s'.dropConnection else s'

def onRequest (h : VsockHeader) : StreamConnection :=
  if h.fwdCnt ≠ 0 ∨ s.connection.isSome ∨ s.isConnecting then
    s.rejectPacket h
  else
    let connection := Connection.new h.bufAlloc
    match s.respond connection opResponse 0 with
    | some s' => { s' with connection := some connection }
    -- Without room for the response the request is dropped.
    | none => s

def onResponse (h : VsockHeader) : StreamConnection :=
  if ¬ s.isConnecting ∨ h.fwdCnt ≠ 0 then
    { s.rejectPacket h with isConnecting := false }
  else
    { s with isConnecting := false, connection := some (Connection.new h.bufAlloc) }

def onRst : StreamConnection :=
  if s.connection.isSome || s.isConnecting then s.dropConnection else s

/-- A connection whose peer has closed the directions named by `flags`. -/
def closedBy (connection : Connection) (flags : UInt32) : Connection :=
  { connection with
    txShutdown := connection.txShutdown || flags &&& flagShutdownRcv != 0
    peerReceiveClosed := connection.peerReceiveClosed || flags &&& flagShutdownRcv != 0
    rxShutdown := connection.rxShutdown || flags &&& flagShutdownSend != 0 }

def onShutdown (flags : UInt32) : StreamConnection :=
  match s.connection with
  | none => s
  | some connection =>
      let s' := { s with connection := some (closedBy connection flags) }
      -- The guest will not read on: the data queued for it goes, the control packets stay.
      if flags &&& flagShutdownRcv ≠ 0 then
        { s' with
          replies := s'.replies.filter fun reply => reply.header.op != opRw
          replyBytes := 0 }
      else s'

/-- The window test of `on_data`: the bytes do not fit what the stream advertised. -/
def overflowsWindow (connection : Connection) (h : VsockHeader) (data : List UInt8) : Bool :=
  (queuedBytes connection).toNat + h.len.toNat > s.rxAlloc.toNat ||
    s.upstream.length + data.length > s.rxAlloc.toNat

def onData (h : VsockHeader) (data : List UInt8) : StreamConnection :=
  match s.connection with
  | none => s
  | some connection =>
      if s.overflowsWindow connection h data then
        (s.tryRst h.srcPort h.dstPort).dropConnection
      else
        { s with
          connection := some { connection with rxReceived := connection.rxReceived + h.len }
          upstream := s.upstream ++ data }

def onCreditRequest : StreamConnection :=
  match s.connection with
  | none => s
  | some connection =>
      let snapshot := { connection with isReceiveCreditRequested := queuedBytes connection != 0 }
      let s' := { s with connection := some snapshot }
      match s'.respond snapshot opCreditUpdate 0 with
      | some s'' => s''
      | none => s'.dropConnection

/-- Handles a packet that needs an established connection; each one carries the peer's credit. -/
def onConnected (h : VsockHeader) (data : List UInt8) : StreamConnection :=
  match s.connection with
  | none => s.tryRst h.srcPort h.dstPort
  | some connection =>
      if h.op = opRw ∧ connection.rxShutdown then
        s.rejectPacket h
      else
        match s.notePeerCredit h with
        | (s', false) => s'
        | (s', true) =>
            if h.op = opShutdown then s'.onShutdown h.flags
            else if h.op = opRw then s'.onData h data
            else if h.op = opCreditRequest then s'.onCreditRequest
            else s'

/-- The header checks every packet has to pass, whatever state the stream is in. -/
def malformed (h : VsockHeader) (data : List UInt8) : Bool :=
  h.type_ != typeStream ||
    h.srcCid != guestCid ||
    h.dstCid != hostCid ||
    (h.op == opRw) != decide (h.len > 0) ||
    h.len > maxPacketDataBytes ||
    data.length != h.len.toNat ||
    (h.op == opShutdown &&
      (h.flags == 0 || h.flags &&& ~~~(flagShutdownRcv ||| flagShutdownSend) != 0)) ||
    (h.op != opShutdown && h.flags != 0)

def rx (h : VsockHeader) (data : List UInt8) : StreamConnection :=
  if malformed h data then
    s.rejectPacket h
  else if s.isConnecting && !(h.op == opResponse || h.op == opRst) then
    s.rejectPacket h
  else if h.op = opRequest then s.onRequest h
  else if h.op = opResponse then s.onResponse h
  else if h.op = opRst then s.onRst
  else if h.op = opShutdown ∨ h.op = opRw ∨ h.op = opCreditUpdate ∨ h.op = opCreditRequest then
    s.onConnected h data
  else s.rejectPacket h

/-! ## Host calls -/

def request : Option StreamConnection :=
  if s.connection.isSome || s.isConnecting then
    none
  else
    (s.queueReply
      { connectionNumber := 0
        header := s.creditHeader opRequest 0 0
        payload := [] }).map fun s' => { s' with isConnecting := true }

def requestCredit : Bool × StreamConnection :=
  match s.connection with
  | none => (false, s)
  | some connection =>
      if connection.isCreditRequested then
        (false, s)
      else
        match s.queueReply
            { connectionNumber := 0
              header := s.creditHeader opCreditRequest 0 connection.rxFwdCnt
              payload := [] } with
        | some s' =>
            (true,
              { s' with
                connection := s'.connection.map fun c => { c with isCreditRequested := true } })
        | none => (false, s)

def availableSendCredit : Nat :=
  match s.connection.filter fun connection => !connection.txShutdown with
  | none => 0
  | some connection =>
      let unacknowledged := (unackedBytes connection.txFwdCnt connection.peerFwdCnt).toNat
      min (connection.peerBufAlloc.toNat - unacknowledged) (s.maxTxBytes - unacknowledged)

def sendCapacity : Nat :=
  if s.replies.length ≥ maxQueuedReplies - reservedControlReplySlots then
    0
  else
    min (min s.availableSendCredit maxPacketDataBytes.toNat) (s.maxTxBytes - s.replyBytes)

def deliver (data : List UInt8) : Except VsockError Unit × StreamConnection :=
  match s.connection with
  | none => (.error .unknownConnection, s)
  | some connection =>
      if connection.txShutdown then
        (.error .unknownConnection, s)
      else if data.isEmpty then
        (.ok (), s)
      else if 2 ^ 32 ≤ data.length then
        (.error .backpressure, s)
      else if data.length > s.sendCapacity then
        if data.length ≤ s.maxTxBytes ∧ data.length > s.availableSendCredit then
          (.error .backpressure, s.requestCredit.2)
        else
          (.error .backpressure, s)
      else
        let len := UInt32.ofNat data.length
        let sent := { connection with txFwdCnt := connection.txFwdCnt + len }
        match { s with connection := some sent }.queueReply
            { connectionNumber := 0
              header := { s.creditHeader opRw 0 connection.rxFwdCnt with len := len }
              payload := data } with
        | some s' => (.ok (), s')
        | none => (.error .backpressure, s)

def shutdown : Except VsockError Unit × StreamConnection :=
  match s.connection with
  | none => (.error .unknownConnection, s)
  | some connection =>
      if connection.txShutdown then
        (.ok (), s)
      else if ¬ s.canQueueReply 0 then
        (.error .backpressure, s)
      else
        let snapshot := { connection with txShutdown := true }
        let s' := { s with connection := some snapshot }
        match s'.respond snapshot opShutdown flagShutdownSend with
        | some s'' => (.ok (), s'')
        | none => (.error .backpressure, s'.dropConnection)

/-- Whether consumed bytes may stay unannounced for now. -/
def defersCredit (snapshot : Connection) : Bool :=
  s.hostPort != agentPort &&
    !snapshot.isReceiveCreditRequested &&
    decide (snapshot.rxFwdCnt - snapshot.rxCreditUpdateFwdCnt <
      min s.rxAlloc snapshot.peerBufAlloc / 2) &&
    !s.endsInCreditUpdate

def advanceReceiveCredit (count : Nat) : StreamConnection :=
  match s.connection with
  | none => s
  | some connection =>
      let snapshot := { connection with rxFwdCnt := connection.rxFwdCnt + u32OrMax count }
      let active :=
        if queuedBytes snapshot = 0 then { snapshot with isReceiveCreditRequested := false }
        else snapshot
      let s' := { s with connection := some active }
      if s'.defersCredit snapshot then
        s'
      else
        match s'.respond snapshot opCreditUpdate 0 with
        | some s'' => s''
        | none => s'.dropConnection

/-- The head reply when it fits `maxBytes`, with the stream that remains. -/
def takeReply (maxBytes : Nat) : Option (Reply × StreamConnection) :=
  match s.replies with
  | [] => none
  | reply :: rest =>
      if reply.payload.length > maxBytes then
        none
      else
        some (reply, { s with replies := rest, replyBytes := s.replyBytes - reply.payload.length })

def consumeUpstream (maxBytes : Nat) : StreamConnection :=
  let count := min maxBytes s.upstream.length
  if count ≠ 0 then
    { s with upstream := s.upstream.drop count }.advanceReceiveCredit count
  else s

end StreamConnection

end Terrarium.Vsock
