import Terrarium.Foundations.Wire
import Terrarium.Policy.Address

/-!
# Frame — the frames between the guest's sockets and the network frontend

`crates/terra-protocol/src/application.rs` and the error codes of `socket.rs`.  A frame is an
eight-byte header (opcode, a reserved zero, payload length) and a payload whose layout the opcode
fixes.  The guest sends `GuestFrame`s, the host `HostFrame`s.

* `BodyWriter` writes payload fields straight into the output buffer, so a failed write leaves a
  partial frame behind, which `appendFrame` cuts off again;
* `Body` reads the same fields back and refuses anything the writer would not have produced.

Byte buffers are lists.  A datagram run that the source borrows from the frame buffer is the list of
its bytes here.
-/

namespace Terrarium.Protocol

open Policy (Ipv4Addr Ipv6Addr IpAddr SocketAddr)
open Wire

/-! ## Limits -/

def headerBytes : Nat := 8
def endpointBytes : Nat := 20
def udpSegmentFieldBytes : Nat := 4
def endpointIpv4 : UInt8 := 4
def endpointIpv6 : UInt8 := 6
def udpFrameOverheadBytes : Nat := headerBytes + endpointBytes + udpSegmentFieldBytes
def maxDatagramSegments : Nat := 64
def maxNetworkDatagramBytes : Nat := 4096
def maxFrameBytes : Nat := 64 * 1024
/-- Largest datagram run one UDP frame can carry. -/
def maxUdpRunBytes : Nat := maxFrameBytes - udpFrameOverheadBytes
def maxKeepaliveSecs : UInt16 := 32767
def maxKeepaliveProbes : UInt16 := 127
def tcpOpenInlineUrgentFlag : UInt16 := 1
def tcpOpenKeepaliveFlag : UInt16 := 2

/-- A frame that is malformed, over a limit, of an unknown opcode, or sent the wrong way. -/
structure FrameError where
  deriving DecidableEq

inductive Opcode
  | tcpOpen
  | udpSend
  | opened
  | udpDatagram
  | udpError
  deriving DecidableEq

namespace Opcode

def code : Opcode → UInt16
  | tcpOpen => 0x01
  | udpSend => 0x03
  | opened => 0x101
  | udpDatagram => 0x103
  | udpError => 0x104

def tryFrom (value : UInt16) : Option Opcode :=
  match value.toNat with
  | 0x01 => some tcpOpen
  | 0x03 => some udpSend
  | 0x101 => some opened
  | 0x103 => some udpDatagram
  | 0x104 => some udpError
  | _ => none

end Opcode

/-! ## Socket errors -/

inductive SocketError
  | accessDenied
  | invalidArgument
  | invalidState
  | limitExceeded
  | cancelled
  | connectionRefused
  | connectionReset
  | timedOut
  | nameUnresolvable
  | resolverBusy
  | datagramTooLarge
  | closed
  | io
  | notReady
  | protocol
  deriving DecidableEq

namespace SocketError

def variants : List SocketError :=
  [accessDenied, invalidArgument, invalidState, limitExceeded, cancelled, connectionRefused,
    connectionReset, timedOut, nameUnresolvable, resolverBusy, datagramTooLarge, closed, io,
    notReady, protocol]

def code : SocketError → UInt16
  | accessDenied => 1
  | invalidArgument => 2
  | invalidState => 3
  | limitExceeded => 4
  | cancelled => 5
  | connectionRefused => 6
  | connectionReset => 7
  | timedOut => 8
  | nameUnresolvable => 9
  | resolverBusy => 10
  | datagramTooLarge => 11
  | closed => 12
  | io => 13
  | notReady => 14
  | protocol => 15

def decode (value : UInt16) : Option SocketError :=
  match value.toNat with
  | 0 => none
  | index + 1 => variants[index]?

end SocketError

/-! ## Frames -/

def isValidKeepalive (idleSecs intervalSecs probeCount : UInt16) : Bool :=
  (1 ≤ idleSecs ∧ idleSecs ≤ maxKeepaliveSecs) ∧
    (1 ≤ intervalSecs ∧ intervalSecs ≤ maxKeepaliveSecs) ∧
      (1 ≤ probeCount ∧ probeCount ≤ maxKeepaliveProbes)

/-- Guest-chosen TCP keepalive, within the Linux limits. -/
structure TcpKeepalive where
  idleSecs : UInt16
  intervalSecs : UInt16
  probeCount : UInt16
  isValid : isValidKeepalive idleSecs intervalSecs probeCount = true
  deriving DecidableEq

def TcpKeepalive.new (idleSecs intervalSecs probeCount : UInt16) : Option TcpKeepalive :=
  if h : isValidKeepalive idleSecs intervalSecs probeCount = true then
    some ⟨idleSecs, intervalSecs, probeCount, h⟩
  else none

structure TcpOpenOptions where
  inlineUrgent : Bool
  keepalive : Option TcpKeepalive
  deriving DecidableEq

/-- Datagrams to or from `peer`: one when `segment` is 0, else equal `segment`-byte datagrams, the
last possibly shorter. -/
structure UdpRun where
  peer : SocketAddr
  segment : UInt16
  bytes : List UInt8
  deriving DecidableEq

inductive GuestFrame
  | tcpOpen (peer : SocketAddr) (options : TcpOpenOptions)
  | udpSend (run : UdpRun)
  deriving DecidableEq

inductive HostFrame
  | opened (outcome : Except SocketError Unit)
  | udpDatagram (run : UdpRun)
  | udpError (peer : SocketAddr) (error : SocketError)
  deriving DecidableEq

/-! ## Valid datagram runs -/

def divCeil (a b : Nat) : Nat :=
  if a % b > 0 then a / b + 1 else a / b

/-- Whether `length` bytes split into `segment`-byte datagrams that fit one UDP frame. -/
def isValidSegmentedRun (length segment : Nat) : Bool :=
  segment ≥ 1 ∧ segment ≤ maxNetworkDatagramBytes ∧ length > segment ∧ length ≤ maxUdpRunBytes ∧
    divCeil length segment ≤ maxDatagramSegments

/-- Whether `length` bytes are one datagram when `segment` is 0, else a valid segmented run. -/
def isValidUdpRun (length segment : Nat) : Bool :=
  if segment = 0 then length ≤ maxNetworkDatagramBytes else isValidSegmentedRun length segment

/-- Whether a `length`-byte datagram joins a `runBytes`-byte run of `segment`-byte datagrams. -/
def extendsUdpRun (runBytes segment length : Nat) : Bool :=
  length ≠ 0 ∧ length ≤ segment ∧ runBytes % segment = 0 ∧
    isValidSegmentedRun (runBytes + length) segment

def checkUdpRun {m : Type → Type} [Monad m] [MonadExcept FrameError m]
    (bytes : List UInt8) (segment : UInt16) : m Unit :=
  if isValidUdpRun bytes.length segment.toNat then pure () else throw ⟨⟩

/-! ## Writing -/

def u16Bytes (value : UInt16) : List UInt8 := leBytes 2 value.toNat

abbrev BodyWriter := Wire.Writer FrameError

namespace BodyWriter

def putU16 (value : UInt16) : BodyWriter Unit :=
  put (u16Bytes value)

def putReserved : BodyWriter Unit :=
  putU16 0

/-- Family, a zero, port and sixteen address bytes. -/
def putEndpoint (family : UInt8) (port : UInt16) (address : List UInt8) : BodyWriter Unit := do
  put [family, 0]
  putU16 port
  put address

def putPeer : SocketAddr → BodyWriter Unit
  | .v4 ip port => putEndpoint endpointIpv4 port (ip.octets ++ List.replicate 12 0)
  | .v6 ip port flowinfo scopeId =>
      if flowinfo = 0 ∧ scopeId = 0 then putEndpoint endpointIpv6 port ip.octets
      else throw ⟨⟩

end BodyWriter

namespace TcpOpenOptions

def flags (options : TcpOpenOptions) : UInt16 :=
  (if options.inlineUrgent then tcpOpenInlineUrgentFlag else 0) |||
    (if options.keepalive.isSome then tcpOpenKeepaliveFlag else 0)

/-- Probe count, idle time and interval as sent; zeros without keepalive. -/
def fields (options : TcpOpenOptions) : UInt16 × UInt16 × UInt16 :=
  match options.keepalive with
  | some keepalive => (keepalive.probeCount, keepalive.idleSecs, keepalive.intervalSecs)
  | none => (0, 0, 0)

end TcpOpenOptions

namespace UdpRun

/-- The segment field as sent: a `segment` that does not split `bytes` into more than one datagram
is written as 0. -/
def wireSegment (run : UdpRun) : UInt16 :=
  if run.bytes.length > run.segment.toNat then run.segment else 0

end UdpRun

namespace BodyWriter

def putTcpOpen (peer : SocketAddr) (options : TcpOpenOptions) : BodyWriter Unit := do
  putU16 options.flags
  putU16 options.fields.1
  putU16 options.fields.2.1
  putU16 options.fields.2.2
  putPeer peer

def putStatus (error : Option SocketError) : BodyWriter Unit := do
  putU16 (error.elim 0 SocketError.code)
  putReserved

def putUdpBody (run : UdpRun) : BodyWriter Unit := do
  checkUdpRun run.bytes run.wireSegment
  putPeer run.peer
  putU16 run.wireSegment
  putReserved
  put run.bytes

end BodyWriter

/-- Appends one `opcode` frame whose payload `writePayload` writes: the header is reserved first and
filled in once the payload's length is known. -/
def appendFrame (opcode : Opcode) (writePayload : BodyWriter Unit) (out : List UInt8) :
    Except FrameError Unit × List UInt8 :=
  let start := out.length
  match writePayload.write (out ++ List.replicate headerBytes 0) with
  | (.error e, out) => (.error e, out.take start)
  | (.ok (), out) =>
      if out.length - start > maxFrameBytes then (.error ⟨⟩, out.take start)
      else
        let length := (out.length - start - headerBytes) % 2 ^ 32
        let out := overwrite out start (u16Bytes opcode.code)
        (.ok (), overwrite out (start + 4) (leBytes 4 length))

/-! ## Reading -/

abbrev Body := Reader FrameError

namespace Body

def u16 : Body UInt16 := do
  return UInt16.ofNat (← number ⟨⟩ 2)

def u32 : Body UInt32 := do
  return UInt32.ofNat (← number ⟨⟩ 4)

def reserved : Body Unit := do
  require ⟨⟩ ((← u16) = 0)

/-- The address of a family byte and sixteen address bytes. -/
def endpointAddress (family : UInt8) (address : List UInt8) : Option IpAddr :=
  if family = endpointIpv4 ∧ address.drop 4 = List.replicate 12 0 then
    some (.v4 (Ipv4Addr.ofOctets (address.take 4)))
  else if family = endpointIpv6 then some (.v6 (Ipv6Addr.ofOctets address))
  else none

def peer : Body SocketAddr := do
  let kind ← takeArray ⟨⟩ 2
  require ⟨⟩ (kind.getD 1 0 = 0)
  let port ← u16
  let address ← takeArray ⟨⟩ 16
  let ip ← okOr ⟨⟩ (endpointAddress (kind.getD 0 0) address)
  return SocketAddr.new ip port

/-- The keepalive that flags and fields declare; `none` refuses them. -/
def declaredKeepalive (flags probeCount idleSecs intervalSecs : UInt16) :
    Option (Option TcpKeepalive) :=
  if flags &&& tcpOpenKeepaliveFlag = 0 then
    if probeCount = 0 ∧ idleSecs = 0 ∧ intervalSecs = 0 then some none else none
  else (TcpKeepalive.new idleSecs intervalSecs probeCount).map some

def tcpOpen : Body (SocketAddr × TcpOpenOptions) := do
  let flags ← u16
  let probeCount ← u16
  let idleSecs ← u16
  let intervalSecs ← u16
  require ⟨⟩ (flags &&& ~~~(tcpOpenInlineUrgentFlag ||| tcpOpenKeepaliveFlag) = 0)
  let keepalive ← okOr ⟨⟩ (declaredKeepalive flags probeCount idleSecs intervalSecs)
  let options : TcpOpenOptions := ⟨flags &&& tcpOpenInlineUrgentFlag ≠ 0, keepalive⟩
  return (← peer, options)

/-- The outcome that a status code stands for; `none` refuses the code. -/
def declaredStatus (status : UInt16) : Option (Option SocketError) :=
  if status = 0 then some none else (SocketError.decode status).map some

def status : Body (Option SocketError) := do
  let status ← u16
  reserved
  okOr ⟨⟩ (declaredStatus status)

end Body

def readUdpBody : Body UdpRun := do
  let peer ← Body.peer
  let segment ← Body.u16
  Body.reserved
  let bytes ← remaining
  checkUdpRun bytes segment
  return ⟨peer, segment, bytes⟩

def readHeader : Body (Opcode × Nat) := do
  let opcode ← okOr ⟨⟩ (Opcode.tryFrom (← Body.u16))
  Body.reserved
  let length ← Body.u32
  require ⟨⟩ (length.toNat ≤ maxFrameBytes - headerBytes)
  return (opcode, length.toNat)

/-- The next complete frame and its encoded length, or `none` while more bytes are needed. -/
def decodeFrame {F : Type} (decodePayload : Opcode → Body F) (bytes : List UInt8) :
    Except FrameError (Option (F × Nat)) :=
  if bytes.length < headerBytes then .ok none
  else
    let rest := bytes.drop headerBytes
    match readHeader.run (bytes.take headerBytes) with
    | .error e => .error e
    | .ok ((opcode, length), _) =>
        if rest.length < length then .ok none
        else
          match (decodePayload opcode).run (rest.take length) with
          | .error e => .error e
          | .ok (frame, left) =>
              -- `Body::finish`: a payload must be used up.
              if left = [] then .ok (some (frame, headerBytes + length)) else .error ⟨⟩

/-! ## The two directions -/

/-- A frame type decoded from bytes: both directions share `decodeFrame`. -/
class Frame (F : Type) where
  decodePayload : Opcode → Body F

namespace Frame

def decode {F : Type} [Frame F] (bytes : List UInt8) : Except FrameError (Option (F × Nat)) :=
  decodeFrame decodePayload bytes

end Frame

namespace GuestFrame

def opcode : GuestFrame → Opcode
  | .tcpOpen _ _ => .tcpOpen
  | .udpSend _ => .udpSend

def writePayload : GuestFrame → BodyWriter Unit
  | .tcpOpen peer options => BodyWriter.putTcpOpen peer options
  | .udpSend run => BodyWriter.putUdpBody run

def append (frame : GuestFrame) (out : List UInt8) : Except FrameError Unit × List UInt8 :=
  appendFrame frame.opcode frame.writePayload out

def encode (frame : GuestFrame) : Except FrameError (List UInt8) :=
  let (written, out) := frame.append []
  written.map fun _ => out

def decodePayload (opcode : Opcode) : Body GuestFrame :=
  match opcode with
  | .udpSend => do return .udpSend (← readUdpBody)
  | .tcpOpen => do
      let (peer, options) ← Body.tcpOpen
      return .tcpOpen peer options
  | .opened | .udpDatagram | .udpError => throw ⟨⟩

instance : Frame GuestFrame := ⟨decodePayload⟩

def decode (bytes : List UInt8) : Except FrameError (Option (GuestFrame × Nat)) :=
  Frame.decode bytes

end GuestFrame

namespace HostFrame

def opcode : HostFrame → Opcode
  | .opened _ => .opened
  | .udpDatagram _ => .udpDatagram
  | .udpError _ _ => .udpError

def writePayload : HostFrame → BodyWriter Unit
  | .opened (.ok ()) => BodyWriter.putStatus none
  | .opened (.error error) => BodyWriter.putStatus (some error)
  | .udpDatagram run => BodyWriter.putUdpBody run
  | .udpError peer error => do
      BodyWriter.putStatus (some error)
      BodyWriter.putPeer peer

def append (frame : HostFrame) (out : List UInt8) : Except FrameError Unit × List UInt8 :=
  appendFrame frame.opcode frame.writePayload out

def encode (frame : HostFrame) : Except FrameError (List UInt8) :=
  let (written, out) := frame.append []
  written.map fun _ => out

def decodePayload (opcode : Opcode) : Body HostFrame :=
  match opcode with
  | .udpDatagram => do return .udpDatagram (← readUdpBody)
  | .opened => do return .opened ((← Body.status).elim (.ok ()) .error)
  | .udpError => do
      let error ← okOr ⟨⟩ (← Body.status)
      return .udpError (← Body.peer) error
  | .tcpOpen | .udpSend => throw ⟨⟩

instance : Frame HostFrame := ⟨decodePayload⟩

def decode (bytes : List UInt8) : Except FrameError (Option (HostFrame × Nat)) :=
  Frame.decode bytes

end HostFrame

end Terrarium.Protocol
