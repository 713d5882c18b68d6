import Mathlib.Data.UInt

/-!
# Packet — virtio-vsock headers and the constants of the carrier

The header record of `components/vsock-device/src/packet.rs`, the operation codes and queue bounds
of `switch.rs`, and the fixed endpoint classes and payload budgets of
`crates/terra-protocol/src/vsock.rs`.
-/

namespace Terrarium.Vsock

/-! ## Header -/

structure VsockHeader where
  srcCid : UInt64
  dstCid : UInt64
  srcPort : UInt32
  dstPort : UInt32
  len : UInt32
  type_ : UInt16
  op : UInt16
  flags : UInt32
  bufAlloc : UInt32
  fwdCnt : UInt32
  deriving DecidableEq

abbrev typeStream : UInt16 := 1
abbrev opRequest : UInt16 := 1
abbrev opResponse : UInt16 := 2
abbrev opRst : UInt16 := 3
abbrev opShutdown : UInt16 := 4
abbrev opRw : UInt16 := 5
abbrev opCreditUpdate : UInt16 := 6
abbrev opCreditRequest : UInt16 := 7
abbrev flagShutdownRcv : UInt32 := 1
abbrev flagShutdownSend : UInt32 := 2

/-! ## Endpoint classes and budgets -/

abbrev hostCid : UInt64 := 2
abbrev guestCid : UInt64 := 3
abbrev agentPort : UInt32 := 6000
abbrev controlPort : UInt32 := 6001
abbrev tcpPort : UInt32 := 6002
abbrev udpPort : UInt32 := 6003
/-- Guest listening port for frontend-initiated publication streams. -/
abbrev publicationPort : UInt32 := 6004

/-- `PUBLICATION_HOST_PORTS`: host source ports for publication streams. -/
def publicationHostPorts (port : UInt32) : Bool :=
  0x00100000 ≤ port && port < 0x00200000

abbrev maxNetworkSockets : Nat := 1024
abbrev maxPacketDataBytes : UInt32 := 64 * 1024
abbrev agentUpstreamBytes : UInt32 := 64 * 1024
abbrev agentReplyBytes : Nat := 256 * 1024
abbrev controlUpstreamBytes : UInt32 := 32 * 1024
abbrev controlReplyBytes : Nat := 128 * 1024
abbrev flowUpstreamBytes : UInt32 := 64 * 1024
abbrev flowReplyBytes : Nat := 80 * 1024

/-- Guest source ports a per-socket TCP or UDP stream may use. -/
def isFlowGuestPort (port : UInt32) : Bool :=
  port != 0 && port != agentPort && port != controlPort && port != publicationPort

abbrev maxQueuedReplies : Nat := 128
abbrev maxRejectedResets : Nat := 32
abbrev reservedControlReplySlots : Nat := 8

/-! ## Endpoint tuples -/

structure Tuple where
  guestPort : UInt32
  hostPort : UInt32
  deriving DecidableEq

namespace VsockHeader

def guestTuple (h : VsockHeader) : Tuple :=
  ⟨h.srcPort, h.dstPort⟩

def replyTuple (h : VsockHeader) : Tuple :=
  ⟨h.dstPort, h.srcPort⟩

end VsockHeader

/-- A stream packet as a guest driver addresses it to the host endpoint `t`. -/
def guestHeader (t : Tuple) (op : UInt16) (len flags bufAlloc fwdCnt : UInt32) : VsockHeader :=
  { srcCid := guestCid
    dstCid := hostCid
    srcPort := t.guestPort
    dstPort := t.hostPort
    len := len
    type_ := typeStream
    op := op
    flags := flags
    bufAlloc := bufAlloc
    fwdCnt := fwdCnt }

end Terrarium.Vsock
