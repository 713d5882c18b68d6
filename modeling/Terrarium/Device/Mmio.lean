import Mathlib.Data.Nat.Basic
import Mathlib.Data.List.Basic
import Terrarium.Foundations.Run

/-!
# Mmio — the virtio-MMIO register file

`MmioTransport` of `components/device-transport/src/lib.rs`: the registers through which a guest
driver negotiates features, lays out and arms its queues, rings their bells and acknowledges
interrupts.  Every access is chosen by the guest: any offset, any width, any value.

A call that mutates its receiver returns its result and the transport after it.  The mutation stays
when the call fails, as in the source.  `usize` indices are natural numbers: the source converts
`u32` and `u16` values to `usize`, which never fails on its targets.

`config_mut` is not modelled: it is how the device itself edits its configuration space, and no
guest access reaches it.
-/

namespace Terrarium.Device

/-! ## Registers -/

namespace Status

def reset : UInt8 := 0
def acknowledge : UInt8 := 1
def driver : UInt8 := 2
def driverOk : UInt8 := 4
def featuresOk : UInt8 := 8
def deviceNeedsReset : UInt8 := 64
def failed : UInt8 := 128

end Status

def magic : UInt32 := 0x74726976
def version : UInt32 := 2
def vendorId : UInt32 := 0x54455252
def regionBytes : UInt64 := 0x200
def splitRingDescriptorBytes : UInt64 := 16

def magicValue : UInt64 := 0x000
def regVersion : UInt64 := 0x004
def deviceIdOffset : UInt64 := 0x008
def vendor : UInt64 := 0x00c
def hostFeaturesOffset : UInt64 := 0x010
def hostFeaturesSel : UInt64 := 0x014
def guestFeaturesOffset : UInt64 := 0x020
def guestFeaturesSel : UInt64 := 0x024
def queueSel : UInt64 := 0x030
def queueNumMax : UInt64 := 0x034
def queueNum : UInt64 := 0x038
def queueReady : UInt64 := 0x044
def queueNotify : UInt64 := 0x050
def interruptStatusOffset : UInt64 := 0x060
def interruptAck : UInt64 := 0x064
def regStatus : UInt64 := 0x070
def queueDescLow : UInt64 := 0x080
def queueDescHigh : UInt64 := 0x084
def queueAvailLow : UInt64 := 0x090
def queueAvailHigh : UInt64 := 0x094
def queueUsedLow : UInt64 := 0x0a0
def queueUsedHigh : UInt64 := 0x0a4
def configGeneration : UInt64 := 0x0fc
def configBase : UInt64 := 0x100
def maxQueueSize : UInt16 := 32768

inductive WriteOutcome
  | none
  | queueNotify (queue : UInt16)
  | reset
  deriving DecidableEq

inductive MmioError
  | unmapped
  | badLen
  | unaligned
  | badFeatures
  | badStatus
  | badQueue
  | notReady
  | readOnly
  deriving DecidableEq

/-! ## Queues -/

structure QueueRegs where
  num : UInt16 := 0
  ready : Bool := false
  desc : UInt64 := 0
  avail : UInt64 := 0
  used : UInt64 := 0
  deriving DecidableEq

/-- The three address registers of a queue; `update_addr` takes one of them as a field accessor. -/
inductive Ring
  | desc
  | avail
  | used
  deriving DecidableEq

namespace QueueRegs

def addr (r : QueueRegs) : Ring → UInt64
  | .desc => r.desc
  | .avail => r.avail
  | .used => r.used

def setAddr (r : QueueRegs) (addr : UInt64) : Ring → QueueRegs
  | .desc => { r with desc := addr }
  | .avail => { r with avail := addr }
  | .used => { r with used := addr }

end QueueRegs

def checkedAdd (a b : UInt64) : Option UInt64 :=
  if a.toNat + b.toNat < 2 ^ 64 then some (a + b) else none

/-- Replace one 32-bit half of a register that is written in halves. -/
def setHalf (x : UInt64) (word : UInt32) (high : Bool) : UInt64 :=
  if high then (x &&& (0xffffffff : UInt64)) ||| (word.toUInt64 <<< (32 : UInt64))
  else (x &&& (0xffffffff00000000 : UInt64)) ||| word.toUInt64

def validQueueSize (max size : UInt16) : Bool :=
  max ≠ 0 ∧ max ≤ maxQueueSize ∧ max.toNat.isPowerOfTwo ∧ size ≠ 0 ∧ size ≤ max ∧
    size.toNat.isPowerOfTwo

def driveStatus (current written : UInt8) : Except MmioError UInt8 :=
  if written = Status.reset ∨ written = current then .ok written
  else if current &&& Status.failed ≠ 0 ∨ written &&& Status.deviceNeedsReset ≠ 0 then
    .error .badStatus
  else if written &&& Status.failed ≠ 0 then .ok (current ||| Status.failed)
  else
    let steps := [Status.acknowledge, Status.driver, Status.featuresOk, Status.driverOk]
    match steps.find? fun bit => current &&& bit = 0 with
    | none => .error .badStatus
    | some next => if written = current ||| next then .ok written else .error .badStatus

/-! ## The transport -/

structure MmioTransport where
  ramSize : UInt64
  deviceId : UInt32
  hostFeatures : UInt64
  guestFeatures : UInt64
  featureSel : UInt32
  status : UInt8
  queueMax : UInt16
  selected : Nat
  queues : List QueueRegs
  interruptStatus : UInt32
  irqLevel : Bool
  irqDirty : Bool
  config : List UInt8
  deriving DecidableEq

namespace MmioTransport

def new (ramSize : UInt64) (deviceId : UInt32) (hostFeatures : UInt64) (queueMax : UInt16)
    (config : List UInt8) : MmioTransport :=
  { ramSize := ramSize
    deviceId := deviceId
    hostFeatures := hostFeatures
    guestFeatures := 0
    featureSel := 0
    status := 0
    queueMax := queueMax
    selected := 0
    queues := [{}]
    interruptStatus := 0
    irqLevel := false
    irqDirty := false
    config := config }

variable (t : MmioTransport)

def withQueueCount (count : UInt16) : MmioTransport :=
  { t with queues := List.replicate (max count 1).toNat {} }

def queueAddrsFor (queue : Nat) : Option (UInt64 × UInt64 × UInt64 × UInt16) :=
  t.queues[queue]?.bind fun r => if r.ready then some (r.desc, r.avail, r.used, r.num) else none

def check (offset : UInt64) (width : UInt8) : Except MmioError Unit :=
  if ¬ (width = 1 ∨ width = 2 ∨ width = 4 ∨ width = 8) then .error .badLen
  else
    match checkedAdd offset width.toUInt64 with
    | none => .error .unmapped
    | some stop =>
        if offset ≥ regionBytes ∨ stop > regionBytes then .error .unmapped
        else if offset % 4 ≠ 0 ∧ offset < configBase then .error .unaligned
        else .ok ()

def selectedRegs : QueueRegs :=
  t.queues[t.selected]?.getD {}

/-! ### Reading -/

def featureWord (features : UInt64) : Except MmioError UInt32 :=
  if t.featureSel = 0 then .ok features.toUInt32
  else if t.featureSel = 1 then .ok (features >>> 32).toUInt32
  else .error .badFeatures

/-- `u64::from_le_bytes` of the bytes, padded with zeros. -/
def fromLeBytes (bytes : List UInt8) : UInt64 :=
  bytes.foldr (fun b acc => acc <<< 8 ||| b.toUInt64) 0

def configRead (offset : UInt64) (width : UInt8) : Except MmioError UInt64 :=
  if ¬ (width = 1 ∨ width = 2 ∨ width = 4) then .error .badLen
  else if offset.toNat + width.toNat ≤ t.config.length then
    .ok (fromLeBytes ((t.config.drop offset.toNat).take width.toNat))
  else .error .unmapped

def read (offset : UInt64) (width : UInt8) : Except MmioError UInt64 :=
  match check offset width with
  | .error e => .error e
  | .ok () =>
      if offset < configBase ∧ offset ≠ regStatus ∧ width ≠ 4 then .error .badLen
      else if offset = magicValue then .ok magic.toUInt64
      else if offset = regVersion then .ok version.toUInt64
      else if offset = deviceIdOffset then .ok t.deviceId.toUInt64
      else if offset = vendor then .ok vendorId.toUInt64
      else if offset = hostFeaturesOffset then
        (t.featureWord t.hostFeatures).map UInt32.toUInt64
      else if offset = guestFeaturesOffset then
        (t.featureWord t.guestFeatures).map UInt32.toUInt64
      else if offset = queueNumMax then .ok t.queueMax.toUInt64
      else if offset = queueNum then .ok t.selectedRegs.num.toUInt64
      else if offset = queueReady then .ok t.selectedRegs.ready.toUInt64
      else if offset = interruptStatusOffset then .ok t.interruptStatus.toUInt64
      else if offset = regStatus ∧ (width = 1 ∨ width = 4) then .ok t.status.toUInt64
      else if offset = configGeneration then .ok 0
      else if offset ≥ configBase then t.configRead (offset - configBase) width
      else .error .unmapped

/-! ### Writing -/

/-- `selected_regs_mut`, followed by the caller's own check and update of the registers. -/
def selectedRegsMut (update : QueueRegs → Except MmioError QueueRegs) :
    Except MmioError WriteOutcome × MmioTransport :=
  match t.queues[t.selected]? with
  | none => (.error .badQueue, t)
  | some r =>
      match update r with
      | .error e => (.error e, t)
      | .ok r' => (.ok .none, { t with queues := t.queues.set t.selected r' })

def updateAddr (ring : Ring) (value : UInt32) (high : Bool) :
    Except MmioError WriteOutcome × MmioTransport :=
  t.selectedRegsMut fun r =>
    if r.ready then .error .badQueue
    else .ok (r.setAddr (setHalf (r.addr ring) value high) ring)

def ringBell (value : UInt32) : Except MmioError UInt16 :=
  if value.toNat < 2 ^ 16 then
    match t.queues[value.toNat]? with
    | none => .error .badQueue
    | some r => if r.ready then .ok value.toUInt16 else .error .notReady
  else .error .badQueue

/-- The test `arm_queue` makes of one ring: its address is zero or it does not end within memory. -/
def ringEscapes (ramSize addr len : UInt64) : Bool :=
  addr = 0 ∨ (checkedAdd addr len).all fun stop => stop > ramSize

def armQueue : Except MmioError WriteOutcome × MmioTransport :=
  t.selectedRegsMut fun r =>
    let size := r.num.toUInt64
    let rings :=
      [ (r.desc, size * splitRingDescriptorBytes),
        (r.avail, 4 + size * 2),
        (r.used, 4 + size * 8) ]
    if r.num = 0 ∨ rings.any fun ring => ringEscapes t.ramSize ring.1 ring.2 then .error .badQueue
    else .ok { r with ready := true }

def setIrqLevel (level : Bool) : MmioTransport :=
  if t.irqLevel ≠ level then { t with irqLevel := level, irqDirty := true } else t

def resetDevice : MmioTransport :=
  { t with
    queues := t.queues.map fun _ => {}
    selected := 0
    guestFeatures := 0
    interruptStatus := 0 }.setIrqLevel false

def writeFeatures (features : UInt64) : Except MmioError WriteOutcome × MmioTransport :=
  if features &&& ~~~ t.hostFeatures ≠ 0 then (.error .badFeatures, t)
  else (.ok .none, { t with guestFeatures := features })

def write (offset : UInt64) (width : UInt8) (value : UInt64) :
    Except MmioError WriteOutcome × MmioTransport :=
  match check offset width with
  | .error e => (.error e, t)
  | .ok () =>
      let word := value.toUInt32
      if offset < configBase ∧ offset ≠ regStatus ∧ width ≠ 4 then (.error .unmapped, t)
      else if offset = hostFeaturesSel ∨ offset = guestFeaturesSel then
        if word > 1 then (.error .badFeatures, t) else (.ok .none, { t with featureSel := word })
      else if offset = guestFeaturesOffset then
        if t.featureSel = 0 then
          t.writeFeatures (setHalf t.guestFeatures word false)
        else if t.featureSel = 1 then
          t.writeFeatures (setHalf t.guestFeatures word true)
        else (.error .badFeatures, t)
      else if offset = queueSel then
        if word.toNat ≥ t.queues.length then (.error .badQueue, t)
        else (.ok .none, { t with selected := word.toNat })
      else if offset = queueNum then
        if word.toNat < 2 ^ 16 then
          -- The size of an armed queue is fixed, like its addresses in `updateAddr`.
          if t.selectedRegs.ready ∨ ¬ validQueueSize t.queueMax word.toUInt16 then
            (.error .badQueue, t)
          else t.selectedRegsMut fun r => .ok { r with num := word.toUInt16 }
        else (.error .badQueue, t)
      else if offset = queueReady then
        if word = 0 then t.selectedRegsMut fun r => .ok { r with ready := false }
        else if word = 1 then t.armQueue
        else (.error .badQueue, t)
      else if offset = queueNotify then ((t.ringBell word).map .queueNotify, t)
      else if offset = interruptAck then
        let acked := { t with interruptStatus := t.interruptStatus &&& ~~~ word }
        (.ok .none, if acked.interruptStatus = 0 then acked.setIrqLevel false else acked)
      else if offset = regStatus ∧ (width = 1 ∨ width = 4) then
        -- A refused status is not stored, so the sequence can only be climbed step by step.
        match driveStatus t.status value.toUInt8 with
        | .error e => (.error e, t)
        | .ok status =>
            let driven := { t with status := status }
            if status = 0 ∨ status &&& Status.failed ≠ 0 then (.ok .reset, driven.resetDevice)
            else (.ok .none, driven)
      else if offset = queueDescLow ∨ offset = queueDescHigh then
        t.updateAddr .desc word (offset = queueDescHigh)
      else if offset = queueAvailLow ∨ offset = queueAvailHigh then
        t.updateAddr .avail word (offset = queueAvailHigh)
      else if offset = queueUsedLow ∨ offset = queueUsedHigh then
        t.updateAddr .used word (offset = queueUsedHigh)
      else if offset ≥ configBase then (.error .readOnly, t)
      else (.error .unmapped, t)

/-! ### Interrupts -/

def signal (bit : UInt32) : MmioTransport :=
  if t.status &&& Status.failed = 0 then
    let raised := { t with interruptStatus := t.interruptStatus ||| bit }
    if t.status &&& Status.driverOk ≠ 0 then raised.setIrqLevel true else raised
  else t

def takeIrq : Option Bool × MmioTransport :=
  if t.irqDirty then (some t.irqLevel, { t with irqDirty := false }) else (none, t)

/-! ### Runs -/

inductive Op
  | read (offset : UInt64) (width : UInt8)
  | write (offset : UInt64) (width : UInt8) (value : UInt64)
  | signal (bit : UInt32)
  | takeIrq
  deriving DecidableEq

inductive Outcome
  | value (r : Except MmioError UInt64)
  | written (r : Except MmioError WriteOutcome)
  | done
  | irq (level : Option Bool)

def apply : Op → Outcome × MmioTransport
  | .read offset width => (.value (t.read offset width), t)
  | .write offset width value =>
      (.written (t.write offset width value).1, (t.write offset width value).2)
  | .signal bit => (.done, t.signal bit)
  | .takeIrq => (.irq t.takeIrq.1, t.takeIrq.2)

def step (op : Op) : Option (Outcome × MmioTransport) :=
  some (t.apply op)

end MmioTransport

abbrev MmioEvent : Type := Run.Event MmioTransport MmioTransport.Op MmioTransport.Outcome

abbrev MmioRun (t : MmioTransport) (es : List MmioEvent) (t' : MmioTransport) : Prop :=
  Run.Trace MmioTransport.step t es t'

end Terrarium.Device
