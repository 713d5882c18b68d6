import Terrarium.Device.Mmio

/-!
# MmioSafety — what a guest can make of its queues

Every guest-memory access of a device goes through the ring addresses of an armed queue, and the
guest writes those addresses itself, half a register at a time and in any order.  The transport
checks them once, when the queue is armed; this module shows that one check is enough.

* `QueueRegs.Sound` — what holds of a queue's registers in every state;
* `queue_stays_armed` — an armed queue keeps its layout until it is disarmed or the device reset.
-/

namespace Terrarium.Device

/-! ## Rings in guest memory -/

/-- A range of `len` bytes at a nonzero address that ends within guest memory. -/
structure InRam (ramSize addr : UInt64) (len : Nat) : Prop where
  nonzero : addr ≠ 0
  noWrap : addr.toNat + len < 2 ^ 64
  inside : addr.toNat + len ≤ ramSize.toNat

lemma inRam_of_not_escapes {ramSize addr len : UInt64}
    (h : MmioTransport.ringEscapes ramSize addr len = false) : InRam ramSize addr len.toNat := by
  rw [MmioTransport.ringEscapes, decide_eq_false_iff_not, not_or, checkedAdd] at h
  obtain ⟨hzero, hall⟩ := h
  split at hall
  next hwrap =>
    rw [Option.all_some, decide_eq_true_eq, gt_iff_lt, UInt64.lt_iff_toNat_lt,
      UInt64.toNat_add, Nat.mod_eq_of_lt hwrap, Nat.not_lt] at hall
    exact ⟨hzero, hwrap, hall⟩
  · exact absurd rfl hall

/-- The bytes of one ring of a queue of `num` entries. -/
def Ring.bytes (num : UInt16) : Ring → Nat
  | .desc => 16 * num.toNat
  | .avail => 4 + 2 * num.toNat
  | .used => 4 + 8 * num.toNat

/-! ## The registers of one queue -/

namespace QueueRegs

/-- The size was checked when it was written, the rings when the queue was armed. -/
structure Sound (ramSize : UInt64) (queueMax : UInt16) (r : QueueRegs) : Prop where
  size : r.num = 0 ∨ validQueueSize queueMax r.num = true
  armed : r.ready = true → r.num ≠ 0 ∧ ∀ ring, InRam ramSize (r.addr ring) (ring.bytes r.num)

lemma sound_default (ramSize : UInt64) (queueMax : UInt16) : Sound ramSize queueMax {} :=
  ⟨Or.inl rfl, fun h => by cases h⟩

lemma setAddr_num (r : QueueRegs) (addr : UInt64) (ring : Ring) :
    (r.setAddr addr ring).num = r.num := by
  cases ring <;> rfl

lemma setAddr_ready (r : QueueRegs) (addr : UInt64) (ring : Ring) :
    (r.setAddr addr ring).ready = r.ready := by
  cases ring <;> rfl

end QueueRegs

namespace MmioTransport

variable {t t' : MmioTransport} {op : Op} {out : Outcome} {q : Nat} {r r' : QueueRegs}

/-! ## Everything one call can do -/

def Op.Disarms (op : Op) : Prop :=
  ∃ value : UInt64, op = .write queueReady 4 value ∧ value.toUInt32 = 0

/-- What a write can do to the registers of the selected queue. -/
inductive RegsUpdate (t : MmioTransport) (op : Op) (r : QueueRegs) : QueueRegs → Prop where
  | sized {num : UInt16} :
      r.ready = false → validQueueSize t.queueMax num = true →
      RegsUpdate t op r { r with num := num }
  | addressed {ring : Ring} {addr : UInt64} :
      r.ready = false → RegsUpdate t op r (r.setAddr addr ring)
  | disarmed : op.Disarms → RegsUpdate t op r { r with ready := false }
  | armed :
      r.num ≠ 0 → (∀ ring, InRam t.ramSize (r.addr ring) (ring.bytes r.num)) →
        RegsUpdate t op r { r with ready := true }

inductive CallEffect (t : MmioTransport) (op : Op) (out : Outcome) : MmioTransport → Prop where
  | unchanged : CallEffect t op out t
  | featuresSelected {word : UInt32} : CallEffect t op out { t with featureSel := word }
  | featured {features : UInt64} :
      features &&& ~~~ t.hostFeatures = 0 → CallEffect t op out { t with guestFeatures := features }
  | queueSelected {i : Nat} : i < t.queues.length → CallEffect t op out { t with selected := i }
  | updated {r r' : QueueRegs} :
      t.queues[t.selected]? = some r → RegsUpdate t op r r' →
        CallEffect t op out { t with queues := t.queues.set t.selected r' }
  | driven {status : UInt8} : CallEffect t op out { t with status := status }
  | reset {status : UInt8} :
      out = .written (.ok .reset) → CallEffect t op out { t with status := status }.resetDevice
  | interrupts {status : UInt32} {level dirty : Bool} :
      CallEffect t op out { t with interruptStatus := status, irqLevel := level, irqDirty := dirty }

def WriteEffect (t : MmioTransport) (op : Op) (p : Except MmioError WriteOutcome × MmioTransport) :
    Prop :=
  CallEffect t op (.written p.1) p.2

lemma WriteEffect.unchanged {r : Except MmioError WriteOutcome} : WriteEffect t op (r, t) :=
    CallEffect.unchanged

lemma WriteEffect.branch {c : Prop} [Decidable c]
    {p p' : Except MmioError WriteOutcome × MmioTransport}
    (hyes : c → WriteEffect t op p) (hno : ¬ c → WriteEffect t op p') :
    WriteEffect t op (if c then p else p') :=
  iteInduction hyes hno

lemma setIrqLevel_eq (t : MmioTransport) (level : Bool) :
    ∃ dirty, t.setIrqLevel level = { t with irqLevel := level, irqDirty := dirty } := by
  rw [setIrqLevel]
  split
  · exact ⟨true, rfl⟩
  next h =>
    have hsame : t.irqLevel = level := not_not.1 h
    subst hsame
    exact ⟨t.irqDirty, rfl⟩

lemma selectedRegsMut_effect {update : QueueRegs → Except MmioError QueueRegs}
    (hupdate : ∀ r r', t.queues[t.selected]? = some r → update r = .ok r' →
      RegsUpdate t op r r') : WriteEffect t op (t.selectedRegsMut update) := by
  rw [selectedRegsMut]
  cases hr : t.queues[t.selected]? with
  | none => exact CallEffect.unchanged
  | some r =>
    dsimp only
    cases hu : update r with
    | error e => exact CallEffect.unchanged
    | ok r' => exact CallEffect.updated hr (hupdate r r' hr hu)

lemma updateAddr_effect (ring : Ring) (word : UInt32) (high : Bool) :
    WriteEffect t op (t.updateAddr ring word high) := by
  refine selectedRegsMut_effect ?_
  intro r r' _ hu
  split at hu
  · cases hu
  next hready =>
    cases hu
    exact RegsUpdate.addressed (Bool.eq_false_iff.2 hready)

lemma armQueue_effect : WriteEffect t op t.armQueue := by
  refine selectedRegsMut_effect ?_
  intro r r' _ hu
  dsimp only at hu
  split at hu
  · cases hu
  next hcheck =>
    cases hu
    rw [not_or] at hcheck
    obtain ⟨hnum, hrings⟩ := hcheck
    simp only [List.any_cons, List.any_nil, Bool.or_false, Bool.or_eq_true, not_or,
      Bool.not_eq_true] at hrings
    obtain ⟨hdesc, havail, hused⟩ := hrings
    refine RegsUpdate.armed hnum ?_
    -- The sizes are computed in 64 bits, where a 16-bit queue size cannot overflow.
    have hlt : r.num.toNat < 2 ^ 16 := r.num.toNat_lt
    intro ring
    cases ring with
    | desc =>
      have hlen : (r.num.toUInt64 * splitRingDescriptorBytes).toNat = 16 * r.num.toNat := by
        simp only [UInt64.toNat_mul, UInt16.toNat_toUInt64, splitRingDescriptorBytes,
          UInt64.reduceToNat]
        omega
      rw [Ring.bytes, ← hlen]
      exact inRam_of_not_escapes hdesc
    | avail =>
      have hlen : (4 + r.num.toUInt64 * 2).toNat = 4 + 2 * r.num.toNat := by
        simp only [UInt64.toNat_add, UInt64.toNat_mul, UInt16.toNat_toUInt64, UInt64.reduceToNat]
        omega
      rw [Ring.bytes, ← hlen]
      exact inRam_of_not_escapes havail
    | used =>
      have hlen : (4 + r.num.toUInt64 * 8).toNat = 4 + 8 * r.num.toNat := by
        simp only [UInt64.toNat_add, UInt64.toNat_mul, UInt16.toNat_toUInt64, UInt64.reduceToNat]
        omega
      rw [Ring.bytes, ← hlen]
      exact inRam_of_not_escapes hused

lemma writeFeatures_effect (features : UInt64) : WriteEffect t op (t.writeFeatures features) := by
  rw [writeFeatures]
  split
  · exact CallEffect.unchanged
  next hsub => exact CallEffect.featured (not_not.1 hsub)

lemma selectedRegs_eq (hr : t.queues[t.selected]? = some r) : t.selectedRegs = r := by
  rw [selectedRegs, hr]
  rfl

lemma resize_effect {num : UInt16}
    (hcheck : ¬ (t.selectedRegs.ready = true ∨ ¬ validQueueSize t.queueMax num = true)) :
    WriteEffect t op (t.selectedRegsMut fun r => .ok { r with num := num }) := by
  rw [not_or, not_not] at hcheck
  refine selectedRegsMut_effect ?_
  intro r r' hr hu
  cases hu
  rw [selectedRegs_eq hr] at hcheck
  exact RegsUpdate.sized (Bool.eq_false_iff.2 hcheck.1) hcheck.2

lemma disarm_effect (hop : op.Disarms) :
    WriteEffect t op (t.selectedRegsMut fun r => .ok { r with ready := false }) := by
  refine selectedRegsMut_effect ?_
  intro r r' _ hu
  cases hu
  exact RegsUpdate.disarmed hop

lemma setIrqLevel_effect (status : UInt32) (level : Bool) :
    CallEffect t op out ({ t with interruptStatus := status }.setIrqLevel level) := by
  obtain ⟨dirty, hlevel⟩ := setIrqLevel_eq { t with interruptStatus := status } level
  rw [hlevel]
  exact CallEffect.interrupts

lemma write_effect (t : MmioTransport) (offset : UInt64) (width : UInt8) (value : UInt64) :
    WriteEffect t (.write offset width value) (t.write offset width value) := by
  rw [write]
  cases check offset width with
  | error e => exact WriteEffect.unchanged
  | ok =>
    refine .branch (fun _ => .unchanged) fun hwidth => ?_
    -- `HOST_FEATURES_SEL`, `GUEST_FEATURES_SEL`, `GUEST_FEATURES`
    refine .branch (fun _ => .branch (fun _ => .unchanged) fun _ => CallEffect.featuresSelected)
      fun _ => ?_
    refine .branch (fun _ => .branch (fun _ => writeFeatures_effect _) fun _ =>
      .branch (fun _ => writeFeatures_effect _) fun _ => .unchanged) fun _ => ?_
    -- `QUEUE_SEL`, `QUEUE_NUM`
    refine .branch (fun _ => .branch (fun _ => .unchanged) fun hlen =>
      CallEffect.queueSelected (Nat.lt_of_not_le hlen)) fun _ => ?_
    refine .branch (fun _ => .branch (fun _ => .branch (fun _ => .unchanged) resize_effect)
      fun _ => .unchanged) fun _ => ?_
    -- `QUEUE_READY`, `QUEUE_NOTIFY`
    refine .branch (fun hoffset => .branch (fun hword => ?_) fun _ =>
      .branch (fun _ => armQueue_effect) fun _ => .unchanged) fun _ => ?_
    · -- Below the configuration space, the status register apart, an access is 4 bytes wide.
      have hfour : width = 4 := by
        by_contra hne
        exact hwidth ⟨by rw [hoffset]; decide, by rw [hoffset]; decide, hne⟩
      exact disarm_effect ⟨value, by rw [hoffset, hfour], hword⟩
    refine .branch (fun _ => .unchanged) fun _ => ?_
    -- `INTERRUPT_ACK`, `REG_STATUS`
    refine .branch (fun _ => ?_) fun _ => ?_
    · dsimp only
      split
      · exact setIrqLevel_effect _ _
      · exact CallEffect.interrupts
    refine .branch (fun _ => ?_) fun _ => ?_
    · cases driveStatus t.status value.toUInt8 with
      | error e => exact WriteEffect.unchanged
      | ok status => exact .branch (fun _ => CallEffect.reset rfl) fun _ => CallEffect.driven
    -- The address registers, then the configuration space.
    refine .branch (fun _ => updateAddr_effect _ _ _) fun _ => ?_
    refine .branch (fun _ => updateAddr_effect _ _ _) fun _ => ?_
    refine .branch (fun _ => updateAddr_effect _ _ _) fun _ => ?_
    exact .branch (fun _ => .unchanged) fun _ => .unchanged

lemma step_effect (hstep : t.step op = some (out, t')) : CallEffect t op out t' := by
  cases op with
  | read offset width =>
    cases hstep
    exact CallEffect.unchanged
  | write offset width value =>
    cases hstep
    exact write_effect t offset width value
  | signal bit =>
    cases hstep
    rw [signal]
    split
    · split
      · exact setIrqLevel_effect _ _
      · exact CallEffect.interrupts
    · exact CallEffect.unchanged
  | takeIrq =>
    cases hstep
    rw [takeIrq]
    split
    · exact CallEffect.interrupts
    · exact CallEffect.unchanged

/-! ## One queue -/

/-- Everything one call can do to the registers of queue `q`. -/
inductive QueueStep (t : MmioTransport) (op : Op) (out : Outcome) (q : Nat) :
    Option QueueRegs → Option QueueRegs → Prop where
  | same {v : Option QueueRegs} : QueueStep t op out q v v
  | updated {r r' : QueueRegs} :
      t.selected = q → RegsUpdate t op r r' → QueueStep t op out q (some r) (some r')
  | reset {r : QueueRegs} :
      out = .written (.ok .reset) → QueueStep t op out q (some r) (some {})

lemma resetDevice_eq (t : MmioTransport) : ∃ dirty, t.resetDevice =
    { t with
      queues := t.queues.map fun _ => {}, selected := 0, guestFeatures := 0, interruptStatus := 0
      irqLevel := false, irqDirty := dirty } :=
  setIrqLevel_eq _ _

lemma CallEffect.queueStep (he : CallEffect t op out t') (q : Nat) :
    QueueStep t op out q t.queues[q]? t'.queues[q]? := by
  cases he with
  | unchanged | featuresSelected | featured | queueSelected | driven | interrupts =>
      exact QueueStep.same
  | updated hr hupdate =>
    by_cases hq : t.selected = q
    · have hlt : t.selected < t.queues.length := (List.getElem?_eq_some_iff.1 hr).1
      rw [← hq, hr, List.getElem?_set_self hlt]
      exact QueueStep.updated rfl hupdate
    · rw [List.getElem?_set_ne hq]
      exact QueueStep.same
  | @reset status hout =>
    obtain ⟨dirty, hreset⟩ := resetDevice_eq { t with status }
    rw [hreset, List.getElem?_map]
    cases t.queues[q]? with
    | none => exact QueueStep.same
    | some r => exact QueueStep.reset hout

lemma RegsUpdate.sound (hu : RegsUpdate t op r r') (hr : r.Sound t.ramSize t.queueMax) :
    r'.Sound t.ramSize t.queueMax := by
  cases hu with
  | sized hready hvalid =>
    refine ⟨Or.inr hvalid, fun harmed => ?_⟩
    rw [hready] at harmed
    cases harmed
  | @addressed ring addr hready =>
    refine ⟨?_, fun harmed => ?_⟩
    · rw [QueueRegs.setAddr_num]
      exact hr.size
    · rw [QueueRegs.setAddr_ready, hready] at harmed
      cases harmed
  | disarmed => exact ⟨hr.size, fun harmed => by cases harmed⟩
  | armed hnum hrings =>
    refine ⟨hr.size, fun _ => ⟨hnum, fun ring => ?_⟩⟩
    cases ring with
    | desc => exact hrings .desc
    | avail => exact hrings .avail
    | used => exact hrings .used

lemma RegsUpdate.eq_of_ready (hu : RegsUpdate t op r r') (hop : ¬ op.Disarms)
    (hready : r.ready = true) : r' = r := by
  cases hu with
  | sized hidle | addressed hidle =>
    rw [hready] at hidle
    cases hidle
  | disarmed hdis => exact absurd hdis hop
  | armed =>
    cases r
    cases hready
    rfl

/-! ## The invariant -/

/-- What holds of every reachable transport that was created with these parameters. -/
structure Invariant (ramSize hostFeatures : UInt64) (queueMax : UInt16) (config : List UInt8)
    (t : MmioTransport) : Prop where
  sameRam : t.ramSize = ramSize
  sameHost : t.hostFeatures = hostFeatures
  sameMax : t.queueMax = queueMax
  sameConfig : t.config = config
  features : t.guestFeatures &&& ~~~ hostFeatures = 0
  queues : ∀ {q : Nat} {r : QueueRegs}, t.queues[q]? = some r → r.Sound ramSize queueMax

section Runs

variable {ramSize hostFeatures : UInt64} {queueMax : UInt16} {config : List UInt8}
  {es : List MmioEvent}

lemma Invariant.step (hi : Invariant ramSize hostFeatures queueMax config t)
    (hstep : t.step op = some (out, t')) : Invariant ramSize hostFeatures queueMax config t' := by
  have he := step_effect hstep
  have hqueues : ∀ {q : Nat} {r : QueueRegs}, t'.queues[q]? = some r →
      r.Sound ramSize queueMax := by
    intro q r hr
    have hview := he.queueStep q
    rw [hr] at hview
    generalize hv : t.queues[q]? = v at hview
    cases hview with
    | same => exact hi.queues hv
    | updated _ hu =>
      have hsound := hi.queues hv
      rw [← hi.sameRam, ← hi.sameMax] at hsound ⊢
      exact hu.sound hsound
    | reset => exact QueueRegs.sound_default _ _
  cases he with
  | featured hsub =>
    exact { hi with features := hi.sameHost ▸ hsub, queues := hqueues }
  | @reset status =>
    obtain ⟨dirty, hreset⟩ := resetDevice_eq { t with status }
    rw [hreset] at hqueues ⊢
    exact { hi with features := UInt64.zero_and, queues := hqueues }
  | _ => exact { hi with queues := hqueues }

lemma Invariant.run (hi : Invariant ramSize hostFeatures queueMax config t)
    (hrun : MmioRun t es t') : Invariant ramSize hostFeatures queueMax config t' :=
  hrun.invariant (fun hi hstep => hi.step hstep) hi

inductive Created (ramSize hostFeatures : UInt64) (queueMax : UInt16) (config : List UInt8) :
    MmioTransport → Prop where
  | new (deviceId : UInt32) :
      Created ramSize hostFeatures queueMax config
        (new ramSize deviceId hostFeatures queueMax config)
  | withQueueCount (deviceId : UInt32) (count : UInt16) :
      Created ramSize hostFeatures queueMax config
        ((new ramSize deviceId hostFeatures queueMax config).withQueueCount count)

lemma Created.invariant (hc : Created ramSize hostFeatures queueMax config t) :
    Invariant ramSize hostFeatures queueMax config t := by
  have hdefault : ∀ {qs : List QueueRegs}, (∀ r ∈ qs, r = {}) →
      ∀ {q : Nat} {r : QueueRegs}, qs[q]? = some r → r.Sound ramSize queueMax := by
    intro qs hall q r hr
    rw [hall r (List.mem_of_getElem? hr)]
    exact QueueRegs.sound_default _ _
  cases hc with
  | new deviceId =>
    refine ⟨rfl, rfl, rfl, rfl, UInt64.zero_and, hdefault ?_⟩
    intro r hr
    exact List.mem_singleton.1 hr
  | withQueueCount deviceId count =>
    refine ⟨rfl, rfl, rfl, rfl, UInt64.zero_and, hdefault ?_⟩
    intro r hr
    exact List.eq_of_mem_replicate hr

/-! ## Armed queues -/

lemma queueAddrsFor_eq_some {a : UInt64 × UInt64 × UInt64 × UInt16} : t.queueAddrsFor q = some a ↔
      ∃ r, t.queues[q]? = some r ∧ r.ready = true ∧ (r.desc, r.avail, r.used, r.num) = a := by
  simp [queueAddrsFor, Option.bind_eq_some_iff]

/-- The event takes an armed queue `q` down: zero is written to the ready register while `q` is
selected, or the device is reset. -/
def TakesDown (q : Nat) (ev : MmioEvent) : Prop :=
  (ev.op.Disarms ∧ ev.pre.selected = q) ∨ ev.out = .written (.ok .reset)

theorem queue_stays_armed {a : UInt64 × UInt64 × UInt64 × UInt16} (ha : t.queueAddrsFor q = some a)
    (hrun : MmioRun t es t') (hup : ∀ ev ∈ es, ¬ TakesDown q ev) : t'.queueAddrsFor q = some a := by
  induction hrun with
  | nil => exact ha
  | @snoc m t' es op out hrun hstep ih =>
    have hlast : ¬ TakesDown q ⟨m, op, out, t'⟩ :=
      hup _ (List.mem_append_right _ (List.mem_singleton.2 rfl))
    obtain ⟨r, hr, hready, heq⟩ :=
      queueAddrsFor_eq_some.1 (ih fun ev hev => hup ev (List.mem_append_left _ hev))
    have hview := (step_effect hstep).queueStep q
    rw [hr] at hview
    refine queueAddrsFor_eq_some.2 ⟨r, ?_, hready, heq⟩
    generalize t'.queues[q]? = v' at hview ⊢
    cases hview with
    | same => rfl
    | updated hsel hu => rw [hu.eq_of_ready (fun hdis => hlast (Or.inl ⟨hdis, hsel⟩)) hready]
    | reset hout => exact absurd (Or.inr hout) hlast

/-- In every state a guest can drive a transport to, an armed queue has a power-of-two size within
the device's maximum and rings inside guest memory, it keeps its layout until it is taken down, the
guest has no feature the host does not offer, and the configuration space is as it was. -/
theorem transport_safe {t₀ : MmioTransport}
    (hnew : Created ramSize hostFeatures queueMax config t₀) (hrun : MmioRun t₀ es t) :
    (∀ q desc avail used num, t.queueAddrsFor q = some (desc, avail, used, num) →
      (num ≠ 0 ∧ num.toNat.isPowerOfTwo ∧ num ≤ queueMax) ∧
        InRam ramSize desc (16 * num.toNat) ∧ InRam ramSize avail (4 + 2 * num.toNat) ∧
          InRam ramSize used (4 + 8 * num.toNat)) ∧
      (∀ q a es' t', t.queueAddrsFor q = some a → MmioRun t es' t' →
        (∀ ev ∈ es', ¬ TakesDown q ev) → t'.queueAddrsFor q = some a) ∧
      t.guestFeatures &&& ~~~ hostFeatures = 0 ∧ t.config = config := by
  have hi := hnew.invariant.run hrun
  refine ⟨?_, ?_, hi.features, hi.sameConfig⟩
  · intro q desc avail used num ha
    obtain ⟨r, hr, hready, heq⟩ := queueAddrsFor_eq_some.1 ha
    cases heq
    have hsound := hi.queues hr
    obtain ⟨hnum, hrings⟩ := hsound.armed hready
    refine ⟨?_, hrings .desc, hrings .avail, hrings .used⟩
    rcases hsound.size with hzero | hvalid
    · exact absurd hzero hnum
    · rw [validQueueSize, decide_eq_true_eq] at hvalid
      obtain ⟨-, -, -, -, hle, hpow⟩ := hvalid
      exact ⟨hnum, hpow, hle⟩
  · intro q a es' t' ha hlater hup
    exact queue_stays_armed ha hlater hup

end Runs

def twoQueues : MmioTransport :=
  (new 0x20000 2 0x100000000 256 [7]).withQueueCount 2

def driverOps : List Op :=
  [ .write regStatus 1 1, .write regStatus 1 3, .write guestFeaturesSel 4 1,
    .write guestFeaturesOffset 4 1, .write regStatus 1 11, .write regStatus 1 15,
    .write queueSel 4 1, .write queueNum 4 128, .write queueDescLow 4 0x1000,
    .write queueAvailLow 4 0x2000, .write queueUsedLow 4 0x13000, .write queueReady 4 1 ]

theorem transport_safe_armed :
    ∃ es t, MmioRun twoQueues es t ∧
      t.queueAddrsFor 1 = some (0x1000, 0x2000, 0x13000, 128) ∧
        InRam 0x20000 0x13000 (4 + 8 * 128) ∧
          (t.apply (.write queueNum 4 256)).2.queueAddrsFor 1 =
            some (0x1000, 0x2000, 0x13000, 128) := by
  have hrun := Run.exec_run step twoQueues driverOps (by decide)
  have harmed : ((Run.exec step twoQueues driverOps).get (by decide)).2.queueAddrsFor 1 =
      some (0x1000, 0x2000, 0x13000, 128) := by
    decide
  obtain ⟨hrings, hstay, -, -⟩ := transport_safe (Created.withQueueCount 2 2) hrun
  refine ⟨_, _, hrun, harmed, (hrings _ _ _ _ _ harmed).2.2.2, ?_⟩
  have hwrite : ∀ t : MmioTransport,
      t.step (.write queueNum 4 256) = some (t.apply (.write queueNum 4 256)) := fun _ => rfl
  refine hstay _ _ _ _ harmed (Run.Trace.single (hwrite _)) ?_
  intro ev hev
  rw [List.mem_singleton.1 hev]
  rintro (⟨⟨value, hop, -⟩, -⟩ | hout)
  · have hoffset : queueNum = queueReady := (Op.write.inj hop).1
    exact absurd hoffset (by decide)
  · exact absurd (Outcome.written.inj hout) (by decide)

end MmioTransport
end Terrarium.Device
