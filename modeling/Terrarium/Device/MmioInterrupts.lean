import Terrarium.Device.MmioSafety

/-!
# MmioInterrupts — the interrupt level of a transport

A device raises interrupt bits, the guest acknowledges them, and a reset or a failure clears them.
The level follows, together with a dirty flag that tells the device's loop to publish it.

* `Line` — the part of a transport that interrupts concern;
* `Line.Delivered` — a pending bit of a running driver asserts the level.  That fails where a bit
  was raised before `DRIVER_OK` and is still pending when `DRIVER_OK` is written, and nowhere else.
-/

namespace Terrarium.Device

/-! ## The line -/

/-- The status, the pending bits, the level and the dirty flag. -/
structure Line where
  status : UInt8
  pending : UInt32
  level : Bool
  dirty : Bool
  deriving DecidableEq

def MmioTransport.line (t : MmioTransport) : Line :=
  ⟨t.status, t.interruptStatus, t.irqLevel, t.irqDirty⟩

namespace Line

variable {l l' : Line}

def Running (l : Line) : Prop :=
  l.status &&& Status.driverOk ≠ 0 ∧ l.status &&& Status.failed = 0

def setLevel (l : Line) (level : Bool) : Line :=
  { l with level := level, dirty := l.dirty || l.level != level }

def ack (l : Line) (word : UInt32) : Line :=
  let acked := { l with pending := l.pending &&& ~~~ word }
  if acked.pending = 0 then acked.setLevel false else acked

def raise (l : Line) (bit : UInt32) : Line :=
  if l.status &&& Status.failed = 0 then
    let raised := { l with pending := l.pending ||| bit }
    if l.status &&& Status.driverOk ≠ 0 then raised.setLevel true else raised
  else l

/-- A signal asserts the level of a running driver, waits for one that is not there yet, and is lost
after a failure. -/
lemma raise_cases {P : Line → Prop} {bit : UInt32}
    (hrunning : l.Running → P ({ l with pending := l.pending ||| bit }.setLevel true))
    (hwaiting : ¬ l.Running → P { l with pending := l.pending ||| bit }) (hlost : P l) :
      P (l.raise bit) := by
  unfold raise
  split
  next hfailed =>
    split
    next hok => exact hrunning ⟨hok, hfailed⟩
    next hok => exact hwaiting fun h => hok h.1
  · exact hlost

def Keeps (status : UInt8) : Prop :=
  ¬ (status = 0 ∨ status &&& Status.failed ≠ 0)

def drive (l : Line) (status : UInt8) : Line :=
  { l with status := status }

def reset (l : Line) (status : UInt8) : Line :=
  { l with status := status, pending := 0 }.setLevel false

end Line

def Op.WritesStatus (op : MmioTransport.Op) (value : UInt8) : Prop :=
  ∃ (width : UInt8) (word : UInt64), op = .write regStatus width word ∧ (width = 1 ∨ width = 4) ∧
    word.toUInt8 = value

/-- Everything one call can do to the line. -/
inductive LineStep (l : Line) (op : MmioTransport.Op) : Line → Prop where
  | same : LineStep l op l
  | acked (word : UInt32) : LineStep l op (l.ack word)
  | driven {value status : UInt8} : Op.WritesStatus op value →
    driveStatus l.status value = .ok status →
      Line.Keeps status → LineStep l op (l.drive status)
  | reset {value status : UInt8} : driveStatus l.status value = .ok status → ¬ Line.Keeps status →
      LineStep l op (l.reset status)
  | raised {bit : UInt32} : op = .signal bit → LineStep l op (l.raise bit)
  | taken : op = .takeIrq → LineStep l op { l with dirty := false }

namespace MmioTransport

variable {t t' : MmioTransport} {op : Op} {out : Outcome}

lemma line_setIrqLevel (t : MmioTransport) (level : Bool) :
    (t.setIrqLevel level).line = t.line.setLevel level := by
  unfold setIrqLevel
  split
  next h => simp only [line, Line.setLevel, bne_iff_ne.2 h, Bool.or_true]
  next h =>
    rw [not_not] at h
    simp only [line, Line.setLevel, h, bne_self_eq_false, Bool.or_false]

def WriteLine (t : MmioTransport) (op : Op) (p : Except MmioError WriteOutcome × MmioTransport) :
    Prop :=
  LineStep t.line op p.2.line

lemma WriteLine.same {p : Except MmioError WriteOutcome × MmioTransport} (h : p.2.line = t.line) :
    WriteLine t op p := by
  unfold WriteLine
  rw [h]
  exact LineStep.same

lemma WriteLine.branch {c : Prop} [Decidable c]
    {p p' : Except MmioError WriteOutcome × MmioTransport}
    (hyes : c → WriteLine t op p) (hno : ¬ c → WriteLine t op p') :
    WriteLine t op (if c then p else p') :=
  iteInduction hyes hno

lemma line_selectedRegsMut (update : QueueRegs → Except MmioError QueueRegs) :
    WriteLine t op (t.selectedRegsMut update) := by
  refine .same ?_
  unfold selectedRegsMut
  split
  · rfl
  · split
    · rfl
    · rfl

lemma line_writeFeatures (features : UInt64) : WriteLine t op (t.writeFeatures features) := by
  refine .same ?_
  unfold writeFeatures
  split
  · rfl
  · rfl

lemma line_resetDevice (t : MmioTransport) (status : UInt8) :
    { t with status := status }.resetDevice.line = t.line.reset status := by
  unfold resetDevice
  rw [line_setIrqLevel]
  rfl

lemma line_write (t : MmioTransport) (offset : UInt64) (width : UInt8) (value : UInt64) :
    WriteLine t (.write offset width value) (t.write offset width value) := by
  rw [write]
  cases check offset width with
  | error e => exact .same rfl
  | ok =>
    refine .branch (fun _ => .same rfl) fun _ => ?_
    -- The features and the selected queue.
    refine .branch (fun _ => .branch (fun _ => .same rfl) fun _ => .same rfl) fun _ => ?_
    refine .branch (fun _ => .branch (fun _ => line_writeFeatures _) fun _ =>
      .branch (fun _ => line_writeFeatures _) fun _ => .same rfl) fun _ => ?_
    refine .branch (fun _ => .branch (fun _ => .same rfl) fun _ => .same rfl) fun _ => ?_
    refine .branch
      (fun _ => .branch (fun _ => .branch (fun _ => .same rfl) fun _ => line_selectedRegsMut _)
      fun _ => .same rfl) fun _ => ?_
    refine .branch (fun _ => .branch (fun _ => line_selectedRegsMut _) fun _ =>
      .branch (fun _ => line_selectedRegsMut _) fun _ => .same rfl) fun _ => ?_
    refine .branch (fun _ => .same rfl) fun _ => ?_
    -- `INTERRUPT_ACK`
    refine .branch (fun _ => ?_) fun _ => ?_
    · unfold WriteLine
      dsimp only
      rw [apply_ite line, line_setIrqLevel]
      exact LineStep.acked value.toUInt32
    -- `REG_STATUS`
    refine .branch (fun hstatus => ?_) fun _ => ?_
    · cases hdrive : driveStatus t.status value.toUInt8 with
      | error e => exact .same rfl
      | ok status =>
        have hop : Op.WritesStatus (.write offset width value) value.toUInt8 :=
          ⟨width, value, by rw [hstatus.1], hstatus.2, rfl⟩
        refine .branch (fun hreset => ?_) fun hkeeps => LineStep.driven hop hdrive hkeeps
        unfold WriteLine
        rw [line_resetDevice]
        exact LineStep.reset hdrive (not_not.2 hreset)
    -- The address registers, then the configuration space.
    refine .branch (fun _ => line_selectedRegsMut _) fun _ => ?_
    refine .branch (fun _ => line_selectedRegsMut _) fun _ => ?_
    refine .branch (fun _ => line_selectedRegsMut _) fun _ => ?_
    exact .branch (fun _ => .same rfl) fun _ => .same rfl

lemma line_signal (t : MmioTransport) (bit : UInt32) : (t.signal bit).line = t.line.raise bit := by
  unfold signal
  rw [apply_ite line, apply_ite line, line_setIrqLevel]
  rfl

lemma line_step (hstep : t.step op = some (out, t')) : LineStep t.line op t'.line := by
  cases op with
  | read offset width =>
    cases hstep
    exact LineStep.same
  | write offset width value =>
    cases hstep
    exact line_write t offset width value
  | signal bit =>
    cases hstep
    rw [line_signal]
    exact LineStep.raised rfl
  | takeIrq =>
    cases hstep
    unfold takeIrq
    split
    · exact LineStep.taken rfl
    · exact LineStep.same

end MmioTransport

/-! ## An asserted level is justified -/

namespace Line

variable {l l' : Line} {op : MmioTransport.Op}

/-- An asserted level has a pending bit and a running driver. -/
def Justified (l : Line) : Prop :=
  l.level = true → l.pending ≠ 0 ∧ l.Running

lemma driveStatus_cases {current value status : UInt8}
    (h : driveStatus current value = .ok status) :
    status = 0 ∨ status = current ∨ status = current ||| Status.failed ∨ ∃ next,
      ([Status.acknowledge, Status.driver, Status.featuresOk, Status.driverOk].find?
        fun bit => current &&& bit = 0) = some next ∧ status = current ||| next ∧ value = status ∧
        current &&& Status.failed = 0 := by
  unfold driveStatus at h
  split at h
  next hcase =>
    cases h
    rcases hcase with hzero | hsame
    · exact Or.inl hzero
    · exact Or.inr (Or.inl hsame)
  · split at h
    · cases h
    next hfailed =>
      rw [not_or, not_not] at hfailed
      split at h
      · cases h
        exact Or.inr (Or.inr (Or.inl rfl))
      · dsimp only at h
        split at h
        · cases h
        next next hnext =>
          split at h
          next hvalue =>
            cases h
            exact Or.inr (Or.inr (Or.inr ⟨next, hnext, hvalue, rfl, hfailed.1⟩))
          · cases h

lemma driveStatus_keeps {current value status : UInt8} (h : driveStatus current value = .ok status)
    (hkeeps : Keeps status) : ∃ bit, status = current ||| bit := by
  rcases driveStatus_cases h with hzero | hsame | hfailed | ⟨next, -, hstatus, -, -⟩
  · exact absurd (Or.inl hzero) hkeeps
  · exact ⟨0, hsame.trans UInt8.or_zero.symm⟩
  · exact ⟨Status.failed, hfailed⟩
  · exact ⟨next, hstatus⟩

lemma or_and_ne_zero {current bit mask : UInt8} (h : current &&& mask ≠ 0) :
    (current ||| bit) &&& mask ≠ 0 := by
  intro hzero
  refine h ?_
  have hle : (current &&& mask) = (current &&& mask) &&& ((current ||| bit) &&& mask) := by
    refine UInt8.eq_of_toBitVec_eq ?_
    ext i hi
    simp only [UInt8.toBitVec_and, UInt8.toBitVec_or, BitVec.getElem_and, BitVec.getElem_or]
    cases current.toBitVec[i] <;> cases mask.toBitVec[i] <;> simp
  rw [hle, hzero, UInt8.and_zero]

lemma Justified.step (h : l.Justified) (hstep : LineStep l op l')
    (hmask : ∀ bit, op = .signal bit → bit ≠ 0) : l'.Justified := by
  cases hstep with
  | same | taken _ => exact h
  | acked word =>
    intro hlevel
    unfold ack at hlevel ⊢
    dsimp only at hlevel ⊢
    split at hlevel
    · cases hlevel
    next hpending =>
      rw [if_neg hpending]
      exact ⟨hpending, (h hlevel).2⟩
  | driven _ hdrive hkeeps =>
    intro hlevel
    obtain ⟨hpending, hok, -⟩ := h hlevel
    refine ⟨hpending, ?_, not_not.1 fun hfailed => hkeeps (Or.inr hfailed)⟩
    obtain ⟨bit, rfl⟩ := driveStatus_keeps hdrive hkeeps
    exact or_and_ne_zero hok
  | reset _ _ =>
    intro hlevel
    cases hlevel
  | @raised bit hop =>
    refine raise_cases (fun hrunning _ => ⟨fun hzero => ?_, hrunning⟩) (fun hwaiting hlevel => ?_) h
    · exact hmask bit hop (UInt32.or_eq_zero_iff.1 hzero).2
    · exact absurd (h hlevel).2 hwaiting

/-- What the level was when it was last taken, where it has not changed since. -/
def Published (l : Line) (held : Bool) : Prop :=
  l.dirty = false → held = l.level

lemma Published.setLevel {held : Bool} (h : l.Published held) (level : Bool) :
    (l.setLevel level).Published held := by
  intro hdirty
  obtain ⟨hclean, hsame⟩ := Bool.or_eq_false_iff.1 hdirty
  exact (h hclean).trans (bne_eq_false_iff_eq.1 hsame)

lemma Published.step {held : Bool} (h : l.Published held) (hstep : LineStep l op l')
    (hop : op ≠ .takeIrq) : l'.Published held := by
  cases hstep with
  | same | driven _ _ _ => exact h
  | acked word =>
    unfold ack
    dsimp only
    split
    · exact Published.setLevel (l := { l with pending := _ }) h false
    · exact h
  | reset _ _ => exact Published.setLevel (l := { l with status := _, pending := 0 }) h false
  | raised _ =>
    refine raise_cases (P := (Published · held)) (fun _ => ?_) (fun _ => h) h
    exact Published.setLevel (l := { l with pending := _ }) h true
  | taken htake => exact absurd htake hop

/-! ## A pending bit is delivered -/

/-- A pending bit of a running driver asserts the level. -/
def Delivered (l : Line) : Prop :=
  l.Running → l.pending ≠ 0 → l.level = true

/-- The statuses a driver that has not failed goes through. -/
def Climbing (l : Line) : Prop :=
  l.status ∈ ([0, 1, 3, 11, 15] : List UInt8) ∨ l.status &&& Status.failed ≠ 0

lemma climb_next {current next : UInt8} (hclimb : current ∈ ([0, 1, 3, 11, 15] : List UInt8))
    (hnext : ([Status.acknowledge, Status.driver, Status.featuresOk, Status.driverOk].find?
      fun bit => current &&& bit = 0) = some next) :
    current ||| next ∈ ([1, 3, 11] : List UInt8) ∨ current = 11 ∧ current ||| next = 15 := by
  simp only [List.mem_cons, List.not_mem_nil, or_false] at hclimb
  rcases hclimb with rfl | rfl | rfl | rfl | rfl
  · cases hnext
    decide
  · cases hnext
    decide
  · cases hnext
    decide
  · cases hnext
    decide
  · cases hnext

lemma Climbing.step (h : l.Climbing) (hstep : LineStep l op l') : l'.Climbing := by
  have hdrive : ∀ {value status : UInt8}, driveStatus l.status value = .ok status →
      (l.drive status).Climbing := by
    intro value status hdrive
    rcases driveStatus_cases hdrive with rfl | rfl | rfl | ⟨next, hnext, rfl, -, hfailed⟩
    · exact Or.inl List.mem_cons_self
    · exact h
    · refine Or.inr ?_
      rw [UInt8.or_comm]
      exact or_and_ne_zero (by decide)
    · rcases h with hclimb | hbad
      · refine Or.inl ?_
        rcases climb_next hclimb hnext with hmem | ⟨-, heq⟩
        · have hsub : ([1, 3, 11] : List UInt8) ⊆ [0, 1, 3, 11, 15] := by
            decide
          exact hsub hmem
        · have hfifteen : (15 : UInt8) ∈ ([0, 1, 3, 11, 15] : List UInt8) := by
            decide
          exact heq.symm ▸ hfifteen
      · exact absurd hfailed hbad
  cases hstep with
  | same | taken _ => exact h
  | acked word =>
    unfold ack
    dsimp only
    split
    · exact h
    · exact h
  | driven _ hok _ | reset hok _ => exact hdrive hok
  | raised _ => exact raise_cases (fun _ => h) (fun _ => h) h

/-- The call completes the driver's initialisation. -/
def Completes (l : Line) (op : MmioTransport.Op) : Prop :=
  l.status = 11 ∧ Op.WritesStatus op 15

lemma Delivered.step (h : l.Delivered) (hclimb : l.Climbing) (hstep : LineStep l op l')
    (hclear : l.Completes op → l.pending = 0) : l'.Delivered := by
  cases hstep with
  | same | taken _ => exact h
  | acked word =>
    unfold ack
    dsimp only
    split
    next hzero => exact fun _ hpending => absurd hzero hpending
    next hrest =>
      refine fun hrunning _ => h hrunning fun hzero => hrest ?_
      rw [hzero, UInt32.zero_and]
  | @driven value status hop hdrive hkeeps =>
    intro hrunning hpending
    rcases driveStatus_cases hdrive with hzero | hsame | hfailed
      | ⟨next, hnext, hstatus, hvalue, hgood⟩
    · exact absurd (Or.inl hzero) hkeeps
    · refine h ?_ hpending
      rw [hsame] at hrunning
      exact hrunning
    · refine absurd (Or.inr ?_) hkeeps
      rw [hfailed, UInt8.or_comm]
      exact or_and_ne_zero (by decide)
    · rcases hclimb with hclimb | hbad
      · rcases climb_next hclimb hnext with hmem | ⟨heleven, hfifteen⟩
        · -- The driver is not there yet.
          refine absurd (show status &&& Status.driverOk = 0 from ?_) hrunning.1
          simp only [← hstatus, List.mem_cons, List.not_mem_nil, or_false] at hmem
          rcases hmem with rfl | rfl | rfl <;> decide
        · have hfull : value = 15 := by
            rw [hvalue, hstatus, hfifteen]
          exact absurd (hclear ⟨heleven, hfull ▸ hop⟩) hpending
      · exact absurd hgood hbad
  | reset _ _ => exact fun _ hpending => absurd rfl hpending
  | raised _ =>
      exact raise_cases (fun _ _ _ => rfl) (fun hwaiting hrunning => absurd hrunning hwaiting) h

end Line

/-! ## Runs -/

namespace MmioTransport

variable {ramSize hostFeatures : UInt64} {queueMax : UInt16} {config : List UInt8}
    {t₀ t t' : MmioTransport} {es : List MmioEvent}

/-- What a consumer that starts from a deasserted level holds after an event. -/
def takeLevel (held : Bool) (e : MmioEvent) : Bool :=
  match e.out with
  | .irq (some level) => level
  | _ => held

def heldLevel (es : List MmioEvent) : Bool :=
  es.foldl takeLevel false

@[simp] lemma heldLevel_snoc (es : List MmioEvent) (e : MmioEvent) :
    heldLevel (es ++ [e]) = takeLevel (heldLevel es) e := by
  simp only [heldLevel, List.foldl_append, List.foldl_cons, List.foldl_nil]

def SignalsBits (es : List MmioEvent) : Prop :=
  ∀ e ∈ es, ∀ bit, e.op = .signal bit → bit ≠ 0

structure LineInvariant (es : List MmioEvent) (t : MmioTransport) : Prop where
  justified : t.line.Justified
  published : t.line.Published (heldLevel es)
  climbing : t.line.Climbing

lemma Created.line (hnew : Created ramSize hostFeatures queueMax config t₀) :
    t₀.line = ⟨0, 0, false, false⟩ := by
  cases hnew with
  | new deviceId | withQueueCount deviceId count => rfl

lemma held_takeIrq {held : Bool} (h : t.line.Published held) {out : Outcome}
    (hstep : t.step .takeIrq = some (out, t')) : takeLevel held ⟨t, .takeIrq, out, t'⟩ =
    t'.irqLevel := by
  cases hstep
  unfold takeIrq
  split
  · rfl
  next hdirty => exact h (Bool.eq_false_iff.2 hdirty)

lemma published_step {held : Bool} {op : Op} {out : Outcome} (h : t.line.Published held)
    (hstep : t.step op = some (out, t')) : t'.line.Published (takeLevel held ⟨t, op, out, t'⟩) := by
  by_cases hop : op = .takeIrq
  · subst hop
    exact fun _ => held_takeIrq h hstep
  · have hheld : takeLevel held ⟨t, op, out, t'⟩ = held := by
      cases op with
      | takeIrq => exact absurd rfl hop
      | _ =>
        cases hstep
        rfl
    rw [hheld]
    exact h.step (line_step hstep) hop

lemma LineInvariant.run (hnew : Created ramSize hostFeatures queueMax config t₀)
    (hrun : MmioRun t₀ es t) (hbits : SignalsBits es) : LineInvariant es t := by
  induction hrun with
  | nil =>
    refine ⟨?_, ?_, ?_⟩
    · intro hlevel
      rw [hnew.line] at hlevel
      cases hlevel
    · intro _
      rw [hnew.line]
      rfl
    · refine Or.inl ?_
      rw [hnew.line]
      exact List.mem_cons_self
  | snoc hrun hstep ih =>
    have hbefore := ih fun e he => hbits e (List.mem_append_left _ he)
    have hlast := hbits _ (List.mem_append_right _ List.mem_cons_self)
    refine ⟨hbefore.justified.step (line_step hstep) hlast, ?_,
      hbefore.climbing.step (line_step hstep)⟩
    rw [heldLevel_snoc]
    exact published_step hbefore.published hstep

/-- In every state of a transport, an asserted level has a pending bit and a running driver, and the
last level that was taken is the current one unless the dirty flag is set; so taking it yields the
current level. -/
theorem level_justified (hnew : Created ramSize hostFeatures queueMax config t₀)
    (hrun : MmioRun t₀ es t) (hbits : SignalsBits es) :
    (t.irqLevel = true →
      t.interruptStatus ≠ 0 ∧ t.status &&& Status.driverOk ≠ 0 ∧ t.status &&& Status.failed = 0) ∧
      (t.irqDirty = false → heldLevel es = t.irqLevel) ∧
      ∀ out t', t.step .takeIrq = some (out, t') →
      heldLevel (es ++ [⟨t, .takeIrq, out, t'⟩]) = t'.irqLevel := by
  have hline := LineInvariant.run hnew hrun hbits
  refine ⟨hline.justified, hline.published, fun out t' hstep => ?_⟩
  rw [heldLevel_snoc]
  exact held_takeIrq hline.published hstep

def signalledOps : List Op :=
  [ .write regStatus 1 1, .write regStatus 1 3, .write regStatus 1 11,
    .write regStatus 1 15, .signal 1, .signal 2, .takeIrq, .write interruptAck 4 1 ]

theorem level_justified_signalled :
    ∃ es t, MmioRun twoQueues es t ∧ SignalsBits es ∧ t.irqLevel = true ∧ t.interruptStatus ≠ 0 ∧
      heldLevel es = true := by
  obtain ⟨es, t, hrun, hcheck⟩ := Run.exec_any signalledOps
    (fun run : List MmioEvent × MmioTransport => (run.1.all fun e => decide (e.op ≠ .signal 0)) &&
      run.2.irqLevel && !run.2.irqDirty)
    (by decide : (Run.exec step twoQueues signalledOps).any _ = true)
  simp only [Bool.and_eq_true, List.all_eq_true, decide_eq_true_eq, Bool.not_eq_true'] at hcheck
  obtain ⟨⟨hops, hlevel⟩, hdirty⟩ := hcheck
  have hbits : SignalsBits es := by
    intro e he bit hop hzero
    exact hops e he (hzero ▸ hop)
  obtain ⟨hjustified, hheld, -⟩ := level_justified (Created.withQueueCount 2 2) hrun hbits
  exact ⟨es, t, hrun, hbits, hlevel, (hjustified hlevel).1, (hheld hdirty).trans hlevel⟩

/-! ## Which interrupts are lost -/

/-- The event completes the driver's initialisation: `DRIVER_OK` joins the other three bits. -/
def CompletesInit (e : MmioEvent) : Prop :=
  e.pre.status = 11 ∧ Op.WritesStatus e.op 15

lemma write_completes (hstatus : t.status = 11) {width : UInt8} {word : UInt64}
    (hwidth : width = 1 ∨ width = 4)
    (hword : word.toUInt8 = 15) : (t.write regStatus width word).2 = { t with status := 15 } := by
  have hcheck : check regStatus width = .ok () := by
    rcases hwidth with rfl | rfl
    · decide
    · decide
  have hdrive : driveStatus t.status word.toUInt8 = .ok 15 := by
    rw [hstatus, hword]
    decide
  rw [write, hcheck]
  rw [if_neg fun h => h.2.1 rfl, if_neg (by decide), if_neg (by decide), if_neg (by decide),
    if_neg (by decide),
    if_neg (by decide), if_neg (by decide), if_neg (by decide), if_pos ⟨rfl, hwidth⟩, hdrive]
  exact congrArg Prod.snd (if_neg (by decide))

lemma delivered_run (hnew : Created ramSize hostFeatures queueMax config t₀)
    (hrun : MmioRun t₀ es t) (hclear : ∀ e ∈ es, CompletesInit e → e.pre.interruptStatus = 0) :
    t.line.Delivered ∧ t.line.Climbing ∧ ∀ e ∈ es, e.post.line.Delivered := by
  induction hrun with
  | nil =>
    refine ⟨fun hrunning _ => ?_, Or.inl ?_, List.forall_mem_nil _⟩
    · refine absurd ?_ hrunning.1
      rw [hnew.line]
      decide
    · rw [hnew.line]
      exact List.mem_cons_self
  | snoc _ hstep ih =>
    obtain ⟨hdelivered, hclimbing, hposts⟩ := ih fun e he => hclear e (List.mem_append_left _ he)
    have hnext := hdelivered.step hclimbing (line_step hstep)
      (hclear _ (List.mem_append_right _ List.mem_cons_self))
    exact ⟨hnext, hclimbing.step (line_step hstep),
      List.forall_mem_append.2 ⟨hposts, List.forall_mem_singleton.2 hnext⟩⟩

/-- The interrupts a transport holds for a running driver reach it in every state of a run exactly
if, whenever the driver completes its initialisation, no interrupt is pending. -/
theorem interrupts_delivered (hnew : Created ramSize hostFeatures queueMax config t₀)
    (hrun : MmioRun t₀ es t) (hbits : SignalsBits es) :
    (∀ e ∈ es, e.post.status &&& Status.driverOk ≠ 0 → e.post.status &&& Status.failed = 0 →
      e.post.interruptStatus ≠ 0 → e.post.irqLevel = true) ↔
      ∀ e ∈ es, CompletesInit e → e.pre.interruptStatus = 0 := by
  constructor
  · intro hdelivered e he hcompletes
    by_contra hpending
    obtain ⟨before, after, hes⟩ := List.append_of_mem he
    obtain ⟨hbefore, hstep, -⟩ := hrun.split hes
    have hline :=
      LineInvariant.run hnew hbefore fun e he => hbits e (hes ▸ List.mem_append_left _ he)
    obtain ⟨hstatus, width, word, hop, hwidth, hword⟩ := hcompletes
    rw [hop] at hstep
    have hpost : e.post = { e.pre with status := 15 } := by
      rw [← write_completes hstatus hwidth hword]
      exact (congrArg Prod.snd (Option.some.inj hstep)).symm
    have hok : (15 : UInt8) &&& Status.driverOk ≠ 0 := by
      decide
    have hfailed : (15 : UInt8) &&& Status.failed = 0 := by
      decide
    have hlevel := hdelivered e he
    rw [hpost] at hlevel
    -- The level was not asserted before, as the driver was not running.
    refine (hline.justified (hlevel hok hfailed hpending)).2.1 ?_
    change e.pre.status &&& Status.driverOk = 0
    rw [hstatus]
    decide
  · intro hclear e he hok hfailed hpending
    exact (delivered_run hnew hrun hclear).2.2 e he ⟨hok, hfailed⟩ hpending

def earlyOps : List Op :=
  [ .write regStatus 1 1, .write regStatus 1 3, .write regStatus 1 11, .write queueNum 4 128,
    .write queueDescLow 4 0x1000, .write queueAvailLow 4 0x2000, .write queueUsedLow 4 0x3000,
    .write queueReady 4 1, .write queueNotify 4 0, .signal 1, .write regStatus 1 15 ]

theorem interrupts_delivered_signalled :
    ∃ es t, MmioRun twoQueues es t ∧ SignalsBits es ∧
    (∀ e ∈ es, CompletesInit e → e.pre.interruptStatus = 0) ∧
      ∀ e ∈ es, e.post.status &&& Status.driverOk ≠ 0 → e.post.status &&& Status.failed = 0 →
        e.post.interruptStatus ≠ 0 → e.post.irqLevel = true := by
  obtain ⟨es, t, hrun, hcheck⟩ := Run.exec_any signalledOps
    (fun run : List MmioEvent × MmioTransport => run.1.all fun e => decide (e.op ≠ .signal 0) &&
      decide (e.pre.status = 11 → e.pre.interruptStatus = 0))
    (by decide : (Run.exec step twoQueues signalledOps).any _ = true)
  simp only [Bool.and_eq_true, List.all_eq_true, decide_eq_true_eq] at hcheck
  have hbits : SignalsBits es := by
    intro e he bit hop hzero
    exact (hcheck e he).1 (hzero ▸ hop)
  have hclear : ∀ e ∈ es, CompletesInit e → e.pre.interruptStatus = 0 := fun e he hcompletes =>
    (hcheck e he).2 hcompletes.1
  exact ⟨es, t, hrun, hbits, hclear,
    (interrupts_delivered (Created.withQueueCount 2 2) hrun hbits).2 hclear⟩

/-- The early signal is lost: its bit is pending and the driver runs, and the level is not asserted.
-/
theorem early_signal_lost :
    ∃ es t, Created 0x20000 0x100000000 256 [7] twoQueues ∧ MmioRun twoQueues es t ∧
    SignalsBits es ∧
      t.status &&& Status.driverOk ≠ 0 ∧ t.status &&& Status.failed = 0 ∧ t.interruptStatus ≠ 0 ∧
      t.irqLevel = false := by
  obtain ⟨es, t, hrun, hcheck⟩ := Run.exec_any earlyOps
    (fun run : List MmioEvent × MmioTransport => (run.1.all fun e => decide (e.op ≠ .signal 0)) &&
      decide (run.2.status = 15) &&
      decide (run.2.interruptStatus = 1) && !run.2.irqLevel)
    (by decide : (Run.exec step twoQueues earlyOps).any _ = true)
  simp only [Bool.and_eq_true, List.all_eq_true, decide_eq_true_eq, Bool.not_eq_true'] at hcheck
  obtain ⟨⟨⟨hops, hstatus⟩, hpending⟩, hlevel⟩ := hcheck
  refine ⟨es, t, Created.withQueueCount 2 2, hrun,
    fun e he bit hop hzero => hops e he (hzero ▸ hop), ?_, ?_, ?_, hlevel⟩
  · rw [hstatus]
    decide
  · rw [hstatus]
    decide
  · rw [hpending]
    decide

end MmioTransport

end Terrarium.Device
