import Mathlib.Data.List.FinRange
import Mathlib.Logic.Function.Basic
import Terrarium.Foundations.Run
import Terrarium.Limits

/-!
# InterruptController — the x86 interrupt controller

`components/interrupt-controller/src/lib.rs`: devices change the levels of their slots, several
slots share a pin, and the guest programs the pins' redirection entries through two registers, half
an entry at a time.

* `step` — a call on the component, which serves one of its two modes;
* `Controller.Active` — the pin is asserted and not masked; `Reply.emitted` has an interrupt for
  each pin that becomes active, and only for active pins.

A route is a `u8` below the number of pins, so it is a number of that type here.
-/

namespace Terrarium.Device
namespace InterruptController

open Limits

/-! ## The controller -/

def pins : Nat := x86IoapicPins
def registerSelect : UInt8 := 0
def window : UInt8 := 0x10
def versionRegister : UInt8 := 1
def version : UInt32 := (UInt32.ofNat (x86IoapicPins - 1) <<< 16) ||| 0x11
def redirectionBase : UInt8 := 0x10
def masked : UInt32 := (1 : UInt32) <<< 16
def levelTriggered : UInt32 := (1 : UInt32) <<< 15

inductive Mode
  | irqLines
  | ioapic
  deriving DecidableEq

inductive Error
  | invalidSlot
  | invalidState
  deriving DecidableEq

structure Config where
  mode : Mode
  routes : List UInt32

structure X86Interrupt where
  vector : UInt8
  destination : UInt8
  levelTriggered : Bool
  deriving DecidableEq

abbrev Pin : Type := Fin pins

structure Controller where
  mode : Mode
  routes : List Pin
  levels : List Bool
  register : UInt8
  /-- Low and high register halves of each redirection entry. -/
  redirection : Pin → Fin 2 → UInt32
  asserted : Pin → Bool

namespace Controller

def route (route : UInt32) : Except Error Pin :=
  if h : route.toNat < pins then .ok ⟨route.toNat, h⟩ else .error .invalidSlot

def new (config : Config) : Except Error Controller :=
  if config.routes.length > maxDevices then
    .error .invalidSlot
  else do
    let routes ← config.routes.mapM route
    return {
      mode := config.mode
      levels := List.replicate routes.length false
      routes := routes
      register := 0
      redirection := fun _ half => if half = 0 then masked else 0
      asserted := fun _ => false }

variable (c : Controller)

/-- The level of a pin: whether one of the slots routed to it is asserted. -/
def aggregate (pin : Pin) : Bool :=
  (c.routes.zip c.levels).any fun slot => slot.1 = pin && slot.2

/-- Returns the GSI whose aggregate level changed. -/
def line (slot : UInt8) (level : Bool) : Except Error (Option Pin) × Controller :=
  match c.routes[slot.toNat]? with
  | none => (.error .invalidSlot, c)
  | some gsi =>
      let c := { c with levels := c.levels.set slot.toNat level }
      if c.asserted gsi = c.aggregate gsi then
        (.ok none, c)
      else
        (.ok (some gsi), { c with asserted := Function.update c.asserted gsi (c.aggregate gsi) })

def deliver (pin : Pin) : Option X86Interrupt :=
  let low := c.redirection pin 0
  let high := c.redirection pin 1
  if low &&& masked = 0 then
    some ⟨low.toUInt8, (high >>> 24).toUInt8, low &&& levelTriggered ≠ 0⟩
  else none

def ioapicLine (slot : UInt8) (level : Bool) : Except Error (Option X86Interrupt) × Controller :=
  match c.line slot level with
  | (.error error, c) => (.error error, c)
  | (.ok pin, c) => (.ok ((pin.filter fun pin => c.asserted pin).bind c.deliver), c)

def eoi (vector : UInt8) : List X86Interrupt :=
  (((List.finRange pins).filter fun pin => c.asserted pin).filterMap c.deliver).filter
    fun interrupt => interrupt.levelTriggered && interrupt.vector = vector

def redirectionHalf : Option (Pin × Fin 2) :=
  if redirectionBase ≤ c.register then
    let index := (c.register - redirectionBase).toNat
    if h : index / 2 < pins then
      some (⟨index / 2, h⟩, ⟨index % 2, Nat.mod_lt _ (Nat.succ_pos 1)⟩)
    else none
  else none

def readRegister : UInt32 :=
  if c.register = versionRegister then
    version
  else
    match c.redirectionHalf with
    | none => 0
    | some (pin, half) => c.redirection pin half

/-- Returns the pin whose redirection entry was written. -/
def writeRegister (value : UInt32) : Option Pin × Controller :=
  match c.redirectionHalf with
  | none => (none, c)
  | some (pin, half) =>
      (some pin,
        { c with
          redirection :=
            Function.update c.redirection pin (Function.update (c.redirection pin) half value) })

structure IoapicReply where
  value : UInt32
  interrupts : List X86Interrupt
  deriving DecidableEq

def access (offset width : UInt8) (write : Bool) (value : UInt32) : IoapicReply × Controller :=
  if offset = registerSelect ∧ width = 4 then
    if write then (⟨0, []⟩, { c with register := value.toUInt8 })
      else (⟨c.register.toUInt32, []⟩, c)
  else if offset = window ∧ width = 4 then
    if write then
      let (pin, c) := c.writeRegister value
      (⟨0, ((pin.filter fun pin => c.asserted pin).bind c.deliver).toList⟩, c)
    else (⟨c.readRegister, []⟩, c)
  else (⟨0, []⟩, c)

end Controller

/-! ## The component -/

inductive Op
  | irqLine (slot : UInt8) (asserted : Bool)
  | ioapicLine (slot : UInt8) (asserted : Bool)
  | access (offset width : UInt8) (write : Bool) (value : UInt32)
  | eoi (vector : UInt8)
  deriving DecidableEq

inductive Reply
  | error (error : Error)
  | irqLevel (level : Option (Pin × Bool))
  | interrupts (interrupts : List X86Interrupt)
  | access (reply : Controller.IoapicReply)
  deriving DecidableEq

/-- The interrupts that native code injects for a reply. -/
def Reply.emitted : Reply → List X86Interrupt
  | .error _ => []
  | .irqLevel _ => []
  | .interrupts emitted => emitted
  | .access reply => reply.interrupts

def Op.mode : Op → Mode
  | .irqLine _ _ => .irqLines
  | _ => .ioapic

/-- The levels after a call that is served. -/
def Op.levels (levels : List Bool) : Op → List Bool
  | .irqLine slot level => levels.set slot.toNat level
  | .ioapicLine slot level => levels.set slot.toNat level
  | _ => levels

/-- The selected register after a call. -/
def Op.register (register : UInt8) : Op → UInt8
  | .access offset width write value =>
      if offset = registerSelect ∧ width = 4 ∧ write = true then value.toUInt8 else register
  | _ => register

/-- The redirection entries after a call: two registers for each pin, from `redirectionBase` on. -/
def Op.redirection (register : UInt8) (entries : Pin → Fin 2 → UInt32) : Op → Pin → Fin 2 → UInt32
  | .access offset width write value => fun pin half =>
      if (offset = window ∧ width = 4 ∧ write = true) ∧
          register.toNat = redirectionBase.toNat + 2 * pin.val + half.val then
        value
      else entries pin half
  | _ => entries

def serve (c : Controller) : Op → Reply × Controller
  | .irqLine slot asserted =>
      match c.line slot asserted with
      | (.error error, c) => (.error error, c)
      | (.ok gsi, c) => (.irqLevel (gsi.map fun gsi => (gsi, c.asserted gsi)), c)
  | .ioapicLine slot asserted =>
      match c.ioapicLine slot asserted with
      | (.error error, c) => (.error error, c)
      | (.ok interrupt, c) => (.interrupts interrupt.toList, c)
  | .access offset width write value =>
      let (reply, c) := c.access offset width write value
      (.access reply, c)
  | .eoi vector => (.interrupts (c.eoi vector), c)

def step (c : Controller) (op : Op) : Option (Reply × Controller) :=
  some (if c.mode = op.mode then serve c op else (.error .invalidState, c))

/-! ## Levels -/

namespace Controller

variable {c c' : Controller} {pin : Pin} {slot : UInt8} {level : Bool}

/-- Every slot has a level, and a pin is asserted exactly if one of its slots is. -/
structure Aggregated (c : Controller) : Prop where
  length : c.levels.length = c.routes.length
  asserted : ∀ pin, c.asserted pin = c.aggregate pin

/-- A slot of another pin does not change a pin's level. -/
lemma any_zip_set {routes : List Pin} {levels : List Bool} {i : Nat} {gsi : Pin}
    (hroute : routes[i]? = some gsi) (hother : gsi ≠ pin) (level : Bool) :
    ((routes.zip (levels.set i level)).any fun slot => slot.1 = pin && slot.2) =
      (routes.zip levels).any fun slot => slot.1 = pin && slot.2 := by
  induction routes generalizing levels i with
  | nil => rfl
  | cons route routes ih =>
    cases levels with
    | nil => rfl
    | cons first levels =>
      cases i with
      | zero =>
        cases hroute
        simp only [List.set_cons_zero, List.zip_cons_cons, List.any_cons, decide_eq_false hother,
          Bool.false_and]
      | succ i =>
        simp only [List.set_cons_succ, List.zip_cons_cons, List.any_cons]
        rw [ih hroute]

lemma aggregate_set_of_ne {gsi : Pin} (hroute : c.routes[slot.toNat]? = some gsi)
    (hother : gsi ≠ pin) :
    { c with levels := c.levels.set slot.toNat level }.aggregate pin = c.aggregate pin :=
  any_zip_set hroute hother level

lemma line_spec (h : c.Aggregated) {result : Except Error (Option Pin)}
    (hline : c.line slot level = (result, c')) :
    c'.Aggregated ∧
      (∃ asserted, c' = { c with levels := c.levels.set slot.toNat level, asserted }) ∧
      (∀ pin, result = .ok (some pin) ↔ c'.aggregate pin ≠ c.aggregate pin) := by
  unfold line at hline
  split at hline
  next hroute =>
    cases hline
    have hsame : c.levels.set slot.toNat level = c.levels :=
      List.set_eq_of_length_le (h.length ▸ List.getElem?_eq_none_iff.1 hroute)
    refine ⟨h, ⟨c.asserted, ?_⟩, fun pin => ⟨nofun, fun hne => absurd rfl hne⟩⟩
    rw [hsame]
  next gsi hroute =>
    dsimp only at hline
    have hlength : (c.levels.set slot.toNat level).length = c.routes.length := by
      rw [List.length_set, h.length]
    split at hline
    next hsame =>
      cases hline
      have hkeep : ∀ pin, c.asserted pin =
          { c with levels := c.levels.set slot.toNat level }.aggregate pin := by
        intro pin
        by_cases hpin : gsi = pin
        · exact hpin ▸ hsame
        · rw [aggregate_set_of_ne hroute hpin]
          exact h.asserted pin
      refine ⟨⟨hlength, hkeep⟩, ⟨_, rfl⟩, fun pin => ⟨nofun, fun hne => absurd ?_ hne⟩⟩
      rw [← hkeep pin, h.asserted pin]
    next hchanged =>
      cases hline
      refine ⟨⟨hlength, fun pin => ?_⟩, ⟨_, rfl⟩, fun pin => ?_⟩
      · by_cases hpin : gsi = pin
        · subst hpin
          exact Function.update_self _ _ _
        · refine (Function.update_of_ne (Ne.symm hpin) _ _).trans ?_
          exact (h.asserted pin).trans (aggregate_set_of_ne hroute hpin).symm
      · constructor
        · intro heq
          cases heq
          rw [← h.asserted gsi]
          exact Ne.symm hchanged
        · intro hne
          by_cases hpin : gsi = pin
          · rw [hpin]
          · exact absurd (aggregate_set_of_ne hroute hpin) hne

/-! ## Interrupts -/

/-- The pin is asserted, and its redirection entry is not masked. -/
def Active (c : Controller) (pin : Pin) : Prop :=
  c.asserted pin = true ∧ c.redirection pin 0 &&& masked = 0

/-- The interrupt that a pin's redirection entry describes. -/
def interrupt (c : Controller) (pin : Pin) : X86Interrupt :=
  ⟨(c.redirection pin 0).toUInt8, (c.redirection pin 1 >>> 24).toUInt8,
    c.redirection pin 0 &&& levelTriggered ≠ 0⟩

lemma deliver_eq_some {interrupt : X86Interrupt} :
    c.deliver pin = some interrupt ↔ c.redirection pin 0 &&& masked = 0 ∧
    interrupt = c.interrupt pin := by
  unfold deliver
  rw [Option.ite_none_right_eq_some, Option.some.injEq]
  exact and_congr_right' eq_comm

lemma mem_deliver {changed : Option Pin} {interrupt : X86Interrupt} :
    interrupt ∈ ((changed.filter fun pin => c.asserted pin).bind c.deliver).toList ↔
      ∃ pin, changed = some pin ∧ c.Active pin ∧ interrupt = c.interrupt pin := by
  cases changed with
  | none => simp
  | some pin =>
    rw [Option.mem_toList]
    by_cases hasserted : c.asserted pin = true
    · rw [Option.filter_some_pos (by simpa using hasserted), Option.bind_some, deliver_eq_some]
      constructor
      · rintro ⟨hmask, heq⟩
        exact ⟨pin, rfl, ⟨hasserted, hmask⟩, heq⟩
      · rintro ⟨_, hsome, hactive, heq⟩
        cases hsome
        exact ⟨hactive.2, heq⟩
    · rw [Option.filter_some_neg (by simpa using hasserted)]
      constructor
      · intro heq
        cases heq
      · rintro ⟨_, hsome, hactive, -⟩
        cases hsome
        exact absurd hactive.1 hasserted

/-- The interrupts of an end of interrupt, in the order of the pins. -/
lemma eoi_eq (c : Controller) (vector : UInt8) :
    c.eoi vector = ((List.finRange pins).filter fun pin =>
      c.asserted pin && (c.redirection pin 0 &&& masked = 0) && (c.interrupt pin).levelTriggered &&
        (c.interrupt pin).vector = vector).map c.interrupt := by
  unfold eoi
  induction List.finRange pins with
  | nil => rfl
  | cons pin rest ih =>
    by_cases hasserted : c.asserted pin = true
    · by_cases hmask : c.redirection pin 0 &&& masked = 0
      · have hsome : c.deliver pin = some (c.interrupt pin) := deliver_eq_some.2 ⟨hmask, rfl⟩
        by_cases hmatch : (c.interrupt pin).levelTriggered = true ∧
          (c.interrupt pin).vector = vector
        · simp [hasserted, hmask, hsome, hmatch.1, hmatch.2, ih]
        · simp [hasserted, hmask, hsome, hmatch, ih]
      · have hnone : c.deliver pin = none := by
          unfold deliver
          exact if_neg hmask
        simp [hasserted, hmask, hnone, ih]
    · simp [hasserted, ih]

/-! ## What the calls store -/

structure Stores (c : Controller) (op : Op) (c' : Controller) : Prop where
  mode : c'.mode = c.mode
  routes : c'.routes = c.routes
  levels : c'.levels = op.levels c.levels
  register : c'.register = op.register c.register
  redirection : c'.redirection = op.redirection c.register c.redirection

lemma redirectionHalf_eq_some {half : Fin 2} : c.redirectionHalf = some (pin, half) ↔
    c.register.toNat = redirectionBase.toNat + 2 * pin.val + half.val := by
  have hpin := pin.isLt
  have hhalf := half.isLt
  unfold redirectionHalf
  split
  next hbase =>
    have hle : redirectionBase.toNat ≤ c.register.toNat := hbase
    have hsub : (c.register - redirectionBase).toNat = c.register.toNat - redirectionBase.toNat :=
      UInt8.toNat_sub_of_le _ _ hbase
    simp only [hsub, Option.dite_none_right_eq_some, Option.some.injEq, Prod.mk.injEq, Fin.ext_iff,
      exists_prop]
    omega
  next hbase =>
    have hlt : ¬ redirectionBase.toNat ≤ c.register.toNat := hbase
    constructor
    · exact nofun
    · intro heq
      omega

/-- A write changes the half of an entry that is selected, if one is. -/
lemma writeRegister_spec (value : UInt32) : ∃ redirection : Pin → Fin 2 → UInt32,
    (c.writeRegister value).2 = { c with redirection } ∧
      (∀ pin half, redirection pin half =
        if c.register.toNat = redirectionBase.toNat + 2 * pin.val + half.val then value
        else c.redirection pin half) ∧
      ∀ other, (c.writeRegister value).1 ≠ some other →
        redirection other = c.redirection other := by
  unfold writeRegister
  cases hhalf : c.redirectionHalf with
  | none =>
    -- The register is not one of the table: the write is ignored.
    refine ⟨c.redirection, rfl, fun pin half => ?_, fun _ _ => rfl⟩
    rw [if_neg fun heq => nomatch hhalf.symm.trans (redirectionHalf_eq_some.2 heq)]
  | some entry =>
    refine ⟨_, rfl, fun pin half => ?_, fun other hother => ?_⟩
    · simp only [← redirectionHalf_eq_some, hhalf, Option.some.injEq, Prod.ext_iff]
      by_cases hpin : entry.1 = pin
      · subst hpin
        simp only [Function.update_self, Function.update_apply, true_and, eq_comm]
      · simp only [Function.update_of_ne (Ne.symm hpin), hpin, false_and, if_false]
    · exact Function.update_of_ne (fun heq => hother (congrArg some heq.symm)) _ _

lemma access_spec {offset width : UInt8} {write : Bool} {value : UInt32} {reply : IoapicReply}
    (haccess : c.access offset width write value = (reply, c')) :
    Stores c (.access offset width write value) c' ∧ c'.asserted = c.asserted ∧
    ∃ changed : Option Pin,
      (∀ pin, changed ≠ some pin → c'.redirection pin = c.redirection pin) ∧
        reply.interrupts =
        ((changed.filter fun pin => c'.asserted pin).bind c'.deliver).toList := by
  unfold access at haccess
  split at haccess
  next hselect =>
    have hwindow : offset ≠ window := by
      rw [hselect.1]
      decide
    split at haccess
    next hwrite =>
      cases haccess
      refine ⟨⟨rfl, rfl, rfl, ?_, ?_⟩, rfl, none, fun _ _ => rfl, rfl⟩
      · simp [Op.register, hselect, hwrite]
      · simp [Op.redirection, hwindow]
    next hread =>
      cases haccess
      refine ⟨⟨rfl, rfl, rfl, ?_, ?_⟩, rfl, none, fun _ _ => rfl, rfl⟩
      · simp [Op.register, hread]
      · simp [Op.redirection, hread]
  next hselect =>
    have hregister : c.register = (Op.access offset width write value).register c.register :=
      (if_neg fun h => hselect ⟨h.1, h.2.1⟩).symm
    split at haccess
    next hwindow =>
      split at haccess
      next hwrite =>
        obtain ⟨redirection, hstored, hentry, hothers⟩ := c.writeRegister_spec value
        cases hwritten : c.writeRegister value with
        | mk changed after =>
          rw [hwritten] at haccess hstored hothers
          cases hstored
          cases haccess
          refine ⟨⟨rfl, rfl, rfl, hregister, ?_⟩, rfl, changed, hothers, rfl⟩
          funext pin half
          simp only [hentry, Op.redirection, hwindow, hwrite, and_self, true_and]
      next hread =>
        cases haccess
        refine ⟨⟨rfl, rfl, rfl, hregister, ?_⟩, rfl, none, fun _ _ => rfl, rfl⟩
        simp [Op.redirection, hread]
    next hwindow =>
      cases haccess
      refine ⟨⟨rfl, rfl, rfl, hregister, ?_⟩, rfl, none, fun _ _ => rfl, rfl⟩
      funext pin half
      exact (if_neg fun h => hwindow ⟨h.1.1, h.1.2.1⟩).symm

/-! ## Runs -/

/-- What holds of the controller in every state: levels are aggregated, and a controller that serves
plain lines has its entries masked. -/
structure Sound (c : Controller) : Prop where
  aggregated : c.Aggregated
  masked : c.mode = .irqLines → ∀ pin, c.redirection pin 0 = masked

lemma new_sound {config : Config} (h : new config = .ok c) : c.Sound := by
  unfold new at h
  split at h
  · cases h
  · obtain ⟨routes, -, hnew⟩ := Fallible.bind_eq_ok.1 h
    cases hnew
    refine ⟨⟨List.length_replicate, fun pin => ?_⟩, fun _ _ => rfl⟩
    refine (List.any_eq_false.2 fun slot hslot => ?_).symm
    have hlevel := List.eq_of_mem_replicate (List.of_mem_zip hslot).2
    simp [hlevel]

structure Emits (c : Controller) (reply : Reply) (c' : Controller) : Prop where
  /-- A pin that becomes active has its interrupt emitted. -/
  rising : ∀ pin, ¬ c.Active pin → c'.Active pin → c'.interrupt pin ∈ reply.emitted
  /-- Nothing is emitted for a pin that is not active. -/
  active : ∀ interrupt ∈ reply.emitted, ∃ pin, c'.Active pin ∧ interrupt = c'.interrupt pin

lemma emits_nothing (hsame : ∀ pin, c'.Active pin → c.Active pin) {reply : Reply}
    (hnone : reply.emitted = []) : Emits c reply c' := by
  refine ⟨fun pin hidle hactive => absurd (hsame pin hactive) hidle, fun interrupt hmem => ?_⟩
  rw [hnone] at hmem
  exact (List.not_mem_nil hmem).elim

lemma emits_deliver {reply : Reply} {changed : Option Pin}
    (hemitted : reply.emitted =
      ((changed.filter fun pin => c'.asserted pin).bind c'.deliver).toList)
    (honly : ∀ pin, ¬ c.Active pin → c'.Active pin → changed = some pin) : Emits c reply c' := by
  refine ⟨fun pin hidle hactive => ?_, fun interrupt hmem => ?_⟩
  · rw [hemitted]
    exact mem_deliver.2 ⟨pin, honly pin hidle hactive, hactive, rfl⟩
  · rw [hemitted] at hmem
    obtain ⟨pin, -, hactive, heq⟩ := mem_deliver.1 hmem
    exact ⟨pin, hactive, heq⟩

lemma masked_not_active (h : c.redirection pin 0 = masked) : ¬ c.Active pin := by
  intro hactive
  have hmask := hactive.2
  rw [h] at hmask
  exact absurd hmask (by decide)

lemma Sound.of_line (h : c.Sound) (haggregated : c'.Aggregated) {asserted : Pin → Bool}
    (hafter : c' = { c with levels := c.levels.set slot.toNat level, asserted }) : c'.Sound := by
  subst hafter
  exact ⟨haggregated, h.masked⟩

lemma ioapicLine_spec (h : c.Sound) {result : Except Error (Option X86Interrupt)}
    (hline : c.ioapicLine slot level = (result, c')) :
    c'.Sound ∧ Stores c (.ioapicLine slot level) c' ∧
      ((∃ error, result = .error error ∧ Emits c (.error error) c') ∨
        ∃ emitted, result = .ok emitted ∧ Emits c (.interrupts emitted.toList) c') := by
  unfold ioapicLine at hline
  cases hchange : c.line slot level with
  | mk changed after =>
    obtain ⟨haggregated, ⟨asserted, hafter⟩, hresult⟩ := line_spec h.aggregated hchange
    have hsound : after.Sound := h.of_line haggregated hafter
    have hstores : Stores c (.ioapicLine slot level) after := by
      subst hafter
      exact ⟨rfl, rfl, rfl, rfl, rfl⟩
    -- Only the pin that `line` returns has changed its level.
    have hrises : ∀ pin, ¬ c.Active pin → after.Active pin → changed = .ok (some pin) := by
      intro pin hidle hactive
      refine (hresult pin).2 fun hsame => hidle ⟨?_, ?_⟩
      · rw [h.aggregated.asserted pin, ← hsame, ← haggregated.asserted pin]
        exact hactive.1
      · have hmask := hactive.2
        rw [hstores.redirection] at hmask
        exact hmask
    rw [hchange] at hline
    cases changed with
    | error error =>
      cases hline
      refine ⟨hsound, hstores, Or.inl ⟨error, rfl, emits_nothing (fun pin hactive => ?_) rfl⟩⟩
      by_contra hidle
      cases hrises pin hidle hactive
    | ok gsi =>
      cases hline
      refine ⟨hsound, hstores, Or.inr ⟨_, rfl, emits_deliver rfl fun pin hidle hactive => ?_⟩⟩
      exact Except.ok.inj (hrises pin hidle hactive)

theorem Sound.step {op : Op} {reply : Reply} (h : c.Sound) (hstep : step c op = some (reply, c')) :
    c'.Sound ∧ (if c.mode = op.mode then Stores c op c' else c' = c) ∧ Emits c reply c' := by
  unfold InterruptController.step at hstep
  split at hstep
  next hmode =>
    rw [if_pos hmode]
    cases op with
    | irqLine slot level =>
      unfold serve at hstep
      cases hline : c.line slot level with
      | mk result after =>
        obtain ⟨haggregated, ⟨asserted, hafter⟩, -⟩ := line_spec h.aggregated hline
        have hsound := h.of_line haggregated hafter
        simp only [hline] at hstep
        subst hafter
        have hidle := fun pin => masked_not_active (hsound.masked hmode pin)
        cases result with
        | error error | ok gsi =>
          cases hstep
          exact ⟨hsound, ⟨rfl, rfl, rfl, rfl, rfl⟩,
            emits_nothing (fun pin hactive => absurd hactive (hidle pin)) rfl⟩
    | ioapicLine slot level =>
      unfold serve at hstep
      cases hline : c.ioapicLine slot level with
      | mk result after =>
        obtain ⟨hsound, hstores, hemits⟩ := ioapicLine_spec h hline
        simp only [hline] at hstep
        rcases hemits with ⟨error, rfl, hemits⟩ | ⟨emitted, rfl, hemits⟩
        · cases hstep
          exact ⟨hsound, hstores, hemits⟩
        · cases hstep
          exact ⟨hsound, hstores, hemits⟩
    | access offset width write value =>
      unfold serve at hstep
      cases haccess : c.access offset width write value with
      | mk result after =>
        obtain ⟨hstores, hasserted, changed, hothers, hemitted⟩ := access_spec haccess
        simp only [haccess, Option.some.injEq, Prod.mk.injEq] at hstep
        obtain ⟨rfl, rfl⟩ := hstep
        refine ⟨⟨⟨?_, fun pin => ?_⟩, fun hlines => ?_⟩, hstores,
          emits_deliver hemitted fun pin hidle hactive => ?_⟩
        · rw [hstores.levels, hstores.routes]
          exact h.aggregated.length
        · unfold aggregate
          rw [hasserted, hstores.routes, hstores.levels]
          exact h.aggregated.asserted pin
        · cases hmode.symm.trans (hstores.mode.symm.trans hlines)
        · by_contra hother
          refine hidle ?_
          unfold Active at hactive ⊢
          rw [hasserted, hothers pin hother] at hactive
          exact hactive
    | eoi vector =>
      cases hstep
      refine ⟨h, ⟨rfl, rfl, rfl, rfl, rfl⟩, fun pin hidle hactive => absurd hactive hidle,
        fun interrupt hmem => ?_⟩
      rw [eoi_eq] at hmem
      obtain ⟨pin, hpin, heq⟩ := List.mem_map.1 hmem
      have hmatch := (List.mem_filter.1 hpin).2
      simp only [Bool.and_eq_true, decide_eq_true_eq] at hmatch
      exact ⟨pin, hmatch.1.1, heq.symm⟩
  next hmode =>
    rw [if_neg hmode]
    cases hstep
    exact ⟨h, rfl, emits_nothing (fun _ hactive => hactive) rfl⟩

/-- In every state of every run, pins are asserted as their slots are; a line change stores the
slot's level and reports the pin whose level changed; a register access stores what is written; a
pin that becomes active has its interrupt emitted, and no other pin has; and an end of interrupt
yields the interrupts of the active level-triggered pins with its vector. -/
theorem controller_delivers {config : Config} {c₀ : Controller}
    {es : List (Run.Event Controller Op Reply)}
    (hnew : new config = .ok c₀) (hrun : Run.Trace InterruptController.step c₀ es c) :
    (∀ pin, c.asserted pin = c.aggregate pin) ∧
      (∀ slot level result c', c.line slot level = (result, c') →
        ∀ pin, result = .ok (some pin) ↔ c'.aggregate pin ≠ c.aggregate pin) ∧
      (∀ op reply c', InterruptController.step c op = some (reply, c') →
        (if c.mode = op.mode then Stores c op c' else c' = c) ∧ Emits c reply c') ∧
      ∀ vector, c.mode = .ioapic → InterruptController.step c (.eoi vector) =
        some (.interrupts (((List.finRange pins).filter fun pin =>
          c.asserted pin && (c.redirection pin 0 &&& masked = 0) &&
            (c.interrupt pin).levelTriggered &&
            (c.interrupt pin).vector = vector).map c.interrupt), c) := by
  have hsound : c.Sound := hrun.invariant (fun h hstep => (h.step hstep).1) (new_sound hnew)
  refine ⟨hsound.aggregated.asserted,
    fun slot level result c' hline => (line_spec hsound.aggregated hline).2.2,
    fun op reply c' hstep => (hsound.step hstep).2, fun vector hmode => ?_⟩
  rw [← eoi_eq]
  exact congrArg some (if_pos hmode)

def fifthPin : Pin := ⟨5, by decide⟩

def sharedPin : Controller where
  mode := .ioapic
  routes := [fifthPin, fifthPin]
  levels := [false, false]
  register := 0
  redirection := fun _ half => if half = 0 then masked else 0
  asserted := fun _ => false

def unmaskOps : List Op :=
  [.ioapicLine 0 true, .ioapicLine 1 true, .access 0 4 true 0x1b, .access 0x10 4 true 0x02000000,
    .access 0 4 true 0x1a, .access 0x10 4 true 0x8031, .ioapicLine 0 false, .eoi 0x31]

theorem controller_delivers_unmasked : ∃ es c,
    new ⟨.ioapic, [5, 5]⟩ = .ok sharedPin ∧ Run.Trace InterruptController.step sharedPin es c ∧
      (es.map fun e => e.out.emitted) =
      [[], [], [], [], [], [⟨0x31, 2, true⟩], [], [⟨0x31, 2, true⟩]] ∧
      c.asserted fifthPin = c.aggregate fifthPin := by
  have hnew : new ⟨.ioapic, [5, 5]⟩ = .ok sharedPin := rfl
  obtain ⟨es, c, hrun, hcheck⟩ := Run.exec_any unmaskOps
    (fun run : List (Run.Event Controller Op Reply) ×
      Controller => (run.1.map fun e => e.out.emitted) =
      [[], [], [], [], [], [⟨0x31, 2, true⟩], [], [⟨0x31, 2, true⟩]])
    (by decide +kernel : (Run.exec InterruptController.step sharedPin unmaskOps).any _ = true)
  exact ⟨es, c, hnew, hrun, of_decide_eq_true hcheck, (controller_delivers hnew hrun).1 fifthPin⟩

end Controller

end InterruptController
end Terrarium.Device
