import Mathlib.Data.Finite.Prod
import Terrarium.Generator.Flow

/-!
# PointerUses — following a function pointer through a function

A function pointer is followed forward through the registers that hold it: to the calls through it,
to the direct callees it is passed to, and to anything else that reads it, which is an escape.

* `FunctionFlow.inspect` — one instruction, with the registers that hold the pointer before it;
* `FunctionFlow.pointerUses` — the search over all paths, which always ends (`exists_pointerUses`).
-/

namespace Terrarium.Generator

open Seccomp (Architecture)
open Worklist

/-! ## Sets of registers -/

def registerBit (reg : Reg) : UInt64 :=
  (1 : UInt64) <<< reg.toUInt64

def registerBits (regs : List Reg) : UInt64 :=
  regs.foldl (fun bits reg => bits ||| registerBit reg) 0

def chosenBit (reg : Option Reg) : UInt64 :=
  match reg with
  | some reg => registerBit reg
  | none => 0

def argumentBits (architecture : Architecture) : UInt64 :=
  registerBits (arguments architecture)

def callerSaved (architecture : Architecture) : UInt64 :=
  registerBits (((List.range 32).map UInt8.ofNat).filter fun reg => callClobbers architecture reg)

/-! ## One instruction -/

namespace Insn

variable (insn : Insn) (holding : UInt64)

def through : Option Reg :=
  match insn.flow with
  | .call (.register target) => some target
  | .registerJump target => some target
  | _ => none

def target : Option Reg :=
  insn.through.filter fun target => holding &&& registerBit target ≠ 0

def copied : Option (Reg × Reg) :=
  match insn.effect with
  | .copy dst src mask =>
      if mask = 0xffffffffffffffff ∧ holding &&& registerBit src ≠ 0 then some (dst, src) else none
  | _ => none

/-- A zeroing idiom such as `xor eax, eax` names its register without reading it. -/
def overwritten : UInt64 :=
  match insn.effect with
  | .constant dst _ => registerBit dst
  | _ => 0

def allowed : UInt64 :=
  chosenBit (insn.target holding) ||| chosenBit ((insn.copied holding).map Prod.snd) |||
    insn.overwritten

/-- The argument registers the pointer is in, but for the one the instruction goes through. -/
def passed (architecture : Architecture) : UInt64 :=
  holding &&& argumentBits architecture &&& ~~~chosenBit (insn.target holding)

def nextHolding (architecture : Architecture) : UInt64 :=
  let kept := holding &&& ~~~insn.writeMask
  let kept := if insn.flow.isCall then kept &&& ~~~callerSaved architecture else kept
  kept ||| chosenBit ((insn.copied holding).map Prod.fst)

end Insn

inductive Escape where
  | reads
  | passes
  | returns
  deriving DecidableEq

def Escape.text : Escape → String
  | .reads => "reads"
  | .passes => "passes"
  | .returns => "returns"

namespace FunctionFlow

variable (flow : FunctionFlow)

abbrev Held := flow.Index × UInt64

/-- Where a function pointer in registers goes from some point on. -/
structure PointerUses where
  /-- Indirect calls and jumps through it. -/
  calls : List flow.Index
  /-- Direct calls that receive it in argument registers, with those registers. -/
  passes : List flow.Held

def handsOn (insn : Insn) (holding : UInt64) : Except Escape Bool :=
  let passed := insn.passed holding flow.image.architecture
  match insn.flow with
  | .call (.direct _) => .ok (passed ≠ 0)
  | .call (.slot _) => .ok (passed ≠ 0)
  | .tailCall _ => .ok (passed ≠ 0)
  | .jump target _ => .ok (passed ≠ 0 ∧ flow.indexOf target = none)
  | .call _ => if passed ≠ 0 then .error .passes else .ok false
  | .syscall => if passed ≠ 0 then .error .passes else .ok false
  | .legacySyscall => if passed ≠ 0 then .error .passes else .ok false
  | .ret => if holding &&& registerBit returnValue ≠ 0 then .error .returns else .ok false
  | _ => .ok false

/-- One instruction with the pointer in `holding`: the escape, or whether it is handed on. -/
def inspect (state : flow.Held) : Except Escape Bool :=
  let insn := flow.insn state.1
  if insn.readMask &&& state.2 &&& ~~~insn.allowed state.2 ≠ 0 then .error .reads
  else flow.handsOn insn state.2

/-! ## The search -/

/-- The state each state was first reached from. -/
abbrev CameFrom := List (flow.Held × flow.Held)

/-- The block entries on the path to `state`, oldest first; at most thirteen. -/
def pathTo (cameFrom : flow.CameFrom) : Nat → flow.Held → List String → List String
  | 0, _, path => path
  | fuel + 1, state, path =>
      match cameFrom.lookup state with
      | none => path
      | some previous =>
          let path :=
            if previous.1.val + 1 ≠ state.1.val then hex (flow.insn state.1).address :: path
              else path
          if 12 < path.length then path else pathTo cameFrom fuel previous path

def describePath (state : flow.Held) (cameFrom : flow.CameFrom) : String :=
  -- between two entries of the path the index goes down by one in each step
  String.intercalate " -> " (flow.pathTo cameFrom (14 * (flow.insns.length + 1)) state [])

def escapeText (state : flow.Held) (cameFrom : flow.CameFrom) (escape : Escape) : String :=
  flow.name ++ " " ++ escape.text ++ " the function pointer at " ++
    hex (flow.insn state.1).address ++
    " (reached through " ++ flow.describePath state cameFrom ++ ")"

/-- The states after one, the last successor on top of the stack. -/
def nextStates (state : flow.Held) : List flow.Held :=
  ((flow.edges.succs state.1).map fun successor =>
    (successor, (flow.insn state.1).nextHolding state.2 flow.image.architecture)).reverse

def addUses (state : flow.Held) (handsOn : Bool) (uses : flow.PointerUses) : flow.PointerUses :=
  let insn := flow.insn state.1
  ⟨if (insn.target state.2).isSome then uses.calls ++ [state.1] else uses.calls,
    if handsOn then uses.passes ++ [(state.1, insn.passed state.2 flow.image.architecture)]
    else uses.passes⟩

def pointerStep (acc : flow.CameFrom × flow.PointerUses) (state : flow.Held) :
    Except String ((flow.CameFrom × flow.PointerUses) × List flow.Held) :=
  match flow.inspect state with
  | .error escape => .error (flow.escapeText state acc.1 escape)
  | .ok handsOn =>
      .ok ((acc.1 ++ (flow.nextStates state).reverse.map fun next => (next, state),
        flow.addUses state handsOn acc.2), flow.nextStates state)

/-- Follows the registers holding a function pointer to the calls through it. -/
def pointerUses (fuel : Nat) (starts : List flow.Held) : Option (Except String flow.PointerUses) :=
  match flow.incomplete with
  | some reason => some (.error reason)
  | none =>
      (search (fun state => state.2 = 0) flow.pointerStep fuel ∅ starts.reverse ([], ⟨[], []⟩)).map
        fun result => result.map Prod.snd

/-- Where a function pointer goes when it arrives in the `holding` registers at entry. -/
def pointerUsesFromEntry (fuel : Nat) (holding : UInt64) :
    Option (Except String flow.PointerUses) :=
  if h : 0 < flow.insns.length then flow.pointerUses fuel [(⟨0, h⟩, holding)]
  else some (.ok ⟨[], []⟩)

instance : Finite UInt64 :=
  Finite.of_injective UInt64.toFin fun _ _ => UInt64.toFin_inj.1

theorem exists_pointerUses (starts : List flow.Held) : ∃ fuel result, flow.pointerUses fuel starts =
    some result := by
  unfold pointerUses
  cases flow.incomplete with
  | some reason => exact ⟨0, _, rfl⟩
  | none =>
      obtain ⟨fuel, result, h⟩ := search_terminates (fun state : flow.Held => state.2 = 0)
        flow.pointerStep ∅ starts.reverse ([], ⟨[], []⟩)
      exact ⟨fuel, _, by simp only [h, Option.map_some]; rfl⟩

end FunctionFlow
end Terrarium.Generator
