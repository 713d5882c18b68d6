import Mathlib.Data.Finset.Sort
import Mathlib.Logic.Function.Basic
import Terrarium.Foundations.Worklist
import Terrarium.Generator.Isa

/-!
# Flow — a function's control flow and the values of its registers

The analysis of one function: the edges between its instructions, and a backward search for every
value a register can hold at an instruction.

* `Image` — the sections of the binary, and the words of its global offset table;
* `FunctionFlow`, `FunctionFlow.new` — the edges of jumps, fall-through and recovered jump tables,
  or a reason why some are unknown;
* `FunctionFlow.valuesBefore` — the backward search.

The search and the evaluation of effects call each other.  The model bounds both with one fuel;
without a result (`none`) the code has not returned after that many steps.
-/

namespace Terrarium.Generator

open Seccomp (Architecture)
open Wire

/-! ## The binary -/

structure Section where
  name : String
  address : UInt64
  bytes : List UInt8

def Section.contains (s : Section) (address : UInt64) : Bool :=
  s.address ≤ address && address.toNat < s.address.toNat + s.bytes.length

structure Image where
  architecture : Architecture
  sections : List Section

namespace Image

def read (image : Image) (address : UInt64) (length : Nat) : Option (List UInt8) :=
  image.sections.findSome? fun s =>
    if s.address ≤ address then
      let offset := (address - s.address).toNat
      if offset + length ≤ s.bytes.length then some ((s.bytes.drop offset).take length) else none
    else
      none

def readU64 (image : Image) (address : UInt64) : Option UInt64 :=
  (image.read address 8).map fun bytes => UInt64.ofNat (leNat bytes)

/-- The function pointer a slot of the global offset table holds. -/
def gotEntry (image : Image) (address : UInt64) : Option UInt64 :=
  if image.sections.any fun s => s.name.startsWith ".got" && s.contains address then
    image.readU64 address
  else
    none

end Image

/-! ## Values -/

/-- A computation the analysis replays on a value once a caller supplies it. -/
inductive Transform where
  | mask (mask : UInt64)
  /-- `(value + addend) & mask`. -/
  | add (addend mask : UInt64)
  | signExtend32
  /-- Replaces `width` bits at `shift` with `bits`. -/
  | insert (bits : UInt64) (shift width : UInt32)
  deriving DecidableEq

def Transform.apply (transform : Transform) (value : UInt64) : UInt64 :=
  match transform with
  | .mask bits => value &&& bits
  | .add addend bits => (value + addend) &&& bits
  | .signExtend32 => value.toUInt32.toInt32.toInt64.toUInt64
  | .insert bits shift width =>
      let field := (((1 : UInt64) <<< width.toUInt64) - 1) <<< shift.toUInt64
      (value &&& ~~~field) ||| (bits <<< shift.toUInt64)

inductive Value where
  | constant (value : UInt64)
  /-- The register's value when the function was entered, then each transform in order. -/
  | entry (reg : Reg) (transforms : List Transform)
  | unknown (reason : String)
  deriving DecidableEq

def Value.map (transform : Transform) : Value → Value
  | .constant value => .constant (transform.apply value)
  | .entry reg transforms => .entry reg (transforms ++ [transform])
  | .unknown reason => .unknown reason

def hex (address : UInt64) : String :=
  "0x" ++ String.ofList (Nat.toDigits 16 address.toNat)

/-! ## Edges -/

structure Edges (n : Nat) where
  preds : Fin n → List (Fin n)
  succs : Fin n → List (Fin n)
  mirrored : ∀ i j, j ∈ succs i ↔ i ∈ preds j

namespace Edges

variable {n : Nat}

def none (n : Nat) : Edges n where
  preds _ := []
  succs _ := []
  mirrored _ _ := by simp

def addEdge (edges : Edges n) (source target : Fin n) : Edges n :=
  if h : source ∈ edges.preds target then
    edges
  else
    { preds := Function.update edges.preds target (edges.preds target ++ [source])
      succs := Function.update edges.succs source (edges.succs source ++ [target])
      mirrored := by
        intro i j
        have hmirrored := edges.mirrored i j
        by_cases hi : i = source <;> by_cases hj : j = target <;> simp_all }

def addEdges (edges : Edges n) (added : List (Fin n × Fin n)) : Edges n :=
  added.foldl (fun edges edge => edges.addEdge edge.1 edge.2) edges

end Edges

/-! ## Jump tables -/

/-- The most jump-table entries read before giving up on finding the table's end. -/
def maxTableEntries : Nat := 4096

/-- How far back a jump-table dispatch's address computation may start. -/
def tableDispatchWindow : Nat := 32

structure Range where
  start : UInt64
  stop : UInt64

def Range.contains (range : Range) (address : UInt64) : Bool :=
  range.start ≤ address && address < range.stop

def tableEntry (bytes : List UInt8) (width : UInt8) (isSigned : Bool) : UInt64 :=
  let entry := UInt64.ofNat (leNat bytes)
  if isSigned && width < 8 then
    let unused := 64 - 8 * width.toNat
    ((entry <<< UInt64.ofNat unused).toInt64 >>> Int64.ofNat unused).toUInt64
  else
    entry

/-- Reads entries until the first target outside `function`, which ends the table. -/
def readTable (target : UInt64 → Option UInt64) (function : Range) : Nat → UInt64 → List UInt64
  | 0, _ => []
  | entries + 1, index =>
      match target index with
      | some address =>
          if function.contains address then
            address :: readTable target function entries (index + 1)
          else
            []
      | none => []

def readRelativeTable (image : Image) (table base : UInt64) (width : UInt8) (isSigned : Bool)
    (shift : UInt32) (function : Range) : List UInt64 :=
  readTable
    (fun index =>
      (image.read (table + index * width.toUInt64) width.toNat).map fun bytes =>
        base + (tableEntry bytes width isSigned <<< shift.toUInt64))
    function maxTableEntries 0

def readAbsoluteTable (image : Image) (table : UInt64) (function : Range) : List UInt64 :=
  readTable (fun index => image.readU64 (table + index * 8)) function maxTableEntries 0

/-! ## A function -/

/-- A decoded function whose every intra-function edge is known, or a reason it is not. -/
structure FunctionFlow where
  image : Image
  name : String
  insns : List Insn
  edges : Edges insns.length
  incomplete : Option String

namespace FunctionFlow

variable (flow : FunctionFlow)

abbrev Index := Fin flow.insns.length

def insn (index : flow.Index) : Insn := flow.insns.get index

def indexOf (address : UInt64) : Option flow.Index :=
  (List.finRange flow.insns.length).find? fun index => (flow.insn index).address = address

/-! ## The values of a register -/

/-- A pending question of the search: a register just before an instruction. -/
abbrev Query := flow.Index × Reg

def gotValue (address : UInt64) : Value :=
  match flow.image.gotEntry address with
  | some value => .constant value
  | none =>
      .unknown (flow.name ++ " loads from memory at " ++ hex address ++ " that is not a GOT slot")

def unfollowedReason (index : flow.Index) : String :=
  flow.name ++ " computes the register at " ++ hex (flow.insn index).address ++
    " in a way the analysis does not follow"

def unfollowed (index : flow.Index) : Value :=
  .unknown (flow.unfollowedReason index)

def mapValues (before : flow.Query → Option (Finset Value)) (index : flow.Index) (reg : Reg)
    (transform : Transform) : Option (Finset Value) :=
  (before (index, reg)).map (Finset.image (Value.map transform))

def loadValue (index : flow.Index) (displacement : Int64) : Value → Value
  | .constant base => flow.gotValue (base + displacement.toUInt64)
  | .entry _ _ => flow.unfollowed index
  | .unknown _ => flow.unfollowed index

/-- The values `effect`, executed by instruction `index`, leaves in its destination. -/
def evaluate (before : flow.Query → Option (Finset Value)) (index : flow.Index) :
    Effect → Option (Finset Value)
  | .constant _ value => some {.constant value}
  | .copy _ src mask => flow.mapValues before index src (.mask mask)
  | .addImmediate _ src value mask => flow.mapValues before index src (.add value mask)
  | .insert dst value shift width => flow.mapValues before index dst (.insert value shift width)
  | .signExtend _ src => flow.mapValues before index src .signExtend32
  | .loadAbsolute _ address => some {flow.gotValue address}
  | .load _ base hasIndex displacement width _ =>
      if hasIndex = false ∧ width = 8 then
        (before (index, base)).map (Finset.image (flow.loadValue index displacement))
      else
        some {flow.unfollowed index}
  | .unmodelled => some {flow.unfollowed index}
  | .addShifted _ _ _ _ => some {flow.unfollowed index}

/-- The source of a copy of a whole register into `reg`. -/
def fullCopy (effect : Effect) (reg : Reg) : Option Reg :=
  match effect with
  | .copy dst src mask => if mask = 0xffffffffffffffff ∧ dst = reg then some src else none
  | _ => none

/-- What a predecessor says about a register. -/
inductive Answer where
  | unknown (reason : String)
  /-- The register holds what `src` held before the predecessor. -/
  | question (src : Reg)
  /-- The predecessor's effect computes the register. -/
  | computed
  deriving DecidableEq

def answer (reg : Reg) (pred : flow.Index) : Answer :=
  let insn := flow.insn pred
  if insn.clobbers flow.image.architecture reg then
    .unknown (flow.name ++ " clobbers the register with a call at " ++ hex insn.address)
  else if !insn.writes reg then
    .question reg
  else
    match fullCopy insn.effect reg with
    | some src => .question src
    | none =>
        if insn.effect.destination = some reg then .computed
          else .unknown (flow.unfollowedReason pred)

/-- The values one predecessor leaves in `reg`, or another question. -/
def fromPred (before : flow.Query → Option (Finset Value)) (reg : Reg) (pred : flow.Index) :
    Option (Worklist.Yield flow.Query Value) :=
  match flow.answer reg pred with
  | .unknown reason => some ⟨{.unknown reason}, []⟩
  | .question src => some ⟨∅, [(pred, src)]⟩
  | .computed => (flow.evaluate before pred (flow.insn pred).effect).map fun values => ⟨values, []⟩

/-- One round of the search loop. -/
def visit (before : flow.Query → Option (Finset Value)) (query : flow.Query) :
    Option (Worklist.Yield flow.Query Value) :=
  if (flow.edges.preds query.1).isEmpty then
    if query.1.val = 0 then
      some ⟨{.entry query.2 []}, []⟩
    else
      some ⟨{.unknown (flow.name ++ " reaches " ++ hex (flow.insn query.1).address ++
        " by no known path")}, []⟩
  else
    Worklist.collect (flow.fromPred before query.2) (flow.edges.preds query.1)

/-- Every value `reg` may hold just before instruction `index` executes. -/
def valuesBefore : Nat → flow.Query → Option (Finset Value)
  | 0, _ => none
  | fuel + 1, query =>
      match flow.incomplete with
      | some reason => some {.unknown reason}
      | none =>
          Worklist.explore (flow.visit fun query => valuesBefore fuel query) fuel ∅ [query] ∅

/-! ## Building the edges -/

/-- Control goes on with the next instruction, unless this calls a function in `noReturn`. -/
def fallsThrough (noReturn : Finset UInt64) : Flow → Bool
  | .call (.direct target) => target ∉ noReturn
  | .call (.slot slot) =>
      match flow.image.readU64 slot with
      | some target => target ∉ noReturn
      | none => true
  | .next => true
  | .syscall => true
  | .legacySyscall => true
  | .call _ => true
  | .jump _ isConditional => isConditional
  | .tailCall _ => false
  | .registerJump _ => false
  | .absoluteTableJump _ _ => false
  | .unknownJump => false
  | .ret => false
  | .stop => false

def jumpEdge (range : Range) (index : flow.Index) :
    Except String (List (flow.Index × flow.Index)) :=
  match (flow.insn index).flow with
  | .jump target _ =>
      if range.contains target then
        match flow.indexOf target with
        | some target => .ok [(index, target)]
        | none => .error ("jumps into an instruction at " ++ hex target)
      else
        .ok []
  | _ => .ok []

def fallEdge (noReturn : Finset UInt64) (index : flow.Index) : List (flow.Index × flow.Index) :=
  if h : index.val + 1 < flow.insns.length then
    if flow.fallsThrough noReturn (flow.insn index).flow then [(index, ⟨index.val + 1, h⟩)] else []
  else
    []

/-- The direct edges, and the first reason why one is missing. -/
def directEdges (range : Range) (noReturn : Finset UInt64) :
    List (flow.Index × flow.Index) × Option String :=
  (List.finRange flow.insns.length).foldl
    (fun (edges, incomplete) index =>
      match flow.jumpEdge range index with
      | .ok jump => (edges ++ jump ++ flow.fallEdge noReturn index, incomplete)
      | .error reason => (edges ++ flow.fallEdge noReturn index, incomplete <|> some reason))
    ([], flow.incomplete)

/-- The nearest earlier instruction that writes `reg` within a straight-line dispatch window. -/
def findDefinition (before : flow.Index) (reg : Reg) : Option flow.Index :=
  (List.finRange flow.insns.length).reverse.find? fun index =>
    before.val - tableDispatchWindow ≤ index.val && index < before && (flow.insn index).writes reg

def constants (fuel : Nat) (before : flow.Index) (reg : Reg) : Option (List UInt64) := do
  let values ← flow.valuesBefore fuel (before, reg)
  let known := values.biUnion fun value =>
    match value with
    | .constant value => {value}
    | .entry _ _ => ∅
    | .unknown _ => ∅
  return known.sort (· ≤ ·)

/-- Targets of a relative jump table: a jump through `base + (entry << shift)` where `entry` is
loaded from `table[index]`; one operand of the addition is tried as the entry. -/
def relativeTargets (fuel : Nat) (range : Range) (add : flow.Index) (entry base : Reg)
    (entryShift : UInt32) : Option (List UInt64 × List UInt64) :=
  match flow.findDefinition add entry with
  | none => some ([], [])
  | some load =>
      match (flow.insn load).effect with
      | .load _ tableRegister true displacement width isSigned => do
          let bases ← flow.constants fuel add base
          -- One register serves as both, so it holds the same value for both on every path.
          let pairs ←
            if tableRegister = base then
              some (bases.map fun base => (base, base))
            else do
              let tables ← flow.constants fuel load tableRegister
              some (tables.flatMap fun table => bases.map fun base => (table, base))
          return (pairs.flatMap fun (table, base) =>
              readRelativeTable flow.image (table + displacement.toUInt64) base width isSigned
                entryShift range,
            pairs.map Prod.snd)
      | _ => some ([], [])

/-- The targets and used bases of the table a register jump goes through, if it is a table. -/
def recoverRelativeTable (fuel : Nat) (jump : flow.Index) (target : Reg) (range : Range) :
    Option (List UInt64 × List UInt64) :=
  if flow.incomplete.isSome then
    some ([], [])
  else
    match flow.findDefinition jump target with
    | none => some ([], [])
    | some add =>
        match (flow.insn add).effect with
        | .addShifted _ left right shift => do
            let (targets, bases) ← flow.relativeTargets fuel range add left right 0
            let (targets', bases') ← flow.relativeTargets fuel range add right left shift
            -- Bases count only with the targets of a table that was found.
            if (targets ++ targets').isEmpty then
              return ([], [])
            else
              return (targets ++ targets', bases ++ bases')
        | _ => some ([], [])

structure Recovery where
  edges : Edges flow.insns.length
  unrecovered : List flow.Index
  tableSpans : List Range
  tableBases : List UInt64

/-- The targets of one indirect jump under the edges known at the start of a pass. -/
def recoverJump (fuel : Nat) (range : Range) (index : flow.Index) :
    Option (List UInt64 × List Range × List UInt64) :=
  match (flow.insn index).flow with
  | .registerJump reg => do
      let (targets, bases) ← flow.recoverRelativeTable fuel index reg range
      return (targets, [], bases)
  | .absoluteTableJump table scale =>
      if scale = 8 then
        let targets := readAbsoluteTable flow.image table range
        some (targets, [⟨table, table + 8 * UInt64.ofNat targets.length⟩], [])
      else
        some ([], [], [])
  | _ => some ([], [], [])

def recoverPass (fuel : Nat) (range : Range) (recovery : flow.Recovery) :
    Option (flow.Recovery × Bool) := do
  let current : FunctionFlow := { flow with edges := recovery.edges }
  let found ← recovery.unrecovered.mapM fun index => do
    let (targets, spans, bases) ← recoverJump current fuel range index
    return (index, targets, spans, bases)
  let recovered := found.filter fun (_, targets, _, _) => !targets.isEmpty
  let added := recovered.flatMap fun (index, targets, _, _) =>
    (targets.filterMap flow.indexOf).map fun target => (index, target)
  let next : flow.Recovery :=
    { edges := recovery.edges.addEdges added
      unrecovered := recovery.unrecovered.filter fun index => !recovered.any fun r => r.1 = index
      tableSpans := recovery.tableSpans ++ found.flatMap fun (_, _, spans, _) => spans
      tableBases := recovery.tableBases ++ found.flatMap fun (_, _, _, bases) => bases }
  return (next, !recovered.isEmpty)

/-- Passes until one finds nothing new: each useful pass explains a jump. -/
def recoverPasses (fuel : Nat) (range : Range) : Nat → flow.Recovery → Option flow.Recovery
  | 0, _ => none
  | passes + 1, recovery => do
      let (next, progress) ← flow.recoverPass fuel range recovery
      if progress then recoverPasses fuel range passes next else return next

def isIndirectJump : Flow → Bool
  | .registerJump _ => true
  | .absoluteTableJump _ _ => true
  | .unknownJump => true
  | _ => false

def recoverTables (fuel : Nat) (range : Range) : Option flow.Recovery :=
  let unrecovered := (List.finRange flow.insns.length).filter fun index =>
    isIndirectJump (flow.insn index).flow
  flow.recoverPasses fuel range (unrecovered.length + 1)
    { edges := flow.edges, unrecovered, tableSpans := [], tableBases := [] }

/-- A table dispatch computes the target from an indexed entry; a target loaded from a fixed offset,
such as a vtable slot, is a tail call. -/
def looksLikeDispatch (index : flow.Index) : Bool :=
  match (flow.insn index).flow with
  | .registerJump reg =>
      match (flow.findDefinition index reg).map fun definition => (flow.insn definition).effect with
      | some (.addShifted _ _ _ _) => true
      | some (.load _ _ true _ _ _) => true
      | _ => false
  | .unknownJump => false
  | _ => true

end FunctionFlow

/-- What the rest of the program says about one function's control flow. -/
structure Surroundings where
  /-- Addresses inside the function that other functions jump to. -/
  foreignEntries : List UInt64
  /-- Starts of functions a call never returns from. -/
  noReturn : Finset UInt64
  /-- Data locations holding an interior address. -/
  interiorData : List UInt64
  /-- Interior addresses code materializes. -/
  interiorMaterialized : List UInt64

namespace FunctionFlow

/-- An interior address that no recovered table accounts for. -/
def isInteriorReferenced (flow : FunctionFlow) (surroundings : Surroundings)
    (recovery : flow.Recovery) : Bool :=
  (surroundings.interiorMaterialized.any fun value => value ∉ recovery.tableBases) ||
    surroundings.interiorData.any fun location =>
      !(recovery.tableSpans.any fun span => span.start ≤ location && location + 8 ≤ span.stop) &&
        match flow.image.readU64 location with
        | some target => (flow.indexOf target).isSome
        | none => false

def new (fuel : Nat) (image : Image) (name : String) (range : Range) (insns : List Insn)
    (hasGaps : Bool) (surroundings : Surroundings) : Option FunctionFlow := do
  let gaps := if hasGaps then some "has bytes that do not decode" else none
  let incomplete :=
    match surroundings.foreignEntries with
    | entry :: _ => some ("is entered from another function at " ++ hex entry)
    | [] => gaps
  let flow : FunctionFlow := { image, name, insns, edges := Edges.none _, incomplete }
  let (added, incomplete) := flow.directEdges range surroundings.noReturn
  let flow : FunctionFlow := { image, name, insns, edges := flow.edges.addEdges added, incomplete }
  let recovery ← flow.recoverTables fuel range
  let flow' : FunctionFlow := { image, name, insns, edges := recovery.edges, incomplete }
  -- Without an interior address an unrecovered indirect jump leaves the function, as a tail call
  -- does.
  let unresolved := recovery.unrecovered.find? fun index =>
    flow.isInteriorReferenced surroundings recovery || flow'.looksLikeDispatch index
  let incomplete := incomplete <|>
    unresolved.map fun index =>
      "has an unrecovered indirect jump at " ++ hex (flow'.insn index).address
  return { flow' with incomplete := incomplete.map fun reason => name ++ " " ++ reason }

end FunctionFlow
end Terrarium.Generator
