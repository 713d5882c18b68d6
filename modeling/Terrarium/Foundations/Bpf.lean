import Terrarium.Foundations.Wire

/-!
# Bpf — classic BPF programs that judge a system call

The kernel runs a seccomp filter as a classic BPF program over one `struct seccomp_data`.  The
program has one accumulator, jumps forward only and must leave through a return.

This file defines:

* `execute`, `run`, `exec` — the machine: a program counter and the accumulator, with fuel.  `none`
  is a fault: an unknown opcode, a load outside the data, the counter past the end, or no fuel;
* `Evaluates` — the same on what is left of the program, where a jump drops instructions.

`Evaluates.run_eq` connects the two: a derivation is a run that stays inside the program and needs
no more steps than the program has instructions.
-/

namespace Terrarium.Bpf

open Wire

/-! ## Instructions -/

/-- One `sock_filter`: the opcode, the two jump distances and the constant. -/
structure Insn where
  code : UInt16
  jt : UInt8
  jf : UInt8
  k : UInt32
  deriving DecidableEq

/-- `BPF_LD | BPF_W | BPF_ABS` -/
def ldWAbs : UInt16 := 0x20

/-- `BPF_ALU | BPF_AND | BPF_K` -/
def aluAndK : UInt16 := 0x54

/-- `BPF_JMP | BPF_JEQ | BPF_K` -/
def jmpJeqK : UInt16 := 0x15

/-- `BPF_JMP | BPF_JSET | BPF_K` -/
def jmpJsetK : UInt16 := 0x45

/-- `BPF_RET | BPF_K` -/
def retK : UInt16 := 0x06

/-- The instruction as the kernel reads it on a little-endian machine. -/
def encode (insn : Insn) : List UInt8 :=
  leBytes 2 insn.code.toNat ++ [insn.jt, insn.jf] ++ leBytes 4 insn.k.toNat

/-- A program is a whole number of instructions. -/
def decode : List UInt8 → Option (List Insn)
  | [] => some []
  | c₀ :: c₁ :: jt :: jf :: k₀ :: k₁ :: k₂ :: k₃ :: rest =>
      (decode rest).map fun program =>
        ⟨UInt16.ofNat (leNat [c₀, c₁]), jt, jf, UInt32.ofNat (leNat [k₀, k₁, k₂, k₃])⟩ :: program
  | _ => none

@[simp] lemma length_encode (insn : Insn) : (encode insn).length = 8 := by
  simp [encode]

lemma length_flatMap_encode (program : List Insn) :
    (program.flatMap encode).length = 8 * program.length := by
  induction program with
  | nil => rfl
  | cons insn program ih =>
    simp only [List.flatMap_cons, List.length_append, length_encode, ih, List.length_cons]
    omega

lemma decode_encode_append (insn : Insn) (rest : List UInt8) :
    decode (encode insn ++ rest) = (decode rest).map (insn :: ·) := by
  have hcode : UInt16.ofNat (leNat (leBytes 2 insn.code.toNat)) = insn.code := by
    rw [leNat_leBytes insn.code.toNat_lt, UInt16.ofNat_toNat]
  have hk : UInt32.ofNat (leNat (leBytes 4 insn.k.toNat)) = insn.k := by
    rw [leNat_leBytes insn.k.toNat_lt, UInt32.ofNat_toNat]
  simp only [leBytes] at hcode hk
  simp only [encode, leBytes, List.cons_append, List.nil_append, decode, hcode, hk]

lemma decode_flatMap_encode (program : List Insn) :
    decode (program.flatMap encode) = some program := by
  induction program with
  | nil => rfl
  | cons insn program ih => rw [List.flatMap_cons, decode_encode_append, ih, Option.map_some]

/-! ## The data a filter judges -/

structure SeccompData where
  nr : UInt32
  arch : UInt32
  instructionPointer : UInt64
  args : Fin 6 → UInt64

/-- The low and the high half of a 64-bit field, in little-endian order. -/
def half (value : UInt64) : Nat → UInt32
  | 0 => value.toUInt32
  | _ => (value >>> 32).toUInt32

/-- The word at a byte offset; the kernel refuses an offset that is unaligned or outside. -/
def SeccompData.word (data : SeccompData) (offset : UInt32) : Option UInt32 :=
  if offset.toNat % 4 ≠ 0 then
    none
  else
    match offset.toNat / 4 with
    | 0 => some data.nr
    | 1 => some data.arch
    | 2 => some (half data.instructionPointer 0)
    | 3 => some (half data.instructionPointer 1)
    | index + 4 =>
        if h : index / 2 < 6 then some (half (data.args ⟨index / 2, h⟩) (index % 2)) else none

/-! ## The machine -/

/-- What one instruction does: skip ahead with a new accumulator, or leave with a verdict. -/
inductive Outcome where
  | next (skip : Nat) (acc : UInt32)
  | verdict (value : UInt32)

def execute (data : SeccompData) (insn : Insn) (acc : UInt32) : Option Outcome :=
  if insn.code = ldWAbs then
    (data.word insn.k).map (.next 0)
  else if insn.code = aluAndK then
    some (.next 0 (acc &&& insn.k))
  else if insn.code = jmpJeqK then
    some (.next (if acc = insn.k then insn.jt else insn.jf).toNat acc)
  else if insn.code = jmpJsetK then
    some (.next (if acc &&& insn.k = 0 then insn.jf else insn.jt).toNat acc)
  else if insn.code = retK then
    some (.verdict insn.k)
  else
    none

/-- The machine from program counter `pc`, for at most `fuel` instructions. -/
def run (program : List Insn) (data : SeccompData) : (fuel pc : Nat) → UInt32 → Option UInt32
  | 0, _, _ => none
  | fuel + 1, pc, acc => do
      let insn ← program[pc]?
      match ← execute data insn acc with
      | .next skip acc' => run program data fuel (pc + 1 + skip) acc'
      | .verdict value => return value

/-- A run from the start; jumps go forward, so the length is fuel enough. -/
def exec (program : List Insn) (data : SeccompData) : Option UInt32 :=
  run program data program.length 0 0

/-! ## Evaluation of what is left of a program -/

/-- `Evaluates data rest acc value`: from the head of `rest` with `acc` the program leaves with
`value`. -/
inductive Evaluates (data : SeccompData) : List Insn → UInt32 → UInt32 → Prop where
  | verdict {insn : Insn} {rest : List Insn} {acc value : UInt32} :
      execute data insn acc = some (.verdict value) → Evaluates data (insn :: rest) acc value
  | next {insn : Insn} {rest : List Insn} {acc acc' value : UInt32} {skip : Nat} :
      execute data insn acc = some (.next skip acc') → Evaluates data (rest.drop skip) acc' value →
        Evaluates data (insn :: rest) acc value

lemma getElem?_of_drop_eq_cons {program rest : List Insn} {insn : Insn} {pc : Nat}
    (hrest : program.drop pc = insn :: rest) : program[pc]? = some insn ∧
    program.drop (pc + 1) = rest := by
  constructor
  · rw [← List.head?_drop, hrest, List.head?_cons]
  · rw [← List.drop_drop, hrest, List.drop_one, List.tail_cons]

namespace Evaluates

variable {data : SeccompData} {program rest : List Insn} {jt jf : UInt8} {k acc value : UInt32}

/-- A derivation is a run of the machine, one step for each instruction it visits. -/
theorem run_eq (h : Evaluates data rest acc value) : ∀ {fuel pc : Nat}, program.drop pc = rest →
    rest.length ≤ fuel →
      run program data fuel pc acc = some value := by
  -- An instruction stands at the head, so there is fuel for it; what a jump leaves is a suffix of
  -- the tail, which the remaining fuel covers.
  induction h with
  | verdict hexecute =>
    intro fuel pc hrest hfuel
    cases fuel with
    | zero => cases hfuel
    | succ fuel =>
      have hinsn := (getElem?_of_drop_eq_cons hrest).1
      simp [run, hinsn, hexecute]
  | @next insn rest acc acc' value skip hexecute _ ih =>
    intro fuel pc hrest hfuel
    cases fuel with
    | zero => cases hfuel
    | succ fuel =>
      obtain ⟨hinsn, hbehind⟩ := getElem?_of_drop_eq_cons hrest
      have hjump : program.drop (pc + 1 + skip) = rest.drop skip := by
        rw [← List.drop_drop, hbehind]
      have hcovered : (rest.drop skip).length ≤ fuel := by
        rw [List.length_cons] at hfuel
        rw [List.length_drop]
        omega
      simpa [run, hinsn, hexecute] using ih hjump hcovered

lemma exec_eq (h : Evaluates data program 0 value) : exec program data = some value :=
  h.run_eq (List.drop_zero) (Nat.le_refl _)

/-! ### Rules for the instructions -/

lemma ret : Evaluates data (⟨retK, jt, jf, value⟩ :: rest) acc value := .verdict rfl

lemma load {word : UInt32} (hword : data.word k = some word) (h : Evaluates data rest word value) :
    Evaluates data (⟨ldWAbs, jt, jf, k⟩ :: rest) acc value := by
  have hexecute : execute data ⟨ldWAbs, jt, jf, k⟩ acc = some (.next 0 word) := by
    simp [execute, hword]
  exact .next hexecute h

lemma jeq_taken (hacc : acc = k) (h : Evaluates data (rest.drop jt.toNat) acc value) :
    Evaluates data (⟨jmpJeqK, jt, jf, k⟩ :: rest) acc value := by
  have hexecute : execute data ⟨jmpJeqK, jt, jf, k⟩ acc = some (.next jt.toNat acc) := by
    simp [execute, ldWAbs, aluAndK, jmpJeqK, hacc]
  exact .next hexecute h

lemma jeq_not_taken (hacc : acc ≠ k) (h : Evaluates data (rest.drop jf.toNat) acc value) :
    Evaluates data (⟨jmpJeqK, jt, jf, k⟩ :: rest) acc value := by
  have hexecute : execute data ⟨jmpJeqK, jt, jf, k⟩ acc = some (.next jf.toNat acc) := by
    simp [execute, ldWAbs, aluAndK, jmpJeqK, hacc]
  exact .next hexecute h

lemma jset_taken (hacc : acc &&& k ≠ 0) (h : Evaluates data (rest.drop jt.toNat) acc value) :
    Evaluates data (⟨jmpJsetK, jt, jf, k⟩ :: rest) acc value := by
  have hexecute : execute data ⟨jmpJsetK, jt, jf, k⟩ acc = some (.next jt.toNat acc) := by
    simp [execute, ldWAbs, aluAndK, jmpJeqK, jmpJsetK, hacc]
  exact .next hexecute h

lemma jset_not_taken (hacc : acc &&& k = 0) (h : Evaluates data (rest.drop jf.toNat) acc value) :
    Evaluates data (⟨jmpJsetK, jt, jf, k⟩ :: rest) acc value := by
  have hexecute : execute data ⟨jmpJsetK, jt, jf, k⟩ acc = some (.next jf.toNat acc) := by
    simp [execute, ldWAbs, aluAndK, jmpJeqK, jmpJsetK, hacc]
  exact .next hexecute h

lemma drop_block {block tail : List Insn} {distance : Nat} (hblock : block.length = distance)
    (h : Evaluates data tail acc value) :
    Evaluates data ((block ++ tail).drop distance) acc value := by
  rwa [← hblock, List.drop_left]

end Evaluates
end Terrarium.Bpf
