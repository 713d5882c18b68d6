import Terrarium.Seccomp.Filter

/-!
# Isa — what the syscall analysis knows of an instruction

The policy generator disassembles the role binaries and reduces every instruction to a few facts:
where control goes (`Flow`), what happens to the one register it is understood to write (`Effect`),
and which registers it may write at all.  The decoder itself is an external disassembler; this file
models its output and the register conventions the analysis uses.
-/

namespace Terrarium.Generator

open Seccomp (Architecture)

instance neZeroTwo : NeZero 2 := ⟨by decide⟩

/-- A general-purpose register: `rax`..`r15` in x86 encoding order, or `x0`..`x30` and `sp`. -/
abbrev Reg := UInt8

def callClobbers (architecture : Architecture) (reg : Reg) : Bool :=
  match architecture with
  | .x86_64 => reg = 0 || reg = 1 || reg = 2 || reg = 6 || reg = 7 || (8 ≤ reg && reg ≤ 11)
  | .aarch64 => reg ≤ 18 || reg = 30

/-- Integer argument registers of the C calling convention, in order. -/
def arguments : Architecture → List Reg
  | .x86_64 => [7, 6, 2, 1, 8, 9]
  | .aarch64 => [0, 1, 2, 3, 4, 5, 6, 7]

/-- `rax` and `x0` both carry a function's return value. -/
def returnValue : Reg := 0

inductive Callee where
  | direct (target : UInt64)
  /-- Through the function pointer stored at this address, such as a GOT slot. -/
  | slot (address : UInt64)
  | register (reg : Reg)
  | indirect
  deriving DecidableEq

inductive Flow where
  | next
  | syscall
  /-- `int 0x80` or `sysenter`: syscall entries the analysis does not model. -/
  | legacySyscall
  | call (callee : Callee)
  | tailCall (callee : Callee)
  | jump (target : UInt64) (isConditional : Bool)
  /-- Through a register, as relative jump tables do. -/
  | registerJump (reg : Reg)
  /-- Through a table of absolute addresses at `table`, indexed in `scale`-byte entries. -/
  | absoluteTableJump (table : UInt64) (scale : UInt8)
  | unknownJump
  | ret
  | stop
  deriving DecidableEq

def Flow.isCall : Flow → Bool
  | .call _ => true
  | _ => false

/-- What an instruction does to the one register it is understood to write. -/
inductive Effect where
  | unmodelled
  | constant (dst : Reg) (value : UInt64)
  /-- `dst = src & mask`. -/
  | copy (dst src : Reg) (mask : UInt64)
  /-- `dst = (src + value) & mask`. -/
  | addImmediate (dst src : Reg) (value mask : UInt64)
  /-- Replaces `width` bits of `dst` at `shift`. -/
  | insert (dst : Reg) (value : UInt64) (shift width : UInt32)
  /-- `dst = left + (right << shift)`. -/
  | addShifted (dst left right : Reg) (shift : UInt32)
  | load (dst base : Reg) (hasIndex : Bool) (displacement : Int64) (width : UInt8) (isSigned : Bool)
  /-- `dst = sign_extend(src & 0xffff_ffff)`. -/
  | signExtend (dst src : Reg)
  /-- A 64-bit load from a fixed address, such as a GOT slot. -/
  | loadAbsolute (dst : Reg) (address : UInt64)
  deriving DecidableEq

/-- The register the effect writes, when the analysis understands the instruction. -/
def Effect.destination : Effect → Option Reg
  | .unmodelled => none
  | .constant dst _ => some dst
  | .copy dst _ _ => some dst
  | .addImmediate dst _ _ _ => some dst
  | .insert dst _ _ _ => some dst
  | .addShifted dst _ _ _ => some dst
  | .load dst _ _ _ _ _ => some dst
  | .signExtend dst _ => some dst
  | .loadAbsolute dst _ => some dst

structure Insn where
  address : UInt64
  flow : Flow
  effect : Effect
  /-- Bit `reg` is set for every register the instruction may write. -/
  writeMask : UInt64
  /-- Bit `reg` is set for every register the instruction may read. -/
  readMask : UInt64
  deriving DecidableEq

def Insn.writes (insn : Insn) (reg : Reg) : Bool :=
  insn.writeMask &&& ((1 : UInt64) <<< reg.toUInt64) ≠ 0

/-- A call may change the register. -/
def Insn.clobbers (architecture : Architecture) (insn : Insn) (reg : Reg) : Bool :=
  insn.flow.isCall && callClobbers architecture reg

end Terrarium.Generator
