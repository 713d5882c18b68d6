import Terrarium.Foundations.Bpf
import Terrarium.Foundations.Fallible

/-!
# Filter — assembling the seccomp filters

The build step that writes the seccomp filters appends classic BPF instructions to a byte vector.
This file models the target architectures, the table of syscall numbers and the `Filter` builder,
and proves what every filter starts with: a prologue that kills calls of another architecture and,
on x86_64, of the x32 ABI, and leaves the syscall number in the accumulator.
-/

namespace Terrarium.Seccomp

open Wire Bpf Fallible

/-! ## Constants of the builder -/

/-- The kernel's limit: 4096 instructions of 8 bytes. -/
def maxFilterBytes : Nat := 4096 * 8

def loadWord : UInt16 := 0x20
def jumpEqual : UInt16 := 0x15
def jumpBitsSet : UInt16 := 0x45
def returnCode : UInt16 := 0x06
def killProcess : UInt32 := 0x80000000
def allow : UInt32 := 0x7fff0000
def x32SyscallBit : UInt32 := 0x40000000
def syscallNumber : UInt32 := 0
def auditArch : UInt32 := 4
def secondArgument : UInt32 := 24

inductive Architecture where
  | x86_64
  | aarch64
  deriving DecidableEq

def Architecture.auditArch : Architecture → UInt32
  | .x86_64 => 0xc000003e
  | .aarch64 => 0xc00000b7

/-! ## Syscall numbers

The names and numbers come from an external table with one entry per system call of each
architecture.
-/

/-- The external table: the number a name parses to, as the signed integer the table stores. -/
structure SyscallTable where
  id : Architecture → String → Option Int32
  /-- No two names share a number. -/
  injective : ∀ architecture name name' number, id architecture name = some number →
    id architecture name' = some number → name = name'
  /-- Stored numbers are not negative. -/
  nonneg : ∀ architecture name number, id architecture name = some number → 0 ≤ number
  /-- Every Linux architecture has the calls the compiler itself looks up. -/
  ioctl_known : ∀ architecture, (id architecture "ioctl").isSome
  restart_syscall_known : ∀ architecture, (id architecture "restart_syscall").isSome

namespace SyscallTable

def number (table : SyscallTable) (architecture : Architecture) (name : String) : Option UInt32 :=
  (table.id architecture name).map Int32.toUInt32

def resolveSyscallNumber (table : SyscallTable) (architecture : Architecture) (name : String) :
    Except String UInt32 := do
  let number ← orError ("unknown target syscall: " ++ name) (table.id architecture name)
  if 0 ≤ number then
    return number.toUInt32
  else
    throw "out of range integral type conversion attempted"

variable {table : SyscallTable} {architecture : Architecture} {name name' : String} {n : UInt32}

lemma resolveSyscallNumber_eq : table.resolveSyscallNumber architecture name =
      orError ("unknown target syscall: " ++ name) (table.number architecture name) := by
  cases hid : table.id architecture name with
  | none =>
      simp only [resolveSyscallNumber, number, hid, Option.map_none, orError]
      rfl
  | some number =>
      have hnonneg : 0 ≤ number := table.nonneg architecture name number hid
      simp only [resolveSyscallNumber, SyscallTable.number, hid, Option.map_some, orError]
      change (if 0 ≤ number then _ else _) = _
      rw [if_pos hnonneg]
      rfl

lemma number_injective (h : table.number architecture name = some n)
    (h' : table.number architecture name' = some n) : name = name' := by
  obtain ⟨number, hid, hn⟩ := Option.map_eq_some_iff.1 h
  obtain ⟨number', hid', hn'⟩ := Option.map_eq_some_iff.1 h'
  have hsame : number' = number := congrArg Int32.ofUInt32 (hn'.trans hn.symm)
  subst hsame
  exact table.injective architecture name name' number' hid hid'

lemma exists_number_ioctl (table : SyscallTable) (architecture : Architecture) :
    ∃ ioctl, table.number architecture "ioctl" = some ioctl := by
  obtain ⟨stored, hid⟩ := Option.isSome_iff_exists.1 (table.ioctl_known architecture)
  exact ⟨stored.toUInt32, by simp [number, hid]⟩

lemma exists_number_restart_syscall (table : SyscallTable) (architecture : Architecture) :
    ∃ n, table.number architecture "restart_syscall" = some n := by
  obtain ⟨stored, hid⟩ := Option.isSome_iff_exists.1 (table.restart_syscall_known architecture)
  exact ⟨stored.toUInt32, by simp [number, hid]⟩

end SyscallTable

/-! ## The builder -/

structure Filter where
  architecture : Architecture
  bpf : List UInt8
  deriving DecidableEq

namespace Filter

def append (filter : Filter) (code : UInt16) (jumpTrue jumpFalse : UInt8)
    (value : UInt32) : Filter :=
  { filter with
    bpf := filter.bpf ++ leBytes 2 code.toNat ++ [jumpTrue, jumpFalse] ++ leBytes 4 value.toNat }

/-- Starts a filter that kills any other architecture's or x32 syscall and loads the number. -/
def new (architecture : Architecture) : Filter :=
  let filter : Filter := { architecture, bpf := [] }
  let filter := filter.append loadWord 0 0 auditArch
  let filter := filter.append jumpEqual 1 0 architecture.auditArch
  let filter := filter.append returnCode 0 0 killProcess
  let filter := filter.append loadWord 0 0 syscallNumber
  if architecture = .x86_64 then
    (filter.append jumpBitsSet 0 1 x32SyscallBit).append returnCode 0 0 killProcess
  else
    filter

/-- The builder holds exactly the instructions of `program`. -/
def Holds (filter : Filter) (program : List Insn) : Prop :=
  filter.bpf = program.flatMap encode

variable {filter : Filter} {program : List Insn}

lemma Holds.append (h : filter.Holds program) (code : UInt16) (jt jf : UInt8) (value : UInt32) :
    (filter.append code jt jf value).Holds (program ++ [⟨code, jt, jf, value⟩]) := by
  simp only [Holds] at h
  simp [Holds, Filter.append, h, encode]

/-! ## The prologue -/

def prologue (architecture : Architecture) : List Insn :=
  [⟨loadWord, 0, 0, auditArch⟩, ⟨jumpEqual, 1, 0, architecture.auditArch⟩,
    ⟨returnCode, 0, 0, killProcess⟩, ⟨loadWord, 0, 0, syscallNumber⟩] ++
  if architecture = .x86_64 then
    [⟨jumpBitsSet, 0, 1, x32SyscallBit⟩, ⟨returnCode, 0, 0, killProcess⟩]
  else
    []

lemma holds_new (architecture : Architecture) :
    (new architecture).Holds (prologue architecture) := by
  cases architecture <;> rfl

end Filter

/-- A call of the target's own ABI. -/
def NativeCall (architecture : Architecture) (data : SeccompData) : Prop :=
  data.arch = architecture.auditArch ∧
    (architecture = .x86_64 → data.nr &&& x32SyscallBit = 0)

/-- Behind the prologue only native calls are left, with their number in the accumulator. -/
lemma evaluates_prologue {architecture : Architecture} {data : SeccompData} {rest : List Insn}
    {acc value : UInt32} (hnative : NativeCall architecture data)
    (hrest : Evaluates data rest data.nr value) :
    Evaluates data (Filter.prologue architecture ++ rest) acc value := by
  obtain ⟨harch, hx32⟩ := hnative
  refine .load rfl (.jeq_taken harch (.load rfl ?_))
  cases architecture with
  | x86_64 => exact .jset_not_taken (hx32 rfl) hrest
  | aarch64 => exact hrest

lemma evaluates_prologue_foreign {architecture : Architecture} {data : SeccompData}
    {rest : List Insn} {acc : UInt32} (hforeign : ¬ NativeCall architecture data) :
    Evaluates data (Filter.prologue architecture ++ rest) acc killProcess := by
  by_cases harch : data.arch = architecture.auditArch
  · refine .load rfl (.jeq_taken harch (.load rfl ?_))
    cases architecture with
    | x86_64 =>
        have hx32 : data.nr &&& x32SyscallBit ≠ 0 := by
          intro hzero
          exact hforeign ⟨harch, fun _ => hzero⟩
        exact .jset_taken hx32 .ret
    | aarch64 => exact absurd ⟨harch, nofun⟩ hforeign
  · exact .load rfl (.jeq_not_taken harch .ret)

end Terrarium.Seccomp
