import Terrarium.Seccomp.Filter

/-!
# Allowlist — the syscall allowlist of a role

`compileAllowlist` turns a role's policy into a filter that kills the process on any syscall, or
`ioctl` request, the policy does not list.  This file models it and proves what the emitted program
decides.

* `Allowed` — the purpose of the filter: which calls a policy lists;
* `evaluates_program` — the program decides `Allowed`.

The `ioctl` block reloads the accumulator, so it has to leave through a return on every path; the
jump over it is the only way to the comparisons behind it, which still find the syscall number.
-/

namespace Terrarium.Seccomp

open Wire Bpf Fallible

/-- One role's allowed syscalls by name, and the `ioctl` requests it may issue; ordered sets. -/
structure RolePolicy where
  syscalls : List String
  ioctls : List UInt32
  syscalls_sorted : syscalls.Pairwise (· < ·)
  ioctls_sorted : ioctls.Pairwise (· < ·)

/-! ## The compiler -/

def appendAllowed (filter : Filter) (value : UInt32) : Filter :=
  (filter.append jumpEqual 0 1 value).append returnCode 0 0 allow

/-- The `ioctl` block: the requests a listed `ioctl` may issue. -/
def appendIoctls (policy : RolePolicy) (ioctl : UInt32) (filter : Filter) : Except String Filter :=
  if "ioctl" ∈ policy.syscalls then do
    -- Past the argument load, one compare and return per request, and the final kill.
    let skip := 2 * policy.ioctls.length + 2
    ensure (decide (skip < 256)) "too many ioctl requests for one filter"
    let filter := filter.append jumpEqual 0 (UInt8.ofNat skip) ioctl
    let filter := filter.append loadWord 0 0 secondArgument
    let filter := policy.ioctls.foldl appendAllowed filter
    return filter.append returnCode 0 0 killProcess
  else do
    ensure policy.ioctls.isEmpty "ioctl requests listed without the ioctl syscall"
    return filter

/-- One name of the list; `ioctl` has its own block. -/
def appendSyscall (table : SyscallTable) (architecture : Architecture) (ioctl : UInt32)
    (filter : Filter) (name : String) : Except String Filter := do
  let syscall ← table.resolveSyscallNumber architecture name
  if syscall ≠ ioctl then
    return appendAllowed filter syscall
  else
    return filter

def compileAllowlist (table : SyscallTable) (architecture : Architecture) (policy : RolePolicy) :
    Except String (List UInt8) := do
  let filter := Filter.new architecture
  let ioctl ← table.resolveSyscallNumber architecture "ioctl"
  let filter ← appendIoctls policy ioctl filter
  -- The kernel itself issues `restart_syscall` to resume an interrupted sleep.
  let filter ← (policy.syscalls ++ ["restart_syscall"]).foldlM
    (appendSyscall table architecture ioctl) filter
  let filter := filter.append returnCode 0 0 killProcess
  ensure (decide (filter.bpf.length ≤ maxFilterBytes))
    "allowlist exceeds the kernel's 4096 BPF instructions"
  return filter.bpf

/-! ## The emitted program -/

section Program

variable (table : SyscallTable) (architecture : Architecture) (policy : RolePolicy)

def allowed (value : UInt32) : List Insn :=
  [⟨jumpEqual, 0, 1, value⟩, ⟨returnCode, 0, 0, allow⟩]

/-- The part of the `ioctl` block that other calls jump over. -/
def ioctlRequests : List Insn :=
  ⟨loadWord, 0, 0, secondArgument⟩ ::
    (policy.ioctls.flatMap allowed ++ [⟨returnCode, 0, 0, killProcess⟩])

def ioctlBlock (ioctl : UInt32) : List Insn :=
  if "ioctl" ∈ policy.syscalls then
    ⟨jumpEqual, 0, UInt8.ofNat (2 * policy.ioctls.length + 2), ioctl⟩ :: ioctlRequests policy
  else
    []

def comparedNumbers (ioctl : UInt32) (names : List String) : List UInt32 :=
  (names.filterMap (table.number architecture)).filter (· ≠ ioctl)

def program (ioctl : UInt32) : List Insn :=
  Filter.prologue architecture ++ ioctlBlock policy ioctl ++
    (comparedNumbers table architecture ioctl (policy.syscalls ++ ["restart_syscall"])).flatMap
      allowed ++
    [⟨returnCode, 0, 0, killProcess⟩]

/-- The size of the program of a policy, by the names it lists. -/
def programBytes : Nat :=
  8 * ((Filter.prologue architecture).length +
    (if "ioctl" ∈ policy.syscalls then 2 * policy.ioctls.length + 3 else 0) +
    2 * ((policy.syscalls.filter (· ≠ "ioctl")).length + 1) + 1)

end Program

variable {table : SyscallTable} {architecture : Architecture} {policy : RolePolicy}
  {filter filter' : Filter} {instructions : List Insn} {ioctl : UInt32}

/-! ### What the builder holds -/

lemma holds_appendAllowed (h : filter.Holds instructions) (value : UInt32) :
    (appendAllowed filter value).Holds (instructions ++ allowed value) := by
  have hboth := (h.append jumpEqual 0 1 value).append returnCode 0 0 allow
  rwa [List.append_assoc] at hboth

lemma holds_foldl_appendAllowed (h : filter.Holds instructions) (values : List UInt32) :
    (values.foldl appendAllowed filter).Holds (instructions ++ values.flatMap allowed) := by
  induction values generalizing filter instructions with
  | nil => simpa using h
  | cons value values ih => simpa using ih (holds_appendAllowed h value)

/-- The `ioctl` block goes through when its jump distance fits a byte and no request is stray. -/
lemma appendIoctls_eq_ok : appendIoctls policy ioctl filter = .ok filter' ↔
    if "ioctl" ∈ policy.syscalls then
        policy.ioctls.length ≤ 126 ∧ ((policy.ioctls.foldl appendAllowed
            ((filter.append jumpEqual 0 (UInt8.ofNat (2 * policy.ioctls.length + 2)) ioctl).append
              loadWord 0 0 secondArgument)).append returnCode 0 0 killProcess) = filter'
      else
        policy.ioctls = [] ∧ filter = filter' := by
  have hfits : 2 * policy.ioctls.length + 2 < 256 ↔ policy.ioctls.length ≤ 126 := by
    omega
  split
  case isTrue hlisted =>
    simp only [appendIoctls, if_pos hlisted, ensure_bind_eq_ok, decide_eq_true_eq,
      hfits, pure_eq_ok]
  case isFalse hlisted =>
    simp only [appendIoctls, if_neg hlisted, ensure_bind_eq_ok, List.isEmpty_iff, pure_eq_ok]

lemma exists_appendIoctls_eq_ok : (∃ filter', appendIoctls policy ioctl filter = .ok filter') ↔
      if "ioctl" ∈ policy.syscalls then policy.ioctls.length ≤ 126 else policy.ioctls = [] := by
  simp only [appendIoctls_eq_ok]
  split <;> simp

lemma holds_appendIoctls (h : filter.Holds instructions)
    (hok : appendIoctls policy ioctl filter = .ok filter') :
    filter'.Holds (instructions ++ ioctlBlock policy ioctl) := by
  rw [appendIoctls_eq_ok] at hok
  split at hok
  next hlisted =>
    rcases hok with ⟨-, rfl⟩
    have hhead := (h.append jumpEqual 0 (UInt8.ofNat (2 * policy.ioctls.length + 2)) ioctl).append
      loadWord 0 0 secondArgument
    have hall := (holds_foldl_appendAllowed hhead policy.ioctls).append returnCode 0 0 killProcess
    simpa [ioctlBlock, ioctlRequests, hlisted] using hall
  next hlisted =>
    rcases hok with ⟨-, rfl⟩
    simpa [ioctlBlock, hlisted] using h

lemma appendSyscall_eq_ok {name : String} :
    appendSyscall table architecture ioctl filter name = .ok filter' ↔
      ∃ n, table.number architecture name = some n ∧
        (if n ≠ ioctl then appendAllowed filter n else filter) = filter' := by
  simp only [appendSyscall, SyscallTable.resolveSyscallNumber_eq, bind_eq_ok, orError_eq_ok]
  refine exists_congr fun n => and_congr_right fun _ => ?_
  split <;> exact pure_eq_ok

variable {names : List String} {data : SeccompData} {rest : List Insn} {value : UInt32}

/-- The loop over the names resolves all of them and compares those other than `ioctl`. -/
lemma foldlM_appendSyscall_eq_ok :
    names.foldlM (appendSyscall table architecture ioctl) filter = .ok filter' ↔
      (∀ name ∈ names, table.number architecture name ≠ none) ∧
        (comparedNumbers table architecture ioctl names).foldl appendAllowed filter = filter' := by
  induction names generalizing filter with
  | nil => simp [comparedNumbers]
  | cons name names ih =>
    simp only [List.foldlM_cons, bind_eq_ok, appendSyscall_eq_ok, ih]
    cases hnumber : table.number architecture name with
    | none => simp [hnumber]
    | some n =>
      -- The comparison for this name is there exactly when its number is not that of `ioctl`.
      by_cases hioctl : n = ioctl
      · simp [comparedNumbers, hnumber, hioctl]
      · simp [comparedNumbers, hnumber, hioctl]

lemma length_flatMap_allowed (values : List UInt32) :
    (values.flatMap allowed).length = 2 * values.length := by
  simp [allowed, List.length_flatMap, Nat.mul_comm]

lemma length_ioctlRequests : (ioctlRequests policy).length = 2 * policy.ioctls.length + 2 := by
  simp only [ioctlRequests, List.length_cons, List.length_append, length_flatMap_allowed,
    List.length_nil]

lemma length_ioctlBlock : (ioctlBlock policy ioctl).length =
      if "ioctl" ∈ policy.syscalls then 2 * policy.ioctls.length + 3 else 0 := by
  unfold ioctlBlock
  split
  · rw [List.length_cons, length_ioctlRequests]
  · rfl

section

variable (hioctl : table.number architecture "ioctl" = some ioctl)

include hioctl

/-- The table has one name for the number of `ioctl`, so comparing numbers compares names. -/
lemma eq_ioctl_iff {name : String} {n : UInt32} (hn : table.number architecture name = some n) :
    n = ioctl ↔ name = "ioctl" := by
  constructor
  · rintro rfl
    exact SyscallTable.number_injective hn hioctl
  · rintro rfl
    exact Option.some.inj (hn.symm.trans hioctl)

lemma length_comparedNumbers (hknown : ∀ name ∈ names, table.number architecture name ≠ none) :
    (comparedNumbers table architecture ioctl names).length =
    (names.filter (· ≠ "ioctl")).length := by
  induction names with
  | nil => rfl
  | cons name names ih =>
    have hrest := ih fun name' hname' => hknown name' (List.mem_cons_of_mem _ hname')
    obtain ⟨n, hn⟩ := Option.ne_none_iff_exists'.1 (hknown name List.mem_cons_self)
    simp only [comparedNumbers] at hrest
    by_cases hname : name = "ioctl"
    · subst hname
      simpa [comparedNumbers, hioctl] using hrest
    · simpa [comparedNumbers, hn, eq_ioctl_iff hioctl hn, hname] using hrest

lemma length_program (hknown : ∀ name ∈ policy.syscalls ++
      ["restart_syscall"], table.number architecture name ≠ none) :
    8 * (program table architecture policy ioctl).length = programBytes architecture policy := by
  have hcompared := length_comparedNumbers hioctl hknown
  have hrestart : (["restart_syscall"].filter (· ≠ "ioctl")).length = 1 := by
    decide
  rw [List.filter_append, List.length_append, hrestart] at hcompared
  simp only [program, programBytes, List.length_append, length_ioctlBlock, length_flatMap_allowed,
    hcompared, List.length_cons, List.length_nil]

/-- The compiler succeeds exactly when every listed name is known, the `ioctl` block can be written
and the program is small enough, and then returns the program. -/
lemma compileAllowlist_eq_ok {bpf : List UInt8} :
    compileAllowlist table architecture policy = .ok bpf ↔
      (∀ name ∈ policy.syscalls, table.number architecture name ≠ none) ∧
      (if "ioctl" ∈ policy.syscalls then policy.ioctls.length ≤ 126 else policy.ioctls = []) ∧
      programBytes architecture policy ≤ maxFilterBytes ∧
      bpf = (program table architecture policy ioctl).flatMap encode := by
  have hholds :
      ∀ {filter : Filter}, appendIoctls policy ioctl (Filter.new architecture) = .ok filter →
      (((comparedNumbers table architecture ioctl (policy.syscalls ++ ["restart_syscall"])).foldl
        appendAllowed filter).append returnCode 0 0 killProcess).Holds
        (program table architecture policy ioctl) := by
    intro filter hfilter
    exact (holds_foldl_appendAllowed (holds_appendIoctls (Filter.holds_new architecture) hfilter)
      _).append returnCode 0 0 killProcess
  have hsize : (∀ name ∈ policy.syscalls ++ ["restart_syscall"],
      table.number architecture name ≠ none) → ∀ {filter : Filter},
      filter.Holds (program table architecture policy ioctl) →
      filter.bpf.length = programBytes architecture policy := by
    intro hknown filter hfilter
    rw [hfilter, length_flatMap_encode, length_program hioctl hknown]
  have hnames :
      (∀ name ∈ policy.syscalls ++ ["restart_syscall"], table.number architecture name ≠ none) ↔
      ∀ name ∈ policy.syscalls, table.number architecture name ≠ none := by
    obtain ⟨n, hn⟩ := table.exists_number_restart_syscall architecture
    simp [or_imp, forall_and, hn]
  simp only [compileAllowlist, SyscallTable.resolveSyscallNumber_eq, bind_eq_ok, orError_eq_ok,
    foldlM_appendSyscall_eq_ok, ensure_eq_ok, decide_eq_true_eq, exists_const, pure_eq_ok, hnames]
  constructor
  · rintro ⟨n, hn, filter, hfilter, filter', ⟨hknown, rfl⟩, hfits, hbpf⟩
    cases hn.symm.trans hioctl
    have hbytes := hholds hfilter
    rw [hsize (hnames.2 hknown) hbytes] at hfits
    exact ⟨hknown, exists_appendIoctls_eq_ok.1 ⟨filter, hfilter⟩, hfits, hbpf.symm.trans hbytes⟩
  · rintro ⟨hknown, hrequests, hfits, hbpf⟩
    obtain ⟨filter, hfilter⟩ := exists_appendIoctls_eq_ok.2 hrequests
    have hbytes := hholds hfilter
    rw [← hsize (hnames.2 hknown) hbytes] at hfits
    exact ⟨ioctl, hioctl, filter, hfilter, _, ⟨hknown, rfl⟩, hfits, hbytes.trans hbpf.symm⟩

end

/-! ## What the program decides -/

def Allowed (table : SyscallTable) (architecture : Architecture) (policy : RolePolicy)
    (data : SeccompData) : Prop :=
  NativeCall architecture data ∧
    ((∃ name, (name ∈ policy.syscalls ∧ name ≠ "ioctl" ∨ name = "restart_syscall") ∧
        table.number architecture name = some data.nr) ∨
      ("ioctl" ∈ policy.syscalls ∧ table.number architecture "ioctl" = some data.nr ∧
        (data.args 1).toUInt32 ∈ policy.ioctls))

lemma evaluates_flatMap_allowed {acc : UInt32} (values : List UInt32)
    (hlisted : acc ∈ values → value = allow)
    (hrest : acc ∉ values → Evaluates data rest acc value) :
    Evaluates data (values.flatMap allowed ++ rest) acc value := by
  induction values with
  | nil => exact hrest List.not_mem_nil
  | cons v values ih =>
    by_cases hacc : acc = v
    · have hvalue : value = allow := hlisted (hacc ▸ List.mem_cons_self)
      subst hvalue
      exact .jeq_taken hacc .ret
    · refine .jeq_not_taken hacc (ih ?_ ?_)
      · intro hmem
        exact hlisted (List.mem_cons_of_mem _ hmem)
      · intro hmem
        exact hrest fun h => (List.mem_cons.1 h).elim hacc hmem

lemma evaluates_ioctlRequests {acc : UInt32} : Evaluates data (ioctlRequests policy ++ rest) acc
      (if (data.args 1).toUInt32 ∈ policy.ioctls then allow else killProcess) := by
  have hword : data.word secondArgument = some (data.args 1).toUInt32 := rfl
  simp only [ioctlRequests, List.cons_append, List.append_assoc]
  refine .load hword ?_
  refine evaluates_flatMap_allowed policy.ioctls (fun hmem => if_pos hmem) ?_
  intro hmem
  rw [if_neg hmem]
  exact .ret

/-- An `ioctl` is judged by the block; any other call passes it with its number in place. -/
lemma evaluates_ioctlBlock (hlength : "ioctl" ∈ policy.syscalls → policy.ioctls.length ≤ 126)
    (hioctl : "ioctl" ∈ policy.syscalls → data.nr = ioctl →
      value = if (data.args 1).toUInt32 ∈ policy.ioctls then allow else killProcess)
    (hrest : ("ioctl" ∈ policy.syscalls → data.nr ≠ ioctl) → Evaluates data rest data.nr value) :
    Evaluates data (ioctlBlock policy ioctl ++ rest) data.nr value := by
  by_cases hlisted : "ioctl" ∈ policy.syscalls
  · rw [ioctlBlock, if_pos hlisted]
    by_cases hnr : data.nr = ioctl
    · rw [hioctl hlisted hnr]
      exact .jeq_taken hnr evaluates_ioctlRequests
    · -- The distance is the length of the block: it was checked to fit a byte.
      have hdistance :
          (ioctlRequests policy).length = (UInt8.ofNat (2 * policy.ioctls.length + 2)).toNat := by
        have hfits : 2 * policy.ioctls.length + 2 < UInt8.size := by
          have hshort := hlength hlisted
          change _ < 256
          omega
        rw [length_ioctlRequests, UInt8.toNat_ofNat_of_lt' hfits]
      exact .jeq_not_taken hnr (Evaluates.drop_block hdistance (hrest fun _ => hnr))
  · rw [ioctlBlock, if_neg hlisted]
    exact hrest fun h => absurd h hlisted

lemma mem_comparedNumbers {nr : UInt32} : nr ∈ comparedNumbers table architecture ioctl names ↔
      (∃ name ∈ names, table.number architecture name = some nr) ∧ nr ≠ ioctl := by
  simp [comparedNumbers]

/-- A native call is listed when the comparisons find its number, or when it is a listed `ioctl`
with a listed request. -/
lemma allowed_iff (hioctl : table.number architecture "ioctl" = some ioctl)
    (hnative : NativeCall architecture data) :
    Allowed table architecture policy data ↔
      data.nr ∈ comparedNumbers table architecture ioctl (policy.syscalls ++ ["restart_syscall"]) ∨
      ("ioctl" ∈ policy.syscalls ∧ data.nr = ioctl ∧ (data.args 1).toUInt32 ∈ policy.ioctls) := by
  have hblock : table.number architecture "ioctl" = some data.nr ↔ data.nr = ioctl := by
    rw [hioctl, Option.some.injEq, eq_comm]
  simp only [Allowed, hnative, true_and, hblock, mem_comparedNumbers]
  refine or_congr_left' fun _ => ?_
  constructor
  · rintro ⟨name, (⟨hmem, hne⟩ | rfl), hn⟩
    · exact ⟨⟨name, List.mem_append_left _ hmem, hn⟩, mt (eq_ioctl_iff hioctl hn).1 hne⟩
    · exact ⟨⟨_, List.mem_append_right _ List.mem_cons_self, hn⟩,
        mt (eq_ioctl_iff hioctl hn).1 (by decide)⟩
  · rintro ⟨⟨name, hmem, hn⟩, hnr⟩
    refine ⟨name, ?_, hn⟩
    rcases List.mem_append.1 hmem with hmem | hmem
    · exact Or.inl ⟨hmem, mt (eq_ioctl_iff hioctl hn).2 hnr⟩
    · exact Or.inr (List.mem_singleton.1 hmem)

/-- The emitted program allows what the policy lists and kills on everything else. -/
theorem evaluates_program (hioctl : table.number architecture "ioctl" = some ioctl)
    (hlength : "ioctl" ∈ policy.syscalls → policy.ioctls.length ≤ 126)
    (hallow : Allowed table architecture policy data → value = allow)
    (hkill : ¬ Allowed table architecture policy data → value = killProcess) :
    Evaluates data (program table architecture policy ioctl) 0 value := by
  rw [program, List.append_assoc, List.append_assoc]
  by_cases hnative : NativeCall architecture data
  · rw [allowed_iff hioctl hnative] at hallow hkill
    refine evaluates_prologue hnative (evaluates_ioctlBlock hlength ?_ ?_)
    · intro hlisted hnr
      split
      case isTrue hrequest =>
        exact hallow (Or.inr ⟨hlisted, hnr, hrequest⟩)
      case isFalse hrequest =>
        refine hkill ?_
        rintro (hcompared | ⟨-, -, hmem⟩)
        · exact (mem_comparedNumbers.1 hcompared).2 hnr
        · exact hrequest hmem
    · intro hpassed
      refine evaluates_flatMap_allowed _ (fun hmem => hallow (Or.inl hmem)) ?_
      intro hmem
      have hvalue : value = killProcess := by
        refine hkill ?_
        rintro (hcompared | ⟨hlisted, hnr, -⟩)
        · exact hmem hcompared
        · exact hpassed hlisted hnr
      subst hvalue
      exact .ret
  · have hvalue : value = killProcess := hkill fun h => hnative h.1
    subst hvalue
    exact evaluates_prologue_foreign hnative

lemma not_ioctlWritable_iff :
    (¬ if "ioctl" ∈ policy.syscalls then policy.ioctls.length ≤ 126 else policy.ioctls = []) ↔
      (policy.ioctls ≠ [] ∧ "ioctl" ∉ policy.syscalls) ∨ 126 < policy.ioctls.length := by
  by_cases hlisted : "ioctl" ∈ policy.syscalls
  · simp [hlisted]
  · simp only [hlisted, if_false, not_false_eq_true, and_true]
    constructor
    · exact Or.inl
    · rintro (hne | hlong) hnil
      · exact hne hnil
      · simp [hnil] at hlong

/-- The compiler fails exactly on an unknown name, on requests without `ioctl`, on more requests
than a jump can pass and on a program the kernel would refuse; otherwise its bytes are a program
that always leaves through a return and allows exactly the calls the policy lists. -/
theorem compileAllowlist_enforces_policy (table : SyscallTable) (architecture : Architecture)
    (policy : RolePolicy) :
    (∀ bpf, compileAllowlist table architecture policy = .ok bpf →
      ∃ insns, decode bpf = some insns ∧ ∀ data,
        (Allowed table architecture policy data → exec insns data = some allow) ∧
        (¬ Allowed table architecture policy data → exec insns data = some killProcess)) ∧
    ((∃ e, compileAllowlist table architecture policy = .error e) ↔
      (∃ name ∈ policy.syscalls, table.number architecture name = none) ∨
      (policy.ioctls ≠ [] ∧ "ioctl" ∉ policy.syscalls) ∨
      126 < policy.ioctls.length ∨
      maxFilterBytes < programBytes architecture policy) := by
  obtain ⟨ioctl, hioctl⟩ := table.exists_number_ioctl architecture
  constructor
  · intro bpf hok
    rcases (compileAllowlist_eq_ok hioctl).1 hok with ⟨-, hrequests, -, rfl⟩
    have hlength : "ioctl" ∈ policy.syscalls → policy.ioctls.length ≤ 126 := by
      intro hlisted
      rwa [if_pos hlisted] at hrequests
    refine ⟨_, decode_flatMap_encode _, fun data => ⟨?_, ?_⟩⟩
    · intro hallowed
      exact (evaluates_program hioctl hlength (fun _ => rfl) (absurd hallowed)).exec_eq
    · intro hrefused
      exact (evaluates_program hioctl hlength (fun h => absurd h hrefused) (fun _ => rfl)).exec_eq
  · rw [exists_eq_error_iff]
    have hok : (∃ bpf, compileAllowlist table architecture policy = .ok bpf) ↔
        (∀ name ∈ policy.syscalls, table.number architecture name ≠ none) ∧
        (if "ioctl" ∈ policy.syscalls then policy.ioctls.length ≤ 126 else policy.ioctls = []) ∧
        programBytes architecture policy ≤ maxFilterBytes := by
      simp only [compileAllowlist_eq_ok hioctl, ← and_assoc, exists_and_left, exists_eq, and_true]
    rw [hok, not_and_or, not_and_or, not_ioctlWritable_iff, not_le, or_assoc]
    simp only [not_forall, not_not, exists_prop]

def sampleId (name : String) : Option Int32 :=
  if name = "ioctl" then some 16
  else if name = "read" then some 0
  else if name = "restart_syscall" then some 219
  else none

def sampleTable : SyscallTable where
  id _ name := sampleId name
  injective := by
    intro _ name name' number h h'
    simp only [sampleId] at h h'
    grind
  nonneg := by
    intro _ name number h
    simp only [sampleId] at h
    grind
  ioctl_known _ := by decide
  restart_syscall_known _ := by decide

def samplePolicy : RolePolicy where
  syscalls := ["ioctl", "read"]
  ioctls := [0xae80]
  syscalls_sorted := by decide
  ioctls_sorted := by decide

def sampleBpf : List UInt8 :=
  (program sampleTable .x86_64 samplePolicy 16).flatMap encode

def sampleCall (request : UInt64) : SeccompData :=
  ⟨16, 0xc000003e, 0, fun i => if i = 1 then request else 0⟩

theorem compileAllowlist_enforces_policy_sample :
    compileAllowlist sampleTable .x86_64 samplePolicy = .ok sampleBpf ∧
    ∃ insns, decode sampleBpf = some insns ∧
      exec insns (sampleCall 0xae80) = some allow ∧
      exec insns (sampleCall 0xae81) = some killProcess := by
  have hok : compileAllowlist sampleTable .x86_64 samplePolicy = .ok sampleBpf :=
    (compileAllowlist_eq_ok rfl).2 ⟨by decide, by decide, by decide, rfl⟩
  have hnative : ∀ request, NativeCall .x86_64 (sampleCall request) := by
    intro request
    refine ⟨rfl, fun _ => ?_⟩
    change (16 : UInt32) &&& x32SyscallBit = 0
    decide
  have hallowed : Allowed sampleTable .x86_64 samplePolicy (sampleCall 0xae80) :=
    ⟨hnative _, Or.inr ⟨by decide, rfl, by decide⟩⟩
  have hrefused : ¬ Allowed sampleTable .x86_64 samplePolicy (sampleCall 0xae81) := by
    rw [allowed_iff rfl (hnative _)]
    decide
  obtain ⟨insns, hdecode, hverdict⟩ :=
    (compileAllowlist_enforces_policy sampleTable .x86_64 samplePolicy).1 sampleBpf hok
  exact ⟨hok, insns, hdecode, (hverdict _).1 hallowed, (hverdict _).2 hrefused⟩

end Terrarium.Seccomp
