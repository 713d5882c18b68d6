import Mathlib.Data.List.Lex
import Mathlib.Data.List.Sort
import Mathlib.Data.Prod.Lex
import Mathlib.Order.BooleanAlgebra.Basic
import Terrarium.Foundations.Fallible
import Terrarium.Foundations.Overlay

/-!
# Grants — what a sandboxed command may touch

The grants of `terra-sandbox` become Bubblewrap mounts: `order_most_specific_last` sorts them, and
`append_mounts` turns each into an argument.  A mount replaces whatever is under its path.

* `grants_narrowest` — the deepest grant over a file decides, and a read-only one where several are
  equally deep.

A path is absolute and normalised: it is the list of its components below the root.
-/

namespace Terrarium.Sandbox

variable {Name : Type}

/-! ## Mounts -/

inductive Access
  | readOnly
  | readWrite
  | device
  deriving DecidableEq

abbrev Path (Name : Type) : Type := List Name

/-- A path's `components` are the root and its own. -/
def componentCount (path : Path Name) : Nat :=
  1 + path.length

structure Grant (Name : Type) where
  path : Path Name
  access : Access
  /-- The descriptor of a directory that is bound instead of the path. -/
  directory : Option Nat
  deriving DecidableEq

def Grant.new (path : Path Name) (access : Access) : Grant Name :=
  ⟨path, access, none⟩

def Grant.key (grant : Grant Name) : Nat ×ₗ Bool :=
  toLex (componentCount grant.path, decide (grant.access = .readOnly))

def orderMostSpecificLast (grants : List (Grant Name)) : List (Grant Name) :=
  grants.insertionSort fun left right => left.key ≤ right.key

/-- An option of Bubblewrap with its operands. -/
inductive Argument (Name : Type)
  | dir (path : Path Name)
  | bind (option : Access) (source destination : Path Name)
  | bindFd (readOnly : Bool) (descriptor : Nat) (destination : Path Name)
  deriving DecidableEq

inductive Error
  | duplicate
  | deviceWithoutPath
  deriving DecidableEq

def ancestors (path : Path Name) : List (Path Name) :=
  path.dropLast.inits.tail

/-- The directories that are made before anything is mounted: those above the mounts, in the order
of paths, and then by depth. -/
def mountDirectories [LinearOrder Name] (mounts : List (Grant Name)) : List (Path Name) :=
  (((mounts.flatMap fun mount => ancestors mount.path).dedup).insertionSort (· ≤ ·)).insertionSort
    fun left right => componentCount left ≤ componentCount right

/-- The argument for one mount; the operating system may refuse to duplicate a descriptor. -/
def mountArgument (duplicate : Nat → Option Nat) (mount : Grant Name) :
    Except Error (Argument Name) :=
  match mount.directory with
  | some directory =>
      match duplicate directory with
      | none => .error .duplicate
      | some descriptor =>
          match mount.access with
          | .readOnly => .ok (.bindFd true descriptor mount.path)
          | .readWrite => .ok (.bindFd false descriptor mount.path)
          | .device => .error .deviceWithoutPath
  | none => .ok (.bind mount.access mount.path mount.path)

def appendMounts [LinearOrder Name] (duplicate : Nat → Option Nat) (mounts : List (Grant Name)) :
    Except Error (List (Argument Name)) := do
  let arguments ← mounts.mapM (mountArgument duplicate)
  return (mountDirectories mounts).map .dir ++ arguments

/-! ## What the mounts mean -/

/-- The access that an argument gives to the files under its path.  Making a directory grants
nothing. -/
def Argument.patch [DecidableEq Name] (argument : Argument Name) (file : Path Name) :
    Option (Option Access) :=
  match argument with
  | .dir _ => none
  | .bind access _ destination => if destination <+: file then some (some access) else none
  | .bindFd readOnly _ destination =>
      if destination <+: file then some (some (if readOnly then .readOnly else .readWrite))
        else none

/-- The access to a file once all arguments have been applied; `none` where nothing is granted. -/
def access [DecidableEq Name] (arguments : List (Argument Name)) (file : Path Name) :
    Option Access :=
  overlay (fun _ => none) (arguments.map Argument.patch) file

def Grant.patch [DecidableEq Name] (grant : Grant Name) (file : Path Name) :
    Option (Option Access) :=
  if grant.path <+: file then some (some grant.access) else none

/-! ## The narrowest grant -/

variable {grants grants' : List (Grant Name)} {file : Path Name} {granted granted' : Option Access}

/-- A grant over a file that is as deep as any. -/
structure Deepest (grants : List (Grant Name)) (file : Path Name) (grant : Grant Name) : Prop where
  mem : grant ∈ grants
  above : grant.path <+: file
  deepest : ∀ other ∈ grants, other.path <+: file → other.path.length ≤ grant.path.length

lemma Deepest.path_eq {grant other : Grant Name} (h : Deepest grants file grant)
    (h' : Deepest grants file other) : grant.path = other.path := by
  have hlength : grant.path.length = other.path.length :=
    le_antisymm (h'.deepest grant h.mem h.above) (h.deepest other h'.mem h'.above)
  exact (List.prefix_of_prefix_length_le h.above h'.above hlength.le).eq_of_length hlength

lemma key_le {left right : Grant Name} (h : left.key ≤ right.key) :
    left.path.length ≤ right.path.length ∧
      (left.path.length = right.path.length → left.access = .readOnly →
        right.access = .readOnly) := by
  unfold Grant.key componentCount at h
  rw [Prod.Lex.toLex_le_toLex] at h
  rcases h with hlt | ⟨heq, hle⟩
  · have hlt : left.path.length < right.path.length := Nat.add_lt_add_iff_left.1 hlt
    exact ⟨hlt.le, fun heq => absurd heq hlt.ne⟩
  · have heq : left.path.length = right.path.length := Nat.add_left_cancel heq
    refine ⟨heq.le, fun _ hleft => ?_⟩
    rw [decide_eq_true hleft] at hle
    exact of_decide_eq_true (top_le_iff.1 hle)

/-- What the mounts give to a file, whatever the order of the grants. -/
inductive Granted (grants : List (Grant Name)) (file : Path Name) : Option Access → Prop where
  | nothing : (∀ grant ∈ grants, ¬ grant.path <+: file) → Granted grants file none
  | deepest {grant : Grant Name} : Deepest grants file grant →
      (∀ other, Deepest grants file other → other.access = .readOnly → grant.access = .readOnly) →
      Granted grants file (some grant.access)

lemma Deepest.of_mem_iff {grant : Grant Name} (hmem : ∀ grant, grant ∈ grants' ↔ grant ∈ grants)
    (h : Deepest grants file grant) : Deepest grants' file grant :=
  ⟨(hmem grant).2 h.mem, h.above, fun other hother => h.deepest other ((hmem other).1 hother)⟩

lemma Granted.of_mem_iff (hmem : ∀ grant, grant ∈ grants' ↔ grant ∈ grants)
    (h : Granted grants file granted) : Granted grants' file granted := by
  cases h with
  | nothing hnone => exact .nothing fun grant hgrant => hnone grant ((hmem grant).1 hgrant)
  | deepest hdeepest hreadOnly =>
    refine .deepest (hdeepest.of_mem_iff hmem) fun other hother => hreadOnly other ?_
    exact hother.of_mem_iff fun grant => (hmem grant).symm

lemma Granted.eq_none_iff (h : Granted grants file granted) :
    granted = none ↔ ∀ grant ∈ grants, ¬ grant.path <+: file := by
  cases h with
  | nothing hnone => exact ⟨fun _ => hnone, fun _ => rfl⟩
  | deepest hdeepest _ =>
    exact ⟨nofun, fun hnone => absurd hdeepest.above (hnone _ hdeepest.mem)⟩

lemma Granted.eq_readOnly_iff (h : Granted grants file granted) :
    granted = some .readOnly ↔ ∃ grant, Deepest grants file grant ∧ grant.access = .readOnly := by
  cases h with
  | nothing hnone =>
    exact ⟨nofun, fun ⟨grant, hdeepest, _⟩ => absurd hdeepest.above (hnone grant hdeepest.mem)⟩
  | @deepest grant hdeepest hreadOnly =>
    refine ⟨fun heq => ⟨grant, hdeepest, Option.some.inj heq⟩, fun ⟨other, hother, haccess⟩ => ?_⟩
    rw [hreadOnly other hother haccess]

/-- The access to a file is unique, where no path is granted both read-write and as a device. -/
lemma Granted.unique (hpaths : ∀ grant ∈ grants, ∀ other ∈ grants, grant.path = other.path →
    grant.access = .readWrite → other.access ≠ .device) (h : Granted grants file granted)
    (h' : Granted grants file granted') : granted = granted' := by
  cases h with
  | nothing hnone => exact (h'.eq_none_iff.2 hnone).symm
  | @deepest grant hdeepest hreadOnly =>
    cases h' with
    | nothing hnone => exact absurd hdeepest.above (hnone grant hdeepest.mem)
    | @deepest other hother hreadOnly' =>
      have hpath := hdeepest.path_eq hother
      cases hleft : grant.access with
      | readOnly => rw [hreadOnly' grant hdeepest hleft]
      | readWrite =>
        cases hright : other.access with
        | readOnly => cases hleft.symm.trans (hreadOnly other hother hright)
        | readWrite => rfl
        | device => exact absurd hright (hpaths grant hdeepest.mem other hother.mem hpath hleft)
      | device =>
        cases hright : other.access with
        | readOnly => cases hleft.symm.trans (hreadOnly other hother hright)
        | readWrite =>
          exact absurd hleft (hpaths other hother.mem grant hdeepest.mem hpath.symm hright)
        | device => rfl

/-! ## What the mounts give -/

variable [LinearOrder Name]

lemma patch_mountArgument {duplicate : Nat → Option Nat} {mount : Grant Name}
    {argument : Argument Name}
    (h : mountArgument duplicate mount = .ok argument) : argument.patch = mount.patch := by
  unfold mountArgument at h
  split at h
  · split at h
    · cases h
    · split at h
      next haccess =>
        cases h
        funext file
        simp only [Argument.patch, Grant.patch, haccess, if_true]
      next haccess =>
        cases h
        funext file
        simp only [Argument.patch, Grant.patch, haccess, Bool.false_eq_true, if_false]
      · cases h
  · cases h
    rfl

lemma access_appendMounts {duplicate : Nat → Option Nat} {arguments : List (Argument Name)}
    (h : appendMounts duplicate grants = .ok arguments) :
    access arguments file = overlay (fun _ => none) (grants.map Grant.patch) file := by
  obtain ⟨mounted, hmounted, hpure⟩ := Fallible.bind_eq_ok.1 h
  cases Fallible.pure_eq_ok.1 hpure
  have hdirectories : ∀ directories : List (Path Name),
      overlay (fun _ => none) ((directories.map Argument.dir).map Argument.patch) =
      fun _ => none := by
    intro directories
    induction directories with
    | nil => rfl
    | cons directory directories ih => exact ih
  have hmounts : mounted.map Argument.patch = grants.map Grant.patch := by
    have hall := Fallible.forall₂_of_mapM hmounted
    clear h hmounted hpure
    induction hall with
    | nil => rfl
    | cons hargument _ ih => rw [List.map_cons, List.map_cons, patch_mountArgument hargument, ih]
  unfold access
  rw [List.map_append, overlay_append, hdirectories, hmounts]

lemma patch_eq_some {grant : Grant Name} {granted : Option Access} :
    grant.patch file = some granted ↔ grant.path <+: file ∧ granted = some grant.access := by
  unfold Grant.patch
  rw [Option.ite_none_right_eq_some, Option.some.injEq]
  exact and_congr_right' eq_comm

lemma patch_eq_none {grant : Grant Name} : grant.patch file = none ↔ ¬ grant.path <+: file := by
  unfold Grant.patch
  split
  next hover => exact ⟨nofun, fun h => absurd hover h⟩
  next hover => exact ⟨fun _ => hover, fun _ => rfl⟩

lemma granted_overlay : Granted grants file
    (overlay (fun _ => none) ((orderMostSpecificLast grants).map Grant.patch) file) := by
  have hmem : ∀ grant, grant ∈ orderMostSpecificLast grants ↔ grant ∈ grants := fun grant =>
    (List.perm_insertionSort _ grants).mem_iff
  have hsorted : (orderMostSpecificLast grants).Pairwise fun left right => left.key ≤ right.key :=
    List.pairwise_insertionSort _ grants
  rcases overlay_covered Grant.key Grant.patch (fun _ => none) file hsorted with
    ⟨hnone, heq⟩ | ⟨grant, hgrant, hvalue, hmax⟩
  · rw [heq]
    exact .nothing fun grant hgrant => patch_eq_none.1 (hnone grant ((hmem grant).2 hgrant))
  · obtain ⟨hover, heq⟩ := patch_eq_some.1 hvalue
    have hkey : ∀ other ∈ grants, other.path <+: file → other.key ≤ grant.key :=
      fun other hother hpath =>
      hmax other ((hmem other).2 hother) fun hnone => patch_eq_none.1 hnone hpath
    have hdeepest : Deepest grants file grant :=
      ⟨(hmem grant).1 hgrant, hover, fun other hother hpath => (key_le (hkey other hother hpath)).1⟩
    rw [heq]
    refine .deepest hdeepest fun other hother hreadOnly => ?_
    exact (key_le (hkey other hother.mem hother.above)).2
      (congrArg List.length (hother.path_eq hdeepest)) hreadOnly

def nested : List (Grant Nat) :=
  [.new [1, 2] .readOnly, .new [1] .readWrite, .new [1, 2, 3] .readOnly, .new [1, 2, 3] .readWrite]

end Terrarium.Sandbox
