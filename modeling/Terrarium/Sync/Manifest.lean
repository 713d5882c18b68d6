import Mathlib.Data.Char
import Mathlib.Data.List.Lex
import Terrarium.Foundations.Directory
import Terrarium.Foundations.Fallible
import Terrarium.Sync.Messages

/-!
# Manifest — the entries of a sync tree

A manifest lists the entries of one side under their paths.  The planner accepts two manifests only
if each is a tree by itself (`validateManifest`) and no directory of one side is a file or a link on
the other (`validatePlanConflicts`).

* `Manifest.Valid`, `Compatible` : what the two checks establish
* `Manifest.Valid.directory_above` : every ancestor of an entry is a directory of the same manifest
-/

namespace Terrarium.Sync

open Fallible

/-- `BTreeMap<String, SyncEntry>`: one entry for a path, in the order of the paths. -/
structure Manifest where
  entries : List (Text × SyncEntry)
  sorted : (entries.map Prod.fst).Pairwise (· < ·)

namespace Manifest

def get (manifest : Manifest) (path : Text) : Option SyncEntry :=
  Directory.find manifest.entries path

lemma nodup (manifest : Manifest) : (manifest.entries.map Prod.fst).Nodup := by
  refine manifest.sorted.imp ?_
  rintro path _ hlt rfl
  exact List.lt_irrefl path hlt

lemma get_eq_some_iff {manifest : Manifest} {path : Text} {entry : SyncEntry} :
    manifest.get path = some entry ↔ (path, entry) ∈ manifest.entries :=
  Directory.find_eq_some_iff manifest.nodup

end Manifest

/-! ## Checks of the planner -/

/-- The host-side check of a wire path; on this platform it adds nothing to the wire check. -/
def validateHostRelativePath (path : Text) : Except String Unit :=
  validateRelativePath path

def validateFileSize : SyncEntryKind → Except String Unit
  | .file size => ensure (size ≤ maxSyncFileBytes) "file exceeds sync size limit"
  | .directory | .symlink _ => .ok ()

/-- A missing root is allowed; any other parent is listed as a directory. -/
def hasDirectoryParent (manifest : Manifest) (path : Text) : Bool :=
  match manifest.get (parentPath path) with
  | some parent => parent.kind = .directory
  | none => parentPath path = []

def validateEntry (manifest : Manifest) (item : Text × SyncEntry) : Except String Unit := do
  validateHostRelativePath item.1
  ensure (item.2.relativePath = item.1) "manifest path mismatch"
  validateFileSize item.2.kind
  ensure (item.1 = [] || hasDirectoryParent manifest item.1)
    "manifest entry has a missing or non-directory parent"

def validateManifest (manifest : Manifest) : Except String Unit :=
  manifest.entries.forM (validateEntry manifest)

def validateNoConflict (target : Manifest) (item : Text × SyncEntry) : Except String Unit :=
  match target.get item.1 with
  | none => .ok ()
  | some dst =>
      if item.2.kind = .directory ∧ dst.kind ≠ .directory then
        .error ("cannot overwrite file/symlink '" ++ String.ofList item.1 ++
          "' with a directory; remove the file/symlink first")
      else if item.2.kind ≠ .directory ∧ dst.kind = .directory then
        .error ("cannot overwrite directory '" ++ String.ofList item.1 ++
          "' with a file/symlink; remove the directory first")
      else
        .ok ()

def validatePlanConflicts (source target : Manifest) : Except String Unit := do
  validateManifest source
  validateManifest target
  source.entries.forM (validateNoConflict target)

/-! ## Paths -/

/-- `Vec::join` with a slash. -/
def joinPath (names : List Text) : Text :=
  List.intercalate ['/'] names

/-- A name an entry can have in its directory. -/
structure ProperName (name : Text) : Prop where
  nonempty : name ≠ []
  not_dot : name ≠ ['.']
  not_dotdot : name ≠ ['.', '.']
  slashless : '/' ∉ name

@[simp] lemma joinPath_nil : joinPath [] = [] := rfl

lemma joinPath_components (path : Text) : joinPath (components path) = path :=
    List.intercalate_splitOn '/'

lemma components_ne_nil (path : Text) : components path ≠ [] := List.splitOn_ne_nil '/' path

variable {names : List Text} {path : Text}

lemma joinPath_concat (name : Text) (h : names ≠ []) :
    joinPath (names ++ [name]) = joinPath names ++ '/' :: name := by
  induction names with
  | nil => exact absurd rfl h
  | cons head names ih =>
    cases names with
    | nil => simp [joinPath]
    | cons second names =>
      have htail := ih (List.cons_ne_nil _ _)
      simp only [joinPath, List.cons_append] at htail ⊢
      rw [List.intercalate_cons_cons, htail, List.intercalate_cons_cons, List.append_assoc,
        List.append_assoc, List.append_assoc]

lemma parentPath_joinPath {name : Text} (hname : '/' ∉ name) :
    parentPath (joinPath (names ++ [name])) = joinPath names := by
  by_cases h : names = []
  · subst h
    have hjoin : joinPath ([] ++ [name]) = name := by simp [joinPath]
    rw [hjoin, parentPath, Text.rsplitOnce_of_not_mem hname, joinPath_nil]
  · rw [joinPath_concat name h, parentPath, Text.rsplitOnce_append_cons _ hname]

lemma byteLen_parentPath_lt (h : path ≠ []) :
    Text.byteLen (parentPath path) < Text.byteLen path := by
  unfold parentPath
  cases hcut : Text.rsplitOnce '/' path with
  | none => exact Text.byteLen_pos h
  | some cut =>
    rw [Text.rsplitOnce_eq_some hcut, Text.byteLen_append]
    have hslash := Text.byteLen_pos (List.cons_ne_nil '/' cut.2)
    simp only []
    omega

lemma parentPath_ne_self (h : path ≠ []) : parentPath path ≠ path := by
  intro heq
  have hlt := byteLen_parentPath_lt h
  rw [heq] at hlt
  exact Nat.lt_irrefl _ hlt

lemma joinPath_ne_nil (h : names ≠ []) (hproper : ∀ name ∈ names, ProperName name) :
    joinPath names ≠ [] := by
  cases names with
  | nil => exact absurd rfl h
  | cons head names =>
    have hhead := (hproper head List.mem_cons_self).nonempty
    cases names with
    | nil => simpa [joinPath] using hhead
    | cons second names => simp [joinPath, List.intercalate_cons_cons]

lemma properName_of_validateComponent {component : Text} (hslash : '/' ∉ component)
    (h : validateComponent component = .ok ()) : ProperName component := by
  unfold validateComponent at h
  split at h
  · cases h
  next hempty =>
    split at h
    · cases h
    next hdots =>
      rw [not_or] at hdots
      exact ⟨hempty, hdots.1, hdots.2, hslash⟩

lemma properName_of_validateRelativePath (hpath : path ≠ [])
    (h : validateRelativePath path = .ok ()) : ∀ name ∈ components path, ProperName name := by
  intro name hname
  rw [validateRelativePath, if_neg hpath] at h
  obtain ⟨-, -, hcomponents⟩ := bind_eq_ok.1 h
  exact properName_of_validateComponent (Text.not_mem_of_mem_splitOn hname)
    (forM_eq_ok.1 hcomponents name hname)

/-! ## What the checks establish -/

structure ValidEntry (manifest : Manifest) (path : Text) (entry : SyncEntry) : Prop where
  relative : validateRelativePath path = .ok ()
  own_path : entry.relativePath = path
  size_le : ∀ size, entry.kind = .file size → size ≤ maxSyncFileBytes
  parent : path ≠ [] → hasDirectoryParent manifest path = true

lemma validateFileSize_eq_ok {kind : SyncEntryKind} :
    validateFileSize kind = .ok () ↔ ∀ size, kind = .file size → size ≤ maxSyncFileBytes := by
  cases kind with
  | file size | directory | symlink target => simp [validateFileSize]

lemma validateEntry_eq_ok {manifest : Manifest} {entry : SyncEntry} :
    validateEntry manifest (path, entry) = .ok () ↔ ValidEntry manifest path entry := by
  constructor
  · intro h
    obtain ⟨_, hrelative, h⟩ := bind_eq_ok.1 h
    obtain ⟨hown, h⟩ := ensure_bind_eq_ok.1 h
    obtain ⟨_, hsize, h⟩ := bind_eq_ok.1 h
    refine ⟨hrelative, by simpa using hown, validateFileSize_eq_ok.1 hsize, ?_⟩
    intro hpath
    simpa [hpath] using ensure_eq_ok.1 h
  · intro h
    refine bind_eq_ok.2 ⟨(), h.relative, ensure_bind_eq_ok.2 ⟨by simpa using h.own_path, ?_⟩⟩
    refine bind_eq_ok.2 ⟨(), validateFileSize_eq_ok.2 h.size_le, ensure_eq_ok.2 ?_⟩
    by_cases hpath : path = []
    · simp [hpath]
    · simp [h.parent hpath]

/-- Every entry stands under its own path, inside a directory of the manifest. -/
def Manifest.Valid (manifest : Manifest) : Prop :=
  ∀ path entry, manifest.get path = some entry → ValidEntry manifest path entry

lemma validateManifest_eq_ok {manifest : Manifest} : validateManifest manifest = .ok () ↔
    manifest.Valid := by
  rw [validateManifest, forM_eq_ok]
  constructor
  · intro h path entry hget
    exact validateEntry_eq_ok.1 (h (path, entry) (Manifest.get_eq_some_iff.1 hget))
  · rintro h ⟨path, entry⟩ hmem
    exact validateEntry_eq_ok.2 (h path entry (Manifest.get_eq_some_iff.2 hmem))

/-- Both manifests are trees, and they agree on which of their common paths are directories. -/
structure Compatible (source target : Manifest) : Prop where
  source_valid : source.Valid
  target_valid : target.Valid
  directories : ∀ path src dst, source.get path = some src → target.get path = some dst →
    (src.kind = .directory ↔ dst.kind = .directory)

lemma validateNoConflict_eq_ok {target : Manifest} {src : SyncEntry} :
    validateNoConflict target (path, src) = .ok () ↔
      ∀ dst, target.get path = some dst → (src.kind = .directory ↔ dst.kind = .directory) := by
  rw [validateNoConflict]
  cases hget : target.get path with
  | none => simp
  | some dst =>
    by_cases hsrc : src.kind = .directory <;> by_cases hdst : dst.kind = .directory <;>
      simp [hsrc, hdst]

lemma validatePlanConflicts_eq_ok {source target : Manifest} :
    validatePlanConflicts source target = .ok () ↔ Compatible source target := by
  constructor
  · intro h
    obtain ⟨_, hsource, h⟩ := bind_eq_ok.1 h
    obtain ⟨_, htarget, h⟩ := bind_eq_ok.1 h
    refine ⟨validateManifest_eq_ok.1 hsource, validateManifest_eq_ok.1 htarget, ?_⟩
    intro path src dst hsrc hdst
    exact validateNoConflict_eq_ok.1 (forM_eq_ok.1 h (path, src) (Manifest.get_eq_some_iff.1 hsrc))
      dst hdst
  · intro h
    refine bind_eq_ok.2 ⟨(), validateManifest_eq_ok.2 h.source_valid,
      bind_eq_ok.2 ⟨(), validateManifest_eq_ok.2 h.target_valid, forM_eq_ok.2 ?_⟩⟩
    rintro ⟨path, src⟩ hmem
    exact validateNoConflict_eq_ok.2 fun dst hdst =>
      h.directories path src dst (Manifest.get_eq_some_iff.2 hmem) hdst

/-! ## Ancestors -/

namespace Manifest
namespace Valid

variable {manifest : Manifest} {path : Text} {entry : SyncEntry}

lemma parent_directory (h : manifest.Valid) {names : List Text} {name : Text}
    (hproper : ∀ part ∈ names ++ [name], ProperName part) (hnames : names ≠ [])
    (hget : manifest.get (joinPath (names ++ [name])) = some entry) :
    ∃ parent, manifest.get (joinPath names) = some parent ∧ parent.kind = .directory := by
  have hname := hproper name (List.mem_append_right _ List.mem_cons_self)
  have hpath := joinPath_ne_nil (List.append_ne_nil_of_left_ne_nil hnames [name]) hproper
  have hparent := (h _ _ hget).parent hpath
  have hne : joinPath names ≠ [] :=
    joinPath_ne_nil hnames fun part hpart => hproper part (List.mem_append_left _ hpart)
  rw [hasDirectoryParent, parentPath_joinPath hname.slashless] at hparent
  cases hfound : manifest.get (joinPath names) with
  | none => simp [hfound, hne] at hparent
  | some parent => exact ⟨parent, rfl, by simpa [hfound] using hparent⟩

/-- Every ancestor of an entry below the root is a directory of the manifest. -/
theorem directory_above (h : manifest.Valid) {above below : List Text}
    (hproper : ∀ part ∈ above ++ below, ProperName part) (habove : above ≠ []) (hbelow : below ≠ [])
    (hget : manifest.get (joinPath (above ++ below)) = some entry) :
    ∃ parent, manifest.get (joinPath above) = some parent ∧ parent.kind = .directory := by
  -- from the entry upwards, one name of the path at a time
  induction below using List.reverseRecOn generalizing entry with
  | nil => exact absurd rfl hbelow
  | append_singleton below name ih =>
    rw [← List.append_assoc] at hproper hget
    obtain ⟨parent, hparent, hdirectory⟩ :=
      h.parent_directory hproper (List.append_ne_nil_of_left_ne_nil habove below) hget
    by_cases hlast : below = []
    · subst hlast
      rw [List.append_nil] at hparent
      exact ⟨parent, hparent, hdirectory⟩
    · exact ih (fun part hpart => hproper part (List.mem_append_left _ hpart)) hlast hparent

end Valid
end Manifest

end Terrarium.Sync
