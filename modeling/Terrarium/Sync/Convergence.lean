import Terrarium.Sync.PlanCases

/-!
# Convergence — an executed plan makes the target equal to the source

The five phases are followed path by path.  At any time a path is in one of few conditions:

* `Kept` : as it was, but a directory that will be updated or removed may have new attributes
* `IsDir` : a directory was created
* `Leaf` : a file or a link is as in the source
* removed, or `Final` : as in the source, with its attributes

Each phase settles the paths of its own steps (`Phases.phase_settles`); what it does to the
directory of a changed path is harmless because that directory is updated or removed later
(`slack_parent`).
-/

namespace Terrarium.Sync

open Fallible Phases

variable {C : Type}

/-! ## The primitive operations, path by path -/

def IsDir (x : Option (FileNode C)) : Prop :=
  ∃ mode mtimeSecs mtimeNanos, x = some ⟨.directory, mode, mtimeSecs, mtimeNanos⟩

variable {path : Text} {disk : Disk C}

lemma isDirectory_iff {tree : List (Text × FileNode C)} :
    isDirectory tree path = true ↔ IsDir (Directory.find tree path) := by
  unfold isDirectory IsDir
  rcases Directory.find tree path with _ | ⟨_ | _ | _, _, _, _⟩ <;> simp

/-- What a change at `path` does to another path: nothing, or new times for `path`'s directory. -/
def Bystander (path : Text) (before after : Option (FileNode C)) (other : Text) : Prop :=
  after = before ∨ (path ≠ [] ∧ other = parentPath path ∧ IsDir before ∧ IsDir after)

lemma find_touchParent (fresh : Nat → Attributes)
    (hparent : path ≠ [] → Directory.find disk.tree (parentPath path) = none ∨
      IsDir (Directory.find disk.tree (parentPath path))) (other : Text) :
    Bystander path (Directory.find disk.tree other)
      (Directory.find (touchParent fresh path disk) other) other := by
  unfold touchParent
  split
  · exact Or.inl rfl
  next hpath =>
    rcases hparent hpath with hnone | ⟨mode, mtimeSecs, mtimeNanos, hdir⟩
    · rw [hnone]
      exact Or.inl rfl
    · rw [hdir]
      by_cases hother : other = parentPath path
      · right
        subst hother
        refine ⟨hpath, rfl, ⟨_, _, _, hdir⟩, ?_⟩
        rw [Directory.find_insert, if_pos rfl]
        exact ⟨_, _, _, rfl⟩
      · left
        rw [Directory.find_insert, if_neg hother]

lemma install_spec (fresh : Nat → Attributes) (node : FileNode C)
    (hparent : path ≠ [] → IsDir (Directory.find disk.tree (parentPath path)))
    (hfree : ¬ IsDir (Directory.find disk.tree path)) :
    ∃ disk', install fresh path node disk = .ok disk' ∧ Directory.find disk'.tree path = some node ∧
      ∀ other, other ≠ path →
        Bystander path (Directory.find disk.tree other)
          (Directory.find disk'.tree other) other := by
  have hhas : hasParent disk.tree path = true := by
    by_cases hpath : path = []
    · simp [hasParent, hpath]
    · simp [hasParent, isDirectory_iff.2 (hparent hpath)]
  have hnot : isDirectory disk.tree path = false := by
    rw [← Bool.not_eq_true, isDirectory_iff]
    exact hfree
  refine ⟨_, by simp only [install, hhas, if_true, hnot]; rfl, ?_, ?_⟩
  · simp
  · intro other hother
    have htouch := find_touchParent fresh (fun hpath => Or.inr (hparent hpath)) other
    simpa [hother] using htouch

lemma unlink_spec (fresh : Nat → Attributes)
    (hparent : path ≠ [] → Directory.find disk.tree (parentPath path) = none ∨
      IsDir (Directory.find disk.tree (parentPath path))) :
    Directory.find (unlink fresh path disk).tree path = none ∧ ∀ other, other ≠ path →
        Bystander path (Directory.find disk.tree other)
          (Directory.find (unlink fresh path disk).tree other) other := by
  constructor
  · simp [unlink]
  · intro other hother
    have htouch := find_touchParent fresh hparent other
    simpa [unlink, hother] using htouch

lemma setAttributes_spec (attributes : Attributes) {node : FileNode C}
    (hfind : Directory.find disk.tree path = some node)
    (hkind : ∀ target, node.kind ≠ .symlink target) :
    ∃ disk', setAttributes path attributes disk = .ok disk' ∧ Directory.find disk'.tree path =
        some ⟨node.kind, attributes.mode, attributes.mtimeSecs, attributes.mtimeNanos⟩ ∧
      ∀ other, other ≠ path → Directory.find disk'.tree other = Directory.find disk.tree other := by
  rcases node with ⟨kind, mode, mtimeSecs, mtimeNanos⟩
  cases kind with
  | symlink target => exact absurd rfl (hkind target)
  | file size contents | directory =>
    refine ⟨_, by rw [setAttributes, hfind], ?_, ?_⟩
    · simp
    · intro other hother
      simp [hother]

lemma executeCreateDir_existing (fresh : Nat → Attributes) (direction : SyncDirection)
    (dir : DirToCreate) (hdir : IsDir (Directory.find disk.tree dir.relPath)) :
    ∃ disk', executeCreateDir fresh direction dir disk = .ok disk' ∧
    IsDir (Directory.find disk'.tree dir.relPath) ∧
      ∀ other, other ≠ dir.relPath →
      Directory.find disk'.tree other = Directory.find disk.tree other := by
  obtain ⟨mode, mtimeSecs, mtimeNanos, hfind⟩ := hdir
  refine ⟨_, by rw [executeCreateDir, hfind],
    ⟨createdMode dir.mode mode direction, mtimeSecs, mtimeNanos, ?_⟩, ?_⟩
  · simp
  · intro other hother
    simp [hother]

lemma removeDirAt_spec (fresh : Nat → Attributes) (hdir : IsDir (Directory.find disk.tree path))
    (hempty : hasChild disk.tree path = false) :
    removeDirAt fresh path disk = .ok (unlink fresh path disk) := by
  obtain ⟨mode, mtimeSecs, mtimeNanos, hfind⟩ := hdir
  simp [removeDirAt, hfind, hempty]

lemma removeFileAt_spec (fresh : Nat → Attributes) (hthere : Directory.find disk.tree path ≠ none)
    (hdir : ¬ IsDir (Directory.find disk.tree path)) :
    removeFileAt fresh path disk = .ok (unlink fresh path disk) := by
  unfold removeFileAt
  rcases hfind : Directory.find disk.tree path with _ | ⟨_ | _ | _, mode, mtimeSecs, mtimeNanos⟩
  · exact absurd hfind hthere
  · rfl
  · exact absurd ⟨mode, mtimeSecs, mtimeNanos, hfind⟩ hdir
  · rfl

/-- Both ends remove an entry by its kind, the host going by the kind in the plan. -/
lemma executeDeletion_spec (fresh : Nat → Attributes) (direction : SyncDirection)
    {deletion : Deletion}
    (hpath : deletion.relPath ≠ []) (hthere : Directory.find disk.tree deletion.relPath ≠ none)
    (hkind : deletion.isDir = true ↔ IsDir (Directory.find disk.tree deletion.relPath))
    (hempty : deletion.isDir = true → hasChild disk.tree deletion.relPath = false) :
    executeDeletion fresh direction deletion disk = .ok (unlink fresh deletion.relPath disk) := by
  have hsame : isDirectory disk.tree deletion.relPath = deletion.isDir := by
    rw [Bool.eq_iff_iff, isDirectory_iff, hkind]
  have hremove : (if deletion.isDir = true then removeDirAt fresh deletion.relPath disk
      else removeFileAt fresh deletion.relPath disk) = .ok
      (unlink fresh deletion.relPath disk) := by
    split
    next hdir => exact removeDirAt_spec fresh (hkind.1 hdir) (hempty hdir)
    next hfile => exact removeFileAt_spec fresh hthere fun hdir => hfile (hkind.2 hdir)
  cases direction with
  | hostToGuest =>
    simp only [executeDeletion, hpath, if_false, hsame]
    exact hremove
  | guestToHost rootName siblings => exact hremove

/-- The node a manifest describes at a path. -/
def Manifest.node (manifest : Manifest) (contents : Text → C) (path : Text) : Option (FileNode C) :=
  (manifest.get path).map fun entry =>
    ⟨fileKind entry.kind (contents path), entry.mode, entry.mtimeSecs, entry.mtimeNanos⟩

lemma find_tree (manifest : Manifest) (contents : Text → C) (path : Text) :
    Directory.find (manifest.tree contents) path = manifest.node contents path :=
  Directory.find_map_contents fun path (entry : SyncEntry) =>
    (⟨fileKind entry.kind (contents path), entry.mode, entry.mtimeSecs,
      entry.mtimeNanos⟩ : FileNode C)

lemma isDir_node_iff {manifest : Manifest} {contents : Text → C} :
    IsDir (manifest.node contents path) ↔ ∃ entry, manifest.get path = some entry ∧
    entry.kind = .directory := by
  unfold Manifest.node IsDir
  rcases manifest.get path with _ | ⟨_, _ | _ | _, _, _, _⟩ <;> simp [fileKind]

/-! ## Conditions of a path -/

section Conditions

variable (input : PlanInput) (sourceData targetData : Text → C) (path : Text)
  (x : Option (FileNode C))

/-- A directory whose attributes are set later, or that is removed later. -/
def Slack : Prop :=
  path ∈ input.dirUpdatePaths ∨ path ∈ input.deletionPaths

def Kept : Prop :=
  x = input.target.node targetData path ∨
    (Slack input path ∧ IsDir x ∧ IsDir (input.target.node targetData path))

/-- As in the source: its kind with the contents or the target, and but for links its attributes. -/
def Final : Prop :=
  ∃ src node, input.source.get path = some src ∧ x = some node ∧
    node.kind = fileKind src.kind (sourceData path) ∧
    (src.kind.linkTarget = none → node.mode = effectiveMode src.mode input.direction ∧
      node.mtimeSecs = src.mtimeSecs ∧ node.mtimeNanos = src.mtimeNanos)

def Leaf : Prop :=
  Final input sourceData path x ∧ ¬ IsDir x

/-- After the directories are created. -/
def Created : Prop :=
  settled input.createPaths (fun _ x => IsDir x) (Kept input targetData) path x

/-- After files and links are transferred. -/
def Transferred : Prop :=
  settled input.transferPaths (Leaf input sourceData) (Created input targetData) path x

/-- After the attributes of files are set. -/
def Stamped : Prop :=
  settled input.fileUpdatePaths (Leaf input sourceData)
    (Transferred input sourceData targetData) path x

/-- After the deletions. -/
def Pruned : Prop :=
  settled input.deletionPaths (fun _ x => x = none) (Stamped input sourceData targetData) path x

/-- After the whole plan. -/
def Synced : Prop :=
  settled input.dirUpdatePaths (Final input sourceData) (Pruned input sourceData targetData) path x

/-- New attributes of a directory that is dealt with later do not matter. -/
def Touchable (condition : Text → Option (FileNode C) → Prop) : Prop :=
  ∀ path x x', Slack input path → IsDir x → IsDir x' → condition path x → condition path x'

end Conditions

section

variable {input : PlanInput} {sourceData targetData : Text → C}

lemma touchable_isDir : Touchable input fun _ (x : Option (FileNode C)) => IsDir x :=
    fun _ _ _ _ _ hx' _ => hx'

lemma touchable_kept : Touchable input (Kept input targetData) := by
  intro path x x' hslack hx hx' hkept
  rcases hkept with rfl | ⟨-, -, hinitial⟩
  · exact Or.inr ⟨hslack, hx', hx⟩
  · exact Or.inr ⟨hslack, hx', hinitial⟩

lemma touchable_leaf : Touchable input (Leaf input sourceData) :=
    fun _ _ _ _ hx _ hleaf => absurd hx hleaf.2

lemma touchable_none : Touchable input fun _ (x : Option (FileNode C)) => x = none := by
  rintro path x x' - ⟨_, _, _, hx⟩ - hnone
  rw [hx] at hnone
  cases hnone

lemma Touchable.settled {done : List Text} {new old : Text → Option (FileNode C) → Prop}
    (hnew : Touchable input new) (hold : Touchable input old) :
    Touchable input (Phases.settled done new old) := by
  intro path x x' hslack hx hx' h
  by_cases hmem : path ∈ done
  · rw [settled_of_mem hmem] at h ⊢
    exact hnew path x x' hslack hx hx' h
  · rw [settled_of_not_mem hmem] at h ⊢
    exact hold path x x' hslack hx hx' h

lemma touchable_created : Touchable input (Created input targetData) :=
    touchable_isDir.settled touchable_kept

lemma touchable_transferred : Touchable input (Transferred input sourceData targetData) :=
  touchable_leaf.settled touchable_created

lemma touchable_stamped : Touchable input (Stamped input sourceData targetData) :=
  touchable_leaf.settled touchable_transferred

lemma Touchable.bystander {condition : Text → Option (FileNode C) → Prop}
    (h : Touchable input condition) {path other : Text} {before after : Option (FileNode C)}
    (hslack : path ≠ [] → Slack input (parentPath path))
    (hchange : Bystander path before after other) (hbefore : condition other before) :
    condition other after := by
  rcases hchange with rfl | ⟨hpath, rfl, hdir, hdir'⟩
  · exact hbefore
  · exact h _ _ _ (hslack hpath) hdir hdir' hbefore

end

/-! ## What a sync relies on -/

/-- Manifests the planner accepts, a directory as the source, a source that stays as it was planned
with, and contents that are equal where the planner takes them to be. -/
structure Ready (input : PlanInput) (sourceData targetData : Text → C)
    (sender : Sender C) : Prop where
  compatible : Compatible input.source input.target
  root : ∃ entry, input.source.get [] = some entry ∧ entry.kind = .directory
  quiet : ∀ path src size, input.source.get path = some src → src.kind = .file size →
    (sender.size path, sender.mode path &&& 0o777, sender.mtimeSecs path, sender.mtimeNanos path) =
        (size, src.mode, src.mtimeSecs, src.mtimeNanos) ∧
      sender.contents path = sourceData path
  same : ∀ path src dst size, input.source.get path = some src → input.target.get path = some dst →
    src.kind = .file size → dst.kind = .file size → input.isIdentical path src dst = true →
    sourceData path = targetData path
  links : ∀ path src target, input.source.get path = some src → src.kind = .symlink target →
    input.direction = .hostToGuest ∨ validateDownloadSymlinkTarget path target = .ok ()

namespace Ready

variable {input : PlanInput} {sourceData targetData : Text → C} {sender : Sender C}
    {src dst : SyncEntry} {x : Option (FileNode C)} {done : List Text}

/-! ### Paths the early phases leave alone -/

lemma not_leaf_of_directory (hget : input.source.get path = some src)
    (hkind : src.kind = .directory) : ¬ Leaf input sourceData path x := by
  rintro ⟨⟨src', ⟨kind, mode, mtimeSecs, mtimeNanos⟩, hget', rfl, hnode, -⟩, hdir⟩
  cases hget.symm.trans hget'
  rw [hkind] at hnode
  cases hnode
  exact hdir ⟨_, _, _, rfl⟩

lemma not_mem_createPaths
    (hkind : ∀ src, input.source.get path = some src → src.kind ≠ .directory) :
    path ∉ input.createPaths := by
  intro hmem
  obtain ⟨⟨_, mode⟩, hstep, rfl⟩ := List.mem_map.1 hmem
  cases PlanInput.planned_of_mem_createDirs hstep with
  | createDir hget hdir _ => exact hkind _ hget hdir

lemma not_mem_createPaths_of_target (htarget : input.target.get path = some dst) :
    path ∉ input.createPaths := by
  intro hmem
  obtain ⟨⟨_, mode⟩, hstep, rfl⟩ := List.mem_map.1 hmem
  cases PlanInput.planned_of_mem_createDirs hstep with
  | createDir _ _ hnone =>
    rw [htarget] at hnone
    cases hnone

lemma not_mem_transferPaths
    (hkind : ∀ src, input.source.get path = some src → src.kind = .directory) :
    path ∉ input.transferPaths := by
  intro hmem
  obtain ⟨item, hstep, rfl⟩ := List.mem_map.1 hmem
  rcases PlanInput.planned_of_mem_transfers hstep with
    ⟨src, size, hget, hfile, -⟩ | ⟨src, target, hget, hlink, -⟩
  · exact SyncEntryKind.noConfusion (hfile.symm.trans (hkind src hget))
  · exact SyncEntryKind.noConfusion (hlink.symm.trans (hkind src hget))

lemma not_mem_fileUpdatePaths
    (hkind : ∀ src size, input.source.get path = some src → src.kind ≠ .file size) :
    path ∉ input.fileUpdatePaths := by
  intro hmem
  obtain ⟨update, hstep, rfl⟩ := List.mem_map.1 hmem
  obtain ⟨src, dst, size, hget, -, hfile, -, -, -⟩ := PlanInput.planned_of_mem_fileUpdates hstep
  exact hkind src size hget hfile

lemma not_mem_deletionPaths (hget : input.source.get path = some src) :
    path ∉ input.deletionPaths := by
  intro hmem
  obtain ⟨deletion, hstep, rfl⟩ := List.mem_map.1 hmem
  obtain ⟨-, hnone, -⟩ := PlanInput.planned_of_mem_deletions hstep
  rw [hget] at hnone
  cases hnone

lemma not_mem_dirUpdatePaths
    (hkind : ∀ src, input.source.get path = some src → src.kind ≠ .directory) :
    path ∉ input.dirUpdatePaths := by
  intro hmem
  obtain ⟨update, hstep, rfl⟩ := List.mem_map.1 hmem
  obtain ⟨src, hget, hdir, -⟩ := PlanInput.planned_of_mem_dirUpdates hstep
  exact hkind src hget hdir

/-- A path that is no directory of the source is as the target had it until something is put. -/
lemma kept_of_created (hkind : ∀ src, input.source.get path = some src → src.kind ≠ .directory)
    (hx : Created input targetData path x) : Kept input targetData path x :=
  (settled_of_not_mem (not_mem_createPaths hkind)).1 hx

lemma kept_of_stamped (hsource : input.source.get path = none)
    (hx : Stamped input sourceData targetData path x) : Kept input targetData path x := by
  have hnone := Option.eq_none_iff_forall_ne_some.1 hsource
  have htransferred :=
    (settled_of_not_mem (not_mem_fileUpdatePaths fun src size hget => absurd hget (hnone src))).1 hx
  have hcreated := (settled_of_not_mem
    (not_mem_transferPaths fun src hget => absurd hget (hnone src))).1 htransferred
  exact kept_of_created (fun src hget => absurd hget (hnone src)) hcreated

variable (h : Ready input sourceData targetData sender)

include h

lemma source_parent (hget : input.source.get path = some src) (hpath : path ≠ []) :
    ∃ parent, input.source.get (parentPath path) = some parent ∧ parent.kind = .directory := by
  have hparent := (h.compatible.source_valid _ _ hget).parent hpath
  unfold hasDirectoryParent at hparent
  cases hfound : input.source.get (parentPath path) with
  | none =>
    -- only the root may be missing, and it is there
    rw [hfound] at hparent
    obtain ⟨root, hroot, -⟩ := h.root
    have hempty : parentPath path = [] := by simpa using hparent
    rw [hempty, hroot] at hfound
    cases hfound
  | some parent =>
    rw [hfound] at hparent
    exact ⟨parent, rfl, by simpa using hparent⟩

lemma slack_of_source_change (hget : input.source.get path = some src)
    (hchanged : path ≠ [] → parentPath path ∈ input.changedParents) (hpath : path ≠ []) :
    Slack input (parentPath path) := by
  obtain ⟨parent, hfound, hkind⟩ := h.source_parent hget hpath
  exact Or.inl (PlanInput.mem_dirUpdatePaths_of_changed hfound hkind (hchanged hpath))

/-- An entry of the target lies in a directory of the source, or of the target only. -/
lemma target_parent (hpath : path ≠ []) (hget : input.target.get path = some dst) :
    (∃ src, input.source.get (parentPath path) = some src ∧ src.kind = .directory) ∨
      (parentPath path ≠ [] ∧ input.source.get (parentPath path) = none ∧
        ∃ parent, input.target.get (parentPath path) = some parent ∧ parent.kind = .directory) := by
  have hparent := (h.compatible.target_valid _ _ hget).parent hpath
  unfold hasDirectoryParent at hparent
  by_cases hempty : parentPath path = []
  · rw [hempty]
    exact Or.inl h.root
  · cases hdst : input.target.get (parentPath path) with
    | none =>
      rw [hdst] at hparent
      exact absurd (by simpa using hparent) hempty
    | some parent =>
      rw [hdst] at hparent
      have hkind : parent.kind = .directory := by simpa using hparent
      cases hsrc : input.source.get (parentPath path) with
      | none => exact Or.inr ⟨hempty, rfl, parent, rfl, hkind⟩
      | some src => exact Or.inl ⟨src, rfl, (h.compatible.directories _ _ _ hsrc hdst).2 hkind⟩

lemma slack_of_deletion (hget : input.target.get path = some dst) (hdelete : input.isDelete = true)
    (hchanged : parentPath path ∈ input.changedParents) (hpath : path ≠ []) :
    Slack input (parentPath path) := by
  rcases h.target_parent hpath hget with ⟨src, hsrc, hkind⟩ | ⟨hempty, hsrc, parent, hparent, -⟩
  · exact Or.inl (PlanInput.mem_dirUpdatePaths_of_changed hsrc hkind hchanged)
  · exact Or.inr (PlanInput.mem_deletionPaths hempty hsrc hparent hdelete)

/-! ### Directories of the source are there when they are needed -/

lemma isDir_of_created (hdone : path ∈ input.createPaths → path ∈ done)
    (hget : input.source.get path = some src) (hkind : src.kind = .directory)
    (hx : settled done (fun _ x => IsDir x) (Kept input targetData) path x) : IsDir x := by
  rcases settled_cases hx with ⟨-, hdir⟩ | ⟨hmem, hkept⟩
  · exact hdir
  · rcases hkept with rfl | ⟨-, hdir, -⟩
    · cases hdst : input.target.get path with
      | none => exact absurd (hdone (PlanInput.mem_createPaths hget hkind hdst)) hmem
      | some dst =>
        exact isDir_node_iff.2 ⟨dst, hdst, (h.compatible.directories _ _ _ hget hdst).1 hkind⟩
    · exact hdir

lemma isDir_of_transferred (hget : input.source.get path = some src) (hkind : src.kind = .directory)
    (hx : settled done (Leaf input sourceData) (Created input targetData) path x) : IsDir x := by
  rcases settled_cases hx with ⟨-, hleaf⟩ | ⟨-, hcreated⟩
  · exact absurd hleaf (not_leaf_of_directory hget hkind)
  · exact h.isDir_of_created id hget hkind hcreated

lemma isDir_of_stamped (hget : input.source.get path = some src) (hkind : src.kind = .directory)
    (hx : Stamped input sourceData targetData path x) : IsDir x := by
  rcases settled_cases hx with ⟨-, hleaf⟩ | ⟨-, htransferred⟩
  · exact absurd hleaf (not_leaf_of_directory hget hkind)
  · exact h.isDir_of_transferred hget hkind htransferred

lemma not_isDir_of_kept (hget : input.source.get path = some src) (hkind : src.kind ≠ .directory)
    (hx : Kept input targetData path x) : x = input.target.node targetData path ∧ ¬ IsDir x := by
  have hinitial : ¬ IsDir (input.target.node targetData path) := by
    intro hdir
    obtain ⟨dst, hdst, hdirectory⟩ := isDir_node_iff.1 hdir
    exact hkind ((h.compatible.directories _ _ _ hget hdst).2 hdirectory)
  rcases hx with rfl | ⟨-, -, hdir⟩
  · exact ⟨rfl, hinitial⟩
  · exact absurd hdir hinitial

/-! ### The phases -/

section Phases

variable (fresh : Nat → Attributes)

abbrev view (disk : Disk C) (path : Text) : Option (FileNode C) :=
  Directory.find disk.tree path

lemma createDirs_settles :
    Settles view DirToCreate.relPath (executeCreateDir fresh input.direction) (fun _ x => IsDir x)
      (Kept input targetData) (createDirs input.actions) := by
  rintro done ⟨path, mode⟩ rest hsplit disk hdone
  have hstep : ⟨path, mode⟩ ∈ createDirs input.actions :=
    hsplit ▸ List.mem_append_right _ List.mem_cons_self
  have hplanned := PlanInput.planned_of_mem_createDirs hstep
  obtain ⟨src, hget, hkind, htarget⟩ : ∃ src, input.source.get path = some src ∧
      src.kind = .directory ∧ input.target.get path = none := by
    cases hplanned with
    | createDir hget hkind htarget => exact ⟨_, hget, hkind, htarget⟩
  rcases settled_cases (hdone path) with ⟨-, hcurrent⟩ | ⟨-, hcurrent⟩
  · -- planned twice: the directory is there
    obtain ⟨disk', hexec, hdir, hothers⟩ :=
      executeCreateDir_existing fresh input.direction ⟨path, mode⟩ hcurrent
    refine ⟨disk', hexec, hdir, ?_⟩
    intro other hother
    rw [view, hothers other hother]
    exact hdone other
  · have hnode : input.target.node targetData path = none := by
      rw [Manifest.node, htarget, Option.map_none]
    have hfree : Directory.find disk.tree path = none := by
      rcases hcurrent with hkept | ⟨-, -, hdir⟩
      · exact hkept.trans hnode
      · rw [hnode] at hdir
        obtain ⟨_, _, _, hdir⟩ := hdir
        cases hdir
    have hparent : path ≠ [] → IsDir (Directory.find disk.tree (parentPath path)) := by
      intro hpath
      obtain ⟨parent, hfound, hparentKind⟩ := h.source_parent hget hpath
      refine h.isDir_of_created ?_ hfound hparentKind (hdone (parentPath path))
      intro hcreate
      -- the parent is shorter, so it was created before
      obtain ⟨dir, hdir, hdirPath⟩ := List.mem_map.1 hcreate
      have hlt := byteLen_parentPath_lt hpath
      refine List.mem_map.2
        ⟨dir, mem_done (List.pairwise_insertionSort _ _) hsplit hdir ?_ ?_, hdirPath⟩
      · rintro rfl
        exact parentPath_ne_self hpath hdirPath.symm
      · rw [hdirPath]
        exact Nat.not_le.2 hlt
    have hnotDir : ¬ IsDir (Directory.find disk.tree path) := by
      rw [hfree]
      rintro ⟨_, _, _, hdir⟩
      cases hdir
    obtain ⟨disk', hinstall, hself, hothers⟩ := install_spec fresh
      ⟨.directory, createdMode mode (fresh disk.changes).mode input.direction,
        (fresh disk.changes).mtimeSecs, (fresh disk.changes).mtimeNanos⟩ hparent hnotDir
    refine ⟨disk', by rw [executeCreateDir, hfree]; exact hinstall, ⟨_, _, _, hself⟩, ?_⟩
    intro other hother
    refine (touchable_isDir.settled touchable_kept).bystander ?_ (hothers other hother)
      (hdone other)
    refine h.slack_of_source_change hget ?_
    rw [createDirs, List.mem_insertionSort] at hstep
    refine PlanInput.changedParents_of_step PlanInput.phase_create hstep ?_
    intro action hpick
    cases action <;> cases hpick
    rfl

lemma parent_isDir_of_transferred
    (hdone : ∀ path, settled done (Leaf input sourceData)
      (Created input targetData) path (view disk path))
    (hget : input.source.get path = some src) (hpath : path ≠ []) :
    IsDir (Directory.find disk.tree (parentPath path)) := by
  obtain ⟨parent, hfound, hkind⟩ := h.source_parent hget hpath
  exact h.isDir_of_transferred hfound hkind (hdone (parentPath path))

lemma free_of_transferred (hget : input.source.get path = some src) (hkind : src.kind ≠ .directory)
    (hx : settled done (Leaf input sourceData) (Created input targetData) path x) : ¬ IsDir x := by
  rcases settled_cases hx with ⟨-, hleaf⟩ | ⟨-, hcreated⟩
  · exact hleaf.2
  · have hkept :=
      kept_of_created (fun src' hget' => by cases hget.symm.trans hget'; exact hkind) hcreated
    exact (h.not_isDir_of_kept hget hkind hkept).2

/-- A file or a link is installed as the source has it; its directory is in place, and is restored
later. -/
lemma install_settles
    (hdone : ∀ path, settled done (Leaf input sourceData)
      (Created input targetData) path (view disk path))
    {item : TransferItem} (hitem : item ∈ transfersAndSymlinks input.actions)
    (hget : input.source.get item.relPath = some src) (hkind : src.kind ≠ .directory)
    {node : FileNode C} (hnode : Leaf input sourceData item.relPath (some node)) :
    ∃ disk', install fresh item.relPath node disk = .ok disk' ∧
      Leaf input sourceData item.relPath (view disk' item.relPath) ∧
      ∀ other, other ≠ item.relPath →
        settled done (Leaf input sourceData) (Created input targetData) other
          (view disk' other) := by
  obtain ⟨disk', hinstall, hself, hothers⟩ := install_spec fresh node
    (h.parent_isDir_of_transferred hdone hget)
      (h.free_of_transferred hget hkind (hdone item.relPath))
  refine ⟨disk', hinstall, by rw [view, hself]; exact hnode, ?_⟩
  intro other hother
  refine (touchable_leaf.settled touchable_created).bystander ?_ (hothers other hother)
    (hdone other)
  refine h.slack_of_source_change hget ?_
  refine PlanInput.changedParents_of_step PlanInput.phase_transfer hitem ?_
  intro action hpick
  cases action <;> cases hpick
  · rfl
  · rfl

omit h in
lemma not_isDir {node : FileNode C} (hkind : node.kind ≠ .directory) : ¬ IsDir (some node) := by
  rintro ⟨_, _, _, hdir⟩
  cases hdir
  exact hkind rfl

omit h in
lemma effectiveMode_masked (mode : Nat) (direction : SyncDirection) :
    effectiveMode (mode &&& 0o777) direction = effectiveMode mode direction := by
  cases direction with
  | hostToGuest => exact Nat.and_assoc mode 0o777 0o777
  | guestToHost rootName siblings => exact Nat.and_assoc mode 0o777 0o755

lemma transfers_settles :
    Settles view TransferItem.relPath (executeTransfer fresh input.direction sender)
      (Leaf input sourceData) (Created input targetData) (transfersAndSymlinks input.actions) := by
  intro done item rest hsplit disk hdone
  have hitem : item ∈ transfersAndSymlinks input.actions :=
    hsplit ▸ List.mem_append_right _ List.mem_cons_self
  rcases PlanInput.planned_of_mem_transfers hitem with
    ⟨src, size, hget, hkind, heq⟩ | ⟨src, target, hget, hkind, heq⟩
  · have hnotDir : src.kind ≠ .directory := hkind ▸ nofun
    obtain ⟨hstat, hcontents⟩ := h.quiet _ _ _ hget hkind
    have hfields := hstat
    simp only [Prod.mk.injEq] at hfields
    obtain ⟨hsize, hmode, hsecs, hnanos⟩ := hfields
    have hleaf : Leaf input sourceData item.relPath (some ⟨.file (sender.size item.relPath)
        (sender.contents item.relPath), effectiveMode (sender.mode item.relPath) input.direction,
        sender.mtimeSecs item.relPath, sender.mtimeNanos item.relPath⟩) := by
      refine ⟨⟨src, _, hget, rfl, ?_, ?_⟩, not_isDir nofun⟩
      · simp only [hkind, fileKind, hsize, hcontents]
      · intro _
        rw [← hmode, effectiveMode_masked]
        exact ⟨rfl, hsecs, hnanos⟩
    obtain ⟨disk', hinstall, hself, hothers⟩ :=
      h.install_settles fresh hdone hitem hget hnotDir hleaf
    refine ⟨disk', ?_, hself, hothers⟩
    rw [heq, executeTransfer, if_pos hstat]
    exact hinstall
  · have hnotDir : src.kind ≠ .directory := hkind ▸ nofun
    have hleaf :
        Leaf input sourceData item.relPath (some ⟨.symlink target, (fresh disk.changes).mode,
        (fresh disk.changes).mtimeSecs, (fresh disk.changes).mtimeNanos⟩) := by
      refine ⟨⟨src, _, hget, rfl, by rw [hkind]; rfl, ?_⟩, not_isDir nofun⟩
      intro hnone
      rw [hkind] at hnone
      cases hnone
    obtain ⟨disk', hinstall, hself, hothers⟩ :=
      h.install_settles fresh hdone hitem hget hnotDir hleaf
    refine ⟨disk', ?_, hself, hothers⟩
    rw [heq]
    rcases hdirection : input.direction with _ | ⟨rootName, siblings⟩
    · exact hinstall
    · -- the target passed the same check when the plan was made
      rcases h.links _ _ _ hget hkind with hup | hvalid
      · rw [hdirection] at hup
        cases hup
      · rw [executeTransfer, hvalid]
        exact hinstall

lemma file_of_transferred {size : Nat} (hget : input.source.get path = some src)
    (htarget : input.target.get path = some dst) (hsrc : src.kind = .file size)
    (hdst : dst.kind = .file size) (hidentical : input.isIdentical path src dst = true)
    (hx : settled done (Leaf input sourceData) (Transferred input sourceData targetData) path x) :
    ∃ node, x = some node ∧ node.kind = .file size (sourceData path) := by
  have hnotDir : src.kind ≠ .directory := hsrc ▸ nofun
  have hleaf : Leaf input sourceData path x → ∃ node, x = some node ∧
      node.kind = .file size (sourceData path) := by
    rintro ⟨⟨src', node, hget', rfl, hnode, -⟩, -⟩
    cases hget.symm.trans hget'
    rw [hsrc] at hnode
    exact ⟨node, rfl, hnode⟩
  rcases settled_cases hx with ⟨-, hstamped⟩ | ⟨-, htransferred⟩
  · exact hleaf hstamped
  · rcases settled_cases htransferred with ⟨-, hinstalled⟩ | ⟨-, hcreated⟩
    · exact hleaf hinstalled
    · have hkept :=
        kept_of_created (fun src' hget' => by cases hget.symm.trans hget'; exact hnotDir) hcreated
      obtain ⟨rfl, -⟩ := h.not_isDir_of_kept hget hnotDir hkept
      refine ⟨_, by rw [Manifest.node, htarget]; rfl, ?_⟩
      simp only [hdst, fileKind, h.same _ _ _ _ hget htarget hsrc hdst hidentical]

omit h in
/-- Setting the attributes of a file or a directory settles its path and no other. -/
lemma metadataUpdate_settles {new old : Text → Option (FileNode C) → Prop} {update : MetadataUpdate}
    {direction : SyncDirection} {node : FileNode C}
    (hdone : ∀ path, settled done new old path (view disk path))
    (hfind : view disk update.relPath = some node) (hkind : ∀ target, node.kind ≠ .symlink target)
    (hnew : new update.relPath
      (some ⟨node.kind, effectiveMode update.mode direction, update.mtimeSecs,
        update.mtimeNanos⟩)) :
    ∃ disk', executeMetadataUpdate direction update disk = .ok disk' ∧
      new update.relPath (view disk' update.relPath) ∧
      ∀ other, other ≠ update.relPath → settled done new old other (view disk' other) := by
  obtain ⟨disk', hexec, hself, hothers⟩ := setAttributes_spec
    ⟨effectiveMode update.mode direction, update.mtimeSecs, update.mtimeNanos⟩ hfind hkind
  refine ⟨disk', hexec, by rw [view, hself]; exact hnew, ?_⟩
  intro other hother
  rw [view, hothers other hother]
  exact hdone other

lemma fileUpdates_settles :
    Settles view MetadataUpdate.relPath (executeMetadataUpdate input.direction)
      (Leaf input sourceData) (Transferred input sourceData targetData)
      (fileMetaUpdates input.actions) := by
  intro done update rest hsplit disk hdone
  have hupdate : update ∈ fileMetaUpdates input.actions :=
    hsplit ▸ List.mem_append_right _ List.mem_cons_self
  obtain ⟨src, dst, size, hget, htarget, hsrc, hdst, hidentical, heq⟩ :=
    PlanInput.planned_of_mem_fileUpdates hupdate
  obtain ⟨node, hfind, hkind⟩ :=
    h.file_of_transferred hget htarget hsrc hdst hidentical (hdone update.relPath)
  refine metadataUpdate_settles hdone hfind (hkind ▸ nofun) ?_
  rw [heq]
  refine ⟨⟨src, _, hget, rfl, ?_, fun _ => ⟨rfl, rfl, rfl⟩⟩, not_isDir (hkind ▸ nofun)⟩
  simp only [hkind, hsrc, fileKind]

omit h in
lemma kind_of_pruned (hmem : path ∉ done) (hsource : input.source.get path = none)
    (htarget : input.target.get path = some dst)
    (hx : settled done (fun _ x => x = none) (Stamped input sourceData targetData) path x) :
    x ≠ none ∧ (dst.kind = .directory ↔ IsDir x) := by
  have hinitial : dst.kind = .directory ↔ IsDir (input.target.node targetData path) := by
    rw [isDir_node_iff, htarget]
    simp
  rcases kept_of_stamped hsource ((settled_of_not_mem hmem).1 hx) with rfl | ⟨-, hdir, hdir'⟩
  · refine ⟨?_, hinitial⟩
    rw [Manifest.node, htarget]
    exact Option.some_ne_none _
  · obtain ⟨_, _, _, rfl⟩ := hdir
    exact ⟨Option.some_ne_none _, fun _ => ⟨_, _, _, rfl⟩, fun _ => hinitial.2 hdir'⟩

lemma parent_of_pruned (htarget : input.target.get path = some dst) (hpath : path ≠ [])
    (hx : settled done (fun _ x => x = none) (Stamped input sourceData targetData)
      (parentPath path) x) :
    x = none ∨ IsDir x := by
  rcases settled_cases hx with ⟨-, hgone⟩ | ⟨hmem, hstamped⟩
  · exact Or.inl hgone
  · right
    rcases h.target_parent hpath htarget with ⟨src, hsrc, hkind⟩ | ⟨-, hsrc, parent, hparent, hkind⟩
    · exact h.isDir_of_stamped hsrc hkind hstamped
    · exact (kind_of_pruned hmem hsrc hparent hx).2.1 hkind

lemma hasChild_of_pruned {done rest : List Deletion}
    {deletion : Deletion} (hsplit : deletions input.actions = done ++ deletion :: rest)
    (hdelete : input.isDelete = true) (hsource : input.source.get deletion.relPath = none)
    (hdone : ∀ path, settled (done.map Deletion.relPath) (fun _ x => x = none)
      (Stamped input sourceData targetData) path (view disk path)) :
    hasChild disk.tree deletion.relPath = false := by
  rw [hasChild, List.any_eq_false]
  rintro ⟨path, node⟩ hmem hchild
  simp only [Bool.and_eq_true, decide_eq_true_eq] at hchild
  obtain ⟨hpath, hparent⟩ := hchild
  have hthere : view disk path ≠ none := Directory.find_ne_none_of_mem hmem
  rcases settled_cases (hdone path) with ⟨-, hnone⟩ | ⟨hgone, hstamped⟩
  · exact hthere hnone
  · cases hget : input.source.get path with
    | some src =>
      -- the source has the directory of each of its entries
      obtain ⟨parent, hfound, -⟩ := h.source_parent hget hpath
      rw [hparent, hsource] at hfound
      cases hfound
    | none =>
      obtain ⟨dst, htarget⟩ : ∃ dst, input.target.get path = some dst := by
        rcases kept_of_stamped hget hstamped with heq | ⟨-, -, hdir⟩
        · cases htarget : input.target.get path with
          | none =>
            rw [Manifest.node, htarget] at heq
            exact absurd heq hthere
          | some dst => exact ⟨dst, rfl⟩
        · obtain ⟨dst, htarget, -⟩ := isDir_node_iff.1 hdir
          exact ⟨dst, htarget⟩
      obtain ⟨child, hlisted, hchildPath⟩ :=
        List.mem_map.1 (PlanInput.mem_deletionPaths hpath hget htarget hdelete)
      have hlt := byteLen_parentPath_lt hpath
      refine hgone
        (List.mem_map.2 ⟨child, mem_done (List.pairwise_insertionSort _ _) hsplit hlisted ?_ ?_,
        hchildPath⟩)
      · rintro rfl
        exact parentPath_ne_self hpath (hparent.trans hchildPath)
      · rw [hchildPath, ← hparent]
        exact Nat.not_le.2 hlt

lemma deletions_settles :
    Settles view Deletion.relPath (executeDeletion fresh input.direction) (fun _ x => x = none)
      (Stamped input sourceData targetData) (deletions input.actions) := by
  intro done deletion rest hsplit disk hdone
  have hdeletion : deletion ∈ deletions input.actions :=
    hsplit ▸ List.mem_append_right _ List.mem_cons_self
  obtain ⟨hpath, hsource, hdelete, dst, htarget, hisDir⟩ :=
    PlanInput.planned_of_mem_deletions hdeletion
  have hfirst : deletion.relPath ∉ done.map Deletion.relPath := by
    have hnodup := input.nodup_deletionPaths
    rw [PlanInput.deletionPaths, hsplit, List.map_append, List.map_cons] at hnodup
    intro hmem
    exact (List.nodup_append.1 hnodup).2.2 _ hmem _ List.mem_cons_self rfl
  obtain ⟨hthere, hkind⟩ := kind_of_pruned hfirst hsource htarget (hdone deletion.relPath)
  have hexec := executeDeletion_spec fresh input.direction hpath hthere
    (by rw [hisDir, decide_eq_true_eq]; exact hkind)
    (fun _ => h.hasChild_of_pruned hsplit hdelete hsource hdone)
  obtain ⟨hself, hothers⟩ := unlink_spec fresh
    (fun hpath => h.parent_of_pruned htarget hpath (hdone (parentPath deletion.relPath)))
  refine ⟨_, hexec, hself, ?_⟩
  intro other hother
  refine (touchable_none.settled touchable_stamped).bystander ?_ (hothers other hother)
    (hdone other)
  intro hne
  refine h.slack_of_deletion htarget hdelete ?_ hne
  rw [deletions, List.mem_insertionSort] at hdeletion
  refine PlanInput.changedParents_of_step PlanInput.phase_delete hdeletion ?_ hne
  intro action hpick
  cases action <;> cases hpick
  rfl

lemma dirUpdates_settles :
    Settles view MetadataUpdate.relPath (executeMetadataUpdate input.direction)
      (Final input sourceData) (Pruned input sourceData targetData)
      (dirMetaUpdates input.actions) := by
  intro done update rest hsplit disk hdone
  have hupdate : update ∈ dirMetaUpdates input.actions :=
    hsplit ▸ List.mem_append_right _ List.mem_cons_self
  obtain ⟨src, hget, hkind, heq⟩ := PlanInput.planned_of_mem_dirUpdates hupdate
  obtain ⟨node, hfind, hnode⟩ : ∃ node, view disk update.relPath = some node ∧
      node.kind = .directory := by
    rcases settled_cases (hdone update.relPath) with
      ⟨-, src', node, hget', hfind, hnode, -⟩ | ⟨-, hpruned⟩
    · cases hget.symm.trans hget'
      rw [hkind] at hnode
      exact ⟨node, hfind, hnode⟩
    · have hstamped := (settled_of_not_mem (not_mem_deletionPaths hget)).1 hpruned
      obtain ⟨_, _, _, hfind⟩ := h.isDir_of_stamped hget hkind hstamped
      exact ⟨_, hfind, rfl⟩
  refine metadataUpdate_settles hdone hfind (hnode ▸ nofun) ?_
  rw [heq]
  refine ⟨src, _, hget, rfl, ?_, fun _ => ⟨rfl, rfl, rfl⟩⟩
  simp only [hnode, hkind, fileKind]

/-- The plan goes through, and leaves every path as its phases do. -/
lemma executePlan_synced (changes : Nat) :
    ∃ disk, executePlan fresh input.actions input.direction sender
        ⟨input.target.tree targetData, changes⟩ = .ok disk ∧
      ∀ path, Synced input sourceData targetData path (view disk path) := by
  have hstart : ∀ path, Kept input targetData path
      (view ⟨input.target.tree targetData, changes⟩ path) := fun path => Or.inl (find_tree _ _ path)
  obtain ⟨disk₁, hrun₁, hdisk₁⟩ := phase_settles (h.createDirs_settles fresh) hstart
  obtain ⟨disk₂, hrun₂, hdisk₂⟩ := phase_settles (h.transfers_settles fresh) hdisk₁
  obtain ⟨disk₃, hrun₃, hdisk₃⟩ := phase_settles h.fileUpdates_settles hdisk₂
  obtain ⟨disk₄, hrun₄, hdisk₄⟩ := phase_settles (h.deletions_settles fresh) hdisk₃
  obtain ⟨disk₅, hrun₅, hdisk₅⟩ := phase_settles h.dirUpdates_settles hdisk₄
  exact ⟨disk₅, bind_eq_ok.2 ⟨_, hrun₁, bind_eq_ok.2 ⟨_, hrun₂, bind_eq_ok.2 ⟨_, hrun₃,
    bind_eq_ok.2 ⟨_, hrun₄, hrun₅⟩⟩⟩⟩, hdisk₅⟩

end Phases

/-! ### The result -/

lemma final_of_synced (hget : input.source.get path = some src)
    (hx : Synced input sourceData targetData path x) : Final input sourceData path x := by
  rcases settled_cases hx with ⟨-, hfinal⟩ | ⟨hdir, hpruned⟩
  · exact hfinal
  rcases settled_cases ((settled_of_not_mem (not_mem_deletionPaths hget)).1 hpruned) with
    ⟨-, hleaf⟩ | ⟨hfile, htransferred⟩
  · exact hleaf.1
  rcases settled_cases htransferred with ⟨-, hleaf⟩ | ⟨htransfer, hcreated⟩
  · exact hleaf.1
  -- nothing is done at this path, so the plan skips it
  have hkeep : ∀ dst, input.target.get path = some dst → x = input.target.node targetData path := by
    intro dst htarget
    rcases (settled_of_not_mem (not_mem_createPaths_of_target htarget)).1 hcreated with hkept
      | ⟨hslack, -, -⟩
    · exact hkept
    · exact absurd hslack (not_or.2 ⟨hdir, not_mem_deletionPaths hget⟩)
  have hplan := input.sourcePlan path src
  generalize hactions : input.planSourceEntry (path, src) = planned at hplan
  cases hplan with
  | newDirectory hkind htarget =>
    exact absurd (PlanInput.mem_dirUpdatePaths_of_update hget
      (hactions ▸ List.mem_cons_of_mem _ List.mem_cons_self)) hdir
  | transfer hkind | link hkind =>
    exact absurd (PlanInput.mem_transferPaths hget (hactions ▸ List.mem_cons_self) rfl rfl)
      htransfer
  | updateDirectory hkind htarget =>
    exact absurd (PlanInput.mem_dirUpdatePaths_of_update hget (hactions ▸ List.mem_cons_self)) hdir
  | updateFile hkind htarget hsize hidentical =>
    exact absurd (PlanInput.mem_fileUpdatePaths hget (hactions ▸ List.mem_cons_self)) hfile
  | @keepFile size dst hkind htarget hsize hidentical hmode hmtime =>
    rw [hkeep dst htarget]
    refine ⟨src, _, hget, by rw [Manifest.node, htarget]; rfl, ?_, ?_⟩
    · simp only [hkind, hsize, fileKind, h.same _ _ _ _ hget htarget hkind hsize hidentical]
    · exact fun _ => ⟨hmode.symm, hmtime.1.symm, hmtime.2.symm⟩
  | @keepDirectory dst hkind htarget hmode hmtime =>
    rw [hkeep dst htarget]
    refine ⟨src, _, hget, by rw [Manifest.node, htarget]; rfl, ?_, ?_⟩
    · have hdirectory := (h.compatible.directories _ _ _ hget htarget).1 hkind
      simp only [hkind, hdirectory, fileKind]
    · exact fun _ => ⟨hmode.symm, hmtime.1.symm, hmtime.2.symm⟩
  | @keepLink target dst hkind htarget hsame =>
    rw [hkeep dst htarget]
    refine ⟨src, _, hget, by rw [Manifest.node, htarget]; rfl, ?_, ?_⟩
    · simp only [hkind, hsame, fileKind]
    · intro hnone
      rw [hkind] at hnone
      cases hnone

lemma target_only_of_synced (hsource : input.source.get path = none)
    (hx : Synced input sourceData targetData path x) :
    x = if input.isDelete = true then none else input.target.node targetData path := by
  have hnone := Option.eq_none_iff_forall_ne_some.1 hsource
  have hdir : path ∉ input.dirUpdatePaths :=
    not_mem_dirUpdatePaths fun src hget => absurd hget (hnone src)
  have hpruned := (settled_of_not_mem hdir).1 hx
  have hpath : path ≠ [] := by
    rintro rfl
    obtain ⟨root, hroot, -⟩ := h.root
    exact hnone root hroot
  rcases settled_cases hpruned with ⟨hmem, hgone⟩ | ⟨hmem, hstamped⟩
  · obtain ⟨deletion, hstep, rfl⟩ := List.mem_map.1 hmem
    obtain ⟨-, -, hdelete, -⟩ := PlanInput.planned_of_mem_deletions hstep
    rw [if_pos hdelete]
    exact hgone
  · have hkept : x = input.target.node targetData path := by
      rcases kept_of_stamped hsource hstamped with hkept | ⟨hslack, -, -⟩
      · exact hkept
      · exact absurd hslack (not_or.2 ⟨hdir, hmem⟩)
    cases htarget : input.target.get path with
    | none =>
      have hempty : input.target.node targetData path = none := by
        rw [Manifest.node, htarget, Option.map_none]
      rw [hkept, hempty, ite_self]
    | some dst =>
      rw [if_neg, hkept]
      exact fun hdelete => hmem (PlanInput.mem_deletionPaths hpath hsource htarget hdelete)

end Ready

end Terrarium.Sync
