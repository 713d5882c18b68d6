import Terrarium.Sync.Execute

/-!
# PlanCases — what a plan contains

The planner's comparison as a case distinction (`SourcePlan`, `Planned`), and the plan as the
executor reads it: the paths of each phase, and which entries of the two manifests they belong to.
-/

namespace Terrarium.Sync

namespace PlanInput

variable {input : PlanInput} {path : Text} {src : SyncEntry} {action : PlanAction}

lemma mem_planned : action ∈ input.planned ↔
      (∃ path src, input.source.get path = some src ∧ action ∈ input.planSourceEntry (path, src)) ∨
      ∃ path dst, input.target.get path = some dst ∧
      action ∈ input.planTargetEntry (path, dst) := by
  simp only [planned, List.mem_append, List.mem_flatMap, Prod.exists, Manifest.get_eq_some_iff]

lemma mem_actions : action ∈ input.actions ↔
    ∃ before ∈ input.planned, input.restoreDirectory before = action := by
  simp [actions]

/-- What is planned for an entry of the source, case by case. -/
inductive SourcePlan (input : PlanInput) (path : Text) (src : SyncEntry) :
    List PlanAction → Prop where
  | newDirectory : src.kind = .directory → input.target.get path = none →
      SourcePlan input path src
        [.createDir path src.mode, .updateDirMetadata path src.mode src.mtimeSecs src.mtimeNanos]
  | transfer {size : Nat} : src.kind = .file size →
      SourcePlan input path src [.transferFile path size src.mode src.mtimeSecs src.mtimeNanos]
  | link {target : Text} : src.kind = .symlink target →
      SourcePlan input path src [.createSymlink path target]
  | updateDirectory {dst : SyncEntry} : src.kind = .directory → input.target.get path = some dst →
      SourcePlan input path src [.updateDirMetadata path src.mode src.mtimeSecs src.mtimeNanos]
  | updateFile {size : Nat} {dst : SyncEntry} : src.kind = .file size →
    input.target.get path = some dst →
      dst.kind = .file size → input.isIdentical path src dst = true →
      SourcePlan input path src [.updateFileMetadata path src.mode src.mtimeSecs src.mtimeNanos]
  | keepFile {size : Nat} {dst : SyncEntry} : src.kind = .file size →
    input.target.get path = some dst →
      dst.kind = .file size → input.isIdentical path src dst = true →
      effectiveMode src.mode input.direction = dst.mode →
      src.mtimeSecs = dst.mtimeSecs ∧ src.mtimeNanos = dst.mtimeNanos →
      SourcePlan input path src [.skip path]
  | keepDirectory {dst : SyncEntry} : src.kind = .directory → input.target.get path = some dst →
      effectiveMode src.mode input.direction = dst.mode →
      src.mtimeSecs = dst.mtimeSecs ∧ src.mtimeNanos = dst.mtimeNanos →
      SourcePlan input path src [.skip path]
  | keepLink {target : Text} {dst : SyncEntry} : src.kind = .symlink target →
      input.target.get path = some dst → dst.kind = .symlink target →
      SourcePlan input path src [.skip path]

variable {dst : SyncEntry} {ι : Type} {pick : PlanAction → Option ι} {step : ι}

lemma differs_eq_false {src : SyncEntry}
    (h : ¬ (input.modeDiffers src dst || mtimeDiffers src dst) = true) :
    effectiveMode src.mode input.direction = dst.mode ∧
      src.mtimeSecs = dst.mtimeSecs ∧ src.mtimeNanos = dst.mtimeNanos := by
  simpa [modeDiffers, mtimeDiffers, and_assoc] using h

lemma sourcePlan (path : Text) (src : SyncEntry) :
    SourcePlan input path src (input.planSourceEntry (path, src)) := by
  unfold planSourceEntry
  cases hget : input.target.get path with
  | none =>
    simp only [planNew]
    cases hkind : src.kind with
    | directory => exact SourcePlan.newDirectory hkind hget
    | file size => exact SourcePlan.transfer hkind
    | symlink target => exact SourcePlan.link hkind
  | some dst =>
    simp only [planExisting]
    cases hkind : src.kind with
    | directory =>
      dsimp only
      split
      · exact SourcePlan.updateDirectory hkind hget
      next hsame =>
        obtain ⟨hmode, hmtime⟩ := differs_eq_false hsame
        exact SourcePlan.keepDirectory hkind hget hmode hmtime
    | symlink target =>
      simp only []
      split
      next hsame => exact SourcePlan.keepLink hkind hget hsame
      · exact SourcePlan.link hkind
    | file size =>
      simp only [planFileUpdate]
      split
      · exact SourcePlan.transfer hkind
      next hsize =>
        split
        next hidentical =>
          split
          · exact SourcePlan.updateFile hkind hget (not_not.1 hsize) hidentical
          next hsame =>
            obtain ⟨hmode, hmtime⟩ := differs_eq_false hsame
            exact SourcePlan.keepFile hkind hget (not_not.1 hsize) hidentical hmode hmtime
        · exact SourcePlan.transfer hkind

/-- A phase with no steps for skipped entries and directory attributes, the actions that are
exchanged. -/
structure Phase (pick : PlanAction → Option ι) : Prop where
  skip : ∀ path, pick (.skip path) = none
  update : ∀ path mode mtimeSecs mtimeNanos,
    pick (.updateDirMetadata path mode mtimeSecs mtimeNanos) = none

lemma phase_create : Phase asDirToCreate := ⟨fun _ => rfl, fun _ _ _ _ => rfl⟩
lemma phase_transfer : Phase asTransfer := ⟨fun _ => rfl, fun _ _ _ _ => rfl⟩
lemma phase_update : Phase asFileUpdate := ⟨fun _ => rfl, fun _ _ _ _ => rfl⟩
lemma phase_delete : Phase asDeletion := ⟨fun _ => rfl, fun _ _ _ _ => rfl⟩

lemma filterMap_actions (hphase : Phase pick) :
    input.actions.filterMap pick = input.planned.filterMap pick := by
  have hrestore : pick ∘ input.restoreDirectory = pick := by
    funext action
    cases action with
    | skip path =>
      simp only [Function.comp_apply, restoreDirectory]
      cases input.source.get path with
      | none => rfl
      | some src =>
        simp only []
        split
        · rw [hphase.update, hphase.skip]
        · rfl
    | _ => rfl
  rw [actions, List.filterMap_map, hrestore]

lemma mem_filterMap_actions (hphase : Phase pick) :
    step ∈ input.actions.filterMap pick ↔ ∃ action ∈ input.planned, pick action = some step := by
  rw [filterMap_actions hphase, List.mem_filterMap]

lemma mem_planTargetEntry : action ∈ input.planTargetEntry (path, dst) ↔ path ≠ [] ∧
    input.source.get path = none ∧
        ((input.isDelete = true ∧ action = .removeEntry path (dst.kind = .directory)) ∨
          (input.isDelete = false ∧ action = .skip path)) := by
  unfold planTargetEntry
  by_cases hpath : path ≠ [] ∧ input.source.get path = none
  · cases hdelete : input.isDelete <;> simp [hpath.1, hpath.2]
  · rw [if_neg hpath]
    rw [not_and] at hpath
    constructor
    · intro h
      cases h
    · rintro ⟨hne, hnone, -⟩
      exact absurd hnone (hpath hne)

/-- Everything that can be planned, with its reason. -/
inductive Planned (input : PlanInput) : PlanAction → Prop where
  | createDir {path : Text} {src : SyncEntry} : input.source.get path = some src →
    src.kind = .directory →
      input.target.get path = none → Planned input (.createDir path src.mode)
  | transferFile {path : Text} {src : SyncEntry} {size : Nat} : input.source.get path = some src →
      src.kind = .file size →
      Planned input (.transferFile path size src.mode src.mtimeSecs src.mtimeNanos)
  | createSymlink {path target : Text} {src : SyncEntry} : input.source.get path = some src →
      src.kind = .symlink target → Planned input (.createSymlink path target)
  | updateFile {path : Text} {src dst : SyncEntry} {size : Nat} : input.source.get path = some src →
      input.target.get path = some dst → src.kind = .file size → dst.kind = .file size →
      input.isIdentical path src dst = true →
      Planned input (.updateFileMetadata path src.mode src.mtimeSecs src.mtimeNanos)
  | updateDir {path : Text} {src : SyncEntry} : input.source.get path = some src →
    src.kind = .directory →
      Planned input (.updateDirMetadata path src.mode src.mtimeSecs src.mtimeNanos)
  | removeEntry {path : Text} {dst : SyncEntry} : path ≠ [] → input.source.get path = none →
      input.target.get path = some dst → input.isDelete = true →
      Planned input (.removeEntry path (dst.kind = .directory))
  | skip (path : Text) : Planned input (.skip path)

lemma planned_of_mem (h : action ∈ input.planned) : Planned input action := by
  rcases mem_planned.1 h with ⟨path, src, hget, hmem⟩ | ⟨path, dst, hget, hmem⟩
  · have hplan := input.sourcePlan path src
    generalize input.planSourceEntry (path, src) = planned at hmem hplan
    cases hplan with
    | newDirectory hkind htarget =>
      rcases List.mem_cons.1 hmem with rfl | hmem
      · exact Planned.createDir hget hkind htarget
      · obtain rfl := List.mem_singleton.1 hmem
        exact Planned.updateDir hget hkind
    | transfer hkind =>
      obtain rfl := List.mem_singleton.1 hmem
      exact Planned.transferFile hget hkind
    | link hkind =>
      obtain rfl := List.mem_singleton.1 hmem
      exact Planned.createSymlink hget hkind
    | updateDirectory hkind _ =>
      obtain rfl := List.mem_singleton.1 hmem
      exact Planned.updateDir hget hkind
    | updateFile hkind htarget hsize hidentical =>
      obtain rfl := List.mem_singleton.1 hmem
      exact Planned.updateFile hget htarget hkind hsize hidentical
    | keepFile _ _ _ _ _ _ | keepDirectory _ _ _ _ | keepLink _ _ _ =>
      obtain rfl := List.mem_singleton.1 hmem
      exact Planned.skip path
  · obtain ⟨hpath, hsource, ⟨hdelete, rfl⟩ | ⟨-, rfl⟩⟩ := mem_planTargetEntry.1 hmem
    · exact Planned.removeEntry hpath hsource hget hdelete
    · exact Planned.skip path

/-! ### The paths of each phase -/

def createPaths (input : PlanInput) : List Text :=
  (createDirs input.actions).map DirToCreate.relPath

def transferPaths (input : PlanInput) : List Text :=
  (transfersAndSymlinks input.actions).map TransferItem.relPath

def fileUpdatePaths (input : PlanInput) : List Text :=
  (fileMetaUpdates input.actions).map MetadataUpdate.relPath

def deletionPaths (input : PlanInput) : List Text :=
  (deletions input.actions).map Deletion.relPath

def dirUpdatePaths (input : PlanInput) : List Text :=
  (dirMetaUpdates input.actions).map MetadataUpdate.relPath

lemma planned_of_mem_createDirs {dir : DirToCreate} (h : dir ∈ createDirs input.actions) :
    Planned input (.createDir dir.relPath dir.mode) := by
  rw [createDirs, List.mem_insertionSort, mem_filterMap_actions phase_create] at h
  obtain ⟨action, hmem, hpick⟩ := h
  have hplanned := planned_of_mem hmem
  cases hplanned with
  | createDir hget hkind htarget =>
    cases hpick
    exact Planned.createDir hget hkind htarget
  | _ => cases hpick

lemma planned_of_mem_transfers {item : TransferItem}
    (h : item ∈ transfersAndSymlinks input.actions) :
    (∃ src size, input.source.get item.relPath = some src ∧ src.kind = .file size ∧
      item = .file item.relPath (size, src.mode, src.mtimeSecs, src.mtimeNanos)) ∨
    ∃ src target, input.source.get item.relPath = some src ∧ src.kind = .symlink target ∧
      item = .symlink item.relPath target := by
  rw [transfersAndSymlinks, mem_filterMap_actions phase_transfer] at h
  obtain ⟨action, hmem, hpick⟩ := h
  have hplanned := planned_of_mem hmem
  cases hplanned with
  | transferFile hget hkind =>
    cases hpick
    exact Or.inl ⟨_, _, hget, hkind, rfl⟩
  | createSymlink hget hkind =>
    cases hpick
    exact Or.inr ⟨_, _, hget, hkind, rfl⟩
  | _ => cases hpick

lemma planned_of_mem_fileUpdates {update : MetadataUpdate}
    (h : update ∈ fileMetaUpdates input.actions) :
    ∃ src dst size, input.source.get update.relPath = some src ∧
    input.target.get update.relPath = some dst ∧
      src.kind = .file size ∧ dst.kind = .file size ∧
      input.isIdentical update.relPath src dst = true ∧
      update = ⟨update.relPath, src.mode, src.mtimeSecs, src.mtimeNanos⟩ := by
  rw [fileMetaUpdates, mem_filterMap_actions phase_update] at h
  obtain ⟨action, hmem, hpick⟩ := h
  have hplanned := planned_of_mem hmem
  cases hplanned with
  | updateFile hget htarget hsrc hdst hidentical =>
    cases hpick
    exact ⟨_, _, _, hget, htarget, hsrc, hdst, hidentical, rfl⟩
  | _ => cases hpick

lemma planned_of_mem_deletions {deletion : Deletion} (h : deletion ∈ deletions input.actions) :
    deletion.relPath ≠ [] ∧ input.source.get deletion.relPath = none ∧ input.isDelete = true ∧
      ∃ dst, input.target.get deletion.relPath = some dst ∧
      deletion.isDir = decide (dst.kind = .directory) := by
  rw [deletions, List.mem_insertionSort, mem_filterMap_actions phase_delete] at h
  obtain ⟨action, hmem, hpick⟩ := h
  have hplanned := planned_of_mem hmem
  cases hplanned with
  | removeEntry hpath hsource htarget hdelete =>
    cases hpick
    exact ⟨hpath, hsource, hdelete, _, htarget, rfl⟩
  | _ => cases hpick

lemma planned_of_mem_dirUpdates {update : MetadataUpdate}
    (h : update ∈ dirMetaUpdates input.actions) :
    ∃ src, input.source.get update.relPath = some src ∧ src.kind = .directory ∧
      update = ⟨update.relPath, src.mode, src.mtimeSecs, src.mtimeNanos⟩ := by
  rw [dirMetaUpdates, List.mem_insertionSort, List.mem_filterMap] at h
  obtain ⟨action, hmem, hpick⟩ := h
  obtain ⟨before, hbefore, rfl⟩ := mem_actions.1 hmem
  have hplanned := planned_of_mem hbefore
  cases hplanned with
  | updateDir hget hkind =>
    cases hpick
    exact ⟨_, hget, hkind, rfl⟩
  | skip path =>
    -- a directory whose times are restored
    simp only [restoreDirectory] at hpick
    split at hpick
    next src hget =>
      split at hpick
      next hrestore =>
        cases hpick
        exact ⟨src, hget, hrestore.2, rfl⟩
      · cases hpick
    · cases hpick
  | _ => cases hpick

lemma mem_createPaths (hget : input.source.get path = some src)
    (hkind : src.kind = .directory) (htarget : input.target.get path = none) :
    path ∈ input.createPaths := by
  refine List.mem_map.2 ⟨⟨path, src.mode⟩, ?_, rfl⟩
  rw [createDirs, List.mem_insertionSort, mem_filterMap_actions phase_create]
  refine ⟨.createDir path src.mode, mem_planned.2 (Or.inl ⟨path, src, hget, ?_⟩), rfl⟩
  simp [planSourceEntry, htarget, planNew, hkind]

lemma mem_deletionPaths (hpath : path ≠ []) (hsource : input.source.get path = none)
    (htarget : input.target.get path = some dst) (hdelete : input.isDelete = true) :
    path ∈ input.deletionPaths := by
  refine List.mem_map.2 ⟨⟨path, decide (dst.kind = .directory)⟩, ?_, rfl⟩
  rw [deletions, List.mem_insertionSort, mem_filterMap_actions phase_delete]
  refine ⟨.removeEntry path (dst.kind = .directory),
    mem_planned.2 (Or.inr ⟨path, dst, htarget, ?_⟩), rfl⟩
  exact mem_planTargetEntry.2 ⟨hpath, hsource, Or.inl ⟨hdelete, rfl⟩⟩

lemma mem_transferPaths {item : TransferItem}
    (hget : input.source.get path = some src) (hmem : action ∈ input.planSourceEntry (path, src))
    (hpick : asTransfer action = some item) (hitem : item.relPath = path) :
    path ∈ input.transferPaths :=
  List.mem_map.2 ⟨item, (mem_filterMap_actions phase_transfer).2
    ⟨action, mem_planned.2 (Or.inl ⟨path, src, hget, hmem⟩), hpick⟩, hitem⟩

lemma mem_fileUpdatePaths (hget : input.source.get path = some src)
    (hmem : .updateFileMetadata path src.mode src.mtimeSecs src.mtimeNanos ∈
      input.planSourceEntry (path, src)) : path ∈ input.fileUpdatePaths :=
  List.mem_map.2 ⟨⟨path, src.mode, src.mtimeSecs, src.mtimeNanos⟩,
    (mem_filterMap_actions phase_update).2
      ⟨_, mem_planned.2 (Or.inl ⟨path, src, hget, hmem⟩), rfl⟩, rfl⟩

lemma mem_dirUpdatePaths_of_update (hget : input.source.get path = some src)
    (hmem : .updateDirMetadata path src.mode src.mtimeSecs src.mtimeNanos ∈
      input.planSourceEntry (path, src)) : path ∈ input.dirUpdatePaths := by
  refine List.mem_map.2 ⟨⟨path, src.mode, src.mtimeSecs, src.mtimeNanos⟩, ?_, rfl⟩
  rw [dirMetaUpdates, List.mem_insertionSort, List.mem_filterMap]
  exact ⟨_, mem_actions.2 ⟨_, mem_planned.2 (Or.inl ⟨path, src, hget, hmem⟩), rfl⟩, rfl⟩

/-- A directory of the source in which something changes has its attributes set in the end. -/
lemma mem_dirUpdatePaths_of_changed (hget : input.source.get path = some src)
    (hkind : src.kind = .directory)
    (hchanged : path ∈ input.changedParents) : path ∈ input.dirUpdatePaths := by
  have hplan := input.sourcePlan path src
  generalize hactions : input.planSourceEntry (path, src) = planned at hplan
  have hskipped : planned = [.skip path] → path ∈ input.dirUpdatePaths := by
    rintro rfl
    refine List.mem_map.2 ⟨⟨path, src.mode, src.mtimeSecs, src.mtimeNanos⟩, ?_, rfl⟩
    rw [dirMetaUpdates, List.mem_insertionSort, List.mem_filterMap]
    have hmem : .skip path ∈ input.planned :=
      mem_planned.2 (Or.inl ⟨path, src, hget, hactions ▸ List.mem_cons_self⟩)
    refine ⟨_, mem_actions.2 ⟨_, hmem, rfl⟩, ?_⟩
    simp [restoreDirectory, hget, hchanged, hkind, asDirUpdate]
  cases hplan with
  | newDirectory _ _ =>
    exact mem_dirUpdatePaths_of_update hget (hactions ▸ List.mem_cons_of_mem _ List.mem_cons_self)
  | updateDirectory _ _ => exact mem_dirUpdatePaths_of_update hget (hactions ▸ List.mem_cons_self)
  | transfer hother | link hother | updateFile hother _ _ _ =>
    rw [hkind] at hother
    cases hother
  | keepFile _ _ _ _ _ _ | keepDirectory _ _ _ _ | keepLink _ _ _ => exact hskipped rfl

lemma changedParents_of_mem {parent : Text} (hmem : action ∈ input.planned)
    (hparent : findChangedParent action = some parent) : parent ∈ input.changedParents :=
  List.mem_filterMap.2 ⟨action, hmem, hparent⟩

lemma changedParents_of_step (hphase : Phase pick) (hmem : step ∈ input.actions.filterMap pick)
    (hparent : ∀ action, pick action = some step →
      findChangedParent action = if path = [] then none else some (parentPath path))
    (hpath : path ≠ []) : parentPath path ∈ input.changedParents := by
  obtain ⟨action, haction, hpick⟩ := (mem_filterMap_actions hphase).1 hmem
  exact changedParents_of_mem haction ((hparent action hpick).trans (if_neg hpath))

lemma asDeletion_planSourceEntry : ∀ action ∈ input.planSourceEntry
    (path, src), asDeletion action = none := by
  have hplan := input.sourcePlan path src
  generalize input.planSourceEntry (path, src) = planned at hplan
  intro action hmem
  cases hplan with
  | newDirectory _ _ =>
    rcases List.mem_cons.1 hmem with rfl | hmem
    · rfl
    · obtain rfl := List.mem_singleton.1 hmem
      rfl
  | _ =>
    obtain rfl := List.mem_singleton.1 hmem
    rfl

lemma deletions_sublist (items : List (Text × SyncEntry)) :
    List.Sublist (((items.flatMap input.planTargetEntry).filterMap asDeletion).map Deletion.relPath)
      (items.map Prod.fst) := by
  induction items with
  | nil => exact List.Sublist.slnil
  | cons item items ih =>
    have hitem :
        ((input.planTargetEntry item).filterMap asDeletion).map Deletion.relPath = [item.1] ∨
        ((input.planTargetEntry item).filterMap asDeletion).map Deletion.relPath = [] := by
      unfold planTargetEntry
      split
      · split
        · exact Or.inl rfl
        · exact Or.inr rfl
      · exact Or.inr rfl
    rw [List.flatMap_cons, List.filterMap_append, List.map_append, List.map_cons]
    rcases hitem with hitem | hitem
    · rw [hitem]
      exact ih.cons_cons item.1
    · rw [hitem]
      exact ih.cons item.1

lemma nodup_deletionPaths (input : PlanInput) : input.deletionPaths.Nodup := by
  have hperm :
      input.deletionPaths.Perm ((input.actions.filterMap asDeletion).map Deletion.relPath) :=
    (List.perm_insertionSort _ _).map _
  have hsource :
      (input.source.entries.flatMap input.planSourceEntry).filterMap asDeletion = [] := by
    rw [List.filterMap_eq_nil_iff]
    intro action hmem
    obtain ⟨item, -, haction⟩ := List.mem_flatMap.1 hmem
    exact asDeletion_planSourceEntry action haction
  rw [hperm.nodup_iff, filterMap_actions phase_delete, planned,
    List.filterMap_append, hsource, List.nil_append]
  exact (deletions_sublist input.target.entries).nodup input.target.nodup

end PlanInput

end Terrarium.Sync
