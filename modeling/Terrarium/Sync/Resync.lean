import Terrarium.Sync.Convergence
import Terrarium.Sync.LinkRecheck

/-!
# Resync — planning again after a sync

After an executed plan the target is scanned and the same sync is planned once more.

* `comparing` : the comparison of checksums the planner makes, on the contents of both sides
* `scanResult_get`, `compatible_scanResult` : the new manifest, and that the planner accepts it
* `linkCheck_again` : a download that deletes nothing passes its link check again
* `actions_all_skip` : the second plan has nothing to do
-/

namespace Terrarium.Sync

open Fallible Phases

variable {C D : Type} [DecidableEq D]

def comparing (digest : C → D) (sourceData : Text → C) (tree : List (Text × FileNode C))
    (path : Text) : Bool :=
  match Directory.find tree path with
  | some ⟨.file _ contents, _, _, _⟩ => digest (sourceData path) = digest contents
  | _ => false

/-- The sync of one source into one target, both with their contents. -/
structure SyncJob (C : Type) where
  source : Manifest
  target : Manifest
  sourceData : Text → C
  targetData : Text → C
  isChecksum : Bool
  isDelete : Bool
  direction : SyncDirection

namespace SyncJob

variable (job : SyncJob C) (digest : C → D)

def input : PlanInput :=
  ⟨job.source, job.target, job.isChecksum, job.isDelete, job.direction,
    comparing digest job.sourceData (job.target.tree job.targetData)⟩

/-- The plan of the same sync for what it has left. -/
def inputAgain (tree : List (Text × FileNode C)) : PlanInput :=
  ⟨job.source, scanResult tree, job.isChecksum, job.isDelete, job.direction,
    comparing digest job.sourceData tree⟩

/-- The sender reports each file as it was when the source was scanned. -/
def Quiet (sender : Sender C) : Prop :=
  ∀ path src size, job.source.get path = some src → src.kind = .file size →
    (sender.size path, sender.mode path &&& 0o777, sender.mtimeSecs path, sender.mtimeNanos path) =
        (size, src.mode, src.mtimeSecs, src.mtimeNanos) ∧
      sender.contents path = job.sourceData path

/-- What the planner takes for equal contents is equal: files of one size with the same modification
time or, by checksum, with the same digest. -/
def Trusted : Prop :=
  ∀ path src dst size, job.source.get path = some src → job.target.get path = some dst →
    src.kind = .file size → dst.kind = .file size →
    (if job.isChecksum = true then digest (job.sourceData path) = digest (job.targetData path)
      else src.mtimeSecs = dst.mtimeSecs ∧ src.mtimeNanos = dst.mtimeNanos) →
    job.sourceData path = job.targetData path

def SourceIsDirectory : Prop :=
  ∃ entry, job.source.get [] = some entry ∧ entry.kind = .directory

end SyncJob

/-! ## The second manifest -/

section Scan

variable {tree : List (Text × FileNode C)}

theorem scanResult_get (path : Text) :
    (scanResult tree).get path = (Directory.find tree path).map (FileNode.entry path) := by
  apply Option.ext
  intro entry
  rw [Manifest.get_eq_some_iff]
  simp only [scanResult, List.mem_filterMap, Option.map_eq_some_iff, Prod.mk.injEq]
  constructor
  · rintro ⟨_, -, node, hfind, rfl, rfl⟩
    exact ⟨node, hfind, rfl⟩
  · rintro ⟨node, hfind, rfl⟩
    refine ⟨path, ?_, node, hfind, rfl, rfl⟩
    rw [treePaths, List.mem_insertionSort, List.mem_dedup]
    exact List.mem_map.2 ⟨_, Directory.mem_of_find hfind, rfl⟩

end Scan

/-! ## After the sync -/

/-- What a sync leaves at every path. -/
structure Converged (input : PlanInput) (sourceData targetData : Text → C)
    (tree : List (Text × FileNode C)) : Prop where
  source : ∀ path src, input.source.get path = some src →
    Final input sourceData path (Directory.find tree path)
  target : ∀ path, input.source.get path = none →
    Directory.find tree path = if input.isDelete = true then none
      else input.target.node targetData path

lemma entryKind_fileKind (kind : SyncEntryKind) (contents : C) :
    (fileKind kind contents).entryKind = kind := by
  cases kind with
  | file size | directory | symlink target => rfl

namespace Converged

variable {input : PlanInput} {sourceData targetData : Text → C} {tree : List (Text × FileNode C)}

variable {dst : SyncEntry} {path : Text}

lemma hostSide_of_repeated {src : SyncEntry} (hkind : dst.kind = src.kind) :
    hostSide (some src) (some dst) = none := by
  unfold hostSide guestSide
  rw [Option.bind_some, hkind]
  cases hlink : src.kind.linkTarget with
  | none => rfl
  | some target => simp [hlink]

lemma hostSide_congr {dst before : Option SyncEntry}
    (hkind : dst.map SyncEntry.kind = before.map SyncEntry.kind) :
    hostSide none dst = hostSide none before := by
  have hbind : ∀ entry : Option SyncEntry, (entry.bind fun entry => entry.kind.linkTarget) =
      (entry.map SyncEntry.kind).bind SyncEntryKind.linkTarget := by
    intro entry
    cases entry <;> rfl
  rw [hostSide, hostSide, hbind, hbind, hkind]

variable (h : Converged input sourceData targetData tree)

include h

lemma get_source {src : SyncEntry} (hget : input.source.get path = some src) :
    ∃ dst, (scanResult tree).get path = some dst ∧ dst.relativePath = path ∧ dst.kind = src.kind ∧
      (src.kind.linkTarget = none → dst.mode = effectiveMode src.mode input.direction ∧
        dst.mtimeSecs = src.mtimeSecs ∧ dst.mtimeNanos = src.mtimeNanos) := by
  obtain ⟨src', node, hget', hfind, hkind, hattributes⟩ := h.source path src hget
  cases hget.symm.trans hget'
  refine ⟨node.entry path, by rw [scanResult_get, hfind, Option.map_some], rfl, ?_, hattributes⟩
  change node.kind.entryKind = src.kind
  rw [hkind, entryKind_fileKind]

/-- Anything else in it is the target's own, and nothing was to be deleted. -/
lemma get_target (hsource : input.source.get path = none)
    (hget : (scanResult tree).get path = some dst) :
    input.isDelete = false ∧ dst.relativePath = path ∧
      ∃ before, input.target.get path = some before ∧ dst.kind = before.kind := by
  rw [scanResult_get, h.target path hsource] at hget
  cases hdelete : input.isDelete with
  | true =>
    rw [hdelete, if_pos rfl] at hget
    cases hget
  | false =>
    rw [hdelete, if_neg (by decide)] at hget
    obtain ⟨node, hnode, rfl⟩ := Option.map_eq_some_iff.1 hget
    obtain ⟨before, hbefore, rfl⟩ := Option.map_eq_some_iff.1 hnode
    exact ⟨rfl, rfl, before, hbefore, entryKind_fileKind _ _⟩

lemma get_target_of (hsource : input.source.get path = none) (hdelete : input.isDelete = false)
    {before : SyncEntry} (hbefore : input.target.get path = some before) :
    ∃ dst, (scanResult tree).get path = some dst ∧ dst.kind = before.kind := by
  have hfind : Directory.find tree path = input.target.node targetData path := by
    rw [h.target path hsource, hdelete, if_neg (by decide)]
  refine ⟨_, by rw [scanResult_get, hfind, Manifest.node, hbefore]; rfl, ?_⟩
  exact entryKind_fileKind _ _

/-! ### The planner's checks -/

variable {sender : Sender C}

lemma hasDirectoryParent_again (hready : Ready input sourceData targetData sender)
    (hpath : path ≠ []) (hget : (scanResult tree).get path = some dst) :
    hasDirectoryParent (scanResult tree) path = true := by
  suffices hparent : ∃ parent, (scanResult tree).get (parentPath path) = some parent ∧
      parent.kind = .directory by
    obtain ⟨parent, hfound, hkind⟩ := hparent
    simp [hasDirectoryParent, hfound, hkind]
  have hof_source : ∀ src, input.source.get (parentPath path) = some src → src.kind = .directory →
      ∃ parent, (scanResult tree).get (parentPath path) = some parent ∧
      parent.kind = .directory := by
    intro src hsrc hkind
    obtain ⟨parent, hfound, -, hsame, -⟩ := h.get_source hsrc
    exact ⟨parent, hfound, hsame.trans hkind⟩
  cases hsource : input.source.get path with
  | some src =>
    obtain ⟨parent, hfound, hkind⟩ := hready.source_parent hsource hpath
    exact hof_source parent hfound hkind
  | none =>
    obtain ⟨hdelete, -, before, hbefore, -⟩ := h.get_target hsource hget
    rcases hready.target_parent hpath hbefore with ⟨src, hsrc, hkind⟩
      | ⟨-, hsrc, parent, hparent, hkind⟩
    · exact hof_source src hsrc hkind
    · obtain ⟨after, hafter, hsame⟩ := h.get_target_of hsrc hdelete hparent
      exact ⟨after, hafter, hsame.trans hkind⟩

theorem compatible_scanResult (hready : Ready input sourceData targetData sender) :
    Compatible input.source (scanResult tree) where
  source_valid := hready.compatible.source_valid
  target_valid := by
    intro path dst hget
    cases hsource : input.source.get path with
    | some src =>
      obtain ⟨dst', hget', hown, hkind, -⟩ := h.get_source hsource
      cases hget.symm.trans hget'
      have hvalid := hready.compatible.source_valid _ _ hsource
      exact ⟨hvalid.relative, hown, fun size hsize => hvalid.size_le size (hkind.symm.trans hsize),
        fun hpath => h.hasDirectoryParent_again hready hpath hget⟩
    | none =>
      obtain ⟨-, hown, before, hbefore, hkind⟩ := h.get_target hsource hget
      have hvalid := hready.compatible.target_valid _ _ hbefore
      exact ⟨hvalid.relative, hown, fun size hsize => hvalid.size_le size (hkind.symm.trans hsize),
        fun hpath => h.hasDirectoryParent_again hready hpath hget⟩
  directories := by
    intro path src dst hsrc hdst
    obtain ⟨dst', hget', -, hkind, -⟩ := h.get_source hsrc
    cases hdst.symm.trans hget'
    rw [hkind]

/-! ### The link check -/

/-- The sync only removes links: the path of a link was one before. -/
lemma isLinkPath_of_again (hlink : IsLinkPath input.source (scanResult tree) path) :
    IsLinkPath input.source input.target path := by
  obtain ⟨entry, hget | hget, htarget⟩ := hlink
  · exact ⟨entry, Or.inl hget, htarget⟩
  · cases hsource : input.source.get path with
    | some src =>
      obtain ⟨dst, hdst, -, hkind, -⟩ := h.get_source hsource
      cases hget.symm.trans hdst
      exact ⟨src, Or.inl hsource, hkind ▸ htarget⟩
    | none =>
      obtain ⟨-, -, before, hbefore, hkind⟩ := h.get_target hsource hget
      exact ⟨before, Or.inr hbefore, hkind ▸ htarget⟩

lemma linkPaths_again :
    (linkPaths input.source (scanResult tree)).Sublist (linkPaths input.source input.target) := by
  have hnodup : (linkPaths input.source (scanResult tree)).Nodup := by
    rw [linkPaths, (List.perm_insertionSort _ _).nodup_iff]
    exact List.nodup_dedup _
  refine List.sublist_of_subperm_of_pairwise (List.subperm_of_subset hnodup ?_)
    (List.pairwise_insertionSort (· ≤ ·) _) (List.pairwise_insertionSort (· ≤ ·) _)
  intro path hmem
  exact mem_linkPaths.2 (h.isLinkPath_of_again (mem_linkPaths.1 hmem))

lemma fewerSides_again (hdelete : input.isDelete = false) (path : Text) :
    FewerSides (Directory.find (downloadLinks input.source (scanResult tree)) path)
      (Directory.find (downloadLinks input.source input.target) path) := by
  by_cases hagain : IsLinkPath input.source (scanResult tree) path
  · rw [find_downloadLinks.2 ⟨hagain, rfl⟩,
      find_downloadLinks.2 ⟨h.isLinkPath_of_again hagain, rfl⟩]
    refine FewerSides.link ?_
    cases hsource : input.source.get path with
    | some src =>
      obtain ⟨dst, hdst, -, hkind, -⟩ := h.get_source hsource
      rw [hdst, linkSides, hostSide_of_repeated hkind, Option.toList_none, List.append_nil]
      exact List.sublist_append_left _ _
    | none =>
      have hsame : ((scanResult tree).get path).map SyncEntry.kind =
          (input.target.get path).map SyncEntry.kind := by
        cases hbefore : input.target.get path with
        | some before =>
          obtain ⟨dst, hdst, hkind⟩ := h.get_target_of hsource hdelete hbefore
          rw [hdst, Option.map_some, Option.map_some, hkind]
        | none =>
          cases hdst : (scanResult tree).get path with
          | none => rfl
          | some dst =>
            obtain ⟨-, -, before, hbefore', -⟩ := h.get_target hsource hdst
            rw [hbefore] at hbefore'
            cases hbefore'
      rw [linkSides, linkSides, hostSide_congr hsame]
  · rw [find_downloadLinks_eq_none.2 hagain]
    by_cases hlink : IsLinkPath input.source input.target path
    · rw [find_downloadLinks.2 ⟨hlink, rfl⟩]
      -- a link of the target that the source replaced by a file
      obtain ⟨entry, hget | hget, htarget⟩ := hlink
      · exact absurd ⟨entry, Or.inl hget, htarget⟩ hagain
      · cases hsource : input.source.get path with
        | none =>
          obtain ⟨dst, hdst, hkind⟩ := h.get_target_of hsource hdelete hget
          exact absurd ⟨dst, Or.inr hdst, hkind ▸ htarget⟩ hagain
        | some src =>
          have hplain : src.kind.linkTarget = none := by
            cases hsrc : src.kind.linkTarget with
            | none => rfl
            | some target => exact absurd ⟨src, Or.inl hsource, by rw [hsrc]; rfl⟩ hagain
          have hsides : linkSides (some src) (input.target.get path) =
              ⟨none, .guest⟩ :: (hostSide (some src) (input.target.get path)).toList := by
            rw [linkSides, guestSide, Option.map_some, hplain]
            rfl
          rw [hsides]
          exact FewerSides.replaced _
    · rw [find_downloadLinks_eq_none.2 hlink]
      exact FewerSides.plain

theorem linkCheck_again (hdelete : input.isDelete = false) {resolveComponent : ResolveComponent}
    (hcheck : validateDownloadLinks input.source input.target resolveComponent = .ok ()) :
    validateDownloadLinks input.source (scanResult tree) resolveComponent = .ok () :=
  linkCheck_fewer (h.fewerSides_again hdelete) h.linkPaths_again hcheck

end Converged

/-! ## The second plan -/

namespace SyncJob

variable {job : SyncJob C} {digest : C → D} {tree : List (Text × FileNode C)}

section

variable (h : Converged (job.input digest) job.sourceData job.targetData tree) {action : PlanAction}

include h

lemma planExisting_skip {path : Text} {src dst : SyncEntry}
    (hsource : job.source.get path = some src) (hget : (scanResult tree).get path = some dst) :
    (job.inputAgain digest tree).planExisting path src dst = .skip path := by
  obtain ⟨dst', hget', -, hkind, hattributes⟩ := h.get_source hsource
  cases hget.symm.trans hget'
  have hsame : src.kind.linkTarget = none →
      ((job.inputAgain digest tree).modeDiffers src dst || PlanInput.mtimeDiffers src dst) =
      false := by
    intro hplain
    obtain ⟨hmode, hsecs, hnanos⟩ := hattributes hplain
    have hmode' : effectiveMode src.mode job.direction = dst.mode := hmode.symm
    simp [PlanInput.modeDiffers, PlanInput.mtimeDiffers, inputAgain, hmode', hsecs, hnanos]
  unfold PlanInput.planExisting
  cases hsrc : src.kind with
  | directory =>
    simp only [hsame (by rw [hsrc]; rfl)]
    rfl
  | symlink target => simp only [hkind, hsrc, if_true]
  | file size =>
    have hplain : src.kind.linkTarget = none := by
      rw [hsrc]
      rfl
    have hidentical : (job.inputAgain digest tree).isIdentical path src dst = true := by
      unfold PlanInput.isIdentical
      split
      · -- the transferred contents have the source's checksum
        obtain ⟨src', node, hsource', hfind, hnode, -⟩ := h.source path src hsource
        cases hsource.symm.trans hsource'
        rcases node with ⟨kind, mode, mtimeSecs, mtimeNanos⟩
        rw [hsrc] at hnode
        cases hnode
        simp [inputAgain, comparing, hfind]
      · obtain ⟨-, hsecs, hnanos⟩ := hattributes hplain
        simp [PlanInput.mtimeDiffers, hsecs, hnanos]
    have hsize : ¬ dst.kind ≠ .file size := not_not.2 (hkind.trans hsrc)
    simp only [PlanInput.planFileUpdate, if_neg hsize, if_pos hidentical, hsame hplain]
    rfl

lemma planned_all_skip (hmem : action ∈ (job.inputAgain digest tree).planned) :
    ∃ path, action = .skip path := by
  rcases PlanInput.mem_planned.1 hmem with ⟨path, src, hget, haction⟩ | ⟨path, dst, hget, haction⟩
  · obtain ⟨dst, hdst, -⟩ := h.get_source hget
    have hplan : (job.inputAgain digest tree).planSourceEntry (path, src) = [.skip path] := by
      have htarget : (job.inputAgain digest tree).target.get path = some dst := hdst
      rw [PlanInput.planSourceEntry, htarget]
      simp only [planExisting_skip h hget hdst]
    rw [hplan] at haction
    exact ⟨path, List.mem_singleton.1 haction⟩
  · obtain ⟨-, hsource, ⟨hdelete, -⟩ | ⟨-, rfl⟩⟩ := PlanInput.mem_planTargetEntry.1 haction
    · obtain ⟨hkeep, -⟩ := h.get_target hsource hget
      exact Bool.noConfusion (hdelete.symm.trans hkeep)
    · exact ⟨path, rfl⟩

/-- Nothing is created, replaced or removed, so no directory has to be restored either. -/
theorem actions_all_skip (hmem : action ∈ (job.inputAgain digest tree).actions) :
    ∃ path, action = .skip path := by
  have hparents : (job.inputAgain digest tree).changedParents = [] := by
    rw [PlanInput.changedParents, List.filterMap_eq_nil_iff]
    intro action hplanned
    obtain ⟨path, rfl⟩ := planned_all_skip h hplanned
    rfl
  obtain ⟨before, hplanned, rfl⟩ := PlanInput.mem_actions.1 hmem
  obtain ⟨path, rfl⟩ := planned_all_skip h hplanned
  refine ⟨path, ?_⟩
  simp only [PlanInput.restoreDirectory, hparents]
  cases (job.inputAgain digest tree).source.get path with
  | none => rfl
  | some src => simp

end

/-! ## Both runs -/

variable {sender : Sender C} {plan : List PlanAction}

lemma trusted_of_isIdentical {path : Text} {src dst : SyncEntry} {size : Nat}
    (hget : job.target.get path = some dst) (hdst : dst.kind = .file size)
    (h : (job.input digest).isIdentical path src dst = true) :
    if job.isChecksum = true then digest (job.sourceData path) = digest (job.targetData path)
    else src.mtimeSecs = dst.mtimeSecs ∧ src.mtimeNanos = dst.mtimeNanos := by
  have hfind : Directory.find (job.target.tree job.targetData) path =
      some ⟨.file size (job.targetData path), dst.mode, dst.mtimeSecs, dst.mtimeNanos⟩ := by
    rw [find_tree, Manifest.node, hget, Option.map_some, hdst]
    rfl
  unfold PlanInput.isIdentical at h
  split
  next hchecksum =>
    rw [show (job.input digest).isChecksum = true from hchecksum, if_pos rfl] at h
    simpa [input, comparing, hfind] using h
  next hchecksum =>
    rw [if_neg (show ¬ (job.input digest).isChecksum = true from hchecksum)] at h
    simpa [PlanInput.mtimeDiffers] using h

lemma ready_of_plan (hroot : job.SourceIsDirectory)
    (hplan : buildPlan (job.input digest) exactNames = .ok plan) (hquiet : job.Quiet sender)
    (htrusted : job.Trusted digest) :
    Ready (job.input digest) job.sourceData job.targetData sender := by
  obtain ⟨hcompatible, hlinks, -⟩ := buildPlan_eq_ok.1 hplan
  refine ⟨hcompatible, hroot, hquiet, ?_, ?_⟩
  · intro path src dst size hsrc hdst hkind hkind' hidentical
    exact htrusted path src dst size hsrc hdst hkind hkind'
      (trusted_of_isIdentical hdst hkind' hidentical)
  · intro path src target hsrc hkind
    obtain ⟨root, hget, hdirectory⟩ := hroot
    cases hdirection : job.direction with
    | hostToGuest => exact Or.inl hdirection
    | guestToHost rootName siblings =>
      right
      rw [show (job.input digest).direction =
        .guestToHost rootName siblings from hdirection] at hlinks
      refine validTarget_of_linkCheck hcompatible
        ((validatePlanLinks_download hget hdirectory).1 hlinks) ?_ hsrc hkind
      rintro rfl
      cases hget.symm.trans hsrc
      rw [hdirectory] at hkind
      cases hkind

/-- The second plan: nothing to do, unless a download that deleted links no longer passes the link
check. -/
lemma buildPlan_again (h : Converged (job.input digest) job.sourceData job.targetData tree)
    (hready : Ready (job.input digest) job.sourceData job.targetData sender)
    (hplan : buildPlan (job.input digest) exactNames = .ok plan) :
    (∃ plan', buildPlan (job.inputAgain digest tree) exactNames = .ok plan' ∧
      ∀ action ∈ plan', ∃ path, action = .skip path) ∨
    (job.isDelete = true ∧ (∃ rootName siblings, job.direction = .guestToHost rootName siblings) ∧
      ∃ text, validateDownloadLinks job.source (scanResult tree) exactNames =
      .error (.message text) ∧
        buildPlan (job.inputAgain digest tree) exactNames = .error text) := by
  obtain ⟨root, hget, hdirectory⟩ := hready.root
  have hfinish : validatePlanLinks job.source (scanResult tree) exactNames job.direction = .ok () →
      ∃ plan', buildPlan (job.inputAgain digest tree) exactNames = .ok plan' ∧
        ∀ action ∈ plan', ∃ path, action = .skip path := fun hlinks =>
    ⟨_, buildPlan_eq_ok.2 ⟨h.compatible_scanResult hready, hlinks, rfl⟩,
      fun _ hmem => actions_all_skip h hmem⟩
  cases hdirection : job.direction with
  | hostToGuest => exact Or.inl (hfinish (by rw [hdirection]; rfl))
  | guestToHost rootName siblings =>
    obtain ⟨-, hlinks, -⟩ := buildPlan_eq_ok.1 hplan
    rw [show (job.input digest).direction =
      .guestToHost rootName siblings from hdirection] at hlinks
    have hfirst := (validatePlanLinks_download hget hdirectory).1 hlinks
    cases hcheck : validateDownloadLinks job.source (scanResult tree) exactNames with
    | ok _ =>
      refine Or.inl (hfinish ?_)
      rw [hdirection]
      exact (validatePlanLinks_download hget hdirectory).2 hcheck
    | error e =>
      right
      have hdelete : job.isDelete = true := by
        by_contra hkeep
        have hagain := h.linkCheck_again (eq_false_of_ne_true hkeep) hfirst
        cases hcheck.symm.trans hagain
      cases e with
      | unfinished => exact absurd hcheck (linkCheck_finishes _ _ _)
      | message text =>
        refine ⟨hdelete, ⟨rootName, siblings, rfl⟩, text, rfl,
          buildPlan_refused (h.compatible_scanResult hready) ?_⟩
        have hroot : job.source.get [] = some root := hget
        change validatePlanLinks job.source (scanResult tree) exactNames job.direction = _
        rw [hdirection, validatePlanLinks_eq hroot hdirectory, hcheck]
        rfl

/-- Every plan can be executed and makes the target equal to the source, and the plan made after it
has nothing to do.  The one exception is a download with `--delete`: it removes links of the host
which the check of the guest's links relied on, so that the second plan may be refused by that
check. -/
theorem sync_converges (job : SyncJob C) (digest : C → D) (fresh : Nat → Attributes)
    (sender : Sender C) (changes : Nat) (plan : List PlanAction) (hroot : job.SourceIsDirectory)
    (hplan : buildPlan (job.input digest) exactNames = .ok plan) (hquiet : job.Quiet sender)
    (htrusted : job.Trusted digest) :
    ∃ disk, executePlan fresh plan job.direction sender ⟨job.target.tree job.targetData, changes⟩ =
    .ok disk ∧
      (∀ path src, job.source.get path = some src →
        Final (job.input digest) job.sourceData path (Directory.find disk.tree path)) ∧
      (∀ path, job.source.get path = none →
        Directory.find disk.tree path =
          if job.isDelete = true then none else job.target.node job.targetData path) ∧
      ((∃ plan', buildPlan (job.inputAgain digest disk.tree) exactNames = .ok plan' ∧
          ∀ action ∈ plan', ∃ path, action = .skip path) ∨
        (job.isDelete = true ∧
          (∃ rootName siblings, job.direction = .guestToHost rootName siblings) ∧
          ∃ text, validateDownloadLinks job.source (scanResult disk.tree) exactNames =
              .error (.message text) ∧
            buildPlan (job.inputAgain digest disk.tree) exactNames = .error text)) := by
  have hready := ready_of_plan hroot hplan hquiet htrusted
  obtain ⟨disk, hrun, hsynced⟩ := hready.executePlan_synced fresh changes
  have hconverged : Converged (job.input digest) job.sourceData job.targetData disk.tree :=
    ⟨fun path src hget => hready.final_of_synced hget (hsynced path),
      fun path hget => hready.target_only_of_synced hget (hsynced path)⟩
  obtain rfl := (buildPlan_eq_ok.1 hplan).2.2
  exact ⟨disk, hrun, hconverged.source, hconverged.target, buildPlan_again hconverged hready hplan⟩

/-! ## Two downloads -/

/-- A guest's file and link, next to a host directory that goes away; the contents of a file are
given by the length of its path. -/
def sampleDownload : SyncJob Nat where
  source := ⟨[sampleEntry "" .directory, sampleEntry "a" (.file 3), sampleLink "l" "a"], by decide⟩
  target := ⟨[sampleEntry "" .directory, sampleEntry "old" .directory,
    sampleEntry "old/x" (.file 5)], by decide⟩
  sourceData := List.length
  targetData := List.length
  isChecksum := false
  isDelete := true
  direction := .guestToHost none ⟨[], List.Pairwise.nil⟩

def sampleSender (job : SyncJob C) : Sender C where
  size path :=
    match (job.source.get path).map SyncEntry.kind with
    | some (.file size) => size
    | _ => 0
  mode path := ((job.source.get path).map SyncEntry.mode).getD 0
  mtimeSecs path := ((job.source.get path).map SyncEntry.mtimeSecs).getD 0
  mtimeNanos path := ((job.source.get path).map SyncEntry.mtimeNanos).getD 0
  contents := job.sourceData

def sampleClock (changes : Nat) : Attributes :=
  ⟨0o755, 1000 + changes, 0⟩

lemma quiet_sampleSender (job : SyncJob C)
    (hmodes : ∀ item ∈ job.source.entries, item.2.mode &&& 0o777 = item.2.mode) :
    job.Quiet (sampleSender job) := by
  intro path src size hget hkind
  have hmode := hmodes _ (Manifest.get_eq_some_iff.1 hget)
  simp [sampleSender, hget, hkind, hmode]

theorem sync_converges_sample :
    ∃ disk, executePlan sampleClock (sampleDownload.input id).actions sampleDownload.direction
        (sampleSender sampleDownload) ⟨sampleDownload.target.tree sampleDownload.targetData, 0⟩ =
        .ok disk ∧
      Final (sampleDownload.input id) sampleDownload.sourceData ['a']
        (Directory.find disk.tree ['a']) ∧
      Directory.find disk.tree ['o', 'l', 'd'] = none := by
  obtain ⟨disk, hrun, hsource, htarget, -⟩ := sync_converges sampleDownload id sampleClock
    (sampleSender sampleDownload) 0 (sampleDownload.input id).actions ⟨_, by rfl, rfl⟩
      (by decide +kernel)
    (quiet_sampleSender _ (by decide)) (fun _ _ _ _ _ _ _ _ _ => rfl)
  exact ⟨disk, hrun, hsource _ _ rfl, htarget _ rfl⟩

/-- The guest's `d/e/M` goes through `d/e/L` to the host's `p`, which leads deep enough to come back
up. -/
def refusedDownload : SyncJob Nat where
  source := ⟨[sampleEntry "" .directory, sampleEntry "d" .directory, sampleEntry "d/e" .directory,
    sampleLink "d/e/L" "../../p", sampleLink "d/e/M" "L/../.."], by decide⟩
  target := ⟨[sampleEntry "" .directory, sampleLink "p" "x/y/z"], by decide⟩
  sourceData := List.length
  targetData := List.length
  isChecksum := false
  isDelete := true
  direction := .guestToHost none ⟨[], List.Pairwise.nil⟩

/-- With `--delete` the host's link is removed, and the plan made next is refused. -/
theorem resync_refused :
    refusedDownload.SourceIsDirectory ∧ refusedDownload.Quiet (sampleSender refusedDownload) ∧
      refusedDownload.Trusted id ∧
      ∃ plan disk, buildPlan (refusedDownload.input id) exactNames = .ok plan ∧
        executePlan sampleClock plan refusedDownload.direction (sampleSender refusedDownload)
          ⟨refusedDownload.target.tree refusedDownload.targetData, 0⟩ = .ok disk ∧
        buildPlan (refusedDownload.inputAgain id disk.tree) exactNames =
          .error "guest symlink chain escapes destination root" := by
  have hroot : refusedDownload.SourceIsDirectory := ⟨_, by rfl, rfl⟩
  have hquiet := quiet_sampleSender refusedDownload (by decide)
  have htrusted : refusedDownload.Trusted id := fun _ _ _ _ _ _ _ _ _ => rfl
  have hplan : buildPlan (refusedDownload.input id) exactNames =
      .ok (refusedDownload.input id).actions := by decide +kernel
  obtain ⟨disk, hrun, -⟩ :=
    (ready_of_plan hroot hplan hquiet htrusted).executePlan_synced sampleClock 0
  refine ⟨hroot, hquiet, htrusted, _, disk, hplan, hrun, ?_⟩
  have hagain :
      (executePlan sampleClock (refusedDownload.input id).actions refusedDownload.direction
      (sampleSender refusedDownload)
        ⟨refusedDownload.target.tree refusedDownload.targetData, 0⟩).toOption.all
      (fun disk => buildPlan (refusedDownload.inputAgain id disk.tree) exactNames =
        .error "guest symlink chain escapes destination root") = true := by decide +kernel
  change (executePlan sampleClock (refusedDownload.input id).actions refusedDownload.direction
    (sampleSender refusedDownload) ⟨refusedDownload.target.tree refusedDownload.targetData, 0⟩) =
    _ at hrun
  rw [hrun] at hagain
  exact of_decide_eq_true hagain

end SyncJob

end Terrarium.Sync
