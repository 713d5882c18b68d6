import Terrarium.Sync.LinkSearch

/-!
# Plan — what a sync does to the target

`buildPlan` compares the two manifests entry by entry and lists the actions that make the target
equal to the source.  An entry of a directory that is created, replaced or removed changes the
directory's own modification time, so a directory that would be skipped is updated too if such an
action is planned in it (`restoreDirectory`).

The planner reads file contents only to compare checksums; the comparison is part of its input.
-/

namespace Terrarium.Sync

open Fallible

/-- Which side is written; for a download of a single link, also the name it gets and what is beside
it. -/
inductive SyncDirection where
  | hostToGuest
  | guestToHost (rootName : Option Text) (siblings : Manifest)

def toSafeMode (guestMode : Nat) : Nat :=
  guestMode &&& 0o755

def effectiveMode (mode : Nat) : SyncDirection → Nat
  | .hostToGuest => mode &&& 0o777
  | .guestToHost _ _ => toSafeMode mode

inductive PlanAction where
  | createDir (relPath : Text) (mode : Nat)
  | transferFile (relPath : Text) (size mode : Nat) (mtimeSecs : Int) (mtimeNanos : Nat)
  | createSymlink (relPath target : Text)
  | updateFileMetadata (relPath : Text) (mode : Nat) (mtimeSecs : Int) (mtimeNanos : Nat)
  | updateDirMetadata (relPath : Text) (mode : Nat) (mtimeSecs : Int) (mtimeNanos : Nat)
  | removeEntry (relPath : Text) (isDir : Bool)
  | skip (relPath : Text)
  deriving DecidableEq

/-- The directory whose modification time an action changes. -/
def findChangedParent : PlanAction → Option Text
  | .createDir path _ | .transferFile path _ _ _ _ | .createSymlink path _ | .removeEntry path _ =>
      if path = [] then none else some (parentPath path)
  | .updateFileMetadata _ _ _ _ | .updateDirMetadata _ _ _ _ | .skip _ => none

/-- What the planner is called with; `sameDigest` compares the SHA-256 sums of the two copies. -/
structure PlanInput where
  source : Manifest
  target : Manifest
  isChecksum : Bool
  isDelete : Bool
  direction : SyncDirection
  sameDigest : Text → Bool

/-! ## Links of a download -/

def Manifest.single (path : Text) (entry : SyncEntry) : Manifest where
  entries := [(path, entry)]
  sorted := List.pairwise_singleton _ _

/-- A source that is itself a link is checked beside the entries of its destination's directory. -/
def linkManifests (source target : Manifest) (rootName : Option Text) (siblings : Manifest) :
    Except String (Manifest × Manifest) :=
  match source.get [] with
  | none => .ok (source, target)
  | some entry =>
      if entry.kind.linkTarget.isSome then
        match rootName with
        | none => .error "symlink destination name is not valid UTF-8"
        | some name => .ok (Manifest.single name { entry with relativePath := name }, siblings)
      else .ok (source, target)

/-- The text of an error; the check never ends unfinished. -/
def LinkError.text : LinkError → String
  | .message text => text
  | .unfinished => ""

def validatePlanLinks (source target : Manifest)
    (resolveComponent : ResolveComponent) : SyncDirection → Except String Unit
  | .hostToGuest => .ok ()
  | .guestToHost rootName siblings => do
      let manifests ← linkManifests source target rootName siblings
      (validateDownloadLinks manifests.1 manifests.2 resolveComponent).mapError LinkError.text

/-! ## Planning -/

namespace PlanInput

variable (input : PlanInput)

def modeDiffers (src dst : SyncEntry) : Bool :=
  effectiveMode src.mode input.direction ≠ dst.mode

def mtimeDiffers (src dst : SyncEntry) : Bool :=
  src.mtimeSecs ≠ dst.mtimeSecs || src.mtimeNanos ≠ dst.mtimeNanos

/-- The two copies of a file of one size count as the same. -/
def isIdentical (path : Text) (src dst : SyncEntry) : Bool :=
  if input.isChecksum then input.sameDigest path else !mtimeDiffers src dst

def planFileUpdate (path : Text) (src : SyncEntry) (srcSize : Nat) (dst : SyncEntry) : PlanAction :=
  if dst.kind ≠ .file srcSize then
    .transferFile path srcSize src.mode src.mtimeSecs src.mtimeNanos
  else if input.isIdentical path src dst then
    if input.modeDiffers src dst || mtimeDiffers src dst then
      .updateFileMetadata path src.mode src.mtimeSecs src.mtimeNanos
    else .skip path
  else .transferFile path srcSize src.mode src.mtimeSecs src.mtimeNanos

def planNew (path : Text) (src : SyncEntry) : List PlanAction :=
  match src.kind with
  | .directory =>
      [.createDir path src.mode, .updateDirMetadata path src.mode src.mtimeSecs src.mtimeNanos]
  | .file size => [.transferFile path size src.mode src.mtimeSecs src.mtimeNanos]
  | .symlink target => [.createSymlink path target]

def planExisting (path : Text) (src dst : SyncEntry) : PlanAction :=
  match src.kind with
  | .directory =>
      if input.modeDiffers src dst || mtimeDiffers src dst then
        .updateDirMetadata path src.mode src.mtimeSecs src.mtimeNanos
      else .skip path
  | .symlink target => if dst.kind = src.kind then .skip path else .createSymlink path target
  | .file size => input.planFileUpdate path src size dst

def planSourceEntry (item : Text × SyncEntry) : List PlanAction :=
  match input.target.get item.1 with
  | none => planNew item.1 item.2
  | some dst => [input.planExisting item.1 item.2 dst]

def planTargetEntry (item : Text × SyncEntry) : List PlanAction :=
  if item.1 ≠ [] ∧ input.source.get item.1 = none then
    if input.isDelete then [.removeEntry item.1 (item.2.kind = .directory)] else [.skip item.1]
  else []

def planned : List PlanAction :=
  input.source.entries.flatMap input.planSourceEntry ++ input.target.entries.flatMap
    input.planTargetEntry

def changedParents : List Text :=
  input.planned.filterMap findChangedParent

/-- A directory of the source that is skipped although something in it changes. -/
def restoreDirectory (action : PlanAction) : PlanAction :=
  match action with
  | .skip path =>
      match input.source.get path with
      | some src =>
          if path ∈ input.changedParents ∧ src.kind = .directory then
            .updateDirMetadata path src.mode src.mtimeSecs src.mtimeNanos
          else .skip path
      | none => .skip path
  | action => action

def actions : List PlanAction :=
  input.planned.map input.restoreDirectory

end PlanInput

def buildPlan (input : PlanInput) (resolveComponent : ResolveComponent) :
    Except String (List PlanAction) := do
  validatePlanConflicts input.source input.target
  validatePlanLinks input.source input.target resolveComponent input.direction
  return input.actions

lemma buildPlan_eq_ok {input : PlanInput} {resolveComponent : ResolveComponent}
    {plan : List PlanAction} :
    buildPlan input resolveComponent = .ok plan ↔ Compatible input.source input.target ∧
        validatePlanLinks input.source input.target resolveComponent input.direction = .ok () ∧
        plan = input.actions := by
  rw [← validatePlanConflicts_eq_ok]
  constructor
  · intro h
    obtain ⟨_, hconflicts, h⟩ := bind_eq_ok.1 h
    obtain ⟨_, hlinks, hreturn⟩ := bind_eq_ok.1 h
    exact ⟨hconflicts, hlinks, (pure_eq_ok.1 hreturn).symm⟩
  · rintro ⟨hconflicts, hlinks, rfl⟩
    exact bind_eq_ok.2 ⟨(), hconflicts, bind_eq_ok.2 ⟨(), hlinks, rfl⟩⟩

lemma buildPlan_refused {input : PlanInput} {resolveComponent : ResolveComponent}
    {text : String} (hcompatible : Compatible input.source input.target)
    (hlinks : validatePlanLinks input.source input.target resolveComponent input.direction =
      .error text) :
    buildPlan input resolveComponent = .error text := by
  rw [buildPlan, validatePlanConflicts_eq_ok.2 hcompatible]
  change (do
    validatePlanLinks input.source input.target resolveComponent input.direction
    return input.actions) = _
  rw [hlinks]
  rfl

section Download

variable {source target siblings : Manifest} {rootName : Option Text}
  {resolveComponent : ResolveComponent} {root : SyncEntry}

/-- With a directory at the source's root, the link check is made on the manifests themselves. -/
lemma validatePlanLinks_eq (hroot : source.get [] = some root)
    (hdirectory : root.kind = .directory) :
    validatePlanLinks source target resolveComponent (.guestToHost rootName siblings) =
      (validateDownloadLinks source target resolveComponent).mapError LinkError.text := by
  have hmanifests : linkManifests source target rootName siblings = .ok (source, target) := by
    simp [linkManifests, hroot, hdirectory, SyncEntryKind.linkTarget]
  rw [validatePlanLinks, hmanifests]
  rfl

lemma validatePlanLinks_download (hroot : source.get [] = some root)
    (hdirectory : root.kind = .directory) :
    validatePlanLinks source target resolveComponent (.guestToHost rootName siblings) = .ok () ↔
      validateDownloadLinks source target resolveComponent = .ok () := by
  rw [validatePlanLinks_eq hroot hdirectory]
  cases validateDownloadLinks source target resolveComponent with
  | ok _ | error e => simp [Except.mapError]

end Download

end Terrarium.Sync
