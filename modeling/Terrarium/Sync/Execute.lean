import Terrarium.Foundations.Phases
import Terrarium.Sync.Plan

/-!
# Execute — carrying out a plan on the target's file system

The target is a map from paths to nodes.  Creating, replacing or removing an entry gives its
directory a new modification time; attributes the code does not choose (`fresh`) are left open.  A
step fails where the operating system or the code refuses it: no directory to put an entry in, a
directory that is not empty, an entry of another kind.

`executePlan` runs the five phases of a sync: directories from the root down, files and links,
attributes of files, deletions from the leaves up, attributes of directories.
-/

namespace Terrarium.Sync

open Phases

/-! ## The file system -/

inductive FileKind (C : Type) where
  | file (size : Nat) (contents : C)
  | directory
  | symlink (target : Text)
  deriving DecidableEq

structure FileNode (C : Type) where
  kind : FileKind C
  mode : Nat
  mtimeSecs : Int
  mtimeNanos : Nat
  deriving DecidableEq

structure Attributes where
  mode : Nat
  mtimeSecs : Int
  mtimeNanos : Nat

/-- The target's entries, and how many times the file system chose attributes by itself. -/
structure Disk (C : Type) where
  tree : List (Text × FileNode C)
  changes : Nat

inductive ExecError where
  | message (text : String)
  | notFound
  | notADirectory
  | isADirectory
  | notEmpty
  deriving DecidableEq

section

variable {C : Type} (fresh : Nat → Attributes)

def isDirectory (tree : List (Text × FileNode C)) (path : Text) : Bool :=
  match Directory.find tree path with
  | some ⟨.directory, _, _, _⟩ => true
  | _ => false

/-- There is a directory for an entry at this path; the root's is outside of the tree. -/
def hasParent (tree : List (Text × FileNode C)) (path : Text) : Bool :=
  path = [] || isDirectory tree (parentPath path)

def hasChild (tree : List (Text × FileNode C)) (path : Text) : Bool :=
  tree.any fun item => item.1 ≠ [] && parentPath item.1 = path

/-- The directory of a changed entry gets a new modification time. -/
def touchParent (path : Text) (disk : Disk C) : List (Text × FileNode C) :=
  if path = [] then disk.tree
  else
    match Directory.find disk.tree (parentPath path) with
    | none => disk.tree
    | some node =>
        Directory.insert (parentPath path)
          { node with mtimeSecs := (fresh disk.changes).mtimeSecs,
                      mtimeNanos := (fresh disk.changes).mtimeNanos } disk.tree

/-- Put a new entry into its directory, in place of a file or a link there. -/
def install (path : Text) (node : FileNode C) (disk : Disk C) : Except ExecError (Disk C) :=
  if hasParent disk.tree path then
    if isDirectory disk.tree path then .error .isADirectory
    else .ok ⟨Directory.insert path node (touchParent fresh path disk), disk.changes + 1⟩
  else .error .notFound

def setAttributes (path : Text) (attributes : Attributes) (disk : Disk C) :
    Except ExecError (Disk C) :=
  match Directory.find disk.tree path with
  | none => .error .notFound
  | some ⟨.symlink _, _, _, _⟩ => .error (.message "not a regular file or directory")
  | some node =>
      .ok ⟨Directory.insert path
        ⟨node.kind, attributes.mode, attributes.mtimeSecs, attributes.mtimeNanos⟩ disk.tree,
        disk.changes⟩

def unlink (path : Text) (disk : Disk C) : Disk C :=
  ⟨Directory.erase path (touchParent fresh path disk), disk.changes + 1⟩

def removeDirAt (path : Text) (disk : Disk C) : Except ExecError (Disk C) :=
  match Directory.find disk.tree path with
  | none => .error .notFound
  | some ⟨.directory, _, _, _⟩ =>
      if hasChild disk.tree path then .error .notEmpty else .ok (unlink fresh path disk)
  | some _ => .error .notADirectory

def removeFileAt (path : Text) (disk : Disk C) : Except ExecError (Disk C) :=
  match Directory.find disk.tree path with
  | none => .error .notFound
  | some ⟨.directory, _, _, _⟩ => .error .isADirectory
  | some _ => .ok (unlink fresh path disk)

/-! ## The steps of a plan -/

structure DirToCreate where
  relPath : Text
  mode : Nat

inductive TransferItem where
  | file (relPath : Text) (expected : Nat × Nat × Int × Nat)
  | symlink (relPath target : Text)

def TransferItem.relPath : TransferItem → Text
  | .file path _ | .symlink path _ => path

structure MetadataUpdate where
  relPath : Text
  mode : Nat
  mtimeSecs : Int
  mtimeNanos : Nat

structure Deletion where
  relPath : Text
  isDir : Bool

/-- What a file's sender reports when the file is opened, and its contents. -/
structure Sender (C : Type) where
  size : Text → Nat
  mode : Text → Nat
  mtimeSecs : Text → Int
  mtimeNanos : Text → Nat
  contents : Text → C

/-- The mode a directory is created with: chosen by the host's file system, or what lets the agent
write into it. -/
def createdMode (mode chosen : Nat) : SyncDirection → Nat
  | .hostToGuest => (mode &&& 0o777) ||| 0o700
  | .guestToHost _ _ => chosen

def executeCreateDir (direction : SyncDirection) (dir : DirToCreate) (disk : Disk C) :
    Except ExecError (Disk C) :=
  match Directory.find disk.tree dir.relPath with
  | none =>
      install fresh dir.relPath
        ⟨.directory, createdMode dir.mode (fresh disk.changes).mode direction,
          (fresh disk.changes).mtimeSecs, (fresh disk.changes).mtimeNanos⟩ disk
  | some ⟨.directory, mode, mtimeSecs, mtimeNanos⟩ =>
      .ok ⟨Directory.insert dir.relPath
        ⟨.directory, createdMode dir.mode mode direction, mtimeSecs, mtimeNanos⟩ disk.tree,
        disk.changes⟩
  | some _ => .error (.message "destination directory is a file or symlink")

def sourceChanged : SyncDirection → String
  | .hostToGuest => "host source changed since planning"
  | .guestToHost _ _ => "guest file metadata changed since planning; retry with a quiet source"

def executeTransfer (direction : SyncDirection) (sender : Sender C) (item : TransferItem)
    (disk : Disk C) : Except ExecError (Disk C) :=
  match item, direction with
  | .file path expected, direction =>
      if (sender.size path, sender.mode path &&& 0o777, sender.mtimeSecs path,
          sender.mtimeNanos path) = expected then
        install fresh path ⟨.file (sender.size path) (sender.contents path),
          effectiveMode (sender.mode path) direction, sender.mtimeSecs path,
          sender.mtimeNanos path⟩ disk
      else .error (.message (sourceChanged direction))
  | .symlink path target, .hostToGuest =>
      install fresh path
        ⟨.symlink target, (fresh disk.changes).mode, (fresh disk.changes).mtimeSecs,
        (fresh disk.changes).mtimeNanos⟩ disk
  | .symlink path target, .guestToHost _ _ =>
      match validateDownloadSymlinkTarget path target with
      | .error text => .error (.message text)
      | .ok () =>
          install fresh path
            ⟨.symlink target, (fresh disk.changes).mode, (fresh disk.changes).mtimeSecs,
            (fresh disk.changes).mtimeNanos⟩ disk

def executeMetadataUpdate (direction : SyncDirection) (update : MetadataUpdate) (disk : Disk C) :
    Except ExecError (Disk C) :=
  setAttributes update.relPath
    ⟨effectiveMode update.mode direction, update.mtimeSecs, update.mtimeNanos⟩ disk

/-- The agent looks at the entry itself, the host goes by the plan. -/
def executeDeletion (direction : SyncDirection) (deletion : Deletion) (disk : Disk C) :
    Except ExecError (Disk C) :=
  match direction with
  | .hostToGuest =>
      if deletion.relPath = [] then .error (.message "cannot remove session root itself")
      else if isDirectory disk.tree deletion.relPath then removeDirAt fresh deletion.relPath disk
      else removeFileAt fresh deletion.relPath disk
  | .guestToHost _ _ =>
      if deletion.isDir then removeDirAt fresh deletion.relPath disk
      else removeFileAt fresh deletion.relPath disk

end

/-! ## The phases -/

def asDirToCreate : PlanAction → Option DirToCreate
  | .createDir path mode => some ⟨path, mode⟩
  | _ => none

def asTransfer : PlanAction → Option TransferItem
  | .transferFile path size mode mtimeSecs mtimeNanos =>
      some (.file path (size, mode, mtimeSecs, mtimeNanos))
  | .createSymlink path target => some (.symlink path target)
  | _ => none

def asFileUpdate : PlanAction → Option MetadataUpdate
  | .updateFileMetadata path mode mtimeSecs mtimeNanos => some ⟨path, mode, mtimeSecs, mtimeNanos⟩
  | _ => none

def asDeletion : PlanAction → Option Deletion
  | .removeEntry path isDir => some ⟨path, isDir⟩
  | _ => none

def asDirUpdate : PlanAction → Option MetadataUpdate
  | .updateDirMetadata path mode mtimeSecs mtimeNanos => some ⟨path, mode, mtimeSecs, mtimeNanos⟩
  | _ => none

def createDirs (actions : List PlanAction) : List DirToCreate :=
  (actions.filterMap asDirToCreate).insertionSort fun a b =>
    Text.byteLen a.relPath ≤ Text.byteLen b.relPath

def transfersAndSymlinks (actions : List PlanAction) : List TransferItem :=
  actions.filterMap asTransfer

def fileMetaUpdates (actions : List PlanAction) : List MetadataUpdate :=
  actions.filterMap asFileUpdate

def deletions (actions : List PlanAction) : List Deletion :=
  (actions.filterMap asDeletion).insertionSort fun a b =>
    Text.byteLen b.relPath ≤ Text.byteLen a.relPath

def dirMetaUpdates (actions : List PlanAction) : List MetadataUpdate :=
  (actions.filterMap asDirUpdate).insertionSort fun a b =>
    Text.byteLen b.relPath ≤ Text.byteLen a.relPath

def executePlan {C : Type} (fresh : Nat → Attributes) (actions : List PlanAction)
    (direction : SyncDirection) (sender : Sender C) (disk : Disk C) :
    Except ExecError (Disk C) := do
  let disk ← phase (executeCreateDir fresh direction) (createDirs actions) disk
  let disk ← phase (executeTransfer fresh direction sender) (transfersAndSymlinks actions) disk
  let disk ← phase (executeMetadataUpdate direction) (fileMetaUpdates actions) disk
  let disk ← phase (executeDeletion fresh direction) (deletions actions) disk
  phase (executeMetadataUpdate direction) (dirMetaUpdates actions) disk

/-! ## Scans -/

section

variable {C : Type}

def FileKind.entryKind : FileKind C → SyncEntryKind
  | .file size _ => .file size
  | .directory => .directory
  | .symlink target => .symlink target

def FileNode.entry (path : Text) (node : FileNode C) : SyncEntry :=
  ⟨path, node.kind.entryKind, node.mode, node.mtimeSecs, node.mtimeNanos⟩

def fileKind (kind : SyncEntryKind) (contents : C) : FileKind C :=
  match kind with
  | .file size => .file size contents
  | .directory => .directory
  | .symlink target => .symlink target

/-- The tree a manifest describes, with the contents of its files. -/
def Manifest.tree (manifest : Manifest) (contents : Text → C) : List (Text × FileNode C) :=
  manifest.entries.map fun item =>
    (item.1,
      ⟨fileKind item.2.kind (contents item.1), item.2.mode, item.2.mtimeSecs, item.2.mtimeNanos⟩)

def treePaths (tree : List (Text × FileNode C)) : List Text :=
  ((tree.map Prod.fst).dedup).insertionSort (· ≤ ·)

lemma treePaths_sorted (tree : List (Text × FileNode C)) : (treePaths tree).Pairwise (· < ·) := by
  have hle : (treePaths tree).Pairwise (· ≤ ·) := List.pairwise_insertionSort _ _
  have hnodup : (treePaths tree).Nodup := by
    rw [treePaths, (List.perm_insertionSort _ _).nodup_iff]
    exact List.nodup_dedup _
  refine (List.pairwise_and_iff.2 ⟨hle, hnodup⟩).imp ?_
  rintro a b ⟨hab, hne⟩
  exact lt_of_le_of_ne hab hne

/-- The manifest a scan of the tree returns. -/
def scanResult (tree : List (Text × FileNode C)) : Manifest where
  entries := (treePaths tree).filterMap fun path =>
    (Directory.find tree path).map fun node => (path, node.entry path)
  sorted := by
    rw [List.map_filterMap]
    refine List.Pairwise.filterMap _ ?_ (treePaths_sorted tree)
    intro a b hab a' ha b' hb
    simp only [Option.map_map] at ha hb
    obtain ⟨_, -, rfl⟩ := Option.map_eq_some_iff.1 ha
    obtain ⟨_, -, rfl⟩ := Option.map_eq_some_iff.1 hb
    exact hab

end

end Terrarium.Sync
