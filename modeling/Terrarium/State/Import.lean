import Terrarium.Foundations.Directory
import Terrarium.Foundations.Faults
import Terrarium.Foundations.Text

/-!
# Import — swapping a box's files

An import stages its files in a directory of the box, records a journal and then swaps the files in
one by one, keeping the originals beside the staged files.  A commit that fails puts the originals
back; the next lock finishes or undoes an import that died part-way, from what the journal and the
directories show.

This file models the box's disk, the file operations and `beginImport`, `commitImport`,
`recoverImport` and the import command around them.  Every file operation may fail or be the last
one the process makes. The contents of files are of any type; the digest in the setup stamp is an
external function.
-/

namespace Terrarium.State

open Faults Prog Directory

/-! ## Names -/

def recipeFile : Text := "recipe.yaml".toList
def pinnedPathsFile : Text := "pinned-paths.yaml".toList
def rootfsFile : Text := "rootfs.img".toList
def volumePrefix : Text := "vol-".toList
def volumeSuffix : Text := ".img".toList
def setupStamp : Text := "setup-finished".toList
def importPrefix : Text := ".import.".toList

def findImageNamed (name : Text) : Option Text :=
  if name = rootfsFile then
    some rootfsFile
  else do
    let rest ← name.dropPrefix? volumePrefix
    let volume ← rest.dropSuffix? volumeSuffix
    if volume ≠ [] ∧ volume ≠ ['.'] ∧ volume ≠ ['.', '.'] ∧ '/' ∉ volume ∧ '\\' ∉ volume then
      some (volumePrefix ++ volume ++ volumeSuffix)
    else
      none

/-- The box file a journal entry names: an image, or the pin an import carries. -/
def findJournaledFile (name : Text) : Option Text :=
  if name = recipeFile ∨ name = pinnedPathsFile then some name else findImageNamed name

/-- Where the original of the file at `index` is kept in the staging directory. -/
def original (index : Nat) : Text :=
  "original-".toList ++ (Nat.repr index).toList

/-! ## The disk -/

structure ImportEntry where
  file : Text
  existed : Bool
  deriving DecidableEq

structure ImportJournal where
  staging : Text
  entries : List ImportEntry
  committed : Bool
  deriving DecidableEq

/-- The box directory: its files, the staging directories in it, and the import journal. -/
structure Disk (C : Type) where
  box : Text → Option C
  dirs : Text → Option (List (Text × C))
  journal : Option ImportJournal

/-- A file of the box, or of a staging directory. -/
inductive Place where
  | live (name : Text)
  | staged (dir name : Text)
  deriving DecidableEq

variable {C : Type}

namespace Disk

def get (disk : Disk C) : Place → Option C
  | .live name => disk.box name
  | .staged dir name => (disk.dirs dir).bind fun entries => find entries name

def hasParent (disk : Disk C) : Place → Bool
  | .live _ => true
  | .staged dir _ => (disk.dirs dir).isSome

/-- Writes or removes one file; without its directory nothing changes. -/
def put (disk : Disk C) (place : Place) (contents : Option C) : Disk C :=
  match place with
  | .live name => { disk with box := Function.update disk.box name contents }
  | .staged dir name =>
      { disk with
        dirs := Function.update disk.dirs dir ((disk.dirs dir).map fun entries =>
          match contents with
          | some contents => insert name contents entries
          | none => erase name entries) }

def setDir (disk : Disk C) (dir : Text) (entries : Option (List (Text × C))) : Disk C :=
  { disk with dirs := Function.update disk.dirs dir entries }

end Disk

/-! ## File operations -/

/-- What an operation reports: a missing file, another I/O error, or the program's own message. -/
inductive Failure where
  | notFound
  | io
  | message (text : String)
  deriving DecidableEq

/-- Programs on the box's disk; a removal of a whole directory may keep some of its entries. -/
abbrev Files (C α : Type) := Prog (Disk C) (Text → Bool) Failure α

/-- Whether there is a file; `symlink_metadata` with a missing file as an answer. -/
def isPresent (place : Place) : Files C Bool :=
  atomic .io fun disk => .ok ((disk.get place).isSome, disk)

def readFile (place : Place) : Files C C :=
  atomic .io fun disk =>
    match disk.get place with
    | some contents => .ok (contents, disk)
    | none => .error .notFound

def rename (source target : Place) : Files C Unit :=
  atomic .io fun disk =>
    match disk.get source with
    | some contents =>
        if disk.hasParent target then
          .ok ((), (disk.put source none).put target (some contents))
        else
          .error .notFound
    | none => .error .notFound

def removeFile (place : Place) : Files C Unit :=
  atomic .io fun disk =>
    if (disk.get place).isSome then .ok ((), disk.put place none) else .error .notFound

/-- An operation without an effect the process could see. -/
def sync : Files C Unit :=
  atomic .io fun disk => .ok ((), disk)

/-- A temporary renamed into place, then a sync of the directory. -/
def stagedWrite (place : Place) (contents : C) : Files C Unit := do
  atomic .io fun disk =>
    if disk.hasParent place then .ok ((), disk.put place (some contents)) else .error .notFound
  sync

def createDir (dir : Text) : Files C Unit :=
  atomic .io fun disk =>
    if (disk.dirs dir).isSome then .error .io else .ok ((), disk.setDir dir (some []))

def removeDir (dir : Text) : Files C Unit :=
  atomic .io fun disk =>
    match disk.dirs dir with
    | none => .error .notFound
    | some [] => .ok ((), disk.setDir dir none)
    | some (_ :: _) => .error .io

def removeDirAll (dir : Text) : Files C Unit :=
  breakable .io
    (fun disk =>
      if (disk.dirs dir).isSome then .ok ((), disk.setDir dir none) else .error .notFound)
    (fun kept disk => disk.setDir dir ((disk.dirs dir).map (keep kept)))

def readJournal : Files C (Option ImportJournal) :=
  atomic .io fun disk => .ok (disk.journal, disk)

def writeImportJournal (record : ImportJournal) : Files C Unit := do
  atomic .io fun disk => .ok ((), { disk with journal := some record })
  sync

def removeJournal : Files C Unit :=
  atomic .io fun disk =>
    if disk.journal.isSome then .ok ((), { disk with journal := none }) else .error .notFound

/-- An operation for which a missing file is as good as a removed one. -/
def ifPresent (operation : Files C Unit) : Files C Unit := do
  match ← attempt operation with
  | .ok () => return
  | .error .notFound => return
  | .error failure => throw failure

def removeFileIfPresent (place : Place) : Files C Unit :=
  ifPresent (removeFile place)

/-! ## The import -/

/-- A file an import stages, under the name of the box file it replaces on commit. -/
structure StagedImportFile (C : Type) where
  name : Text
  contents : C
  journaled : (findJournaledFile name).isSome

/-- Reserves the staging directory, journaled before anything is staged. -/
def beginImport (dir : Text) : Files C Unit := do
  createDir dir
  writeImportJournal { staging := dir, entries := [], committed := false }

def stageFiles (dir : Text) (files : List (StagedImportFile C)) : Files C Unit :=
  each (fun file => stagedWrite (.staged dir file.name) file.contents) files

section Recover

variable (digest : C → C)

def writeSetupStamp : Files C Unit := do
  let recipe ← readFile (.live recipeFile)
  stagedWrite (.live setupStamp) (digest recipe)

/-- The new files are in place; a root that came with its recipe is set up for it. -/
def finishCommitted (record : ImportJournal) : Files C Unit :=
  if record.entries.any fun entry => entry.file = recipeFile then do
    writeSetupStamp digest
    sync
  else
    return

/-- Undoes one entry, from what is left of it. -/
def recoverEntry (dir : Text) (indexed : ImportEntry × Nat) : Files C Unit := do
  let (entry, index) := indexed
  match findJournaledFile entry.file with
  | none => throw (.message "import recovery journal names an invalid file")
  | some path => do
      let hasBackup ← isPresent (.staged dir (original index))
      if entry.existed && hasBackup then do
        removeFileIfPresent (.live path)
        rename (.staged dir (original index)) (.live path)
      else if !entry.existed then do
        -- A file that cannot be examined counts as missing.
        let isStaged ← attempt (isPresent (.staged dir entry.file))
        match isStaged with
        | .ok true => return
        | _ => removeFileIfPresent (.live path)
      else
        return

def isStagingName (name : Text) : Bool :=
  importPrefix.isPrefixOf name && !name.contains '/' && !name.contains '\\'

def finishOrUndo (record : ImportJournal) : Files C Unit :=
  if record.committed then
    finishCommitted digest record
  else
    each (recoverEntry record.staging) record.entries.zipIdx

def recoverRecord (record : ImportJournal) : Files C Unit :=
  if isStagingName record.staging then do
    finishOrUndo digest record
    ifPresent (removeDirAll record.staging)
    removeJournal
  else
    throw (.message "import recovery journal has an invalid staging directory")

def recoverImport : Files C Unit := do
  match ← readJournal with
  | none => return
  | some record => recoverRecord digest record

end Recover

/-- Moves the live file aside, if there is one. -/
def backUp (dir : Text) (index : Nat) (file : StagedImportFile C) : Files C (Option Text) := do
  if ← isPresent (.live file.name) then do
    rename (.live file.name) (.staged dir (original index))
    return some (original index)
  else
    return none

/-- The swapped files so far, newest first, each with the name of its original if it had one. -/
abbrev Swapped := List (Text × Option Text)

/-- Swaps the files in; returns what was swapped and the error that ended it. -/
def swapFiles (dir : Text) : Nat → List (StagedImportFile C) → Swapped →
    Files C (Swapped × Option Failure)
  | _, [], swapped => return (swapped, none)
  | index, file :: files, swapped => do
      match ← attempt (backUp dir index file) with
      | .error failure => return (swapped, some failure)
      | .ok backup => do
          let swapped := (file.name, backup) :: swapped
          match ← attempt (rename (.staged dir file.name) (.live file.name)) with
          | .error failure => return (swapped, some failure)
          | .ok () => swapFiles dir (index + 1) files swapped

def rollBack (dir : Text) (swapped : Swapped) : Files C Unit :=
  each
    (fun (path, backup) => do
      removeFileIfPresent (.live path)
      match backup with
      | some backup => rename (.staged dir backup) (.live path)
      | none => return)
    swapped

def recordEntries (files : List (StagedImportFile C)) : Files C (List ImportEntry) :=
  collect
    (fun file => do
      let existed ← isPresent (.live file.name)
      return { file := file.name, existed })
    files

def commitImport (digest : C → C) (dir : Text) (files : List (StagedImportFile C)) :
    Files C Unit := do
  if files.isEmpty then
    throw (.message "import has no staged files")
  else if !importPrefix.isPrefixOf dir then
    throw (.message "import staging directory has an invalid name")
  else do
    let entries ← recordEntries files
    writeImportJournal { staging := dir, entries, committed := false }
    match ← swapFiles dir 0 files [] with
    | (swapped, some failure) => do
        rollBack dir swapped
        let _ ← attempt removeJournal
        throw failure
    | (_, none) => do
        writeImportJournal { staging := dir, entries, committed := true }
        recoverImport digest

/-- The import up to the result of the commit; an import that cannot stage its files ends here. -/
def importUntilCommit (digest : C → C) (dir : Text) (files : List (StagedImportFile C)) :
    Files C (Except Failure Unit) := do
  beginImport dir
  match ← attempt (stageFiles dir files) with
  | .error failure => do
      recoverImport digest
      throw failure
  | .ok () => attempt (commitImport digest dir files)

/-- Removes what is left of the staged files; failures do not matter to the import. -/
def cleanUp (dir : Text) (files : List (StagedImportFile C)) : Files C Unit := do
  each
    (fun file => do
      let _ ← attempt (removeFile (.staged dir file.name))
      return)
    files
  let _ ← attempt (removeDir dir)
  return

def importFiles (digest : C → C) (dir : Text) (files : List (StagedImportFile C)) :
    Files C Unit := do
  let committed ← importUntilCommit digest dir files
  cleanUp dir files
  match committed with
  | .ok () => return
  | .error failure => throw failure

/-- Recoveries one after the other, each by a process of its own and with fates of its own. -/
def recoverTimes (digest : C → C) :
    List (List (Fate (Text → Bool))) → Trail (Disk C) → Trail (Disk C)
  | [], trail => trail
  | fates :: runs, trail => recoverTimes digest runs (recoverImport digest ⟨trail, fates⟩).2.trail

end Terrarium.State
