import Terrarium.Foundations.Text

/-!
# Messages — what a sync session exchanges

The entries of a manifest, the requests the host sends to the guest agent and the agent's replies.
Paths are relative to the sync root and use `/`; the empty path is the root itself.
-/

namespace Terrarium.Sync

def maxSyncFileBytes : Nat := 16 * 2 ^ 30
def maxSyncPathBytes : Nat := 4096

/-! ## Entries -/

inductive SyncEntryKind where
  | file (size : Nat)
  | directory
  | symlink (target : Text)
  deriving DecidableEq

def SyncEntryKind.linkTarget : SyncEntryKind → Option Text
  | .symlink target => some target
  | .file _ | .directory => none

structure SyncEntry where
  relativePath : Text
  kind : SyncEntryKind
  mode : Nat
  mtimeSecs : Int
  mtimeNanos : Nat
  deriving DecidableEq

/-- The sync root when a session starts. -/
inductive RootStatus where
  | existingDirectory
  | existingFile
  | existingSymlink
  | missing
  deriving DecidableEq

/-! ## Requests and replies -/

inductive SyncRequest where
  | beginSession (guestRoot : Text)
  | scanEntries
  | computeDigest (relativePath : Text)
  /-- `size` raw bytes follow once the agent replies `writeFileReady`. -/
  | writeFile (relativePath : Text) (size mode : Nat) (mtimeSecs : Int) (mtimeNanos : Nat)
  | commitFile
  | readFile (relativePath : Text)
  | createDir (relativePath : Text) (mode : Nat)
  | createSymlink (relativePath target : Text)
  | updateMetadata (relativePath : Text) (mode : Nat) (mtimeSecs : Int) (mtimeNanos : Nat)
  | removeEntry (relativePath : Text)
  | endSession
  deriving DecidableEq

/-- A request's payload is at most this long: a link's path and target, and fixed fields. -/
def maxRequestPayloadBytes : Nat := 2 * maxSyncPathBytes + 64

inductive SyncReply where
  | sessionReady (rootStatus : RootStatus)
  | entry (entry : SyncEntry)
  | scanComplete
  | digestProgress (bytesHashed : Nat)
  | digest (sha256 : List UInt8)
  | writeFileReady
  /-- `size` raw bytes follow this reply. -/
  | readFileReady (size mode : Nat) (mtimeSecs : Int) (mtimeNanos : Nat)
  | success
  | err (message : String)
  deriving DecidableEq

/-! ## Paths -/

/-- Timestamps are kept in microseconds. -/
def truncateNanos (nanos : Nat) : Nat :=
  nanos / 1000 * 1000

def components (path : Text) : List Text :=
  path.splitOn '/'

/-- The path without its last component; the root for a top-level entry. -/
def parentPath (path : Text) : Text :=
  match Text.rsplitOnce '/' path with
  | some (parent, _) => parent
  | none => []

def validateWirePath (path : Text) : Except String Unit :=
  if Text.byteLen path > maxSyncPathBytes then
    .error "path exceeds maximum length"
  else if '\x00' ∈ path then
    .error "path cannot contain NUL bytes"
  else
    .ok ()

def validateComponent (component : Text) : Except String Unit :=
  if component = [] then
    .error "relative path contains empty components"
  else if component = ['.'] ∨ component = ['.', '.'] then
    .error "relative path contains dot or dot-dot components"
  else
    .ok ()

/-- The syntax of a relative path on the wire; the root is the empty path. -/
def validateRelativePath (path : Text) : Except String Unit :=
  if path = [] then
    .ok ()
  else do
    validateWirePath path
    (components path).forM validateComponent

end Terrarium.Sync
