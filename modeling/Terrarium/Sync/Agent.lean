import Terrarium.Foundations.Chunks
import Terrarium.Foundations.Directory
import Terrarium.Foundations.Faults
import Terrarium.Sync.Messages

/-!
# Agent — the guest side of a sync session

The agent reads requests from one connection, works on the guest's files and replies on the same
connection.  A failed request is answered and the session goes on; a failure that breaks the framing
of the connection ends it.

This file models:

* the connection, with a log of what was read as requests and what was replied;
* the guest's files, with operations that may fail at any time;
* `streamExact`, `PendingRename`, the handlers of a `Session` and the loop of `serve_sync_session`.

The decoding of a request's payload and the digest are external functions.  What befalls a step is
given in advance by its `Weather`.
-/

namespace Terrarium.Sync

open Faults Prog

/-! ## Errors -/

inductive ErrorKind where
  | notFound
  | interrupted
  | unexpectedEof
  | invalidData
  | loop
  | other
  deriving DecidableEq

structure IoError where
  kind : ErrorKind
  text : String
  deriving DecidableEq

namespace IoError

def other (text : String) : IoError := ⟨.other, text⟩

def os : IoError := other "input/output error"

def notFound : IoError := ⟨.notFound, "entity not found"⟩

def cancelled : IoError := ⟨.interrupted, "file transfer cancelled"⟩

def endOfStream : IoError := ⟨.unexpectedEof, "premature end of file transfer stream"⟩

end IoError

inductive Failure where
  /-- Replied to as an error; the session goes on. -/
  | request (error : IoError)
  /-- The connection broke or the stream lost its framing; the session ends. -/
  | session (error : IoError)
  deriving DecidableEq

/-! ## Files -/

/-- An absolute path, innermost name first. -/
abbrev Path : Type := List Text

inductive NodeKind where
  | directory
  | file (data : List UInt8)
  | symlink (target : Text)
  | special
  deriving DecidableEq

structure Node where
  kind : NodeKind
  mode : Nat
  mtimeSecs : Int
  mtimeNanos : Nat
  deriving DecidableEq

abbrev FileTree : Type := List (Path × Node)

def permissionBits : Nat := 0o777

/-! ## The connection -/

/-- What passed over the connection. -/
inductive Event where
  /-- The bytes from `start` up to `stop` were read as part of a request frame. -/
  | read (start stop : Nat)
  | requested (request : SyncRequest)
  /-- A reply was sent when `position` bytes had been read. -/
  | replied (reply : SyncReply) (position : Nat)
  deriving DecidableEq

/-- The agent: what the peer sends and is not read yet, how much was read, the log (newest first)
and the guest's files. -/
structure Agent where
  input : List UInt8
  position : Nat
  log : List Event
  files : FileTree

namespace Agent

def advance (count : Nat) (agent : Agent) : Agent :=
  { agent with
    input := agent.input.drop count
    position := agent.position + (agent.input.take count).length }

/-- Reads up to `count` bytes of a request frame. -/
def readAhead (count : Nat) (agent : Agent) : Agent :=
  { agent.advance count with
    log := .read agent.position (agent.advance count).position :: agent.log }

end Agent

/-- Programs that fail with an I/O error; an interrupted read has read so many bytes. -/
abbrev Io (α : Type) := Prog Agent Nat IoError α

/-- Programs that fail with a failure of the request or of the session. -/
abbrev Handler (α : Type) := Prog Agent Nat Failure α

/-- What the conversion of an I/O error does. -/
def asRequest {α : Type} (m : Io α) : Handler α :=
  mapError .request m

def asSession {α : Type} (m : Io α) : Handler α :=
  mapError .session m

def ensureNotCancelled : Io Unit :=
  atomic .cancelled fun agent => .ok ((), agent)

def sendReply (reply : SyncReply) : Io Unit :=
  atomic .os fun agent => .ok ((), { agent with log := .replied reply agent.position :: agent.log })

/-- Sends a reply before the request's closing one. -/
def sendPartial (reply : SyncReply) : Handler Unit :=
  asSession (sendReply reply)

/-! ## Request frames -/

def readExact (count : Nat) : Io (List UInt8) := do
  let bytes ← breakable .os (fun agent => .ok (agent.input.take count, agent.readAhead count))
    fun read agent => agent.readAhead (min read count)
  if bytes.length < count then
    throw ⟨.unexpectedEof, "failed to fill whole buffer"⟩
  else
    return bytes

/-- The little-endian number in a frame's length prefix. -/
def littleEndian (bytes : List UInt8) : Nat :=
  bytes.foldr (fun byte rest => byte.toNat + 256 * rest) 0

def framePayloadLen (header : List UInt8) : Except IoError Nat :=
  if littleEndian header > maxRequestPayloadBytes then
    .error ⟨.invalidData, "framed message exceeds the limit"⟩
  else
    .ok (littleEndian header)

def ofExcept {α : Type} (result : Except IoError α) : Io α :=
  compute fun agent => (result, agent)

abbrev DecodeRequest : Type := List UInt8 → Except IoError SyncRequest

def readFrameRest (decode : DecodeRequest) (first : List UInt8) :
    Io (Option SyncRequest) := do
  let rest ← readExact 3
  let len ← ofExcept (framePayloadLen (first ++ rest))
  let payload ← readExact len
  let request ← compute fun agent =>
    match decode payload with
    | .ok request => (.ok request, { agent with log := .requested request :: agent.log })
    | .error error => (.error error, agent)
  return some request

/-- Reads one frame; `none` at the end of the stream. -/
def readFrame (decode : DecodeRequest) : Io (Option SyncRequest) := do
  match ← attempt (readExact 1) with
  | .ok first => readFrameRest decode first
  | .error error => if error.kind = .unexpectedEof then return none else throw error

/-! ## Streams -/

/-- What befalls one round of `streamExact`. -/
inductive ChunkFate where
  /-- A read of so many bytes, or as many as are wanted and there, which are then written. -/
  | moves (count : Nat)
  | interrupted
  | cancelledBeforeRead
  | readFails
  | cancelledBeforeWrite (count : Nat)
  | writeFails (count : Nat)
  deriving DecidableEq

def streamBufferBytes : Nat := 8192

/-- The bytes one read gets: at least one, at most the buffer and what remains. -/
def chunkSize (count remaining : Nat) : Nat :=
  min (max count 1) (min streamBufferBytes remaining)

section Stream

variable {S : Type} (receive : Nat → S → List UInt8 × S) (deliver : List UInt8 → S → S)

/-- Moves exactly `remaining` bytes; past the given fates every round works, so the rest is moved as
one. -/
def streamExact : List ChunkFate → Nat → S → Except IoError Unit × S
  | _, 0, s => (.ok (), s)
  | [], remaining, s =>
      let (bytes, s) := receive remaining s
      (if bytes.length < remaining then .error .endOfStream else .ok (), deliver bytes s)
  | .interrupted :: fates, remaining, s => streamExact fates remaining s
  | .cancelledBeforeRead :: _, _, s => (.error .cancelled, s)
  | .readFails :: _, _, s => (.error .os, s)
  | .moves count :: fates, remaining, s =>
      let (bytes, s) := receive (chunkSize count remaining) s
      if bytes = [] then
        (.error .endOfStream, s)
      else
        streamExact fates (remaining - bytes.length) (deliver bytes s)
  | .cancelledBeforeWrite count :: _, remaining, s =>
      let (bytes, s) := receive (chunkSize count remaining) s
      (.error (if bytes = [] then .endOfStream else .cancelled), s)
  | .writeFails count :: _, remaining, s =>
      let (bytes, s) := receive (chunkSize count remaining) s
      (.error (if bytes = [] then .endOfStream else .os), s)

end Stream

/-- What befalls a step of a session: its operations in order, the rounds of the stream in it, the
random number for a temporary name, and whether a temporary entry can be removed. -/
structure Weather where
  fates : List (Fate Nat)
  rounds : List ChunkFate
  random : Nat
  unlinks : Bool

/-! ## File operations -/

def onFiles {α : Type} (effect : FileTree → Except IoError (α × FileTree)) : Io α :=
  atomic .os fun agent => (effect agent.files).map fun result =>
    (result.1, { agent with files := result.2 })

/-- An operation whose effect nothing here depends on. -/
def quietly : Io Unit :=
  onFiles fun files => .ok ((), files)

def lookup (files : FileTree) (path : Path) : Except IoError Node :=
  match Directory.find files path with
  | some node => .ok node
  | none => .error .notFound

def symlinkMetadata (path : Path) : Io Node :=
  onFiles fun files => (lookup files path).map (·, files)

def openDirectory (path : Path) : Io Unit :=
  onFiles fun files => do
    let node ← lookup files path
    if node.kind = .directory then .ok ((), files) else .error (.other "not a directory")

/-- `mkdirat`, where an entry that exists is left for the open that follows. -/
def makeDirectory (path : Path) : Io Unit :=
  onFiles fun files =>
    match Directory.find files path with
    | some _ => .ok ((), files)
    | none => .ok ((), Directory.insert path ⟨.directory, 0o755, 0, 0⟩ files)

def handOver : Io Unit := quietly

def createNew (path : Path) (node : Node) : Io Unit :=
  onFiles fun files =>
    match Directory.find files path with
    | some _ => .error (.other "file exists")
    | none => .ok ((), Directory.insert path node files)

def updateNode (path : Path) (update : Node → Node) (files : FileTree) : FileTree :=
  match Directory.find files path with
  | some node => Directory.insert path (update node) files
  | none => files

def setNode (path : Path) (update : Node → Node) : Io Unit :=
  onFiles fun files => .ok ((), updateNode path update files)

def appendData (bytes : List UInt8) (node : Node) : Node :=
  match node.kind with
  | .file data => { node with kind := .file (data ++ bytes) }
  | _ => node

def truncateData (size : Nat) (node : Node) : Node :=
  match node.kind with
  | .file data =>
      { node with kind := .file (data.take size ++ List.replicate (size - data.length) 0) }
  | _ => node

def applyAttributes (path : Path) (mode : Nat) (mtimeSecs : Int) (mtimeNanos : Nat) : Io Unit := do
  setNode path fun node => { node with mode := mode &&& permissionBits }
  setNode path fun node => { node with mtimeSecs, mtimeNanos }

/-- `renameat` of a file or link over a file, a link or nothing. -/
def renameEntry (source target : Path) : Io Unit :=
  onFiles fun files => do
    let node ← lookup files source
    match Directory.find files target with
    | some ⟨.directory, _, _, _⟩ => .error (.other "is a directory")
    | _ => .ok ((), Directory.insert target node (Directory.erase source files))

def removeFile (path : Path) : Io Unit :=
  onFiles fun files => do
    let _ ← lookup files path
    .ok ((), Directory.erase path files)

def removeDirectory (path : Path) : Io Unit :=
  onFiles fun files => do
    let _ ← lookup files path
    if files.any fun entry => entry.1.tail = path && entry.1 ≠ path then
      .error (.other "directory not empty")
    else
      .ok ((), Directory.erase path files)

/-! ## Directories -/

/-- The innermost existing directory on the way to `path`, and the missing names below it, outermost
first. -/
def findExisting : Path → Io (Path × List Text)
  | [] => do
      openDirectory []
      return ([], [])
  | name :: parent => do
      match ← attempt (openDirectory (name :: parent)) with
      | .ok () => return (name :: parent, [])
      | .error error =>
          if error.kind = .notFound then do
            let (existing, missing) ← findExisting parent
            return (existing, missing ++ [name])
          else
            throw error

def createMissing : Path → List Text → Io Unit
  | _, [] => return
  | parent, name :: missing => do
      makeDirectory (name :: parent)
      openDirectory (name :: parent)
      handOver
      createMissing (name :: parent) missing

def openOrCreateDirectory (path : Path) : Io Unit := do
  let (existing, missing) ← findExisting path
  createMissing existing missing

def ensureDirectory (path : Path) : Io Unit :=
  openOrCreateDirectory path

/-! ## Entries made under a temporary name -/

/-- An entry under a temporary name beside its destination; dropping it uncommitted removes it. -/
structure PendingRename where
  parent : Path
  tempName : Text
  destinationName : Text

def hexDigits (random : Nat) : Text :=
  let digits := Nat.toDigits 16 random
  List.replicate (32 - digits.length) '0' ++ digits

namespace PendingRename

def temp (pending : PendingRename) : Path := pending.tempName :: pending.parent

def destination (pending : PendingRename) : Path := pending.destinationName :: pending.parent

def create (weather : Weather) (destination : Path) (node : Node) : Io PendingRename :=
  match destination with
  | [] => throw (.other "destination has no parent directory")
  | destinationName :: parent => do
      openDirectory parent
      quietly
      let tempName := ".terra-put-".toList ++ hexDigits weather.random
      createNew (tempName :: parent) node
      return { parent, tempName, destinationName }

def commit (pending : PendingRename) : Io Unit :=
  renameEntry pending.temp pending.destination

/-- The removal of an uncommitted entry, whose own failure is ignored. -/
def discard (weather : Weather) (pending : PendingRename) : Handler Unit :=
  compute fun agent =>
    (.ok
      (), if weather.unlinks then { agent with files := Directory.erase pending.temp agent.files }
      else agent)

/-- What is done with a pending entry; unless it ends well the entry is dropped uncommitted. -/
def orDiscard {α : Type} (weather : Weather) (pending : PendingRename) (m : Handler α) :
    Handler α := do
  match ← attempt m with
  | .ok a => return a
  | .error failure => do
      discard weather pending
      throw failure

end PendingRename

/-! ## The session -/

structure Session where
  root : Path
  rootStatus : RootStatus

def parsePath (path : Text) : Path :=
  ((components path).filter fun name => name ≠ [] && name ≠ ['.']).reverse

def inspectRoot (path : Path) : Io RootStatus := do
  match ← attempt (symlinkMetadata path) with
  | .ok node =>
      match node.kind with
      | .directory => return .existingDirectory
      | .symlink _ => return .existingSymlink
      | .file _ => return .existingFile
      | .special => throw (.other "root is an unsupported file type")
  | .error error => if error.kind = .notFound then return .missing else throw error

namespace Session

def start (guestRoot : Text) : Io Session := do
  let rootStatus ← inspectRoot (parsePath guestRoot)
  return { root := parsePath guestRoot, rootStatus }

def pathOf (session : Session) (relativePath : Text) : Path :=
  if relativePath = [] then session.root else (components relativePath).reverse ++ session.root

/-- The way to `path` below a directory, none of whose entries may be anything but a directory. -/
def resolveFrom (path : Path) : List Text → Io Path
  | [] => return path
  | component :: rest => do
      match ← attempt (symlinkMetadata path) with
      | .ok node =>
          if node.kind = .directory then
            resolveFrom (component :: path) rest
          else
            throw (.other "sync parent is not a directory")
      | .error error =>
          if error.kind = .notFound then resolveFrom (component :: path) rest else throw error

def resolve (session : Session) (relativePath : Text) : Io Path :=
  if relativePath = [] then
    return session.root
  else
    resolveFrom session.root (components relativePath)

def resolveCreatingParent (session : Session) (relativePath : Text) : Io Path := do
  let path ← session.resolve relativePath
  match path with
  | [] => return path
  | _ :: parent => do
      ensureDirectory parent
      return path

end Session

/-! ## Reading handlers -/

def entryKind (node : Node) : Except IoError SyncEntryKind :=
  match node.kind with
  | .directory => .ok .directory
  | .symlink target => .ok (.symlink target)
  | .file data =>
      if data.length > maxSyncFileBytes then
        .error (.other "file is larger than the 16 GiB sync limit")
      else
        .ok (.file data.length)
  | .special => .error (.other "unsupported special file")

def entryAt (path : Path) (relativePath : Text) : Io SyncEntry := do
  let node ← symlinkMetadata path
  let kind ← ofExcept (entryKind node)
  return {
    relativePath, kind
    mode := node.mode &&& permissionBits
    mtimeSecs := node.mtimeSecs
    mtimeNanos := truncateNanos node.mtimeNanos }

def readDir (path : Path) : Io (List Text) :=
  onFiles fun files => do
    let node ← lookup files path
    if node.kind = .directory then
      .ok (files.filterMap fun entry =>
        match entry.1 with
        | [] => none
        | name :: parent => if parent = path then some name else none, files)
    else
      .error (.other "reading directory: not a directory")

def joinRelative (parent name : Text) : Text :=
  if parent = [] then name else parent ++ '/' :: name

/-- A regular file within the sync limit; an entry that is a link is not followed. -/
def openRegularFile (path : Path) : Io (Node × List UInt8) := do
  let node ← symlinkMetadata path
  match node.kind with
  | .symlink _ => throw ⟨.loop, "too many levels of symbolic links"⟩
  | .directory => throw (.other "is a directory")
  | .special => throw (.other "not a regular file")
  | .file data =>
      if data.length > maxSyncFileBytes then
        throw (.other "file is larger than the 16 GiB sync limit")
      else
        return (node, data)

def isUnchangedSince (path : Path) (before : Node) : Io Bool := do
  match ← attempt (symlinkMetadata path) with
  | .ok after => return decide (after.kind = before.kind ∧ after.mtimeSecs = before.mtimeSecs ∧
      after.mtimeNanos = before.mtimeNanos)
  | .error _ => return false

/-- Whether an interval has passed is up to the clock: the fate of the question decides. -/
def hasElapsed : Io Bool := do
  match ← attempt quietly with
  | .ok () => return false
  | .error _ => return true

namespace Session

variable (session : Session)

def childEntry (parentPath name : Text) : Io SyncEntry :=
  entryAt (session.pathOf (joinRelative parentPath name)) (joinRelative parentPath name)

/-- The entries of one directory; returns the directories among them. -/
def scanNames (relativePath : Text) : List Text → Handler (List Text)
  | [] => return []
  | name :: names => do
      asRequest ensureNotCancelled
      let child ← asRequest (session.childEntry relativePath name)
      sendPartial (.entry child)
      let directories ← scanNames relativePath names
      return if child.kind = .directory then child.relativePath :: directories else directories

/-- Breadth first; there are no more directories than entries, so `fuel` does not run out. -/
def scanTree : Nat → List Text → Handler Unit
  | 0, _ => return
  | _, [] => return
  | fuel + 1, relativePath :: pending => do
      asRequest ensureNotCancelled
      let names ← asRequest (readDir (session.pathOf relativePath))
      let directories ← session.scanNames relativePath names
      scanTree fuel (pending ++ directories)

def scan : Handler SyncReply := do
  asRequest ensureNotCancelled
  if session.rootStatus = .missing then
    return .scanComplete
  else do
    let root ← asRequest (entryAt session.root [])
    sendPartial (.entry root)
    if root.kind = .directory then do
      let entries ← asRequest (onFiles fun files => .ok (files.length, files))
      session.scanTree (entries + 1) [[]]
      return .scanComplete
    else
      return .scanComplete

def hashChunks : List (List UInt8) → Nat → Handler Unit
  | [], _ => return
  | chunk :: chunks, hashed => do
      asRequest ensureNotCancelled
      asRequest quietly
      asRequest quietly
      let hashed := hashed + chunk.length
      if ← asRequest hasElapsed then do
        sendPartial (.digestProgress hashed)
        hashChunks chunks hashed
      else
        hashChunks chunks hashed

def digest (sha256 : List UInt8 → List UInt8) (relativePath : Text) : Handler SyncReply := do
  let path ← asRequest (session.resolve relativePath)
  let (before, data) ← asRequest (openRegularFile path)
  hashChunks (Chunks.chunks 8192 data) 0
  if ← asRequest (isUnchangedSince path before) then
    return .digest (sha256 data)
  else
    throw (.request (.other "source changed while hashing"))

def readFile (weather : Weather) (relativePath : Text) : Handler SyncReply := do
  let path ← asRequest (session.resolve relativePath)
  let (before, data) ← asRequest (openRegularFile path)
  sendPartial (.readFileReady data.length (before.mode &&& permissionBits) before.mtimeSecs
    (truncateNanos before.mtimeNanos))
  -- The host reads exactly this many bytes next, so a reply can no longer be framed.
  asSession (compute fun agent =>
    ((streamExact (fun count left => (left.take count, left.drop count)) (fun _ left => left)
      weather.rounds data.length data).1, agent))
  if ← asRequest (isUnchangedSince path before) then
    return .success
  else
    throw (.request (.other "source changed while transferring"))

/-! ## Changing handlers -/

/-- The body of an upload, from the connection into the temporary file. -/
def receiveBody (weather : Weather) (upload : PendingRename) (size : Nat) : Io Unit :=
  compute (streamExact (fun count agent => (agent.input.take count, agent.advance count))
    (fun bytes agent =>
      { agent with files := updateNode upload.temp (appendData bytes) agent.files })
    weather.rounds size)

def expectCommit (decode : DecodeRequest) : Handler Unit := do
  match ← asRequest (readFrame decode) with
  | some .commitFile => return
  | _ => throw (.request (.other "upload was not committed by sender"))

/-- What is left to do once the body is complete. -/
def finishUpload (upload : PendingRename) (size mode : Nat) (mtimeSecs : Int) (mtimeNanos : Nat) :
    Io Unit := do
  ensureNotCancelled
  setNode upload.temp (truncateData size)
  handOver
  applyAttributes upload.temp mode mtimeSecs mtimeNanos
  quietly
  ensureNotCancelled
  upload.commit

def writeFile (decode : DecodeRequest) (weather : Weather)
    (relativePath : Text) (size mode : Nat) (mtimeSecs : Int) (mtimeNanos : Nat) :
    Handler SyncReply := do
  let destination ← asRequest (session.resolveCreatingParent relativePath)
  let upload ← asRequest (PendingRename.create weather destination ⟨.file [], 0o600, 0, 0⟩)
  upload.orDiscard weather do
    sendPartial .writeFileReady
    asRequest (receiveBody weather upload size)
    asRequest ensureNotCancelled
    expectCommit decode
    asRequest (finishUpload upload size mode mtimeSecs mtimeNanos)
    return .success

def createDirectory (relativePath : Text) (mode : Nat) : Handler SyncReply := asRequest do
  let path ← session.resolveCreatingParent relativePath
  openOrCreateDirectory path
  setNode path fun node => { node with mode := (mode &&& permissionBits) ||| 0o700 }
  return .success

def createSymlink (weather : Weather) (relativePath target : Text) : Handler SyncReply := do
  let destination ← asRequest (session.resolveCreatingParent relativePath)
  let link ← asRequest (PendingRename.create weather destination ⟨.symlink target, 0o777, 0, 0⟩)
  link.orDiscard weather do
    asRequest link.commit
    return .success

def updateMetadata (relativePath : Text) (mode : Nat) (mtimeSecs : Int) (mtimeNanos : Nat) :
    Handler SyncReply := asRequest do
  let path ← session.resolve relativePath
  let node ← symlinkMetadata path
  match node.kind with
  | .symlink _ => throw (.other "cannot update symlink metadata")
  | _ => do
      applyAttributes path mode mtimeSecs mtimeNanos
      return .success

def removeEntry (relativePath : Text) : Handler SyncReply := asRequest do
  if relativePath = [] then
    throw (.other "cannot remove session root itself")
  else do
    let path ← session.resolve relativePath
    let node ← symlinkMetadata path
    if node.kind = .directory then do
      removeDirectory path
      return .success
    else do
      removeFile path
      return .success

end Session

/-! ## The loop -/

def onActive (session : Option Session) (handler : Session → Handler SyncReply) :
    Io (Option Session × Except Failure SyncReply) :=
  match session with
  | none => throw (.other "sync request before BeginSession")
  | some active => do
      let reply ← attempt (handler active)
      return (session, reply)

section Serve

variable (decode : DecodeRequest) (sha256 : List UInt8 → List UInt8)

/-- The session after a request, and how the request ended. -/
def answer (weather : Weather) (session : Option Session) :
    SyncRequest → Io (Option Session × Except Failure SyncReply)
  | .beginSession guestRoot => do
      match ← attempt (Session.start guestRoot) with
      | .ok begun => return (some begun, .ok (.sessionReady begun.rootStatus))
      | .error error => return (none, .error (.request error))
  | .endSession => return (session, .ok .success)
  | .commitFile => throw (.other "unexpected file commit")
  | .scanEntries => onActive session fun active => active.scan
  | .computeDigest relativePath => onActive session fun active => active.digest sha256 relativePath
  | .writeFile relativePath size mode mtimeSecs mtimeNanos =>
      onActive session fun active =>
        active.writeFile decode weather relativePath size mode mtimeSecs mtimeNanos
  | .readFile relativePath => onActive session fun active => active.readFile weather relativePath
  | .createDir relativePath mode =>
      onActive session fun active => active.createDirectory relativePath mode
  | .createSymlink relativePath target =>
      onActive session fun active => active.createSymlink weather relativePath target
  | .updateMetadata relativePath mode mtimeSecs mtimeNanos =>
      onActive session fun active => active.updateMetadata relativePath mode mtimeSecs mtimeNanos
  | .removeEntry relativePath => onActive session fun active => active.removeEntry relativePath

def sendAnswer : Except Failure SyncReply → Io Unit
  | .ok reply => sendReply reply
  | .error (.request error) => sendReply (.err error.text)
  | .error (.session error) => throw error

/-- A request that was read; `none` when it ends the session. -/
def serveRequest (weather : Weather) (session : Option Session) (request : SyncRequest) :
    Io (Option (Option Session)) := do
  ensureNotCancelled
  let (session, reply) ← answer decode sha256 weather session request
  sendAnswer reply
  return if request = .endSession then none else some session

def serveOne (weather : Weather) (session : Option Session) : Io (Option (Option Session)) := do
  match ← readFrame decode with
  | none => return none
  | some request => serveRequest decode sha256 weather session request

/-- The rounds of a session, one for each weather, up to the end of the session. -/
def serve : List Weather → Option Session → Trail Agent → Trail Agent
  | [], _, trail => trail
  | weather :: weathers, session, trail =>
      match serveOne decode sha256 weather session ⟨trail, weather.fates⟩ with
      | (.done (some session), world) => serve weathers session world.trail
      | (_, world) => world.trail

end Serve

end Terrarium.Sync
