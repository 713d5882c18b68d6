import Terrarium.Foundations.Async
import Terrarium.Fs.Tables

/-!
# Requests — the work of one request

Most requests need the host, whose answers take time: their work is a task that is suspended while
the host answers, and reaches the tables only in between.  Every access to the tables compares the
reset count with the one the request was accepted under.

* `World` — what tasks share: the tables and the transport's reset count;
* `execute` — the task of each request;
* `executeImmediate`, `forgetRequest` — requests that need no host.
-/

namespace Terrarium.Fs

open Async (Task Fallible callResult immediate)
open FiniteMap (size)
open Wire (leBytes)

/-! ## The world of a task -/

/-- Both are gone once the device is closed. -/
structure World where
  state : Option State
  resetCount : Option Nat

/-- An access to the tables for a request that was accepted under `resetCount`. -/
def World.access {α : Type} (resetCount : Nat) (operation : State → Except Errno α × State)
    (world : World) : Except Errno α × World :=
  if world.resetCount = some resetCount then
    match world.state with
    | none => (.error eio, world)
    | some state => ((operation state).1, { world with state := some (operation state).2 })
  else
    (.error eio, world)

/-- What the host is asked.  Functions of `host.rs` do not see the tables, so each is one call. -/
inductive HostCall where
  | root
  | stat (node : Node)
  | lookup (parent : Node) (name : Bytes)
  | readlink (node : Node)
  | setattr (node : Node) (openFile : Option Descriptor) (mode size : Option Nat)
    (atime mtime : Option Instant)
  | mkdir (parent : Node) (name : Bytes) (mode : Nat)
  | create (parent : Node) (name : Bytes) (flags : CreateFlags) (mode : Nat)
  | unlink (parent : Node) (name : Bytes) (directory : Bool)
  | resolveDescriptor (node : Node)
  | statAt (parent : Descriptor) (name : Bytes)
  | metadataHashAt (parent : Descriptor) (name : Bytes)
  | metadataHash (descriptor : Descriptor)
  | childIdentity (node : Node) (path : Bytes)
  | releaseDescriptor (descriptor : Descriptor)
  | rename (oldParent : Node) (oldName : Bytes) (newParent : Node) (newName : Bytes)
  | link (old parent : Node) (name : Bytes)
  | symlink (parent : Node) (name target : Bytes)
  | openFile (node : Node) (access : Access) (truncate : Bool)
  | openDirectory (node : Node)
  | readdir (directory : Directory) (cookie maxEntries maxBytes : Nat)
  | statfs (node : Node)
  | read (descriptor : Descriptor) (offset size : Nat)
  | write (descriptor : Descriptor) (offset : Nat) (bytes : Bytes)
  | sync (descriptor : Descriptor)
  | syncData (descriptor : Descriptor)

namespace HostCall

/-- What the host answers with.  `statAt` tells whether the file is a directory; `metadataHashAt`
also tells whether no clone of the node's descriptor is in use when the answer arrives. -/
@[reducible] def Value : HostCall → Type
  | root => Node
  | stat _ => Stat
  | lookup _ _ => Node
  | readlink _ => Bytes
  | setattr _ _ _ _ _ _ => Unit
  | mkdir _ _ _ => Node
  | create _ _ _ _ => Node × Descriptor
  | unlink _ _ _ => Unit
  | resolveDescriptor _ => Descriptor
  | statAt _ _ => Bool
  | metadataHashAt _ _ => Identity × Bool
  | metadataHash _ => Identity
  | childIdentity _ _ => Identity
  | releaseDescriptor _ => Unit
  | rename _ _ _ _ => Unit
  | link _ _ _ => Unit
  | symlink _ _ _ => Node
  | openFile _ _ _ => Descriptor
  | openDirectory _ => Directory × Descriptor
  | readdir _ _ _ _ => List DirectoryEntry
  | statfs _ => FilesystemStat
  | read _ _ _ => Bytes
  | write _ _ _ => Unit
  | sync _ => Unit
  | syncData _ => Unit

abbrev Reply (call : HostCall) : Type := Except Errno call.Value

end HostCall

abbrev Work (α : Type) := Fallible World HostCall.Reply Errno α

def host (call : HostCall) : Work call.Value :=
  callResult call id

def attempt (call : HostCall) : Work (Except Errno call.Value) :=
  callResult call .ok

/-- `RequestState::with`. -/
def withState {α : Type} (resetCount : Nat) (operation : State → Except Errno α × State) : Work α :=
  Async.update (World.access resetCount operation)

/-! ## Requests that need the host -/

section Execute

variable (resetCount : Nat) (request : Request)

def requestNode (id : Nat) : Work Node :=
  withState resetCount fun state =>
    match state.nodes.lookup id with
    | some record => (.ok record.node, state)
    | none => (.error enoent, state)

def insertEntry (child : Node) : Work Bytes := do
  let stat ← host (.stat child)
  let inode ← withState resetCount fun state => state.nodeId child stat
  return entryOut stat inode

def lookupEntry : Work Bytes := do
  let name ← immediate (name request.body)
  let parent ← requestNode resetCount request.node
  let child ← host (.lookup parent name)
  insertEntry resetCount child

def fixedOwnerId : Nat := 1000

def fixedOwner (uid gid : Option Nat) : Bool :=
  uid.all (· = fixedOwnerId) && gid.all (· = fixedOwnerId)

def timestamp (seconds nanoseconds : Nat) : Instant :=
  ⟨min seconds (2 ^ 63 - 1), nanoseconds⟩

def ifValid {α : Type} (valid bit : Nat) (value : α) : Option α :=
  if valid &&& bit ≠ 0 then some value else none

/-- The descriptor of the handle a request names, if it may write to the request's node. -/
def writableHandle (valid : Nat) : Work (Option Descriptor) :=
  if valid &&& 64 ≠ 0 then do
    let handle ← immediate (u64At request.body 8)
    withState resetCount fun state =>
      (.ok ((state.handles.lookup handle).bind fun handle =>
        if handle.writable ∧ handle.node = request.node then some handle.descriptor
          else none), state)
  else
    return none

def setAttributes : Work Bytes := do
  let valid ← immediate (u32At request.body 0)
  let size ← immediate (u64At request.body 16)
  let atime := timestamp (← immediate (u64At request.body 32)) (← immediate (u32At request.body 56))
  let mtime := timestamp (← immediate (u64At request.body 40)) (← immediate (u32At request.body 60))
  let mode ← immediate (u32At request.body 68)
  let uid ← immediate (u32At request.body 76)
  let gid ← immediate (u32At request.body 80)
  let _ ← immediate (if fixedOwner (ifValid valid 2 uid) (ifValid valid 4 gid) then .ok ()
    else .error eopnotsupp)
  let node ← requestNode resetCount request.node
  let openFile ← writableHandle resetCount request valid
  let _ ← host (.setattr node openFile (ifValid valid 1 mode) (ifValid valid 8 size)
    (ifValid valid 16 atime) (ifValid valid 32 mtime))
  let stat ← host (.stat node)
  return attrOut stat

def createDirectory : Work Bytes := do
  let mode ← immediate (u32At request.body 0)
  let name ← immediate (name (request.body.drop 8))
  let parent ← requestNode resetCount request.node
  let child ← host (.mkdir parent name mode)
  insertEntry resetCount child

def createFile : Work Bytes := do
  let flags ← immediate (u32At request.body 0)
  let mode ← immediate (u32At request.body 4)
  let name ← immediate (name (request.body.drop 16))
  let parent ← requestNode resetCount request.node
  let createFlags ← immediate (createFlags flags)
  let (child, descriptor) ← host (.create parent name createFlags mode)
  let stat ← host (.stat child)
  let inode ← withState resetCount fun state => state.nodeId child stat
  let handle ← withState resetCount fun state =>
    state.storeHandle inode descriptor (flags &&& oAccmode ≠ 0)
  return entryOut stat inode ++ openOut handle

/-- `core::str::from_utf8`. -/
def utf8 (bytes : Bytes) : Except Errno Bytes :=
  if ByteArray.validateUTF8 ⟨bytes.toArray⟩ then .ok bytes else .error eilseq

/-- The cached descriptor of a directory that is to be removed, if it can be given up. -/
def releaseCached (parent : Node) (name : Bytes) : Work (Option Descriptor) := do
  let parentDescriptor ← host (.resolveDescriptor parent)
  let childName ← immediate (utf8 name)
  let isDirectory ← attempt (.statAt parentDescriptor childName)
  match isDirectory with
  | .ok true =>
      let identity ← attempt (.metadataHashAt parentDescriptor childName)
      match identity with
      | .ok (identity, unshared) =>
          withState resetCount fun state =>
            match state.nodeIdByIdentity.lookup identity with
            | none => (.ok none, state)
            | some id =>
                if id = 1 then
                  (.ok none, state)
                else
                  (.ok ((state.nodes.lookup id).bind fun record =>
                      (record.node.releaseCachedDirectory unshared parentDescriptor
                        childName identity).1),
                    state.setNode id fun node =>
                      (node.releaseCachedDirectory unshared parentDescriptor childName identity).2)
      | .error _ => return none
  | _ => return none

def removeEntry : Work Bytes := do
  let name ← immediate (name request.body)
  let parent ← requestNode resetCount request.node
  let isDirectory : Bool := request.opcode = .rmdir
  let removed ← attempt (.unlink parent name isDirectory)
  match removed with
  | .ok () => return []
  | .error error =>
      if error = eacces ∧ isDirectory then
        let released ← releaseCached resetCount parent name
        let descriptor ← immediate
          (match released with | some descriptor => .ok descriptor | none => .error eacces)
        let _ ← host (.releaseDescriptor descriptor)
        let _ ← host (.unlink parent name isDirectory)
        return []
      else
        immediate (.error error)

def renameEntry : Work Bytes := do
  let newParentId ← immediate (u64At request.body 0)
  let offset := if request.opcode = .rename2 then 16 else 8
  let (oldName, newName) ← immediate (names (request.body.drop offset))
  let flags ← immediate (if request.opcode = .rename2 then u32At request.body 8 else .ok 0)
  let _ ← immediate (if flags = 0 then .ok () else if flags ≤ 2 then .error eopnotsupp
    else .error enosys)
  let oldParent ← requestNode resetCount request.node
  let newParent ← requestNode resetCount newParentId
  let newParentDescriptor ← host (.resolveDescriptor newParent)
  let renamed ← host (.lookup oldParent oldName)
  let stat ← host (.stat renamed)
  let _ ← host (.rename oldParent oldName newParent newName)
  let _ ← withState resetCount fun state =>
    (.ok (), state.repointNode stat newParentDescriptor newName)
  return []

def linkEntry : Work Bytes := do
  let oldInode ← immediate (u64At request.body 0)
  let name ← immediate (name (request.body.drop 8))
  let old ← requestNode resetCount oldInode
  let parent ← requestNode resetCount request.node
  let _ ← host (.link old parent name)
  let stat ← host (.stat old)
  let _ ← withState resetCount fun state => (.ok (), state.incrementLookup oldInode)
  return entryOut stat oldInode

def createSymlink : Work Bytes := do
  let (name, target) ← immediate (symlinkParts request.body)
  let parent ← requestNode resetCount request.node
  let child ← host (.symlink parent name target)
  insertEntry resetCount child

def openFile : Work Bytes := do
  let flags ← immediate (u32At request.body 0)
  let (access, writable, truncate) ← immediate (openFlags flags)
  let node ← requestNode resetCount request.node
  let descriptor ← host (.openFile node access truncate)
  let handle ← withState resetCount fun state => state.storeHandle request.node descriptor writable
  return openOut handle

def openDirectory : Work Bytes := do
  let node ← requestNode resetCount request.node
  let (directory, descriptor) ← host (.openDirectory node)
  let handle ← withState resetCount fun state =>
    state.storeDirectory request.node directory descriptor
  return openOut handle

def readDirectory : Work Bytes := do
  let handle ← immediate (u64At request.body 0)
  let cookie ← immediate (u64At request.body 8)
  let size ← immediate (u32At request.body 16)
  let directory ← withState resetCount fun state =>
    match state.directories.lookup handle with
    | some directory => (.ok directory.directory, state)
    | none => (.error enoent, state)
  let entries ← host (.readdir directory cookie 256 size)
  return direntsOut entries size

def getAttributes : Work Bytes := do
  let node ← requestNode resetCount request.node
  let stat ← host (.stat node)
  return attrOut stat

def readLink : Work Bytes := do
  let node ← requestNode resetCount request.node
  host (.readlink node)

def filesystemStat : Work Bytes := do
  let node ← requestNode resetCount request.node
  let stat ← host (.statfs node)
  return statfsOut stat

def execute : Work Bytes :=
  match request.opcode with
  | .getattr => getAttributes resetCount request
  | .lookup => lookupEntry resetCount request
  | .readlink => readLink resetCount request
  | .setattr => setAttributes resetCount request
  | .mkdir => createDirectory resetCount request
  | .create => createFile resetCount request
  | .unlink | .rmdir => removeEntry resetCount request
  | .rename | .rename2 => renameEntry resetCount request
  | .link => linkEntry resetCount request
  | .symlink => createSymlink resetCount request
  | .openFile => openFile resetCount request
  | .opendir => openDirectory resetCount request
  | .readdir => readDirectory resetCount request
  | .statfs => filesystemStat resetCount request
  | _ => immediate (.error enosys)

/-- What a lookup found is remembered for the events of the directory. -/
def executeRemembering : Work Bytes := do
  let response ← execute resetCount request
  if request.opcode = .lookup then
    let _ ← withState resetCount fun state => (.ok (), state.rememberLookup request response)
    return response
  else
    return response

end Execute

/-! ## Operations for the scheduler -/

structure RequestWork where
  opcode : Opcode
  task : Work Bytes

section Prepare

variable (state : State) (request : Request)

def fileIdentity (node : Nat) : Except Errno Identity :=
  match state.nodes.lookup node with
  | some record => .ok record.identity
  | none => .error ebadf

def readSize : Except Errno Nat := do
  let size ← u32At request.body 16
  if maxRead < size then
    throw einval
  return size

def fileWork (handle : OpenHandle) : Except Errno (Work Bytes) :=
  match request.opcode with
  | .read => do
      let offset ← u64At request.body 8
      let size ← readSize request
      return host (.read handle.descriptor offset size)
  | .write => do
      let offset ← u64At request.body 8
      let size ← u32At request.body 16
      if request.body.length < 40 ∨ (request.body.drop 40).length ≠ size then
        throw einval
      else if ¬ handle.writable then
        throw ebadf
      else
        return do
          let _ ← host (.write handle.descriptor offset (request.body.drop 40))
          return writeOut size
  | .fsync =>
      return do
        let _ ← host (.syncData handle.descriptor)
        return []
  | _ => throw enosys

def prepareFileIo : Except Errno (PreparedIo RequestWork) := do
  let id ← u64At request.body 0
  if request.opcode = .fsyncdir then
    match state.directories.lookup id with
    | none => throw ebadf
    | some directory =>
        let identity ← fileIdentity state directory.node
        let work : Work Bytes := do
          let _ ← host (.sync directory.descriptor)
          return []
        return ⟨some identity, ⟨request.opcode, work⟩⟩
  else
    match state.handles.lookup id with
    | none => throw ebadf
    | some handle =>
        let work ← fileWork request handle
        let identity ← fileIdentity state handle.node
        return ⟨some identity, ⟨request.opcode, work⟩⟩

def prepareIo (resetCount : Nat) : Except Errno (PreparedIo RequestWork) :=
  match request.opcode with
  | .read | .write | .fsync | .fsyncdir => prepareFileIo state request
  | .getattr | .lookup | .readlink | .statfs | .readdir =>
      .ok ⟨none, ⟨request.opcode, executeRemembering resetCount request⟩⟩
  | _ => do
      let identity ← fileIdentity state request.node
      return ⟨some identity, ⟨request.opcode, executeRemembering resetCount request⟩⟩

/-! ## Requests that need no host -/

def releaseFile : Except Errno Bytes × State :=
  match u64At request.body 0, u32At request.body 12, u64At request.body 16 with
  | .ok id, .ok flags, .ok _ =>
      match state.removeHandle id with
      | (some released, state) =>
          if flags &&& 2 ≠ 0 ∧ released.node ∈ state.nodes then (.error eopnotsupp, state)
            else (.ok [], state)
      | (none, state) => (.ok [], state)
  | _, _, _ => (.ok [], state)

def releaseDirectory : State :=
  match u64At request.body 0 with
  | .ok handle => state.removeDirectory handle
  | .error _ => state

/-- The answer to a request that needs no host, or nothing. -/
def executeImmediate : Option (Except Errno Bytes × State) :=
  match request.opcode with
  | .init =>
      match init request.body with
      | .ok body =>
          some (.ok body,
            { state.clearRuntime with
              eventsEnabled := (u32At body 32).toOption.getD 0 &&& fileEvents ≠ 0 })
      | .error error => some (.error error, state)
  | .cancelEvents => some (.ok [], state)
  | .release => some (releaseFile state request)
  | .releasedir => some (.ok [], releaseDirectory state request)
  | .flush => some ((flushBody request.body).map fun _ => [], state)
  | .xattr => some (.error enosys, state)
  | .lock | .fallocate | .lseek | .syncfs => some (.error eopnotsupp, state)
  | .getattr | .lookup | .readlink | .setattr | .mkdir | .create | .unlink | .rmdir | .rename
    | .rename2 | .link
  | .symlink | .openFile | .opendir | .readdir | .statfs | .read | .write | .fsync | .fsyncdir =>
      none
  | .forget | .forgetMulti | .receiveEvent | .unknown => some (.error enosys, state)

/-- Forgets the items of a body, of which one starts at each offset. -/
def forgetEach (body : Bytes) : List Nat → State → Except Errno Unit × State
  | [], state => (.ok (), state)
  | offset :: offsets, state =>
      match u64At body offset with
      | .error error => (.error error, state)
      | .ok id =>
          match u64At body (offset + 8) with
          | .error error => (.error error, state)
          | .ok count => forgetEach body offsets (state.forget id count)

def forgetRequest : Except Errno Unit × State :=
  match request.opcode with
  | .forget => (.ok (), state.forget request.node ((u64At request.body 0).toOption.getD 0))
  | .forgetMulti =>
      match u32At request.body 0 with
      | .error error => (.error error, state)
      | .ok count =>
          if maxNodeCount < count ∨ request.body.length ≠ 8 + count * 16 then
            (.error einval, state)
          else
            forgetEach request.body ((List.range count).map fun index => 8 + 16 * index) state
  | _ => (.error einval, state)

end Prepare

/-! ## File events -/

inductive EventKind where
  | create
  | remove
  | modify
  | metadata
  deriving DecidableEq

def EventKind.code : EventKind → Nat
  | create => 1
  | remove => 2
  | modify => 3
  | metadata => 4

/-- The host tells that something happened to a file of the shared directory. -/
structure FileEvent where
  path : Bytes
  kind : EventKind
  isDirectory : Bool
  deriving DecidableEq

def pathIsClean (parts : List Bytes) : Bool :=
  parts.all fun part => part ≠ [] ∧ part ≠ [46] ∧ part ≠ [46, 46] ∧ 0 ∉ part

def parentIdentity (root : Node) (parentPath : Bytes) : Work Identity :=
  if parentPath = [] then do
    let descriptor ← host (.resolveDescriptor root)
    host (.metadataHash descriptor)
  else
    host (.childIdentity root parentPath)

/-- The file that is there now, where it may be the one the guest knows. -/
def currentIdentity (root : Node) (event : FileEvent) (child : Nat) : Work (Option Identity) :=
  if child ≠ 0 ∧ (event.kind = .modify ∨ event.kind = .metadata) then do
    let identity ← attempt (.childIdentity root event.path)
    return identity.toOption
  else
    return none

/-- The message about an event; an error stands for no message. -/
def encodeEvent (resetCount : Nat) (event : FileEvent) : Work Bytes := do
  let parts := event.path.splitOn 47
  let name := parts.getLastD []
  let _ ← immediate (if pathIsClean parts ∧ name.length ≤ 255 then .ok () else .error einval)
  let root ← host .root
  let parent ← parentIdentity root ([47].intercalate parts.dropLast)
  let (id, child) ← withState resetCount fun state =>
    match state.nodeIdByIdentity.lookup parent with
    | none => (.error enoent, state)
    | some id => (.ok (id, (state.eventEntries.lookup (entryKey id name)).getD 0), state)
  let identity ← currentIdentity root event child
  let sameInode ← withState resetCount fun state =>
    let sameInode : Bool :=
      identity.any fun identity => state.nodeIdByIdentity.lookup identity = some child
    (.ok sameInode,
      if sameInode then state
      else { state with eventEntries := state.eventEntries.erase (entryKey id name) })
  let kind := event.kind.code + (if event.isDirectory then 0x100 else 0) +
    (if sameInode then eventSameInode else 0)
  return leBytes 8 id ++ leBytes 8 child ++ leBytes 4 kind ++ leBytes 4 name.length ++ name ++
    List.replicate (256 - name.length) 0

end Terrarium.Fs
