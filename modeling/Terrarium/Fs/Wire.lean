import Terrarium.Foundations.Wire

/-!
# Wire — the FUSE messages of the virtio-fs device

Requests and replies of the guest's kernel, as bytes.  This file models:

* `request`, `reply`, `init` — headers, and the negotiation;
* `name`, `names`, `symlinkParts` — the names in a request's body;
* `entryOut`, `attrOut`, `openOut`, … — the bodies of replies;
* `createFlags`, `openFlags` — the flags a guest may open files with.
-/

namespace Terrarium.Fs

open Wire (leBytes leNat leNat_leBytes)

abbrev Bytes := List UInt8

abbrev Errno := Nat

def enoent : Errno := 2
def eio : Errno := 5
def ebadf : Errno := 9
def eacces : Errno := 13
def ebusy : Errno := 16
def enodev : Errno := 19
def einval : Errno := 22
def emfile : Errno := 24
def enosys : Errno := 38
def eilseq : Errno := 84
def eopnotsupp : Errno := 95

structure SplitRingDescriptor where
  addr : Nat
  len : Nat
  flags : Nat
  next : Nat
  deriving DecidableEq

/-! ## Requests -/

inductive Opcode where
  | lookup
  | forget
  | getattr
  | setattr
  | readlink
  | symlink
  | mkdir
  | unlink
  | rmdir
  | rename
  | link
  | openFile
  | read
  | write
  | statfs
  | release
  | fsync
  /-- `SETXATTR..=REMOVEXATTR`. -/
  | xattr
  | flush
  | init
  | opendir
  | readdir
  | releasedir
  | fsyncdir
  /-- `GETLK..=SETLKW`. -/
  | lock
  | create
  | forgetMulti
  | fallocate
  | rename2
  | lseek
  | syncfs
  | receiveEvent
  | cancelEvents
  | unknown
  deriving DecidableEq

def Opcode.decode : Nat → Opcode
  | 1 => .lookup
  | 2 => .forget
  | 3 => .getattr
  | 4 => .setattr
  | 5 => .readlink
  | 6 => .symlink
  | 9 => .mkdir
  | 10 => .unlink
  | 11 => .rmdir
  | 12 => .rename
  | 13 => .link
  | 14 => .openFile
  | 15 => .read
  | 16 => .write
  | 17 => .statfs
  | 18 => .release
  | 20 => .fsync
  | 21 => .xattr
  | 22 => .xattr
  | 23 => .xattr
  | 24 => .xattr
  | 25 => .flush
  | 26 => .init
  | 27 => .opendir
  | 28 => .readdir
  | 29 => .releasedir
  | 30 => .fsyncdir
  | 31 => .lock
  | 32 => .lock
  | 33 => .lock
  | 35 => .create
  | 42 => .forgetMulti
  | 43 => .fallocate
  | 45 => .rename2
  | 46 => .lseek
  | 50 => .syncfs
  | 4096 => .receiveEvent
  | 4097 => .cancelEvents
  | _ => .unknown

structure Request where
  opcode : Opcode
  unique : Nat
  node : Nat
  body : Bytes

def header : Nat := 40
def outHeader : Nat := 16

def numberAt (width : Nat) (bytes : Bytes) (start : Nat) : Except Errno Nat :=
  if start + width ≤ bytes.length then .ok (leNat ((bytes.drop start).take width))
    else .error einval

def u32At (bytes : Bytes) (start : Nat) : Except Errno Nat := numberAt 4 bytes start

def u64At (bytes : Bytes) (start : Nat) : Except Errno Nat := numberAt 8 bytes start

def request (bytes : Bytes) : Except Errno Request := do
  if bytes.length < header then
    throw einval
  let len ← u32At bytes 0
  if len < header ∨ bytes.length < len then
    throw einval
  return {
    opcode := .decode (← u32At bytes 4)
    unique := ← u64At bytes 8
    node := ← u64At bytes 16
    body := (bytes.take len).drop header }

/-- A reply's header and body; the error number is negated. -/
def reply (unique : Nat) (error : Errno) (body : Bytes) : Bytes :=
  leBytes 4 (min (outHeader + body.length) 0xffffffff) ++ leBytes 4 (2 ^ 32 - error) ++
    leBytes 8 unique ++ body

def initExt : Nat := 1 <<< 30
def bigWrites : Nat := 1 <<< 5
def maxPages : Nat := 1 <<< 22
def maxReadPages : Nat := 16
def fileEvents : Nat := 1 <<< 31
def eventSameInode : Nat := 0x200

def maxRead : Nat := maxReadPages * 4096

def init (body : Bytes) : Except Errno Bytes := do
  if body.length < 16 then
    throw einval
  let major ← u32At body 0
  if major ≠ 7 then
    throw einval
  let minor ← u32At body 4
  let flags ← u32At body 12
  let extended :=
    if flags &&& initExt ≠ 0 then (u32At body 16).toOption.getD 0 &&& fileEvents else 0
  return leBytes 4 7 ++ leBytes 4 (min minor 40) ++ leBytes 4 (64 * 1024) ++
    leBytes 4 (flags &&& (initExt ||| bigWrites ||| maxPages)) ++ leBytes 2 64 ++ leBytes 2 48 ++
    leBytes 4 (64 * 1024) ++ leBytes 4 1 ++ leBytes 2 maxReadPages ++ leBytes 2 0 ++
      leBytes 4 extended ++
    List.replicate 28 0

/-! ## Names in a body -/

/-- The bytes up to the first zero; `/`, `\` and `:` are refused. -/
def name (bytes : Bytes) : Except Errno Bytes :=
  let name := bytes.takeWhile (· ≠ 0)
  if name = [] ∨ name.length = bytes.length ∨
      name.any (fun byte => byte = 47 || byte = 92 || byte = 58) then
    .error einval
  else
    .ok name

def firstZero (bytes : Bytes) : Except Errno Nat :=
  match bytes.findIdx? (· = 0) with
  | some split => .ok split
  | none => .error einval

def names (bytes : Bytes) : Except Errno (Bytes × Bytes) := do
  let split ← firstZero bytes
  return (← name (bytes.take (split + 1)), ← name (bytes.drop (split + 1)))

def symlinkParts (bytes : Bytes) : Except Errno (Bytes × Bytes) := do
  let split ← firstZero bytes
  let target := bytes.drop (split + 1)
  if target.getLast? ≠ some 0 then
    throw einval
  let target := target.dropLast
  if 0 ∈ target then
    throw einval
  return (← name (bytes.take (split + 1)), target)

def flushBody (body : Bytes) : Except Errno Unit :=
  if body.length = 24 then .ok () else .error einval

/-! ## Bodies of replies -/

structure Instant where
  seconds : Int
  nanoseconds : Nat
  deriving DecidableEq

structure Stat where
  dev : Nat
  ino : Nat
  mode : Nat
  nlink : Nat
  uid : Nat
  gid : Nat
  size : Nat
  blocks : Nat
  atime : Instant
  mtime : Instant
  ctime : Instant
  deriving DecidableEq

structure FilesystemStat where
  blocks : Nat
  blocksFree : Nat
  blocksAvailable : Nat
  files : Nat
  filesFree : Nat
  blockSize : Nat
  nameMax : Nat
  deriving DecidableEq

structure DirectoryEntry where
  name : Bytes
  inode : Nat
  /-- The type as `dirent_type` numbers it. -/
  type : Nat
  next : Nat
  deriving DecidableEq

/-- Times before the epoch are sent as the epoch. -/
def attr (stat : Stat) : Bytes :=
  let times := [stat.atime, stat.mtime, stat.ctime]
  leBytes 8 stat.ino ++ leBytes 8 stat.size ++ leBytes 8 stat.blocks ++
    (times.map fun time => leBytes 8 time.seconds.toNat).flatten ++
    (times.map fun time => leBytes 4 time.nanoseconds).flatten ++
    leBytes 4 stat.mode ++ leBytes 4 (min stat.nlink 0xffffffff) ++ leBytes 4 stat.uid ++
    leBytes 4 stat.gid ++ List.replicate 12 0

def attrOut (stat : Stat) : Bytes :=
  List.replicate 16 0 ++ attr stat

def entryOut (stat : Stat) (node : Nat) : Bytes :=
  leBytes 8 node ++ List.replicate 32 0 ++ attr stat

def openOut (handle : Nat) : Bytes :=
  leBytes 8 handle ++ List.replicate 8 0

def writeOut (size : Nat) : Bytes :=
  leBytes 4 size ++ List.replicate 4 0

def statfsOut (stat : FilesystemStat) : Bytes :=
  leBytes 8 stat.blocks ++ leBytes 8 stat.blocksFree ++ leBytes 8 stat.blocksAvailable ++
    leBytes 8 stat.files ++ leBytes 8 stat.filesFree ++ leBytes 4 stat.blockSize ++
    leBytes 4 stat.nameMax ++ leBytes 4 stat.blockSize ++ List.replicate 28 0

/-- As many entries as fit into `max` bytes, each padded to a multiple of eight. -/
def direntsFrom (max : Nat) : List DirectoryEntry → Bytes → Bytes
  | [], out => out
  | entry :: entries, out =>
      let size := 24 + entry.name.length
      let padded := (size + 7) / 8 * 8
      if max - out.length < padded then
        out
      else
        direntsFrom max entries
          (out ++ leBytes 8 entry.inode ++ leBytes 8 entry.next ++
            leBytes 4 (min entry.name.length 0xffffffff) ++ leBytes 4 entry.type ++ entry.name ++
            List.replicate (padded - size) 0)

def direntsOut (entries : List DirectoryEntry) (max : Nat) : Bytes :=
  direntsFrom max entries []

lemma u64At_entryOut {node : Nat} (hnode : node < 2 ^ 64) (stat : Stat) (rest : Bytes) :
    u64At (entryOut stat node ++ rest) 0 = .ok node := by
  have htake : ((entryOut stat node ++ rest).drop 0).take 8 = leBytes 8 node := by
    unfold entryOut
    rw [List.drop_zero, List.append_assoc, List.append_assoc,
      List.take_left' (Wire.length_leBytes 8 node)]
  unfold u64At numberAt
  rw [if_pos (by simp [entryOut, Wire.length_leBytes]), htake, leNat_leBytes hnode]

/-! ## Flags -/

def oAccmode : Nat := 3
def oCreat : Nat := 0o100
def oExcl : Nat := 0o200
def oTrunc : Nat := 0o1000
def oAppend : Nat := 0o2000
def oNonblock : Nat := 0o4000
def oLargefile : Nat := 0o100000
def oNofollow : Nat := 0o400000
def oCloexec : Nat := 0o2000000
def fmodeExec : Nat := 0x20

def acceptedOpenFlags : Nat :=
  oAccmode ||| oTrunc ||| oAppend ||| oNonblock ||| oLargefile ||| oNofollow |||
    oCloexec ||| fmodeExec

/-- No flag outside of `accepted`, and an access mode. -/
def validateFlags (flags accepted : Nat) : Except Errno Unit :=
  if flags &&& accepted ≠ flags ∨ flags &&& oAccmode = oAccmode then .error einval else .ok ()

structure CreateFlags where
  truncate : Bool
  exclusive : Bool
  deriving DecidableEq

def createFlags (flags : Nat) : Except Errno CreateFlags := do
  validateFlags flags (acceptedOpenFlags ||| oCreat ||| oExcl)
  return ⟨flags &&& oTrunc ≠ 0, flags &&& oExcl ≠ 0⟩

inductive Access where
  | read
  | write
  | readWrite
  deriving DecidableEq

/-- Access, whether the handle is writable, and whether the file is truncated. -/
def openFlags (flags : Nat) : Except Errno (Access × Bool × Bool) := do
  validateFlags flags acceptedOpenFlags
  let access :=
    if flags &&& oAccmode = 0 then .read
    else if flags &&& oAccmode = 1 then .write
    else .readWrite
  return (access, flags &&& oAccmode ≠ 0, flags &&& oTrunc ≠ 0)

end Terrarium.Fs
