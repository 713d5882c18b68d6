import Mathlib.Data.List.Lex
import Mathlib.Data.Prod.Lex
import Terrarium.Foundations.FiniteMap
import Terrarium.Fs.IoScheduler

/-!
# Tables — the nodes and handles a guest has

A node is what the guest calls an inode.  The guest may look a node up and forget it again, and hold
it open through handles; a node that is neither looked up nor held may make room for another.

* `State` — nodes, the index of nodes by file identity, the unused nodes, open handles, and what was
  looked up under which name;
* one theorem for each function: it keeps `Valid`, as long as numbers do not wrap (`NoWrap`).
-/

namespace Terrarium.Fs

open FiniteMap (Map size popFirst keys_insert lookup_insert_iff lookup_erase_iff mem_of_lookup)

/-! ## Nodes of the host -/

/-- An open descriptor of the host, by number; clones of it share the number. -/
abbrev Descriptor := Nat

abbrev Directory := Nat

/-- How the host's file behind a node is reached. -/
structure Node where
  descriptor : Option Descriptor
  path : Option (Descriptor × Bytes)
  pathIdentity : Option Identity
  deriving DecidableEq

/-- A name of one path component in UTF-8. -/
def text (bytes : Bytes) : Except Errno Bytes :=
  if bytes = [] ∨ 0 ∈ bytes ∨ 47 ∈ bytes ∨ bytes = [46] ∨ bytes = [46, 46] then .error einval
  else if ByteArray.validateUTF8 ⟨bytes.toArray⟩ then .ok bytes
  else .error eilseq

namespace Node

def repoint (node : Node) (parent : Descriptor) (name : Bytes) : Node :=
  match text name with
  | .ok name => { node with path := some (parent, name) }
  | .error _ => node

/-- Gives the descriptor away if no clone of it is in use, and keeps the path instead. -/
def releaseCachedDirectory (node : Node) (unshared : Bool) (parent : Descriptor) (name : Bytes)
    (identity : Identity) : Option Descriptor × Node :=
  match node.descriptor with
  | none => (none, node)
  | some descriptor =>
      if unshared then (some descriptor, ⟨none, some (parent, name), some identity⟩)
        else (none, node)

end Node

/-! ## The tables -/

def maxNodeCount : Nat := 8192
def maxHandles : Nat := 2048
def maxDirectories : Nat := 2048

structure NodeRecord where
  dev : Nat
  ino : Nat
  lookups : Nat
  node : Node
  deriving DecidableEq

def NodeRecord.identity (record : NodeRecord) : Identity := (record.dev, record.ino)

structure OpenHandle where
  node : Nat
  writable : Bool
  descriptor : Descriptor
  deriving DecidableEq

structure OpenDirectory where
  node : Nat
  directory : Directory
  descriptor : Descriptor
  deriving DecidableEq

/-- A request for the next file event.  `abort` names its abort handle; `cancellation` is there
until the event worker takes it. -/
structure EventRequest where
  reply : PendingReply
  abort : Nat
  cancellation : Bool
  deriving DecidableEq

/-- A node and a name in it, in the order of the source's keys. -/
abbrev EntryKey := Nat ×ₗ List Nat

def entryKey (node : Nat) (name : Bytes) : EntryKey := toLex (node, name.map UInt8.toNat)

structure State where
  eventRequest : Option EventRequest
  eventEntries : Map EntryKey Nat
  eventsEnabled : Bool
  maxNodes : Nat
  nodes : Map Nat NodeRecord
  nodeIdByIdentity : Map Identity Nat
  unusedNodes : Finset Nat
  handles : Map Nat OpenHandle
  directories : Map Nat OpenDirectory
  nextHandle : Nat
  nextNode : Nat

/-- `u64` addition that stops at the largest number. -/
def saturatingAdd (a b : Nat) : Nat := min (a + b) (2 ^ 64 - 1)

/-- The number after one that was given out; zero and one are never given out. -/
def nextId (id : Nat) : Nat := max ((id + 1) % 2 ^ 64) 2

namespace State

def new (maxNodes : Nat) (root : Option NodeRecord) : State where
  eventRequest := none
  eventEntries := ∅
  eventsEnabled := false
  maxNodes := maxNodes
  nodes :=
    match root with
    | none => ∅
    | some record => Finmap.singleton 1 record
  nodeIdByIdentity :=
    match root with
    | none => ∅
    | some record => Finmap.singleton record.identity 1
  unusedNodes := ∅
  handles := ∅
  directories := ∅
  nextHandle := 2
  nextNode := 2

variable (state : State)

def nodeIsHeld (id : Nat) : Bool :=
  (∃ key ∈ state.handles.keys, (state.handles.lookup key).any fun handle => handle.node = id) ||
    (∃ key ∈ state.directories.keys, (state.directories.lookup key).any fun directory =>
      directory.node = id)

def markUnusedIfUnheld (id : Nat) : State :=
  if id ≠ 1 ∧ (state.nodes.lookup id).any (fun record => record.lookups = 0) ∧
      ¬ state.nodeIsHeld id then
    { state with unusedNodes := insert id state.unusedNodes }
  else
    state

def forget (id count : Nat) : State :=
  if id = 1 then
    state
  else
    let state :=
      match state.nodes.lookup id with
      | none => state
      | some record =>
          { state with
            nodes := state.nodes.insert id { record with lookups := record.lookups - count } }
    state.markUnusedIfUnheld id

def evictUnusedNode : State :=
  match state.unusedNodes.min with
  | ⊤ => state
  | (id : Nat) =>
      let state := { state with unusedNodes := state.unusedNodes.erase id }
      match state.nodes.lookup id with
      | none => state
      | some record =>
          { state with
            nodes := state.nodes.erase id
            nodeIdByIdentity := state.nodeIdByIdentity.erase record.identity }

/-- Makes a node for a file, or raises the count of the one it has. -/
def nodeId (node : Node) (stat : Stat) : Except Errno Nat × State :=
  match state.nodeIdByIdentity.lookup (stat.dev, stat.ino) with
  | some id =>
      match state.nodes.lookup id with
      | none => (.error eio, state)
      | some record =>
          (.ok id,
            { state with
              nodes := state.nodes.insert id
                { record with node := node, lookups := saturatingAdd record.lookups 1 }
              unusedNodes := state.unusedNodes.erase id })
  | none =>
      let state := if size state.nodes = state.maxNodes then state.evictUnusedNode else state
      if size state.nodes = state.maxNodes then
        (.error emfile, state)
      else
        (.ok state.nextNode,
          { state with
            nextNode := nextId state.nextNode
            nodes := state.nodes.insert state.nextNode ⟨stat.dev, stat.ino, 1, node⟩
            nodeIdByIdentity := state.nodeIdByIdentity.insert (stat.dev, stat.ino) state.nextNode })

def setNode (id : Nat) (change : Node → Node) : State :=
  match state.nodes.lookup id with
  | none => state
  | some record =>
      { state with nodes := state.nodes.insert id { record with node := change record.node } }

def repointNode (stat : Stat) (parent : Descriptor) (name : Bytes) : State :=
  match state.nodeIdByIdentity.lookup (stat.dev, stat.ino) with
  | none => state
  | some id => state.setNode id fun node => node.repoint parent name

def incrementLookup (id : Nat) : State :=
  match state.nodes.lookup id with
  | none => state
  | some record =>
      { state with
        nodes := state.nodes.insert id { record with lookups := saturatingAdd record.lookups 1 }
        unusedNodes := state.unusedNodes.erase id }

def storeHandle (node : Nat) (descriptor : Descriptor) (writable : Bool) :
    Except Errno Nat × State :=
  if size state.handles = maxHandles then
    (.error emfile, state)
  else
    (.ok state.nextHandle,
      { state with
        nextHandle := nextId state.nextHandle
        handles := state.handles.insert state.nextHandle ⟨node, writable, descriptor⟩
        unusedNodes := state.unusedNodes.erase node })

def storeDirectory (node : Nat) (directory : Directory) (descriptor : Descriptor) :
    Except Errno Nat × State :=
  if size state.directories = maxDirectories then
    (.error emfile, state)
  else
    (.ok state.nextHandle,
      { state with
        nextHandle := nextId state.nextHandle
        directories := state.directories.insert state.nextHandle ⟨node, directory, descriptor⟩
        unusedNodes := state.unusedNodes.erase node })

def removeHandle (id : Nat) : Option OpenHandle × State :=
  match state.handles.lookup id with
  | none => (none, state)
  | some released =>
      (some released, { state with handles := state.handles.erase id }.markUnusedIfUnheld
        released.node)

def removeDirectory (id : Nat) : State :=
  match state.directories.lookup id with
  | none => state
  | some released =>
      { state with directories := state.directories.erase id }.markUnusedIfUnheld released.node

/-- Remembers what a lookup found, unless an earlier node under the name is still looked up. -/
def rememberLookup (request : Request) (response : Bytes) : State :=
  match name request.body, u64At response 0 with
  | .ok name, .ok child =>
      let entries := if size state.eventEntries = maxNodeCount then popFirst state.eventEntries
        else state.eventEntries
      let stale :=
        match entries.lookup (entryKey request.node name) with
        | none => true
        | some id =>
            match state.nodes.lookup id with
            | none => true
            | some record => record.lookups = 0
      { state with
        eventEntries := if stale then entries.insert (entryKey request.node name) child
          else entries }
  | _, _ => state

def clearRuntime : State :=
  new state.maxNodes (state.nodes.lookup 1)

/-! ## The invariant -/

structure Indexed : Prop where
  root : 1 ∈ state.nodes
  identities : ∀ identity id, state.nodeIdByIdentity.lookup identity = some id ↔
    ∃ record, state.nodes.lookup id = some record ∧ record.identity = identity
  bounded : size state.nodes ≤ state.maxNodes
  numbered : ∀ id ∈ state.nodes, id < state.nextNode
  next : 2 ≤ state.nextNode

structure Opened : Prop where
  handles : size state.handles ≤ maxHandles
  directories : size state.directories ≤ maxDirectories
  distinct : ∀ id, id ∈ state.handles → id ∉ state.directories
  numbered : ∀ id, id ∈ state.handles ∨ id ∈ state.directories → id < state.nextHandle

def Held (id : Nat) : Prop :=
  (∃ key handle, state.handles.lookup key = some handle ∧ handle.node = id) ∨
    ∃ key directory, state.directories.lookup key = some directory ∧ directory.node = id

/-- The unused nodes are those that are neither looked up nor held. -/
def Unused : Prop :=
  ∀ id, id ∈ state.unusedNodes ↔
    id ≠ 1 ∧ (∃ record, state.nodes.lookup id = some record ∧ record.lookups = 0) ∧ ¬ state.Held id

structure Valid : Prop where
  indexed : state.Indexed
  unused : state.Unused
  opened : state.Opened
  events : size state.eventEntries ≤ maxNodeCount

/-- The next numbers are not the last ones. -/
structure NoWrap : Prop where
  node : state.nextNode + 1 < 2 ^ 64
  handle : state.nextHandle + 1 < 2 ^ 64

variable {state}

variable {id : Nat} {node : Node} {stat : Stat} {state' : State}

lemma nodeIsHeld_iff : state.nodeIsHeld id = true ↔ state.Held id := by
  unfold nodeIsHeld Held
  simp only [Bool.or_eq_true, decide_eq_true_iff, Option.any_eq_true, Finmap.mem_keys]
  constructor
  · rintro (⟨key, -, handle, hlookup, hnode⟩ | ⟨key, -, directory, hlookup, hnode⟩)
    · exact Or.inl ⟨key, handle, hlookup, hnode⟩
    · exact Or.inr ⟨key, directory, hlookup, hnode⟩
  · rintro (⟨key, handle, hlookup, hnode⟩ | ⟨key, directory, hlookup, hnode⟩)
    · exact Or.inl ⟨key, mem_of_lookup hlookup, handle, hlookup, hnode⟩
    · exact Or.inr ⟨key, mem_of_lookup hlookup, directory, hlookup, hnode⟩

lemma nextId_of_lt (hid : 1 ≤ id) (h : id + 1 < 2 ^ 64) : nextId id = id + 1 := by
  rw [nextId, Nat.mod_eq_of_lt h]
  omega

/-! ## Fresh and cleared tables -/

lemma lookup_singleton_iff {κ ν : Type} [DecidableEq κ] {k k' : κ} {v v' : ν} :
    (Finmap.singleton k v : Map κ ν).lookup k' = some v' ↔ k' = k ∧ v' = v := by
  have hsingleton : (Finmap.singleton k v : Map κ ν) = (∅ : Map κ ν).insert k v := rfl
  rw [hsingleton, lookup_insert_iff]
  simp

lemma valid_new {maxNodes : Nat} (hmax : 1 ≤ maxNodes) (record : NodeRecord) :
    (new maxNodes (some record)).Valid where
  indexed :=
    { root := mem_of_lookup Finmap.lookup_singleton_eq
      identities := by
        intro identity id
        simp only [new, lookup_singleton_iff]
        constructor
        · rintro ⟨rfl, rfl⟩
          exact ⟨record, ⟨rfl, rfl⟩, rfl⟩
        · rintro ⟨record', ⟨rfl, rfl⟩, rfl⟩
          exact ⟨rfl, rfl⟩
      bounded := by
        simpa [new, size] using hmax
      numbered := by
        intro id hid
        rw [(Finmap.mem_singleton id 1 record).1 hid]
        exact Nat.one_lt_two
      next := le_rfl }
  unused := by
    intro id
    simp only [new, Finset.notMem_empty, false_iff, not_and, lookup_singleton_iff]
    rintro hid ⟨record', ⟨rfl, rfl⟩, -⟩
    exact absurd rfl hid
  opened :=
    { handles := Nat.zero_le _
      directories := Nat.zero_le _
      distinct := fun _ hid => absurd hid Finmap.notMem_empty
      numbered := fun _ hid => (hid.elim Finmap.notMem_empty Finmap.notMem_empty).elim }
  events := by simp [new, size]

lemma Valid.clearRuntime (h : state.Valid) : state.clearRuntime.Valid := by
  obtain ⟨record, hrecord⟩ := Finmap.mem_iff.1 h.indexed.root
  have hmax : 1 ≤ state.maxNodes := by
    refine le_trans (Finset.card_pos.2 ⟨1, ?_⟩) h.indexed.bounded
    exact Finmap.mem_keys.2 h.indexed.root
  unfold State.clearRuntime
  rw [hrecord]
  exact valid_new hmax record

/-! ## Changing a record -/

lemma Indexed.setRecord (h : state.Indexed) {record : NodeRecord} (record' : NodeRecord)
    (hrecord : state.nodes.lookup id = some record) (hidentity : record'.identity = record.identity)
    (unused : Finset Nat) :
    { state with nodes := state.nodes.insert id record', unusedNodes := unused }.Indexed where
  root := Finmap.mem_insert.2 (Or.inr h.root)
  identities := by
    intro identity other
    refine (h.identities identity other).trans ?_
    by_cases heq : other = id
    · subst heq
      simp [hrecord, hidentity]
    · simp [heq]
  bounded := by
    rw [FiniteMap.size_insert_of_mem (mem_of_lookup hrecord)]
    exact h.bounded
  numbered := by
    intro other hother
    rcases Finmap.mem_insert.1 hother with rfl | hother
    · exact h.numbered _ (mem_of_lookup hrecord)
    · exact h.numbered _ hother
  next := h.next

lemma Unused.raise (h : state.Unused) {record' : NodeRecord} (hlookups : record'.lookups ≠ 0) :
    { state with
      nodes := state.nodes.insert id record',
        unusedNodes := state.unusedNodes.erase id }.Unused := by
  intro other
  simp only [Finset.mem_erase, h other, lookup_insert_iff]
  by_cases heq : other = id
  · subst heq
    simp [hlookups]
  · simp [heq, Held]

lemma saturatingAdd_ne_zero (count : Nat) : saturatingAdd count 1 ≠ 0 := by
  unfold saturatingAdd
  omega

lemma Valid.incrementLookup (h : state.Valid) (id : Nat) : (state.incrementLookup id).Valid := by
  unfold State.incrementLookup
  split
  · exact h
  next record hrecord =>
    exact ⟨h.indexed.setRecord _ hrecord (by rfl) _, h.unused.raise (saturatingAdd_ne_zero _),
      { h.opened with }, h.events⟩

lemma Valid.setNode (h : state.Valid) (id : Nat) (change : Node → Node) :
    (state.setNode id change).Valid := by
  unfold State.setNode
  split
  · exact h
  next record hrecord =>
    refine ⟨h.indexed.setRecord _ hrecord (by rfl) _, fun other => ?_, { h.opened with }, h.events⟩
    refine (h.unused other).trans (and_congr_right fun _ => and_congr_left fun _ => ?_)
    by_cases heq : other = id
    · subst heq
      simp [hrecord]
    · simp [heq]

lemma Valid.repointNode (h : state.Valid) (stat : Stat) (parent : Descriptor) (name : Bytes) :
    (state.repointNode stat parent name).Valid := by
  unfold State.repointNode
  split
  · exact h
  · exact h.setNode _ _

/-! ## Unused nodes -/

abbrev Idle (state : State) (id : Nat) : Prop :=
  id ≠ 1 ∧ (∃ record, state.nodes.lookup id = some record ∧ record.lookups = 0) ∧ ¬ state.Held id

lemma unused_markUnusedIfUnheld
    (hothers : ∀ other, other ≠ id → (other ∈ state.unusedNodes ↔ state.Idle other))
    (hid : id ∈ state.unusedNodes → state.Idle id) : (state.markUnusedIfUnheld id).Unused := by
  have hcondition :
      (id ≠ 1 ∧ (state.nodes.lookup id).any (fun record => record.lookups = 0) = true ∧
      ¬ state.nodeIsHeld id = true) ↔ state.Idle id := by
    rw [nodeIsHeld_iff]
    simp [Option.any_eq_true]
  unfold markUnusedIfUnheld
  split
  next hmark =>
    intro other
    by_cases heq : other = id
    · subst heq
      simp only [Finset.mem_insert, true_or, true_iff]
      exact hcondition.1 hmark
    · simp only [Finset.mem_insert, heq, false_or]
      exact hothers other heq
  next hkeep =>
    intro other
    by_cases heq : other = id
    · subst heq
      exact ⟨hid, fun hmark => absurd (hcondition.2 hmark) hkeep⟩
    · exact hothers other heq

lemma markUnusedIfUnheld_frame (state : State) (id : Nat) :
    ∃ unusedNodes, state.markUnusedIfUnheld id = { state with unusedNodes := unusedNodes } := by
  unfold markUnusedIfUnheld
  split
  · exact ⟨_, rfl⟩
  · exact ⟨_, rfl⟩

lemma valid_markUnusedIfUnheld (hindexed : state.Indexed) (hopened : state.Opened)
    (hevents : size state.eventEntries ≤ maxNodeCount)
    (hunused : (state.markUnusedIfUnheld id).Unused) : (state.markUnusedIfUnheld id).Valid := by
  obtain ⟨unusedNodes, heq⟩ := markUnusedIfUnheld_frame state id
  rw [heq] at hunused ⊢
  exact ⟨{ hindexed with }, hunused, { hopened with }, hevents⟩

lemma Valid.forget (h : state.Valid) (id count : Nat) : (state.forget id count).Valid := by
  unfold State.forget
  split
  · exact h
  · simp only
    split
    · refine valid_markUnusedIfUnheld h.indexed h.opened h.events ?_
      exact unused_markUnusedIfUnheld (fun other _ => h.unused other) (h.unused id).1
    next record hrecord =>
      have hindexed := h.indexed.setRecord
        { record with lookups := record.lookups - count } hrecord rfl state.unusedNodes
      refine valid_markUnusedIfUnheld hindexed { h.opened with } h.events ?_
      refine unused_markUnusedIfUnheld (fun other hother => ?_) fun hid => ?_
      · simp only [Idle, lookup_insert_iff, hother, false_and, not_false_eq_true, true_and,
          false_or, ne_eq]
        exact h.unused other
      · -- an unused node has nothing to forget
        obtain ⟨hne, ⟨record', hrecord', hlookups⟩, hheld⟩ := (h.unused id).1 hid
        cases hrecord.symm.trans hrecord'
        refine ⟨hne, ⟨_, Finmap.lookup_insert _, ?_⟩, hheld⟩
        simp [hlookups]

/-! ## New nodes -/

lemma Valid.evictUnusedNode (h : state.Valid) : state.evictUnusedNode.Valid := by
  unfold State.evictUnusedNode
  split
  · exact h
  next id hmin =>
    obtain ⟨hne, ⟨record, hrecord, hlookups⟩, hheld⟩ := (h.unused id).1 (Finset.mem_of_min hmin)
    simp only [hrecord]
    refine ⟨⟨?_, fun identity other => ?_, ?_, fun other hother => ?_, h.indexed.next⟩,
      fun other => ?_, { h.opened with }, h.events⟩
    · exact Finmap.mem_erase.2 ⟨hne.symm, h.indexed.root⟩
    · simp only [lookup_erase_iff, h.indexed.identities]
      constructor
      · rintro ⟨hidentity, record', hrecord', rfl⟩
        refine ⟨record', ⟨?_, hrecord'⟩, rfl⟩
        rintro rfl
        cases hrecord.symm.trans hrecord'
        exact hidentity rfl
      · rintro ⟨record', ⟨hother, hrecord'⟩, rfl⟩
        refine ⟨fun hidentity => hother ?_, record', hrecord', rfl⟩
        -- two nodes of one file are one node
        have hindex := (h.indexed.identities record'.identity other).2 ⟨record', hrecord', rfl⟩
        have hindex' :=
          (h.indexed.identities record'.identity id).2 ⟨record, hrecord, hidentity.symm⟩
        exact Option.some.inj (hindex.symm.trans hindex')
    · exact le_trans (FiniteMap.size_erase_le _ _) h.indexed.bounded
    · exact h.indexed.numbered other (Finmap.mem_erase.1 hother).2
    · simp only [Finset.mem_erase, h.unused other, lookup_erase_iff, Held]
      constructor
      · rintro ⟨hother, hone, ⟨record', hrecord', hlookups'⟩, hrest⟩
        exact ⟨hone, ⟨record', ⟨hother, hrecord'⟩, hlookups'⟩, hrest⟩
      · rintro ⟨hone, ⟨record', ⟨hother, hrecord'⟩, hlookups'⟩, hrest⟩
        exact ⟨hother, hone, ⟨record', hrecord', hlookups'⟩, hrest⟩

lemma evictUnusedNode_frame (state : State) :
    ∃ nodes nodeIdByIdentity unusedNodes, state.evictUnusedNode =
    { state with
      nodes := nodes, nodeIdByIdentity := nodeIdByIdentity, unusedNodes := unusedNodes } := by
  unfold evictUnusedNode
  dsimp only
  repeat' split
  all_goals exact ⟨_, _, _, rfl⟩

@[simp] lemma nextNode_evictUnusedNode : state.evictUnusedNode.nextNode = state.nextNode := by
  obtain ⟨_, _, _, heq⟩ := evictUnusedNode_frame state
  rw [heq]

lemma nodeId_cases (state : State) (node : Node) (stat : Stat) :
    (∃ id record, state.nodeIdByIdentity.lookup (stat.dev, stat.ino) = some id ∧
      state.nodes.lookup id = some record ∧ state.nodeId node stat = (.ok id,
        { state with
          nodes := state.nodes.insert id
            { record with node := node, lookups := saturatingAdd record.lookups 1 }
          unusedNodes := state.unusedNodes.erase id })) ∨
    (∃ id, state.nodeIdByIdentity.lookup (stat.dev, stat.ino) = some id ∧
      state.nodes.lookup id = none ∧ state.nodeId node stat = (.error eio, state)) ∨
    (∃ room : State, (room = state ∨ room = state.evictUnusedNode) ∧
      size room.nodes ≠ room.maxNodes ∧ state.nodeIdByIdentity.lookup (stat.dev, stat.ino) = none ∧
      state.nodeId node stat = (.ok room.nextNode,
        { room with
          nextNode := nextId room.nextNode
          nodes := room.nodes.insert room.nextNode ⟨stat.dev, stat.ino, 1, node⟩
          nodeIdByIdentity := room.nodeIdByIdentity.insert (stat.dev, stat.ino) room.nextNode })) ∨
    (state.nodeIdByIdentity.lookup (stat.dev, stat.ino) = none ∧ size state.nodes = state.maxNodes ∧
      size state.evictUnusedNode.nodes = state.evictUnusedNode.maxNodes ∧
      state.nodeId node stat = (.error emfile, state.evictUnusedNode)) := by
  unfold nodeId
  split
  next id hid =>
    split
    next hrecord => exact Or.inr (Or.inl ⟨id, hid, hrecord, rfl⟩)
    next record hrecord => exact Or.inl ⟨id, record, hid, hrecord, rfl⟩
  next hnone =>
    by_cases hfull : size state.nodes = state.maxNodes
    · simp only [if_pos hfull]
      by_cases hstill : size state.evictUnusedNode.nodes = state.evictUnusedNode.maxNodes
      · exact Or.inr (Or.inr (Or.inr ⟨hnone, hfull, hstill, if_pos hstill⟩))
      · exact Or.inr (Or.inr (Or.inl ⟨_, Or.inr rfl, hstill, hnone, if_neg hstill⟩))
    · simp only [if_neg hfull]
      exact Or.inr (Or.inr (Or.inl ⟨_, Or.inl rfl, hfull, hnone, rfl⟩))

/-- An eviction takes no index entry of another file. -/
lemma Valid.insertNode (h : state.Valid) (hwrap : state.nextNode + 1 < 2 ^ 64)
    (hroom : size state.nodes ≠ state.maxNodes)
    (hnew : state.nodeIdByIdentity.lookup (stat.dev, stat.ino) = none) : { state with
      nextNode := nextId state.nextNode
      nodes := state.nodes.insert state.nextNode ⟨stat.dev, stat.ino, 1, node⟩
      nodeIdByIdentity := state.nodeIdByIdentity.insert
        (stat.dev, stat.ino) state.nextNode }.Valid := by
  have hfresh : state.nextNode ∉ state.nodes := fun hmem => lt_irrefl _ (h.indexed.numbered _ hmem)
  have hlookup : state.nodes.lookup state.nextNode = none := Finmap.lookup_eq_none.2 hfresh
  have hnext : nextId state.nextNode = state.nextNode + 1 :=
    nextId_of_lt (le_trans one_le_two h.indexed.next) hwrap
  refine ⟨⟨?_, fun identity other => ?_, ?_, fun other hother => ?_, ?_⟩, fun other => ?_,
    { h.opened with }, h.events⟩
  · exact Finmap.mem_insert.2 (Or.inr h.indexed.root)
  · simp only [lookup_insert_iff, h.indexed.identities]
    constructor
    · rintro (⟨rfl, rfl⟩ | ⟨hidentity, record, hrecord, rfl⟩)
      · exact ⟨_, Or.inl ⟨rfl, rfl⟩, rfl⟩
      · refine ⟨record, Or.inr ⟨?_, hrecord⟩, rfl⟩
        rintro rfl
        exact hfresh (mem_of_lookup hrecord)
    · rintro ⟨record, ⟨rfl, rfl⟩ | ⟨hother, hrecord⟩, rfl⟩
      · exact Or.inl ⟨rfl, rfl⟩
      · refine Or.inr ⟨fun hidentity => ?_, record, hrecord, rfl⟩
        have hindex := (h.indexed.identities record.identity other).2 ⟨record, hrecord, rfl⟩
        rw [hidentity] at hindex
        cases hnew.symm.trans hindex
  · rw [FiniteMap.size_insert_of_notMem hfresh]
    exact Nat.lt_of_le_of_ne h.indexed.bounded hroom
  · rw [hnext]
    rcases Finmap.mem_insert.1 hother with rfl | hother
    · exact Nat.lt_succ_self _
    · exact Nat.lt_succ_of_lt (h.indexed.numbered _ hother)
  · rw [hnext]
    exact le_trans h.indexed.next (Nat.le_succ _)
  · simp only [h.unused other, lookup_insert_iff, Held]
    by_cases heq : other = state.nextNode
    · subst heq
      simp [hlookup]
    · simp [heq]

lemma lookup_evictUnusedNode {identity : Identity}
    (hnone : state.nodeIdByIdentity.lookup identity = none) :
    state.evictUnusedNode.nodeIdByIdentity.lookup identity = none := by
  unfold evictUnusedNode
  split
  · exact hnone
  · simp only
    split
    · exact hnone
    next record _ =>
      by_cases heq : identity = record.identity
      · rw [heq]
        exact Finmap.lookup_erase _ _
      · rw [Finmap.lookup_erase_ne heq]
        exact hnone

variable {result : Except Errno Nat} {descriptor : Descriptor} {writable : Bool}
    {directory : Directory}

lemma nodeId_frame (h : state.nodeId node stat = (result, state')) :
    ∃ nodes nodeIdByIdentity unusedNodes nextNode, state' =
      { state with
        nodes := nodes, nodeIdByIdentity := nodeIdByIdentity, unusedNodes :=
          unusedNodes, nextNode := nextNode } := by
  obtain ⟨_, _, _, hevict⟩ := evictUnusedNode_frame state
  rcases state.nodeId_cases node stat with
    ⟨id, record, -, -, heq⟩ | ⟨id, -, -, heq⟩ | ⟨room, hroom, -, -, heq⟩ | ⟨-, -, -, heq⟩
  all_goals cases heq.symm.trans h
  · exact ⟨_, _, _, _, rfl⟩
  · exact ⟨_, _, _, _, rfl⟩
  · rcases hroom with rfl | rfl
    · exact ⟨_, _, _, _, rfl⟩
    · rw [hevict]
      exact ⟨_, _, _, _, rfl⟩
  · exact ⟨_, _, _, _, hevict⟩

lemma Valid.nodeId (h : state.Valid) (hwrap : state.nextNode + 1 < 2 ^ 64)
    (hnode : state.nodeId node stat = (result, state')) : state'.Valid := by
  rcases nodeId_cases state node stat with
    ⟨id, record, -, hrecord, heq⟩ | ⟨id, -, -, heq⟩ | ⟨room, hstate, hroom, hnone, heq⟩
      | ⟨-, -, -, heq⟩
  all_goals cases heq.symm.trans hnode
  · exact ⟨h.indexed.setRecord _ hrecord (by rfl) _, h.unused.raise (saturatingAdd_ne_zero _),
      { h.opened with }, h.events⟩
  · exact h
  · rcases hstate with rfl | rfl
    · exact h.insertNode hwrap hroom hnone
    · exact h.evictUnusedNode.insertNode (by simpa using hwrap) hroom (lookup_evictUnusedNode hnone)
  · exact h.evictUnusedNode

/-- A table that is full after an eviction had no unused node. -/
lemma Valid.unused_of_full (h : state.Valid) (hfull : size state.nodes = state.maxNodes)
    (hstill : size state.evictUnusedNode.nodes = state.evictUnusedNode.maxNodes) :
    state.unusedNodes = ∅ := by
  by_contra hne
  obtain ⟨id, hmin⟩ := Finset.min_of_nonempty (Finset.nonempty_iff_ne_empty.2 hne)
  obtain ⟨-, ⟨record, hrecord, -⟩, -⟩ := (h.unused id).1 (Finset.mem_of_min hmin)
  unfold State.evictUnusedNode at hstill
  simp only [hmin, hrecord] at hstill
  have hsize := FiniteMap.size_erase_of_mem (mem_of_lookup hrecord)
  omega

/-- No node is made only when every node but the root is looked up or held. -/
lemma Valid.nodeId_emfile (h : state.Valid) (hemfile : (state.nodeId node stat).1 = .error emfile) :
    ∀ id ∈ state.nodes, id ≠ 1 →
      (∃ record, state.nodes.lookup id = some record ∧ record.lookups ≠ 0) ∨ state.Held id := by
  have hempty : state.unusedNodes = ∅ := by
    rcases nodeId_cases state node stat with
      ⟨id, record, -, -, heq⟩ | ⟨id, -, -, heq⟩ | ⟨room, -, -, -, heq⟩ | ⟨-, hfull, hstill, -⟩
    pick_goal 4
    · exact h.unused_of_full hfull hstill
    all_goals
      rw [heq] at hemfile
      cases hemfile
  intro id hid hne
  obtain ⟨record, hrecord⟩ := Finmap.mem_iff.1 hid
  by_contra hidle
  obtain ⟨hlookups, hheld⟩ := not_or.1 hidle
  have hunused : id ∈ state.unusedNodes := by
    refine (h.unused id).2 ⟨hne, ⟨record, hrecord, ?_⟩, hheld⟩
    by_contra hlooked
    exact hlookups ⟨record, hrecord, hlooked⟩
  rw [hempty] at hunused
  exact absurd hunused (Finset.notMem_empty id)

/-! ## Handles -/

lemma Unused.hold (h : state.Unused) {node : Nat} (hnodes : state'.nodes = state.nodes)
    (hunused : state'.unusedNodes = state.unusedNodes.erase node)
    (hheld : ∀ id, state'.Held id ↔ id = node ∨ state.Held id) : state'.Unused := by
  intro id
  rw [hunused, Finset.mem_erase, h id, hnodes, hheld, not_or]
  tauto

lemma Unused.release (h : state.Unused) {node : Nat} (hnodes : state'.nodes = state.nodes)
    (hunused : state'.unusedNodes = state.unusedNodes) (hnode : state.Held node)
    (hheld : ∀ id, id ≠ node → (state'.Held id ↔ state.Held id)) :
    (state'.markUnusedIfUnheld node).Unused := by
  refine unused_markUnusedIfUnheld (fun id hid => ?_) fun hmem => ?_
  · rw [hunused, Idle, hnodes, hheld id hid]
    exact h id
  · rw [hunused] at hmem
    exact absurd hnode ((h node).1 hmem).2.2

lemma Opened.fresh (h : state.Opened) : state.nextHandle ∉ state.handles ∧
    state.nextHandle ∉ state.directories :=
  ⟨fun hmem => lt_irrefl _ (h.numbered _ (Or.inl hmem)),
    fun hmem => lt_irrefl _ (h.numbered _ (Or.inr hmem))⟩

lemma Opened.lt_nextId (h : state.Opened) (hwrap : state.nextHandle + 1 < 2 ^ 64)
    (hid : id = state.nextHandle ∨ id ∈ state.handles ∨ id ∈ state.directories) :
    id < nextId state.nextHandle := by
  have hle : id ≤ state.nextHandle := hid.elim le_of_eq fun hid => (h.numbered id hid).le
  rw [nextId, Nat.mod_eq_of_lt hwrap]
  omega

lemma exists_lookup_insert_iff {V : Type} {m : Map Nat V} {v : V} {p : V → Prop} (hfresh : id ∉ m) :
    (∃ key v', (m.insert id v).lookup key = some v' ∧ p v') ↔ p v ∨
    ∃ key v', m.lookup key = some v' ∧ p v' := by
  simp only [lookup_insert_iff]
  constructor
  · rintro ⟨key, v', ⟨-, rfl⟩ | ⟨-, hlookup⟩, hv⟩
    · exact Or.inl hv
    · exact Or.inr ⟨key, v', hlookup, hv⟩
  · rintro (hv | ⟨key, v', hlookup, hv⟩)
    · exact ⟨id, v, Or.inl ⟨rfl, rfl⟩, hv⟩
    · refine ⟨key, v', Or.inr ⟨?_, hlookup⟩, hv⟩
      rintro rfl
      exact hfresh (mem_of_lookup hlookup)

lemma Valid.storeHandle (h : state.Valid) (hwrap : state.nextHandle + 1 < 2 ^ 64)
    (hhandle : state.storeHandle id descriptor writable = (result, state')) : state'.Valid := by
  unfold State.storeHandle at hhandle
  split at hhandle
  all_goals cases hhandle
  · exact h
  next hroom =>
    obtain ⟨hfresh, hfresh'⟩ := h.opened.fresh
    refine ⟨{ h.indexed with }, h.unused.hold rfl rfl fun id => ?_,
      ⟨?_, h.opened.directories, fun id hid => ?_, fun id hid => ?_⟩, h.events⟩
    · rw [Held, exists_lookup_insert_iff hfresh, or_assoc, eq_comm]
      rfl
    · rw [FiniteMap.size_insert_of_notMem hfresh]
      exact Nat.lt_of_le_of_ne h.opened.handles hroom
    · rcases Finmap.mem_insert.1 hid with rfl | hid
      · exact hfresh'
      · exact h.opened.distinct id hid
    · rw [Finmap.mem_insert, or_assoc] at hid
      exact h.opened.lt_nextId hwrap hid

lemma Valid.storeDirectory (h : state.Valid) (hwrap : state.nextHandle + 1 < 2 ^ 64)
    (hhandle : state.storeDirectory id directory descriptor = (result, state')) : state'.Valid := by
  unfold State.storeDirectory at hhandle
  split at hhandle
  all_goals cases hhandle
  · exact h
  next hroom =>
    obtain ⟨hfresh, hfresh'⟩ := h.opened.fresh
    refine ⟨{ h.indexed with }, h.unused.hold rfl rfl fun id => ?_,
      ⟨h.opened.handles, ?_, fun id hid => ?_, fun id hid => ?_⟩, h.events⟩
    · rw [Held, exists_lookup_insert_iff hfresh', or_left_comm, eq_comm]
      rfl
    · rw [FiniteMap.size_insert_of_notMem hfresh']
      exact Nat.lt_of_le_of_ne h.opened.directories hroom
    · intro hdirectory
      rcases Finmap.mem_insert.1 hdirectory with rfl | hdirectory
      · exact hfresh hid
      · exact h.opened.distinct id hid hdirectory
    · rw [Finmap.mem_insert, or_left_comm] at hid
      exact h.opened.lt_nextId hwrap hid

lemma exists_lookup_erase_iff {V : Type} {m : Map Nat V} {released : V} {p : V → Prop}
    (hreleased : m.lookup id = some released) (hp : ¬ p released) :
    (∃ key v, (m.erase id).lookup key = some v ∧ p v) ↔ ∃ key v, m.lookup key = some v ∧ p v := by
  refine exists_congr fun key => exists_congr fun v => ?_
  rw [lookup_erase_iff]
  constructor
  · exact fun ⟨⟨_, hlookup⟩, hv⟩ => ⟨hlookup, hv⟩
  · rintro ⟨hlookup, hv⟩
    refine ⟨⟨?_, hlookup⟩, hv⟩
    rintro rfl
    cases hreleased.symm.trans hlookup
    exact hp hv

lemma Valid.removeHandle (h : state.Valid) (id : Nat) : (state.removeHandle id).2.Valid := by
  unfold State.removeHandle
  split
  · exact h
  next released hreleased =>
    have hopened : { state with handles := state.handles.erase id }.Opened := by
      refine ⟨?_, h.opened.directories, fun key hkey => ?_, fun key hkey => ?_⟩
      · exact le_trans (FiniteMap.size_erase_le _ _) h.opened.handles
      · exact h.opened.distinct key (Finmap.mem_erase.1 hkey).2
      · exact h.opened.numbered key (hkey.imp_left fun hkey => (Finmap.mem_erase.1 hkey).2)
    refine valid_markUnusedIfUnheld { h.indexed with } hopened h.events ?_
    refine h.unused.release rfl rfl (Or.inl ⟨id, released, hreleased, rfl⟩) fun node hnode => ?_
    exact or_congr_left (exists_lookup_erase_iff hreleased fun heq => hnode heq.symm)

lemma Valid.removeDirectory (h : state.Valid) (id : Nat) : (state.removeDirectory id).Valid := by
  unfold State.removeDirectory
  split
  · exact h
  next released hreleased =>
    have hopened : { state with directories := state.directories.erase id }.Opened := by
      refine ⟨h.opened.handles, ?_, fun key hkey hdirectory => ?_, fun key hkey => ?_⟩
      · exact le_trans (FiniteMap.size_erase_le _ _) h.opened.directories
      · exact h.opened.distinct key hkey (Finmap.mem_erase.1 hdirectory).2
      · exact h.opened.numbered key (hkey.imp_right fun hkey => (Finmap.mem_erase.1 hkey).2)
    refine valid_markUnusedIfUnheld { h.indexed with } hopened h.events ?_
    refine h.unused.release rfl rfl (Or.inr ⟨id, released, hreleased, rfl⟩) fun node hnode => ?_
    exact or_congr_right (exists_lookup_erase_iff hreleased fun heq => hnode heq.symm)

/-! ## Remembered names -/

lemma Valid.setEventEntries (h : state.Valid) {entries : Map EntryKey Nat}
    (hsize : size entries ≤ maxNodeCount) : { state with eventEntries := entries }.Valid :=
  ⟨{ h.indexed with }, h.unused, { h.opened with }, hsize⟩

lemma size_insert_le {κ ν : Type} [DecidableEq κ] (m : Map κ ν) (k : κ) (v : ν) :
    size (m.insert k v) ≤ size m + 1 := by
  unfold size
  rw [keys_insert]
  exact Finset.card_insert_le _ _

lemma Valid.rememberLookup (h : state.Valid) (request : Request) (response : Bytes) :
    (state.rememberLookup request response).Valid := by
  unfold State.rememberLookup
  split
  next entryName child _ _ =>
    refine h.setEventEntries ?_
    have hroom : size (if size state.eventEntries = maxNodeCount then popFirst state.eventEntries
        else state.eventEntries) < maxNodeCount := by
      split
      next hfull =>
        have hless : size (popFirst state.eventEntries) < size state.eventEntries :=
          FiniteMap.size_popFirst_lt (hfull ▸ (by decide : 0 < maxNodeCount))
        exact hfull ▸ hless
      next hroom => exact Nat.lt_of_le_of_ne h.events hroom
    split
    all_goals
      split
      · exact le_trans (size_insert_le _ _ _) hroom
      · exact hroom.le
  · exact h

/-! ## What keeps the nodes -/

abbrev KeepsNodes (state state' : State) : Prop :=
  state'.nodes = state.nodes ∧ state'.eventRequest = state.eventRequest

lemma keepsNodes_rememberLookup (state : State) (request : Request) (response : Bytes) :
    KeepsNodes state (state.rememberLookup request response) := by
  unfold rememberLookup
  split
  · exact ⟨rfl, rfl⟩
  · exact ⟨rfl, rfl⟩

lemma keepsNodes_markUnusedIfUnheld (state : State) (id : Nat) :
    KeepsNodes state (state.markUnusedIfUnheld id) := by
  obtain ⟨_, heq⟩ := markUnusedIfUnheld_frame state id
  rw [heq]
  exact ⟨rfl, rfl⟩

lemma keepsNodes_storeHandle (h : state.storeHandle id descriptor writable = (result, state')) :
    KeepsNodes state state' := by
  unfold storeHandle at h
  split at h
  all_goals
    cases h
    exact ⟨rfl, rfl⟩

lemma keepsNodes_storeDirectory
    (h : state.storeDirectory id directory descriptor = (result, state')) :
    KeepsNodes state state' := by
  unfold storeDirectory at h
  split at h
  all_goals
    cases h
    exact ⟨rfl, rfl⟩

lemma keepsNodes_removeHandle (state : State) (id : Nat) :
    KeepsNodes state (state.removeHandle id).2 := by
  unfold removeHandle
  split
  · exact ⟨rfl, rfl⟩
  · exact keepsNodes_markUnusedIfUnheld _ _

lemma keepsNodes_removeDirectory (state : State) (id : Nat) :
    KeepsNodes state (state.removeDirectory id) := by
  unfold removeDirectory
  split
  · exact ⟨rfl, rfl⟩
  · exact keepsNodes_markUnusedIfUnheld _ _

end State
end Terrarium.Fs
