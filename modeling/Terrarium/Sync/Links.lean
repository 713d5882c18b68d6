import Mathlib.Data.List.Dedup
import Mathlib.Data.List.Sort
import Terrarium.Foundations.Budget
import Terrarium.Sync.Manifest

/-!
# Links — the check of symlinks before a download

A download installs the guest's links next to links the host may keep.  Before it starts, the check
walks every resolution of every link of either side: where it crosses a link it goes on through the
guest's entry and through the host's link.  A resolution that has used an entry of the guest must
stay inside the destination; one that has used the host's own links only may leave it, and is
dropped there.

The walk of one branch is `walkBranch`, the stack of branches is worked off by `Metered.drain`.  All
walks of one check share a work budget.
-/

namespace Terrarium.Sync

open Fallible Metered

def maxSyncLinkWorkBytes : Nat := 64 * 1024 * 1024

/-- Linux's own limit on symlinks followed in one resolution. -/
def maxSymlinkFollows : Nat := 40

/-! ## The links of both sides -/

inductive LinkAuthor where
  | guest
  | host
  deriving DecidableEq

/-- One side's entry at a path that is a symlink on either side; no target for a guest file or
directory that replaces a host link. -/
structure LinkSide where
  target : Option Text
  author : LinkAuthor
  deriving DecidableEq

def guestSide (guest : Option SyncEntry) : Option LinkSide :=
  guest.map fun entry => ⟨entry.kind.linkTarget, .guest⟩

/-- A host link that the guest's entry does not repeat. -/
def hostSide (guest host : Option SyncEntry) : Option LinkSide :=
  ((host.bind fun entry => entry.kind.linkTarget).filter fun target =>
    (guestSide guest).all fun side => side.target ≠ some target).map fun target =>
      ⟨some target, .host⟩

/-- The guest's entry, which the sync installs, then a host link it does not repeat, which may
survive without `--delete`. -/
def linkSides (guest host : Option SyncEntry) : List LinkSide :=
  (guestSide guest).toList ++ (hostSide guest host).toList

def linkPaths (source destination : Manifest) : List Text :=
  ((((source.entries ++ destination.entries).filter fun item => item.2.kind.linkTarget.isSome).map
    Prod.fst).dedup).insertionSort (· ≤ ·)

def downloadLinks (source destination : Manifest) : List (Text × List LinkSide) :=
  (linkPaths source destination).map fun path =>
    (path, linkSides (source.get path) (destination.get path))

/-! ## Targets of guest links -/

/-- The depth below the root, component by component of a link's target. -/
def validateDepth (message : String) : Nat → List Text → Except String Unit
  | _, [] => .ok ()
  | depth, component :: rest =>
      if component = [] ∨ component = ['.'] then validateDepth message depth rest
      else if component = ['.', '.'] then
        if 0 < depth then validateDepth message (depth - 1) rest else .error message
      else validateDepth message (depth + 1) rest

def validateDownloadSymlinkTarget (entryRelPath target : Text) : Except String Unit := do
  ensure (target ≠ []) "symlink target cannot be empty"
  ensure (Text.byteLen target ≤ maxSyncPathBytes) "symlink target exceeds maximum length"
  ensure ('\x00' ∉ target) "symlink target contains NUL bytes"
  ensure (target.head? ≠ some '/')
    ("rejecting absolute symlink target '" ++ String.ofList target ++ "' from guest")
  validateDepth
    ("rejecting symlink '" ++ String.ofList entryRelPath ++ "' -> '" ++ String.ofList target ++
      "' that escapes destination root")
    (entryRelPath.count '/') (components target)

def isRooted (link : Text) : Bool :=
  link.head? = some '/'

/-- A guest-influenced chain must stay inside the root; a host-only chain is dropped where it leaves
what the walk can follow. -/
def followsLink (name link : Text) (followed : Nat) (isGuestInfluenced : Bool) :
    Except String Bool :=
  if isGuestInfluenced then do
    ensure (followed ≤ maxSymlinkFollows) "guest symlink chain is cyclic or too deep"
    validateDownloadSymlinkTarget name link
    return true
  else
    .ok (followed ≤ maxSymlinkFollows && !isRooted link)

/-! ## The walk -/

/-- Why a check stops: a message of the program, or a search of the model that was given too little
fuel. -/
inductive LinkError where
  | message (text : String)
  | unfinished
  deriving DecidableEq

abbrev Walk : Type → Type := Metered LinkError

/-- One partial resolution of a link chain. -/
structure Branch where
  resolved : List Text
  pending : List Text
  followed : Nat
  isGuestInfluenced : Bool
  deriving DecidableEq

/-- How the walk goes on after a component: with another resolved path, or not at all, leaving
branches on the stack (the last pushed one first). -/
inductive Walked where
  | continues (resolved : List Text)
  | returns (forks : List Branch)

/-- Pay for work; each component of a walk counts as one step once it is paid for. -/
def spendLinkWork (bytes ticks : Nat) : Walk Unit :=
  charge (.message "symlink resolution exceeded its work limit; sync a smaller subtree") bytes ticks

def fallible {α : Type} (result : Except String α) : Walk α :=
  fromExcept (result.mapError LinkError.message)

def copyBytes (name : Text) (pending : List Text) (side : LinkSide) : Nat :=
  Text.byteLen name + (pending.map fun part => Text.byteLen part + 1).sum +
    (side.target.map Text.byteLen).getD 0 + 1

/-- The branch that goes on through one side of the link at `name`, the last name of
`branch.resolved`. -/
def forkSide (name : Text) (branch : Branch) (side : LinkSide) : Except String (Option Branch) :=
  let influenced := branch.isGuestInfluenced || side.author = .guest
  match side.target with
  | none => .ok (some { branch with isGuestInfluenced := influenced })
  | some link =>
      (followsLink name link (branch.followed + 1) influenced).map fun follows =>
        if follows then
          some ⟨branch.resolved.dropLast, components link ++ branch.pending,
            branch.followed + 1, influenced⟩
        else none

def forkSides (name : Text) (branch : Branch) : List LinkSide → List Branch → Walk (List Branch)
  | [], forks => pure forks
  | side :: sides, forks => do
      spendLinkWork (copyBytes name branch.pending side) 0
      let next ← fallible (forkSide name branch side)
      forkSides name branch sides (next.toList ++ forks)

/-- The name under which a folder stores a component. -/
abbrev ResolveComponent : Type := Text → Text → Except String Text

section

variable (links : List (Text × List LinkSide)) (resolveComponent : ResolveComponent)

def crossLink (name : Text) (branch : Branch) : Walk Walked :=
  match Directory.find links name with
  | none => pure (.continues branch.resolved)
  | some sides => do
      let forks ← forkSides name branch sides []
      return .returns forks

def enterComponent (branch : Branch) (component : Text) : Walk Walked := do
  spendLinkWork (Text.byteLen (joinPath branch.resolved)) 0
  let stored ← fallible (resolveComponent (joinPath branch.resolved) component)
  spendLinkWork (Text.byteLen (joinPath (branch.resolved ++ [stored]))) 0
  crossLink links (joinPath (branch.resolved ++ [stored]))
    { branch with resolved := branch.resolved ++ [stored] }

def leaveDirectory (branch : Branch) : Walk Walked :=
  if branch.resolved = [] then
    if branch.isGuestInfluenced then throw (.message "guest symlink chain escapes destination root")
    else pure (.returns [])
  else pure (.continues branch.resolved.dropLast)

/-- One turn of the loop, for the component taken from the front of what is pending. -/
def visitComponent (branch : Branch) (component : Text) : Walk Walked := do
  spendLinkWork (Text.byteLen component + 1) 1
  if component = [] ∨ component = ['.'] then pure (.continues branch.resolved)
  else if component = ['.', '.'] then leaveDirectory branch
  else enterComponent links resolveComponent branch component

def walkPending (followed : Nat) (influenced : Bool) : List Text → List Text → Walk (List Branch)
  | [], _ => pure []
  | component :: pending, resolved => do
      match ← visitComponent links resolveComponent ⟨resolved, pending, followed, influenced⟩
        component with
      | .continues resolved => walkPending followed influenced pending resolved
      | .returns forks => return forks

/-- Resolves `branch` up to the next link, where it forks one branch per side of that link. -/
def walkBranch (branch : Branch) : Walk (List Branch) :=
  walkPending links resolveComponent branch.followed branch.isGuestInfluenced branch.pending
    branch.resolved

def firstBranch (path : Text) : Branch :=
  ⟨(components path).dropLast, [(components path).getLastD []], 0, false⟩

/-- Walks every resolution of the link at `path`, through each side of every link it crosses. -/
def validateLinkResolutions (path : Text) : Walk Unit := fun work =>
  drain .unfinished (walkBranch links resolveComponent) (work.remaining + 1) [firstBranch path] work

end

def validateLinks (links : List (Text × List LinkSide))
    (resolveComponent : ResolveComponent) : List Text → Walk Unit
  | [] => pure ()
  | path :: paths => do
      validateLinkResolutions links resolveComponent path
      validateLinks links resolveComponent paths

def runLinkCheck (source destination : Manifest)
    (resolveComponent : ResolveComponent) : EStateM.Result LinkError Work Unit :=
  validateLinks (downloadLinks source destination) resolveComponent (linkPaths source destination)
    ⟨maxSyncLinkWorkBytes, 0⟩

def validateDownloadLinks (source destination : Manifest)
    (resolveComponent : ResolveComponent) : Except LinkError Unit :=
  match runLinkCheck source destination resolveComponent with
  | .ok _ _ => .ok ()
  | .error e _ => .error e

/-! ## The map of links -/

def IsLinkPath (source destination : Manifest) (path : Text) : Prop :=
  ∃ entry, (source.get path = some entry ∨ destination.get path = some entry) ∧
    entry.kind.linkTarget.isSome

variable {source destination : Manifest} {path : Text}

lemma mem_linkPaths : path ∈ linkPaths source destination ↔ IsLinkPath source destination path := by
  simp only [linkPaths, List.mem_insertionSort, List.mem_dedup, List.mem_map, List.mem_filter,
    List.mem_append]
  constructor
  · rintro ⟨⟨path', entry⟩, ⟨hmem, hlink⟩, rfl⟩
    exact ⟨entry, hmem.imp Manifest.get_eq_some_iff.2 Manifest.get_eq_some_iff.2, hlink⟩
  · rintro ⟨entry, hget, hlink⟩
    exact ⟨(path, entry),
      ⟨hget.imp Manifest.get_eq_some_iff.1 Manifest.get_eq_some_iff.1, hlink⟩, rfl⟩

lemma find_downloadLinks {sides : List LinkSide} :
    Directory.find (downloadLinks source destination) path = some sides ↔
      IsLinkPath source destination path ∧
      sides = linkSides (source.get path) (destination.get path) := by
  rw [downloadLinks, Directory.find_tabulate, ← mem_linkPaths]
  by_cases h : path ∈ linkPaths source destination
  · simp [h, eq_comm]
  · simp [h]

lemma find_downloadLinks_eq_none : Directory.find (downloadLinks source destination) path = none ↔
      ¬ IsLinkPath source destination path := by
  rw [downloadLinks, Directory.find_tabulate, ← mem_linkPaths]
  by_cases h : path ∈ linkPaths source destination <;> simp [h]

end Terrarium.Sync
