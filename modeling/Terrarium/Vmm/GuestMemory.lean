import Mathlib.Data.List.Sort
import Terrarium.Foundations.Fallible
import Terrarium.Foundations.Overlay
import Terrarium.Limits

/-!
# GuestMemory — guest RAM and bounded access to it

`GuestMemory` of `terra-hypervisor` maps one or more regions of guest-physical addresses;
`BoundedMemory` of `terra-runtime` is what a device component reaches it through, with any offset
and length it likes.

* `GuestMemory.fromRanges`, `containsRange`, `validateRange`, `read`, `write` — the mapping and its
  checks;
* `Backing`, `Backing.Lawful` — the `vm-memory` crate, as far as it is assumed to be right;
* `guest_copies_bounded` — which batches go through, and what they do.

The contents of RAM are a function of the address; `usize` has 64 bits.  A memory fence does not
change the contents and is left out.
-/

namespace Terrarium.Vmm

open Limits
open Overlay (patch segment slice)

abbrev Bytes : Type := List UInt8

/-- The byte at every guest-physical address. -/
abbrev Contents : Type := Nat → UInt8

structure MemoryRange where
  addr : Nat
  len : Nat
  deriving DecidableEq

def MemoryRange.Contains (range : MemoryRange) (address : Nat) : Prop :=
  range.addr ≤ address ∧ address < range.addr + range.len

def Mapped (regions : List MemoryRange) (address : Nat) : Prop :=
  ∃ region ∈ regions, region.Contains address

def InRam (regions : List MemoryRange) (addr len : Nat) : Prop :=
  ∀ address, addr ≤ address → address < addr + len → Mapped regions address

/-! ## The crate that maps memory -/

/-- `vm-memory`: a check of a range, and copies from and to a range. -/
structure Backing where
  checkRange : List MemoryRange → Nat → Nat → Bool
  readAppend : List MemoryRange → Contents → Nat → Nat → Option Bytes
  writeSlice : List MemoryRange → Contents → Nat → Bytes → Option Unit × Contents

/-- What is assumed of it for some regions: a range that is not empty passes the check exactly if
all of its bytes are mapped, and a checked range is copied. -/
structure Backing.Lawful (backing : Backing) (regions : List MemoryRange) : Prop where
  checkRange : ∀ {addr len}, 0 < len → addr + len < 2 ^ 64 →
    (backing.checkRange regions addr len = true ↔ InRam regions addr len)
  readAppend : ∀ {contents addr len}, backing.checkRange regions addr len = true →
    backing.readAppend regions contents addr len = some (slice contents addr len)
  writeSlice : ∀ {contents addr bytes}, backing.checkRange regions addr bytes.length = true →
    backing.writeSlice regions contents addr bytes = (some (), patch contents (segment addr bytes))

/-! ## Guest memory -/

inductive MemoryError
  | outOfRange
  | tooLarge
  | unmapped
  deriving DecidableEq

def MemoryError.debug : MemoryError → String
  | .outOfRange => "OutOfRange"
  | .tooLarge => "TooLarge"
  | .unmapped => "Unmapped"

def rangeEnd (base size : Nat) : Option Nat :=
  if base + size < 2 ^ 64 then some (base + size) else none

/-- The regions in ascending order, and the address at which the last one ends. -/
structure GuestMemory where
  regions : List MemoryRange
  limit : Nat
  deriving DecidableEq

namespace GuestMemory

/-- Neighbours in the sorted list overlap. -/
def overlapping : List MemoryRange → Bool
  | first :: second :: rest =>
      ((rangeEnd first.addr first.len).all fun stop => stop > second.addr) || overlapping
        (second :: rest)
  | _ => false

/-- Allocates the supplied guest-physical mappings; the allocation itself may fail. -/
def fromRanges (allocates : List MemoryRange → Bool) (ranges : List MemoryRange) :
    Option GuestMemory :=
  let ranges := ranges.insertionSort fun left right => left.addr ≤ right.addr
  if ranges.isEmpty ||
      (ranges.any fun range => range.len = 0 || (rangeEnd range.addr range.len).isNone) ||
      overlapping ranges then
    none
  else if allocates ranges then do
    let last ← ranges.getLast?
    let limit ← rangeEnd last.addr last.len
    return ⟨ranges, limit⟩
  else none

def guestBase (memory : GuestMemory) : Nat :=
  (memory.regions.head?.map MemoryRange.addr).getD 0

variable (backing : Backing) (memory : GuestMemory)

def containsRange (addr len : Nat) : Bool :=
  ((rangeEnd addr len).any fun stop => stop ≤ memory.limit) && backing.checkRange
    memory.regions addr len

def rangeError (addr len : Nat) : MemoryError :=
  if addr < memory.guestBase ∨ (rangeEnd addr len).all fun stop => stop > memory.limit then
    .outOfRange
  else .unmapped

def validateRange (addr len : Nat) : Except MemoryError Unit :=
  if memory.containsRange backing addr len then .ok () else .error (memory.rangeError addr len)

def readAppend (contents : Contents) (addr len : Nat) :
    Except MemoryError Bytes := do
  memory.validateRange backing addr len
  Fallible.orError .unmapped (backing.readAppend memory.regions contents addr len)

def write (contents : Contents) (addr : Nat) (bytes : Bytes) : Except MemoryError Unit × Contents :=
  match memory.validateRange backing addr bytes.length with
  | .error error => (.error error, contents)
  | .ok () =>
      match backing.writeSlice memory.regions contents addr bytes with
      | (some (), contents) => (.ok (), contents)
      | (none, contents) => (.error .unmapped, contents)

end GuestMemory

/-! ## Bounded access -/

namespace BoundedMemory

variable (backing : Backing) (memory : GuestMemory)

def copyLen (len : Nat) : Except MemoryError Nat :=
  if len > maxSingleGuestCopyBytes then .error .tooLarge else .ok len

/-- One turn of the loop that checks a batch; `total` is the length of the ranges before. -/
def checkNext (total : Nat) (range : MemoryRange) :
    Except MemoryError Nat := do
  let _ ← copyLen range.len
  let total ← Fallible.orError .tooLarge (rangeEnd total range.len)
  if total > maxBatchGuestCopyBytes then
    .error .tooLarge
  else do
    memory.validateRange backing range.addr range.len
    return total

/-- The checks that both kinds of batch make before they copy anything. -/
def checkBatch (ranges : List MemoryRange) : Except MemoryError Nat :=
  if ranges.length > maxBatchGuestCopyRanges then .error .tooLarge
  else ranges.foldlM (checkNext backing memory) 0

def readRanges (contents : Contents) (ranges : List MemoryRange) :
    Except MemoryError Bytes := do
  let _ ← checkBatch backing memory ranges
  ranges.foldlM (fun bytes range => do
    let len ← copyLen range.len
    let read ← memory.readAppend backing contents range.addr len
    return bytes ++ read) []

def write (contents : Contents) (offset : Nat) (data : Bytes) :
    Except MemoryError Unit × Contents :=
  match copyLen data.length with
  | .error error => (.error error, contents)
  | .ok _ => memory.write backing contents offset data

def writeEach : Contents → List (Nat × Bytes) → Except MemoryError Unit × Contents
  | contents, [] => (.ok (), contents)
  | contents, (offset, data) :: ranges =>
      match write backing memory contents offset data with
      | (.error error, contents) => (.error error, contents)
      | (.ok (), contents) => writeEach contents ranges

def writeRanges (contents : Contents) (ranges : List (Nat × Bytes)) :
    Except MemoryError Unit × Contents :=
  match checkBatch backing memory (ranges.map fun range => ⟨range.1, range.2.length⟩) with
  | .error error => (.error error, contents)
  | .ok _ => writeEach backing memory contents ranges

end BoundedMemory

/-! ## A device's imports -/

namespace DeviceContext

variable (backing : Backing) (memory : GuestMemory)

def readRanges (contents : Contents) (ranges : List MemoryRange) : Except MemoryError Bytes :=
  if ranges.length > maxBatchGuestCopyRanges then .error .tooLarge
  else BoundedMemory.readRanges backing memory contents ranges

def writeRanges (contents : Contents) (ranges : List (Nat × Bytes)) :
    Except MemoryError Unit × Contents :=
  if ranges.length > maxBatchGuestCopyRanges then (.error .tooLarge, contents)
  else BoundedMemory.writeRanges backing memory contents ranges

end DeviceContext

/-! ## Mapped ranges -/

namespace GuestMemory

variable {backing : Backing} {memory : GuestMemory} {addr len : Nat}

lemma rangeEnd_eq_some {base size stop : Nat} :
    rangeEnd base size = some stop ↔ base + size < 2 ^ 64 ∧ stop = base + size := by
  unfold rangeEnd
  rw [Option.ite_none_right_eq_some, Option.some.injEq]
  exact and_congr_right' eq_comm

/-- The regions end at the limit, which is an address. -/
structure Bounded (memory : GuestMemory) : Prop where
  regions : ∀ region ∈ memory.regions, region.addr + region.len ≤ memory.limit
  limit : memory.limit < 2 ^ 64

lemma end_le_last {regions : List MemoryRange}
    (hfits : ∀ region ∈ regions, region.addr + region.len < 2 ^ 64)
    (hdisjoint : overlapping regions = false) {last : MemoryRange}
    (hlast : regions.getLast? = some last) :
    ∀ region ∈ regions, region.addr + region.len ≤ last.addr + last.len := by
  induction regions with
  | nil => exact List.forall_mem_nil _
  | cons first rest ih =>
    cases rest with
    | nil =>
      cases hlast
      intro region hregion
      cases List.mem_singleton.1 hregion
      exact le_refl _
    | cons second rest =>
      obtain ⟨hfirst, hrest⟩ := Bool.or_eq_false_iff.1 hdisjoint
      rw [List.getLast?_cons_cons] at hlast
      have hih :=
        ih (fun region hregion => hfits region (List.mem_cons_of_mem _ hregion)) hrest hlast
      intro region hregion
      rcases List.mem_cons.1 hregion with rfl | hregion
      · have hstop : region.addr + region.len ≤ second.addr := by
          rw [rangeEnd_eq_some.2 ⟨hfits region List.mem_cons_self, rfl⟩] at hfirst
          exact Nat.le_of_not_lt (of_decide_eq_false hfirst)
        exact le_trans hstop (le_trans (Nat.le_add_right _ _) (hih second List.mem_cons_self))
      · exact hih region hregion

lemma bounded_fromRanges {allocates : List MemoryRange → Bool} {ranges : List MemoryRange}
    (h : fromRanges allocates ranges = some memory) : memory.Bounded := by
  unfold fromRanges at h
  dsimp only at h
  split at h
  · cases h
  next hchecks =>
    simp only [Bool.or_eq_true, not_or, Bool.not_eq_true, List.any_eq_false] at hchecks
    obtain ⟨⟨-, hsizes⟩, hdisjoint⟩ := hchecks
    split at h
    · obtain ⟨last, hlast, h⟩ := Option.bind_eq_some_iff.1 h
      obtain ⟨limit, hlimit, h⟩ := Option.bind_eq_some_iff.1 h
      cases h
      obtain ⟨hlt, rfl⟩ := rangeEnd_eq_some.1 hlimit
      refine ⟨end_le_last (fun region hregion => ?_) hdisjoint hlast, hlt⟩
      by_contra hwraps
      have hnone : rangeEnd region.addr region.len = none := if_neg hwraps
      have hsize := hsizes region hregion
      simp [hnone] at hsize
    · cases h

lemma validateRange_eq_ok : memory.validateRange backing addr len = .ok () ↔
    memory.containsRange backing addr len = true := by
  unfold validateRange
  split
  next hcontains => exact ⟨fun _ => hcontains, fun _ => rfl⟩
  next hcontains => exact ⟨nofun, fun h => absurd h hcontains⟩

lemma checkRange_of_contains (h : memory.containsRange backing addr len = true) :
    backing.checkRange memory.regions addr len = true :=
  (Bool.and_eq_true_iff.1 h).2

variable (hlawful : backing.Lawful memory.regions)
include hlawful

/-- A range that is not empty is contained exactly if every byte of it is mapped. -/
lemma containsRange_iff (hbounded : memory.Bounded) (hlen : 0 < len) :
    memory.containsRange backing addr len = true ↔ InRam memory.regions addr len := by
  unfold containsRange
  rw [Bool.and_eq_true]
  constructor
  · rintro ⟨hlimit, hcheck⟩
    obtain ⟨stop, hstop, -⟩ := (Option.any_eq_true _ _).1 hlimit
    exact (hlawful.checkRange hlen (rangeEnd_eq_some.1 hstop).1).1 hcheck
  · intro hram
    -- The last byte lies in a region, which ends at the limit or before.
    obtain ⟨region, hregion, -, hlast⟩ := hram (addr + len - 1) (by omega) (by omega)
    have hlimit : addr + len ≤ memory.limit := by
      have := hbounded.regions region hregion
      omega
    have hfits : addr + len < 2 ^ 64 := lt_of_le_of_lt hlimit hbounded.limit
    rw [rangeEnd_eq_some.2 ⟨hfits, rfl⟩]
    exact ⟨decide_eq_true hlimit, (hlawful.checkRange hlen hfits).2 hram⟩

lemma readAppend_eq (h : memory.containsRange backing addr len = true) (contents : Contents) :
    memory.readAppend backing contents addr len = .ok (slice contents addr len) := by
  unfold readAppend
  rw [validateRange_eq_ok.2 h, hlawful.readAppend (checkRange_of_contains h)]
  rfl

lemma write_eq {bytes : Bytes} (h : memory.containsRange backing addr bytes.length = true)
    (contents : Contents) :
    memory.write backing contents addr bytes = (.ok (), patch contents (segment addr bytes)) := by
  unfold write
  rw [validateRange_eq_ok.2 h, hlawful.writeSlice (checkRange_of_contains h)]

end GuestMemory

/-! ## Batches -/

/-- What a batch has to keep to: how many ranges, how long each is and all together, and that they
are mapped. -/
structure Admissible (regions : List MemoryRange) (ranges : List MemoryRange) : Prop where
  count : ranges.length ≤ maxBatchGuestCopyRanges
  single : ∀ range ∈ ranges, range.len ≤ maxSingleGuestCopyBytes
  total : (ranges.map MemoryRange.len).sum ≤ maxBatchGuestCopyBytes
  mapped : ∀ range ∈ ranges, InRam regions range.addr range.len

namespace BoundedMemory

variable {backing : Backing} {memory : GuestMemory} {contents : Contents}

variable {result total : Nat} {ranges : List MemoryRange}

lemma copyLen_eq_ok {len : Nat} : copyLen len = .ok result ↔ len ≤ maxSingleGuestCopyBytes ∧
    result = len := by
  unfold copyLen
  split
  next hlong => exact ⟨nofun, fun h => absurd h.1 (Nat.not_le.2 hlong)⟩
  next hshort =>
    rw [Except.ok.injEq]
    exact ⟨fun heq => ⟨Nat.le_of_not_lt hshort, heq.symm⟩, fun h => h.2.symm⟩

lemma checkNext_eq_ok {range : MemoryRange} : checkNext backing memory total range = .ok result ↔
      range.len ≤ maxSingleGuestCopyBytes ∧ result = total + range.len ∧
        total + range.len ≤ maxBatchGuestCopyBytes ∧
        memory.containsRange backing range.addr range.len = true := by
  unfold checkNext
  constructor
  · intro h
    obtain ⟨len, hlen, h⟩ := Fallible.bind_eq_ok.1 h
    obtain ⟨stop, hstop, h⟩ := Fallible.bind_eq_ok.1 h
    obtain ⟨-, rfl⟩ := GuestMemory.rangeEnd_eq_some.1 (Fallible.orError_eq_ok.1 hstop)
    split at h
    · cases h
    next hshort =>
      obtain ⟨⟨⟩, hvalid, h⟩ := Fallible.bind_eq_ok.1 h
      cases h
      exact ⟨(copyLen_eq_ok.1 hlen).1, rfl, Nat.le_of_not_lt hshort,
        GuestMemory.validateRange_eq_ok.1 hvalid⟩
  · rintro ⟨hlen, rfl, hshort, hcontains⟩
    have hfits : total + range.len < 2 ^ 64 := lt_of_le_of_lt hshort (by decide)
    rw [copyLen_eq_ok.2 ⟨hlen, rfl⟩, GuestMemory.rangeEnd_eq_some.2 ⟨hfits, rfl⟩]
    refine (if_neg (Nat.not_lt.2 hshort)).trans ?_
    rw [GuestMemory.validateRange_eq_ok.2 hcontains]
    rfl

lemma foldlM_checkNext_eq_ok (htotal : total ≤ maxBatchGuestCopyBytes) :
    ranges.foldlM (checkNext backing memory) total = .ok result ↔
    result = total + (ranges.map MemoryRange.len).sum ∧
        total + (ranges.map MemoryRange.len).sum ≤ maxBatchGuestCopyBytes ∧
        ∀ range ∈ ranges, range.len ≤ maxSingleGuestCopyBytes ∧
          memory.containsRange backing range.addr range.len = true := by
  induction ranges generalizing total with
  | nil =>
    rw [List.foldlM_nil, Fallible.pure_eq_ok, List.map_nil, List.sum_nil, Nat.add_zero]
    exact ⟨fun heq => ⟨heq.symm, htotal, List.forall_mem_nil _⟩, fun h => h.1.symm⟩
  | cons range ranges ih =>
    rw [List.foldlM_cons, Fallible.bind_eq_ok, List.map_cons, List.sum_cons, ← Nat.add_assoc,
      List.forall_mem_cons]
    constructor
    · rintro ⟨next, hnext, hrest⟩
      obtain ⟨hlen, rfl, hshort, hcontains⟩ := checkNext_eq_ok.1 hnext
      obtain ⟨heq, hsum, hall⟩ := (ih hshort).1 hrest
      exact ⟨heq, hsum, ⟨hlen, hcontains⟩, hall⟩
    · rintro ⟨heq, hsum, ⟨hlen, hcontains⟩, hall⟩
      have hshort : total + range.len ≤ maxBatchGuestCopyBytes :=
        le_trans (Nat.le_add_right _ _) hsum
      exact ⟨_, checkNext_eq_ok.2 ⟨hlen, rfl, hshort, hcontains⟩, (ih hshort).2 ⟨heq, hsum, hall⟩⟩

lemma contains_of_checkBatch (h : checkBatch backing memory ranges = .ok total) :
    ∀ range ∈ ranges, range.len ≤ maxSingleGuestCopyBytes ∧
      memory.containsRange backing range.addr range.len = true := by
  unfold checkBatch at h
  split at h
  · cases h
  · exact ((foldlM_checkNext_eq_ok (Nat.zero_le _)).1 h).2.2

variable (hlawful : backing.Lawful memory.regions)
include hlawful

/-- A batch without empty ranges passes its checks exactly if it is admissible. -/
lemma checkBatch_ok_iff (hbounded : memory.Bounded) (hlens : ∀ range ∈ ranges, 0 < range.len) :
    (∃ total, checkBatch backing memory ranges = .ok total) ↔ Admissible memory.regions ranges := by
  have hcontains : ∀ range ∈ ranges, memory.containsRange backing range.addr range.len = true ↔
      InRam memory.regions range.addr range.len := fun range hrange =>
    GuestMemory.containsRange_iff hlawful hbounded (hlens range hrange)
  unfold checkBatch
  split
  next hlong => exact ⟨(fun ⟨_, h⟩ => nomatch h), fun h => absurd h.count (Nat.not_le.2 hlong)⟩
  next hcount =>
    constructor
    · rintro ⟨total, h⟩
      obtain ⟨-, hsum, hall⟩ := (foldlM_checkNext_eq_ok (Nat.zero_le _)).1 h
      rw [Nat.zero_add] at hsum
      exact ⟨Nat.le_of_not_lt hcount, fun range hrange => (hall range hrange).1, hsum,
        fun range hrange => (hcontains range hrange).1 (hall range hrange).2⟩
    · intro h
      refine ⟨_, (foldlM_checkNext_eq_ok (Nat.zero_le _)).2
        ⟨rfl, ?_, fun range hrange => ⟨h.single range hrange, ?_⟩⟩⟩
      · rw [Nat.zero_add]
        exact h.total
      · exact (hcontains range hrange).2 (h.mapped range hrange)

lemma readRanges_eq (h : checkBatch backing memory ranges = .ok total) :
    readRanges backing memory contents ranges =
      .ok (ranges.flatMap fun range => slice contents range.addr range.len) := by
  have hall := contains_of_checkBatch h
  -- The bytes read so far stand before those of the ranges that are left.
  have hread : ∀ bytes : Bytes, ranges.foldlM (fun bytes range => do
      let len ← copyLen range.len
      let read ← memory.readAppend backing contents range.addr len
      return bytes ++ read) bytes = .ok
        (bytes ++ ranges.flatMap fun range => slice contents range.addr range.len) := by
    clear h
    induction ranges with
    | nil =>
      intro bytes
      rw [List.flatMap_nil, List.append_nil]
      rfl
    | cons range ranges ih =>
      intro bytes
      obtain ⟨⟨hlen, hcontains⟩, hrest⟩ := List.forall_mem_cons.1 hall
      rw [List.foldlM_cons, copyLen_eq_ok.2 ⟨hlen, rfl⟩, List.flatMap_cons, ← List.append_assoc]
      refine Fallible.bind_eq_ok.2 ⟨bytes ++ slice contents range.addr range.len, ?_, ih hrest _⟩
      exact Fallible.bind_eq_ok.2 ⟨_, rfl,
        Fallible.bind_eq_ok.2 ⟨_, GuestMemory.readAppend_eq hlawful hcontains contents, rfl⟩⟩
  unfold readRanges
  rw [h]
  exact hread []

lemma write_eq {offset : Nat} {data : Bytes} (hlen : data.length ≤ maxSingleGuestCopyBytes)
    (hcontains : memory.containsRange backing offset data.length = true) :
    write backing memory contents offset data = (.ok (), patch contents (segment offset data)) := by
  unfold write
  rw [copyLen_eq_ok.2 ⟨hlen, rfl⟩]
  exact GuestMemory.write_eq hlawful hcontains contents

lemma writeEach_eq {ranges : List (Nat × Bytes)}
    (hall : ∀ range ∈ ranges, range.2.length ≤ maxSingleGuestCopyBytes ∧
      memory.containsRange backing range.1 range.2.length = true) (contents : Contents) :
    writeEach backing memory contents ranges =
      (.ok (), overlay contents (ranges.map fun range => segment range.1 range.2)) := by
  induction ranges generalizing contents with
  | nil => rfl
  | cons range ranges ih =>
    obtain ⟨⟨hlen, hcontains⟩, hrest⟩ := List.forall_mem_cons.1 hall
    unfold writeEach
    rw [write_eq hlawful hlen hcontains]
    exact ih hrest _

lemma writeRanges_eq {ranges : List (Nat × Bytes)}
    (h : checkBatch backing memory
      (ranges.map fun range => ⟨range.1, range.2.length⟩) = .ok total) :
    writeRanges backing memory contents ranges =
      (.ok (), overlay contents (ranges.map fun range => segment range.1 range.2)) := by
  have hall := contains_of_checkBatch h
  unfold writeRanges
  rw [h]
  refine writeEach_eq hlawful (fun range hrange => ?_) contents
  exact hall ⟨range.1, range.2.length⟩ (List.mem_map.2 ⟨range, hrange, rfl⟩)

end BoundedMemory

/-- A device's batches without empty ranges go through exactly if they are admissible.  A batch that
does not go through reads and changes nothing; one that does reads its ranges in order, or writes
them in order. -/
theorem guest_copies_bounded {backing : Backing} {memory : GuestMemory}
    (hlawful : backing.Lawful memory.regions) {allocates : List MemoryRange → Bool}
    {regions : List MemoryRange}
    (hmemory : GuestMemory.fromRanges allocates regions = some memory) (contents : Contents) :
    (∀ ranges : List MemoryRange, (∀ range ∈ ranges, 0 < range.len) →
      ((∃ bytes, DeviceContext.readRanges backing memory contents ranges = .ok bytes) ↔
        Admissible memory.regions ranges) ∧
      (Admissible memory.regions ranges → DeviceContext.readRanges backing memory contents ranges =
        .ok (ranges.flatMap fun range => slice contents range.addr range.len))) ∧
    ∀ ranges : List (Nat × Bytes), (∀ range ∈ ranges, 0 < range.2.length) →
      ((DeviceContext.writeRanges backing memory contents ranges).1 = .ok () ↔
        Admissible memory.regions (ranges.map fun range => ⟨range.1, range.2.length⟩)) ∧
      (¬ Admissible memory.regions (ranges.map fun range => ⟨range.1, range.2.length⟩) →
        (DeviceContext.writeRanges backing memory contents ranges).2 = contents) ∧
      (Admissible memory.regions (ranges.map fun range => ⟨range.1, range.2.length⟩) →
        DeviceContext.writeRanges backing memory contents ranges =
          (.ok (), overlay contents (ranges.map fun range => segment range.1 range.2))) := by
  have hbounded := GuestMemory.bounded_fromRanges hmemory
  refine ⟨fun ranges hlens => ?_, fun ranges hlens => ?_⟩
  · have hok := BoundedMemory.checkBatch_ok_iff hlawful hbounded hlens
    have hread : Admissible memory.regions ranges →
        DeviceContext.readRanges backing memory contents ranges =
        .ok (ranges.flatMap fun range => slice contents range.addr range.len) := by
      intro hadmissible
      obtain ⟨total, htotal⟩ := hok.2 hadmissible
      exact (if_neg (Nat.not_lt.2 hadmissible.count)).trans
        (BoundedMemory.readRanges_eq hlawful htotal)
    refine ⟨⟨fun ⟨bytes, hbytes⟩ => ?_, fun hadmissible => ⟨_, hread hadmissible⟩⟩, hread⟩
    unfold DeviceContext.readRanges at hbytes
    split at hbytes
    · cases hbytes
    · obtain ⟨total, htotal, -⟩ := Fallible.bind_eq_ok.1 hbytes
      exact hok.1 ⟨total, htotal⟩
  · have hlens' : ∀ range ∈ ranges.map fun range =>
        (⟨range.1, range.2.length⟩ : MemoryRange), 0 < range.len := by
      intro range hrange
      obtain ⟨source, hsource, rfl⟩ := List.mem_map.1 hrange
      exact hlens source hsource
    have hok := BoundedMemory.checkBatch_ok_iff hlawful hbounded hlens'
    have hwrite : Admissible memory.regions (ranges.map fun range => ⟨range.1, range.2.length⟩) →
        DeviceContext.writeRanges backing memory contents ranges =
          (.ok (), overlay contents (ranges.map fun range => segment range.1 range.2)) := by
      intro hadmissible
      obtain ⟨total, htotal⟩ := hok.2 hadmissible
      have hcount := hadmissible.count
      rw [List.length_map] at hcount
      exact (if_neg (Nat.not_lt.2 hcount)).trans (BoundedMemory.writeRanges_eq hlawful htotal)
    have hrefused :
        ¬ Admissible memory.regions (ranges.map fun range => ⟨range.1, range.2.length⟩) →
        ∃ error, DeviceContext.writeRanges backing memory contents ranges =
        (.error error, contents) := by
      intro hinadmissible
      unfold DeviceContext.writeRanges
      split
      · exact ⟨_, rfl⟩
      · unfold BoundedMemory.writeRanges
        cases hcheck : BoundedMemory.checkBatch backing memory
            (ranges.map fun range => ⟨range.1, range.2.length⟩) with
        | error error => exact ⟨error, rfl⟩
        | ok total => exact absurd (hok.1 ⟨total, hcheck⟩) hinadmissible
    refine ⟨⟨fun hresult => ?_, fun hadmissible => ?_⟩, fun hinadmissible => ?_, hwrite⟩
    · by_contra hinadmissible
      obtain ⟨error, heq⟩ := hrefused hinadmissible
      rw [heq] at hresult
      cases hresult
    · rw [hwrite hadmissible]
    · obtain ⟨error, heq⟩ := hrefused hinadmissible
      rw [heq]

/-- A backing that looks for one region that holds a range, as on Windows. -/
def contained : Backing where
  checkRange := fun regions addr len => regions.any fun region =>
    region.addr ≤ addr && addr + len ≤ region.addr + region.len
  readAppend := fun _ contents addr len => some (slice contents addr len)
  writeSlice := fun _ contents addr bytes => (some (), patch contents (segment addr bytes))

lemma contained_lawful {regions : List MemoryRange} (hapart : ∀ left ∈ regions, ∀ right ∈ regions,
    left ≠ right → left.addr + left.len < right.addr ∨ right.addr + right.len < left.addr) :
    contained.Lawful regions where
  checkRange := by
    intro addr len hlen _
    simp only [contained, List.any_eq_true, Bool.and_eq_true, decide_eq_true_eq]
    constructor
    · rintro ⟨region, hregion, hfirst, hlast⟩ address hle hlt
      exact ⟨region, hregion, le_trans hfirst hle, lt_of_lt_of_le hlt hlast⟩
    · intro h
      obtain ⟨region, hregion, hfirst, hlast⟩ := h addr (le_refl _) (Nat.lt_add_of_pos_right hlen)
      refine ⟨region, hregion, hfirst, Nat.le_of_not_lt fun hbeyond => ?_⟩
      -- The byte behind the region would be mapped by another one, which is apart from it.
      obtain ⟨other, hother, hstart, hstop⟩ := h (region.addr + region.len) hlast.le hbeyond
      have hne : region ≠ other := by
        rintro rfl
        exact lt_irrefl _ hstop
      have := hapart region hregion other hother hne
      omega
  readAppend := fun _ => rfl
  writeSlice := fun _ => rfl

def twoPages : GuestMemory := ⟨[⟨0, 4096⟩, ⟨8192, 4096⟩], 12288⟩

theorem guest_copies_bounded_two_pages :
    GuestMemory.fromRanges (fun _ => true) [⟨8192, 4096⟩, ⟨0, 4096⟩] = some twoPages ∧
      DeviceContext.writeRanges contained twoPages (fun _ => 0) [(8192, [1, 2]), (8193, [3])] =
        (.ok (), overlay (fun _ => 0) [segment 8192 [1, 2], segment 8193 [3]]) ∧
      ¬ ∃ bytes, DeviceContext.readRanges contained twoPages (fun _ => 0) [⟨0, 4⟩, ⟨4095, 2⟩] =
        .ok bytes := by
  have hmemory : GuestMemory.fromRanges (fun _ => true) [⟨8192, 4096⟩, ⟨0, 4096⟩] =
      some twoPages := by
    decide
  have hlawful : contained.Lawful twoPages.regions := contained_lawful (by decide)
  have hmapped : ∀ {addr len : Nat}, 0 < len → addr + len < 2 ^ 64 →
      contained.checkRange twoPages.regions addr len = true → InRam twoPages.regions addr len :=
      fun hlen hfits =>
    (hlawful.checkRange hlen hfits).1
  obtain ⟨hread, hwrite⟩ := guest_copies_bounded hlawful hmemory fun _ => 0
  refine ⟨hmemory, (hwrite _ (by decide)).2.2 ⟨by decide, by decide, by decide, ?_⟩, ?_⟩
  · intro range hrange
    rcases List.mem_cons.1 hrange with rfl | hrange
    · exact hmapped (by decide) (by decide) (by decide)
    · cases List.mem_singleton.1 hrange
      exact hmapped (by decide) (by decide) (by decide)
  · intro hbytes
    have hhole :=
      (((hread _ (by decide)).1.1 hbytes).mapped ⟨4095, 2⟩ (by decide)) 4096 (by decide) (by decide)
    obtain ⟨region, hregion, hcontains⟩ := hhole
    have hnone :
        ∀ region ∈ twoPages.regions, ¬ (region.addr ≤ 4096 ∧ 4096 < region.addr + region.len) := by
      decide
    exact hnone region hregion hcontains

end Terrarium.Vmm
