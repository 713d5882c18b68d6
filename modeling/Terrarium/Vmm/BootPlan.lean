import Terrarium.Protocol.PackedImageFidelity
import Terrarium.Vmm.GuestMemory

/-!
# BootPlan — applying the plan of a boot component

`component/vmm/boot.rs` of `terra-runtime`: a sandboxed component returns a plan of kernel segments
and writes, which is validated against guest RAM and the kernel image and then copied in pieces of
bounded size.

* `Kernel`, `Kernel.Faithful` — the image the segments are read from; a packed image is one
  (`packedKernel_faithful`);
* `boot_plan_applied` — a refused plan changes nothing, and one that is applied leaves RAM as if
  every segment and then every write had been copied whole.
-/

namespace Terrarium.Vmm

open Fallible (ensure orError)
open Limits
open Overlay (patch segment)
open Protocol (PackedImage Lz4 Fault)

/-! ## Plans -/

structure KernelSegment where
  sourceOffset : Nat
  guestAddress : Nat
  fileLength : Nat
  memoryLength : Nat
  deriving DecidableEq

structure GuestWrite where
  address : Nat
  bytes : Bytes
  deriving DecidableEq

structure Plan where
  entry : Nat
  bootArgument : Nat
  kernelSegments : List KernelSegment
  writes : List GuestWrite
  deriving DecidableEq

structure BootEntry where
  entry : Nat
  bootArgument : Nat
  deriving DecidableEq

section Validate

variable (backing : Backing) (memory : GuestMemory) (kernelBytes : Nat)

/-- One turn of the loop over the segments; `copied` is the length of those before. -/
def validateSegment (copied : Nat) (piece : KernelSegment) : Except String Nat := do
  ensure (piece.fileLength ≤ piece.memoryLength) "boot segment exceeds its memory range"
  let sourceEnd ← orError "boot kernel source range overflows"
    (rangeEnd piece.sourceOffset piece.fileLength)
  ensure (sourceEnd ≤ kernelBytes) "boot kernel source range exceeds image"
  let copied ← orError "boot kernel copy budget overflows" (rangeEnd copied piece.fileLength)
  ensure (copied ≤ kernelBytes) "boot kernel copies exceed image budget"
  (memory.validateRange backing piece.guestAddress piece.memoryLength).mapError fun error =>
    "boot segment: " ++ error.debug
  return copied

def validateWrite (write : GuestWrite) : Except String Unit := do
  ensure (write.bytes.length ≤ maxBootWriteBytes) "boot data exceeds write budget"
  (memory.validateRange backing write.address write.bytes.length).mapError fun error =>
    "boot write: " ++ error.debug

def KernelSegment.holds (piece : KernelSegment) (address : Nat) : Bool :=
  piece.guestAddress ≤ address &&
    (rangeEnd piece.guestAddress piece.memoryLength).any fun stop => address < stop

def validatePlan (plan : Plan) : Except String Unit := do
  ensure (plan.kernelSegments ≠ [] ∧ plan.kernelSegments.length ≤ maxBootKernelSegments)
    "boot plan exceeds kernel segment limit"
  ensure (plan.writes.length ≤ maxBootWrites) "boot plan exceeds write limit"
  let _ ← plan.kernelSegments.foldlM (validateSegment backing memory kernelBytes) 0
  plan.writes.forM (validateWrite backing memory)
  ensure (plan.kernelSegments.any fun piece => piece.holds plan.entry)
    "boot entry is outside kernel segments"
  (memory.validateRange backing plan.bootArgument 1).mapError fun error =>
    "boot argument: " ++ error.debug

end Validate

/-! ## Copying -/

section Copy

variable (backing : Backing) (memory : GuestMemory)

/-- The pieces of a write, from the one with a given index on. -/
def writeChunks (address : Nat) : Nat → List Bytes → Contents → Except String Unit × Contents
  | _, [], contents => (.ok (), contents)
  | index, chunk :: chunks, contents =>
      match rangeEnd address (index * maxSingleGuestCopyBytes) with
      | none => (.error "boot write address overflows", contents)
      | some start =>
          match BoundedMemory.write backing memory contents start chunk with
          | (.error error, contents) => (.error ("boot memory copy: " ++ error.debug), contents)
          | (.ok (), contents) => writeChunks address (index + 1) chunks contents

def writeBootBytes (contents : Contents) (address : Nat) (bytes : Bytes) :
    Except String Unit × Contents :=
  writeChunks backing memory address 0 (Chunks.chunks maxSingleGuestCopyBytes bytes) contents

/-- The image that segments are read from; a read changes what it caches. -/
structure Kernel (κ : Type) where
  imageBytes : κ → Nat
  readAt : κ → Nat → Nat → Except String Bytes × κ

variable {κ : Type} (kernel : Kernel κ)

/-- The loop over a segment; additions are those of `u64`. -/
def copySegment (piece : KernelSegment) (copied : Nat) (source : κ) (contents : Contents) :
    Except String Unit × κ × Contents :=
  if copied < piece.fileLength then
    let len := min (piece.fileLength - copied) maxSingleGuestCopyBytes
    match kernel.readAt source ((piece.sourceOffset + copied) % 2 ^ 64) len with
    | (.error error, source) => (.error ("reading kernel image: " ++ error), source, contents)
    | (.ok bytes, source) =>
        match writeBootBytes backing memory contents
          ((piece.guestAddress + copied) % 2 ^ 64) bytes with
        | (.error error, contents) => (.error error, source, contents)
        | (.ok (), contents) => copySegment piece (copied + len) source contents
  else (.ok (), source, contents)
termination_by piece.fileLength - copied
decreasing_by
  have hlen : 0 < min (piece.fileLength - copied) maxSingleGuestCopyBytes :=
    Nat.lt_min.2 ⟨by omega, by decide⟩
  omega

def copySegments : List KernelSegment → κ → Contents → Except String Unit × κ × Contents
  | [], source, contents => (.ok (), source, contents)
  | piece :: pieces, source, contents =>
      match copySegment backing memory kernel piece 0 source contents with
      | (.error error, source, contents) => (.error error, source, contents)
      | (.ok (), source, contents) => copySegments pieces source contents

def applyWrites : List GuestWrite → Contents → Except String Unit × Contents
  | [], contents => (.ok (), contents)
  | write :: writes, contents =>
      match writeBootBytes backing memory contents write.address write.bytes with
      | (.error error, contents) => (.error error, contents)
      | (.ok (), contents) => applyWrites writes contents

def applyPlan (plan : Plan) (source : κ) (contents : Contents) :
    Except String BootEntry × κ × Contents :=
  match validatePlan backing memory (kernel.imageBytes source) plan with
  | .error error => (.error error, source, contents)
  | .ok () =>
      match copySegments backing memory kernel plan.kernelSegments source contents with
      | (.error error, source, contents) => (.error error, source, contents)
      | (.ok (), source, contents) =>
          match applyWrites backing memory plan.writes contents with
          | (.error error, contents) => (.error error, source, contents)
          | (.ok (), contents) => (.ok ⟨plan.entry, plan.bootArgument⟩, source, contents)

end Copy

/-! ## What a validated plan is -/

section Validated

variable {backing : Backing} {memory : GuestMemory} {kernelBytes : Nat}

/-- A segment that can be copied from its image and into RAM. -/
structure KernelSegment.Fits (backing : Backing) (memory : GuestMemory) (kernelBytes : Nat)
    (piece : KernelSegment) : Prop where
  file : piece.fileLength ≤ piece.memoryLength
  source : piece.sourceOffset + piece.fileLength < 2 ^ 64
  image : piece.sourceOffset + piece.fileLength ≤ kernelBytes
  mapped : memory.containsRange backing piece.guestAddress piece.memoryLength = true

structure Plan.Valid (backing : Backing) (memory : GuestMemory) (kernelBytes : Nat)
    (plan : Plan) : Prop where
  segments : ∀ piece ∈ plan.kernelSegments, piece.Fits backing memory kernelBytes
  writes :
    ∀ write ∈ plan.writes, memory.containsRange backing write.address write.bytes.length = true
  entry : ∃ piece ∈ plan.kernelSegments, piece.guestAddress ≤ plan.entry ∧
    plan.entry < piece.guestAddress + piece.memoryLength
  argument : memory.containsRange backing plan.bootArgument 1 = true

lemma contains_of_mapError {addr len : Nat} {describe : MemoryError → String} {u : Unit}
    (h : (memory.validateRange backing addr len).mapError describe = .ok u) :
    memory.containsRange backing addr len = true := by
  cases hvalid : memory.validateRange backing addr len with
  | error error =>
    rw [hvalid] at h
    cases h
  | ok => exact GuestMemory.validateRange_eq_ok.1 hvalid

lemma fits_of_validateSegment {copied next : Nat} {piece : KernelSegment}
    (h : validateSegment backing memory kernelBytes copied piece = .ok next) :
    piece.Fits backing memory kernelBytes := by
  obtain ⟨⟨⟩, hfile, h⟩ := Fallible.bind_eq_ok.1 h
  obtain ⟨sourceEnd, hsource, h⟩ := Fallible.bind_eq_ok.1 h
  obtain ⟨⟨⟩, himage, h⟩ := Fallible.bind_eq_ok.1 h
  obtain ⟨total, -, h⟩ := Fallible.bind_eq_ok.1 h
  obtain ⟨⟨⟩, -, h⟩ := Fallible.bind_eq_ok.1 h
  obtain ⟨⟨⟩, hmapped, -⟩ := Fallible.bind_eq_ok.1 h
  obtain ⟨hfits, rfl⟩ := GuestMemory.rangeEnd_eq_some.1 (Fallible.orError_eq_ok.1 hsource)
  exact ⟨of_decide_eq_true (Fallible.ensure_eq_ok.1 hfile), hfits,
    of_decide_eq_true (Fallible.ensure_eq_ok.1 himage), contains_of_mapError hmapped⟩

lemma fits_of_foldlM {pieces : List KernelSegment} {copied result : Nat}
    (h : pieces.foldlM (validateSegment backing memory kernelBytes) copied = .ok result) :
    ∀ piece ∈ pieces, piece.Fits backing memory kernelBytes := by
  induction pieces generalizing copied with
  | nil => exact List.forall_mem_nil _
  | cons piece pieces ih =>
    rw [List.foldlM_cons] at h
    obtain ⟨next, hpiece, hrest⟩ := Fallible.bind_eq_ok.1 h
    exact List.forall_mem_cons.2 ⟨fits_of_validateSegment hpiece, ih hrest⟩

lemma valid_of_validatePlan {plan : Plan}
    (h : validatePlan backing memory kernelBytes plan = .ok ()) :
    plan.Valid backing memory kernelBytes := by
  obtain ⟨⟨⟩, -, h⟩ := Fallible.bind_eq_ok.1 h
  obtain ⟨⟨⟩, -, h⟩ := Fallible.bind_eq_ok.1 h
  obtain ⟨total, hsegments, h⟩ := Fallible.bind_eq_ok.1 h
  obtain ⟨⟨⟩, hwrites, h⟩ := Fallible.bind_eq_ok.1 h
  obtain ⟨⟨⟩, hentry, hargument⟩ := Fallible.bind_eq_ok.1 h
  refine ⟨fits_of_foldlM hsegments, fun write hwrite => ?_, ?_, contains_of_mapError hargument⟩
  · obtain ⟨⟨⟩, -, hmapped⟩ := Fallible.bind_eq_ok.1 (Fallible.forM_eq_ok.1 hwrites write hwrite)
    exact contains_of_mapError hmapped
  · obtain ⟨piece, hpiece, hholds⟩ := List.any_eq_true.1 (Fallible.ensure_eq_ok.1 hentry)
    obtain ⟨hstart, hstop⟩ := Bool.and_eq_true_iff.1 hholds
    obtain ⟨stop, hstop, hlt⟩ := (Option.any_eq_true _ _).1 hstop
    obtain ⟨-, rfl⟩ := GuestMemory.rangeEnd_eq_some.1 hstop
    exact ⟨piece, hpiece, of_decide_eq_true hstart, of_decide_eq_true hlt⟩

end Validated

/-! ## Copies in pieces -/

section Pieces

variable {backing : Backing} {memory : GuestMemory} {contents : Contents}

lemma end_lt_of_contains {addr len : Nat} (h : memory.containsRange backing addr len = true) :
    addr + len < 2 ^ 64 := by
  obtain ⟨stop, hstop, -⟩ := (Option.any_eq_true _ _).1 (Bool.and_eq_true_iff.1 h).1
  exact (GuestMemory.rangeEnd_eq_some.1 hstop).1

variable (hlawful : backing.Lawful memory.regions) (hbounded : memory.Bounded)
include hlawful hbounded

lemma contains_part {addr len addr' len' : Nat} (h : memory.containsRange backing addr len = true)
    (hlen : 0 < len') (hstart : addr ≤ addr') (hstop : addr' + len' ≤ addr + len) :
    memory.containsRange backing addr' len' = true := by
  have hwhole := (GuestMemory.containsRange_iff hlawful hbounded (by omega)).1 h
  refine (GuestMemory.containsRange_iff hlawful hbounded hlen).2 fun address hfirst hlast => ?_
  exact hwhole address (le_trans hstart hfirst) (lt_of_lt_of_le hlast hstop)

lemma writeChunks_eq {address index : Nat} {bytes : Bytes}
    (h : memory.containsRange backing address
      (index * maxSingleGuestCopyBytes + bytes.length) = true)
    (contents : Contents) :
    writeChunks backing memory address index
      (Chunks.chunks maxSingleGuestCopyBytes bytes) contents =
      (.ok (), patch contents (segment (address + index * maxSingleGuestCopyBytes) bytes)) := by
  have hsize : 0 < maxSingleGuestCopyBytes := by decide
  -- The induction is on the length of what is left, which every piece makes shorter.
  induction hlength : bytes.length using Nat.strong_induction_on
    generalizing index bytes contents with
  | _ length ih =>
    by_cases hbytes : bytes = []
    · subst hbytes
      rw [Chunks.chunks_nil, Overlay.patch_segment_nil]
      rfl
    · have hpos : 0 < bytes.length := List.length_pos_iff.2 hbytes
      have hend := end_lt_of_contains h
      have htake :
          (bytes.take maxSingleGuestCopyBytes).length = min maxSingleGuestCopyBytes bytes.length :=
        List.length_take
      rw [Chunks.chunks_of_ne_nil hsize hbytes]
      unfold writeChunks
      rw [GuestMemory.rangeEnd_eq_some.2
        ⟨show address + index * maxSingleGuestCopyBytes < 2 ^ 64 by omega, rfl⟩]
      have hfirst : memory.containsRange backing (address + index * maxSingleGuestCopyBytes)
          (bytes.take maxSingleGuestCopyBytes).length = true :=
        contains_part hlawful hbounded h (by omega) (Nat.le_add_right _ _) (by omega)
      dsimp only
      rw [BoundedMemory.write_eq hlawful (by omega) hfirst]
      dsimp only
      by_cases hlong : maxSingleGuestCopyBytes < bytes.length
      · have hdrop : (bytes.drop maxSingleGuestCopyBytes).length =
            bytes.length - maxSingleGuestCopyBytes := List.length_drop
        have hnext : (index + 1) * maxSingleGuestCopyBytes =
            index * maxSingleGuestCopyBytes + maxSingleGuestCopyBytes := Nat.succ_mul _ _
        have hrest : memory.containsRange backing address
            ((index + 1) * maxSingleGuestCopyBytes + (bytes.drop maxSingleGuestCopyBytes).length) =
            true := by
          rw [hnext, hdrop, Nat.add_assoc, Nat.add_sub_cancel' hlong.le]
          exact h
        rw [ih _ (by omega) hrest _ rfl]
        have hjoin := Overlay.patch_segment_append contents
          (address + index * maxSingleGuestCopyBytes)
          (bytes.take maxSingleGuestCopyBytes) (bytes.drop maxSingleGuestCopyBytes)
        rw [htake, Nat.min_eq_left hlong.le, List.take_append_drop] at hjoin
        rw [hnext, ← Nat.add_assoc, hjoin]
      · rw [List.drop_eq_nil_of_le (Nat.le_of_not_lt hlong),
          List.take_of_length_le (Nat.le_of_not_lt hlong), Chunks.chunks_nil]
        rfl

lemma writeBootBytes_eq {address : Nat} {bytes : Bytes}
    (h : memory.containsRange backing address bytes.length = true) (contents : Contents) :
    writeBootBytes backing memory contents address bytes =
    (.ok (), patch contents (segment address bytes)) := by
  have hpieces : memory.containsRange backing address
      (0 * maxSingleGuestCopyBytes + bytes.length) = true := by
    rw [Nat.zero_mul, Nat.zero_add]
    exact h
  have heq := writeChunks_eq hlawful hbounded hpieces contents
  rw [Nat.zero_mul, Nat.add_zero] at heq
  exact heq

lemma applyWrites_eq {writes : List GuestWrite}
    (h : ∀ write ∈ writes, memory.containsRange backing write.address write.bytes.length = true)
    (contents : Contents) :
    applyWrites backing memory writes contents =
      (.ok (), overlay contents
        (writes.map fun write => Overlay.segment write.address write.bytes)) := by
  induction writes generalizing contents with
  | nil => rfl
  | cons write writes ih =>
    obtain ⟨hwrite, hrest⟩ := List.forall_mem_cons.1 h
    unfold applyWrites
    rw [writeBootBytes_eq hlawful hbounded hwrite]
    exact ih hrest _

end Pieces

/-! ## Copies from the image -/

/-- Reads that return the bytes of an image, in every state that a read can leave. -/
structure Kernel.Faithful {κ : Type} (kernel : Kernel κ) (image : Bytes)
    (Holds : κ → Prop) : Prop where
  size : ∀ {source}, Holds source → kernel.imageBytes source = image.length
  keeps : ∀ {source offset len result source'}, Holds source →
    kernel.readAt source offset len = (result, source') → Holds source'
  reads : ∀ {source offset len bytes source'}, Holds source → offset + len ≤ image.length →
    kernel.readAt source offset len = (.ok bytes, source') → bytes = (image.drop offset).take len

/-- The packed image that a machine boots from. -/
def packedKernel (lz4 : Lz4) (describe : Fault → String) : Kernel PackedImage where
  imageBytes := PackedImage.imageBytes
  readAt := fun img offset len =>
    match PackedImage.readAt lz4 img (UInt64.ofNat offset) (List.replicate len 0) with
    | (.ok (), img, buf) => (.ok buf, img)
    | (.error fault, img, _) => (.error (describe fault), img)

theorem packedKernel_faithful (lz4 : Lz4) (describe : Fault → String) {image : Bytes}
    (hlength : image.length < 2 ^ 63) :
    (packedKernel lz4 describe).Faithful image (PackedImage.Holds lz4 · image) := by
  have hserves : ∀ {img : PackedImage} (offset len), img.Holds lz4 image →
      ∃ result img' buf, PackedImage.readAt lz4 img (UInt64.ofNat offset) (List.replicate len 0) =
      (result, img', buf) ∧
        img'.Holds lz4 image ∧
        PackedImage.Serves image ⟨img, ⟨.ofNat offset, .replicate len 0⟩, (result, buf), img'⟩ :=
    fun _ _ hholds => ⟨_, _, _, rfl, PackedImage.step_serves hholds hlength rfl⟩
  refine ⟨fun hholds => hholds.size, ?_, ?_⟩
  · intro img offset len result img' hholds hread
    obtain ⟨fate, after, buf, heq, hafter, -⟩ := hserves offset len hholds
    simp only [packedKernel, heq] at hread
    cases fate with
    | error fault | ok =>
      cases hread
      exact hafter
  · intro img offset len bytes img' hholds hin hread
    obtain ⟨fate, after, buf, heq, -, hbuf⟩ := hserves offset len hholds
    have hoffset : (UInt64.ofNat offset).toNat = offset := UInt64.toNat_ofNat_of_lt' (by
      change offset < 2 ^ 64
      omega)
    simp only [PackedImage.Serves, hoffset, List.length_replicate, if_pos hin,
      Prod.mk.injEq] at hbuf
    obtain ⟨rfl, rfl⟩ := hbuf
    simp only [packedKernel, heq] at hread
    cases hread
    rfl

section Segments

variable {backing : Backing} {memory : GuestMemory} {κ : Type} {kernel : Kernel κ} {image : Bytes}
    {Holds : κ → Prop}

def KernelSegment.bytes (image : Bytes) (piece : KernelSegment) (copied : Nat) : Bytes :=
  (image.drop (piece.sourceOffset + copied)).take (piece.fileLength - copied)

lemma take_append_bytes (image : Bytes) (piece : KernelSegment) {copied len : Nat}
    (hlen : copied + len ≤ piece.fileLength) :
    (image.drop (piece.sourceOffset + copied)).take len ++ piece.bytes image (copied + len) =
      piece.bytes image copied := by
  unfold KernelSegment.bytes
  have hsplit : piece.fileLength - copied = len + (piece.fileLength - (copied + len)) := by omega
  rw [hsplit, List.take_add, List.drop_drop, Nat.add_assoc]

lemma copySegment_eq (hlawful : backing.Lawful memory.regions) (hbounded : memory.Bounded)
    (hkernel : kernel.Faithful image Holds) {piece : KernelSegment}
    (hfits : piece.Fits backing memory image.length) {copied : Nat}
    (hcopied : copied ≤ piece.fileLength) {source source' : κ} {contents contents' : Contents}
    (hholds : Holds source)
    (h : copySegment backing memory kernel piece copied source contents =
      (.ok (), source', contents')) :
    Holds source' ∧
      contents' =
        patch contents (segment (piece.guestAddress + copied) (piece.bytes image copied)) := by
  induction hleft : piece.fileLength - copied using Nat.strong_induction_on
    generalizing copied source contents with
  | _ left ih =>
    unfold copySegment at h
    split at h
    next hmore =>
      have hbudget := end_lt_of_contains hfits.mapped
      have hfile := hfits.file
      have hsource := hfits.source
      have himage := hfits.image
      generalize hlen : min (piece.fileLength - copied) maxSingleGuestCopyBytes = len at h
      have hpos : 0 < len := hlen ▸ Nat.lt_min.2 ⟨Nat.sub_pos_of_lt hmore, by decide⟩
      rw [Nat.mod_eq_of_lt (show piece.sourceOffset + copied < 2 ^ 64 by omega),
        Nat.mod_eq_of_lt (show piece.guestAddress + copied < 2 ^ 64 by omega)] at h
      dsimp only at h
      split at h
      · cases h
      next bytes after hread =>
        have hafter := hkernel.keeps hholds hread
        have hbytes := hkernel.reads hholds (by omega) hread
        have hlength : bytes.length = len := by
          rw [hbytes, List.length_take, List.length_drop]
          omega
        have hcontains : memory.containsRange backing
            (piece.guestAddress + copied) bytes.length = true :=
          contains_part hlawful hbounded hfits.mapped (by omega) (Nat.le_add_right _ _) (by omega)
        rw [writeBootBytes_eq hlawful hbounded hcontains] at h
        obtain ⟨hdone, heq⟩ := ih _ (by omega) (by omega) hafter h rfl
        refine ⟨hdone, ?_⟩
        -- The piece and what the rest of the loop copies are one segment.
        have hjoin := Overlay.patch_segment_append contents (piece.guestAddress + copied) bytes
          (piece.bytes image (copied + len))
        rw [hlength] at hjoin
        rw [heq, ← Nat.add_assoc, hjoin, hbytes, take_append_bytes image piece (by omega)]
    next hdone =>
      cases h
      have hnothing : piece.bytes image copied = [] := by
        unfold KernelSegment.bytes
        rw [Nat.sub_eq_zero_of_le (Nat.le_of_not_lt hdone), List.take_zero]
      rw [hnothing, Overlay.patch_segment_nil]
      exact ⟨hholds, rfl⟩

def KernelSegment.patch (image : Bytes) (piece : KernelSegment) : Nat → Option UInt8 :=
  segment piece.guestAddress ((image.drop piece.sourceOffset).take piece.fileLength)

lemma copySegments_eq (hlawful : backing.Lawful memory.regions) (hbounded : memory.Bounded)
    (hkernel : kernel.Faithful image Holds)
    {pieces : List KernelSegment} (hfits : ∀ piece ∈ pieces, piece.Fits backing memory image.length)
    {source source' : κ} {contents contents' : Contents} (hholds : Holds source)
    (h : copySegments backing memory kernel pieces source contents = (.ok (), source', contents')) :
    contents' = overlay contents (pieces.map (KernelSegment.patch image)) := by
  induction pieces generalizing source contents with
  | nil =>
    cases h
    rfl
  | cons piece pieces ih =>
    obtain ⟨hpiece, hrest⟩ := List.forall_mem_cons.1 hfits
    unfold copySegments at h
    split at h
    · cases h
    next hcopy =>
      obtain ⟨hafter, rfl⟩ :=
        copySegment_eq hlawful hbounded hkernel hpiece (Nat.zero_le _) hholds hcopy
      exact ih hrest hafter h

/-- A plan that validation refuses is not applied, and RAM stays as it was.  A plan that is applied
leaves RAM with every segment's bytes and then every write's at their addresses; its entry lies in a
segment, and its argument in RAM. -/
theorem boot_plan_applied (hlawful : backing.Lawful memory.regions)
    {allocates : List MemoryRange → Bool}
    {regions : List MemoryRange} (hmemory : GuestMemory.fromRanges allocates regions = some memory)
    (hkernel : kernel.Faithful image Holds) {source : κ} (hholds : Holds source) (plan : Plan)
    (contents : Contents) : (∀ error, validatePlan backing memory image.length plan = .error error →
      applyPlan backing memory kernel plan source contents = (.error error, source, contents)) ∧
    ∀ entry source' contents',
      applyPlan backing memory kernel plan source contents = (.ok entry, source', contents') →
      contents' = overlay contents (plan.kernelSegments.map (fun piece =>
        segment piece.guestAddress ((image.drop piece.sourceOffset).take piece.fileLength)) ++
          plan.writes.map fun write => Overlay.segment write.address write.bytes) ∧
      (∃ piece ∈ plan.kernelSegments,
        piece.guestAddress ≤ entry.entry ∧ entry.entry < piece.guestAddress + piece.memoryLength) ∧
      Mapped memory.regions entry.bootArgument := by
  have hbounded := GuestMemory.bounded_fromRanges hmemory
  refine ⟨fun error hrefused => ?_, fun entry source' contents' happly => ?_⟩
  · unfold applyPlan
    rw [hkernel.size hholds, hrefused]
  · unfold applyPlan at happly
    rw [hkernel.size hholds] at happly
    split at happly
    · cases happly
    next hvalidate =>
      have hvalid := valid_of_validatePlan hvalidate
      split at happly
      · cases happly
      next hcopy =>
        rw [applyWrites_eq hlawful hbounded hvalid.writes] at happly
        cases happly
        refine ⟨?_, hvalid.entry, ?_⟩
        · rw [overlay_append, copySegments_eq hlawful hbounded hkernel hvalid.segments hholds hcopy]
          rfl
        · exact (GuestMemory.containsRange_iff hlawful hbounded Nat.one_pos).1
            hvalid.argument _ (le_refl _) (Nat.lt_succ_self _)

end Segments

def plainKernel (image : Bytes) : Kernel Unit where
  imageBytes := fun _ => image.length
  readAt := fun _ offset len => (.ok ((image.drop offset).take len), ())

lemma copySegment_plain {backing : Backing} {memory : GuestMemory}
    (hlawful : backing.Lawful memory.regions) (hbounded : memory.Bounded) {image : Bytes}
    {piece : KernelSegment} (hfits : piece.Fits backing memory image.length) (copied : Nat)
    (contents : Contents) : ∃ contents',
      copySegment backing memory (plainKernel image) piece copied () contents =
        (.ok (), (), contents') := by
  induction hleft : piece.fileLength - copied using Nat.strong_induction_on
    generalizing copied contents with
  | _ left ih =>
    have hbudget := end_lt_of_contains hfits.mapped
    have hfile := hfits.file
    have himage := hfits.image
    have hsource := hfits.source
    unfold copySegment
    split
    next hmore =>
      generalize hlen : min (piece.fileLength - copied) maxSingleGuestCopyBytes = len
      have hpos : 0 < len := hlen ▸ Nat.lt_min.2 ⟨Nat.sub_pos_of_lt hmore, by decide⟩
      rw [Nat.mod_eq_of_lt (show piece.sourceOffset + copied < 2 ^ 64 by omega),
        Nat.mod_eq_of_lt (show piece.guestAddress + copied < 2 ^ 64 by omega)]
      dsimp only [plainKernel]
      have hlength : ((image.drop (piece.sourceOffset + copied)).take len).length = len := by
        rw [List.length_take, List.length_drop]
        omega
      rw [writeBootBytes_eq hlawful hbounded]
      · exact ih _ (by omega) _ _ rfl
      · -- The piece lies in the segment's range, which validation has found mapped.
        rw [hlength]
        exact contains_part hlawful hbounded hfits.mapped hpos (Nat.le_add_right _ _) (by omega)
    · exact ⟨contents, rfl⟩

def bank : GuestMemory := ⟨[⟨0, 65536⟩], 65536⟩

def sampleImage : Bytes := List.replicate 20001 7

def samplePlan : Plan := ⟨8194, 0, [⟨1, 8192, 20000, 20000⟩], [⟨8193, [9]⟩]⟩

theorem boot_plan_applied_sample : ∃ contents,
    applyPlan contained bank (plainKernel sampleImage) samplePlan () (fun _ => 0) =
      (.ok ⟨8194, 0⟩, (), contents) ∧
    contents = overlay (fun _ => 0)
      [segment 8192 ((sampleImage.drop 1).take 20000), segment 8193 [9]] := by
  have hmemory : GuestMemory.fromRanges (fun _ => true) [⟨0, 65536⟩] = some bank := by
    decide
  have hlawful : contained.Lawful bank.regions := contained_lawful (by decide)
  have hbounded := GuestMemory.bounded_fromRanges hmemory
  have hfaithful : (plainKernel sampleImage).Faithful sampleImage fun _ => True :=
    ⟨fun _ => rfl, fun _ _ => trivial, fun _ _ hread => by cases hread; rfl⟩
  have hvalid : validatePlan contained bank sampleImage.length samplePlan = .ok () := by
    decide +kernel
  obtain ⟨contents, heq⟩ : ∃ contents,
      applyPlan contained bank (plainKernel sampleImage) samplePlan () (fun _ => 0) =
        (.ok ⟨8194, 0⟩, (), contents) := by
    have hplan := valid_of_validatePlan hvalid
    obtain ⟨copied, hcopy⟩ := copySegment_plain hlawful hbounded
      (hplan.segments _ List.mem_cons_self) 0 fun _ => 0
    have hwrites := applyWrites_eq hlawful hbounded hplan.writes copied
    unfold applyPlan
    simp only [plainKernel] at hcopy ⊢
    rw [hvalid]
    simp only [samplePlan, copySegments, hcopy] at hwrites ⊢
    rw [hwrites]
    exact ⟨_, rfl⟩
  exact ⟨contents, heq,
    ((boot_plan_applied hlawful hmemory hfaithful trivial samplePlan _).2 _ _ _ heq).1⟩

end Terrarium.Vmm
