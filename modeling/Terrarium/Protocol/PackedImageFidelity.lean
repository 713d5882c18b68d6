import Terrarium.Protocol.PackedImage

/-!
# PackedImageFidelity — a packed image reads as the image

* `Tiles` — parsed blocks lie back to back and cover the payload;
* `Holds` — every chunk's block decodes to that chunk of the image, and so does the cache;
* `readAt` keeps `Holds` and returns the image's bytes, so no order of reads can tell the packed
  image from the image itself;
* a freshly packed image parses, and `Holds`.
-/

namespace Terrarium.Protocol

open Chunks Fallible Wire

/-! ## Ranges -/

variable {start : Nat}

lemma getRange_of_eq (before mid after : List UInt8) {bytes : List UInt8} {end_ : Nat}
    (hbytes : bytes = before ++ mid ++ after) (hstart : before.length = start)
    (hend : start + mid.length = end_) : getRange bytes start end_ = some mid := by
  subst hbytes hstart hend
  have hle : before.length ≤ before.length + mid.length ∧
      before.length + mid.length ≤ (before ++ mid ++ after).length := by
    simp
  rw [getRange, if_pos hle, ← List.length_append, List.take_left, List.drop_left]

lemma getRange_isSome (bytes : List UInt8) {end_ : Nat} (hstart : start ≤ end_)
    (hend : end_ ≤ bytes.length) : ∃ part, getRange bytes start end_ = some part :=
  ⟨_, if_pos ⟨hstart, hend⟩⟩

lemma length_getRange {bytes part : List UInt8} {end_ : Nat}
    (h : getRange bytes start end_ = some part) : part.length = end_ - start ∧
    end_ ≤ bytes.length := by
  unfold getRange at h
  split at h
  next hle =>
    cases h
    rw [List.length_drop, List.length_take_of_le hle.2]
    exact ⟨rfl, hle.2⟩
  · cases h

lemma lt_divCeil {a b index : Nat} (hb : 0 < b) : index < divCeil a b ↔ index * b < a := by
  have hle : index ≤ a / b ↔ index * b ≤ a := Nat.le_div_iff_mul_le hb
  unfold divCeil
  split
  next hmod =>
    have hne : index * b ≠ a := by
      rintro rfl
      simp at hmod
    omega
  · have hdvd : b ∣ a := Nat.dvd_of_mod_eq_zero (by omega)
    exact Nat.lt_div_iff_mul_lt_of_dvd (by omega) hdvd

lemma length_chunks_eq_divCeil {size : Nat} (hsize : 0 < size) (image : List UInt8) :
    (chunks size image).length = divCeil image.length size := by
  have hsame : ∀ index, index < (chunks size image).length ↔ index < divCeil image.length size := by
    intro index
    rw [lt_length_chunks hsize, lt_divCeil hsize]
  have hleft := hsame (chunks size image).length
  have hright := hsame (divCeil image.length size)
  omega

lemma take_drop_piece {image : List UInt8} {size within count : Nat} (h : within + count ≤ size) :
    (((image.drop start).take size).drop within).take count =
    (image.drop (start + within)).take count := by
  rw [List.drop_take, List.take_take, List.drop_drop, Nat.min_eq_left (by omega)]

lemma GuestImage.chunkBytes_pos (kind : GuestImage) : 0 < kind.chunkBytes := by
  cases kind <;> decide

namespace PackedImage

/-! ## Parsing any byte string -/

/-- Ranges that lie back to back, from `start` to `end_`, none of them empty. -/
inductive Tiles : Nat → List (Nat × Nat) → Nat → Prop
  | nil {n : Nat} : Tiles n [] n
  | cons {start mid end_ : Nat} {rest : List (Nat × Nat)} (hlt : start < mid)
      (hrest : Tiles mid rest end_) : Tiles start ((start, mid) :: rest) end_

variable {maxCompressed start : Nat}

lemma readTable_tiles {entries : List (List UInt8)} {total : Nat} {blocks : List (Nat × Nat)}
    (h : readTable maxCompressed entries start = .ok (blocks, total)) :
    Tiles start blocks total := by
  induction entries generalizing start blocks with
  | nil =>
    cases h
    exact Tiles.nil
  | cons entry entries ih =>
    simp only [readTable, bind_eq_ok, ensure_eq_ok, decide_eq_true_eq] at h
    obtain ⟨-, hsize, -, -, ⟨rest, total'⟩, hrest, hpure⟩ := h
    cases hpure
    exact Tiles.cons (by omega) (ih hrest)

lemma readTable_ne_panic {entries : List (List UInt8)} : readTable maxCompressed entries start ≠
    .error .panic := by
  induction entries generalizing start with
  | nil =>
    intro h
    cases h
  | cons entry entries ih =>
    intro h
    simp only [readTable, bind_eq_error, ensure_eq_error] at h
    rcases h with ⟨-, hinvalid⟩ | ⟨-, -, h⟩
    · cases hinvalid
    rcases h with ⟨-, hinvalid⟩ | ⟨-, -, h⟩
    · cases hinvalid
    rcases h with hrest | ⟨_, -, hpure⟩
    · exact ih hrest
    · cases hpure

lemma indexRange_header {bytes header : List UInt8} {end_ : Nat}
    (h : getRange bytes 0 imageHeaderBytes = some header) (hstart : start ≤ end_)
    (hend : end_ ≤ imageHeaderBytes) : indexRange header start end_ ≠ .error .panic := by
  have hlen := (length_getRange h).1
  obtain ⟨part, hpart⟩ := getRange_isSome header hstart (by omega)
  rw [indexRange, hpart]
  intro hpanic
  cases hpanic

lemma liftIo_ne_panic {α : Type} {x : Except IoError α} : liftIo x ≠ .error .panic := by
  cases x with
  | ok a | error e =>
    intro h
    cases h

lemma parse_ne_panic (lz4 : Lz4) (bytes : List UInt8) (kind : GuestImage) :
    parse lz4 bytes kind ≠ .error .panic := by
  intro h
  simp only [parse, bind_eq_error, ensure_eq_error, orError_eq_error, orError_eq_ok] at h
  rcases h with ⟨-, hinvalid⟩ | ⟨header, hheader, h⟩
  · cases hinvalid
  rcases h with hpanic | ⟨_, -, h⟩
  · exact indexRange_header hheader (by decide) (by decide) hpanic
  rcases h with ⟨-, hinvalid⟩ | ⟨_, -, h⟩
  · cases hinvalid
  rcases h with hpanic | ⟨_, -, h⟩
  · exact indexRange_header hheader (by decide) (by decide) hpanic
  rcases h with hpanic | ⟨_, -, h⟩
  · exact liftIo_ne_panic hpanic
  rcases h with hpanic | ⟨_, -, h⟩
  · exact indexRange_header hheader (by decide) (by decide) hpanic
  rcases h with ⟨-, hinvalid⟩ | ⟨_, -, h⟩
  · cases hinvalid
  rcases h with ⟨-, hinvalid⟩ | ⟨tableEnd, -, h⟩
  · cases hinvalid
  rcases h with ⟨-, hinvalid⟩ | ⟨table, htable, h⟩
  · cases hinvalid
  rcases h with hpanic | ⟨r, -, h⟩
  · exact readTable_ne_panic hpanic
  rcases h with hpanic | ⟨_, -, h⟩
  · -- The table was cut out of the bytes, so its end lies in them.
    obtain ⟨part, hpart⟩ :=
      getRange_isSome bytes (length_getRange htable).2 (Nat.le_refl bytes.length)
    rw [indexRange, hpart] at hpanic
    cases hpanic
  rcases h with ⟨-, hinvalid⟩ | ⟨_, -, hpure⟩
  · cases hinvalid
  · cases hpure

lemma parse_tiles {lz4 : Lz4} {bytes : List UInt8} {kind : GuestImage} {img : PackedImage}
    (h : parse lz4 bytes kind = .ok img) : Tiles 0 img.blocks img.payload.length := by
  simp only [parse, bind_eq_ok, ensure_eq_ok, orError_eq_ok, decide_eq_true_eq] at h
  obtain ⟨header, -, _, -, _, -, _, -, _, -, _, -, _, -, tableEnd, -, table, -,
    ⟨blocks, payloadBytes⟩, htable, payload, -, _, hlen, hpure⟩ := h
  cases hpure
  change Tiles 0 blocks payload.length
  rw [hlen]
  exact readTable_tiles htable

/-! ## Reading -/

def chunkOf (size : Nat) (image : List UInt8) (index : Nat) : List UInt8 :=
  (image.drop (index * size)).take size

lemma length_chunkOf (size : Nat) (image : List UInt8) (index : Nat) :
    (chunkOf size image index).length = min (image.length - index * size) size := by
  rw [chunkOf, List.length_take, List.length_drop, Nat.min_comm]

/-- The packed image stands for `image`: each block decodes to its chunk, and the cache holds the
chunk it names. -/
structure Holds (lz4 : Lz4) (img : PackedImage) (image : List UInt8) : Prop where
  size : img.imageBytes = image.length
  chunk_pos : 0 < img.chunkBytes
  located : ∀ index, index * img.chunkBytes < image.length →
    ∃ range block, img.blocks[index]? = some range ∧
      getRange img.payload range.1 range.2 = some block ∧
        ∀ out, out.length = (chunkOf img.chunkBytes image index).length →
          lz4.decompressInto block out =
            (.ok (chunkOf img.chunkBytes image index).length, chunkOf img.chunkBytes image index)
  cached : ∀ index, img.cachedIndex = some index →
    img.cachedBytes.take (chunkOf img.chunkBytes image index).length =
      chunkOf img.chunkBytes image index

section Reading

variable {lz4 : Lz4} {img : PackedImage} {image : List UInt8}

def DecodesTo (lz4 : Lz4) (block chunk : List UInt8) : Prop :=
  ∀ out, out.length = chunk.length → lz4.decompressInto block out = (.ok chunk.length, chunk)

lemma locate_spec (h : img.Holds lz4 image) (index : Nat)
    (hindex : index * img.chunkBytes < image.length) :
    ∃ block, img.locate index = .ok (block, (chunkOf img.chunkBytes image index).length) ∧
      DecodesTo lz4 block (chunkOf img.chunkBytes image index) := by
  obtain ⟨range, block, hrange, hblock, hdecode⟩ := h.located index hindex
  have hsize := h.size
  refine ⟨block, ?_, hdecode⟩
  have hensure :
      ensure (decide (index * img.chunkBytes ≤ img.imageBytes)) Fault.panic = .ok () := by
    rw [ensure_eq_ok, decide_eq_true_eq]
    omega
  have hlen : img.chunkLen index = .ok (chunkOf img.chunkBytes image index).length := by
    rw [chunkLen, hensure, length_chunkOf, hsize]
    rfl
  simp only [locate, bind_eq_ok, indexRange, orError_eq_ok]
  exact ⟨_, hlen, range, hrange, block, hblock, rfl⟩

variable {block : List UInt8}

lemma decodeBlock_spec {chunk out : List UInt8} (h : DecodesTo lz4 block chunk)
    (hout : out.length = chunk.length) : decodeBlock lz4 block out = (.ok (), chunk) := by
  simp only [decodeBlock, h out hout, decide_true]
  rfl

lemma readWhole_spec {chunk buf : List UInt8} {copied : Nat}
    (hblock : DecodesTo lz4 block chunk) (hfit : copied + chunk.length ≤ buf.length) :
    readWhole lz4 img block chunk.length copied buf =
    (.ok chunk.length, img, overwrite buf copied chunk) := by
  have hout : ((buf.drop copied).take chunk.length).length = chunk.length := by
    rw [List.length_take, List.length_drop]
    omega
  simp only [readWhole, decodeBlock_spec hblock hout]
  rfl

lemma length_resize (bytes : List UInt8) (size : Nat) : (resize bytes size).length = size := by
  simp only [resize, List.length_append, List.length_take, List.length_replicate]
  omega

lemma fillCache_spec (h : img.Holds lz4 image) {index : Nat} {chunk : List UInt8}
    (hchunk : chunkOf img.chunkBytes image index = chunk) (hblock : DecodesTo lz4 block chunk) :
    ∃ img', fillCache lz4 img block index chunk.length = (.ok (), img') ∧ img'.Holds lz4 image ∧
      img'.cachedBytes.take chunk.length = chunk := by
  by_cases hhit : img.cachedIndex = some index
  · exact ⟨img, by rw [fillCache, if_pos hhit], h, hchunk ▸ h.cached index hhit⟩
  · -- A miss decodes the chunk over the old one and only then names it.
    have hle : chunk.length ≤ img.chunkBytes := by
      rw [← hchunk, length_chunkOf]
      exact Nat.min_le_right _ _
    have hout : ((resize img.cachedBytes img.chunkBytes).take chunk.length).length = chunk.length :=
      List.length_take_of_le (by rw [length_resize]; exact hle)
    have hfresh :
        (overwrite (resize img.cachedBytes img.chunkBytes) 0 chunk).take chunk.length = chunk := by
      rw [overwrite, List.take_zero, List.nil_append, List.take_left]
    refine ⟨{ img with
      cachedIndex := some index
      cachedBytes := overwrite (resize img.cachedBytes img.chunkBytes) 0 chunk }, ?_, ?_, hfresh⟩
    · simp only [fillCache, if_neg hhit, decodeBlock_spec hblock hout]
    · refine { h with cached := ?_ }
      rintro index' ⟨⟩
      subst hchunk
      exact hfresh

lemma readPart_spec (h : img.Holds lz4 image) {index within : Nat} {chunk : List UInt8}
    (wanted copied : Nat) (buf : List UInt8) (hchunk : chunkOf img.chunkBytes image index = chunk)
    (hblock : DecodesTo lz4 block chunk) (hwithin : within < chunk.length) :
    ∃ img', readPart lz4 img block index chunk.length within wanted copied buf =
        (.ok (min (chunk.length - within) wanted), img',
          overwrite buf copied ((chunk.drop within).take (min (chunk.length - within) wanted))) ∧
      img'.Holds lz4 image := by
  obtain ⟨img', hfill, hholds, hcached⟩ := fillCache_spec h hchunk hblock
  refine ⟨img', ?_, hholds⟩
  simp only [readPart, hfill, if_neg (Nat.not_lt_of_lt hwithin)]
  have htake : within + min (chunk.length - within) wanted ≤ chunk.length := by
    omega
  generalize min (chunk.length - within) wanted = count at htake ⊢
  have hcover : chunk.length ≤ img'.cachedBytes.length := by
    have hlen := congrArg List.length hcached
    rw [List.length_take] at hlen
    omega
  -- The part that is copied out lies in the valid front of the cache.
  have hpart : indexRange img'.cachedBytes within (within + count) = .ok
      ((chunk.drop within).take count) := by
    have hrange : within ≤ within + count ∧ within + count ≤ img'.cachedBytes.length := by
      omega
    rw [indexRange, getRange, if_pos hrange, orError_eq_ok, Option.some.injEq]
    calc (img'.cachedBytes.take (within + count)).drop within
        = ((img'.cachedBytes.take chunk.length).take (within + count)).drop within := by
          rw [List.take_take, Nat.min_eq_left htake]
      _ = (chunk.take (within + count)).drop within := by
          rw [hcached]
      _ = (chunk.drop within).take count := by
          rw [List.drop_take, Nat.add_sub_cancel_left]
  rw [hpart]

lemma readChunk_spec (h : img.Holds lz4 image) {position copied : Nat} {buf : List UInt8}
    (hposition : position < image.length) (hcopied : copied < buf.length) :
    ∃ take img', readChunk lz4 img position copied buf =
        (.ok take, img', overwrite buf copied ((image.drop position).take take)) ∧
      0 < take ∧ take ≤ buf.length - copied ∧ position + take ≤ image.length ∧
        img'.Holds lz4 image := by
  have hpos := h.chunk_pos
  have hdiv : position / img.chunkBytes * img.chunkBytes + position % img.chunkBytes = position :=
    Nat.div_add_mod' position img.chunkBytes
  have hmod := Nat.mod_lt position hpos
  obtain ⟨block, hlocate, hblock⟩ := locate_spec h (position / img.chunkBytes) (by omega)
  have hlen := length_chunkOf img.chunkBytes image (position / img.chunkBytes)
  generalize hchunk : chunkOf img.chunkBytes image (position / img.chunkBytes) =
    chunk at hlocate hblock hlen
  have hwithin : position % img.chunkBytes < chunk.length := by
    omega
  -- A part of the chunk is the same part of the image, seen from its start.
  have hpiece : ∀ count, position % img.chunkBytes + count ≤ chunk.length →
      (chunk.drop (position % img.chunkBytes)).take count = (image.drop position).take count := by
    intro count hcount
    rw [← hchunk, chunkOf, take_drop_piece (by omega), hdiv]
  simp only [readChunk, hlocate]
  by_cases hwhole : position % img.chunkBytes = 0 ∧ buf.length - copied ≥ chunk.length
  · rw [if_pos hwhole, readWhole_spec hblock (by omega)]
    have hall := hpiece chunk.length (by omega)
    rw [hwhole.1, List.drop_zero, List.take_length] at hall
    exact ⟨_, img, by rw [← hall], by omega, hwhole.2, by omega, h⟩
  · rw [if_neg hwhole]
    obtain ⟨img', hread, hholds⟩ :=
      readPart_spec h (buf.length - copied) copied buf hchunk hblock hwithin
    rw [hread, hpiece _ (by omega)]
    exact ⟨_, img', rfl, by omega, Nat.min_le_right _ _, by omega, hholds⟩

lemma readLoop_spec (fuel : Nat) {img : PackedImage} (h : img.Holds lz4 image)
    {position copied : Nat}
    {buf : List UInt8} (hcopied : copied ≤ buf.length) (hfuel : buf.length - copied ≤ fuel)
    (hend : position + (buf.length - copied) ≤ image.length) :
    ∃ img', readLoop lz4 fuel img position copied buf =
        (.ok (), img', buf.take copied ++ (image.drop position).take (buf.length - copied)) ∧
      img'.Holds lz4 image := by
  induction fuel generalizing img position copied buf with
  | zero =>
    have hdone : copied = buf.length := by omega
    refine ⟨img, ?_, h⟩
    rw [readLoop, if_neg (by omega), hdone]
    simp
  | succ fuel ih =>
    by_cases hmore : copied < buf.length
    · obtain ⟨take, img', hread, htake, hle, hposition, hholds⟩ :=
        readChunk_spec h (show position < image.length by omega) hmore
      have hpart : ((image.drop position).take take).length = take := by
        rw [List.length_take, List.length_drop]
        omega
      have hlen : (overwrite buf copied ((image.drop position).take take)).length = buf.length := by
        simp only [overwrite, List.length_append, List.length_drop, List.length_take] at hpart ⊢
        omega
      obtain ⟨img'', hloop, hholds''⟩ := @ih img' hholds (position + take) (copied + take)
        (overwrite buf copied ((image.drop position).take take)) (by omega) (by omega) (by omega)
      refine ⟨img'', ?_, hholds''⟩
      rw [readLoop, if_pos hmore, hread]
      simp only [hloop, hlen]
      -- The turn's bytes and the rest of the loop's are neighbours in the image.
      have hfront : (overwrite buf copied ((image.drop position).take take)).take (copied + take) =
          buf.take copied ++ (image.drop position).take take := by
        exact List.take_left' (by
          rw [List.length_append, hpart, List.length_take_of_le hcopied])
      have hsplit : (image.drop position).take (buf.length - copied) =
          (image.drop position).take take ++
            (image.drop (position + take)).take (buf.length - (copied + take)) := by
        have hcount : buf.length - copied = take + (buf.length - (copied + take)) := by omega
        rw [hcount, List.take_add, List.drop_drop]
      rw [hfront, hsplit, List.append_assoc]
    · refine ⟨img, ?_, h⟩
      have hdone : copied = buf.length := by omega
      rw [readLoop, if_neg hmore, hdone]
      simp

end Reading

/-! ## Packing -/

def rangesOf : Nat → List (List UInt8) → List (Nat × Nat)
  | _, [] => []
  | start, block :: blocks =>
      (start, start + block.length) :: rangesOf (start + block.length) blocks

lemma getRange_rangesOf {blocks : List (List UInt8)} {index : Nat} {block : List UInt8}
    (before : List UInt8) (h : blocks[index]? = some block) :
    ∃ range, (rangesOf before.length blocks)[index]? = some range ∧
      getRange (before ++ blocks.flatten) range.1 range.2 = some block := by
  induction blocks generalizing before index with
  | nil => cases h
  | cons first blocks ih =>
    cases index with
    | zero =>
      cases h
      exact ⟨_, rfl, getRange_of_eq before block blocks.flatten (by simp) rfl rfl⟩
    | succ index =>
      obtain ⟨range, hrange, hblock⟩ := ih (before ++ first) h
      refine ⟨range, ?_, ?_⟩
      · rwa [List.length_append] at hrange
      · rwa [List.append_assoc] at hblock

lemma readTable_blocks (hmax : maxCompressed < 2 ^ 32) {blocks : List (List UInt8)} (start : Nat)
    (hblocks : ∀ block ∈ blocks, 1 ≤ block.length ∧ block.length ≤ maxCompressed)
    (htotal : start + blocks.flatten.length < 2 ^ 64) :
    readTable maxCompressed (blocks.map fun block => leBytes 4 block.length) start =
      .ok (rangesOf start blocks, start + blocks.flatten.length) := by
  induction blocks generalizing start with
  | nil => rfl
  | cons block blocks ih =>
    obtain ⟨hpos, hle⟩ := hblocks block List.mem_cons_self
    have hsize : leNat (leBytes 4 block.length) = block.length :=
      leNat_leBytes (by rw [show 256 ^ 4 = 2 ^ 32 by norm_num]; omega)
    rw [List.flatten_cons, List.length_append, ← Nat.add_assoc] at htotal ⊢
    have hrest :=
      ih (start + block.length) (fun b hb => hblocks b (List.mem_cons_of_mem block hb)) htotal
    simp only [List.map_cons, readTable, bind_eq_ok, ensure_eq_ok, decide_eq_true_eq, hsize]
    exact ⟨(), ⟨by omega, hle⟩, (), by omega, _, hrest, rfl⟩

section Packing

variable {lz4 : Lz4} {compressBlock : List UInt8 → Except IoError (List UInt8)} {kind : GuestImage}

lemma packChunks_spec (h : lz4.Faithful compressBlock kind) {pieces : List (List UInt8)}
    (hpieces : ∀ piece ∈ pieces, piece ≠ [] ∧ piece.length ≤ kind.chunkBytes) :
    ∃ blocks, List.Forall₂ (fun piece block => DecodesTo lz4 block piece ∧ 1 ≤ block.length ∧
        block.length ≤ lz4.maximumOutputSize kind.chunkBytes) pieces blocks ∧
      ∀ table payload, packChunks compressBlock (lz4.maximumOutputSize kind.chunkBytes) pieces table
        payload = .ok (table ++ (blocks.map fun block => leBytes 4 block.length).flatten,
          payload ++ blocks.flatten) := by
  induction pieces with
  | nil => exact ⟨[], List.Forall₂.nil, by simp [packChunks]⟩
  | cons piece pieces ih =>
    obtain ⟨hne, hle⟩ := hpieces piece List.mem_cons_self
    obtain ⟨block, hblock, hpos, hmax, hdecode⟩ := h.decompress_compress piece hne hle
    obtain ⟨blocks, hblocks, hpack⟩ :=
      ih fun piece' hmem => hpieces piece' (List.mem_cons_of_mem piece hmem)
    have hlt := h.bound_lt
    refine ⟨block :: blocks, List.Forall₂.cons ⟨hdecode, hpos, hmax⟩ hblocks, ?_⟩
    intro table payload
    simp only [packChunks, bind_eq_ok, ensure_eq_ok, decide_eq_true_eq]
    refine ⟨block, hblock, (), ⟨?_, hmax⟩, (), by omega, ?_⟩
    · exact List.length_pos_iff.1 hpos
    · rw [hpack]
      simp

def packedBytes (kind : GuestImage) (length : Nat) (blocks : List (List UInt8)) : List UInt8 :=
  magic ++ kind.marker ++ leBytes 8 length ++
    (blocks.map fun block => leBytes 4 block.length).flatten ++ blocks.flatten

lemma length_marker (kind : GuestImage) : kind.marker.length = markerBytes := by
  cases kind <;> rfl

lemma forall₂_getElem? {α β : Type} {R : α → β → Prop} {xs : List α} {ys : List β}
    (h : List.Forall₂ R xs ys)
    {index : Nat} {x : α} (hx : xs[index]? = some x) : ∃ y, ys[index]? = some y ∧ R x y := by
  induction h generalizing index with
  | nil => cases hx
  | cons hxy _ ih =>
    cases index with
    | zero =>
      cases hx
      exact ⟨_, rfl, hxy⟩
    | succ index => exact ih hx

lemma parse_packed {image : List UInt8} {blocks : List (List UInt8)}
    (hbound : lz4.maximumOutputSize kind.chunkBytes < 2 ^ 32) (himage : image ≠ [])
    (hlength : image.length < 2 ^ 63)
    (hcount : blocks.length = divCeil image.length kind.chunkBytes)
    (hblocks : ∀ block ∈ blocks, 1 ≤ block.length ∧
      block.length ≤ lz4.maximumOutputSize kind.chunkBytes)
    (hpacked : (packedBytes kind image.length blocks).length < 2 ^ 63) :
    parse lz4 (packedBytes kind image.length blocks) kind =
      .ok ⟨image.length, kind.chunkBytes, rangesOf 0 blocks, blocks.flatten, none, []⟩ := by
  unfold packedBytes at hpacked ⊢
  have hmarker := length_marker kind
  have hheader : (magic ++ kind.marker ++ leBytes 8 image.length).length = imageHeaderBytes := by
    rw [List.length_append, List.length_append, hmarker, length_leBytes]
    rfl
  have hentries : ∀ entry ∈ blocks.map (fun block => leBytes 4 block.length), entry.length =
      tableEntryBytes := by
    intro entry hentry
    obtain ⟨block, -, rfl⟩ := List.mem_map.1 hentry
    exact length_leBytes 4 block.length
  have htable := length_flatten_of_forall hentries
  rw [List.length_map] at htable
  have hchunks := chunks_flatten (show 0 < tableEntryBytes by decide) hentries
  generalize htableDef : (blocks.map fun block => leBytes 4 block.length).flatten = table at *
  -- The fields of the header, each between its neighbours.
  have hmagicField :
      getRange (magic ++ kind.marker ++ leBytes 8 image.length) 0 magicEnd = some magic :=
    getRange_of_eq [] magic (kind.marker ++ leBytes 8 image.length) (by simp) rfl rfl
  have hmarkerField : getRange (magic ++ kind.marker ++ leBytes 8 image.length) magicEnd markerEnd =
      some kind.marker :=
      getRange_of_eq magic kind.marker (leBytes 8 image.length) rfl rfl (by rw [hmarker]; rfl)
  have hsizeField : getRange (magic ++ kind.marker ++ leBytes 8 image.length) markerEnd
      imageHeaderBytes = some (leBytes 8 image.length) :=
    getRange_of_eq (magic ++ kind.marker) (leBytes 8 image.length) [] (List.append_nil _).symm
      (by rw [List.length_append, hmarker]; rfl) (by rw [length_leBytes]; rfl)
  generalize hheaderDef : magic ++ kind.marker ++ leBytes 8 image.length = header at *
  have hlen : (header ++ table ++ blocks.flatten).length =
      imageHeaderBytes + blocks.length * tableEntryBytes + blocks.flatten.length := by
    rw [List.length_append, List.length_append, hheader, htable]
  have hsize : leNat (leBytes 8 image.length) = image.length :=
    leNat_leBytes (by rw [show 256 ^ 8 = 2 ^ 64 by norm_num]; omega)
  have hend : tableEnd image.length kind.chunkBytes = some ((header ++ table).length) := by
    rw [tableEnd, ← hcount, List.length_append, hheader, htable, Nat.add_comm imageHeaderBytes]
    exact if_pos ⟨by omega, by omega⟩
  have htableField : getRange (header ++ table ++ blocks.flatten) imageHeaderBytes
      (header ++ table).length = some table :=
    getRange_of_eq header table blocks.flatten rfl hheader (by rw [List.length_append, hheader])
  have hpayload : getRange (header ++ table ++ blocks.flatten) (header ++ table).length
      (header ++ table ++ blocks.flatten).length = some blocks.flatten :=
    getRange_of_eq (header ++ table) blocks.flatten []
      (List.append_nil _).symm rfl List.length_append.symm
  have hheaderField : getRange (header ++ table ++ blocks.flatten) 0 imageHeaderBytes =
      some header :=
    getRange_of_eq [] header (table ++ blocks.flatten) (by simp) rfl (by rw [hheader, Nat.zero_add])
  have hread := readTable_blocks hbound 0 hblocks (by omega)
  simp only [parse, bind_eq_ok, ensure_eq_ok, orError_eq_ok, decide_eq_true_eq, indexRange]
  refine ⟨header, hheaderField, magic, hmagicField, (), rfl, kind.marker, hmarkerField, (), ?_,
    leBytes 8 image.length, hsizeField, (), ?_, (header ++ table).length, ?_, table, htableField,
    (rangesOf 0 blocks, 0 + blocks.flatten.length), ?_, blocks.flatten, hpayload, (), ?_, ?_⟩
  · simp [GuestImage.validate, ensure, liftIo]
  · rw [hsize]
    exact Nat.ne_of_gt (List.length_pos_iff.2 himage)
  · rw [hsize]
    exact hend
  · rw [hchunks]
    exact hread
  · exact (Nat.zero_add _).symm
  · rw [hsize]
    rfl

lemma parse_pack (h : lz4.Faithful compressBlock kind) {image : List UInt8} (himage : image ≠ [])
    (hlength : image.length < 2 ^ 63) :
    ∃ packed, pack lz4 compressBlock image kind = .ok packed ∧
      (packed.length < 2 ^ 63 → ∃ img, parse lz4 packed kind = .ok img ∧ img.Holds lz4 image) := by
  have hsize := kind.chunkBytes_pos
  have hpieces : ∀ piece ∈ chunks kind.chunkBytes image,
      piece ≠ [] ∧ piece.length ≤ kind.chunkBytes := fun piece hmem => mem_chunks hsize hmem
  obtain ⟨blocks, hblocks, hpack⟩ := packChunks_spec h hpieces
  refine ⟨packedBytes kind image.length blocks, ?_, ?_⟩
  · simp only [pack, bind_eq_ok, ensure_eq_ok, decide_eq_true_eq]
    exact ⟨(), himage, _, hpack [] [], rfl⟩
  · intro hpacked
    have hcount : blocks.length = divCeil image.length kind.chunkBytes := by
      rw [← hblocks.length_eq, length_chunks_eq_divCeil hsize]
    have hsizes : ∀ block ∈ blocks, 1 ≤ block.length ∧
        block.length ≤ lz4.maximumOutputSize kind.chunkBytes := by
      intro block hmem
      obtain ⟨index, hindex⟩ := List.mem_iff_getElem?.1 hmem
      obtain ⟨piece, -, -, hblock⟩ := forall₂_getElem? hblocks.flip hindex
      exact hblock
    refine ⟨_, parse_packed h.bound_lt himage hlength hcount hsizes hpacked, rfl, hsize, ?_, ?_⟩
    · intro index hindex
      have hpiece :
          (chunks kind.chunkBytes image)[index]? = some (chunkOf kind.chunkBytes image index) := by
        rw [getElem?_chunks hsize, if_pos hindex]
        rfl
      obtain ⟨block, hblock, hdecode, -⟩ := forall₂_getElem? hblocks hpiece
      obtain ⟨range, hrange, hbytes⟩ := getRange_rangesOf [] hblock
      exact ⟨range, block, hrange, hbytes, hdecode⟩
    · intro index hindex
      cases hindex

end Packing

/-! ## Sequences of reads -/

/-- A call of `readAt`: where to read, and the buffer to fill. -/
structure Read where
  offset : UInt64
  buf : List UInt8
  deriving DecidableEq

def step (lz4 : Lz4) (img : PackedImage) (read : Read) :
    Option ((Except Fault Unit × List UInt8) × PackedImage) :=
  let (result, img, buf) := readAt lz4 img read.offset read.buf
  some ((result, buf), img)

/-- What a read returns: the image's bytes, or an error and the buffer as it was. -/
def Serves (image : List UInt8) (e : Run.Event PackedImage Read (Except Fault Unit × List UInt8)) :
    Prop :=
  if e.op.offset.toNat + e.op.buf.length ≤ image.length then
    e.out = (.ok (), (image.drop e.op.offset.toNat).take e.op.buf.length)
  else
    e.out = (.error (.io ⟨.unexpectedEof, "read lies outside the packed image"⟩), e.op.buf) ∧
      e.post = e.pre

lemma step_serves {lz4 : Lz4} {img img' : PackedImage} {image : List UInt8} {read : Read}
    {out : Except Fault Unit × List UInt8} (h : img.Holds lz4 image)
    (hlength : image.length < 2 ^ 63)
    (hstep : step lz4 img read = some (out, img')) : img'.Holds lz4 image ∧
    Serves image ⟨img, read, out, img'⟩ := by
  have hsize := h.size
  by_cases hin : read.offset.toNat + read.buf.length ≤ image.length
  · have hrange : img.inRange read.offset read.buf.length = true :=
      decide_eq_true ⟨by omega, by omega⟩
    obtain ⟨img'', hloop, hholds⟩ := readLoop_spec read.buf.length h
      (Nat.zero_le read.buf.length) (Nat.le_refl read.buf.length)
      (show read.offset.toNat + (read.buf.length - 0) ≤ image.length by omega)
    simp only [step, readAt, hrange, if_true, hloop, Option.some.injEq, Prod.mk.injEq] at hstep
    obtain ⟨rfl, rfl⟩ := hstep
    refine ⟨hholds, ?_⟩
    rw [Serves, if_pos hin]
    simp
  · have hrange : img.inRange read.offset read.buf.length = false :=
      decide_eq_false (by omega)
    simp only [step, readAt, hrange, Bool.false_eq_true, if_false, Option.some.injEq,
      Prod.mk.injEq] at hstep
    obtain ⟨rfl, rfl⟩ := hstep
    refine ⟨h, ?_⟩
    rw [Serves, if_neg hin]
    exact ⟨rfl, rfl⟩

/-- Packing then parsing succeeds and keeps the length; every sequence of reads gets the image's own
bytes or is refused without an effect; and parsing any bytes stays in bounds and yields blocks that
tile the payload.  Byte slices have at most `2 ^ 63 - 1` bytes. -/
theorem packed_image_fidelity (lz4 : Lz4) :
    (∀ compressBlock kind image, lz4.Faithful compressBlock kind → image ≠ [] →
      image.length < 2 ^ 63 → ∃ packed, pack lz4 compressBlock image kind = .ok packed ∧
        (packed.length < 2 ^ 63 → ∃ img, parse lz4 packed kind = .ok img ∧
          img.imageBytes = image.length ∧
            ∀ es t, Run.Trace (step lz4) img es t → ∀ e ∈ es, Serves image e)) ∧
      ∀ bytes kind, parse lz4 bytes kind ≠ .error .panic ∧
        ∀ img, parse lz4 bytes kind = .ok img → Tiles 0 img.blocks img.payload.length := by
  constructor
  · intro compressBlock kind image hlz4 himage hlength
    obtain ⟨packed, hpack, hparse⟩ := parse_pack hlz4 himage hlength
    refine ⟨packed, hpack, ?_⟩
    intro hpacked
    obtain ⟨img, himg, hholds⟩ := hparse hpacked
    refine ⟨img, himg, hholds.size, ?_⟩
    intro es t htrace e he
    obtain ⟨before, hbefore, hstep⟩ := htrace.event he
    have hpre : e.pre.Holds lz4 image := hbefore.invariant (P := fun m => m.Holds lz4 image)
        (fun hm hread => (step_serves hm hlength hread).1) hholds
    exact (step_serves hpre hlength hstep).2
  · intro bytes kind
    exact ⟨parse_ne_panic lz4 bytes kind, fun img himg => parse_tiles himg⟩

/-! ### Blocks of one literal run -/

/-- The bytes of a length that go on after the token: as many of 255 as fit, and the rest. -/
def lengthBytes (n : Nat) : List UInt8 :=
  List.replicate (n / 255) 255 ++ [UInt8.ofNat (n % 255)]

/-- An LZ4 block without matches. -/
def literalBlock (chunk : List UInt8) : List UInt8 :=
  if chunk.length < 15 then UInt8.ofNat (16 * chunk.length) :: chunk
  else 240 :: (lengthBytes (chunk.length - 15) ++ chunk)

def readLength : List UInt8 → Nat × List UInt8
  | [] => (0, [])
  | byte :: rest =>
      if byte = 255 then ((readLength rest).1 + 255, (readLength rest).2) else (byte.toNat, rest)

def literals : List UInt8 → Nat × List UInt8
  | [] => (0, [])
  | token :: rest =>
      if token.toNat / 16 = 15 then ((readLength rest).1 + 15, (readLength rest).2)
      else (token.toNat / 16, rest)

lemma readLength_lengthBytes (n : Nat) (rest : List UInt8) : readLength (lengthBytes n ++ rest) =
    (n, rest) := by
  have hrun : ∀ count last, last < 255 →
      readLength (List.replicate count 255 ++ [UInt8.ofNat last] ++ rest) =
      (count * 255 + last, rest) := by
    intro count last hlast
    induction count with
    | zero =>
      have hbyte : (UInt8.ofNat last).toNat = last :=
        UInt8.toNat_ofNat_of_lt' (show last < 256 by omega)
      have hne : UInt8.ofNat last ≠ 255 := fun heq => by
        rw [heq] at hbyte
        exact hlast.ne hbyte.symm
      simp [readLength, hne, hbyte]
    | succ count ih =>
      rw [List.replicate_succ, List.cons_append, List.cons_append, readLength, if_pos rfl, ih]
      simp only [Prod.mk.injEq, and_true]
      omega
  rw [lengthBytes, hrun _ _ (Nat.mod_lt _ (by decide)), Nat.div_add_mod']

lemma literals_literalBlock (chunk : List UInt8) : literals (literalBlock chunk) =
    (chunk.length, chunk) := by
  unfold literalBlock
  split
  next hshort =>
    have htoken : (UInt8.ofNat (16 * chunk.length)).toNat = 16 * chunk.length :=
      UInt8.toNat_ofNat_of_lt' (show 16 * chunk.length < 256 by omega)
    rw [literals, htoken, Nat.mul_div_cancel_left _ (by decide), if_neg (by omega)]
  next hlong =>
    rw [literals, if_pos (by decide), readLength_lengthBytes,
      Nat.sub_add_cancel (Nat.le_of_not_lt hlong)]

lemma length_literalBlock (chunk : List UInt8) :
    1 ≤ (literalBlock chunk).length ∧
    (literalBlock chunk).length ≤ 20 + chunk.length * 110 / 100 := by
  unfold literalBlock lengthBytes
  split
  · simp only [List.length_cons]
    omega
  · simp only [List.length_cons, List.length_append, List.length_replicate, List.length_nil]
    omega

def literalLz4 : Lz4 where
  maximumOutputSize n := 20 + n * 110 / 100
  decompressInto block out :=
    if (literals block).1 = (literals block).2.length ∧ (literals block).1 = out.length then
      (.ok (literals block).1, (literals block).2)
    else (.error "unsupported block", out)
  length_decompressInto := by
    intro block out
    split
    next h => exact h.1.symm.trans h.2
    · rfl

lemma literalLz4_faithful (kind : GuestImage) :
    literalLz4.Faithful (fun chunk => .ok (literalBlock chunk)) kind where
  bound_lt := by
    cases kind <;> decide
  decompress_compress := by
    intro chunk _ hle
    obtain ⟨hpos, hlength⟩ := length_literalBlock chunk
    refine ⟨literalBlock chunk, rfl, hpos, le_trans hlength ?_, fun out hout => ?_⟩
    · have hmul := Nat.mul_le_mul_right 110 hle
      exact Nat.add_le_add_left (Nat.div_le_div_right hmul) 20
    · simp only [literalLz4, literals_literalBlock, hout, and_self, if_true]

@[irreducible] def fullChunk : List UInt8 := List.replicate GuestImage.boot.chunkBytes 1

lemma length_fullChunk : fullChunk.length = GuestImage.boot.chunkBytes := by
  rw [fullChunk, List.length_replicate]

theorem packed_image_fidelity_two_chunks :
    ∃ packed img,
      pack literalLz4 (fun chunk => .ok (literalBlock chunk)) (fullChunk ++ [2, 3]) .boot =
        .ok packed ∧
      parse literalLz4 packed .boot = .ok img ∧ (readAt literalLz4 img 65535 [0, 0]).1 = .ok () ∧
        (readAt literalLz4 img 65535 [0, 0]).2.2 = [1, 2] := by
  have hchunk : GuestImage.boot.chunkBytes = 65536 := rfl
  have hlength : (fullChunk ++ [2, 3]).length = 65538 := by
    rw [List.length_append, length_fullChunk, hchunk]
    rfl
  have hne : fullChunk ++ [2, 3] ≠ [] := List.append_ne_nil_of_right_ne_nil _ (by decide)
  have hpieces : chunks GuestImage.boot.chunkBytes (fullChunk ++ [2, 3]) = [fullChunk, [2, 3]] := by
    rw [chunks_of_ne_nil (by decide) hne, List.take_left' length_fullChunk,
      List.drop_left' length_fullChunk, chunks_of_length_le (by decide) (by decide)]
  obtain ⟨packed, hpack, hrest⟩ := (packed_image_fidelity literalLz4).1 _ .boot _
    (literalLz4_faithful .boot) hne (by omega)
  have hpacked : packed.length < 2 ^ 63 := by
    -- The length is computed from the parts: evaluating 64 KiB of blocks would take too long.
    obtain ⟨-, -, hpack⟩ := bind_eq_ok.1 hpack
    obtain ⟨⟨table, payload⟩, hchunks, hpack⟩ := bind_eq_ok.1 hpack
    rw [hpieces] at hchunks
    simp only [packChunks, bind_eq_ok, Except.ok.injEq, Prod.mk.injEq] at hchunks
    obtain ⟨first, rfl, -, -, -, -, second, rfl, -, -, -, -, rfl, rfl⟩ := hchunks
    cases hpack
    have hfirst := (length_literalBlock fullChunk).2
    have hsecond := (length_literalBlock [2, 3]).2
    rw [length_fullChunk, hchunk] at hfirst
    have hmagic : magic.length = 8 := rfl
    simp only [List.length_append, length_leBytes, length_marker, markerBytes, hmagic,
      List.length_nil, List.length_cons] at hsecond ⊢
    omega
  obtain ⟨img, hparse, -, hreads⟩ := hrest hpacked
  -- The last byte of the first chunk and the first byte of the second one.
  have hread : ((fullChunk ++ [2, 3]).drop 65535).take 2 = [1, 2] := by
    have hlast : fullChunk = List.replicate 65535 1 ++ [1] := by
      rw [fullChunk]
      exact List.replicate_succ'
    rw [hlast, List.append_assoc, List.drop_left' List.length_replicate]
    rfl
  have hserves : ∀ offset : UInt64, offset.toNat = 65535 →
      (readAt literalLz4 img offset [0, 0]).1 = .ok () ∧
        (readAt literalLz4 img offset [0, 0]).2.2 = [1, 2] := by
    intro offset hoffset
    have hstep : step literalLz4 img ⟨offset, [0, 0]⟩ =
        some (((readAt literalLz4 img offset [0, 0]).1,
        (readAt literalLz4 img offset [0, 0]).2.2), (readAt literalLz4 img offset [0, 0]).2.1) :=
        rfl
    have hserves := hreads _ _ (Run.Trace.single hstep) _ List.mem_cons_self
    have hin : offset.toNat + [(0 : UInt8), 0].length ≤ (fullChunk ++ [2, 3]).length := by
      rw [hlength, hoffset]
      decide
    rw [Serves, if_pos hin, hoffset] at hserves
    exact ⟨congrArg Prod.fst hserves, (congrArg Prod.snd hserves).trans hread⟩
  exact ⟨packed, img, hpack, hparse, hserves 65535 rfl⟩

end PackedImage

end Terrarium.Protocol
