import Mathlib.Data.List.Basic

/-!
# LogTail — positioning a log at its last lines

`seek_to_tail` reads a file backwards in blocks of 4096 bytes and counts newlines.  A newline at the
very end of the file ends the last line and is not counted; the flag `atEnd` carries that across the
blocks.  The invariant is about the suffix read so far: the count is the number of its newlines, its
last byte left out.
-/

namespace Terrarium.Cli

def newline : UInt8 := 10

def blockBytes : Nat := 4096

structure Scan where
  found : Nat := 0
  atEnd : Bool := true

/-- One byte of the scan; an error carries the position at which the scan stops. -/
def scanByte (lines offset : Nat) (byte : UInt8) (s : Scan) : Except Nat Scan :=
  if s.atEnd ∧ byte = newline then .ok { s with atEnd := false }
  else if byte = newline then
    if s.found + 1 = lines then .error (offset + 1) else .ok ⟨s.found + 1, false⟩
  else .ok { s with atEnd := false }

def scanBlock (block : List UInt8) (lines cursor : Nat) : Nat → Scan → Except Nat Scan
  | 0, s => .ok s
  | i + 1, s => do
    let s ← scanByte lines (cursor + i) (block.getD i 0) s
    scanBlock block lines cursor i s

def scanBlocks (file : List UInt8) (lines cursor : Nat) (s : Scan) : Except Nat Scan :=
  if cursor = 0 then .ok s
  else do
    let chunkSize := min cursor blockBytes
    let start := cursor - chunkSize
    let s ← scanBlock ((file.drop start).take chunkSize) lines start chunkSize s
    scanBlocks file lines start s
termination_by cursor
decreasing_by simp [blockBytes]; omega

def seekToTail (file : List UInt8) (lines : Nat) : Nat :=
  if file.length = 0 ∨ lines = 0 then file.length
  else match scanBlocks file lines file.length {} with
    | .error position => position
    | .ok _ => 0

/-! ## Lines -/

/-- Every newline ends a line, and so does the end of a text that does not end with one. -/
def lineCount (bytes : List UInt8) : Nat :=
  bytes.count newline + if bytes.getLast?.all (· = newline) then 0 else 1

lemma lineCount_append (xs : List UInt8) {ys : List UInt8} (h : ys ≠ []) :
    lineCount (xs ++ ys) = xs.count newline + lineCount ys := by
  simp [lineCount, List.getLast?_append_of_ne_nil xs h, Nat.add_assoc]

lemma lineCount_of_ne_nil {bytes : List UInt8} (h : bytes ≠ []) :
    lineCount bytes = bytes.dropLast.count newline + 1 := by
  conv_lhs => rw [← List.dropLast_append_getLast h]
  rw [lineCount_append _ (List.cons_ne_nil _ _)]
  by_cases hlast : bytes.getLast h = newline <;> simp [lineCount, hlast]

/-! ## The scan -/

/-- What the scan knows once it has read the suffix `tail`. -/
structure Scanned (lines : Nat) (tail : List UInt8) (s : Scan) : Prop where
  atEnd : s.atEnd = tail.isEmpty
  found : s.found = tail.dropLast.count newline
  short : s.found < lines

/-- A position right after a newline, with that many lines from there on. -/
def StartsTail (file : List UInt8) (lines position : Nat) : Prop :=
  ∃ offset, position = offset + 1 ∧ file[offset]? = some newline ∧ file.drop position ≠ [] ∧
    lineCount (file.drop position) = lines

/-- The scan goes on with a longer suffix, or it stops at the start of the tail. -/
def Scans (file : List UInt8) (lines cursor : Nat) : Except Nat Scan → Prop
  | .ok s => Scanned lines (file.drop cursor) s
  | .error position => StartsTail file lines position

variable {file : List UInt8} {lines offset cursor : Nat} {s : Scan}

lemma scans_bind {middle : Nat} {x : Except Nat Scan} {f : Scan → Except Nat Scan}
    (hx : Scans file lines middle x)
    (hf : ∀ s, Scanned lines (file.drop middle) s → Scans file lines cursor (f s)) :
    Scans file lines cursor (x >>= f) := by
  cases x with
  | error position => exact hx
  | ok s => exact hf s hx

lemma scans_byte (hoffset : offset < file.length) (h : Scanned lines (file.drop (offset + 1)) s) :
    Scans file lines offset (scanByte lines offset file[offset] s) := by
  obtain ⟨hatEnd, hfound, hshort⟩ := h
  have hdrop : file.drop offset = file[offset] :: file.drop (offset + 1) :=
    List.drop_eq_getElem_cons hoffset
  by_cases htail : file.drop (offset + 1) = []
  · -- The last byte of the file is not counted, whatever it is.
    rw [htail] at hatEnd hfound hdrop
    have hscanned : Scanned lines (file.drop offset) { s with atEnd := false } := by
      rw [hdrop]
      exact ⟨rfl, hfound, hshort⟩
    unfold scanByte
    split
    · exact hscanned
    next hbyte =>
      rw [if_neg fun hnewline => hbyte ⟨hatEnd, hnewline⟩]
      exact hscanned
  · have hdropLast :
        (file.drop offset).dropLast = file[offset] :: (file.drop (offset + 1)).dropLast := by
      rw [hdrop, List.dropLast_cons_of_ne_nil htail]
    have hinside : s.atEnd = false := hatEnd.trans (List.isEmpty_eq_false_iff.2 htail)
    have hempty : (file.drop offset).isEmpty = false := by rw [hdrop]; rfl
    simp only [scanByte, hinside, Bool.false_eq_true, false_and, if_false]
    split
    next hbyte =>
      split
      next hlast =>
        refine ⟨offset, rfl, by simp [hbyte, hoffset], htail, ?_⟩
        rw [lineCount_of_ne_nil htail, ← hfound, hlast]
      next hmore =>
        exact ⟨hempty.symm, by simp [hdropLast, hbyte, hfound], Nat.lt_of_le_of_ne hshort hmore⟩
    next hbyte => exact ⟨hempty.symm, by simp [hdropLast, hbyte, hfound], hshort⟩

lemma scans_block (size : Nat) {i : Nat} (hsize : i ≤ size) (hlength : cursor + i ≤ file.length)
    (h : Scanned lines (file.drop (cursor + i)) s) :
    Scans file lines cursor (scanBlock ((file.drop cursor).take size) lines cursor i s) := by
  induction i generalizing s with
  | zero => exact h
  | succ i ih =>
    have hbyte : ((file.drop cursor).take size).getD i 0 = file[cursor + i] := by
      rw [List.getD_eq_getElem?_getD, List.getElem?_take_of_lt hsize, List.getElem?_drop,
        List.getElem?_eq_getElem]
      rfl
    unfold scanBlock
    rw [hbyte]
    exact scans_bind (scans_byte hlength h) fun s hs => ih (by omega) (by omega) hs

lemma scans_blocks (hcursor : cursor ≤ file.length) (h : Scanned lines (file.drop cursor) s) :
    Scans file lines 0 (scanBlocks file lines cursor s) := by
  fun_induction scanBlocks file lines cursor s with
  | case1 s => exact h
  | case2 cursor s hpos chunkSize start ih =>
    have hstart : start + chunkSize = cursor := Nat.sub_add_cancel (Nat.min_le_left _ _)
    refine scans_bind (scans_block chunkSize (Nat.le_refl _) (by omega) (hstart.symm ▸ h))
      fun s hs => ?_
    exact ih s (by omega) hs

/-- The position is the start of the file or right after a newline, and the bytes from there on are
as many lines as were asked for, or all there are. -/
theorem seek_to_tail_starts_last_lines (file : List UInt8) (lines : Nat) (hlines : 0 < lines) :
    (seekToTail file lines = 0 ∨ file[seekToTail file lines - 1]? = some newline) ∧
      lineCount (file.drop (seekToTail file lines)) = min lines (lineCount file) := by
  unfold seekToTail
  split
  next h =>
    obtain hfile | hzero := h
    · simp [List.length_eq_zero_iff.1 hfile, lineCount]
    · omega
  next h =>
    have hnil : file ≠ [] := fun hnil => h (.inl (by simp [hnil]))
    have hscans : Scans file lines 0 (scanBlocks file lines file.length {}) :=
      scans_blocks (Nat.le_refl _) ⟨by simp, by simp, hlines⟩
    cases hs : scanBlocks file lines file.length {} with
    | error position =>
      rw [hs] at hscans
      obtain ⟨offset, rfl, hbyte, hrest, hcount⟩ := hscans
      refine ⟨.inr hbyte, ?_⟩
      show lineCount (file.drop (offset + 1)) = _
      have htotal := lineCount_append (file.take (offset + 1)) hrest
      rw [List.take_append_drop] at htotal
      omega
    | ok s =>
      rw [hs] at hscans
      have htotal := lineCount_of_ne_nil hnil
      have hfound := hscans.found
      have hshort := hscans.short
      rw [List.drop_zero] at hfound
      refine ⟨.inl rfl, ?_⟩
      show lineCount (file.drop 0) = _
      rw [List.drop_zero]
      omega

theorem seek_to_tail_starts_last_lines_two : (0 : Nat) < 1 ∧
    lineCount (([97, 10, 98, 10] : List UInt8).drop (seekToTail [97, 10, 98, 10] 1)) = 1 :=
  ⟨Nat.one_pos, (seek_to_tail_starts_last_lines [97, 10, 98, 10] 1 Nat.one_pos).2⟩

end Terrarium.Cli
