import Mathlib.Algebra.Order.Ring.Nat
import Mathlib.Data.List.DropRight

/-!
# Text — strings as character lists

The string operations of the Rust standard library that configuration parsers use, on lists of
characters.  Lengths are in bytes of the UTF-8 encoding, as `str::len` counts them.
-/

namespace Terrarium

abbrev Text : Type := List Char

namespace Text

instance (t : Text) (texts : List Text) : Decidable (t ∈ texts) :=
    List.instDecidableMemOfLawfulBEq t texts

/-- `str::len`. -/
def byteLen (t : Text) : Nat :=
  (t.map Char.utf8Size).sum

/-- `char::is_whitespace`: the Unicode property `White_Space`. -/
def isWhitespace (c : Char) : Bool :=
  let n := c.toNat
  (0x9 ≤ n ∧ n ≤ 0xd) ∨ n = 0x20 ∨ n = 0x85 ∨ n = 0xa0 ∨ n = 0x1680 ∨ (0x2000 ≤ n ∧ n ≤ 0x200a) ∨
    n = 0x2028 ∨ n = 0x2029 ∨ n = 0x202f ∨ n = 0x205f ∨ n = 0x3000

def trim (t : Text) : Text :=
  (t.dropWhile isWhitespace).rdropWhile isWhitespace

def toAsciiLowercase (t : Text) : Text :=
  t.map Char.toLower

def eqIgnoreAsciiCase (t u : Text) : Bool :=
  t.toAsciiLowercase = u.toAsciiLowercase

/-- `str::split_once`: cut at the first occurrence of a nonempty pattern. -/
def splitOnce (pattern : Text) : Text → Option (Text × Text)
  | [] => none
  | c :: cs =>
      match (c :: cs).dropPrefix? pattern with
      | some rest => some ([], rest)
      | none => (splitOnce pattern cs).map fun p => (c :: p.1, p.2)

/-- `str::rsplit_once` with a single character: cut at its last occurrence. -/
def rsplitOnce (c : Char) (t : Text) : Option (Text × Text) :=
  (splitOnce [c] t.reverse).map fun p => (p.2.reverse, p.1.reverse)

def digitValue (c : Char) : Nat :=
  c.toNat - '0'.toNat

/-- `str::parse` of an unsigned integer type with the given maximum: an optional plus sign and at
least one decimal digit. -/
def parseUnsigned (max : Nat) (t : Text) : Option Nat :=
  let digits := (t.dropPrefix? ['+']).getD t
  if digits ≠ [] ∧ digits.all Char.isDigit then
    let n := digits.foldl (fun acc c => 10 * acc + digitValue c) 0
    if n ≤ max then some n else none
  else none

/-! ## Cutting at a character -/

variable {c : Char} {t before after : Text}

lemma splitOnce_of_not_mem (h : c ∉ t) : splitOnce [c] t = none := by
  induction t with
  | nil => rfl
  | cons d t ih =>
    rw [List.mem_cons, not_or] at h
    have hd : (d :: t).dropPrefix? [c] = none := by
      simp [List.dropPrefix?, Ne.symm h.1]
    simp [splitOnce, hd, ih h.2]

lemma splitOnce_append_cons (after : Text) (h : c ∉ before) :
    splitOnce [c] (before ++ c :: after) = some (before, after) := by
  induction before with
  | nil => simp [splitOnce, List.dropPrefix?]
  | cons d before ih =>
    rw [List.mem_cons, not_or] at h
    have hd : (d :: (before ++ c :: after)).dropPrefix? [c] = none := by
      simp [List.dropPrefix?, Ne.symm h.1]
    simp [splitOnce, hd, ih h.2]

lemma rsplitOnce_of_not_mem (h : c ∉ t) : rsplitOnce c t = none := by
  have hreverse : c ∉ t.reverse := by simpa using h
  simp [rsplitOnce, splitOnce_of_not_mem hreverse]

lemma rsplitOnce_append_cons (before : Text) (h : c ∉ after) :
    rsplitOnce c (before ++ c :: after) = some (before, after) := by
  have hreverse : c ∉ after.reverse := by simpa using h
  have hcut := splitOnce_append_cons before.reverse hreverse
  simp [rsplitOnce, hcut]

lemma splitOnce_eq_some (h : splitOnce [c] t = some (before, after)) :
    t = before ++ c :: after := by
  induction t generalizing before with
  | nil => cases h
  | cons d t ih =>
    by_cases hd : d = c
    · subst hd
      have hcut := splitOnce_append_cons t (List.not_mem_nil : d ∉ ([] : Text))
      rw [List.nil_append] at hcut
      rw [hcut] at h
      cases h
      rfl
    · have hdrop : (d :: t).dropPrefix? [c] = none := by
        simp [List.dropPrefix?, hd]
      simp only [splitOnce, hdrop] at h
      obtain ⟨⟨before', after'⟩, hrest, heq⟩ := Option.map_eq_some_iff.1 h
      cases heq
      rw [ih hrest, List.cons_append]

lemma rsplitOnce_eq_some (h : rsplitOnce c t = some (before, after)) :
    t = before ++ c :: after := by
  obtain ⟨⟨after', before'⟩, hcut, heq⟩ := Option.map_eq_some_iff.1 h
  cases heq
  have hreverse := congrArg List.reverse (splitOnce_eq_some hcut)
  simpa using hreverse

lemma byteLen_append (t u : Text) : byteLen (t ++ u) = byteLen t + byteLen u := by
  simp [byteLen]

lemma byteLen_pos (h : t ≠ []) : 0 < byteLen t := by
  cases t with
  | nil => exact absurd rfl h
  | cons c t =>
    have hc := Char.utf8Size_pos c
    simp only [byteLen, List.map_cons, List.sum_cons]
    omega

lemma not_mem_of_mem_splitOn {piece : Text} (h : piece ∈ t.splitOn c) : c ∉ piece := by
  induction t generalizing piece with
  | nil =>
    have hpiece : piece = [] := by simpa using h
    simp [hpiece]
  | cons d t ih =>
    rw [List.splitOn_cons_eq_if_modifyHead] at h
    by_cases hd : d = c
    · rw [if_pos (beq_iff_eq.2 hd)] at h
      rcases List.mem_cons.1 h with rfl | hrest
      · exact List.not_mem_nil
      · exact ih hrest
    · rw [if_neg (by simpa using hd)] at h
      cases hpieces : t.splitOn c with
      | nil => exact absurd hpieces (List.splitOn_ne_nil c t)
      | cons head tail =>
        rw [hpieces, List.modifyHead_cons] at h
        rcases List.mem_cons.1 h with rfl | hrest
        · have hhead := ih (hpieces ▸ List.mem_cons_self)
          simp [Ne.symm hd, hhead]
        · exact ih (hpieces ▸ List.mem_cons_of_mem _ hrest)

end Text

end Terrarium
