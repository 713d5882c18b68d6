import Mathlib.Algebra.Order.Ring.Nat
import Mathlib.Data.List.Basic

/-!
# Chunks — cutting a list into pieces of one size

`chunks size xs` cuts `xs` into pieces of `size` elements, the last possibly shorter.  The lemmas
are the ones that matter when pieces are added at the end: a list of whole pieces can be extended
without moving a boundary.
-/

namespace Terrarium.Chunks

variable {α : Type} {size : Nat} {xs : List α}

/-- The pieces of `xs`; the first argument bounds their number. -/
def chunksAux (size : Nat) : Nat → List α → List (List α)
  | 0, _ => []
  | _ + 1, [] => []
  | bound + 1, x :: xs =>
      (x :: xs).take size :: chunksAux size bound ((x :: xs).drop size)

def chunks (size : Nat) (xs : List α) : List (List α) :=
  chunksAux size xs.length xs

@[simp] lemma chunks_nil (size : Nat) : chunks size ([] : List α) = [] := rfl

lemma chunksAux_eq (hsize : 0 < size) {bound bound' : Nat} (hbound : xs.length ≤ bound)
    (hbound' : xs.length ≤ bound') : chunksAux size bound xs = chunksAux size bound' xs := by
  induction bound generalizing bound' xs with
  | zero =>
    have hnil : xs = [] := List.length_eq_zero_iff.1 (by omega)
    subst hnil
    cases bound' <;> rfl
  | succ bound ih =>
    cases xs with
    | nil => cases bound' <;> rfl
    | cons x xs =>
      cases bound' with
      | zero => simp at hbound'
      | succ bound' =>
        have hrest : ((x :: xs).drop size).length ≤ bound ∧
            ((x :: xs).drop size).length ≤ bound' := by
          simp only [List.length_drop, List.length_cons] at hbound hbound' ⊢
          omega
        simp only [chunksAux]
        rw [ih hrest.1 hrest.2]

lemma chunks_of_ne_nil (hsize : 0 < size) (hxs : xs ≠ []) :
    chunks size xs = xs.take size :: chunks size (xs.drop size) := by
  cases xs with
  | nil => exact absurd rfl hxs
  | cons x xs =>
    have hrest : ((x :: xs).drop size).length ≤ xs.length := by
      simp only [List.length_drop, List.length_cons]
      omega
    change _ :: chunksAux size xs.length ((x :: xs).drop size) = _
    rw [chunksAux_eq hsize hrest (Nat.le_refl _)]
    rfl

lemma chunks_of_length_le (hxs : xs ≠ []) (hle : xs.length ≤ size) : chunks size xs = [xs] := by
  have hsize : 0 < size := Nat.lt_of_lt_of_le (List.length_pos_iff.2 hxs) hle
  rw [chunks_of_ne_nil hsize hxs, List.take_of_length_le hle,
    List.drop_eq_nil_of_le hle, chunks_nil]

lemma chunks_append (hsize : 0 < size) (ys : List α)
    (hdvd : size ∣ xs.length) : chunks size (xs ++ ys) = chunks size xs ++ chunks size ys := by
  obtain ⟨count, hcount⟩ := hdvd
  induction count generalizing xs with
  | zero =>
    have hnil : xs = [] := List.length_eq_zero_iff.1 (by simpa using hcount)
    simp [hnil]
  | succ count ih =>
    rw [Nat.mul_succ] at hcount
    have hxs : xs ≠ [] := by
      intro hnil
      rw [hnil, List.length_nil] at hcount
      omega
    have hrest : (xs.drop size).length = size * count := by
      rw [List.length_drop]
      omega
    rw [chunks_of_ne_nil hsize hxs, chunks_of_ne_nil hsize (by simp [hxs]),
      List.take_append_of_le_length (by omega), List.drop_append_of_le_length (by omega), ih hrest,
      List.cons_append]

lemma getElem?_chunks (hsize : 0 < size) (xs : List α) (index : Nat) : (chunks size xs)[index]? =
      if index * size < xs.length then some ((xs.drop (index * size)).take size) else none := by
  induction index generalizing xs with
  | zero =>
    by_cases hxs : xs = []
    · simp [hxs]
    · have hpos : 0 * size < xs.length := by
        simpa using List.length_pos_iff.2 hxs
      rw [chunks_of_ne_nil hsize hxs, if_pos hpos]
      simp
  | succ index ih =>
    by_cases hxs : xs = []
    · simp [hxs]
    · rw [chunks_of_ne_nil hsize hxs, List.getElem?_cons_succ, ih, List.drop_drop,
        List.length_drop, Nat.succ_mul, Nat.add_comm size]
      by_cases hlt : index * size + size < xs.length
      · rw [if_pos hlt, if_pos (by omega)]
      · rw [if_neg hlt, if_neg (by omega)]

lemma lt_length_chunks (hsize : 0 < size) {index : Nat} :
    index < (chunks size xs).length ↔ index * size < xs.length := by
  have hget := getElem?_chunks hsize xs index
  constructor
  · intro hlt
    by_contra hge
    rw [if_neg hge, List.getElem?_eq_none_iff] at hget
    omega
  · intro hlt
    rw [if_pos hlt] at hget
    exact (List.getElem?_eq_some_iff.1 hget).1

lemma mem_chunks (hsize : 0 < size) {xs piece : List α}
    (h : piece ∈ chunks size xs) : piece ≠ [] ∧ piece.length ≤ size := by
  obtain ⟨index, hindex⟩ := List.mem_iff_getElem?.1 h
  rw [getElem?_chunks hsize] at hindex
  split at hindex
  next hlt =>
    cases hindex
    constructor
    · intro hnil
      have hlen := congrArg List.length hnil
      simp only [List.length_take, List.length_drop, List.length_nil] at hlen
      omega
    · exact List.length_take_le _ _
  · cases hindex

lemma length_flatten_of_forall {pieces : List (List α)}
    (h : ∀ piece ∈ pieces, piece.length = size) : pieces.flatten.length = pieces.length * size := by
  rw [List.length_flatten, List.map_congr_left h, List.map_const', List.sum_replicate_nat]

lemma chunks_flatten (hsize : 0 < size) {pieces : List (List α)}
    (h : ∀ piece ∈ pieces, piece.length = size) : chunks size pieces.flatten = pieces := by
  induction pieces with
  | nil => rfl
  | cons piece pieces ih =>
    have hlen : piece.length = size := h piece List.mem_cons_self
    have hne : piece ≠ [] := by
      intro hnil
      rw [hnil, List.length_nil] at hlen
      omega
    rw [List.flatten_cons, chunks_append hsize _ (hlen ▸ Nat.dvd_refl _),
      chunks_of_length_le hne (Nat.le_of_eq hlen),
      ih fun piece' hmem => h piece' (List.mem_cons_of_mem piece hmem)]
    rfl

end Terrarium.Chunks
