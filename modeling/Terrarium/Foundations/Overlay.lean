import Mathlib.Data.List.Induction
import Mathlib.Order.Basic

/-!
# Overlay — functions patched in order

A patch gives new values to some of the arguments of a function.  Where several patches cover an
argument, the one that is applied last decides.

* `overlay_covered` — the patches of a sorted list: the value at an argument comes from a covering
  patch that none of the others exceeds;
* `Overlay.segment` — the patch that writes a list from an address on, and how neighbouring ones
  join.
-/

namespace Terrarium

variable {κ ν : Type}

namespace Overlay

def patch (f : κ → ν) (p : κ → Option ν) : κ → ν :=
  fun k => (p k).getD (f k)

lemma patch_of_none {f : κ → ν} {p : κ → Option ν} {k : κ} (h : p k = none) :
    patch f p k = f k := by
  unfold patch
  rw [h]
  rfl

lemma patch_of_some {f : κ → ν} {p : κ → Option ν} {k : κ} {v : ν} (h : p k = some v) :
    patch f p k = v := by
  unfold patch
  rw [h]
  rfl

def segment (start : Nat) (xs : List ν) : Nat → Option ν :=
  fun a => if start ≤ a then xs[a - start]? else none

def slice (f : Nat → ν) (start length : Nat) : List ν :=
  (List.range length).map fun i => f (start + i)

@[simp] lemma patch_segment_nil (f : Nat → ν) (start : Nat) : patch f (segment start []) = f := by
  funext a
  refine patch_of_none ?_
  unfold segment
  split
  · rfl
  · rfl

lemma patch_segment_append (f : Nat → ν) (start : Nat) (xs ys : List ν) :
    patch (patch f (segment start xs)) (segment (start + xs.length) ys) =
      patch f (segment start (xs ++ ys)) := by
  funext a
  by_cases hstart : start ≤ a
  · by_cases hsecond : start + xs.length ≤ a
    · have hright : xs.length ≤ a - start := Nat.le_sub_of_add_le' hsecond
      simp only [patch, segment, if_pos hstart, if_pos hsecond, List.getElem?_append_right hright,
        List.getElem?_eq_none hright, Nat.sub_sub, Option.getD_none]
    · have hleft : a - start < xs.length :=
        Nat.sub_lt_left_of_lt_add hstart (Nat.lt_of_not_le hsecond)
      simp only [patch, segment, if_pos hstart, if_neg hsecond, List.getElem?_append_left hleft,
        Option.getD_none]
  · have hsecond : ¬ start + xs.length ≤ a :=
      fun h => hstart (Nat.le_trans (Nat.le_add_right _ _) h)
    simp only [patch, segment, if_neg hstart, if_neg hsecond, Option.getD_none]

end Overlay

open Overlay (patch patch_of_none patch_of_some)

def overlay (f : κ → ν) (ps : List (κ → Option ν)) : κ → ν :=
  ps.foldl patch f

@[simp] lemma overlay_nil (f : κ → ν) : overlay f [] = f :=
  rfl

@[simp] lemma overlay_cons (f : κ → ν) (p : κ → Option ν) (ps : List (κ → Option ν)) :
    overlay f (p :: ps) = overlay (patch f p) ps :=
  rfl

lemma overlay_append (f : κ → ν) (ps qs : List (κ → Option ν)) : overlay f (ps ++ qs) = overlay
    (overlay f ps) qs :=
  List.foldl_append

/-- Patches that are sorted by a key: an argument that none covers keeps its value; otherwise its
value comes from a covering patch whose key is largest among those that cover it. -/
theorem overlay_covered {α ι : Type} [Preorder ι] (key : α → ι) (p : α → κ → Option ν)
    (f : κ → ν) (k : κ) {xs : List α} (hsorted : xs.Pairwise fun x y => key x ≤ key y) :
    ((∀ x ∈ xs, p x k = none) ∧ overlay f (xs.map p) k = f k) ∨
      ∃ x ∈ xs, p x k = some (overlay f (xs.map p) k) ∧ ∀ y ∈ xs, p y k ≠ none → key y ≤ key x := by
  induction xs using List.reverseRecOn with
  | nil => exact Or.inl ⟨List.forall_mem_nil _, rfl⟩
  | append_singleton xs last ih =>
    obtain ⟨hxs, -, hlast⟩ := List.pairwise_append.1 hsorted
    rw [List.map_append, overlay_append, List.map_singleton, overlay_cons, overlay_nil]
    cases hp : p last k with
    | none =>
      rw [patch_of_none hp]
      rcases ih hxs with ⟨hnone, hbase⟩ | ⟨x, hx, hvalue, hmax⟩
      · exact Or.inl ⟨List.forall_mem_append.2 ⟨hnone, List.forall_mem_singleton.2 hp⟩, hbase⟩
      · refine Or.inr ⟨x, List.mem_append_left _ hx, hvalue, ?_⟩
        exact List.forall_mem_append.2
          ⟨hmax, List.forall_mem_singleton.2 fun hcovers => absurd hp hcovers⟩
    | some v =>
      rw [patch_of_some hp]
      refine Or.inr ⟨last, List.mem_append_right _ List.mem_cons_self, hp, ?_⟩
      exact List.forall_mem_append.2
        ⟨fun y hy _ => hlast y hy last List.mem_cons_self,
          List.forall_mem_singleton.2 fun _ => le_refl _⟩

end Terrarium
