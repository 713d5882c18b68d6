import Mathlib.Data.UInt

/-!
# Counter — free-running 32-bit counters

Flow control compares 32-bit counters that are never reset and wrap around.  What the peers mean
are unbounded totals; what they exchange are the totals modulo `2 ^ 32`.

* distances: `(a - b).toNat` is how far `a` runs ahead of `b`, as long as the true lead is below
  `2 ^ 32`.
-/

namespace Terrarium.Counter

/-! ## Distances -/

lemma toNat_add_sub {a b c : UInt32} (h : (a - b).toNat + c.toNat < 2 ^ 32) :
    (a + c - b).toNat = (a - b).toNat + c.toNat := by
  simp only [UInt32.toNat_sub, UInt32.toNat_add] at h ⊢
  omega

lemma toNat_sub_add {a b c : UInt32} (h : c.toNat ≤ (a - b).toNat) :
    (a - (b + c)).toNat = (a - b).toNat - c.toNat := by
  have hb := b.toNat_lt
  simp only [UInt32.toNat_sub, UInt32.toNat_add] at h ⊢
  omega

/-! ## Residues of unbounded totals -/

/-- Two residues differ by the true lead when that lead fits a counter. -/
lemma toNat_ofNat_sub {m n : Nat} (hle : n ≤ m) (hlt : m - n < 2 ^ 32) :
    (UInt32.ofNat m - UInt32.ofNat n).toNat = m - n := by
  simp only [UInt32.toNat_sub, UInt32.toNat_ofNat']
  omega

lemma ofNat_toNat_add (m : Nat) (c : UInt32) : UInt32.ofNat m + c = UInt32.ofNat (m + c.toNat) := by
  rw [UInt32.ofNat_add, UInt32.ofNat_toNat]

/-! ## Counters in flight -/

/-- The values `ws` are residues of totals that rise from `lo` to `hi`. -/
inductive Rising : Nat → List UInt32 → Nat → Prop where
  | nil {lo hi : Nat} : lo ≤ hi → Rising lo [] hi
  | cons {lo m hi : Nat} {ws : List UInt32} :
      lo ≤ m → Rising m ws hi → Rising lo (UInt32.ofNat m :: ws) hi

namespace Rising

variable {lo lo' m hi hi' : Nat} {w : UInt32} {ws ws' : List UInt32}

lemma le (h : Rising lo ws hi) : lo ≤ hi := by
  induction h with
  | nil hle => exact hle
  | cons hle _ ih => exact Nat.le_trans hle ih

lemma raise (h : Rising lo ws hi) (hle : hi ≤ hi') : Rising lo ws hi' := by
  induction h with
  | nil hlo => exact Rising.nil (Nat.le_trans hlo hle)
  | cons hm _ ih => exact Rising.cons hm (ih hle)

lemma lower (h : Rising lo ws hi) (hle : lo' ≤ lo) : Rising lo' ws hi := by
  cases h with
  | nil hlo => exact Rising.nil (Nat.le_trans hle hlo)
  | cons hm hrest => exact Rising.cons (Nat.le_trans hle hm) hrest

lemma push (h : Rising lo ws hi) : Rising lo (ws ++ [UInt32.ofNat hi]) hi := by
  induction h with
  | nil hle => exact Rising.cons hle (Rising.nil (Nat.le_refl _))
  | cons hm _ ih => exact Rising.cons hm ih

lemma sublist (h : Rising lo ws hi) (hsub : ws'.Sublist ws) : Rising lo ws' hi := by
  induction h generalizing ws' with
  | nil hle =>
    rw [List.sublist_nil.1 hsub]
    exact Rising.nil hle
  | cons hm hrest ih =>
    cases hsub with
    | cons _ hsub => exact (ih hsub).lower hm
    | cons_cons _ hsub => exact Rising.cons hm (ih hsub)

lemma uncons (h : Rising lo (w :: ws) hi) : ∃ m, lo ≤ m ∧ m ≤ hi ∧ w = UInt32.ofNat m ∧
    Rising m ws hi := by
  cases h with
  | @cons _ m _ _ hm hrest => exact ⟨m, hm, hrest.le, rfl, hrest⟩

end Rising

end Terrarium.Counter
