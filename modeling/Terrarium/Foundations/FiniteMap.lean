import Mathlib.Data.Finmap
import Mathlib.Data.Finset.Max

/-!
# FiniteMap — sizes of finite maps, and their first keys

Additions to Mathlib's `Finmap` for maps whose size is bounded.
-/

namespace Terrarium.FiniteMap

variable {κ ν : Type} [DecidableEq κ]

abbrev Map (κ ν : Type) := Finmap fun _ : κ => ν

def size (m : Map κ ν) : Nat := m.keys.card

variable {m : Map κ ν} {k : κ} {v : ν}

@[simp] lemma keys_insert (m : Map κ ν) (k : κ) (v : ν) :
    (m.insert k v).keys = insert k m.keys := by
  ext k'
  rw [Finmap.mem_keys, Finmap.mem_insert, Finset.mem_insert, Finmap.mem_keys]

lemma size_insert_of_notMem (h : k ∉ m) (v : ν) : size (m.insert k v) = size m + 1 := by
  rw [size, keys_insert, Finset.card_insert_of_notMem (by rwa [Finmap.mem_keys]), size]

lemma size_insert_of_mem (h : k ∈ m) (v : ν) : size (m.insert k v) = size m := by
  rw [size, keys_insert, Finset.insert_eq_self.2 (by rwa [Finmap.mem_keys]), size]

lemma size_erase_of_mem (h : k ∈ m) : size (m.erase k) + 1 = size m := by
  rw [size, Finmap.keys_erase, Finset.card_erase_add_one (by rwa [Finmap.mem_keys]), size]

lemma size_erase_le (m : Map κ ν) (k : κ) : size (m.erase k) ≤ size m := by
  rw [size, Finmap.keys_erase]
  exact Finset.card_erase_le

lemma mem_of_lookup (h : m.lookup k = some v) : k ∈ m := Finmap.mem_of_lookup_eq_some h

lemma lookup_insert_iff {k' : κ} {v' : ν} :
    (m.insert k v).lookup k' = some v' ↔ k' = k ∧ v' = v ∨ k' ≠ k ∧ m.lookup k' = some v' := by
  by_cases heq : k' = k
  · subst heq
    simp [Finmap.lookup_insert, eq_comm]
  · simp [Finmap.lookup_insert_of_ne _ heq, heq]

lemma lookup_erase_iff {k' : κ} {v' : ν} :
    (m.erase k).lookup k' = some v' ↔ k' ≠ k ∧ m.lookup k' = some v' := by
  by_cases heq : k' = k
  · subst heq
    simp [Finmap.lookup_erase]
  · simp [Finmap.lookup_erase_ne heq, heq]

section PopFirst

variable [LinearOrder κ]

def popFirst (m : Map κ ν) : Map κ ν :=
  match m.keys.min with
  | ⊤ => m
  | (k : κ) => m.erase k

lemma size_popFirst_lt (h : 0 < size m) : size (popFirst m) < size m := by
  obtain ⟨k, hk⟩ := Finset.min_of_nonempty (Finset.card_pos.1 h)
  have hmem : k ∈ m := Finmap.mem_keys.1 (Finset.mem_of_min hk)
  have herase := size_erase_of_mem hmem
  unfold popFirst
  rw [hk]
  exact Nat.lt_of_succ_le herase.le

end PopFirst

end Terrarium.FiniteMap
