import Mathlib.Algebra.Order.Ring.Nat
import Mathlib.Data.List.Basic

/-!
# Rotation — a cursor that goes round a number of slots

A scan looks at the slots from the cursor on and takes what the first of them gives.  When the
cursor is then set behind that slot, every slot that has something gets its turn.

* `scan_approaches` — a scan takes from a slot that has something, or brings the cursor closer to
  it.
-/

namespace Terrarium.Rotation

variable {α : Type} {count cursor slot offset : Nat} {give : Nat → Option α} {a : α}

def scan (count cursor : Nat) (give : Nat → Option α) : Option α :=
  (List.range count).findSome? fun offset => give ((cursor + offset) % count)

def distance (count cursor slot : Nat) : Nat :=
  (slot + count - cursor % count) % count

lemma distance_lt (cursor : Nat) (hslot : slot < count) : distance count cursor slot < count :=
  Nat.mod_lt _ (Nat.zero_lt_of_lt hslot)

lemma add_distance_mod (cursor : Nat) (hslot : slot < count) :
    (cursor + distance count cursor slot) % count = slot := by
  have hcursor : cursor % count < count := Nat.mod_lt _ (Nat.zero_lt_of_lt hslot)
  have hsum : cursor % count + (slot + count - cursor % count) = slot + count := by omega
  rw [distance, Nat.add_mod_mod, ← Nat.mod_add_mod, hsum, Nat.add_mod_right, Nat.mod_eq_of_lt hslot]

lemma distance_of_mod (hoffset : offset < count) (hmod : (cursor + offset) % count = slot) :
    distance count cursor slot = offset := by
  have hcursor : cursor % count < count := Nat.mod_lt _ (Nat.zero_lt_of_lt hoffset)
  rw [← Nat.mod_add_mod] at hmod
  rw [distance]
  -- The slot lies before the wrap or behind it.
  by_cases hwrap : cursor % count + offset < count
  · rw [Nat.mod_eq_of_lt hwrap] at hmod
    have hsum : slot + count - cursor % count = offset + count := by omega
    rw [hsum, Nat.add_mod_right, Nat.mod_eq_of_lt hoffset]
  · rw [Nat.mod_eq_sub_mod (Nat.le_of_not_lt hwrap), Nat.mod_eq_of_lt (by omega)] at hmod
    have hsum : slot + count - cursor % count = offset := by omega
    rw [hsum, Nat.mod_eq_of_lt hoffset]

lemma of_scan (h : scan count cursor give = some a) : ∃ slot, give slot = some a := by
  obtain ⟨offset, -, hgive⟩ := List.exists_of_findSome?_eq_some h
  exact ⟨_, hgive⟩

lemma give_of_scan (h : scan count cursor give = none) (hslot : slot < count) :
    give slot = none := by
  have hnone := List.findSome?_eq_none_iff.1 h _ (List.mem_range.2 (distance_lt cursor hslot))
  rwa [add_distance_mod cursor hslot] at hnone

theorem scan_approaches (cursor : Nat) (hslot : slot < count) (hgive : give slot ≠ none) :
    ∃ found a, scan count cursor give = some a ∧ found < count ∧ give found = some a ∧
      (found = slot ∨ distance count (found + 1) slot < distance count cursor slot) := by
  have hdistance := distance_lt cursor hslot
  have hmod := add_distance_mod cursor hslot
  cases hscan : scan count cursor give with
  | none => exact absurd (give_of_scan hscan hslot) hgive
  | some a =>
    obtain ⟨before, offset, after, hrange, hfound, hbefore⟩ := List.findSome?_eq_some_iff.1 hscan
    obtain ⟨rfl, hlt⟩ : before.length = offset ∧ offset < count := by
      have hget := congrArg (fun offsets : List Nat => offsets[before.length]?) hrange
      simp only [List.getElem?_append_right (Nat.le_refl _), Nat.sub_self, List.getElem?_cons_zero,
        List.getElem?_eq_some_iff, List.getElem_range, List.length_range] at hget
      obtain ⟨hlt, heq⟩ := hget
      exact ⟨heq, heq ▸ hlt⟩
    refine ⟨_, a, rfl, Nat.mod_lt _ (Nat.zero_lt_of_lt hlt), hfound, ?_⟩
    rcases Nat.lt_trichotomy before.length (distance count cursor slot) with hless | heq | hmore
    · -- The cursor moves on to the slot behind the one that gave.
      have hrest : (((cursor + before.length) % count + 1) +
          (distance count cursor slot - before.length - 1)) % count = slot := by
        have hsum :
            cursor + before.length + (1 + (distance count cursor slot - before.length - 1)) =
            cursor + distance count cursor slot := by omega
        rw [Nat.add_assoc, Nat.mod_add_mod, hsum, hmod]
      rw [distance_of_mod (by omega) hrest]
      exact Or.inr (by omega)
    · exact Or.inl (heq ▸ hmod)
    · -- The slot itself would have been found first.
      have hmem : distance count cursor slot ∈ before := by
        have hget :=
          congrArg (fun offsets : List Nat => offsets[distance count cursor slot]?) hrange
        simp only [List.getElem?_append_left hmore, List.getElem?_range hdistance] at hget
        exact List.mem_of_getElem? hget.symm
      have hnone := hbefore _ hmem
      rw [hmod] at hnone
      exact absurd hnone hgive

end Terrarium.Rotation
