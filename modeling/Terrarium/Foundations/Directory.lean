import Mathlib.Data.List.Basic

/-!
# Directory — a finite map from names to contents

A directory is a list of named entries of which the first one under a name counts.  Unlike a
function it can be enumerated: it may be empty, and part of it can be removed.
-/

namespace Terrarium.Directory

variable {κ ν : Type} [DecidableEq κ]

def find (entries : List (κ × ν)) (name : κ) : Option ν :=
  (entries.find? fun entry => entry.1 = name).map Prod.snd

def keep (kept : κ → Bool) (entries : List (κ × ν)) : List (κ × ν) :=
  entries.filter fun entry => kept entry.1

def erase (name : κ) (entries : List (κ × ν)) : List (κ × ν) :=
  keep (fun other => other ≠ name) entries

def insert (name : κ) (contents : ν) (entries : List (κ × ν)) : List (κ × ν) :=
  (name, contents) :: erase name entries

variable {entries : List (κ × ν)} {name other : κ}

@[simp] lemma find_nil : find ([] : List (κ × ν)) name = none := rfl

lemma find_keep (kept : κ → Bool) :
    find (keep kept entries) name = if kept name then find entries name else none := by
  induction entries with
  | nil => simp [keep]
  | cons entry entries ih =>
    simp only [keep] at ih ⊢
    by_cases hname : entry.1 = name
    · cases hkept : kept name with
      | true => simp [find, hname, hkept]
      | false => simpa [List.filter_cons, hname, hkept] using ih
    · cases hkept : kept entry.1 with
      | true | false => simpa [find, List.filter_cons, hname, hkept] using ih

@[simp] lemma find_erase : find (erase name entries) other = if other = name then none
    else find entries other := by
  rw [erase, find_keep]
  by_cases h : other = name <;> simp [h]

@[simp] lemma find_insert {contents : ν} : find (insert name contents entries) other =
      if other = name then some contents else find entries other := by
  by_cases h : other = name
  · simp [insert, find, h]
  · have hne : ¬ name = other := fun heq => h heq.symm
    have herase : find (erase name entries) other = find entries other := by
      rw [find_erase, if_neg h]
    simpa [insert, find, h, hne] using herase

lemma mem_of_find {contents : ν} (h : find entries name = some contents) :
    (name, contents) ∈ entries := by
  obtain ⟨entry, hentry, rfl⟩ := Option.map_eq_some_iff.1 h
  have hname : entry.1 = name := by simpa using List.find?_some hentry
  rw [← hname]
  exact List.mem_of_find?_eq_some hentry

lemma find_eq_some_iff (hnodup : (entries.map Prod.fst).Nodup) {contents : ν} :
    find entries name = some contents ↔ (name, contents) ∈ entries := by
  refine ⟨mem_of_find, ?_⟩
  intro hmem
  induction entries with
  | nil => cases hmem
  | cons entry entries ih =>
    rw [List.map_cons, List.nodup_cons] at hnodup
    rcases List.mem_cons.1 hmem with rfl | hmem
    · simp [find]
    · have hne : ¬ entry.1 = name := by
        rintro rfl
        exact hnodup.1 (List.mem_map.2 ⟨_, hmem, rfl⟩)
      simpa [find, hne] using ih hnodup.2 hmem

lemma find_tabulate (names : List κ) (contents : κ → ν) :
    find (names.map fun name => (name, contents name)) name =
      if name ∈ names then some (contents name) else none := by
  induction names with
  | nil => rfl
  | cons head names ih =>
    by_cases h : head = name
    · simp [find, h]
    · have hne : ¬ name = head := fun heq => h heq.symm
      simpa [find, h, hne] using ih

lemma find_map_contents {ν' : Type} (f : κ → ν → ν') :
    find (entries.map fun entry => (entry.1, f entry.1 entry.2)) name =
    (find entries name).map (f name) := by
  induction entries with
  | nil => rfl
  | cons entry entries ih =>
    by_cases h : entry.1 = name
    · simp [find, h]
    · simpa [find, h] using ih

lemma find_ne_none_of_mem {entry : κ × ν} (h : entry ∈ entries) : find entries entry.1 ≠ none := by
  intro hnone
  have hfind := Option.map_eq_none_iff.1 hnone
  have hne := List.find?_eq_none.1 hfind entry h
  simp at hne

lemma eq_nil_of_find_eq_none (h : ∀ name, find entries name = none) : entries = [] := by
  cases entries with
  | nil => rfl
  | cons entry entries =>
    have hfound := h entry.1
    simp [find] at hfound

end Terrarium.Directory
