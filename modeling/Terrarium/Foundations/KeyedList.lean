import Mathlib.Data.List.Nodup

/-!
# KeyedList — a vector of records searched by a key

Many components keep a small vector of records and search it by a key that is meant to be unique.
`lookup` is what such a vector means: a partial map from keys to records.  This file says how the
vector operations (`set`, `eraseIdx`, push, a sweep over all entries) act on that map.

* `lookup` — the partial map.
-/

namespace Terrarium.KeyedList

variable {α κ ν : Type} [DecidableEq κ] (key : α → κ)

/-! ## Searching -/

def locate : List α → κ → Option (Nat × α)
  | [], _ => none
  | a :: l, k => if key a = k then some (0, a) else (locate l k).map fun r => (r.1 + 1, r.2)

def lookup (l : List α) (k : κ) : Option α :=
  (locate key l k).map Prod.snd

variable {key} {l : List α} {k : κ} {i : Nat} {a : α}

@[simp]
lemma lookup_nil (k : κ) : lookup key [] k = none := rfl

lemma lookup_cons (a : α) (l : List α) (k : κ) :
    lookup key (a :: l) k = if key a = k then some a else lookup key l k := by
  by_cases h : key a = k
  · simp [lookup, locate, h]
  · simp [lookup, locate, h, Function.comp_def]

lemma lookup_eq_find? (l : List α) (k : κ) : lookup key l k = l.find? fun a => key a = k := by
  induction l with
  | nil => rfl
  | cons a l ih =>
    by_cases h : key a = k
    · simp [lookup_cons, h]
    · simp [lookup_cons, h, ih]

lemma locate_eq_none_iff : locate key l k = none ↔ lookup key l k = none := by
  simp [lookup]

lemma lookup_of_locate (h : locate key l k = some (i, a)) : lookup key l k = some a := by
  simp [lookup, h]

lemma locate_split : locate key l k = some (i, a) →
      ∃ before after, l = before ++ a :: after ∧ before.length = i ∧ key a = k ∧
      ∀ b ∈ before, key b ≠ k := by
  induction l generalizing i with
  | nil =>
    intro h
    simp [locate] at h
  | cons b l ih =>
    intro h
    by_cases hb : key b = k
    · simp only [locate, hb, if_true, Option.some.injEq, Prod.mk.injEq] at h
      obtain ⟨rfl, rfl⟩ := h
      exact ⟨[], l, by simp [hb]⟩
    · simp only [locate, hb, if_false, Option.map_eq_some_iff, Prod.mk.injEq] at h
      obtain ⟨⟨j, c⟩, hloc, rfl, rfl⟩ := h
      obtain ⟨before, after, rfl, rfl, hkey, hbefore⟩ := ih hloc
      refine ⟨b :: before, after, rfl, rfl, hkey, ?_⟩
      intro c hc
      rcases List.mem_cons.1 hc with rfl | hc
      · exact hb
      · exact hbefore c hc

lemma lookup_append (l₁ l₂ : List α) (k : κ) :
    lookup key (l₁ ++ l₂) k = (lookup key l₁ k).or (lookup key l₂ k) := by
  simp only [lookup_eq_find?, List.find?_append]

lemma lookup_eq_none_of_forall (h : ∀ a ∈ l, key a ≠ k) : lookup key l k = none := by
  rw [lookup_eq_find?, List.find?_eq_none]
  simpa using h

lemma lookup_eq_none_iff : lookup key l k = none ↔ k ∉ l.map key := by
  rw [lookup_eq_find?, List.find?_eq_none]
  simp

lemma mem_of_lookup (h : lookup key l k = some a) : a ∈ l ∧ key a = k := by
  rw [lookup_eq_find?] at h
  exact ⟨List.mem_of_find?_eq_some h, by simpa using List.find?_some h⟩

lemma lookup_of_mem (hnd : (l.map key).Nodup) (ha : a ∈ l) : lookup key l (key a) = some a := by
  cases hb : lookup key l (key a) with
  | none => exact absurd (List.mem_map_of_mem ha) (lookup_eq_none_iff.1 hb)
  | some b =>
    obtain ⟨hmem, hkey⟩ := mem_of_lookup hb
    rw [List.inj_on_of_nodup_map hnd hmem ha hkey]

lemma locate_of_getElem? (hnd : (l.map key).Nodup) (hi : l[i]? = some a) :
    locate key l (key a) = some (i, a) := by
  induction l generalizing i with
  | nil => simp at hi
  | cons b l ih =>
    rw [List.map_cons, List.nodup_cons] at hnd
    cases i with
    | zero =>
      simp only [List.getElem?_cons_zero, Option.some.injEq] at hi
      subst hi
      simp [locate]
    | succ i =>
      have hne : key b ≠ key a := by
        intro heq
        exact hnd.1 (heq ▸ List.mem_map_of_mem (List.mem_of_getElem? hi))
      simp [locate, hne, ih hnd.2 hi]

/-! ## Updating -/

/-- Overwriting a located entry, under the same key, overwrites the map at that key only. -/
lemma lookup_set {a a' : α} (h : locate key l k = some (i, a)) (ha' : key a' = k) (k' : κ) :
    lookup key (l.set i a') k' = if k' = k then some a' else lookup key l k' := by
  obtain ⟨before, after, rfl, rfl, ha, hbefore⟩ := locate_split h
  rw [List.set_append_right _ _ (Nat.le_refl _), Nat.sub_self, List.set_cons_zero]
  by_cases hk : k' = k
  · subst hk
    simp [lookup_append, lookup_eq_none_of_forall hbefore, lookup_cons, ha']
  · have hne : ¬ k = k' := fun heq => hk heq.symm
    simp [lookup_append, lookup_cons, ha, ha', hk, hne]

lemma map_set_of_eq {γ : Type} {g : α → γ} {a a' : α} (h : locate key l k = some (i, a))
    (hg : g a' = g a) : (l.set i a').map g = l.map g := by
  obtain ⟨before, after, rfl, rfl, -, -⟩ := locate_split h
  rw [List.set_append_right _ _ (Nat.le_refl _), Nat.sub_self, List.set_cons_zero]
  simp [hg]

lemma map_key_set {a a' : α} (h : locate key l k = some (i, a)) (ha' : key a' = k) :
    (l.set i a').map key = l.map key := by
  obtain ⟨-, -, -, -, ha, -⟩ := locate_split h
  exact map_set_of_eq h (ha'.trans ha.symm)

lemma lookup_push (h : lookup key l (key a) = none) (k : κ) :
    lookup key (l ++ [a]) k = if k = key a then some a else lookup key l k := by
  by_cases hk : k = key a
  · subst hk
    simp [lookup_append, h, lookup_cons]
  · have hne : ¬ key a = k := fun heq => hk heq.symm
    simp [lookup_append, lookup_cons, hk, hne]

/-- Removing a located entry removes its key from the map, provided keys are unique. -/
lemma lookup_eraseIdx (hnd : (l.map key).Nodup) (h : locate key l k = some (i, a)) (k' : κ) :
    lookup key (l.eraseIdx i) k' = if k' = k then none else lookup key l k' := by
  obtain ⟨before, after, rfl, rfl, ha, hbefore⟩ := locate_split h
  rw [List.eraseIdx_append_of_length_le (Nat.le_refl _), Nat.sub_self, List.eraseIdx_cons_zero]
  by_cases hk : k' = k
  · subst hk
    have hafter : lookup key after k' = none := by
      rw [lookup_eq_none_iff, ← ha]
      rw [List.map_append, List.map_cons] at hnd
      exact (List.nodup_cons.1 (List.nodup_append.1 hnd).2.1).1
    simp [lookup_append, lookup_eq_none_of_forall hbefore, hafter]
  · have hne : ¬ k = k' := fun heq => hk heq.symm
    simp [lookup_append, lookup_cons, ha, hk, hne]

/-! ## Sweeping -/

def sweep (f : ν → α → α × ν) : ν → List α → List α × ν
  | n, [] => ([], n)
  | n, a :: l =>
      let r := f n a
      let rest := sweep f r.2 l
      (r.1 :: rest.1, rest.2)

lemma sweep_length (f : ν → α → α × ν) (n : ν) (l : List α) :
    (sweep f n l).1.length = l.length := by
  induction l generalizing n with
  | nil => rfl
  | cons a l ih => simp [sweep, ih]

omit [DecidableEq κ] in
lemma map_key_sweep {f : ν → α → α × ν} (hf : ∀ n a, key (f n a).1 = key a) (n : ν)
    (l : List α) : (sweep f n l).1.map key = l.map key := by
  induction l generalizing n with
  | nil => rfl
  | cons a l ih => simp [sweep, hf, ih]

section Counter

variable {f : Nat → α → α × Nat}

lemma le_sweep (hmono : ∀ n a, n ≤ (f n a).2) (n : Nat) (l : List α) : n ≤ (sweep f n l).2 := by
  induction l generalizing n with
  | nil => exact Nat.le_refl n
  | cons a l ih => exact Nat.le_trans (hmono n a) (ih _)

/-- A sweep changes each record by one visit, at some counter value of the sweep. -/
lemma lookup_sweep (hf : ∀ n a, key (f n a).1 = key a) (hmono : ∀ n a, n ≤ (f n a).2)
    (n : Nat) (l : List α) (k : κ) :
    ∃ m, n ≤ m ∧ lookup key (sweep f n l).1 k = (lookup key l k).map (fun a => (f m a).1) := by
  induction l generalizing n with
  | nil => exact ⟨n, Nat.le_refl n, rfl⟩
  | cons a l ih =>
    by_cases ha : key a = k
    · refine ⟨n, Nat.le_refl n, ?_⟩
      simp [sweep, lookup_cons, hf, ha]
    · obtain ⟨m, hm, hlook⟩ := ih (f n a).2
      refine ⟨m, Nat.le_trans (hmono n a) hm, ?_⟩
      simp [sweep, lookup_cons, hf, ha, hlook]

end Counter

end Terrarium.KeyedList
