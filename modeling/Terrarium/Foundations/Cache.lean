import Terrarium.Foundations.Directory

/-!
# Cache — bounded maps that may forget

A bounded cache is a finite map that drops entries of its own choosing when it is full.  Clients
rely on what it never does: it returns no value that was not stored under that key, and looking a
key up changes no entry.

* `Cache` — the operations and the laws clients use.
-/

namespace Terrarium

/-- A cache `C` from keys `κ` to values `ν`.  `peek` is its content; every other operation is
described by what it does to the content. -/
class Cache (C : Type) (κ ν : outParam Type) where
  new : Nat → C
  peek : C → κ → Option ν
  get : C → κ → Option ν × C
  /-- Look a key up, mark it as used and change its value in place. -/
  modify : C → κ → (ν → ν) → C
  /-- Store a value, dropping another entry when there is no room. -/
  put : C → κ → ν → C
  pop : C → κ → C
  peek_new : ∀ n k, peek (new n) k = none
  get_fst : ∀ c k, (get c k).1 = peek c k
  peek_get : ∀ c k k', peek (get c k).2 k' = peek c k'
  peek_modify : ∀ {c k f k' v}, peek (modify c k f) k' = some v →
    peek c k' = some v ∨ k' = k ∧ ∃ u, peek c k = some u ∧ v = f u
  peek_put : ∀ {c k v k' v'}, peek (put c k v) k' = some v' →
    peek c k' = some v' ∨ k' = k ∧ v' = v
  peek_pop : ∀ {c k k' v}, peek (pop c k) k' = some v → peek c k' = some v

/-! ## Least recently used -/

/-- A least-recently-used cache; the most recent entry comes first. -/
structure LruList (κ ν : Type) where
  capacity : Nat
  entries : List (κ × ν)
  deriving DecidableEq

namespace LruList

variable {κ ν : Type} [DecidableEq κ]

def peek (c : LruList κ ν) (k : κ) : Option ν :=
  c.entries.lookup k

def pop (c : LruList κ ν) (k : κ) : LruList κ ν :=
  { c with entries := c.entries.filter fun e => e.1 ≠ k }

def put (c : LruList κ ν) (k : κ) (v : ν) : LruList κ ν :=
  { c with entries := ((k, v) :: (c.pop k).entries).take c.capacity }

def modify (c : LruList κ ν) (k : κ) (f : ν → ν) : LruList κ ν :=
  match c.peek k with
  | none => c
  | some v => { c with entries := (k, f v) :: (c.pop k).entries }

lemma peek_cons (n : Nat) (k k' : κ) (v : ν) (es : List (κ × ν)) :
    peek ⟨n, (k, v) :: es⟩ k' = if k' = k then some v else peek ⟨n, es⟩ k' := by
  simp only [peek, List.lookup_cons]
  by_cases h : k' = k
  · simp [h]
  · simp [h, beq_eq_false_iff_ne.2 h]

lemma peek_eq_find (c : LruList κ ν) (k : κ) : c.peek k = Directory.find c.entries k := by
  obtain ⟨n, es⟩ := c
  induction es with
  | nil => rfl
  | cons e es ih =>
    rw [peek_cons, ih]
    by_cases h : k = e.1
    · simp [Directory.find, h]
    · simp [Directory.find, h, Ne.symm h]

lemma peek_pop (c : LruList κ ν) (k k' : κ) : (c.pop k).peek k' = if k' = k then none
    else c.peek k' := by
  rw [peek_eq_find, peek_eq_find]
  exact Directory.find_erase

lemma peek_take {n m : Nat} {es : List (κ × ν)} {k : κ} {v : ν}
    (h : peek ⟨n, es.take m⟩ k = some v) : peek ⟨n, es⟩ k = some v := by
  rw [peek_eq_find] at h ⊢
  obtain ⟨entry, hfind, heq⟩ := Option.map_eq_some_iff.1 h
  exact Option.map_eq_some_iff.2 ⟨entry, (List.take_prefix m es).find?_eq_some hfind, heq⟩

lemma peek_modify (c : LruList κ ν) (k k' : κ) (f : ν → ν) :
    (c.modify k f).peek k' = if k' = k then (c.peek k).map f else c.peek k' := by
  rw [modify]
  cases hv : c.peek k with
  | none =>
    by_cases hk : k' = k
    · rw [if_pos hk, hk]
      exact hv
    · rw [if_neg hk]
  | some v =>
    have hrest : peek ⟨c.capacity, (c.pop k).entries⟩ k' = (c.pop k).peek k' := rfl
    rw [peek_cons, hrest, peek_pop]
    split_ifs
    · rfl
    · rfl

instance : Cache (LruList κ ν) κ ν where
  new n := ⟨n, []⟩
  peek := peek
  get c k := (c.peek k, c.modify k id)
  modify := modify
  put := put
  pop := pop
  peek_new _ _ := rfl
  get_fst _ _ := rfl
  peek_get c k k' := by
    rw [peek_modify, Option.map_id]
    split
    next hk =>
      rw [hk]
      rfl
    · rfl
  peek_modify := by
    intro c k f k' v h
    rw [LruList.peek_modify] at h
    split at h
    next hk =>
      obtain ⟨u, hu, hv⟩ := Option.map_eq_some_iff.1 h
      exact Or.inr ⟨hk, u, hu, hv.symm⟩
    · exact Or.inl h
  peek_put := by
    intro c k v k' v' h
    have hall := peek_take h
    rw [peek_cons] at hall
    split at hall
    next hk => exact Or.inr ⟨hk, (Option.some.inj hall).symm⟩
    next hk =>
      have hpop : (c.pop k).peek k' = some v' := hall
      rw [LruList.peek_pop, if_neg hk] at hpop
      exact Or.inl hpop
  peek_pop := by
    intro c k k' v h
    rw [LruList.peek_pop] at h
    split at h
    · cases h
    · exact h

end LruList

end Terrarium
