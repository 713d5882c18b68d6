import Mathlib.Data.Finset.Card
import Mathlib.Data.Finset.Union
import Mathlib.Data.Fintype.EquivFin

/-!
# Worklist — a search that visits every item once

A search keeps a stack of pending items and the set of items it has seen.  Visiting an item yields
values and further items, or fails.

* `explore` — the search, with fuel; `none` is a failed visit or no fuel;
* `search` — the same search with an accumulator and errors, where some items are ignored.

A finished search is closed (`explore_closed`), more fuel and a more defined visit do not change its
result (`explore_mono`), and it finishes on a finite set of items on which visits succeed
(`explore_terminates`).  For `search` there is an invariant rule (`search_rule`), and it always
finishes when there are finitely many items (`search_terminates`).
-/

namespace Terrarium.Worklist

variable {α β γ : Type}

/-- What a visit yields: values, and items to visit, the next one first. -/
structure Yield (α β : Type) where
  values : Finset β
  items : List α

section Collect

variable [DecidableEq β]

/-- The yields of all sources; items of later sources come first, as on a stack. -/
def collect (yield : γ → Option (Yield α β)) : List γ → Option (Yield α β)
  | [] => some ⟨∅, []⟩
  | source :: sources => do
      let first ← yield source
      let rest ← collect yield sources
      return ⟨first.values ∪ rest.values, rest.items ++ first.items⟩

variable {yield : γ → Option (Yield α β)} {sources : List γ}

lemma mem_of_collect {all : Yield α β} (h : collect yield sources = some all) :
    (∀ source ∈ sources, ∃ y, yield source = some y ∧ y.values ⊆ all.values ∧
      ∀ item ∈ y.items, item ∈ all.items) ∧
    (∀ item ∈ all.items, ∃ source ∈ sources, ∃ y, yield source = some y ∧ item ∈ y.items) := by
  induction sources generalizing all with
  | nil =>
    simp only [collect, Option.some.injEq] at h
    subst h
    simp
  | cons source sources ih =>
    simp only [collect, Option.bind_eq_bind, Option.bind_eq_some_iff, Option.pure_def,
      Option.some.injEq] at h
    obtain ⟨first, hfirst, rest, hrest, rfl⟩ := h
    obtain ⟨hkept, hadded⟩ := ih hrest
    constructor
    · intro source' hsource'
      rcases List.mem_cons.1 hsource' with rfl | hsource'
      · exact ⟨first, hfirst, Finset.subset_union_left,
          fun item hitem => List.mem_append_right _ hitem⟩
      · obtain ⟨y, hy, hvalues, hitems⟩ := hkept source' hsource'
        exact ⟨y, hy, hvalues.trans Finset.subset_union_right,
          fun item hitem => List.mem_append_left _ (hitems item hitem)⟩
    · intro item hitem
      rcases List.mem_append.1 hitem with hitem | hitem
      · obtain ⟨source', hsource', y, hy⟩ := hadded item hitem
        exact ⟨source', List.mem_cons_of_mem _ hsource', y, hy⟩
      · exact ⟨source, List.mem_cons_self, first, hfirst, hitem⟩

lemma exists_collect (h : ∀ source ∈ sources, ∃ y, yield source = some y) :
    ∃ all, collect yield sources = some all := by
  induction sources with
  | nil => exact ⟨_, rfl⟩
  | cons source sources ih =>
    obtain ⟨first, hfirst⟩ := h source List.mem_cons_self
    obtain ⟨rest, hrest⟩ := ih fun s hs => h s (List.mem_cons_of_mem _ hs)
    exact ⟨_, by simp [collect, hfirst, hrest]; rfl⟩

lemma collect_mono {yield' : γ → Option (Yield α β)} {all : Yield α β}
    (hyield : ∀ source ∈ sources, ∀ y, yield source = some y → yield' source = some y)
    (h : collect yield sources = some all) : collect yield' sources = some all := by
  induction sources generalizing all with
  | nil => exact h
  | cons source sources ih =>
    simp only [collect, Option.bind_eq_bind, Option.bind_eq_some_iff, Option.pure_def,
      Option.some.injEq] at h ⊢
    obtain ⟨first, hfirst, rest, hrest, hall⟩ := h
    exact ⟨first, hyield source List.mem_cons_self first hfirst, rest,
      ih (fun s hs => hyield s (List.mem_cons_of_mem _ hs)) hrest, hall⟩

end Collect

/-! ## The search -/

/-- Every item seen was visited, its values are in `found` and its items are in `seen` or in
`pending`. -/
def Closed (visit : α → Option (Yield α β)) (seen : Finset α) (pending : List α)
    (found : Finset β) : Prop :=
  ∀ item ∈ seen, ∃ y, visit item = some y ∧ y.values ⊆ found ∧
    ∀ next ∈ y.items, next ∈ seen ∨ next ∈ pending

variable {visit visit' : α → Option (Yield α β)} {seen : Finset α} {pending : List α} {item : α}
  {found result : Finset β} {fuel fuel' : Nat}

lemma Closed.skip (h : Closed visit seen (item :: pending) found) (hseen : item ∈ seen) :
    Closed visit seen pending found := by
  intro seenItem hseenItem
  obtain ⟨y, hy, hvalues, hitems⟩ := h seenItem hseenItem
  refine ⟨y, hy, hvalues, fun next hnext => ?_⟩
  rcases hitems next hnext with hnext | hnext
  · exact Or.inl hnext
  · rcases List.mem_cons.1 hnext with rfl | hnext
    · exact Or.inl hseen
    · exact Or.inr hnext

variable [DecidableEq α] [DecidableEq β]

/-- Pops a pending item; visits it unless it was seen, and pushes what it yields. -/
def explore (visit : α → Option (Yield α β)) :
    Nat → Finset α → List α → Finset β → Option (Finset β)
  | 0, _, _, _ => none
  | _ + 1, _, [], found => some found
  | fuel + 1, seen, item :: pending, found =>
      if item ∈ seen then
        explore visit fuel seen pending found
      else do
        let y ← visit item
        explore visit fuel (insert item seen) (y.items ++ pending) (found ∪ y.values)

lemma Closed.visited {y : Yield α β} (h : Closed visit seen (item :: pending) found)
    (hy : visit item = some y) :
    Closed visit (insert item seen) (y.items ++ pending) (found ∪ y.values) := by
  intro seenItem hseenItem
  rcases Finset.mem_insert.1 hseenItem with rfl | hseenItem
  · exact ⟨y, hy, Finset.subset_union_right,
      fun next hnext => Or.inr (List.mem_append_left _ hnext)⟩
  · obtain ⟨y', hy', hvalues, hitems⟩ := h seenItem hseenItem
    refine ⟨y', hy', hvalues.trans Finset.subset_union_left, fun next hnext => ?_⟩
    rcases hitems next hnext with hnext | hnext
    · exact Or.inl (Finset.mem_insert_of_mem hnext)
    · rcases List.mem_cons.1 hnext with rfl | hnext
      · exact Or.inl (Finset.mem_insert_self _ _)
      · exact Or.inr (List.mem_append_right _ hnext)

/-- A finished search saw everything that was pending and is closed. -/
theorem explore_closed (hclosed : Closed visit seen pending found)
    (h : explore visit fuel seen pending found = some result) :
    ∃ all, (∀ item ∈ seen, item ∈ all) ∧
    (∀ item ∈ pending, item ∈ all) ∧ Closed visit all [] result := by
  induction fuel generalizing seen pending found with
  | zero => cases h
  | succ fuel ih =>
    cases pending with
    | nil =>
      cases h
      exact ⟨seen, fun _ hitem => hitem, fun _ hitem => absurd hitem List.not_mem_nil, hclosed⟩
    | cons item pending =>
      by_cases hseen : item ∈ seen
      · simp only [explore, if_pos hseen] at h
        obtain ⟨all, hall, hpending, hend⟩ := ih (hclosed.skip hseen) h
        refine ⟨all, hall, fun next hnext => ?_, hend⟩
        rcases List.mem_cons.1 hnext with rfl | hnext
        · exact hall next hseen
        · exact hpending next hnext
      · simp only [explore, if_neg hseen, Option.bind_eq_bind, Option.bind_eq_some_iff] at h
        obtain ⟨y, hy, h⟩ := h
        obtain ⟨all, hall, hpending, hend⟩ := ih (hclosed.visited hy) h
        refine ⟨all, fun next hnext => hall next (Finset.mem_insert_of_mem hnext),
          fun next hnext => ?_, hend⟩
        rcases List.mem_cons.1 hnext with rfl | hnext
        · exact hall next (Finset.mem_insert_self _ _)
        · exact hpending next (List.mem_append_right _ hnext)

lemma explore_closed_start {start : α} (h : explore visit fuel ∅ [start] ∅ = some result) :
    ∃ all, start ∈ all ∧ Closed visit all [] result := by
  have hempty : Closed visit ∅ [start] (∅ : Finset β) := nofun
  obtain ⟨all, -, hpending, hclosed⟩ := explore_closed hempty h
  exact ⟨all, hpending start List.mem_cons_self, hclosed⟩

lemma exists_succ_of_le (h : fuel + 1 ≤ fuel') : ∃ more, fuel' = more + 1 ∧ fuel ≤ more :=
  ⟨fuel' - 1, by omega, by omega⟩

theorem explore_mono (hvisit : ∀ item y, visit item = some y → visit' item = some y)
    (hfuel : fuel ≤ fuel') (h : explore visit fuel seen pending found = some result) :
    explore visit' fuel' seen pending found = some result := by
  induction fuel generalizing fuel' seen pending found with
  | zero => cases h
  | succ fuel ih =>
    obtain ⟨fuel', rfl, hle⟩ := exists_succ_of_le hfuel
    cases pending with
    | nil => exact h
    | cons item pending =>
      by_cases hseen : item ∈ seen
      · simp only [explore, if_pos hseen] at h ⊢
        exact ih hle h
      · simp only [explore, if_neg hseen, Option.bind_eq_bind, Option.bind_eq_some_iff] at h ⊢
        obtain ⟨y, hy, h⟩ := h
        exact ⟨y, hvisit item y hy, ih hle h⟩

/-- A search finishes on a finite set of items that visits do not leave and where they succeed. -/
theorem explore_terminates (seen : Finset α) (found : Finset β) {items : Finset α}
    (hvisit : ∀ item ∈ items, ∃ y, visit item = some y ∧ ∀ next ∈ y.items, next ∈ items)
    (hpending : ∀ item ∈ pending, item ∈ items) :
    ∃ fuel result, explore visit fuel seen pending found = some result := by
  -- A visit leaves fewer items to see; between two visits the pending items get fewer.
  induction hunseen : (items \ seen).card using Nat.strong_induction_on
    generalizing seen pending found with
  | _ unseen ih =>
    induction pending generalizing found with
    | nil => exact ⟨1, found, rfl⟩
    | cons item pending ihpending =>
      have htail := fun next hnext => hpending next (List.mem_cons_of_mem item hnext)
      by_cases hseen : item ∈ seen
      · obtain ⟨fuel, result, h⟩ := ihpending found htail
        exact ⟨fuel + 1, result, by simpa [explore, hseen] using h⟩
      · have hitem := hpending item List.mem_cons_self
        obtain ⟨y, hy, hitems⟩ := hvisit item hitem
        have hfewer : (items \ insert item seen).card < unseen := by
          rw [← hunseen, Finset.sdiff_insert]
          exact Finset.card_erase_lt_of_mem (Finset.mem_sdiff.2 ⟨hitem, hseen⟩)
        have hnext : ∀ next ∈ y.items ++ pending, next ∈ items :=
          List.forall_mem_append.2 ⟨hitems, htail⟩
        obtain ⟨fuel, result, h⟩ := ih _ hfewer _ _ hnext rfl
        exact ⟨fuel + 1, result, by simpa [explore, hseen, hy] using h⟩

/-! ## Searches with an accumulator -/

section Search

variable {ε σ : Type} (ignore : α → Bool) (step : σ → α → Except ε (σ × List α))

/-- Pops a pending item; unless it is ignored or was seen, visits it, which updates the accumulator
and gives items to push, or ends the search with an error. -/
def search : Nat → Finset α → List α → σ → Option (Except ε σ)
  | 0, _, _, _ => none
  | _ + 1, _, [], acc => some (.ok acc)
  | fuel + 1, seen, item :: pending, acc =>
      if ignore item = true ∨ item ∈ seen then
        search fuel seen pending acc
      else
        match step acc item with
        | .error e => some (.error e)
        | .ok (acc, items) => search fuel (insert item seen) (items ++ pending) acc

variable {ignore step}

/-- What popping and visiting preserve holds when the search ends without an error. -/
theorem search_rule (Inv : Finset α → List α → σ → Prop)
    (hskip : ∀ seen item pending acc, Inv seen (item :: pending) acc →
      (ignore item = true ∨ item ∈ seen) → Inv seen pending acc)
    (hvisit : ∀ seen item pending acc acc' items, Inv seen (item :: pending) acc →
      ignore item = false →
      step acc item = .ok (acc', items) → Inv (insert item seen) (items ++ pending) acc')
    {acc acc' : σ} (hinv : Inv seen pending acc)
    (h : search ignore step fuel seen pending acc = some (.ok acc')) : ∃ all, Inv all [] acc' := by
  induction fuel generalizing seen pending acc with
  | zero => cases h
  | succ fuel ih =>
    cases pending with
    | nil =>
      cases h
      exact ⟨seen, hinv⟩
    | cons item pending =>
      rw [search] at h
      split at h
      next hdrop => exact ih (hskip _ _ _ _ hinv hdrop) h
      next hdrop =>
        split at h
        · cases h
        next next hstep =>
          have hkeep : ignore item = false := by
            rw [not_or] at hdrop
            simpa using hdrop.1
          exact ih (hvisit _ _ _ _ _ _ hinv hkeep hstep) h

lemma search_mono {acc : σ} {result : Except ε σ} (hfuel : fuel ≤ fuel')
    (h : search ignore step fuel seen pending acc = some result) :
    search ignore step fuel' seen pending acc = some result := by
  induction fuel generalizing fuel' seen pending acc with
  | zero => cases h
  | succ fuel ih =>
    obtain ⟨fuel', rfl, hle⟩ := exists_succ_of_le hfuel
    cases pending with
    | nil => exact h
    | cons item pending =>
      by_cases hdrop : ignore item = true ∨ item ∈ seen
      · rw [search, if_pos hdrop] at h ⊢
        exact ih hle h
      · rw [search, if_neg hdrop] at h ⊢
        cases hstep : step acc item with
        | error e =>
          rw [hstep] at h
          exact h
        | ok next =>
          rw [hstep] at h
          exact ih hle h

theorem search_terminates [Finite α] (ignore : α → Bool) (step : σ → α → Except ε (σ × List α))
    (seen : Finset α)
    (pending : List α) (acc : σ) : ∃ fuel result, search ignore step fuel seen pending acc =
    some result := by
  have := Fintype.ofFinite α
  induction hunseen : (Finset.univ \ seen).card using Nat.strong_induction_on
    generalizing seen pending acc with
  | _ unseen ih =>
    induction pending with
    | nil => exact ⟨1, .ok acc, rfl⟩
    | cons item pending ihpending =>
      by_cases hdrop : ignore item = true ∨ item ∈ seen
      · obtain ⟨fuel, result, h⟩ := ihpending
        exact ⟨fuel + 1, result, by rw [search, if_pos hdrop]; exact h⟩
      · cases hstep : step acc item with
        | error e => exact ⟨1, .error e, by rw [search, if_neg hdrop, hstep]⟩
        | ok next =>
          have hnew : item ∈ Finset.univ \ seen :=
            Finset.mem_sdiff.2 ⟨Finset.mem_univ _, (not_or.1 hdrop).2⟩
          have hfewer : (Finset.univ \ insert item seen).card < unseen := by
            rw [← hunseen, Finset.sdiff_insert]
            exact Finset.card_erase_lt_of_mem hnew
          obtain ⟨fuel, result, h⟩ := ih _ hfewer (insert item seen) (next.2 ++ pending) next.1 rfl
          exact ⟨fuel + 1, result, by rw [search, if_neg hdrop, hstep]; exact h⟩

end Search

end Terrarium.Worklist
