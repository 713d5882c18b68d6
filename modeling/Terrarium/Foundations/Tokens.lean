import Mathlib.Data.List.Flatten
import Terrarium.Foundations.KeyedList

/-!
# Tokens — numbers issued from one growing counter

A vector of holders, each holding a few tokens; every new token is taken from one counter that only
grows.  As long as holders only keep their own tokens or take fresh ones, no token is ever held
twice.

* `Issued` — all tokens held are distinct and below the counter;
* `Issued.replace`, `.push`, `.remove`, `.sweep` — the vector operations keep `Issued`.
-/

namespace Terrarium.Tokens

variable {α : Type} {tokens : α → List Nat} {before after l : List α} {a a' : α} {n n' : Nat}

/-- The tokens held by `l` are distinct, and were all issued below `next`. -/
structure Issued (tokens : α → List Nat) (l : List α) (next : Nat) : Prop where
  nodup : (l.flatMap tokens).Nodup
  below : ∀ m ∈ l.flatMap tokens, m < next

/-- A holder goes from `ts` to `ts'` while the counter goes from `n` to `n'`. -/
structure Refresh (n n' : Nat) (ts ts' : List Nat) : Prop where
  mono : n ≤ n'
  nodup : ts.Nodup → (∀ m ∈ ts, m < n) → ts'.Nodup
  fresh : ∀ m ∈ ts', m ∈ ts ∨ n ≤ m ∧ m < n'

lemma Refresh.refl (n : Nat) (ts : List Nat) : Refresh n n ts ts :=
  ⟨Nat.le_refl n, fun hnd _ => hnd, fun _ hm => Or.inl hm⟩

theorem Issued.replace (h : Issued tokens (before ++ a :: after) n)
    (hr : Refresh n n' (tokens a) (tokens a')) : Issued tokens (before ++ a' :: after) n' := by
  obtain ⟨hnd, hlt⟩ := h
  simp only [List.flatMap_append, List.flatMap_cons] at hnd hlt
  rw [List.nodup_append, List.nodup_append] at hnd
  obtain ⟨hbefore, ⟨ha, hafter, haa⟩, hba⟩ := hnd
  have hlt_a : ∀ m ∈ tokens a, m < n := fun m hm => hlt m (by simp [hm])
  constructor
  · simp only [List.flatMap_append, List.flatMap_cons]
    rw [List.nodup_append, List.nodup_append]
    refine ⟨hbefore, ⟨hr.nodup ha hlt_a, hafter, ?_⟩, ?_⟩
    · intro x hx y hy
      rcases hr.fresh x hx with hx | hx
      · exact haa x hx y hy
      · have := hlt y (by simp only [List.mem_append]; exact Or.inr (Or.inr hy))
        omega
    · intro x hx y hy
      rcases List.mem_append.1 hy with hy | hy
      · rcases hr.fresh y hy with hy | hy
        · exact hba x hx y (List.mem_append_left _ hy)
        · have := hlt x (List.mem_append_left _ hx)
          omega
      · exact hba x hx y (List.mem_append_right _ hy)
  · intro m hm
    simp only [List.flatMap_append, List.flatMap_cons, List.mem_append] at hm
    have hmono := hr.mono
    rcases hm with hm | hm | hm
    · exact Nat.lt_of_lt_of_le (hlt m (List.mem_append_left _ hm)) hmono
    · rcases hr.fresh m hm with hm | hm
      · exact Nat.lt_of_lt_of_le (hlt_a m hm) hmono
      · exact hm.2
    · have := hlt m (by simp only [List.mem_append]; exact Or.inr (Or.inr hm))
      omega

/-- A new holder starts with the token just issued. -/
theorem Issued.push (h : Issued tokens l n) (ha : tokens a = [n]) :
    Issued tokens (l ++ [a]) (n + 1) := by
  constructor
  · simp only [List.flatMap_append, List.flatMap_cons, List.flatMap_nil, List.append_nil, ha]
    rw [List.nodup_append]
    refine ⟨h.nodup, List.nodup_singleton n, ?_⟩
    intro x hx y hy
    have := h.below x hx
    rw [List.mem_singleton.1 hy]
    omega
  · intro m hm
    simp only [List.flatMap_append, List.flatMap_cons, List.flatMap_nil, List.append_nil, ha,
      List.mem_append, List.mem_singleton] at hm
    rcases hm with hm | rfl
    · exact Nat.lt_succ_of_lt (h.below m hm)
    · exact Nat.lt_succ_self m

theorem Issued.remove (h : Issued tokens l n) (i : Nat) : Issued tokens (l.eraseIdx i) n := by
  have hsub : ((l.eraseIdx i).flatMap tokens).Sublist (l.flatMap tokens) :=
    (List.eraseIdx_sublist l i).flatMap tokens
  exact ⟨h.nodup.sublist hsub, fun m hm => h.below m (hsub.subset hm)⟩

lemma Issued.congr {l' : List α} (h : Issued tokens l n)
    (heq : l'.map tokens = l.map tokens) : Issued tokens l' n := by
  have hflat : l'.flatMap tokens = l.flatMap tokens := by
    rw [List.flatMap_def, List.flatMap_def, heq]
  exact ⟨hflat ▸ h.nodup, hflat ▸ h.below⟩

section Sweep

variable {f : Nat → α → α × Nat}

theorem Issued.sweep (before : List α)
    (hf : ∀ n a, Refresh n (f n a).2 (tokens a) (tokens (f n a).1))
    (h : Issued tokens (before ++ l) n) :
    Issued tokens (before ++ (KeyedList.sweep f n l).1) (KeyedList.sweep f n l).2 := by
  induction l generalizing before n with
  | nil => exact h
  | cons a l ih =>
      have hhead := h.replace (hf n a)
      rw [List.append_cons] at hhead
      have hrest := ih _ hhead
      rw [← List.append_cons] at hrest
      exact hrest

end Sweep

end Terrarium.Tokens
