import Mathlib.Data.List.Basic

/-!
# Phases — runs of steps that each settle one key

A state is looked at through a family of views, one for each key.  A phase is a list of steps of
which each changes the view of its own key for good and leaves the others as they have to be.  If
every step goes through in the states the steps before it can leave, the whole phase does.
-/

namespace Terrarium.Phases

variable {σ κ ν ι ε : Type}

def phase (exec : ι → σ → Except ε σ) : List ι → σ → Except ε σ
  | [], state => .ok state
  | step :: steps, state => do
      let state ← exec step state
      phase exec steps state

lemma mem_done {r : ι → ι → Prop} {steps done rest : List ι} {step other : ι}
    (hsorted : steps.Pairwise r)
    (hsplit : steps = done ++ step :: rest) (hother : other ∈ steps) (hne : other ≠ step)
    (hr : ¬ r step other) : other ∈ done := by
  rw [hsplit] at hsorted hother
  rcases List.mem_append.1 hother with hdone | hrest
  · exact hdone
  · rcases List.mem_cons.1 hrest with heq | hlater
    · exact absurd heq hne
    · exact absurd (List.rel_of_pairwise_cons (List.pairwise_append.1 hsorted).2.1 hlater) hr

section

variable [DecidableEq κ]

/-- What is known of the keys when some of them are settled. -/
def settled (done : List κ) (new old : κ → ν → Prop) (key : κ) : ν → Prop :=
  if key ∈ done then new key else old key

section

variable {done : List κ} {new old : κ → ν → Prop} {key : κ} {value : ν}

lemma settled_of_mem (h : key ∈ done) : settled done new old key value ↔ new key value := by
  rw [settled, if_pos h]

lemma settled_of_not_mem (h : key ∉ done) : settled done new old key value ↔ old key value := by
  rw [settled, if_neg h]

lemma settled_cases (h : settled done new old key value) :
    (key ∈ done ∧ new key value) ∨ (key ∉ done ∧ old key value) := by
  by_cases hmem : key ∈ done
  · exact Or.inl ⟨hmem, (settled_of_mem hmem).1 h⟩
  · exact Or.inr ⟨hmem, (settled_of_not_mem hmem).1 h⟩

end

/-- Every step settles its key and keeps what is known of the others. -/
def Settles (view : σ → κ → ν) (key : ι → κ) (exec : ι → σ → Except ε σ) (new old : κ → ν → Prop)
    (steps : List ι) : Prop :=
  ∀ done step rest, steps = done ++ step :: rest → ∀ state,
    (∀ k, settled (done.map key) new old k (view state k)) →
    ∃ state', exec step state = .ok state' ∧ new (key step) (view state' (key step)) ∧
      ∀ k, k ≠ key step → settled (done.map key) new old k (view state' k)

lemma phase_settles {view : σ → κ → ν} {key : ι → κ} {exec : ι → σ → Except ε σ}
    {new old : κ → ν → Prop} {steps : List ι} (h : Settles view key exec new old steps) {state : σ}
    (hold : ∀ k, old k (view state k)) :
    ∃ state', phase exec steps state = .ok state' ∧
    ∀ k, settled (steps.map key) new old k (view state' k) := by
  -- the steps already done move from one side of the split to the other
  suffices hsplit : ∀ rest done state, steps = done ++ rest →
      (∀ k, settled (done.map key) new old k (view state k)) →
      ∃ state', phase exec rest state = .ok state' ∧
      ∀ k, settled (steps.map key) new old k (view state' k) from
    hsplit steps [] state rfl fun k => (settled_of_not_mem List.not_mem_nil).2 (hold k)
  intro rest
  induction rest with
  | nil =>
    intro done state hsteps hdone
    rw [List.append_nil] at hsteps
    exact ⟨state, rfl, hsteps ▸ hdone⟩
  | cons step rest ih =>
    intro done state hsteps hdone
    obtain ⟨between, hexec, hnew, hothers⟩ := h done step rest hsteps state hdone
    have hbetween : ∀ k, settled ((done ++ [step]).map key) new old k (view between k) := by
      intro k
      rw [List.map_append, List.map_singleton]
      by_cases hk : k = key step
      · subst hk
        exact (settled_of_mem (List.mem_append_right _ List.mem_cons_self)).2 hnew
      · by_cases hmem : k ∈ done.map key
        · exact (settled_of_mem (List.mem_append_left _ hmem)).2
            ((settled_of_mem hmem).1 (hothers k hk))
        · have hnot : k ∉ done.map key ++
              [key step] := by simp [hk, List.mem_map] at hmem ⊢; exact hmem
          exact (settled_of_not_mem hnot).2 ((settled_of_not_mem hmem).1 (hothers k hk))
    obtain ⟨state', hphase, hsettled⟩ :=
      ih (done ++ [step]) between (by simpa using hsteps) hbetween
    refine ⟨state', ?_, hsettled⟩
    rw [phase, hexec]
    exact hphase

end

end Terrarium.Phases
