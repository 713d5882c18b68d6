import Mathlib.Algebra.Order.Ring.Nat
import Mathlib.Data.List.Forall2

/-!
# Fallible — computations that stop at the first error

Inversion rules for code in `Except`: which steps went through when the whole did, and which step
failed when it did not.
-/

namespace Terrarium.Fallible

variable {ε α β : Type}

def ensure (c : Bool) (e : ε) : Except ε Unit :=
  if c then .ok () else .error e

def orError (e : ε) : Option α → Except ε α
  | some a => .ok a
  | none => .error e

variable {x : Except ε α} {f : α → Except ε β} {e : ε} {c : Bool}

lemma bind_eq_ok {b : β} : (x >>= f) = .ok b ↔ ∃ a, x = .ok a ∧ f a = .ok b := by
  cases x with
  | error e =>
    constructor
    · intro h
      cases h
    · rintro ⟨a, hx, -⟩
      cases hx
  | ok a =>
    constructor
    · intro h
      exact ⟨a, rfl, h⟩
    · rintro ⟨a', hx, hf⟩
      cases hx
      exact hf

lemma bind_eq_error : (x >>= f) = .error e ↔ x = .error e ∨ ∃ a, x = .ok a ∧ f a = .error e := by
  cases x with
  | error e' =>
    constructor
    · intro h
      cases h
      exact Or.inl rfl
    · rintro (hx | ⟨a, hx, -⟩)
      · cases hx
        rfl
      · cases hx
  | ok a =>
    constructor
    · intro h
      exact Or.inr ⟨a, rfl, h⟩
    · rintro (hx | ⟨a', hx, hf⟩)
      · cases hx
      · cases hx
        exact hf

@[simp] lemma pure_eq_ok {a b : α} : (pure a : Except ε α) = .ok b ↔ a = b :=
    ⟨Except.ok.inj, congrArg Except.ok⟩

lemma exists_eq_error_iff : (∃ e, x = .error e) ↔ ¬ ∃ a, x = .ok a := by
  cases x <;> simp

@[simp] lemma ensure_eq_ok {u : Unit} : ensure c e = .ok u ↔ c = true := by
  cases c <;> simp [ensure]

@[simp] lemma ensure_eq_error {e' : ε} : ensure c e = .error e' ↔ c = false ∧ e = e' := by
  cases c <;> simp [ensure]

lemma ite_eq_ok {c : Prop} [Decidable c] {a b : α} : (if c then Except.ok a
      else .error e) = .ok b ↔ c ∧ a = b := by
  split <;> simp [*]

lemma map_eq_ok {g : α → β} {b : β} : x.map g = .ok b ↔ ∃ a, x = .ok a ∧ g a = b := by
  cases x <;> simp [Except.map]

lemma ensure_bind_eq_ok {f : Unit → Except ε β} {b : β} :
    (ensure c e >>= f) = .ok b ↔ c = true ∧ f () = .ok b := by
  rw [bind_eq_ok]
  constructor
  · rintro ⟨u, hc, hf⟩
    exact ⟨ensure_eq_ok.1 hc, hf⟩
  · rintro ⟨hc, hf⟩
    exact ⟨(), ensure_eq_ok.2 hc, hf⟩

@[simp] lemma orError_eq_ok {o : Option α} {a : α} : orError e o = .ok a ↔ o = some a := by
  cases o <;> simp [orError]

@[simp] lemma orError_eq_error {e' : ε} {o : Option α} : orError e o = .error e' ↔
    o = none ∧ e = e' := by
  cases o <;> simp [orError]

lemma forM_eq_ok {f : α → Except ε Unit} {l : List α} : l.forM f = .ok () ↔
    ∀ a ∈ l, f a = .ok () := by
  induction l with
  | nil => simp [List.forM_eq_forM]
  | cons a l ih =>
    rw [List.forM_eq_forM] at ih ⊢
    rw [List.forM_cons, bind_eq_ok]
    constructor
    · rintro ⟨⟨⟩, ha, hl⟩
      exact List.forall_mem_cons.2 ⟨ha, ih.1 hl⟩
    · intro h
      obtain ⟨ha, hl⟩ := List.forall_mem_cons.1 h
      exact ⟨(), ha, ih.2 hl⟩

lemma forall₂_of_mapM {l : List α} {bs : List β} (h : l.mapM f = .ok bs) :
    List.Forall₂ (fun a b => f a = .ok b) l bs := by
  induction l generalizing bs with
  | nil =>
    obtain rfl := pure_eq_ok.1 h
    exact List.Forall₂.nil
  | cons a l ih =>
    rw [List.mapM_cons] at h
    obtain ⟨b, ha, hrest⟩ := bind_eq_ok.1 h
    obtain ⟨rest, hl, hpure⟩ := bind_eq_ok.1 hrest
    obtain rfl := pure_eq_ok.1 hpure
    exact List.Forall₂.cons ha (ih hl)

end Terrarium.Fallible
