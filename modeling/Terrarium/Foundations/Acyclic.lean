import Mathlib.Data.Fintype.EquivFin
import Mathlib.Logic.Relation
import Mathlib.Order.WellFounded

/-!
# Acyclic — recursion along a relation with finitely many elements

`r b a` reads "`a` needs `b`".  In a finite type a recursion on `a` ends exactly if nothing that `a`
needs, directly or through others, needs itself.
-/

namespace Terrarium.Acyclic

open Relation

variable {α : Type} {r : α → α → Prop} {a b : α}

lemma acc_of_acyclic [Finite α] (h : ∀ b, ReflTransGen r b a → ¬ TransGen r b b) : Acc r a := by
  -- on the elements that are needed for `a`, the closure of `r` is a strict order
  let below : α → α → Prop := fun c b => TransGen r c b ∧ ReflTransGen r b a
  have htrans : IsTrans α below := ⟨fun d c b hdc hcb => ⟨hdc.1.trans hcb.1, hcb.2⟩⟩
  have hirrefl : Std.Irrefl below := ⟨fun b hb => h b hb.2 hb.1⟩
  have hwf : WellFounded below := Finite.wellFounded_of_trans_of_irrefl below
  have hacc : ∀ b, ReflTransGen r b a → Acc r b := by
    intro b
    induction b using hwf.induction with
    | _ b ih =>
        intro hb
        refine Acc.intro b fun c hc => ?_
        exact ih c ⟨TransGen.single hc, hb⟩ (hb.head hc)
  exact hacc a ReflTransGen.refl

end Terrarium.Acyclic
