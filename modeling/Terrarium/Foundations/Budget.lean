import Mathlib.Data.List.Forall2

/-!
# Budget — searches that pay for their work

A metered computation draws on a budget and fails once a charge exceeds what is left.  What it
returns and what it costs do not depend on the budget it starts from, so the cost of a search is a
property of the search and not of its run.

This module defines:

* `Costs`    : the result and the exact cost of a computation, for every account
* `Regular`  : the computations built from charges, results and failures
* `Explores` : what the search of a stack costs in all, without the stack's order of work

Two searches are compared by `Cheaper`: whatever the first can afford, the second can.
-/

namespace Terrarium

/-- What may still be spent, and the number of paid steps so far. -/
structure Work where
  remaining : Nat
  steps : Nat
  deriving DecidableEq

abbrev Metered (ε : Type) : Type → Type := EStateM ε Work

namespace Metered

variable {ε α β : Type}

/-- Pay for work out of the account; `ticks` of the paid units count as steps. -/
def charge (limit : ε) (units ticks : Nat) : Metered ε Unit := fun work =>
  if units ≤ work.remaining then .ok () ⟨work.remaining - units, work.steps + ticks⟩
  else .error limit work

def fromExcept : Except ε α → Metered ε α
  | .ok a => pure a
  | .error e => throw e

def account : EStateM.Result ε Work α → Work
  | .ok _ work => work
  | .error _ work => work

lemma bind_apply (m : Metered ε α) (f : α → Metered ε β) (work : Work) :
    (m >>= f) work = match m work with
      | .ok a work' => f a work'
      | .error e work' => .error e work' := by
  change EStateM.bind m f work = _
  unfold EStateM.bind
  cases m work <;> rfl

lemma bind_eq_ok {m : Metered ε α} {f : α → Metered ε β} {work work' : Work} {b : β} :
    (m >>= f) work = .ok b work' ↔ ∃ a between, m work = .ok a between ∧
    f a between = .ok b work' := by
  rw [bind_apply]
  constructor
  · intro h
    split at h
    next a between hm => exact ⟨a, between, hm, h⟩
    · cases h
  · rintro ⟨a, between, hm, hf⟩
    rw [hm]
    exact hf

/-! ## Costs -/

/-- The computation returns `a` at this cost: from every account that can afford it, and from no
other. -/
structure Costs (m : Metered ε α) (cost : Nat) (a : α) : Prop where
  afford : ∀ work, cost ≤ work.remaining → ∃ steps, m work = .ok a ⟨work.remaining - cost, steps⟩
  exceed : ∀ work, work.remaining < cost → ∃ e work', m work = .error e work'

namespace Costs

variable {m : Metered ε α} {f : α → Metered ε β} {c c' : Nat} {a : α} {b : β}

lemma inv (h : Costs m c a) {work work' : Work} {a' : α} (hrun : m work = .ok a' work') :
    a' = a ∧ c ≤ work.remaining ∧ work'.remaining = work.remaining - c := by
  by_cases hc : c ≤ work.remaining
  · obtain ⟨steps, hok⟩ := h.afford work hc
    rw [hok] at hrun
    cases hrun
    exact ⟨rfl, hc, rfl⟩
  · obtain ⟨e, between, herr⟩ := h.exceed work (by omega)
    rw [herr] at hrun
    cases hrun

lemma unique (h : Costs m c a) {a' : α} (h' : Costs m c' a') : a' = a ∧ c' = c := by
  -- an account that affords both shows both
  obtain ⟨steps, hok⟩ := h.afford ⟨c + c', 0⟩ (Nat.le_add_right c c')
  obtain ⟨ha, -, hremaining⟩ := h'.inv hok
  simp only [] at hremaining
  exact ⟨ha.symm, by omega⟩

lemma pure (a : α) : Costs (pure a : Metered ε α) 0 a where
  afford work _ := ⟨work.steps, rfl⟩
  exceed _ h := absurd h (Nat.not_lt_zero _)

theorem charge (limit : ε) (units ticks : Nat) : Costs (charge limit units ticks) units () where
  afford work h := ⟨work.steps + ticks, by simp [Metered.charge, h]⟩
  exceed work h := ⟨limit, work, by simp [Metered.charge, Nat.not_le.2 h]⟩

lemma bind (hm : Costs m c a) (hf : Costs (f a) c' b) : Costs (m >>= f) (c + c') b where
  afford work h := by
    obtain ⟨steps, hok⟩ := hm.afford work (by omega)
    obtain ⟨steps', hok'⟩ := hf.afford ⟨work.remaining - c, steps⟩ (by simp only []; omega)
    refine ⟨steps', bind_eq_ok.2 ⟨a, _, hok, ?_⟩⟩
    rw [hok', Nat.sub_sub]
  exceed work h := by
    by_cases hc : c ≤ work.remaining
    · obtain ⟨steps, hok⟩ := hm.afford work hc
      obtain ⟨e, work', herr⟩ := hf.exceed ⟨work.remaining - c, steps⟩ (by simp only []; omega)
      exact ⟨e, work', by rw [bind_apply, hok]; exact herr⟩
    · obtain ⟨e, work', herr⟩ := hm.exceed work (by omega)
      exact ⟨e, work', by rw [bind_apply, herr]⟩

end Costs

/-! ## Regular computations -/

/-- A computation that knows the account through charges only, whose every step is paid for, and
that never fails as a search out of fuel does. -/
structure Regular (unfinished : ε) (m : Metered ε α) : Prop where
  steady : ∀ work a work', m work = .ok a work' → Costs m (work.remaining - work'.remaining) a
  frugal : ∀ work, (account (m work)).steps + (account (m work)).remaining ≤
    work.steps + work.remaining
  finite : ∀ work work', m work ≠ .error unfinished work'

namespace Regular

variable {unfinished : ε} {m : Metered ε α} {f : α → Metered ε β}

lemma pure (a : α) : Regular unfinished (pure a : Metered ε α) where
  steady work a' work' h := by
    cases h
    rw [Nat.sub_self]
    exact Costs.pure a
  frugal work := Nat.le_refl _
  finite work work' h := by cases h

lemma throw {e : ε} (he : e ≠ unfinished) : Regular unfinished (throw e : Metered ε α) where
  steady work a work' h := by cases h
  frugal work := Nat.le_refl _
  finite work work' h := by
    cases h
    exact he rfl

theorem charge {limit : ε} {units ticks : Nat} (hlimit : limit ≠ unfinished)
    (hticks : ticks ≤ units) : Regular unfinished (charge limit units ticks) where
  steady work a work' h := by
    have hcosts := Costs.charge limit units ticks
    obtain ⟨-, hle, hremaining⟩ := hcosts.inv h
    rwa [show work.remaining - work'.remaining = units by omega]
  frugal work := by
    by_cases h : units ≤ work.remaining
    · simp only [Metered.charge, h, if_true, account]
      omega
    · simp [Metered.charge, h, account]
  finite work work' h := by
    by_cases hle : units ≤ work.remaining
    · simp [Metered.charge, hle] at h
    · simp only [Metered.charge, hle, if_false] at h
      cases h
      exact hlimit rfl

lemma fromExcept {result : Except ε α} (h : result ≠ .error unfinished) :
    Regular unfinished (fromExcept result) := by
  cases result with
  | ok a => exact Regular.pure a
  | error e => exact Regular.throw fun he => h (congrArg Except.error he)

lemma bind (hm : Regular unfinished m) (hf : ∀ a, Regular unfinished (f a)) :
    Regular unfinished (m >>= f) where
  steady work b work' h := by
    obtain ⟨a, between, hok, hok'⟩ := bind_eq_ok.1 h
    have hcm := hm.steady _ _ _ hok
    have hcf := (hf a).steady _ _ _ hok'
    obtain ⟨-, hle, hremaining⟩ := hcm.inv hok
    obtain ⟨-, hle', hremaining'⟩ := hcf.inv hok'
    have hsum : work.remaining - work'.remaining =
        (work.remaining - between.remaining) + (between.remaining - work'.remaining) := by omega
    rw [hsum]
    exact hcm.bind hcf
  frugal work := by
    have hfirst := hm.frugal work
    rw [bind_apply]
    cases hok : m work with
    | error e between =>
      rw [hok] at hfirst
      exact hfirst
    | ok a between =>
      rw [hok] at hfirst
      exact Nat.le_trans ((hf a).frugal between) hfirst
  finite work work' h := by
    rw [bind_apply] at h
    split at h
    next a between hok => exact (hf a).finite between work' h
    next e between hok =>
      cases h
      exact hm.finite work _ hok

lemma costs_bind_inv (hm : Regular unfinished m) (hf : ∀ a, Regular unfinished (f a))
    {c : Nat} {b : β}
    (h : Costs (m >>= f) c b) : ∃ a c₁ c₂, Costs m c₁ a ∧ Costs (f a) c₂ b ∧ c = c₁ + c₂ := by
  obtain ⟨steps, hok⟩ := h.afford ⟨c, 0⟩ (Nat.le_refl c)
  obtain ⟨a, between, hrun, hrun'⟩ := bind_eq_ok.1 hok
  have hcm := hm.steady _ _ _ hrun
  have hcf := (hf a).steady _ _ _ hrun'
  exact ⟨a, _, _, hcm, hcf, ((hcm.bind hcf).unique h).2⟩

end Regular

/-! ## Searching with a stack -/

section Search

variable (unfinished : ε) (expand : β → Metered ε (List β))

/-- Take the top of the stack, work on it and put what is left to do in its place, until the stack
is empty. -/
def drain : Nat → List β → Metered ε Unit
  | _, [] => pure ()
  | 0, _ :: _ => throw unfinished
  | fuel + 1, item :: rest => do
      let next ← expand item
      drain fuel (next ++ rest)

/-- Every item of the stack can be worked off, at this cost in all. -/
inductive Explores : List β → Nat → Prop where
  | nil : Explores [] 0
  | cons {item : β} {next rest : List β} {cost c c' : Nat} :
      Costs (expand item) cost next → Explores next c → Explores rest c' →
      Explores (item :: rest) (cost + c + c')

variable {unfinished expand} {stack : List β} {c fuel : Nat} {work work' : Work} {b : β}

lemma Explores.append {xs ys : List β} {c c' : Nat} (hxs : Explores expand xs c)
    (hys : Explores expand ys c') : Explores expand (xs ++ ys) (c + c') := by
  induction hxs with
  | nil => simpa using hys
  | @cons item next rest cost c₁ c₂ hcost hnext _ _ ih =>
    have h := Explores.cons hcost hnext ih
    rwa [← Nat.add_assoc] at h

lemma Explores.split {xs ys : List β} (h : Explores expand (xs ++ ys) c) :
    ∃ c₁ c₂, Explores expand xs c₁ ∧ Explores expand ys c₂ ∧ c = c₁ + c₂ := by
  induction xs generalizing c with
  | nil => exact ⟨0, c, Explores.nil, h, by omega⟩
  | cons item xs ih =>
    cases h with
    | cons hcost hnext hrest =>
      obtain ⟨c₁, c₂, hxs, hys, rfl⟩ := ih hrest
      exact ⟨_, c₂, Explores.cons hcost hnext hxs, hys, by omega⟩

lemma Explores.forall_mem {P : β → Prop}
    (hstep : ∀ item cost next, Costs (expand item) cost next → (∀ item' ∈ next, P item') → P item)
    (h : Explores expand stack c) : ∀ item ∈ stack, P item := by
  induction h with
  | nil =>
    intro item hitem
    cases hitem
  | cons hcost _ _ ihnext ihrest =>
    intro item hitem
    rcases List.mem_cons.1 hitem with rfl | hrest
    · exact hstep _ _ _ hcost ihnext
    · exact ihrest item hrest

lemma explores_of_drain (hregular : ∀ item, Regular unfinished (expand item))
    (h : drain unfinished expand fuel stack work = .ok () work') :
    ∃ c, Explores expand stack c ∧ c + work'.remaining = work.remaining := by
  induction fuel generalizing stack work with
  | zero =>
    cases stack with
    | nil =>
      cases h
      exact ⟨0, Explores.nil, Nat.zero_add _⟩
    | cons item rest => cases h
  | succ fuel ih =>
    cases stack with
    | nil =>
      cases h
      exact ⟨0, Explores.nil, Nat.zero_add _⟩
    | cons item rest =>
      obtain ⟨next, between, hitem, hdrain⟩ := bind_eq_ok.1 h
      obtain ⟨c, hexplores, hsum⟩ := ih hdrain
      obtain ⟨c₁, c₂, hnext, hrest, rfl⟩ := hexplores.split
      have hcost := (hregular item).steady _ _ _ hitem
      obtain ⟨-, hle, hremaining⟩ := hcost.inv hitem
      exact ⟨_, Explores.cons hcost hnext hrest, by omega⟩

/-- No item leaves more to do than was paid for it, so that work and stack shrink together. -/
def Paid (expand : β → Metered ε (List β)) : Prop :=
  ∀ item cost next, Costs (expand item) cost next → next.length ≤ cost

lemma Explores.drain_append (hpaid : Paid expand) (h : Explores expand stack c)
    (below : List β) (work : Work) (fuel : Nat) (hc : c ≤ work.remaining)
    (hfuel : work.remaining + (stack ++ below).length ≤ fuel) :
    ∃ fuel' steps, work.remaining - c + below.length ≤ fuel' ∧
    drain unfinished expand fuel (stack ++ below) work =
        drain unfinished expand fuel' below ⟨work.remaining - c, steps⟩ := by
  induction h generalizing below work fuel with
  | nil => exact ⟨fuel, work.steps, by simpa using hfuel, rfl⟩
  | @cons item next rest cost c₁ c₂ hcost hnext hrest ihnext ihrest =>
    have hlength := hpaid item cost next hcost
    simp only [List.cons_append, List.length_cons, List.length_append] at hfuel
    cases fuel with
    | zero => omega
    | succ fuel =>
      obtain ⟨steps, hitem⟩ := hcost.afford work (by omega)
      obtain ⟨fuel₁, steps₁, hfuel₁, hdrain₁⟩ := ihnext (rest ++ below)
        ⟨work.remaining - cost, steps⟩ fuel
          (by simp only []; omega) (by simp only [List.length_append]; omega)
      obtain ⟨fuel₂, steps₂, hfuel₂, hdrain₂⟩ := ihrest below
        ⟨work.remaining - cost - c₁, steps₁⟩ fuel₁
          (by simp only []; omega) hfuel₁
      refine ⟨fuel₂, steps₂, ?_, ?_⟩
      · simp only [] at hfuel₂
        omega
      · have hstep : drain unfinished expand (fuel + 1) (item :: (rest ++ below)) work =
            drain unfinished expand fuel
              (next ++ (rest ++ below)) ⟨work.remaining - cost, steps⟩ := by
          rw [drain, bind_apply, hitem]
        rw [List.cons_append, hstep, hdrain₁, hdrain₂]
        simp only [Nat.sub_sub]

lemma drain_of_explores (hpaid : Paid expand) (h : Explores expand stack c)
    {work : Work} (hc : c ≤ work.remaining) (hfuel : work.remaining + stack.length ≤ fuel) :
    ∃ steps, drain unfinished expand fuel stack work = .ok () ⟨work.remaining - c, steps⟩ := by
  obtain ⟨fuel', steps, -, hdrain⟩ : ∃ fuel' steps, work.remaining - c +
      ([] : List β).length ≤ fuel' ∧ drain unfinished expand fuel (stack ++ []) work =
        drain unfinished expand fuel' [] ⟨work.remaining - c, steps⟩ :=
    h.drain_append hpaid [] work fuel hc (by simpa using hfuel)
  rw [List.append_nil] at hdrain
  refine ⟨steps, hdrain.trans ?_⟩
  cases fuel' <;> rfl

/-- Fuel for the account and the stack together is never used up. -/
lemma drain_finishes (hregular : ∀ item, Regular unfinished (expand item)) (hpaid : Paid expand)
    (hfuel : work.remaining + stack.length ≤ fuel) :
    drain unfinished expand fuel stack work ≠ .error unfinished work' := by
  induction fuel generalizing stack work with
  | zero =>
    cases stack with
    | nil =>
      intro h
      cases h
    | cons item rest => simp at hfuel
  | succ fuel ih =>
    cases stack with
    | nil =>
      intro h
      cases h
    | cons item rest =>
      intro h
      rw [drain, bind_apply] at h
      split at h
      next next between hitem =>
        have hcost := (hregular item).steady _ _ _ hitem
        have hlength := hpaid _ _ _ hcost
        obtain ⟨-, hle, hremaining⟩ := hcost.inv hitem
        refine ih ?_ h
        simp only [List.length_append, List.length_cons] at hfuel ⊢
        omega
      next e between hitem =>
        cases h
        exact (hregular item).finite _ _ hitem

lemma drain_frugal (hregular : ∀ item, Regular unfinished (expand item)) (fuel : Nat)
    (stack : List β) (work : Work) :
    (account (drain unfinished expand fuel stack work)).steps +
      (account (drain unfinished expand fuel stack work)).remaining ≤
      work.steps + work.remaining := by
  induction fuel generalizing stack work with
  | zero => cases stack <;> exact Nat.le_refl _
  | succ fuel ih =>
    cases stack with
    | nil => exact Nat.le_refl _
    | cons item rest =>
      have hitem := (hregular item).frugal work
      rw [drain, bind_apply]
      cases hrun : expand item work with
      | error e between =>
        rw [hrun] at hitem
        exact hitem
      | ok next between =>
        rw [hrun] at hitem
        exact Nat.le_trans (ih (next ++ rest) between) hitem

end Search

/-! ## Comparing searches -/

/-- Whenever the second computation returns, so does the first, for no more and with a related
result. -/
def Cheaper (R : α → β → Prop) (m : Metered ε α) (m' : Metered ε β) : Prop :=
  ∀ c' b, Costs m' c' b → ∃ c a, c ≤ c' ∧ Costs m c a ∧ R a b

namespace Cheaper

variable {γ δ : Type} {R : α → β → Prop} {S : γ → δ → Prop} {m : Metered ε α} {m' : Metered ε β}
  {f : α → Metered ε γ} {f' : β → Metered ε δ} {unfinished : ε}

lemma pure {a : α} {b : β} (h : R a b) : Cheaper R (Pure.pure a : Metered ε α)
    (Pure.pure b : Metered ε β) := by
  intro c' b' hcost
  obtain ⟨rfl, -⟩ := (Costs.pure b).unique hcost
  exact ⟨0, a, Nat.zero_le _, Costs.pure a, h⟩

lemma refl {R : α → α → Prop} (m : Metered ε α) (h : ∀ a, R a a) : Cheaper R m m :=
  fun c a hcost => ⟨c, a, Nat.le_refl c, hcost, h a⟩

lemma bind (hm : Cheaper R m m') (hf : ∀ a b, R a b → Cheaper S (f a) (f' b))
    (hregular : Regular unfinished m')
    (hregular' : ∀ b, Regular unfinished (f' b)) : Cheaper S (m >>= f) (m' >>= f') := by
  intro c' d hcost
  obtain ⟨b, c₁, c₂, hcm, hcf, rfl⟩ := hregular.costs_bind_inv hregular' hcost
  obtain ⟨k₁, a, hle₁, hka, hab⟩ := hm _ _ hcm
  obtain ⟨k₂, g, hle₂, hkg, hgd⟩ := hf a b hab _ _ hcf
  exact ⟨k₁ + k₂, g, Nat.add_le_add hle₁ hle₂, hka.bind hkg, hgd⟩

/-- The dearer search may do something of its own first. -/
lemma skip {m' : Metered ε β} {f' : β → Metered ε δ} {m : Metered ε γ}
    (hf : ∀ b c, Costs m' c b → Cheaper S m (f' b)) (hregular : Regular unfinished m')
    (hregular' : ∀ b, Regular unfinished (f' b)) : Cheaper S m (m' >>= f') := by
  intro c' d hcost
  obtain ⟨b, c₁, c₂, hcm, hcf, rfl⟩ := hregular.costs_bind_inv hregular' hcost
  obtain ⟨k, g, hle, hkg, hgd⟩ := hf b c₁ hcm _ _ hcf
  exact ⟨k, g, by omega, hkg, hgd⟩

end Cheaper

/-- A search whose stack is matched item by item in a dearer one can be afforded with it. -/
lemma Explores.cheaper {γ : Type} {expand : β → Metered ε (List β)}
    {expand' : γ → Metered ε (List γ)} {R : β → γ → Prop}
    (hexpand : ∀ item item', R item item' → Cheaper (List.SublistForall₂ R) (expand item)
      (expand' item'))
    {stack : List β} {stack' : List γ} {c' : Nat} (h : Explores expand' stack' c')
    (hstack : List.SublistForall₂ R stack stack') : ∃ c ≤ c', Explores expand stack c := by
  induction h generalizing stack with
  | nil =>
    cases hstack
    exact ⟨0, Nat.le_refl _, Explores.nil⟩
  | @cons item' next' rest' cost' c₁ c₂ hcost' _ _ ihnext ihrest =>
    cases hstack with
    | nil => exact ⟨0, Nat.zero_le _, Explores.nil⟩
    | cons_right hrest =>
      obtain ⟨c, hle, hexplores⟩ := ihrest hrest
      exact ⟨c, by omega, hexplores⟩
    | cons hitem hrest =>
      obtain ⟨cost, next, hle, hcost, hnext⟩ := hexpand _ _ hitem _ _ hcost'
      obtain ⟨k₁, hle₁, hexplores₁⟩ := ihnext hnext
      obtain ⟨k₂, hle₂, hexplores₂⟩ := ihrest hrest
      exact ⟨cost + k₁ + k₂, by omega, Explores.cons hcost hexplores₁ hexplores₂⟩

end Metered
end Terrarium
