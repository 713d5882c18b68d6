import Terrarium.Foundations.Fallible

/-!
# Run — traces of partial step functions

A component is modelled by a partial step function `step : σ → α → Option (β × σ)`: from a state
and an operation it yields the observable result and the next state, or no successor at all.

* `Trace step s es t` — `es` is the event history of a run from `s` to `t`, oldest event first.

Histories grow at the right end, so an induction over a trace always has “everything seen so far”
as its hypothesis and one fresh event to account for.
-/

namespace Terrarium.Run

variable {σ α β : Type}

structure Event (σ α β : Type) where
  pre : σ
  op : α
  out : β
  post : σ

/-- `Trace step s es t`: the run from `s` to `t` whose events are `es`. -/
inductive Trace (step : σ → α → Option (β × σ)) (s : σ) : List (Event σ α β) → σ → Prop where
  | nil : Trace step s [] s
  | snoc {m t : σ} {es : List (Event σ α β)} {op : α} {out : β} :
      Trace step s es m → step m op = some (out, t) →
        Trace step s (es ++ [⟨m, op, out, t⟩]) t

variable {step : σ → α → Option (β × σ)} {s t : σ} {es : List (Event σ α β)}

namespace Trace

lemma single {op : α} {out : β} (h : step s op = some (out, t)) :
    Trace step s [⟨s, op, out, t⟩] t := by
  simpa using Trace.snoc Trace.nil h

lemma append {s m t : σ} {es fs : List (Event σ α β)}
    (h₁ : Trace step s es m) (h₂ : Trace step m fs t) : Trace step s (es ++ fs) t := by
  induction h₂ with
  | nil => simpa using h₁
  | snoc h₂ hstep ih =>
    rw [← List.append_assoc]
    exact Trace.snoc ih hstep

/-- A property that one step preserves holds at the end of every run from a state that has it. -/
lemma invariant {P : σ → Prop} (hstep : ∀ {m op out m'}, P m → step m op = some (out, m') → P m')
    (h : Trace step s es t) (hs : P s) : P t := by
  induction h with
  | nil => exact hs
  | snoc _ hop ih => exact hstep ih hop

lemma invariant_where {P : σ → Prop} {C : σ → α → Prop}
    (hstep : ∀ {m op out m'}, P m → C m op → step m op = some (out, m') → P m')
    (h : Trace step s es t) (hes : ∀ e ∈ es, C e.pre e.op) (hs : P s) : P t := by
  induction h with
  | nil => exact hs
  | snoc _ hop ih =>
    obtain ⟨hbefore, hlast⟩ := List.forall_mem_append.1 hes
    exact hstep (ih hbefore) (hlast _ List.mem_cons_self) hop

lemma split (h : Trace step s es t) :
    ∀ {before after : List (Event σ α β)} {e : Event σ α β}, es = before ++ e :: after →
      Trace step s before e.pre ∧ step e.pre e.op = some (e.out, e.post) ∧
      Trace step e.post after t := by
  induction h with
  | nil =>
    intro before after e hes
    simp at hes
  | snoc hrun hop ih =>
    intro before after e hes
    rcases List.eq_nil_or_concat after with rfl | ⟨after', last, rfl⟩
    · -- The event is the newest one.
      have hsplit := List.append_inj' hes rfl
      have hlast := List.cons.inj hsplit.2
      obtain ⟨hpre, -⟩ := hsplit
      subst hpre
      rw [← hlast.1]
      exact ⟨hrun, hop, Trace.nil⟩
    · -- The event is older: drop the newest one and use the induction hypothesis.
      rw [List.concat_eq_append, ← List.cons_append, ← List.append_assoc] at hes
      have hsplit := List.append_inj' hes rfl
      obtain ⟨hbefore, hstep, hafter⟩ := ih hsplit.1
      have hlast := (List.cons.inj hsplit.2).1
      rw [List.concat_eq_append, ← hlast]
      exact ⟨hbefore, hstep, Trace.snoc hafter hop⟩

/-- What does not hold before a run and holds after it arises in one of its events. -/
lemma arises {P : σ → Prop} (h : Trace step s es t) (hs : ¬ P s) (ht : P t) :
    ∃ e ∈ es, ¬ P e.pre ∧ P e.post := by
  induction h with
  | nil => exact absurd ht hs
  | @snoc m t es op out hrun hop ih =>
    by_cases hm : P m
    · obtain ⟨e, he, hevent⟩ := ih hm
      exact ⟨e, List.mem_append_left _ he, hevent⟩
    · exact ⟨⟨m, op, out, t⟩, List.mem_append_right _ List.mem_cons_self, hm, ht⟩

lemma event {e : Event σ α β} (h : Trace step s es t) (he : e ∈ es) :
    ∃ before, Trace step s before e.pre ∧ step e.pre e.op = some (e.out, e.post) := by
  rcases List.append_of_mem he with ⟨before, after, hes⟩
  obtain ⟨hbefore, hstep, -⟩ := h.split hes
  exact ⟨before, hbefore, hstep⟩

end Trace

/-! ## Running a list of operations -/

/-- Run `ops` from `s`; `none` when some operation has no successor. -/
def exec (step : σ → α → Option (β × σ)) : σ → List α → Option (List (Event σ α β) × σ)
  | s, [] => some ([], s)
  | s, op :: ops =>
      match step s op with
      | none => none
      | some (out, m) => (exec step m ops).map fun r => (⟨s, op, out, m⟩ :: r.1, r.2)

lemma exec_trace {ops : List α} : exec step s ops = some (es, t) → Trace step s es t := by
  induction ops generalizing s es with
  | nil =>
    intro h
    simp only [exec, Option.some.injEq, Prod.mk.injEq] at h
    obtain ⟨rfl, rfl⟩ := h
    exact Trace.nil
  | cons op ops ih =>
    intro h
    cases hop : step s op with
    | none => simp [exec, hop] at h
    | some r =>
      simp only [exec, hop, Option.map_eq_some_iff, Prod.mk.injEq] at h
      obtain ⟨⟨fs, t'⟩, hrest, rfl, rfl⟩ := h
      exact (Trace.single hop).append (ih hrest)

lemma exec_reaches (ops : List α) (h : (exec step s ops).map Prod.snd = some t) :
    ∃ es, Trace step s es t := by
  obtain ⟨⟨es, t'⟩, hexec, rfl⟩ := Option.map_eq_some_iff.1 h
  exact ⟨es, exec_trace hexec⟩

lemma exec_run (step : σ → α → Option (β × σ)) (s : σ) (ops : List α)
    (h : (exec step s ops).isSome = true) :
    Trace step s ((exec step s ops).get h).1 ((exec step s ops).get h).2 :=
  exec_trace (Option.some_get h).symm

lemma exec_any {s : σ} (ops : List α) (check : List (Event σ α β) × σ → Bool)
    (h : (exec step s ops).any check = true) : ∃ es t, Trace step s es t ∧
    check (es, t) = true := by
  obtain ⟨⟨es, t⟩, hexec, hcheck⟩ := (Option.any_eq_true _ _).1 h
  exact ⟨es, t, exec_trace hexec, hcheck⟩

/-! ## Loops that may fail -/

lemma foldlM_invariant {ε γ : Type} {f : σ → γ → Except ε σ} {P : σ → Prop} {xs : List γ}
    {s t : σ} (hs : P s)
    (hstep : ∀ x ∈ xs, ∀ s t, P s → f s x = .ok t → P t) (h : xs.foldlM f s = .ok t) : P t := by
  induction xs generalizing s with
  | nil =>
    cases h
    exact hs
  | cons x xs ih =>
    rw [List.foldlM_cons] at h
    obtain ⟨m, hx, h⟩ := Fallible.bind_eq_ok.1 h
    exact ih (hstep x List.mem_cons_self s m hs hx)
      (fun y hy => hstep y (List.mem_cons_of_mem x hy)) h

end Terrarium.Run
