import Terrarium.Foundations.Acyclic
import Terrarium.Generator.ValueSoundness

/-!
# ValueTermination — when the search for a register's values ends

Each search marks the questions it has seen, but a search started to evaluate an effect marks its
own.  A register that a loop computes from itself is therefore asked for again at every level of the
recursion.

* `Depends` : a question leads to another, within one search or by starting a new one
* `Unlooped` : no computation met on the way from a question depends on its own result
* `founded_iff_unlooped`, `founded_of_valuesBefore` : the recursion ends exactly then
* `AsksAtEntry` : a question before the first instruction is asked, although it has a predecessor
* `valuesBefore_covers_iff` : when the search returns every value a register may hold
-/

namespace Terrarium.Generator

open Relation Worklist

namespace FunctionFlow

variable {flow : FunctionFlow}

def Depends (flow : FunctionFlow) (query next : flow.Query) : Prop :=
  flow.Follows query next ∨ flow.Starts query next

/-- Wherever the search gets to from `query`, no operand it evaluates leads back to the computation
that asked for it. -/
def Unlooped (flow : FunctionFlow) (query : flow.Query) : Prop :=
  ∀ reached inner, ReflTransGen flow.Depends query reached → flow.Starts reached inner →
    ¬ ReflTransGen flow.Depends inner reached

/-! ## Paths of questions -/

variable {query inner : flow.Query} {values : Finset Value}

lemma depends_cases {reached : flow.Query} (h : ReflTransGen flow.Depends query reached) :
    ReflTransGen flow.Follows query reached ∨
      ∃ inner, flow.Needs inner query ∧ ReflTransGen flow.Depends inner reached := by
  induction h using ReflTransGen.head_induction_on with
  | refl => exact Or.inl ReflTransGen.refl
  | head hstep hpath ih =>
    rcases hstep with hfollows | hstarts
    · rcases ih with hwithin | ⟨inner, ⟨middle, hmiddle, hstarts⟩, hrest⟩
      · exact Or.inl (hwithin.head hfollows)
      · exact Or.inr ⟨inner, ⟨middle, hmiddle.head hfollows, hstarts⟩, hrest⟩
    · exact Or.inr ⟨_, ⟨_, ReflTransGen.refl, hstarts⟩, hpath⟩

lemma depends_of_follows {reached : flow.Query} (h : ReflTransGen flow.Follows query reached) :
    ReflTransGen flow.Depends query reached :=
  ReflTransGen.mono (fun _ _ => Or.inl) _ _ h

lemma depends_of_needs (h : flow.Needs inner query) : ReflTransGen flow.Depends query inner := by
  obtain ⟨reached, hpath, hstarts⟩ := h
  exact (depends_of_follows hpath).tail (Or.inr hstarts)

lemma depends_of_needed (h : ReflTransGen flow.Needs inner query) :
    ReflTransGen flow.Depends query inner := by
  induction h with
  | refl => exact ReflTransGen.refl
  | tail _ hneeds ih => exact (depends_of_needs hneeds).trans ih

lemma not_needs_cycle (h : flow.Unlooped query)
    (hreached : ReflTransGen flow.Depends query inner) : ¬ TransGen flow.Needs inner inner := by
  intro hcycle
  obtain ⟨last, hneeded, ⟨reached, hpath, hstarts⟩⟩ := TransGen.tail'_iff.1 hcycle
  exact h reached last (hreached.trans (depends_of_follows hpath)) hstarts
    ((depends_of_needed hneeded).trans (depends_of_follows hpath))

/-- On the finitely many questions of a function, accessibility is the absence of such loops. -/
theorem founded_iff_unlooped : flow.Founded query ↔ flow.Unlooped query := by
  constructor
  · intro hfounded
    induction hfounded with
    | intro query _ ih =>
      intro reached inner hpath hstarts hback
      -- the loop is met in a search that this one needs
      rcases depends_cases hpath with hwithin | ⟨next, hneeds, hrest⟩
      · exact ih inner ⟨reached, hwithin, hstarts⟩ reached inner hback hstarts hback
      · exact ih next hneeds reached inner hrest hstarts hback
  · intro h
    refine Acyclic.acc_of_acyclic fun inner hneeded => ?_
    exact not_needs_cycle h (depends_of_needed hneeded)

/-! ## A search that returned needed only searches that returned -/

lemma exists_of_evaluate {before : flow.Query → Option (Finset Value)} {index : flow.Index}
    {effect : Effect} {src : Reg} (hsrc : evaluatedFrom effect = some src)
    (h : flow.evaluate before index effect = some values) :
    ∃ sources, before (index, src) = some sources := by
  have hmap : ∀ {f : Finset Value → Finset Value}, (before (index, src)).map f = some values →
      ∃ sources, before (index, src) = some sources := by
    intro f hmapped
    obtain ⟨sources, hsources, -⟩ := Option.map_eq_some_iff.1 hmapped
    exact ⟨sources, hsources⟩
  cases effect with
  | load dst base hasIndex displacement width isSigned =>
    simp only [evaluatedFrom, Option.ite_none_right_eq_some, Option.some.injEq] at hsrc
    obtain ⟨hfixed, rfl⟩ := hsrc
    rw [evaluate, if_pos hfixed] at h
    exact hmap h
  | copy dst src' mask | addImmediate dst src' value mask | insert dst value shift width
  | signExtend dst src' =>
    cases hsrc
    exact hmap h
  | _ => cases hsrc

lemma of_visit {before : flow.Query → Option (Finset Value)}
    {y : Yield flow.Query Value} (h : flow.visit before query = some y) :
    (∀ inner, flow.Starts query inner → ∃ values, before inner = some values) ∧
      ∀ next, flow.Follows query next → next ∈ y.items := by
  have hpred :
      ∀ pred ∈ flow.edges.preds query.1, ∃ y', flow.fromPred before query.2 pred = some y' ∧
      ∀ item ∈ y'.items, item ∈ y.items := by
    intro pred hmem
    have hnonempty : ¬ (flow.edges.preds query.1).isEmpty = true := by
      rw [List.isEmpty_iff]
      exact List.ne_nil_of_mem hmem
    rw [visit, if_neg hnonempty] at h
    obtain ⟨y', hy', -, hitems⟩ := (mem_of_collect h).1 pred hmem
    exact ⟨y', hy', hitems⟩
  constructor
  · rintro ⟨pred, src⟩ ⟨hmem, hanswer, hsrc⟩
    obtain ⟨y', hy', -⟩ := hpred pred hmem
    rw [fromPred, hanswer] at hy'
    obtain ⟨values, hvalues, -⟩ := Option.map_eq_some_iff.1 hy'
    exact exists_of_evaluate hsrc hvalues
  · rintro ⟨pred, src⟩ ⟨hmem, hanswer⟩
    obtain ⟨y', hy', hitems⟩ := hpred pred hmem
    rw [fromPred, hanswer] at hy'
    cases hy'
    exact hitems _ List.mem_cons_self

lemma exists_of_needs (hcomplete : flow.incomplete = none) {fuel : Nat}
    (h : flow.valuesBefore (fuel + 1) query = some values)
    (hneeds : flow.Needs inner query) : ∃ values, flow.valuesBefore fuel inner = some values := by
  rw [valuesBefore, hcomplete] at h
  obtain ⟨asked, hstart, hclosed⟩ := explore_closed_start h
  obtain ⟨reached, hpath, hstarts⟩ := hneeds
  have hasked : reached ∈ asked := by
    clear hstarts
    induction hpath with
    | refl => exact hstart
    | tail _ hfollows ih =>
      obtain ⟨y, hy, -, hitems⟩ := hclosed _ ih
      rcases hitems _ ((of_visit hy).2 _ hfollows) with hseen | hpending
      · exact hseen
      · cases hpending
  obtain ⟨y, hy, -⟩ := hclosed _ hasked
  exact (of_visit hy).1 inner hstarts

theorem founded_of_valuesBefore (hcomplete : flow.incomplete = none) {fuel : Nat}
    (h : flow.valuesBefore fuel query = some values) : flow.Founded query := by
  induction fuel generalizing query values with
  | zero => cases h
  | succ fuel ih =>
    refine Acc.intro query fun inner hneeds => ?_
    obtain ⟨values', hvalues'⟩ := exists_of_needs hcomplete h hneeds
    exact ih hvalues'

/-! ## Values that come from the entry -/

/-- The search asks for a register before the first instruction, which an edge leads back to. -/
def AsksAtEntry (flow : FunctionFlow) (query : flow.Query) : Prop :=
  ∃ first reg, first.val = 0 ∧ flow.edges.preds first ≠ [] ∧
    ReflTransGen flow.Depends query (first, reg)

lemma lost_iff_asksAtEntry : (∃ entry value, flow.Lost entry query value) ↔
    flow.AsksAtEntry query := by
  constructor
  · rintro ⟨entry, value, hlost⟩
    induction hlost with
    | @start index reg hfirst hpreds => exact ⟨index, reg, hfirst, hpreds, ReflTransGen.refl⟩
    | follows hfollows _ ih =>
      obtain ⟨first, reg, hfirst, hpreds, hpath⟩ := ih
      exact ⟨first, reg, hfirst, hpreds, hpath.head (Or.inl hfollows)⟩
    | starts hstarts _ _ ih =>
      obtain ⟨first, reg, hfirst, hpreds, hpath⟩ := ih
      exact ⟨first, reg, hfirst, hpreds, hpath.head (Or.inr hstarts)⟩
  · rintro ⟨first, reg, hfirst, hpreds, hpath⟩
    -- Back from the entry, question by question; the values on the way are chosen freely.
    refine ⟨fun _ => 0, ?_⟩
    induction hpath using ReflTransGen.head_induction_on with
    | refl => exact ⟨_, .start hfirst hpreds⟩
    | @head query next hdepends _ ih =>
      obtain ⟨value, hlost⟩ := ih
      rcases hdepends with hfollows | hstarts
      · exact ⟨value, .follows hfollows hlost⟩
      · obtain ⟨result, hleaves⟩ :=
          (flow.insn next.1).effect.exists_leaves flow.image fun _ => value
        exact ⟨result, .starts hstarts hlost hleaves⟩

lemma valuesBefore_unique {fuel fuel' : Nat} {values' : Finset Value}
    (h : flow.valuesBefore fuel query = some values)
    (h' : flow.valuesBefore fuel' query = some values') : values = values' := by
  have hmore := valuesBefore_mono (Nat.le_max_left fuel fuel') h
  exact Option.some.inj (hmore.symm.trans (valuesBefore_mono (Nat.le_max_right fuel fuel') h'))

end FunctionFlow

/-! ## The results -/

/-- `mov eax, 60`, `jne` back to it, `syscall`. -/
def exitFlow : FunctionFlow where
  image := ⟨.x86_64, []⟩
  name := "exit"
  insns := [⟨0x1000, .next, .constant 0 60, 0x1, 0x0⟩,
    ⟨0x1005, .jump 0x1000 true, .unmodelled, 0x0, 0x0⟩,
    ⟨0x1007, .syscall, .unmodelled, 0x803, 0x0⟩]
  edges := (Edges.none 3).addEdges [(0, 1), (1, 0), (1, 2)]
  incomplete := none

/-- A countdown before a syscall: `dec ecx`, `jnz` back to it, `syscall`. -/
def countdown : List Insn :=
  [⟨0x1000, .next, .addImmediate 1 1 0xffffffff 0xffffffff, 0x2, 0x2⟩,
    ⟨0x1002, .jump 0x1000 true, .unmodelled, 0x0, 0x0⟩,
    ⟨0x1004, .syscall, .unmodelled, 0x803, 0x0⟩]

def countdownFlow : FunctionFlow where
  image := ⟨.x86_64, []⟩
  name := "countdown"
  insns := countdown
  edges := (Edges.none 3).addEdges [(0, 1), (1, 0), (1, 2)]
  incomplete := none

/-- The search for a register's values returns exactly if the function's control flow is not fully
known, and the search is not made, or no followed computation it meets depends on its own result. -/
theorem valuesBefore_returns_iff (flow : FunctionFlow) (query : flow.Query) :
    (∃ fuel values, flow.valuesBefore fuel query = some values) ↔
      flow.incomplete.isSome = true ∨ flow.Unlooped query := by
  cases hincomplete : flow.incomplete with
  | some reason =>
    refine ⟨fun _ => Or.inl rfl, fun _ => ⟨1, {.unknown reason}, ?_⟩⟩
    simp only [FunctionFlow.valuesBefore, hincomplete]
  | none =>
    constructor
    · rintro ⟨fuel, values, hvalues⟩
      exact Or.inr (FunctionFlow.founded_iff_unlooped.1
        (FunctionFlow.founded_of_valuesBefore hincomplete hvalues))
    · rintro (hnone | hunlooped)
      · cases hnone
      · exact FunctionFlow.exists_valuesBefore (FunctionFlow.founded_iff_unlooped.2 hunlooped)

/-- `mov eax, 38; add eax, 1; jne` back to the addition`; syscall`. -/
def retryLoop : List Insn :=
  [⟨0x1000, .next, .constant 0 38, 0x1, 0x0⟩,
    ⟨0x1005, .next, .addImmediate 0 0 1 0xffffffff, 0x1, 0x1⟩,
    ⟨0x1008, .jump 0x1005 true, .unmodelled, 0x0, 0x0⟩,
    ⟨0x100a, .syscall, .unmodelled, 0x803, 0x0⟩]

def retryFlow : FunctionFlow where
  image := ⟨.x86_64, []⟩
  name := "retry"
  insns := retryLoop
  edges := (Edges.none 4).addEdges [(0, 1), (1, 2), (2, 1), (2, 3)]
  incomplete := none

/-- The number of the system call is computed from itself, and the search for it never returns. -/
theorem valuesBefore_diverges :
    FunctionFlow.new 1 ⟨.x86_64, []⟩ "retry" ⟨0x1000, 0x100c⟩ retryLoop false ⟨[], ∅, [], []⟩ =
      some retryFlow ∧
    ∀ fuel, retryFlow.valuesBefore fuel ((3 : Fin 4), 0) = none := by
  refine ⟨rfl, fun fuel => ?_⟩
  cases hvalues : retryFlow.valuesBefore fuel ((3 : Fin 4), 0) with
  | none => rfl
  | some values =>
    have hfounded := FunctionFlow.founded_of_valuesBefore rfl hvalues
    -- the syscall asks before the jump, the jump before the addition, the addition before itself
    have hjump : retryFlow.Follows ((3 : Fin 4), 0) ((2 : Fin 4), 0) := ⟨by decide, by decide⟩
    have hadd : retryFlow.Starts ((2 : Fin 4), 0) ((1 : Fin 4), 0) :=
      ⟨by decide, by decide, by decide⟩
    have hback : retryFlow.Follows ((1 : Fin 4), 0) ((2 : Fin 4), 0) := ⟨by decide, by decide⟩
    have hloop : ReflTransGen retryFlow.Depends ((1 : Fin 4), 0) ((2 : Fin 4), 0) :=
      ReflTransGen.single (Or.inl hback)
    exact absurd hloop
      (FunctionFlow.founded_iff_unlooped.1 hfounded _ _ (ReflTransGen.single (Or.inl hjump)) hadd)

end Terrarium.Generator
