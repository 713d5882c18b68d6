import Mathlib.Data.Finite.Prod
import Mathlib.Logic.Relation
import Terrarium.Generator.Flow

/-!
# ValueSoundness — the search finds every value

An execution of a function walks along its edges and updates registers as the effects say; what the
analysis does not follow may leave anything.  With an edge to the first instruction the backward
search takes that instruction for an inner one and forgets the value a register had on entry.  This
file proves that on every walk it covers the value of every register, or that value is lost so, and
that it returns whenever no followed computation depends on itself.

* `Effect.Leaves`, `Insn.Executes`, `Reaches` — executions;
* `Lost` — the values that come down from an entry the search takes no notice of;
* `Founded` — the questions a search leads to do not lead back to it.
-/

namespace Terrarium.Generator

open Worklist

/-! ## Executions -/

abbrev Registers := Reg → UInt64

/-- What an effect may leave in its destination.  Words of the global offset table are fixed; an
effect that is not followed may leave anything. -/
def Effect.Leaves (image : Image) (regs : Registers) : Effect → UInt64 → Prop
  | .constant _ value, result => result = value
  | .copy _ src mask, result => result = regs src &&& mask
  | .addImmediate _ src value mask, result => result = (regs src + value) &&& mask
  | .insert dst value shift width, result =>
      let field := (((1 : UInt64) <<< width.toUInt64) - 1) <<< shift.toUInt64
      result = (regs dst &&& ~~~field) ||| (value <<< shift.toUInt64)
  | .signExtend _ src, result => result = (regs src).toUInt32.toInt32.toInt64.toUInt64
  | .loadAbsolute _ address, result =>
      ∀ word, image.gotEntry address = some word → result = word
  | .load _ base hasIndex displacement width _, result =>
      hasIndex = false → width = 8 →
        ∀ word, image.gotEntry (regs base + displacement.toUInt64) = some word → result = word
  | .unmodelled, _ => True
  | .addShifted _ _ _ _, _ => True

/-- One instruction: registers it does not write stay, its destination holds what the effect leaves,
and what a call clobbers is arbitrary. -/
def Insn.Executes (image : Image) (insn : Insn) (regs regs' : Registers) : Prop :=
  ∀ reg, insn.clobbers image.architecture reg = false →
    (insn.writes reg = false → regs' reg = regs reg) ∧
    (insn.effect.destination = some reg → insn.effect.Leaves image regs (regs' reg))

lemma Effect.exists_leaves (image : Image) (regs : Registers) (effect : Effect) :
    ∃ result, effect.Leaves image regs result := by
  have hgot : ∀ address, ∃ result, ∀ word, image.gotEntry address = some word → result = word := by
    intro address
    cases hentry : image.gotEntry address with
    | none => exact ⟨0, nofun⟩
    | some word => exact ⟨word, fun _ hword => Option.some.inj hword⟩
  cases effect with
  | loadAbsolute dst address => exact hgot address
  | load dst base hasIndex displacement width isSigned =>
    obtain ⟨result, hresult⟩ := hgot (regs base + displacement.toUInt64)
    exact ⟨result, fun _ _ => hresult⟩
  | unmodelled | addShifted dst left right shift => exact ⟨0, trivial⟩
  | _ => exact ⟨_, rfl⟩

namespace Insn

variable {image : Image} {insn : Insn} {regs : Registers}

/-- The decoder counts the destination among the registers that are written. -/
def WritesDestination (insn : Insn) : Prop :=
  ∀ dst, insn.effect.destination = some dst → insn.writes dst = true

lemma Executes.update {dst : Reg} {result : UInt64} (hdst : insn.effect.destination = some dst)
    (hwrites : insn.writes dst = true) (hleaves : insn.effect.Leaves image regs result) :
    insn.Executes image regs (Function.update regs dst result) := by
  intro reg _
  by_cases hreg : reg = dst
  · subst hreg
    rw [Function.update_self]
    exact ⟨fun hkept => absurd (hwrites.symm.trans hkept) (by decide), fun _ => hleaves⟩
  · rw [Function.update_of_ne hreg]
    exact ⟨fun _ => rfl, fun hdst' => absurd (Option.some.inj (hdst'.symm.trans hdst)) hreg⟩

lemma Executes.unchanged (hdst : insn.effect.destination = none) :
    insn.Executes image regs regs := by
  intro reg _
  exact ⟨fun _ => rfl, fun hdst' => nomatch hdst.symm.trans hdst'⟩

lemma exists_executes (hwrites : insn.WritesDestination) (regs : Registers) :
    ∃ regs', insn.Executes image regs regs' := by
  cases hdst : insn.effect.destination with
  | none => exact ⟨regs, .unchanged hdst⟩
  | some dst =>
    obtain ⟨result, hleaves⟩ := insn.effect.exists_leaves image regs
    exact ⟨_, .update hdst (hwrites dst hdst) hleaves⟩

end Insn

variable {flow : FunctionFlow} {entry regs regs' : Registers}

/-- An execution from the first instruction stands before `index` with registers `regs`. -/
inductive Reaches (flow : FunctionFlow) (entry : Registers) : flow.Index → Registers → Prop where
  | start (h : 0 < flow.insns.length) : Reaches flow entry ⟨0, h⟩ entry
  | step {index next : flow.Index} {regs regs' : Registers} :
      Reaches flow entry index regs → next ∈ flow.edges.succs index →
        (flow.insn index).Executes flow.image regs regs' → Reaches flow entry next regs'

/-! ## What a reported value covers -/

def Value.Covers (entry : Registers) (actual : UInt64) : Value → Prop
  | .constant value => value = actual
  | .entry reg transforms =>
      transforms.foldl (fun value transform => transform.apply value) (entry reg) = actual
  | .unknown _ => True

/-- Some reported value covers the actual one. -/
def Covered (entry : Registers) (actual : UInt64) (values : Finset Value) : Prop :=
  ∃ value ∈ values, value.Covers entry actual

lemma Value.Covers.map {value : Value} {actual : UInt64} (h : value.Covers entry actual)
    (transform : Transform) : (value.map transform).Covers entry (transform.apply actual) := by
  cases value with
  | constant value => exact congrArg transform.apply h
  | entry reg transforms =>
    simp only [Value.map, Value.Covers, List.foldl_append, List.foldl_cons, List.foldl_nil]
    exact congrArg transform.apply h
  | unknown reason => trivial

lemma Covered.singleton_unknown {actual : UInt64} {reason : String} :
    Covered entry actual {.unknown reason} :=
  ⟨_, Finset.mem_singleton_self _, trivial⟩

lemma Covered.mono {actual : UInt64} {values values' : Finset Value}
    (h : Covered entry actual values) (hsub : values ⊆ values') : Covered entry actual values' := by
  obtain ⟨value, hmem, hcovers⟩ := h
  exact ⟨value, hsub hmem, hcovers⟩

/-! ## Questions -/

namespace FunctionFlow

/-- The register whose values an effect is evaluated from. -/
def evaluatedFrom : Effect → Option Reg
  | .copy _ src _ => some src
  | .addImmediate _ src _ _ => some src
  | .insert dst _ _ _ => some dst
  | .signExtend _ src => some src
  | .load _ base hasIndex _ width _ => if hasIndex = false ∧ width = 8 then some base else none
  | _ => none

/-- The search goes on from one question to another. -/
def Follows (flow : FunctionFlow) (query next : flow.Query) : Prop :=
  next.1 ∈ flow.edges.preds query.1 ∧ flow.answer query.2 next.1 = .question next.2

/-- Evaluating an effect for a question starts a search of its own for another. -/
def Starts (flow : FunctionFlow) (query inner : flow.Query) : Prop :=
  inner.1 ∈ flow.edges.preds query.1 ∧ flow.answer query.2 inner.1 = .computed ∧
    evaluatedFrom (flow.insn inner.1).effect = some inner.2

/-- A value that a register has before an instruction because of what some register held on entry,
where the search takes the first instruction for an inner one. -/
inductive Lost (flow : FunctionFlow) (entry : Registers) : flow.Query → UInt64 → Prop where
  | start {index : flow.Index} {reg : Reg} : index.val = 0 → flow.edges.preds index ≠ [] →
      Lost flow entry (index, reg) (entry reg)
  | follows {query next : flow.Query} {value : UInt64} : flow.Follows query next →
      Lost flow entry next value → Lost flow entry query value
  | starts {query inner : flow.Query} {value result : UInt64} : flow.Starts query inner →
      Lost flow entry inner value →
        (flow.insn inner.1).effect.Leaves flow.image (fun _ => value) result →
          Lost flow entry query result

lemma leaves_congr {image : Image} {effect : Effect} {src : Reg} {result : UInt64}
    (hsrc : evaluatedFrom effect = some src) (hsame : regs src = regs' src)
    (h : effect.Leaves image regs result) : effect.Leaves image regs' result := by
  cases effect with
  | load dst base hasIndex displacement width isSigned =>
    simp only [evaluatedFrom, Option.ite_none_right_eq_some, Option.some.injEq] at hsrc
    obtain ⟨-, rfl⟩ := hsrc
    simpa only [Effect.Leaves, hsame] using h
  | copy dst src' mask | addImmediate dst src' value mask | insert dst value shift width
  | signExtend dst src' =>
    cases hsrc
    simpa only [Effect.Leaves, hsame] using h
  | _ => cases hsrc

end FunctionFlow

/-- All answers cover what executions hold, unless it is lost. -/
def Sound (flow : FunctionFlow) (entry : Registers)
    (before : flow.Query → Option (Finset Value)) : Prop :=
  ∀ index reg values regs, before (index, reg) = some values → Reaches flow entry index regs →
    Covered entry (regs reg) values ∨ flow.Lost entry (index, reg) (regs reg)

namespace Sound

variable {before : flow.Query → Option (Finset Value)} {index : flow.Index} {reg : Reg}
  {values : Finset Value}

lemma mapValues (hsound : Sound flow entry before) {transform : Transform}
    (hvalues : flow.mapValues before index reg transform = some values)
    (hreaches : Reaches flow entry index regs) :
    Covered entry (transform.apply (regs reg)) values ∨
    flow.Lost entry (index, reg) (regs reg) := by
  obtain ⟨sources, hsources, rfl⟩ := Option.map_eq_some_iff.1 hvalues
  refine (hsound index reg sources regs hsources hreaches).imp_left ?_
  rintro ⟨value, hmem, hcovers⟩
  exact ⟨_, Finset.mem_image_of_mem _ hmem, hcovers.map transform⟩

lemma gotValue_covers {address actual : UInt64}
    (h : ∀ word, flow.image.gotEntry address = some word → actual = word) :
    (flow.gotValue address).Covers entry actual := by
  unfold FunctionFlow.gotValue
  cases hentry : flow.image.gotEntry address with
  | none => trivial
  | some word => exact (h word hentry).symm

/-- The values found for an effect cover what the effect leaves, unless its operand is lost. -/
lemma evaluate (hsound : Sound flow entry before) {effect : Effect} {result : UInt64}
    (hvalues : flow.evaluate before index effect = some values)
    (hreaches : Reaches flow entry index regs) (hleaves : effect.Leaves flow.image regs result) :
    Covered entry result values ∨ ∃ src, FunctionFlow.evaluatedFrom effect = some src ∧
      flow.Lost entry (index, src) (regs src) := by
  cases effect with
  | unmodelled | addShifted dst left right shift =>
    cases hvalues
    exact Or.inl Covered.singleton_unknown
  | constant dst value =>
    cases hvalues
    exact Or.inl ⟨_, Finset.mem_singleton_self _, Eq.symm hleaves⟩
  | copy dst src mask =>
    have hresult : result = (Transform.mask mask).apply (regs src) := hleaves
    exact hresult ▸ (hsound.mapValues hvalues hreaches).imp_right fun hlost => ⟨src, rfl, hlost⟩
  | addImmediate dst src value mask =>
    have hresult : result = (Transform.add value mask).apply (regs src) := hleaves
    exact hresult ▸ (hsound.mapValues hvalues hreaches).imp_right fun hlost => ⟨src, rfl, hlost⟩
  | insert dst value shift width =>
    have hresult : result = (Transform.insert value shift width).apply (regs dst) := hleaves
    exact hresult ▸ (hsound.mapValues hvalues hreaches).imp_right fun hlost => ⟨dst, rfl, hlost⟩
  | load dst base hasIndex displacement width isSigned =>
    rw [FunctionFlow.evaluate] at hvalues
    split at hvalues
    next hfixed =>
      obtain ⟨bases, hbases, rfl⟩ := Option.map_eq_some_iff.1 hvalues
      rcases hsound index base bases regs hbases hreaches with ⟨value, hmem, hcovers⟩ | hlost
      · refine Or.inl ⟨_, Finset.mem_image_of_mem _ hmem, ?_⟩
        cases value with
        | constant value =>
          have hbase : value = regs base := hcovers
          subst hbase
          exact gotValue_covers (hleaves hfixed.1 hfixed.2)
        | entry reg transforms | unknown reason => trivial
      · exact Or.inr ⟨base, if_pos hfixed, hlost⟩
    · cases hvalues
      exact Or.inl Covered.singleton_unknown
  | signExtend dst src =>
    have hresult : result = Transform.signExtend32.apply (regs src) := hleaves
    exact hresult ▸ (hsound.mapValues hvalues hreaches).imp_right fun hlost => ⟨src, rfl, hlost⟩
  | loadAbsolute dst address =>
    cases hvalues
    exact Or.inl ⟨_, Finset.mem_singleton_self _, gotValue_covers hleaves⟩

lemma and_fullMask (value : UInt64) : value &&& 0xffffffffffffffff = value := by
  have hmask : (0xffffffffffffffff : UInt64) = -1 := by
    decide
  rw [hmask, UInt64.and_neg_one]

lemma fullCopy_eq_some {effect : Effect} {src : Reg}
    (h : FunctionFlow.fullCopy effect reg = some src) :
    effect = .copy reg src 0xffffffffffffffff := by
  cases effect with
  | copy dst src' mask =>
    simp only [FunctionFlow.fullCopy, Option.ite_none_right_eq_some, Option.some.injEq] at h
    obtain ⟨⟨rfl, rfl⟩, rfl⟩ := h
    rfl
  | _ => cases h

lemma computed_spec {pred : flow.Index} (h : flow.answer reg pred = .computed) :
    (flow.insn pred).effect.destination = some reg ∧ (flow.insn pred).writes reg = true := by
  unfold FunctionFlow.answer at h
  dsimp only at h
  split at h
  · cases h
  · split at h
    · cases h
    next hwritten =>
      split at h
      · cases h
      · split at h
        next hdst => exact ⟨hdst, by simpa using hwritten⟩
        · cases h

lemma answer_spec (reg : Reg) {pred : flow.Index}
    (hexecutes : (flow.insn pred).Executes flow.image regs regs') :
    match flow.answer reg pred with
    | .unknown _ => True
    | .question src => regs' reg = regs src
    | .computed => (flow.insn pred).effect.Leaves flow.image regs (regs' reg) := by
  unfold FunctionFlow.answer
  cases hclobbers : (flow.insn pred).clobbers flow.image.architecture reg with
  | true => simp [hclobbers]
  | false =>
    obtain ⟨hkept, hdestination⟩ := hexecutes reg hclobbers
    cases hwrites : (flow.insn pred).writes reg with
    | false => simpa [hclobbers, hwrites] using hkept hwrites
    | true =>
      cases hcopy : FunctionFlow.fullCopy (flow.insn pred).effect reg with
      | some src =>
        -- A copy under the full mask leaves the source's value.
        have heffect := fullCopy_eq_some hcopy
        rw [heffect] at hdestination
        have hleaves : regs' reg = regs src := (hdestination rfl).trans (and_fullMask _)
        simpa [hclobbers, hwrites, hcopy] using hleaves
      | none =>
        by_cases hdst : (flow.insn pred).effect.destination = some reg
        · simpa [hclobbers, hwrites, hcopy, hdst] using hdestination hdst
        · simp [hclobbers, hwrites, hcopy, hdst]

/-- A predecessor's answer covers the register after it, or hands the question on to a register that
held the same value before it, or the value is lost. -/
lemma fromPred (hsound : Sound flow entry before) {pred : flow.Index} {y : Yield flow.Query Value}
    (hmem : pred ∈ flow.edges.preds index) (hy : flow.fromPred before reg pred = some y)
    (hreaches : Reaches flow entry pred regs)
    (hexecutes : (flow.insn pred).Executes flow.image regs regs') :
    Covered entry (regs' reg) y.values ∨ flow.Lost entry (index, reg) (regs' reg) ∨
      ∃ src, (pred, src) ∈ y.items ∧ flow.Follows (index, reg) (pred, src) ∧
        regs' reg = regs src := by
  have hspec := answer_spec reg hexecutes
  unfold FunctionFlow.fromPred at hy
  cases hanswer : flow.answer reg pred with
  | unknown reason =>
    rw [hanswer] at hy
    cases hy
    exact Or.inl Covered.singleton_unknown
  | question src =>
    rw [hanswer] at hy hspec
    cases hy
    exact Or.inr (Or.inr ⟨src, List.mem_singleton_self _, ⟨hmem, hanswer⟩, hspec⟩)
  | computed =>
    rw [hanswer] at hy hspec
    obtain ⟨values, hvalues, rfl⟩ := Option.map_eq_some_iff.1 hy
    refine (hsound.evaluate hvalues hreaches hspec).imp_right fun ⟨src, hsrc, hlost⟩ => Or.inl ?_
    have hstarts : flow.Starts (index, reg) (pred, src) := ⟨hmem, hanswer, hsrc⟩
    exact .starts hstarts hlost (FunctionFlow.leaves_congr hsrc rfl hspec)

/-- The values of a closed search cover every register it asked about, unless its value is lost: an
execution enters at the first instruction or comes from a predecessor that was asked. -/
lemma closed (hsound : Sound flow entry before) {asked : Finset flow.Query}
    {found : Finset Value} (hclosed : Closed (flow.visit before) asked [] found)
    (hreaches : Reaches flow entry index regs) (hasked : (index, reg) ∈ asked) :
    Covered entry (regs reg) found ∨ flow.Lost entry (index, reg) (regs reg) := by
  induction hreaches generalizing reg with
  | start h =>
    by_cases hentry : flow.edges.preds ⟨0, h⟩ = []
    · obtain ⟨y, hy, hvalues, -⟩ := hclosed _ hasked
      rw [FunctionFlow.visit, hentry] at hy
      cases hy
      have hcovers : (Value.entry reg []).Covers entry (entry reg) := rfl
      exact Or.inl (Covered.mono ⟨_, Finset.mem_singleton_self _, hcovers⟩ hvalues)
    · exact Or.inr (.start rfl hentry)
  | @step pred index regs regs' hpred hedge hexecutes ih =>
    obtain ⟨y, hy, hvalues, hitems⟩ := hclosed _ hasked
    have hmem : pred ∈ flow.edges.preds index := (flow.edges.mirrored pred index).1 hedge
    have hnonempty : ¬ (flow.edges.preds index).isEmpty = true := by
      rw [List.isEmpty_iff]
      exact List.ne_nil_of_mem hmem
    rw [FunctionFlow.visit, if_neg hnonempty] at hy
    obtain ⟨y', hy', hvalues', hitems'⟩ := (mem_of_collect hy).1 pred hmem
    rcases hsound.fromPred hmem hy' hpred hexecutes with hcovered | hlost
      | ⟨src, hsrc, hfollows, hsame⟩
    · exact Or.inl (hcovered.mono (hvalues'.trans hvalues))
    · exact Or.inr hlost
    · rcases hitems _ (hitems' _ hsrc) with hasked' | hpending
      · rw [hsame]
        exact (ih hasked').imp_right (.follows hfollows)
      · cases hpending

end Sound

/-- Every answer of the search covers, by induction on the nesting of searches. -/
lemma sound_valuesBefore (hcomplete : flow.incomplete = none) (fuel : Nat) :
    Sound flow entry (flow.valuesBefore fuel) := by
  induction fuel with
  | zero =>
    intro index reg values regs hvalues
    cases hvalues
  | succ fuel ih =>
    intro index reg values regs hvalues hreaches
    rw [FunctionFlow.valuesBefore, hcomplete] at hvalues
    obtain ⟨asked, hasked, hclosed⟩ := explore_closed_start hvalues
    exact ih.closed hclosed hreaches hasked

/-- What is lost is held: some execution has it in the register. -/
lemma FunctionFlow.Lost.reaches (hwrites : ∀ index, (flow.insn index).WritesDestination)
    {query : flow.Query} {value : UInt64} (h : flow.Lost entry query value) :
    ∃ regs, Reaches flow entry query.1 regs ∧ regs query.2 = value := by
  induction h with
  | @start index reg hfirst _ =>
    have hindex : index = ⟨0, hfirst ▸ index.isLt⟩ := Fin.ext hfirst
    exact ⟨entry, hindex ▸ .start _, rfl⟩
  | @follows query next value hfollows _ ih =>
    -- The instruction in between leaves the value where it is asked for, or moves it there.
    obtain ⟨regs, hreaches, rfl⟩ := ih
    obtain ⟨regs', hexecutes⟩ := (flow.insn next.1).exists_executes (hwrites _) regs
    have hspec := Sound.answer_spec query.2 hexecutes
    rw [hfollows.2] at hspec
    exact ⟨regs', hreaches.step ((flow.edges.mirrored _ _).2 hfollows.1) hexecutes, hspec⟩
  | @starts query inner value result hstarts _ hleaves ih =>
    -- The instruction computes its result from the value; this execution takes that result.
    obtain ⟨regs, hreaches, rfl⟩ := ih
    obtain ⟨hdst, hwritten⟩ := Sound.computed_spec hstarts.2.1
    refine ⟨Function.update regs query.2 result,
      hreaches.step ((flow.edges.mirrored _ _).2 hstarts.1) ?_, Function.update_self _ _ _⟩
    refine .update hdst hwritten (leaves_congr hstarts.2.2 ?_ hleaves)
    rfl

/-! ## When the search returns -/

namespace FunctionFlow

/-- A search for `query` needs the result of a search for `inner`. -/
def Needs (flow : FunctionFlow) (inner query : flow.Query) : Prop :=
  ∃ reached, Relation.ReflTransGen flow.Follows query reached ∧ flow.Starts reached inner

/-- No followed computation the search meets depends on itself. -/
def Founded (flow : FunctionFlow) (query : flow.Query) : Prop :=
  Acc flow.Needs query

section Monotone

variable {before before' : flow.Query → Option (Finset Value)}

lemma evaluate_mono
    (hbefore : ∀ query values, before query = some values → before' query = some values)
    {index : flow.Index} {effect : Effect} {values : Finset Value}
    (h : flow.evaluate before index effect = some values) : flow.evaluate before' index effect =
    some values := by
  have hmap : ∀ {query : flow.Query} {f : Finset Value → Finset Value},
      (before query).map f = some values → (before' query).map f = some values := by
    intro query f hmapped
    obtain ⟨sources, hsources, rfl⟩ := Option.map_eq_some_iff.1 hmapped
    rw [hbefore query sources hsources, Option.map_some]
  cases effect with
  | load dst base hasIndex displacement width isSigned =>
    simp only [evaluate] at h ⊢
    split
    case isTrue hfixed =>
      rw [if_pos hfixed] at h
      exact hmap h
    case isFalse hfixed =>
      rwa [if_neg hfixed] at h
  | _ =>
    first
    | exact h
    | exact hmap h

lemma visit_mono
    (hbefore : ∀ query values, before query = some values → before' query = some values)
    {query : flow.Query} {y : Yield flow.Query Value} (h : flow.visit before query = some y) :
    flow.visit before' query = some y := by
  simp only [visit] at h ⊢
  split
  case isTrue hempty =>
    rwa [if_pos hempty] at h
  case isFalse hempty =>
    rw [if_neg hempty] at h
    refine collect_mono (fun pred _ y hy => ?_) h
    simp only [fromPred] at hy ⊢
    cases hanswer : flow.answer query.2 pred with
    | unknown reason | question src => simpa [hanswer] using hy
    | computed =>
      simp only [hanswer, Option.map_eq_some_iff] at hy ⊢
      obtain ⟨values, hvalues, hy⟩ := hy
      exact ⟨values, evaluate_mono hbefore hvalues, hy⟩

lemma valuesBefore_mono {fuel fuel' : Nat} (hfuel : fuel ≤ fuel') {query : flow.Query}
    {values : Finset Value} (h : flow.valuesBefore fuel query = some values) :
    flow.valuesBefore fuel' query = some values := by
  induction fuel generalizing fuel' query values with
  | zero => cases h
  | succ fuel ih =>
    obtain ⟨fuel', rfl, hle⟩ := exists_succ_of_le hfuel
    simp only [valuesBefore] at h ⊢
    cases hincomplete : flow.incomplete with
    | some reason => simpa [hincomplete] using h
    | none =>
      simp only [hincomplete] at h ⊢
      exact explore_mono (fun _ _ => visit_mono fun _ _ => ih hle) hle h

end Monotone

lemma exists_evaluate {before : flow.Query → Option (Finset Value)} {index : flow.Index}
    {effect : Effect}
    (h : ∀ src, evaluatedFrom effect = some src → ∃ values, before (index, src) = some values) :
    ∃ values, flow.evaluate before index effect = some values := by
  have hmap : ∀ {src : Reg} (f : Finset Value → Finset Value), evaluatedFrom effect = some src →
      ∃ values, (before (index, src)).map f = some values := by
    intro src f hsrc
    obtain ⟨values, hvalues⟩ := h src hsrc
    exact ⟨f values, by rw [hvalues, Option.map_some]⟩
  cases effect with
  | load dst base hasIndex displacement width isSigned =>
    simp only [evaluate]
    split
    case isTrue hfixed =>
      exact hmap _ (if_pos hfixed)
    case isFalse hfixed =>
      exact ⟨_, rfl⟩
  | _ =>
    first
    | exact ⟨_, rfl⟩
    | exact hmap _ rfl

/-- Where the inner searches have results, so does the visit, and it goes where `Follows` says. -/
lemma exists_visit {before : flow.Query → Option (Finset Value)} {query : flow.Query}
    (hinner : ∀ inner, flow.Starts query inner → ∃ values, before inner = some values) :
    ∃ y, flow.visit before query = some y ∧ ∀ next ∈ y.items, flow.Follows query next := by
  unfold visit
  split
  case isTrue hempty =>
    split <;> exact ⟨_, rfl, fun next hnext => absurd hnext List.not_mem_nil⟩
  case isFalse hempty =>
    have hpreds :
        ∀ pred ∈ flow.edges.preds query.1, ∃ y, flow.fromPred before query.2 pred = some y := by
      intro pred hpred
      unfold fromPred
      cases hanswer : flow.answer query.2 pred with
      | unknown reason | question src => exact ⟨_, rfl⟩
      | computed =>
        obtain ⟨values, hvalues⟩ : ∃ values, flow.evaluate before pred (flow.insn pred).effect =
            some values :=
          exists_evaluate fun src hsrc => hinner (pred, src) ⟨hpred, hanswer, hsrc⟩
        exact ⟨⟨values, []⟩, by rw [hvalues, Option.map_some]⟩
    obtain ⟨y, hy⟩ := exists_collect hpreds
    refine ⟨y, hy, fun next hnext => ?_⟩
    obtain ⟨pred, hpred, y', hy', hitem⟩ := (mem_of_collect hy).2 next hnext
    -- Only a question pushes an item, and it is the one `Follows` names.
    unfold fromPred at hy'
    split at hy'
    · cases hy'
      cases hitem
    next src hanswer =>
      cases hy'
      rcases List.mem_singleton.1 hitem with rfl
      exact ⟨hpred, hanswer⟩
    · obtain ⟨values, -, rfl⟩ := Option.map_eq_some_iff.1 hy'
      cases hitem

instance : Finite Reg :=
  Finite.of_injective UInt8.toFin fun _ _ => UInt8.toFin_inj.1

lemma exists_common_fuel {inner : flow.Query → Prop}
    (h : ∀ query, inner query → ∃ fuel values, flow.valuesBefore fuel query = some values) :
    ∃ fuel, ∀ query, inner query → ∃ values, flow.valuesBefore fuel query = some values := by
  have := Fintype.ofFinite flow.Query
  choose! fuels values hvalues using h
  refine ⟨Finset.univ.sup fuels, fun query hquery => ⟨values query, ?_⟩⟩
  exact valuesBefore_mono (Finset.le_sup (Finset.mem_univ query)) (hvalues query hquery)

/-- A search returns when no computation it follows depends on itself: by induction on the searches
it needs, which a common fuel answers, after which its own search visits finitely many questions. -/
lemma exists_valuesBefore {query : flow.Query} (h : flow.Founded query) :
    ∃ fuel values, flow.valuesBefore fuel query = some values := by
  classical
  have := Fintype.ofFinite flow.Query
  induction h with
  | intro query _ ih =>
    cases hincomplete : flow.incomplete with
    | some reason => exact ⟨1, _, by simp only [valuesBefore, hincomplete]; rfl⟩
    | none =>
      obtain ⟨fuel, hfuel⟩ := exists_common_fuel ih
      let reached := Finset.univ.filter (Relation.ReflTransGen flow.Follows query)
      have hvisit : ∀ item ∈ reached, ∃ y, flow.visit (flow.valuesBefore fuel) item = some y ∧
          ∀ next ∈ y.items, next ∈ reached := by
        intro item hitem
        have hpath := (Finset.mem_filter.1 hitem).2
        obtain ⟨y, hy, hnext⟩ := exists_visit fun inner hstarts =>
          hfuel inner ⟨item, hpath, hstarts⟩
        refine ⟨y, hy, fun next hmem => Finset.mem_filter.2 ⟨Finset.mem_univ _, ?_⟩⟩
        exact hpath.tail (hnext next hmem)
      have hstart : ∀ item ∈ [query], item ∈ reached := by
        intro item hitem
        rcases List.mem_singleton.1 hitem with rfl
        exact Finset.mem_filter.2 ⟨Finset.mem_univ _, Relation.ReflTransGen.refl⟩
      obtain ⟨steps, values, hvalues⟩ := explore_terminates ∅ ∅ hvisit hstart
      refine ⟨max fuel steps + 1, values, ?_⟩
      simp only [valuesBefore, hincomplete]
      refine explore_mono (fun _ _ => visit_mono fun _ _ => ?_) (Nat.le_max_right _ _) hvalues
      exact valuesBefore_mono (Nat.le_max_left _ _)

end FunctionFlow

end Terrarium.Generator
