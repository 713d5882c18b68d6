import Terrarium.Foundations.Memo
import Terrarium.Generator.PointerUses

/-!
# PointerPasses — following a function pointer into the functions it is passed to

A function pointer that is passed on in argument registers is followed into the callee.  Answers are
kept in a table for each function and set of argument registers; the table says that a function
being followed has no call sites.

* `Program.pointerUsesFromEntry` — the call sites a pointer reaches from a function's entry;
* `pointerUsesFromEntry_exact` — the table changes no answer unless two functions pass the pointer
  to each other; `pointerUsesFromEntry_forgets` is a program where they do.
-/

namespace Terrarium.Generator

open Memo
open Worklist (search_mono)

namespace FunctionFlow

variable (flow : FunctionFlow)

lemma pointerUses_mono {fuel fuel' : Nat} {starts : List flow.Held}
    {uses : Except String flow.PointerUses}
    (hfuel : fuel ≤ fuel') (h : flow.pointerUses fuel starts = some uses) :
    flow.pointerUses fuel' starts = some uses := by
  unfold pointerUses at h ⊢
  cases hincomplete : flow.incomplete with
  | some reason => simpa only [hincomplete] using h
  | none =>
    simp only [hincomplete, Option.map_eq_some_iff] at h ⊢
    obtain ⟨result, hresult, huses⟩ := h
    exact ⟨result, search_mono hfuel hresult, huses⟩

lemma pointerUsesFromEntry_mono {fuel fuel' : Nat} {holding : UInt64}
    {uses : Except String flow.PointerUses}
    (hfuel : fuel ≤ fuel') (h : flow.pointerUsesFromEntry fuel holding = some uses) :
    flow.pointerUsesFromEntry fuel' holding = some uses := by
  unfold pointerUsesFromEntry at h ⊢
  split
  next hpos =>
    rw [dif_pos hpos] at h
    exact flow.pointerUses_mono hfuel h
  next hpos => rwa [dif_neg hpos] at h

lemma exists_pointerUsesFromEntry (holding : UInt64) :
    ∃ fuel uses, flow.pointerUsesFromEntry fuel holding = some uses := by
  unfold pointerUsesFromEntry
  split
  · exact flow.exists_pointerUses _
  · exact ⟨0, _, rfl⟩

end FunctionFlow

/-! ## The program -/

structure Program where
  image : Image
  functions : Nat
  /-- The function that starts at an address. -/
  byStart : UInt64 → Option (Fin functions)
  flow : Fin functions → Except String FunctionFlow

namespace Program

variable (program : Program)

/-- A function, and the argument registers that hold the pointer at its entry. -/
abbrev Pair := Fin program.functions × UInt64

abbrev Site := Fin program.functions × Nat

abbrev CallSites := Answer program.Site String

abbrev EntryUses := Table program.Pair program.Site String

def passTarget (insn : Insn) : Option UInt64 :=
  match insn.flow with
  | .call (.direct target) => some target
  | .tailCall (.direct target) => some target
  | .jump target _ => some target
  | .call (.slot slot) => program.image.readU64 slot
  | .tailCall (.slot slot) => program.image.readU64 slot
  | _ => none

/-- The function a pass goes into, and the registers that hold the pointer there. -/
def passedTo (flow : FunctionFlow) (pass : flow.Held) : Except String program.Pair :=
  match (program.passTarget (flow.insn pass.1)).bind program.byStart with
  | some callee => .ok (callee, pass.2)
  | none =>
      .error (flow.name ++ " passes the function pointer to an unknown callee at " ++
        hex (flow.insn pass.1).address)

/-- The uses of the pointer in one function, with the functions it is passed to. -/
def usesOf (function : Fin program.functions) (flow : FunctionFlow) (uses : flow.PointerUses) :
    Node program.Pair program.Site String :=
  ⟨uses.calls.map fun site => (function, site.val), uses.passes.map (program.passedTo flow)⟩

/-- The uses of the pointer from a function's entry, in that function alone. -/
def ownUses (fuel : Nat) (pair : program.Pair) :
    Option (Except String (Node program.Pair program.Site String)) :=
  match program.flow pair.1 with
  | .error reason => some (.error reason)
  | .ok flow =>
      (flow.pointerUsesFromEntry fuel pair.2).map fun uses => uses.map (program.usesOf pair.1 flow)

/-- The call sites a function pointer reaches from a function's entry, following it into the
functions it is passed to.  A function already being followed adds no sites. -/
def pointerUsesFromEntry (fuel : Nat) (entryUses : program.EntryUses) (pair : program.Pair) :
    Option (program.CallSites × program.EntryUses) :=
  follow program.ownUses fuel entryUses pair

def entryAnswers (fuel : Nat) (queries : List program.Pair) : Option (List program.CallSites) :=
  answers (program.pointerUsesFromEntry fuel) (fun _ => none) queries

/-! ## The answer without a table -/

/-- The pointer is passed on from one function's entry to another's. -/
def PassesTo : program.Pair → program.Pair → Prop :=
  Refers program.ownUses

/-- The pointer escapes, or is passed to an unknown callee. -/
def Escapes : program.Pair → Prop :=
  Broken program.ownUses

def CallsAt : program.Pair → program.Site → Prop :=
  Has program.ownUses

def Reachable : program.Pair → program.Pair → Prop :=
  Reaches program.ownUses

/-- An error if the pointer escapes from a pair that is reached, and otherwise the call sites of all
pairs that are reached. -/
def Exact (pair : program.Pair) : program.CallSites → Prop
  | .error _ => ∃ other, program.Reachable pair other ∧ program.Escapes other
  | .ok sites =>
      (∀ other, program.Reachable pair other → ¬ program.Escapes other) ∧
        ∀ site, site ∈ sites ↔ ∃ other, program.Reachable pair other ∧ program.CallsAt other site

/-- From `pair` on, two different pairs pass the pointer to each other, perhaps through others. -/
def MutualPasses (pair : program.Pair) : Prop :=
  ∃ first second, program.Reachable pair first ∧ program.Reachable first second ∧
    program.Reachable second first ∧ first ≠ second

lemma exact_of_memo {pair : program.Pair} {sites : program.CallSites}
    (h : Memo.Exact program.ownUses pair sites) : program.Exact pair sites := by
  cases sites with
  | error reason | ok sites => exact h

lemma steady_ownUses : Steady program.ownUses where
  total := by
    intro pair
    unfold Expands ownUses
    cases hflow : program.flow pair.1 with
    | error reason => exact ⟨_, 0, rfl⟩
    | ok flow =>
      obtain ⟨fuel, uses, huses⟩ := flow.exists_pointerUsesFromEntry pair.2
      exact ⟨_, fuel, by simp only [huses, Option.map_some]; rfl⟩
  mono := by
    intro fuel fuel' pair result h hfuel
    unfold ownUses at h ⊢
    cases hflow : program.flow pair.1 with
    | error reason => simpa only [hflow] using h
    | ok flow =>
      simp only [hflow, Option.map_eq_some_iff] at h ⊢
      obtain ⟨uses, huses, hresult⟩ := h
      exact ⟨uses, flow.pointerUsesFromEntry_mono hfuel huses, hresult⟩

end Program

/-- Unless two functions pass the pointer to each other, every answer is the one without a table. -/
theorem pointerUsesFromEntry_exact (program : Program) (queries : List program.Pair)
    (hmutual : ∀ pair ∈ queries, ¬ program.MutualPasses pair) :
    ∃ fuel replies, program.entryAnswers fuel queries = some replies ∧
      List.Forall₂ program.Exact queries replies := by
  obtain ⟨fuel, replies, hreplies, hexact⟩ :=
    answers_exact program.steady_ownUses hmutual (fun _ => none) nofun
  refine ⟨fuel, replies, hreplies fuel (Nat.le_refl fuel), ?_⟩
  exact hexact.imp fun _ _ => program.exact_of_memo

/-- `exit; jmp rdi` at `start`. -/
def passerFlow (name : String) (start : UInt64) (exit : Flow) : FunctionFlow where
  image := ⟨.x86_64, []⟩
  name := name
  insns :=
    [⟨start, exit, .unmodelled, 0x0, 0x0⟩, ⟨start + 6, .registerJump 7, .unmodelled, 0x0, 0x80⟩]
  edges := (Edges.none 2).addEdges [(0, 1)]
  incomplete := none

/-- Two functions, at `0x1000` and at `0x2000`; the first passes the pointer to the second with
`je`, and the second passes it on with `exit`. -/
def twoPassers (exit : Flow) : Program where
  image := ⟨.x86_64, []⟩
  functions := 2
  byStart address := if address = 0x1000 then some 0 else if address = 0x2000 then some 1 else none
  flow function :=
    if function = 0 then .ok (passerFlow "first" 0x1000 (.jump 0x2000 true))
    else .ok (passerFlow "second" 0x2000 exit)

section TwoPassers

variable {exit : Flow}

def firstPair : (twoPassers exit).Pair := ((0 : Fin 2), 0x80)

def firstCall : (twoPassers exit).Site := ((0 : Fin 2), 1)

def secondPair : (twoPassers exit).Pair := ((1 : Fin 2), 0x80)

def secondCall : (twoPassers exit).Site := ((1 : Fin 2), 1)

end TwoPassers

theorem pointerUsesFromEntry_exact_recursion :
    ∃ fuel replies,
      (twoPassers (.call (.direct 0x2000))).entryAnswers fuel [firstPair, secondPair, firstPair] =
        some replies ∧
      List.Forall₂ (twoPassers (.call (.direct 0x2000))).Exact
        [firstPair, secondPair, firstPair] replies := by
  let program := twoPassers (.call (.direct 0x2000))
  have hfirst : Expands program.ownUses firstPair (.ok ⟨[firstCall], [.ok secondPair]⟩) :=
    ⟨4, by decide +kernel⟩
  have hsecond : Expands program.ownUses secondPair (.ok ⟨[], [.ok secondPair]⟩) :=
    ⟨4, by decide +kernel⟩
  have hstep : ∀ {pair next}, pair = firstPair ∨ pair = secondPair → program.PassesTo pair next →
      next = secondPair := by
    rintro pair next (rfl | rfl) ⟨node, hnode, hnext⟩
    · cases program.steady_ownUses.unique hfirst hnode
      exact Except.ok.inj (List.mem_singleton.1 hnext)
    · cases program.steady_ownUses.unique hsecond hnode
      exact Except.ok.inj (List.mem_singleton.1 hnext)
  have hreach : ∀ {pair other}, pair = firstPair ∨ pair = secondPair →
      program.Reachable pair other → other = pair ∨ other = secondPair := by
    intro pair other hpair hother
    induction hother with
    | refl => exact Or.inl rfl
    | tail _ hpass ih =>
      rcases ih with rfl | rfl
      · exact Or.inr (hstep hpair hpass)
      · exact Or.inr (hstep (Or.inr rfl) hpass)
  refine pointerUsesFromEntry_exact program _ fun pair hpair => ?_
  have hpair : pair = firstPair ∨ pair = secondPair := by
    rcases List.mem_cons.1 hpair with hpair | hpair
    · exact Or.inl hpair
    · exact (List.mem_pair.1 hpair).symm
  rintro ⟨first, second, hfirst, hsecond, hback, hne⟩
  have hfirst : first = firstPair ∨ first = secondPair := by
    rcases hreach hpair hfirst with rfl | rfl
    · exact hpair
    · exact Or.inr rfl
  rcases hreach hfirst hsecond with rfl | rfl
  · exact hne rfl
  · rcases hreach (Or.inr rfl) hback with rfl | rfl
    · exact hne rfl
    · exact hne rfl

/-- Once the first function was followed, the answer for the second one lacks the call site in the
first. -/
theorem pointerUsesFromEntry_forgets :
    (twoPassers (.jump 0x1000 true)).entryAnswers 8 [secondPair] =
    some [.ok [secondCall, firstCall]] ∧
    (twoPassers (.jump 0x1000 true)).entryAnswers 8 [firstPair, secondPair] =
      some [.ok [firstCall, secondCall], .ok [secondCall]] ∧
    ¬ (twoPassers (.jump 0x1000 true)).Exact secondPair (.ok [secondCall]) := by
  refine ⟨by decide +kernel, by decide +kernel, fun hexact => ?_⟩
  have hpass : (twoPassers (.jump 0x1000 true)).PassesTo secondPair firstPair :=
    ⟨⟨[secondCall], [.ok firstPair]⟩, ⟨4, by decide +kernel⟩, by decide⟩
  have hcall : (twoPassers (.jump 0x1000 true)).CallsAt firstPair firstCall :=
    ⟨⟨[firstCall], [.ok secondPair]⟩, ⟨4, by decide +kernel⟩, by decide⟩
  have hmem := (hexact.2 firstCall).2 ⟨firstPair, Relation.ReflTransGen.single hpass, hcall⟩
  exact absurd hmem (by decide)

end Terrarium.Generator
