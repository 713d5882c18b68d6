import Terrarium.Generator.PointerUses

/-!
# PointerSoundness — what the followed uses of a pointer leave out

* `Tracked` : the registers that hold the pointer along a path from one of the starts
* `Accounted` : every use on every path is in the result, and no path returns the pointer or reads
  it otherwise
* `HandsOver` : what the search overlooks

The search takes an indirect jump without a jump table for the end of the path.  Such a jump leaves
the function, as a tail call does, and takes the pointer along in the argument registers.  A call
through an argument register also hands over that register.
-/

namespace Terrarium.Generator

open Seccomp (Architecture)
open Worklist

namespace FunctionFlow

/-! ## Paths -/

/-- The registers that hold the pointer when a path from one of the starts stands before `index`. -/
inductive Tracked (flow : FunctionFlow) (starts : List flow.Held) : flow.Index → UInt64 → Prop where
  | start {index : flow.Index} {holding : UInt64} :
      (index, holding) ∈ starts → Tracked flow starts index holding
  | step {index next : flow.Index} {holding : UInt64} :
      Tracked flow starts index holding → next ∈ flow.edges.succs index →
      Tracked flow starts next ((flow.insn index).nextHolding holding flow.image.architecture)

section

variable (flow : FunctionFlow)

/-- An indirect jump that no jump table explains. -/
def isIndirectExit (index : flow.Index) : Bool :=
  isIndirectJump (flow.insn index).flow && (flow.edges.succs index).isEmpty

/-- Control leaves the function at this instruction, other than by returning. -/
def leaves (index : flow.Index) : Bool :=
  match (flow.insn index).flow with
  | .call _ => true
  | .tailCall _ => true
  | .syscall => true
  | .legacySyscall => true
  | .jump target _ => flow.indexOf target = none
  | _ => flow.isIndirectExit index

end

end FunctionFlow

/-- The argument registers in which the code outside receives the pointer; the register of a jump is
where it goes. -/
def Insn.received (insn : Insn) (holding : UInt64) (architecture : Architecture) : UInt64 :=
  match insn.flow with
  | .registerJump target => holding &&& argumentBits architecture &&& ~~~registerBit target
  | _ => holding &&& argumentBits architecture

namespace FunctionFlow

variable {flow : FunctionFlow} {starts : List flow.Held} {uses : flow.PointerUses}

/-- Every use of the pointer on every path is in the result. -/
structure Accounted (flow : FunctionFlow) (starts : List flow.Held) (uses : flow.PointerUses) :
    Prop where
  calls : ∀ index holding reg, Tracked flow starts index holding →
    (flow.insn index).through = some reg → holding &&& registerBit reg ≠ 0 → index ∈ uses.calls
  exits : ∀ index holding, Tracked flow starts index holding → flow.leaves index = true →
    (flow.insn index).received holding flow.image.architecture ≠ 0 →
    (index, (flow.insn index).received holding flow.image.architecture) ∈ uses.passes
  returns : ∀ index holding, Tracked flow starts index holding → (flow.insn index).flow = .ret →
    holding &&& registerBit returnValue = 0
  reads : ∀ index holding, Tracked flow starts index holding →
    (flow.insn index).readMask &&& holding &&& ~~~(flow.insn index).allowed holding = 0

/-- The pointer leaves the function unnoticed: in an argument register at an indirect jump out of
it, or in the argument register a call goes through. -/
def HandsOver (flow : FunctionFlow) (index : flow.Index) (holding : UInt64) : Prop :=
  (flow.isIndirectExit index = true ∧
    (flow.insn index).received holding flow.image.architecture ≠ 0) ∨
  ∃ reg, (flow.insn index).flow = .call (.register reg) ∧
    holding &&& argumentBits flow.image.architecture &&& registerBit reg ≠ 0

/-! ## Without the pointer -/

lemma copied_zero (insn : Insn) : insn.copied 0 = none := by
  unfold Insn.copied
  cases insn.effect <;> simp

lemma nextHolding_zero (insn : Insn) (architecture : Architecture) :
    insn.nextHolding 0 architecture = 0 := by
  simp [Insn.nextHolding, copied_zero, chosenBit]

lemma received_zero (insn : Insn) (architecture : Architecture) :
    insn.received 0 architecture = 0 := by
  unfold Insn.received
  cases insn.flow <;> simp

/-! ## The search -/

/-- The instructions the search records as handing the pointer on. -/
def isDirectExit : Flow → Bool
  | .call (.direct _) => true
  | .call (.slot _) => true
  | .tailCall _ => true
  | .jump _ _ => true
  | _ => false

lemma isDirectExit_of_isIndirectJump {exit : Flow} (h : isIndirectJump exit = true) :
    isDirectExit exit = false := by
  cases exit with
  | registerJump reg | absoluteTableJump table scale | unknownJump => rfl
  | _ => cases h

/-- Every state seen was inspected, its uses were recorded and the states after it are seen or
pending. -/
structure Explored (flow : FunctionFlow) (starts : List flow.Held) (seen : Finset flow.Held)
    (pending : List flow.Held) (uses : flow.PointerUses) : Prop where
  starts : ∀ state ∈ starts, state.2 = 0 ∨ state ∈ seen ∨ state ∈ pending
  inspected : ∀ state ∈ seen, ∃ handsOn, flow.inspect state = .ok handsOn ∧
    ((flow.insn state.1).target state.2 ≠ none → state.1 ∈ uses.calls) ∧
    (handsOn = true →
      (state.1, (flow.insn state.1).passed state.2 flow.image.architecture) ∈ uses.passes) ∧
    ∀ next ∈ flow.nextStates state, next.2 = 0 ∨ next ∈ seen ∨ next ∈ pending
  passes : ∀ state ∈ uses.passes, isDirectExit (flow.insn state.1).flow = true

variable {state : flow.Held} {insn : Insn} {holding : UInt64}

lemma isDirectExit_of_inspect (h : flow.inspect state = .ok true) :
    isDirectExit (flow.insn state.1).flow = true := by
  unfold inspect at h
  simp only [] at h
  split at h
  · cases h
  · unfold handsOn at h
    unfold isDirectExit
    rcases hflow : (flow.insn
      state.1).flow with _ | _ | _ | (_ | _ | _ | _) | _ | _ | _ | _ | _ | _ | _ <;>
      simp only [hflow] at h ⊢ <;> first | rfl | (split at h <;> cases h) | cases h

namespace Explored

variable {seen : Finset flow.Held} {pending : List flow.Held} {state : flow.Held}

lemma skip (h : Explored flow starts seen (state :: pending) uses)
    (hdrop : decide (state.2 = 0) = true ∨ state ∈ seen) :
    Explored flow starts seen pending uses := by
  have hmem : ∀ next : flow.Held, next.2 = 0 ∨ next ∈ seen ∨ next ∈ state :: pending →
      next.2 = 0 ∨ next ∈ seen ∨ next ∈ pending := by
    rintro next (hzero | hseen | hpending)
    · exact Or.inl hzero
    · exact Or.inr (Or.inl hseen)
    · rcases List.mem_cons.1 hpending with rfl | hpending
      · rcases hdrop with hzero | hseen
        · exact Or.inl (of_decide_eq_true hzero)
        · exact Or.inr (Or.inl hseen)
      · exact Or.inr (Or.inr hpending)
  refine ⟨fun next hnext => hmem next (h.starts next hnext), fun next hnext => ?_, h.passes⟩
  obtain ⟨handsOn, hinspect, hcalls, hpasses, hitems⟩ := h.inspected next hnext
  exact ⟨handsOn, hinspect, hcalls, hpasses, fun item hitem => hmem item (hitems item hitem)⟩

lemma visit (h : Explored flow starts seen (state :: pending) uses) {handsOn : Bool}
    (hinspect : flow.inspect state = .ok handsOn) :
    Explored flow starts (insert state seen) (flow.nextStates state ++ pending)
      (flow.addUses state handsOn uses) := by
  have hmem : ∀ next : flow.Held, next.2 = 0 ∨ next ∈ seen ∨ next ∈ state :: pending →
      next.2 = 0 ∨ next ∈ insert state seen ∨ next ∈ flow.nextStates state ++ pending := by
    rintro next (hzero | hseen | hpending)
    · exact Or.inl hzero
    · exact Or.inr (Or.inl (Finset.mem_insert_of_mem hseen))
    · rcases List.mem_cons.1 hpending with rfl | hpending
      · exact Or.inr (Or.inl (Finset.mem_insert_self _ _))
      · exact Or.inr (Or.inr (List.mem_append_right _ hpending))
  have hcallsKept : ∀ index ∈ uses.calls, index ∈ (flow.addUses state handsOn uses).calls := by
    intro index hindex
    unfold addUses
    simp only []
    split
    · exact List.mem_append_left _ hindex
    · exact hindex
  have hpassesKept : ∀ pass ∈ uses.passes, pass ∈ (flow.addUses state handsOn uses).passes := by
    intro pass hpass
    unfold addUses
    split
    · exact List.mem_append_left _ hpass
    · exact hpass
  refine ⟨fun next hnext => hmem next (h.starts next hnext), fun next hnext => ?_,
    fun pass hpass => ?_⟩
  · rcases Finset.mem_insert.1 hnext with rfl | hnext
    · refine ⟨handsOn, hinspect, fun htarget => ?_, fun hhands => ?_, fun item hitem => ?_⟩
      · have hsome : ((flow.insn next.1).target next.2).isSome = true :=
          Option.isSome_iff_ne_none.2 htarget
        simp [addUses, hsome]
      · simp [addUses, hhands]
      · exact Or.inr (Or.inr (List.mem_append_left _ hitem))
    · obtain ⟨handsOn', hinspect', hcalls, hpasses, hitems⟩ := h.inspected next hnext
      exact ⟨handsOn', hinspect', fun htarget => hcallsKept _ (hcalls htarget),
        fun hhands => hpassesKept _ (hpasses hhands), fun item hitem =>
        hmem item (hitems item hitem)⟩
  · cases hhands : handsOn with
    | false =>
      rw [hhands] at hpass
      exact h.passes pass hpass
    | true =>
      rw [hhands] at hpass hinspect
      rcases List.mem_append.1 hpass with hpass | hpass
      · exact h.passes pass hpass
      · obtain rfl := List.mem_singleton.1 hpass
        exact (isDirectExit_of_inspect hinspect : isDirectExit (flow.insn state.1).flow = true)

lemma tracked {all : Finset flow.Held} (h : Explored flow starts all [] uses) {index : flow.Index}
    {holding : UInt64} (htracked : Tracked flow starts index holding) : holding = 0 ∨
    (index, holding) ∈ all := by
  induction htracked with
  | start hstart =>
    rcases h.starts _ hstart with hzero | hseen | hpending
    · exact Or.inl hzero
    · exact Or.inr hseen
    · cases hpending
  | @step index next holding _ hedge ih =>
    rcases ih with rfl | hseen
    · exact Or.inl (nextHolding_zero _ _)
    · obtain ⟨_, -, -, -, hitems⟩ := h.inspected _ hseen
      have hnext : (next, (flow.insn index).nextHolding holding flow.image.architecture) ∈
          flow.nextStates (index, holding) :=
        List.mem_reverse.2 (List.mem_map.2 ⟨next, hedge, rfl⟩)
      rcases hitems _ hnext with hzero | hseen | hpending
      · exact Or.inl hzero
      · exact Or.inr hseen
      · cases hpending

end Explored

lemma explored_of_pointerUses {fuel : Nat} (hcomplete : flow.incomplete = none)
    (h : flow.pointerUses fuel starts = some (.ok uses)) :
    ∃ all, Explored flow starts all [] uses := by
  rw [pointerUses, hcomplete] at h
  obtain ⟨result, hsearch, hresult⟩ := Option.map_eq_some_iff.1 h
  cases result with
  | error e => cases hresult
  | ok acc =>
    obtain rfl : acc.2 = uses := Except.ok.inj hresult
    have hstart : Explored flow starts ∅ starts.reverse ⟨[], []⟩ :=
      ⟨fun state hstate => Or.inr (Or.inr (List.mem_reverse.2 hstate)),
        fun _ hstate => absurd hstate (Finset.notMem_empty _), fun _ hpass =>
        absurd hpass List.not_mem_nil⟩
    refine search_rule (fun seen pending acc => Explored flow starts seen pending acc.2)
      (fun seen state pending acc
        (hinv : Explored flow starts seen (state :: pending) acc.2) hdrop =>
        hinv.skip hdrop) ?_ hstart hsearch
    intro seen state pending acc acc' items hinv _ hstep
    unfold pointerStep at hstep
    split at hstep
    · cases hstep
    next handsOn hinspect =>
      cases hstep
      exact hinv.visit hinspect

/-! ## What an inspected instruction says -/

lemma inspect_eq_ok {handsOn : Bool} (h : flow.inspect state = .ok handsOn) :
    (flow.insn state.1).readMask &&& state.2 &&& ~~~(flow.insn state.1).allowed state.2 = 0 ∧
      flow.handsOn (flow.insn state.1) state.2 = .ok handsOn := by
  unfold inspect at h
  simp only [] at h
  split at h
  next hreads =>
    cases h
  next hreads =>
    exact ⟨not_not.1 hreads, h⟩

lemma target_eq_of_through (hthrough : insn.through = none) : insn.target holding = none := by
  rw [Insn.target, hthrough]
  rfl

lemma passed_of_through (architecture : Architecture) (hthrough : insn.through = none) :
    insn.passed holding architecture = holding &&& argumentBits architecture := by
  rw [Insn.passed, target_eq_of_through hthrough]
  simp [chosenBit]

lemma eq_zero_of_parts {bits part : UInt64} (hin : bits &&& part = 0)
    (hout : bits &&& ~~~part = 0) : bits = 0 := by
  have hsplit : bits = (bits &&& part) ||| (bits &&& ~~~part) := by
    apply UInt64.toBitVec_inj.1
    rw [UInt64.toBitVec_or, UInt64.toBitVec_and, UInt64.toBitVec_and, UInt64.toBitVec_not]
    ext i hi
    simp only [BitVec.getElem_or, BitVec.getElem_and, BitVec.getElem_not]
    cases bits.toBitVec[i] <;> cases part.toBitVec[i] <;> rfl
  rw [hsplit, hin, hout]
  rfl

/-- An accepted call through a register receives the pointer at most in that register. -/
lemma received_of_register_call {reg : Reg} {architecture : Architecture}
    (hflow : insn.flow = .call (.register reg)) (hpassed : insn.passed holding architecture = 0)
    (hreg : holding &&& argumentBits architecture &&& registerBit reg = 0) :
    holding &&& argumentBits architecture = 0 := by
  have hthrough : insn.through = some reg := by
    rw [Insn.through, hflow]
  rw [Insn.passed, Insn.target, hthrough] at hpassed
  by_cases hholds : holding &&& registerBit reg ≠ 0
  · rw [Option.filter_some, if_pos (by simpa using hholds)] at hpassed
    exact eq_zero_of_parts hreg hpassed
  · rw [Option.filter_some, if_neg (by simpa using hholds)] at hpassed
    simpa [chosenBit] using hpassed

/-- At an exit that is not overlooked, the receiving registers are recorded or there are none. -/
lemma exits_of_inspect {handsOn : Bool} (h : flow.inspect state = .ok handsOn)
    (hleaves : flow.leaves state.1 = true) (hover : ¬ HandsOver flow state.1 state.2)
    (hreceived : (flow.insn state.1).received state.2 flow.image.architecture ≠ 0) :
    handsOn = true ∧ (flow.insn state.1).received state.2 flow.image.architecture =
      (flow.insn state.1).passed state.2 flow.image.architecture := by
  obtain ⟨-, hhands⟩ := inspect_eq_ok h
  -- where no register is gone through, the receiving registers are the passed ones
  have hdirect : (flow.insn state.1).through = none →
      (flow.insn state.1).received state.2 flow.image.architecture =
        state.2 &&& argumentBits flow.image.architecture →
      (flow.insn state.1).passed state.2 flow.image.architecture ≠ 0 ∧
        (flow.insn state.1).received state.2 flow.image.architecture =
          (flow.insn state.1).passed state.2 flow.image.architecture := by
    intro hthrough heq
    rw [passed_of_through _ hthrough, ← heq]
    exact ⟨hreceived, rfl⟩
  have hindirect : flow.isIndirectExit state.1 = true → handsOn = true ∧
      (flow.insn state.1).received state.2 flow.image.architecture =
        (flow.insn state.1).passed state.2 flow.image.architecture :=
    fun hexit => absurd (Or.inl ⟨hexit, hreceived⟩) hover
  have hplain : isIndirectJump (flow.insn state.1).flow = false →
      flow.isIndirectExit state.1 = false :=
    fun hjump => by rw [isIndirectExit, hjump, Bool.false_and]
  unfold FunctionFlow.handsOn at hhands
  unfold leaves at hleaves
  cases hflow : (flow.insn state.1).flow with
  | next | stop | ret =>
    rw [hflow] at hleaves
    exact absurd hleaves (by rw [hplain (by rw [hflow]; rfl)]; exact Bool.false_ne_true)
  | registerJump reg | absoluteTableJump table scale | unknownJump =>
    rw [hflow] at hleaves
    exact hindirect hleaves
  | syscall | legacySyscall =>
    obtain ⟨hpassed, -⟩ := hdirect (by rw [Insn.through, hflow]) (by rw [Insn.received, hflow])
    rw [hflow] at hhands
    simp only [if_pos hpassed] at hhands
    cases hhands
  | tailCall callee =>
    obtain ⟨hpassed, heq⟩ := hdirect (by rw [Insn.through, hflow]) (by rw [Insn.received, hflow])
    rw [hflow] at hhands
    exact ⟨(Except.ok.inj hhands).symm.trans (decide_eq_true hpassed), heq⟩
  | jump target isConditional =>
    obtain ⟨hpassed, heq⟩ := hdirect (by rw [Insn.through, hflow]) (by rw [Insn.received, hflow])
    rw [hflow] at hhands hleaves
    exact ⟨(Except.ok.inj hhands).symm.trans
      (decide_eq_true ⟨hpassed, of_decide_eq_true hleaves⟩), heq⟩
  | call callee =>
    cases callee with
    | direct target | slot address =>
      obtain ⟨hpassed, heq⟩ := hdirect (by rw [Insn.through, hflow]) (by rw [Insn.received, hflow])
      rw [hflow] at hhands
      exact ⟨(Except.ok.inj hhands).symm.trans (decide_eq_true hpassed), heq⟩
    | indirect =>
      obtain ⟨hpassed, -⟩ := hdirect (by rw [Insn.through, hflow]) (by rw [Insn.received, hflow])
      rw [hflow] at hhands
      simp only [if_pos hpassed] at hhands
      cases hhands
    | register reg =>
      rw [hflow] at hhands
      simp only [] at hhands
      split at hhands
      next hpassed =>
        cases hhands
      next hpassed =>
        have hreg : state.2 &&& argumentBits flow.image.architecture &&& registerBit reg = 0 :=
          not_not.1 fun hne => hover (Or.inr ⟨reg, hflow, hne⟩)
        rw [Insn.received, hflow] at hreceived
        exact absurd (received_of_register_call hflow (not_not.1 hpassed) hreg) hreceived

/-- What the search returns accounts for every use of the pointer exactly if no path hands it over
unnoticed. -/
lemma Explored.accounted_iff {all : Finset flow.Held} (h : Explored flow starts all [] uses) :
    Accounted flow starts uses ↔
      ∀ index holding, Tracked flow starts index holding → ¬ HandsOver flow index holding := by
  constructor
  · rintro haccounted index holding htracked (⟨hexit, hreceived⟩ | ⟨reg, hflow, hreg⟩)
    · have hjump : isIndirectJump (flow.insn index).flow = true := (Bool.and_eq_true_iff.1 hexit).1
      have hleaves : flow.leaves index = true := by
        unfold leaves
        cases hflow : (flow.insn index).flow <;>
          rw [hflow] at hjump <;> first | exact hexit | cases hjump
      have hdirect := h.passes _ (haccounted.exits index holding htracked hleaves hreceived)
      simp only [isDirectExit_of_isIndirectJump hjump] at hdirect
      cases hdirect
    · have hreceives : (flow.insn index).received holding flow.image.architecture =
          holding &&& argumentBits flow.image.architecture := by
        rw [Insn.received, hflow]
      have hreceived : (flow.insn index).received holding flow.image.architecture ≠ 0 := by
        intro hzero
        rw [← hreceives, hzero] at hreg
        exact hreg (by simp)
      have hdirect :=
        h.passes _ (haccounted.exits index holding htracked (by rw [leaves, hflow]) hreceived)
      simp only [hflow] at hdirect
      cases hdirect
  · intro hover
    refine ⟨?_, ?_, ?_, ?_⟩
    · intro index holding reg htracked hthrough hholds
      rcases h.tracked htracked with rfl | hseen
      · exact absurd (by simp) hholds
      · obtain ⟨_, -, hcalls, -⟩ := h.inspected _ hseen
        refine hcalls ?_
        simp [Insn.target, hthrough, hholds]
    · intro index holding htracked hleaves hreceived
      rcases h.tracked htracked with rfl | hseen
      · exact absurd (received_zero _ _) hreceived
      · obtain ⟨_, hinspect, -, hpasses, -⟩ := h.inspected _ hseen
        obtain ⟨hhands, heq⟩ :=
          exits_of_inspect hinspect hleaves (hover index holding htracked) hreceived
        rw [heq]
        exact hpasses hhands
    · intro index holding htracked hflow
      rcases h.tracked htracked with rfl | hseen
      · simp
      · obtain ⟨_, hinspect, -⟩ := h.inspected _ hseen
        obtain ⟨-, hhands⟩ := inspect_eq_ok hinspect
        simp only [FunctionFlow.handsOn, hflow] at hhands
        by_contra hholds
        rw [if_pos hholds] at hhands
        cases hhands
    · intro index holding htracked
      rcases h.tracked htracked with rfl | hseen
      · simp
      · obtain ⟨_, hinspect, -⟩ := h.inspected _ hseen
        exact (inspect_eq_ok hinspect).1

end FunctionFlow

/-! ## The result -/

/-- For a function whose control flow is known, what the search returns accounts for every use of
the pointer on every path from the starts if and only if no path hands it over at an indirect jump
out of the function or in the argument register a call goes through. -/
theorem pointerUses_accounts (flow : FunctionFlow) (hcomplete : flow.incomplete = none)
    (starts : List flow.Held) (fuel : Nat) (uses : flow.PointerUses)
    (h : flow.pointerUses fuel starts = some (.ok uses)) :
    flow.Accounted starts uses ↔
      ∀ index holding, flow.Tracked starts index holding → ¬ flow.HandsOver index holding := by
  obtain ⟨all, hexplored⟩ := FunctionFlow.explored_of_pointerUses hcomplete h
  exact hexplored.accounted_iff

def callFlow : FunctionFlow where
  image := ⟨.x86_64, []⟩
  name := "call"
  insns :=
    [⟨0x1000, .call (.register 0), .unmodelled, 0x0, 0x1⟩, ⟨0x1002, .ret, .unmodelled, 0x0, 0x0⟩]
  edges := (Edges.none 2).addEdges [(0, 1)]
  incomplete := none

theorem pointerUses_accounts_call :
    callFlow.pointerUses 8 [((0 : Fin 2), 0x1)] = some (.ok ⟨[(0 : Fin 2)], []⟩) ∧
      callFlow.Accounted [((0 : Fin 2), 0x1)] ⟨[(0 : Fin 2)], []⟩ := by
  have huses : callFlow.pointerUses 8 [((0 : Fin 2), 0x1)] = some (.ok ⟨[(0 : Fin 2)], []⟩) := by
    rfl
  refine ⟨huses, (pointerUses_accounts callFlow rfl _ 8 _ huses).2 ?_⟩
  intro index holding htracked
  have hstates : (index, holding) = ((0 : Fin 2), 0x1) ∨ (index, holding) = ((1 : Fin 2), 0x0) := by
    induction htracked with
    | start hstart => exact Or.inl (List.mem_singleton.1 hstart)
    | step _ hedge ih =>
      rcases ih with heq | heq
      · cases heq
        right
        have hnext : _ = (1 : Fin 2) := List.mem_singleton.1 hedge
        rw [hnext]
        rfl
      · cases heq
        exact absurd hedge List.not_mem_nil
  rcases hstates with heq | heq
  · cases heq
    rintro (⟨hexit, -⟩ | ⟨reg, hflow, hreg⟩)
    · exact absurd hexit (by decide)
    · cases hflow
      exact hreg (by decide)
  · cases heq
    rintro (⟨hexit, -⟩ | ⟨reg, hflow, -⟩)
    · exact absurd hexit (by decide)
    · cases hflow

def tailJump : List Insn :=
  [⟨0x1000, .registerJump 0, .unmodelled, 0x0, 0x1⟩]

def tailJumpFlow : FunctionFlow where
  image := ⟨.x86_64, []⟩
  name := "tail"
  insns := tailJump
  edges := Edges.none 1
  incomplete := none

/-- Entered with the pointer in its first argument, the function hands it to whatever `rax` points
to; the search reports no use at all. -/
theorem pointerUses_misses_jump :
    FunctionFlow.new 1 ⟨.x86_64, []⟩ "tail" ⟨0x1000, 0x1002⟩ tailJump false ⟨[], ∅, [], []⟩ =
      some tailJumpFlow ∧
    tailJumpFlow.incomplete = none ∧
    tailJumpFlow.pointerUsesFromEntry 4 0x80 = some (.ok ⟨[], []⟩) ∧
    ¬ tailJumpFlow.Accounted [((0 : Fin 1), 0x80)] ⟨[], []⟩ := by
  refine ⟨rfl, rfl, rfl, fun haccounted => ?_⟩
  have hpass :=
    haccounted.exits (0 : Fin 1) 0x80 (.start List.mem_cons_self) (by decide) (by decide)
  cases hpass

end Terrarium.Generator
