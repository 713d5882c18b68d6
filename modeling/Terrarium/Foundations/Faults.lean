import Mathlib.Data.List.Basic

/-!
# Faults — programs whose operations may fail or be the last

A program works on a state through operations.  Each operation meets a fate: it works, it fails with
an I/O error, or the process stops there.  Fates are given in advance as a list; operations beyond
its end work.  The states passed through are recorded, so that one can say what was ever written.

This file defines:

* `Prog`, a monad; `atomic` operations, which happen or do not, and `breakable` ones, which may be
  cut short; `attempt`, which turns an error into a value;
* `Ensures` — pre- and postconditions for the three ways a program ends, with one rule for each
  construction.
-/

namespace Terrarium.Faults

/-- What befalls an operation; `how` says what a breakable one had done by then. -/
inductive Fate (κ : Type) where
  | works
  | fails (how : κ)
  | crashes (how : κ)

inductive Exit (ε α : Type) where
  | done (a : α)
  | failed (e : ε)
  | crashed
  deriving DecidableEq

/-- The state, and the states before it, newest first. -/
structure Trail (σ : Type) where
  past : List σ
  now : σ

namespace Trail

variable {σ : Type}

def push (trail : Trail σ) (state : σ) : Trail σ :=
  ⟨trail.now :: trail.past, state⟩

def Saw (trail : Trail σ) (P : σ → Prop) : Prop :=
  ∃ state ∈ trail.now :: trail.past, P state

instance {trail : Trail σ} {P : σ → Prop} [DecidablePred P] : Decidable (trail.Saw P) :=
  inferInstanceAs (Decidable (∃ state ∈ trail.now :: trail.past, P state))

@[simp] lemma saw_push {trail : Trail σ} {state : σ} {P : σ → Prop} :
    (trail.push state).Saw P ↔ P state ∨ trail.Saw P := by
  simp [Saw, push]

end Trail

structure World (σ κ : Type) where
  trail : Trail σ
  fates : List (Fate κ)

def Prog (σ κ ε α : Type) : Type :=
  World σ κ → Exit ε α × World σ κ

variable {σ κ ε ε' α β γ : Type}

namespace Prog

def bind (m : Prog σ κ ε α) (f : α → Prog σ κ ε β) : Prog σ κ ε β := fun world =>
  match m world with
  | (.done a, world) => f a world
  | (.failed e, world) => (.failed e, world)
  | (.crashed, world) => (.crashed, world)

instance : Monad (Prog σ κ ε) where
  pure a := fun world => (.done a, world)
  bind := bind

def throw (e : ε) : Prog σ κ ε α := fun world =>
  (.failed e, world)

/-- Runs to an end in any case but a crash. -/
def attempt (m : Prog σ κ ε α) : Prog σ κ ε' (Except ε α) := fun world =>
  match m world with
  | (.done a, world) => (.done (.ok a), world)
  | (.failed e, world) => (.done (.error e), world)
  | (.crashed, world) => (.crashed, world)

def mapError (f : ε → ε') (m : Prog σ κ ε α) : Prog σ κ ε' α := fun world =>
  match m world with
  | (.done a, world) => (.done a, world)
  | (.failed e, world) => (.failed (f e), world)
  | (.crashed, world) => (.crashed, world)

def compute (f : σ → Except ε α × σ) : Prog σ κ ε α := fun world =>
  match f world.trail.now with
  | (.ok a, state) => (.done a, ⟨world.trail.push state, world.fates⟩)
  | (.error e, state) => (.failed e, ⟨world.trail.push state, world.fates⟩)

def perform (effect : σ → Except ε (α × σ)) (trail : Trail σ) (fates : List (Fate κ)) :
    Exit ε α × World σ κ :=
  match effect trail.now with
  | .ok (a, state) => (.done a, ⟨trail.push state, fates⟩)
  | .error e => (.failed e, ⟨trail, fates⟩)

/-- An operation that fails without effect, with the error `io` when it is disturbed. -/
def atomic (io : ε) (effect : σ → Except ε (α × σ)) : Prog σ κ ε α := fun world =>
  match world.fates with
  | [] => perform effect world.trail []
  | .works :: fates => perform effect world.trail fates
  | .fails _ :: fates => (.failed io, ⟨world.trail, fates⟩)
  | .crashes _ :: fates => (.crashed, ⟨world.trail, fates⟩)

/-- An operation that may be cut short. -/
def breakable (io : ε) (effect : σ → Except ε (α × σ)) (part : κ → σ → σ) :
    Prog σ κ ε α := fun world =>
  match world.fates with
  | [] => perform effect world.trail []
  | .works :: fates => perform effect world.trail fates
  | .fails how :: fates => (.failed io, ⟨world.trail.push (part how world.trail.now), fates⟩)
  | .crashes how :: fates => (.crashed, ⟨world.trail.push (part how world.trail.now), fates⟩)

def each (body : γ → Prog σ κ ε Unit) : List γ → Prog σ κ ε Unit
  | [] => pure ()
  | x :: xs => do
      body x
      each body xs

def collect (body : γ → Prog σ κ ε α) : List γ → Prog σ κ ε (List α)
  | [] => pure []
  | x :: xs => do
      let a ← body x
      let as ← collect body xs
      return a :: as

end Prog

open Prog

/-! ## Pre- and postconditions -/

def Exit.Meets (done : α → Trail σ → Prop) (failed : ε → Trail σ → Prop)
    (crashed : Trail σ → Prop) : Exit ε α → Trail σ → Prop
  | .done a, trail => done a trail
  | .failed e, trail => failed e trail
  | .crashed, trail => crashed trail

/-- From a state in `pre` the program ends as the postconditions say, whatever befalls it. -/
def Ensures (pre : Trail σ → Prop) (m : Prog σ κ ε α) (done : α → Trail σ → Prop)
    (failed : ε → Trail σ → Prop) (crashed : Trail σ → Prop) : Prop :=
  ∀ world, pre world.trail → (m world).1.Meets done failed crashed (m world).2.trail

/-- The program completes as `done` says; stopped by an error or a crash, it leaves `broken`. -/
abbrev EndsOr (pre : Trail σ → Prop) (m : Prog σ κ ε α) (done : α → Trail σ → Prop)
    (broken : Trail σ → Prop) : Prop :=
  Ensures pre m done (fun _ => broken) broken

abbrev Preserves (P : Trail σ → Prop) (m : Prog σ κ ε α) : Prop := EndsOr P m (fun _ => P) P

namespace Ensures

variable {pre pre' : Trail σ → Prop} {m : Prog σ κ ε α} {done done' : α → Trail σ → Prop}
  {failed failed' : ε → Trail σ → Prop} {crashed crashed' : Trail σ → Prop}

lemma mono (h : Ensures pre m done failed crashed) (hpre : ∀ t, pre' t → pre t)
    (hdone : ∀ a t, done a t → done' a t) (hfailed : ∀ e t, failed e t → failed' e t)
    (hcrashed : ∀ t, crashed t → crashed' t) : Ensures pre' m done' failed' crashed' := by
  intro world hworld
  have hmeets := h world (hpre _ hworld)
  generalize m world = result at hmeets ⊢
  obtain ⟨exit, world'⟩ := result
  cases exit with
  | done a => exact hdone a _ hmeets
  | failed e => exact hfailed e _ hmeets
  | crashed => exact hcrashed _ hmeets

lemma pure {a : α} (h : ∀ t, pre t → done a t) :
    Ensures pre (Pure.pure a : Prog σ κ ε α) done failed crashed :=
  fun world hworld => h world.trail hworld

lemma throw {e : ε} (h : ∀ t, pre t → failed e t) :
    Ensures pre (Prog.throw e : Prog σ κ ε α) done failed crashed :=
  fun world hworld => h world.trail hworld

lemma bind {mid : α → Trail σ → Prop} {f : α → Prog σ κ ε β} {done : β → Trail σ → Prop}
    (hm : Ensures pre m mid failed crashed) (hf : ∀ a, Ensures (mid a) (f a) done failed crashed) :
    Ensures pre (m >>= f) done failed crashed := by
  intro world hworld
  have hmeets := hm world hworld
  change (Prog.bind m f world).1.Meets _ _ _ (Prog.bind m f world).2.trail
  unfold Prog.bind
  generalize m world = result at hmeets ⊢
  obtain ⟨exit, world'⟩ := result
  cases exit with
  | done a => exact hf a world' hmeets
  | failed e | crashed => exact hmeets

lemma weaken (h : Ensures pre m done failed crashed) (hdone : ∀ a t, done a t → done' a t)
    (hfailed : ∀ e t, failed e t → failed' e t) (hcrashed : ∀ t, crashed t → crashed' t) :
    Ensures pre m done' failed' crashed' :=
  mono h (fun _ h => h) hdone hfailed hcrashed

lemma weaken_crashed (h : Ensures pre m done failed crashed)
    (hcrashed : ∀ t, crashed t → crashed' t) : Ensures pre m done failed crashed' :=
  weaken h (fun _ _ h => h) (fun _ _ h => h) hcrashed

lemma weaken_preserves {P Q : Trail σ → Prop} (h : Preserves P m) (hPQ : ∀ t, P t → Q t) :
    EndsOr P m (fun _ => Q) Q :=
  weaken h (fun _ => hPQ) (fun _ => hPQ) hPQ

lemma trail {P : Trail σ → Prop} (h : EndsOr pre m (fun _ => P) P) {world : World σ κ}
    (hworld : pre world.trail) : P (m world).2.trail := by
  have hmeets := h world hworld
  generalize m world = result at hmeets ⊢
  rcases result with ⟨_ | _ | _, _⟩ <;> exact hmeets

/-- After an attempt either ending goes on. -/
theorem attempt {post : Except ε α → Trail σ → Prop} {failed : ε' → Trail σ → Prop}
    (h : Ensures pre m (fun a => post (.ok a)) (fun e => post (.error e)) crashed) :
    Ensures pre (Prog.attempt m : Prog σ κ ε' (Except ε α)) post failed crashed := by
  intro world hworld
  have hmeets := h world hworld
  unfold Prog.attempt
  generalize m world = result at hmeets ⊢
  obtain ⟨exit, world'⟩ := result
  cases exit with
  | done a | failed e | crashed => exact hmeets

lemma attempt_bind {β : Type} {mid : α → Trail σ → Prop} {broken : ε → Trail σ → Prop}
    {done : β → Trail σ → Prop} {failed : ε' → Trail σ → Prop} {f : Except ε α → Prog σ κ ε' β}
    (hm : Ensures pre m mid broken crashed)
    (hok : ∀ a, Ensures (mid a) (f (.ok a)) done failed crashed)
    (herror : ∀ e, Ensures (broken e) (f (.error e)) done failed crashed) :
    Ensures pre (Prog.attempt m >>= f) done failed crashed := by
  have hattempt : Ensures pre (Prog.attempt m : Prog σ κ ε' (Except ε α))
      (fun result => result.casesOn broken mid) failed crashed := attempt hm
  refine bind hattempt fun result => ?_
  cases result with
  | ok a => exact hok a
  | error e => exact herror e

lemma mapError {f : ε → ε'} {failed : ε' → Trail σ → Prop}
    (h : Ensures pre m done (fun e => failed (f e)) crashed) :
    Ensures pre (Prog.mapError f m) done failed crashed := by
  intro world hworld
  have hmeets := h world hworld
  unfold Prog.mapError
  generalize m world = result at hmeets ⊢
  obtain ⟨exit, world'⟩ := result
  cases exit with
  | done a | failed e | crashed => exact hmeets

lemma compute {f : σ → Except ε α × σ}
    (hok : ∀ t a s, pre t → f t.now = (.ok a, s) → done a (t.push s))
    (herror : ∀ t e s, pre t → f t.now = (.error e, s) → failed e (t.push s)) :
    Ensures pre (Prog.compute f : Prog σ κ ε α) done failed crashed := by
  intro world hworld
  unfold Prog.compute
  rcases hresult : f world.trail.now with ⟨e | a, s⟩
  · exact herror _ e s hworld hresult
  · exact hok _ a s hworld hresult

lemma compute_always {f : σ → Except ε α × σ} {P : Trail σ → Prop}
    (h : ∀ t, pre t → P (t.push (f t.now).2)) :
    EndsOr pre (Prog.compute f : Prog σ κ ε α) (fun _ => P) P := by
  refine compute ?_ ?_
  · intro t a s ht hf
    simpa [hf] using h t ht
  · intro t e s ht hf
    simpa [hf] using h t ht

section Effect

variable {effect : σ → Except ε (α × σ)}
    (hok : ∀ t a s, pre t → effect t.now = .ok (a, s) → done a (t.push s))
  (herror : ∀ t e, pre t → effect t.now = .error e → failed e t)

include hok herror

lemma perform {t : Trail σ} (ht : pre t) (fates : List (Fate κ)) :
    (Prog.perform effect t fates).1.Meets done failed crashed
      (Prog.perform effect t fates).2.trail := by
  unfold Prog.perform
  cases heffect : effect t.now with
  | error e => exact herror t e ht heffect
  | ok result =>
    obtain ⟨a, s⟩ := result
    exact hok t a s ht heffect

theorem atomic {io : ε} (hio : ∀ t, pre t → failed io t) (hcrash : ∀ t, pre t → crashed t) :
    Ensures pre (Prog.atomic io effect : Prog σ κ ε α) done failed crashed := by
  intro world hworld
  obtain ⟨trail, fates⟩ := world
  rcases fates with - | ⟨- | how | how, fates⟩
  · exact perform hok herror hworld []
  · exact perform hok herror hworld fates
  · exact hio trail hworld
  · exact hcrash trail hworld

theorem breakable {io : ε} {part : κ → σ → σ}
    (hio : ∀ t how, pre t → failed io (t.push (part how t.now)))
    (hcrash : ∀ t how, pre t → crashed (t.push (part how t.now))) :
    Ensures pre (Prog.breakable io effect part : Prog σ κ ε α) done failed crashed := by
  intro world hworld
  obtain ⟨trail, fates⟩ := world
  rcases fates with - | ⟨- | how | how, fates⟩
  · exact perform hok herror hworld []
  · exact perform hok herror hworld fates
  · exact hio trail how hworld
  · exact hcrash trail how hworld

end Effect

/-- A loop keeps an invariant that speaks of the elements that are left. -/
lemma each {body : γ → Prog σ κ ε Unit} (inv : List γ → Trail σ → Prop) (xs : List γ)
    (hbody : ∀ x rest, Ensures (inv (x :: rest)) (body x) (fun _ => inv rest) failed crashed) :
    Ensures (inv xs) (Prog.each body xs) (fun _ => inv []) failed crashed := by
  induction xs with
  | nil => exact pure fun _ h => h
  | cons x xs ih => exact bind (hbody x xs) fun _ => ih

/-- A loop keeps an invariant that speaks of how many elements are done. -/
lemma each_count {body : γ → Prog σ κ ε Unit} (inv : Nat → Trail σ → Prop) (xs : List γ)
    (hbody : ∀ i x, xs[i]? = some x →
      Ensures (inv i) (body x) (fun _ => inv (i + 1)) failed crashed) :
    Ensures (inv 0) (Prog.each body xs) (fun _ => inv xs.length) failed crashed := by
  induction xs generalizing inv with
  | nil => exact pure fun _ h => h
  | cons x xs ih =>
    have hrest := ih (fun i => inv (i + 1)) fun i x' hx' => hbody (i + 1) x' hx'
    exact bind (hbody 0 x rfl) fun _ => hrest

lemma collect {body : γ → Prog σ κ ε α} {value : γ → α} (xs : List γ)
    (hbody : ∀ x ∈ xs, Ensures pre (body x) (fun a t => pre t ∧ a = value x) failed crashed) :
    Ensures pre (Prog.collect body xs) (fun as t => pre t ∧ as = xs.map value) failed crashed := by
  induction xs with
  | nil => exact pure fun _ h => ⟨h, rfl⟩
  | cons x xs ih =>
    refine bind (hbody x List.mem_cons_self) fun a => ?_
    have hrest : Ensures (fun t => pre t ∧ a = value x) (Prog.collect body xs)
        (fun as t => pre t ∧ a :: as = (x :: xs).map value) failed crashed := by
      intro world hworld
      have hxs := ih fun x' hx' => hbody x' (List.mem_cons_of_mem _ hx')
      refine mono hxs (fun _ ht => ht) (fun as t ht => ?_) (fun _ _ ht => ht)
        (fun _ ht => ht) world hworld.1
      exact ⟨ht.1, by rw [hworld.2, ht.2, List.map_cons]⟩
    exact bind hrest fun as => pure fun t ht => ht

end Ensures

/-! ## Marks -/

section Marks

variable {mark : σ → Prop} {seen : Prop} {P X : σ → Prop} {Q : α → σ → Prop} {E : ε → σ → Prop}
  {io : ε} {effect : σ → Except ε (α × σ)}

/-- `P` holds now, and `seen` says whether some state so far bears the mark. -/
def Marked (mark : σ → Prop) (seen : Prop) (P : σ → Prop) (trail : Trail σ) : Prop :=
  P trail.now ∧ (trail.Saw mark ↔ seen)

namespace Marked

lemma mono {trail : Trail σ} (h : Marked mark seen P trail) (hX : ∀ d, P d → X d) :
    Marked mark seen X trail :=
  ⟨hX _ h.1, h.2⟩

lemma push {trail : Trail σ} {state : σ} (h : Marked mark seen P trail) (hX : X state)
    (hmark : mark state → seen ∨ mark trail.now) : Marked mark seen X (trail.push state) := by
  refine ⟨hX, Trail.saw_push.trans ⟨?_, fun hseen => Or.inr (h.2.2 hseen)⟩⟩
  rintro (hstate | hsaw)
  · rcases hmark hstate with hseen | hnow
    · exact hseen
    · exact h.2.1 ⟨_, List.mem_cons_self, hnow⟩
  · exact h.2.1 hsaw

end Marked

namespace Ensures

lemma atomic_marked
    (hok : ∀ d a d', P d → effect d = .ok (a, d') → Q a d' ∧ (mark d' → seen ∨ mark d))
    (herror : ∀ d e, P d → effect d = .error e → E e d) (hio : ∀ d, P d → E io d) :
    Ensures (Marked mark seen P) (Prog.atomic io effect : Prog σ κ ε α)
      (fun a => Marked mark seen (Q a)) (fun e => Marked mark seen (E e)) (Marked mark seen P) := by
  apply Ensures.atomic
  · intro t a s ht heffect
    obtain ⟨hQ, hmark⟩ := hok _ a s ht.1 heffect
    exact ht.push hQ hmark
  · intro t e ht heffect
    exact ⟨herror _ e ht.1 heffect, ht.2⟩
  · intro t ht
    exact ⟨hio _ ht.1, ht.2⟩
  · intro t ht
    exact ht

lemma atomic_mark (hok : ∀ d a d', P d → effect d = .ok (a, d') → Q a d' ∧ mark d')
    (herror : ∀ d e, P d → effect d = .error e → E e d) (hio : ∀ d, P d → E io d) :
    Ensures (Marked mark seen P) (Prog.atomic io effect : Prog σ κ ε α)
      (fun a => Marked mark True (Q a)) (fun e => Marked mark seen (E e)) (Marked mark seen P) := by
  apply Ensures.atomic
  · intro t a s ht heffect
    obtain ⟨hQ, hmark⟩ := hok _ a s ht.1 heffect
    exact ⟨hQ, iff_true_intro ⟨_, List.mem_cons_self, hmark⟩⟩
  · intro t e ht heffect
    exact ⟨herror _ e ht.1 heffect, ht.2⟩
  · intro t ht
    exact ⟨hio _ ht.1, ht.2⟩
  · intro t ht
    exact ht

lemma breakable_marked {part : κ → σ → σ}
    (hok : ∀ d a d', P d → effect d = .ok (a, d') → Q a d' ∧ (mark d' → seen ∨ mark d))
    (herror : ∀ d e, P d → effect d = .error e → E e d)
    (hpart : ∀ d how, P d → P (part how d) ∧ (mark (part how d) → seen ∨ mark d))
    (hio : ∀ d, P d → E io d) :
    Ensures (Marked mark seen P) (Prog.breakable io effect part : Prog σ κ ε α)
      (fun a => Marked mark seen (Q a)) (fun e => Marked mark seen (E e)) (Marked mark seen P) := by
  apply Ensures.breakable
  · intro t a s ht heffect
    obtain ⟨hQ, hmark⟩ := hok _ a s ht.1 heffect
    exact ht.push hQ hmark
  · intro t e ht heffect
    exact ⟨herror _ e ht.1 heffect, ht.2⟩
  · intro t how ht
    exact ht.push (hio _ (hpart _ how ht.1).1) (hpart _ how ht.1).2
  · intro t how ht
    exact ht.push (hpart _ how ht.1).1 (hpart _ how ht.1).2

end Ensures

end Marks

/-! ## Kept properties -/

/-- The program keeps `P`, however it ends. -/
def Keeps (P : σ → Prop) (m : Prog σ κ ε α) : Prop :=
  Ensures (fun t => P t.now) m (fun _ t => P t.now) (fun _ t => P t.now) (fun t => P t.now)

namespace Keeps

variable {P : σ → Prop} {m : Prog σ κ ε α} {effect : σ → Except ε (α × σ)} {io : ε}

lemma pure {a : α} : Keeps P (Pure.pure a : Prog σ κ ε α) := Ensures.pure fun _ h => h

lemma throw {e : ε} : Keeps P (Prog.throw e : Prog σ κ ε α) := Ensures.throw fun _ h => h

lemma bind {f : α → Prog σ κ ε β} (hm : Keeps P m) (hf : ∀ a, Keeps P (f a)) : Keeps P (m >>= f) :=
  Ensures.bind hm hf

theorem attempt (h : Keeps P m) : Keeps P (Prog.attempt m : Prog σ κ ε' (Except ε α)) :=
    Ensures.attempt h

lemma mapError {f : ε → ε'} (h : Keeps P m) : Keeps P (Prog.mapError f m) := Ensures.mapError h

theorem atomic (hok : ∀ s a s', P s → effect s = .ok (a, s') → P s') :
    Keeps P (Prog.atomic io effect : Prog σ κ ε α) :=
  Ensures.atomic (fun t a s ht heffect => hok t.now a s ht heffect) (fun _ _ ht _ => ht)
    (fun _ ht => ht) (fun _ ht => ht)

theorem breakable {part : κ → σ → σ} (hok : ∀ s a s', P s → effect s = .ok (a, s') → P s')
    (hpart : ∀ s how, P s → P (part how s)) :
    Keeps P (Prog.breakable io effect part : Prog σ κ ε α) :=
  Ensures.breakable (fun t a s ht heffect => hok t.now a s ht heffect) (fun _ _ ht _ => ht)
    (fun t how ht => hpart t.now how ht) (fun t how ht => hpart t.now how ht)

lemma compute {f : σ → Except ε α × σ} (h : ∀ s, P s → P (f s).2) :
    Keeps P (Prog.compute f : Prog σ κ ε α) :=
  Ensures.compute_always fun t ht => h t.now ht

end Keeps

/-! ## Undisturbed runs -/

/-- Nothing befalls the operations from here on. -/
def World.Calm (world : World σ κ) : Prop :=
  ∀ fate ∈ world.fates, fate = .works

/-- Undisturbed, the program ends as the postconditions say, and does not crash. -/
def Achieves (pre : Trail σ → Prop) (m : Prog σ κ ε α) (done : α → Trail σ → Prop)
    (failed : ε → Trail σ → Prop) : Prop :=
  ∀ world : World σ κ, world.Calm → pre world.trail →
    (m world).1.Meets done failed (fun _ => False) (m world).2.trail ∧ (m world).2.Calm

namespace Achieves

variable {pre : Trail σ → Prop} {m : Prog σ κ ε α} {done : α → Trail σ → Prop}
  {failed : ε → Trail σ → Prop}

lemma pure {a : α} (h : ∀ t, pre t → done a t) :
    Achieves pre (Pure.pure a : Prog σ κ ε α) done failed :=
  fun world hcalm hworld => ⟨h world.trail hworld, hcalm⟩

lemma bind {mid : α → Trail σ → Prop} {f : α → Prog σ κ ε β} {done : β → Trail σ → Prop}
    (hm : Achieves pre m mid failed) (hf : ∀ a, Achieves (mid a) (f a) done failed) :
    Achieves pre (m >>= f) done failed := by
  intro world hcalm hworld
  obtain ⟨hmeets, hcalm'⟩ := hm world hcalm hworld
  change (Prog.bind m f world).1.Meets _ _ _ (Prog.bind m f world).2.trail ∧
    (Prog.bind m f world).2.Calm
  unfold Prog.bind
  generalize m world = result at hmeets hcalm' ⊢
  obtain ⟨exit, world'⟩ := result
  cases exit with
  | done a => exact hf a world' hcalm' hmeets
  | failed e => exact ⟨hmeets, hcalm'⟩
  | crashed => exact hmeets.elim

theorem attempt {post : Except ε α → Trail σ → Prop} {failed : ε' → Trail σ → Prop}
    (h : Achieves pre m (fun a => post (.ok a)) (fun e => post (.error e))) :
    Achieves pre (Prog.attempt m : Prog σ κ ε' (Except ε α)) post failed := by
  intro world hcalm hworld
  obtain ⟨hmeets, hcalm'⟩ := h world hcalm hworld
  unfold Prog.attempt
  generalize m world = result at hmeets hcalm' ⊢
  obtain ⟨exit, world'⟩ := result
  cases exit with
  | done a | failed e => exact ⟨hmeets, hcalm'⟩
  | crashed => exact hmeets.elim

lemma attempt_ignored {post : Trail σ → Prop} (h : Achieves pre m (fun _ => post) (fun _ => post)) :
    Achieves pre (do let _ ← Prog.attempt m; return () : Prog σ κ ε Unit) (fun _ => post) failed :=
  have hattempt : Achieves pre (Prog.attempt m) (fun _ => post) failed := attempt h
  bind hattempt fun _ => pure fun _ ht => ht

theorem atomic {io : ε} {effect : σ → Except ε (α × σ)}
    (hok : ∀ t a s, pre t → effect t.now = .ok (a, s) → done a (t.push s))
    (herror : ∀ t e, pre t → effect t.now = .error e → failed e t) :
    Achieves pre (Prog.atomic io effect : Prog σ κ ε α) done failed := by
  have hperform : ∀ (t : Trail σ) (fates : List (Fate κ)), pre t → (∀ fate ∈ fates, fate = .works) →
      (Prog.perform effect t fates).1.Meets done failed (fun _ => False)
        (Prog.perform effect t fates).2.trail ∧ (Prog.perform effect t fates).2.Calm := by
    intro t fates ht hcalm
    refine ⟨Ensures.perform hok herror ht fates, ?_⟩
    unfold Prog.perform
    split <;> exact hcalm
  rintro ⟨trail, fates⟩ hcalm hworld
  rcases fates with - | ⟨- | how | how, fates⟩
  · exact hperform trail [] hworld hcalm
  · exact hperform trail fates hworld fun fate hfate => hcalm fate (List.mem_cons_of_mem _ hfate)
  · cases hcalm _ List.mem_cons_self
  · cases hcalm _ List.mem_cons_self

lemma each {body : γ → Prog σ κ ε Unit} (inv : List γ → Trail σ → Prop) (xs : List γ)
    (hbody : ∀ x rest, Achieves (inv (x :: rest)) (body x) (fun _ => inv rest) failed) :
    Achieves (inv xs) (Prog.each body xs) (fun _ => inv []) failed := by
  induction xs with
  | nil => exact pure fun _ h => h
  | cons x xs ih => exact bind (hbody x xs) fun _ => ih

end Achieves

end Terrarium.Faults
