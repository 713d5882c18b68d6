import Mathlib.Tactic.Common

/-!
# Async — tasks that share a state

A task runs until it awaits a reply.  While it is suspended the shared state may change in any way;
then it is resumed with the reply.

* `Safe Q task since now` — the weakest condition for `Q` to hold of every stretch of the task
  between two suspensions: `Q since now result` relates the state at the start of the stretch to the
  state at its end, with the result if the task is done.
-/

namespace Terrarium.Async

/-- A task over a state `σ` that makes calls of type `κ`. -/
inductive Task (σ : Type) {κ : Type} (Reply : κ → Type) (ρ : Type) : Type where
  | done (result : ρ)
  | await (call : κ) (next : Reply call → Task σ Reply ρ)
  | access (update : σ → σ) (next : σ → Task σ Reply ρ)

variable {σ κ ε α β : Type} {Reply : κ → Type}

namespace Task

def bind : Task σ Reply α → (α → Task σ Reply β) → Task σ Reply β
  | .done result, next => next result
  | .await call continue_, next => .await call fun reply => (continue_ reply).bind next
  | .access update continue_, next => .access update fun state => (continue_ state).bind next

instance : Monad (Task σ Reply) where
  pure := .done
  bind := bind

lemma bind_done (task : Task σ Reply α) : task.bind .done = task := by
  induction task with
  | done result => rfl
  | await call next ih => exact congrArg (Task.await call) (funext ih)
  | access update next ih => exact congrArg (Task.access update) (funext ih)

lemma bind_bind {γ : Type} (task : Task σ Reply α) (first : α → Task σ Reply β)
    (second : β → Task σ Reply γ) :
    (task.bind first).bind second = task.bind fun result => (first result).bind second := by
  induction task with
  | done result => rfl
  | await call next ih => exact congrArg (Task.await call) (funext ih)
  | access update next ih => exact congrArg (Task.access update) (funext ih)

instance : LawfulMonad (Task σ Reply) :=
  LawfulMonad.mk' _ bind_done (fun _ _ => rfl) bind_bind

def poll : Task σ Reply α → σ → Task σ Reply α × σ
  | .done result, state => (.done result, state)
  | .await call next, state => (.await call next, state)
  | .access update next, state => (next state).poll (update state)

def resume (replies : ∀ call, Reply call) : Task σ Reply α → Task σ Reply α
  | .await call next => next (replies call)
  | task => task

def call (c : κ) : Task σ Reply (Reply c) :=
  .await c .done

end Task

/-- What a task may end with: a result, or nothing yet. -/
abbrev Post (σ ρ : Type) := σ → σ → Option ρ → Prop

/-- Every stretch of the task satisfies `Q`, of which the first began at `since` and is at `now`. -/
def Safe (Q : Post σ α) : Task σ Reply α → σ → σ → Prop
  | .done result, since, now => Q since now (some result)
  | .await _ next, since, now => Q since now none ∧ ∀ reply later, Safe Q (next reply) later later
  | .access update next, since, now => Safe Q (next now) since (update now)

/-- Whenever the task is resumed, every stretch of it satisfies `Q`. -/
def Ready (Q : Post σ α) (task : Task σ Reply α) : Prop :=
  ∀ replies later, Safe Q (task.resume replies) later later

variable {Q Q' : Post σ α} {task : Task σ Reply α} {since now : σ}

lemma Safe.mono (h : Safe Q task since now)
    (hpost : ∀ since now result, Q since now result → Q' since now result) :
    Safe Q' task since now := by
  induction task generalizing since now with
  | done result => exact hpost _ _ _ h
  | await call next ih => exact ⟨hpost _ _ _ h.1, fun reply later => ih reply (h.2 reply later)⟩
  | access update next ih => exact ih now h

lemma ready_of_safe (h : ∀ state, Safe Q task state state) : Ready Q task := by
  intro replies later
  cases task with
  | done result | access update next => exact h later
  | await call next => exact (h later).2 _ later

def andThen (Q : Post σ β) (next : α → Task σ Reply β) : Post σ α :=
  fun since now result =>
    match result with
    | none => Q since now none
    | some result => Safe Q (next result) since now

lemma safe_bind {Q : Post σ β} {next : α → Task σ Reply β} :
    Safe Q (task.bind next) since now ↔ Safe (andThen Q next) task since now := by
  induction task generalizing since now with
  | done result => exact Iff.rfl
  | await call continue_ ih =>
    exact and_congr_right fun _ => forall_congr' fun reply => forall_congr' fun later => ih reply
  | access update continue_ ih => exact ih now

lemma Safe.of_poll {task' : Task σ Reply α} {state : σ} (h : Safe Q task since now)
    (hpoll : task.poll now = (task', state)) :
    (∃ result, task' = .done result ∧ Q since state (some result)) ∨
      (∃ call next, task' = .await call next) ∧ Q since state none ∧ Ready Q task' := by
  induction task generalizing since now with
  | done result =>
    cases hpoll
    exact Or.inl ⟨result, rfl, h⟩
  | await call next _ =>
    cases hpoll
    exact Or.inr ⟨⟨call, next, rfl⟩, h.1, fun replies later => h.2 _ later⟩
  | access update next ih => exact ih now h hpoll

/-! ## Tasks that may fail -/

abbrev Fallible (σ : Type) {κ : Type} (Reply : κ → Type) (ε : Type) := ExceptT ε (Task σ Reply)

def immediate (result : Except ε α) : Fallible σ Reply ε α :=
  Task.done result

def callResult (c : κ) (view : Reply c → Except ε α) : Fallible σ Reply ε α :=
  Task.await c fun reply => .done (view reply)

/-- The condition of a sequence of tasks that ends with the first error. -/
def andThenOk (Q : Post σ (Except ε β)) (next : α → Fallible σ Reply ε β) : Post σ (Except ε α) :=
  fun since now result =>
    match result with
    | none => Q since now none
    | some (.error reason) => Q since now (some (.error reason))
    | some (.ok value) => Safe Q (next value).run since now

section Rules

variable {Q : Post σ (Except ε β)} {next : α → Fallible σ Reply ε β}

lemma safe_bindOk {first : Fallible σ Reply ε α} :
    Safe Q (first >>= next).run since now ↔ Safe (andThenOk Q next) first.run since now := by
  change Safe Q (Task.bind first.run _) since now ↔ _
  rw [safe_bind]
  have hpost : andThen Q (ExceptT.bindCont next) = andThenOk Q next := by
    funext since now result
    rcases result with _ | _ | _
    · rfl
    · rfl
    · rfl
  rw [hpost]

lemma safe_callResult {c : κ} {view : Reply c → Except ε α} :
    Safe Q (callResult c view >>= next).run since now ↔
      Q since now none ∧ ∀ reply later, match view reply with
        | .error reason => Q later later (some (.error reason))
        | .ok value => Safe Q (next value).run later later := by
  rw [safe_bindOk]
  refine and_congr_right fun _ => forall_congr' fun reply => forall_congr' fun later => ?_
  change andThenOk Q next later later (some (view reply)) ↔ _
  cases view reply with
  | error reason | ok value => exact Iff.rfl

end Rules

/-! ## Polls of a sequence -/

lemma poll_bind {next : α → Task σ Reply β} {state state' : σ} {result : α}
    (h : task.poll state = (.done result, state')) :
    (task.bind next).poll state = (next result).poll state' := by
  induction task generalizing state with
  | done result' =>
    cases h
    rfl
  | await call continue_ _ => cases h
  | access update continue_ ih => exact ih state h

lemma poll_bindOk {first : Fallible σ Reply ε α} {next : α → Fallible σ Reply ε β}
    {state state' : σ} {value : α} (h : first.run.poll state = (.done (.ok value), state')) :
    (first >>= next).run.poll state = (next value).run.poll state' :=
  poll_bind h

lemma poll_bind_error {first : Fallible σ Reply ε α} {next : α → Fallible σ Reply ε β}
    {state state' : σ} {reason : ε} (h : first.run.poll state = (.done (.error reason), state')) :
    (first >>= next).run.poll state = (.done (.error reason), state') :=
  poll_bind h

/-! ## Steps that leave the state alone -/

/-- Reads the state, changes it, and goes on unless there is an error. -/
def update (step : σ → Except ε α × σ) : Fallible σ Reply ε α :=
  Task.access (fun state => (step state).2) fun state => .done (step state).1

/-- A condition that a stretch satisfies which changes nothing and returns nothing. -/
structure Quiet (Q : Post σ (Except ε α)) : Prop where
  suspended : ∀ state, Q state state none
  failed : ∀ state reason, Q state state (some (.error reason))

namespace Quiet

variable {Q : Post σ (Except ε β)} {next : α → Fallible σ Reply ε β} {state : σ}

lemma immediate (hQ : Quiet Q) {result : Except ε α}
    (hnext : ∀ value, result = .ok value → Safe Q (next value).run state state) :
    Safe Q (immediate result >>= next).run state state := by
  cases result with
  | error reason => exact hQ.failed state reason
  | ok value => exact hnext value rfl

lemma callResult (hQ : Quiet Q) {c : κ} {view : Reply c → Except ε α}
    (hnext : ∀ value later, Safe Q (next value).run later later) :
    Safe Q (callResult c view >>= next).run state state := by
  rw [safe_callResult]
  refine ⟨hQ.suspended state, fun reply later => ?_⟩
  cases view reply with
  | error reason => exact hQ.failed later reason
  | ok value => exact hnext value later

lemma update (hQ : Quiet Q) {step : σ → Except ε α × σ} (hread : (step state).2 = state)
    (hnext : ∀ value, (step state).1 = .ok value → Safe Q (next value).run state state) :
    Safe Q (update step >>= next).run state state := by
  rw [safe_bindOk]
  change andThenOk Q next state (step state).2 (some (step state).1)
  rw [hread]
  cases hstep : (step state).1 with
  | error reason => exact hQ.failed state reason
  | ok value => exact hnext value hstep

end Quiet

end Terrarium.Async
