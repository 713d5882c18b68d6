import Mathlib.Data.List.Perm.Basic
import Mathlib.Data.List.Pairwise
import Mathlib.Tactic.Common

/-!
# Dispatch — queues of jobs that exclude each other

Jobs arrive in a queue, start when nothing stands against it, and finish in any order.  A job may
have a key; two jobs with one key exclude each other, and the earlier one goes first.

* `Step key room` — one event; `room` says whether one more job may be active.

In every run jobs with one key start in the order they arrived (`Steps.ordered`), no job is lost or
doubled (`Steps.conserved`), and what `room` allows is never exceeded (`Steps.bounded`).
-/

namespace Terrarium.Dispatch

variable {α κ : Type}

structure Queue (α : Type) where
  pending : List α
  active : List α

inductive Event (α : Type) where
  | arrive (job : α)
  | start (job : α)
  | finish (job : α)
  | discard (jobs : List α)

lemma split_at {jobs : List α} {index : Nat} {job : α} (h : jobs[index]? = some job) :
    ∃ before after, jobs = before ++ job :: after ∧ before.length = index ∧
      jobs.eraseIdx index = before ++ after := by
  obtain ⟨hlt, hget⟩ := List.getElem?_eq_some_iff.1 h
  refine ⟨jobs.take index, jobs.drop (index + 1), ?_, List.length_take_of_le (Nat.le_of_lt hlt), ?_⟩
  · rw [← hget, List.getElem_cons_drop, List.take_append_drop]
  · rw [List.eraseIdx_eq_take_drop_succ]

def Conflict (key : α → Option κ) (a b : α) : Prop :=
  ∃ k, key a = some k ∧ key b = some k

lemma Conflict.symm {key : α → Option κ} {a b : α} (h : Conflict key a b) : Conflict key b a := by
  obtain ⟨k, ha, hb⟩ := h
  exact ⟨k, hb, ha⟩

/-- One event.  A job starts if there is room and neither an active nor an earlier pending job has
its key. -/
inductive Step (key : α → Option κ) (room : List α → α → Prop) : Queue α → Event α →
    Queue α → Prop where
  | arrive {pending active : List α} (job : α) :
      Step key room ⟨pending, active⟩ (.arrive job) ⟨pending ++ [job], active⟩
  | start {before after active : List α} {job : α} (hroom : room active job)
      (hactive : ∀ other ∈ active, ¬ Conflict key other job)
      (hbefore : ∀ other ∈ before, ¬ Conflict key other job) :
      Step key room ⟨before ++ job :: after, active⟩ (.start job) ⟨before ++ after, active ++ [job]⟩
  | finish {pending before after : List α} {job : α} :
      Step key room ⟨pending, before ++ job :: after⟩ (.finish job) ⟨pending, before ++ after⟩
  | discard {pending active : List α} :
      Step key room ⟨pending, active⟩ (.discard pending) ⟨[], active⟩

inductive Steps (key : α → Option κ) (room : List α → α → Prop) : List (Event α) →
    Queue α → Prop where
  | nil : Steps key room [] ⟨[], []⟩
  | snoc {events : List (Event α)} {event : Event α} {q q' : Queue α} :
      Steps key room events q → Step key room q event q' → Steps key room (events ++ [event]) q'

/-! ## What happened in a run -/

namespace Event

def arrived : Event α → List α
  | .arrive job => [job]
  | _ => []

def started : Event α → List α
  | .start job => [job]
  | _ => []

def finished : Event α → List α
  | .finish job => [job]
  | _ => []

def discarded : Event α → List α
  | .discard jobs => jobs
  | _ => []

end Event

def arrivals (events : List (Event α)) : List α :=
  events.flatMap Event.arrived

def starts (events : List (Event α)) : List α :=
  events.flatMap Event.started

def finishes (events : List (Event α)) : List α :=
  events.flatMap Event.finished

def discards (events : List (Event α)) : List α :=
  events.flatMap Event.discarded

section Snoc

variable (events : List (Event α)) (event : Event α)

@[simp] lemma arrivals_snoc : arrivals (events ++ [event]) = arrivals events ++ event.arrived := by
  simp [arrivals]

@[simp] lemma starts_snoc : starts (events ++ [event]) = starts events ++ event.started := by
  simp [starts]

@[simp] lemma finishes_snoc : finishes (events ++ [event]) = finishes events ++ event.finished := by
  simp [finishes]

@[simp] lemma discards_snoc :
    discards (events ++ [event]) = discards events ++ event.discarded := by
  simp [discards]

@[simp] lemma arrivals_append_starts (jobs : List α) : arrivals (events ++ jobs.map .start) =
    arrivals events := by
  simp [arrivals, List.flatMap_map, Event.arrived]

@[simp] lemma starts_append_starts (jobs : List α) : starts (events ++ jobs.map .start) =
    starts events ++ jobs := by
  simp [starts, List.flatMap_map, Event.started]

@[simp] lemma finishes_append_starts (jobs : List α) : finishes (events ++ jobs.map .start) =
    finishes events := by
  simp [finishes, List.flatMap_map, Event.finished]

end Snoc

variable {key : α → Option κ} {room : List α → α → Prop} {events : List (Event α)} {q : Queue α}

/-! ## Every run -/

/-- A bound that every start respects. -/
theorem Steps.bounded (h : Steps key room events q) (class_ : α → Bool) (bound : Nat)
    (hroom : ∀ active job, room active job → class_ job = true → active.countP class_ < bound) :
    q.active.countP class_ ≤ bound := by
  induction h with
  | nil => exact Nat.zero_le _
  | snoc _ hstep ih =>
    cases hstep with
    | arrive job | discard => exact ih
    | @start _ _ active job hstart _ _ =>
      rw [List.countP_append, List.countP_singleton]
      split
      next hjob => exact hroom active job hstart hjob
      · exact ih
    | finish =>
      exact Nat.le_trans
        (List.Sublist.countP_le (List.Sublist.append_left (List.sublist_cons_self _ _) _)) ih

/-- What was started and what is pending has, for each key, the order of arrival. -/
theorem Steps.ordered [DecidableEq κ] (h : Steps key room events q) (k : κ) :
    ((starts events ++ q.pending).filter fun job => key job = some k).Sublist
      ((arrivals events).filter fun job => key job = some k) := by
  induction h with
  | nil => exact List.Sublist.refl _
  | @snoc events _ _ _ _ hstep ih =>
    rw [starts_snoc, arrivals_snoc]
    cases hstep with
    | @arrive pending active job =>
      simp only [Event.started, Event.arrived, List.append_nil]
      rw [← List.append_assoc, List.filter_append (starts events ++ pending),
        List.filter_append (arrivals events)]
      exact ih.append (List.Sublist.refl _)
    | @start before after active job _ _ hbefore =>
      simp only [Event.started, Event.arrived, List.append_nil]
      refine Eq.mp (congrArg (List.Sublist · _) ?_) ih
      simp only [List.filter_append, List.append_assoc, List.filter_cons, List.filter_nil]
      by_cases hk : key job = some k
      · -- no earlier pending job has the key
        have hnone : before.filter (fun job => key job = some k) = [] := by
          refine List.filter_eq_nil_iff.2 fun other hother hkey => ?_
          exact hbefore other hother ⟨k, of_decide_eq_true hkey, hk⟩
        simp [hnone, hk]
      · simp [hk]
    | finish => simpa only [Event.started, Event.arrived, List.append_nil] using ih
    | discard =>
      simp only [Event.started, Event.arrived, List.append_nil]
      exact List.Sublist.trans (List.Sublist.filter _ (List.sublist_append_left _ _)) ih

/-- Every job that arrived is pending, active, finished or discarded, and none twice. -/
theorem Steps.conserved (h : Steps key room events q) :
    (arrivals events).Perm (q.pending ++ (q.active ++ (finishes events ++ discards events))) := by
  induction h with
  | nil => exact List.Perm.refl _
  | @snoc events _ _ _ _ hstep ih =>
    rw [arrivals_snoc, finishes_snoc, discards_snoc]
    cases hstep with
    | @arrive pending active job =>
      simp only [Event.arrived, Event.finished, Event.discarded, List.append_nil]
      refine (ih.append_right [job]).trans ?_
      rw [List.append_assoc pending, List.append_assoc pending]
      exact List.Perm.append_left _ List.perm_append_comm
    | @start before after active job _ _ _ =>
      simp only [Event.arrived, Event.finished, Event.discarded, List.append_nil]
      refine ih.trans ?_
      -- the job moves from the pending jobs behind the active ones
      have hmove :
          List.Perm (before ++ job :: (after ++ active ++ (finishes events ++ discards events)))
          (before ++ (after ++ active ++ job :: (finishes events ++ discards events))) :=
        List.Perm.append_left _ List.perm_middle.symm
      simpa only [List.append_assoc, List.cons_append, List.nil_append] using hmove
    | @finish pending before after job =>
      simp only [Event.arrived, Event.finished, Event.discarded, List.append_nil]
      refine ih.trans (List.Perm.append_left _ ?_)
      have hmove : List.Perm (before ++ job :: (after ++ finishes events ++ discards events))
          (before ++ (after ++ finishes events ++ job :: discards events)) :=
        List.Perm.append_left _ List.perm_middle.symm
      simpa only [List.append_assoc, List.cons_append, List.nil_append] using hmove
    | @discard pending active =>
      simp only [Event.arrived, Event.finished, Event.discarded, List.append_nil, List.nil_append]
      refine ih.trans (List.perm_append_comm.trans (List.Perm.of_eq ?_))
      simp only [List.append_assoc]

end Terrarium.Dispatch
