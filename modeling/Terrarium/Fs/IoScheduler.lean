import Mathlib.Data.Finmap
import Terrarium.Foundations.Dispatch
import Terrarium.Fs.Wire

/-!
# IoScheduler — one operation at a time for each file

The device runs the guest's requests concurrently, but for each file one at a time and in order.
Operations wait in a queue; a poll starts the first ones whose file is free, up to a limit, and
takes one operation whose work has finished.

* `IoScheduler` — the queue, the operations that run, and two tables that describe them;
* `Described` — the tables are exact.

The operations are jobs in the sense of `Dispatch`; `exists_steps` is the refinement.
-/

namespace Terrarium.Fs

open Dispatch (Conflict Step Steps)

abbrev Identity := Nat × Nat

/-- An operation: its file, if it has to wait its turn, and its work. -/
structure PreparedIo (ω : Type) where
  identity : Option Identity
  work : ω
  deriving DecidableEq

/-- Where a reply goes, and the reset count its request was accepted under. -/
structure PendingReply where
  queue : Nat
  head : Nat
  output : List SplitRingDescriptor
  unique : Nat
  resetCount : Nat
  deriving DecidableEq

structure CompletedIo where
  identity : Option Identity
  reply : PendingReply
  result : Except Errno Bytes
  deriving DecidableEq

abbrev Operation (ω : Type) := PreparedIo ω × PendingReply

def queueSize : Nat := 256
def maxActiveIo : Nat := 32
def maxPendingIo : Nat := queueSize

structure IoScheduler (ω : Type) where
  pending : List (Operation ω)
  active : List (Operation ω)
  activeFiles : Finmap fun _ : Identity => Nat
  activeResetCounts : Finmap fun _ : Nat => Nat

namespace IoScheduler

variable {ω : Type}

def new : IoScheduler ω := ⟨[], [], ∅, ∅⟩

variable (s : IoScheduler ω)

def discardPending : IoScheduler ω :=
  { s with pending := [] }

def hasWorkFromResetCount (resetCount : Nat) : Bool :=
  resetCount ∈ s.activeResetCounts || s.pending.any fun operation =>
    operation.2.resetCount = resetCount

def enqueue (operation : Operation ω) : Except Errno (IoScheduler ω) :=
  if s.pending.length + s.active.length = maxPendingIo then .error ebusy
  else .ok { s with pending := s.pending ++ [operation] }

/-! ## A poll -/

/-- The operation's file is free, or it needs none. -/
def startable (operation : Operation ω) : Bool :=
  match operation.1.identity with
  | none => true
  | some identity => identity ∉ s.activeFiles

def nextStart : Option (Nat × Operation ω) :=
  if s.active.length < maxActiveIo then
    match s.pending.findIdx? s.startable with
    | none => none
    | some index => s.pending[index]?.map fun operation => (index, operation)
  else
    none

def start (index : Nat) (operation : Operation ω) : IoScheduler ω where
  pending := s.pending.eraseIdx index
  active := s.active ++ [operation]
  activeFiles :=
    match operation.1.identity with
    | none => s.activeFiles
    | some identity => s.activeFiles.insert identity operation.2.resetCount
  activeResetCounts :=
    s.activeResetCounts.insert operation.2.resetCount
      ((s.activeResetCounts.lookup operation.2.resetCount).getD 0 + 1)

def startMany : Nat → IoScheduler ω → IoScheduler ω
  | 0, s => s
  | fuel + 1, s =>
      match s.nextStart with
      | none => s
      | some (index, operation) => startMany fuel (s.start index operation)

/-- Every start adds an active operation, of which there are at most `maxActiveIo`. -/
def startReady : IoScheduler ω :=
  startMany maxActiveIo s

def finish (index : Nat) (operation : Operation ω) : IoScheduler ω where
  pending := s.pending
  active := s.active.eraseIdx index
  activeFiles :=
    match operation.1.identity with
    | none => s.activeFiles
    | some identity => s.activeFiles.erase identity
  activeResetCounts :=
    match s.activeResetCounts.lookup operation.2.resetCount with
    | none => s.activeResetCounts
    | some count =>
        if count - 1 = 0 then s.activeResetCounts.erase operation.2.resetCount
        else s.activeResetCounts.insert operation.2.resetCount (count - 1)

/-- Starts what can start, and returns the active operation that is `ready`, with its result. -/
def pollComplete (ready : Option (Nat × Except Errno Bytes)) : Option CompletedIo × IoScheduler ω :=
  let s := s.startReady
  match ready with
  | none => (none, s)
  | some (index, result) =>
      match s.active[index]? with
      | none => (none, s)
      | some operation =>
          (some ⟨operation.1.identity, operation.2, result⟩, s.finish index operation)

/-! ## The tables describe the active operations -/

def file (operation : Operation ω) : Option Identity := operation.1.identity

def countFrom (active : List (Operation ω)) (resetCount : Nat) : Nat :=
  active.countP fun operation => operation.2.resetCount = resetCount

structure Described : Prop where
  exclusive : s.active.Pairwise fun a b => ¬ Conflict file a b
  files : ∀ identity resetCount, s.activeFiles.lookup identity = some resetCount ↔
    ∃ operation ∈ s.active, file operation = some identity ∧ operation.2.resetCount = resetCount
  counts : ∀ resetCount, s.activeResetCounts.lookup resetCount =
    if countFrom s.active resetCount = 0 then none else some (countFrom s.active resetCount)

variable {s : IoScheduler ω} {operation other : Operation ω} {index : Nat}

lemma Described.mem_activeFiles (h : s.Described) {identity : Identity} :
    identity ∈ s.activeFiles ↔ ∃ operation ∈ s.active, file operation = some identity := by
  rw [Finmap.mem_iff]
  constructor
  · rintro ⟨resetCount, hlookup⟩
    obtain ⟨operation, hactive, hfile, -⟩ := (h.files identity resetCount).1 hlookup
    exact ⟨operation, hactive, hfile⟩
  · rintro ⟨operation, hactive, hfile⟩
    exact ⟨_, (h.files identity operation.2.resetCount).2 ⟨operation, hactive, hfile, rfl⟩⟩

lemma Described.startable_iff (h : s.Described) :
    s.startable operation = true ↔ ∀ other ∈ s.active, ¬ Conflict file other operation := by
  unfold startable
  cases hfile : operation.1.identity with
  | none =>
    refine ⟨fun _ other _ hconflict => ?_, fun _ => rfl⟩
    obtain ⟨identity, -, hidentity⟩ := hconflict
    cases hfile.symm.trans hidentity
  | some identity =>
    rw [decide_eq_true_iff, h.mem_activeFiles]
    constructor
    · rintro hfree other hother ⟨identity', hother', hidentity⟩
      cases hfile.symm.trans hidentity
      exact hfree ⟨other, hother, hother'⟩
    · rintro hfree ⟨other, hother, hother'⟩
      exact hfree other hother ⟨identity, hother', hfile⟩

lemma described_new : (new : IoScheduler ω).Described where
  exclusive := List.Pairwise.nil
  files _ _ := by simp [new]
  counts _ := by simp [new, countFrom]

lemma Described.start (h : s.Described) (hstart : s.startable operation = true) :
    (s.start index operation).Described where
  exclusive := by
    refine List.pairwise_append.2 ⟨h.exclusive, List.pairwise_singleton _ _, ?_⟩
    intro other hother operation' hoperation'
    rw [List.mem_singleton.1 hoperation']
    exact h.startable_iff.1 hstart other hother
  files := by
    intro identity resetCount
    simp only [IoScheduler.start, List.mem_append, List.mem_singleton, or_and_right, exists_or,
      exists_eq_left]
    cases hfile : operation.1.identity with
    | none => simp [h.files, file, hfile]
    | some identity' =>
      by_cases heq : identity = identity'
      · subst heq
        rw [Finmap.lookup_insert]
        have hfree : ¬ ∃ other ∈ s.active, file other = some identity ∧
            other.2.resetCount = resetCount := by
          rintro ⟨other, hother, hother', -⟩
          exact h.startable_iff.1 hstart other hother ⟨identity, hother', hfile⟩
        rw [or_iff_right hfree]
        simp [file, hfile]
      · rw [Finmap.lookup_insert_of_ne _ heq, h.files]
        simp [file, hfile, Ne.symm heq]
  counts := by
    intro resetCount
    simp only [IoScheduler.start, countFrom, List.countP_append, List.countP_singleton]
    by_cases heq : resetCount = operation.2.resetCount
    · subst heq
      have hcount := h.counts operation.2.resetCount
      rw [Finmap.lookup_insert, hcount]
      split
      next hzero =>
        unfold countFrom at hzero
        simp [hzero]
      · simp [countFrom]
    · have hne : ¬ operation.2.resetCount = resetCount := Ne.symm heq
      rw [Finmap.lookup_insert_of_ne _ heq, h.counts]
      simp only [countFrom, decide_eq_true_iff, if_neg hne, Nat.add_zero]
      rfl

lemma Described.finish (h : s.Described) (hactive : s.active[index]? = some operation) :
    (s.finish index operation).Described := by
  obtain ⟨before, after, hsplit, -, herase⟩ := Dispatch.split_at hactive
  have hothers := h.exclusive
  rw [hsplit, List.pairwise_middle fun hconflict => mt Conflict.symm hconflict,
    List.pairwise_cons] at hothers
  refine ⟨?_, fun identity resetCount => ?_, fun resetCount => ?_⟩
  · simpa only [IoScheduler.finish, herase] using hothers.2
  · have hmem : ∀ other, other ∈ s.active ↔ other = operation ∨ other ∈ before ++ after := by
      intro other
      simp only [hsplit, List.mem_append, List.mem_cons]
      exact or_left_comm
    simp only [IoScheduler.finish, herase]
    cases hfile : operation.1.identity with
    | none =>
      refine (h.files identity resetCount).trans
        (exists_congr fun other => and_congr_left fun hother => ?_)
      rw [hmem, or_iff_right]
      rintro rfl
      cases hfile.symm.trans hother.1
    | some identity' =>
      by_cases heq : identity = identity'
      · subst heq
        rw [Finmap.lookup_erase]
        simp only [reduceCtorEq, false_iff]
        rintro ⟨other, hother, hother', -⟩
        exact hothers.1 other hother ⟨identity, hfile, hother'⟩
      · rw [Finmap.lookup_erase_ne heq]
        refine (h.files identity resetCount).trans
          (exists_congr fun other => and_congr_left fun hother => ?_)
        rw [hmem, or_iff_right]
        rintro rfl
        exact heq (Option.some.inj (hother.1.symm.trans hfile))
  · have hcount : ∀ resetCount, countFrom s.active resetCount =
        countFrom (before ++ after) resetCount + if operation.2.resetCount = resetCount then 1
          else 0 := by
      intro resetCount
      simp only [countFrom, hsplit, List.countP_append, List.countP_cons, decide_eq_true_iff]
      omega
    simp only [IoScheduler.finish, herase]
    rw [h.counts operation.2.resetCount, hcount, if_pos rfl, if_neg (Nat.succ_ne_zero _)]
    by_cases heq : resetCount = operation.2.resetCount
    · subst heq
      by_cases hzero : countFrom (before ++ after) operation.2.resetCount = 0
      · simp [hzero]
      · simp [hzero]
    · have hlookup := h.counts resetCount
      rw [hcount, if_neg (Ne.symm heq), Nat.add_zero] at hlookup
      by_cases hzero : countFrom (before ++ after) operation.2.resetCount = 0
      · simpa [hzero, Finmap.lookup_erase_ne heq] using hlookup
      · simpa [hzero, Finmap.lookup_insert_of_ne _ heq] using hlookup

/-! ## Starting operations -/

lemma nextStart_eq_some (h : s.nextStart = some (index, operation)) :
    s.active.length < maxActiveIo ∧ s.startable operation = true ∧
      ∃ before after, s.pending = before ++ operation :: after ∧ before.length = index ∧
        s.pending.eraseIdx index = before ++ after ∧
        ∀ other ∈ before, s.startable other = false := by
  unfold nextStart at h
  split at h
  next hroom =>
    split at h
    · cases h
    next index' hfirst =>
      obtain ⟨operation', hget, heq⟩ := Option.map_eq_some_iff.1 h
      cases heq
      obtain ⟨before, after, hsplit, hlength, herase⟩ := Dispatch.split_at hget
      obtain ⟨hlt, hstart, hbefore⟩ := List.findIdx?_eq_some_iff_getElem.1 hfirst
      refine ⟨hroom, ?_, before, after, hsplit, hlength, herase, fun other hother => ?_⟩
      · rw [List.getElem?_eq_getElem hlt] at hget
        rw [← Option.some.inj hget]
        exact hstart
      · obtain ⟨position, hposition, hother⟩ := List.getElem_of_mem hother
        have hpending := hbefore position (hlength ▸ hposition)
        simp only [hsplit, List.getElem_append_left hposition, hother] at hpending
        exact Bool.eq_false_iff.2 hpending
  · cases h

lemma nextStart_eq_none (h : s.nextStart = none) :
    maxActiveIo ≤ s.active.length ∨ ∀ operation ∈ s.pending, s.startable operation = false := by
  unfold nextStart at h
  split at h
  · split at h
    next hnone => exact Or.inr (List.findIdx?_eq_none_iff.1 hnone)
    next index hfirst =>
      obtain ⟨hlt, -⟩ := List.findIdx?_eq_some_iff_getElem.1 hfirst
      rw [List.getElem?_eq_getElem hlt] at h
      cases h
  next hfull => exact Or.inl (Nat.le_of_not_lt hfull)

lemma startMany_rule {P : IoScheduler ω → Prop} (fuel : Nat)
    (hstep : ∀ s index operation, P s → s.nextStart = some (index, operation) →
      P (s.start index operation))
    (h : P s) : P (startMany fuel s) := by
  induction fuel generalizing s with
  | zero => exact h
  | succ fuel ih =>
    rw [startMany]
    split
    · exact h
    next index operation hnext => exact ih (hstep s index operation h hnext)

/-- The loop ends when nothing can start, or its fuel has become active operations. -/
lemma startMany_exhausts (fuel : Nat) :
    (startMany fuel s).nextStart = none ∨
    (startMany fuel s).active.length = s.active.length + fuel := by
  induction fuel generalizing s with
  | zero => exact Or.inr rfl
  | succ fuel ih =>
    rw [startMany]
    split
    next hnext => exact Or.inl hnext
    next index operation hnext =>
      refine (ih (s := s.start index operation)).imp_right fun hlength => ?_
      rw [hlength]
      simp [start, Nat.add_assoc, Nat.add_comm 1]

lemma nextStart_startReady (s : IoScheduler ω) : s.startReady.nextStart = none := by
  rcases startMany_exhausts (s := s) maxActiveIo with hnone | hlength
  · exact hnone
  · unfold startReady nextStart
    rw [if_neg (by rw [hlength]; exact Nat.not_lt.2 (Nat.le_add_left _ _))]

lemma Described.startReady (h : s.Described) : s.startReady.Described := by
  refine startMany_rule maxActiveIo (fun s index operation h hnext => ?_) h
  exact h.start (nextStart_eq_some hnext).2.1

lemma length_start (h : s.nextStart = some (index, operation)) :
    (s.start index operation).pending.length + (s.start index operation).active.length =
      s.pending.length + s.active.length := by
  obtain ⟨-, -, before, after, hpending, -, herase, -⟩ := nextStart_eq_some h
  simp only [start, herase]
  simp only [hpending, List.length_append, List.length_cons, List.length_nil]
  omega

lemma length_startReady (s : IoScheduler ω) :
    s.startReady.pending.length + s.startReady.active.length =
    s.pending.length + s.active.length := by
  refine startMany_rule
    (P := fun t => t.pending.length + t.active.length = s.pending.length + s.active.length)
    maxActiveIo (fun t index operation ht hnext => ?_) rfl
  rw [length_start hnext, ht]

/-! ## The operations as jobs -/

def queue (s : IoScheduler ω) : Dispatch.Queue (Operation ω) := ⟨s.pending, s.active⟩

def room (active : List (Operation ω)) (_ : Operation ω) : Prop :=
  active.length < maxActiveIo

lemma step_start (h : s.Described) (hnext : s.nextStart = some (index, operation)) :
    Step file room s.queue (.start operation) (s.start index operation).queue := by
  obtain ⟨hroom, hstart, before, after, hpending, -, herase, hbefore⟩ := nextStart_eq_some hnext
  have hqueue : s.queue = ⟨before ++ operation :: after, s.active⟩ := by
    rw [queue, hpending]
  have hqueue' : (s.start index operation).queue = ⟨before ++ after, s.active ++ [operation]⟩ := by
    rw [queue, start, herase]
  rw [hqueue, hqueue']
  refine Step.start hroom (h.startable_iff.1 hstart) fun other hother hconflict => ?_
  -- an earlier operation is waiting for an active one, which has its file
  have hwaiting : ¬ ∀ active ∈ s.active, ¬ Conflict file active other := by
    rw [← h.startable_iff, hbefore other hother]
    exact Bool.false_ne_true
  refine hwaiting fun active hactive hfile => h.startable_iff.1 hstart active hactive ?_
  obtain ⟨identity, hother', hoperation⟩ := hconflict
  obtain ⟨identity', hactive', hother''⟩ := hfile
  cases hother'.symm.trans hother''
  exact ⟨identity, hactive', hoperation⟩

lemma steps_startMany {events : List (Dispatch.Event (Operation ω))} (fuel : Nat) (h : s.Described)
    (hsteps : Steps file room events s.queue) :
    ∃ operations, (startMany fuel s).active = s.active ++ operations ∧
      Steps file room (events ++ operations.map .start) (startMany fuel s).queue := by
  induction fuel generalizing s events with
  | zero => exact ⟨[], by simp [startMany], by simpa [startMany] using hsteps⟩
  | succ fuel ih =>
    rw [startMany]
    split
    · exact ⟨[], by simp, by simpa using hsteps⟩
    next index operation hnext =>
      obtain ⟨operations, hactive, hrest⟩ :=
        ih (h.start (nextStart_eq_some hnext).2.1) (hsteps.snoc (step_start h hnext))
      refine ⟨operation :: operations, ?_, ?_⟩
      · rw [hactive]
        simp [start]
      · simpa using hrest

lemma step_finish (hactive : s.active[index]? = some operation) :
    Step file room s.queue (.finish operation) (s.finish index operation).queue := by
  obtain ⟨before, after, hsplit, -, herase⟩ := Dispatch.split_at hactive
  have hqueue : s.queue = ⟨s.pending, before ++ operation :: after⟩ := by
    rw [queue, hsplit]
  have hqueue' : (s.finish index operation).queue = ⟨s.pending, before ++ after⟩ := by
    rw [queue, finish, herase]
  rw [hqueue, hqueue']
  exact Step.finish

lemma Described.hasWork_iff (h : s.Described) (resetCount : Nat) :
    s.hasWorkFromResetCount resetCount = true ↔
      ∃ operation ∈ s.active ++ s.pending, operation.2.resetCount = resetCount := by
  have hactive : resetCount ∈ s.activeResetCounts ↔
      ∃ operation ∈ s.active, operation.2.resetCount = resetCount := by
    rw [← Finmap.lookup_isSome, h.counts resetCount]
    have hpos : 0 < countFrom s.active resetCount ↔
        ∃ operation ∈ s.active, operation.2.resetCount = resetCount := by
      simp [countFrom, List.countP_pos_iff]
    rw [← hpos]
    split
    next hzero => simp [hzero]
    next hne => simpa using Nat.pos_of_ne_zero hne
  unfold hasWorkFromResetCount
  rw [Bool.or_eq_true, decide_eq_true_iff, hactive]
  simp only [List.any_eq_true, decide_eq_true_iff, List.mem_append, or_and_right, exists_or]

end IoScheduler
end Terrarium.Fs
