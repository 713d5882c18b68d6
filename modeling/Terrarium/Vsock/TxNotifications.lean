import Mathlib.Data.UInt
import Terrarium.Foundations.Run

/-!
# TxNotifications — no transmitted packet waits for a doorbell that is not rung

The transmit queue of `components/vsock-frontend/src/transport.rs`, shared by the guest and the loop
of `worker.rs`.  The guest publishes heads, reads the `NO_NOTIFY` flag and rings the doorbell when
it is clear; the worker sets the flag while it works and clears it before it looks a last time and
sleeps.  Each access to the ring is a step of its own; the transport's lock keeps the doorbell, not
the guest's memory accesses, out of `process_pending` and `rearm_tx_notifications`.  A write of the
flag may fail, with or without effect.

A sleeping worker has processed every head, or the doorbell waits for it, or the guest is still to
ring: `no_head_forgotten`.  The last case is real: `published_before_ring`.
-/

namespace Terrarium.Vsock
namespace TxNotifications

def maxDeviceSteps : UInt16 := 32

/-- Where to go on, and how many entries to process; an index too far ahead is taken over. -/
def resyncPendingQueueEntries (next available size : UInt16) : UInt16 × UInt16 :=
  let count := available - next
  if size ≠ 0 ∧ count ≤ size then (next, count) else (available, 0)

/-- The guest after a publication: about to read the flag, or to ring. -/
inductive Guest
  | idle
  | checking
  | ringing
  deriving DecidableEq

/-- Where the worker is in its loop; `captured` and `rearming` are inside the transport's lock. -/
inductive Worker
  | starting
  | suppressed
  | captured (heads : UInt16) (hasMore : Bool)
  | idle
  | rearming
  | asleep
  | stopped
  deriving DecidableEq

/-- The ring's memory, the transport's view of the queue, the worker's doorbell, the two parties. -/
structure State where
  size : UInt16
  available : UInt16
  noNotify : Bool
  next : UInt16
  pending : Bool
  work : Bool
  guest : Guest
  worker : Worker
  deriving DecidableEq

def State.isLocked (s : State) : Bool :=
  match s.worker with
  | .captured _ _ | .rearming => true
  | _ => false

inductive Op
  | publish (count : UInt16)
  | readFlag
  | ring
  | otherWork
  | suppress (written ok : Bool)
  | capture
  | finish (otherProgress : Bool)
  | rearmFlag (written : Bool)
  | rearmIndex
  | wake
  | timeout
  | fail

namespace State

/-- `capture_queue_batch`, where a doorbell or the worker asked for it. -/
def capture (s : State) : State :=
  if s.pending then
    let (next, count) := resyncPendingQueueEntries s.next s.available s.size
    let heads := if count ≤ maxDeviceSteps then count else maxDeviceSteps
    { s with next, worker := .captured heads (count > heads) }
  else { s with worker := .captured 0 false }

/-- The flag is cleared, unless the write failed: an error when it is still set. -/
def rearmFlag (s : State) (written : Bool) : State :=
  if s.noNotify && !written then { s with worker := .stopped }
    else { s with noNotify := false, worker := .rearming }

def rearmIndex (s : State) : State :=
  let (next, count) := resyncPendingQueueEntries s.next s.available s.size
  { s with next, pending := count ≠ 0, worker := if count ≠ 0 then .starting else .asleep }

/-- One access of the guest, or one of the worker; `fail` is an error that ends its loop. -/
def step (s : State) : Op → Option (Unit × State)
  | .publish count =>
      if s.guest = .idle ∧ (s.available - s.next).toNat + count.toNat ≤ s.size.toNat then
        some ((), { s with available := s.available + count, guest := .checking })
      else none
  | .readFlag =>
      if s.guest = .checking then
        some ((), { s with guest := if s.noNotify then .idle else .ringing }) else none
  | .ring =>
      if s.guest = .ringing ∧ s.isLocked = false then
        some ((), { s with guest := .idle, pending := true, work := true })
      else none
  | .otherWork => some ((), { s with work := true })
  | .suppress written ok =>
      if s.worker = .starting then
        some ((), { s with
          noNotify := s.noNotify || written || ok, pending := s.pending || ok
          worker := .suppressed })
      else none
  | .capture => if s.worker = .suppressed then some ((), s.capture) else none
  | .finish otherProgress =>
      match s.worker with
      | .captured heads hasMore =>
          some ((), { s with
            next := s.next + heads, pending := hasMore
            worker := if heads ≠ 0 ∨ otherProgress then .starting else .idle })
      | _ => none
  | .rearmFlag written => if s.worker = .idle then some ((), s.rearmFlag written) else none
  | .rearmIndex => if s.worker = .rearming then some ((), s.rearmIndex) else none
  | .wake => if s.worker = .asleep ∧ s.work then
      some ((), { s with work := false, worker := .starting }) else none
  | .timeout => if s.worker = .asleep then some ((), { s with worker := .starting }) else none
  | .fail => some ((), { s with worker := .stopped })

end State

variable {s s' : State} {op : Op} {out : Unit}

/-- A queue of which everything is processed, with both parties about to begin. -/
def State.Fresh (s : State) : Prop :=
  s.available = s.next ∧ s.guest = .idle ∧ s.worker = .starting

/-- Every head is processed, or the doorbell is rung and waits, or the guest is still to ring. -/
def State.Settled (s : State) : Prop :=
  s.available = s.next ∨ (s.pending = true ∧ s.work = true) ∨ s.guest ≠ .idle

/-- What the worker relies on where it is. -/
def State.Stage (s : State) : Prop :=
  match s.worker with
  | .captured heads _ => heads.toNat ≤ (s.available - s.next).toNat
  | .rearming => s.noNotify = false
  | .asleep => s.noNotify = false ∧ s.Settled
  | _ => True

/-- The guest keeps to its room, so the device never skips a head. -/
structure Invariant (s : State) : Prop where
  room : (s.available - s.next).toNat ≤ s.size.toNat
  stage : s.Stage

lemma resync_eq (h : Invariant s) :
    resyncPendingQueueEntries s.next s.available s.size = (s.next, s.available - s.next) := by
  have hroom := h.room
  unfold resyncPendingQueueEntries
  dsimp only
  split
  · rfl
  next hfar =>
    have hcount : s.available - s.next = 0 := by
      by_contra hne
      refine hfar ⟨?_, UInt16.le_iff_toNat_le.2 hroom⟩
      rintro hzero
      rw [hzero] at hroom
      exact hne (UInt16.toNat_inj.1 (Nat.le_zero.1 hroom))
    rw [hcount, sub_eq_zero.1 hcount]

lemma rearmIndex_eq (h : Invariant s) : s.rearmIndex =
    if s.available = s.next then { s with pending := false, worker := .asleep }
    else { s with pending := true, worker := .starting } := by
  unfold State.rearmIndex
  rw [resync_eq h]
  by_cases hdone : s.available = s.next
  · simp [hdone]
  · simp [hdone, sub_ne_zero.2 hdone]

lemma State.Stage.keep (h : s.Stage) (hworker : s'.worker = s.worker)
    (hflag : s'.noNotify = s.noNotify)
    (hcount : (s.available - s.next).toNat ≤ (s'.available - s'.next).toNat)
    (hsettled : s.noNotify = false → s.Settled → s'.Settled) : s'.Stage := by
  unfold Stage at h ⊢
  rw [hworker]
  cases hw : s.worker with
  | captured heads hasMore =>
    rw [hw] at h
    exact Nat.le_trans h hcount
  | rearming =>
    rw [hw] at h
    exact hflag.trans h
  | asleep =>
    rw [hw] at h
    exact ⟨hflag.trans h.1, hsettled h.1 h.2⟩
  | starting | suppressed | idle | stopped => trivial

lemma Invariant.step (h : Invariant s) (hstep : s.step op = some (out, s')) : Invariant s' := by
  cases op with
  | publish count =>
    obtain ⟨⟨-, hroom⟩, heq⟩ := Option.ite_none_right_eq_some.1 hstep
    cases heq
    have hsum : (s.available + count - s.next).toNat =
        (s.available - s.next).toNat + count.toNat := by
      have hsize := s.size.toNat_lt
      simp only [UInt16.toNat_sub, UInt16.toNat_add] at hroom ⊢
      omega
    refine ⟨hsum ▸ hroom, h.stage.keep rfl rfl (hsum ▸ Nat.le_add_right _ _) fun _ _ => ?_⟩
    exact Or.inr (Or.inr Guest.noConfusion)
  | readFlag =>
    obtain ⟨-, heq⟩ := Option.ite_none_right_eq_some.1 hstep
    cases heq
    refine ⟨h.room, h.stage.keep rfl rfl (Nat.le_refl _) fun hclear _ => Or.inr (Or.inr ?_)⟩
    simp [hclear]
  | ring =>
    obtain ⟨-, heq⟩ := Option.ite_none_right_eq_some.1 hstep
    cases heq
    exact ⟨h.room, h.stage.keep rfl rfl (Nat.le_refl _) fun _ _ => Or.inr (Or.inl ⟨rfl, rfl⟩)⟩
  | otherWork =>
    cases hstep
    exact ⟨h.room, h.stage.keep rfl rfl (Nat.le_refl _) fun _ => Or.imp_right
      (Or.imp_left fun hrung => ⟨hrung.1, rfl⟩)⟩
  | suppress written ok | timeout | wake =>
    obtain ⟨-, heq⟩ := Option.ite_none_right_eq_some.1 hstep
    cases heq
    exact ⟨h.room, trivial⟩
  | fail =>
    cases hstep
    exact ⟨h.room, trivial⟩
  | capture =>
    obtain ⟨-, heq⟩ := Option.ite_none_right_eq_some.1 hstep
    cases heq
    unfold State.capture
    rw [resync_eq h]
    split
    · refine ⟨h.room, UInt16.le_iff_toNat_le.1 ?_⟩
      split
      · exact UInt16.le_refl _
      next hmany => exact UInt16.le_of_lt (UInt16.not_le.1 hmany)
    · exact ⟨h.room, Nat.zero_le _⟩
  | finish otherProgress =>
    have hstage := h.stage
    simp only [State.step] at hstep
    split at hstep
    next heads hasMore hworker =>
      cases hstep
      rw [State.Stage, hworker] at hstage
      refine ⟨Nat.le_trans ?_ h.room, ?_⟩
      · have hnext := s.next.toNat_lt
        simp only [UInt16.toNat_sub, UInt16.toNat_add] at hstage ⊢
        omega
      · by_cases hmoved : heads ≠ 0 ∨ otherProgress = true
        · simp only [State.Stage, if_pos hmoved]
        · simp only [State.Stage, if_neg hmoved]
    · cases hstep
  | rearmFlag written =>
    obtain ⟨-, heq⟩ := Option.ite_none_right_eq_some.1 hstep
    cases heq
    unfold State.rearmFlag
    split
    · exact ⟨h.room, trivial⟩
    · exact ⟨h.room, rfl⟩
  | rearmIndex =>
    obtain ⟨hworker, heq⟩ := Option.ite_none_right_eq_some.1 hstep
    cases heq
    have hstage := h.stage
    rw [State.Stage, hworker] at hstage
    rw [rearmIndex_eq h]
    split
    next hdone => exact ⟨h.room, hstage, Or.inl hdone⟩
    · exact ⟨h.room, trivial⟩

/-- In every run the worker that sleeps has processed every head, or the doorbell is rung and waits
for it, or the guest is still to ring and finds the flag clear; the look that sends it to sleep
leaves no head. -/
theorem no_head_forgotten {es : List (Run.Event State Op Unit)} {s₀ : State} (hfresh : s₀.Fresh)
    (hrun : Run.Trace State.step s₀ es s) :
    (s.worker = .asleep → s.available = s.next ∨ (s.pending = true ∧ s.work = true) ∨
        s.guest ≠ .idle ∧ s.noNotify = false) ∧
      ∀ s', s.step .rearmIndex = some ((), s') → s'.worker = .asleep → s'.available = s'.next := by
  have hinv : Invariant s := by
    refine hrun.invariant Invariant.step ⟨?_, ?_⟩
    · rw [hfresh.1, sub_self]
      exact Nat.zero_le _
    · rw [State.Stage, hfresh.2.2]
      trivial
  refine ⟨fun hasleep => ?_, fun s' hstep hasleep => ?_⟩
  · have hstage := hinv.stage
    rw [State.Stage, hasleep] at hstage
    obtain ⟨hclear, hdone | hrung | hguest⟩ := hstage
    · exact Or.inl hdone
    · exact Or.inr (Or.inl hrung)
    · exact Or.inr (Or.inr ⟨hguest, hclear⟩)
  · obtain ⟨-, heq⟩ := Option.ite_none_right_eq_some.1 hstep
    cases heq
    rw [rearmIndex_eq hinv] at hasleep ⊢
    split at hasleep
    next hdone =>
      rw [if_pos hdone]
      exact hdone
    · cases hasleep

def fresh : State := ⟨256, 0, false, 0, false, false, .idle, .starting⟩

def lateHead : State := ⟨256, 1, false, 0, false, false, .checking, .asleep⟩

lemma late_run : ∃ es, Run.Trace State.step fresh es lateHead :=
  Run.exec_reaches [.suppress true true, .capture, .finish false, .rearmFlag true, .rearmIndex,
    .publish 1] rfl

/-- Between its publication and the doorbell, the guest leaves a sleeping worker with a head to
process. -/
theorem published_before_ring : ∃ s₀ es s, s₀.Fresh ∧ Run.Trace State.step s₀ es s ∧
    s.worker = .asleep ∧ ¬ (s.available = s.next ∨ (s.pending = true ∧ s.work = true)) := by
  obtain ⟨es, hrun⟩ := late_run
  exact ⟨fresh, es, lateHead, ⟨rfl, rfl, rfl⟩, hrun, rfl, by decide⟩

theorem no_head_forgotten_late : lateHead.worker = .asleep ∧ lateHead.available ≠ lateHead.next ∧
    ((lateHead.pending = true ∧ lateHead.work = true) ∨ lateHead.guest ≠ .idle ∧
      lateHead.noNotify = false) := by
  obtain ⟨es, hrun⟩ := late_run
  have hsettled := (no_head_forgotten ⟨rfl, rfl, rfl⟩ hrun).1 rfl
  exact ⟨rfl, by decide, hsettled.resolve_left (by decide)⟩

end TxNotifications
end Terrarium.Vsock
