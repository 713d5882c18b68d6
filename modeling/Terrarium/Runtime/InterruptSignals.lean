import Terrarium.Foundations.Run

/-!
# InterruptSignals — forwarding a device's interrupt level

A device component sets its interrupt level as often as it likes.  Each change within the budget of
the current window notifies the loop that drives the device; the loop wakes up, ends the window,
reads the level and passes it to the host's callback.  Changes over the budget notify nobody, so the
loop learns of them only because a notification of the same window is still on its way.

A `Notify` hands a notification to a future that has registered with it, and stores a permit when
none has; a burst can leave both behind, and the loop then wakes up twice.
-/

namespace Terrarium.Runtime

open Run (Trace Event)

def maxSignalsPerWindow : Nat := 64

structure InterruptSignals where
  windowCount : Nat := 0
  dropped : Nat := 0
  deriving DecidableEq

namespace InterruptSignals

def signal (irq : InterruptSignals) : Bool × InterruptSignals :=
  if irq.windowCount ≥ maxSignalsPerWindow then (false, { irq with dropped := irq.dropped + 1 })
  else (true, { irq with windowCount := irq.windowCount + 1 })

def endWindow (irq : InterruptSignals) : InterruptSignals :=
  { irq with windowCount := 0 }

end InterruptSignals

/-! ## The device and the loop that drives it -/

/-- The future of `notified()` in the current turn of the loop. -/
inductive Waiter where
  | unpolled
  | registered
  | notified
  deriving DecidableEq

structure Notify where
  permit : Bool := false
  waiter : Waiter := .unpolled
  deriving DecidableEq

/-- The waiter is told if it has registered, and once; any other notification is stored. -/
def Notify.notifyOne (n : Notify) : Notify :=
  match n.waiter with
  | .registered => { n with waiter := .notified }
  | _ => { n with permit := true }

/-- Whether the future is ready, with the next turn's future in its place; if not, it has
registered. -/
def Notify.poll (n : Notify) : Bool × Notify :=
  match n.waiter with
  | .unpolled => if n.permit then (true, {}) else (false, { n with waiter := .registered })
  | .registered => (false, n)
  | .notified => (true, { n with waiter := .unpolled })

/-- A device context with its notification, and the loop: whether it is in its `select!` and the
levels it has passed to the callback. -/
structure DeviceLoop where
  interruptAsserted : Bool := false
  irq : InterruptSignals := {}
  wake : Notify := {}
  waiting : Bool := true
  levels : List Bool := []
  deriving DecidableEq

/-- A call of `set_asserted`, a poll of the notification, or the end of the component's run; the
flags say whether the callback and the run return without an error. -/
inductive Action where
  | setAsserted (asserted : Bool)
  | poll (called : Bool)
  | runEnds (ran : Bool)
  deriving DecidableEq

inductive Outcome where
  | quiet
  | notified
  | dropped
  | called (level : Bool)
  deriving DecidableEq

namespace DeviceLoop

variable {l l' t : DeviceLoop} {a : Action} {out : Outcome}
  {es : List (Event DeviceLoop Action Outcome)}

def lastLevel (l : DeviceLoop) : Bool :=
  l.levels.getLast?.getD false

def setAsserted (l : DeviceLoop) (asserted : Bool) : Outcome × DeviceLoop :=
  if l.interruptAsserted ≠ asserted then
    match l.irq.signal with
    | (true, irq) =>
        (.notified, { l with interruptAsserted := asserted, irq, wake := l.wake.notifyOne })
    | (false, irq) => (.dropped, { l with interruptAsserted := asserted, irq })
  else (.quiet, l)

/-- End the window, read the level and call back. -/
def forward (l : DeviceLoop) (again : Bool) : Outcome × DeviceLoop :=
  (.called l.interruptAsserted,
    { l with
      irq := l.irq.endWindow, levels := l.levels ++ [l.interruptAsserted], waiting := again })

/-- One call of the component or one turn of `drive`, which awaits nothing between its `select!` and
the callback. -/
def step (l : DeviceLoop) (a : Action) : Option (Outcome × DeviceLoop) :=
  if !l.waiting then none
  else match a with
    | .setAsserted asserted => some (l.setAsserted asserted)
    | .poll called =>
      match l.wake.poll with
      | (true, wake) => some ({ l with wake }.forward called)
      | (false, wake) => some (.quiet, { l with wake })
    -- An error of the run returns from `drive` before the level is read.
    | .runEnds ran =>
        if ran then some (l.forward false) else some (.quiet, { l with waiting := false })

/-- A notification is on its way to the loop. -/
def Awoken (l : DeviceLoop) : Prop :=
  l.wake.permit = true ∨ l.wake.waiter = .notified

instance (l : DeviceLoop) : Decidable l.Awoken := inferInstanceAs (Decidable (_ ∨ _))

/-! ## What holds along a run -/

/-- The notifications sent since the last window ended. -/
def windowSignals (es : List (Event DeviceLoop Action Outcome)) : Nat :=
  es.foldl (fun sent e => match e.out with
    | .called _ => 0
    | .notified => sent + 1
    | _ => sent) 0

/-- A loop to which no notification is on its way has nothing to learn, and the whole budget is
there to wake it. -/
structure Settles (es : List (Event DeviceLoop Action Outcome)) (l : DeviceLoop) : Prop where
  sent : windowSignals es = l.irq.windowCount
  budget : l.irq.windowCount ≤ maxSignalsPerWindow
  idle : l.waiting = true → ¬ l.Awoken →
    l.irq.windowCount = 0 ∧ l.lastLevel = l.interruptAsserted
  dropped : ∀ e ∈ es, e.out = .dropped → e.post =
    { e.pre with
      interruptAsserted := !e.pre.interruptAsserted, irq.dropped := e.pre.irq.dropped + 1 }

lemma notifyOne_awoken (l : DeviceLoop) : { l with wake := l.wake.notifyOne }.Awoken := by
  unfold Awoken Notify.notifyOne
  cases l.wake.waiter with
  | registered => exact .inr rfl
  | unpolled | notified => exact .inl rfl

lemma awoken_of_poll {wake : Notify} (h : l.wake.poll = (false, wake)) (hawoken : l.Awoken) :
    { l with wake }.Awoken := by
  unfold Notify.poll at h
  split at h
  next hwaiter =>
    split at h
    · cases h
    next hpermit =>
      -- A fresh future that found no permit registers: nothing was on its way to it.
      rcases hawoken with hstored | hnotified
      · exact absurd hstored hpermit
      · cases hwaiter.symm.trans hnotified
  · cases h
    exact hawoken
  · cases h

lemma Settles.forward (hl : Settles es l) (m : DeviceLoop) (again : Bool) :
    Settles (es ++ [⟨l, a, (m.forward again).1, (m.forward again).2⟩]) (m.forward again).2 where
  sent := by simp [windowSignals, DeviceLoop.forward, InterruptSignals.endWindow]
  budget := Nat.zero_le _
  idle _ _ := ⟨rfl, by simp [lastLevel, DeviceLoop.forward]⟩
  dropped := by simpa [or_imp, forall_and, DeviceLoop.forward] using hl.dropped

lemma Settles.quiet (hl : Settles es l) (hirq : l'.irq = l.irq)
    (hidle : l'.waiting = true → ¬ l'.Awoken →
      l.irq.windowCount = 0 ∧ l'.lastLevel = l'.interruptAsserted) :
    Settles (es ++ [⟨l, a, .quiet, l'⟩]) l' := by
  refine ⟨?_, hirq ▸ hl.budget, hirq ▸ hidle, by simpa [or_imp, forall_and] using hl.dropped⟩
  simpa [windowSignals, hirq] using hl.sent

lemma Settles.setAsserted (hl : Settles es l) (hwaiting : l.waiting = true) {asserted : Bool}
    (h : l.setAsserted asserted = (out, l')) : Settles (es ++ [⟨l, a, out, l'⟩]) l' := by
  rw [DeviceLoop.setAsserted] at h
  split at h
  next hne =>
    obtain ⟨hsent, hbudget, hidle, hdropped⟩ := hl
    unfold windowSignals at hsent
    rw [InterruptSignals.signal] at h
    obtain rfl := Bool.eq_not.2 hne.symm
    by_cases hspent : l.irq.windowCount ≥ maxSignalsPerWindow
    · rw [if_pos hspent] at h
      cases h
      refine ⟨by simpa [windowSignals] using hsent, hbudget, fun _ hasleep => ?_, ?_⟩
      · -- Nobody is notified of this change, but a notification of the same window is on its way.
        have hzero := (hidle hwaiting hasleep).1
        simp [hzero, maxSignalsPerWindow] at hspent
      · simpa [or_imp, forall_and] using hdropped
    · rw [if_neg hspent] at h
      cases h
      exact ⟨by simp [windowSignals, hsent], not_le.1 hspent,
        fun _ hasleep => absurd (notifyOne_awoken _) hasleep,
        by simpa [or_imp, forall_and] using hdropped⟩
  · cases h
    exact hl.quiet rfl hl.idle

lemma Settles.step (hl : Settles es l) (h : l.step a = some (out, l')) :
    Settles (es ++ [⟨l, a, out, l'⟩]) l' := by
  unfold DeviceLoop.step at h
  split at h
  · cases h
  next hwaiting =>
    have hwaiting : l.waiting = true := by simpa using hwaiting
    split at h
    · exact hl.setAsserted hwaiting (Option.some.inj h)
    · split at h
      · cases h
        exact hl.forward _ _
      next wake hpoll =>
        cases h
        exact hl.quiet rfl fun _ hasleep => hl.idle hwaiting fun hawoken =>
          hasleep (awoken_of_poll hpoll hawoken)
    · split at h
      · cases h
        exact hl.forward _ _
      · cases h
        exact hl.quiet rfl nofun

/-- Whenever the loop waits and no notification is on its way to it, the host has the level of the
device, although a window sends a bounded number of notifications and only counts the changes after
them.  A run of the device that ends without an error ends with the callback of the final level. -/
theorem final_level_reaches_host (h : Trace step {} es t) :
    (t.waiting = true → t.wake.permit = false → t.wake.waiter ≠ .notified →
        t.lastLevel = t.interruptAsserted) ∧
      windowSignals es ≤ maxSignalsPerWindow ∧
      (∀ e ∈ es, e.out = .dropped → e.post =
        { e.pre with
          interruptAsserted := !e.pre.interruptAsserted, irq.dropped := e.pre.irq.dropped + 1 }) ∧
      (t.waiting = true → ∃ t', step t (.runEnds true) = some (.called t.interruptAsserted, t') ∧
        t'.waiting = false ∧ t'.levels = t.levels ++ [t'.interruptAsserted]) := by
  have hsettles : Settles es t := by
    induction h with
    | nil => exact ⟨rfl, Nat.zero_le _, fun _ _ => ⟨rfl, rfl⟩, List.forall_mem_nil _⟩
    | snoc _ hstep ih => exact ih.step hstep
  refine ⟨fun hwaiting hpermit hwaiter => (hsettles.idle hwaiting ?_).2,
    hsettles.sent ▸ hsettles.budget, hsettles.dropped, fun hwaiting => ?_⟩
  · rintro (hstored | hnotified)
    · cases hpermit.symm.trans hstored
    · exact hwaiter hnotified
  · exact ⟨(t.forward false).2, by simp [step, hwaiting, forward], rfl, rfl⟩

theorem final_level_reaches_host_burst : ∃ es t, Trace step {} es t ∧ t.levels = [false, false] ∧
    t.lastLevel = t.interruptAsserted := by
  have h := Run.exec_run step {}
    [.poll true, .setAsserted true, .setAsserted false, .poll true, .poll true] rfl
  exact ⟨_, _, h, rfl, (final_level_reaches_host h).1 rfl rfl (by decide)⟩

/-- A run that ends with an error takes its last change with it. -/
theorem failed_run_keeps_level : ∃ es t, Trace step {} es t ∧ (∃ e ∈ es, e.op = .runEnds false) ∧
    t.waiting = false ∧ t.lastLevel ≠ t.interruptAsserted :=
  ⟨_, _, Run.exec_run step {} [.setAsserted true, .runEnds false] rfl,
    ⟨_, List.mem_cons_of_mem _ List.mem_cons_self, rfl⟩, rfl, by decide⟩

end DeviceLoop
end Terrarium.Runtime
