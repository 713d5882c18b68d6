import Terrarium.Foundations.Run
import Mathlib.Order.MinMax

/-!
# SharedSize — one terminal size for all clients of a session

`session.rs` of `terra-agent`: every client of a session may report a size, and the emulator and the
PTY follow the smallest.  A call locks `inner` for a moment and goes on without it; all calls but
`set_client_size` hold `delivery` from their start to their end, so that one of them at most is in
progress.

* `State.step` — what the calls do between two points at which another may run;
* `shared_size_kept` — between calls, the screen and the PTY have it, along runs that are orderly;
* `old_size_stays` — the two ways in which other runs leave an old size.
-/

namespace Terrarium.Agent
namespace SharedSize

open Run

/-! ## Sizes -/

abbrev Size := Nat × Nat

def defaultRows : Nat := 24
def defaultCols : Nat := 80
def minRows : Nat := 5
def minCols : Nat := 20
def maxRows : Nat := 512
def maxCols : Nat := 1024

def clampTermSize (rows cols : Nat) : Size :=
  (max minRows (min rows maxRows), max minCols (min cols maxCols))

def requestedTermSize (rows cols : Nat) : Option Size :=
  if 0 < rows ∧ 0 < cols then some (clampTermSize rows cols) else none

def toScreenSize (size : Size) : Size := (max size.1 1, max size.2 1)

structure Client where
  id : Nat
  size : Option Size
  deriving DecidableEq

def least (a b : Size) : Size := (min a.1 b.1, min a.2 b.2)

/-- The size that `update_shared_size` computes. -/
def sharedSize (clients : List Client) : Size :=
  match clients.filterMap Client.size with
  | [] => (defaultRows, defaultCols)
  | size :: sizes => sizes.foldl least size

/-! ## Calls -/

inductive Delivery
  | feeding (ids : List Nat)
  | attaching (id : Nat) (output : Bool)
  | detaching (size : Option Size)
  deriving DecidableEq

def Delivery.attaches (client : Nat) : Delivery → Bool
  | .attaching id _ => id = client
  | _ => false

/-- A session; `resizing` are the sizes that calls of `set_client_size` have still to apply. -/
structure State where
  clients : List Client
  nextId : Nat
  sawOutput : Bool
  screen : Size
  winsize : Option Size
  delivery : Option Delivery
  resizing : List Size
  deriving DecidableEq

def initial : State := ⟨[], 0, false, toScreenSize (defaultRows, defaultCols), none, none, []⟩

inductive Op
  | feedOutput
  | feedFinished (failed : List Nat)
  | attachClient
  | attachFinished (failed : Bool)
  | detachClient (id : Nat)
  | detachAllClients
  | detachFinished
  | setClientSize (id rows cols : Nat)
  | sizeApplied (index : Nat)
  deriving DecidableEq

namespace State

def updateSharedSize (s : State) : Option Size × State :=
  let size := sharedSize s.clients
  if s.screen = toScreenSize size then (none, s)
    else (some size, { s with screen := toScreenSize size })

def applySize (s : State) : Option Size → State
  | none => s
  | some size => { s with winsize := some size }

/-- The clients that are left, and the size to be applied once they have been told. -/
def detach (s : State) (clients : List Client) : State :=
  let (size, s) := updateSharedSize { s with clients }
  { s with delivery := some (.detaching size) }

def step (s : State) : Op → Option (Unit × State)
  | .feedOutput =>
      if s.delivery = none then
        some ((),
          { s with sawOutput := true, delivery := some (.feeding (s.clients.map Client.id)) })
      else none
  | .feedFinished failed =>
      match s.delivery with
      | some (.feeding ids) =>
          if failed ⊆ ids then
            some ((), { s with
              delivery := none, clients := s.clients.filter fun client => client.id ∉ failed })
          else none
      | _ => none
  | .attachClient =>
      if s.delivery = none then
        some ((), { s with
          clients := s.clients ++ [⟨s.nextId, none⟩], nextId := s.nextId + 1,
          delivery := some (.attaching s.nextId s.sawOutput) })
      else none
  | .attachFinished failed =>
      match s.delivery with
      | some (.attaching id output) =>
          -- Only a client that is sent the screen can fail.
          if failed then
            if output then
              some ((), { s with
                delivery := none, clients := s.clients.filter fun client => client.id ≠ id })
            else none
          else some ((), { s with delivery := none })
      | _ => none
  | .detachClient id =>
      if s.delivery = none then
        match s.clients.findIdx? fun client => client.id = id with
        | none => some ((), s)
        | some index => some ((), s.detach (s.clients.eraseIdx index))
      else none
  | .detachAllClients => if s.delivery = none then some ((), s.detach []) else none
  | .detachFinished =>
      match s.delivery with
      | some (.detaching size) => some ((), { s.applySize size with delivery := none })
      | _ => none
  | .setClientSize id rows cols =>
      match requestedTermSize rows cols, s.clients.findIdx? fun client => client.id = id with
      | some size, some index =>
          let (shared, s) := updateSharedSize
            { s with
              clients := s.clients.modify index fun client => { client with size := some size } }
          some ((), { s with resizing := s.resizing ++ shared.toList })
      | _, _ => some ((), s)
  | .sizeApplied index =>
      match s.resizing[index]? with
      | some size =>
          some ((), { s.applySize (some size) with resizing := s.resizing.eraseIdx index })
      | none => none

def Idle (s : State) : Prop := s.delivery = none ∧ s.resizing = []

instance (s : State) : Decidable s.Idle := inferInstanceAs (Decidable (_ ∧ _))

/-- The sizes that were computed and are not yet applied. -/
def waiting (s : State) : List Size :=
  (match s.delivery with
    | some (.detaching size) => size.toList
    | _ => []) ++ s.resizing

/-- The session has this client, so that a call for it computes a size. -/
def knows (s : State) (id : Nat) : Bool :=
  s.clients.any fun client => client.id = id

lemma knows_of_findIdx? {s : State} {id index : Nat}
    (h : (s.clients.findIdx? fun client => client.id = id) = some index) : s.knows id = true := by
  rw [knows, ← List.findIdx?_isSome, h, Option.isSome_some]

end State

/-- No client that has reported a size is dropped because a write to it failed, and no size is
computed while an earlier one waits to be applied. -/
def Orderly (s : State) : Op → Prop
  | .feedFinished failed => ∀ client ∈ s.clients, client.id ∈ failed → client.size = none
  | .attachFinished failed =>
      failed = true →
        ∀ client ∈ s.clients, (s.delivery.any fun call => call.attaches client.id) = true →
        client.size = none
  | .detachClient id => s.knows id → s.waiting = []
  | .detachAllClients => s.waiting = []
  | .setClientSize id rows cols => 0 < rows ∧ 0 < cols ∧ s.knows id → s.waiting = []
  | _ => True

instance (s : State) : DecidablePred (Orderly s) := fun op =>
  match op with
  | .feedFinished _ => inferInstanceAs (Decidable (∀ client ∈ s.clients, _ → _))
  | .attachFinished _ => inferInstanceAs (Decidable (_ → ∀ client ∈ s.clients, _ → _))
  | .detachClient _ | .setClientSize _ _ _ => inferInstanceAs (Decidable (_ → s.waiting = []))
  | .detachAllClients => inferInstanceAs (Decidable (s.waiting = []))
  | .feedOutput | .attachClient | .detachFinished | .sizeApplied _ => isTrue trivial

/-! ## The least size -/

/-- The least of the reported rows and of the reported columns, or the default size. -/
def commonSize (clients : List Client) : Size :=
  (((clients.filterMap Client.size).map Prod.fst).min?.getD defaultRows,
    ((clients.filterMap Client.size).map Prod.snd).min?.getD defaultCols)

lemma foldl_least (sizes : List Size) (size : Size) :
    sizes.foldl least size =
    ((sizes.map Prod.fst).foldl min size.1, (sizes.map Prod.snd).foldl min size.2) := by
  induction sizes generalizing size with
  | nil => rfl
  | cons other sizes ih => exact ih (least size other)

lemma sharedSize_eq (clients : List Client) : sharedSize clients = commonSize clients := by
  unfold sharedSize commonSize
  cases clients.filterMap Client.size with
  | nil => rfl
  | cons size sizes => simp only [foldl_least, List.map_cons, List.min?_cons', Option.getD_some]

def Reported (clients : List Client) : Prop :=
  ∀ client ∈ clients, ∀ size, client.size = some size → 1 ≤ size.1 ∧ 1 ≤ size.2

variable {clients : List Client} {s s' : State}

lemma toScreenSize_sharedSize (h : Reported clients) :
    toScreenSize (sharedSize clients) = sharedSize clients := by
  have hsizes : ∀ size ∈ clients.filterMap Client.size, 1 ≤ size.1 ∧ 1 ≤ size.2 := by
    intro size hsize
    obtain ⟨client, hclient, heq⟩ := List.mem_filterMap.1 hsize
    exact h client hclient size heq
  have hleast : ∀ (sizes : List Size) (size : Size),
      (∀ other ∈ size :: sizes, 1 ≤ other.1 ∧ 1 ≤ other.2) →
      1 ≤ (sizes.foldl least size).1 ∧ 1 ≤ (sizes.foldl least size).2 := by
    intro sizes
    induction sizes with
    | nil => exact fun size hall => hall size List.mem_cons_self
    | cons other sizes ih =>
      intro size hall
      simp only [List.forall_mem_cons] at hall ih
      exact ih (least size other)
        ⟨⟨le_min hall.1.1 hall.2.1.1, le_min hall.1.2 hall.2.1.2⟩, hall.2.2⟩
  unfold sharedSize toScreenSize
  cases hcases : clients.filterMap Client.size with
  | nil => rfl
  | cons size sizes =>
    have hpos := hleast sizes size (hcases ▸ hsizes)
    exact Prod.ext (Nat.max_eq_left hpos.1) (Nat.max_eq_left hpos.2)

lemma sharedSize_filter {p : Client → Bool}
    (h : ∀ client ∈ clients, p client = false → client.size = none) :
    sharedSize (clients.filter p) = sharedSize clients := by
  have hsame : (clients.filter p).filterMap Client.size = clients.filterMap Client.size := by
    rw [List.filterMap_filter]
    refine List.filterMap_congr fun client hclient => ?_
    cases hp : p client with
    | true => rfl
    | false => exact (h client hclient hp).symm
  unfold sharedSize
  rw [hsame]

lemma Reported.sublist {kept : List Client} (h : Reported clients) (hkept : kept.Sublist clients) :
    Reported kept :=
  fun client hclient => h client (hkept.subset hclient)

lemma Reported.modify (h : Reported clients) {rows cols : Nat} {size : Size}
    (hsize : requestedTermSize rows cols = some size) (index : Nat) :
    Reported (clients.modify index fun client => { client with size := some size }) := by
  unfold requestedTermSize at hsize
  rw [Option.ite_none_right_eq_some, Option.some.injEq] at hsize
  obtain ⟨-, rfl⟩ := hsize
  intro client hclient other hother
  obtain ⟨i, hi⟩ := List.mem_iff_getElem?.1 hclient
  rw [List.getElem?_modify] at hi
  split at hi
  · obtain ⟨old, -, rfl⟩ := Option.map_eq_some_iff.1 hi
    cases hother
    exact ⟨le_max_of_le_left (by decide), le_max_of_le_left (by decide)⟩
  · obtain ⟨old, hold, rfl⟩ := Option.map_eq_some_iff.1 hi
    exact h _ (List.mem_of_getElem? hold) other hother

/-! ## Orderly runs -/

/-- The screen is right at any time, and the PTY is or is about to be. -/
structure Consistent (s : State) : Prop where
  reported : Reported s.clients
  screen : s.screen = sharedSize s.clients
  winsize : s.waiting = [] ∧ (∀ size, s.winsize = some size → size = s.screen) ∨
    s.waiting = [s.screen]

lemma consistent_initial : Consistent initial :=
  ⟨nofun, by decide, Or.inl ⟨rfl, nofun⟩⟩

/-- A computed size is that of the screen, and there is none if the screen stays as it was. -/
lemma updateSharedSize_spec (h : Reported s.clients) :
    s.updateSharedSize.2 = { s with screen := sharedSize s.clients } ∧
      (s.updateSharedSize.1 = none ∧ s.screen = sharedSize s.clients ∨
        s.updateSharedSize.1 = some (sharedSize s.clients)) := by
  unfold State.updateSharedSize
  dsimp only
  rw [toScreenSize_sharedSize h]
  split
  next hscreen =>
    refine ⟨?_, Or.inl ⟨rfl, hscreen⟩⟩
    rw [← hscreen]
  · exact ⟨rfl, Or.inr rfl⟩

lemma Consistent.resize (h : Consistent s) (hwaiting : s.waiting = [])
    (hreported : Reported clients)
    (hclients : s'.clients = clients) (hscreen : s'.screen = sharedSize clients)
    (hwinsize : s'.winsize = s.winsize)
    (hqueued : s'.waiting = (State.updateSharedSize { s with clients }).1.toList) :
    Consistent s' := by
  refine ⟨hclients ▸ hreported, hclients ▸ hscreen, ?_⟩
  rw [hqueued, hwinsize, hscreen]
  rcases (updateSharedSize_spec (s := { s with clients }) hreported).2 with ⟨hnone, hsame⟩ | hsome
  · rw [hnone]
    refine Or.inl ⟨rfl, fun size hsize => ?_⟩
    rcases h.winsize with ⟨-, hcurrent⟩ | hbusy
    · exact (hcurrent size hsize).trans hsame
    · cases hwaiting.symm.trans hbusy
  · rw [hsome]
    exact Or.inr rfl

lemma Consistent.detach (h : Consistent s) (hwaiting : s.waiting = [])
    (hreported : Reported clients) : Consistent (s.detach clients) := by
  have hspec := (updateSharedSize_spec (s := { s with clients }) hreported).1
  have hresizing : s.resizing = [] := (List.append_eq_nil_iff.1 hwaiting).2
  refine h.resize hwaiting hreported ?_ ?_ ?_ ?_
  · simp only [State.detach, hspec]
  · simp only [State.detach, hspec]
  · simp only [State.detach, hspec]
  · simp only [State.detach, hspec, State.waiting]
    rw [hresizing, List.append_nil]

lemma Consistent.keep (h : Consistent s) (hreported : Reported s'.clients)
    (hshared : sharedSize s'.clients = sharedSize s.clients) (hscreen : s'.screen = s.screen)
    (hwinsize : s'.winsize = s.winsize) (hwaiting : s'.waiting = s.waiting) : Consistent s' := by
  refine ⟨hreported, ?_, ?_⟩
  · rw [hscreen, hshared, h.screen]
  · rw [hwaiting, hwinsize, hscreen]
    exact h.winsize

lemma Consistent.applied (h : Consistent s) (size : Size) (hmem : size ∈ s.waiting)
    (hclients : s'.clients = s.clients) (hscreen : s'.screen = s.screen)
    (hwinsize : s'.winsize = some size)
    (hwaiting : s'.waiting.length + 1 = s.waiting.length) : Consistent s' := by
  refine ⟨hclients ▸ h.reported, by rw [hscreen, hclients, h.screen], Or.inl ?_⟩
  rcases h.winsize with ⟨hnone, -⟩ | hone
  · rw [hnone] at hmem
    cases hmem
  · rw [hone] at hmem hwaiting
    refine ⟨List.eq_nil_of_length_eq_zero (Nat.succ.inj hwaiting), fun other hother => ?_⟩
    rw [hwinsize] at hother
    cases hother
    rw [List.mem_singleton.1 hmem, hscreen]

theorem Consistent.step {op : Op} {out : Unit} (h : Consistent s) (hop : Orderly s op)
    (hstep : s.step op = some (out, s')) : Consistent s' := by
  cases op <;> simp only [State.step] at hstep
  case feedOutput =>
    split at hstep
    next hfree =>
      cases hstep
      exact h.keep h.reported rfl rfl rfl (by simp [State.waiting, hfree])
    · cases hstep
  case feedFinished failed =>
    split at hstep
    next ids hfeeding =>
      split at hstep
      · cases hstep
        refine h.keep (h.reported.sublist List.filter_sublist)
          (sharedSize_filter fun client hclient hdropped => ?_)
          rfl rfl (by simp [State.waiting, hfeeding])
        exact hop client hclient (by simpa using hdropped)
      · cases hstep
    · cases hstep
  case attachClient =>
    split at hstep
    next hfree =>
      cases hstep
      refine h.keep ?_ ?_ rfl rfl (by simp [State.waiting, hfree])
      · exact List.forall_mem_append.2 ⟨h.reported, List.forall_mem_singleton.2 nofun⟩
      · simp [sharedSize]
    · cases hstep
  case attachFinished failed =>
    split at hstep
    next id output hattaching =>
      split at hstep
      next hfailed =>
        split at hstep
        · cases hstep
          refine h.keep (h.reported.sublist List.filter_sublist)
            (sharedSize_filter fun client hclient hdropped => ?_)
            rfl rfl (by simp [State.waiting, hattaching])
          have hid : client.id = id := by simpa using hdropped
          exact hop hfailed client hclient (by simp [hattaching, Delivery.attaches, hid])
        · cases hstep
      · cases hstep
        exact h.keep h.reported rfl rfl rfl (by simp [State.waiting, hattaching])
    · cases hstep
  case detachClient id =>
    split at hstep
    · split at hstep
      · cases hstep
        exact h
      next hfound =>
        cases hstep
        exact h.detach (hop (State.knows_of_findIdx? hfound))
          (h.reported.sublist (List.eraseIdx_sublist _ _))
    · cases hstep
  case detachAllClients =>
    split at hstep
    · cases hstep
      exact h.detach hop nofun
    · cases hstep
  case detachFinished =>
    split at hstep
    next size hdetaching =>
      cases hstep
      cases size with
      | none =>
        exact h.keep h.reported rfl rfl rfl (by simp [State.waiting, State.applySize, hdetaching])
      | some size =>
        exact h.applied size (by simp [State.waiting, hdetaching]) rfl rfl rfl
          (by simp [State.waiting, State.applySize, hdetaching])
    · cases hstep
  case setClientSize id rows cols =>
    split at hstep
    next size index hsize hfound =>
      obtain ⟨hpositive, -⟩ := Option.ite_none_right_eq_some.1 hsize
      have hwaiting := hop ⟨hpositive.1, hpositive.2, State.knows_of_findIdx? hfound⟩
      have hreported := h.reported.modify hsize index
      have hspec :=
        (updateSharedSize_spec (s := { s with clients := s.clients.modify index fun client =>
        { client with size := some size } }) hreported).1
      cases hstep
      have hidle := List.append_eq_nil_iff.1 hwaiting
      refine h.resize hwaiting hreported ?_ ?_ ?_ ?_
      · simp only [hspec]
      · simp only [hspec]
      · simp only [hspec]
      · simp only [hspec, State.waiting]
        rw [hidle.1, hidle.2, List.nil_append, List.nil_append]
    · cases hstep
      exact h
  case sizeApplied index =>
    split at hstep
    next size hsize =>
      cases hstep
      obtain ⟨hindex, -⟩ := List.getElem?_eq_some_iff.1 hsize
      refine h.applied size (List.mem_append_right _ (List.mem_of_getElem? hsize)) rfl rfl rfl ?_
      have hlength := List.length_eraseIdx_add_one hindex
      simp only [State.waiting, State.applySize, List.length_append]
      omega
    · cases hstep

/-- Between calls, the screen has the least of the sizes that the attached clients have reported,
and so has the PTY if a size was ever applied to it. -/
theorem shared_size_kept {es : List (Event State Op Unit)} {s : State}
    (hrun : Trace State.step initial es s)
    (horderly : ∀ e ∈ es, Orderly e.pre e.op) (hidle : s.Idle) :
    s.screen = commonSize s.clients ∧ ∀ size, s.winsize = some size →
    size = commonSize s.clients := by
  have h := hrun.invariant_where (fun h hop hstep => h.step hop hstep) horderly consistent_initial
  have hscreen : s.screen = commonSize s.clients := h.screen.trans (sharedSize_eq s.clients)
  refine ⟨hscreen, fun size hsize => ?_⟩
  rcases h.winsize with ⟨-, hcurrent⟩ | hbusy
  · exact (hcurrent size hsize).trans hscreen
  · -- A size that still waits to be applied belongs to a call in progress.
    simp [State.waiting, hidle.1, hidle.2] at hbusy

def orderlyOps : List Op :=
  [.attachClient, .attachFinished false, .attachClient, .attachFinished false, .attachClient,
    .attachFinished false,
    .setClientSize 0 40 90, .setClientSize 7 9 9, .setClientSize 1 0 5, .sizeApplied 0,
    .setClientSize 1 30 100, .sizeApplied 0, .feedOutput, .feedFinished [2],
    .detachClient 1, .detachFinished]

theorem shared_size_kept_detached :
    ∃ es s, Trace State.step initial es s ∧ s.Idle ∧ s.winsize = some (40, 90) ∧
    s.screen = commonSize s.clients := by
  obtain ⟨es, s, hrun, hcheck⟩ := @exec_any _ _ _ State.step initial orderlyOps
    (fun run => run.1.all (fun e => decide (Orderly e.pre e.op)) && decide (run.2.Idle ∧
      run.2.winsize = some (40, 90)))
    (by decide)
  simp only [Bool.and_eq_true, List.all_eq_true, decide_eq_true_eq] at hcheck
  obtain ⟨horderly, hidle, hwinsize⟩ := hcheck
  exact ⟨es, s, hrun, hidle, hwinsize, (shared_size_kept hrun horderly hidle).1⟩

/-- A client whose connection fails while output is delivered leaves its size behind.  A size that
was computed first and applied last stays on the PTY. -/
theorem old_size_stays :
    (∃ es s, Trace State.step initial es s ∧ s.Idle ∧ s.screen = (10, 30) ∧
      commonSize s.clients = (24, 80)) ∧
      ∃ es s, Trace State.step initial es s ∧ s.Idle ∧ s.winsize = some (40, 90) ∧
      commonSize s.clients = (30, 90) := by
  constructor
  · obtain ⟨es, s, hrun, hcheck⟩ := @exec_any _ _ _ State.step initial
      [.attachClient, .attachFinished false, .setClientSize 0 10 30, .sizeApplied 0, .feedOutput,
        .feedFinished [0]]
      (fun run => decide (run.2.Idle ∧ run.2.screen = (10, 30) ∧
        commonSize run.2.clients = (24, 80))) (by decide)
    exact ⟨es, s, hrun, of_decide_eq_true hcheck⟩
  · obtain ⟨es, s, hrun, hcheck⟩ := @exec_any _ _ _ State.step initial
      [.attachClient, .attachFinished false, .setClientSize 0 40 90, .setClientSize 0 30 90,
        .sizeApplied 1, .sizeApplied 0]
      (fun run => decide (run.2.Idle ∧ run.2.winsize = some (40, 90) ∧
        commonSize run.2.clients = (30, 90)))
      (by decide)
    exact ⟨es, s, hrun, of_decide_eq_true hcheck⟩

end SharedSize
end Terrarium.Agent
