import Terrarium.Fs.DeviceSteps

/-!
# TableInvariant — the tables in every run

However the guest's requests, the host's answers and resets interleave, the tables stay valid as
long as no number wraps around.

* `TableStep.valid` — one step keeps the tables valid;
* `tables_valid` — so does every run of a configured device.
-/

namespace Terrarium.Fs

open FiniteMap (size)
open Wire (leBytes)

section Step

variable {polled : Option Opcode} {state state' : State} {log : List LogEntry}

theorem SameTables.valid (h : SameTables state state') (hvalid : state.Valid) : state'.Valid := by
  obtain ⟨eventRequest, eventsEnabled, rfl⟩ := h
  exact { hvalid with indexed := { hvalid.indexed with }, opened := { hvalid.opened with } }

lemma valid_created (hvalid : state.Valid) (hwrap : state.NoWrap) {state'' : State}
    {child : Node} {stat : Stat}
    {id : Nat} {descriptor : Descriptor} {writable : Bool} {result : Except Errno Nat}
    (hnode : state.nodeId child stat = (.ok id, state'))
    (hhandle : state'.storeHandle id descriptor writable = (result, state'')) : state''.Valid := by
  have hentered := hvalid.nodeId hwrap.node hnode
  obtain ⟨_, _, _, _, rfl⟩ := State.nodeId_frame hnode
  exact hentered.storeHandle hwrap.handle hhandle

theorem Change.valid {opcode : Opcode} {result : Option (Except Errno Bytes)}
    (h : Change opcode state state' result) (hvalid : state.Valid) (hwrap : state.NoWrap) :
    state'.Valid := by
  cases h with
  | entered _ hnode | refused hnode => exact hvalid.nodeId hwrap.node hnode
  | lookedUp request _ hnode => exact (hvalid.nodeId hwrap.node hnode).rememberLookup request _
  | created _ hnode hhandle | unopened _ hnode hhandle =>
    exact valid_created hvalid hwrap hnode hhandle
  | linked _ _ => exact hvalid.incrementLookup _
  | repointed _ stat parent name => exact hvalid.repointNode stat parent name
  | released _ id change _ => exact hvalid.setNode id change
  | opened _ hhandle => exact hvalid.storeHandle hwrap.handle hhandle
  | openedDirectory _ hhandle => exact hvalid.storeDirectory hwrap.handle hhandle

lemma valid_forgetAll (hvalid : state.Valid) (items : List (Nat × Nat)) :
    (forgetAll items state).Valid := by
  induction items generalizing state with
  | nil => exact hvalid
  | cons item items ih => exact ih (hvalid.forget item.1 item.2)

theorem TableStep.valid (h : TableStep polled state log state') (hvalid : state.Valid)
    (hwrap : state.NoWrap) : state'.Valid := by
  cases h with
  | keep hsame _ => exact hsame.valid hvalid
  | cleared hsame _ => exact hsame.valid hvalid.clearRuntime
  | forgot items => exact valid_forgetAll hvalid items
  | answered _ hchange | suspended _ hchange => exact hchange.valid hvalid hwrap
  | releasedHandle id _ => exact hvalid.removeHandle id
  | releasedDirectory id _ => exact hvalid.removeDirectory id
  | erased key hsame _ =>
    exact hsame.valid
      (hvalid.setEventEntries (le_trans (FiniteMap.size_erase_le _ _) hvalid.events))

end Step

/-! ## Runs -/

/-- No number of the tables is about to wrap around. -/
def System.NoWrap (s : System) : Prop :=
  ∀ state, s.world.state = some state → state.NoWrap

/-- The tables are valid, and so are the tasks that will change them. -/
structure Sound (s : System) : Prop where
  prepared : Prepared s
  valid : ∀ {state : State}, s.world.state = some state → state.Valid

section Runs

variable {s s' t : System} {out : Output} {action : Action}

lemma Sound.step (h : Sound s) (hwrap : s.NoWrap) (hstep : s.step action = some (out, s')) :
    Sound s' := by
  obtain ⟨hspec, hprepared⟩ := spec_step h.prepared hstep
  refine ⟨hprepared, fun {state'} hstate' => ?_⟩
  rcases hspec.tables with hnone | ⟨state, state'', hstate, hstate'', htable⟩
  · cases hnone.symm.trans hstate'
  · cases hstate''.symm.trans hstate'
    exact htable.valid (h.valid hstate) (hwrap state hstate)

lemma sound_configure {tag : Bytes} {maxNodes : Nat} {root : Node} {stat : Stat}
    (h : System.configure tag maxNodes root stat = some s) : Sound s := by
  refine ⟨prepared_configure h, fun {state} hstate => ?_⟩
  unfold System.configure at h
  split at h
  · cases h
  next hbounds =>
    cases h
    cases hstate
    simp only [not_or, not_lt] at hbounds
    exact State.valid_new hbounds.2.2.1 _

lemma Sound.run (h : Sound s) {es : List (Run.Event System Action Output)}
    (hrun : Run.Trace System.step s es t) (hwrap : ∀ e ∈ es, e.pre.NoWrap) : Sound t :=
  hrun.invariant_where (C := fun m _ => m.NoWrap) Sound.step hwrap h

/-- In every state of every run in which no number wraps around, the tables are valid; a file gets
no node for want of room only if every node but the root is looked up or held open. -/
theorem tables_valid {tag : Bytes} {maxNodes : Nat} {root : Node} {stat : Stat}
    {es : List (Run.Event System Action Output)}
    (hconfigure : System.configure tag maxNodes root stat = some s)
    (hrun : Run.Trace System.step s es t) (hwrap : ∀ e ∈ es, e.pre.NoWrap) :
    ∀ state, t.world.state = some state → state.Valid ∧
      ∀ child stat, (state.nodeId child stat).1 = .error emfile →
        ∀ id ∈ state.nodes, id ≠ 1 →
          (∃ record, state.nodes.lookup id = some record ∧ record.lookups ≠ 0) ∨ state.Held id := by
  intro state hstate
  have hvalid := ((sound_configure hconfigure).run hrun hwrap).valid hstate
  exact ⟨hvalid, fun child stat hemfile => hvalid.nodeId_emfile hemfile⟩

end Runs

/-! ## A device with one file -/

namespace Sample

def instant : Instant := ⟨0, 0⟩

def stat (ino : Nat) : Stat := ⟨1, ino, 0o100755, 1, 1000, 1000, 0, 0, instant, instant, instant⟩

def root : Node := ⟨some 3, none, none⟩

def device : System where
  world := ⟨some (.new 2 (some ⟨1, 1, 1, root⟩)), some 0⟩
  scheduler := .new
  knownResetCount := 0
  worker := .idle
  signalled := false
  nextAbort := 0

def host : ∀ call, HostCall.Reply call
  | .stat _ => .ok (stat 9)
  | .lookup _ _ => .ok ⟨some 4, some (3, [97]), none⟩
  | .create _ _ _ _ => .ok (⟨some 4, some (3, [97]), none⟩, 5)
  | .openFile _ _ _ => .ok 5
  | .link _ _ _ => .ok ()
  | _ => .error eio

def memory : Memory := ⟨true, true⟩

def arrival (opcode node : Nat) (body : Bytes) : Arrival :=
  ⟨1, 0,
    some (leBytes 4 (header + body.length) ++ leBytes 4 opcode ++ leBytes 8 7 ++ leBytes 8 node ++
    List.replicate 16 0 ++ body, [⟨0x1000, 4096, 2, 0⟩]), memory⟩

def lookup : List Action :=
  [.process (arrival 1 1 [97, 0]), .poll 0 host memory, .poll 0 host memory, .poll 0 host memory]

def link : List Action :=
  [.process (arrival 13 1 (leBytes 8 2 ++ [98, 0])), .poll 0 host memory, .poll 0 host memory,
    .poll 0 host memory]

end Sample

def System.noWrapAll (es : List (Run.Event System Action Output)) : Bool :=
  es.all fun e => e.pre.world.state.all fun state =>
    state.nextNode + 1 < 2 ^ 64 && state.nextHandle + 1 < 2 ^ 64

lemma noWrap_of_all {es : List (Run.Event System Action Output)} (h : System.noWrapAll es = true) :
    ∀ e ∈ es, e.pre.NoWrap := by
  intro e he state hstate
  have hall := List.all_eq_true.1 h e he
  simp only [hstate, Option.all_some, Bool.and_eq_true, decide_eq_true_iff] at hall
  exact ⟨hall.1, hall.2⟩

theorem tables_valid_lookup : ∃ es t, System.configure [116] 2 Sample.root (Sample.stat 1) =
    some Sample.device ∧ Run.Trace System.step Sample.device es t ∧ (∀ e ∈ es, e.pre.NoWrap) ∧
      ∃ state, t.world.state = some state ∧ size state.nodes = 2 ∧ state.Valid := by
  have hconfigure : System.configure [116] 2 Sample.root (Sample.stat 1) = some Sample.device :=
    if_neg (by decide)
  obtain ⟨es, t, hrun, hcheck⟩ := Run.exec_any Sample.lookup
    (fun run => System.noWrapAll run.1 && run.2.world.state.any fun state => size state.nodes = 2)
    (by decide +kernel : (Run.exec System.step Sample.device Sample.lookup).any _ = true)
  obtain ⟨hwrap, hsize⟩ := Bool.and_eq_true_iff.1 hcheck
  obtain ⟨state, hstate, hnodes⟩ := (Option.any_eq_true _ _).1 hsize
  have hvalid := tables_valid hconfigure hrun (noWrap_of_all hwrap) state hstate
  exact ⟨es, t, hconfigure, hrun, noWrap_of_all hwrap, state, hstate,
    of_decide_eq_true hnodes, hvalid.1⟩

end Terrarium.Fs
