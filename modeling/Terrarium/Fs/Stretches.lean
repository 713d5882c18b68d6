import Terrarium.Foundations.Fallible
import Terrarium.Fs.Requests

/-!
# Stretches — what a request does between two suspensions

A task of `execute` runs in stretches between its calls to the host.  In almost every stretch it
leaves the tables as they are; this file says once what else a stretch can do.

* `Change` — the ways a stretch changes the tables, each with the result the task ends with;
* `safe_executeRemembering` — every stretch of every request is a `Stretch`.
-/

namespace Terrarium.Fs

open Async (Safe Quiet Post)

/-- The requests whose answer is an entry: it gives the guest a node to forget later. -/
def Opcode.isEntry : Opcode → Bool
  | lookup | mkdir | create | link | symlink => true
  | _ => false

/-- A change of the tables in a stretch that ends with `result`, or suspends the task. -/
inductive Change (opcode : Opcode) : State → State → Option (Except Errno Bytes) → Prop where
  | entered {state state' : State} {child : Node} {stat : Stat} {id : Nat}
    (hopcode : opcode.isEntry = true)
      (hnode : state.nodeId child stat = (.ok id, state')) :
      Change opcode state state' (some (.ok (entryOut stat id)))
  | lookedUp {state state' : State} {child : Node} {stat : Stat} {id : Nat} (request : Request)
      (hopcode : opcode.isEntry = true) (hnode : state.nodeId child stat = (.ok id, state')) :
      Change opcode state (state'.rememberLookup request (entryOut stat id))
        (some (.ok (entryOut stat id)))
  | refused {state state' : State} {child : Node} {stat : Stat} {error : Errno}
      (hnode : state.nodeId child stat = (.error error, state')) :
      Change opcode state state' (some (.error error))
  | created {state state' state'' : State} {child : Node} {stat : Stat} {id handle : Nat}
      {descriptor : Descriptor} {writable : Bool} (hopcode : opcode.isEntry = true)
      (hnode : state.nodeId child stat = (.ok id, state'))
      (hhandle : state'.storeHandle id descriptor writable = (.ok handle, state'')) :
      Change opcode state state'' (some (.ok (entryOut stat id ++ openOut handle)))
  | unopened {state state' state'' : State} {child : Node} {stat : Stat} {id : Nat}
    {descriptor : Descriptor}
      {writable : Bool} {error : Errno} (hcreate : opcode = .create)
      (hnode : state.nodeId child stat = (.ok id, state'))
      (hhandle : state'.storeHandle id descriptor writable = (.error error, state'')) :
      Change opcode state state'' (some (.error error))
  | linked {state : State} {stat : Stat} {id : Nat} (hlink : opcode = .link) (hid : id < 2 ^ 64) :
      Change opcode state (state.incrementLookup id) (some (.ok (entryOut stat id)))
  | repointed {state : State} (hopcode : opcode.isEntry = false) (stat : Stat) (parent : Descriptor)
      (name : Bytes) : Change opcode state (state.repointNode stat parent name) (some (.ok []))
  | released {state : State} (hopcode : opcode.isEntry = false) (id : Nat) (change : Node → Node)
      (result : Option (Except Errno Bytes)) : Change opcode state (state.setNode id change) result
  | opened {state state' : State} {node : Nat} {descriptor : Descriptor} {writable : Bool}
      {result : Except Errno Nat} (hopcode : opcode.isEntry = false)
      (hhandle : state.storeHandle node descriptor writable = (result, state')) :
      Change opcode state state' (some (result.map openOut))
  | openedDirectory {state state' : State} {node : Nat} {directory : Directory}
    {descriptor : Descriptor}
      {result : Except Errno Nat} (hopcode : opcode.isEntry = false)
      (hhandle : state.storeDirectory node directory descriptor = (result, state')) :
      Change opcode state state' (some (result.map openOut))

/-- What a stretch of a request accepted under `resetCount` does. -/
inductive Stretch (resetCount : Nat) (opcode : Opcode) : Post World (Except Errno Bytes) where
  | quiet {world : World} {result : Option (Except Errno Bytes)}
      (hresult : opcode.isEntry = true → ∀ body, result ≠ some (.ok body)) :
      Stretch resetCount opcode world world result
  | change {world : World} {state state' : State} {result : Option (Except Errno Bytes)}
      (hcurrent : world.resetCount = some resetCount) (hstate : world.state = some state)
      (hchange : Change opcode state state' result) :
      Stretch resetCount opcode world { world with state := some state' } result

abbrev Stretches (resetCount : Nat) (opcode : Opcode) (world : World) (work : Work Bytes) : Prop :=
  Safe (Stretch resetCount opcode) work.run world world

/-! ## Accesses to the tables -/

section Access

variable {α β : Type} {resetCount : Nat} {operation : State → Except Errno α × State}
    {world : World} {Q : Post World (Except Errno β)} {next : α → Work β}

lemma access_current {state : State} (hcurrent : world.resetCount = some resetCount)
    (hstate : world.state = some state) :
    World.access resetCount operation world =
      ((operation state).1, { world with state := some (operation state).2 }) := by
  unfold World.access
  rw [if_pos hcurrent, hstate]

lemma access_cases (resetCount : Nat) (operation : State → Except Errno α × State) (world : World) :
    (∃ state, world.resetCount = some resetCount ∧ world.state = some state) ∨
      World.access resetCount operation world = (.error eio, world) := by
  by_cases hcurrent : world.resetCount = some resetCount
  · cases hstate : world.state with
    | none =>
      refine Or.inr ?_
      unfold World.access
      rw [if_pos hcurrent, hstate]
    | some state => exact Or.inl ⟨state, hcurrent, rfl⟩
  · exact Or.inr (if_neg hcurrent)

lemma poll_withState {state state' : State} {result : Except Errno α}
    (hcurrent : world.resetCount = some resetCount)
    (hstate : world.state = some state) (hoperation : operation state = (result, state')) :
    (withState resetCount operation).run.poll world =
    (.done result, { world with state := some state' }) := by
  change (Async.Task.done (World.access resetCount operation world).1,
    (World.access resetCount operation world).2) = _
  rw [access_current hcurrent hstate, hoperation]

lemma access_read (hread : ∀ state, (operation state).2 = state) :
    (World.access resetCount operation world).2 = world := by
  rcases access_cases resetCount operation world with ⟨state, hcurrent, hstate⟩ | hfailed
  · rw [access_current hcurrent hstate, hread, ← hstate]
  · rw [hfailed]

lemma safe_read (hQ : Quiet Q) (hread : ∀ state, (operation state).2 = state)
    (hnext : ∀ value, Safe Q (next value).run world world) :
    Safe Q (withState resetCount operation >>= next).run world world :=
  hQ.update (access_read hread) fun value _ => hnext value

lemma safe_withState_again {since : World} {state : State}
    (hcurrent : world.resetCount = some resetCount) (hstate : world.state = some state)
    (hnext : match operation state with
      | (.error reason, state') =>
          Q since { world with state := some state' } (some (.error reason))
      | (.ok value, state') => Safe Q (next value).run since { world with state := some state' }) :
    Safe Q (withState resetCount operation >>= next).run since world := by
  rw [Async.safe_bindOk]
  change Async.andThenOk Q next since (World.access resetCount operation world).2
    (some (World.access resetCount operation world).1)
  rw [access_current hcurrent hstate]
  rcases hoperation : operation state with ⟨reason | value, state'⟩
  · rw [hoperation] at hnext
    exact hnext
  · rw [hoperation] at hnext
    exact hnext

/-- An access by a task that has not changed anything so far. -/
lemma safe_withState (hQ : Quiet Q)
    (hnext : ∀ state, world.resetCount = some resetCount → world.state = some state →
      match operation state with
      | (.error reason, state') =>
          Q world { world with state := some state' } (some (.error reason))
      | (.ok value, state') => Safe Q (next value).run world { world with state := some state' }) :
    Safe Q (withState resetCount operation >>= next).run world world := by
  rcases access_cases resetCount operation world with ⟨state, hcurrent, hstate⟩ | hfailed
  · exact safe_withState_again hcurrent hstate (hnext state hcurrent hstate)
  · rw [Async.safe_bindOk]
    change Async.andThenOk Q next world (World.access resetCount operation world).2
      (some (World.access resetCount operation world).1)
    rw [hfailed]
    exact hQ.failed world eio

end Access

section Requests

variable {resetCount : Nat} {opcode : Opcode} {request : Request} {world : World}

lemma stretch_quiet : Quiet (Stretch resetCount opcode) where
  suspended _ := .quiet fun _ _ => nofun
  failed _ _ := .quiet fun _ _ => nofun

lemma stretch_answer (hopcode : opcode.isEntry = false) {result : Option (Except Errno Bytes)} :
    Stretch resetCount opcode world world result :=
  .quiet fun hentry => absurd hentry (by rw [hopcode]; exact Bool.false_ne_true)

variable {Q : Post World (Except Errno Bytes)} {β : Type} {Q' : Post World (Except Errno β)}

lemma safe_requestNode (hQ : Quiet Q') {id : Nat} {next : Node → Work β}
    (hnext : ∀ node, Safe Q' (next node).run world world) :
    Safe Q' (requestNode resetCount id >>= next).run world world := by
  refine safe_read hQ (fun state => ?_) hnext
  cases state.nodes.lookup id with
  | none | some record => rfl

lemma safe_writableHandle (hQ : Quiet Q') {valid : Nat} {next : Option Descriptor → Work β}
    (hnext : ∀ descriptor, Safe Q' (next descriptor).run world world) :
    Safe Q' (writableHandle resetCount request valid >>= next).run world world := by
  unfold writableHandle
  split
  · rw [bind_assoc]
    refine hQ.immediate fun handle _ => ?_
    exact safe_read hQ (fun state => rfl) hnext
  · rw [pure_bind]
    exact hnext none

lemma quiet_andThenOk {α : Type} (hQ : Quiet Q') {next : α → Work β} :
    Quiet (Async.andThenOk Q' next) :=
  ⟨hQ.suspended, hQ.failed⟩

/-! ## Entries -/

/-- The condition under which an entry may be made and answered. -/
structure Enters (resetCount : Nat) (Q : Post World (Except Errno Bytes)) : Prop where
  quiet : Quiet Q
  entered : ∀ {world : World} {state state' : State} {child : Node} {stat : Stat} {id : Nat},
    world.resetCount = some resetCount → world.state = some state →
      state.nodeId child stat = (.ok id, state') →
        Q world { world with state := some state' } (some (.ok (entryOut stat id)))
  refused : ∀ {world : World} {state state' : State} {child : Node} {stat : Stat} {error : Errno},
    world.resetCount = some resetCount → world.state = some state →
      state.nodeId child stat = (.error error, state') →
        Q world { world with state := some state' } (some (.error error))

lemma enters_stretch (hopcode : opcode.isEntry = true) :
    Enters resetCount (Stretch resetCount opcode) where
  quiet := stretch_quiet
  entered hcurrent hstate hnode := .change hcurrent hstate (.entered hopcode hnode)
  refused hcurrent hstate hnode := .change hcurrent hstate (.refused hnode)

lemma safe_insertEntry (hQ : Enters resetCount Q) (child : Node) :
    Safe Q (insertEntry resetCount child).run world world := by
  refine hQ.quiet.callResult fun stat later =>
    safe_withState hQ.quiet fun state hcurrent hstate => ?_
  rcases hnode : state.nodeId child stat with ⟨reason | id, state'⟩
  · exact hQ.refused hcurrent hstate hnode
  · exact hQ.entered hcurrent hstate hnode

lemma safe_lookupEntry (hQ : Enters resetCount Q) :
    Safe Q (lookupEntry resetCount request).run world world := by
  refine hQ.quiet.immediate fun name _ => ?_
  refine safe_requestNode hQ.quiet fun parent => ?_
  exact hQ.quiet.callResult fun child later => safe_insertEntry hQ child

lemma safe_createDirectory (hopcode : opcode.isEntry = true) :
    Stretches resetCount opcode world (createDirectory resetCount request) := by
  refine stretch_quiet.immediate fun mode _ => ?_
  refine stretch_quiet.immediate fun name _ => ?_
  refine safe_requestNode stretch_quiet fun parent => ?_
  exact stretch_quiet.callResult fun child later => safe_insertEntry (enters_stretch hopcode) child

lemma safe_createSymlink (hopcode : opcode.isEntry = true) :
    Stretches resetCount opcode world (createSymlink resetCount request) := by
  refine stretch_quiet.immediate fun parts _ => ?_
  refine safe_requestNode stretch_quiet fun parent => ?_
  exact stretch_quiet.callResult fun child later => safe_insertEntry (enters_stretch hopcode) child

/-- The node is made and the file opened in one stretch; the open may fail after the creation. -/
lemma safe_createFile (hopcode : opcode = .create) :
    Stretches resetCount opcode world (createFile resetCount request) := by
  refine stretch_quiet.immediate fun flags _ => ?_
  refine stretch_quiet.immediate fun mode _ => ?_
  refine stretch_quiet.immediate fun name _ => ?_
  refine safe_requestNode stretch_quiet fun parent => ?_
  refine stretch_quiet.immediate fun createFlags _ => ?_
  refine stretch_quiet.callResult fun created later => ?_
  refine stretch_quiet.callResult fun stat later => ?_
  refine safe_withState stretch_quiet fun state hcurrent hstate => ?_
  rcases hnode : state.nodeId created.1 stat with ⟨reason | id, state'⟩
  · exact .change hcurrent hstate (.refused hnode)
  · refine safe_withState_again hcurrent rfl ?_
    rcases hhandle : state'.storeHandle id created.2 (flags &&& oAccmode ≠ 0) with ⟨reason
      | handle, state''⟩
    · exact .change hcurrent hstate (.unopened hopcode hnode hhandle)
    · exact .change hcurrent hstate (.created (hopcode ▸ rfl) hnode hhandle)

lemma u64At_lt {bytes : Bytes} {start n : Nat} (h : u64At bytes start = .ok n) : n < 2 ^ 64 := by
  unfold u64At numberAt at h
  split at h
  · cases h
    refine lt_of_lt_of_le (Wire.leNat_lt _) ?_
    refine le_trans (Nat.pow_le_pow_right (by decide) (List.length_take_le 8 _)) (by decide)
  · cases h

lemma safe_linkEntry (hlink : opcode = .link) :
    Stretches resetCount opcode world (linkEntry resetCount request) := by
  refine stretch_quiet.immediate fun oldInode hinode => ?_
  refine stretch_quiet.immediate fun name _ => ?_
  refine safe_requestNode stretch_quiet fun old => ?_
  refine safe_requestNode stretch_quiet fun parent => ?_
  refine stretch_quiet.callResult fun _ later => ?_
  refine stretch_quiet.callResult fun stat later => ?_
  refine safe_withState stretch_quiet fun state hcurrent hstate => ?_
  exact .change hcurrent hstate (.linked hlink (u64At_lt hinode))

/-! ## Requests whose answer is no entry -/

section Answers

variable (hopcode : opcode.isEntry = false)

include hopcode

lemma safe_openFile : Stretches resetCount opcode world (openFile resetCount request) := by
  refine stretch_quiet.immediate fun flags _ => ?_
  refine stretch_quiet.immediate fun access _ => ?_
  refine safe_requestNode stretch_quiet fun node => ?_
  refine stretch_quiet.callResult fun descriptor later => ?_
  refine safe_withState stretch_quiet fun state hcurrent hstate => ?_
  rcases hhandle : state.storeHandle request.node descriptor access.2.1 with ⟨reason
    | handle, state'⟩
  · exact .change hcurrent hstate (.opened hopcode hhandle)
  · exact .change hcurrent hstate (.opened hopcode hhandle)

lemma safe_openDirectory : Stretches resetCount opcode world
    (openDirectory resetCount request) := by
  refine safe_requestNode stretch_quiet fun node => ?_
  refine stretch_quiet.callResult fun opened later => ?_
  refine safe_withState stretch_quiet fun state hcurrent hstate => ?_
  rcases hhandle : state.storeDirectory request.node opened.1 opened.2 with ⟨reason
    | handle, state'⟩
  · exact .change hcurrent hstate (.openedDirectory hopcode hhandle)
  · exact .change hcurrent hstate (.openedDirectory hopcode hhandle)

lemma safe_readDirectory : Stretches resetCount opcode world
    (readDirectory resetCount request) := by
  refine stretch_quiet.immediate fun handle _ => ?_
  refine stretch_quiet.immediate fun cookie _ => ?_
  refine stretch_quiet.immediate fun size _ => ?_
  refine safe_read stretch_quiet (fun state => ?_) fun directory => ?_
  · cases state.directories.lookup handle with
    | none | some directory => rfl
  · exact stretch_quiet.callResult fun entries later => stretch_answer hopcode

lemma safe_setAttributes : Stretches resetCount opcode world
    (setAttributes resetCount request) := by
  refine stretch_quiet.immediate fun valid _ => ?_
  refine stretch_quiet.immediate fun size _ => ?_
  refine stretch_quiet.immediate fun _ _ => stretch_quiet.immediate fun _ _ => ?_
  refine stretch_quiet.immediate fun _ _ => stretch_quiet.immediate fun _ _ => ?_
  refine stretch_quiet.immediate fun mode _ => ?_
  refine stretch_quiet.immediate fun uid _ => stretch_quiet.immediate fun gid _ => ?_
  refine stretch_quiet.immediate fun _ _ => ?_
  refine safe_requestNode stretch_quiet fun node => ?_
  refine safe_writableHandle stretch_quiet fun openFile => ?_
  refine stretch_quiet.callResult fun _ later => ?_
  exact stretch_quiet.callResult fun stat later => stretch_answer hopcode

lemma safe_renameEntry : Stretches resetCount opcode world (renameEntry resetCount request) := by
  refine stretch_quiet.immediate fun newParentId _ => ?_
  refine stretch_quiet.immediate fun names _ => ?_
  refine stretch_quiet.immediate fun flags _ => stretch_quiet.immediate fun _ _ => ?_
  refine safe_requestNode stretch_quiet fun oldParent => ?_
  refine safe_requestNode stretch_quiet fun newParent => ?_
  refine stretch_quiet.callResult fun newParentDescriptor later => ?_
  refine stretch_quiet.callResult fun renamed later => ?_
  refine stretch_quiet.callResult fun stat later => ?_
  refine stretch_quiet.callResult fun _ later => ?_
  refine safe_withState stretch_quiet fun state hcurrent hstate => ?_
  exact .change hcurrent hstate (.repointed hopcode stat _ _)

lemma safe_getAttributes : Stretches resetCount opcode world
    (getAttributes resetCount request) := by
  refine safe_requestNode stretch_quiet fun node => ?_
  exact stretch_quiet.callResult fun stat later => stretch_answer hopcode

lemma safe_filesystemStat : Stretches resetCount opcode world
    (filesystemStat resetCount request) := by
  refine safe_requestNode stretch_quiet fun node => ?_
  exact stretch_quiet.callResult fun stat later => stretch_answer hopcode

lemma safe_readLink : Stretches resetCount opcode world (readLink resetCount request) := by
  refine safe_requestNode stretch_quiet fun node => ?_
  exact ⟨stretch_answer hopcode, fun reply later => stretch_answer hopcode⟩

lemma safe_releaseCached {parent : Node} {name : Bytes} {next : Option Descriptor → Work Bytes}
    (hnext : ∀ released since now, (∀ result, Stretch resetCount opcode since now result) →
      Safe (Stretch resetCount opcode) (next released).run since now) :
    Stretches resetCount opcode world (releaseCached resetCount parent name >>= next) := by
  refine Async.safe_bindOk.2 ?_
  have hquiet : Quiet (Async.andThenOk (Stretch resetCount opcode) next) :=
    quiet_andThenOk stretch_quiet
  have hkeep : ∀ world, Async.andThenOk (Stretch resetCount opcode) next world world
      (some (.ok none)) :=
    fun world => hnext none world world fun _ => stretch_answer hopcode
  refine hquiet.callResult fun parentDescriptor later => ?_
  refine hquiet.immediate fun childName _ => ?_
  refine hquiet.callResult fun isDirectory later => ?_
  rcases isDirectory with reason | _ | _
  · exact hkeep later
  · exact hkeep later
  · refine hquiet.callResult fun identity later => ?_
    rcases identity with reason | ⟨identity, unshared⟩
    · exact hkeep later
    · change Async.andThenOk (Stretch resetCount opcode) next later
        (World.access resetCount _ later).2 (some (World.access resetCount _ later).1)
      rcases access_cases resetCount _ later with ⟨state, hcurrent, hstate⟩ | hfailed
      · rw [access_current hcurrent hstate]
        have hsame : { later with state := some state } = later := by
          rw [← hstate]
        cases hid : state.nodeIdByIdentity.lookup identity with
        | none =>
          simp only [hsame]
          exact hkeep later
        | some id =>
          dsimp only
          split
          · simp only [hsame]
            exact hkeep later
          · dsimp only
            exact hnext _ _ _ fun result => .change hcurrent hstate (.released hopcode id _ result)
      · rw [hfailed]
        exact hquiet.failed later eio

lemma safe_removeEntry : Stretches resetCount opcode world (removeEntry resetCount request) := by
  refine stretch_quiet.immediate fun name _ => ?_
  refine safe_requestNode stretch_quiet fun parent => ?_
  refine stretch_quiet.callResult fun removed later => ?_
  rcases removed with error | _
  · dsimp only
    split
    · refine safe_releaseCached hopcode fun released since now hend => ?_
      cases released with
      | none => exact hend _
      | some descriptor =>
        refine Async.safe_callResult.2 ⟨hend _, fun reply later => ?_⟩
        cases reply with
        | error reason => exact stretch_answer hopcode
        | ok _ => exact stretch_quiet.callResult fun _ later => stretch_answer hopcode
    · exact stretch_answer hopcode
  · exact stretch_answer hopcode

end Answers

/-! ## Every request -/

lemma safe_execute (resetCount : Nat) (request : Request) (world : World) :
    Stretches resetCount request.opcode world (execute resetCount request) := by
  unfold execute
  generalize request.opcode = opcode
  split
  · exact safe_getAttributes rfl
  · exact safe_lookupEntry (enters_stretch rfl)
  · exact safe_readLink rfl
  · exact safe_setAttributes rfl
  · exact safe_createDirectory rfl
  · exact safe_createFile rfl
  · exact safe_removeEntry rfl
  · exact safe_removeEntry rfl
  · exact safe_renameEntry rfl
  · exact safe_renameEntry rfl
  · exact safe_linkEntry rfl
  · exact safe_createSymlink rfl
  · exact safe_openFile rfl
  · exact safe_openDirectory rfl
  · exact safe_readDirectory rfl
  · exact safe_filesystemStat rfl
  · exact stretch_quiet.failed world enosys

/-- A lookup that has made a node may remember it in the same stretch. -/
lemma enters_remembering (hopcode : opcode.isEntry = true) {next : Bytes → Work Bytes}
    (hnext : next = fun response => do
      let _ ← withState resetCount fun state => (.ok (), state.rememberLookup request response)
      return response) :
    Enters resetCount (Async.andThenOk (Stretch resetCount opcode) next) where
  quiet := quiet_andThenOk stretch_quiet
  entered := by
    intro world state state' child stat id hcurrent hstate hnode
    subst hnext
    refine safe_withState_again hcurrent rfl ?_
    exact .change hcurrent hstate (.lookedUp request hopcode hnode)
  refused hcurrent hstate hnode := .change hcurrent hstate (.refused hnode)

theorem safe_executeRemembering (resetCount : Nat) (request : Request) (world : World) :
    Stretches resetCount request.opcode world (executeRemembering resetCount request) := by
  refine Async.safe_bindOk.2 ?_
  split
  next hlookup =>
    unfold execute
    rw [hlookup]
    exact safe_lookupEntry (enters_remembering rfl rfl)
  · refine (safe_execute resetCount request world).mono fun since now result hresult => ?_
    rcases result with _ | _ | _
    · exact hresult
    · exact hresult
    · exact hresult

lemma safe_fileWork {handle : OpenHandle} {work : Work Bytes}
    (h : fileWork request handle = .ok work)
    (world : World) : Stretches resetCount request.opcode world work := by
  unfold fileWork at h
  generalize request.opcode = opcode at h ⊢
  split at h
  · obtain ⟨offset, -, h⟩ := Fallible.bind_eq_ok.1 h
    obtain ⟨size, -, h⟩ := Fallible.bind_eq_ok.1 h
    cases h
    exact ⟨stretch_answer rfl, fun reply later => stretch_answer rfl⟩
  · obtain ⟨offset, -, h⟩ := Fallible.bind_eq_ok.1 h
    obtain ⟨size, -, h⟩ := Fallible.bind_eq_ok.1 h
    split at h
    · cases h
    · split at h
      · cases h
      · cases h
        exact stretch_quiet.callResult fun _ later => stretch_answer rfl
  · cases h
    exact stretch_quiet.callResult fun _ later => stretch_answer rfl
  · cases h

lemma safe_prepareFileIo {state : State} {prepared : PreparedIo RequestWork}
    (h : prepareFileIo state request = .ok prepared) : prepared.work.opcode = request.opcode ∧
      ∀ world, Stretches resetCount request.opcode world prepared.work.task := by
  obtain ⟨id, -, h⟩ := Fallible.bind_eq_ok.1 h
  split at h
  next hopcode =>
    split at h
    · cases h
    · obtain ⟨identity, -, h⟩ := Fallible.bind_eq_ok.1 h
      cases h
      have hanswer : request.opcode.isEntry = false := by rw [hopcode]; rfl
      exact ⟨rfl, fun world => stretch_quiet.callResult fun _ later => stretch_answer hanswer⟩
  · split at h
    · cases h
    · obtain ⟨work, hwork, h⟩ := Fallible.bind_eq_ok.1 h
      obtain ⟨identity, -, h⟩ := Fallible.bind_eq_ok.1 h
      cases h
      exact ⟨rfl, safe_fileWork hwork⟩

lemma safe_prepareIo {state : State} {prepared : PreparedIo RequestWork}
    (h : prepareIo state request resetCount = .ok prepared) :
    prepared.work.opcode = request.opcode ∧
      ∀ world, Stretches resetCount request.opcode world prepared.work.task := by
  have hexecute := safe_executeRemembering resetCount request
  unfold prepareIo at h
  split at h
  · exact safe_prepareFileIo h
  · exact safe_prepareFileIo h
  · exact safe_prepareFileIo h
  · exact safe_prepareFileIo h
  pick_goal 6
  · obtain ⟨identity, -, h⟩ := Fallible.bind_eq_ok.1 h
    cases h
    exact ⟨rfl, hexecute⟩
  all_goals
    cases h
    exact ⟨rfl, hexecute⟩

end Requests

end Terrarium.Fs
