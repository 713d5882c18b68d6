import Terrarium.Fs.TableInvariant

/-!
# LookupCounts — how often the guest has looked a node up

Every answer with an entry gives the guest one more reference to a node, and the guest gives
references back by forgetting them.  The device counts them, so that it knows which nodes it may
drop.

* `balance` — the references that the answers and requests of a run leave the guest with;
* `TableStep.lookups` — one step keeps the books, unless it makes a file's node and then finds no
  room for the file's handle, or links a node that was dropped meanwhile.
-/

namespace Terrarium.Fs

open FiniteMap (size lookup_insert_iff mem_of_lookup)
open Wire (leBytes)

/-- The references of the guest to a node; a node that is not there has none. -/
def State.lookups (state : State) (id : Nat) : Nat :=
  match state.nodes.lookup id with
  | none => 0
  | some record => record.lookups

/-! ## What the functions of the tables do to the counts -/

namespace State

variable {state state' : State} {id other : Nat}

lemma lookups_of_nodes (h : state'.nodes = state.nodes) (id : Nat) :
    state'.lookups id = state.lookups id := by
  unfold lookups
  rw [h]

lemma lookups_of_record {record : NodeRecord} (h : state.nodes.lookup id = some record) :
    state.lookups id = record.lookups := by
  unfold lookups
  rw [h]

lemma lookups_of_notMem (h : id ∉ state.nodes) : state.lookups id = 0 := by
  unfold lookups
  rw [Finmap.lookup_eq_none.2 h]

lemma lookups_insert {record : NodeRecord} (h : state'.nodes = state.nodes.insert id record)
    (other : Nat) :
    state'.lookups other = if other = id then record.lookups else state.lookups other := by
  unfold lookups
  rw [h]
  by_cases heq : other = id
  · subst heq
    rw [Finmap.lookup_insert, if_pos rfl]
  · rw [Finmap.lookup_insert_of_ne _ heq, if_neg heq]

lemma lookups_forget (hid : id ≠ 1) (state : State) (count : Nat) (other : Nat) :
    (state.forget id count).lookups other =
      if other = id then state.lookups other - count else state.lookups other := by
  unfold forget
  rw [if_neg hid]
  cases hrecord : state.nodes.lookup id with
  | none =>
    dsimp only
    rw [lookups_of_nodes (keepsNodes_markUnusedIfUnheld _ _).1]
    split
    next heq => rw [heq, lookups_of_notMem (Finmap.lookup_eq_none.1 hrecord), Nat.zero_sub]
    · rfl
  | some record =>
    rw [lookups_of_nodes (keepsNodes_markUnusedIfUnheld _ _).1, lookups_insert rfl]
    split
    next heq => rw [heq, lookups_of_record hrecord]
    · rfl

lemma lookups_setNode (state : State) (id : Nat) (change : Node → Node) (other : Nat) :
    (state.setNode id change).lookups other = state.lookups other := by
  unfold setNode
  cases hrecord : state.nodes.lookup id with
  | none => rfl
  | some record =>
    rw [lookups_insert rfl]
    split
    next heq => rw [heq, lookups_of_record hrecord]
    · rfl

lemma lookups_repointNode (state : State) (stat : Stat) (parent : Descriptor) (name : Bytes)
    (other : Nat) : (state.repointNode stat parent name).lookups other = state.lookups other := by
  unfold repointNode
  split
  · rfl
  · exact lookups_setNode _ _ _ _

lemma full_of_storeHandle {node : Nat} {descriptor : Descriptor} {writable : Bool} {error : Errno}
    (h : state.storeHandle node descriptor writable = (.error error, state')) :
    size state.handles = maxHandles := by
  unfold storeHandle at h
  split at h
  · assumption
  · cases h

lemma lookups_clearRuntime (state : State) (hid : id ≠ 1) : state.clearRuntime.lookups id = 0 := by
  refine lookups_of_notMem ?_
  unfold clearRuntime new
  cases state.nodes.lookup 1 with
  | none => exact Finmap.notMem_empty
  | some record =>
    intro hmem
    exact hid ((Finmap.mem_singleton id 1 record).1 hmem)

lemma Valid.lookups_evictUnusedNode (h : state.Valid) (other : Nat) :
    state.evictUnusedNode.lookups other = state.lookups other := by
  unfold State.evictUnusedNode
  split
  · rfl
  next id hmin =>
    obtain ⟨-, ⟨record, hrecord, hlookups⟩, -⟩ := (h.unused id).1 (Finset.mem_of_min hmin)
    simp only [hrecord]
    unfold lookups
    by_cases heq : other = id
    · subst heq
      simp only [Finmap.lookup_erase, hrecord, hlookups]
    · simp only [Finmap.lookup_erase_ne heq]

lemma saturatingAdd_of_lt {count : Nat} (h : count + 1 < 2 ^ 64) :
    saturatingAdd count 1 = count + 1 := by
  unfold saturatingAdd
  omega

def Unsaturated (state : State) : Prop :=
  ∀ id record, state.nodes.lookup id = some record → record.lookups + 1 < 2 ^ 64

lemma Valid.lookups_nodeId (h : state.Valid) (hwrap : state.NoWrap) (hsaturated : state.Unsaturated)
    {child : Node} {stat : Stat} (hnode : state.nodeId child stat = (.ok id, state')) :
    id < 2 ^ 64 ∧
      ∀ other, state'.lookups other = if other = id then state.lookups other + 1
        else state.lookups other := by
  rcases state.nodeId_cases child stat with
    ⟨found, record, -, hrecord, heq⟩ | ⟨found, -, -, heq⟩ | ⟨room, hroom, -, -, heq⟩
      | ⟨-, -, -, heq⟩
  · cases heq.symm.trans hnode
    refine ⟨?_, fun other => ?_⟩
    · exact lt_trans (h.indexed.numbered _ (mem_of_lookup hrecord)) (Nat.lt_of_succ_lt hwrap.node)
    · rw [lookups_insert rfl]
      split
      next hother =>
        rw [hother, lookups_of_record hrecord]
        exact saturatingAdd_of_lt (hsaturated _ _ hrecord)
      · rfl
  · cases heq.symm.trans hnode
  · obtain ⟨hvalid, hnext, hlookups⟩ : room.Valid ∧ room.nextNode = state.nextNode ∧
        ∀ other, room.lookups other = state.lookups other := by
      rcases hroom with rfl | rfl
      · exact ⟨h, rfl, fun _ => rfl⟩
      · exact ⟨h.evictUnusedNode, nextNode_evictUnusedNode, h.lookups_evictUnusedNode⟩
    have hfresh : room.nextNode ∉ room.nodes :=
      fun hmem => lt_irrefl _ (hvalid.indexed.numbered _ hmem)
    cases heq.symm.trans hnode
    refine ⟨hnext ▸ Nat.lt_of_succ_lt hwrap.node, fun other => ?_⟩
    rw [lookups_insert rfl]
    split
    next hother => rw [← hlookups, hother, lookups_of_notMem hfresh]
    · exact hlookups other
  · cases heq.symm.trans hnode

lemma Valid.lookups_nodeId_error (h : state.Valid) {child : Node} {stat : Stat} {error : Errno}
    (hnode : state.nodeId child stat = (.error error, state')) (other : Nat) :
    state'.lookups other = state.lookups other := by
  rcases state.nodeId_cases child stat with
    ⟨found, record, -, -, heq⟩ | ⟨found, -, -, heq⟩ | ⟨room, -, -, -, heq⟩ | ⟨-, -, -, heq⟩
  · cases heq.symm.trans hnode
  · cases heq.symm.trans hnode
    rfl
  · cases heq.symm.trans hnode
  · cases heq.symm.trans hnode
    exact h.lookups_evictUnusedNode other

lemma lookups_incrementLookup (hsaturated : state.Unsaturated)
    (hmem : id ∈ (state.incrementLookup id).nodes) (other : Nat) :
    (state.incrementLookup id).lookups other =
      if other = id then state.lookups other + 1 else state.lookups other := by
  unfold incrementLookup at hmem ⊢
  cases hrecord : state.nodes.lookup id with
  | none =>
    rw [hrecord] at hmem
    exact absurd hmem (Finmap.lookup_eq_none.1 hrecord)
  | some record =>
    dsimp only
    rw [lookups_insert rfl]
    split
    next heq =>
      rw [heq, lookups_of_record hrecord]
      exact saturatingAdd_of_lt (hsaturated _ _ hrecord)
    · rfl

end State

/-! ## The balance of a run -/

/-- What an entry of the log does to the references to a node. -/
def LogEntry.count (id balance : Nat) : LogEntry → Nat
  | .cleared => 0
  | .forgot id' count => if id' = id then balance - count else balance
  | .answered _ (.error _) => balance
  | .answered opcode (.ok body) =>
      if opcode.isEntry ∧ (u64At body 0).toOption = some id then balance + 1 else balance

def countLog (id : Nat) (log : List LogEntry) (balance : Nat) : Nat :=
  log.foldl (LogEntry.count id) balance

/-- The references to a node that a run leaves the guest with. -/
def balance (id : Nat) (es : List (Run.Event System Action Output)) : Nat :=
  es.foldl (fun n e => countLog id e.out.log n) 0

/-- The node that a link is answered with. -/
def LogEntry.linked : LogEntry → Option Nat
  | .answered .link (.ok body) => (u64At body 0).toOption
  | _ => none

/-- The nodes that links are answered with are in the tables. -/
def LinksThere (log : List LogEntry) (state : State) : Prop :=
  ∀ entry ∈ log, ∀ id, entry.linked = some id → id ∈ state.nodes

section Step

variable {polled : Option Opcode} {state state' : State} {log : List LogEntry} {id : Nat}
    {opcode : Opcode} {error : Errno} {stat : Stat} {descriptor : Descriptor} {child : Node}

lemma countLog_uncounted (h : Uncounted log) (n : Nat) : countLog id log n = n := by
  induction log generalizing n with
  | nil => rfl
  | cons entry log ih =>
    have hentry : LogEntry.count id n entry = n := by
      obtain ⟨opcode, result, rfl, hresult⟩ := h entry List.mem_cons_self
      cases result with
      | error error => rfl
      | ok body =>
        simp only [LogEntry.count]
        rw [if_neg fun hcounted => hresult hcounted.1 body rfl]
    change countLog id log (LogEntry.count id n entry) = n
    rw [hentry]
    exact ih (fun entry hmem => h entry (List.mem_cons_of_mem _ hmem)) n

theorem SameTables.lookups (h : SameTables state state') (id : Nat) :
    state'.lookups id = state.lookups id := by
  obtain ⟨_, _, rfl⟩ := h
  rfl

lemma count_entry (hopcode : opcode.isEntry = true) (hid : id < 2 ^ 64) (stat : Stat)
    (rest : Bytes) (other n : Nat) :
    countLog other [.answered opcode (.ok (entryOut stat id ++ rest))] n =
      if other = id then n + 1 else n := by
  have hread : (u64At (entryOut stat id ++ rest) 0).toOption = some id := by
    rw [u64At_entryOut hid]
    rfl
  simp only [countLog, List.foldl_cons, List.foldl_nil, LogEntry.count, hopcode, hread, true_and,
    Option.some.injEq, @eq_comm _ id other]

lemma lookups_forgetAll (items : List (Nat × Nat)) (hid : id ≠ 1) :
    (forgetAll items state).lookups id =
      countLog id (items.map fun item => .forgot item.1 item.2) (state.lookups id) := by
  induction items generalizing state with
  | nil => rfl
  | cons item items ih =>
    change (forgetAll items (state.forget item.1 item.2)).lookups id = countLog id _
      (LogEntry.count id (state.lookups id) (.forgot item.1 item.2))
    rw [ih]
    by_cases hroot : item.1 = 1
    · have hforget : state.forget item.1 item.2 = state := if_pos hroot
      rw [hforget]
      simp only [LogEntry.count]
      rw [if_neg fun heq => hid (heq.symm.trans hroot)]
    · rw [State.lookups_forget hroot]
      simp only [LogEntry.count, eq_comm]

/-- The counts after an answer. -/
def Booked (opcode : Opcode) (state state' : State) (id : Nat) : Option (Except Errno Bytes) → Prop
  | none => state'.lookups id = state.lookups id
  | some result => state'.lookups id = countLog id [.answered opcode result] (state.lookups id)

variable {result : Option (Except Errno Bytes)}

lemma booked_same (hlookups : state'.lookups id = state.lookups id)
    (hresult : opcode.isEntry = true → ∀ body, result ≠ some (.ok body)) :
    Booked opcode state state' id result := by
  cases result with
  | none => exact hlookups
  | some result =>
    change _ = _
    rw [countLog_uncounted
      (uncounted_answer fun hentry body heq => hresult hentry body (congrArg some heq))]
    exact hlookups

lemma nonentry_ok (hopcode : opcode.isEntry = false) : opcode.isEntry = true →
    ∀ body, result ≠ some (.ok body) :=
  fun hentry => absurd hentry (by rw [hopcode]; exact Bool.false_ne_true)

/-- While there is room for a handle, a node that is made gets one. -/
lemma storeHandle_of_room {entered : State} {made : Nat} {writable : Bool}
    (hroom : size state.handles < maxHandles)
    (hnode : state.nodeId child stat = (.ok made, entered)) :
    entered.storeHandle made descriptor writable ≠ (.error error, state') := by
  intro hhandle
  obtain ⟨_, _, _, _, rfl⟩ := State.nodeId_frame hnode
  have hfull := State.full_of_storeHandle hhandle
  exact hroom.ne hfull

section Books

variable (hvalid : state.Valid) (hwrap : state.NoWrap) (hsaturated : state.Unsaturated)

include hvalid hwrap hsaturated

lemma booked_entered (hopcode : opcode.isEntry = true) {entered : State} {made : Nat}
    (hnode : state.nodeId child stat = (.ok made, entered)) (hnodes : state'.nodes = entered.nodes)
    {body rest : Bytes} (hbody : body = entryOut stat made ++ rest) :
    Booked opcode state state' id (some (.ok body)) := by
  obtain ⟨hmade, hlookups⟩ := hvalid.lookups_nodeId hwrap hsaturated hnode
  subst hbody
  change _ = _
  rw [count_entry hopcode hmade, State.lookups_of_nodes hnodes, hlookups]

/-- The books are kept unless a file's node is made without a handle, or a link's node is gone. -/
lemma Change.booked (h : Change opcode state state' result)
    (hroom : opcode = .create → size state.handles < maxHandles)
    (hlinks : ∀ answer, result = some answer → LinksThere [.answered opcode answer] state') :
    Booked opcode state state' id result := by
  cases h with
  | entered hopcode hnode =>
    exact booked_entered hvalid hwrap hsaturated hopcode hnode rfl (List.append_nil _).symm
  | lookedUp request hopcode hnode =>
    exact booked_entered hvalid hwrap hsaturated hopcode hnode
      (State.keepsNodes_rememberLookup _ request _).1 (List.append_nil _).symm
  | refused hnode => exact booked_same (hvalid.lookups_nodeId_error hnode id) nofun
  | created hopcode hnode hhandle =>
    exact booked_entered hvalid hwrap hsaturated hopcode hnode
      (State.keepsNodes_storeHandle hhandle).1 rfl
  | unopened hcreate hnode hhandle =>
    -- the node would be counted without an answer
    exact absurd hhandle (storeHandle_of_room (hroom hcreate) hnode)
  | @linked stat linked hlink hlinked =>
    subst hlink
    have hmem : linked ∈ (state.incrementLookup linked).nodes := by
      refine hlinks _ rfl _ List.mem_cons_self linked ?_
      have hread := u64At_entryOut hlinked stat []
      rw [List.append_nil] at hread
      exact congrArg Except.toOption hread
    have hentry : Opcode.link.isEntry = true := rfl
    have hcount := count_entry hentry hlinked stat [] id (state.lookups id)
    rw [List.append_nil] at hcount
    change _ = _
    rw [hcount, State.lookups_incrementLookup hsaturated hmem]
  | repointed hopcode stat parent name =>
    exact booked_same (State.lookups_repointNode _ _ _ _ id) (nonentry_ok hopcode)
  | released hopcode released change result =>
    exact booked_same (State.lookups_setNode _ _ _ id) (nonentry_ok hopcode)
  | opened hopcode hhandle =>
    exact booked_same (State.lookups_of_nodes (State.keepsNodes_storeHandle hhandle).1 id)
      (nonentry_ok hopcode)
  | openedDirectory hopcode hhandle =>
    exact booked_same (State.lookups_of_nodes (State.keepsNodes_storeDirectory hhandle).1 id)
      (nonentry_ok hopcode)

theorem TableStep.lookups (h : TableStep polled state log state') (hid : id ≠ 1)
    (hroom : polled = some .create → size state.handles < maxHandles)
    (hlinks : LinksThere log state') : state'.lookups id = countLog id log (state.lookups id) := by
  cases h with
  | keep hsame hlog | erased key hsame hlog =>
    rw [countLog_uncounted hlog]
    exact hsame.lookups id
  | cleared hsame hlog =>
    have huncounted : Uncounted _ := fun entry hentry => by
      obtain ⟨body, rfl⟩ := hlog entry hentry
      exact ⟨.init, .ok body, rfl, fun h => absurd h Bool.false_ne_true⟩
    change _ = countLog id _ 0
    rw [countLog_uncounted huncounted, hsame.lookups, State.lookups_clearRuntime _ hid]
  | forgot items => exact lookups_forgetAll items hid
  | answered hpolled hchange =>
    refine hchange.booked hvalid hwrap hsaturated (fun hcreate => hroom (hcreate ▸ hpolled)) ?_
    rintro _ ⟨⟩
    exact hlinks
  | suspended hpolled hchange =>
    exact hchange.booked hvalid hwrap hsaturated (fun hcreate => hroom (hcreate ▸ hpolled)) nofun
  | releasedHandle handle hlog =>
    rw [countLog_uncounted hlog]
    exact State.lookups_of_nodes (State.keepsNodes_removeHandle _ _).1 id
  | releasedDirectory handle hlog =>
    rw [countLog_uncounted hlog]
    exact State.lookups_of_nodes (State.keepsNodes_removeDirectory _ _).1 id

lemma TableStep.lookups_of_error (h : TableStep polled state log state')
    (hroom : polled = some .create → size state.handles < maxHandles)
    (herror : .answered opcode (.error error) ∈ log) (id : Nat) :
    state'.lookups id = state.lookups id := by
  cases h with
  | keep hsame _ | erased key hsame _ => exact hsame.lookups id
  | cleared hsame hlog =>
    -- a negotiation that clears the tables is answered without an error
    rcases List.mem_cons.1 herror with heq | hmem
    · cases heq
    · obtain ⟨body, heq⟩ := hlog _ hmem
      cases heq
  | forgot items =>
    obtain ⟨item, -, heq⟩ := List.mem_map.1 herror
    cases heq
  | answered hpolled hchange =>
    cases List.mem_singleton.1 herror
    refine hchange.booked hvalid hwrap hsaturated (fun hcreate => hroom (hcreate ▸ hpolled)) ?_
    rintro _ ⟨⟩ entry hentry id hid
    rw [List.mem_singleton.1 hentry] at hid
    cases opcode <;> cases hid
  | suspended _ _ => exact (List.not_mem_nil herror).elim
  | releasedHandle handle _ => exact State.lookups_of_nodes (State.keepsNodes_removeHandle _ _).1 id
  | releasedDirectory handle _ =>
      exact State.lookups_of_nodes (State.keepsNodes_removeDirectory _ _).1 id

end Books

end Step

/-! ## Runs -/

def System.Unsaturated (s : System) : Prop :=
  ∀ state, s.world.state = some state → state.Unsaturated

/-- An operation that creates a file finds room for its handle. -/
def System.HasRoom (s : System) (action : Action) : Prop :=
  s.polled action = some .create → ∀ state, s.world.state = some state →
    size state.handles < maxHandles

/-- A link is answered while its node is in the tables. -/
def KeepsLinks (e : Run.Event System Action Output) : Prop :=
  ∀ state, e.post.world.state = some state → LinksThere e.out.log state

section Runs

variable {s t : System} {es : List (Run.Event System Action Output)}

lemma balance_snoc (id : Nat) (e : Run.Event System Action Output) :
    balance id (es ++ [e]) = countLog id e.out.log (balance id es) := by
  simp only [balance, List.foldl_append, List.foldl_cons, List.foldl_nil]

theorem Sound.lookups (h : Sound s)
    (hstart : ∀ state, s.world.state = some state → ∀ id, id ≠ 1 → state.lookups id = 0)
    (hrun : Run.Trace System.step s es t) (hwrap : ∀ e ∈ es, e.pre.NoWrap)
    (hsaturated : ∀ e ∈ es, e.pre.Unsaturated) (hroom : ∀ e ∈ es, e.pre.HasRoom e.op)
    (hlinks : ∀ e ∈ es, KeepsLinks e) :
    ∀ state, t.world.state = some state → ∀ id, id ≠ 1 → state.lookups id = balance id es := by
  induction hrun with
  | nil => exact hstart
  | @snoc m t es action out hrun hstep ih =>
    intro state' hstate' id hid
    obtain ⟨hwrap, hwrap'⟩ := List.forall_mem_append.1 hwrap
    obtain ⟨hsaturated, hsaturated'⟩ := List.forall_mem_append.1 hsaturated
    obtain ⟨hroom, hroom'⟩ := List.forall_mem_append.1 hroom
    obtain ⟨hlinks, hlinks'⟩ := List.forall_mem_append.1 hlinks
    have hsound := h.run hrun hwrap
    have hbooked := ih hwrap hsaturated hroom hlinks
    have hlast : ⟨m, action, out, t⟩ ∈ [(⟨m, action, out, t⟩ : Run.Event System Action Output)] :=
      List.mem_cons_self
    rcases (spec_step hsound.prepared hstep).1.tables with hnone
      | ⟨state, state'', hstate, hstate'', htable⟩
    · cases hnone.symm.trans hstate'
    · cases hstate''.symm.trans hstate'
      rw [balance_snoc, ← hbooked state hstate id hid]
      exact htable.lookups (hsound.valid hstate) (hwrap' _ hlast state hstate)
        (hsaturated' _ hlast state hstate) hid (fun hcreate => hroom' _ hlast hcreate state hstate)
        (hlinks' _ hlast state' hstate')

lemma lookups_configure {tag : Bytes} {maxNodes : Nat} {root : Node} {stat : Stat}
    (h : System.configure tag maxNodes root stat = some s) :
    ∀ state, s.world.state = some state → ∀ id, id ≠ 1 → state.lookups id = 0 := by
  intro state hstate id hid
  unfold System.configure at h
  split at h
  · cases h
  · cases h
    cases hstate
    refine State.lookups_of_notMem fun hmem => ?_
    exact hid ((Finmap.mem_singleton id 1 _).1 hmem)

/-- In every run in which no number wraps around, no count saturates, every created file finds room
for its handle and every link is answered while its node is there, the count of each node but the
root is the balance of the guest's references; an error changes no count; and a node that the guest
neither refers to nor holds open can be dropped. -/
theorem lookups_balanced {tag : Bytes} {maxNodes : Nat} {root : Node} {stat : Stat}
    (hconfigure : System.configure tag maxNodes root stat = some s)
    (hrun : Run.Trace System.step s es t)
    (hwrap : ∀ e ∈ es, e.pre.NoWrap) (hsaturated : ∀ e ∈ es, e.pre.Unsaturated)
    (hroom : ∀ e ∈ es, e.pre.HasRoom e.op) (hlinks : ∀ e ∈ es, KeepsLinks e) :
    (∀ state, t.world.state = some state → ∀ id, id ≠ 1 → state.lookups id = balance id es ∧
      (id ∈ state.nodes → balance id es = 0 → ¬ state.Held id → id ∈ state.unusedNodes)) ∧
    ∀ e ∈ es, ∀ opcode error, .answered opcode (.error error) ∈ e.out.log →
      ∀ state state', e.pre.world.state = some state → e.post.world.state = some state' →
        ∀ id, state'.lookups id = state.lookups id := by
  have hsound := sound_configure hconfigure
  constructor
  · intro state hstate id hid
    have hlookups := hsound.lookups (lookups_configure hconfigure) hrun hwrap
      hsaturated hroom hlinks state hstate id hid
    refine ⟨hlookups, fun hmem hbalance hheld => ?_⟩
    -- A node with a balance of zero has a count of zero, and then the queue must have it.
    obtain ⟨record, hrecord⟩ := Finmap.mem_iff.1 hmem
    refine (((hsound.run hrun hwrap).valid hstate).unused id).2 ⟨hid, ⟨record, hrecord, ?_⟩, hheld⟩
    rw [← State.lookups_of_record hrecord, hlookups, hbalance]
  · intro e he opcode error herror state state' hstate hstate' id
    obtain ⟨before, after, hes⟩ := List.append_of_mem he
    obtain ⟨hbefore, hstep, -⟩ := hrun.split hes
    have hpre := hsound.run hbefore fun e he => hwrap e (hes ▸ List.mem_append_left _ he)
    -- Whatever the tables do in a step that answers with an error, no count changes.
    rcases (spec_step hpre.prepared hstep).1.tables with hnone | ⟨old, new, hold, hnew, htable⟩
    · cases hnone.symm.trans hstate'
    · cases hold.symm.trans hstate
      cases hnew.symm.trans hstate'
      exact htable.lookups_of_error (hpre.valid hstate) (hwrap e he state hstate)
        (hsaturated e he state hstate) (fun hcreate => hroom e he hcreate state hstate) herror id

end Runs

def System.unsaturatedAll (es : List (Run.Event System Action Output)) : Bool :=
  es.all fun e => e.pre.world.state.all fun state =>
    ∀ id ∈ state.nodes.keys, (state.nodes.lookup id).all fun record => record.lookups + 1 < 2 ^ 64

lemma unsaturated_of_all {es : List (Run.Event System Action Output)}
    (h : System.unsaturatedAll es = true) : ∀ e ∈ es, e.pre.Unsaturated := by
  intro e he state hstate id record hrecord
  have hall := List.all_eq_true.1 h e he
  simp only [hstate, Option.all_some, decide_eq_true_iff] at hall
  have hid := hall id (Finmap.mem_keys.2 (mem_of_lookup hrecord))
  simpa only [hrecord, Option.all_some, decide_eq_true_iff] using hid

lemma hasRoom_of_all {es : List (Run.Event System Action Output)}
    (h : (es.all fun e => e.pre.polled e.op ≠ some .create) = true) :
    ∀ e ∈ es, e.pre.HasRoom e.op := by
  intro e he hcreate
  exact absurd hcreate (of_decide_eq_true (List.all_eq_true.1 h e he))

def System.keepsLinksAll (es : List (Run.Event System Action Output)) : Bool :=
  es.all fun e => e.post.world.state.all fun state =>
    e.out.log.all fun entry => entry.linked.all fun id => id ∈ state.nodes

lemma keepsLinks_of_all {es : List (Run.Event System Action Output)}
    (h : System.keepsLinksAll es = true) : ∀ e ∈ es, KeepsLinks e := by
  intro e he state hstate entry hentry id hid
  have hall := List.all_eq_true.1 h e he
  rw [hstate, Option.all_some] at hall
  have hlinked := List.all_eq_true.1 hall entry hentry
  simpa only [hid, Option.all_some, decide_eq_true_iff] using hlinked

theorem lookups_balanced_forgotten : ∃ es t state,
    System.configure [116] 2 Sample.root (Sample.stat 1) = some Sample.device ∧
    Run.Trace System.step Sample.device es t ∧ (∀ e ∈ es, e.pre.NoWrap) ∧
    (∀ e ∈ es, e.pre.Unsaturated) ∧
    (∀ e ∈ es, e.pre.HasRoom e.op) ∧ (∀ e ∈ es, KeepsLinks e) ∧ t.world.state = some state ∧
    state.lookups 2 = balance 2 es ∧ 2 ∈ state.unusedNodes := by
  have hconfigure : System.configure [116] 2 Sample.root (Sample.stat 1) = some Sample.device :=
    if_neg (by decide)
  obtain ⟨es, t, hrun, hcheck⟩ := Run.exec_any
    (Sample.lookup ++ Sample.link ++ [.process (Sample.arrival 2 2 (leBytes 8 2))])
    (fun run => System.noWrapAll run.1 && System.unsaturatedAll run.1 &&
      System.keepsLinksAll run.1 &&
      (run.1.all fun e => e.pre.polled e.op ≠ some .create) && balance 2 run.1 = 0 &&
      run.2.world.state.any fun state => 2 ∈ state.nodes ∧ ¬ state.nodeIsHeld 2)
    (by decide +kernel : (Run.exec System.step Sample.device _).any _ = true)
  simp only [Bool.and_eq_true, decide_eq_true_iff] at hcheck
  obtain ⟨⟨⟨⟨⟨hwrap, hsaturated⟩, hlinks⟩, hroom⟩, hbalance⟩, hlast⟩ := hcheck
  obtain ⟨state, hstate, hnode⟩ := (Option.any_eq_true _ _).1 hlast
  obtain ⟨hmem, hheld⟩ := of_decide_eq_true hnode
  have hbooked := (lookups_balanced hconfigure hrun (noWrap_of_all hwrap)
    (unsaturated_of_all hsaturated)
    (hasRoom_of_all hroom) (keepsLinks_of_all hlinks)).1 state hstate 2 (by decide)
  refine ⟨es, t, state, hconfigure, hrun, noWrap_of_all hwrap, unsaturated_of_all hsaturated,
    hasRoom_of_all hroom, keepsLinks_of_all hlinks, hstate, hbooked.1,
    hbooked.2 hmem hbalance fun hheld' => ?_⟩
  exact hheld (State.nodeIsHeld_iff.2 hheld')

/-! ## A file without a handle

The file of the sample device is opened until the table of handles is full, and then created once
more. -/

namespace Sample

open FiniteMap (Map)

def file : Node := ⟨some 4, some (3, [97]), none⟩

/-- The root and the file, which was looked up once, with some handles to the file. -/
def tables (handles : Map Nat OpenHandle) (next : Nat) : State where
  eventRequest := none
  eventEntries := (∅ : Map EntryKey Nat).insert (entryKey 1 [97]) 2
  eventsEnabled := false
  maxNodes := 2
  nodes := (Finmap.singleton 1 ⟨1, 1, 1, root⟩).insert 2 ⟨1, 9, 1, file⟩
  nodeIdByIdentity := (Finmap.singleton (1, 1) 1).insert (1, 9) 2
  unusedNodes := ∅
  handles := handles
  directories := ∅
  nextHandle := next
  nextNode := 3

def running (state : State) (scheduler : IoScheduler RequestWork) : System where
  world := ⟨some state, some 0⟩
  scheduler := scheduler
  knownResetCount := 0
  worker := .idle
  signalled := false
  nextAbort := 0

def target : PendingReply := ⟨1, 0, [⟨0x1000, 4096, 2, 0⟩], 7, 0⟩

def queued (operation : Operation RequestWork) : IoScheduler RequestWork := ⟨[operation], [], ∅, ∅⟩

def active (operation : Operation RequestWork) : IoScheduler RequestWork :=
    IoScheduler.new.start 0 operation

/-! ### Opening the file -/

def openRequest : Request := ⟨.openFile, 7, 2, [0, 0, 0, 0]⟩

def openOperation (task : Work Bytes) : Operation RequestWork :=
    (⟨some (1, 9), ⟨.openFile, task⟩⟩, target)

def opening : Work Bytes :=
    ((executeRemembering 0 openRequest).run.poll ⟨some (tables ∅ 2), some 0⟩).1

section Open

variable (handles : Map Nat OpenHandle) (next : Nat)

lemma step_open : (running (tables handles next) .new).step (.process (arrival 14 2 [0, 0, 0, 0])) =
    some (⟨[], []⟩, running (tables handles next)
      (queued (openOperation (executeRemembering 0 openRequest)))) :=
  rfl

lemma step_opening :
    (running (tables handles next) (queued (openOperation (executeRemembering 0 openRequest)))).step
        (.poll 0 host memory) =
      some (⟨[], []⟩, running (tables handles next) (active (openOperation opening))) :=
  rfl

lemma resume_opening : opening.run.resume host =
    ((withState 0 fun state => state.storeHandle 2 5 false) >>=
      (fun handle => (pure (openOut handle) : Work Bytes)) >>=
      fun response => (pure response : Work Bytes)).run :=
  rfl

lemma step_opened {handles : Map Nat OpenHandle} (hroom : size handles ≠ maxHandles) (next : Nat) :
    ∃ accesses, (running (tables handles next) (active (openOperation opening))).step
      (.poll 0 host memory) =
      some (⟨accesses, [.answered .openFile (.ok (openOut next))]⟩,
        running (tables (handles.insert next ⟨2, false, 5⟩) (nextId next)) .new) := by
  have hstore : (tables handles next).storeHandle 2 5 false =
      (.ok next, tables (handles.insert next ⟨2, false, 5⟩) (nextId next)) := if_neg hroom
  have hpoll : (opening.run.resume host).poll ⟨some (tables handles next), some 0⟩ =
      (.done (.ok (openOut next)),
        ⟨some (tables (handles.insert next ⟨2, false, 5⟩) (nextId next)), some 0⟩) := by
    rw [resume_opening, Async.poll_bindOk (Async.poll_bindOk (poll_withState rfl rfl hstore))]
    rfl
  have hactive :
      (active (openOperation opening)).startReady.active[0]? = some (openOperation opening) := rfl
  exact pollOperation_done (s := running (tables handles next) (active (openOperation opening)))
    hactive hpoll rfl memory

end Open

/-! ### Creating it again -/

def createBody : Bytes := leBytes 4 0o101 ++ leBytes 4 0o644 ++ List.replicate 8 0 ++ [97, 0]

def createRequest : Request := ⟨.create, 7, 1, createBody⟩

def createOperation (task : Work Bytes) : Operation RequestWork :=
    (⟨some (1, 1), ⟨.create, task⟩⟩, target)

/-- The task while the host creates the file, and while it looks at it. -/
def creating : Work Bytes :=
    ((executeRemembering 0 createRequest).run.poll ⟨some (tables ∅ 2), some 0⟩).1

def created : Work Bytes := ((creating.run.resume host).poll ⟨some (tables ∅ 2), some 0⟩).1

def leaked (handles : Map Nat OpenHandle) (next : Nat) : State :=
  { tables handles next with
    nodes := (tables handles next).nodes.insert 2 ⟨1, 9, 2, file⟩
    unusedNodes := Finset.erase ∅ 2 }

section Create

variable (handles : Map Nat OpenHandle) (next : Nat)

lemma step_create : (running (tables handles next) .new).step (.process (arrival 35 1 createBody)) =
    some (⟨[], []⟩, running (tables handles next)
      (queued (createOperation (executeRemembering 0 createRequest)))) :=
  rfl

lemma step_creating :
    (running (tables handles next)
      (queued (createOperation (executeRemembering 0 createRequest)))).step
        (.poll 0 host memory) =
      some (⟨[], []⟩, running (tables handles next) (active (createOperation creating))) :=
  rfl

lemma step_created :
    (running (tables handles next) (active (createOperation creating))).step (.poll 0 host memory) =
    some (⟨[], []⟩, running (tables handles next) (active (createOperation created))) :=
  rfl

lemma resume_created : created.run.resume host =
    ((withState 0 fun state => state.nodeId file (stat 9)) >>= (fun inode =>
      (withState 0 fun state => state.storeHandle inode 5 true) >>= fun handle =>
        (pure (entryOut (stat 9) inode ++ openOut handle) : Work Bytes)) >>=
      fun response => (pure response : Work Bytes)).run :=
  rfl

lemma step_leaked {handles : Map Nat OpenHandle} (hfull : size handles = maxHandles) (next : Nat) :
    ∃ accesses, (running (tables handles next) (active (createOperation created))).step
      (.poll 0 host memory) =
      some (⟨accesses, [.answered .create (.error emfile)]⟩, running
        (leaked handles next) .new) := by
  have hnode : (tables handles next).nodeId file (stat 9) = (.ok 2, leaked handles next) := rfl
  have hstore : (leaked handles next).storeHandle 2 5 true =
      (.error emfile, leaked handles next) := if_pos hfull
  have hpoll : (created.run.resume host).poll ⟨some (tables handles next), some 0⟩ =
      (.done (.error emfile), ⟨some (leaked handles next), some 0⟩) := by
    have hfound : (withState 0 fun state => state.nodeId file (stat 9)).run.poll
        ⟨some (tables handles next), some 0⟩ =
        (.done (.ok 2), ⟨some (leaked handles next), some 0⟩) :=
      poll_withState rfl rfl hnode
    have hrefused : (withState 0 fun state => state.storeHandle 2 5 true).run.poll
        ⟨some (leaked handles next), some 0⟩ =
        (.done (.error emfile), ⟨some (leaked handles next), some 0⟩) :=
      poll_withState rfl rfl hstore
    rw [resume_created]
    refine Async.poll_bind_error ?_
    rw [Async.poll_bindOk hfound]
    exact Async.poll_bind_error hrefused
  have hactive :
      (active (createOperation created)).startReady.active[0]? =
      some (createOperation created) := rfl
  exact pollOperation_done (s := running (tables handles next) (active (createOperation created)))
    hactive hpoll rfl memory

end Create

/-! ### The run -/

/-- A part of a run in which nothing is counted, with room for numbers and counts. -/
structure Uneventful (s : System) (es : List (Run.Event System Action Output))
    (t : System) : Prop where
  run : Run.Trace System.step s es t
  noWrap : ∀ e ∈ es, e.pre.NoWrap
  unsaturated : ∀ e ∈ es, e.pre.Unsaturated
  uncounted : ∀ e ∈ es, Uncounted e.out.log

variable {t : System}

lemma Uneventful.append {s m : System} {es fs : List (Run.Event System Action Output)}
    (h : Uneventful s es m) (h' : Uneventful m fs t) : Uneventful s (es ++ fs) t :=
  ⟨h.run.append h'.run, List.forall_mem_append.2 ⟨h.noWrap, h'.noWrap⟩,
    List.forall_mem_append.2 ⟨h.unsaturated, h'.unsaturated⟩,
    List.forall_mem_append.2 ⟨h.uncounted, h'.uncounted⟩⟩

lemma unsaturated_tables (handles : Map Nat OpenHandle) (next : Nat) :
    (tables handles next).Unsaturated := by
  intro id record hrecord
  rcases lookup_insert_iff.1 hrecord with ⟨-, rfl⟩ | ⟨-, hroot⟩
  · exact (by decide : (1 : Nat) + 1 < 2 ^ 64)
  · obtain ⟨-, rfl⟩ := State.lookup_singleton_iff.1 hroot
    exact (by decide : (1 : Nat) + 1 < 2 ^ 64)

lemma uneventful_step {handles : Map Nat OpenHandle} {next : Nat} (hnext : next + 1 < 2 ^ 64)
    {scheduler : IoScheduler RequestWork} {action : Action} {out : Output}
    (hstep : (running (tables handles next) scheduler).step action = some (out, t))
    (hlog : Uncounted out.log) : Uneventful (running (tables handles next) scheduler)
      [⟨running (tables handles next) scheduler, action, out, t⟩] t := by
  refine ⟨.single hstep, fun e he => ?_, fun e he => ?_, fun e he => ?_⟩
  · rw [List.mem_singleton.1 he]
    rintro state ⟨⟩
    exact ⟨(by decide : (3 : Nat) + 1 < 2 ^ 64), hnext⟩
  · rw [List.mem_singleton.1 he]
    rintro state ⟨⟩
    exact unsaturated_tables handles next
  · rw [List.mem_singleton.1 he]
    exact hlog

lemma uneventful_open {handles : Map Nat OpenHandle}
    (hroom : size handles ≠ maxHandles) {next : Nat}
    (hnext : next + 1 < 2 ^ 64) : ∃ es, Uneventful (running (tables handles next) .new) es
      (running (tables (handles.insert next ⟨2, false, 5⟩) (nextId next)) .new) := by
  obtain ⟨accesses, hopened⟩ := step_opened hroom next
  have hopen := uneventful_step hnext (step_open handles next) uncounted_nil
  have hopening := uneventful_step hnext (step_opening handles next) uncounted_nil
  have hlast :=
    uneventful_step hnext hopened (uncounted_answer fun h => absurd h Bool.false_ne_true)
  exact ⟨_, (hopen.append hopening).append hlast⟩

lemma uneventful_opens {count : Nat} (hcount : count ≤ maxHandles) :
    ∃ es handles, size handles = count ∧ (∀ id ∈ handles, id < count + 2) ∧
      Uneventful (running (tables ∅ 2) .new) es (running (tables handles (count + 2)) .new) := by
  induction count with
  | zero =>
    refine ⟨[], ∅, rfl, fun id hid => absurd hid Finmap.notMem_empty, .nil, ?_, ?_, ?_⟩
    · exact List.forall_mem_nil _
    · exact List.forall_mem_nil _
    · exact List.forall_mem_nil _
  | succ count ih =>
    obtain ⟨es, handles, hsize, hnumbered, hrun⟩ := ih (Nat.le_of_succ_le hcount)
    have hfresh : count + 2 ∉ handles := fun hmem => lt_irrefl _ (hnumbered _ hmem)
    have hnext : count + 2 + 1 < 2 ^ 64 := by
      unfold maxHandles at hcount
      omega
    obtain ⟨fs, hopen⟩ := uneventful_open (hsize ▸ (Nat.lt_of_succ_le hcount).ne) hnext
    rw [State.nextId_of_lt (by omega) hnext] at hopen
    refine ⟨es ++ fs, handles.insert (count + 2) ⟨2, false, 5⟩, ?_, fun id hid => ?_, ?_⟩
    · rw [FiniteMap.size_insert_of_notMem hfresh, hsize]
    · rcases Finmap.mem_insert.1 hid with rfl | hid
      · omega
      · have hlt := hnumbered id hid
        omega
    · exact hrun.append hopen

lemma balance_uneventful {s : System} {es fs : List (Run.Event System Action Output)}
    (h : Uneventful s fs t) (id : Nat) : balance id (es ++ fs) = balance id es := by
  have hfold : ∀ n, fs.foldl (fun n e => countLog id e.out.log n) n = n := by
    have huncounted := h.uncounted
    clear h
    induction fs with
    | nil => exact fun _ => rfl
    | cons e fs ih =>
      intro n
      rw [List.foldl_cons, countLog_uncounted (huncounted e List.mem_cons_self)]
      exact ih (fun e he => huncounted e (List.mem_cons_of_mem _ he)) n
  unfold balance
  rw [List.foldl_append, hfold]

set_option maxRecDepth 4000 in
lemma run_lookup : ∃ es, Run.Trace System.step device es (running (tables ∅ 2) .new) ∧
    (∀ e ∈ es, e.pre.NoWrap) ∧ (∀ e ∈ es, e.pre.Unsaturated) ∧ balance 2 es = 1 := by
  have hlast :
      (Run.exec System.step device lookup).map Prod.snd = some (running (tables ∅ 2) .new) := rfl
  have hcheck : ((Run.exec System.step device lookup).all fun run =>
      System.noWrapAll run.1 && System.unsaturatedAll run.1 && balance 2 run.1 = 1) =
        true := by decide +kernel
  obtain ⟨⟨es, t⟩, hexec, rfl⟩ := Option.map_eq_some_iff.1 hlast
  rw [hexec] at hcheck
  simp only [Option.all_some, Bool.and_eq_true, decide_eq_true_iff] at hcheck
  obtain ⟨⟨hwrap, hsaturated⟩, hbalance⟩ := hcheck
  exact ⟨es, Run.exec_trace hexec, noWrap_of_all hwrap, unsaturated_of_all hsaturated, hbalance⟩

end Sample

/-- The table of handles is full when a file is created that is looked up already: the answer is an
error, but the guest's one reference counts twice. -/
theorem lookups_leaked : ∃ es t e state state',
    System.configure [116] 2 Sample.root (Sample.stat 1) = some Sample.device ∧
    Run.Trace System.step Sample.device es t ∧ (∀ e ∈ es, e.pre.NoWrap) ∧
    (∀ e ∈ es, e.pre.Unsaturated) ∧ e ∈ es ∧ .answered .create (.error emfile) ∈ e.out.log ∧
    e.pre.world.state = some state ∧ e.post.world.state = some state' ∧ state.lookups 2 = 1 ∧
    state'.lookups 2 = 2 ∧ e.post = t ∧ balance 2 es = 1 := by
  have hconfigure : System.configure [116] 2 Sample.root (Sample.stat 1) = some Sample.device :=
    if_neg (by decide)
  obtain ⟨es, hlookup, hwrap, hsaturated, hbalance⟩ := Sample.run_lookup
  obtain ⟨fs, handles, hsize, -, hopens⟩ := Sample.uneventful_opens (le_refl maxHandles)
  have hnext : maxHandles + 2 + 1 < 2 ^ 64 := by decide
  have hcreate := Sample.uneventful_step hnext (Sample.step_create handles _) uncounted_nil
  have hcreating := Sample.uneventful_step hnext (Sample.step_creating handles _) uncounted_nil
  have hcreated := Sample.uneventful_step hnext (Sample.step_created handles _) uncounted_nil
  obtain ⟨accesses, hstep⟩ := Sample.step_leaked hsize (maxHandles + 2)
  have hlast := Sample.uneventful_step hnext hstep uncounted_error
  have hrest := (((hopens.append hcreate).append hcreating).append hcreated).append hlast
  refine ⟨es ++ _, _, ⟨_, _, _, _⟩, _, _, hconfigure, hlookup.append hrest.run, fun e he => ?_,
    fun e he => ?_,
    List.mem_append_right _ (List.mem_append_right _ List.mem_cons_self), List.mem_cons_self, rfl,
    rfl, rfl, rfl,
    rfl, ?_⟩
  · exact (List.mem_append.1 he).elim (hwrap e) (hrest.noWrap e)
  · exact (List.mem_append.1 he).elim (hsaturated e) (hrest.unsaturated e)
  · rw [Sample.balance_uneventful hrest, hbalance]

end Terrarium.Fs
