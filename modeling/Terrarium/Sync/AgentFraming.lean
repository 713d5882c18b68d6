import Terrarium.Foundations.Fallible
import Terrarium.Sync.Agent

/-!
# AgentFraming — the bytes of a file are never taken for a request

The peer sends the body of an upload once the agent has replied `writeFileReady`.  `bodiesOf` and
`readsOf` find in the log of a session which bytes these are and which were read as request frames.

* `Framing` — no byte is in both, and at an error reply the reader stands at the `boundary` of the
  log, past every body, or at the end of the stream;
* `keepsFraming` — what befalls the rounds of a body leaves none of it behind;
* `framed_serve` — a session keeps its framing as long as this holds for every body.
-/

namespace Terrarium.Sync

open Faults Prog

/-! ## Bodies and requests in a log -/

/-- The ranges read as request frames. -/
def readsOf (log : List Event) : List (Nat × Nat) :=
  log.filterMap fun
    | .read start stop => some (start, stop)
    | _ => none

/-- The request being answered. -/
def lastRequest : List Event → Option SyncRequest
  | [] => none
  | .requested request :: _ => some request
  | _ :: log => lastRequest log

/-- The ranges the peer sends as bodies: the bytes after each `writeFileReady`, as many as the
request says. -/
def bodiesOf : List Event → List (Nat × Nat)
  | [] => []
  | .replied .writeFileReady position :: log =>
      match lastRequest log with
      | some (.writeFile _ size _ _ _) => (position, position + size) :: bodiesOf log
      | _ => bodiesOf log
  | _ :: log => bodiesOf log

/-- The end of what was last read as a request frame, or of the body announced since. -/
def boundary : List Event → Nat
  | [] => 0
  | .read _ stop :: _ => stop
  | .replied .writeFileReady position :: log =>
      match lastRequest log with
      | some (.writeFile _ size _ _ _) => position + size
      | _ => boundary log
  | _ :: log => boundary log

lemma bodiesOf_replied {reply : SyncReply} (h : reply ≠ .writeFileReady) (position : Nat)
    (log : List Event) : bodiesOf (.replied reply position :: log) = bodiesOf log := by
  cases reply with
  | writeFileReady => exact absurd rfl h
  | _ => rfl

lemma boundary_replied {reply : SyncReply} (h : reply ≠ .writeFileReady) (position : Nat)
    (log : List Event) : boundary (.replied reply position :: log) = boundary log := by
  cases reply with
  | writeFileReady => exact absurd rfl h
  | _ => rfl

/-! ## The framing of a log -/

/-- What the log says about the framing so far. -/
structure Framing (agent : Agent) : Prop where
  behind : ∀ r ∈ readsOf agent.log, r.2 ≤ agent.position
  disjoint : ∀ r ∈ readsOf agent.log, ∀ b ∈ bodiesOf agent.log, ∀ i,
    r.1 ≤ i → i < r.2 → b.1 ≤ i → ¬i < b.2
  answered : ∀ later message position earlier,
    agent.log = later ++ .replied (.err message) position :: earlier →
      (position = boundary earlier ∧ ∀ b ∈ bodiesOf earlier, b.2 ≤ position) ∨
        ((∀ r ∈ readsOf later, r.1 = r.2) ∧ agent.input = [])

/-- The reader stands at the boundary, past every body, or at the end of the stream. -/
def Aligned (agent : Agent) : Prop :=
  (agent.position = boundary agent.log ∧ ∀ b ∈ bodiesOf agent.log, b.2 ≤ agent.position) ∨
    agent.input = []

structure Framed (agent : Agent) : Prop extends Framing agent where
  aligned : Aligned agent

namespace Framed

variable {agent : Agent}

lemma setFiles (h : Framed agent) (files : FileTree) : Framed { agent with files } :=
  { h with }

lemma readAhead (h : Framed agent) (count : Nat) : Framed (agent.readAhead count) := by
  have hnil : agent.input = [] → (agent.readAhead count).input = [] ∧
      (agent.advance count).position = agent.position := by
    intro hinput
    simp [Agent.readAhead, Agent.advance, hinput]
  have hposition : agent.position ≤ (agent.advance count).position := Nat.le_add_right _ _
  refine ⟨⟨?_, ?_, ?_⟩, ?_⟩
  · intro r hr
    rcases List.mem_cons.1 hr with rfl | hr
    · exact Nat.le_refl _
    · exact Nat.le_trans (h.behind r hr) hposition
  · intro r hr b hb i hri hir hbi hib
    rcases List.mem_cons.1 hr with rfl | hr
    · rcases h.aligned with ⟨-, hpast⟩ | hinput
      · exact absurd (Nat.lt_of_lt_of_le hib (hpast b hb)) (Nat.not_lt.2 hri)
      · exact absurd hir (by simpa [(hnil hinput).2] using hri)
    · exact h.disjoint r hr b hb i hri hir hbi hib
  · intro later message position earlier hlog
    cases later with
    | nil => cases hlog
    | cons event later =>
      obtain ⟨rfl, htail⟩ := List.cons_eq_cons.1 hlog
      rcases h.answered later message position earlier htail with hpast | ⟨hreads, hinput⟩
      · exact Or.inl hpast
      · refine Or.inr ⟨?_, (hnil hinput).1⟩
        intro r hr
        rcases List.mem_cons.1 hr with rfl | hr
        · exact (hnil hinput).2.symm
        · exact hreads r hr
  · rcases h.aligned with ⟨-, hpast⟩ | hinput
    · exact Or.inl ⟨rfl, fun b hb => Nat.le_trans (hpast b hb) hposition⟩
    · exact Or.inr (hnil hinput).1

lemma requested (h : Framed agent) (request : SyncRequest) :
    Framed { agent with log := .requested request :: agent.log } := by
  refine { h with answered := ?_ }
  intro later message position earlier hlog
  cases later with
  | nil => cases hlog
  | cons event later =>
    obtain ⟨rfl, htail⟩ := List.cons_eq_cons.1 hlog
    exact h.answered later message position earlier htail

lemma replied (h : Framed agent) {reply : SyncReply} (hreply : reply ≠ .writeFileReady) :
    Framed { agent with log := .replied reply agent.position :: agent.log } := by
  have hbodies := bodiesOf_replied hreply agent.position agent.log
  refine ⟨⟨h.behind, ?_, ?_⟩, ?_⟩
  · intro r hr b hb
    rw [hbodies] at hb
    exact h.disjoint r hr b hb
  · intro later message position earlier hlog
    cases later with
    | nil =>
      obtain ⟨hevent, rfl⟩ := List.cons_eq_cons.1 hlog
      cases hevent
      -- The error reply is this one: the reader is where the invariant has it.
      rcases h.aligned with hpast | hinput
      · exact Or.inl hpast
      · exact Or.inr ⟨nofun, hinput⟩
    | cons event later =>
      obtain ⟨rfl, htail⟩ := List.cons_eq_cons.1 hlog
      exact h.answered later message position earlier htail
  · rcases h.aligned with ⟨hposition, hpast⟩ | hinput
    · refine Or.inl ⟨hposition.trans (boundary_replied hreply _ _).symm, fun b hb => ?_⟩
      exact hpast b (hbodies ▸ hb)
    · exact Or.inr hinput

end Framed

/-! ## Programs that leave the connection alone -/

def FileBlind (P : Agent → Prop) : Prop :=
  ∀ agent files, P agent → P { agent with files }

section FileBlind

variable {P : Agent → Prop} (hP : FileBlind P)
include hP

omit hP in
lemma keeps_atFiles {α : Type} {effect : FileTree → Except IoError (α × FileTree)}
    (h : ∀ agent a files, P agent → effect agent.files = .ok (a, files) → P { agent with files }) :
    Keeps P (onFiles effect) := by
  refine Keeps.atomic ?_
  intro agent a agent' hagent heffect
  obtain ⟨⟨_, files⟩, hresult, heffect⟩ := Fallible.map_eq_ok.1 heffect
  cases heffect
  exact h agent _ files hagent hresult

lemma keeps_onFiles {α : Type} (effect : FileTree → Except IoError (α × FileTree)) :
    Keeps P (onFiles effect) :=
  keeps_atFiles fun agent _ files hagent _ => hP agent files hagent

omit hP in
lemma keeps_ensureNotCancelled : Keeps P ensureNotCancelled := by
  refine Keeps.atomic ?_
  intro agent a agent' hagent heffect
  cases heffect
  exact hagent

omit hP in
lemma keeps_ofExcept {α : Type} (result : Except IoError α) : Keeps P (ofExcept result) :=
  Keeps.compute fun _ h => h

lemma keeps_findExisting (path : Path) : Keeps P (findExisting path) := by
  induction path with
  | nil => exact Keeps.bind (keeps_onFiles hP _) fun _ => Keeps.pure
  | cons name parent ih =>
    refine Keeps.bind (Keeps.attempt (keeps_onFiles hP _)) fun result => ?_
    rcases result with error | ⟨⟩
    · dsimp only
      split
      · exact Keeps.bind ih fun _ => Keeps.pure
      · exact Keeps.throw
    · exact Keeps.pure

lemma keeps_createMissing (missing : List Text) (parent : Path) :
    Keeps P (createMissing parent missing) := by
  induction missing generalizing parent with
  | nil => exact Keeps.pure
  | cons name missing ih =>
    exact Keeps.bind (keeps_onFiles hP _) fun _ => Keeps.bind (keeps_onFiles hP _) fun _ =>
      Keeps.bind (keeps_onFiles hP _) fun _ => ih _

lemma keeps_openOrCreateDirectory (path : Path) : Keeps P (openOrCreateDirectory path) :=
  Keeps.bind (keeps_findExisting hP path) fun _ => keeps_createMissing hP _ _

lemma keeps_resolveFrom (rest : List Text) (path : Path) :
    Keeps P (Session.resolveFrom path rest) := by
  induction rest generalizing path with
  | nil => exact Keeps.pure
  | cons component rest ih =>
    refine Keeps.bind (Keeps.attempt (keeps_onFiles hP _)) fun result => ?_
    cases result with
    | error error | ok node =>
      dsimp only
      split
      · exact ih _
      · exact Keeps.throw

lemma keeps_resolve (session : Session) (relativePath : Text) :
    Keeps P (session.resolve relativePath) := by
  unfold Session.resolve
  split
  · exact Keeps.pure
  · exact keeps_resolveFrom hP _ _

lemma keeps_resolveCreatingParent (session : Session) (relativePath : Text) :
    Keeps P (session.resolveCreatingParent relativePath) := by
  refine Keeps.bind (keeps_resolve hP session relativePath) fun path => ?_
  cases path with
  | nil => exact Keeps.pure
  | cons name parent => exact Keeps.bind (keeps_openOrCreateDirectory hP parent) fun _ => Keeps.pure

lemma keeps_create (weather : Weather) (destination : Path) (node : Node) :
    Keeps P (PendingRename.create weather destination node) := by
  cases destination with
  | nil => exact Keeps.throw
  | cons name parent =>
    exact Keeps.bind (keeps_onFiles hP _) fun _ => Keeps.bind (keeps_onFiles hP _) fun _ =>
      Keeps.bind (keeps_onFiles hP _) fun _ => Keeps.pure

lemma keeps_discard (weather : Weather) (pending : PendingRename) :
    Keeps P (pending.discard weather) := by
  refine Keeps.compute fun agent hagent => ?_
  split
  · exact hP agent _ hagent
  · exact hagent

lemma ensures_orDiscard {α : Type} {pre : Trail Agent → Prop} {m : Handler α}
    {done : α → Trail Agent → Prop}
    (hm : EndsOr pre m done (fun t => P t.now)) (weather : Weather) (pending : PendingRename) :
    EndsOr pre (pending.orDiscard weather m) done (fun t => P t.now) := by
  refine Ensures.attempt_bind hm (fun _ => Ensures.pure fun _ h => h) fun failure => ?_
  exact Ensures.bind (keeps_discard hP weather pending) fun _ => Keeps.throw

lemma keeps_finishUpload (upload : PendingRename) (size mode : Nat) (mtimeSecs : Int)
    (mtimeNanos : Nat) : Keeps P (Session.finishUpload upload size mode mtimeSecs mtimeNanos) :=
  Keeps.bind keeps_ensureNotCancelled fun _ => Keeps.bind (keeps_onFiles hP _) fun _ =>
    Keeps.bind (keeps_onFiles hP _) fun _ =>
      Keeps.bind (Keeps.bind (keeps_onFiles hP _) fun _ => keeps_onFiles hP _) fun _ =>
        Keeps.bind (keeps_onFiles hP _) fun _ => Keeps.bind keeps_ensureNotCancelled fun _ =>
          keeps_onFiles hP _

end FileBlind

/-! ## Handlers that keep the framing -/

lemma fileBlind_framed : FileBlind Framed := fun _ files h => h.setFiles files

lemma framed_onFiles {α : Type} (effect : FileTree → Except IoError (α × FileTree)) :
    Keeps Framed (onFiles effect) :=
  keeps_onFiles fileBlind_framed effect

/-- From `pre` the program ends as `done` says, or stops with the framing kept. -/
abbrev Leads {ε α : Type} (pre : Agent → Prop) (m : Prog Agent Nat ε α) (done : α → Agent → Prop) :
    Prop :=
  EndsOr (fun t => pre t.now) m (fun a t => done a t.now) fun t => Framed t.now

lemma keeps_sendReply {reply : SyncReply} (hreply : reply ≠ .writeFileReady) :
    Keeps Framed (sendReply reply) := by
  refine Keeps.atomic ?_
  intro agent a agent' hagent heffect
  cases heffect
  exact hagent.replied hreply

lemma keeps_readExact (count : Nat) : Keeps Framed (readExact count) := by
  have hread :
      Keeps Framed (breakable .os (fun agent => .ok (agent.input.take count, agent.readAhead count))
        fun read agent => agent.readAhead (min read count) : Io (List UInt8)) := by
    refine Keeps.breakable ?_ fun agent read hagent => hagent.readAhead _
    intro agent bytes agent' hagent heffect
    cases heffect
    exact hagent.readAhead count
  refine Keeps.bind hread fun bytes => ?_
  split
  · exact Keeps.throw
  · exact Keeps.pure

lemma ensures_readFrame (decode : DecodeRequest) :
    Leads Framed (readFrame decode) fun result agent =>
      Framed agent ∧ ∀ request, result = some request → lastRequest agent.log = some request := by
  refine Ensures.bind (Keeps.attempt (keeps_readExact 1)) fun result => ?_
  cases result with
  | error error =>
    dsimp only
    split
    · exact Ensures.pure fun t ht => ⟨ht, nofun⟩
    · exact Ensures.throw fun t ht => ht
  | ok first =>
    refine Ensures.bind (keeps_readExact 3) fun rest => ?_
    refine Ensures.bind (keeps_ofExcept _) fun len => ?_
    refine Ensures.bind (keeps_readExact len) fun payload => ?_
    have hreturn :
        ∀ request, Leads (fun agent => Framed agent ∧ lastRequest agent.log = some request)
        (pure (some request) : Io (Option SyncRequest)) fun result agent =>
          Framed agent ∧ ∀ request, result = some request →
            lastRequest agent.log = some request := by
      refine fun request => Ensures.pure fun t ht => ⟨ht.1, fun request' hrequest => ?_⟩
      cases hrequest
      exact ht.2
    refine Ensures.bind (Ensures.compute ?_ ?_) hreturn
    · intro t request agent ht h
      split at h
      · cases h
        exact ⟨ht.requested _, rfl⟩
      · cases h
    · intro t e agent ht h
      split at h
      · cases h
      · cases h
        exact ht

lemma keeps_readFrame (decode : DecodeRequest) : Keeps Framed (readFrame decode) :=
  Ensures.weaken (ensures_readFrame decode) (fun _ _ h => h.1) (fun _ _ h => h) (fun _ h => h)

/-- Keeps the framing, and its closing reply announces no body. -/
def Answers {ε : Type} (m : Prog Agent Nat ε SyncReply) : Prop :=
  Ensures (fun t => Framed t.now) m (fun reply t => Framed t.now ∧ reply ≠ .writeFileReady)
    (fun _ t => Framed t.now) (fun t => Framed t.now)

namespace Answers

variable {ε α : Type}

lemma pure {reply : SyncReply} (h : reply ≠ .writeFileReady) :
    Answers (Pure.pure reply : Prog Agent Nat ε SyncReply) :=
  Ensures.pure fun _ ht => ⟨ht, h⟩

lemma throw {e : ε} : Answers (Prog.throw e : Prog Agent Nat ε SyncReply) :=
    Ensures.throw fun _ ht => ht

lemma bind {m : Prog Agent Nat ε α} {f : α → Prog Agent Nat ε SyncReply} (hm : Keeps Framed m)
    (hf : ∀ a, Answers (f a)) : Answers (m >>= f) :=
  Ensures.bind hm hf

lemma request {m : Io SyncReply} (h : Answers m) : Answers (asRequest m) := Ensures.mapError h

end Answers

section Handlers

variable (session : Session)

lemma keeps_request {α : Type} {m : Io α} (h : Keeps Framed m) : Keeps Framed (asRequest m) :=
    Keeps.mapError h

lemma keeps_interimReply {reply : SyncReply} (hreply : reply ≠ .writeFileReady) :
    Keeps Framed (sendPartial reply) :=
  Keeps.mapError (keeps_sendReply hreply)

lemma keeps_symlinkMetadata (path : Path) : Keeps Framed (symlinkMetadata path) := framed_onFiles _

lemma keeps_entryAt (path : Path) (relativePath : Text) :
    Keeps Framed (entryAt path relativePath) :=
  Keeps.bind (keeps_symlinkMetadata path) fun _ => Keeps.bind (keeps_ofExcept _) fun _ => Keeps.pure

lemma keeps_scanNames (relativePath : Text) (names : List Text) :
    Keeps Framed (session.scanNames relativePath names) := by
  induction names with
  | nil => exact Keeps.pure
  | cons name names ih =>
    exact Keeps.bind (keeps_request keeps_ensureNotCancelled) fun _ =>
      Keeps.bind (keeps_request (keeps_entryAt _ _)) fun child =>
        Keeps.bind (keeps_interimReply (by simp)) fun _ => Keeps.bind ih fun _ => Keeps.pure

lemma keeps_scanTree (fuel : Nat) (pending : List Text) :
    Keeps Framed (session.scanTree fuel pending) := by
  induction fuel generalizing pending with
  | zero => exact Keeps.pure
  | succ fuel ih =>
    cases pending with
    | nil => exact Keeps.pure
    | cons relativePath pending =>
      exact Keeps.bind (keeps_request keeps_ensureNotCancelled) fun _ =>
        Keeps.bind (keeps_request (framed_onFiles _)) fun names =>
          Keeps.bind (keeps_scanNames session relativePath names) fun _ => ih _

lemma answers_scan : Answers session.scan := by
  refine Answers.bind (keeps_request keeps_ensureNotCancelled) fun _ => ?_
  split
  · exact Answers.pure (by simp)
  · refine Answers.bind (keeps_request (keeps_entryAt _ _)) fun root => ?_
    refine Answers.bind (keeps_interimReply (by simp)) fun _ => ?_
    split
    · exact Answers.bind (keeps_request (framed_onFiles _)) fun _ =>
        Answers.bind (keeps_scanTree session _ _) fun _ => Answers.pure (by simp)
    · exact Answers.pure (by simp)

lemma keeps_openRegularFile (path : Path) : Keeps Framed (openRegularFile path) := by
  refine Keeps.bind (keeps_symlinkMetadata path) fun node => ?_
  split
  · exact Keeps.throw
  · exact Keeps.throw
  · exact Keeps.throw
  · split
    · exact Keeps.throw
    · exact Keeps.pure

lemma keeps_isUnchangedSince (path : Path) (before : Node) :
    Keeps Framed (isUnchangedSince path before) := by
  refine Keeps.bind (Keeps.attempt (keeps_symlinkMetadata path)) fun result => ?_
  cases result <;> exact Keeps.pure

lemma keeps_hasElapsed : Keeps Framed hasElapsed := by
  refine Keeps.bind (Keeps.attempt (framed_onFiles _)) fun result => ?_
  rcases result with error | ⟨⟩ <;> exact Keeps.pure

lemma keeps_hashChunks (pieces : List (List UInt8)) (hashed : Nat) :
    Keeps Framed (Session.hashChunks pieces hashed) := by
  induction pieces generalizing hashed with
  | nil => exact Keeps.pure
  | cons chunk pieces ih =>
    refine Keeps.bind (keeps_request keeps_ensureNotCancelled) fun _ => ?_
    refine Keeps.bind (keeps_request (framed_onFiles _)) fun _ => ?_
    refine Keeps.bind (keeps_request (framed_onFiles _)) fun _ => ?_
    refine Keeps.bind (keeps_request keeps_hasElapsed) fun elapsed => ?_
    split
    · exact Keeps.bind (keeps_interimReply (by simp)) fun _ => ih _
    · exact ih _

lemma answers_digest (sha256 : List UInt8 → List UInt8) (relativePath : Text) :
    Answers (session.digest sha256 relativePath) := by
  refine Answers.bind (keeps_request (keeps_resolve fileBlind_framed session relativePath))
    fun path => ?_
  refine Answers.bind (keeps_request (keeps_openRegularFile path)) fun opened => ?_
  refine Answers.bind (keeps_hashChunks _ _) fun _ => ?_
  refine Answers.bind (keeps_request (keeps_isUnchangedSince path _)) fun unchanged => ?_
  split
  · exact Answers.pure (by simp)
  · exact Answers.throw

lemma answers_readFile (weather : Weather) (relativePath : Text) :
    Answers (session.readFile weather relativePath) := by
  refine Answers.bind (keeps_request (keeps_resolve fileBlind_framed session relativePath))
    fun path => ?_
  refine Answers.bind (keeps_request (keeps_openRegularFile path)) fun opened => ?_
  refine Answers.bind (keeps_interimReply (by simp)) fun _ => ?_
  refine Answers.bind (Keeps.mapError (Keeps.compute fun agent hagent => hagent)) fun _ => ?_
  refine Answers.bind (keeps_request (keeps_isUnchangedSince path _)) fun unchanged => ?_
  split
  · exact Answers.pure (by simp)
  · exact Answers.throw

lemma answers_createDirectory (relativePath : Text) (mode : Nat) :
    Answers (session.createDirectory relativePath mode) :=
  Answers.request <|
    Answers.bind (keeps_resolveCreatingParent fileBlind_framed session relativePath) fun path =>
      Answers.bind (keeps_openOrCreateDirectory fileBlind_framed path) fun _ =>
        Answers.bind (framed_onFiles _) fun _ => Answers.pure (by simp)

lemma answers_createSymlink (weather : Weather) (relativePath target : Text) :
    Answers (session.createSymlink weather relativePath target) := by
  refine Answers.bind
    (keeps_request (keeps_resolveCreatingParent fileBlind_framed session relativePath))
    fun destination => ?_
  refine Answers.bind (keeps_request (keeps_create fileBlind_framed weather destination _))
    fun link => ?_
  have hcommit : Keeps Framed link.commit := framed_onFiles _
  exact ensures_orDiscard fileBlind_framed
    (Answers.bind (keeps_request hcommit) fun _ => Answers.pure (by simp)) weather link

lemma answers_updateMetadata (relativePath : Text) (mode : Nat) (mtimeSecs : Int)
    (mtimeNanos : Nat) :
    Answers (session.updateMetadata relativePath mode mtimeSecs mtimeNanos) := by
  refine Answers.request
    (Answers.bind (keeps_resolve fileBlind_framed session relativePath) fun path => ?_)
  refine Answers.bind (keeps_symlinkMetadata path) fun node => ?_
  split
  · exact Answers.throw
  · exact Answers.bind (Keeps.bind (framed_onFiles _) fun _ =>
      framed_onFiles _) fun _ => Answers.pure (by simp)

lemma answers_removeEntry (relativePath : Text) : Answers (session.removeEntry relativePath) := by
  refine Answers.request ?_
  split
  · exact Answers.throw
  · refine Answers.bind (keeps_resolve fileBlind_framed session relativePath) fun path => ?_
    refine Answers.bind (keeps_symlinkMetadata path) fun node => ?_
    split
    · exact Answers.bind (framed_onFiles _) fun _ => Answers.pure (by simp)
    · exact Answers.bind (framed_onFiles _) fun _ => Answers.pure (by simp)

end Handlers

/-! ## Bodies -/

/-- What befalls the rounds of a body leaves none of it behind: every failure comes when all of the
body, or all there is of it, has been read. -/
def keepsFraming : List ChunkFate → Nat → Nat → Bool
  | [], _, _ => true
  | fate :: fates, remaining, available =>
      remaining = 0 || available = 0 ||
        match fate with
        | .interrupted => keepsFraming fates remaining available
        | .moves count =>
            let read := min (chunkSize count remaining) available
            keepsFraming fates (remaining - read) (available - read)
        | .cancelledBeforeWrite count | .writeFails count =>
            min (chunkSize count remaining) available = min remaining available
        | .cancelledBeforeRead | .readFails => false

/-- `count` bytes of the input have been read, and nothing was logged. -/
structure Advanced (agent : Agent) (count : Nat) (agent' : Agent) : Prop where
  input : agent'.input = agent.input.drop count
  position : agent'.position = agent.position + count
  log : agent'.log = agent.log

lemma Advanced.trans {agent agent' agent'' : Agent} {m n : Nat} (h : Advanced agent m agent')
    (h' : Advanced agent' n agent'') : Advanced agent (m + n) agent'' := by
  refine ⟨?_, ?_, h'.log.trans h.log⟩
  · rw [h'.input, h.input, List.drop_drop]
  · rw [h'.position, h.position, Nat.add_assoc]

lemma chunkSize_pos {count remaining : Nat} (h : 0 < remaining) :
    0 < chunkSize count remaining := by
  unfold chunkSize streamBufferBytes
  omega

lemma chunkSize_le (count remaining : Nat) : chunkSize count remaining ≤ remaining := by
  unfold chunkSize streamBufferBytes
  omega

section Body

variable {deliver : List UInt8 → Agent → Agent}

lemma advanced_advance (agent : Agent) (count : Nat) :
    Advanced agent (min count agent.input.length) (agent.advance count) := by
  refine ⟨?_, ?_, rfl⟩
  · by_cases h : count ≤ agent.input.length
    · simp [Agent.advance, Nat.min_eq_left h]
    · have hle : agent.input.length ≤ count := by omega
      simp [Agent.advance, Nat.min_eq_right hle, List.drop_eq_nil_of_le hle]
  · simp [Agent.advance]

/-- A stream reads no more than the body; under `keepsFraming` the body to its end or to the end of
the stream. -/
lemma streamExact_body (hdeliver : ∀ bytes agent, Advanced agent 0 (deliver bytes agent))
    (fates : List ChunkFate) (remaining : Nat) (agent : Agent) :
    ∃ count, Advanced agent count (streamExact
        (fun count agent => (agent.input.take count, agent.advance count)) deliver fates remaining
        agent).2 ∧ count ≤ remaining ∧
      (keepsFraming fates remaining agent.input.length = true → remaining ≤ count ∨
        agent.input.length ≤ count) := by
  induction fates generalizing remaining agent with
  | nil =>
    cases remaining with
    | zero => exact ⟨0, ⟨rfl, rfl, rfl⟩, Nat.le_refl _, fun _ => Or.inl (Nat.le_refl _)⟩
    | succ remaining =>
      refine ⟨_, (advanced_advance agent (remaining + 1)).trans (hdeliver _ _), ?_, fun _ => ?_⟩
      · omega
      · omega
  | cons fate fates ih =>
    cases remaining with
    | zero => exact ⟨0, ⟨rfl, rfl, rfl⟩, Nat.le_refl _, fun _ => Or.inl (Nat.le_refl _)⟩
    | succ remaining =>
      have hadvance := fun count => advanced_advance agent (chunkSize count (remaining + 1))
      have hchunk := fun count => chunkSize_le count (remaining + 1)
      have hpositive : ¬ remaining + 1 = 0 := Nat.succ_ne_zero remaining
      have hfail : ∀ count, decide (min (chunkSize count (remaining + 1)) agent.input.length =
          min (remaining + 1) agent.input.length) = true ∨ agent.input.length = 0 →
          remaining + 1 ≤ min (chunkSize count (remaining + 1)) agent.input.length ∨
            agent.input.length ≤ min (chunkSize count (remaining + 1)) agent.input.length := by
        intro count h
        rcases h with h | h
        · rw [of_decide_eq_true h]
          omega
        · omega
      cases fate with
      | interrupted =>
        obtain ⟨count, hcount, hle, hread⟩ := ih (remaining + 1) agent
        refine ⟨count, hcount, hle, fun hkept => ?_⟩
        simp only [keepsFraming, hpositive, decide_false, Bool.false_or, Bool.or_eq_true,
          decide_eq_true_eq] at hkept
        rcases hkept with hnone | hkept
        · exact Or.inr (by omega)
        · exact hread hkept
      | moves count =>
        have hlength : (agent.input.take (chunkSize count (remaining + 1))).length =
            min (chunkSize count (remaining + 1)) agent.input.length := List.length_take
        by_cases hbytes : agent.input.take (chunkSize count (remaining + 1)) = []
        · -- Nothing was read although something was wanted: the stream is at its end.
          have hpos : 0 < chunkSize count (remaining + 1) := chunkSize_pos (Nat.succ_pos _)
          have hnone : agent.input.length = 0 := by
            rw [hbytes, List.length_nil] at hlength
            omega
          refine ⟨_, by
            simpa only [streamExact, hbytes, if_true] using hadvance count, ?_, fun _ => Or.inr ?_⟩
          · exact Nat.le_trans (Nat.min_le_left _ _) (hchunk count)
          · omega
        · obtain ⟨count', hcount', hle, hread⟩ :=
            ih (remaining + 1 - (agent.input.take (chunkSize count (remaining + 1))).length)
              (deliver (agent.input.take (chunkSize count (remaining + 1)))
                (agent.advance (chunkSize count (remaining + 1))))
          have hdelivered :=
            (hadvance count).trans (hdeliver (agent.input.take (chunkSize count (remaining + 1))) _)
          have hrest := congrArg List.length hdelivered.input
          rw [List.length_drop, Nat.add_zero] at hrest
          have hfits := hchunk count
          refine ⟨_, by
            simpa only [streamExact, hbytes, if_false] using hdelivered.trans hcount', by omega,
            fun hkept => ?_⟩
          simp only [keepsFraming, hpositive, decide_false, Bool.false_or, Bool.or_eq_true,
            decide_eq_true_eq] at hkept
          rcases hkept with hnone | hkept
          · exact Or.inr (by omega)
          · rw [hrest, hlength] at hread
            have hread' := hread hkept
            omega
      | cancelledBeforeRead | readFails =>
        refine ⟨0, ⟨rfl, rfl, rfl⟩, Nat.zero_le _, fun hkept => Or.inr ?_⟩
        simpa [keepsFraming] using hkept
      | cancelledBeforeWrite count | writeFails count =>
        refine ⟨_, hadvance count, Nat.le_trans (Nat.min_le_left _ _) (hchunk count),
          fun hkept => hfail count ?_⟩
        simpa [keepsFraming, or_comm] using hkept

end Body

/-! ## Uploads -/

/-- The request being answered is an upload of `size` bytes that will be read to its end. -/
structure Uploading (weather : Weather) (size : Nat) (agent : Agent) : Prop where
  framed : Framed agent
  request : ∃ relativePath mode mtimeSecs mtimeNanos,
    lastRequest agent.log = some (.writeFile relativePath size mode mtimeSecs mtimeNanos)
  kept : keepsFraming weather.rounds size agent.input.length = true

/-- The reader stands at the start of a body of `size` bytes. -/
structure AtBody (weather : Weather) (size : Nat) (agent : Agent) : Prop where
  framing : Framing agent
  ends : boundary agent.log = agent.position + size
  bodies : (∀ b ∈ bodiesOf agent.log, b.2 ≤ agent.position + size) ∨ agent.input = []
  kept : keepsFraming weather.rounds size agent.input.length = true

section Upload

variable {weather : Weather} {size : Nat}

lemma fileBlind_uploading : FileBlind (Uploading weather size) :=
  fun _ files h => { h with framed := h.framed.setFiles files }

lemma Uploading.announce {agent : Agent} (h : Uploading weather size agent) :
    AtBody weather size
    { agent with log := .replied .writeFileReady agent.position :: agent.log } := by
  obtain ⟨relativePath, mode, mtimeSecs, mtimeNanos, hrequest⟩ := h.request
  have hbodies : bodiesOf (.replied .writeFileReady agent.position :: agent.log) =
      (agent.position, agent.position + size) :: bodiesOf agent.log := by
    simp only [bodiesOf, hrequest]
  refine ⟨⟨h.framed.behind, ?_, ?_⟩, ?_, ?_, h.kept⟩
  · intro r hr b hb i hri hir hbi hib
    rw [hbodies] at hb
    rcases List.mem_cons.1 hb with rfl | hb
    · exact absurd (Nat.lt_of_lt_of_le hir (h.framed.behind r hr)) (Nat.not_lt.2 hbi)
    · exact h.framed.disjoint r hr b hb i hri hir hbi hib
  · intro later message position earlier hlog
    cases later with
    | nil => cases hlog
    | cons event later =>
      obtain ⟨rfl, htail⟩ := List.cons_eq_cons.1 hlog
      exact h.framed.answered later message position earlier htail
  · simp only [boundary, hrequest]
  · rcases h.framed.aligned with ⟨-, hpast⟩ | hinput
    · refine Or.inl fun b hb => ?_
      rw [hbodies] at hb
      rcases List.mem_cons.1 hb with rfl | hb
      · exact Nat.le_refl _
      · exact Nat.le_trans (hpast b hb) (Nat.le_add_right _ _)
    · exact Or.inr hinput

lemma AtBody.framed {agent agent' : Agent} (h : AtBody weather size agent) {count : Nat}
    (hcount : Advanced agent count agent') (hle : count ≤ size)
    (hread : size ≤ count ∨ agent.input.length ≤ count) : Framed agent' := by
  have hnil : agent.input = [] → agent'.input = [] := by
    intro hinput
    rw [hcount.input, hinput, List.drop_nil]
  have hposition : agent.position ≤ agent'.position := by
    rw [hcount.position]
    exact Nat.le_add_right _ _
  refine ⟨⟨?_, ?_, ?_⟩, ?_⟩
  · intro r hr
    rw [hcount.log] at hr
    exact Nat.le_trans (h.framing.behind r hr) hposition
  · rw [hcount.log]
    exact h.framing.disjoint
  · intro later message position earlier hlog
    rw [hcount.log] at hlog
    rcases h.framing.answered later message position earlier hlog with hpast | ⟨hreads, hinput⟩
    · exact Or.inl hpast
    · exact Or.inr ⟨hreads, hnil hinput⟩
  · rcases hread with hsize | hlength
    · rcases h.bodies with hbodies | hinput
      · have hall : count = size := Nat.le_antisymm hle hsize
        rw [hall] at hcount
        refine Or.inl ⟨?_, fun b hb => ?_⟩
        · rw [hcount.log, h.ends, hcount.position]
        · rw [hcount.log] at hb
          rw [hcount.position]
          exact hbodies b hb
      · exact Or.inr (hnil hinput)
    · refine Or.inr ?_
      rw [hcount.input, List.drop_eq_nil_of_le hlength]

lemma ensures_receiveBody (upload : PendingRename) :
    Leads (AtBody weather size) (Session.receiveBody weather upload size) fun _ => Framed := by
  have hdeliver : ∀ (bytes : List UInt8) (agent : Agent), Advanced agent 0
      { agent with files := updateNode upload.temp (appendData bytes) agent.files } :=
    fun _ _ => ⟨rfl, rfl, rfl⟩
  refine Ensures.compute_always fun t ht => ?_
  obtain ⟨count, hcount, hle, hread⟩ := streamExact_body hdeliver weather.rounds size t.now
  exact ht.framed hcount hle (hread ht.kept)

lemma keeps_expectCommit (decode : DecodeRequest) : Keeps Framed (Session.expectCommit decode) := by
  refine Keeps.bind (keeps_request (keeps_readFrame decode)) fun request => ?_
  split
  · exact Keeps.pure
  · exact Keeps.throw

lemma ensures_writeFile (decode : DecodeRequest) (session : Session)
    (relativePath : Text) (mode : Nat) (mtimeSecs : Int) (mtimeNanos : Nat) :
    Leads (Uploading weather size)
      (session.writeFile decode weather relativePath size mode mtimeSecs mtimeNanos)
      fun reply agent => Framed agent ∧ reply ≠ .writeFileReady := by
  have hbefore : ∀ {α : Type} {m : Io α}, Keeps (Uploading weather size) m →
      Leads (Uploading weather size) (asRequest m) fun _ => Uploading weather size :=
    fun hm => Ensures.mapError (Ensures.weaken hm (fun _ _ h => h) (fun _ _ h => h.framed)
      (fun _ h => h.framed))
  refine Ensures.bind
    (hbefore (keeps_resolveCreatingParent fileBlind_uploading session relativePath))
    fun destination => ?_
  refine Ensures.bind (hbefore (keeps_create fileBlind_uploading weather destination _))
    fun upload => ?_
  have hready : Leads (Uploading weather size) (sendPartial .writeFileReady) fun _ =>
      AtBody weather size := by
    refine Ensures.mapError (Ensures.atomic ?_ ?_ (fun t ht => ht.framed) (fun t ht => ht.framed))
    · intro t a agent ht heffect
      cases heffect
      exact ht.announce
    · intro t e ht heffect
      cases heffect
  have hupload : Leads (Uploading weather size) (do
        sendPartial .writeFileReady
        asRequest (Session.receiveBody weather upload size)
        asRequest ensureNotCancelled
        Session.expectCommit decode
        asRequest (Session.finishUpload upload size mode mtimeSecs mtimeNanos)
        return SyncReply.success) fun reply agent => Framed agent ∧ reply ≠ .writeFileReady := by
    refine Ensures.bind hready fun _ => ?_
    refine Ensures.bind (Ensures.mapError (ensures_receiveBody upload)) fun _ => ?_
    refine Answers.bind (keeps_request keeps_ensureNotCancelled) fun _ => ?_
    refine Answers.bind (keeps_expectCommit decode) fun _ => ?_
    exact Answers.bind
      (keeps_request (keeps_finishUpload fileBlind_framed upload size mode mtimeSecs
      mtimeNanos)) fun _ => Answers.pure (by simp)
  exact ensures_orDiscard fileBlind_framed hupload weather upload

end Upload

/-! ## The session -/

/-- The body of the request, if it has one, will be read to its end. -/
def BodyKept (weather : Weather) (request : SyncRequest) (agent : Agent) : Prop :=
  match request with
  | .writeFile _ size _ _ _ => keepsFraming weather.rounds size agent.input.length = true
  | _ => True

section Serve

variable {decode : DecodeRequest} {sha256 : List UInt8 → List UInt8}

/-- The closing reply of a request that did not fail announces no body. -/
def Closing (reply : Except Failure SyncReply) : Prop :=
  reply ≠ .ok .writeFileReady

lemma ensures_onActive {pre : Agent → Prop} {session : Option Session}
    {handler : Session → Handler SyncReply} (hpre : ∀ agent, pre agent → Framed agent)
    (h : ∀ active, Leads pre (handler active) fun reply agent => Framed agent ∧
      reply ≠ .writeFileReady) :
    Leads pre (onActive session handler) fun result agent => Framed agent ∧ Closing result.2 := by
  cases session with
  | none => exact Ensures.throw fun t => hpre t.now
  | some active =>
    have hattempt : Leads pre (attempt (handler active) : Io (Except Failure SyncReply))
        fun result agent => Framed agent ∧ Closing result := by
      refine Ensures.attempt (Ensures.weaken (h active) ?_ ?_ (fun _ h => h))
      · rintro reply t ⟨hframed, hreply⟩
        exact ⟨hframed, fun heq => hreply (Except.ok.inj heq)⟩
      · intro failure t hframed
        exact ⟨hframed, nofun⟩
    exact Ensures.bind hattempt fun _ => Ensures.pure fun _ h => h

lemma keeps_start (guestRoot : Text) : Keeps Framed (Session.start guestRoot) := by
  refine Keeps.bind (Keeps.bind (Keeps.attempt (keeps_symlinkMetadata _)) fun result => ?_) fun _ =>
    Keeps.pure
  cases result with
  | error error =>
    dsimp only
    split
    · exact Keeps.pure
    · exact Keeps.throw
  | ok node =>
    dsimp only
    split
    · exact Keeps.pure
    · exact Keeps.pure
    · exact Keeps.pure
    · exact Keeps.throw

/-- A request has been read, and its body, if it has one, will be. -/
structure Accepted (weather : Weather) (request : SyncRequest) (agent : Agent) : Prop where
  framed : Framed agent
  last : lastRequest agent.log = some request
  kept : BodyKept weather request agent

lemma ensures_answer (weather : Weather) (session : Option Session) (request : SyncRequest) :
    Leads (Accepted weather request) (answer decode sha256 weather session request)
      fun result agent => Framed agent ∧ Closing result.2 := by
  have hanswers : ∀ {handler : Session → Handler SyncReply}, (∀ active, Answers (handler active)) →
      Leads (Accepted weather request) (onActive session handler) fun result agent => Framed agent ∧
      Closing result.2 :=
    fun h => ensures_onActive (fun _ ht => ht.framed) fun active world hworld =>
      h active world hworld.framed
  cases request with
  | beginSession guestRoot =>
    refine Ensures.bind (Ensures.mono (Keeps.attempt (keeps_start guestRoot))
      (fun t ht => ht.framed) (fun _ _ h => h) (fun _ _ h => h) (fun _ h => h)) fun result => ?_
    cases result <;> exact Ensures.pure fun t ht => ⟨ht, by simp [Closing]⟩
  | endSession => exact Ensures.pure fun t ht => ⟨ht.framed, by simp [Closing]⟩
  | commitFile => exact Ensures.throw fun t ht => ht.framed
  | scanEntries => exact hanswers answers_scan
  | computeDigest relativePath =>
    exact hanswers fun active => answers_digest active sha256 relativePath
  | writeFile relativePath size mode mtimeSecs mtimeNanos =>
    refine ensures_onActive (fun _ ht => ht.framed) fun active world hworld => ?_
    exact ensures_writeFile decode active relativePath mode mtimeSecs mtimeNanos world
      ⟨hworld.framed, ⟨relativePath, mode, mtimeSecs, mtimeNanos, hworld.last⟩, hworld.kept⟩
  | readFile relativePath =>
    exact hanswers fun active => answers_readFile active weather relativePath
  | createDir relativePath mode =>
    exact hanswers fun active => answers_createDirectory active relativePath mode
  | createSymlink relativePath target =>
    exact hanswers fun active => answers_createSymlink active weather relativePath target
  | updateMetadata relativePath mode mtimeSecs mtimeNanos =>
    exact hanswers fun active =>
      answers_updateMetadata active relativePath mode mtimeSecs mtimeNanos
  | removeEntry relativePath => exact hanswers fun active => answers_removeEntry active relativePath

lemma keeps_sendAnswer {reply : Except Failure SyncReply} (hreply : Closing reply) :
    Keeps Framed (sendAnswer reply) := by
  rcases reply with ⟨error | error⟩ | reply
  · exact keeps_sendReply (by simp)
  · exact Keeps.throw
  · exact keeps_sendReply fun heq => hreply (congrArg Except.ok heq)

lemma ensures_serveRequest (weather : Weather) (session : Option Session) (request : SyncRequest) :
    Leads (Accepted weather request) (serveRequest decode sha256 weather session request) fun _ =>
    Framed := by
  have hcheck : Leads (Accepted weather request) ensureNotCancelled fun _ =>
      Accepted weather request :=
    Ensures.weaken keeps_ensureNotCancelled (fun _ _ h => h) (fun _ _ h => h.framed)
      (fun _ h => h.framed)
  refine Ensures.bind hcheck fun _ =>
    Ensures.bind (ensures_answer weather session request) fun result => ?_
  intro world hworld
  exact Ensures.bind (keeps_sendAnswer hworld.2) (fun _ => Keeps.pure) world hworld.1

/-- The rounds of a session read every body that begins in them. -/
def BodiesKept (decode : DecodeRequest)
    (sha256 : List UInt8 → List UInt8) : List Weather → Option Session → Trail Agent → Prop
  | [], _, _ => True
  | weather :: weathers, session, trail =>
      (∀ request world, readFrame decode ⟨trail, weather.fates⟩ = (.done (some request), world) →
        BodyKept weather request world.trail.now) ∧
      ∀ next world, serveOne decode sha256 weather session ⟨trail, weather.fates⟩ =
        (.done (some next), world) → BodiesKept decode sha256 weathers next world.trail

lemma framed_serveOne {weather : Weather} {session : Option Session} {trail : Trail Agent}
    (hkept : ∀ request world, readFrame decode ⟨trail, weather.fates⟩ =
      (.done (some request), world) →
      BodyKept weather request world.trail.now) (h : Framed trail.now) :
    Framed (serveOne decode sha256 weather session ⟨trail, weather.fates⟩).2.trail.now := by
  have hread := ensures_readFrame decode ⟨trail, weather.fates⟩ h
  change Framed (Prog.bind (readFrame decode) _ ⟨trail, weather.fates⟩).2.trail.now
  unfold Prog.bind
  generalize readFrame decode ⟨trail, weather.fates⟩ = result at hread hkept ⊢
  rcases result with ⟨frame | e | _, world⟩
  · cases frame with
    | none => exact hread.1
    | some request =>
      have haccepted : Accepted weather request world.trail.now :=
        ⟨hread.1, hread.2 request rfl, hkept request world rfl⟩
      exact Ensures.trail (ensures_serveRequest weather session request) haccepted
  · exact hread
  · exact hread

theorem framed_serve (weathers : List Weather) (session : Option Session) (trail : Trail Agent)
    (hkept : BodiesKept decode sha256 weathers session trail) (h : Framed trail.now) :
    Framed (serve decode sha256 weathers session trail).now := by
  induction weathers generalizing session trail with
  | nil => exact h
  | cons weather weathers ih =>
    have hone :
        Framed (serveOne decode sha256 weather session ⟨trail, weather.fates⟩).2.trail.now :=
      framed_serveOne hkept.1 h
    have hnext := hkept.2
    unfold serve
    generalize serveOne decode sha256 weather session ⟨trail, weather.fates⟩ = result
      at hone hnext ⊢
    rcases result with ⟨next | e | _, world⟩
    · cases next with
      | none => exact hone
      | some session' => exact ih session' world.trail (hnext session' world rfl) hone
    · exact hone
    · exact hone

end Serve

end Terrarium.Sync
