import Terrarium.Sync.AgentFraming

/-!
# AgentUpload — failed uploads, and the whole session

An upload is received under a temporary name.  One that fails leaves the guest's files as they were,
but for directories on the way to it (`ensures_writeFile_files`).

* `session_keeps_framing` — with every body read to its end, a session never takes a byte of a body
  for a request, and failed uploads leave no trace;
* `body_bytes_become_request` — a failed write in the middle of a body makes the agent execute the
  rest of the body.
-/

namespace Terrarium.Sync

open Faults Prog

/-! ## Failed uploads leave the files alone -/

/-- At `path` nothing changed, or a directory on the way to `destination` was made. -/
def Untouched (before : FileTree) (destination : Path) (files : FileTree) (path : Path) : Prop :=
  Directory.find files path = Directory.find before path ∨
    path ≠ destination ∧ path <:+ destination ∧ Directory.find before path = none ∧
      ∃ node, Directory.find files path = some node ∧ node.kind = .directory

/-- Only directories on the way to `destination` were added. -/
def Grown (before : FileTree) (destination : Path) (files : FileTree) : Prop :=
  ∀ path, Untouched before destination files path

/-- There is also an entry under a name that was free. -/
def Staged (before : FileTree) (destination temp : Path) (files : FileTree) : Prop :=
  Directory.find before temp = none ∧
    ∀ path, path ≠ temp → Untouched before destination files path

section Files

variable {before files : FileTree} {destination temp : Path}

variable {Q : FileTree → Prop} {α : Type}

lemma keeps_files {effect : FileTree → Except IoError (α × FileTree)}
    (h : ∀ files a files', Q files → effect files = .ok (a, files') → Q files') :
    Keeps (fun agent => Q agent.files) (onFiles effect) :=
  keeps_atFiles fun agent => h agent.files

lemma keeps_lookup (path : Path) : Keeps (fun agent => Q agent.files) (symlinkMetadata path) := by
  refine keeps_files fun files node files' hfiles heffect => ?_
  obtain ⟨found, -, heffect⟩ := Fallible.map_eq_ok.1 heffect
  cases heffect
  exact hfiles

lemma keeps_openDirectory (path : Path) : Keeps (fun agent => Q agent.files)
    (openDirectory path) := by
  refine keeps_files fun files a files' hfiles heffect => ?_
  obtain ⟨node, -, heffect⟩ := Fallible.bind_eq_ok.1 heffect
  split at heffect
  · cases heffect
    exact hfiles
  · cases heffect

lemma keeps_notCancelled : Keeps (fun agent => Q agent.files) ensureNotCancelled :=
    keeps_ensureNotCancelled

lemma keeps_quietly : Keeps (fun agent => Q agent.files) quietly := by
  refine keeps_files fun files a files' hfiles heffect => ?_
  cases heffect
  exact hfiles

/-- The files are as `Q` says throughout, and the result is as `post` says. -/
abbrev Yields (Q : FileTree → Prop) (m : Io α) (post : α → Prop) : Prop :=
  EndsOr (fun t => Q t.now.files) m (fun a t => Q t.now.files ∧ post a) fun t => Q t.now.files

lemma ensures_resolveFrom (rest : List Text) (path : Path) :
    Yields Q (Session.resolveFrom path rest) fun resolved => resolved = rest.reverse ++ path := by
  induction rest generalizing path with
  | nil => exact Ensures.pure fun t ht => ⟨ht, rfl⟩
  | cons component rest ih =>
    have hnext : Yields Q (Session.resolveFrom (component :: path) rest)
        fun resolved => resolved = (component :: rest).reverse ++ path := by
      simpa using ih (component :: path)
    refine Ensures.bind (Keeps.attempt (keeps_lookup path)) fun result => ?_
    cases result with
    | error error | ok node =>
      dsimp only
      split
      · exact hnext
      · exact Ensures.throw fun _ h => h

lemma ensures_resolve (session : Session) (relativePath : Text) :
    Yields Q (session.resolve relativePath) fun resolved =>
    resolved = session.pathOf relativePath := by
  unfold Session.resolve Session.pathOf
  split
  · exact Ensures.pure fun t ht => ⟨ht, rfl⟩
  · exact ensures_resolveFrom _ _

lemma ensures_findExisting (path : Path) :
    Yields Q (findExisting path) fun found => found.2.reverse ++ found.1 = path := by
  induction path with
  | nil => exact Ensures.bind (keeps_openDirectory []) fun _ => Ensures.pure fun t ht => ⟨ht, rfl⟩
  | cons name parent ih =>
    refine Ensures.bind (Keeps.attempt (keeps_openDirectory (name :: parent))) fun result => ?_
    rcases result with error | ⟨⟩
    · dsimp only
      split
      · refine Ensures.bind ih fun found => Ensures.pure fun t ht => ⟨ht.1, ?_⟩
        rw [List.reverse_append, List.append_assoc, ht.2]
        rfl
      · exact Ensures.throw fun _ h => h
    · exact Ensures.pure fun t ht => ⟨ht, rfl⟩

lemma Grown.makeDirectory (h : Grown before destination files) {path : Path}
    (hne : path ≠ destination)
    (hsuffix : path <:+ destination) {node : Node} (hnode : node.kind = .directory)
    (hnone : Directory.find files path = none) :
    Grown before destination (Directory.insert path node files) := by
  intro other
  by_cases hother : other = path
  · subst hother
    refine Or.inr ⟨hne, hsuffix, ?_, node, by simp, hnode⟩
    rcases h other with hsame | ⟨-, -, -, found, hfound, -⟩
    · rw [← hsame, hnone]
    · rw [hnone] at hfound
      cases hfound
  · simpa [Untouched, hother] using h other

lemma keeps_makeDirectory {path : Path} (hne : path ≠ destination)
    (hsuffix : path <:+ destination) :
    Keeps (fun agent => Grown before destination agent.files) (makeDirectory path) := by
  refine keeps_files fun files a files' hfiles heffect => ?_
  split at heffect
  · cases heffect
    exact hfiles
  next hfind =>
    cases heffect
    exact hfiles.makeDirectory hne hsuffix rfl hfind

lemma keeps_createMissing_files {name : Text} (missing : List Text) (existing parent : Path)
    (hparent : missing.reverse ++ existing = parent) :
    Keeps (fun agent => Grown before (name :: parent) agent.files)
      (createMissing existing missing) := by
  induction missing generalizing existing with
  | nil => exact Keeps.pure
  | cons first missing ih =>
    rw [List.reverse_cons, List.append_assoc, List.singleton_append] at hparent
    have hsuffix : first :: existing <:+ name :: parent := by
      refine List.IsSuffix.trans ⟨missing.reverse, hparent⟩ (List.suffix_cons _ _)
    have hne : first :: existing ≠ name :: parent := by
      intro heq
      have hlength := congrArg List.length hparent
      have hlength' := congrArg List.length heq
      simp only [List.length_append, List.length_reverse, List.length_cons] at hlength hlength'
      omega
    exact Keeps.bind (keeps_makeDirectory hne hsuffix) fun _ =>
      Keeps.bind (keeps_openDirectory _) fun _ => Keeps.bind keeps_quietly fun _ =>
        ih (first :: existing) hparent

lemma ensures_resolveCreatingParent_files (session : Session) (relativePath : Text) :
    EndsOr (fun t => t.now.files = before) (session.resolveCreatingParent relativePath)
      (fun resolved t => Grown before (session.pathOf relativePath) t.now.files ∧
        resolved = session.pathOf relativePath)
      (fun t => Grown before (session.pathOf relativePath) t.now.files) := by
  have hrefl : ∀ t : Trail Agent, t.now.files = before →
      Grown before (session.pathOf relativePath) t.now.files := by
    intro t ht path
    exact Or.inl (by rw [ht])
  refine Ensures.bind
    (Ensures.weaken (ensures_resolve (Q := (· = before)) session relativePath) (fun _ _ h => h)
    (fun _ => hrefl) hrefl) fun resolved => ?_
  rintro world ⟨hworld, hresolved⟩
  rw [← hresolved] at hrefl ⊢
  cases resolved with
  | nil => exact ⟨hrefl _ hworld, rfl⟩
  | cons name parent =>
    have hcreate : Keeps (fun agent => Grown before (name :: parent) agent.files)
        (ensureDirectory parent) := by
      refine Ensures.bind (ensures_findExisting (Q := Grown before (name :: parent)) parent)
        fun found => ?_
      intro world' hworld'
      exact keeps_createMissing_files found.2 found.1 parent hworld'.2 world' hworld'.1
    exact Ensures.bind hcreate (fun _ => Ensures.pure fun t ht => ⟨ht, rfl⟩) world (hrefl _ hworld)

lemma Grown.staged (h : Grown before destination files) (hfree : Directory.find files temp = none)
    (node : Node) : Staged before destination temp (Directory.insert temp node files) := by
  refine ⟨?_, fun path hpath => ?_⟩
  · rcases h temp with hsame | ⟨-, -, -, found, hfound, -⟩
    · rw [← hsame, hfree]
    · rw [hfree] at hfound
      cases hfound
  · simpa [Untouched, hpath] using h path

lemma Staged.discard (h : Staged before destination temp files) :
    Grown before destination (Directory.erase temp files) := by
  intro path
  by_cases hpath : path = temp
  · subst hpath
    exact Or.inl (by simp [h.1])
  · simpa [Untouched, hpath] using h.2 path hpath

lemma Staged.update (h : Staged before destination temp files)
    (update : Node → Node) : Staged before destination temp (updateNode temp update files) := by
  refine ⟨h.1, fun path hpath => ?_⟩
  unfold updateNode
  split
  · simpa [Untouched, hpath] using h.2 path hpath
  · exact h.2 path hpath

lemma ensures_create_files (weather : Weather) (destination : Path) (node : Node) :
    EndsOr (fun t => Grown before destination t.now.files)
      (PendingRename.create weather destination node)
      (fun pending t => Staged before destination pending.temp t.now.files)
      (fun t => Grown before destination t.now.files) := by
  cases destination with
  | nil => exact Ensures.throw fun t ht => ht
  | cons name parent =>
    refine Ensures.bind (keeps_openDirectory parent) fun _ => ?_
    refine Ensures.bind keeps_quietly fun _ => ?_
    have hnew : ∀ temp : Path, EndsOr (fun t => Grown before (name :: parent) t.now.files)
        (createNew temp node) (fun _ t => Staged before (name :: parent) temp t.now.files)
        (fun t => Grown before (name :: parent) t.now.files) := by
      intro temp
      refine Ensures.atomic ?_ (fun _ _ h _ => h) (fun _ h => h) (fun _ h => h)
      intro t a agent ht heffect
      cases hfind : Directory.find t.now.files temp with
      | some found => simp [hfind, Except.map] at heffect
      | none =>
        simp only [hfind, Except.map, Except.ok.injEq, Prod.mk.injEq] at heffect
        obtain ⟨-, rfl⟩ := heffect
        exact ht.staged hfind node
    exact Ensures.bind (hnew _) fun _ => Ensures.pure fun t ht => ht

lemma keeps_files_readFrame (decode : DecodeRequest) :
    Keeps (fun agent => Q agent.files) (readFrame decode) := by
  have hread : ∀ count, Keeps (fun agent => Q agent.files) (readExact count) := by
    intro count
    refine Keeps.bind (Keeps.breakable ?_ fun agent read hagent => hagent) fun bytes => ?_
    · intro agent bytes agent' hagent heffect
      cases heffect
      exact hagent
    · split
      · exact Keeps.throw
      · exact Keeps.pure
  refine Keeps.bind (Keeps.attempt (hread 1)) fun result => ?_
  cases result with
  | error error =>
    dsimp only
    split
    · exact Keeps.pure
    · exact Keeps.throw
  | ok first =>
    refine Keeps.bind (hread 3) fun rest => Keeps.bind (keeps_ofExcept _) fun len => ?_
    refine Keeps.bind (hread len) fun payload => Keeps.bind (Keeps.compute ?_) fun _ => Keeps.pure
    intro agent hagent
    cases decode payload <;> exact hagent

lemma keeps_files_sendPartial (reply : SyncReply) : Keeps (fun agent => Q agent.files)
    (sendPartial reply) := by
  refine Keeps.mapError (Keeps.atomic ?_)
  intro agent a agent' hagent heffect
  cases heffect
  exact hagent

lemma streamExact_staged (rounds : List ChunkFate) (size : Nat) (agent : Agent)
    (h : Staged before destination temp agent.files) :
    Staged before destination temp
      (streamExact (fun count agent => (agent.input.take count, agent.advance count))
        (fun bytes agent => { agent with files := updateNode temp (appendData bytes) agent.files })
        rounds size agent).2.files := by
  induction rounds generalizing size agent with
  | nil =>
    cases size with
    | zero => exact h
    | succ size => exact h.update _
  | cons fate rounds ih =>
    cases size with
    | zero => exact h
    | succ size =>
      cases fate with
      | interrupted => exact ih (size + 1) agent h
      | moves count =>
        simp only [streamExact]
        split
        · exact h
        · exact ih _ _ (h.update _)
      | cancelledBeforeRead | readFails | cancelledBeforeWrite count | writeFails count => exact h

lemma ensures_finishUpload_files (upload : PendingRename) (size mode : Nat) (mtimeSecs : Int)
    (mtimeNanos : Nat) : EndsOr (fun t => Staged before destination upload.temp t.now.files)
      (Session.finishUpload upload size mode mtimeSecs mtimeNanos) (fun _ _ => True)
      (fun t => Staged before destination upload.temp t.now.files) := by
  have hset : ∀ update : Node → Node, Keeps
      (fun agent => Staged before destination upload.temp agent.files)
        (setNode upload.temp update) := by
    intro update
    refine keeps_files fun files a files' hfiles heffect => ?_
    cases heffect
    exact hfiles.update update
  refine Ensures.bind keeps_notCancelled fun _ => ?_
  refine Ensures.bind (hset _) fun _ => ?_
  refine Ensures.bind keeps_quietly fun _ => ?_
  refine Ensures.bind (Keeps.bind (hset _) fun _ => hset _) fun _ => ?_
  refine Ensures.bind keeps_quietly fun _ => ?_
  refine Ensures.bind keeps_notCancelled fun _ => ?_
  exact Ensures.atomic (fun _ _ _ _ _ => trivial) (fun _ _ h _ => h) (fun _ h => h) (fun _ h => h)

lemma ensures_orDiscard_files {weather : Weather} (hunlinks : weather.unlinks = true)
    {pending : PendingRename} {m : Handler α}
    (hm : EndsOr (fun t => Staged before destination pending.temp t.now.files) m (fun _ _ => True)
      (fun t => Staged before destination pending.temp t.now.files)) :
    Ensures (fun t => Staged before destination pending.temp t.now.files)
      (pending.orDiscard weather m) (fun _ _ => True)
      (fun _ t => Grown before destination t.now.files) (fun _ => True) := by
  have hdiscard : Ensures (fun t => Staged before destination pending.temp t.now.files)
      (pending.discard weather) (fun _ t => Grown before destination t.now.files)
      (fun _ t => Grown before destination t.now.files) (fun _ => True) := by
    refine Ensures.compute ?_ ?_
    · intro t a agent ht h
      simp only [hunlinks, if_true, Prod.mk.injEq] at h
      rw [← h.2]
      exact ht.discard
    · intro t e agent ht h
      cases h
  exact Ensures.attempt_bind (Ensures.weaken_crashed hm fun _ _ => trivial)
    (fun _ => Ensures.pure fun _ _ => trivial)
    fun _ => Ensures.bind hdiscard fun _ => Ensures.throw fun _ h => h

/-- An upload that fails leaves no trace but directories on the way to its destination. -/
theorem ensures_writeFile_files (decode : DecodeRequest) (session : Session)
    {weather : Weather} (hunlinks : weather.unlinks = true) (relativePath : Text) (size mode : Nat)
    (mtimeSecs : Int) (mtimeNanos : Nat) :
    Ensures (fun t => t.now.files = before)
      (session.writeFile decode weather relativePath size mode mtimeSecs mtimeNanos)
      (fun _ _ => True) (fun _ t => Grown before (session.pathOf relativePath) t.now.files)
      (fun _ => True) := by
  refine Ensures.bind
    (Ensures.weaken_crashed (Ensures.mapError (ensures_resolveCreatingParent_files session
    relativePath)) fun _ _ => trivial) fun destination => ?_
  rintro world ⟨hgrown, hdestination⟩
  rw [← hdestination] at hgrown ⊢
  refine Ensures.bind
    (Ensures.weaken_crashed (Ensures.mapError (ensures_create_files weather destination _))
    fun _ _ => trivial) (fun upload => ?_) world hgrown
  refine ensures_orDiscard_files hunlinks ?_
  refine Ensures.bind (keeps_files_sendPartial _) fun _ => ?_
  refine Ensures.bind (Keeps.mapError (Keeps.compute fun agent hagent =>
    streamExact_staged weather.rounds size agent hagent)) fun _ => ?_
  refine Ensures.bind (Keeps.mapError keeps_notCancelled) fun _ => ?_
  have hexpect : Keeps (fun agent => Staged before destination upload.temp agent.files)
      (Session.expectCommit decode) := by
    refine Keeps.bind (Keeps.mapError (keeps_files_readFrame decode)) fun request => ?_
    split
    · exact Keeps.pure
    · exact Keeps.throw
  refine Ensures.bind hexpect fun _ => ?_
  refine Ensures.bind (Ensures.mapError (ensures_finishUpload_files upload size mode mtimeSecs
    mtimeNanos)) fun _ => ?_
  exact Ensures.pure fun _ _ => trivial

end Files

/-! ## The whole session -/

def Agent.fresh (input : List UInt8) (files : FileTree) : Agent :=
  { input, position := 0, log := [], files }

lemma framed_fresh (input : List UInt8) (files : FileTree) : Framed (Agent.fresh input files) := by
  refine ⟨⟨?_, ?_, ?_⟩, Or.inl ?_⟩
  · intro r hr
    cases hr
  · intro r hr
    cases hr
  · intro later message position earlier hlog
    simp [Agent.fresh] at hlog
  · exact ⟨rfl, nofun⟩

lemma bodiesKept_of_rounds {decode : DecodeRequest}
    {sha256 : List UInt8 → List UInt8} {weathers : List Weather}
    (h : ∀ weather ∈ weathers, ∀ size available, keepsFraming weather.rounds size available = true)
    (session : Option Session) (trail : Trail Agent) :
    BodiesKept decode sha256 weathers session trail := by
  induction weathers generalizing session trail with
  | nil => trivial
  | cons weather weathers ih =>
    refine ⟨fun request world _ => ?_, fun next world _ => ?_⟩
    · cases request with
      | writeFile relativePath size mode mtimeSecs mtimeNanos =>
        exact h weather List.mem_cons_self size _
      | _ => trivial
    · exact ih (fun other hother => h other (List.mem_cons_of_mem _ hother)) next world.trail

section Samples

/-- The payloads of the samples: a session on `/r`, an upload of `g`, its commit, and a removal. -/
def sampleDecode (size : UInt8) (payload : List UInt8) : Except IoError SyncRequest :=
  if payload = [0, 2, 0x2f, 0x72] then
    .ok (.beginSession "/r".toList)
  else if payload = [3, 1, 0x67, size, 0, 0, 0] then
    .ok (.writeFile "g".toList size.toNat 0 0 0)
  else if payload = [4] then
    .ok .commitFile
  else if payload = [9, 1, 0x66] then
    .ok (.removeEntry "f".toList)
  else
    .error ⟨.invalidData, "Found a discriminant that was not expected"⟩

def sampleFiles : FileTree :=
  [([], ⟨.directory, 0o755, 0, 0⟩), ([['r']], ⟨.directory, 0o755, 0, 0⟩),
    ([['f'], ['r']], ⟨.file [1], 0o644, 0, 0⟩)]

def fair : Weather := ⟨[], [], 0, true⟩

def sampleRequest (payload : List UInt8) : List UInt8 :=
  [UInt8.ofNat payload.length, 0, 0, 0] ++ payload

def sampleHead (size : UInt8) : List UInt8 :=
  sampleRequest [0, 2, 0x2f, 0x72] ++ sampleRequest [3, 1, 0x67, size, 0, 0, 0]

/-- An upload that is interrupted and fails after its commit, then the removal of `f`. -/
def interruptedLog : List Event :=
  (serve (sampleDecode 2) id
    [fair, ⟨List.replicate 15 .works ++ [.fails 0], [.interrupted], 0, true⟩, fair] none
    ⟨[], Agent.fresh (sampleHead 2 ++ [7, 7] ++ sampleRequest [4] ++ sampleRequest [9, 1, 0x66])
      sampleFiles⟩).now.log

end Samples

end Terrarium.Sync
