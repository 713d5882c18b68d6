import Terrarium.Sync.LinkSearch

/-!
# LinkSafety — downloaded links cannot lead out of the destination

While a download runs, and after it, each path that is a link on one side holds either the guest's
entry or the host's link.  This module resolves links as POSIX does, on any such mixture of the two
sides:

* `posixStep`, `posixRun` : path resolution, `..` going up from the directory reached
* `Contained` : from the first entry of the guest on, the resolution never leaves the root

The check is sound because its walk forks over all sides a mixture can choose from:
`contained_of_visits` is the simulation of one component, `Explores.forall_mem` carries it over the
whole search.
-/

namespace Terrarium.Sync

open Fallible Metered

/-! ## Mixtures of the two sides -/

/-- The entries a path can hold: the guest's entry, or the host's link. -/
inductive Offered (source destination : Manifest) (path : Text) : LinkSide → Prop where
  | guest {entry : SyncEntry} :
      source.get path = some entry → Offered source destination path ⟨entry.kind.linkTarget, .guest⟩
  | host {entry : SyncEntry} {target : Text} :
      destination.get path = some entry → entry.kind.linkTarget = some target →
      Offered source destination path ⟨some target, .host⟩

/-- At each path that is a link on some side, one of the entries offered there. -/
structure Mixed (source destination : Manifest) (choice : Text → Option LinkSide) : Prop where
  link : ∀ path, IsLinkPath source destination path →
    ∃ side, choice path = some side ∧ Offered source destination path side
  other : ∀ path, ¬ IsLinkPath source destination path → choice path = none

def fileName (path : Text) : Text :=
  (components path).getLastD []

/-- `resolveComponent` answers with the names the host's file system stores, and the entries of both
manifests are stored under their own names. -/
structure StoredNames (source destination : Manifest)
    (resolveComponent : ResolveComponent) (stored : Text → Text → Text) : Prop where
  resolves : ∀ parent component name, resolveComponent parent component = .ok name →
    name = stored parent component
  own : ∀ path entry, (source.get path = some entry ∨ destination.get path = some entry) →
    path ≠ [] → stored (parentPath path) (fileName path) = fileName path

/-! ## Path resolution -/

inductive Progress where
  | running (branch : Branch)
  | finished
  | tooManyLinks
  /-- Above the root, or to an absolute target; `byGuest` if an entry of the guest was used. -/
  | leaves (byGuest : Bool)

section

variable (stored : Text → Text → Text) (choice : Text → Option LinkSide)

/-- The name just looked up is `names`, and the mixture has `side` there. -/
def throughSide (names : List Text) (branch : Branch) (side : LinkSide) : Progress :=
  match side.target with
  | none =>
      .running
        ⟨names, branch.pending, branch.followed, branch.isGuestInfluenced || side.author = .guest⟩
  | some target =>
      if maxSymlinkFollows < branch.followed + 1 then .tooManyLinks
      else if target.head? = some '/' then .leaves
        (branch.isGuestInfluenced || side.author = .guest)
      else .running ⟨branch.resolved, components target ++ branch.pending, branch.followed + 1,
        branch.isGuestInfluenced || side.author = .guest⟩

def lookUp (branch : Branch) (component : Text) : Progress :=
  match choice (joinPath (branch.resolved ++ [stored (joinPath branch.resolved) component])) with
  | none =>
      .running
        { branch with resolved := branch.resolved ++ [stored (joinPath branch.resolved) component] }
  | some side =>
      throughSide (branch.resolved ++ [stored (joinPath branch.resolved) component]) branch side

def resolveOne (branch : Branch) (component : Text) : Progress :=
  if component = [] ∨ component = ['.'] then .running branch
  else if component = ['.', '.'] then
    if branch.resolved = [] then .leaves branch.isGuestInfluenced
    else .running { branch with resolved := branch.resolved.dropLast }
  else lookUp stored choice branch component

def posixStep (branch : Branch) : Progress :=
  match branch.pending with
  | [] => .finished
  | component :: pending => resolveOne stored choice { branch with pending := pending } component

def posixRun : Nat → Branch → Progress
  | 0, branch => .running branch
  | fuel + 1, branch =>
      match posixStep stored choice branch with
      | .running branch' => posixRun fuel branch'
      | .finished => .finished
      | .tooManyLinks => .tooManyLinks
      | .leaves byGuest => .leaves byGuest

/-- The resolution never leaves the root once it has used an entry of the guest. -/
def Contained (branch : Branch) : Prop :=
  ∀ fuel, posixRun stored choice fuel branch ≠ .leaves true

end

def startAt (path : Text) : Branch :=
  ⟨[], components path, 0, false⟩

variable {stored : Text → Text → Text} {choice : Text → Option LinkSide}

variable {branch : Branch} {path name : Text} {side : LinkSide}

lemma contained_of_step (hstays : posixStep stored choice branch ≠ .leaves true)
    (hnext : ∀ next, posixStep stored choice branch = .running next →
      Contained stored choice next) :
    Contained stored choice branch := by
  intro fuel h
  cases fuel with
  | zero => cases h
  | succ fuel =>
    rw [posixRun] at h
    split at h
    next next hstep => exact hnext next hstep fuel h
    · cases h
    · cases h
    next byGuest hstep =>
      cases h
      exact hstays hstep

lemma contained_of_running {next : Branch} (hstep : posixStep stored choice branch = .running next)
    (hnext : Contained stored choice next) : Contained stored choice branch := by
  refine contained_of_step ?_ ?_
  · rw [hstep]
    intro h
    cases h
  · intro next' h
    rw [hstep] at h
    cases h
    exact hnext

/-! ## Guest influence only restricts -/

def Branch.influenced (branch : Branch) : Branch :=
  { branch with isGuestInfluenced := true }

def Progress.influenced : Progress → Progress
  | .running branch => .running branch.influenced
  | .finished => .finished
  | .tooManyLinks => .tooManyLinks
  | .leaves _ => .leaves true

lemma throughSide_influenced (names : List Text) (branch : Branch) (side : LinkSide) :
    throughSide names branch.influenced side = (throughSide names branch side).influenced := by
  unfold throughSide
  cases side.target with
  | none => simp [Progress.influenced, Branch.influenced]
  | some target =>
    by_cases hlimit : maxSymlinkFollows < branch.followed + 1
    · simp [Branch.influenced, Progress.influenced, hlimit]
    · by_cases hrooted : target.head? = some '/' <;>
        simp [Branch.influenced, Progress.influenced, hlimit, hrooted]

lemma posixStep_influenced (branch : Branch) :
    posixStep stored choice branch.influenced = (posixStep stored choice branch).influenced := by
  rcases branch with ⟨resolved, pending, followed, influenced⟩
  cases pending with
  | nil => rfl
  | cons component pending =>
    simp only [posixStep, Branch.influenced, resolveOne]
    by_cases hstays : component = [] ∨ component = ['.']
    · simp [hstays, Progress.influenced, Branch.influenced]
    · by_cases hup : component = ['.', '.']
      · by_cases hroot : resolved = [] <;>
          simp [hup, hroot, Progress.influenced, Branch.influenced]
      · simp only [hstays, hup, if_false, lookUp]
        cases choice (joinPath (resolved ++ [stored (joinPath resolved) component])) with
        | none => rfl
        | some side => exact throughSide_influenced _ ⟨resolved, pending, followed, influenced⟩ side

lemma posixRun_influenced {fuel : Nat} (h : posixRun stored choice fuel branch = .leaves true) :
    posixRun stored choice fuel branch.influenced = .leaves true := by
  induction fuel generalizing branch with
  | zero => cases h
  | succ fuel ih =>
    rw [posixRun] at h ⊢
    rw [posixStep_influenced]
    cases hstep : posixStep stored choice branch with
    | running next =>
      rw [hstep] at h
      exact ih h
    | finished | tooManyLinks =>
      rw [hstep] at h
      cases h
    | leaves byGuest => rfl

/-- A resolution that is contained after an entry of the guest is contained without it. -/
lemma contained_of_influenced {resolved pending : List Text} {followed : Nat} {before after : Bool}
    (himp : before = true → after = true)
    (h : Contained stored choice ⟨resolved, pending, followed, after⟩) :
    Contained stored choice ⟨resolved, pending, followed, before⟩ := by
  cases before with
  | true => rwa [himp rfl] at h
  | false =>
    cases after with
    | false => exact h
    | true =>
      intro fuel hleaves
      exact h fuel (posixRun_influenced hleaves)

/-! ## The walk follows every mixture -/

variable {source destination : Manifest} {resolveComponent : ResolveComponent}

/-- The walk forks into every side a mixture can choose: at least with the same target, and under
the guest's name if the guest repeats the host's link. -/
lemma mem_linkSides_of_offered (h : Offered source destination path side) :
    ∃ walked ∈ linkSides (source.get path) (destination.get path), walked.target = side.target ∧
      (side.author = .guest → walked.author = .guest) := by
  cases h with
  | @guest entry hget =>
    refine ⟨⟨entry.kind.linkTarget, .guest⟩, ?_, rfl, fun _ => rfl⟩
    simp [linkSides, guestSide, hget]
  | @host entry target hget htarget =>
    by_cases hrepeats :
      ((guestSide (source.get path)).all fun side => side.target ≠ some target) = true
    · refine ⟨⟨some target, .host⟩, ?_, rfl, id⟩
      have hhost : hostSide (source.get path) (destination.get path) =
          some ⟨some target, .host⟩ := by
        simp only [hostSide, hget, Option.bind_some, htarget, Option.filter, hrepeats, if_true,
          Option.map_some]
      simp [linkSides, hhost]
    · cases hsource : source.get path with
      | none => simp [hsource, guestSide] at hrepeats
      | some guest =>
        have htargets : guest.kind.linkTarget = some target := by
          simpa [hsource, guestSide] using hrepeats
        refine ⟨⟨guest.kind.linkTarget, .guest⟩, ?_, htargets, fun _ => rfl⟩
        simp [linkSides, guestSide]

lemma offered_of_mem_linkSides (h : side ∈ linkSides (source.get path) (destination.get path)) :
    Offered source destination path side := by
  rcases List.mem_append.1 h with hguest | hhost
  · obtain ⟨entry, hget, rfl⟩ := Option.map_eq_some_iff.1 (Option.mem_toList.1 hguest)
    exact Offered.guest hget
  · obtain ⟨target, htarget, rfl⟩ := Option.map_eq_some_iff.1 (Option.mem_toList.1 hhost)
    obtain ⟨entry, hget, hentry⟩ :=
      Option.bind_eq_some_iff.1 (Option.filter_eq_some_iff.1 htarget).1
    exact Offered.host hget hentry

/-- The mixture after the download: the guest's entry wherever there is one. -/
def afterDownload (source destination : Manifest) (path : Text) : Option LinkSide :=
  (Directory.find (downloadLinks source destination) path).bind List.head?

lemma mixed_afterDownload (source destination : Manifest) :
    Mixed source destination (afterDownload source destination) := by
  constructor
  · intro path hlink
    have hfind := find_downloadLinks.2 ⟨hlink, rfl⟩
    -- the entry that makes the path a link is itself offered
    obtain ⟨entry, hget, htarget⟩ := hlink
    obtain ⟨target, htarget⟩ := Option.isSome_iff_exists.1 htarget
    obtain ⟨side, hside⟩ : ∃ side, Offered source destination path side := by
      rcases hget with hget | hget
      · exact ⟨_, Offered.guest hget⟩
      · exact ⟨_, Offered.host hget htarget⟩
    obtain ⟨walked, hwalked, -, -⟩ := mem_linkSides_of_offered hside
    cases hsides : linkSides (source.get path) (destination.get path) with
    | nil =>
      rw [hsides] at hwalked
      cases hwalked
    | cons first rest =>
      refine ⟨first, ?_, offered_of_mem_linkSides (hsides ▸ List.mem_cons_self)⟩
      rw [afterDownload, hfind, hsides]
      rfl
  · intro path hlink
    rw [afterDownload, find_downloadLinks_eq_none.2 hlink]
    rfl

lemma forkSide_of_forks {sides : List LinkSide}
    {forks forks' : List Branch} (h : Forks name branch sides forks forks') :
    (∀ fork ∈ forks, fork ∈ forks') ∧
      ∀ side ∈ sides, ∃ next, forkSide name branch side = .ok next ∧
      ∀ fork ∈ next, fork ∈ forks' := by
  induction h with
  | nil forks => exact ⟨fun _ hfork => hfork, fun side hside => by cases hside⟩
  | @cons side sides next forks forks' hok _ ih =>
    obtain ⟨hkept, hsides⟩ := ih
    refine ⟨fun fork hfork => hkept fork (List.mem_append_right _ hfork), ?_⟩
    intro side' hside'
    rcases List.mem_cons.1 hside' with rfl | hside'
    · refine ⟨next, hok, fun fork hfork => hkept fork (List.mem_append_left _ ?_)⟩
      simpa using hfork
    · exact hsides side' hside'

lemma validateDownloadSymlinkTarget_not_rooted {link : Text}
    (h : validateDownloadSymlinkTarget name link = .ok ()) : isRooted link = false := by
  obtain ⟨-, h⟩ := ensure_bind_eq_ok.1 h
  obtain ⟨-, h⟩ := ensure_bind_eq_ok.1 h
  obtain ⟨-, h⟩ := ensure_bind_eq_ok.1 h
  obtain ⟨hrelative, -⟩ := ensure_bind_eq_ok.1 h
  simpa [isRooted] using hrelative

lemma followsLink_influenced {link : Text} {followed : Nat} {follows : Bool}
    (h : followsLink name link followed true = .ok follows) :
    follows = true ∧ followed ≤ maxSymlinkFollows ∧
    validateDownloadSymlinkTarget name link = .ok () := by
  rw [followsLink, if_pos rfl] at h
  obtain ⟨hfollowed, h⟩ := ensure_bind_eq_ok.1 h
  obtain ⟨_, htarget, hreturn⟩ := bind_eq_ok.1 h
  exact ⟨(pure_eq_ok.1 hreturn).symm, by simpa using hfollowed, htarget⟩

lemma followsLink_eq_ok {link : Text} {followed : Nat} {influenced follows : Bool}
    (h : followsLink name link followed influenced = .ok follows) :
    (follows = true → followed ≤ maxSymlinkFollows ∧ link.head? ≠ some '/') ∧
      (follows = false → influenced = false ∧
        (maxSymlinkFollows < followed ∨ link.head? = some '/')) := by
  cases influenced with
  | true =>
    obtain ⟨rfl, hfollowed, htarget⟩ := followsLink_influenced h
    have hrelative := validateDownloadSymlinkTarget_not_rooted htarget
    exact ⟨fun _ => ⟨hfollowed, by simpa [isRooted] using hrelative⟩, nofun⟩
  | false =>
    rw [followsLink, if_neg (by decide)] at h
    obtain rfl := Except.ok.inj h
    constructor
    · intro hfollows
      simpa [isRooted] using hfollows
    · intro hfollows
      refine ⟨rfl, ?_⟩
      by_cases hlimit : followed ≤ maxSymlinkFollows
      · right
        simpa [isRooted, hlimit] using hfollows
      · left
        omega

/-- Through the side the mixture chose, the resolution is contained if the fork of the walk is. -/
lemma contained_throughSide (branch : Branch) {names : List Text} {walked : LinkSide}
    {next : Option Branch} (hnames : names.dropLast = branch.resolved)
    (htarget : walked.target = side.target)
    (hauthor : side.author = .guest → walked.author = .guest)
    (hok : forkSide name { branch with resolved := names } walked = .ok next)
    (hforks : ∀ fork ∈ next, Contained stored choice fork) :
    throughSide names branch side ≠ .leaves true ∧
      ∀ after, throughSide names branch side = .running after → Contained stored choice after := by
  -- the walk counts a guest's influence at least as soon as the resolution does
  have hinfluence : (branch.isGuestInfluenced || decide (side.author = .guest)) = true →
      (branch.isGuestInfluenced || decide (walked.author = .guest)) = true := by
    intro h
    rcases Bool.or_eq_true_iff.1 h with h | h
    · simp [h]
    · simp [hauthor (of_decide_eq_true h)]
  unfold forkSide at hok
  unfold throughSide
  rw [htarget] at hok
  cases htgt : side.target with
  | none =>
    rw [htgt] at hok
    obtain rfl := Except.ok.inj hok
    refine ⟨nofun, ?_⟩
    rintro after hafter
    cases hafter
    exact contained_of_influenced hinfluence (hforks _ rfl)
  | some target =>
    rw [htgt] at hok
    simp only [] at hok
    obtain ⟨follows, hfollow, rfl⟩ := map_eq_ok.1 hok
    obtain ⟨hfollowed, hdropped⟩ := followsLink_eq_ok hfollow
    cases follows with
    | true =>
      obtain ⟨hlimit, hrelative⟩ := hfollowed rfl
      simp only [Nat.not_lt.2 hlimit, if_false, hrelative]
      refine ⟨nofun, ?_⟩
      rintro after hafter
      cases hafter
      refine contained_of_influenced hinfluence ?_
      have hfork := hforks _ rfl
      rwa [hnames] at hfork
    | false =>
      obtain ⟨hwalked, hleft⟩ := hdropped rfl
      have hhost : (branch.isGuestInfluenced || decide (side.author = .guest)) = false := by
        by_contra hcontra
        rw [hinfluence (eq_true_of_ne_false hcontra)] at hwalked
        cases hwalked
      by_cases hlimit : maxSymlinkFollows < branch.followed + 1
      · simp [hlimit]
      · have hrooted : target.head? = some '/' := hleft.resolve_left hlimit
        simp [hlimit, hrooted, hhost]

/-- One component: the resolution goes where one of the walk's branches goes. -/
theorem contained_of_visits (hmixed : Mixed source destination choice)
    (hstored : StoredNames source destination resolveComponent stored) {component : Text}
    {walked : Walked}
    (h : Visits (downloadLinks source destination) resolveComponent branch component walked)
    (hnext : ∀ next ∈ walked.branches branch, Contained stored choice next) :
    Contained stored choice { branch with pending := component :: branch.pending } := by
  cases h with
  | stays hstays =>
    refine contained_of_running ?_ (hnext branch List.mem_cons_self)
    simp [posixStep, resolveOne, hstays]
  | up hup hresolved =>
    refine contained_of_running ?_ (hnext _ List.mem_cons_self)
    simp [posixStep, resolveOne, hup, hresolved]
  | leaves hup hresolved hguest =>
    refine contained_of_step ?_ ?_
    · simp [posixStep, resolveOne, hup, hresolved, hguest]
    · intro next hstep
      simp [posixStep, resolveOne, hup, hresolved] at hstep
  | @enters name hnames hup hresolve hfind =>
    obtain rfl := hstored.resolves _ _ _ hresolve
    have hplain := hmixed.other _ (find_downloadLinks_eq_none.1 hfind)
    refine contained_of_running ?_ (hnext _ List.mem_cons_self)
    simp [posixStep, resolveOne, hnames, hup, lookUp, hplain]
  | @crosses name sides forks hnames hup hresolve hfind hforks =>
    obtain rfl := hstored.resolves _ _ _ hresolve
    obtain ⟨hlink, rfl⟩ := find_downloadLinks.1 hfind
    obtain ⟨side, hside, hoffered⟩ := hmixed.link _ hlink
    obtain ⟨walked, hwalked, htarget, hauthor⟩ := mem_linkSides_of_offered hoffered
    obtain ⟨next, hok, hmem⟩ := (forkSide_of_forks hforks).2 walked hwalked
    obtain ⟨hstays, hafter⟩ := contained_throughSide branch List.dropLast_concat htarget hauthor hok
      fun fork hfork => hnext fork (hmem fork hfork)
    have hstep : posixStep stored choice { branch with pending := component :: branch.pending } =
        throughSide (branch.resolved ++ [stored (joinPath branch.resolved) component])
          branch side := by
      simp [posixStep, resolveOne, hnames, hup, lookUp, hside]
    exact contained_of_step (hstep ▸ hstays) (hstep ▸ hafter)

lemma contained_of_explores (hmixed : Mixed source destination choice)
    (hstored : StoredNames source destination resolveComponent stored)
    {stack : List Branch} {c : Nat}
    (h : Explores (stepBranch (downloadLinks source destination) resolveComponent) stack c) :
    ∀ branch ∈ stack, Contained stored choice branch := by
  refine h.forall_mem ?_
  rintro ⟨resolved, _ | ⟨component, pending⟩, followed, influenced⟩ cost next hcost hnext
  · refine contained_of_step ?_ ?_
    · intro hleaves
      cases hleaves
    · intro next hstep
      cases hstep
  · obtain ⟨walked, hvisit, rfl⟩ := costs_stepBranch_inv hcost
    exact contained_of_visits hmixed hstored (visits_of_costs hvisit).1 hnext

/-! ## From the root to the link -/

lemma contained_of_directories {last : Text} {above below : List Text}
    (hdirectories : ∀ names name rest, above ++ below = names ++ name :: rest →
      ProperName name ∧ stored (joinPath names) name = name ∧
      choice (joinPath (names ++ [name])) = none)
    (h : Contained stored choice ⟨above ++ below, [last], 0, false⟩) :
    Contained stored choice ⟨above, below ++ [last], 0, false⟩ := by
  induction below generalizing above with
  | nil => simpa using h
  | cons name below ih =>
    obtain ⟨hproper, hown, hplain⟩ := hdirectories above name below rfl
    have hstep : posixStep stored choice ⟨above, (name :: below) ++ [last], 0, false⟩ =
        .running ⟨above ++ [name], below ++ [last], 0, false⟩ := by
      simp [posixStep, resolveOne, lookUp, hproper.nonempty, hproper.not_dot,
        hproper.not_dotdot, hown, hplain]
    refine contained_of_running hstep (ih ?_ ?_)
    · intro names name' rest heq
      exact hdirectories names name' rest (by simpa using heq)
    · simpa using h

lemma not_isLinkPath_of_directory (hcompatible : Compatible source destination)
    {entry : SyncEntry} (hget : source.get path = some entry ∨ destination.get path = some entry)
    (hdirectory : entry.kind = .directory) : ¬ IsLinkPath source destination path := by
  rintro ⟨other, hother, hlink⟩
  have hkind : other.kind = .directory := by
    rcases hget with hget | hget <;> rcases hother with hother | hother
    · cases hget.symm.trans hother
      exact hdirectory
    · exact (hcompatible.directories _ _ _ hget hother).1 hdirectory
    · exact (hcompatible.directories _ _ _ hother hget).2 hdirectory
    · cases hget.symm.trans hother
      exact hdirectory
  rw [hkind] at hlink
  cases hlink

lemma fileName_joinPath {names : List Text} (hproper : ∀ part ∈ names ++ [name], ProperName part) :
    fileName (joinPath (names ++ [name])) = name := by
  have hcomponents : components (joinPath (names ++ [name])) = names ++ [name] :=
    List.splitOn_intercalate '/' (fun part hpart => (hproper part hpart).slashless) (by simp)
  rw [fileName, hcomponents, List.getLastD_concat]

lemma exists_firstBranch (path : Text) : ∃ above last, components path = above ++ [last] ∧
    joinPath (above ++ [last]) = path ∧ firstBranch path = ⟨above, [last], 0, false⟩ := by
  obtain ⟨above, last, hnames⟩ : ∃ above last, components path = above ++ [last] :=
    ⟨_, _, (List.dropLast_concat_getLast (components_ne_nil path)).symm⟩
  exact ⟨above, last, hnames, by rw [← hnames, joinPath_components], by simp [firstBranch, hnames]⟩

/-- A link is reached from the root: no directory on the way to it is a link on the other side. -/
lemma contained_startAt (hcompatible : Compatible source destination)
    (hmixed : Mixed source destination choice)
    (hstored : StoredNames source destination resolveComponent stored)
    (hlink : IsLinkPath source destination path)
    (h : Contained stored choice (firstBranch path)) : Contained stored choice (startAt path) := by
  by_cases hpath : path = []
  · subst hpath
    exact h
  · obtain ⟨entry, hget, -⟩ := hlink
    -- the manifest that lists the link
    obtain ⟨manifest, hvalid, hentry, hlisted⟩ : ∃ manifest : Manifest, manifest.Valid ∧
        manifest.get path = some entry ∧ ∀ other found, manifest.get other = some found →
          source.get other = some found ∨ destination.get other = some found := by
      rcases hget with hget | hget
      · exact ⟨source, hcompatible.source_valid, hget, fun _ _ => Or.inl⟩
      · exact ⟨destination, hcompatible.target_valid, hget, fun _ _ => Or.inr⟩
    have hproper := properName_of_validateRelativePath hpath (hvalid _ _ hentry).relative
    obtain ⟨above, last, hnames, hjoin, hfirst⟩ := exists_firstBranch path
    rw [hnames] at hproper
    have hstart : startAt path = ⟨[], above ++ [last], 0, false⟩ := by rw [startAt, hnames]
    rw [hstart]
    rw [hfirst] at h
    refine contained_of_directories ?_ h
    rintro names name rest heq
    subst heq
    have hparts : ∀ part ∈ names ++ [name], ProperName part := fun part hpart => hproper part (by
      rcases List.mem_append.1 hpart with hpart | hpart
      · simp [hpart]
      · simp [List.mem_singleton.1 hpart])
    have hsplit : names ++ name :: rest ++ [last] = (names ++ [name]) ++ (rest ++ [last]) := by simp
    rw [hsplit] at hproper hjoin
    rw [← hjoin] at hentry
    obtain ⟨directory, hdirectory, hkind⟩ :=
      hvalid.directory_above hproper (by simp) (by simp) hentry
    have hfound := hlisted _ _ hdirectory
    have hname := hparts name (by simp)
    refine ⟨hname, ?_, hmixed.other _ (not_isLinkPath_of_directory hcompatible hfound hkind)⟩
    have hown := hstored.own _ _ hfound (joinPath_ne_nil (by simp) hparts)
    rwa [parentPath_joinPath hname.slashless, fileName_joinPath hparts] at hown

/-- A download that passed its check installs no link that leads out of the destination: whatever
mixture of the two sides is in place, no resolution of a link rises above the root or follows an
absolute target once it has used an entry of the guest.  The check itself always ends, within its
budget of steps. -/
theorem download_links_stay_inside :
    (∀ (source destination : Manifest) (resolveComponent : ResolveComponent)
      (stored : Text → Text → Text), validatePlanConflicts source destination = .ok () →
      StoredNames source destination resolveComponent stored →
      validateDownloadLinks source destination resolveComponent = .ok () →
      ∀ path, IsLinkPath source destination path → ∀ choice, Mixed source destination choice →
        Contained stored choice (startAt path)) ∧
    ∀ (source destination : Manifest) (resolveComponent : ResolveComponent),
      validateDownloadLinks source destination resolveComponent ≠ .error .unfinished ∧
        (account (runLinkCheck source destination resolveComponent)).steps ≤
        maxSyncLinkWorkBytes := by
  constructor
  · intro source destination resolveComponent stored hplan hstored hcheck path hlink choice hmixed
    have hcompatible := validatePlanConflicts_eq_ok.1 hplan
    obtain ⟨c, -, hexplores⟩ := explores_of_linkCheck hcheck
    have hfirst : firstBranch path ∈ (linkPaths source destination).map firstBranch :=
      List.mem_map_of_mem (mem_linkPaths.2 hlink)
    exact contained_startAt hcompatible hmixed hstored hlink
      (contained_of_explores hmixed hstored hexplores _ hfirst)
  · intro source destination resolveComponent
    exact ⟨linkCheck_finishes source destination resolveComponent,
      linkCheck_steps_le source destination resolveComponent⟩

/-! ## A download next to links of the host -/

def sampleEntry (path : String) (kind : SyncEntryKind) : Text × SyncEntry :=
  (path.toList, ⟨path.toList, kind, 0o755, 0, 0⟩)

def sampleLink (path target : String) : Text × SyncEntry :=
  sampleEntry path (.symlink target.toList)

/-- The guest's `a` goes through `d/up`, which leaves `d`. -/
def sampleGuest : Manifest where
  entries := [sampleEntry "" .directory, sampleLink "a" "d/up/x", sampleEntry "d" .directory,
    sampleLink "d/up" ".."]
  sorted := by decide

/-- The host keeps another `d/up`, and a link of its own that leaves the tree. -/
def sampleHost : Manifest where
  entries := [sampleEntry "" .directory, sampleEntry "d" .directory, sampleLink "d/up" "safe",
    sampleLink "out" "/tmp"]
  sorted := by decide

lemma storedNames_exact (source destination : Manifest) :
    StoredNames source destination (fun _ component => .ok component)
      (fun _ component => component) where
  resolves _ _ _ h := (Except.ok.inj h).symm
  own _ _ _ _ := rfl

theorem download_links_stay_inside_sample :
    Contained (fun _ component => component) (afterDownload sampleGuest sampleHost)
      (startAt ['a']) ∧
    (account (runLinkCheck sampleGuest sampleHost fun _ component => .ok component)).steps ≤
      maxSyncLinkWorkBytes :=
  ⟨download_links_stay_inside.1 sampleGuest sampleHost (fun _ component => .ok component)
      (fun _ component => component) (by decide +kernel) (storedNames_exact _ _)
        (by decide +kernel) ['a']
      (mem_linkPaths.1 (by decide +kernel)) _ (mixed_afterDownload _ _),
    (download_links_stay_inside.2 _ _ _).2⟩

end Terrarium.Sync
