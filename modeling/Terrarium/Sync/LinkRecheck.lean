import Terrarium.Sync.LinkSafety

/-!
# LinkRecheck — the link check on fewer links

Two link checks are compared turn by turn.  The second one finds, at every path, some of the sides
the first one found there, or no link where the first one found an entry of the guest that is none
(`FewerSides`). Then each branch of the second check is a branch of the first, at most less
influenced by the guest (`Follows`), and whatever the first check could afford the second one can.
-/

namespace Terrarium.Sync

open Fallible Metered

/-- The sides of a path in the second check, and in the first. -/
inductive FewerSides : Option (List LinkSide) → Option (List LinkSide) → Prop where
  | plain : FewerSides none none
  | link {sides sides' : List LinkSide} : sides.Sublist sides' →
    FewerSides (some sides) (some sides')
  | replaced (rest : List LinkSide) : FewerSides none (some (⟨none, .guest⟩ :: rest))

/-- The same branch, at most less influenced by the guest. -/
structure Follows (branch branch' : Branch) : Prop where
  resolved : branch.resolved = branch'.resolved
  pending : branch.pending = branch'.pending
  followed : branch.followed = branch'.followed
  influenced : branch.isGuestInfluenced = true → branch'.isGuestInfluenced = true

abbrev FollowsAll : List Branch → List Branch → Prop :=
  List.SublistForall₂ Follows

variable {branch branch' : Branch} {name : Text}

lemma FollowsAll.singleton (h : Follows branch branch') : FollowsAll [branch] [branch'] :=
  List.SublistForall₂.cons h List.SublistForall₂.nil

lemma FollowsAll.of_mem {stack : List Branch} (h : Follows branch branch')
    (hmem : branch' ∈ stack) : FollowsAll [branch] stack := by
  induction stack with
  | nil => cases hmem
  | cons first stack ih =>
    rcases List.mem_cons.1 hmem with rfl | hmem
    · exact List.SublistForall₂.cons h List.SublistForall₂.nil
    · exact (ih hmem).cons_right

lemma FollowsAll.append {xs xs' ys ys' : List Branch} (hxs : FollowsAll xs xs')
    (hys : FollowsAll ys ys') : FollowsAll (xs ++ ys) (xs' ++ ys') := by
  induction hxs with
  | nil =>
    rename_i l
    induction l with
    | nil => exact hys
    | cons _ _ ih => exact ih.cons_right
  | cons h _ ih => exact List.SublistForall₂.cons h ih
  | cons_right _ ih => exact ih.cons_right

/-! ## Crossing a link -/

lemma followsLink_less {link : Text} {followed : Nat} {less more follows : Bool}
    (himp : less = true → more = true) (h : followsLink name link followed more = .ok follows) :
    followsLink name link followed less = .ok follows := by
  cases more with
  | false =>
    cases less with
    | false => exact h
    | true => cases himp rfl
  | true =>
    cases less with
    | true => exact h
    | false =>
      obtain ⟨rfl, hlimit, htarget⟩ := followsLink_influenced h
      simp [followsLink, hlimit, validateDownloadSymlinkTarget_not_rooted htarget]

lemma forkSide_less (hfollows : Follows branch branch')
    {side : LinkSide} {next' : Option Branch} (h : forkSide name branch' side = .ok next') :
    ∃ next, forkSide name branch side = .ok next ∧ FollowsAll next.toList next'.toList := by
  have himp : (branch.isGuestInfluenced || decide (side.author = .guest)) = true →
      (branch'.isGuestInfluenced || decide (side.author = .guest)) = true := by
    intro h
    rcases Bool.or_eq_true_iff.1 h with h | h
    · simp [hfollows.influenced h]
    · simp [h]
  unfold forkSide at h ⊢
  cases htarget : side.target with
  | none =>
    rw [htarget] at h
    obtain rfl := Except.ok.inj h
    exact ⟨_, rfl, FollowsAll.singleton { hfollows with influenced := himp }⟩
  | some link =>
    rw [htarget] at h
    simp only [] at h ⊢
    obtain ⟨follows, hfollow, rfl⟩ := map_eq_ok.1 h
    rw [hfollows.followed, followsLink_less himp hfollow]
    refine ⟨_, rfl, ?_⟩
    cases follows with
    | false => exact List.SublistForall₂.nil
    | true =>
      refine FollowsAll.singleton ⟨?_, ?_, rfl, himp⟩
      · simp only [hfollows.resolved]
      · simp only [hfollows.pending]

lemma cheaper_forkSides (hfollows : Follows branch branch') {sides sides' : List LinkSide}
    (hsides : sides.Sublist sides') {forks forks' : List Branch}
    (hforks : FollowsAll forks forks') :
    Cheaper FollowsAll (forkSides name branch sides forks)
      (forkSides name branch' sides' forks') := by
  induction hsides generalizing forks forks' with
  | slnil => exact Cheaper.pure hforks
  | cons side _ ih =>
    -- only the first check has this side
    refine Cheaper.skip (fun _ _ _ => Cheaper.skip (fun next _ _ => ih ?_) (regular_fallible _)
      fun _ => regular_forkSides _ _ _ _) (regular_spendLinkWork (Nat.zero_le _))
      fun _ => (regular_fallible _).bind fun _ => regular_forkSides _ _ _ _
    have hskipped : FollowsAll ([] ++ forks) (next.toList ++ forks') :=
      FollowsAll.append List.SublistForall₂.nil hforks
    exact hskipped
  | cons_cons side _ ih =>
    have hcopy : copyBytes name branch.pending side = copyBytes name branch'.pending side := by
      rw [hfollows.pending]
    rw [forkSides, forkSides, hcopy]
    refine Cheaper.bind (R := fun _ _ => True) (Cheaper.refl _ fun _ => trivial) (fun _ _ _ => ?_)
      (regular_spendLinkWork (Nat.zero_le _)) fun _ => (regular_fallible _).bind fun _ =>
        regular_forkSides _ _ _ _
    refine Cheaper.bind (R := fun next next' => FollowsAll next.toList next'.toList) ?_
      (fun next next' hnext => ih (hnext.append hforks)) (regular_fallible _) fun _ =>
        regular_forkSides _ _ _ _
    intro c' next' hcost
    obtain ⟨hok, rfl⟩ := costs_fallible_inv hcost
    obtain ⟨next, hnext, hrel⟩ := forkSide_less hfollows hok
    exact ⟨0, next, Nat.le_refl _, by rw [hnext]; exact Costs.pure next, hrel⟩

/-! ## One turn -/

abbrev FollowsTurn (branch branch' : Branch) (walked walked' : Walked) : Prop :=
  FollowsAll (walked.branches branch) (walked'.branches branch')

section

variable {links links' : List (Text × List LinkSide)}
  {resolveComponent : ResolveComponent} {branch branch' : Branch}
  (hfollows : Follows branch branch')

include hfollows

lemma Follows.at_names (names : List Text) :
    Follows { branch with resolved := names } { branch' with resolved := names } :=
  { hfollows with resolved := rfl }

lemma cheaper_crossLink {names : List Text}
    (hsides : FewerSides (Directory.find links (joinPath names))
      (Directory.find links' (joinPath names))) :
    Cheaper (FollowsTurn branch branch')
      (crossLink links (joinPath names) { branch with resolved := names })
      (crossLink links' (joinPath names) { branch' with resolved := names }) := by
  unfold crossLink
  cases hfind : Directory.find links (joinPath names) with
  | none =>
    cases hfind' : Directory.find links' (joinPath names) with
    | none => exact Cheaper.pure (FollowsAll.singleton (hfollows.at_names names))
    | some sides' =>
      rw [hfind, hfind'] at hsides
      cases hsides with
      | replaced rest =>
        -- the first check went on with the guest's entry among its forks
        intro c' walked' hcost
        obtain ⟨forks, c₁, c₂, hforks, hreturn, rfl⟩ :=
          (regular_forkSides _ _ (⟨none, .guest⟩ :: rest) []).costs_bind_inv
            (fun _ => Regular.pure _) hcost
        obtain ⟨rfl, -⟩ := (Costs.pure _).unique hreturn
        obtain ⟨next, hok, hmem⟩ :=
          (forkSide_of_forks (forks_of_costs hforks).1).2 _ List.mem_cons_self
        obtain rfl := Except.ok.inj hok
        refine ⟨0, _, Nat.zero_le _, Costs.pure _, FollowsAll.of_mem ?_ (hmem _ rfl)⟩
        exact { hfollows with resolved := rfl, influenced := fun _ => by simp }
  | some sides =>
    cases hfind' : Directory.find links' (joinPath names) with
    | none =>
      rw [hfind, hfind'] at hsides
      cases hsides
    | some sides' =>
      rw [hfind, hfind'] at hsides
      cases hsides with
      | link hsub =>
        exact (cheaper_forkSides (hfollows.at_names names) hsub List.SublistForall₂.nil).bind
          (fun forks forks' hforks => Cheaper.pure hforks) (regular_forkSides _ _ _ _)
          fun _ => Regular.pure _

lemma cheaper_leaveDirectory :
    Cheaper (FollowsTurn branch branch') (leaveDirectory branch) (leaveDirectory branch') := by
  unfold leaveDirectory
  rw [hfollows.resolved]
  split
  · cases hguest' : branch'.isGuestInfluenced with
    | true =>
      intro c' walked hcost
      obtain ⟨steps, hok⟩ := hcost.afford ⟨c', 0⟩ (Nat.le_refl c')
      cases hok
    | false =>
      have hguest : branch.isGuestInfluenced = false := by
        by_contra hcontra
        rw [hfollows.influenced (eq_true_of_ne_false hcontra)] at hguest'
        cases hguest'
      rw [hguest]
      exact Cheaper.pure List.SublistForall₂.nil
  · exact Cheaper.pure (FollowsAll.singleton (hfollows.at_names _))

variable (hsides : ∀ path, FewerSides (Directory.find links path) (Directory.find links' path))

include hsides

lemma cheaper_enterComponent (component : Text) :
    Cheaper (FollowsTurn branch branch') (enterComponent links resolveComponent branch component)
      (enterComponent links' resolveComponent branch' component) := by
  unfold enterComponent
  rw [hfollows.resolved]
  refine Cheaper.bind (Cheaper.refl _ fun _ => Eq.refl _) (fun _ _ _ => ?_)
    (regular_spendLinkWork (Nat.zero_le _)) fun _ => (regular_fallible _).bind fun _ =>
      (regular_spendLinkWork (Nat.zero_le _)).bind fun _ => regular_crossLink _ _
  refine Cheaper.bind (Cheaper.refl _ fun _ => Eq.refl _) ?_ (regular_fallible _) fun _ =>
    (regular_spendLinkWork (Nat.zero_le _)).bind fun _ => regular_crossLink _ _
  rintro stored _ rfl
  exact Cheaper.bind (Cheaper.refl _ fun _ => Eq.refl _)
    (fun _ _ _ => cheaper_crossLink hfollows (hsides _)) (regular_spendLinkWork (Nat.zero_le _))
    fun _ => regular_crossLink _ _

lemma cheaper_visitComponent (component : Text) :
    Cheaper (FollowsTurn branch branch') (visitComponent links resolveComponent branch component)
      (visitComponent links' resolveComponent branch' component) := by
  refine Cheaper.bind (Cheaper.refl _ fun _ => Eq.refl _) (fun _ _ _ => ?_)
    (regular_spendLinkWork (Nat.le_add_left 1 _)) fun _ => ?_
  · split
    · exact Cheaper.pure (FollowsAll.singleton hfollows)
    · split
      · exact cheaper_leaveDirectory hfollows
      · exact cheaper_enterComponent hfollows hsides component
  · split
    · exact Regular.pure _
    · split
      · exact regular_leaveDirectory _
      · exact regular_enterComponent _ component

lemma cheaper_stepBranch :
    Cheaper FollowsAll (stepBranch links resolveComponent branch)
      (stepBranch links' resolveComponent branch') := by
  unfold stepBranch
  rw [hfollows.pending]
  cases branch'.pending with
  | nil => exact Cheaper.pure List.SublistForall₂.nil
  | cons component pending =>
    have hnext : Follows { branch with pending := pending } { branch' with pending := pending } :=
      { hfollows with pending := rfl }
    exact (cheaper_visitComponent hnext hsides component).bind
      (fun walked walked' hwalked => Cheaper.pure hwalked) (regular_visitComponent _ _)
      fun _ => Regular.pure _

end

/-! ## The whole check -/

lemma Follows.refl (branch : Branch) : Follows branch branch := ⟨rfl, rfl, rfl, id⟩

/-- A check that passed passes again when at every path there are only fewer sides. -/
lemma linkCheck_fewer {source destination destination' : Manifest}
    {resolveComponent : ResolveComponent}
    (hsides : ∀ path, FewerSides (Directory.find (downloadLinks source destination') path)
      (Directory.find (downloadLinks source destination) path))
    (hpaths : (linkPaths source destination').Sublist (linkPaths source destination))
    (h : validateDownloadLinks source destination resolveComponent = .ok ()) :
    validateDownloadLinks source destination' resolveComponent = .ok () := by
  obtain ⟨c, hc, hexplores⟩ := explores_of_linkCheck h
  have hstack : FollowsAll ((linkPaths source destination').map firstBranch)
      ((linkPaths source destination).map firstBranch) :=
    List.sublistForall₂_iff.2
      ⟨_, List.forall₂_same.2 fun branch _ => Follows.refl branch, hpaths.map firstBranch⟩
  obtain ⟨c', hc', hexplores'⟩ :=
    hexplores.cheaper (fun _ _ hfollows => cheaper_stepBranch hfollows hsides) hstack
  exact linkCheck_of_explores (Nat.le_trans hc' hc) hexplores'

/-! ## What a passed check says of one link -/

def exactNames : ResolveComponent :=
  fun _ component => .ok component

/-- The walk of a guest's link starts by checking its target. -/
lemma validTarget_of_linkCheck {source destination : Manifest}
    (hcompatible : Compatible source destination)
    (h : validateDownloadLinks source destination exactNames = .ok ()) {path target : Text}
    (hpath : path ≠ []) {src : SyncEntry} (hget : source.get path = some src)
    (hkind : src.kind = .symlink target) : validateDownloadSymlinkTarget path target = .ok () := by
  obtain ⟨c, -, hexplores⟩ := explores_of_linkCheck h
  have hlink : IsLinkPath source destination path := ⟨src, Or.inl hget, by rw [hkind]; rfl⟩
  have hfirst : firstBranch path ∈ (linkPaths source destination).map firstBranch :=
    List.mem_map_of_mem (mem_linkPaths.2 hlink)
  obtain ⟨cost, next, hcost⟩ := hexplores.forall_mem
    (P := fun branch => ∃ cost next,
      Costs (stepBranch (downloadLinks source destination) exactNames branch)
      cost next) (fun _ cost next hcost _ => ⟨cost, next, hcost⟩) _ hfirst
  obtain ⟨above, last, hnames, hjoin, hbranch⟩ := exists_firstBranch path
  have hproper : ProperName last := by
    refine properName_of_validateRelativePath hpath
      (hcompatible.source_valid _ _ hget).relative last ?_
    simp [hnames]
  rw [hbranch] at hcost
  obtain ⟨walked, hvisit, -⟩ := costs_stepBranch_inv hcost
  have hfind := find_downloadLinks.2 ⟨hlink, rfl⟩
  cases (visits_of_costs hvisit).1 with
  | stays hstays => exact absurd hstays (not_or.2 ⟨hproper.nonempty, hproper.not_dot⟩)
  | up hup _ | leaves hup _ _ => exact absurd hup hproper.not_dotdot
  | enters _ _ hresolve hnone =>
    cases hresolve
    rw [hjoin, hfind] at hnone
    cases hnone
  | crosses _ _ hresolve hsides hforks =>
    cases hresolve
    rw [hjoin, hfind] at hsides
    cases hsides
    have hmem :
        (⟨some target, .guest⟩ : LinkSide) ∈ linkSides (source.get path)
          (destination.get path) := by
      rw [linkSides, guestSide, hget, Option.map_some, hkind]
      exact List.mem_append_left _ List.mem_cons_self
    obtain ⟨fork, hfork, -⟩ := (forkSide_of_forks hforks).2 _ hmem
    simp only [forkSide, decide_true, Bool.or_true] at hfork
    cases hfollow : followsLink (joinPath (above ++ [last])) target 1 true with
    | error e =>
      rw [hfollow] at hfork
      cases hfork
    | ok follows =>
      obtain ⟨-, -, hvalid⟩ := followsLink_influenced hfollow
      rwa [hjoin] at hvalid

end Terrarium.Sync
