import Terrarium.Sync.Links

/-!
# LinkSearch — what the link check visits and what it costs

* `Visits` : what one turn of the walk can do, with all its guards
* `stepBranch` : the walk cut at every component; it explores the same branches at the same cost as
  the walk that runs on to the next link (`explores_stepBranch`, `explores_walkBranch`)
-/

namespace Terrarium.Sync

open Fallible Metered

variable {links : List (Text × List LinkSide)} {resolveComponent : ResolveComponent}
  {c cost : Nat} {next : List Branch} {branch : Branch} {walked : Walked}

/-! ## Regularity -/

lemma regular_spendLinkWork {bytes ticks : Nat} (h : ticks ≤ bytes) :
    Regular .unfinished (spendLinkWork bytes ticks) :=
  Regular.charge (fun heq => LinkError.noConfusion heq) h

lemma regular_fallible {α : Type} (result : Except String α) :
    Regular .unfinished (fallible result) := by
  refine Regular.fromExcept ?_
  cases result with
  | ok a | error e =>
    intro h
    cases h

lemma regular_forkSides (name : Text) (branch : Branch) (sides : List LinkSide)
    (forks : List Branch) : Regular .unfinished (forkSides name branch sides forks) := by
  induction sides generalizing forks with
  | nil => exact Regular.pure forks
  | cons side sides ih =>
    exact (regular_spendLinkWork (Nat.zero_le _)).bind fun _ =>
      (regular_fallible _).bind fun next => ih (next.toList ++ forks)

lemma regular_crossLink (name : Text) (branch : Branch) :
    Regular .unfinished (crossLink links name branch) := by
  unfold crossLink
  cases Directory.find links name with
  | none => exact Regular.pure _
  | some sides => exact (regular_forkSides name branch sides []).bind fun forks => Regular.pure _

lemma regular_enterComponent (branch : Branch) (component : Text) :
    Regular .unfinished (enterComponent links resolveComponent branch component) :=
  (regular_spendLinkWork (Nat.zero_le _)).bind fun _ =>
    (regular_fallible _).bind fun _ =>
      (regular_spendLinkWork (Nat.zero_le _)).bind fun _ => regular_crossLink _ _

lemma regular_leaveDirectory (branch : Branch) : Regular .unfinished (leaveDirectory branch) := by
  unfold leaveDirectory
  split
  · split
    · exact Regular.throw fun heq => LinkError.noConfusion heq
    · exact Regular.pure _
  · exact Regular.pure _

lemma regular_visitComponent (branch : Branch) (component : Text) :
    Regular .unfinished (visitComponent links resolveComponent branch component) := by
  refine (regular_spendLinkWork (Nat.le_add_left 1 _)).bind fun _ => ?_
  split
  · exact Regular.pure _
  · split
    · exact regular_leaveDirectory branch
    · exact regular_enterComponent branch component

lemma regular_walkPending (followed : Nat) (influenced : Bool) (pending resolved : List Text) :
    Regular .unfinished
      (walkPending links resolveComponent followed influenced pending resolved) := by
  induction pending generalizing resolved with
  | nil => exact Regular.pure []
  | cons component pending ih =>
    refine (regular_visitComponent _ component).bind fun walked => ?_
    cases walked with
    | continues resolved => exact ih resolved
    | returns forks => exact Regular.pure forks

lemma regular_walkBranch (branch : Branch) :
    Regular .unfinished (walkBranch links resolveComponent branch) :=
  regular_walkPending _ _ _ _

/-! ## One turn of the walk -/

lemma costs_fallible_inv {α : Type} {result : Except String α} {a : α}
    (h : Costs (fallible result) cost a) : result = .ok a ∧ cost = 0 := by
  cases result with
  | ok a' =>
    obtain ⟨rfl, rfl⟩ := (Costs.pure a').unique h
    exact ⟨rfl, rfl⟩
  | error e =>
    obtain ⟨steps, hok⟩ := h.afford ⟨cost, 0⟩ (Nat.le_refl cost)
    cases hok

/-- The branches a link forks into: each side that is followed, the last one on top. -/
inductive Forks (name : Text) (branch : Branch) : List LinkSide → List Branch →
    List Branch → Prop where
  | nil (forks : List Branch) : Forks name branch [] forks forks
  | cons {side : LinkSide} {sides : List LinkSide} {next : Option Branch}
    {forks forks' : List Branch} :
      forkSide name branch side = .ok next → Forks name branch sides (next.toList ++ forks) forks' →
      Forks name branch (side :: sides) forks forks'

lemma forks_of_costs {name : Text} {sides : List LinkSide} {forks forks' : List Branch} (h : Costs
    (forkSides name branch sides forks) cost forks') :
    Forks name branch sides forks forks' ∧ forks'.length ≤ forks.length + cost := by
  induction sides generalizing forks cost with
  | nil =>
    obtain ⟨rfl, rfl⟩ := (Costs.pure forks).unique h
    exact ⟨Forks.nil _, Nat.le_refl _⟩
  | cons side sides ih =>
    obtain ⟨_, c₁, c₂, hspend, hside, hcost⟩ :=
      (regular_spendLinkWork (Nat.zero_le _)).costs_bind_inv
      (fun _ => (regular_fallible _).bind fun next => regular_forkSides _ _ _ _) h
    obtain ⟨next, c₃, c₄, hnext, hsides, hcost₂⟩ := (regular_fallible _).costs_bind_inv
      (fun next => regular_forkSides _ _ _ _) hside
    obtain ⟨hok, -⟩ := costs_fallible_inv hnext
    obtain ⟨hforks, hlength⟩ := ih hsides
    obtain ⟨-, hc₁⟩ := (Costs.charge _ _ _).unique hspend
    refine ⟨Forks.cons hok hforks, ?_⟩
    have hcopy : 1 ≤ copyBytes name branch.pending side := Nat.le_add_left 1 _
    have hone : next.toList.length ≤ 1 := by cases next <;> simp
    rw [List.length_append] at hlength
    omega

/-- What one turn of the walk does to a branch, by its component. -/
inductive Visits (links : List (Text × List LinkSide)) (resolveComponent : ResolveComponent)
    (branch : Branch) (component : Text) : Walked → Prop where
  | stays : component = [] ∨ component = ['.'] → Visits links resolveComponent branch component
      (.continues branch.resolved)
  | up : component = ['.', '.'] → branch.resolved ≠ [] →
    Visits links resolveComponent branch component
      (.continues branch.resolved.dropLast)
  | leaves : component = ['.', '.'] → branch.resolved = [] → branch.isGuestInfluenced = false →
      Visits links resolveComponent branch component (.returns [])
  | enters {stored : Text} : ¬ (component = [] ∨ component = ['.']) → component ≠ ['.', '.'] →
      resolveComponent (joinPath branch.resolved) component = .ok stored →
      Directory.find links (joinPath (branch.resolved ++ [stored])) = none →
      Visits links resolveComponent branch component (.continues (branch.resolved ++ [stored]))
  | crosses {stored : Text} {sides : List LinkSide} {forks : List Branch} :
      ¬ (component = [] ∨ component = ['.']) → component ≠ ['.', '.'] →
      resolveComponent (joinPath branch.resolved) component = .ok stored →
      Directory.find links (joinPath (branch.resolved ++ [stored])) = some sides →
      Forks (joinPath (branch.resolved ++ [stored]))
        { branch with resolved := branch.resolved ++ [stored] } sides [] forks →
      Visits links resolveComponent branch component (.returns forks)

lemma visits_of_enterComponent {component : Text} (hnames : ¬ (component = [] ∨ component = ['.']))
    (hup : component ≠ ['.', '.'])
    (h : Costs (enterComponent links resolveComponent branch component) cost walked) :
    Visits links resolveComponent branch component walked ∧
      (walked.rec (fun _ => True) fun forks => forks.length ≤ cost) := by
  obtain ⟨_, c₁, c₂, -, hresolve, hcost⟩ := (regular_spendLinkWork (Nat.zero_le _)).costs_bind_inv
    (fun _ => (regular_fallible _).bind fun _ =>
      (regular_spendLinkWork (Nat.zero_le _)).bind fun _ => regular_crossLink _ _) h
  obtain ⟨stored, c₃, c₄, hstored, hpay, hcost₂⟩ := (regular_fallible _).costs_bind_inv
    (fun _ => (regular_spendLinkWork (Nat.zero_le _)).bind fun _ => regular_crossLink _ _) hresolve
  obtain ⟨hok, -⟩ := costs_fallible_inv hstored
  obtain ⟨_, c₅, c₆, -, hcross, hcost₄⟩ := (regular_spendLinkWork (Nat.zero_le _)).costs_bind_inv
    (fun _ => regular_crossLink _ _) hpay
  unfold crossLink at hcross
  split at hcross
  next hfind =>
    obtain ⟨rfl, -⟩ := (Costs.pure _).unique hcross
    exact ⟨Visits.enters hnames hup hok hfind, trivial⟩
  next sides hfind =>
    obtain ⟨forks, c₇, c₈, hforks, hreturn, hcost₆⟩ :=
      (regular_forkSides _ _ sides []).costs_bind_inv (fun _ => Regular.pure _) hcross
    obtain ⟨rfl, -⟩ := (Costs.pure _).unique hreturn
    obtain ⟨hforks, hlength⟩ := forks_of_costs hforks
    refine ⟨Visits.crosses hnames hup hok hfind hforks, ?_⟩
    simp only [List.length_nil] at hlength ⊢
    omega

def Walked.branches (branch : Branch) : Walked → List Branch
  | .continues resolved => [{ branch with resolved := resolved }]
  | .returns forks => forks

lemma visits_of_costs {component : Text}
    (h : Costs (visitComponent links resolveComponent branch component) cost walked) :
    Visits links resolveComponent branch component walked ∧
      (walked.branches branch).length ≤ cost := by
  obtain ⟨_, c₁, c₂, hspend, hturn, hcost⟩ :=
    (regular_spendLinkWork (Nat.le_add_left 1 _)).costs_bind_inv
    (fun _ => by
      split
      · exact Regular.pure _
      · split
        · exact regular_leaveDirectory branch
        · exact regular_enterComponent branch component) h
  obtain ⟨-, hc₁⟩ := (Costs.charge _ _ _).unique hspend
  have hone : 1 ≤ cost := by omega
  split at hturn
  next hstays =>
    obtain ⟨rfl, -⟩ := (Costs.pure _).unique hturn
    exact ⟨Visits.stays hstays, hone⟩
  next hstays =>
    split at hturn
    next hup =>
      rw [leaveDirectory] at hturn
      split at hturn
      next hroot =>
        split at hturn
        · obtain ⟨steps, hok⟩ := hturn.afford ⟨c₂, 0⟩ (Nat.le_refl c₂)
          cases hok
        next hguest =>
          obtain ⟨rfl, -⟩ := (Costs.pure _).unique hturn
          exact ⟨Visits.leaves hup hroot (Bool.eq_false_iff.2 hguest), Nat.zero_le _⟩
      next hroot =>
        obtain ⟨rfl, -⟩ := (Costs.pure _).unique hturn
        exact ⟨Visits.up hup hroot, hone⟩
    next hup =>
      obtain ⟨hvisits, hlength⟩ := visits_of_enterComponent hstays hup hturn
      refine ⟨hvisits, ?_⟩
      cases walked with
      | continues resolved => exact hone
      | returns forks =>
        simp only [Walked.branches] at hlength ⊢
        omega

/-! ## The walk, component by component -/

/-- One turn of the walk as a step of the search: what is left of the walk is back on the stack. -/
def stepBranch (links : List (Text × List LinkSide))
    (resolveComponent : ResolveComponent) (branch : Branch) : Walk (List Branch) :=
  match branch.pending with
  | [] => pure []
  | component :: pending => do
      let walked ← visitComponent links resolveComponent
        { branch with pending := pending } component
      return walked.branches { branch with pending := pending }

section Turns

variable {followed : Nat} {influenced : Bool} {component : Text} {pending resolved : List Text}

lemma costs_stepBranch
    (h : Costs (visitComponent links resolveComponent ⟨resolved, pending, followed, influenced⟩
      component) c walked) :
    Costs (stepBranch links resolveComponent
      ⟨resolved, component :: pending, followed, influenced⟩) c
      (walked.branches ⟨resolved, pending, followed, influenced⟩) := by
  have hreturn :
      Costs (pure (walked.branches ⟨resolved, pending, followed, influenced⟩) : Walk _) 0 _ :=
    Costs.pure _
  exact h.bind
    (f := fun walked => pure (walked.branches ⟨resolved, pending, followed, influenced⟩)) hreturn

lemma costs_stepBranch_inv
    (h : Costs (stepBranch links resolveComponent
      ⟨resolved, component :: pending, followed, influenced⟩) c next) :
    ∃ walked, Costs (visitComponent links resolveComponent ⟨resolved, pending, followed, influenced⟩
      component) c walked ∧ next = walked.branches ⟨resolved, pending, followed, influenced⟩ := by
  obtain ⟨walked, k, k', hvisit, hreturn, hsum⟩ :=
    (regular_visitComponent _ component).costs_bind_inv (fun walked => Regular.pure _) h
  obtain ⟨rfl, rfl⟩ := (Costs.pure _).unique hreturn
  rw [hsum]
  exact ⟨walked, hvisit, rfl⟩

lemma costs_walkPending_continues {resolved' : List Text} {c' : Nat}
    (h : Costs (visitComponent links resolveComponent ⟨resolved, pending, followed, influenced⟩
      component) c (.continues resolved'))
    (hrest : Costs (walkPending links resolveComponent followed influenced pending resolved')
      c' next) :
    Costs (walkPending links resolveComponent followed influenced (component :: pending) resolved)
      (c + c') next := by
  rw [walkPending]
  exact h.bind hrest

lemma costs_walkPending_returns {forks : List Branch}
    (h : Costs (visitComponent links resolveComponent ⟨resolved, pending, followed, influenced⟩
      component) c (.returns forks)) :
    Costs (walkPending links resolveComponent followed influenced (component :: pending) resolved)
      c forks := by
  have hreturn : Costs (pure forks : Walk (List Branch)) 0 forks := Costs.pure forks
  have hbind := h.bind (f := fun walked => match walked with
    | .continues resolved => walkPending links resolveComponent followed influenced pending resolved
    | .returns forks => pure forks) hreturn
  exact hbind

lemma costs_walkPending_inv
    (h : Costs (walkPending links resolveComponent followed influenced
      (component :: pending) resolved) c next) :
    (∃ resolved' c₁ c₂, c = c₁ + c₂ ∧
      Costs (visitComponent links resolveComponent ⟨resolved, pending, followed, influenced⟩
        component) c₁ (.continues resolved') ∧
      Costs (walkPending links resolveComponent followed influenced pending resolved') c₂ next) ∨
    Costs (visitComponent links resolveComponent ⟨resolved, pending, followed, influenced⟩
      component) c (.returns next) := by
  obtain ⟨walked, c₁, c₂, hvisit, hrest, hsum⟩ :=
    (regular_visitComponent _ component).costs_bind_inv
    (fun walked => by
      cases walked with
      | continues resolved => exact regular_walkPending _ _ _ _
      | returns forks => exact Regular.pure _) h
  cases walked with
  | continues resolved' => exact Or.inl ⟨resolved', c₁, c₂, hsum, hvisit, hrest⟩
  | returns forks =>
    obtain ⟨rfl, rfl⟩ := (Costs.pure forks).unique hrest
    rw [hsum]
    exact Or.inr hvisit

lemma paid_walkPending
    (h : Costs (walkPending links resolveComponent followed influenced pending resolved)
      cost next) :
    next.length ≤ cost := by
  induction pending generalizing resolved cost with
  | nil =>
    obtain ⟨rfl, -⟩ := (Costs.pure []).unique h
    exact Nat.zero_le _
  | cons component pending ih =>
    rcases costs_walkPending_inv h with ⟨resolved', c₁, c₂, rfl, -, hrest⟩ | hvisit
    · exact Nat.le_trans (ih hrest) (Nat.le_add_left c₂ c₁)
    · exact (visits_of_costs hvisit).2

lemma paid_walkBranch : Paid (walkBranch links resolveComponent) := by
  intro branch cost next h
  exact paid_walkPending h

lemma explores_of_walkPending
    (h : Costs (walkPending links resolveComponent followed influenced pending resolved) cost next)
    (hnext : Explores (stepBranch links resolveComponent) next c) :
    Explores (stepBranch links resolveComponent) [⟨resolved, pending, followed, influenced⟩]
      (cost + c) := by
  induction pending generalizing resolved cost with
  | nil =>
    obtain ⟨rfl, rfl⟩ := (Costs.pure []).unique h
    exact Explores.cons (Costs.pure []) hnext Explores.nil
  | cons component pending ih =>
    rcases costs_walkPending_inv h with ⟨resolved', c₁, c₂, rfl, hvisit, hrest⟩ | hvisit
    · have hexplores := Explores.cons (costs_stepBranch hvisit) (ih hrest) Explores.nil
      rwa [Nat.add_zero, ← Nat.add_assoc] at hexplores
    · exact Explores.cons (costs_stepBranch hvisit) hnext Explores.nil

end Turns

theorem explores_stepBranch {stack : List Branch}
    (h : Explores (walkBranch links resolveComponent) stack c) :
    Explores (stepBranch links resolveComponent) stack c := by
  induction h with
  | nil => exact Explores.nil
  | cons hcost _ _ ihnext ihrest => exact (explores_of_walkPending hcost ihnext).append ihrest

theorem explores_walkBranch {stack : List Branch}
    (h : Explores (stepBranch links resolveComponent) stack c) :
    Explores (walkBranch links resolveComponent) stack c := by
  induction h with
  | nil => exact Explores.nil
  | @cons item next rest cost c₁ c₂ hcost hnext hrest ihnext ihrest =>
    rcases item with ⟨resolved, _ | ⟨component, pending⟩, followed, influenced⟩
    · obtain ⟨rfl, rfl⟩ := (Costs.pure []).unique hcost
      exact Explores.cons (Costs.pure []) ihnext ihrest
    · obtain ⟨walked, hvisit, rfl⟩ := costs_stepBranch_inv hcost
      cases walked with
      | returns forks => exact Explores.cons (costs_walkPending_returns hvisit) ihnext ihrest
      | continues resolved' =>
        -- the walk goes on with the branch the turn left on top of the stack
        cases ihnext with
        | cons hcost' hnext' hrest' =>
          cases hrest'
          have hcosts : Costs (walkBranch links resolveComponent
              ⟨resolved, component :: pending, followed, influenced⟩) _ _ :=
            costs_walkPending_continues hvisit hcost'
          have hwalk := Explores.cons hcosts hnext' ihrest
          simpa only [Nat.add_zero, Nat.add_assoc] using hwalk

/-! ## The whole check -/

theorem explores_of_validateLinks {paths : List Text} {work work' : Work}
    (h : validateLinks links resolveComponent paths work = .ok () work') :
    ∃ c, Explores (walkBranch links resolveComponent) (paths.map firstBranch) c ∧
      c + work'.remaining = work.remaining := by
  induction paths generalizing work with
  | nil =>
    cases h
    exact ⟨0, Explores.nil, Nat.zero_add _⟩
  | cons path paths ih =>
    obtain ⟨_, between, hpath, hpaths⟩ := bind_eq_ok.1 h
    obtain ⟨c₁, hfirst, hsum₁⟩ := explores_of_drain regular_walkBranch hpath
    obtain ⟨c₂, hrest, hsum₂⟩ := ih hpaths
    exact ⟨c₁ + c₂, hfirst.append hrest, by omega⟩

theorem validateLinks_of_explores {paths : List Text}
    (h : Explores (walkBranch links resolveComponent) (paths.map firstBranch) c) {work : Work}
    (hc : c ≤ work.remaining) :
    ∃ steps, validateLinks links resolveComponent paths work =
      .ok () ⟨work.remaining - c, steps⟩ := by
  induction paths generalizing work c with
  | nil =>
    cases h
    exact ⟨work.steps, rfl⟩
  | cons path paths ih =>
    rw [List.map_cons, ← List.singleton_append] at h
    obtain ⟨c₁, c₂, hfirst, hrest, rfl⟩ := h.split
    obtain ⟨steps₁, hpath⟩ : ∃ steps, validateLinkResolutions links resolveComponent path work =
        .ok () ⟨work.remaining - c₁, steps⟩ :=
      drain_of_explores paid_walkBranch hfirst (by omega) (Nat.le_refl _)
    have hc₂ : c₂ ≤ (⟨work.remaining - c₁, steps₁⟩ : Work).remaining := by
      simp only []
      omega
    obtain ⟨steps₂, hpaths⟩ := ih hrest hc₂
    refine ⟨steps₂, bind_eq_ok.2 ⟨(), _, hpath, ?_⟩⟩
    rw [hpaths, Nat.sub_sub]

lemma validateLinks_finishes (paths : List Text) (work work' : Work) :
    validateLinks links resolveComponent paths work ≠ .error .unfinished work' := by
  induction paths generalizing work with
  | nil =>
    intro h
    cases h
  | cons path paths ih =>
    intro h
    rw [validateLinks, bind_apply] at h
    split at h
    next between _ => exact ih between h
    next e between hpath =>
      cases h
      exact drain_finishes regular_walkBranch paid_walkBranch (Nat.le_refl _)
        (show drain _ _ (work.remaining + [firstBranch path].length) _ work = _ from hpath)

lemma validateLinks_frugal (links : List (Text × List LinkSide))
    (resolveComponent : ResolveComponent) (paths : List Text) (work : Work) :
    (account (validateLinks links resolveComponent paths work)).steps +
      (account (validateLinks links resolveComponent paths work)).remaining ≤
      work.steps + work.remaining := by
  induction paths generalizing work with
  | nil => exact Nat.le_refl _
  | cons path paths ih =>
    have hregular : ∀ branch, Regular .unfinished (walkBranch links resolveComponent branch) :=
      regular_walkBranch
    have hfirst := drain_frugal hregular (work.remaining + 1) [firstBranch path] work
    rw [validateLinks, bind_apply]
    cases hpath : validateLinkResolutions links resolveComponent path work with
    | error e between =>
      rw [validateLinkResolutions] at hpath
      rw [hpath] at hfirst
      exact hfirst
    | ok _ between =>
      rw [validateLinkResolutions] at hpath
      rw [hpath] at hfirst
      exact Nat.le_trans (ih between) hfirst

theorem linkCheck_finishes (source destination : Manifest) (resolveComponent : ResolveComponent) :
    validateDownloadLinks source destination resolveComponent ≠ .error .unfinished := by
  intro h
  unfold validateDownloadLinks at h
  split at h
  · cases h
  next e work hrun =>
    cases h
    exact validateLinks_finishes _ _ _ hrun

theorem linkCheck_steps_le (source destination : Manifest) (resolveComponent : ResolveComponent) :
    (account (runLinkCheck source destination resolveComponent)).steps ≤ maxSyncLinkWorkBytes := by
  have h := validateLinks_frugal (downloadLinks source destination) resolveComponent
    (linkPaths source destination) ⟨maxSyncLinkWorkBytes, 0⟩
  exact Nat.le_trans (Nat.le_add_right _ _) h

/-- A check that passed was affordable. -/
lemma explores_of_linkCheck {source destination : Manifest}
    (h : validateDownloadLinks source destination resolveComponent = .ok ()) :
    ∃ c ≤ maxSyncLinkWorkBytes,
    Explores (stepBranch (downloadLinks source destination) resolveComponent)
      ((linkPaths source destination).map firstBranch) c := by
  unfold validateDownloadLinks at h
  split at h
  next work hrun =>
    obtain ⟨c, hexplores, hsum⟩ := explores_of_validateLinks hrun
    simp only [] at hsum
    exact ⟨c, by omega, explores_stepBranch hexplores⟩
  · cases h

lemma linkCheck_of_explores {source destination : Manifest} (hc : c ≤ maxSyncLinkWorkBytes)
    (h : Explores (stepBranch (downloadLinks source destination) resolveComponent)
      ((linkPaths source destination).map firstBranch) c) :
    validateDownloadLinks source destination resolveComponent = .ok () := by
  obtain ⟨steps, hrun⟩ : ∃ steps, runLinkCheck source destination resolveComponent =
      .ok () ⟨maxSyncLinkWorkBytes - c, steps⟩ :=
    validateLinks_of_explores (explores_walkBranch h) hc
  rw [validateDownloadLinks, hrun]

end Terrarium.Sync
