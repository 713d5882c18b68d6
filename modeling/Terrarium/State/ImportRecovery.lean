import Terrarium.State.ImportFiles

/-!
# ImportRecovery — what an interrupted import leaves, and how recovery ends it

Recovery decides from the journal and from the files that exist.

* `Undoable` — what undoing relies on: for every journaled file the original is in place or beside
  the staged files, and a file that was missing is missing still or no longer staged;
* `Committed` — what finishing relies on: the new files are in place and only the setup stamp is
  open;
* `Safe` — the phases the disk can be in between two operations;
* `ensures_recoverImport` — recovery keeps the phases, however often it is interrupted, and when it
  completes there is nothing left to do.
-/

namespace Terrarium.State

open Faults Prog Directory

variable {C : Type}

section Phases

variable (d₀ : Disk C) (dir : Text) (files : List (StagedImportFile C)) (digest : C → C)

/-! ## What recovery can undo -/

/-- Entries a commit could have journaled for the original disk. -/
structure Journaled (entries : List ImportEntry) : Prop where
  existed : ∀ e ∈ entries, e.existed = (d₀.box e.file).isSome
  named : ∀ e ∈ entries, findJournaledFile e.file = some e.file
  distinct : (entries.map ImportEntry.file).Nodup

/-- Every original is in place or backed up, and a file that was missing is missing still unless it
was moved there from the staged files. -/
structure Undoable (entries : List ImportEntry) (d : Disk C) : Prop where
  journal : d.journal = some { staging := dir, entries, committed := false }
  framed : ∀ other, other ≠ dir → d.dirs other = d₀.dirs other
  existed : ∀ i e old, entries[i]? = some e → d₀.box e.file = some old →
    d.get (.staged dir (original i)) = some old ∨
      (d.get (.staged dir (original i)) = none ∧ d.get (.live e.file) = some old)
  missing : ∀ e ∈ entries, d₀.box e.file = none →
    d.get (.live e.file) = none ∨ d.get (.staged dir e.file) = none
  others : ∀ name, (∀ e ∈ entries, e.file ≠ name) → d.get (.live name) = d₀.box name

/-- The first `count` entries are undone. -/
def Restored (entries : List ImportEntry) (count : Nat) (d : Disk C) : Prop :=
  ∀ i e, entries[i]? = some e → i < count → d.get (.live e.file) = d₀.box e.file

/-- What recovery keeps while it works through the entries. -/
abbrev Undoing (entries : List ImportEntry) (count : Nat) (d : Disk C) : Prop :=
  Undoable d₀ dir entries d ∧ Restored d₀ entries count d

/-- Undoing, with the backup of the next entry still there. -/
abbrev BackedUp (entries : List ImportEntry) (count : Nat) (old : C) (d : Disk C) : Prop :=
  Undoing d₀ dir entries count d ∧ d.get (.staged dir (original count)) = some old

def Unchanged (d : Disk C) : Prop :=
  (∀ name, d.get (.live name) = d₀.box name) ∧ ∀ other, other ≠ dir → d.dirs other = d₀.dirs other

/-- No import is under way and none has changed anything. -/
structure Idle (d : Disk C) : Prop where
  journal : d.journal = none
  unchanged : Unchanged d₀ dir d
  staging : d.dirs dir = none

/-! ## What a commit leaves -/

def journalEntries : List ImportEntry :=
  files.map fun file => { file := file.name, existed := (d₀.box file.name).isSome }

/-- The staged files are in place and nothing else changed but, possibly, the setup stamp. -/
structure Replaced (d : Disk C) : Prop where
  contents : ∀ file ∈ files, d.get (.live file.name) = some file.contents
  others : ∀ name, (∀ file ∈ files, file.name ≠ name) → name ≠ setupStamp →
    d.get (.live name) = d₀.box name
  framed : ∀ other, other ≠ dir → d.dirs other = d₀.dirs other

/-- The stamp is that of the recipe, if the import brought one. -/
def Stamped (d : Disk C) : Prop :=
  d.get (.live setupStamp) =
    if recipeFile ∈ files.map StagedImportFile.name then
      (d.get (.live recipeFile)).map digest
    else
      d₀.box setupStamp

/-- The swap is done and journaled. -/
structure Committed (d : Disk C) : Prop where
  journal : d.journal =
    some { staging := dir, entries := journalEntries d₀ files, committed := true }
  replaced : Replaced d₀ dir files d
  stamp : d.get (.live setupStamp) = d₀.box setupStamp ∨ Stamped d₀ files digest d

structure Finished (d : Disk C) : Prop where
  journal : d.journal = none
  replaced : Replaced d₀ dir files d
  stamped : Stamped d₀ files digest d
  staging : d.dirs dir = none

/-- Between two operations the disk is in one of four phases. -/
inductive Safe (t : Trail (Disk C)) : Prop where
  | idle : On False (Idle d₀ dir) t → Safe t
  | undoable {entries : List ImportEntry} : Journaled d₀ entries →
      On False (Undoable d₀ dir entries) t → Safe t
  | committed : On True (Committed d₀ dir files digest) t → Safe t
  | finished : On True (Finished d₀ dir files digest) t → Safe t

/-- Nothing is left to do. -/
def Settled (t : Trail (Disk C)) : Prop :=
  On False (Idle d₀ dir) t ∨ On True (Finished d₀ dir files digest) t

end Phases

variable {d₀ : Disk C} {dir : Text} {files : List (StagedImportFile C)} {digest : C → C}
  {entries : List ImportEntry} {e : ImportEntry} {count : Nat} {d : Disk C}

lemma index_unique {α β : Type} {key : α → β} {xs : List α} (hnodup : (xs.map key).Nodup)
    {i j : Nat} {x y : α}
    (hi : xs[i]? = some x) (hj : xs[j]? = some y) (hkey : key y = key x) : j = i := by
  have hi' : (xs.map key)[i]? = some (key x) := by
    rw [List.getElem?_map, hi, Option.map_some]
  have hj' : (xs.map key)[j]? = some (key x) := by
    rw [List.getElem?_map, hj, Option.map_some, hkey]
  have hlt : j < (xs.map key).length := (List.getElem?_eq_some_iff.1 hj').1
  exact (List.getElem?_inj hlt hnodup).1 (hj'.trans hi'.symm)

lemma Journaled.ne_original (h : Journaled d₀ entries) (he : e ∈ entries) (i : Nat) :
    e.file ≠ original i := by
  intro hfile
  refine (findJournaledFile_eq_some (h.named e he)).2.1 ?_
  rw [hfile, original_eq_cons, List.head?_cons]

namespace Restored

lemma succ (h : Restored d₀ entries count d) (he : entries[count]? = some e)
    (hlive : d.get (.live e.file) = d₀.box e.file) : Restored d₀ entries (count + 1) d := by
  intro i e' he' hi
  rcases Nat.lt_succ_iff_lt_or_eq.1 hi with hi | rfl
  · exact h i e' he' hi
  · rw [he, Option.some.injEq] at he'
    exact he' ▸ hlive

lemma put_staged {name : Text} (h : Restored d₀ entries count d) (contents : Option C) :
    Restored d₀ entries count (d.put (.staged dir name) contents) := by
  intro i e' he' hi
  simpa [Disk.get_put] using h i e' he' hi

end Restored

/-! ## Recovery -/

section Entry

variable (hentries : Journaled d₀ entries) (he : entries[count]? = some e)

include hentries he

lemma Undoable.remove_live (h : Undoable d₀ dir entries d)
    (hbackup : ∀ old, d₀.box e.file = some old → d.get (.staged dir (original count)) = some old) :
    Undoable d₀ dir entries (d.put (.live e.file) none) where
  journal := by
    rw [Disk.journal_put, h.journal]
  framed := h.framed
  existed := by
    intro i e' old he' hold
    by_cases hfile : e'.file = e.file
    · have hindex := index_unique hentries.distinct he he' hfile
      subst hindex
      exact Or.inl (hbackup old (hfile ▸ hold))
    · simpa [Disk.get_put, hfile] using h.existed i e' old he' hold
  missing := by
    intro e' he' hmissing
    by_cases hfile : e'.file = e.file
    · simp [Disk.get_put, hfile]
    · simpa [Disk.get_put, hfile] using h.missing e' he' hmissing
  others := by
    intro name hname
    have hne : name ≠ e.file := fun heq => hname e (List.mem_of_getElem? he) heq.symm
    simpa [Disk.get_put, hne] using h.others name hname

lemma Undoable.restore (h : Undoable d₀ dir entries d) {old : C} (hold : d₀.box e.file = some old) :
    Undoable d₀ dir entries ((d.put (.staged dir (original count)) none).put (.live e.file)
      (some old)) where
  journal := by
    rw [Disk.journal_put, Disk.journal_put, h.journal]
  framed := by
    intro other hother
    rw [Disk.dirs_put_live, Disk.dirs_put_staged_of_ne hother, h.framed other hother]
  existed := by
    intro i e' old' he' hold'
    by_cases hfile : e'.file = e.file
    · have hindex := index_unique hentries.distinct he he' hfile
      subst hindex
      rw [hfile, hold, Option.some.injEq] at hold'
      subst hold'
      exact Or.inr ⟨by simp [Disk.get_put], by simp [Disk.get_put, hfile]⟩
    · have hindex : original i ≠ original count := by
        intro heq
        have hi := original_injective heq
        subst hi
        exact hfile (congrArg ImportEntry.file (Option.some.inj (he'.symm.trans he)))
      simpa [Disk.get_put, hfile, hindex] using h.existed i e' old' he' hold'
  missing := by
    intro e' he' hmissing
    have hfile : e'.file ≠ e.file := by
      intro heq
      rw [heq, hold] at hmissing
      cases hmissing
    have hname : e'.file ≠ original count := hentries.ne_original he' count
    simpa [Disk.get_put, hfile, hname] using h.missing e' he' hmissing
  others := by
    intro name hname
    have hne : name ≠ e.file := fun heq => hname e (List.mem_of_getElem? he) heq.symm
    simpa [Disk.get_put, hne] using h.others name hname

lemma Restored.put_live (h : Restored d₀ entries count d) (contents : Option C) :
    Restored d₀ entries count (d.put (.live e.file) contents) := by
  intro i e' he' hi
  have hfile : e'.file ≠ e.file := by
    intro heq
    exact absurd (index_unique hentries.distinct he he' heq) (Nat.ne_of_lt hi)
  simpa [Disk.get_put, hfile] using h i e' he' hi

lemma ensures_recoverEntry :
    EndsOr (On False (Undoing d₀ dir entries count)) (recoverEntry dir (e, count) : Files C Unit)
      (fun _ => On False (Undoing d₀ dir entries (count + 1)))
      (On False (Undoable d₀ dir entries)) := by
  have hmem := List.mem_of_getElem? he
  simp only [recoverEntry, hentries.named e hmem]
  refine Ensures.bind (ensures_isPresent fun d hd => hd.1) fun hasBackup => ?_
  cases hold : d₀.box e.file with
  | some old =>
    have hexisted : e.existed = true := by
      rw [hentries.existed e hmem, hold, Option.isSome_some]
    cases hasBackup with
    | true =>
      -- The backup holds the original, whatever stands in its place now.
      simp only [hexisted, Bool.and_self, if_true]
      have hremove : EndsOr (On False (BackedUp d₀ dir entries count old))
          (removeFileIfPresent (.live e.file) : Files C Unit)
          (fun _ => On False (BackedUp d₀ dir entries count old))
            (On False (Undoable d₀ dir entries)) := by
        refine ensures_removeFileIfPresent (fun d hd => hd.1.1) ?_ fun d hd _ => hd
        rintro d ⟨⟨hundo, hrestored⟩, hb⟩
        refine ⟨⟨hundo.remove_live hentries he fun old' hold' => ?_,
          hrestored.put_live hentries he none⟩, by simpa [Disk.get_put] using hb⟩
        rw [hb, ← hold, hold']
      refine Ensures.mono (Ensures.bind hremove fun _ => ensures_rename (fun d hd => hd.1.1) ?_)
        (fun t ht => ht.mono ?_) (fun _ _ h => h) (fun _ _ h => h) (fun _ h => h)
      · rintro d contents ⟨⟨hundo, hrestored⟩, hb⟩ hget -
        rw [hb, Option.some.injEq] at hget
        subst hget
        refine ⟨hundo.restore hentries he hold, ?_⟩
        refine ((hrestored.put_staged none).put_live hentries he (some old)).succ he ?_
        simp [Disk.get_put, hold]
      · rintro d ⟨hd, hpresent⟩
        rcases hd.1.existed count e old he hold with hbackup | ⟨hnone, -⟩
        · exact ⟨hd, hbackup⟩
        · rw [hnone] at hpresent
          cases hpresent
    | false =>
      simp only [hexisted, Bool.and_false, Bool.not_true]
      refine Ensures.pure fun t ht => ht.mono ?_
      rintro d ⟨⟨hundo, hrestored⟩, habsent⟩
      refine ⟨hundo, hrestored.succ he ?_⟩
      rcases hundo.existed count e old he hold with hbackup | ⟨-, hlive⟩
      · rw [hbackup] at habsent
        cases habsent
      · rw [hlive, hold]
  | none =>
    have hexisted : e.existed = false := by
      rw [hentries.existed e hmem, hold, Option.isSome_none]
    simp only [hexisted, Bool.false_and, Bool.not_false, if_true]
    have hattempt : EndsOr (On False fun d => Undoing d₀ dir entries count d ∧
          hasBackup = (d.get (.staged dir (original count))).isSome)
        (attempt (isPresent (.staged dir e.file)) : Files C _)
        (fun staged => On False fun d => Undoing d₀ dir entries count d ∧
          (staged = .ok true → (d.get (.staged dir e.file)).isSome))
        (On False (Undoable d₀ dir entries)) := by
      refine Ensures.attempt (Ensures.weaken (ensures_isPresent fun d hd => hd.1)
        ?_ ?_ (fun _ h => h.mono fun d hd => hd.1))
      · intro present t ht
        refine ht.mono fun d hd => ⟨hd.1.1, fun hpresent => ?_⟩
        cases hpresent
        exact hd.2.symm
      · intro failure t ht
        exact ht.mono fun d hd => ⟨hd, nofun⟩
    refine Ensures.bind hattempt fun staged => ?_
    split
    · -- Still staged: it was never moved into place.
      refine Ensures.pure fun t ht => ht.mono ?_
      rintro d ⟨⟨hundo, hrestored⟩, hstaged⟩
      refine ⟨hundo, hrestored.succ he ?_⟩
      rcases hundo.missing e hmem hold with hlive | hgone
      · rw [hlive, hold]
      · have hpresent := hstaged rfl
        rw [hgone] at hpresent
        cases hpresent
    · refine ensures_removeFileIfPresent (fun d hd => hd.1.1) ?_ ?_
      · rintro d ⟨⟨hundo, hrestored⟩, -⟩
        refine ⟨hundo.remove_live hentries he fun old' hold' => ?_,
          (hrestored.put_live hentries he none).succ he (by simp [Disk.get_put, hold])⟩
        rw [hold] at hold'
        cases hold'
      · rintro d ⟨⟨hundo, hrestored⟩, -⟩ habsent
        exact ⟨hundo, hrestored.succ he (habsent.trans hold.symm)⟩

end Entry

lemma Undoable.unchanged (h : Undoable d₀ dir entries d) (hcount : entries.length ≤ count)
    (hrestored : Restored d₀ entries count d) : Unchanged d₀ dir d := by
  refine ⟨fun name => ?_, h.framed⟩
  by_cases hname : ∃ e ∈ entries, e.file = name
  · obtain ⟨e, he, rfl⟩ := hname
    obtain ⟨i, hi⟩ := List.getElem?_of_mem he
    exact hrestored i e hi (Nat.lt_of_lt_of_le (List.getElem?_eq_some_iff.1 hi).1 hcount)
  · exact h.others name fun e he heq => hname ⟨e, he, heq⟩

/-- Once the box is as it was, what is left in the staging directory does not matter. -/
lemma Undoable.setDir (h : Undoable d₀ dir entries d) (hunchanged : Unchanged d₀ dir d)
    {staged : Option (List (Text × C))}
    (hstaged : ∀ name, (d.setDir dir staged).get (.staged dir name) = d.get (.staged dir name) ∨
      (d.setDir dir staged).get (.staged dir name) = none) :
    Undoable d₀ dir entries (d.setDir dir staged) ∧ Unchanged d₀ dir (d.setDir dir staged) := by
  have hframed : ∀ other, other ≠ dir → (d.setDir dir staged).dirs other = d₀.dirs other := by
    intro other hother
    simpa [Disk.setDir, hother] using h.framed other hother
  refine ⟨{ h with framed := hframed, existed := ?_, missing := ?_ }, hunchanged.1, hframed⟩
  · intro i e old he hold
    have hlive : (d.setDir dir staged).get (.live e.file) = some old :=
      (hunchanged.1 e.file).trans hold
    rcases hstaged (original i) with hsame | hgone
    · rw [hsame]
      rcases h.existed i e old he hold with hbackup | ⟨hnone, -⟩
      · exact Or.inl hbackup
      · exact Or.inr ⟨hnone, hlive⟩
    · exact Or.inr ⟨hgone, hlive⟩
  · intro e _ hmissing
    exact Or.inl ((hunchanged.1 e.file).trans hmissing)

/-- Removing the staging directory, whole or in part, only makes staged files disappear. -/
lemma Disk.get_setDir_keep (kept : Text → Bool) (name : Text) :
    (d.setDir dir ((d.dirs dir).map (keep kept))).get (.staged dir name) =
    d.get (.staged dir name) ∨
      (d.setDir dir ((d.dirs dir).map (keep kept))).get (.staged dir name) = none := by
  cases hdir : d.dirs dir with
  | none => simp [Disk.get, Disk.setDir, hdir]
  | some staged => cases hkept : kept name <;> simp [Disk.get, Disk.setDir, hdir, find_keep, hkept]

lemma Disk.get_setDir_none (name : Text) : (d.setDir dir none).get (.staged dir name) = none := by
  simp [Disk.get, Disk.setDir]

lemma ensures_undoEntries (hentries : Journaled d₀ entries) :
    EndsOr (On False (Undoable d₀ dir entries))
      (each (recoverEntry dir) entries.zipIdx : Files C Unit)
      (fun _ => On False fun d => Undoable d₀ dir entries d ∧ Unchanged d₀ dir d)
      (On False (Undoable d₀ dir entries)) := by
  have hloop : EndsOr (On False (Undoing d₀ dir entries 0))
      (each (recoverEntry dir) entries.zipIdx : Files C Unit)
      (fun _ => On False (Undoing d₀ dir entries entries.zipIdx.length))
      (On False (Undoable d₀ dir entries)) := by
    refine Ensures.each_count
      (fun count => On False (Undoing d₀ dir entries count)) _ ?_
    intro i indexed hindexed
    obtain ⟨e, he, rfl⟩ : ∃ e, entries[i]? = some e ∧ (e, i) = indexed := by
      simpa [List.getElem?_zipIdx] using hindexed
    exact ensures_recoverEntry hentries he
  refine Ensures.mono hloop ?_ ?_ (fun _ _ h => h) (fun _ h => h)
  · intro t ht
    exact ht.mono fun d hd => ⟨hd, fun i e _ hi => absurd hi (Nat.not_lt_zero i)⟩
  · intro _ t ht
    refine ht.mono fun d hd => ⟨hd.1, hd.1.unchanged (Nat.le_refl _) ?_⟩
    simpa using hd.2

/-- The end of a recovery: the staging directory goes, then the journal. -/
lemma ensures_removeStaging {seen : Prop} {P X Q : Disk C → Prop} (hX : ∀ d, P d → X d)
    (hnone : ∀ d, P d → P (d.setDir dir none))
    (hkeep : ∀ d kept, P d → P (d.setDir dir ((d.dirs dir).map (keep kept))))
    (hQ : ∀ d, P d → d.dirs dir = none → Q { d with journal := none }) :
    EndsOr (On seen P) (do ifPresent (removeDirAll dir); removeJournal : Files C Unit)
      (fun _ => On seen Q) (On seen X) := by
  have hremove : EndsOr (On seen P) (ifPresent (removeDirAll dir) : Files C Unit)
      (fun _ => On seen fun d => P d ∧ d.dirs dir = none) (On seen X) :=
    ensures_removeDirAll hX (fun d hd => ⟨hnone d hd, by simp [Disk.setDir]⟩)
      (fun d hd hgone => ⟨hd, hgone⟩) hkeep
  exact Ensures.bind hremove fun _ => ensures_removeJournal (fun d hd => hX d hd.1) fun d hd =>
    hQ d hd.1 hd.2

/-- Recovery of an import whose swap was not journaled as done restores the box. -/
lemma ensures_recoverRecord_undo (hentries : Journaled d₀ entries) :
    EndsOr (On False (Undoable d₀ dir entries))
      (recoverRecord digest { staging := dir, entries, committed := false })
      (fun _ => On False (Idle d₀ dir)) (On False (Undoable d₀ dir entries)) := by
  unfold recoverRecord
  split
  · refine Ensures.bind (ensures_undoEntries hentries) fun _ => ?_
    refine ensures_removeStaging (fun d hd => hd.1) ?_ ?_ ?_
    · rintro d ⟨hundo, hunchanged⟩
      exact hundo.setDir hunchanged fun name => Or.inr (Disk.get_setDir_none name)
    · rintro d kept ⟨hundo, hunchanged⟩
      exact hundo.setDir hunchanged (Disk.get_setDir_keep kept)
    · rintro d ⟨-, hunchanged⟩ hgone
      exact ⟨rfl, hunchanged, hgone⟩
  · exact Ensures.throw fun t ht => ht

lemma mem_journalEntries_recipe :
    ((journalEntries d₀ files).any fun entry => entry.file = recipeFile) = true ↔
      recipeFile ∈ files.map StagedImportFile.name := by
  simp [journalEntries]

lemma recipe_ne_stamp : recipeFile ≠ setupStamp := by
  decide

lemma Committed.stamp_recipe (h : Committed d₀ dir files digest d)
    (hrecipe : recipeFile ∈ files.map StagedImportFile.name) {recipe : C}
    (hread : d.get (.live recipeFile) = some recipe) :
    Committed d₀ dir files digest (d.put (.live setupStamp) (some (digest recipe))) ∧
      Stamped d₀ files digest (d.put (.live setupStamp) (some (digest recipe))) := by
  have hstamped : Stamped d₀ files digest (d.put (.live setupStamp) (some (digest recipe))) := by
    simp [Stamped, hrecipe, Disk.get_put, recipe_ne_stamp, hread]
  refine ⟨⟨?_, ⟨?_, ?_, h.replaced.framed⟩, Or.inr hstamped⟩, hstamped⟩
  · rw [Disk.journal_put, h.journal]
  · intro file hfile
    simpa [Disk.get_put, file.name_ne_stamp] using h.replaced.contents file hfile
  · intro name hname hstamp
    simpa [Disk.get_put, hstamp] using h.replaced.others name hname hstamp

lemma ensures_finishCommitted : EndsOr (On True (Committed d₀ dir files digest))
    (finishCommitted digest
        { staging := dir, entries := journalEntries d₀ files, committed := true })
      (fun _ => On True fun d => Committed d₀ dir files digest d ∧ Stamped d₀ files digest d)
      (On True (Committed d₀ dir files digest)) := by
  unfold finishCommitted
  split
  case isTrue hany =>
    have hrecipe := mem_journalEntries_recipe.1 hany
    have hwrite : EndsOr (On True (Committed d₀ dir files digest)) (writeSetupStamp digest)
        (fun _ => On True fun d => Committed d₀ dir files digest d ∧ Stamped d₀ files digest d)
        (On True (Committed d₀ dir files digest)) := by
      refine Ensures.bind (ensures_readFile fun d hd => hd) fun recipe => ?_
      refine ensures_stagedWrite (fun d hd => hd.1) (fun d hd => hd.1) ?_
      rintro d ⟨hd, hread⟩ -
      exact hd.stamp_recipe hrecipe hread
    exact Ensures.bind hwrite fun _ => ensures_sync fun d hd => hd.1
  case isFalse hany =>
    have hrecipe : recipeFile ∉ files.map StagedImportFile.name :=
      fun hmem => hany (mem_journalEntries_recipe.2 hmem)
    refine Ensures.pure fun t ht => ht.mono fun d hd => ⟨hd, ?_⟩
    rcases hd.stamp with hsame | hstamped
    · simpa [Stamped, hrecipe] using hsame
    · exact hstamped

lemma Committed.setDir (h : Committed d₀ dir files digest d) (staged : Option (List (Text × C))) :
    Committed d₀ dir files digest (d.setDir dir staged) := by
  refine ⟨h.journal, ⟨h.replaced.contents, h.replaced.others, ?_⟩, h.stamp⟩
  intro other hother
  simpa [Disk.setDir, hother] using h.replaced.framed other hother

/-- Recovery of an import whose swap is journaled as done completes it. -/
lemma ensures_recoverRecord_finish : EndsOr (On True (Committed d₀ dir files digest))
    (recoverRecord digest
        { staging := dir, entries := journalEntries d₀ files, committed := true })
      (fun _ => On True (Finished d₀ dir files digest))
      (On True (Committed d₀ dir files digest)) := by
  unfold recoverRecord
  split
  · refine Ensures.bind ensures_finishCommitted fun _ => ?_
    refine ensures_removeStaging (fun d hd => hd.1) ?_ ?_ ?_
    · intro d hd
      exact ⟨hd.1.setDir none, hd.2⟩
    · intro d kept hd
      exact ⟨hd.1.setDir _, hd.2⟩
    · rintro d ⟨hcommitted, hstamped⟩ hgone
      exact ⟨rfl, ⟨hcommitted.replaced.contents, hcommitted.replaced.others,
        hcommitted.replaced.framed⟩, hstamped, hgone⟩
  · exact Ensures.throw fun t ht => ht

/-! ## The phases of an import -/

lemma ensures_recoverImport_of {seen : Prop} {P : Disk C → Prop} {journal : Option ImportJournal}
    {done : Unit → Trail (Disk C) → Prop} (hjournal : ∀ d, P d → d.journal = journal)
    (h : EndsOr (On seen P) (journal.elim (pure ()) (recoverRecord digest)) done (On seen P)) :
    EndsOr (On seen P) (recoverImport digest) done (On seen P) := by
  refine Ensures.bind (ensures_readJournal fun d hd => hd) fun journal => ?_
  intro world hworld
  obtain ⟨⟨hP, hread⟩, hseen⟩ := hworld
  rw [hjournal _ hP] at hread
  subst hread
  cases journal with
  | none | some record => exact h world ⟨hP, hseen⟩

/-- Recovery keeps the phases, and when it completes nothing is left to do. -/
theorem ensures_recoverImport : EndsOr (Safe d₀ dir files digest) (recoverImport digest)
      (fun _ => Settled d₀ dir files digest) (Safe d₀ dir files digest) := by
  have hrest (P : Trail (Disk C) → Prop) : Preserves P (pure () : Files C Unit) :=
    Ensures.pure fun _ h => h
  intro world hworld
  cases hworld with
  | idle h =>
    exact Ensures.weaken (ensures_recoverImport_of (fun d hd => hd.journal) (hrest _))
      (fun _ _ h => Or.inl h) (fun _ _ h => .idle h) (fun _ h => .idle h) world h
  | undoable hentries h =>
    exact Ensures.weaken (ensures_recoverImport_of (fun d hd => hd.journal)
      (ensures_recoverRecord_undo hentries)) (fun _ _ h => Or.inl h)
      (fun _ _ h => .undoable hentries h) (fun _ h => .undoable hentries h) world h
  | committed h =>
    exact Ensures.weaken (ensures_recoverImport_of (fun d hd => hd.journal)
      ensures_recoverRecord_finish) (fun _ _ h => Or.inr h)
      (fun _ _ h => .committed h) (fun _ h => .committed h) world h
  | finished h =>
    exact Ensures.weaken (ensures_recoverImport_of (fun d hd => hd.journal) (hrest _))
      (fun _ _ h => Or.inr h) (fun _ _ h => .finished h) (fun _ h => .finished h) world h

end Terrarium.State
