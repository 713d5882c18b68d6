import Terrarium.State.ImportRecovery

/-!
# ImportSafety — an import is all or nothing

Whatever stops an import, its rollback or earlier recoveries, the next recovery that completes
leaves either every original file or every new one.

* `Moved` — the state of a swap, or of its rollback, after so many files;
* one specification for each program, assembled into `import_all_or_nothing`.

Rollback removes the journal before the import removes the staging directory, so a process that
stops in between leaves a directory that no recovery finds: `rollback_leaves_staging`.
-/

namespace Terrarium.State

open Faults Prog Directory

variable {C : Type}

/-! ## The phases of an import -/

section Phases

variable (d₀ : Disk C) (dir : Text) (files : List (StagedImportFile C)) (digest : C → C)

/-- The first `count` files are swapped: their originals are beside the staged files, and what was
missing is missing or no longer staged.  The rest is untouched. -/
structure Moved (count : Nat) (d : Disk C) : Prop where
  journal : d.journal =
    some { staging := dir, entries := journalEntries d₀ files, committed := false }
  framed : ∀ other, other ≠ dir → d.dirs other = d₀.dirs other
  staging : (d.dirs dir).isSome
  backedUp : ∀ i file old, files[i]? = some file → i < count → d₀.box file.name = some old →
    d.get (.staged dir (original i)) = some old
  missing : ∀ i file, files[i]? = some file → i < count → d₀.box file.name = none →
    d.get (.staged dir (original i)) = none ∧
      (d.get (.live file.name) = none ∨ d.get (.staged dir file.name) = none)
  untouched : ∀ i file, files[i]? = some file → count ≤ i →
    d.get (.staged dir (original i)) = none ∧ d.get (.live file.name) = d₀.box file.name
  others : ∀ name, (∀ file ∈ files, file.name ≠ name) → d.get (.live name) = d₀.box name
  known : ∀ name, d.get (.staged dir name) ≠ none →
    (∃ file ∈ files, file.name = name) ∨ ∃ i file, files[i]? = some file ∧ name = original i

/-- The first `count` files have their new contents, the others are still staged. -/
structure Installed (count : Nat) (d : Disk C) : Prop where
  contents : ∀ i file, files[i]? = some file → i < count →
    d.get (.live file.name) = some file.contents
  staged : ∀ i file, files[i]? = some file → count ≤ i →
    d.get (.staged dir file.name) = some file.contents

/-- A swap with `moved` files moved aside and `installed` of them replaced. -/
abbrev Swapping (moved installed : Nat) (d : Disk C) : Prop :=
  Moved d₀ dir files moved d ∧ Installed dir files installed d

/-- What a swap of the first `count` files remembers, newest first. -/
def swappedUpTo : Nat → Swapped
  | 0 => []
  | count + 1 =>
      match files[count]? with
      | some file =>
          (file.name, (d₀.box file.name).map fun _ => original count) :: swappedUpTo count
      | none => swappedUpTo count

/-- A swap ends with all files in place, or part-way with what it has swapped. -/
def SwapEnds : Swapped × Option Failure → Trail (Disk C) → Prop
  | (_, none), t =>
      On False (fun d => Moved d₀ dir files files.length d ∧ Installed dir files files.length d) t
  | (swapped, some _), t =>
      ∃ count ≤ files.length,
        swapped = swappedUpTo d₀ files count ∧ On False (Moved d₀ dir files count) t

/-- What remains to roll back are the files in `swapped`. -/
abbrev RollingBack (swapped : Swapped) (t : Trail (Disk C)) : Prop :=
  ∃ count ≤ files.length, swapped = swappedUpTo d₀ files count ∧
    On False (Moved d₀ dir files count) t

/-- The first `count` files are staged and the box is as it was. -/
structure Prepared (count : Nat) (d : Disk C) : Prop where
  journal : d.journal = some { staging := dir, entries := [], committed := false }
  unchanged : Unchanged d₀ dir d
  staging : (d.dirs dir).isSome
  staged : ∀ i file, files[i]? = some file → i < count →
    d.get (.staged dir file.name) = some file.contents
  known : ∀ name, d.get (.staged dir name) ≠ none → ∃ file ∈ files, file.name = name

/-- The rollback is complete and its journal gone; what is left of the import are staged files. -/
structure RolledBack (d : Disk C) : Prop where
  journal : d.journal = none
  unchanged : Unchanged d₀ dir d
  staging : (d.dirs dir).isSome
  known : ∀ name, d.get (.staged dir name) ≠ none → ∃ file ∈ files, file.name = name

/-- The ways a commit that does not complete leaves the disk. -/
def Uncommitted (t : Trail (Disk C)) : Prop :=
  Safe d₀ dir files digest t ∨ On False (RolledBack d₀ dir files) t

/-- A commit, or a part of it, from `P` on. -/
abbrev Commits (P : Trail (Disk C) → Prop) (m : Files C Unit) : Prop :=
  Ensures P m (fun _ => Safe d₀ dir files digest) (fun _ => Uncommitted d₀ dir files digest)
    (Safe d₀ dir files digest)

end Phases

/-! ## The swap and its rollback -/

variable {d₀ : Disk C} {dir : Text} {files : List (StagedImportFile C)} {digest : C → C}
  {count : Nat} {d : Disk C}

variable (hnodup : (files.map StagedImportFile.name).Nodup)

section Swap

variable {file : StagedImportFile C} {d' : Disk C} {count' : Nat}

lemma journaled_nil : Journaled d₀ [] := ⟨by simp, by simp, by simp⟩

lemma getElem?_journalEntries {i : Nat} {e : ImportEntry}
    (h : (journalEntries d₀ files)[i]? = some e) :
    ∃ file, files[i]? = some file ∧ e.file = file.name := by
  rw [journalEntries, List.getElem?_map] at h
  obtain ⟨file, hfile, rfl⟩ := Option.map_eq_some_iff.1 h
  exact ⟨file, hfile, rfl⟩

lemma Moved.undoable (h : Moved d₀ dir files count d) :
    Undoable d₀ dir (journalEntries d₀ files) d := by
  refine ⟨h.journal, h.framed, ?_, ?_, ?_⟩
  · intro i e old he hold
    obtain ⟨file, hfile, hname⟩ := getElem?_journalEntries he
    rw [hname] at hold ⊢
    by_cases hi : i < count
    · exact Or.inl (h.backedUp i file old hfile hi hold)
    · obtain ⟨hbackup, hlive⟩ := h.untouched i file hfile (Nat.le_of_not_lt hi)
      exact Or.inr ⟨hbackup, hlive.trans hold⟩
  · intro e he hmissing
    obtain ⟨i, hi⟩ := List.getElem?_of_mem he
    obtain ⟨file, hfile, hname⟩ := getElem?_journalEntries hi
    rw [hname] at hmissing ⊢
    by_cases hi : i < count
    · exact (h.missing i file hfile hi hmissing).2
    · exact Or.inl ((h.untouched i file hfile (Nat.le_of_not_lt hi)).2.trans hmissing)
  · intro name hname
    refine h.others name fun file hfile heq => ?_
    exact hname _ (List.mem_map.2 ⟨file, hfile, rfl⟩) heq

include hnodup

lemma name_ne {i n : Nat} {file' : StagedImportFile C} (hfile : files[n]? = some file)
    (hfile' : files[i]? = some file') (hi : i ≠ n) : file'.name ≠ file.name :=
  fun heq => hi (index_unique hnodup hfile hfile' heq)

/-- A step of the swap touches the places of one file only; the clauses of that file are what there
is to show. -/
lemma Moved.update (h : Moved d₀ dir files count d) {n : Nat} (hfile : files[n]? = some file)
    (hcount : ∀ i, i ≠ n → (i < count' ↔ i < count)) (hjournal : d'.journal = d.journal)
    (hframed : ∀ other, other ≠ dir → d'.dirs other = d.dirs other)
    (hstaging : (d'.dirs dir).isSome)
    (hsame : ∀ place, place ≠ .live file.name → place ≠ .staged dir file.name →
      place ≠ .staged dir (original n) → d'.get place = d.get place)
    (hbackedUp : n < count' → ∀ old, d₀.box file.name = some old →
      d'.get (.staged dir (original n)) = some old)
    (hmissing : n < count' → d₀.box file.name = none → d'.get (.staged dir (original n)) = none ∧
      (d'.get (.live file.name) = none ∨ d'.get (.staged dir file.name) = none))
    (huntouched : count' ≤ n → d'.get (.staged dir (original n)) = none ∧
      d'.get (.live file.name) = d₀.box file.name) :
    Moved d₀ dir files count' d' := by
  have hbackup : ∀ i, i ≠ n →
      d'.get (.staged dir (original i)) = d.get (.staged dir (original i)) := by
    intro i hi
    refine hsame _ (by simp) ?_ ?_
    · simpa using (file.name_ne_original i).symm
    · simpa using fun heq => hi (original_injective heq)
  have hlive : ∀ {i : Nat} {file' : StagedImportFile C}, files[i]? = some file' → i ≠ n →
      d'.get (.live file'.name) = d.get (.live file'.name) := by
    intro i file' hfile' hi
    refine hsame _ ?_ (by simp) (by simp)
    simpa using name_ne hnodup hfile hfile' hi
  have hstage : ∀ {i : Nat} {file' : StagedImportFile C}, files[i]? = some file' → i ≠ n →
      d'.get (.staged dir file'.name) = d.get (.staged dir file'.name) := by
    intro i file' hfile' hi
    refine hsame _ (by simp) ?_ ?_
    · simpa using name_ne hnodup hfile hfile' hi
    · simpa using file'.name_ne_original n
  refine ⟨hjournal.trans h.journal, fun other hother => (hframed other hother).trans
    (h.framed other hother), hstaging, ?_, ?_, ?_, ?_, ?_⟩
  · intro i file' old hfile' hi hold
    by_cases hin : i = n
    · subst hin
      cases hfile.symm.trans hfile'
      exact hbackedUp hi old hold
    · rw [hbackup i hin]
      exact h.backedUp i file' old hfile' ((hcount i hin).1 hi) hold
  · intro i file' hfile' hi hnone
    by_cases hin : i = n
    · subst hin
      cases hfile.symm.trans hfile'
      exact hmissing hi hnone
    · rw [hbackup i hin, hlive hfile' hin, hstage hfile' hin]
      exact h.missing i file' hfile' ((hcount i hin).1 hi) hnone
  · intro i file' hfile' hi
    by_cases hin : i = n
    · subst hin
      cases hfile.symm.trans hfile'
      exact huntouched hi
    · rw [hbackup i hin, hlive hfile' hin]
      refine h.untouched i file' hfile' ?_
      exact Nat.le_of_not_lt fun hlt => Nat.not_lt.2 hi ((hcount i hin).2 hlt)
  · intro name hname
    have hne : name ≠ file.name := fun heq => hname file (List.mem_of_getElem? hfile) heq.symm
    rw [hsame _ (by simpa using hne) (by simp) (by simp)]
    exact h.others name hname
  · intro name hpresent
    by_cases hname : name = file.name
    · exact Or.inl ⟨file, List.mem_of_getElem? hfile, hname.symm⟩
    · by_cases horiginal : name = original n
      · exact Or.inr ⟨n, file, hfile, horiginal⟩
      · rw [hsame _ (by simp) (by simpa using hname) (by simpa using horiginal)] at hpresent
        exact h.known name hpresent

lemma journaled_journalEntries : Journaled d₀ (journalEntries d₀ files) := by
  refine ⟨?_, ?_, ?_⟩
  · intro e he
    obtain ⟨file, -, rfl⟩ := List.mem_map.1 he
    rfl
  · intro e he
    obtain ⟨file, -, rfl⟩ := List.mem_map.1 he
    exact file.findJournaledFile_name
  · have hnames :
        (journalEntries d₀ files).map ImportEntry.file = files.map StagedImportFile.name := by
      simp [journalEntries, Function.comp_def]
    rw [hnames]
    exact hnodup

section OneFile

variable (hfile : files[count]? = some file)

include hfile

lemma Moved.backUp (h : Moved d₀ dir files count d) {old : C}
    (hold : d.get (.live file.name) = some old) : Moved d₀ dir files (count + 1)
      ((d.put (.live file.name) none).put (.staged dir (original count)) (some old)) := by
  have hbox : d₀.box file.name = some old := by
    rw [← (h.untouched count file hfile (Nat.le_refl _)).2, hold]
  refine h.update hnodup hfile (fun i hi => by omega)
    (by simp) ?_ (by simpa using h.staging) ?_ ?_ ?_ ?_
  · intro other hother
    rw [Disk.dirs_put_staged_of_ne hother, Disk.dirs_put_live]
  · intro place hlive _ hbackup
    rw [Disk.get_put_of_ne hbackup, Disk.get_put_of_ne hlive]
  · intro _ old' hold'
    rw [Disk.get_put_self (by simpa [Disk.hasParent] using h.staging), ← hbox, hold']
  · intro _ hmissing
    rw [hmissing] at hbox
    cases hbox
  · intro hcount
    omega

lemma Moved.skip (h : Moved d₀ dir files count d) (habsent : d.get (.live file.name) = none) :
    Moved d₀ dir files (count + 1) d := by
  obtain ⟨hbackup, hlive⟩ := h.untouched count file hfile (Nat.le_refl _)
  refine h.update hnodup hfile (fun i hi => by omega) rfl (fun _ _ => rfl) h.staging
    (fun _ _ _ _ => rfl) ?_ (fun _ _ => ⟨hbackup, Or.inl habsent⟩) (fun hcount => by omega)
  intro _ old hold
  rw [← hlive, habsent] at hold
  cases hold

section

variable (h : Moved d₀ dir files (count + 1) d)

include h

lemma Moved.install (contents : C) :
    Moved d₀ dir files (count + 1)
      ((d.put (.staged dir file.name) none).put (.live file.name) (some contents)) := by
  have hname := (file.name_ne_original count).symm
  refine h.update hnodup hfile (fun i hi => Iff.rfl)
    (by simp) ?_ (by simpa using h.staging) ?_ ?_ ?_ ?_
  · intro other hother
    rw [Disk.dirs_put_live, Disk.dirs_put_staged_of_ne hother]
  · intro place hlive hstage _
    rw [Disk.get_put_of_ne hlive, Disk.get_put_of_ne hstage]
  · intro hcount old hold
    simpa [Disk.get_put, hname] using h.backedUp count file old hfile hcount hold
  · intro hcount hmissing
    have hbackup := (h.missing count file hfile hcount hmissing).1
    exact ⟨by simpa [Disk.get_put, hname] using hbackup, Or.inr (by simp [Disk.get_put])⟩
  · intro hcount
    omega

lemma Moved.removeLive : Moved d₀ dir files (count + 1) (d.put (.live file.name) none) := by
  refine h.update hnodup hfile (fun i hi => Iff.rfl) (by simp) (fun _ _ => rfl)
    (by simpa using h.staging) ?_ ?_ ?_ ?_
  · intro place hlive _ _
    exact Disk.get_put_of_ne hlive
  · intro hcount old hold
    simpa [Disk.get_put] using h.backedUp count file old hfile hcount hold
  · intro hcount hmissing
    have hbackup := (h.missing count file hfile hcount hmissing).1
    exact ⟨by simpa [Disk.get_put] using hbackup, Or.inl Disk.get_put_none⟩
  · intro hcount
    omega

lemma Moved.restore {old : C} (hold : d₀.box file.name = some old) :
    Moved d₀ dir files count
      ((d.put (.staged dir (original count)) none).put (.live file.name) (some old)) := by
  refine h.update hnodup hfile (fun i hi => by omega)
    (by simp) ?_ (by simpa using h.staging) ?_ ?_ ?_ ?_
  · intro other hother
    rw [Disk.dirs_put_live, Disk.dirs_put_staged_of_ne hother]
  · intro place hlive _ hbackup
    rw [Disk.get_put_of_ne hlive, Disk.get_put_of_ne hbackup]
  · intro hcount
    omega
  · intro hcount
    omega
  · intro _
    exact ⟨by simp [Disk.get_put], by simp [Disk.get_put, hold]⟩

lemma Moved.unskip (hmissing : d₀.box file.name = none) (habsent : d.get (.live file.name) = none) :
    Moved d₀ dir files count d := by
  refine h.update hnodup hfile (fun i hi => by omega) rfl (fun _ _ => rfl) h.staging
    (fun _ _ _ _ => rfl) (fun hcount => by omega) (fun hcount => by omega) ?_
  intro _
  exact ⟨(h.missing count file hfile (Nat.lt_succ_self _) hmissing).1, habsent.trans hmissing.symm⟩

end

lemma Installed.backUp (h : Installed dir files count d) (contents : Option C) :
    Installed dir files count
      ((d.put (.live file.name) none).put (.staged dir (original count)) contents) := by
  refine ⟨?_, ?_⟩
  · intro i file' hfile' hi
    have hne := name_ne hnodup hfile hfile' (Nat.ne_of_lt hi)
    simpa [Disk.get_put, hne] using h.contents i file' hfile' hi
  · intro i file' hfile' hi
    simpa [Disk.get_put, file'.name_ne_original] using h.staged i file' hfile' hi

lemma Installed.install (h : Installed dir files count d) {contents : C}
    (hcontents : d.get (.staged dir file.name) = some contents) :
    Installed dir files (count + 1)
      ((d.put (.staged dir file.name) none).put (.live file.name) (some contents)) := by
  have hnew : contents = file.contents := by
    rw [h.staged count file hfile (Nat.le_refl _)] at hcontents
    exact (Option.some.inj hcontents).symm
  refine ⟨?_, ?_⟩
  · intro i file' hfile' hi
    rcases Nat.lt_succ_iff_lt_or_eq.1 hi with hi | rfl
    · have hne := name_ne hnodup hfile hfile' (Nat.ne_of_lt hi)
      simpa [Disk.get_put, hne] using h.contents i file' hfile' hi
    · cases hfile.symm.trans hfile'
      simp [Disk.get_put, hnew]
  · intro i file' hfile' hi
    have hne := name_ne hnodup hfile hfile' (Nat.ne_of_gt hi)
    simpa [Disk.get_put, hne] using h.staged i file' hfile' (Nat.le_of_succ_le hi)

omit hnodup in
lemma swappedUpTo_succ : swappedUpTo d₀ files (count + 1) =
      (file.name, (d₀.box file.name).map fun _ => original count) ::
      swappedUpTo d₀ files count := by
  simp [swappedUpTo, hfile]

lemma ensures_backUp :
    EndsOr (On False (Swapping d₀ dir files count count)) (backUp dir count file)
      (fun backup => On False fun d => Swapping d₀ dir files (count + 1) count d ∧
        backup = (d₀.box file.name).map fun _ => original count)
      (On False (Moved d₀ dir files count)) := by
  refine Ensures.bind (ensures_isPresent fun d hd => hd.1) fun present => ?_
  cases present with
  | true =>
    have hmove : EndsOr
        (On False fun d => Swapping d₀ dir files count count d ∧
          true = (d.get (.live file.name)).isSome)
        (rename (.live file.name) (.staged dir (original count)) : Files C Unit)
        (fun _ => On False fun d => Swapping d₀ dir files (count + 1) count d ∧
          some (original count) = (d₀.box file.name).map fun _ => original count)
        (On False (Moved d₀ dir files count)) := by
      refine ensures_rename (fun d hd => hd.1.1) ?_
      rintro d old ⟨⟨hmoved, hinstalled⟩, -⟩ hold -
      refine ⟨⟨hmoved.backUp hnodup hfile hold, hinstalled.backUp hnodup hfile _⟩, ?_⟩
      rw [← (hmoved.untouched count file hfile (Nat.le_refl _)).2, hold, Option.map_some]
    exact Ensures.bind hmove fun _ => Ensures.pure fun t ht => ht
  | false =>
    refine Ensures.pure fun t ht => ht.mono ?_
    rintro d ⟨⟨hmoved, hinstalled⟩, habsent⟩
    have hnone : d.get (.live file.name) = none := by
      simpa using habsent.symm
    refine ⟨⟨hmoved.skip hnodup hfile hnone, hinstalled⟩, ?_⟩
    rw [← (hmoved.untouched count file hfile (Nat.le_refl _)).2, hnone, Option.map_none]

/-- The fact `remembered` about what was swapped so far is kept along. -/
lemma ensures_installFile {remembered : Prop} :
    EndsOr (On False fun d => Swapping d₀ dir files (count + 1) count d ∧ remembered)
      (rename (.staged dir file.name) (.live file.name) : Files C Unit)
      (fun _ => On False fun d => Swapping d₀ dir files (count + 1) (count + 1) d ∧ remembered)
      (On False fun d => Moved d₀ dir files (count + 1) d ∧ remembered) := by
  refine ensures_rename (fun d hd => ⟨hd.1.1, hd.2⟩) ?_
  rintro d contents ⟨⟨hmoved, hinstalled⟩, hremembered⟩ hstaged -
  exact ⟨⟨hmoved.install hnodup hfile contents, hinstalled.install hnodup hfile hstaged⟩,
    hremembered⟩

lemma ensures_rollBackFile : EndsOr (On False (Moved d₀ dir files (count + 1)))
      (do
        removeFileIfPresent (.live file.name)
        match (d₀.box file.name).map fun _ => original count with
        | some backup => rename (.staged dir backup) (.live file.name)
        | none => return : Files C Unit)
      (fun _ => On False (Moved d₀ dir files count))
      (On False (Undoable d₀ dir (journalEntries d₀ files))) := by
  have hremove : EndsOr (On False (Moved d₀ dir files (count + 1)))
      (removeFileIfPresent (.live file.name) : Files C Unit)
      (fun _ => On False fun d =>
        Moved d₀ dir files (count + 1) d ∧ d.get (.live file.name) = none)
      (On False (Undoable d₀ dir (journalEntries d₀ files))) :=
    ensures_removeFileIfPresent (fun d hd => hd.undoable)
      (fun d hd => ⟨hd.removeLive hnodup hfile, Disk.get_put_none⟩)
        (fun d hd habsent => ⟨hd, habsent⟩)
  refine Ensures.bind hremove fun _ => ?_
  cases hold : d₀.box file.name with
  | none => exact Ensures.pure fun t ht => ht.mono fun d hd => hd.1.unskip hnodup hfile hold hd.2
  | some old =>
    refine ensures_rename (fun d hd => hd.1.undoable) ?_
    rintro d contents ⟨hmoved, -⟩ hbackup -
    rw [hmoved.backedUp count file old hfile (Nat.lt_succ_self _) hold,
      Option.some.injEq] at hbackup
    subst hbackup
    exact hmoved.restore hnodup hfile hold

end OneFile

lemma ensures_swapFiles {failed : Failure → Trail (Disk C) → Prop}
    (rest : List (StagedImportFile C)) : ∀ count ≤ files.length, files.drop count = rest →
      Ensures (On False (Swapping d₀ dir files count count))
        (swapFiles dir count rest (swappedUpTo d₀ files count)) (SwapEnds d₀ dir files) failed
        (On False (Undoable d₀ dir (journalEntries d₀ files))) := by
  induction rest with
  | nil =>
    intro count hcount hdrop
    obtain rfl : count = files.length := Nat.le_antisymm hcount (List.drop_eq_nil_iff.1 hdrop)
    exact Ensures.pure fun t ht => ht
  | cons file rest ih =>
    intro count hcount hdrop
    have hfile : files[count]? = some file := by
      rw [← List.head?_drop, hdrop, List.head?_cons]
    have hlt : count < files.length := (List.getElem?_eq_some_iff.1 hfile).1
    have hrest : files.drop (count + 1) = rest := by
      rw [← List.tail_drop, hdrop, List.tail_cons]
    refine Ensures.attempt_bind (Ensures.weaken_crashed (ensures_backUp hnodup hfile)
      (fun _ h => h.mono fun d hd => hd.undoable)) (fun backup => ?_)
      (fun _ => Ensures.pure fun t ht => ⟨count, hcount, rfl, ht⟩)
    refine Ensures.attempt_bind (Ensures.weaken_crashed (ensures_installFile hnodup hfile)
      (fun _ h => h.mono fun d hd => hd.1.undoable)) (fun _ => ?_) (fun _ => ?_)
    · intro world hworld
      have hnext := ih (count + 1) hlt hrest world (hworld.mono fun d hd => hd.1)
      rw [swappedUpTo_succ hfile, ← hworld.1.2] at hnext
      exact hnext
    · refine Ensures.pure fun t ht => ⟨count + 1, hlt, ?_, ht.mono fun d hd => hd.1⟩
      rw [swappedUpTo_succ hfile, ht.1.2]

/-- Rollback, when it completes, has put every original back. -/
lemma ensures_rollBack (swapped : Swapped) : EndsOr (RollingBack d₀ dir files swapped)
      (rollBack dir swapped) (fun _ => On False (Moved d₀ dir files 0))
      (On False (Undoable d₀ dir (journalEntries d₀ files))) := by
  have hnth : ∀ {count : Nat}, count < files.length → ∃ file, files[count]? = some file :=
    fun hlt => ⟨_, List.getElem?_eq_getElem hlt⟩
  refine Ensures.weaken (Ensures.each (RollingBack d₀ dir files) swapped ?_) ?_ (fun _ _ h => h)
    (fun _ h => h)
  · rintro x rest world ⟨count, hcount, hswapped, hmoved⟩
    cases count with
    | zero => cases hswapped
    | succ count =>
      obtain ⟨file, hfile⟩ := hnth hcount
      rw [swappedUpTo_succ hfile, List.cons.injEq] at hswapped
      obtain ⟨rfl, rfl⟩ := hswapped
      exact Ensures.weaken (ensures_rollBackFile hnodup hfile)
        (fun _ _ h => ⟨count, Nat.le_of_succ_le hcount, rfl, h⟩) (fun _ _ h => h) (fun _ h => h)
        world hmoved
  · rintro _ t ⟨count, hcount, hswapped, hmoved⟩
    cases count with
    | zero => exact hmoved
    | succ count =>
      obtain ⟨file, hfile⟩ := hnth hcount
      rw [swappedUpTo_succ hfile] at hswapped
      cases hswapped

end Swap

/-! ## The commit -/

namespace Prepared

lemma undoable (h : Prepared d₀ dir files count d) : Undoable d₀ dir [] d := by
  refine ⟨h.journal, h.unchanged.2, ?_, ?_, fun name _ => h.unchanged.1 name⟩
  · intro i e old he
    simp at he
  · intro e he
    cases he

include hnodup in
lemma put (h : Prepared d₀ dir files count d) {file : StagedImportFile C}
    (hfile : files[count]? = some file) :
    Prepared d₀ dir files (count + 1) (d.put (.staged dir file.name) (some file.contents)) := by
  have hparent : d.hasParent (.staged dir file.name) = true := h.staging
  refine ⟨by simpa using h.journal, ⟨?_, ?_⟩, by simpa using h.staging, ?_, ?_⟩
  · intro name
    simpa [Disk.get_put] using h.unchanged.1 name
  · intro other hother
    rw [Disk.dirs_put_staged_of_ne hother, h.unchanged.2 other hother]
  · intro i file' hfile' hi
    rcases Nat.lt_succ_iff_lt_or_eq.1 hi with hi | rfl
    · have hne := name_ne hnodup hfile hfile' (Nat.ne_of_lt hi)
      simpa [Disk.get_put, hne] using h.staged i file' hfile' hi
    · cases hfile.symm.trans hfile'
      simp [Disk.get_put, hparent]
  · intro name hname
    by_cases heq : name = file.name
    · exact ⟨file, List.mem_of_getElem? hfile, heq.symm⟩
    · exact h.known name (by simpa [Disk.get_put, heq] using hname)

lemma swapping (h : Prepared d₀ dir files files.length d) :
    Swapping d₀ dir files 0 0 { d with journal := some ⟨dir, journalEntries d₀ files, false⟩ } := by
  have hbackup : ∀ i, d.get (.staged dir (original i)) = none := by
    intro i
    by_contra hne
    obtain ⟨file, -, hname⟩ := h.known _ hne
    exact file.name_ne_original i hname
  refine ⟨⟨rfl, h.unchanged.2, h.staging, ?_, ?_, ?_, ?_, ?_⟩, ?_, ?_⟩
  · intro i file old _ hi
    exact absurd hi (Nat.not_lt_zero i)
  · intro i file _ hi
    exact absurd hi (Nat.not_lt_zero i)
  · intro i file _ _
    exact ⟨hbackup i, h.unchanged.1 file.name⟩
  · intro name _
    exact h.unchanged.1 name
  · intro name hname
    exact Or.inl (h.known name hname)
  · intro i file _ hi
    exact absurd hi (Nat.not_lt_zero i)
  · intro i file hfile _
    exact h.staged i file hfile (List.getElem?_eq_some_iff.1 hfile).1

end Prepared

lemma Moved.rolledBack (h : Moved d₀ dir files 0 d) :
    RolledBack d₀ dir files { d with journal := none } := by
  refine ⟨rfl, ⟨fun name => ?_, h.framed⟩, h.staging, fun name hname => ?_⟩
  · by_cases hfile : ∃ file ∈ files, file.name = name
    · obtain ⟨file, hfile, rfl⟩ := hfile
      obtain ⟨i, hi⟩ := List.getElem?_of_mem hfile
      exact (h.untouched i file hi (Nat.zero_le i)).2
    · exact h.others name fun file hmem heq => hfile ⟨file, hmem, heq⟩
  · rcases h.known name hname with hstaged | ⟨i, file, hfile, rfl⟩
    · exact hstaged
    · exact absurd (h.untouched i file hfile (Nat.zero_le i)).1 hname

lemma Moved.committed (h : Moved d₀ dir files files.length d)
    (hinstalled : Installed dir files files.length d) :
    Committed d₀ dir files digest
    { d with journal := some ⟨dir, journalEntries d₀ files, true⟩ } := by
  refine ⟨rfl, ⟨?_, fun name hname _ => h.others name hname, h.framed⟩, Or.inl ?_⟩
  · intro file hfile
    obtain ⟨i, hi⟩ := List.getElem?_of_mem hfile
    exact hinstalled.contents i file hi (List.getElem?_eq_some_iff.1 hi).1
  · exact h.others _ fun file _ => file.name_ne_stamp

lemma safe_of_settled {t : Trail (Disk C)} (h : Settled d₀ dir files digest t) :
    Safe d₀ dir files digest t := by
  rcases h with hidle | hfinished
  · exact .idle hidle
  · exact .finished hfinished

lemma ensures_recordEntries : EndsOr (On False (Prepared d₀ dir files files.length))
    (recordEntries files)
      (fun entries t => On False (Prepared d₀ dir files files.length) t ∧
        entries = journalEntries d₀ files)
      (On False (Undoable d₀ dir [])) := by
  refine Ensures.collect files fun file _ => ?_
  refine Ensures.bind (ensures_isPresent fun d hd => hd.undoable) fun existed => ?_
  refine Ensures.pure fun t ht => ⟨ht.mono fun d hd => hd.1, ?_⟩
  rw [ht.1.2, ht.1.1.unchanged.1]

include hnodup

lemma ensures_rollBack_commit (swapped : Swapped) (failure : Failure) :
    Commits d₀ dir files digest (RollingBack d₀ dir files swapped) (do
        rollBack dir swapped
        let _ ← attempt removeJournal
        throw failure) := by
  have hentries : Journaled d₀ (journalEntries d₀ files) := journaled_journalEntries hnodup
  refine Ensures.bind (Ensures.weaken (ensures_rollBack hnodup swapped)
    (fun _ _ h => h) (fun _ _ h => Or.inl (.undoable hentries h)) (fun _ h => .undoable hentries h))
    fun _ => ?_
  have hremove : Ensures (On False (Moved d₀ dir files 0)) (attempt removeJournal : Files C _)
      (fun _ => Uncommitted d₀ dir files digest) (fun _ => Uncommitted d₀ dir files digest)
      (Safe d₀ dir files digest) :=
    Ensures.attempt (Ensures.mono
      (ensures_removeJournal (fun d hd => hd.undoable) fun d hd => hd.rolledBack) (fun _ h => h)
      (fun _ _ h => Or.inr h) (fun _ _ h => Or.inl (.undoable hentries h))
      (fun _ h => .undoable hentries h))
  exact Ensures.bind hremove fun _ => Ensures.throw fun t ht => ht

lemma ensures_commitEntries :
    Commits d₀ dir files digest (On False (Prepared d₀ dir files files.length)) (do
        writeImportJournal ⟨dir, journalEntries d₀ files, false⟩
        match ← swapFiles dir 0 files [] with
        | (swapped, some failure) => do
            rollBack dir swapped
            let _ ← attempt removeJournal
            throw failure
        | (_, none) => do
            writeImportJournal ⟨dir, journalEntries d₀ files, true⟩
            recoverImport digest) := by
  have hentries : Journaled d₀ (journalEntries d₀ files) := journaled_journalEntries hnodup
  have hsafe : ∀ t, On False (fun d => Undoable d₀ dir [] d ∨
      Undoable d₀ dir (journalEntries d₀ files) d) t → Safe d₀ dir files digest t := by
    rintro t ⟨hempty | hfull, hseen⟩
    · exact .undoable journaled_nil ⟨hempty, hseen⟩
    · exact .undoable hentries ⟨hfull, hseen⟩
  have hjournal : Ensures (On False (Prepared d₀ dir files files.length))
      (writeImportJournal ⟨dir, journalEntries d₀ files, false⟩ : Files C Unit)
      (fun _ => On False (Swapping d₀ dir files 0 0))
      (fun _ => Uncommitted d₀ dir files digest) (Safe d₀ dir files digest) :=
    Ensures.weaken (ensures_writeImportJournal rfl (fun d hd => Or.inl hd.undoable)
      (fun d hd => Or.inr hd.1.undoable) fun d hd => hd.swapping) (fun _ _ h => h)
      (fun _ t h => Or.inl (hsafe t h)) hsafe
  refine Ensures.bind hjournal fun _ => ?_
  refine Ensures.bind (Ensures.weaken_crashed (ensures_swapFiles hnodup files 0 (Nat.zero_le _) rfl)
    (fun _ h => .undoable hentries h)) ?_
  rintro ⟨swapped, _ | failure⟩
  · have hcommit :
        Commits d₀ dir files digest (On False (Swapping d₀ dir files files.length files.length))
        (writeImportJournal ⟨dir, journalEntries d₀ files, true⟩) := by
      have hends : ∀ t, On False (Swapping d₀ dir files files.length files.length) t ∨
          On True (Committed d₀ dir files digest) t → Safe d₀ dir files digest t := by
        rintro t (hmoved | hcommitted)
        · exact .undoable hentries (hmoved.mono fun d hd => hd.1.undoable)
        · exact .committed hcommitted
      exact Ensures.weaken
        (ensures_writeImportJournal_committed rfl fun d hd => hd.1.committed hd.2)
        (fun _ _ h => .committed h) (fun _ t h => Or.inl (hends t h)) hends
    refine Ensures.bind hcommit fun _ => ?_
    exact Ensures.weaken ensures_recoverImport (fun _ _ h => safe_of_settled h)
      (fun _ _ h => Or.inl h) (fun _ h => h)
  · exact ensures_rollBack_commit hnodup swapped failure

lemma ensures_commitImport :
    Commits d₀ dir files digest (On False (Prepared d₀ dir files files.length))
      (commitImport digest dir files) := by
  unfold commitImport
  split
  · exact Ensures.throw fun t ht =>
      Or.inl (.undoable journaled_nil (ht.mono fun d hd => hd.undoable))
  split
  · exact Ensures.throw fun t ht =>
      Or.inl (.undoable journaled_nil (ht.mono fun d hd => hd.undoable))
  refine Ensures.bind (Ensures.weaken ensures_recordEntries (fun _ _ h => h)
    (fun _ _ h => Or.inl (.undoable journaled_nil h)) (fun _ h => .undoable journaled_nil h))
    fun entries => ?_
  rintro world ⟨hworld, rfl⟩
  exact ensures_commitEntries hnodup world hworld

/-! ## The import and its cleanup -/

lemma ensures_stageFiles : EndsOr (On False (Prepared d₀ dir files 0)) (stageFiles dir files)
      (fun _ => On False (Prepared d₀ dir files files.length))
      (On False (Undoable d₀ dir [])) := by
  refine Ensures.each_count (fun count => On False (Prepared d₀ dir files count)) files ?_
  intro i file hfile
  exact ensures_stagedWrite (fun d hd => hd.undoable) (fun d hd => hd.undoable) fun d hd _ =>
    hd.put hnodup hfile

omit hnodup

def Unbegun (t : Trail (Disk C)) : Prop :=
  ¬t.Saw fun d => d.journal.isSome

lemma prepared_zero : Prepared d₀ dir files 0
      { d₀.setDir dir (some []) with journal := some ⟨dir, [], false⟩ } := by
  refine ⟨rfl, ⟨fun _ => rfl, ?_⟩, by simp [Disk.setDir], ?_, ?_⟩
  · intro other hother
    simp [Disk.setDir, hother]
  · intro i file _ hi
    exact absurd hi (Nat.not_lt_zero i)
  · intro name hname
    simp [Disk.get, Disk.setDir] at hname

/-- Until the journal is written nothing is promised; from then on an import can be undone. -/
lemma ensures_beginImport (hidle : d₀.journal = none) : EndsOr (fun t => t = ⟨[], d₀⟩)
    (beginImport dir)
      (fun _ => On False (Prepared d₀ dir files 0))
      (fun t => Unbegun t ∨ Safe d₀ dir files digest t) := by
  have hunbegun : Unbegun ⟨[], d₀⟩ := by
    simp [Unbegun, Trail.Saw, hidle]
  have hcreate : EndsOr (fun t => t = ⟨[], d₀⟩) (createDir dir : Files C Unit)
      (fun _ t => t = ⟨[d₀], d₀.setDir dir (some [])⟩)
      (fun t => Unbegun t ∨ Safe d₀ dir files digest t) := by
    refine Ensures.atomic ?_ ?_ ?_ ?_
    · rintro t a s rfl heffect
      split at heffect
      · cases heffect
      · cases heffect
        rfl
    · rintro t e rfl -
      exact Or.inl hunbegun
    · rintro t rfl
      exact Or.inl hunbegun
    · rintro t rfl
      exact Or.inl hunbegun
  have hcreated : Unbegun ⟨[d₀], d₀.setDir dir (some [])⟩ := by
    simp [Unbegun, Trail.Saw, Disk.setDir, hidle]
  have hsafe : ∀ t, On False (Prepared d₀ dir files 0) t → Safe d₀ dir files digest t :=
    fun t ht => .undoable journaled_nil (ht.mono fun d hd => hd.undoable)
  have hwrite : EndsOr (fun t => t = ⟨[d₀], d₀.setDir dir (some [])⟩)
      (atomic .io fun disk => .ok
        ((), { disk with journal := some ⟨dir, [], false⟩ }) : Files C Unit)
      (fun _ => On False (Prepared d₀ dir files 0))
      (fun t => Unbegun t ∨ Safe d₀ dir files digest t) := by
    refine Ensures.atomic ?_ ?_ ?_ ?_
    · rintro t a s rfl heffect
      cases heffect
      refine ⟨prepared_zero, ?_⟩
      simp [Trail.Saw, Trail.push, Disk.IsCommitted, Disk.setDir, hidle]
    · rintro t e rfl heffect
      cases heffect
    · rintro t rfl
      exact Or.inl hcreated
    · rintro t rfl
      exact Or.inl hcreated
  refine Ensures.bind hcreate fun _ => Ensures.bind hwrite fun _ => ?_
  exact Ensures.weaken (ensures_sync fun _ h => h) (fun _ _ h => h)
    (fun _ t h => Or.inr (hsafe t h)) (fun t h => Or.inr (hsafe t h))

include hnodup in
/-- An import up to its cleanup: the commit's failure may be reported with the rollback complete. -/
lemma ensures_importUntilCommit (hidle : d₀.journal = none) :
    EndsOr (fun t => t = ⟨[], d₀⟩) (importUntilCommit digest dir files)
      (fun committed t => match committed with
        | .ok _ => Safe d₀ dir files digest t
        | .error _ => Uncommitted d₀ dir files digest t)
      (fun t => Unbegun t ∨ Safe d₀ dir files digest t) := by
  refine Ensures.bind (ensures_beginImport hidle) fun _ => ?_
  refine Ensures.attempt_bind (Ensures.weaken_crashed (ensures_stageFiles hnodup)
    (fun _ h => Or.inr (.undoable journaled_nil h))) (fun _ => ?_) (fun _ => ?_)
  · exact Ensures.attempt (Ensures.weaken_crashed (ensures_commitImport hnodup)
      (fun _ h => Or.inr h))
  · refine Ensures.bind (Ensures.mono ensures_recoverImport
      (fun _ h => .undoable journaled_nil h) (fun _ _ h => safe_of_settled h)
      (fun _ _ h => Or.inr h) (fun _ h => Or.inr h)) fun _ => ?_
    exact Ensures.throw fun t ht => Or.inr ht

lemma ensures_safe {α : Type} {m : Files C α} (hidle : Preserves (On False (Idle d₀ dir)) m)
    (hundo : ∀ entries, Preserves (On False (Undoable d₀ dir entries)) m)
    (hcommitted : Preserves (On True (Committed d₀ dir files digest)) m)
    (hfinished : Preserves (On True (Finished d₀ dir files digest)) m) :
    Preserves (Safe d₀ dir files digest) m := by
  intro world hworld
  cases hworld with
  | idle h => exact Ensures.weaken_preserves hidle (fun _ h => .idle h) world h
  | undoable hentries h =>
      exact Ensures.weaken_preserves (hundo _) (fun _ h => .undoable hentries h) world h
  | committed h => exact Ensures.weaken_preserves hcommitted (fun _ h => .committed h) world h
  | finished h => exact Ensures.weaken_preserves hfinished (fun _ h => .finished h) world h

lemma Disk.get_staged_eq_none {name : Text} (h : d.dirs dir = none) :
    d.get (.staged dir name) = none := by
  simp [Disk.get, h]

/-- A staged file may go: what it replaces is not in its place yet, or the file is there already. -/
lemma Undoable.remove_staged {entries : List ImportEntry} (h : Undoable d₀ dir entries d)
    (file : StagedImportFile C) : Undoable d₀ dir entries (d.put (.staged dir file.name) none) := by
  refine ⟨by simpa using h.journal, ?_, ?_, ?_, ?_⟩
  · intro other hother
    rw [Disk.dirs_put_staged_of_ne hother, h.framed other hother]
  · intro i e old he hold
    simpa [Disk.get_put, (file.name_ne_original i).symm] using h.existed i e old he hold
  · intro e he hmissing
    by_cases hname : e.file = file.name
    · exact Or.inr (by simp [Disk.get_put, hname])
    · simpa [Disk.get_put, hname] using h.missing e he hmissing
  · intro name hname
    simpa [Disk.get_put] using h.others name hname

lemma Undoable.remove_empty {entries : List ImportEntry} (h : Undoable d₀ dir entries d)
    (hempty : d.dirs dir = some []) : Undoable d₀ dir entries (d.setDir dir none) := by
  have hsame : ∀ name, (d.setDir dir none).get (.staged dir name) = d.get (.staged dir name) := by
    intro name
    rw [Disk.get_setDir_none]
    simp [Disk.get, hempty]
  refine ⟨h.journal, ?_, ?_, ?_, h.others⟩
  · intro other hother
    simpa [Disk.setDir, hother] using h.framed other hother
  · intro i e old he hold
    rw [hsame]
    exact h.existed i e old he hold
  · intro e he hmissing
    rw [hsame]
    exact h.missing e he hmissing

lemma Committed.remove_staged (h : Committed d₀ dir files digest d) (name : Text) :
    Committed d₀ dir files digest (d.put (.staged dir name) none) := by
  refine ⟨by simpa using h.journal, ⟨h.replaced.contents, h.replaced.others, ?_⟩, h.stamp⟩
  intro other hother
  rw [Disk.dirs_put_staged_of_ne hother, h.replaced.framed other hother]

lemma ensures_keep_removeFile {seen : Prop} {P : Disk C → Prop} {place : Place}
    (hP : ∀ d, P d → (d.get place).isSome → P (d.put place none)) :
    Preserves (On seen P) (removeFile place : Files C Unit) :=
  Ensures.weaken (ensures_removeFile hP) (fun _ _ h => h) (fun _ _ h => h.mono fun _ hd => hd.1)
    (fun _ h => h)

/-- Cleaning up changes nothing an unfinished import relies on. -/
lemma ensures_cleanUp : Preserves (Safe d₀ dir files digest) (cleanUp dir files) := by
  have hfile : ∀ file : StagedImportFile C,
      Preserves (Safe d₀ dir files digest) (removeFile (.staged dir file.name) : Files C Unit) := by
    intro file
    refine ensures_safe (ensures_keep_removeFile fun d hd hpresent => ?_)
      (fun entries => ensures_keep_removeFile fun d hd _ => hd.remove_staged file)
      (ensures_keep_removeFile fun d hd _ => hd.remove_staged file.name)
      (ensures_keep_removeFile fun d hd hpresent => ?_)
    all_goals
      rw [Disk.get_staged_eq_none hd.staging] at hpresent
      cases hpresent
  have hdir : Preserves (Safe d₀ dir files digest) (removeDir dir : Files C Unit) := by
    refine ensures_safe (ensures_removeDir fun _ hd hempty => ?_)
      (fun entries => ensures_removeDir fun d hd hempty => hd.remove_empty hempty)
      (ensures_removeDir fun _ hd _ => hd.setDir none) (ensures_removeDir fun _ hd hempty => ?_)
    all_goals
      rw [hd.staging] at hempty
      cases hempty
  refine Ensures.bind (Ensures.each (fun _ => Safe d₀ dir files digest) files fun file _ =>
    Ensures.bind (Ensures.attempt (hfile file)) fun _ => Ensures.pure fun _ h => h) fun _ => ?_
  exact Ensures.bind (Ensures.attempt hdir) fun _ => Ensures.pure fun _ h => h

namespace RolledBack

variable {file : StagedImportFile C} {rest : List (StagedImportFile C)}

lemma of_absent (h : RolledBack d₀ dir (file :: rest) d)
    (habsent : d.get (.staged dir file.name) = none) : RolledBack d₀ dir rest d := by
  refine ⟨h.journal, h.unchanged, h.staging, fun name hname => ?_⟩
  obtain ⟨file', hfile', rfl⟩ := h.known name hname
  rcases List.mem_cons.1 hfile' with rfl | hrest
  · exact absurd habsent hname
  · exact ⟨file', hrest, rfl⟩

lemma remove_staged (h : RolledBack d₀ dir (file :: rest) d) :
    RolledBack d₀ dir rest (d.put (.staged dir file.name) none) := by
  have hback : RolledBack d₀ dir (file :: rest) (d.put (.staged dir file.name) none) := by
    refine ⟨by simpa using h.journal, ⟨?_, ?_⟩, by simpa using h.staging, ?_⟩
    · intro name
      simpa [Disk.get_put] using h.unchanged.1 name
    · intro other hother
      rw [Disk.dirs_put_staged_of_ne hother, h.unchanged.2 other hother]
    · intro name hname
      refine h.known name fun habsent => hname ?_
      by_cases heq : name = file.name
      · rw [heq]
        exact Disk.get_put_none
      · rw [Disk.get_put_of_ne (by simpa using heq), habsent]
  exact hback.of_absent Disk.get_put_none

lemma empty (h : RolledBack d₀ dir [] d) : d.dirs dir = some [] := by
  obtain ⟨entries, hentries⟩ := Option.isSome_iff_exists.1 h.staging
  have hnil : entries = [] := by
    refine eq_nil_of_find_eq_none fun name => ?_
    by_contra hfound
    obtain ⟨file, hfile, -⟩ := h.known name (by simpa [Disk.get, hentries] using hfound)
    cases hfile
  rw [hentries, hnil]

lemma idle (h : RolledBack d₀ dir files d) : Idle d₀ dir (d.setDir dir none) := by
  refine ⟨h.journal, ⟨h.unchanged.1, ?_⟩, by simp [Disk.setDir]⟩
  intro other hother
  simpa [Disk.setDir, hother] using h.unchanged.2 other hother

end RolledBack

/-- After a complete rollback, an undisturbed cleanup leaves nothing of the import. -/
lemma achieves_cleanUp : Achieves (On False (RolledBack d₀ dir files)) (cleanUp dir files)
      (fun _ => On False (Idle d₀ dir)) (fun _ => On False (Idle d₀ dir)) := by
  have hfile : ∀ (file : StagedImportFile C) (rest : List (StagedImportFile C)),
      Achieves (On False (RolledBack d₀ dir (file :: rest)))
        (removeFile (.staged dir file.name) : Files C Unit)
        (fun _ => On False (RolledBack d₀ dir rest))
          (fun _ => On False (RolledBack d₀ dir rest)) := by
    intro file rest
    refine Achieves.atomic ?_ ?_
    · intro t a s ht heffect
      split at heffect
      · cases heffect
        exact ht.push ht.1.remove_staged (Disk.isCommitted_of_journal_eq (by simp))
      · cases heffect
    · intro t e ht heffect
      split at heffect
      · cases heffect
      case isFalse habsent =>
        exact ⟨ht.1.of_absent (by simpa using habsent), ht.2⟩
  have hdir : Achieves (On False (RolledBack d₀ dir [])) (removeDir dir : Files C Unit)
      (fun _ => On False (Idle d₀ dir)) (fun _ => On False (Idle d₀ dir)) := by
    refine Achieves.atomic ?_ ?_
    · intro t a s ht heffect
      simp only [ht.1.empty, Except.ok.injEq, Prod.mk.injEq] at heffect
      obtain ⟨-, rfl⟩ := heffect
      exact ht.push ht.1.idle (Disk.isCommitted_of_journal_eq rfl)
    · intro t e ht heffect
      simp [ht.1.empty] at heffect
  exact Achieves.bind (Achieves.each (fun rest => On False (RolledBack d₀ dir rest)) files
    fun file rest => Achieves.attempt_ignored (hfile file rest)) fun _ =>
    Achieves.attempt_ignored hdir

/-! ## The whole import -/

/-- What an import returns in the end does not touch the disk any more. -/
lemma trail_importFiles (world : World (Disk C) (Text → Bool)) :
    (importFiles digest dir files world).2.trail =
      match importUntilCommit digest dir files world with
      | (.done _, world) => (cleanUp dir files world).2.trail
      | (_, world) => world.trail := by
  change (Prog.bind (importUntilCommit digest dir files) _ world).2.trail = _
  unfold Prog.bind
  rcases importUntilCommit digest dir files world with ⟨committed | e | -, world'⟩
  · change (Prog.bind (cleanUp dir files) _ world').2.trail = (cleanUp dir files world').2.trail
    unfold Prog.bind
    rcases cleanUp dir files world' with ⟨- | e | -, world''⟩
    · rcases committed with e | ⟨⟩ <;> rfl
    · rfl
    · rfl
  · rfl
  · rfl

include hnodup in
/-- An import leaves nothing that recovery could not settle, unless something befalls the cleanup
after a complete rollback. -/
lemma safe_importFiles (hidle : d₀.journal = none) {fates : List (Fate (Text → Bool))}
    (hclean : ∀ committed world, importUntilCommit digest dir files ⟨⟨[], d₀⟩, fates⟩ =
      (.done committed, world) → world.trail.now.journal = none →
      (world.trail.now.dirs dir).isSome → world.Calm) :
    Unbegun (importFiles digest dir files ⟨⟨[], d₀⟩, fates⟩).2.trail ∨
      Safe d₀ dir files digest (importFiles digest dir files ⟨⟨[], d₀⟩, fates⟩).2.trail := by
  have hensures : Ensures _ (importUntilCommit digest dir files) _ _ _ :=
    ensures_importUntilCommit hnodup hidle
  have hmeets := hensures ⟨⟨[], d₀⟩, fates⟩ rfl
  rw [trail_importFiles]
  generalize importUntilCommit digest dir files ⟨⟨[], d₀⟩, fates⟩ = result at hmeets hclean ⊢
  rcases result with ⟨committed | e | -, world⟩
  · cases committed with
    | ok _ => exact Or.inr (Ensures.trail ensures_cleanUp hmeets)
    | error failure =>
      rcases hmeets with hsafe | hback
      · exact Or.inr (Ensures.trail ensures_cleanUp hsafe)
      · -- No journal is left to guide a recovery: here the cleanup has to complete.
        have hcalm := hclean _ world rfl hback.1.journal hback.1.staging
        have hend := (achieves_cleanUp world hcalm hback).1
        refine Or.inr (.idle ?_)
        change On False (Idle d₀ dir) (cleanUp dir files world).2.trail
        generalize cleanUp dir files world = result at hend ⊢
        rcases result with ⟨_ | e | _, world'⟩
        · exact hend
        · exact hend
        · exact hend.elim
  · exact hmeets
  · exact hmeets

lemma safe_recoverTimes (runs : List (List (Fate (Text → Bool)))) (t : Trail (Disk C))
    (h : Safe d₀ dir files digest t) : Safe d₀ dir files digest (recoverTimes digest runs t) := by
  induction runs generalizing t with
  | nil => exact h
  | cons fates runs ih =>
    refine ih _ ?_
    exact Ensures.trail (Ensures.weaken ensures_recoverImport (fun _ _ h => safe_of_settled h)
      (fun _ _ h => h) (fun _ h => h)) h

/-- An import that has written its journal is all or nothing: whatever befell it and the recoveries
after it, once a recovery completes the journal and the staging directory are gone, and either the
committed journal was written and every new file is in place, with the stamp of the new recipe if
there is one, or every file of the box is as it was.

The one condition: nothing befalls the cleanup when it starts with a staging directory but without a
journal, as it does after a rollback. -/
theorem import_all_or_nothing (digest : C → C) (dir : Text) (files : List (StagedImportFile C))
    (hnodup : (files.map StagedImportFile.name).Nodup) (d₀ : Disk C) (hidle : d₀.journal = none)
    (fates : List (Fate (Text → Bool)))
    (hbegun : (importFiles digest dir files ⟨⟨[], d₀⟩, fates⟩).2.trail.Saw fun d =>
      d.journal.isSome)
    (hclean : ∀ committed world, importUntilCommit digest dir files ⟨⟨[], d₀⟩, fates⟩ =
      (.done committed, world) → world.trail.now.journal = none →
        (world.trail.now.dirs dir).isSome → world.Calm)
    (runs : List (List (Fate (Text → Bool)))) (last : List (Fate (Text → Bool)))
    (world : World (Disk C) (Text → Bool))
    (hlast : recoverImport digest
      ⟨recoverTimes digest runs (importFiles digest dir files ⟨⟨[], d₀⟩, fates⟩).2.trail, last⟩ =
        (.done (), world)) :
    world.trail.now.journal = none ∧ world.trail.now.dirs dir = none ∧
      (∀ other, other ≠ dir → world.trail.now.dirs other = d₀.dirs other) ∧
      (world.trail.Saw Disk.IsCommitted →
        (∀ file ∈ files, world.trail.now.box file.name = some file.contents) ∧
        (∀ name, (∀ file ∈ files, file.name ≠ name) → name ≠ setupStamp →
          world.trail.now.box name = d₀.box name) ∧
        world.trail.now.box setupStamp =
          if recipeFile ∈ files.map StagedImportFile.name then
            (world.trail.now.box recipeFile).map digest
          else
            d₀.box setupStamp) ∧
      (¬world.trail.Saw Disk.IsCommitted → world.trail.now.box = d₀.box) := by
  have hsafe :
      Safe d₀ dir files digest (importFiles digest dir files ⟨⟨[], d₀⟩, fates⟩).2.trail := by
    rcases safe_importFiles hnodup hidle hclean with hunbegun | hsafe
    · exact absurd hbegun hunbegun
    · exact hsafe
  have hsettled := ensures_recoverImport ⟨_, last⟩ (safe_recoverTimes runs _ hsafe)
  rw [hlast] at hsettled
  rcases hsettled with ⟨hidle', hseen⟩ | ⟨hfinished, hseen⟩
  · refine ⟨hidle'.journal, hidle'.staging, hidle'.unchanged.2, ?_, ?_⟩
    · intro hsaw
      exact (hseen.1 hsaw).elim
    · intro _
      exact funext hidle'.unchanged.1
  · refine ⟨hfinished.journal, hfinished.staging, hfinished.replaced.framed, ?_, ?_⟩
    · intro _
      exact ⟨hfinished.replaced.contents, hfinished.replaced.others, hfinished.stamped⟩
    · intro hunseen
      exact absurd (hseen.2 trivial) hunseen

section Samples

/-- A box with a root image, and an import that replaces it. -/
def sampleDisk : Disk Nat :=
  ⟨fun name => if name = rootfsFile then some 0 else none, fun _ => none, none⟩

def sampleDir : Text := ".import.1".toList

def sampleFiles : List (StagedImportFile Nat) :=
  [⟨rootfsFile, 1, by decide⟩]

def pairFiles : List (StagedImportFile Nat) :=
  ⟨recipeFile, 2, by decide⟩ :: sampleFiles

def failingSwap : List (Fate (Text → Bool)) :=
  List.replicate 14 .works ++ [.fails fun _ => true]

/-- The first file is put back, the journal is removed, and the cleanup removes the staging
directory; a recovery that stops at once and another one change nothing. -/
theorem import_all_or_nothing_interrupted :
    ((importUntilCommit id sampleDir pairFiles
      ⟨⟨[], sampleDisk⟩, failingSwap⟩).2.trail.now.journal =
        none ∧
      ((importUntilCommit id sampleDir pairFiles
        ⟨⟨[], sampleDisk⟩, failingSwap⟩).2.trail.now.dirs sampleDir).isSome) ∧
    ∃ world, recoverImport id ⟨recoverTimes id [[.crashes fun _ => true]]
        (importFiles id sampleDir pairFiles ⟨⟨[], sampleDisk⟩, failingSwap⟩).2.trail, []⟩ =
          (.done (), world) ∧ world.trail.now.dirs sampleDir = none := by
  refine ⟨by decide +kernel, ?_⟩
  have hbegun : (importFiles id sampleDir pairFiles ⟨⟨[], sampleDisk⟩, failingSwap⟩).2.trail.Saw
      fun d => d.journal.isSome := by
    decide +kernel
  have hcalm : (importUntilCommit id sampleDir pairFiles
      ⟨⟨[], sampleDisk⟩, failingSwap⟩).2.fates.length = 0 := by
    decide +kernel
  have hdone : (recoverImport id ⟨recoverTimes id [[.crashes fun _ => true]]
      (importFiles id sampleDir pairFiles ⟨⟨[], sampleDisk⟩, failingSwap⟩).2.trail, []⟩).1 =
        .done () := by
    decide +kernel
  cases hlast : recoverImport id ⟨recoverTimes id [[.crashes fun _ => true]]
      (importFiles id sampleDir pairFiles ⟨⟨[], sampleDisk⟩, failingSwap⟩).2.trail, []⟩ with
  | mk ending world =>
    rw [hlast] at hdone
    rw [show ending = .done () from hdone] at hlast ⊢
    refine ⟨world, rfl, ?_⟩
    refine (import_all_or_nothing id sampleDir pairFiles (by decide) sampleDisk rfl failingSwap
      hbegun ?_ [[.crashes fun _ => true]] [] world hlast).2.1
    intro committed before h _ _
    rw [h] at hcalm
    have hnone : before.fates = [] := List.length_eq_zero_iff.1 hcalm
    intro fate hfate
    exact absurd hfate (hnone ▸ List.not_mem_nil)

/-- A rollback completes and removes the journal, and the process stops before the cleanup: the
recovery that follows returns without an error and the staging directory stays. -/
theorem rollback_leaves_staging :
    ∃ trail, trail = (importFiles id sampleDir sampleFiles ⟨⟨[], sampleDisk⟩,
        List.replicate 10 .works ++ .fails (fun _ => true) :: List.replicate 3 .works ++
          [.crashes fun _ => true]⟩).2.trail ∧
      (trail.Saw fun d => d.journal.isSome) ∧
      (recoverImport id ⟨trail, []⟩).1 = .done () ∧
      (recoverImport id ⟨trail, []⟩).2.trail.now.dirs sampleDir ≠ none := by
  refine ⟨_, rfl, ?_, ?_, ?_⟩ <;> decide

end Samples

end Terrarium.State
