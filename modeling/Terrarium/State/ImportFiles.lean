import Terrarium.Foundations.Fallible
import Terrarium.State.Import

/-!
# ImportFiles — what the file operations of an import do

Names an import can stage never collide with those of its backups or with the setup stamp.  A write
to the disk shows at one place only.  Each file operation has one specification, which later proofs
cite.
-/

namespace Terrarium.State

open Faults Prog Directory
open Fallible (ite_eq_ok)

variable {C : Type}

/-! ## Names -/

lemma original_eq_cons (index : Nat) : original index = 'o' ::
    ("riginal-".toList ++ (Nat.repr index).toList) := rfl

lemma original_injective {i j : Nat} (h : original i = original j) : i = j := by
  have hdigits : Nat.toDigits 10 i = Nat.toDigits 10 j := by
    rw [← Nat.toList_repr, ← Nat.toList_repr]
    exact List.append_cancel_left h
  rw [← Nat.ofDigitChars_ten_toDigits (n := i), hdigits, Nat.ofDigitChars_ten_toDigits]

/-- A journaled name is its own path, and starts unlike an original and unlike the setup stamp. -/
lemma findJournaledFile_eq_some {name path : Text} (h : findJournaledFile name = some path) :
    path = name ∧ name.head? ≠ some 'o' ∧ name.head? ≠ some 's' := by
  unfold findJournaledFile at h
  split at h
  case isTrue hname =>
    cases h
    rcases hname with rfl | rfl
    · exact ⟨rfl, by decide, by decide⟩
    · exact ⟨rfl, by decide, by decide⟩
  case isFalse =>
    unfold findImageNamed at h
    split at h
    case isTrue hname =>
      cases h
      subst hname
      exact ⟨rfl, by decide, by decide⟩
    case isFalse =>
      simp only [Option.bind_eq_bind, Option.bind_eq_some_iff, List.dropPrefix?_eq_some_iff,
        List.dropSuffix?_eq_some_iff, beq_iff_eq] at h
      obtain ⟨rest, ⟨_, rfl, rfl⟩, volume, ⟨_, rfl, rfl⟩, hplain⟩ := h
      split at hplain
      · cases hplain
        refine ⟨by rw [List.append_assoc], ?_, ?_⟩ <;> simp [volumePrefix]
      · cases hplain

namespace StagedImportFile

variable (file : StagedImportFile C)

lemma findJournaledFile_name : findJournaledFile file.name = some file.name := by
  obtain ⟨path, hpath⟩ := Option.isSome_iff_exists.1 file.journaled
  rw [hpath, (findJournaledFile_eq_some hpath).1]

lemma name_ne_original (index : Nat) : file.name ≠ original index := by
  intro h
  refine (findJournaledFile_eq_some file.findJournaledFile_name).2.1 ?_
  rw [h, original_eq_cons, List.head?_cons]

lemma name_ne_stamp : file.name ≠ setupStamp := by
  intro h
  refine (findJournaledFile_eq_some file.findJournaledFile_name).2.2 ?_
  rw [h]
  decide

end StagedImportFile

/-! ## The disk -/

namespace Disk

variable {disk : Disk C} {place other : Place} {contents : Option C} {dir : Text}

@[simp] lemma journal_put : (disk.put place contents).journal = disk.journal := by
  cases place <;> rfl

lemma get_put_self (h : disk.hasParent place = true) :
    (disk.put place contents).get place = contents := by
  cases place with
  | live name => simp [put, get]
  | staged dir name =>
    obtain ⟨entries, hentries⟩ := Option.isSome_iff_exists.1 h
    cases contents <;> simp [put, get, hentries]

@[simp] lemma get_put_none : (disk.put place none).get place = none := by
  cases place with
  | live name => simp [put, get]
  | staged dir name => cases hentries : disk.dirs dir <;> simp [put, get, hentries]

lemma get_put_of_ne (h : other ≠ place) : (disk.put place contents).get other = disk.get other := by
  cases place with
  | live name =>
    cases other with
    | live name' =>
      have hne : name' ≠ name := fun heq => h (heq ▸ rfl)
      simp [put, get, hne]
    | staged dir' name' => rfl
  | staged dir name =>
    cases other with
    | live name' => rfl
    | staged dir' name' =>
      by_cases hdir : dir' = dir
      · subst hdir
        have hne : name' ≠ name := fun heq => h (heq ▸ rfl)
        cases hentries : disk.dirs dir' <;> cases contents <;> simp [put, get, hentries, hne]
      · simp [put, get, hdir]

@[simp] lemma hasParent_live {name : Text} : disk.hasParent (.live name) = true := rfl

lemma get_put : (disk.put place contents).get other =
    if other = place then (if disk.hasParent place then contents else none)
      else disk.get other := by
  by_cases hplace : other = place
  · subst hplace
    cases hparent : disk.hasParent other with
    | true => simp [get_put_self hparent]
    | false =>
      cases other with
      | live name => cases hparent
      | staged dir name =>
        have hdir : disk.dirs dir = none := by
          simpa [hasParent] using hparent
        simp [put, get, hdir]
  · simp [get_put_of_ne hplace, hplace]

@[simp] lemma isSome_dirs_put : ((disk.put place contents).dirs dir).isSome =
    (disk.dirs dir).isSome := by
  cases place with
  | live name => rfl
  | staged dir' name =>
      by_cases hdir : dir = dir'
      · subst hdir
        simp [put]
      · simp [put, hdir]

@[simp] lemma dirs_put_live {name : Text} : (disk.put (.live name) contents).dirs = disk.dirs := rfl

lemma dirs_put_staged_of_ne {name dir' : Text} (h : dir' ≠ dir) :
    (disk.put (.staged dir name) contents).dirs dir' = disk.dirs dir' := by
  simp [put, h]

def IsCommitted (disk : Disk C) : Prop :=
  ∃ record, disk.journal = some record ∧ record.committed = true

lemma isCommitted_of_journal_eq {disk' : Disk C} {seen : Prop} (h : disk'.journal = disk.journal) :
    disk'.IsCommitted → seen ∨ disk.IsCommitted := by
  rintro ⟨record, hrecord, hcommitted⟩
  exact Or.inr ⟨record, h ▸ hrecord, hcommitted⟩

end Disk

/-! ## Specifications of the file operations

`On seen P`: the disk satisfies `P`, and `seen` says whether a committed journal was ever written.
-/

abbrev On (seen : Prop) (P : Disk C → Prop) : Trail (Disk C) → Prop :=
  Marked Disk.IsCommitted seen P

section Operations

variable {seen : Prop} {P Q X : Disk C → Prop} {place source target : Place} {dir : Text}

/-- One indivisible operation: wherever it does not go through, the disk is as it was. -/
lemma ensures_atomic {α : Type} {effect : Disk C → Except Failure (α × Disk C)}
    {R : α → Disk C → Prop} (hX : ∀ d, P d → X d)
    (hdone : ∀ d a d', P d → effect d = .ok (a, d') → R a d' ∧
      (d'.IsCommitted → seen ∨ d.IsCommitted)) :
    EndsOr (On seen P) (atomic .io effect : Files C α) (fun a => On seen (R a)) (On seen X) :=
  Ensures.weaken_crashed (Ensures.atomic_marked
    (E := fun _ => X) hdone (fun d _ hd _ => hX d hd) hX) (fun _ h => h.mono hX)

lemma ensures_isPresent (hX : ∀ d, P d → X d) : EndsOr (On seen P) (isPresent place : Files C Bool)
      (fun present => On seen fun d => P d ∧ present = (d.get place).isSome)
      (On seen X) := by
  refine ensures_atomic hX fun d present d' hd heffect => ?_
  cases heffect
  exact ⟨⟨hd, rfl⟩, Or.inr⟩

lemma ensures_readFile (hX : ∀ d, P d → X d) : EndsOr (On seen P) (readFile place : Files C C)
      (fun contents => On seen fun d => P d ∧ d.get place = some contents)
      (On seen X) := by
  refine ensures_atomic hX fun d contents d' hd heffect => ?_
  split at heffect
  next found hget =>
    cases heffect
    exact ⟨⟨hd, hget⟩, Or.inr⟩
  · cases heffect

lemma ensures_sync (hX : ∀ d, P d → X d) :
    EndsOr (On seen P) (sync : Files C Unit) (fun _ => On seen P) (On seen X) := by
  refine ensures_atomic (R := fun _ => P) hX fun d a d' hd heffect => ?_
  cases heffect
  exact ⟨hd, Or.inr⟩

lemma ensures_rename (hX : ∀ d, P d → X d)
    (hQ : ∀ d contents, P d → d.get source = some contents → d.hasParent target = true →
      Q ((d.put source none).put target (some contents))) :
    EndsOr (On seen P) (rename source target : Files C Unit) (fun _ => On seen Q) (On seen X) := by
  refine ensures_atomic (R := fun _ => Q) hX fun d a d' hd heffect => ?_
  split at heffect
  next contents hget =>
    obtain ⟨hparent, heq⟩ := ite_eq_ok.1 heffect
    cases heq
    exact ⟨hQ d contents hd hget hparent, Disk.isCommitted_of_journal_eq (by simp)⟩
  · cases heffect

lemma ensures_removeFile (hQ : ∀ d, P d → (d.get place).isSome → Q (d.put place none)) :
    Ensures (On seen P) (removeFile place : Files C Unit) (fun _ => On seen Q)
      (fun failure => On seen fun d => P d ∧ (failure = .notFound → d.get place = none))
      (On seen P) := by
  refine Ensures.atomic_marked ?_ ?_ ?_
  · intro d a d' hd heffect
    obtain ⟨hpresent, heq⟩ := ite_eq_ok.1 heffect
    cases heq
    exact ⟨hQ d hd hpresent, Disk.isCommitted_of_journal_eq (by simp)⟩
  · intro d e hd heffect
    cases hget : d.get place with
    | none => exact ⟨hd, fun _ => rfl⟩
    | some contents => simp [hget] at heffect
  · intro d hd
    exact ⟨hd, nofun⟩

lemma ensures_ifPresent {operation : Files C Unit} {R : Disk C → Prop} (hQ : ∀ d, R d → Q d)
    (h : Ensures (On seen P) operation (fun _ => On seen Q)
      (fun failure => On seen fun d => X d ∧ (failure = .notFound → R d)) (On seen X)) :
    EndsOr (On seen P) (ifPresent operation) (fun _ => On seen Q) (On seen X) := by
  refine Ensures.attempt_bind h (fun _ => Ensures.pure fun t ht => ht) fun failure => ?_
  cases failure with
  | notFound => exact Ensures.pure fun t ht => ht.mono fun d hd => hQ d (hd.2 rfl)
  | io | message text => exact Ensures.throw fun t ht => ht.mono fun d hd => hd.1

lemma ensures_removeFileIfPresent (hX : ∀ d, P d → X d) (hQ : ∀ d, P d → Q (d.put place none))
    (habsent : ∀ d, P d → d.get place = none → Q d) :
    EndsOr (On seen P) (removeFileIfPresent place : Files C Unit) (fun _ => On seen Q)
      (On seen X) := by
  refine ensures_ifPresent (R := fun d => P d ∧ d.get place = none)
    (fun d hd => habsent d hd.1 hd.2) ?_
  refine Ensures.weaken (ensures_removeFile fun d hd _ => hQ d hd) (fun _ _ h => h)
    (fun failure _ h => h.mono fun d hd => ⟨hX d hd.1, fun hnf => ⟨hd.1, hd.2 hnf⟩⟩)
    (fun _ h => h.mono hX)

lemma ensures_stagedWrite {contents : C} (hPX : ∀ d, P d → X d) (hQX : ∀ d, Q d → X d)
    (hQ : ∀ d, P d → d.hasParent place = true → Q (d.put place (some contents))) :
    EndsOr (On seen P) (stagedWrite place contents) (fun _ => On seen Q) (On seen X) := by
  refine Ensures.bind (ensures_atomic (R := fun _ => Q) hPX fun d a d' hd heffect => ?_) fun _ =>
    ensures_sync hQX
  obtain ⟨hparent, heq⟩ := ite_eq_ok.1 heffect
  cases heq
  exact ⟨hQ d hd hparent, Disk.isCommitted_of_journal_eq (by simp)⟩

lemma ensures_removeDirAll (hX : ∀ d, P d → X d)
    (hQ : ∀ d, P d → Q (d.setDir dir none)) (habsent : ∀ d, P d → d.dirs dir = none → Q d)
    (hpart : ∀ d kept, P d → P (d.setDir dir ((d.dirs dir).map (keep kept)))) :
    EndsOr (On seen P) (ifPresent (removeDirAll dir) : Files C Unit) (fun _ => On seen Q)
      (On seen X) := by
  have hbroken : Ensures (On seen P) (removeDirAll dir : Files C Unit) (fun _ => On seen Q)
      (fun failure => On seen fun d => P d ∧ (failure = .notFound → d.dirs dir = none))
      (On seen P) := by
    refine Ensures.breakable_marked ?_ ?_ ?_ ?_
    · intro d a d' hd heffect
      obtain ⟨-, heq⟩ := ite_eq_ok.1 heffect
      cases heq
      exact ⟨hQ d hd, Disk.isCommitted_of_journal_eq rfl⟩
    · intro d e hd heffect
      cases hdir : d.dirs dir with
      | none => exact ⟨hd, fun _ => rfl⟩
      | some entries => simp [hdir] at heffect
    · intro d kept hd
      exact ⟨hpart d kept hd, Disk.isCommitted_of_journal_eq rfl⟩
    · intro d hd
      exact ⟨hd, nofun⟩
  refine ensures_ifPresent (R := fun d => P d ∧ d.dirs dir = none)
    (fun d hd => habsent d hd.1 hd.2) ?_
  exact Ensures.weaken hbroken (fun _ _ h => h)
    (fun failure _ h => h.mono fun d hd => ⟨hX d hd.1, fun hnf => ⟨hd.1, hd.2 hnf⟩⟩)
    (fun _ h => h.mono hX)

lemma ensures_readJournal (hX : ∀ d, P d → X d) : EndsOr (On seen P) (readJournal : Files C _)
      (fun journal => On seen fun d => P d ∧ journal = d.journal)
      (On seen X) := by
  refine ensures_atomic hX fun d journal d' hd heffect => ?_
  cases heffect
  exact ⟨⟨hd, rfl⟩, Or.inr⟩

lemma ensures_removeJournal (hX : ∀ d, P d → X d) (hQ : ∀ d, P d → Q { d with journal := none }) :
    EndsOr (On seen P) (removeJournal : Files C Unit) (fun _ => On seen Q) (On seen X) := by
  refine ensures_atomic (R := fun _ => Q) hX fun d a d' hd heffect => ?_
  obtain ⟨-, heq⟩ := ite_eq_ok.1 heffect
  cases heq
  refine ⟨hQ d hd, ?_⟩
  rintro ⟨record, hrecord, -⟩
  cases hrecord

lemma ensures_writeImportJournal {record : ImportJournal} (hrecord : record.committed = false)
    (hPX : ∀ d, P d → X d) (hQX : ∀ d, Q d → X d)
    (hQ : ∀ d, P d → Q { d with journal := some record }) :
    EndsOr (On seen P) (writeImportJournal record : Files C Unit) (fun _ => On seen Q)
      (On seen X) := by
  refine Ensures.bind (ensures_atomic (R := fun _ => Q) hPX fun d a d' hd heffect => ?_) fun _ =>
    ensures_sync hQX
  cases heffect
  refine ⟨hQ d hd, ?_⟩
  rintro ⟨record', hrecord', hcommitted⟩
  cases hrecord'
  rw [hrecord] at hcommitted
  cases hcommitted

/-- The write may be reported as failed although the journal is on disk. -/
lemma ensures_writeImportJournal_committed {record : ImportJournal}
    (hrecord : record.committed = true) (hQ : ∀ d, P d → Q { d with journal := some record }) :
    EndsOr (On seen P) (writeImportJournal record : Files C Unit) (fun _ => On True Q)
      (fun t => On seen P t ∨ On True Q t) := by
  refine Ensures.bind (Ensures.weaken (Ensures.atomic_mark (Q := fun _ => Q) (E := fun _ => P) ?_ ?_
    (fun _ h => h)) (fun _ _ h => h) (fun _ _ h => Or.inl h) (fun _ h => Or.inl h))
    fun _ => Ensures.weaken (ensures_sync fun _ h => h) (fun _ _ h => h) (fun _ _ h => Or.inr h)
      (fun _ h => Or.inr h)
  · intro d a d' hd heffect
    cases heffect
    exact ⟨hQ d hd, record, rfl, hrecord⟩
  · intro d e hd heffect
    cases heffect

lemma ensures_removeDir (hP : ∀ d, P d → d.dirs dir = some [] → P (d.setDir dir none)) :
    Preserves (On seen P) (removeDir dir : Files C Unit) := by
  refine Ensures.atomic_marked ?_ (fun d e hd _ => hd) (fun d hd => hd)
  intro d a d' hd heffect
  split at heffect
  · cases heffect
  next hdir =>
    cases heffect
    exact ⟨hP d hd hdir, Disk.isCommitted_of_journal_eq rfl⟩
  · cases heffect

end Operations

end Terrarium.State
