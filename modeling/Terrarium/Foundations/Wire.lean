import Mathlib.Data.List.Basic
import Mathlib.Tactic.Ring

/-!
# Wire — readers and writers of byte formats

A binary format is a relation `fmt : α → List UInt8 → Prop` (`fmt a u`: the bytes `u` spell `a`).

This file defines:

* `Reader` — consumes a prefix of its input or fails; `Reads p fmt` says that `p` accepts exactly
  the inputs that start with a spelling, and leaves what follows it;
* `Writer` — appends to a buffer and may fail half way; `Writes w spelling` says what it appends.

`Reads` is an equivalence, so one proof per field gives both round trips: what is written is read
back, and what is read was written that way.
-/

namespace Terrarium.Wire

variable {ε α β : Type}

/-! ## Little-endian numbers -/

/-- The low `width` bytes of a number, least significant first. -/
def leBytes : (width : Nat) → Nat → List UInt8
  | 0, _ => []
  | width + 1, n => UInt8.ofNat n :: leBytes width (n / 256)

def leNat : List UInt8 → Nat
  | [] => 0
  | b :: bs => b.toNat + 256 * leNat bs

@[simp] lemma length_leBytes (width n : Nat) : (leBytes width n).length = width := by
  induction width generalizing n with
  | zero => rfl
  | succ width ih => simp [leBytes, ih]

lemma leNat_lt (bs : List UInt8) : leNat bs < 256 ^ bs.length := by
  induction bs with
  | nil => simp [leNat]
  | cons b bs ih =>
    have hb : b.toNat < 256 := b.toNat_lt
    simp only [leNat, List.length_cons, pow_succ]
    omega

lemma leNat_leBytes {width n : Nat} (h : n < 256 ^ width) : leNat (leBytes width n) = n := by
  induction width generalizing n with
  | zero =>
    simp only [pow_zero, Nat.lt_one_iff] at h
    simp [leBytes, leNat, h]
  | succ width ih =>
    have hdiv : n / 256 < 256 ^ width := by
      omega
    have hlow : (UInt8.ofNat n).toNat = n % 256 := by
      simp
    simp only [leBytes, leNat, ih hdiv, hlow]
    omega

lemma leBytes_leNat (bs : List UInt8) : leBytes bs.length (leNat bs) = bs := by
  induction bs with
  | nil => rfl
  | cons b bs ih =>
    have hb : b.toNat < 256 := b.toNat_lt
    have hdiv : (b.toNat + 256 * leNat bs) / 256 = leNat bs := by
      omega
    have hlow : UInt8.ofNat (b.toNat + 256 * leNat bs) = b := by
      apply UInt8.toNat.inj
      simp only [UInt8.toNat_ofNat']
      omega
    simp only [List.length_cons, leBytes, leNat, hdiv, hlow, ih]

/-! ## Readers -/

/-- A reader consumes a prefix of its input, or fails. -/
abbrev Reader (ε : Type) := StateT (List UInt8) (Except ε)

/-- `p` succeeds exactly on a spelling of its result followed by anything, and leaves the rest. -/
def Reads (p : Reader ε α) (fmt : α → List UInt8 → Prop) : Prop :=
  ∀ b a rest, p.run b = .ok (a, rest) ↔ ∃ u, fmt a u ∧ b = u ++ rest

/-- `p` succeeds and leaves nothing exactly on the spellings of its result. -/
def ReadsAll (p : Reader ε α) (fmt : α → List UInt8 → Prop) : Prop :=
  ∀ b a, p.run b = .ok (a, []) ↔ fmt a b

def takeArray (e : ε) (n : Nat) : Reader ε (List UInt8) := fun b =>
  if n ≤ b.length then .ok (b.take n, b.drop n) else .error e

def number (e : ε) (width : Nat) : Reader ε Nat := do
  return leNat (← takeArray e width)

def require (e : ε) (c : Bool) : Reader ε Unit :=
  if c then pure () else throw e

def okOr (e : ε) : Option α → Reader ε α
  | some a => pure a
  | none => throw e

def remaining : Reader ε (List UInt8) := fun b =>
  .ok (b, [])

lemma run_bind_eq_ok {p : Reader ε α} {f : α → Reader ε β} {b rest : List UInt8} {c : β} :
    (p >>= f).run b = .ok (c, rest) ↔ ∃ a m, p.run b = .ok (a, m) ∧
    (f a).run m = .ok (c, rest) := by
  rw [StateT.run_bind]
  cases h : p.run b with
  | error e =>
    constructor
    · intro hbind
      cases hbind
    · rintro ⟨a, m, hp, -⟩
      cases hp
  | ok r =>
    obtain ⟨a, m⟩ := r
    constructor
    · intro hbind
      exact ⟨a, m, rfl, hbind⟩
    · rintro ⟨a', m', hp, hf⟩
      cases hp
      exact hf

namespace Reads

variable {p : Reader ε α} {fmt : α → List UInt8 → Prop}

lemma mono {fmt' : α → List UInt8 → Prop} (h : Reads p fmt) (hiff : ∀ a u, fmt a u ↔ fmt' a u) :
    Reads p fmt' := by
  intro b a rest
  rw [h b a rest]
  constructor
  · rintro ⟨u, hu, hb⟩
    exact ⟨u, (hiff a u).1 hu, hb⟩
  · rintro ⟨u, hu, hb⟩
    exact ⟨u, (hiff a u).2 hu, hb⟩

lemma pure (a : α) : Reads (Pure.pure a : Reader ε α) (fun a' u => a' = a ∧ u = []) := by
  intro b a' rest
  constructor
  · intro h
    cases h
    exact ⟨[], ⟨rfl, rfl⟩, rfl⟩
  · rintro ⟨u, ⟨rfl, rfl⟩, rfl⟩
    rfl

lemma throw (e : ε) : Reads (MonadExcept.throw e : Reader ε α) (fun _ _ => False) := by
  intro b a rest
  constructor
  · intro h
    cases h
  · rintro ⟨u, hu, -⟩
    exact hu.elim

/-- One field after another: the spellings are concatenated. -/
lemma bind {f : α → Reader ε β} {fmt' : α → β → List UInt8 → Prop} (hp : Reads p fmt)
    (hf : ∀ a, Reads (f a) (fmt' a)) :
    Reads (p >>= f) (fun c w => ∃ a u v, fmt a u ∧ fmt' a c v ∧ w = u ++ v) := by
  intro b c rest
  rw [run_bind_eq_ok]
  constructor
  · rintro ⟨a, m, hrun, hrest⟩
    obtain ⟨u, hu, rfl⟩ := (hp b a m).1 hrun
    obtain ⟨v, hv, rfl⟩ := (hf a m c rest).1 hrest
    exact ⟨u ++ v, ⟨a, u, v, hu, hv, rfl⟩, (List.append_assoc u v rest).symm⟩
  · rintro ⟨w, ⟨a, u, v, hu, hv, rfl⟩, rfl⟩
    refine ⟨a, v ++ rest, (hp _ a _).2 ⟨u, hu, List.append_assoc u v rest⟩, ?_⟩
    exact (hf a _ c rest).2 ⟨v, hv, rfl⟩

lemma map (hp : Reads p fmt) (f : α → β) :
    Reads (do return f (← p)) (fun c u => ∃ a, fmt a u ∧ c = f a) := by
  refine (hp.bind fun a => Reads.pure (f a)).mono ?_
  intro c w
  constructor
  · rintro ⟨a, u, v, hu, ⟨hc, rfl⟩, rfl⟩
    exact ⟨a, by simpa using hu, hc⟩
  · rintro ⟨a, hu, hc⟩
    exact ⟨a, w, [], hu, ⟨hc, rfl⟩, by simp⟩

lemma check {q : Reader ε β} {fmt' : β → List UInt8 → Prop} (e : ε) (c : Bool) (hq : Reads q fmt') :
    Reads (require e c >>= fun _ => q) (fun b u => c = true ∧ fmt' b u) := by
  cases c with
  | false =>
    intro b a rest
    constructor
    · intro h
      cases h
    · rintro ⟨u, ⟨hc, -⟩, -⟩
      cases hc
  | true => exact hq.mono (by simp)

lemma bindAll {f : α → Reader ε β} {fmt' : α → β → List UInt8 → Prop}
    (hp : Reads p fmt) (hf : ∀ a, ReadsAll (f a) (fmt' a)) :
    ReadsAll (p >>= f) (fun c w => ∃ a u v, fmt a u ∧ fmt' a c v ∧ w = u ++ v) := by
  intro b c
  rw [run_bind_eq_ok]
  constructor
  · rintro ⟨a, m, hrun, hrest⟩
    obtain ⟨u, hu, rfl⟩ := (hp b a m).1 hrun
    exact ⟨a, u, m, hu, (hf a m c).1 hrest, rfl⟩
  · rintro ⟨a, u, v, hu, hv, rfl⟩
    exact ⟨a, v, (hp _ a v).2 ⟨u, hu, rfl⟩, (hf a v c).2 hv⟩

lemma toAll (h : Reads p fmt) : ReadsAll p fmt := by
  intro b a
  rw [h b a []]
  simp

end Reads

namespace ReadsAll

lemma mono {p : Reader ε α} {fmt fmt' : α → List UInt8 → Prop} (h : ReadsAll p fmt)
    (hiff : ∀ a u, fmt a u ↔ fmt' a u) : ReadsAll p fmt' := by
  intro b a
  rw [h b a, hiff a b]

lemma map {p : Reader ε α} {fmt : α → List UInt8 → Prop} (hp : ReadsAll p fmt) (f : α → β) :
    ReadsAll (do return f (← p)) (fun c u => ∃ a, fmt a u ∧ c = f a) := by
  intro b c
  rw [run_bind_eq_ok]
  constructor
  · rintro ⟨a, m, hrun, hpure⟩
    cases hpure
    exact ⟨a, (hp b a).1 hrun, rfl⟩
  · rintro ⟨a, ha, rfl⟩
    exact ⟨a, [], (hp b a).2 ha, rfl⟩

lemma throw (e : ε) {fmt : α → List UInt8 → Prop} (hfmt : ∀ a u, ¬ fmt a u) :
    ReadsAll (MonadExcept.throw e : Reader ε α) fmt := by
  intro b a
  constructor
  · intro h
    cases h
  · intro h
    exact absurd h (hfmt a b)

end ReadsAll

lemma reads_takeArray (e : ε) (n : Nat) :
    Reads (takeArray e n) (fun a u => u = a ∧ a.length = n) := by
  intro b a rest
  change (if n ≤ b.length then _ else _) = _ ↔ _
  constructor
  · intro h
    split at h
    next hn =>
      cases h
      exact ⟨b.take n, ⟨rfl, List.length_take_of_le hn⟩, (List.take_append_drop n b).symm⟩
    · cases h
  · rintro ⟨u, ⟨rfl, rfl⟩, rfl⟩
    simp

lemma reads_number (e : ε) (width : Nat) :
    Reads (number e width) (fun n u => n < 256 ^ width ∧ u = leBytes width n) := by
  refine ((reads_takeArray e width).map leNat).mono ?_
  intro n u
  constructor
  · rintro ⟨a, ⟨rfl, hlen⟩, hn⟩
    subst hn hlen
    exact ⟨leNat_lt u, (leBytes_leNat u).symm⟩
  · rintro ⟨hn, rfl⟩
    exact ⟨_, ⟨rfl, length_leBytes width n⟩, (leNat_leBytes hn).symm⟩

lemma reads_require (e : ε) (c : Bool) : Reads (require e c) (fun _ u => c = true ∧ u = []) := by
  cases c with
  | false => exact (Reads.throw e).mono (by simp)
  | true => exact (Reads.pure ()).mono (by simp)

lemma reads_okOr (e : ε) (o : Option α) : Reads (okOr e o) (fun a u => o = some a ∧ u = []) := by
  cases o with
  | none => exact (Reads.throw e).mono (by simp)
  | some a => exact (Reads.pure a).mono (by simp [eq_comm])

lemma readsAll_remaining (e : ε) (c : List UInt8 → Bool) (f : List UInt8 → α) : ReadsAll (do
      let bytes ← remaining
      require e (c bytes)
      return f bytes) (fun a u => a = f u ∧ c u = true) := by
  intro u a
  change (require e (c u) >>= fun _ => (Pure.pure (f u) : Reader ε α)).run [] = .ok (a, []) ↔ _
  rw [Reads.check e (c u) (Reads.pure (f u)) [] a []]
  constructor
  · rintro ⟨v, ⟨hc, ha, -⟩, -⟩
    exact ⟨ha, hc⟩
  · rintro ⟨ha, hc⟩
    exact ⟨[], ⟨hc, ha, rfl⟩, rfl⟩

/-! ## Writers -/

def overwrite (out : List UInt8) (offset : Nat) (bytes : List UInt8) : List UInt8 :=
  out.take offset ++ bytes ++ out.drop (offset + bytes.length)

lemma overwrite_append (before old after bytes : List UInt8) (h : old.length = bytes.length) :
    overwrite (before ++ old ++ after) before.length bytes = before ++ bytes ++ after := by
  have htake : (before ++ old ++ after).take before.length = before := by
    rw [List.append_assoc, List.take_left]
  have hdrop : (before ++ old ++ after).drop (before.length + bytes.length) = after := by
    rw [← h, ← List.length_append, List.drop_left]
  rw [overwrite, htake, hdrop]

/-- A writer appends to a buffer; when it fails, what it had written so far stays there. -/
abbrev Writer (ε : Type) := ExceptT ε (StateM (List UInt8))

def Writer.write (w : Writer ε α) (out : List UInt8) : Except ε α × List UInt8 :=
  (ExceptT.run w).run out

def put (bytes : List UInt8) : Writer ε Unit :=
  modify fun out => out ++ bytes

/-- `w` appends `spelling`, or fails when there is none; either way it only appends. -/
def Writes (w : Writer ε Unit) : Option (List UInt8) → Prop
  | some u => ∀ out, w.write out = (.ok (), out ++ u)
  | none => ∀ out, ∃ e tail, w.write out = (.error e, out ++ tail)

namespace Writes

lemma put (u : List UInt8) : Writes (Wire.put u : Writer ε Unit) (some u) := by
  intro out
  rfl

lemma throw (e : ε) : Writes (MonadExcept.throw e : Writer ε Unit) none := by
  intro out
  exact ⟨e, [], congrArg (Prod.mk _) (List.append_nil out).symm⟩

lemma write_bind {w : Writer ε α} {f : α → Writer ε β} {out out' : List UInt8}
    {r : Except ε α} (h : w.write out = (r, out')) :
    (w >>= f).write out = match r with
      | .ok a => (f a).write out'
      | .error e => (.error e, out') := by
  have hrun : (ExceptT.run w).run out = (r, out') := h
  change ((ExceptT.run (w >>= f)).run out) = _
  rw [ExceptT.run_bind, StateT.run_bind, hrun]
  cases r with
  | ok a | error e => rfl

lemma seq {w w' : Writer ε Unit} {s s' : Option (List UInt8)} (hw : Writes w s)
    (hw' : Writes w' s') :
    Writes (w >>= fun _ => w') (do let u ← s; let v ← s'; Option.some (u ++ v)) := by
  cases s with
  | none =>
    intro out
    obtain ⟨e, tail, h⟩ := hw out
    exact ⟨e, tail, write_bind h⟩
  | some u =>
    cases s' with
    | none =>
      intro out
      obtain ⟨e, tail, h⟩ := hw' (out ++ u)
      refine ⟨e, u ++ tail, ?_⟩
      rw [write_bind (hw out), ← List.append_assoc]
      exact h
    | some v =>
      intro out
      rw [write_bind (hw out), ← List.append_assoc]
      exact hw' (out ++ u)

end Writes

end Terrarium.Wire
