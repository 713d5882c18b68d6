import Terrarium.Device.Mmio
import Terrarium.Foundations.Wire

/-!
# SplitRing — descriptor chains of a split ring

`split_ring_chain` of `components/device-transport/src/lib.rs`: the descriptors a guest links from
the head of a request.  `Path` says what it means to follow the links, with no regard to what was
visited or to how many links there may be.
-/

namespace Terrarium.Device

open Wire (leNat)

def splitRingDescFNext : UInt16 := 1

structure SplitRingDescriptor where
  addr : UInt64
  len : UInt32
  flags : UInt16
  next : UInt16
  deriving DecidableEq

namespace SplitRingDescriptor

/-- The little-endian fields of a descriptor of the table, if all of it is there. -/
def read (table : List UInt8) (index : UInt16) : Option SplitRingDescriptor :=
  let size := splitRingDescriptorBytes.toNat
  let bytes := (table.drop (index.toNat * size)).take size
  if bytes.length = size then
    some
      { addr := .ofNat (leNat (bytes.take 8))
        len := .ofNat (leNat ((bytes.drop 8).take 4))
        flags := .ofNat (leNat ((bytes.drop 12).take 2))
        next := .ofNat (leNat (bytes.drop 14)) }
  else none

def hasNext (descriptor : SplitRingDescriptor) : Bool :=
  descriptor.flags &&& splitRingDescFNext ≠ 0

end SplitRingDescriptor

inductive SplitRingError
  | badDescriptor
  | chainTooLong
  deriving DecidableEq

section

structure SplitRing where
  table : List UInt8
  size : UInt16
  allowedFlags : UInt16

variable (ring : SplitRing)

/-- The loop over at most `remaining` further descriptors.  `visited` are the marked indices. -/
def followSplitRing : (remaining : Nat) → (index : UInt16) → (visited : List UInt16) →
    (chain : List SplitRingDescriptor) → Except SplitRingError (List SplitRingDescriptor)
  | 0, _, _, _ => .error .chainTooLong
  | remaining + 1, index, visited, chain =>
    if index ≥ ring.size ∨ index ∈ visited then .error .badDescriptor
    else
      match SplitRingDescriptor.read ring.table index with
      | none => .error .badDescriptor
      | some descriptor =>
        if descriptor.flags &&& ~~~ring.allowedFlags ≠ 0 then .error .badDescriptor
        else if !descriptor.hasNext then .ok (chain ++ [descriptor])
        else if descriptor.next ≥ ring.size ∨ descriptor.next ∈ index :: visited then
          .error .badDescriptor
        else followSplitRing remaining descriptor.next (index :: visited) (chain ++ [descriptor])

def splitRingChain (table : List UInt8) (index size : UInt16) (maxDescriptors : Nat)
    (allowedFlags : UInt16) : Except SplitRingError (List SplitRingDescriptor) :=
  if size = 0 ∨ maxDescriptors = 0 then .error .badDescriptor
  else followSplitRing ⟨table, size, allowedFlags⟩ maxDescriptors index [] []

/-- A descriptor of the queue that lies in the table and carries only allowed flags. -/
structure Usable (index : UInt16) (descriptor : SplitRingDescriptor) : Prop where
  inRange : index < ring.size
  found : SplitRingDescriptor.read ring.table index = some descriptor
  allowed : descriptor.flags &&& ~~~ring.allowedFlags = 0

/-- The links from an index on: the indices met, their descriptors, and the index that is next, if
any. -/
inductive Path : UInt16 → List UInt16 → List SplitRingDescriptor → Option UInt16 → Prop where
  | pending (index : UInt16) : Path index [] [] (some index)
  | last {index : UInt16} {descriptor : SplitRingDescriptor} : Usable ring index descriptor →
      descriptor.hasNext = false → Path index [index] [descriptor] none
  | link {index : UInt16} {descriptor : SplitRingDescriptor} {indices : List UInt16}
      {chain : List SplitRingDescriptor} {next : Option UInt16} :
      Usable ring index descriptor → descriptor.hasNext = true →
      Path descriptor.next indices chain next →
      Path index (index :: indices) (descriptor :: chain) next

variable {ring} {index : UInt16} {visited indices : List UInt16}
  {chain result : List SplitRingDescriptor} {remaining : Nat}

lemma Path.start (h : Path ring index indices chain none) : index < ring.size ∧
    index ∈ indices := by
  cases h with
  | last husable _ | link husable _ _ => exact ⟨husable.inRange, List.mem_cons_self⟩

lemma followSplitRing_succ {descriptor : SplitRingDescriptor}
    (husable : Usable ring index descriptor) (hfresh : index ∉ visited) :
    followSplitRing ring (remaining + 1) index visited chain =
      if !descriptor.hasNext then .ok (chain ++ [descriptor])
      else if descriptor.next ≥ ring.size ∨ descriptor.next ∈ index :: visited then
        .error .badDescriptor
      else followSplitRing ring remaining descriptor.next (index :: visited)
        (chain ++ [descriptor]) := by
  have henter : ¬ (index ≥ ring.size ∨ index ∈ visited) :=
    not_or.2 ⟨UInt16.not_le.2 husable.inRange, hfresh⟩
  rw [followSplitRing, if_neg henter, husable.found]
  exact if_neg (not_not.2 husable.allowed)

lemma usable_of_followSplitRing
    (h : followSplitRing ring (remaining + 1) index visited chain ≠ .error .badDescriptor) :
    ∃ descriptor, Usable ring index descriptor ∧ index ∉ visited := by
  rw [followSplitRing] at h
  split at h
  · exact absurd rfl h
  next henter =>
    obtain ⟨hrange, hfresh⟩ := not_or.1 henter
    split at h
    · exact absurd rfl h
    next descriptor hfound =>
      by_cases hflags : descriptor.flags &&& ~~~ring.allowedFlags = 0
      · exact ⟨descriptor, ⟨UInt16.not_le.1 hrange, hfound, hflags⟩, hfresh⟩
      · simp only [if_pos hflags] at h
        exact absurd rfl h

lemma followSplitRing_of_path (hpath : Path ring index indices chain none)
    (hdistinct : indices.Nodup) (hfresh : ∀ i ∈ indices, i ∉ visited)
    (hlength : chain.length ≤ remaining) (before : List SplitRingDescriptor) :
    followSplitRing ring remaining index visited before = .ok (before ++ chain) := by
  induction chain generalizing index indices visited remaining before with
  | nil => cases hpath
  | cons descriptor chain ih =>
    obtain ⟨remaining, rfl⟩ := Nat.exists_eq_add_one.2 (Nat.lt_of_lt_of_le (Nat.succ_pos _) hlength)
    cases hpath with
    | last husable hlast =>
      rw [followSplitRing_succ husable (hfresh index List.mem_cons_self), hlast]
      rfl
    | @link _ _ indices _ _ husable hnext hrest =>
      obtain ⟨hrange, hmem⟩ := hrest.start
      obtain ⟨hindex, hdistinct⟩ := List.nodup_cons.1 hdistinct
      have hfresh' : ∀ i ∈ indices, i ∉ index :: visited := by
        intro i hi
        rw [List.mem_cons, not_or]
        exact ⟨fun heq => hindex (heq ▸ hi), hfresh i (List.mem_cons_of_mem _ hi)⟩
      have hgo : ¬ (descriptor.next ≥ ring.size ∨ descriptor.next ∈ index :: visited) :=
        not_or.2 ⟨UInt16.not_le.2 hrange, hfresh' _ hmem⟩
      rw [followSplitRing_succ husable (hfresh index List.mem_cons_self), hnext,
        Bool.not_true, if_neg nofun,
        if_neg hgo, ih hrest hdistinct hfresh' (Nat.le_of_succ_le_succ hlength), List.append_assoc]
      rfl

/-- What the loop has followed when it does not find fault with a descriptor. -/
structure Followed (ring : SplitRing) (visited : List UInt16) (remaining : Nat) (index : UInt16)
    (indices : List UInt16) (chain : List SplitRingDescriptor) (next : Option UInt16) : Prop where
  path : Path ring index indices chain next
  distinct : indices.Nodup
  fresh : ∀ i ∈ indices, i ∉ visited
  length : chain.length ≤ remaining
  more : ∀ i ∈ next, i < ring.size ∧ i ∉ indices ∧ i ∉ visited ∧ chain.length = remaining

def followResult (chain : List SplitRingDescriptor) :
    Option UInt16 → Except SplitRingError (List SplitRingDescriptor)
  | none => .ok chain
  | some _ => .error .chainTooLong

lemma followed_of_followSplitRing (remaining : Nat) (index : UInt16) (visited : List UInt16)
    (before : List SplitRingDescriptor)
    (hstart : remaining = 0 → index < ring.size ∧ index ∉ visited)
    (h : followSplitRing ring remaining index visited before ≠ .error .badDescriptor) :
    ∃ indices chain next, Followed ring visited remaining index indices chain next ∧
      followSplitRing ring remaining index visited before =
        followResult (before ++ chain) next := by
  induction remaining generalizing index visited before with
  | zero =>
    obtain ⟨hrange, hfresh⟩ := hstart rfl
    refine ⟨[], [], some index, ⟨.pending index, List.nodup_nil, nofun, Nat.le_refl 0, ?_⟩, rfl⟩
    rintro i ⟨⟩
    exact ⟨hrange, List.not_mem_nil, hfresh, rfl⟩
  | succ remaining ih =>
    obtain ⟨descriptor, husable, hfresh⟩ := usable_of_followSplitRing h
    rw [followSplitRing_succ husable hfresh] at h ⊢
    cases hnext : descriptor.hasNext with
    | false =>
      have hsingle : [index].Nodup := List.nodup_cons.2 ⟨List.not_mem_nil, List.nodup_nil⟩
      refine ⟨[index], [descriptor], none, ⟨.last husable hnext, hsingle, ?_, ?_, nofun⟩, rfl⟩
      · rintro i hi
        rwa [List.mem_singleton.1 hi]
      · exact Nat.succ_le_succ (Nat.zero_le _)
    | true =>
      rw [hnext, Bool.not_true, if_neg nofun] at h
      by_cases hgo : descriptor.next ≥ ring.size ∨ descriptor.next ∈ index :: visited
      · rw [if_pos hgo] at h
        exact absurd rfl h
      · rw [if_neg hgo] at h ⊢
        obtain ⟨hrange, hunvisited⟩ := not_or.1 hgo
        obtain ⟨indices, chain, next, hf, heq⟩ :=
          ih _ _ _ (fun _ => ⟨UInt16.not_le.1 hrange, hunvisited⟩) h
        have hindex : index ∉ indices := fun hmem => hf.fresh index hmem List.mem_cons_self
        refine ⟨index :: indices, descriptor :: chain, next, ⟨.link husable hnext hf.path,
          List.nodup_cons.2 ⟨hindex, hf.distinct⟩, ?_, Nat.succ_le_succ hf.length, ?_⟩, ?_⟩
        · intro i hi
          rcases List.mem_cons.1 hi with rfl | hi
          · exact hfresh
          · exact fun hmem => hf.fresh i hi (List.mem_cons_of_mem _ hmem)
        · intro i hi
          obtain ⟨hsize, hnew, hunmarked, hlength⟩ := hf.more i hi
          rw [List.mem_cons, not_or] at hunmarked
          refine ⟨hsize, ?_, hunmarked.2, congrArg (· + 1) hlength⟩
          exact fun hmem => (List.mem_cons.1 hmem).elim hunmarked.1 hnew
        · rw [heq, List.append_assoc]
          rfl

/-- A chain is returned exactly if the links from the head end within the limit and meet no
descriptor twice; and it is too long only if the links go on after that many good descriptors, to a
fresh one of the queue. -/
theorem split_ring_chain_follows_links (table : List UInt8) (head size : UInt16)
    (maxDescriptors : Nat) (allowedFlags : UInt16) :
    (∀ chain, splitRingChain table head size maxDescriptors allowedFlags = .ok chain ↔
      ∃ indices, Path ⟨table, size, allowedFlags⟩ head indices chain none ∧ indices.Nodup ∧
        chain.length ≤ maxDescriptors) ∧
    (splitRingChain table head size maxDescriptors allowedFlags = .error .chainTooLong →
      ∃ indices chain next, Path ⟨table, size, allowedFlags⟩ head indices chain (some next) ∧
      indices.Nodup ∧
        chain.length = maxDescriptors ∧ next < size ∧ next ∉ indices) := by
  rw [splitRingChain]
  split
  next hguard =>
    refine ⟨fun chain => ⟨nofun, ?_⟩, nofun⟩
    rintro ⟨indices, hpath, -, hlength⟩
    rcases hguard with rfl | rfl
    · exact absurd hpath.start.1 (UInt16.not_lt.2 UInt16.zero_le)
    · rw [List.length_eq_zero_iff.1 (Nat.le_zero.1 hlength)] at hpath
      cases hpath
  next hguard =>
    have hfollow := @followed_of_followSplitRing ⟨table, size, allowedFlags⟩
      maxDescriptors head [] [] fun hzero => absurd (Or.inr hzero) hguard
    constructor
    · intro chain
      constructor
      · intro hok
        rw [hok] at hfollow
        obtain ⟨indices, rest, next, hf, heq⟩ := hfollow nofun
        cases next with
        | none =>
          cases heq
          exact ⟨indices, hf.path, hf.distinct, hf.length⟩
        | some _ => cases heq
      · rintro ⟨indices, hpath, hdistinct, hlength⟩
        exact followSplitRing_of_path hpath hdistinct (fun _ _ => List.not_mem_nil) hlength []
    · intro herror
      rw [herror] at hfollow
      obtain ⟨indices, rest, next, hf, heq⟩ := hfollow nofun
      cases next with
      | none => cases heq
      | some next =>
        obtain ⟨hsize, hnew, -, hlength⟩ := hf.more next rfl
        exact ⟨indices, rest, next, hf.path, hf.distinct, hlength, hsize, hnew⟩

end

end Terrarium.Device
