import Terrarium.Foundations.Run

/-!
# ByteChannel — merging the chunks of a component's byte stream

A component's bytes enter a bounded queue in chunks of at most `maxChunk` bytes.  The receiver
merges the chunks that are already queued while they fit; it takes a chunk out of the queue before
it knows that, so the first one that does not fit is parked in `carried` for the next call.  A call
is cut into its single `try_recv`s, between which the sender may run.
-/

namespace Terrarium.Runtime

open Run (Trace Event)

def byteQueueBytes : Nat := 128 * 1024

/-- Both ends of a byte channel, with the chunk that a call of `next` under way has merged so far.
-/
structure ByteChannel where
  maxChunk : Nat
  queue : List (List UInt8) := []
  closed : Bool := false
  cancelled : Bool := false
  carried : Option (List UInt8) := none
  merged : Option (List UInt8) := none

namespace ByteChannel

inductive Op where
  | send (chunk : List UInt8)
  | cancel
  | close
  | next
  | tryRecv

inductive Outcome where
  | quiet
  | chunk (bytes : List UInt8)
  | writeCancelled
  | ended

variable {c c' t : ByteChannel} {op : Op} {out : Outcome} {es : List (Event ByteChannel Op Outcome)}

def queuedChunks (c : ByteChannel) : Nat :=
  max (byteQueueBytes / c.maxChunk) 1

/-- `next` up to the point where it has its first chunk. -/
def next (c : ByteChannel) : Option (Outcome × ByteChannel) :=
  match c.carried with
  | some chunk => some (.quiet, { c with carried := none, merged := some chunk })
  | none =>
    if c.cancelled then some (.writeCancelled, c)
    else match c.queue with
      | chunk :: queue => some (.quiet, { c with queue, merged := some chunk })
      | [] => if c.closed then some (.ended, c) else none

def tryRecv (c : ByteChannel) (merged : List UInt8) : Outcome × ByteChannel :=
  match c.queue with
  | [] => (.chunk merged, { c with merged := none })
  | chunk :: queue =>
    if merged.length + chunk.length > c.maxChunk then
      (.chunk merged, { c with queue, carried := some chunk, merged := none })
    else (.quiet, { c with queue, merged := some (merged ++ chunk) })

def step (c : ByteChannel) : Op → Option (Outcome × ByteChannel)
  | .send chunk =>
    if chunk.length ≤ c.maxChunk ∧ c.queue.length < c.queuedChunks ∧ !c.closed then
      some (.quiet, { c with queue := c.queue ++ [chunk] })
    else none
  | .cancel => some (.quiet, { c with cancelled := true })
  | .close => some (.quiet, { c with closed := true })
  | .next => if c.merged.isSome then none else c.next
  | .tryRecv => c.merged.map c.tryRecv

/-! ## Where the bytes are -/

/-- The chunks that were sent. -/
def sent (es : List (Event ByteChannel Op Outcome)) : List (List UInt8) :=
  es.filterMap fun e => match e.op with
    | .send chunk => some chunk
    | _ => none

/-- The chunks that calls of `next` have returned. -/
def returned (es : List (Event ByteChannel Op Outcome)) : List (List UInt8) :=
  es.filterMap fun e => match e.out with
    | .chunk bytes => some bytes
    | _ => none

/-- Every chunk the receiver has returned, has or will take, in order. -/
def chunks (es : List (Event ByteChannel Op Outcome)) (c : ByteChannel) : List (List UInt8) :=
  returned es ++ c.merged.toList ++ c.carried.toList ++ c.queue

/-- Nothing is lost or reordered, every chunk keeps within the bounds, and the slot is free while
chunks are merged. -/
structure Conserves (maxChunk : Nat) (es : List (Event ByteChannel Op Outcome)) (c : ByteChannel) :
    Prop where
  limit : c.maxChunk = maxChunk
  flow : (chunks es c).flatten = (sent es).flatten
  bounded : ∀ chunk ∈ chunks es c, chunk.length ≤ maxChunk
  nonempty : [] ∉ sent es → [] ∉ chunks es c
  free : c.merged ≠ none → c.carried = none

/-- The chunk that was carried is still there, or a call of `next` has taken it. -/
def Parks (c c' : ByteChannel) : Prop :=
  ∀ chunk, c.carried = some chunk → c'.carried = some chunk ∨ c'.merged = some chunk

lemma Parks.of_eq (h : c'.carried = c.carried) : Parks c c' :=
  fun _ hchunk => .inl (h.trans hchunk)

namespace Conserves

variable {maxChunk : Nat} {e : Event ByteChannel Op Outcome}

lemma sent_snoc (h : sent [e] = []) : sent (es ++ [e]) = sent es := by
  rw [sent, List.filterMap_append, ← sent, ← sent, h, List.append_nil]

lemma returned_snoc (h : returned [e] = []) : returned (es ++ [e]) = returned es := by
  rw [returned, List.filterMap_append, ← returned, ← returned, h, List.append_nil]

lemma of_chunks (hc : Conserves maxChunk es c) (hlimit : c'.maxChunk = c.maxChunk)
    (hchunks : chunks (es ++ [e]) c' = chunks es c) (hsent : sent [e] = [])
    (hfree : c'.merged ≠ none → c'.carried = none) : Conserves maxChunk (es ++ [e]) c' := by
  refine ⟨hlimit.trans hc.limit, ?_, hchunks ▸ hc.bounded, ?_, hfree⟩
  · rw [hchunks, sent_snoc hsent, hc.flow]
  · rw [hchunks, sent_snoc hsent]
    exact hc.nonempty

lemma send {chunk : List UInt8} (hc : Conserves maxChunk es c) (hchunk : chunk.length ≤ c.maxChunk)
    (hop : e.op = .send chunk) (hout : e.out = .quiet) :
    Conserves maxChunk (es ++ [e]) { c with queue := c.queue ++ [chunk] } := by
  have hchunks : chunks (es ++ [e]) { c with queue := c.queue ++ [chunk] } =
    chunks es c ++ [chunk] := by
    simp [chunks, returned, hout]
  have hsent : sent (es ++ [e]) = sent es ++ [chunk] := by
    simp [sent, hop]
  refine ⟨hc.limit, ?_, ?_, ?_, hc.free⟩
  · rw [hchunks, hsent, List.flatten_append, List.flatten_append, hc.flow]
  · rw [hchunks, List.forall_mem_append]
    exact ⟨hc.bounded, by simpa [hc.limit] using hchunk⟩
  · rw [hchunks, hsent]
    simpa using fun hold hchunk => ⟨hc.nonempty hold, hchunk⟩

lemma next (hc : Conserves maxChunk es c) (hmerged : c.merged = none)
    (h : c.next = some (out, c')) :
    Conserves maxChunk (es ++ [⟨c, .next, out, c'⟩]) c' ∧ Parks c c' := by
  unfold ByteChannel.next at h
  split at h
  next chunk hcarried =>
    cases h
    refine ⟨hc.of_chunks rfl ?_ rfl fun _ => rfl, fun x hx => .inr (hcarried.symm.trans hx)⟩
    simp [chunks, returned, hcarried, hmerged]
  next hcarried =>
    split at h
    · cases h
      exact ⟨hc.of_chunks rfl (by simp [chunks, returned]) rfl hc.free, Parks.of_eq rfl⟩
    · split at h
      next chunk queue hqueue =>
        cases h
        refine ⟨hc.of_chunks rfl ?_ rfl fun _ => hcarried, Parks.of_eq rfl⟩
        simp [chunks, returned, hcarried, hmerged, hqueue]
      · split at h
        · cases h
          exact ⟨hc.of_chunks rfl (by simp [chunks, returned]) rfl hc.free, Parks.of_eq rfl⟩
        · cases h

lemma tryRecv {merged : List UInt8} (hc : Conserves maxChunk es c)
    (hmerged : c.merged = some merged) (h : c.tryRecv merged = (out, c')) :
    Conserves maxChunk (es ++ [⟨c, .tryRecv, out, c'⟩]) c' ∧ Parks c c' := by
  have hcarried : c.carried = none := hc.free (by simp [hmerged])
  refine ⟨?_, fun x hx => absurd (hcarried.symm.trans hx) nofun⟩
  unfold ByteChannel.tryRecv at h
  split at h
  next hqueue =>
    cases h
    refine hc.of_chunks rfl ?_ rfl fun _ => hcarried
    simp [chunks, returned, hmerged]
  next chunk queue hqueue =>
    have hchunks : chunks es c = returned es ++ merged :: chunk :: queue := by
      simp [chunks, hmerged, hcarried, hqueue]
    split at h
    · cases h
      refine hc.of_chunks rfl ?_ rfl nofun
      simp [chunks, returned, hmerged, hcarried, hqueue]
    next hfits =>
      -- Two neighbours become one chunk, within the bound.
      cases h
      obtain ⟨hlimit, hflow, hbounded, hnonempty, -⟩ := hc
      rw [hchunks] at hflow hbounded hnonempty
      refine ⟨hlimit, ?_, ?_, ?_, fun _ => hcarried⟩
      · rw [chunks, returned_snoc rfl, sent_snoc rfl]
        simpa [hcarried] using hflow
      · rw [chunks, returned_snoc rfl]
        simp only [List.forall_mem_append, List.forall_mem_cons] at hbounded
        simpa [hcarried, or_imp, forall_and] using
          ⟨hbounded.1, hlimit ▸ not_lt.1 hfits, hbounded.2.2.2⟩
      · rw [chunks, returned_snoc rfl, sent_snoc rfl]
        intro hsent
        have hpieces := hnonempty hsent
        simp only [List.mem_append, List.mem_cons, not_or, eq_comm] at hpieces
        simp [hcarried, hpieces]

lemma step (hc : Conserves maxChunk es c) (h : c.step op = some (out, c')) :
    Conserves maxChunk (es ++ [⟨c, op, out, c'⟩]) c' ∧ Parks c c' := by
  cases op with
  | send chunk =>
    simp only [ByteChannel.step, Option.ite_none_right_eq_some] at h
    obtain ⟨⟨hchunk, -⟩, h⟩ := h
    cases h
    exact ⟨hc.send hchunk rfl rfl, Parks.of_eq rfl⟩
  | cancel | close =>
    cases h
    exact ⟨hc.of_chunks rfl (by simp [chunks, returned]) rfl hc.free, Parks.of_eq rfl⟩
  | next =>
    simp only [ByteChannel.step, Option.ite_none_left_eq_some, Option.not_isSome_iff_eq_none] at h
    exact hc.next h.1 h.2
  | tryRecv =>
    obtain ⟨merged, hmerged, h⟩ := Option.map_eq_some_iff.1 h
    exact hc.tryRecv hmerged h

lemma run (h : Trace ByteChannel.step { maxChunk } es t) : Conserves maxChunk es t := by
  induction h with
  | nil => exact ⟨rfl, rfl, nofun, fun _ => nofun, fun _ => rfl⟩
  | snoc _ hstep ih => exact (ih.step hstep).1

end Conserves

/-- However the calls of the receiver and the sends interleave, the chunks that the calls returned
with the ones under way are the bytes sent, every returned chunk keeps within the bound and is empty
only if a sent one was, and a carried chunk stays until a call takes it. -/
theorem byte_channel_conserves {maxChunk : Nat} (h : Trace step { maxChunk } es t) :
    (returned es ++ t.merged.toList ++ t.carried.toList ++ t.queue).flatten = (sent es).flatten ∧
      (∀ chunk ∈ returned es, chunk.length ≤ maxChunk) ∧ ([] ∉ sent es → [] ∉ returned es) ∧
      ∀ e ∈ es, Parks e.pre e.post := by
  have hc := Conserves.run h
  have hreturned : ∀ chunk ∈ returned es, chunk ∈ chunks es t := fun chunk hchunk => by
    simp [chunks, hchunk]
  refine ⟨hc.flow, fun chunk hchunk => hc.bounded chunk (hreturned chunk hchunk),
    fun hsent hempty => hc.nonempty hsent (hreturned [] hempty), fun e he => ?_⟩
  -- Where a chunk is parked depends on the state that the run up to this step has reached.
  obtain ⟨before, hbefore, hstep⟩ := h.event he
  exact ((Conserves.run hbefore).step hstep).2

theorem byte_channel_conserves_carried : ∃ es t, Trace step { maxChunk := 3 } es t ∧
    sent es = [[1, 2], [3], [4]] ∧ returned es = [[1, 2, 3]] ∧ t.carried = some [4] ∧
    ∀ chunk ∈ returned es, chunk.length ≤ 3 := by
  have h := Run.exec_run step { maxChunk := 3 }
    [.send [1, 2], .send [3], .send [4], .next, .tryRecv, .tryRecv] rfl
  exact ⟨_, _, h, rfl, rfl, rfl, (byte_channel_conserves h).2.1⟩

end ByteChannel
end Terrarium.Runtime
