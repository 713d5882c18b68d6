import Terrarium.Foundations.Run
import Terrarium.Protocol.FrameCodec

/-!
# StreamDecoder — reassembly of a frame stream

`StreamDecoder` of `crates/terra-protocol/src/application.rs`: a fixed buffer whose undecoded bytes
are `bytes[start..end]`.  A reader fills the free space after `end` and commits what it wrote;
decoding advances `start`; the undecoded bytes move to the front only when the buffer is full.

* `decodeStream` decodes an undivided byte string frame by frame;
* the main result says that every schedule of reads and `nextFrame` calls yields the frames of
  `decodeStream`, whatever arrives later, and that a reader that drains frames never stalls.

The laws of `decodeFrame` that make this work come first: its answer is final once it is not “more
bytes needed”, and a full buffer is never short of bytes.
-/

namespace Terrarium.Protocol

open Wire

/-! ## Decoding is stable -/

section Laws

variable {F : Type} {decodePayload : Opcode → Body F} {b : List UInt8}

lemma decodeFrame_append (h : decodeFrame decodePayload b ≠ .ok none) (later : List UInt8) :
    decodeFrame decodePayload (b ++ later) = decodeFrame decodePayload b := by
  by_cases hshort : b.length < headerBytes
  · exact absurd (by rw [decodeFrame, if_pos hshort]) h
  · have hlong : ¬ (b ++ later).length < headerBytes := by
      rw [List.length_append]
      omega
    have htake : (b ++ later).take headerBytes = b.take headerBytes :=
      List.take_append_of_le_length (by omega)
    have hdrop : (b ++ later).drop headerBytes = b.drop headerBytes ++ later :=
      List.drop_append_of_le_length (by omega)
    simp only [decodeFrame, if_neg hshort, if_neg hlong, htake, hdrop] at h ⊢
    cases hheader : readHeader.run (b.take headerBytes) with
    | error e => rfl
    | ok r =>
      obtain ⟨⟨opcode, length⟩, left⟩ := r
      simp only [hheader] at h
      by_cases hmissing : (b.drop headerBytes).length < length
      · exact absurd (by rw [if_pos hmissing]) h
      · -- The payload has arrived whole, so it is the same slice of both inputs.
        have hpayload : (b.drop headerBytes ++ later).take length =
            (b.drop headerBytes).take length := List.take_append_of_le_length (by omega)
        have henough : ¬ (b.drop headerBytes ++ later).length < length := by
          rw [List.length_append]
          omega
        simp only [if_neg hmissing, if_neg henough, hpayload]

/-- A buffer of the largest frame's size always holds a frame or an error. -/
lemma decodeFrame_ne_none (hfull : maxFrameBytes ≤ b.length) :
    decodeFrame decodePayload b ≠ .ok none := by
  intro h
  have hlong : ¬ b.length < headerBytes := by
    simp only [headerBytes, maxFrameBytes] at hfull ⊢
    omega
  simp only [decodeFrame, if_neg hlong] at h
  cases hheader : readHeader.run (b.take headerBytes) with
  | error e =>
    rw [hheader] at h
    cases h
  | ok r =>
    obtain ⟨⟨opcode, length⟩, left⟩ := r
    obtain ⟨u, ⟨hfit, -⟩, -⟩ := (readHeader_reads _ _ _).1 hheader
    have henough : ¬ (b.drop headerBytes).length < length := by
      simp only [List.length_drop, headerBytes, maxFrameBytes] at hfit hfull ⊢
      omega
    simp only [hheader, if_neg henough] at h
    split at h
    · cases h
    · split at h <;> cases h

lemma decodeFrame_length {f : F} {n : Nat} (h : decodeFrame decodePayload b = .ok (some (f, n))) :
    0 < n ∧ n ≤ b.length ∧ n ≤ maxFrameBytes := by
  obtain ⟨opcode, u, rest, rfl, hfit, -, rfl⟩ := decodeFrame_eq_some h
  refine ⟨?_, by simp, hfit⟩
  simp only [headerBytes]
  omega

lemma decodeFrame_take {f : F} {n : Nat} (h : decodeFrame decodePayload b = .ok (some (f, n))) :
    decodeFrame decodePayload (b.take n) = .ok (some (f, n)) := by
  obtain ⟨opcode, u, rest, rfl, hfit, hrun, rfl⟩ := decodeFrame_eq_some h
  have htake : (frameHeader opcode u.length ++ (u ++ rest)).take (headerBytes + u.length) =
      frameHeader opcode u.length ++ (u ++ []) := by
    rw [← List.append_assoc, List.append_nil]
    exact List.take_left' (by simp)
  rw [htake, decodeFrame_frame decodePayload hfit, hrun]
  rfl

end Laws

variable {F : Type} [Frame F]

variable {b : List UInt8}

lemma decode_append {answer : Except FrameError (Option (F × Nat))} (h : Frame.decode b = answer)
    (hanswer : answer ≠ .ok none) (later : List UInt8) : Frame.decode (b ++ later) = answer := by
  subst h
  exact decodeFrame_append hanswer later

/-! ## The undivided stream -/

/-- How decoding a byte string ends: out of bytes, or at a malformed frame. -/
inductive StreamEnd
  | incomplete
  | invalid
  deriving DecidableEq

/-- Apply `decode` to a byte string again and again. -/
def decodeStream (b : List UInt8) : List F × StreamEnd :=
  match _h : Frame.decode (F := F) b with
  | .ok none => ([], .incomplete)
  | .error _ => ([], .invalid)
  | .ok (some (frame, n)) =>
      let later := decodeStream (b.drop n)
      (frame :: later.1, later.2)
termination_by b.length
decreasing_by
  obtain ⟨hpos, hle, -⟩ := decodeFrame_length _h
  rw [List.length_drop]
  omega

lemma decodeStream_none (h : Frame.decode (F := F) b = .ok none) : decodeStream (F := F) b =
    ([], .incomplete) := by
  rw [decodeStream]
  split <;> simp_all

lemma decodeStream_error {e : FrameError}
    (h : Frame.decode (F := F) b = .error e) : decodeStream (F := F) b = ([], .invalid) := by
  rw [decodeStream]
  split <;> simp_all

lemma decodeStream_some {f : F} {n : Nat} (h : Frame.decode b = .ok (some (f, n))) :
    decodeStream b = (f :: (decodeStream (b.drop n)).1, (decodeStream (F := F) (b.drop n)).2) := by
  rw [decodeStream]
  split <;> simp_all

/-! ## The decoder -/

structure StreamDecoder where
  bytes : List UInt8
  start : Nat
  end_ : Nat
  deriving DecidableEq

namespace StreamDecoder

def default : StreamDecoder :=
  { bytes := List.replicate maxFrameBytes 0, start := 0, end_ := 0 }

/-- The decoder whose free space is handed out, and the length of that space `bytes[end..]`. -/
def readBuffer (d : StreamDecoder) : StreamDecoder × Nat :=
  let d :=
    if d.end_ = d.bytes.length ∧ d.start > 0 then
      { bytes := overwrite d.bytes 0 ((d.bytes.take d.end_).drop d.start)
        start := 0
        end_ := d.end_ - d.start }
    else d
  (d, d.bytes.length - d.end_)

def commit (d : StreamDecoder) (count : Nat) : StreamDecoder :=
  { d with end_ := d.end_ + count }

def pending (d : StreamDecoder) : List UInt8 :=
  (d.bytes.take d.end_).drop d.start

def nextFrame (d : StreamDecoder) : Except FrameError (Option F) × StreamDecoder :=
  match Frame.decode d.pending with
  | .error e => (.error e, d)
  | .ok none => (.ok none, d)
  | .ok (some (frame, length)) =>
      let start := d.start + length
      if start = d.end_ then (.ok (some frame), { d with start := 0, end_ := 0 })
      else (.ok (some frame), { d with start := start })

/-- What a user of the decoder does: read `data` into the free space, or ask for a frame. -/
inductive Op
  | read (data : List UInt8)
  | nextFrame
  deriving DecidableEq

inductive Out (F : Type)
  | read
  | frame (result : Except FrameError (Option F))

/-- One use of the decoder; a reader never writes past the space it was handed. -/
def step (d : StreamDecoder) : Op → Option (Out F × StreamDecoder)
  | .read data =>
      let (d, room) := d.readBuffer
      if data.length ≤ room then
        some (.read, commit { d with bytes := overwrite d.bytes d.end_ data } data.length)
      else none
  | .nextFrame =>
      let (result, d) := d.nextFrame (F := F)
      some (.frame result, d)

/-! ## The window into the buffer -/

/-- The window lies in a buffer of the fixed size. -/
structure Window (d : StreamDecoder) : Prop where
  start_le : d.start ≤ d.end_
  end_le : d.end_ ≤ d.bytes.length
  size : d.bytes.length = maxFrameBytes

variable {d d' : StreamDecoder}

lemma window_default : Window default := ⟨Nat.le_refl _, Nat.zero_le _, List.length_replicate⟩

lemma pending_default : default.pending = [] := rfl

namespace Window

lemma length_pending (h : d.Window) : d.pending.length = d.end_ - d.start := by
  have hend := h.end_le
  simp only [pending, List.length_drop, List.length_take]
  omega

lemma split (h : d.Window) : ∃ old free, d.bytes = old ++ d.pending ++ free ∧ old.length = d.start ∧
      (old ++ d.pending).length = d.end_ := by
  have hstart := h.start_le
  have hend := h.end_le
  have hused : d.bytes.take d.start ++ d.pending = d.bytes.take d.end_ := by
    have htake : (d.bytes.take d.end_).take d.start = d.bytes.take d.start := by
      rw [List.take_take, Nat.min_eq_left hstart]
    rw [← htake]
    exact List.take_append_drop _ _
  refine ⟨d.bytes.take d.start, d.bytes.drop d.end_, ?_, ?_, ?_⟩
  · rw [hused, List.take_append_drop]
  · exact List.length_take_of_le (by omega)
  · rw [hused]
    exact List.length_take_of_le hend

end Window

lemma pending_of_split {old mid free : List UInt8} (hbytes : d.bytes = old ++ mid ++ free)
    (hstart : old.length = d.start) (hend : (old ++ mid).length = d.end_) : d.pending = mid := by
  rw [pending, hbytes, ← hend, List.take_left, ← hstart, List.drop_left]

lemma readBuffer_of_not_full (h : ¬ (d.end_ = d.bytes.length ∧ d.start > 0)) :
    d.readBuffer = (d, d.bytes.length - d.end_) := by
  simp only [readBuffer, if_neg h]

lemma readBuffer_spec (h : d.Window) : (d.readBuffer.1).Window ∧
    (d.readBuffer.1).pending = d.pending ∧
      d.readBuffer.2 = maxFrameBytes - (d.readBuffer.1).end_ ∧
        ((d.readBuffer.1).end_ = maxFrameBytes → (d.readBuffer.1).start = 0) := by
  have hsize := h.size
  by_cases hfull : d.end_ = d.bytes.length ∧ d.start > 0
  · -- The pending bytes move to the front; everything behind them is stale.
    have hlen := h.length_pending
    have hbytes : overwrite d.bytes 0 d.pending =
        [] ++ d.pending ++ d.bytes.drop (d.end_ - d.start) := by
      rw [overwrite, ← hlen]
      simp
    have hmoved : d.readBuffer.1 =
        { bytes := overwrite d.bytes 0 d.pending, start := 0, end_ := d.end_ - d.start } := by
      simp only [readBuffer, if_pos hfull]
      rfl
    have hsize' : (overwrite d.bytes 0 d.pending).length = maxFrameBytes := by
      rw [hbytes]
      simp only [List.nil_append, List.length_append, List.length_drop, hlen]
      omega
    have hroom : d.readBuffer.2 = (d.readBuffer.1).bytes.length - (d.readBuffer.1).end_ := rfl
    rw [hmoved] at hroom ⊢
    refine ⟨⟨Nat.zero_le _, ?_, hsize'⟩, ?_, ?_, fun _ => rfl⟩
    · change d.end_ - d.start ≤ (overwrite d.bytes 0 d.pending).length
      omega
    · exact pending_of_split hbytes rfl (by simpa using hlen)
    · rw [hroom, hsize']
  · rw [readBuffer_of_not_full hfull]
    refine ⟨h, rfl, ?_, ?_⟩
    · rw [hsize]
    · intro hend'
      by_contra hne
      exact hfull ⟨hend'.trans hsize.symm, Nat.pos_of_ne_zero hne⟩

/-- What one use of the decoder does to the pending bytes. -/
inductive Effect (d : StreamDecoder) : Op → Out F → StreamDecoder → Prop
  | read {data : List UInt8} {d' : StreamDecoder} (hpending : d'.pending = d.pending ++ data) :
      Effect d (.read data) .read d'
  | frame {f : F} {n : Nat} {d' : StreamDecoder}
      (hdecode : Frame.decode d.pending = .ok (some (f, n)))
      (hpending : d'.pending = d.pending.drop n) :
      Effect d .nextFrame (.frame (.ok (some f))) d'
  | incomplete (hdecode : Frame.decode (F := F) d.pending = .ok none) :
      Effect d .nextFrame (.frame (.ok none)) d
  | invalid {e : FrameError} (hdecode : Frame.decode (F := F) d.pending = .error e) :
      Effect d .nextFrame (.frame (.error e)) d

lemma step_read {room : Nat} {data : List UInt8} (hbuffer : d.readBuffer = (d', room))
    (hfit : data.length ≤ room) : d.step (F := F) (.read data) =
      some (.read, commit { d' with bytes := overwrite d'.bytes d'.end_ data } data.length) := by
  simp only [step, hbuffer, if_pos hfit]

variable {out : Out F} {es : List (Run.Event StreamDecoder Op (Out F))}

lemma read_spec (h : d.Window) {data : List UInt8}
    (hstep : d.step (.read data) = some (out, d')) : d'.Window ∧ Effect d (.read data) out d' := by
  obtain ⟨hwindow, hpending, hroom, -⟩ := readBuffer_spec h
  generalize hbuffer : d.readBuffer = r at hwindow hpending hroom
  obtain ⟨m, room⟩ := r
  change m.Window at hwindow
  simp only [step, hbuffer] at hstep
  split at hstep
  next hfit =>
    cases hstep
    obtain ⟨old, free, hbytes, hold, hused⟩ := hwindow.split
    have hsize := hwindow.size
    simp only at hpending hroom
    -- The data lands right behind the pending bytes, over the front of the free space.
    have hfree : free = free.take data.length ++ free.drop data.length :=
      (List.take_append_drop _ _).symm
    have hfreelen : data.length ≤ free.length := by
      have hlen := congrArg List.length hbytes
      rw [List.length_append, hused] at hlen
      omega
    have hfilled : overwrite m.bytes m.end_ data = old ++
        (m.pending ++ data) ++ free.drop data.length := by
      calc overwrite m.bytes m.end_ data
          = overwrite ((old ++ m.pending) ++ free.take data.length ++ free.drop data.length)
              (old ++ m.pending).length data := by
            rw [hused, List.append_assoc, ← hfree, ← hbytes]
        _ = (old ++ m.pending) ++ data ++ free.drop data.length :=
            overwrite_append _ _ _ _ (List.length_take_of_le hfreelen)
        _ = old ++ (m.pending ++ data) ++ free.drop data.length := by
            simp only [List.append_assoc]
    have hcommit : (old ++ (m.pending ++ data)).length = m.end_ + data.length := by
      rw [← List.append_assoc, List.length_append, hused]
    refine ⟨⟨?_, ?_, ?_⟩, Effect.read ?_⟩
    · exact Nat.le_trans hwindow.start_le (Nat.le_add_right _ _)
    · change m.end_ + data.length ≤ (overwrite m.bytes m.end_ data).length
      rw [hfilled, List.length_append, hcommit]
      exact Nat.le_add_right _ _
    · change (overwrite m.bytes m.end_ data).length = maxFrameBytes
      have hlen := congrArg List.length hbytes
      rw [List.length_append, hused] at hlen
      rw [hfilled, List.length_append, hcommit, List.length_drop]
      omega
    · rw [← hpending]
      exact pending_of_split hfilled hold hcommit
  · cases hstep

lemma nextFrame_spec (h : d.Window)
    (hstep : d.step .nextFrame = some (out, d')) : d'.Window ∧ Effect d .nextFrame out d' := by
  have hstart := h.start_le
  have hend := h.end_le
  have hlen := h.length_pending
  simp only [step, nextFrame] at hstep
  split at hstep
  next e hdecode =>
    cases hstep
    exact ⟨h, Effect.invalid hdecode⟩
  next hdecode =>
    cases hstep
    exact ⟨h, Effect.incomplete hdecode⟩
  next f n hdecode =>
    obtain ⟨-, hle, -⟩ := decodeFrame_length hdecode
    split at hstep
    next hdrained =>
      -- Everything is decoded: the window restarts at the front, empty.
      cases hstep
      refine ⟨⟨Nat.le_refl _, Nat.zero_le _, h.size⟩, Effect.frame hdecode ?_⟩
      have hnil : d.pending.drop n = [] := List.drop_eq_nil_of_le (by omega)
      rw [hnil]
      simp [pending]
    next hmore =>
      cases hstep
      refine ⟨⟨?_, hend, h.size⟩, Effect.frame hdecode ?_⟩
      · change d.start + n ≤ d.end_
        omega
      · simp only [pending, List.drop_drop]

lemma step_spec (h : d.Window) {op : Op} (hstep : d.step op = some (out, d')) : d'.Window ∧
    Effect d op out d' := by
  cases op with
  | read data => exact read_spec h hstep
  | nextFrame => exact nextFrame_spec h hstep

lemma window_run (h : Run.Trace step default es d) : d.Window :=
  h.invariant (fun hm hstep => (step_spec hm hstep).1) window_default

/-! ## Runs -/

def input (es : List (Run.Event StreamDecoder Op (Out F))) : List UInt8 :=
  es.flatMap fun e => match e.op with
    | .read data => data
    | .nextFrame => []

def frames (es : List (Run.Event StreamDecoder Op (Out F))) : List F :=
  es.filterMap fun e => match e.out with
    | .frame (.ok (some f)) => some f
    | _ => none

/-- The bytes of the returned frames, one chunk a frame, followed by the pending bytes, are the
bytes that were read: nothing is dropped and nothing is decoded twice. -/
def Accounts (chunks : List (List UInt8)) (es : List (Run.Event StreamDecoder Op (Out F)))
    (d : StreamDecoder) : Prop :=
  input es = chunks.flatten ++ d.pending ∧
    List.Forall₂ (fun chunk f => Frame.decode chunk = .ok (some (f, chunk.length))) chunks
      (frames es)

lemma accounts_step {chunks : List (List UInt8)} {op : Op} (h : Accounts chunks es d)
    (heffect : Effect d op out d') : ∃ chunks', Accounts chunks' (es ++ [⟨d, op, out, d'⟩]) d' := by
  obtain ⟨hinput, hframes⟩ := h
  cases heffect with
  | @read data _ hpending =>
    refine ⟨chunks, ?_, ?_⟩
    · calc input (es ++ [⟨d, .read data, .read, d'⟩]) = input es ++ data := by simp [input]
        _ = chunks.flatten ++ (d.pending ++ data) := by rw [hinput, List.append_assoc]
        _ = chunks.flatten ++ d'.pending := by rw [hpending]
    · simpa [frames] using hframes
  | @frame f n _ hdecode hpending =>
    -- The frame's own bytes are the next chunk.
    have hlen : (d.pending.take n).length = n :=
      List.length_take_of_le (decodeFrame_length hdecode).2.1
    refine ⟨chunks ++ [d.pending.take n], ?_, ?_⟩
    · calc input (es ++ [⟨d, .nextFrame, .frame (.ok (some f)), d'⟩]) = input es := by simp [input]
        _ = chunks.flatten ++ (d.pending.take n ++ d.pending.drop n) := by
            rw [hinput, List.take_append_drop]
        _ = (chunks ++ [d.pending.take n]).flatten ++ d'.pending := by
            simp [hpending]
    · have hchunk : Frame.decode (d.pending.take n) = .ok
          (some (f, (d.pending.take n).length)) := by
        rw [hlen]
        exact decodeFrame_take hdecode
      simpa [frames] using List.rel_append hframes (List.Forall₂.cons hchunk List.Forall₂.nil)
  | incomplete _ | invalid _ =>
    exact ⟨chunks, by simpa [input] using hinput, by simpa [frames] using hframes⟩

lemma accounts_run (h : Run.Trace step default es d) : ∃ chunks, Accounts chunks es d := by
  induction h with
  | nil => exact ⟨[], by simp [input, pending_default], List.Forall₂.nil⟩
  | snoc hrun hstep ih =>
    obtain ⟨chunks, hchunks⟩ := ih
    exact accounts_step hchunks (step_spec (window_run hrun) hstep).2

/-- Decoded chunks are the first frames of any stream that starts with them. -/
lemma decodeStream_chunks {chunks : List (List UInt8)} {fs : List F}
    (h : List.Forall₂ (fun chunk f => Frame.decode chunk = .ok (some (f, chunk.length))) chunks fs)
    (later : List UInt8) :
    decodeStream (chunks.flatten ++ later) =
    (fs ++ (decodeStream later).1, (decodeStream (F := F) later).2) := by
  induction h with
  | nil => rfl
  | @cons chunk f chunks fs hchunk _ ih =>
    have hdecode : Frame.decode (chunk ++ (chunks.flatten ++ later)) = .ok
        (some (f, chunk.length)) := by
      exact decode_append hchunk (by simp) (chunks.flatten ++ later)
    rw [List.flatten_cons, List.append_assoc, decodeStream_some hdecode, List.drop_left, ih]
    rfl

/-- For every schedule of reads and `nextFrame` calls: the window stays in the buffer, no byte is
lost or decoded twice, the frames returned are the first frames of the undivided stream, each
further call continues it or stops where it stops, and the read buffer is empty only while an answer
is waiting. -/
theorem refines_stream {es : List (Run.Event StreamDecoder Op (Out F))}
    (h : Run.Trace step default es d) :
    (d.start ≤ d.end_ ∧ d.end_ ≤ maxFrameBytes) ∧
      (∃ chunks, Accounts chunks es d) ∧
        (∀ later, decodeStream (input es ++ later) =
          (frames es ++ (decodeStream (d.pending ++ later)).1,
            (decodeStream (F := F) (d.pending ++ later)).2)) ∧
          (match (d.nextFrame (F := F)).1 with
            | .ok (some f) =>
                ∀ later, ∃ fs, (decodeStream (input es ++ later)).1 = frames es ++ f :: fs
            | .ok none => decodeStream (input es) = (frames es, .incomplete)
            | .error _ => ∀ later, decodeStream (input es ++ later) = (frames es, .invalid)) ∧
            (d.readBuffer.2 = 0 → ((d.readBuffer.1).nextFrame (F := F)).1 ≠ .ok none) := by
  have hwindow := window_run h
  obtain ⟨chunks, haccounts⟩ := accounts_run h
  obtain ⟨hinput, hframes⟩ := haccounts
  have hstream : ∀ later, decodeStream (input es ++ later) =
      (frames es ++ (decodeStream (d.pending ++ later)).1,
        (decodeStream (F := F) (d.pending ++ later)).2) := by
    intro later
    rw [hinput, List.append_assoc]
    exact decodeStream_chunks hframes _
  refine ⟨⟨hwindow.start_le, hwindow.size ▸ hwindow.end_le⟩, ⟨chunks, hinput, hframes⟩,
    hstream, ?_, ?_⟩
  · cases hdecode : Frame.decode (F := F) d.pending with
    | error e =>
      simp only [nextFrame, hdecode]
      intro later
      rw [hstream, decodeStream_error (decode_append hdecode (by simp) later)]
      simp
    | ok r =>
      cases r with
      | none =>
        simp only [nextFrame, hdecode]
        have hnow := hstream []
        simpa [decodeStream_none hdecode] using hnow
      | some r =>
        obtain ⟨f, n⟩ := r
        have hresult : (d.nextFrame (F := F)).1 = .ok (some f) := by
          simp only [nextFrame, hdecode]
          split <;> rfl
        rw [hresult]
        intro later
        refine ⟨(decodeStream ((d.pending ++ later).drop n)).1, ?_⟩
        rw [hstream, decodeStream_some (decode_append hdecode (by simp) later)]
  · intro hempty hnone
    obtain ⟨hwindow', hpending, hroom, hfront⟩ := readBuffer_spec hwindow
    have hend : (d.readBuffer.1).end_ = maxFrameBytes := by
      have hle := hwindow'.size ▸ hwindow'.end_le
      omega
    -- A full buffer without gaps holds as many bytes as the largest frame.
    have hfull : maxFrameBytes ≤ (d.readBuffer.1).pending.length := by
      rw [hwindow'.length_pending, hend, hfront hend]
      exact Nat.le_refl _
    have hanswer : Frame.decode (F := F) (d.readBuffer.1).pending ≠ .ok none :=
      decodeFrame_ne_none hfull
    apply hanswer
    cases hdecode : Frame.decode (F := F) (d.readBuffer.1).pending with
    | error e => simp [nextFrame, hdecode] at hnone
    | ok r =>
      cases r with
      | none => rfl
      | some r =>
        simp only [nextFrame, hdecode] at hnone
        split at hnone <;> cases hnone

def replyBytes : List UInt8 := [1, 1, 0, 0, 4, 0, 0, 0, 0, 0, 0, 0]

lemma exists_read (h : d.Window) (hstart : d.start = 0) {data : List UInt8}
    (hfit : d.end_ + data.length ≤ maxFrameBytes) : ∃ d', d.step (F := F) (.read data) =
    some (.read, d') ∧
      d'.Window ∧ d'.start = 0 ∧ d'.end_ = d.end_ + data.length ∧
      d'.pending = d.pending ++ data := by
  have hsize := h.size
  have hbuffer := readBuffer_of_not_full (d := d) fun hfull => Nat.lt_irrefl 0 (hstart ▸ hfull.2)
  have hread := step_read (F := F) hbuffer (show data.length ≤ _ by omega)
  obtain ⟨hwindow, heffect⟩ := step_spec h hread
  cases heffect with
  | read hpending => exact ⟨_, hread, hwindow, hstart, rfl, hpending⟩

theorem refines_stream_reply :
    ∃ es d, Run.Trace (step (F := HostFrame)) default es d ∧
      (es.map fun e => e.op) =
        [.read (replyBytes.take 5), .nextFrame, .read (replyBytes.drop 5), .nextFrame] ∧
      frames es = [.opened (.ok ())] ∧ ∀ later, (decodeStream (replyBytes ++ later)).1 =
        HostFrame.opened (.ok ()) :: (decodeStream (d.pending ++ later)).1 := by
  obtain ⟨d₁, hread₁, hwindow₁, hstart₁, hend₁, hpending₁⟩ := exists_read
    (F := HostFrame) window_default rfl
    (show default.end_ + (replyBytes.take 5).length ≤ maxFrameBytes by decide)
  obtain ⟨d₂, hread₂, -, -, -, hpending₂⟩ := exists_read (F := HostFrame) hwindow₁ hstart₁
    (show d₁.end_ + (replyBytes.drop 5).length ≤ maxFrameBytes by rw [hend₁]; decide)
  rw [pending_default, List.nil_append] at hpending₁
  rw [hpending₁, List.take_append_drop] at hpending₂
  have hnone : d₁.nextFrame (F := HostFrame) = (.ok none, d₁) := by
    have hdecode : Frame.decode (F := HostFrame) (replyBytes.take 5) = .ok none := by
      decide
    simp only [nextFrame, hpending₁, hdecode]
  have hresult : (d₂.nextFrame (F := HostFrame)).1 = .ok (some (.opened (.ok ()))) := by
    have hdecode : Frame.decode replyBytes = .ok (some (HostFrame.opened (.ok ()), 12)) := by
      decide
    simp only [nextFrame, hpending₂, hdecode]
    split <;> rfl
  have hwait : d₁.step (F := HostFrame) .nextFrame = some (.frame (.ok none), d₁) := by
    simp only [step, hnone]
  have hnext : d₂.step (F := HostFrame) .nextFrame =
      some (.frame (.ok (some (.opened (.ok ())))), (d₂.nextFrame (F := HostFrame)).2) := by
    simp only [step, hresult]
  have htrace := (((Run.Trace.nil.snoc hread₁).snoc hwait).snoc hread₂).snoc hnext
  refine ⟨_, _, htrace, rfl, rfl, fun later => ?_⟩
  exact congrArg Prod.fst ((refines_stream htrace).2.2.1 later)

end StreamDecoder

end Terrarium.Protocol
