import Terrarium.Foundations.Chunks
import Terrarium.Foundations.Run
import Terrarium.Protocol.Frame

/-!
# DatagramBatch — datagrams packed into one buffer

`DatagramBatch` of `crates/terra-protocol/src/network.rs`.  Entry `i` of a batch is the next
`headers[i].length` bytes; an entry with a segment is a run of datagrams of that size, the last
possibly shorter.  `push` merges a datagram into the last entry's run when the run stays valid.

* the main results say that merging never moves a datagram boundary and never breaks a limit.
-/

namespace Terrarium.Protocol

open Policy (SocketAddr)
open Chunks

/-! ## Limits -/

def maxNetworkDatagrams : Nat := 64
/-- `vsock::MAX_PACKET_DATA_BYTES`: one switch delivery. -/
def maxNetworkDatagramBatchBytes : Nat := 64 * 1024

/-- Each entry costs the UDP frame it becomes in the guest. -/
def datagramBatchBytes (entries bytes : Nat) : Nat :=
  bytes + entries * udpFrameOverheadBytes

def isWithinDatagramBatchLimits (entries bytes : Nat) : Bool :=
  entries ≤ maxNetworkDatagrams ∧ datagramBatchBytes entries bytes ≤ maxNetworkDatagramBatchBytes

/-! ## Batches -/

structure DatagramHeader where
  peer : SocketAddr
  length : UInt16
  segment : UInt16
  deriving DecidableEq

def DatagramHeader.isValid (header : DatagramHeader) : Bool :=
  isValidUdpRun header.length.toNat header.segment.toNat

structure DatagramBatch where
  headers : List DatagramHeader
  bytes : List UInt8
  deriving DecidableEq

abbrev Datagram := SocketAddr × List UInt8

namespace DatagramBatch

def default : DatagramBatch := ⟨[], []⟩

def totalLength (headers : List DatagramHeader) : Nat :=
  (headers.map fun header => header.length.toNat).sum

def fromParts (headers : List DatagramHeader) (bytes : List UInt8) : Option DatagramBatch :=
  if headers.all DatagramHeader.isValid then
    if totalLength headers = bytes.length ∧
        isWithinDatagramBatchLimits headers.length bytes.length then
      some ⟨headers, bytes⟩
    else none
  else none

variable (b : DatagramBatch)

def intoParts : List DatagramHeader × List UInt8 :=
  (b.headers, b.bytes)

def batchBytes : Nat :=
  datagramBatchBytes b.headers.length b.bytes.length

def hasRoomForEntry (length : Nat) : Bool :=
  isWithinDatagramBatchLimits (b.headers.length + 1) (b.bytes.length + length)

def runSegment (header : DatagramHeader) : UInt16 :=
  if header.segment = 0 then header.length else header.segment

/-- Whether a datagram joins the run of the last entry. -/
def canMerge (last : DatagramHeader) (peer : SocketAddr) (bytes : List UInt8) : Bool :=
  last.peer = peer ∧ extendsUdpRun last.length.toNat (runSegment last).toNat bytes.length ∧
    b.batchBytes + bytes.length ≤ maxNetworkDatagramBatchBytes

def merge (last : DatagramHeader) (bytes : List UInt8) : DatagramBatch :=
  { headers := b.headers.dropLast ++
      [{ last with segment := runSegment last, length := last.length + UInt16.ofNat bytes.length }]
    bytes := b.bytes ++ bytes }

def pushEntry (peer : SocketAddr) (bytes : List UInt8) : Bool × DatagramBatch :=
  if bytes.length > maxNetworkDatagramBytes ∨ ¬ b.hasRoomForEntry bytes.length then (false, b)
  else
    (true, { headers := b.headers ++ [⟨peer, UInt16.ofNat bytes.length, 0⟩]
             bytes := b.bytes ++ bytes })

/-- Appends one datagram, merging it into the last entry's run where possible. -/
def push (peer : SocketAddr) (bytes : List UInt8) : Bool × DatagramBatch :=
  if bytes.length ≥ 2 ^ 16 then (false, b)
  else
    match b.headers.getLast? with
    | some last =>
        if b.canMerge last peer bytes then (true, b.merge last bytes) else b.pushEntry peer bytes
    | none => b.pushEntry peer bytes

/-- The loop of `pushRun`, which stops at the first datagram that does not fit. -/
def pushChunks (b : DatagramBatch) (peer : SocketAddr) (taken : Nat) :
    List (List UInt8) → Nat × DatagramBatch
  | [] => (taken, b)
  | datagram :: rest =>
      match b.push peer datagram with
      | (false, b) => (taken, b)
      | (true, b) => pushChunks b peer (taken + datagram.length) rest

/-- Appends `bytes` as `stride`-byte datagrams; returns how many bytes were taken. -/
def pushRun (peer : SocketAddr) (bytes : List UInt8) (stride : Nat) : Nat × DatagramBatch :=
  if bytes = [] then (0, (b.push peer bytes).2)
  else b.pushChunks peer 0 (chunks (max stride 1) bytes)

def entriesOf : List DatagramHeader → List UInt8 → List (SocketAddr × UInt16 × List UInt8)
  | [], _ => []
  | header :: headers, rest =>
      (header.peer, header.segment, rest.take header.length.toNat) ::
        entriesOf headers (rest.drop header.length.toNat)

def entries : List (SocketAddr × UInt16 × List UInt8) :=
  entriesOf b.headers b.bytes

/-- The datagrams of one entry; an empty entry is one empty datagram. -/
def expand (entry : SocketAddr × UInt16 × List UInt8) : List Datagram :=
  let (peer, segment, run) := entry
  let size := if segment = 0 then max run.length 1 else segment.toNat
  (chunks size run ++ (if run = [] then [run] else [])).map fun datagram => (peer, datagram)

def datagrams : List Datagram :=
  b.entries.flatMap expand

/-! ## Validity -/

structure Valid (b : DatagramBatch) : Prop where
  headers : ∀ header ∈ b.headers, header.isValid = true
  total : totalLength b.headers = b.bytes.length
  limits : isWithinDatagramBatchLimits b.headers.length b.bytes.length = true

variable {b} {b' : DatagramBatch} {peer : SocketAddr} {bytes : List UInt8}

lemma fromParts_eq_some {headers : List DatagramHeader} :
    fromParts headers bytes = some b ↔ b = ⟨headers, bytes⟩ ∧ Valid ⟨headers, bytes⟩ := by
  unfold fromParts
  constructor
  · intro h
    split at h
    next hall =>
      split at h
      next hrest =>
        cases h
        exact ⟨rfl, ⟨List.all_eq_true.1 hall, hrest.1, hrest.2⟩⟩
      · cases h
    · cases h
  · rintro ⟨rfl, hvalid⟩
    rw [if_pos (List.all_eq_true.2 hvalid.headers), if_pos ⟨hvalid.total, hvalid.limits⟩]

lemma valid_start (h : b = default ∨ ∃ headers bytes, fromParts headers bytes = some b) :
    b.Valid := by
  rcases h with rfl | ⟨headers, bytes, hparts⟩
  · exact ⟨by simp [default], rfl, by decide⟩
  · obtain ⟨rfl, hvalid⟩ := fromParts_eq_some.1 hparts
    exact hvalid

lemma totalLength_append (headers headers' : List DatagramHeader) :
    totalLength (headers ++ headers') = totalLength headers + totalLength headers' := by
  simp [totalLength]

lemma totalLength_singleton (header : DatagramHeader) :
    totalLength [header] = header.length.toNat := by
  simp [totalLength]

lemma entriesOf_append {headers : List DatagramHeader} (headers' : List DatagramHeader)
    {front : List UInt8} (rest : List UInt8) (h : totalLength headers = front.length) :
    entriesOf (headers ++ headers') (front ++ rest) =
    entriesOf headers front ++ entriesOf headers' rest := by
  induction headers generalizing front with
  | nil =>
    have hnil : front = [] := List.length_eq_zero_iff.1 (by simpa [totalLength] using h.symm)
    simp [hnil, entriesOf]
  | cons header headers ih =>
    have hlen : header.length.toNat + totalLength headers = front.length := by
      simpa [totalLength] using h
    have hrest : totalLength headers = (front.drop header.length.toNat).length := by
      rw [List.length_drop]
      omega
    simp only [List.cons_append, entriesOf]
    rw [List.take_append_of_le_length (by omega),
      List.drop_append_of_le_length (by omega), ih hrest]

/-! ## One datagram -/

/-- What `push` can do: nothing, extend the last run, or add an entry. -/
inductive Pushed (b : DatagramBatch) (peer : SocketAddr) (bytes : List UInt8) :
    Bool × DatagramBatch → Prop
  | refused : Pushed b peer bytes (false, b)
  | merged {front : List DatagramHeader} {last : DatagramHeader}
      (hheaders : b.headers = front ++ [last]) (hpeer : last.peer = peer)
      (hextends : extendsUdpRun last.length.toNat (runSegment last).toNat bytes.length = true)
      (hroom : b.batchBytes + bytes.length ≤ maxNetworkDatagramBatchBytes) :
      Pushed b peer bytes (true, b.merge last bytes)
  | entry (hlength : bytes.length ≤ maxNetworkDatagramBytes)
      (hroom : b.hasRoomForEntry bytes.length = true) :
      Pushed b peer bytes (true,
        ⟨b.headers ++ [⟨peer, UInt16.ofNat bytes.length, 0⟩], b.bytes ++ bytes⟩)

lemma pushEntry_pushed (b : DatagramBatch) (peer : SocketAddr) (bytes : List UInt8) :
    Pushed b peer bytes (b.pushEntry peer bytes) := by
  unfold pushEntry
  split
  · exact Pushed.refused
  next hfits =>
    rw [not_or, not_not] at hfits
    exact Pushed.entry (by omega) hfits.2

lemma push_pushed (b : DatagramBatch) (peer : SocketAddr) (bytes : List UInt8) :
    Pushed b peer bytes (b.push peer bytes) := by
  unfold push
  split
  · exact Pushed.refused
  · cases hlast : b.headers.getLast? with
    | none => exact pushEntry_pushed b peer bytes
    | some last =>
      obtain ⟨front, hheaders⟩ := List.getLast?_eq_some_iff.1 hlast
      by_cases hmerge : b.canMerge last peer bytes = true
      · simp only [hmerge, if_true]
        obtain ⟨hpeer, hextends, hroom⟩ := of_decide_eq_true hmerge
        exact Pushed.merged hheaders hpeer hextends hroom
      · simp only [hmerge, Bool.false_eq_true, if_false]
        exact pushEntry_pushed b peer bytes

lemma push_refused (h : (b.push peer bytes).1 = false) : (b.push peer bytes).2 = b := by
  have hpushed := push_pushed b peer bytes
  generalize b.push peer bytes = r at h hpushed
  cases hpushed with
  | refused => rfl
  | merged _ _ _ _ | entry _ _ => cases h

/-- A run that is extended is not empty, has a positive segment that divides it, and stays short. -/
lemma extends_facts {last : DatagramHeader}
    (h : extendsUdpRun last.length.toNat (runSegment last).toNat bytes.length = true) :
    bytes ≠ [] ∧ 0 < last.length.toNat ∧ bytes.length ≤ (runSegment last).toNat ∧
      (runSegment last).toNat ∣ last.length.toNat ∧ 0 < (runSegment last).toNat ∧
        (last.length + UInt16.ofNat bytes.length).toNat = last.length.toNat + bytes.length ∧
          isValidSegmentedRun (last.length.toNat + bytes.length)
            (runSegment last).toNat = true := by
  obtain ⟨hne, hle, hmod, hvalid⟩ := of_decide_eq_true h
  obtain ⟨hpos, -, hlong, hmax, -⟩ := of_decide_eq_true hvalid
  refine ⟨?_, by omega, hle, Nat.dvd_of_mod_eq_zero hmod, hpos, ?_, hvalid⟩
  · rintro rfl
    exact hne rfl
  · -- A run fits one frame, so its length fits sixteen bits.
    have hsmall : last.length.toNat + bytes.length < 65536 := by
      have hframe : maxUdpRunBytes = 65504 := rfl
      omega
    rw [UInt16.toNat_add, UInt16.toNat_ofNat']
    omega

lemma toNat_length (h : bytes.length ≤ maxNetworkDatagramBytes) :
    (UInt16.ofNat bytes.length).toNat = bytes.length := by
  simp only [maxNetworkDatagramBytes] at h
  exact UInt16.toNat_ofNat_of_lt' (by change bytes.length < 65536; omega)

lemma push_valid (peer : SocketAddr) (bytes : List UInt8) (h : b.Valid) :
    (b.push peer bytes).2.Valid := by
  have hpushed := push_pushed b peer bytes
  generalize b.push peer bytes = r at hpushed
  cases hpushed with
  | refused => exact h
  | @merged front last hheaders hpeer hextends hroom =>
    obtain ⟨-, -, -, -, hpos, hsum, hrun⟩ := extends_facts hextends
    have hdrop : b.headers.dropLast = front := by
      rw [hheaders, List.dropLast_concat]
    have htotal := h.total
    have hentries := (of_decide_eq_true h.limits).1
    rw [hheaders, totalLength_append, totalLength_singleton] at htotal
    refine ⟨?_, ?_, ?_⟩
    · intro header hmem
      simp only [merge, hdrop, List.mem_append, List.mem_singleton] at hmem
      rcases hmem with hold | hnew
      · exact h.headers header (by simp [hheaders, hold])
      · subst hnew
        simp only [DatagramHeader.isValid, isValidUdpRun, hsum]
        rw [if_neg (by omega)]
        exact hrun
    · simp only [merge, hdrop, totalLength_append, totalLength_singleton, hsum, List.length_append]
      omega
    · -- No entry is added, and the budget was checked with the new bytes.
      apply decide_eq_true
      simp only [batchBytes, datagramBatchBytes, hheaders, List.length_append,
        List.length_singleton] at hentries hroom
      simp only [merge, hdrop, datagramBatchBytes, List.length_append, List.length_singleton]
      omega
  | entry hlength hroom =>
    have hsmall := toNat_length hlength
    refine ⟨?_, ?_, ?_⟩
    · refine List.forall_mem_append.2 ⟨h.headers, List.forall_mem_singleton.2 ?_⟩
      simp only [DatagramHeader.isValid, isValidUdpRun, hsmall]
      exact decide_eq_true hlength
    · simp only [totalLength_append, totalLength_singleton, hsmall, List.length_append, h.total]
    · simpa [hasRoomForEntry] using hroom

/-- Merging keeps every boundary: the run's datagrams, then the new one. -/
lemma expand_merge {last : DatagramHeader} {run : List UInt8}
    (hrun : run.length = last.length.toNat)
    (hextends : extendsUdpRun last.length.toNat (runSegment last).toNat bytes.length = true) :
    expand (last.peer, runSegment last, run ++ bytes) =
      expand (last.peer, last.segment, run) ++ [(last.peer, bytes)] := by
  obtain ⟨hne, hlen, hle, hdvd, hpos, -, -⟩ := extends_facts hextends
  have hsegment : runSegment last ≠ 0 := by
    intro hzero
    rw [hzero] at hpos
    exact absurd hpos (by decide)
  have hrunne : run ≠ [] := by
    rintro rfl
    rw [List.length_nil] at hrun
    omega
  have hsame : chunks (if last.segment = 0 then max run.length 1 else last.segment.toNat) run =
      chunks (runSegment last).toNat run := by
    by_cases hzero : last.segment = 0
    · have hsize : (runSegment last).toNat = run.length := by
        rw [runSegment, if_pos hzero, hrun]
      rw [if_pos hzero, hsize, Nat.max_eq_left (by omega)]
    · rw [if_neg hzero, runSegment, if_neg hzero]
  simp only [expand, if_neg hsegment, hsame]
  rw [chunks_append hpos bytes (hrun ▸ hdvd), chunks_of_length_le hne hle]
  simp [hrunne, hne]

lemma entriesOf_singleton (header : DatagramHeader) (run : List UInt8)
    (h : run.length = header.length.toNat) :
    entriesOf [header] run = [(header.peer, header.segment, run)] := by
  simp only [entriesOf]
  rw [List.take_of_length_le (Nat.le_of_eq h)]

lemma Valid.split {front : List DatagramHeader} {last : DatagramHeader} (h : b.Valid)
    (hheaders : b.headers = front ++ [last]) :
    ∃ covered run, b.bytes = covered ++ run ∧ totalLength front = covered.length ∧
      run.length = last.length.toNat := by
  have htotal := h.total
  rw [hheaders, totalLength_append, totalLength_singleton] at htotal
  refine ⟨b.bytes.take (totalLength front), b.bytes.drop (totalLength front),
    (List.take_append_drop _ _).symm, ?_, ?_⟩
  · exact (List.length_take_of_le (by omega)).symm
  · rw [List.length_drop]
    omega

lemma push_datagrams (peer : SocketAddr) (bytes : List UInt8) (h : b.Valid) :
    (b.push peer bytes).2.datagrams =
      b.datagrams ++ (if (b.push peer bytes).1 then [(peer, bytes)] else []) := by
  have hpushed := push_pushed b peer bytes
  generalize b.push peer bytes = r at hpushed
  cases hpushed with
  | refused => simp
  | @merged front last hheaders hpeer hextends hroom =>
    subst hpeer
    obtain ⟨covered, run, hbytes, hcovered, hrun⟩ := h.split hheaders
    have hsum := (extends_facts hextends).2.2.2.2.2.1
    have hbefore : b.datagrams = (entriesOf front covered).flatMap expand ++
        expand (last.peer, last.segment, run) := by
      rw [datagrams, entries, hheaders, hbytes, entriesOf_append _ _ hcovered,
        entriesOf_singleton _ _ hrun]
      simp
    have hafter : (b.merge last bytes).datagrams = (entriesOf front covered).flatMap expand ++
        expand (last.peer, runSegment last, run ++ bytes) := by
      simp only [datagrams, entries, merge]
      rw [hheaders, hbytes, List.dropLast_concat, List.append_assoc, entriesOf_append _ _ hcovered,
        entriesOf_singleton _ _ (by rw [hsum, List.length_append, hrun])]
      simp
    rw [hafter, hbefore, expand_merge hrun hextends]
    simp
  | entry hlength hroom =>
    have hsmall := toNat_length hlength
    have hsingle : expand (peer, 0, bytes) = [(peer, bytes)] := by
      by_cases hnil : bytes = []
      · simp [expand, hnil]
      · have hpos : 1 ≤ bytes.length := List.length_pos_iff.2 hnil
        simp only [expand, if_true, Nat.max_eq_left hpos]
        rw [chunks_of_length_le hnil (Nat.le_refl _)]
        simp [hnil]
    rw [datagrams, entries, entriesOf_append _ _ h.total, entriesOf_singleton _ _ hsmall.symm]
    simp [datagrams, entries, hsingle]

/-! ## Runs of datagrams -/

/-- Of the datagrams `ds` a front part was taken and counted; only one that does not fit ends it. -/
structure Takes (b : DatagramBatch) (peer : SocketAddr) (ds accepted rest : List (List UInt8))
    (r : Nat × DatagramBatch) : Prop where
  split : ds = accepted ++ rest
  count : r.1 = (accepted.map List.length).sum
  valid : r.2.Valid
  datagrams : r.2.datagrams = b.datagrams ++ accepted.map fun d => (peer, d)
  stop : ∀ d ∈ rest.head?, (r.2.push peer d).1 = false
  same : accepted = [] → r.2 = b

lemma pushChunks_spec (peer : SocketAddr) (h : b.Valid) (taken : Nat) (ds : List (List UInt8)) :
    ∃ accepted rest count, Takes b peer ds accepted rest (count, (b.pushChunks peer taken ds).2) ∧
      (b.pushChunks peer taken ds).1 = taken + count := by
  induction ds generalizing b taken with
  | nil => exact ⟨[], [], 0, ⟨rfl, rfl, h, by simp [pushChunks], by simp, fun _ => rfl⟩, rfl⟩
  | cons d ds ih =>
    have hvalid := push_valid peer d h
    have hdatagrams := push_datagrams peer d h
    cases hpush : b.push peer d with
    | mk accepted m =>
      have hrefused : (b.push peer d).1 = false → (b.push peer d).2 = b := push_refused
      rw [hpush] at hvalid hdatagrams hrefused
      cases accepted with
      | false =>
        -- The loop breaks, and the batch is the one the datagram did not fit into.
        have hsame : m = b := hrefused rfl
        subst hsame
        simp only [pushChunks, hpush]
        refine ⟨[], d :: ds, 0, ⟨rfl, rfl, h, by simp, ?_, fun _ => rfl⟩, rfl⟩
        intro d' hd'
        cases hd'
        rw [hpush]
      | true =>
        obtain ⟨accepted, rest, count, htakes, htaken⟩ := ih hvalid (taken + d.length)
        have hcount : count = (accepted.map List.length).sum := htakes.count
        simp only [pushChunks, hpush]
        refine ⟨d :: accepted, rest, d.length + count,
          ⟨by rw [htakes.split]; rfl, ?_, htakes.valid, ?_,
          htakes.stop, nofun⟩, by rw [htaken, Nat.add_assoc]⟩
        · simp [hcount]
        · rw [htakes.datagrams, hdatagrams]
          simp

def offered (bytes : List UInt8) (stride : Nat) : List (List UInt8) :=
  if bytes = [] then [[]] else chunks (max stride 1) bytes

lemma pushRun_spec (peer : SocketAddr) (bytes : List UInt8) (stride : Nat) (h : b.Valid) :
    ∃ accepted rest, Takes b peer (offered bytes stride) accepted rest
      (b.pushRun peer bytes stride) := by
  by_cases hnil : bytes = []
  · subst hnil
    have hvalid := push_valid peer [] h
    have hdatagrams := push_datagrams peer [] h
    simp only [offered, pushRun, if_true]
    cases hpush : (b.push peer []).1 with
    | true =>
      refine ⟨[[]], [], rfl, rfl, hvalid, ?_, by simp, nofun⟩
      simpa [hpush] using hdatagrams
    | false =>
      refine ⟨[], [[]], rfl, rfl, hvalid, ?_, ?_, fun _ => push_refused hpush⟩
      · simpa [hpush] using hdatagrams
      · rw [push_refused hpush]
        intro d hd
        cases hd
        exact hpush
  · simp only [offered, pushRun, if_neg hnil]
    obtain ⟨accepted, rest, count, htakes, htaken⟩ :=
      pushChunks_spec peer h 0 (chunks (max stride 1) bytes)
    refine ⟨accepted, rest, htakes.split, ?_, htakes.valid, htakes.datagrams,
      htakes.stop, htakes.same⟩
    rw [htaken, Nat.zero_add]
    exact htakes.count

/-! ## Whole runs -/

inductive Op
  | push (peer : SocketAddr) (bytes : List UInt8)
  | pushRun (peer : SocketAddr) (bytes : List UInt8) (stride : Nat)
  deriving DecidableEq

inductive Out
  | pushed (accepted : Bool)
  | taken (count : Nat)
  deriving DecidableEq

def step (b : DatagramBatch) : Op → Option (Out × DatagramBatch)
  | .push peer bytes =>
      let (accepted, b) := b.push peer bytes
      some (.pushed accepted, b)
  | .pushRun peer bytes stride =>
      let (count, b) := b.pushRun peer bytes stride
      some (.taken count, b)

/-- The datagrams that a call accepted, as its result tells. -/
inductive Accepted (b b' : DatagramBatch) : Op → Out → List Datagram → Prop
  | pushed {peer : SocketAddr} {bytes : List UInt8} :
      Accepted b b' (.push peer bytes) (.pushed true) [(peer, bytes)]
  | refused {peer : SocketAddr} {bytes : List UInt8} (hsame : b' = b) :
      Accepted b b' (.push peer bytes) (.pushed false) []
  | taken {peer : SocketAddr} {bytes : List UInt8} {stride : Nat}
    {accepted rest : List (List UInt8)}
      (hoffered : offered bytes stride = accepted ++ rest)
      (hstop : ∀ d ∈ rest.head?, (b'.push peer d).1 = false) :
      Accepted b b' (.pushRun peer bytes stride) (.taken (accepted.map List.length).sum)
        (accepted.map fun d => (peer, d))

lemma step_accepted (h : b.Valid) {op : Op} {out : Out} (hstep : b.step op = some (out, b')) :
    b'.Valid ∧ ∃ ds, Accepted b b' op out ds ∧ b'.datagrams = b.datagrams ++ ds := by
  cases op with
  | push peer bytes =>
    have hvalid := push_valid peer bytes h
    have hdatagrams := push_datagrams peer bytes h
    simp only [step, Option.some.injEq, Prod.mk.injEq] at hstep
    obtain ⟨rfl, rfl⟩ := hstep
    refine ⟨hvalid, _, ?_, hdatagrams⟩
    cases hpush : (b.push peer bytes).1 with
    | true => exact Accepted.pushed
    | false => exact Accepted.refused (push_refused hpush)
  | pushRun peer bytes stride =>
    obtain ⟨accepted, rest, htakes⟩ := pushRun_spec peer bytes stride h
    simp only [step, Option.some.injEq, Prod.mk.injEq] at hstep
    obtain ⟨rfl, rfl⟩ := hstep
    rw [htakes.count]
    exact ⟨htakes.valid, _, Accepted.taken htakes.split htakes.stop, htakes.datagrams⟩

/-- Every sequence of pushes on a fresh or received batch leaves a batch that `fromParts` accepts,
and its datagrams are the old ones followed by those that each call accepted. -/
theorem pushes_keep_datagrams {b₀ : DatagramBatch} {es : List (Run.Event DatagramBatch Op Out)}
    (hstart : b₀ = default ∨ ∃ headers bytes, fromParts headers bytes = some b₀)
    (h : Run.Trace step b₀ es b) :
    fromParts b.intoParts.1 b.intoParts.2 = some b ∧
      ∃ accepted : List (List Datagram),
        List.Forall₂ (fun e ds => Accepted e.pre e.post e.op e.out ds ∧
          e.post.datagrams = e.pre.datagrams ++ ds) es accepted ∧
          b.datagrams = b₀.datagrams ++ accepted.flatten := by
  suffices hrun : b.Valid ∧ ∃ accepted : List (List Datagram),
      List.Forall₂ (fun e ds => Accepted e.pre e.post e.op e.out ds ∧
        e.post.datagrams = e.pre.datagrams ++ ds) es accepted ∧
        b.datagrams = b₀.datagrams ++ accepted.flatten from
    ⟨fromParts_eq_some.2 ⟨rfl, hrun.1⟩, hrun.2⟩
  induction h with
  | nil => exact ⟨valid_start hstart, [], List.Forall₂.nil, by simp⟩
  | snoc _ hstep ih =>
    obtain ⟨hvalid, accepted, hevents, hdatagrams⟩ := ih
    obtain ⟨hvalid', ds, haccepted, hadded⟩ := step_accepted hvalid hstep
    refine ⟨hvalid', accepted ++ [ds], ?_, ?_⟩
    · exact List.rel_append hevents (List.Forall₂.cons ⟨haccepted, hadded⟩ List.Forall₂.nil)
    · rw [hadded, hdatagrams]
      simp

def pingOps : List Op :=
  [.push (.v4 ⟨10, 0, 0, 1⟩ 53) [1, 2], .pushRun (.v4 ⟨10, 0, 0, 1⟩ 53) [3, 4, 5] 2,
    .push (.v4 ⟨10, 0, 0, 1⟩ 53) [6], .push (.v4 ⟨10, 0, 0, 2⟩ 53) []]

theorem pushes_keep_datagrams_ping :
    ∃ es b, Run.Trace step default es b ∧ b.headers.length = 3 ∧
      fromParts b.intoParts.1 b.intoParts.2 = some b :=
  ⟨_, _, Run.exec_run step default pingOps (by decide), by decide,
    (pushes_keep_datagrams (Or.inl rfl) (Run.exec_run step default pingOps (by decide))).1⟩

end DatagramBatch

end Terrarium.Protocol
