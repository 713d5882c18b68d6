import Terrarium.Protocol.DatagramBatch
import Terrarium.Protocol.PackedImage

/-!
# Messages — framed messages between the host and its peers

`crates/terra-protocol/src/frames.rs`: a frame is a little-endian length and a Postcard payload, no
longer than its message type allows.  Postcard is not part of the repository, so `Postcard` spells
out the part of its format that the UDP messages of `network.rs` use.

The main result says that a datagram batch never outgrows the message that carries it, although its
budget counts guest frames and not Postcard bytes.
-/

namespace Terrarium.Protocol

open Policy (SocketAddr)
open Wire (leBytes)

/-! ## Frames -/

def payloadLenWithinLimit (maxPayloadBytes len : Nat) : Except IoError Nat :=
  if len > maxPayloadBytes then
    .error
      (invalidDataError s!"framed message of {len} bytes exceeds the {maxPayloadBytes}-byte limit")
  else .ok len

def encodeFrame (maxPayloadBytes : Nat) (payload : List UInt8) : Except IoError (List UInt8) := do
  let len ← payloadLenWithinLimit maxPayloadBytes payload.length
  if len < 2 ^ 32 then return leBytes 4 len ++ payload
  else throw ⟨.other, "out of range integral type conversion attempted"⟩

lemma encodeFrame_of_le {limit : Nat} {payload : List UInt8} (h : payload.length ≤ limit)
    (hlimit : limit < 2 ^ 32) :
    encodeFrame limit payload = .ok (leBytes 4 payload.length ++ payload) := by
  rw [encodeFrame, payloadLenWithinLimit, if_neg (Nat.not_lt_of_le h)]
  exact if_pos (Nat.lt_of_le_of_lt h hlimit)

/-! ## UDP messages -/

namespace Postcard

/-- Seven bits a byte, lowest first; every byte but the last has its high bit set. -/
def varint (n : Nat) : List UInt8 :=
  if n < 128 then [UInt8.ofNat n] else UInt8.ofNat (n % 128 + 128) :: varint (n / 128)

def socketAddr : SocketAddr → List UInt8
  | .v4 ip port => 0 :: (ip.octets ++ varint port.toNat)
  | .v6 ip port _ _ => 1 :: (ip.octets ++ varint port.toNat)

def datagramHeader (header : DatagramHeader) : List UInt8 :=
  socketAddr header.peer ++ varint header.length.toNat ++ varint header.segment.toNat

def datagramBatch (b : DatagramBatch) : List UInt8 :=
  varint b.headers.length ++ b.headers.flatMap datagramHeader ++ varint b.bytes.length ++ b.bytes

def udpRequestSend (b : DatagramBatch) : List UInt8 :=
  0 :: datagramBatch b

def udpReplyDatagrams (b : DatagramBatch) : List UInt8 :=
  1 :: datagramBatch b

lemma length_varint {n : Nat} (k : Nat) (h : n < 128 ^ (k + 1)) : (varint n).length ≤ k + 1 := by
  induction k generalizing n with
  | zero =>
    rw [varint, if_pos (by omega)]
    exact Nat.le_refl 1
  | succ k ih =>
    rw [varint]
    split
    · exact Nat.le_add_left 1 (k + 1)
    · exact Nat.succ_le_succ (ih (by omega))

lemma length_varint_u16 (n : UInt16) : (varint n.toNat).length ≤ 3 :=
  length_varint 2 (Nat.lt_trans n.toNat_lt (by decide))

/-- Twenty-six bytes at most, where the budget counts thirty-two. -/
lemma length_datagramHeader (header : DatagramHeader) :
    (datagramHeader header).length ≤ udpFrameOverheadBytes := by
  have hlength := length_varint_u16 header.length
  have hsegment := length_varint_u16 header.segment
  have hpeer : (socketAddr header.peer).length ≤ 20 := by
    cases header.peer with
    | v4 ip port | v6 ip port =>
      have hport := length_varint_u16 port
      have hip : ip.octets.length ≤ 16 := by simp [Policy.Ipv4Addr.octets, Policy.Ipv6Addr.octets]
      simp only [socketAddr, List.length_cons, List.length_append]
      omega
  have hoverhead : udpFrameOverheadBytes = 32 := rfl
  simp only [datagramHeader, List.length_append]
  omega

lemma length_headers (headers : List DatagramHeader) :
    (headers.flatMap datagramHeader).length ≤ headers.length * udpFrameOverheadBytes := by
  induction headers with
  | nil => exact Nat.zero_le _
  | cons header headers ih =>
    have hhead := length_datagramHeader header
    rw [List.flatMap_cons, List.length_append, List.length_cons, Nat.succ_mul]
    omega

end Postcard

def maxNetworkPayloadBytes : Nat := maxNetworkDatagramBatchBytes + 128

namespace DatagramBatch

variable {b : DatagramBatch}

lemma Valid.length_datagramBatch (h : b.Valid) :
    (Postcard.datagramBatch b).length < maxNetworkPayloadBytes := by
  obtain ⟨hentries, hbudget⟩ := of_decide_eq_true h.limits
  simp only [maxNetworkDatagrams, datagramBatchBytes,
    maxNetworkDatagramBatchBytes] at hentries hbudget
  have hcount : (Postcard.varint b.headers.length).length ≤ 1 := Postcard.length_varint 0 (by omega)
  have hbytes : (Postcard.varint b.bytes.length).length ≤ 3 := Postcard.length_varint 2 (by omega)
  have hheaders := Postcard.length_headers b.headers
  simp only [Postcard.datagramBatch, List.length_append, maxNetworkPayloadBytes,
    maxNetworkDatagramBatchBytes]
  omega

/-- Every batch that `fromParts` accepts, and every batch pushed together from one or from scratch,
fits the request and the reply that carry it, so neither is refused when it is framed. -/
theorem batch_fits_its_message {b₀ : DatagramBatch} {es : List (Run.Event DatagramBatch Op Out)}
    (hstart : b₀ = default ∨ ∃ headers bytes, fromParts headers bytes = some b₀)
    (hrun : Run.Trace step b₀ es b) :
    ∀ payload ∈ [Postcard.udpRequestSend b, Postcard.udpReplyDatagrams b],
      payload.length ≤ maxNetworkPayloadBytes ∧
        encodeFrame maxNetworkPayloadBytes payload = .ok (leBytes 4 payload.length ++ payload) := by
  have hvalid : b.Valid :=
    hrun.invariant (fun hb hstep => (step_accepted hb hstep).1) (valid_start hstart)
  have hfits := hvalid.length_datagramBatch
  have hframed : ∀ {payload : List UInt8}, payload.length ≤ maxNetworkPayloadBytes →
      payload.length ≤ maxNetworkPayloadBytes ∧
        encodeFrame maxNetworkPayloadBytes payload = .ok (leBytes 4 payload.length ++ payload) :=
    fun h => ⟨h, encodeFrame_of_le h (by decide)⟩
  exact List.forall_mem_cons.2 ⟨hframed hfits, List.forall_mem_singleton.2 (hframed hfits)⟩

def mixedHeaders : List DatagramHeader :=
  [⟨.v4 ⟨10, 0, 0, 1⟩ 53, 2, 0⟩, ⟨.v6 ⟨0, 0, 0, 0, 0, 0, 0, 1⟩ 5353 0 0, 3, 2⟩]

theorem batch_fits_its_message_mixed :
    ∃ b, fromParts mixedHeaders [1, 2, 3, 4, 5] = some b ∧
      (Postcard.udpRequestSend b).length ≤ maxNetworkPayloadBytes :=
  ⟨_, rfl, (batch_fits_its_message (Or.inr ⟨mixedHeaders, [1, 2, 3, 4, 5], rfl⟩) Run.Trace.nil _
    List.mem_cons_self).1⟩

end DatagramBatch

end Terrarium.Protocol
