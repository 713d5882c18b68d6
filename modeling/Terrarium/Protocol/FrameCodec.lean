import Mathlib.Tactic.IntervalCases
import Terrarium.Protocol.Frame

/-!
# FrameCodec — every frame has exactly one encoding

The wire layout is stated once, as the bytes of each field and payload (`peerBytes`, `statusBytes`,
…).  The writers append exactly these bytes, and the readers accept exactly these bytes; both round
trips of the codec follow, together with the fact that neither side decodes the other's frames.
-/

namespace Terrarium

/-! ## Addresses as octets -/

namespace Policy

lemma Ipv4Addr.octets_ofOctets {bs : List UInt8} (h : bs.length = 4) :
    (Ipv4Addr.ofOctets bs).octets = bs := by
  match bs, h with
  | [a, b, c, d], _ => rfl

namespace Ipv6Addr

lemma toNat_high (s : UInt16) : (s >>> 8).toNat = s.toNat / 256 := by
  simp [Nat.shiftRight_eq_div_pow]

lemma toNat_low (s : UInt16) : s.toUInt8.toNat = s.toNat % 256 := by
  simp

lemma segment_octets (s : UInt16) : segment (s >>> 8).toUInt8 s.toUInt8 = s := by
  have hs : s.toNat < 65536 := s.toNat_lt
  apply UInt16.toNat.inj
  simp only [segment, UInt16.toNat_ofNat', toNat_low, toNat_high]
  omega

lemma octets_segment (high low : UInt8) :
    [(segment high low >>> 8).toUInt8, (segment high low).toUInt8] = [high, low] := by
  have hhigh : high.toNat < 256 := high.toNat_lt
  have hlow : low.toNat < 256 := low.toNat_lt
  have h₁ : (segment high low >>> 8).toUInt8 = high := by
    apply UInt8.toNat.inj
    simp only [toNat_low, toNat_high, segment, UInt16.toNat_ofNat']
    omega
  have h₂ : (segment high low).toUInt8 = low := by
    apply UInt8.toNat.inj
    simp only [toNat_low, segment, UInt16.toNat_ofNat']
    omega
  rw [h₁, h₂]

lemma ofOctets_octets (ip : Ipv6Addr) : ofOctets ip.octets = ip := by
  obtain ⟨s0, s1, s2, s3, s4, s5, s6, s7⟩ := ip
  simp [ofOctets, octets, segment_octets]

lemma octets_ofOctets {bs : List UInt8} (h : bs.length = 16) : (ofOctets bs).octets = bs := by
  match bs, h with
  | [a, b, c, d, e, f, g, h, i, j, k, l, m, n, o, p], _ =>
    simp only [ofOctets, octets, List.flatMap_cons, octets_segment]
    rfl

end Ipv6Addr
end Policy

namespace Protocol

open Policy (Ipv4Addr Ipv6Addr IpAddr SocketAddr)
open Wire

/-! ## The layout -/

def peerBytes : SocketAddr → Option (List UInt8)
  | .v4 ip port =>
      some ([endpointIpv4, 0] ++ (u16Bytes port ++ (ip.octets ++ List.replicate 12 0)))
  | .v6 ip port flowinfo scopeId =>
      if flowinfo = 0 ∧ scopeId = 0 then some ([endpointIpv6, 0] ++ (u16Bytes port ++ ip.octets))
      else none

def statusBytes (error : Option SocketError) : List UInt8 :=
  u16Bytes (error.elim 0 SocketError.code) ++ u16Bytes 0

def TcpOpenOptions.bytes (options : TcpOpenOptions) : List UInt8 :=
  u16Bytes options.flags ++ (u16Bytes options.fields.1 ++
    (u16Bytes options.fields.2.1 ++ u16Bytes options.fields.2.2))

def tcpOpenBytes (peer : SocketAddr) (options : TcpOpenOptions) : Option (List UInt8) :=
  (peerBytes peer).map fun bytes => options.bytes ++ bytes

def udpBytes (run : UdpRun) : Option (List UInt8) :=
  if isValidUdpRun run.bytes.length run.wireSegment.toNat then
    (peerBytes run.peer).map fun bytes =>
      bytes ++ (u16Bytes run.wireSegment ++ (u16Bytes 0 ++ run.bytes))
  else none

def GuestFrame.payload : GuestFrame → Option (List UInt8)
  | .tcpOpen peer options => tcpOpenBytes peer options
  | .udpSend run => udpBytes run

def HostFrame.payload : HostFrame → Option (List UInt8)
  | .opened (.ok ()) => some (statusBytes none)
  | .opened (.error error) => some (statusBytes (some error))
  | .udpDatagram run => udpBytes run
  | .udpError peer error => (peerBytes peer).map fun bytes => statusBytes (some error) ++ bytes

def frameHeader (opcode : Opcode) (length : Nat) : List UInt8 :=
  u16Bytes opcode.code ++ (u16Bytes 0 ++ leBytes 4 length)

def frameBytes (opcode : Opcode) (payload : Option (List UInt8)) : Option (List UInt8) :=
  payload.bind fun u =>
    if headerBytes + u.length ≤ maxFrameBytes then some (frameHeader opcode u.length ++ u) else none

@[simp] lemma length_u16Bytes (value : UInt16) : (u16Bytes value).length = 2 := rfl

lemma u16Bytes_zero : u16Bytes 0 = [0, 0] := rfl

@[simp] lemma length_frameHeader (opcode : Opcode) (length : Nat) :
    (frameHeader opcode length).length = headerBytes := rfl

/-! ## The writers follow the layout -/

namespace BodyWriter

lemma putU16_writes (value : UInt16) : Writes (putU16 value) (some (u16Bytes value)) := Writes.put _

lemma putReserved_writes : Writes putReserved (some (u16Bytes 0)) := putU16_writes 0

lemma putEndpoint_writes (family : UInt8) (port : UInt16) (address : List UInt8) :
    Writes (putEndpoint family port address) (some ([family, 0] ++ (u16Bytes port ++ address))) :=
  (Writes.put _).seq ((putU16_writes port).seq (Writes.put address))

lemma putPeer_writes (peer : SocketAddr) : Writes (putPeer peer) (peerBytes peer) := by
  cases peer with
  | v4 ip port => exact putEndpoint_writes _ _ _
  | v6 ip port flowinfo scopeId =>
    simp only [putPeer, peerBytes]
    split
    · exact putEndpoint_writes _ _ _
    · exact Writes.throw _

lemma putStatus_writes (error : Option SocketError) :
    Writes (putStatus error) (some (statusBytes error)) :=
  (putU16_writes _).seq putReserved_writes

lemma putTcpOpen_writes (peer : SocketAddr) (options : TcpOpenOptions) :
    Writes (putTcpOpen peer options) (tcpOpenBytes peer options) := by
  have h : Writes (putTcpOpen peer options) _ := (putU16_writes options.flags).seq
    ((putU16_writes options.fields.1).seq
    ((putU16_writes options.fields.2.1).seq
      ((putU16_writes options.fields.2.2).seq (putPeer_writes peer))))
  cases hpeer : peerBytes peer with
  | none => simpa [tcpOpenBytes, hpeer] using h
  | some bytes => simpa [tcpOpenBytes, TcpOpenOptions.bytes, hpeer] using h

lemma putUdpBody_writes (run : UdpRun) : Writes (putUdpBody run) (udpBytes run) := by
  have hfields := (putPeer_writes run.peer).seq ((putU16_writes run.wireSegment).seq
    (putReserved_writes.seq (Writes.put run.bytes)))
  simp only [putUdpBody, udpBytes, checkUdpRun]
  split
  · cases hpeer : peerBytes run.peer with
    | none | some bytes => simpa [hpeer] using hfields
  · -- The length check comes before the first byte.
    exact (Writes.throw _).seq hfields

end BodyWriter

lemma GuestFrame.writePayload_writes (frame : GuestFrame) :
    Writes frame.writePayload frame.payload := by
  cases frame with
  | tcpOpen peer options => exact BodyWriter.putTcpOpen_writes peer options
  | udpSend run => exact BodyWriter.putUdpBody_writes run

lemma HostFrame.writePayload_writes (frame : HostFrame) :
    Writes frame.writePayload frame.payload := by
  cases frame with
  | opened outcome =>
    cases outcome with
    | ok _ => exact BodyWriter.putStatus_writes none
    | error error => exact BodyWriter.putStatus_writes (some error)
  | udpDatagram run => exact BodyWriter.putUdpBody_writes run
  | udpError peer error =>
    have h : Writes (writePayload (.udpError peer error)) _ :=
      (BodyWriter.putStatus_writes (some error)).seq (BodyWriter.putPeer_writes peer)
    cases hpeer : peerBytes peer with
    | none | some bytes => simpa [payload, hpeer] using h

lemma appendFrame_eq (opcode : Opcode) {w : BodyWriter Unit} {spelling : Option (List UInt8)}
    (hw : Writes w spelling) (out : List UInt8) :
    appendFrame opcode w out = (frameBytes opcode spelling).elim (.error ⟨⟩, out) fun u =>
    (.ok (), out ++ u) := by
  cases spelling with
  | none =>
    obtain ⟨e, tail, h⟩ := hw (out ++ List.replicate headerBytes 0)
    simp [appendFrame, frameBytes, h]
  | some u =>
    have h := hw (out ++ List.replicate headerBytes 0)
    have hlen :
        (out ++ List.replicate headerBytes 0 ++ u).length - out.length =
        headerBytes + u.length := by
      simp only [List.length_append, List.length_replicate]
      omega
    simp only [appendFrame, frameBytes, Option.bind_some, h, hlen]
    by_cases hfit : headerBytes + u.length ≤ maxFrameBytes
    · -- The two header fields replace reserved zeros; the middle two bytes stay zero.
      have hmod : (headerBytes + u.length - headerBytes) % 2 ^ 32 = u.length := by
        simp only [headerBytes, maxFrameBytes] at hfit ⊢
        omega
      have hopcode : overwrite (out ++ List.replicate headerBytes 0 ++ u) out.length
          (u16Bytes opcode.code) = out ++ u16Bytes opcode.code ++ (List.replicate 6 0 ++ u) := by
        have := overwrite_append out (List.replicate 2 0) (List.replicate 6 0 ++ u)
          (u16Bytes opcode.code) (by simp)
        simpa [headerBytes, List.replicate] using this
      have hlength : overwrite (out ++ u16Bytes opcode.code ++ (List.replicate 6 0 ++ u))
          (out.length + 4) (leBytes 4 u.length) = out ++ (frameHeader opcode u.length ++ u) := by
        have := overwrite_append (out ++ u16Bytes opcode.code ++ [0, 0]) (List.replicate 4 0) u
          (leBytes 4 u.length) (by simp)
        simpa [frameHeader, u16Bytes_zero, List.replicate] using this
      rw [if_neg (by omega), if_pos hfit, hmod, hopcode, hlength]
      rfl
    · rw [if_pos (by omega), if_neg hfit]
      simp

/-! ## The readers follow the layout -/

lemma SocketError.code_of_decode {status : UInt16} {error : SocketError}
    (h : SocketError.decode status = some error) : status = error.code := by
  unfold SocketError.decode at h
  split at h
  · cases h
  next index hindex =>
    have hlt : index < 15 := (List.getElem?_eq_some_iff.1 h).1
    have hstatus : status = UInt16.ofNat (index + 1) :=
      calc status = UInt16.ofNat status.toNat := UInt16.ofNat_toNat.symm
        _ = UInt16.ofNat (index + 1) := congrArg UInt16.ofNat hindex
    rw [hstatus]
    interval_cases index <;> cases h <;> rfl

namespace Body

lemma u16_reads : Reads u16 (fun value u => u = u16Bytes value) := by
  refine ((reads_number _ 2).map UInt16.ofNat).mono ?_
  intro value u
  constructor
  · rintro ⟨n, ⟨hn, rfl⟩, rfl⟩
    have hval : (UInt16.ofNat n).toNat = n := UInt16.toNat_ofNat_of_lt' hn
    simp only [u16Bytes, hval]
  · rintro rfl
    exact ⟨value.toNat, ⟨value.toNat_lt, rfl⟩, (UInt16.ofNat_toNat).symm⟩

lemma u32_reads : Reads u32 (fun value u => u = leBytes 4 value.toNat) := by
  refine ((reads_number _ 4).map UInt32.ofNat).mono ?_
  intro value u
  constructor
  · rintro ⟨n, ⟨hn, rfl⟩, rfl⟩
    have hval : (UInt32.ofNat n).toNat = n := UInt32.toNat_ofNat_of_lt' hn
    rw [hval]
  · rintro rfl
    exact ⟨value.toNat, ⟨value.toNat_lt, rfl⟩, (UInt32.ofNat_toNat).symm⟩

lemma reserved_reads : Reads reserved (fun _ u => u = u16Bytes 0) := by
  refine (u16_reads.bind fun value => reads_require _ _).mono ?_
  intro _ u
  simp

lemma endpointAddress_eq_some {family : UInt8} {address : List UInt8} {ip : IpAddr}
    (hlen : address.length = 16) : endpointAddress family address = some ip ↔
      (∃ a, ip = .v4 a ∧ family = endpointIpv4 ∧ address = a.octets ++ List.replicate 12 0) ∨
        ∃ a, ip = .v6 a ∧ family = endpointIpv6 ∧ address = a.octets := by
  unfold endpointAddress
  constructor
  · intro h
    split at h
    next h₄ =>
      cases h
      refine Or.inl ⟨_, rfl, h₄.1, ?_⟩
      rw [Ipv4Addr.octets_ofOctets (by simp [hlen]), ← h₄.2, List.take_append_drop]
    · split at h
      next h₆ =>
        cases h
        exact Or.inr ⟨_, rfl, h₆, (Ipv6Addr.octets_ofOctets hlen).symm⟩
      · cases h
  · rintro (⟨a, rfl, rfl, rfl⟩ | ⟨a, rfl, rfl, rfl⟩)
    · simp [Ipv4Addr.octets, Ipv4Addr.ofOctets]
    · simp [endpointIpv4, endpointIpv6, Ipv6Addr.ofOctets_octets]

lemma peerBytes_eq_some {peer : SocketAddr} {w : List UInt8} :
    peerBytes peer = some w ↔ ∃ family address ip port, address.length = 16 ∧
      endpointAddress family address = some ip ∧ peer = SocketAddr.new ip port ∧
        w = [family, 0] ++ (u16Bytes port ++ address) := by
  constructor
  · intro h
    cases peer with
    | v4 ip port =>
      cases h
      have hlen : (ip.octets ++ List.replicate 12 0).length = 16 := rfl
      exact ⟨endpointIpv4, _, .v4 ip, port, hlen,
        (endpointAddress_eq_some hlen).2 (Or.inl ⟨ip, rfl, rfl, rfl⟩), rfl, rfl⟩
    | v6 ip port flowinfo scopeId =>
      simp only [peerBytes] at h
      split at h
      next hzero =>
        obtain ⟨rfl, rfl⟩ := hzero
        cases h
        have hlen : ip.octets.length = 16 := rfl
        exact ⟨endpointIpv6, _, .v6 ip, port, hlen,
          (endpointAddress_eq_some hlen).2 (Or.inr ⟨ip, rfl, rfl, rfl⟩), rfl, rfl⟩
      · cases h
  · rintro ⟨family, address, ip, port, hlen, hip, rfl, rfl⟩
    rcases (endpointAddress_eq_some hlen).1 hip with ⟨a, rfl, rfl, rfl⟩ | ⟨a, rfl, rfl, rfl⟩
    · rfl
    · simp [SocketAddr.new, peerBytes]

lemma peer_reads : Reads peer (fun peer u => peerBytes peer = some u) := by
  refine ((reads_takeArray _ 2).bind fun kind => Reads.check _ _ (u16_reads.bind fun port =>
    (reads_takeArray _ 16).bind fun address =>
      (reads_okOr _ (endpointAddress (kind.getD 0 0) address)).map fun ip =>
        SocketAddr.new ip port)).mono ?_
  intro peer w
  rw [peerBytes_eq_some]
  constructor
  · rintro ⟨_, kind, _, ⟨rfl, hkind⟩, ⟨hzero, port, _, _, rfl, ⟨_, address, _, ⟨rfl, haddress⟩,
      ⟨ip, ⟨hip, rfl⟩, rfl⟩, rfl⟩, rfl⟩, rfl⟩
    have hkind' : kind = [kind.getD 0 0, 0] := by
      match kind, hkind with
      | [a, b], _ => simpa using hzero
    refine ⟨kind.getD 0 0, address, ip, port, haddress, hip, rfl, ?_⟩
    rw [← hkind', List.append_nil]
  · rintro ⟨family, address, ip, port, hlen, hip, hnew, rfl⟩
    exact ⟨[family, 0], _, _, ⟨rfl, rfl⟩, ⟨by simp, port, _, _, rfl,
      ⟨address, _, [], ⟨rfl, hlen⟩, ⟨ip, ⟨hip, rfl⟩, hnew⟩, by simp⟩, rfl⟩, rfl⟩

lemma and_eq_self_of_and_not {w : Nat} {x mask : BitVec w} (h : x &&& ~~~mask = 0#w) :
    x &&& mask = x := by
  ext i hi
  have hbit : (x &&& ~~~mask)[i] = (0#w)[i] := by
    rw [h]
  simp only [BitVec.getElem_and, BitVec.getElem_not, BitVec.getElem_zero] at hbit ⊢
  grind

lemma flags_lt_four {flags : UInt16}
    (h : flags &&& ~~~(tcpOpenInlineUrgentFlag ||| tcpOpenKeepaliveFlag) = 0) :
    flags = 0 ∨ flags = 1 ∨ flags = 2 ∨ flags = 3 := by
  have hmask : flags.toBitVec &&& 3#16 = flags.toBitVec :=
    and_eq_self_of_and_not (congrArg UInt16.toBitVec h)
  have hlt : flags.toNat < 4 := by
    have hand : flags.toNat &&& 3 = flags.toNat := congrArg BitVec.toNat hmask
    have hmod : flags.toNat &&& 3 = flags.toNat % 4 := Nat.and_two_pow_sub_one_eq_mod _ 2
    omega
  have hflags : flags = UInt16.ofNat flags.toNat := UInt16.ofNat_toNat.symm
  generalize flags.toNat = n at hlt hflags
  interval_cases n <;> simp [hflags]

lemma keepalive_new_eq_some {idleSecs intervalSecs probeCount : UInt16} {k : TcpKeepalive} :
    TcpKeepalive.new idleSecs intervalSecs probeCount = some k ↔
      idleSecs = k.idleSecs ∧ intervalSecs = k.intervalSecs ∧ probeCount = k.probeCount := by
  unfold TcpKeepalive.new
  constructor
  · intro h
    split at h
    · cases h
      exact ⟨rfl, rfl, rfl⟩
    · cases h
  · rintro ⟨rfl, rfl, rfl⟩
    rw [dif_pos k.isValid]

lemma flags_some (urgent : Bool) (k : TcpKeepalive) :
    TcpOpenOptions.flags ⟨urgent, some k⟩ = if urgent then 3 else 2 := by
  cases urgent with
  | false => simp [TcpOpenOptions.flags, tcpOpenKeepaliveFlag]
  | true =>
    simp only [TcpOpenOptions.flags, Option.isSome_some, if_true]
    decide

/-- Flags and fields are accepted exactly when they are those of the options they declare. -/
lemma declared_options_iff {flags probeCount idleSecs intervalSecs : UInt16}
    {options : TcpOpenOptions} :
    (flags &&& ~~~(tcpOpenInlineUrgentFlag ||| tcpOpenKeepaliveFlag) = 0 ∧
      ∃ keepalive, declaredKeepalive flags probeCount idleSecs intervalSecs = some keepalive ∧
        options = ⟨flags &&& tcpOpenInlineUrgentFlag ≠ 0, keepalive⟩) ↔
      flags = options.flags ∧ (probeCount, idleSecs, intervalSecs) = options.fields := by
  constructor
  · rintro ⟨hmask, keepalive, hkeepalive, rfl⟩
    unfold declaredKeepalive at hkeepalive
    split at hkeepalive
    next hflag =>
      split at hkeepalive
      next hfields =>
        obtain ⟨rfl, rfl, rfl⟩ := hfields
        cases hkeepalive
        rcases flags_lt_four hmask with rfl | rfl | rfl | rfl
        · exact ⟨rfl, rfl⟩
        · exact ⟨rfl, rfl⟩
        · cases hflag
        · cases hflag
      · cases hkeepalive
    next hflag =>
      obtain ⟨k, hk, rfl⟩ := Option.map_eq_some_iff.1 hkeepalive
      obtain ⟨rfl, rfl, rfl⟩ := keepalive_new_eq_some.1 hk
      rcases flags_lt_four hmask with rfl | rfl | rfl | rfl
      · exact absurd rfl hflag
      · exact absurd rfl hflag
      · exact ⟨(flags_some false k).symm, rfl⟩
      · exact ⟨(flags_some true k).symm, rfl⟩
  · rintro ⟨rfl, hfields⟩
    obtain ⟨urgent, keepalive⟩ := options
    cases keepalive with
    | none =>
      cases hfields
      cases urgent with
      | false | true => exact ⟨rfl, none, rfl, rfl⟩
    | some k =>
      cases hfields
      have hk : declaredKeepalive (if urgent then 3 else 2) k.probeCount k.idleSecs
          k.intervalSecs = some (some k) := by
        have hnew := congrArg (Option.map some) (keepalive_new_eq_some.2 ⟨rfl, rfl, rfl⟩ :
          TcpKeepalive.new k.idleSecs k.intervalSecs k.probeCount = some k)
        cases urgent <;> exact hnew
      rw [flags_some]
      cases urgent with
      | false | true => exact ⟨rfl, some k, hk, rfl⟩

lemma tcpOpen_reads : Reads tcpOpen (fun r u => tcpOpenBytes r.1 r.2 = some u) := by
  refine (u16_reads.bind fun flags => u16_reads.bind fun probeCount =>
    u16_reads.bind fun idleSecs => u16_reads.bind fun intervalSecs => Reads.check _ _
      ((reads_okOr _ (declaredKeepalive flags probeCount idleSecs intervalSecs)).bind
        fun keepalive => peer_reads.map fun peer => (peer, _))).mono ?_
  rintro ⟨peer, options⟩ w
  constructor
  · rintro ⟨flags, _, _, rfl, ⟨probeCount, _, _, rfl, ⟨idleSecs, _, _, rfl, ⟨intervalSecs, _, _,
      rfl, ⟨hmask, keepalive, _, u, ⟨hkeepalive, rfl⟩, ⟨peer', hpeer, hr⟩, rfl⟩, rfl⟩, rfl⟩, rfl⟩,
      rfl⟩
    obtain ⟨rfl, hoptions⟩ := Prod.mk.inj hr
    obtain ⟨hflags, hfields⟩ :=
      declared_options_iff.1 ⟨of_decide_eq_true hmask, keepalive, hkeepalive, hoptions⟩
    simp only [Prod.ext_iff] at hfields
    obtain ⟨h₁, h₂, h₃⟩ := hfields
    simp [tcpOpenBytes, TcpOpenOptions.bytes, hpeer, ← hflags, ← h₁, ← h₂, ← h₃]
  · intro h
    obtain ⟨u, hpeer, rfl⟩ := Option.map_eq_some_iff.1 h
    obtain ⟨hmask, keepalive, hkeepalive, hoptions⟩ := declared_options_iff.2
      ⟨(rfl : options.flags = options.flags), (rfl : options.fields = options.fields)⟩
    refine ⟨options.flags, _, _, rfl, ⟨options.fields.1, _, _, rfl, ⟨options.fields.2.1, _, _, rfl,
      ⟨options.fields.2.2, _, _, rfl, ⟨decide_eq_true hmask, keepalive, [], u, ⟨hkeepalive, rfl⟩,
        ⟨peer, hpeer, ?_⟩, rfl⟩, rfl⟩, rfl⟩, rfl⟩, ?_⟩
    · exact congrArg (Prod.mk peer) hoptions
    · simp [TcpOpenOptions.bytes]

lemma declaredStatus_eq_some {status : UInt16} {error : Option SocketError} :
    declaredStatus status = some error ↔ status = error.elim 0 SocketError.code := by
  unfold declaredStatus
  constructor
  · intro h
    split at h
    next hzero =>
      cases h
      exact hzero
    · obtain ⟨e, he, rfl⟩ := Option.map_eq_some_iff.1 h
      exact SocketError.code_of_decode he
  · rintro rfl
    cases error with
    | none => rfl
    | some error => cases error <;> rfl

lemma status_reads : Reads status (fun error u => u = statusBytes error) := by
  refine (u16_reads.bind fun status => reserved_reads.bind fun _ =>
    reads_okOr _ (declaredStatus status)).mono ?_
  intro error w
  constructor
  · rintro ⟨status, _, _, rfl, ⟨_, _, _, rfl, ⟨hstatus, rfl⟩, rfl⟩, rfl⟩
    simp [statusBytes, ← declaredStatus_eq_some.1 hstatus]
  · rintro rfl
    exact ⟨_, _, _, rfl, ⟨(), _, [], rfl, ⟨declaredStatus_eq_some.2 rfl, rfl⟩, rfl⟩, by
      simp [statusBytes]⟩

end Body

lemma wireSegment_of_isValidUdpRun {run : UdpRun}
    (h : isValidUdpRun run.bytes.length run.segment.toNat = true) :
    run.wireSegment = run.segment := by
  simp only [isValidUdpRun, isValidSegmentedRun] at h
  unfold UdpRun.wireSegment
  split at h
  next hzero =>
    have hsegment : run.segment = 0 := UInt16.toNat.inj hzero
    simp [hsegment]
  · simp only [decide_eq_true_eq] at h
    rw [if_pos h.2.2.1]

/-- A run is read exactly from its bytes, and only with the segment field its writer chose. -/
lemma readUdpBody_readsAll :
    ReadsAll readUdpBody (fun run u => run.wireSegment = run.segment ∧ udpBytes run = some u) := by
  refine (Body.peer_reads.bindAll fun peer => Body.u16_reads.bindAll fun segment =>
    Body.reserved_reads.bindAll fun _ =>
      readsAll_remaining _ (fun bytes => isValidUdpRun bytes.length segment.toNat)
      (UdpRun.mk peer segment)).mono ?_
  intro run w
  constructor
  · rintro ⟨peer, _, _, hpeer, ⟨segment, _, _, rfl, ⟨_, _, u, rfl, ⟨rfl, hvalid⟩, rfl⟩, rfl⟩, rfl⟩
    have hsegment : UdpRun.wireSegment ⟨peer, segment, u⟩ = segment :=
      wireSegment_of_isValidUdpRun hvalid
    refine ⟨hsegment, ?_⟩
    simp only [udpBytes, hsegment, hvalid, hpeer, if_true, Option.map_some]
  · rintro ⟨hsegment, h⟩
    simp only [udpBytes, hsegment] at h
    split at h
    next hvalid =>
      obtain ⟨u, hpeer, rfl⟩ := Option.map_eq_some_iff.1 h
      exact ⟨_, _, _, hpeer, ⟨_, _, _, rfl, ⟨(), _, _, rfl, ⟨rfl, hvalid⟩, rfl⟩, rfl⟩, rfl⟩
    · cases h

/-! ## Canonical frames -/

/-- A segment that is not shorter than the run splits nothing, and is 0. -/
def UdpRun.canon (run : UdpRun) : UdpRun :=
  { run with segment := if run.segment.toNat ≥ run.bytes.length then 0 else run.segment }

def GuestFrame.canon : GuestFrame → GuestFrame
  | .tcpOpen peer options => .tcpOpen peer options
  | .udpSend run => .udpSend run.canon

def HostFrame.canon : HostFrame → HostFrame
  | .opened outcome => .opened outcome
  | .udpDatagram run => .udpDatagram run.canon
  | .udpError peer error => .udpError peer error

namespace UdpRun

lemma canon_segment (run : UdpRun) : run.canon.segment = run.wireSegment := by
  simp only [canon, wireSegment]
  by_cases h : run.bytes.length > run.segment.toNat
  · rw [if_neg (by omega), if_pos h]
  · rw [if_pos (by omega), if_neg h]

lemma wireSegment_canon (run : UdpRun) : run.canon.wireSegment = run.canon.segment := by
  rw [canon_segment]
  simp only [wireSegment, canon_segment]
  by_cases h : run.bytes.length > run.segment.toNat
  · have hwire : run.canon.bytes.length > run.segment.toNat := h
    simp [h, hwire]
  · simp [h]

lemma canon_eq_self_iff {run : UdpRun} : run.canon = run ↔ run.wireSegment = run.segment := by
  constructor
  · intro h
    rw [← canon_segment, h]
  · intro h
    obtain ⟨peer, segment, bytes⟩ := run
    exact congrArg (UdpRun.mk peer · bytes) ((canon_segment _).trans h)

lemma udpBytes_canon (run : UdpRun) : udpBytes run.canon = udpBytes run := by
  have h : run.canon.wireSegment = run.wireSegment := by
    rw [wireSegment_canon, canon_segment]
  simp only [udpBytes, h]
  rfl

lemma canon_canon (run : UdpRun) : run.canon.canon = run.canon :=
    canon_eq_self_iff.2 (wireSegment_canon run)

end UdpRun

/-! ## Payloads -/

lemma GuestFrame.decodePayload_readsAll (opcode : Opcode) :
    ReadsAll (GuestFrame.decodePayload opcode) (fun frame u =>
      frame.opcode = opcode ∧ frame.canon = frame ∧ frame.payload = some u) := by
  cases opcode with
  | tcpOpen =>
    refine (Body.tcpOpen_reads.map fun r => GuestFrame.tcpOpen r.1 r.2).toAll.mono ?_
    intro frame u
    constructor
    · rintro ⟨⟨peer, options⟩, h, rfl⟩
      exact ⟨rfl, rfl, h⟩
    · rintro ⟨hop, -, h⟩
      cases frame with
      | tcpOpen peer options => exact ⟨(peer, options), h, rfl⟩
      | udpSend run => cases hop
  | udpSend =>
    refine (readUdpBody_readsAll.map GuestFrame.udpSend).mono ?_
    intro frame u
    constructor
    · rintro ⟨run, ⟨hsegment, h⟩, rfl⟩
      exact ⟨rfl, congrArg GuestFrame.udpSend (UdpRun.canon_eq_self_iff.2 hsegment), h⟩
    · rintro ⟨hop, hcanon, h⟩
      cases frame with
      | tcpOpen peer options => cases hop
      | udpSend run =>
        exact ⟨run, ⟨UdpRun.canon_eq_self_iff.1 (GuestFrame.udpSend.inj hcanon), h⟩, rfl⟩
  | opened | udpDatagram | udpError =>
    exact ReadsAll.throw _ (by rintro (_ | _ | _) u ⟨h, -⟩ <;> cases h)

lemma HostFrame.decodePayload_readsAll (opcode : Opcode) :
    ReadsAll (HostFrame.decodePayload opcode) (fun frame u =>
      frame.opcode = opcode ∧ frame.canon = frame ∧ frame.payload = some u) := by
  cases opcode with
  | tcpOpen | udpSend => exact ReadsAll.throw _ (by rintro (_ | _ | _) u ⟨h, -⟩ <;> cases h)
  | opened =>
    refine (Body.status_reads.map fun e =>
      HostFrame.opened (e.elim (.ok ()) .error)).toAll.mono ?_
    intro frame u
    constructor
    · rintro ⟨error, rfl, rfl⟩
      cases error with
      | none | some error => exact ⟨rfl, rfl, rfl⟩
    · rintro ⟨hop, -, h⟩
      cases frame with
      | opened outcome =>
        cases outcome with
        | ok _ => exact ⟨none, (Option.some.inj h).symm, rfl⟩
        | error error => exact ⟨some error, (Option.some.inj h).symm, rfl⟩
      | udpDatagram run | udpError peer error => cases hop
  | udpDatagram =>
    refine (readUdpBody_readsAll.map HostFrame.udpDatagram).mono ?_
    intro frame u
    constructor
    · rintro ⟨run, ⟨hsegment, h⟩, rfl⟩
      exact ⟨rfl, congrArg HostFrame.udpDatagram (UdpRun.canon_eq_self_iff.2 hsegment), h⟩
    · rintro ⟨hop, hcanon, h⟩
      cases frame with
      | opened outcome | udpError peer error => cases hop
      | udpDatagram run =>
        exact ⟨run, ⟨UdpRun.canon_eq_self_iff.1 (HostFrame.udpDatagram.inj hcanon), h⟩, rfl⟩
  | udpError =>
    refine (Body.status_reads.bind fun status => (reads_okOr _ status).bind fun error =>
      Body.peer_reads.map fun peer => HostFrame.udpError peer error).toAll.mono ?_
    intro frame u
    constructor
    · rintro ⟨_, _, _, rfl, ⟨error, _, v, ⟨rfl, rfl⟩, ⟨peer, hpeer, rfl⟩, rfl⟩, rfl⟩
      refine ⟨rfl, rfl, ?_⟩
      simp [HostFrame.payload, hpeer]
    · rintro ⟨hop, -, h⟩
      cases frame with
      | opened outcome | udpDatagram run => cases hop
      | udpError peer error =>
        obtain ⟨v, hpeer, rfl⟩ := Option.map_eq_some_iff.1 h
        exact ⟨some error, _, v, rfl, ⟨error, [], v, ⟨rfl, rfl⟩, ⟨peer, hpeer, rfl⟩, rfl⟩, rfl⟩

/-! ## Whole frames -/

lemma Opcode.tryFrom_eq_some {value : UInt16} {opcode : Opcode} :
    Opcode.tryFrom value = some opcode ↔ value = opcode.code := by
  constructor
  · intro h
    apply UInt16.toNat.inj
    unfold Opcode.tryFrom at h
    split at h <;> simp_all [Opcode.code]
    all_goals
      subst h
      rfl
  · rintro rfl
    cases opcode <;> rfl

lemma readHeader_reads : Reads readHeader (fun r u =>
    headerBytes + r.2 ≤ maxFrameBytes ∧ u = frameHeader r.1 r.2) := by
  refine (Body.u16_reads.bind fun value => (reads_okOr _ (Opcode.tryFrom value)).bind fun opcode =>
    Body.reserved_reads.bind fun _ => Body.u32_reads.bind fun length =>
      Reads.check _ _ (Reads.pure (opcode, length.toNat))).mono ?_
  rintro ⟨opcode, length⟩ w
  constructor
  · rintro ⟨value, _, _, rfl, ⟨opcode', _, _, ⟨hop, rfl⟩, ⟨_, _, _, rfl, ⟨length', _, _, rfl,
      ⟨hle, hr, rfl⟩, rfl⟩, rfl⟩, rfl⟩, rfl⟩
    cases hr
    refine ⟨?_, ?_⟩
    · have := of_decide_eq_true hle
      simp only [maxFrameBytes, headerBytes] at this ⊢
      omega
    · rw [Opcode.tryFrom_eq_some.1 hop]
      simp [frameHeader]
  · rintro ⟨hle, rfl⟩
    simp only [maxFrameBytes, headerBytes] at hle
    have hlength : (UInt32.ofNat length).toNat = length := UInt32.toNat_ofNat_of_lt' (by
      change length < 4294967296
      omega)
    refine ⟨_, _, _, rfl, ⟨opcode, [], _, ⟨Opcode.tryFrom_eq_some.2 rfl, rfl⟩, ⟨(), _, _, rfl,
      ⟨UInt32.ofNat length, _, [], rfl, ⟨?_, ?_, rfl⟩, rfl⟩, rfl⟩, rfl⟩, ?_⟩
    · rw [hlength]
      apply decide_eq_true
      simp only [maxFrameBytes, headerBytes]
      omega
    · rw [hlength]
    · simp [frameHeader, hlength]

/-- A whole frame at the front of the input: the payload reader decides. -/
lemma decodeFrame_frame {F : Type} (decodePayload : Opcode → Body F) {opcode : Opcode}
    {u rest : List UInt8} (hfit : headerBytes + u.length ≤ maxFrameBytes) :
    decodeFrame decodePayload (frameHeader opcode u.length ++ (u ++ rest)) =
    match (decodePayload opcode).run u with
      | .error e => .error e
      | .ok (frame, left) =>
        if left = [] then .ok (some (frame, headerBytes + u.length)) else .error ⟨⟩ := by
  have htake : (frameHeader opcode u.length ++ (u ++ rest)).take headerBytes =
      frameHeader opcode u.length := List.take_left' (length_frameHeader _ _)
  have hdrop : (frameHeader opcode u.length ++ (u ++ rest)).drop headerBytes = u ++ rest :=
    List.drop_left' (length_frameHeader _ _)
  have hheader : readHeader.run (frameHeader opcode u.length) = .ok ((opcode, u.length), []) :=
    (readHeader_reads _ _ _).2 ⟨_, ⟨hfit, rfl⟩, (List.append_nil _).symm⟩
  have hlong : ¬ (u ++ rest).length < u.length := by
    rw [List.length_append]
    omega
  unfold decodeFrame
  rw [if_neg (by simp), htake, hdrop, hheader]
  cases hrun : (decodePayload opcode).run u with
  | error e => simp only [hlong, if_false, List.take_left, hrun]
  | ok result =>
    obtain ⟨frame, left⟩ := result
    simp only [hlong, if_false, List.take_left, hrun]

lemma decodeFrame_eq_some {F : Type} {decodePayload : Opcode → Body F} {b : List UInt8} {f : F}
    {n : Nat} (h : decodeFrame decodePayload b = .ok (some (f, n))) :
    ∃ opcode u rest, b = frameHeader opcode u.length ++ (u ++ rest) ∧
      headerBytes + u.length ≤ maxFrameBytes ∧ (decodePayload opcode).run u = .ok (f, []) ∧
        n = headerBytes + u.length := by
  unfold decodeFrame at h
  split at h
  · cases h
  next hlong =>
    simp only at h
    split at h
    · cases h
    next opcode length left hheader =>
      split at h
      · cases h
      next henough =>
        split at h
        · cases h
        next frame left' hpayload =>
          split at h
          next hleft =>
            subst hleft
            cases h
            obtain ⟨header, ⟨hfit, rfl⟩, hsplit⟩ := (readHeader_reads _ _ _).1 hheader
            have hlen : ((b.drop headerBytes).take length).length = length :=
              List.length_take_of_le (by omega)
            -- The header reader used up the eight bytes it was given.
            have hleft : left = [] := by
              have hsize := congrArg List.length hsplit
              simp only [List.length_append, length_frameHeader, List.length_take] at hsize
              exact List.length_eq_zero_iff.1 (by omega)
            refine ⟨opcode, (b.drop headerBytes).take length, (b.drop headerBytes).drop length, ?_,
              by rwa [hlen], hpayload, by rw [hlen]⟩
            rw [hlen, List.take_append_drop]
            rw [hleft, List.append_nil] at hsplit
            rw [← hsplit, List.take_append_drop]
          · cases h

/-! ## The codec -/

/-- An encoder and a decoder that determine each other. -/
structure CodecLaws {F : Type} (append : F → List UInt8 → Except FrameError Unit × List UInt8)
    (encode : F → Except FrameError (List UInt8))
    (decode : List UInt8 → Except FrameError (Option (F × Nat))) (canon : F → F) : Prop where
  /-- Appending adds the encoding, or fails and leaves the buffer as it was. -/
  append_encode : ∀ f out, (∃ w, encode f = .ok w ∧ append f out = (.ok (), out ++ w)) ∨
    (encode f = .error ⟨⟩ ∧ append f out = (.error ⟨⟩, out))
  /-- An encoding is decoded to the canonical frame, whatever follows it. -/
  decode_encode : ∀ f w, encode f = .ok w →
    ∀ rest, decode (w ++ rest) = .ok (some (canon f, w.length))
  /-- What is decoded is the encoding of the decoded frame. -/
  encode_decode : ∀ b f n, decode b = .ok (some (f, n)) →
    n ≤ b.length ∧ n ≤ maxFrameBytes ∧ encode f = .ok (b.take n)

section Codec

variable {F : Type} {opcode : F → Opcode} {writePayload : F → BodyWriter Unit}
  {payload : F → Option (List UInt8)} {canon : F → F} {decodePayload : Opcode → Body F}

def encodeWith (append : F → List UInt8 → Except FrameError Unit × List UInt8) (f : F) :
    Except FrameError (List UInt8) :=
  let (written, out) := append f []
  written.map fun _ => out

variable (hw : ∀ f, Writes (writePayload f) (payload f))

include hw

lemma encodeWith_eq (f : F) :
    encodeWith (fun f => appendFrame (opcode f) (writePayload f)) f =
      (frameBytes (opcode f) (payload f)).elim (.error ⟨⟩) .ok := by
  simp only [encodeWith, appendFrame_eq _ (hw f)]
  cases frameBytes (opcode f) (payload f) with
  | none | some u => rfl

lemma encodeWith_eq_ok {f : F} {w : List UInt8} :
    encodeWith (fun f => appendFrame (opcode f) (writePayload f)) f = .ok w ↔
      ∃ u, payload f = some u ∧ headerBytes + u.length ≤ maxFrameBytes ∧
        w = frameHeader (opcode f) u.length ++ u := by
  rw [encodeWith_eq hw, frameBytes]
  cases payload f with
  | none => simp
  | some u =>
    by_cases hfit : headerBytes + u.length ≤ maxFrameBytes
    · simp [hfit, eq_comm]
    · simp [hfit]

/-- A payload writer and a payload reader of the same layout make a codec. -/
lemma codecLaws (hr : ∀ op, ReadsAll (decodePayload op) fun f u => opcode f = op ∧ canon f = f ∧
      payload f = some u)
    (hcanon : ∀ f, opcode (canon f) = opcode f ∧ payload (canon f) = payload f ∧
      canon (canon f) = canon f) :
    CodecLaws (fun f => appendFrame (opcode f) (writePayload f))
      (encodeWith fun f => appendFrame (opcode f) (writePayload f))
      (decodeFrame decodePayload) canon where
  append_encode := by
    intro f out
    rw [encodeWith_eq hw, appendFrame_eq _ (hw f)]
    cases frameBytes (opcode f) (payload f) with
    | none => exact Or.inr ⟨rfl, rfl⟩
    | some w => exact Or.inl ⟨w, rfl, rfl⟩
  decode_encode := by
    intro f w h rest
    obtain ⟨u, hu, hfit, rfl⟩ := (encodeWith_eq_ok hw).1 h
    obtain ⟨hopcode, hpayload, hidem⟩ := hcanon f
    have hrun : (decodePayload (opcode f)).run u = .ok (canon f, []) :=
      (hr (opcode f) u (canon f)).2 ⟨hopcode, hidem, hpayload.trans hu⟩
    rw [List.append_assoc, decodeFrame_frame decodePayload hfit, hrun]
    simp
  encode_decode := by
    intro b f n h
    obtain ⟨op, u, rest, rfl, hfit, hrun, rfl⟩ := decodeFrame_eq_some h
    obtain ⟨rfl, -, hu⟩ := (hr op u f).1 hrun
    refine ⟨by simp, hfit, (encodeWith_eq_ok hw).2 ⟨u, hu, hfit, ?_⟩⟩
    rw [← List.append_assoc]
    exact List.take_left' (by simp)

/-- The frames of one direction are refused by the decoder of the other. -/
lemma decodeFrame_wrong_direction {G : Type} {decodePayload : Opcode → Body G}
    (hwrong : ∀ f, decodePayload (opcode f) = throw ⟨⟩) {f : F} {w : List UInt8}
    (h : encodeWith (fun f => appendFrame (opcode f) (writePayload f)) f = .ok w)
    (rest : List UInt8) : decodeFrame decodePayload (w ++ rest) = .error ⟨⟩ := by
  obtain ⟨u, -, hfit, rfl⟩ := (encodeWith_eq_ok hw).1 h
  rw [List.append_assoc, decodeFrame_frame decodePayload hfit, hwrong f]
  rfl

end Codec

lemma GuestFrame.canon_laws (f : GuestFrame) : f.canon.opcode = f.opcode ∧
    f.canon.payload = f.payload ∧ f.canon.canon = f.canon := by
  cases f with
  | tcpOpen peer options => exact ⟨rfl, rfl, rfl⟩
  | udpSend run => exact ⟨rfl, run.udpBytes_canon, congrArg GuestFrame.udpSend run.canon_canon⟩

lemma HostFrame.canon_laws (f : HostFrame) : f.canon.opcode = f.opcode ∧
    f.canon.payload = f.payload ∧ f.canon.canon = f.canon := by
  cases f with
  | opened outcome | udpError peer error => exact ⟨rfl, rfl, rfl⟩
  | udpDatagram run =>
    exact ⟨rfl, run.udpBytes_canon, congrArg HostFrame.udpDatagram run.canon_canon⟩

/-- Both directions are codecs, and neither decodes the other's frames. -/
theorem frame_codec :
    CodecLaws GuestFrame.append GuestFrame.encode GuestFrame.decode GuestFrame.canon ∧
      CodecLaws HostFrame.append HostFrame.encode HostFrame.decode HostFrame.canon ∧
        (∀ (f : GuestFrame) w rest, f.encode = .ok w → HostFrame.decode (w ++ rest) = .error ⟨⟩) ∧
          ∀ (f : HostFrame) w rest, f.encode = .ok w →
            GuestFrame.decode (w ++ rest) = .error ⟨⟩ := by
  refine ⟨?_, ?_, ?_, ?_⟩
  · exact codecLaws GuestFrame.writePayload_writes GuestFrame.decodePayload_readsAll
      GuestFrame.canon_laws
  · exact codecLaws HostFrame.writePayload_writes HostFrame.decodePayload_readsAll
      HostFrame.canon_laws
  · intro f w rest h
    exact decodeFrame_wrong_direction GuestFrame.writePayload_writes
      (by intro f; cases f <;> rfl) h rest
  · intro f w rest h
    exact decodeFrame_wrong_direction HostFrame.writePayload_writes
      (by intro f; cases f <;> rfl) h rest

def pingFrame : GuestFrame :=
  .udpSend ⟨.v4 ⟨10, 0, 0, 1⟩ 53, 9, [1, 2]⟩

theorem frame_codec_ping :
    ∃ w, pingFrame.encode = .ok w ∧ GuestFrame.decode (w ++ [7]) =
      .ok (some (.udpSend ⟨.v4 ⟨10, 0, 0, 1⟩ 53, 0, [1, 2]⟩, 34)) := by
  have hencode : pingFrame.encode = .ok ([3, 0, 0, 0, 26, 0, 0, 0] ++ [4, 0, 53, 0, 10, 0, 0, 1] ++
      List.replicate 12 0 ++ [0, 0, 0, 0, 1, 2]) := by
    decide
  exact ⟨_, hencode, frame_codec.1.decode_encode _ _ hencode [7]⟩

end Protocol
end Terrarium
