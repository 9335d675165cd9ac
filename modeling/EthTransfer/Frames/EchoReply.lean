import EthTransfer.Frames.WellFormed

/-!
# The answer to an echo request

Request and reply as bytes on the wire.  The request has an IP header of any length, so
its ping message lies somewhere behind it; the message of the reply lies at 34.

* `EchoRequest` and `EchoAnswer`: the two frames.
* `EchoRequest.handled`: the request reaches `handle_ping_packet` as it is on the wire,
  through the conversions in place.
* `echo_answered`: every request is answered, with one frame.
-/

namespace EthTransfer

/-- An echo request with an IP header of `ihl` words and a payload of `n` bytes, in a frame
that `get_packet` can deliver. -/
structure EchoRequest (packet : EthPacket) (ihl n : ℕ) : Prop where
  etherType : be16 packet.buffer 12 = 0x0800
  ihl_eq : (packet.buffer 14 &&& 0x0F).toNat = ihl
  ihl_bounds : 5 ≤ ihl ∧ ihl ≤ 15
  totalLength : (be16 packet.buffer 16).toNat = 4 * ihl + 8 + n
  protocol : packet.buffer 23 = 1
  type : packet.buffer (14 + 4 * ihl) = 8
  code : packet.buffer (14 + 4 * ihl + 1) = 0
  long : 14 + (be16 packet.buffer 16).toNat ≤ packet.length
  delivered : packet.length ≤ PACKET_MAX_SIZE - 4

/-- The answer: to the hardware and IP address of the request, an echo reply in a datagram
without IP options, with the identifier, the sequence number and the payload of the
request. -/
structure EchoAnswer (s : Stack) (request : EthPacket) (ihl n : ℕ) (reply : List UInt8) : Prop where
  destMac : reply.take 6 = takeBytes (fun i => request.buffer (6 + i)) 6
  sourceMac : (reply.drop 6).take 6 = macBytes s.localMac
  etherType : (reply.drop 12).take 2 = [0x08, 0x00]
  versionIhl : (reply.drop 14).take 1 = [0x45]
  totalLength : (reply.drop 16).take 2 = bytes16 (UInt16.ofNat (28 + n))
  protocol : (reply.drop 23).take 1 = [1]
  sourceIp : (reply.drop 26).take 4 = bytes32 s.ipAddr
  destIp : (reply.drop 30).take 4 = takeBytes (fun i => request.buffer (26 + i)) 4
  type_code : (reply.drop 34).take 2 = [0, 0]
  identifier_sequence :
    (reply.drop 38).take 4 = takeBytes (fun i => request.buffer (14 + 4 * ihl + 4 + i)) 4
  payload : reply.drop 42 = takeBytes (fun i => request.buffer (14 + 4 * ihl + 8 + i)) n

/-! ## Fields and bytes -/

theorem bytes16_be16 (b : Bytes) (i : ℕ) : bytes16 (be16 b i) = [b i, b (i + 1)] := by
  have hhigh := (b i).toNat_lt
  have hlow := (b (i + 1)).toNat_lt
  have hvalue := toNat_be16 b i
  rw [bytes16, List.cons.injEq, List.cons.injEq, ← UInt8.toNat_inj, ← UInt8.toNat_inj,
    UInt16.toNat_toUInt8, UInt16.toNat_toUInt8, UInt16.toNat_shiftRight, hvalue]
  simp only [UInt16.reduceToNat, Nat.reduceMod, Nat.reducePow, Nat.shiftRight_eq_div_pow, and_true]
  omega

theorem bytes32_be32 (b : Bytes) (i : ℕ) :
    bytes32 (be32 b i) = [b i, b (i + 1), b (i + 2), b (i + 3)] := by
  have h0 := (b i).toNat_lt
  have h1 := (b (i + 1)).toNat_lt
  have h2 := (b (i + 2)).toNat_lt
  have h3 := (b (i + 3)).toNat_lt
  have hvalue := toNat_be32 b i
  rw [bytes32, List.cons.injEq, List.cons.injEq, List.cons.injEq, List.cons.injEq,
    ← UInt8.toNat_inj, ← UInt8.toNat_inj, ← UInt8.toNat_inj, ← UInt8.toNat_inj]
  simp only [UInt32.toNat_toUInt8, UInt32.toNat_shiftRight, hvalue, UInt32.reduceToNat,
    Nat.reduceMod, Nat.reducePow, Nat.shiftRight_eq_div_pow, and_true]
  omega

theorem macBytes_readMac (b : Bytes) (i : ℕ) :
    macBytes (readMac b i) = takeBytes (fun j => b (i + j)) 6 := rfl

/-- The two fields of a ping header that a reply copies. -/
theorem le16_ntohPing (b : Bytes) (i : ℕ) :
    le16 (ntohPing b i) (i + 4) = be16 b (i + 4) ∧
      le16 (ntohPing b i) (i + 6) = be16 b (i + 6) := by
  constructor
  · have hlast (j : ℕ) (hj : j < i + 6) : ntohPing b i j = swap16 (swap16 b (i + 2)) (i + 4) j :=
      swap16_of_lt _ hj
    have hswap := le16_swap16 (swap16 b (i + 2)) (i + 4)
    rw [le16] at hswap
    rw [le16, hlast _ (by omega), hlast _ (by omega), hswap, be16, swap16_of_gt _ (by omega),
      swap16_of_gt _ (by omega), be16]
  · rw [ntohPing, le16_swap16, be16, swap16_of_gt _ (by omega), swap16_of_gt _ (by omega),
      swap16_of_gt _ (by omega), swap16_of_gt _ (by omega), be16]

/-! ## The request -/

section Request

variable {packet : EthPacket} {ihl n : ℕ}

/-- Behind the fields of the IP header, the conversions leave what is on the wire. -/
theorem newIpPacket_header_of_le (packet : EthPacket) {i : ℕ} (hi : 20 ≤ i) :
    (newIpPacket packet).header i = packet.buffer (14 + i) :=
  ntohIp_of_le packet.data hi

theorem ipHeader_newIpPacket (packet : EthPacket) :
    ipHeader (newIpPacket packet).header =
      { versionIhl := packet.buffer 14
        totalLength := be16 packet.buffer 16
        protocol := packet.buffer 23
        sourceIp := be32 packet.buffer 26
        destIp := be32 packet.buffer 30 } :=
  ipHeader_ntohIp packet.data

/-- What `new_ip_packet` makes of the request. -/
structure EchoParsed (packet : EthPacket) (ihl n : ℕ) : Prop where
  type : packet.type = .ip
  accepted : ¬ (newIpPacket packet).length < 0
  protocol : (newIpPacket packet).header 9 = 1
  transport : (newIpPacket packet).transport = 4 * ihl

theorem EchoRequest.parsed (h : EchoRequest packet ihl n) : EchoParsed packet ihl n := by
  have hihl : (ipHeader (newIpPacket packet).header).ihl = ihl := by
    rw [ipHeader_newIpPacket, IpHeader.ihl, h.ihl_eq]
  have htotal : (ipHeader (newIpPacket packet).header).totalLength = be16 packet.buffer 16 := by
    rw [ipHeader_newIpPacket]
  have hprotocol : (newIpPacket packet).header 9 = 1 := h.protocol
  have hbounds := h.ihl_bounds
  have hlength := h.totalLength
  have hlong := h.long
  refine ⟨?_, ?_, hprotocol, ?_⟩
  · unfold EthPacket.type
    rw [if_neg (by omega), le16_swap16, h.etherType]
    rfl
  · have hvalid : (newIpPacket packet).length = (be16 packet.buffer 16).toNat := by
      have hunfold : (newIpPacket packet).length =
          if decide ((ipHeader (newIpPacket packet).header).totalLength.toNat ≥ 20) &&
            decide (packet.length ≥
              14 + (ipHeader (newIpPacket packet).header).totalLength.toNat) &&
            decide (packet.length ≥ 14 + (ipHeader (newIpPacket packet).header).ihl * 4) &&
            ((newIpPacket packet).header 9 == 6 || (newIpPacket packet).header 9 == 1)
          then ((ipHeader (newIpPacket packet).header).totalLength.toNat : Int) else -1 := rfl
      rw [hunfold, hprotocol, hihl, htotal, if_pos]
      simp only [Bool.and_eq_true, decide_eq_true_eq]
      refine ⟨⟨⟨?_, ?_⟩, ?_⟩, by decide⟩
      · omega
      · omega
      · omega
    omega
  · have htransport := newIpPacket_transport packet
    omega

/-- The ping header lies behind the IP header, so its conversion leaves that one. -/
theorem ipHeader_ntohPing (b : Bytes) {i : ℕ} (hi : 20 ≤ i) :
    ipHeader (ntohPing b i) = ipHeader b := by
  have hsame : SameUpTo 20 (ntohPing b i) b := fun j hj => ntohPing_of_lt b (by omega)
  exact hsame.ipHeader le_rfl

/-- The reply to the request, in terms of the bytes of the request. -/
structure EchoCopies (s : Stack) (packet : EthPacket) (ihl n : ℕ) (reply : EchoReply) :
    Prop where
  dest : reply.dest = packet.source
  totalLength : reply.totalLength = UInt16.ofNat (28 + n)
  sourceIp : reply.sourceIp = s.ipAddr
  destIp : reply.destIp = be32 packet.buffer 26
  identifier : reply.identifier = be16 packet.buffer (14 + 4 * ihl + 4)
  sequenceNumber : reply.sequenceNumber = be16 packet.buffer (14 + 4 * ihl + 6)
  payload : reply.payload = takeBytes (fun i => packet.buffer (14 + 4 * ihl + 8 + i)) n

/-- A word of the ping header on the wire. -/
theorem be16_newIpPacket (packet : EthPacket) {i : ℕ} (hi : 20 ≤ i) :
    be16 (newIpPacket packet).header i = be16 packet.buffer (14 + i) := by
  rw [be16, be16, newIpPacket_header_of_le packet hi, newIpPacket_header_of_le packet (by omega),
    Nat.add_assoc]

/-- `handle_ping_packet` on the request. -/
theorem EchoRequest.handled (h : EchoRequest packet ihl n) (s : Stack) :
    ∃ s' reply, handlePingPacket s (newIpPacket packet) = some (s', [.echo reply]) ∧
      EchoCopies s packet ihl n reply := by
  have htransport := h.parsed.transport
  have hbounds := h.ihl_bounds
  have hlength := h.totalLength
  have hlong := h.long
  have hdelivered := h.delivered
  have hip : ipHeader (ntohPing (newIpPacket packet).header (newIpPacket packet).transport) =
      ipHeader (newIpPacket packet).header := ipHeader_ntohPing _ (by omega)
  have hpayload : pingPayloadLength (ipHeader (newIpPacket packet).header) = n := by
    rw [pingPayloadLength, ipHeader_newIpPacket, IpHeader.ihl, h.ihl_eq, hlength]
    omega
  have htype : ntohPing (newIpPacket packet).header (newIpPacket packet).transport
      (newIpPacket packet).transport = 8 := by
    rw [ntohPing_of_lt _ (by omega), newIpPacket_header_of_le packet (by omega), htransport, h.type]
  have hcode : ntohPing (newIpPacket packet).header (newIpPacket packet).transport
      ((newIpPacket packet).transport + 1) = 0 := by
    rw [ntohPing_of_lt _ (by omega), newIpPacket_header_of_le packet (by omega), htransport,
      ← Nat.add_assoc, h.code]
  have htotal : UInt16.ofInt (n + 20 + 8) = UInt16.ofNat (28 + n) := by
    rw [← UInt16.toNat_inj, UInt16.ofInt, UInt16.toNat_ofNat', UInt16.toNat_ofNat']
    omega
  have hfits : (14 : Int) + (UInt16.ofNat (28 + n)).toNat ≤ PACKET_MAX_SIZE := by
    rw [UInt16.toNat_ofNat']
    unfold PACKET_MAX_SIZE at hdelivered ⊢
    omega
  unfold handlePingPacket
  dsimp only
  rw [if_neg (by simp [htype, hcode]), hip, hpayload, if_neg (by omega), htotal, if_pos hfits]
  have hfields := le16_ntohPing (newIpPacket packet).header (newIpPacket packet).transport
  refine ⟨_, _, rfl, rfl, rfl, rfl, ?_, ?_, ?_, ?_⟩
  · rw [ipHeader_newIpPacket]
  · rw [hfields.1, be16_newIpPacket packet (by omega), htransport, ← Nat.add_assoc]
  · rw [hfields.2, be16_newIpPacket packet (by omega), htransport, ← Nat.add_assoc]
  · refine takeBytes_congr fun i _ => ?_
    rw [ntohPing_of_le _ (by omega), newIpPacket_header_of_le packet (by omega), htransport]
    congr 1
    omega

end Request

/-! ## The answer -/

/-- The reply on the wire. -/
theorem EchoCopies.answer {s : Stack} {packet : EthPacket} {ihl n : ℕ} {reply : EchoReply}
    (h : EchoCopies s packet ihl n reply) :
    EchoAnswer s packet ihl n (TxFrame.bytes s (.echo reply)) where
  destMac := by
    have hbytes : (TxFrame.bytes s (.echo reply)).take 6 = macBytes reply.dest := rfl
    rw [hbytes, h.dest]
    exact macBytes_readMac packet.buffer 6
  sourceMac := rfl
  etherType := rfl
  versionIhl := rfl
  totalLength := by
    have hbytes : ((TxFrame.bytes s (.echo reply)).drop 16).take 2 =
        bytes16 reply.totalLength := rfl
    rw [hbytes, h.totalLength]
  protocol := rfl
  sourceIp := by
    have hbytes : ((TxFrame.bytes s (.echo reply)).drop 26).take 4 =
        bytes32 reply.sourceIp := rfl
    rw [hbytes, h.sourceIp]
  destIp := by
    have hbytes : ((TxFrame.bytes s (.echo reply)).drop 30).take 4 = bytes32 reply.destIp := rfl
    rw [hbytes, h.destIp, bytes32_be32]
    rfl
  type_code := rfl
  identifier_sequence := by
    have hbytes : ((TxFrame.bytes s (.echo reply)).drop 38).take 4 =
        bytes16 reply.identifier ++ bytes16 reply.sequenceNumber := rfl
    rw [hbytes, h.identifier, h.sequenceNumber, bytes16_be16, bytes16_be16]
    rfl
  payload := by
    have hbytes : (TxFrame.bytes s (.echo reply)).drop 42 = reply.payload := rfl
    rw [hbytes, h.payload]

/-- Every echo request is answered with one frame, whatever the packet that is filled in and
the memory in front of it hold. -/
theorem echo_answered (s : Stack) {frame : RxFrame} {ihl n : ℕ}
    (h : EchoRequest frame.packet ihl n) (scratch below : Bytes) :
    ∃ reply, rxBytes s frame scratch below = some [reply] ∧
      EchoAnswer s frame.packet ihl n reply := by
  obtain ⟨s', reply, hstep, hcopies⟩ := h.handled s
  refine ⟨TxFrame.bytes s (.echo reply), ?_, hcopies.answer⟩
  have hparsed := h.parsed
  have hreceived : handleRxPacket s frame = some (s', [.echo reply]) := by
    unfold handleRxPacket handleIpPacket
    rw [hparsed.type]
    dsimp only
    rw [if_neg hparsed.accepted, if_pos hparsed.protocol, hstep]
  rw [rxBytes_eq s h.delivered, hreceived]
  rfl

/-- A request with one word of IP options and a payload of three bytes. -/
def optionsEcho : RxFrame where
  packet :=
    { buffer := fun i => List.getD
        [2, 0, 0, 0, 0, 1, 2, 0, 0, 0, 0, 2, 0x08, 0x00,
          0x46, 0, 0, 35, 0, 0, 0x40, 0, 64, 1, 0, 0, 10, 0, 0, 2, 10, 0, 0, 1, 1, 1, 1, 0,
          8, 0, 0, 0, 0, 7, 0, 9, 97, 98, 99] i 0
      length := 60 }
  rand := ⟨0, 100⟩

theorem echo_answered_options :
    ∃ reply, rxBytes listeningStack optionsEcho (fun _ => 7) (fun _ => 7) = some [reply] ∧
      EchoAnswer listeningStack optionsEcho.packet 6 3 reply := by
  refine echo_answered listeningStack ⟨?_, ?_, ?_, ?_, ?_, ?_, ?_, ?_, ?_⟩ _ _ <;> decide

end EthTransfer
