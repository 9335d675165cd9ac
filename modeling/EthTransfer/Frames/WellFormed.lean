import EthTransfer.Frames.Scratch
import Mathlib.Tactic.IntervalCases

/-!
# Well-formed frames

What a receiver makes of a transmitted IP frame.  `new_ip_packet` of this program is the
receiver: `Datagram` says that it accepts the frame, with the fields that were put in, and
that the checksum of the IP header is right.  `SegmentWellFormed` and `EchoWellFormed` add
the message, with its own checksum.

* `datagram_bytes`, `segment_wellFormed` and `echo_wellFormed`: the bytes of a frame are
  well formed.
* `transmitted_wellFormed_iff`: so is what is transmitted, except for segments with a
  negative `data_length`.
-/

namespace EthTransfer

open InternetChecksum RingBuffer

/-! ## Receiving -/

/-- The packet holds the bytes of the frame, and anything behind them. -/
structure EthPacket.Carries (packet : EthPacket) (frame : List UInt8) : Prop where
  length : packet.length = frame.length
  bytes : takeBytes packet.buffer packet.length = frame

/-- A byte of the buffer. -/
theorem EthPacket.Carries.byte {packet : EthPacket} {frame : List UInt8}
    (h : packet.Carries frame) {i : ℕ} {v : UInt8} (hv : frame[i]? = some v) :
    packet.buffer i = v := by
  have hlength := h.length
  have hi : i < frame.length := (List.getElem?_eq_some_iff.mp hv).1
  rw [← h.bytes, takeBytes, List.getElem?_map, List.getElem?_range (by omega)] at hv
  exact Option.some.inj hv

/-- A byte behind the first `n` bytes of the frame. -/
theorem EthPacket.Carries.byte_append {packet : EthPacket} {front tail : List UInt8}
    (h : packet.Carries (front ++ tail)) {n k : ℕ} (hfront : front.length = n) {v : UInt8}
    (hv : tail[k]? = some v) : packet.buffer (n + k) = v := by
  apply h.byte
  rw [List.getElem?_append_right (by omega), hfront, Nat.add_sub_cancel_left, hv]

/-- A field of two bytes. -/
theorem EthPacket.Carries.be16_append {packet : EthPacket} {front tail : List UInt8}
    (h : packet.Carries (front ++ tail)) {n k : ℕ} (hfront : front.length = n) {v : UInt16}
    (hhigh : tail[k]? = some (v >>> 8).toUInt8) (hlow : tail[k + 1]? = some v.toUInt8) :
    be16 packet.buffer (n + k) = v :=
  be16_of_bytes (h.byte_append hfront hhigh) (h.byte_append hfront hlow)

/-- A field of four bytes. -/
theorem EthPacket.Carries.be32_append {packet : EthPacket} {front tail : List UInt8}
    (h : packet.Carries (front ++ tail)) {n k : ℕ} (hfront : front.length = n) {v : UInt32}
    (h0 : tail[k]? = some (v >>> 24).toUInt8) (h1 : tail[k + 1]? = some (v >>> 16).toUInt8)
    (h2 : tail[k + 2]? = some (v >>> 8).toUInt8) (h3 : tail[k + 3]? = some v.toUInt8) :
    be32 packet.buffer (n + k) = v :=
  be32_of_bytes (h.byte_append hfront h0) (h.byte_append hfront h1) (h.byte_append hfront h2)
    (h.byte_append hfront h3)

/-- The bytes at the end of the frame. -/
theorem EthPacket.Carries.tail {packet : EthPacket} {front tail : List UInt8}
    (h : packet.Carries (front ++ tail)) {b : Bytes}
    (hb : ∀ i < tail.length, b i = packet.buffer (front.length + i)) :
    takeBytes b tail.length = tail := by
  refine List.ext_getElem? fun i => ?_
  by_cases hi : i < tail.length
  · have hbyte : packet.buffer (front.length + i) = tail[i] := h.byte (by
      rw [List.getElem?_append_right (by omega), Nat.add_sub_cancel_left,
        List.getElem?_eq_getElem hi])
    rw [takeBytes, List.getElem?_map, List.getElem?_range (by omega), Option.map_some, hb i hi,
      hbyte, List.getElem?_eq_getElem hi]
  · rw [List.getElem?_eq_none (by simp; omega), List.getElem?_eq_none (by omega)]

/-- A frame that is taken as a datagram with these fields. -/
structure Datagram (frame : List UInt8) (protocol : UInt8) (totalLength : UInt16)
    (source dest : UInt32) (messageLength : ℕ) : Prop where
  frame_length : frame.length = 14 + totalLength.toNat
  total_length : totalLength.toNat = 20 + messageLength
  accepted : ∀ packet : EthPacket, packet.Carries frame →
    packet.type = .ip ∧ (newIpPacket packet).length = totalLength.toNat ∧
      (newIpPacket packet).transport = 20 ∧
      ipHeader (newIpPacket packet).header =
        { versionIhl := 0x45
          totalLength := totalLength
          protocol := protocol
          sourceIp := source
          destIp := dest }
  header_sum : onesSum ((frame.drop 14).take 20) = 0xFFFF

/-- The segment that is read is the one that was put in. -/
structure SameSegment (packet : TcpPacket) (segment : TxSegment) : Prop where
  sourcePort : packet.tcp.sourcePort = segment.sourcePort
  destPort : packet.tcp.destPort = segment.destPort
  sequence : packet.tcp.sequence = segment.sequence
  ack : packet.tcp.ack = segment.ack
  offsetFlags : packet.tcp.offsetFlags = segment.offsetFlags
  windowSize : packet.tcp.windowSize = segment.windowSize
  dataOffset : packet.tcp.dataOffset = 20 + 4 * segment.options.length
  payload : takeBytes packet.payload packet.dataLength = segment.payload

/-- A frame with a TCP segment.  The receiver sums its own pseudo header. -/
structure SegmentWellFormed (s : Stack) (frame : List UInt8) (segment : TxSegment) : Prop where
  datagram : Datagram frame 6 segment.totalLength s.ipAddr segment.destIp
    (20 + 4 * segment.options.length + segment.payload.length)
  same : ∀ packet : EthPacket, packet.Carries frame →
    SameSegment (newIpPacket packet).tcpPacket segment
  segment_sum : onesSum ((frame.drop 26).take 8 ++ [0, 6] ++
    bytes16 (UInt16.ofNat (frame.drop 34).length) ++ frame.drop 34) = 0xFFFF

/-- The message that is read is the reply that was put in. -/
structure SameReply (packet : IpPacket) (reply : EchoReply) : Prop where
  type : ntohPing packet.header 20 20 = 0
  code : ntohPing packet.header 20 21 = 0
  identifier : le16 (ntohPing packet.header 20) 24 = reply.identifier
  sequenceNumber : le16 (ntohPing packet.header 20) 26 = reply.sequenceNumber
  payload : takeBytes (fun i => ntohPing packet.header 20 (28 + i))
    (pingPayloadLength (ipHeader packet.header)) = reply.payload

/-- A frame with the reply to an echo request. -/
structure EchoWellFormed (frame : List UInt8) (reply : EchoReply) : Prop where
  datagram : Datagram frame 1 reply.totalLength reply.sourceIp reply.destIp
    (8 + reply.payload.length)
  same : ∀ packet : EthPacket, packet.Carries frame → SameReply (newIpPacket packet) reply
  message_sum : onesSum (frame.drop 34) = 0xFFFF

/-! ## Reading fields -/

/-- What `new_ip_packet` reads, in terms of the bytes on the wire. -/
theorem ipHeader_ntohIp (b : Bytes) :
    ipHeader (ntohIp b) =
      { versionIhl := b 0
        totalLength := be16 b 2
        protocol := b 9
        sourceIp := be32 b 12
        destIp := be32 b 16 } := by
  rw [← le16_swap16, ← le32_swap32, ← le32_swap32]
  rfl

/-- Every header that is sent has five words. -/
theorem IpHeader.ihl_eq {header : IpHeader} (hversion : header.versionIhl = 0x45) :
    header.ihl = 5 := by
  rw [IpHeader.ihl, hversion]
  decide

/-! ## Bytes that are well formed -/

section Datagram

variable {destMac sourceMac : EthMac} {totalLength identification : UInt16} {protocol : UInt8}
  {source dest : UInt32} {message : List UInt8}

/-- The bytes of a frame with this IP header. -/
def frameBytes (destMac sourceMac : EthMac) (totalLength identification : UInt16)
    (protocol : UInt8) (source dest : UInt32) (message : List UInt8) : List UInt8 :=
  ethBytes destMac sourceMac 0x0800 ++
    ipBytes totalLength identification protocol source dest
      (checksum (ipBytes totalLength identification protocol source dest 0)) ++ message

theorem length_frameBytes :
    (frameBytes destMac sourceMac totalLength identification protocol source dest
      message).length = 34 + message.length := by
  rw [frameBytes, List.length_append]
  rfl

/-- The sum of an IP header. -/
theorem onesSum_ipBytes :
    onesSum (ipBytes totalLength identification protocol source dest
      (checksum (ipBytes totalLength identification protocol source dest 0))) = 0xFFFF :=
  onesSum_of_checksum (l := [0x45, 0] ++ bytes16 totalLength ++ bytes16 identification ++
    [0x40, 0, 128, protocol]) (by simp) rfl

theorem datagram_bytes (hlength : totalLength.toNat = 20 + message.length)
    (hprotocol : protocol = 6 ∨ protocol = 1) :
    Datagram (frameBytes destMac sourceMac totalLength identification protocol source dest
      message) protocol totalLength source dest message.length where
  frame_length := by
    rw [length_frameBytes, hlength]
    omega
  total_length := hlength
  accepted := by
    intro packet hcarries
    have hframe := hcarries.length
    rw [length_frameBytes] at hframe
    have hheader : ipHeader (newIpPacket packet).header =
        { versionIhl := 0x45
          totalLength := totalLength
          protocol := protocol
          sourceIp := source
          destIp := dest } := by
      have hversion : packet.data 0 = 0x45 := hcarries.byte (i := 14) rfl
      have htotal : be16 packet.data 2 = totalLength :=
        be16_of_bytes (hcarries.byte (i := 16) rfl) (hcarries.byte (i := 17) rfl)
      have hproto : packet.data 9 = protocol := hcarries.byte (i := 23) rfl
      have hsource : be32 packet.data 12 = source :=
        be32_of_bytes (hcarries.byte (i := 26) rfl) (hcarries.byte (i := 27) rfl)
          (hcarries.byte (i := 28) rfl) (hcarries.byte (i := 29) rfl)
      have hdest : be32 packet.data 16 = dest :=
        be32_of_bytes (hcarries.byte (i := 30) rfl) (hcarries.byte (i := 31) rfl)
          (hcarries.byte (i := 32) rfl) (hcarries.byte (i := 33) rfl)
      refine (ipHeader_ntohIp packet.data).trans ?_
      rw [hversion, htotal, hproto, hsource, hdest]
    have htype : packet.type = .ip := by
      have hetherType : be16 packet.buffer 12 = 0x0800 :=
        be16_of_bytes (hcarries.byte (i := 12) rfl) (hcarries.byte (i := 13) rfl)
      unfold EthPacket.type
      dsimp only
      rw [if_neg (by omega), le16_swap16, hetherType, if_pos rfl]
    have hheader' : ipHeader (ntohIp packet.data) = _ := hheader
    have hihl : (ipHeader (ntohIp packet.data)).ihl = 5 :=
      IpHeader.ihl_eq (congrArg IpHeader.versionIhl hheader')
    refine ⟨htype, ?_, ?_, hheader⟩
    · unfold newIpPacket
      dsimp only
      rw [hihl, hheader']
      dsimp only
      rw [if_pos]
      simp only [Bool.and_eq_true, Bool.or_eq_true, decide_eq_true_eq, beq_iff_eq]
      exact ⟨⟨⟨by omega, by omega⟩, by omega⟩, hprotocol⟩
    · unfold newIpPacket
      dsimp only
      rw [hihl]
      rfl
  header_sum := onesSum_ipBytes

end Datagram

/-! ## Segments -/

section Segment

variable {s : Stack} {identification : UInt16} {segment : TxSegment}

/-- The length of a TCP header with its options. -/
theorem length_tcpHeaderBytes (checksum : UInt16) :
    (segment.headerBytes checksum ++ segment.options.flatMap bytes32).length =
      20 + 4 * segment.options.length := by
  have hoptions : (segment.options.flatMap bytes32).length = 4 * segment.options.length := by
    induction segment.options with
    | nil => rfl
    | cons v options ih =>
      rw [List.flatMap_cons, List.length_append, ih, length_bytes32, List.length_cons]
      omega
  rw [List.length_append, hoptions]
  rfl

theorem length_segmentBytes (checksum : UInt16) :
    (segment.segmentBytes checksum).length =
      20 + 4 * segment.options.length + segment.payload.length := by
  rw [TxSegment.segmentBytes, List.length_append, length_tcpHeaderBytes]

/-- The checksum field inside a TCP header. -/
theorem headerBytes_split (checksum : UInt16) :
    segment.headerBytes checksum =
      (bytes16 segment.sourcePort ++ bytes16 segment.destPort ++ bytes32 segment.sequence ++
        bytes32 segment.ack ++ bytes16 segment.offsetFlags ++ bytes16 segment.windowSize) ++
      (checksum >>> 8).toUInt8 :: checksum.toUInt8 :: [0, 0] := rfl

/-- The checksum field inside a segment. -/
theorem segmentBytes_split (checksum : UInt16) :
    segment.segmentBytes checksum =
      (bytes16 segment.sourcePort ++ bytes16 segment.destPort ++ bytes32 segment.sequence ++
        bytes32 segment.ack ++ bytes16 segment.offsetFlags ++ bytes16 segment.windowSize) ++
      (checksum >>> 8).toUInt8 :: checksum.toUInt8 ::
        (0 :: 0 :: segment.options.flatMap bytes32 ++ segment.payload) := rfl

/-- What `handle_tcp_packet` reads behind an IP header of 20 bytes, in terms of the bytes on
the wire. -/
theorem tcpHeader_wire {packet : IpPacket} (htransport : packet.transport = 20) :
    packet.tcpPacket.tcp.sourcePort = be16 packet.header 20 ∧
      packet.tcpPacket.tcp.destPort = be16 packet.header 22 ∧
      packet.tcpPacket.tcp.sequence = be32 packet.header 24 ∧
      packet.tcpPacket.tcp.ack = be32 packet.header 28 ∧
      packet.tcpPacket.tcp.offsetFlags = be16 packet.header 32 ∧
      packet.tcpPacket.tcp.windowSize = be16 packet.header 34 := by
  rw [sourcePort_eq, destPort_eq, sequence_eq, ack_eq, offsetFlags_eq, windowSize_eq, htransport]
  exact ⟨rfl, rfl, rfl, rfl, rfl, rfl⟩

/-- The segment ends the frame. -/
theorem exists_ipFront (s : Stack) (identification : UInt16) (segment : TxSegment) :
    ∃ front checksum, front.length = 34 ∧
      TxFrame.bytes s (.tcp identification segment) = front ++ segment.segmentBytes checksum :=
  ⟨_, _, rfl, rfl⟩

/-- And the payload ends the segment. -/
theorem exists_front (s : Stack) (identification : UInt16) (segment : TxSegment) :
    ∃ front, front.length = 54 + 4 * segment.options.length ∧
      TxFrame.bytes s (.tcp identification segment) = front ++ segment.payload := by
  obtain ⟨front, checksum, hfront, hbytes⟩ := exists_ipFront s identification segment
  have hheader : (segment.headerBytes checksum ++ segment.options.flatMap bytes32).length =
      20 + 4 * segment.options.length := length_tcpHeaderBytes checksum
  refine ⟨front ++ (segment.headerBytes checksum ++ segment.options.flatMap bytes32), ?_, ?_⟩
  · rw [List.length_append, hfront, hheader]
    omega
  · rw [hbytes, TxSegment.segmentBytes, ← List.append_assoc]

/-- The segment of the frame, as it is read. -/
theorem sameSegment (htotal : segment.totalLength.toNat =
      20 + (20 + 4 * segment.options.length + segment.payload.length))
    (hoffset : ((segment.offsetFlags >>> 12).toNat * 4 : Int) = 20 + 4 * segment.options.length)
    {packet : EthPacket}
    (hcarries : packet.Carries (TxFrame.bytes s (.tcp identification segment)))
    (htransport : (newIpPacket packet).transport = 20)
    (hheader : ipHeader (newIpPacket packet).header =
      { versionIhl := 0x45
        totalLength := segment.totalLength
        protocol := 6
        sourceIp := s.ipAddr
        destIp := segment.destIp }) :
    SameSegment (newIpPacket packet).tcpPacket segment := by
  obtain ⟨hsource, hdest, hsequence, hack, hflags, hwindow⟩ := tcpHeader_wire htransport
  obtain ⟨ip, checksum, hip, hframe⟩ := exists_ipFront s identification segment
  have hsegment : packet.Carries (ip ++ segment.segmentBytes checksum) := hframe ▸ hcarries
  have hoffsetFlags : (newIpPacket packet).tcpPacket.tcp.offsetFlags = segment.offsetFlags :=
    hflags.trans (hsegment.be16_append hip (k := 12) rfl rfl)
  have hdataOffset : (newIpPacket packet).tcpPacket.tcp.dataOffset =
      20 + 4 * segment.options.length := by
    rw [TcpHeader.dataOffset, hoffsetFlags, hoffset]
  have hihl : (ipHeader (newIpPacket packet).header).ihl = 5 :=
    IpHeader.ihl_eq (congrArg IpHeader.versionIhl hheader)
  have hdataLength : (newIpPacket packet).tcpPacket.dataLength = segment.payload.length := by
    rw [dataLength_tcpPacket _ (by omega), hdataOffset, hihl, hheader]
    dsimp only
    omega
  exact
    { sourcePort := hsource.trans (hsegment.be16_append hip (k := 0) rfl rfl)
      destPort := hdest.trans (hsegment.be16_append hip (k := 2) rfl rfl)
      sequence := hsequence.trans (hsegment.be32_append hip (k := 4) rfl rfl rfl rfl)
      ack := hack.trans (hsegment.be32_append hip (k := 8) rfl rfl rfl rfl)
      offsetFlags := hoffsetFlags
      windowSize := hwindow.trans (hsegment.be16_append hip (k := 14) rfl rfl)
      dataOffset := hdataOffset
      payload := by
        obtain ⟨front, hfront, hbytes⟩ := exists_front s identification segment
        rw [hdataLength]
        refine (hbytes ▸ hcarries).tail fun i _ => ?_
        rw [TcpPacket.payload, hdataOffset]
        refine (ntohTcp_of_le _ (by omega)).trans ?_
        refine (ntohIp_of_le packet.data (by omega)).trans ?_
        refine congrArg packet.buffer ?_
        omega }

theorem segment_wellFormed
    (htotal : segment.totalLength.toNat =
      20 + (20 + 4 * segment.options.length + segment.payload.length))
    (hoffset : ((segment.offsetFlags >>> 12).toNat * 4 : Int) = 20 + 4 * segment.options.length) :
    SegmentWellFormed s (TxFrame.bytes s (.tcp identification segment)) segment := by
  have hdatagram : Datagram (TxFrame.bytes s (.tcp identification segment)) 6
      segment.totalLength s.ipAddr segment.destIp
      (20 + 4 * segment.options.length + segment.payload.length) := by
    rw [← length_segmentBytes (checksum (pseudoHeader s.ipAddr segment.destIp
      (UInt16.ofNat (segment.segmentBytes 0).length) ++ segment.segmentBytes 0))]
    exact datagram_bytes (by rw [htotal, length_segmentBytes]) (.inl rfl)
  refine ⟨hdatagram, fun packet hcarries => ?_, ?_⟩
  · obtain ⟨-, -, htransport, hheader⟩ := hdatagram.accepted packet hcarries
    exact sameSegment htotal hoffset hcarries htransport hheader
  · have hlength : (segment.segmentBytes (checksum (pseudoHeader s.ipAddr segment.destIp
        (UInt16.ofNat (segment.segmentBytes 0).length) ++ segment.segmentBytes 0))).length =
          (segment.segmentBytes 0).length := by
      rw [length_segmentBytes, length_segmentBytes]
    change onesSum (bytes32 s.ipAddr ++ bytes32 segment.destIp ++ [0, 6] ++
      bytes16 (UInt16.ofNat (segment.segmentBytes _).length) ++ segment.segmentBytes _) = 0xFFFF
    rw [hlength, segmentBytes_split (checksum _), ← List.append_assoc]
    refine onesSum_of_checksum (by simp) ?_
    rw [List.append_assoc]
    rfl

end Segment

/-! ## Replies -/

section Echo

variable {s : Stack} {reply : EchoReply}

theorem length_messageBytes (checksum : UInt16) :
    (reply.messageBytes checksum).length = 8 + reply.payload.length := by
  rw [EchoReply.messageBytes, List.length_append]
  rfl

/-- The message of the frame, as it is read. -/
theorem sameReply (htotal : reply.totalLength.toNat = 20 + (8 + reply.payload.length))
    {packet : EthPacket} (hcarries : packet.Carries (TxFrame.bytes s (.echo reply)))
    (hheader : ipHeader (newIpPacket packet).header =
      { versionIhl := 0x45
        totalLength := reply.totalLength
        protocol := 1
        sourceIp := reply.sourceIp
        destIp := reply.destIp }) :
    SameReply (newIpPacket packet) reply := by
  have hihl : (ipHeader (newIpPacket packet).header).ihl = 5 :=
    IpHeader.ihl_eq (congrArg IpHeader.versionIhl hheader)
  have hlength : pingPayloadLength (ipHeader (newIpPacket packet).header) =
      reply.payload.length := by
    rw [pingPayloadLength, hihl, hheader]
    dsimp only
    omega
  obtain ⟨ip, checksum, hip, hframe⟩ : ∃ front checksum, front.length = 34 ∧
      TxFrame.bytes s (.echo reply) = front ++ reply.messageBytes checksum := ⟨_, _, rfl, rfl⟩
  have hmessage : packet.Carries (ip ++ reply.messageBytes checksum) := hframe ▸ hcarries
  have hfront : (ip ++ reply.headerBytes checksum).length = 42 := by
    rw [List.length_append, hip]
    rfl
  exact
    { type := hmessage.byte_append hip (k := 0) rfl
      code := hmessage.byte_append hip (k := 1) rfl
      identifier := (le16_swap16 (newIpPacket packet).header 24).trans
        (hmessage.be16_append hip (k := 4) rfl rfl)
      sequenceNumber := (le16_swap16 (newIpPacket packet).header 26).trans
        (hmessage.be16_append hip (k := 6) rfl rfl)
      payload := by
        rw [hlength]
        rw [EchoReply.messageBytes, ← List.append_assoc] at hmessage
        refine hmessage.tail fun i _ => ?_
        refine (ntohPing_of_le _ (by omega)).trans ?_
        refine (ntohIp_of_le packet.data (by omega)).trans ?_
        refine congrArg packet.buffer ?_
        omega }

theorem echo_wellFormed (htotal : reply.totalLength.toNat = 20 + (8 + reply.payload.length)) :
    EchoWellFormed (TxFrame.bytes s (.echo reply)) reply := by
  have hdatagram : Datagram (TxFrame.bytes s (.echo reply)) 1 reply.totalLength reply.sourceIp
      reply.destIp (8 + reply.payload.length) := by
    rw [← length_messageBytes (checksum (reply.messageBytes 0))]
    exact datagram_bytes (by rw [htotal, length_messageBytes]) (.inr rfl)
  refine ⟨hdatagram, fun packet hcarries => ?_, ?_⟩
  · obtain ⟨-, -, -, hheader⟩ := hdatagram.accepted packet hcarries
    exact sameReply htotal hcarries hheader
  · change onesSum (reply.messageBytes (checksum (reply.messageBytes 0))) = 0xFFFF
    exact onesSum_of_checksum (l := [0, 0]) rfl rfl

end Echo

/-! ## What is transmitted -/

section Transmitted

variable {s : Stack} {c : TcpConnection}

/-- A segment with a length goes out well formed. -/
theorem segmentBytes_wellFormed {n : ℕ} (hlength : sendLength c = n) {scratch below : Bytes}
    {frame : List UInt8} (hsent : segmentBytes s c scratch below = some frame) :
    SegmentWellFormed s frame (buildSegment c scratch) := by
  have hoffset := sendOffset_cases c
  have hframe := frameLength_eq c scratch hlength
  have hoptions : sendOffset c = 20 + 4 * ((buildSegment c scratch).options.length : Int) := by
    unfold sendOffset buildSegment
    cases isSyn c with
    | true => rfl
    | false => rfl
  have hflags : ((offsetFlagBits (isSyn c) (decide (c.txFin ≤ c.txAcked))
      (decide (c.state = .sendRst)) >>> 12).toNat * 4 : Int) = sendOffset c := by
    have hbits : ∀ syn fin rst : Bool, ((offsetFlagBits syn fin rst >>> 12).toNat * 4 : Int) =
        if syn then 28 else 20 := by
      decide
    rw [hbits, sendOffset]
  rw [segmentBytes_eq s c scratch below hlength, Option.some.injEq] at hsent
  subst hsent
  refine segment_wellFormed ?_ ?_
  · rw [length_buildSegment_payload, hlength, Int.toNat_natCast]
    omega
  · rw [buildSegment_offsetFlags, hflags, hoptions]

/-- With a negative length `ip_checksum_add` reads one byte, in front of the buffer. -/
theorem ipChecksumAdd_negative (sum : UInt32) (below buffer : Bytes) {off : ℕ} {len : Int}
    (hlen : off + len ≤ 0) (hneg : len < 0) :
    ipChecksumAdd sum (pointer below buffer off) len =
      sum + (below (1 - (off + len)).toNat).toUInt32 <<< 8 := by
  have hnone : len.toNat = 0 := by omega
  unfold ipChecksumAdd
  rw [hnone]
  dsimp only [checksumLoop]
  rw [if_pos (by omega), pointer, if_neg (by omega)]
  congr 5
  omega

/-- The checksum of such a segment depends on that byte. -/
theorem putTcpChecksum_negative (buffer : Bytes) {len : Int} (hlen : len < -34) :
    ∃ a, a < 2 ^ 20 ∧ ∀ v : UInt8, putTcpChecksum (fun _ => v) buffer len =
      put16 buffer 50 (htons (ipChecksumFinal (UInt32.ofNat (a + 256 * v.toNat)))) := by
  have haddresses := wordSum_le (takeBytes (fun i => buffer (26 + i)) 8)
  have hlength := wordSum_le [0, 6, UInt8.ofInt (len >>> (8 : ℕ)), UInt8.ofInt len]
  change _ ≤ 65535 * 8 at haddresses
  change _ ≤ 65535 * 4 at hlength
  refine ⟨wordSum (takeBytes (fun i => buffer (26 + i)) 8) +
    wordSum [0, 6, UInt8.ofInt (len >>> (8 : ℕ)), UInt8.ofInt len], by omega, fun v => ?_⟩
  have hfirst := ipChecksumAdd_pointer 0 (fun _ => v) buffer 26 8
  rw [Nat.cast_ofNat, UInt32.zero_add] at hfirst
  have hsecond : ∀ sum, ipChecksumAdd sum (tempEncode len) 4 =
      sum + UInt32.ofNat (wordSum [0, 6, UInt8.ofInt (len >>> (8 : ℕ)), UInt8.ofInt len]) := by
    intro sum
    refine ipChecksumAdd_eq sum (tempEncode len)
      (l := [0, 6, UInt8.ofInt (len >>> (8 : ℕ)), UInt8.ofInt len]) fun k hk => ?_
    have hk4 : k < 4 := hk
    interval_cases k <;> rfl
  have hbyte : v.toUInt32 <<< 8 = UInt32.ofNat (256 * v.toNat) := by
    have hword := ofNat_word v 0
    simpa using hword
  unfold putTcpChecksum
  dsimp only
  rw [hfirst, hsecond, ipChecksumAdd_negative _ _ _ (by omega) (by omega), hbyte,
    UInt32.ofNat_add, UInt32.ofNat_add]

theorem options_of_offset (hoffset : sendOffset c = 20) :
    (buildSegment c fun _ => 0).options = [] := by
  unfold sendOffset at hoffset
  unfold buildSegment
  cases hsyn : isSyn c with
  | true => simp [hsyn] at hoffset
  | false => rfl

/-- The right sums of two of these segments would agree. -/
theorem checksum_negative {a : ℕ} (ha : a < 2 ^ 20) (v : UInt8) :
    (ipChecksumFinal (UInt32.ofNat (a + 256 * v.toNat))).toNat ≤ 65535 ∧
      ((ipChecksumFinal (UInt32.ofNat (a + 256 * v.toNat))).toNat + (a + 256 * v.toNat)) %
        65535 = 0 := by
  have hv := v.toNat_lt
  have hfolds := folds_twice (t := a + 256 * v.toNat) (by omega)
  have hle := hfolds.le
  have hmod := hfolds.modEq
  unfold Nat.ModEq at hmod
  rw [toNat_ipChecksumFinal (by omega)]
  omega

/-- A segment with a negative length that goes out with the length of its headers.  `v` is
what the byte holds that `ip_checksum_add` reads. -/
theorem segmentBytes_negative (hlong : 2 ^ 31 ≤ (sendRoom c).toNat)
    (htotal : (40 + (sendRoom c).toNat) % 65536 = 40) :
    ∃ x a, a < 2 ^ 20 ∧ ∀ v : UInt8, segmentBytes s c (fun _ => 0) (fun _ => v) =
      some (ethBytes c.remoteMac s.localMac 0x0800 ++
        ipBytes (buildSegment c fun _ => 0).totalLength s.identificationCounter 6 s.ipAddr
          c.remoteIp x ++
        (buildSegment c fun _ => 0).headerBytes
          (ipChecksumFinal (UInt32.ofNat (a + 256 * v.toNat)))) := by
  obtain ⟨hoffset, hlength, hwrapped⟩ := sendLength_of_long hlong
  have hlt := (sendRoom c).toNat_lt
  have hoptions := options_of_offset hoffset
  have hbuild : (buildSegment c fun _ => 0).totalLength =
      UInt16.ofInt (20 + sendOffset c + sendLength c) := rfl
  have hnegative : sendOffset c + sendLength c < -34 := by omega
  obtain ⟨a, ha, htcp⟩ := putTcpChecksum_negative
    (putIpChecksum (fun _ => 0) (segmentBuffer s c fun _ => 0)) hnegative
  refine ⟨checksum (ipBytes (buildSegment c fun _ => 0).totalLength s.identificationCounter 6
    s.ipAddr c.remoteIp 0), a, ha, fun v => ?_⟩
  unfold segmentBytes sendPacket PACKET_MAX_SIZE
  dsimp only
  rw [hbuild, hwrapped, htotal, if_neg (by omega), putIpChecksum_eq]
  rw [putIpChecksum_eq] at htcp
  rw [htcp, put16_htons _ 24, put16_htons _ 50]
  have hfront := takeBytes_finished s c fun _ => 0
  unfold finished at hfront
  rw [hoffset, hoptions] at hfront
  refine congrArg some ((hfront _ _).trans ?_)
  rw [List.flatMap_nil, List.append_nil]
  rfl

theorem not_segmentBytes_wellFormed (hlong : 2 ^ 31 ≤ (sendRoom c).toNat) (hfits : FrameFits c) :
    ∃ v frame, segmentBytes s c (fun _ => 0) (fun _ => v) = some frame ∧
      ¬ SegmentWellFormed s frame (buildSegment c fun _ => 0) := by
  obtain ⟨hoffset, hlength, hwrapped⟩ := sendLength_of_long hlong
  have hlt := (sendRoom c).toNat_lt
  have hbuild : (buildSegment c fun _ => 0).totalLength =
      UInt16.ofInt (20 + sendOffset c + sendLength c) := rfl
  by_contra hall
  push Not at hall
  have htotal : (40 + (sendRoom c).toNat) % 65536 = 40 := by
    obtain ⟨frame, hframe⟩ : ∃ frame, segmentBytes s c (fun _ => 0) (fun _ => 0) = some frame := by
      unfold FrameFits at hfits
      unfold segmentBytes sendPacket
      dsimp only
      rw [hbuild, if_neg (by omega)]
      exact ⟨_, rfl⟩
    have hwell := (hall _ _ hframe).datagram.total_length
    rw [options_of_offset hoffset, length_buildSegment_payload, hbuild, hwrapped, hlength,
      List.length_nil] at hwell
    omega
  obtain ⟨x, a, ha, hbytes⟩ := segmentBytes_negative (s := s) hlong htotal
  have hsum : ∀ v : UInt8, (wordSum (bytes32 s.ipAddr ++ bytes32 c.remoteIp ++ [0, 6] ++
      bytes16 (UInt16.ofNat 20) ++ (buildSegment c fun _ => 0).headerBytes 0) +
        (ipChecksumFinal (UInt32.ofNat (a + 256 * v.toNat))).toNat) % 65535 = 0 := by
    intro v
    have hright : onesSum (bytes32 s.ipAddr ++ bytes32 c.remoteIp ++ [0, 6] ++
        bytes16 (UInt16.ofNat 20) ++ (buildSegment c fun _ => 0).headerBytes
          (ipChecksumFinal (UInt32.ofNat (a + 256 * v.toNat)))) = 65535 :=
      (hall _ _ (hbytes v)).segment_sum
    rw [headerBytes_split, ← List.append_assoc] at hright
    have hmod := modEq_of_onesSum (by simp) hright
    rw [List.append_assoc] at hmod
    exact hmod
  have hzero := hsum 0
  have hone := hsum 1
  have hzero' := checksum_negative ha 0
  have hone' := checksum_negative ha 1
  simp only [UInt8.toNat_zero, UInt8.toNat_one] at hzero hone hzero' hone'
  omega

end Transmitted

/-- What `handle_ping_packet` sends. -/
theorem handlePingPacket_frames {s s' : Stack} {packet : IpPacket} {frames : List TxFrame}
    (hstep : handlePingPacket s packet = some (s', frames)) {frame : TxFrame}
    (hsent : frame ∈ frames) :
    ntohPing packet.header packet.transport packet.transport = 8 ∧
      0 ≤ pingPayloadLength (ipHeader (ntohPing packet.header packet.transport)) ∧
      frame = .echo (echoReply s packet (ntohPing packet.header packet.transport)) := by
  unfold handlePingPacket at hstep
  dsimp only at hstep
  split_ifs at hstep with hecho hneg hfits
  · cases hstep
    cases hsent
  · cases hstep
    push Not at hecho hneg
    exact ⟨hecho.1, hneg, List.mem_singleton.mp hsent⟩
  · cases hstep
    cases hsent

/-- Every frame that answers an IP frame is a well-formed reply, and a transmitted segment is
well formed exactly when there are less than 2^31 bytes to be sent. -/
theorem transmitted_wellFormed_iff (s : Stack) :
    (∀ frame : RxFrame, frame.packet.length ≤ PACKET_MAX_SIZE - 4 → frame.packet.type = .ip →
      ∀ scratch below frames, rxBytes s frame scratch below = some frames → ∀ bytes ∈ frames,
        EchoWellFormed bytes (echoReply s (newIpPacket frame.packet)
          (ntohPing (newIpPacket frame.packet).header (newIpPacket frame.packet).transport))) ∧
    ∀ clock c, s.tcpConn.state ≠ .listen → sendFrom s.tcpConn clock = some c → FrameFits c →
      ((∀ scratch below frame, sendTcpBytes s clock scratch below = some frame →
        SegmentWellFormed s frame (buildSegment c scratch)) ↔ (sendRoom c).toNat < 2 ^ 31) := by
  refine ⟨fun frame hdelivered htype scratch below frames hsent bytes hbytes => ?_,
    fun clock c hopen hfrom hfits => ?_⟩
  · rw [rxBytes_eq s hdelivered] at hsent
    obtain ⟨⟨s', sent⟩, hstep, rfl⟩ := Option.map_eq_some_iff.mp hsent
    obtain ⟨reply, hreply, rfl⟩ := List.mem_map.mp hbytes
    unfold handleRxPacket handleIpPacket at hstep
    rw [htype] at hstep
    dsimp only at hstep hreply
    split_ifs at hstep with hinvalid hping htcp
    · cases hstep
      cases hreply
    · obtain ⟨hecho, hlength, rfl⟩ := handlePingPacket_frames hstep hreply
      have hlt := pingPayloadLength_lt hdelivered hinvalid hecho
      refine echo_wellFormed ?_
      rw [echoReply, List.length_map, List.length_range, UInt16.ofInt, UInt16.toNat_ofNat']
      omega
    · obtain ⟨_, _, hpair⟩ := Option.map_eq_some_iff.mp hstep
      cases hpair
      cases hreply
    · cases hstep
      cases hreply
  · have hbytes : ∀ scratch below, sendTcpBytes s clock scratch below =
        segmentBytes s c scratch below := by
      intro scratch below
      rw [sendTcpBytes, if_neg hopen, hfrom]
      rfl
    simp only [hbytes]
    constructor
    · intro hall
      by_contra hlong
      obtain ⟨v, frame, hsent, hnot⟩ :=
        not_segmentBytes_wellFormed (s := s) (not_lt.mp hlong) hfits
      exact hnot (hall _ _ _ hsent)
    · intro hshort scratch below frame hsent
      obtain ⟨n, hn⟩ := exists_sendLength hshort
      exact segmentBytes_wellFormed hn hsent

/-- An echo request with a payload of three bytes, and the SYN-ACK. -/
theorem transmitted_wellFormed_iff_two :
    (∃ bytes, rxBytes listeningStack (echoFrame 0x45 34 0 31 45) (fun _ => 0) (fun _ => 0) =
        some [bytes] ∧
      EchoWellFormed bytes (echoReply listeningStack
        (newIpPacket (echoFrame 0x45 34 0 31 45).packet)
        (ntohPing (newIpPacket (echoFrame 0x45 34 0 31 45).packet).header
          (newIpPacket (echoFrame 0x45 34 0 31 45).packet).transport))) ∧
    ∃ frame, sendTcpBytes { listeningStack with tcpConn := peerConnection } ⟨0, 0⟩ (fun _ => 0)
        (fun _ => 0) = some frame ∧
      SegmentWellFormed { listeningStack with tcpConn := peerConnection } frame
        (buildSegment peerConnection fun _ => 0) := by
  constructor
  · obtain ⟨bytes, hbytes⟩ : ∃ bytes, rxBytes listeningStack (echoFrame 0x45 34 0 31 45)
        (fun _ => 0) (fun _ => 0) = some [bytes] := ⟨_, rfl⟩
    exact ⟨bytes, hbytes, (transmitted_wellFormed_iff listeningStack).1 _ (by decide) (by decide)
      _ _ _ hbytes _ List.mem_cons_self⟩
  · have hdue : sendFrom peerConnection ⟨0, 0⟩ = some peerConnection := by
      rw [sendFrom, if_pos (by decide)]
    obtain ⟨frame, hframe⟩ : ∃ frame, sendTcpBytes
        { listeningStack with tcpConn := peerConnection } ⟨0, 0⟩ (fun _ => 0) (fun _ => 0) =
          some frame := ⟨_, rfl⟩
    exact ⟨frame, hframe, ((transmitted_wellFormed_iff _).2 ⟨0, 0⟩ _ (by decide) hdue
      (by decide)).mpr (by decide) _ _ _ hframe⟩

/-- The segment with the length -65436 has a `total_length` of 140, for headers of 40 bytes
and no payload. -/
theorem malformed_segment :
    Opens listeningStack peerSyn peerConnection ∧
      (∃ h, ConnRun listeningStack.ipAddr anyEvent peerConnection h overfullConnection) ∧
      ∃ frame, sendTcpBytes { listeningStack with tcpConn := overfullConnection } ⟨0, 0⟩
          (fun _ => 0) (fun _ => 0) = some frame ∧
        ¬ SegmentWellFormed { listeningStack with tcpConn := overfullConnection } frame
          (buildSegment overfullConnection fun _ => 0) := by
  have hfields : (buildSegment overfullConnection fun _ => 0).totalLength = 140 ∧
      (buildSegment overfullConnection fun _ => 0).options = [] ∧
      (buildSegment overfullConnection fun _ => 0).payload = [] := by
    decide +kernel
  obtain ⟨htotal, hoptions, hpayload⟩ := hfields
  have hsome : (sendTcpBytes { listeningStack with tcpConn := overfullConnection } ⟨0, 0⟩
      (fun _ => 0) (fun _ => 0)).isSome = true := by
    decide +kernel
  obtain ⟨frame, hframe⟩ := Option.isSome_iff_exists.mp hsome
  refine ⟨peerSyn_opens, ⟨_, hugeWrites_meets.run⟩, frame, hframe, fun hwell => ?_⟩
  have hlength := hwell.datagram.total_length
  rw [htotal, hoptions, hpayload] at hlength
  exact absurd hlength (by decide)

end EthTransfer
