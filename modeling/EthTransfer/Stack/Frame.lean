import EthTransfer.Stack.HandleTcp
import EthTransfer.Stack.SendTcp

/-!
# Received frames

From the frame that `get_packet` delivers to the handler of its protocol.

The source converts headers to host order in place, so what a later read finds
depends on the conversions before it: with a header length below five words the
TCP header lies in the IP header, and with an offset field below five the
payload lies in the TCP header.  `swap16` and `swap32` are the conversions, in
the memory of a little-endian host, and `le16` and `le32` its reads.  `ntohArp`,
`ntohIp`, `ntohPing` and `ntohTcp` are the functions of these names.

What a frame makes the stack send is a `TxFrame`, with the fields of the reply
that are not constants.
-/

namespace EthTransfer

/-! ## Memory of a little-endian host -/

/-- Reverse two bytes in place, as `ntohs` and `htons` do. -/
def swap16 (b : Bytes) (i : ℕ) : Bytes := fun j =>
  if j = i then b (i + 1) else if j = i + 1 then b i else b j

/-- Reverse four bytes in place, as `ntohl` and `htonl` do. -/
def swap32 (b : Bytes) (i : ℕ) : Bytes := fun j =>
  if j = i then b (i + 3) else if j = i + 1 then b (i + 2)
  else if j = i + 2 then b (i + 1) else if j = i + 3 then b i else b j

/-- Read a `uint16_t`. -/
def le16 (b : Bytes) (i : ℕ) : UInt16 := (b i).toUInt16 ||| (b (i + 1)).toUInt16 <<< 8

/-- Read a `uint32_t`. -/
def le32 (b : Bytes) (i : ℕ) : UInt32 :=
  (b i).toUInt32 ||| (b (i + 1)).toUInt32 <<< 8 ||| (b (i + 2)).toUInt32 <<< 16 |||
    (b (i + 3)).toUInt32 <<< 24

/-- Read an `eth_mac`. -/
def readMac (b : Bytes) (i : ℕ) : EthMac := ⟨Vector.ofFn fun j : Fin 6 => b (i + j)⟩

/-! ## Ethernet -/

/-- The `ETH_*` types that `get_packet` can set. -/
inductive EthType where
  | arp
  | ip
  | unknown
  deriving DecidableEq, Repr

/-- A frame as `get_packet` delivers it: `length` is `packet->length`, and the
memory behind the frame holds anything. -/
structure EthPacket where
  buffer : Bytes
  length : Int

/-- `packet->type`.  `get_packet` looks at the length with the checksum. -/
def EthPacket.type (packet : EthPacket) : EthType :=
  if packet.length + 4 < 14 then .unknown
  else
    let etherType := le16 (swap16 packet.buffer 12) 12
    if etherType = 0x0800 then .ip
    else if etherType = 0x0806 then .arp
    else .unknown

/-- `packet->data`. -/
def EthPacket.data (packet : EthPacket) : Bytes := fun i => packet.buffer (14 + i)

/-- `packet->header->source`. -/
def EthPacket.source (packet : EthPacket) : EthMac := readMac packet.buffer 6

/-! ## Transmitted frames -/

/-- The reply to an ARP request. -/
structure ArpReply where
  dest : EthMac
  sha : EthMac
  spa : UInt32
  tha : EthMac
  tpa : UInt32
  deriving DecidableEq, Repr

/-- The reply to an echo request. -/
structure EchoReply where
  dest : EthMac
  identification : UInt16
  totalLength : UInt16
  sourceIp : UInt32
  destIp : UInt32
  identifier : UInt16
  sequenceNumber : UInt16
  payload : List UInt8
  deriving DecidableEq, Repr

/-- A frame on the wire.  A TCP segment comes with the identification of its IP
header. -/
inductive TxFrame where
  | arp (reply : ArpReply)
  | echo (reply : EchoReply)
  | tcp (identification : UInt16) (segment : TxSegment)
  deriving DecidableEq, Repr

/-! ## ARP -/

/-- `ntoh_arp`. -/
def ntohArp (header : Bytes) : Bytes :=
  swap32 (swap32 (swap16 (swap16 (swap16 header 0) 2) 6) 14) 24

/-- An `arp_packet`; `header` is the memory at `arp_header`. -/
structure ArpPacket where
  ethPacket : EthPacket
  header : Bytes
  length : Int

/-- `new_arp_packet` of a received frame. -/
def newArpPacket (packet : EthPacket) : ArpPacket :=
  let header := ntohArp packet.data
  let valid := decide (packet.length ≥ 42) && le16 header 0 == 1 && le16 header 2 == 0x0800 &&
    header 4 == 0x06 && header 5 == 0x04 && (le16 header 6 == 0x01 || le16 header 6 == 0x02)
  { ethPacket := packet, header := header, length := if valid then 28 else -1 }

/-- `handle_arp_packet`: the frames that it sends. -/
def handleArpPacket (s : Stack) (packet : ArpPacket) : List TxFrame :=
  if packet.length < 0 then []
  else if le16 packet.header 6 = 0x0001 then
    if le32 packet.header 24 = s.ipAddr then
      [.arp
        { dest := packet.ethPacket.source
          sha := s.localMac
          spa := s.ipAddr
          tha := readMac packet.header 8
          tpa := le32 packet.header 14 }]
    else []
  else []

/-! ## IP -/

/-- `ntoh_ip`. -/
def ntohIp (header : Bytes) : Bytes :=
  swap32 (swap32 (swap16 (swap16 (swap16 header 2) 4) 6) 12) 16

/-- An `ip_packet`; `header` is the memory at `ip_header`, and `transport` the
offset of `ping_header` and `tcp_header` in it. -/
structure IpPacket where
  ethPacket : EthPacket
  header : Bytes
  transport : ℕ
  length : Int

/-- The fields of the IP header that are read, in the memory at `ip_header`. -/
def ipHeader (header : Bytes) : IpHeader where
  versionIhl := header 0
  totalLength := le16 header 2
  protocol := header 9
  sourceIp := le32 header 12
  destIp := le32 header 16

/-- `new_ip_packet` of a received frame. -/
def newIpPacket (packet : EthPacket) : IpPacket :=
  let header := ntohIp packet.data
  let ip := ipHeader header
  let valid := decide (ip.totalLength.toNat ≥ 20) &&
    decide (packet.length ≥ 14 + ip.totalLength.toNat) &&
    decide (packet.length ≥ 14 + ip.ihl * 4) && (ip.protocol == 6 || ip.protocol == 1)
  { ethPacket := packet
    header := header
    transport := ip.ihl.toNat * 4
    length := if valid then ip.totalLength.toNat else -1 }

/-! ## Ping -/

/-- `ntoh_ping`, on the ping header at offset `i`. -/
def ntohPing (header : Bytes) (i : ℕ) : Bytes :=
  swap16 (swap16 (swap16 header (i + 2)) (i + 4)) (i + 6)

/-- `payload_length` of `handle_ping_packet`. -/
def pingPayloadLength (ip : IpHeader) : Int := ip.totalLength.toNat - ip.ihl * 4 - 8

/-- `handle_ping_packet`.  A reply takes an identification, and `send_packet`
sends it when its length is in range.  A negative payload length makes `memcpy`
fail, and the function does not return. -/
def handlePingPacket (s : Stack) (packet : IpPacket) : Option (Stack × List TxFrame) :=
  let header := ntohPing packet.header packet.transport
  let ip := ipHeader header
  if header packet.transport ≠ 8 ∨ header (packet.transport + 1) ≠ 0 then some (s, [])
  else if pingPayloadLength ip < 0 then none
  else
    let reply : EchoReply :=
      { dest := packet.ethPacket.source
        identification := s.identificationCounter
        totalLength := UInt16.ofInt (pingPayloadLength ip + 20 + 8)
        sourceIp := s.ipAddr
        destIp := ip.sourceIp
        identifier := le16 header (packet.transport + 4)
        sequenceNumber := le16 header (packet.transport + 6)
        payload := (List.range (pingPayloadLength ip).toNat).map fun i =>
          header (packet.transport + 8 + i) }
    let frames : List TxFrame :=
      if (14 : Int) + reply.totalLength.toNat ≤ PACKET_MAX_SIZE then [.echo reply] else []
    some ({ s with identificationCounter := s.identificationCounter + 1 }, frames)

/-! ## TCP -/

/-- `ntoh_tcp`, on the TCP header at offset `i`. -/
def ntohTcp (header : Bytes) (i : ℕ) : Bytes :=
  swap16 (swap16 (swap16 (swap32 (swap32 (swap16 (swap16 header i) (i + 2)) (i + 4)) (i + 8))
    (i + 12)) (i + 14)) (i + 18)

/-- What `handle_tcp_packet` reads of an IP packet. -/
def IpPacket.tcpPacket (packet : IpPacket) : TcpPacket :=
  let i := packet.transport
  let header := ntohTcp packet.header i
  { sourceMac := packet.ethPacket.source
    ip := ipHeader header
    tcp :=
      { sourcePort := le16 header i
        destPort := le16 header (i + 2)
        sequence := le32 header (i + 4)
        ack := le32 header (i + 8)
        offsetFlags := le16 header (i + 12)
        windowSize := le16 header (i + 14)
        bytes := fun j => header (i + j) } }

/-! ## The dispatch -/

/-- A received frame, and what `rand` answers while it is handled. -/
structure RxFrame where
  packet : EthPacket
  rand : Rand

/-- `handle_ip_packet`; `none` when it does not return. -/
def handleIpPacket (s : Stack) (packet : IpPacket) (rand : Rand) :
    Option (Stack × List TxFrame) :=
  if packet.length < 0 then some (s, [])
  else if packet.header 9 = 1 then handlePingPacket s packet
  else if packet.header 9 = 6 then
    (handleTcpPacket s packet.tcpPacket rand).map fun s' => (s', [])
  else some (s, [])

/-- `handle_rx_packet`, when `get_packet` has delivered a frame. -/
def handleRxPacket (s : Stack) (frame : RxFrame) : Option (Stack × List TxFrame) :=
  match frame.packet.type with
  | .arp => some (s, handleArpPacket s (newArpPacket frame.packet))
  | .ip => handleIpPacket s (newIpPacket frame.packet) frame.rand
  | .unknown => some (s, [])

/-- The TCP segment that reaches `handle_tcp_packet`, if the frame holds one. -/
def RxFrame.tcpSegment (frame : RxFrame) : Option TcpPacket :=
  let packet := newIpPacket frame.packet
  if frame.packet.type = .ip ∧ ¬ packet.length < 0 ∧ packet.header 9 = 6 then
    some packet.tcpPacket
  else none

/-- A frame with a TCP segment goes to `handle_tcp_packet`. -/
theorem handleRxPacket_of_tcp {frame : RxFrame} {packet : TcpPacket}
    (htcp : frame.tcpSegment = some packet) (s : Stack) :
    handleRxPacket s frame = (handleTcpPacket s packet frame.rand).map fun s' => (s', []) := by
  unfold RxFrame.tcpSegment at htcp
  dsimp only at htcp
  split at htcp
  · rename_i h
    obtain ⟨htype, hvalid, hprotocol⟩ := h
    obtain rfl := Option.some.inj htcp
    have hping : (newIpPacket frame.packet).header 9 ≠ 1 := by
      rw [hprotocol]
      decide
    unfold handleRxPacket handleIpPacket
    rw [htype]
    dsimp only
    rw [if_neg hvalid, if_neg hping, if_pos hprotocol]
  · cases htcp

/-- The TCP segments among transmitted frames. -/
def tcpSegments (frames : List TxFrame) : List TxSegment :=
  frames.filterMap fun
    | .tcp _ segment => some segment
    | _ => none

@[simp] theorem tcpSegments_append (frames later : List TxFrame) :
    tcpSegments (frames ++ later) = tcpSegments frames ++ tcpSegments later := by
  simp [tcpSegments]

/-- Any other frame leaves the connection alone, and no TCP segment answers
it. -/
theorem handleRxPacket_of_not_tcp {frame : RxFrame} (htcp : frame.tcpSegment = none)
    {s s' : Stack} {frames : List TxFrame} (h : handleRxPacket s frame = some (s', frames)) :
    s'.tcpConn = s.tcpConn ∧ s'.ipAddr = s.ipAddr ∧
      s'.connectionCounter = s.connectionCounter ∧ tcpSegments frames = [] := by
  have hsame : some (s, ([] : List TxFrame)) = some (s', frames) →
      s'.tcpConn = s.tcpConn ∧ s'.ipAddr = s.ipAddr ∧
        s'.connectionCounter = s.connectionCounter ∧ tcpSegments frames = [] := by
    intro heq
    obtain ⟨rfl, rfl⟩ := Prod.mk.inj (Option.some.inj heq)
    exact ⟨rfl, rfl, rfl, rfl⟩
  unfold handleRxPacket at h
  cases htype : frame.packet.type with
  | arp =>
    rw [htype] at h
    obtain ⟨rfl, rfl⟩ := Prod.mk.inj (Option.some.inj h)
    refine ⟨rfl, rfl, rfl, ?_⟩
    unfold handleArpPacket
    split_ifs <;> rfl
  | ip =>
    rw [htype] at h
    dsimp only at h
    unfold handleIpPacket at h
    split_ifs at h with hvalid hping hprotocol
    · exact hsame h
    · unfold handlePingPacket at h
      dsimp only at h
      split_ifs at h
      · exact hsame h
      all_goals
        obtain ⟨rfl, rfl⟩ := Prod.mk.inj (Option.some.inj h)
        exact ⟨rfl, rfl, rfl, rfl⟩
    · unfold RxFrame.tcpSegment at htcp
      dsimp only at htcp
      rw [if_pos ⟨htype, hvalid, hprotocol⟩] at htcp
      cases htcp
    · exact hsame h
  | unknown =>
    rw [htype] at h
    exact hsame h

end EthTransfer
