import EthTransfer.Lib.Checksum
import EthTransfer.Stack.System
import EthTransfer.Transmit.Call

/-!
# Building frames

The three functions that send a frame, byte by byte.  Each fills in a packet that
`new_eth_packet` has not cleared: `scratch` is what the buffer holds at first, and `below`
the memory in front of it, which `ip_checksum_add` reads when it is called with a negative
length.  A buffer is unbounded here; what goes beyond `PACKET_MAX_SIZE` belongs to a frame
that `send_packet` turns away.

`put8`, `put16` and `put32` are the assignments to a field, on a little-endian host, and
`atOffset` is a call that is given a pointer into the buffer.  The Ethernet header is at 0,
the ARP or IP header at 14, and the ping or TCP header at 34.
-/

namespace EthTransfer

open RingBuffer

/-! ## Stores -/

/-- Write a `uint8_t`. -/
def put8 (b : Bytes) (i : ℕ) (v : UInt8) : Bytes := fun j => if j = i then v else b j

/-- Write a `uint16_t`. -/
def put16 (b : Bytes) (i : ℕ) (v : UInt16) : Bytes := fun j =>
  if j = i then v.toUInt8 else if j = i + 1 then (v >>> 8).toUInt8 else b j

/-- Write a `uint32_t`. -/
def put32 (b : Bytes) (i : ℕ) (v : UInt32) : Bytes := fun j =>
  if j = i then v.toUInt8 else if j = i + 1 then (v >>> 8).toUInt8
  else if j = i + 2 then (v >>> 16).toUInt8 else if j = i + 3 then (v >>> 24).toUInt8 else b j

/-- Write an `eth_mac`. -/
def putMac (b : Bytes) (i : ℕ) (v : EthMac) : Bytes := fun j =>
  if h : i ≤ j ∧ j < i + 6 then v.mac[j - i] else b j

/-- What `f` does to the memory at `buffer + off`. -/
def atOffset (off : ℕ) (f : Bytes → Bytes) (buffer : Bytes) : Bytes := fun i =>
  if i < off then buffer i else f (fun j => buffer (off + j)) (i - off)

/-- `htons`. -/
def htons (v : UInt16) : UInt16 := v <<< 8 ||| v >>> 8

/-- `htonl`. -/
def htonl (v : UInt32) : UInt32 :=
  v <<< 24 ||| (v <<< 8 &&& (0xFF0000 : UInt32)) ||| (v >>> 8 &&& (0xFF00 : UInt32)) ||| v >>> 24

/-! ## Checksums -/

/-- The memory at `buffer + off`, in both directions. -/
def pointer (below buffer : Bytes) (off : ℕ) : Int → UInt8 := fun i =>
  if 0 ≤ off + i then buffer (off + i).toNat else below (-(off + i)).toNat

/-- The loop of `ip_checksum_add`, from `i` on; `n` is at least the number of rounds left.
The result is `i` and the sum. -/
def checksumLoop (buf : Int → UInt8) (len : Int) : (n : ℕ) → (i : Int) → UInt32 → Int × UInt32
  | 0, i, checksum => (i, checksum)
  | n + 1, i, checksum =>
    if i < len - 1 then
      let word := (buf i).toUInt32 <<< 8 ||| (buf (i + 1)).toUInt32
      checksumLoop buf len n (i + 2) (checksum + word)
    else (i, checksum)

/-- `ip_checksum_add`. -/
def ipChecksumAdd (checksum : UInt32) (buf : Int → UInt8) (len : Int) : UInt32 :=
  let (i, checksum) := checksumLoop buf len len.toNat 0 checksum
  if i ≠ len then checksum + (buf (len - 1)).toUInt32 <<< 8 else checksum

/-- `ip_checksum_final`. -/
def ipChecksumFinal (checksum : UInt32) : UInt16 :=
  let checksum := (checksum &&& (0xFFFF : UInt32)) + (checksum >>> 16)
  let checksum := (checksum &&& (0xFFFF : UInt32)) + (checksum >>> 16)
  (~~~checksum &&& (0xFFFF : UInt32)).toUInt16

/-- `ip_checksum`. -/
def ipChecksum (buf : Int → UInt8) (len : Int) : UInt16 :=
  ipChecksumFinal (ipChecksumAdd 0 buf len)

/-! ## Packets -/

/-- `send_packet` of an ARP or IP packet: the bytes on the wire. -/
def sendPacket (buffer : Bytes) (length : Int) : Option (List UInt8) :=
  if length < 0 ∨ length > PACKET_MAX_SIZE then none
  else some (takeBytes (swap16 buffer 12) length)

/-- `packet->header->ether_type` of a received frame, in host order. -/
def EthPacket.etherType (packet : EthPacket) : UInt16 := le16 (swap16 packet.buffer 12) 12

/-- `new_arp_packet` of a packet to be sent, on the memory at `arp_header`. -/
def newTxArpPacket (header : Bytes) : Bytes :=
  let header := ntohArp header
  let header := put16 header 0 1
  let header := put16 header 2 0x0800
  let header := put8 header 4 0x06
  put8 header 5 0x04

/-- `hton_arp`. -/
def htonArp (header : Bytes) : Bytes := ntohArp header

/-- `new_ip_packet` of a packet to be sent, on the memory at `ip_header`. -/
def newTxIpPacket (identification : UInt16) (header : Bytes) : Bytes :=
  let header := ntohIp header
  let header := put8 header 0 0x45
  let header := put8 header 1 0
  let header := put16 header 2 20
  let header := put16 header 4 identification
  let header := put16 header 6 0x4000
  let header := put8 header 8 128
  let header := put8 header 9 6
  let header := put16 header 10 0
  let header := put32 header 12 0
  put32 header 16 0

/-- `hton_ip`. -/
def htonIp (header : Bytes) : Bytes := ntohIp header

/-- `hton_ping`, on the memory at the ping header. -/
def htonPing (header : Bytes) : Bytes := ntohPing header 0

/-- `hton_tcp`, on the memory at the TCP header. -/
def htonTcp (header : Bytes) : Bytes := ntohTcp header 0

/-! ## ARP -/

/-- The reply of `handle_arp_packet`. -/
def arpReplyBuffer (s : Stack) (packet : ArpPacket) (scratch : Bytes) : Bytes :=
  let buffer := atOffset 14 newTxArpPacket scratch
  let buffer := putMac buffer 0 packet.ethPacket.source
  let buffer := putMac buffer 6 s.localMac
  let buffer := put16 buffer 12 packet.ethPacket.etherType
  let buffer := put16 buffer 20 2
  let buffer := putMac buffer 22 s.localMac
  let buffer := put32 buffer 28 s.ipAddr
  let buffer := putMac buffer 32 (readMac packet.header 8)
  let buffer := put32 buffer 38 (le32 packet.header 14)
  atOffset 14 htonArp buffer

/-- `handle_arp_packet`: the bytes of the frames that it sends. -/
def arpBytes (s : Stack) (packet : ArpPacket) (scratch : Bytes) : List (List UInt8) :=
  if packet.length < 0 then []
  else if le16 packet.header 6 = 0x0001 then
    if le32 packet.header 24 = s.ipAddr then
      (sendPacket (arpReplyBuffer s packet scratch) 42).toList
    else []
  else []

/-! ## Ping -/

/-- The reply of `handle_ping_packet` without its checksums; `header` is the memory at
`rx_ip_packet.ip_header`. -/
def echoReplyBuffer (s : Stack) (packet : IpPacket) (header scratch : Bytes) : Bytes :=
  let ip := ipHeader header
  let buffer := atOffset 14 (newTxIpPacket s.identificationCounter) scratch
  let buffer := putMac buffer 0 packet.ethPacket.source
  let buffer := putMac buffer 6 s.localMac
  let buffer := put16 buffer 12 packet.ethPacket.etherType
  let buffer := put8 buffer 23 1
  let buffer := put16 buffer 16 ip.totalLength
  let buffer := put32 buffer 26 s.ipAddr
  let buffer := put32 buffer 30 ip.sourceIp
  let buffer := put8 buffer 34 0
  let buffer := put8 buffer 35 0
  let buffer := put16 buffer 36 0
  let buffer := put16 buffer 38 (le16 header (packet.transport + 4))
  let buffer := put16 buffer 40 (le16 header (packet.transport + 6))
  let buffer := memcpy buffer 42 header (packet.transport + 8) (pingPayloadLength ip).toNat
  let buffer := put16 buffer 16 (UInt16.ofInt (pingPayloadLength ip + 20 + 8))
  let buffer := atOffset 14 htonIp buffer
  atOffset 34 htonPing buffer

/-- The checksum of the IP header. -/
def putIpChecksum (below buffer : Bytes) : Bytes :=
  put16 buffer 24 (htons (ipChecksum (pointer below buffer 14) 20))

/-- The checksum of a ping message of `length` bytes. -/
def putPingChecksum (below buffer : Bytes) (length : Int) : Bytes :=
  put16 buffer 36 (htons (ipChecksum (pointer below buffer 34) length))

/-- `handle_ping_packet`: the bytes of the frames that it sends. -/
def echoBytes (s : Stack) (packet : IpPacket) (scratch below : Bytes) :
    Option (List (List UInt8)) :=
  let header := ntohPing packet.header packet.transport
  let ip := ipHeader header
  if header packet.transport ≠ 8 ∨ header (packet.transport + 1) ≠ 0 then some []
  else if pingPayloadLength ip < 0 then none
  else
    let buffer := echoReplyBuffer s packet header scratch
    let buffer := putIpChecksum below buffer
    let buffer := putPingChecksum below buffer (pingPayloadLength ip + 8)
    let length : Int := (UInt16.ofInt (pingPayloadLength ip + 20 + 8)).toNat + 14
    some (sendPacket buffer length).toList

/-! ## TCP -/

/-- The segment of `send_tcp_packet` without its checksums.  The values of the fields are
those of `buildSegment`. -/
def segmentBuffer (s : Stack) (c : TcpConnection) (scratch : Bytes) : Bytes :=
  let segment := buildSegment c scratch
  let buffer := atOffset 14 (newTxIpPacket s.identificationCounter) scratch
  let buffer :=
    if isSyn c then
      put32 (put32 buffer 54 (htonl (0x02040000 + UInt32.ofInt MAX_SEGMENT))) 58
        (htonl 0x01030300)
    else buffer
  let buffer := putMac buffer 0 segment.destMac
  let buffer := putMac buffer 6 s.localMac
  let buffer := put16 buffer 12 0x0800
  let buffer := put16 buffer 16 segment.totalLength
  let buffer := put32 buffer 26 s.ipAddr
  let buffer := put32 buffer 30 segment.destIp
  let buffer := put16 buffer 34 segment.sourcePort
  let buffer := put16 buffer 36 segment.destPort
  let buffer := put32 buffer 38 segment.sequence
  let buffer := put32 buffer 42 segment.ack
  let buffer := put16 buffer 46 segment.offsetFlags
  let buffer := put16 buffer 48 segment.windowSize
  let buffer := put16 buffer 50 0
  let buffer := put16 buffer 52 0
  let buffer := atOffset (34 + (sendOffset c).toNat)
    (fun dest => copyFromCircleBuffer dest (sendLength c) c.txBuffer TX_MASK c.txSent
      (sendLength c)) buffer
  let buffer := atOffset 14 htonIp buffer
  atOffset 34 htonTcp buffer

/-- The rest of the pseudo header, `temp_encode`. -/
def tempEncode (tcpLength : Int) : Int → UInt8 := fun i =>
  if i = 0 then 0 else if i = 1 then 6 else if i = 2 then UInt8.ofInt (tcpLength >>> (8 : ℕ))
  else UInt8.ofInt tcpLength

/-- The checksum of a segment of `tcpLength` bytes. -/
def putTcpChecksum (below buffer : Bytes) (tcpLength : Int) : Bytes :=
  let checksum := ipChecksumAdd 0 (pointer below buffer 26) 8
  let checksum := ipChecksumAdd checksum (tempEncode tcpLength) 4
  let checksum := ipChecksumAdd checksum (pointer below buffer 34) tcpLength
  put16 buffer 50 (htons (ipChecksumFinal checksum))

/-- The branch `if (send)` of `send_tcp_packet`: the bytes of the frame. -/
def segmentBytes (s : Stack) (c : TcpConnection) (scratch below : Bytes) :
    Option (List UInt8) :=
  let buffer := segmentBuffer s c scratch
  let buffer := putIpChecksum below buffer
  let buffer := putTcpChecksum below buffer (sendOffset c + sendLength c)
  sendPacket buffer (14 + (buildSegment c scratch).totalLength.toNat)

/-- `send_tcp_packet`: the bytes of the frame that it sends. -/
def sendTcpBytes (s : Stack) (clock : Clock) (scratch below : Bytes) : Option (List UInt8) :=
  if s.tcpConn.state = .listen then none
  else (sendFrom s.tcpConn clock).bind fun c => segmentBytes s c scratch below

end EthTransfer
