import EthTransfer.Lib.Word

/-!
# Data types of the IP stack

The types and constants of `ip_stack_local.h`.  A block of memory is a
function from offsets to bytes.  The fields that the C code declares
`uint32_t`, `uint16_t` or `uint8_t` keep their width, because the code relies
on wrapping arithmetic.  An `int` is a Lean `Int`: where the code assigns a
`uint32_t` to an `int` or compares the two, the model converts with
`Word.toInt` and `UInt32.ofInt`.

`TcpConnection.rxSegments` holds the first `segment_count` entries of the array
`rx_segments`, so its length is `segment_count`.
-/

namespace EthTransfer

/-- A block of memory. -/
abbrev Bytes := ℕ → UInt8

/-! ## Constants -/

def TCP_WINDOW : UInt32 := 0x1000
def RX_MASK : UInt32 := 0x1FFF
def TX_MASK : UInt32 := RX_MASK
def BUFFER_SIZE : UInt32 := 0x1000
def MAX_SEGMENT : Int := 1400
def SEG_MASK : ℕ := 0x1F
def PACKET_MAX_SIZE : Int := 2048
def ACK_TIMEOUT : Int := 20

def TCP_ACK : UInt16 := 0x10
def TCP_RST : UInt16 := 0x04
def TCP_SYN : UInt16 := 0x02
def TCP_FIN : UInt16 := 0x01

/-- The value of `rx_fin` and `tx_fin` as long as no FIN is known. -/
def NO_FIN : UInt32 := 0xFFFFFFFF

/-! ## The connection -/

/-- The `TCP_*` states. -/
inductive TcpState where
  | listen
  | synReceived
  | synAckSent
  | connected
  | rxClosed
  | txClosed
  | bothClosed
  | sendRst
  | dataToRead
  deriving DecidableEq, Repr

/-- The number that stands for a state. -/
def TcpState.code : TcpState → ℕ
  | listen => 0
  | synReceived => 1
  | synAckSent => 2
  | connected => 3
  | rxClosed => 4
  | txClosed => 5
  | bothClosed => 6
  | sendRst => 7
  | dataToRead => 8

/-- A received segment that waits for the bytes before it. -/
structure TcpSegment where
  position : UInt32
  length : UInt32
  deriving DecidableEq, Repr

/-- A hardware address, `char mac[6]`. -/
structure EthMac where
  mac : Vector UInt8 6
  deriving DecidableEq, Repr

/-- The state of the one TCP connection.  Offsets such as `rxWrite` and
`txSent` count from the initial sequence number of their direction, so offset
0 is the SYN and offset 1 the first byte. -/
structure TcpConnection where
  connectionId : Int
  rxBuffer : Bytes
  txBuffer : Bytes
  state : TcpState
  localPort : UInt16
  localSequence : UInt32
  remoteMac : EthMac
  remotePort : UInt16
  remoteIp : UInt32
  remoteSequence : UInt32
  remoteWindowScale : ℕ
  remoteWindow : UInt32
  remoteMaxSegment : UInt32
  rxWrite : UInt32
  rxRead : UInt32
  rxAcked : UInt32
  rxWindow : UInt32
  rxFin : UInt32
  txWrite : UInt32
  txSent : UInt32
  txAcked : UInt32
  txLimit : UInt32
  txFin : UInt32
  ackTimeout : Int
  rxSegments : List TcpSegment

/-! ## Received packets -/

/-- The fields of an IP header, in host order. -/
structure IpHeader where
  versionIhl : UInt8
  totalLength : UInt16
  protocol : UInt8
  sourceIp : UInt32
  destIp : UInt32

/-- The fields of a TCP header, in host order, and the memory that starts at
the header.  Options and payload are read from that memory. -/
structure TcpHeader where
  sourcePort : UInt16
  destPort : UInt16
  sequence : UInt32
  ack : UInt32
  offsetFlags : UInt16
  windowSize : UInt16
  bytes : Bytes

/-- What `handle_tcp_packet` reads of a packet once `ntoh_tcp` has run. -/
structure TcpPacket where
  sourceMac : EthMac
  ip : IpHeader
  tcp : TcpHeader

/-- Whether a flag is set. -/
def TcpHeader.has (header : TcpHeader) (flag : UInt16) : Bool :=
  header.offsetFlags &&& flag != 0

/-- The length of the TCP header in bytes, from its offset field. -/
def TcpHeader.dataOffset (header : TcpHeader) : Int :=
  (header.offsetFlags >>> 12).toNat * 4

/-- The length of the IP header in words. -/
def IpHeader.ihl (header : IpHeader) : Int :=
  (header.versionIhl &&& 0x0F).toNat

/-- `data_length` of `handle_tcp_packet`.  It is negative when the headers
claim more than the packet holds. -/
def TcpPacket.dataLength (packet : TcpPacket) : Int :=
  packet.ip.totalLength.toNat - 4 * packet.ip.ihl - packet.tcp.dataOffset

/-- The payload of a packet, `((uint8_t*) tcp_header) + data_offset`. -/
def TcpPacket.payload (packet : TcpPacket) : Bytes :=
  fun i => packet.tcp.bytes (packet.tcp.dataOffset.toNat + i)

/-! ## The stack -/

/-- The global variables of `ip_stack.c`, and the hardware address of the
driver. -/
structure Stack where
  localMac : EthMac
  ipAddr : UInt32
  identificationCounter : UInt16
  connectionCounter : Int
  baseTime : Int
  baseTimeSet : Bool
  tcpConn : TcpConnection

end EthTransfer
