import EthTransfer.Frames.Copies
import EthTransfer.Frames.Wire
import EthTransfer.Frames.OptionCut

/-!
# What lies behind the frame

The memory behind a received frame holds what the stack held before.  `DecidesAlone` says
that it makes no difference to a frame: every state handles the frame alike, whatever lies
behind it.

`new_ip_packet` compares the length of the frame with the lengths in the IP header, and
nothing compares it with the headers of ping and TCP.  `FrameSettled` says that the frame
holds what these functions read.

* `SameFrame.newIpPacket`: the IP header is always inside the frame.
* `handlePingPacket_alike` and `handleTcpPacket_settled`: what is read is the same.
* `HandlerGets.ping_varies` and `HandlerGets.tcp_varies`: what else may lie behind the frame.
* `decidesAlone_iff`: the memory behind the frame makes no difference exactly when the
  frame is settled.
-/

namespace EthTransfer

open RingBuffer

/-! ## The same frame -/

/-- The same frame, with other memory behind it. -/
structure SameFrame (frame other : RxFrame) : Prop where
  length : other.packet.length = frame.packet.length
  bytes : SameUpTo frame.packet.length.toNat frame.packet.buffer other.packet.buffer
  rand : other.rand = frame.rand

/-- What lies behind the frame makes no difference. -/
def DecidesAlone (frame : RxFrame) : Prop :=
  ∀ (s : Stack) (other : RxFrame), SameFrame frame other →
    handleRxPacket s other = handleRxPacket s frame

/-- The same IP packet, of which the frame holds `n` bytes. -/
structure SamePacket (n : ℕ) (packet other : IpPacket) : Prop where
  header : SameUpTo n packet.header other.header
  transport : other.transport = packet.transport
  length : other.length = packet.length
  source : other.ethPacket.source = packet.ethPacket.source

section Frame

variable {frame other : RxFrame} {n : ℕ}

/-- A frame with less than an Ethernet and an IP header is dropped. -/
theorem handleRxPacket_short (s : Stack) (hshort : frame.packet.length < 34) :
    handleRxPacket s frame = some (s, []) := by
  unfold handleRxPacket
  cases frame.packet.type with
  | unknown => rfl
  | arp =>
    have hinvalid : (newArpPacket frame.packet).length = -1 := by
      unfold newArpPacket
      simp [show ¬ (42 ≤ frame.packet.length) by omega]
    dsimp only
    rw [handleArpPacket, hinvalid, if_pos (by decide)]
  | ip =>
    have hinvalid : (newIpPacket frame.packet).length < 0 := by
      by_contra haccepted
      have haccepted := newIpPacket_accepted haccepted
      omega
    dsimp only
    rw [handleIpPacket, if_pos hinvalid]

theorem SameFrame.type (hsame : SameFrame frame other) (hlong : 34 ≤ frame.packet.length) :
    other.packet.type = frame.packet.type := by
  have hether : le16 (swap16 frame.packet.buffer 12) 12 =
      le16 (swap16 other.packet.buffer 12) 12 :=
    (hsame.bytes.swap16 (by omega)).le16 (by omega)
  unfold EthPacket.type
  rw [hsame.length, hether]

theorem SameFrame.data (hsame : SameFrame frame other) (hn : frame.packet.length = 14 + n) :
    SameUpTo n frame.packet.data other.packet.data :=
  hsame.bytes.shift 14 (by omega)

theorem SameFrame.source (hsame : SameFrame frame other) (hlong : 34 ≤ frame.packet.length) :
    other.packet.source = frame.packet.source :=
  (hsame.bytes.readMac (by omega)).symm

/-- The IP header is in the frame. -/
theorem SameFrame.newIpPacket (hsame : SameFrame frame other)
    (hn : frame.packet.length = 14 + n) (hheader : 20 ≤ n) :
    SamePacket n (newIpPacket frame.packet) (newIpPacket other.packet) := by
  have hheaders : SameUpTo n (ntohIp frame.packet.data) (ntohIp other.packet.data) :=
    (hsame.data hn).ntohIp hheader
  have hip := hheaders.ipHeader hheader
  refine ⟨hheaders, ?_, ?_, hsame.source (by omega)⟩
  · unfold EthTransfer.newIpPacket
    dsimp only
    rw [hip]
  · unfold EthTransfer.newIpPacket
    dsimp only
    rw [hip, hsame.length]

/-- An ARP packet is in the frame. -/
theorem handleArpPacket_alike (s : Stack) (hsame : SameFrame frame other)
    (hlong : 34 ≤ frame.packet.length) :
    handleArpPacket s (newArpPacket other.packet) =
      handleArpPacket s (newArpPacket frame.packet) := by
  by_cases hshort : frame.packet.length < 42
  · have hinvalid : ∀ packet : EthPacket, packet.length < 42 →
        handleArpPacket s (newArpPacket packet) = [] := by
      intro packet hpacket
      have hlength : (newArpPacket packet).length = -1 := by
        unfold newArpPacket
        simp [show ¬ (42 ≤ packet.length) by omega]
      rw [handleArpPacket, hlength, if_pos (by decide)]
    rw [hinvalid _ hshort, hinvalid _ (hsame.length ▸ hshort)]
  · obtain ⟨n, hn⟩ := Int.eq_ofNat_of_zero_le (show 0 ≤ frame.packet.length - 14 by omega)
    have hheaders : SameUpTo n (ntohArp frame.packet.data) (ntohArp other.packet.data) :=
      (hsame.data (by omega)).ntohArp (by omega)
    simp only [handleArpPacket, newArpPacket, hsame.length, hsame.source hlong,
      hheaders.le16 (i := 0) (by omega), hheaders.le16 (i := 2) (by omega),
      hheaders.le16 (i := 6) (by omega), hheaders.le32 (i := 14) (by omega),
      hheaders.le32 (i := 24) (by omega), hheaders.readMac (i := 8) (by omega),
      hheaders 4 (by omega), hheaders 5 (by omega)]

end Frame

/-! ## What a frame settles -/

/-- How much of the frame lies behind the IP header. -/
def IpPacket.rest (packet : IpPacket) : Int := packet.ethPacket.length - 14 - packet.transport

/-- Type and code of a ping are in the frame, or the type alone is and is not that of a
request. -/
def PingSettled (packet : IpPacket) : Prop :=
  2 ≤ packet.rest ∨ packet.rest = 1 ∧ packet.header packet.transport ≠ 8

/-- The destination port is in the frame and is not 80, or its first byte alone is and is
not that of 80. -/
def OtherPort (packet : IpPacket) : Prop :=
  4 ≤ packet.rest ∧ packet.tcpPacket.tcp.destPort ≠ 80 ∨
    packet.rest = 3 ∧ packet.header (packet.transport + 2) ≠ 0

/-- The frame holds what `handle_tcp_packet` reads of a segment: the flags, for a SYN the
window and the options, and for an acknowledgement with a length in range the window.  The
payload is inside as well, but `ntoh_tcp` exchanges the two bytes of the urgent pointer,
and with a short offset the payload can end with the first of them. -/
structure SegmentSettled (packet : IpPacket) : Prop where
  flags : 14 ≤ packet.rest
  syn : packet.tcpPacket.tcp.has TCP_RST = false → packet.tcpPacket.tcp.has TCP_SYN = true →
    packet.tcpPacket.tcp.has TCP_ACK = false → 16 ≤ packet.rest ∧
      OptionsSettled (fun i => packet.tcpPacket.tcp.bytes (20 + i)) (packet.rest - 20).toNat
        (packet.tcpPacket.tcp.dataOffset - 20)
  ack : packet.tcpPacket.tcp.has TCP_RST = false → packet.tcpPacket.tcp.has TCP_SYN = false →
    packet.tcpPacket.tcp.has TCP_ACK = true → 0 ≤ packet.tcpPacket.dataLength →
      packet.tcpPacket.dataLength ≤ MAX_SEGMENT → 16 ≤ packet.rest ∧
        (packet.rest = 19 →
          packet.tcpPacket.tcp.dataOffset + packet.tcpPacket.dataLength ≠ 19)

/-- The frame holds what its handler reads, or what settles that it is dropped. -/
def FrameSettled (frame : RxFrame) : Prop :=
  frame.packet.type = .ip → ¬ (newIpPacket frame.packet).length < 0 →
    ((newIpPacket frame.packet).header 9 = 1 → PingSettled (newIpPacket frame.packet)) ∧
    ((newIpPacket frame.packet).header 9 = 6 → OtherPort (newIpPacket frame.packet) ∨
      SegmentSettled (newIpPacket frame.packet))

/-! ## Settled frames -/

section Ping

variable {s : Stack} {packet : EthPacket} {other : IpPacket} {n : ℕ}

theorem handlePingPacket_of_not_request
    (h : other.header other.transport ≠ 8 ∨ other.header (other.transport + 1) ≠ 0) :
    handlePingPacket s other = some (s, []) := by
  unfold handlePingPacket
  dsimp only
  rw [ntohPing_of_lt _ (by omega), ntohPing_of_lt _ (by omega), if_pos h]

/-- A request shorter than its header. -/
theorem handlePingPacket_short
    (htype : (newIpPacket packet).header (newIpPacket packet).transport = 8)
    (hcode : (newIpPacket packet).header ((newIpPacket packet).transport + 1) = 0)
    (hshort : pingPayloadLength (ipHeader (newIpPacket packet).header) < 0) :
    handlePingPacket s (newIpPacket packet) = none := by
  have hpos : 2 ≤ (newIpPacket packet).transport := by
    apply transport_pos_of_echo
    rw [ntohPing_of_lt _ (by omega), htype]
  unfold handlePingPacket
  dsimp only
  rw [ntohPing_of_lt _ (by omega), ntohPing_of_lt _ (by omega), htype, hcode,
    if_neg (by decide), pingPayloadLength_ntohPing _ hpos, if_pos hshort]

/-- Behind the type and the code of a request, its length covers all that is read. -/
theorem handlePingPacket_alike (hsame : SamePacket n (newIpPacket packet) other)
    (hn : packet.length = 14 + n) (hheader : 20 ≤ n)
    (haccepted : ¬ (newIpPacket packet).length < 0)
    (hsettled : PingSettled (newIpPacket packet)) :
    handlePingPacket s other = handlePingPacket s (newIpPacket packet) := by
  have htransport := newIpPacket_transport packet
  have htotal := (newIpPacket_accepted haccepted).2
  have hrest : (newIpPacket packet).rest = n - (newIpPacket packet).transport := by
    change packet.length - 14 - ((newIpPacket packet).transport : Int) = _
    omega
  unfold PingSettled at hsettled
  have htype := hsame.header (newIpPacket packet).transport (by omega)
  by_cases hecho : (newIpPacket packet).header (newIpPacket packet).transport ≠ 8 ∨
      (newIpPacket packet).header ((newIpPacket packet).transport + 1) ≠ 0
  · rw [handlePingPacket_of_not_request hecho]
    apply handlePingPacket_of_not_request
    rw [hsame.transport, ← htype]
    rcases hsettled with htwo | ⟨-, hne⟩
    · rwa [← hsame.header _ (by omega)]
    · exact Or.inl hne
  have htwo : 2 ≤ (newIpPacket packet).rest := by
    rcases hsettled with htwo | ⟨-, hne⟩
    · exact htwo
    · exact absurd (Or.inl hne) hecho
  have hcode := hsame.header ((newIpPacket packet).transport + 1) (by omega)
  have hpos : 2 ≤ (newIpPacket packet).transport := by
    apply transport_pos_of_echo
    rw [ntohPing_of_lt _ (by omega)]
    tauto
  have hlength : pingPayloadLength (ipHeader (ntohPing other.header
      (newIpPacket packet).transport)) = pingPayloadLength (ipHeader (newIpPacket packet).header) :=
    (pingPayloadLength_ntohPing _ hpos).trans
      (congrArg pingPayloadLength (hsame.header.ipHeader hheader).symm)
  unfold handlePingPacket
  rw [hsame.transport, hsame.source]
  dsimp only
  rw [ntohPing_of_lt _ (by omega), ntohPing_of_lt _ (by omega), ntohPing_of_lt _ (by omega),
    ntohPing_of_lt _ (by omega), ← htype, ← hcode, if_neg hecho, if_neg hecho, hlength,
    pingPayloadLength_ntohPing _ hpos]
  by_cases hneg : pingPayloadLength (ipHeader (newIpPacket packet).header) < 0
  · rw [if_pos hneg, if_pos hneg]
  rw [if_neg hneg, if_neg hneg]
  unfold pingPayloadLength at hneg
  have hping : SameUpTo n (ntohPing (newIpPacket packet).header (newIpPacket packet).transport)
      (ntohPing other.header (newIpPacket packet).transport) :=
    hsame.header.ntohPing (by omega)
  have hpayload : (List.range (pingPayloadLength
        (ipHeader (newIpPacket packet).header)).toNat).map (fun i =>
          ntohPing other.header (newIpPacket packet).transport
            ((newIpPacket packet).transport + 8 + i)) =
      (List.range (pingPayloadLength (ipHeader (newIpPacket packet).header)).toNat).map fun i =>
          ntohPing (newIpPacket packet).header (newIpPacket packet).transport
            ((newIpPacket packet).transport + 8 + i) := by
    refine List.map_congr_left fun i hi => (hping _ ?_).symm
    have hlt := List.mem_range.mp hi
    unfold pingPayloadLength at hlt
    omega
  rw [hpayload, ← hping.ipHeader hheader, ← hping.le16 (by omega), ← hping.le16 (by omega)]

end Ping

/-- The segment with what may lie behind the frame: the window, the options and the
payload. -/
def TcpPacket.withBehind (packet : TcpPacket) (windowSize : UInt16) (bytes : Bytes) : TcpPacket :=
  { packet with tcp := { packet.tcp with windowSize := windowSize, bytes := bytes } }

section Segment

variable {s : Stack} {c : TcpConnection} {packet : TcpPacket} {bytes : Bytes}

@[simp] theorem TcpPacket.withBehind_destPort (windowSize : UInt16) :
    (packet.withBehind windowSize bytes).tcp.destPort = packet.tcp.destPort := rfl

@[simp] theorem TcpPacket.withBehind_has (windowSize flag : UInt16) :
    (packet.withBehind windowSize bytes).tcp.has flag = packet.tcp.has flag := rfl

@[simp] theorem TcpPacket.withBehind_dataOffset (windowSize : UInt16) :
    (packet.withBehind windowSize bytes).tcp.dataOffset = packet.tcp.dataOffset := rfl

@[simp] theorem TcpPacket.withBehind_windowSize (windowSize : UInt16) :
    (packet.withBehind windowSize bytes).tcp.windowSize = windowSize := rfl

/-- A payload is stored alike when its bytes are the same. -/
theorem addSegment_alike {data data' : Bytes} {length : ℕ} (hsame : SameUpTo length data data')
    (hlength : length < RING) (dest : UInt32) :
    addSegment c data' length dest = addSegment c data length dest := by
  have hcopy : copyToCircleBuffer c.rxBuffer RX_MASK dest data' length length =
      copyToCircleBuffer c.rxBuffer RX_MASK dest data length length := by
    rw [copyToCircleBuffer_ring _ _ _ hlength, copyToCircleBuffer_ring _ _ _ hlength]
    exact (store_congr hsame).symm
  unfold addSegment
  rw [hcopy]

theorem receiveSegment_alike
    (hpayload : Accepts c packet → SameUpTo packet.dataLength.toNat packet.payload
      (packet.withBehind packet.tcp.windowSize bytes).payload) :
    receiveSegment c (packet.withBehind packet.tcp.windowSize bytes) =
      receiveSegment c packet := by
  by_cases haccepts : Accepts c packet
  · obtain ⟨length, hlength, hmax⟩ := haccepts.exists_length
    have hsame := hpayload haccepts
    rw [hlength, Int.toNat_natCast] at hsame
    have haccepts' : Accepts c (packet.withBehind packet.tcp.windowSize bytes) :=
      ⟨haccepts.1, haccepts.2, haccepts.3, haccepts.4, haccepts.5⟩
    have hlength' : (packet.withBehind packet.tcp.windowSize bytes).dataLength = length := hlength
    rw [receiveSegment_of_accepts haccepts, receiveSegment_of_accepts haccepts', hlength,
      hlength', addSegment_alike hsame (show length < 8192 by omega)]
    rfl
  · have haccepts' : ¬ Accepts c (packet.withBehind packet.tcp.windowSize bytes) :=
      fun h => haccepts ⟨h.1, h.2, h.3, h.4, h.5⟩
    rw [receiveSegment_of_not_accepts haccepts, receiveSegment_of_not_accepts haccepts']

theorem acceptOptions_withBehind (rand : Rand) (maxSegment windowScale : Option Int) :
    acceptOptions s (packet.withBehind packet.tcp.windowSize bytes) rand maxSegment windowScale =
      acceptOptions s packet rand maxSegment windowScale := rfl

theorem acceptSyn_alike {known : ℕ}
    (hflags : (packet.tcp.has TCP_SYN && !packet.tcp.has TCP_ACK) = true)
    (hsettled : OptionsSettled (fun i => packet.tcp.bytes (20 + i)) known
      (packet.tcp.dataOffset - 20))
    (hsame : SameUpTo known (fun i => packet.tcp.bytes (20 + i)) fun i => bytes (20 + i))
    (rand : Rand) :
    acceptSyn s (packet.withBehind packet.tcp.windowSize bytes) rand =
      acceptSyn s packet rand := by
  obtain ⟨outcome, houtcome⟩ := hsettled.outcome s packet rand
  rw [acceptSyn_eq_acceptOptions s packet rand hflags, houtcome _ fun _ _ => rfl]
  exact (acceptSyn_eq_acceptOptions s (packet.withBehind packet.tcp.windowSize bytes) rand
    hflags).trans (houtcome _ hsame)

/-- Only an opening SYN and a segment that passes the checks are read behind the flags. -/
theorem handleTcpPacket_alike {windowSize : UInt16} {rand : Rand}
    (hsyn : packet.tcp.destPort = 80 → packet.tcp.has TCP_RST = false →
      (packet.tcp.has TCP_SYN && !packet.tcp.has TCP_ACK) = true →
        acceptSyn s (packet.withBehind windowSize bytes) rand = acceptSyn s packet rand)
    (hack : packet.tcp.destPort = 80 → packet.tcp.has TCP_RST = false →
      Accepts s.tcpConn packet →
        receiveSegment s.tcpConn (packet.withBehind windowSize bytes) =
          receiveSegment s.tcpConn packet) :
    handleTcpPacket s (packet.withBehind windowSize bytes) rand =
      handleTcpPacket s packet rand := by
  have hmatch : connectionMatch s.ipAddr s.tcpConn (packet.withBehind windowSize bytes) =
      connectionMatch s.ipAddr s.tcpConn packet := rfl
  have hheader : ∀ flag, (packet.withBehind windowSize bytes).tcp.has flag =
      packet.tcp.has flag := fun _ => rfl
  have hdest : (packet.withBehind windowSize bytes).tcp.destPort = packet.tcp.destPort := rfl
  unfold handleTcpPacket
  rw [hdest, hmatch, hheader]
  by_cases hport : packet.tcp.destPort ≠ 80
  · rw [if_pos hport, if_pos hport]
  rw [if_neg hport, if_neg hport]
  by_cases hother : s.tcpConn.state ≠ .listen ∧ (!connectionMatch s.ipAddr s.tcpConn packet) = true
  · rw [if_pos hother, if_pos hother]
  rw [if_neg hother, if_neg hother]
  by_cases hrst : packet.tcp.has TCP_RST = true
  · rw [if_pos hrst, if_pos hrst]
  rw [if_neg hrst, if_neg hrst]
  have hno : packet.tcp.has TCP_RST = false := by simpa using hrst
  by_cases hlisten : s.tcpConn.state = .listen
  · rw [if_pos hlisten, if_pos hlisten]
    by_cases hflags : (packet.tcp.has TCP_SYN && !packet.tcp.has TCP_ACK) = true
    · exact hsyn (not_not.mp hport) hno hflags
    · exact (if_neg hflags).trans (if_neg hflags).symm
  · rw [if_neg hlisten, if_neg hlisten]
    by_cases haccepts : Accepts s.tcpConn packet
    · rw [hack (not_not.mp hport) hno haccepts]
    · have haccepts' : ¬ Accepts s.tcpConn (packet.withBehind windowSize bytes) :=
        fun h => haccepts ⟨h.1, h.2, h.3, h.4, h.5⟩
      rw [receiveSegment_of_not_accepts haccepts, receiveSegment_of_not_accepts haccepts']

end Segment

section Tcp

variable {s : Stack} {packet : EthPacket} {other : IpPacket} {n k : ℕ}

/-- The TCP header up to the flags, when the frame holds it. -/
theorem SamePacket.tcpPacket {packet : IpPacket} (hsame : SamePacket n packet other)
    (hk : k ≤ n) (hheader : 20 ≤ k) (hflags : packet.transport + 14 ≤ k)
    (hwindow : k ≠ packet.transport + 15) (hurgent : k ≠ packet.transport + 19) :
    other.tcpPacket = packet.tcpPacket.withBehind other.tcpPacket.tcp.windowSize
      other.tcpPacket.tcp.bytes := by
  have htcp : SameUpTo k (ntohTcp packet.header packet.transport)
      (ntohTcp other.header packet.transport) :=
    (hsame.header.mono hk).ntohTcp hflags hwindow hurgent
  unfold TcpPacket.withBehind IpPacket.tcpPacket
  rw [hsame.transport, hsame.source]
  dsimp only
  rw [htcp.ipHeader hheader, htcp.le16 (by omega), htcp.le16 (by omega), htcp.le16 (by omega),
    htcp.le32 (by omega), htcp.le32 (by omega)]

theorem rest_eq (hn : packet.length = 14 + n) :
    (newIpPacket packet).rest = n - (newIpPacket packet).transport := by
  change packet.length - 14 - ((newIpPacket packet).transport : Int) = _
  omega

/-- The longest part of the frame that no word of the TCP header crosses. -/
theorem exists_whole (packet : EthPacket) (hheader : 20 ≤ n)
    (hflags : (newIpPacket packet).transport + 14 ≤ n) :
    ∃ k ≤ n, 20 ≤ k ∧ (newIpPacket packet).transport + 14 ≤ k ∧
      k ≠ (newIpPacket packet).transport + 15 ∧ k ≠ (newIpPacket packet).transport + 19 ∧
      (k = n ∨ n = (newIpPacket packet).transport + 15 ∨
        n = (newIpPacket packet).transport + 19 ∧ k = (newIpPacket packet).transport + 18) := by
  have htransport := newIpPacket_transport packet
  by_cases hwindow : n = (newIpPacket packet).transport + 15
  · exact ⟨(newIpPacket packet).transport + 14, by omega⟩
  by_cases hurgent : n = (newIpPacket packet).transport + 19
  · exact ⟨(newIpPacket packet).transport + 18, by omega⟩
  · exact ⟨n, by omega⟩

theorem SamePacket.windowSize {packet : IpPacket} (hsame : SamePacket n packet other)
    (hwindow : packet.transport + 16 ≤ n) :
    other.tcpPacket.tcp.windowSize = packet.tcpPacket.tcp.windowSize := by
  rw [windowSize_eq, windowSize_eq, hsame.transport, be16, be16,
    hsame.header (packet.transport + 14) (by omega),
    hsame.header (packet.transport + 14 + 1) (by omega)]

/-- Without its port in the frame, or with another, a segment is dropped. -/
theorem OtherPort.destPort_ne (hsame : SamePacket n (newIpPacket packet) other)
    (hn : packet.length = 14 + n) (hother : OtherPort (newIpPacket packet)) :
    other.tcpPacket.tcp.destPort ≠ 80 := by
  have hrest := rest_eq hn
  rcases hother with ⟨hfour, hport⟩ | ⟨hthree, hhigh⟩
  · rw [destPort_eq] at hport ⊢
    rw [hsame.transport]
    unfold be16 at hport ⊢
    rwa [← hsame.header _ (by omega), ← hsame.header _ (by omega)]
  · intro hport
    have hvalue := congrArg UInt16.toNat hport
    rw [destPort_eq, toNat_be16, hsame.transport, ← hsame.header _ (by omega)] at hvalue
    change _ = 80 at hvalue
    exact hhigh (UInt8.toNat_inj.mp (show _ = 0 by omega))

/-- A settled segment is handled alike. -/
theorem handleTcpPacket_settled (hsame : SamePacket n (newIpPacket packet) other)
    (hn : packet.length = 14 + n) (hheader : 20 ≤ n)
    (hdelivered : packet.length ≤ PACKET_MAX_SIZE - 4)
    (haccepted : ¬ (newIpPacket packet).length < 0)
    (hsettled : OtherPort (newIpPacket packet) ∨ SegmentSettled (newIpPacket packet))
    (rand : Rand) :
    handleTcpPacket s other.tcpPacket rand =
      handleTcpPacket s (newIpPacket packet).tcpPacket rand := by
  have hrest := rest_eq hn
  have htransport := newIpPacket_transport packet
  have htotal := (newIpPacket_accepted haccepted).2
  rcases hsettled with hother | hsettled
  · have hself : SamePacket n (newIpPacket packet) (newIpPacket packet) :=
      ⟨fun _ _ => rfl, rfl, rfl, rfl⟩
    exact (if_pos (hother.destPort_ne hsame hn)).trans
      (if_pos (hother.destPort_ne hself hn)).symm
  have hflags := hsettled.flags
  obtain ⟨k, hk, hheader', hflags', hwindow, hurgent, hwhole⟩ :=
    exists_whole packet hheader (by omega)
  rw [hsame.tcpPacket hk hheader' hflags' hwindow hurgent]
  apply handleTcpPacket_alike
  · intro hport hrst hbare
    simp only [Bool.and_eq_true, Bool.not_eq_true'] at hbare
    obtain ⟨hsixteen, hoptions⟩ := hsettled.syn hrst hbare.1 hbare.2
    rw [hsame.windowSize (by omega)]
    refine acceptSyn_alike (by simp [hbare]) hoptions ?_ rand
    intro i hi
    change ntohTcp (newIpPacket packet).header _ _ = ntohTcp other.header _ _
    rw [ntohTcp_of_le _ (by omega), hsame.transport, ntohTcp_of_le _ (by omega)]
    exact hsame.header _ (by omega)
  · intro hport hrst haccepts
    obtain ⟨hsixteen, hend⟩ := hsettled.ack hrst haccepts.no_syn haccepts.ack haccepts.nonneg
      haccepts.le_max
    rw [hsame.windowSize (by omega)]
    refine receiveSegment_alike fun _ i hi => ?_
    have hlength := dataLength_tcpPacket _ (transport_pos_of_port hdelivered haccepted hport)
    have hoffset := (newIpPacket packet).tcpPacket.tcp.dataOffset_bounds.1
    change ntohTcp (newIpPacket packet).header _ _ = ntohTcp other.header _ _
    rw [hsame.transport]
    refine ((hsame.header.mono hk).ntohTcp hflags' hwindow hurgent) _ ?_
    omega

end Tcp

/-- What lies behind a settled frame makes no difference. -/
theorem FrameSettled.decidesAlone {frame : RxFrame}
    (hdelivered : frame.packet.length ≤ PACKET_MAX_SIZE - 4) (hsettled : FrameSettled frame) :
    DecidesAlone frame := by
  intro s other hsame
  by_cases hshort : frame.packet.length < 34
  · rw [handleRxPacket_short s hshort, handleRxPacket_short s (hsame.length ▸ hshort)]
  obtain ⟨n, hn⟩ := Int.eq_ofNat_of_zero_le (show 0 ≤ frame.packet.length - 14 by omega)
  have hpacket := hsame.newIpPacket (show frame.packet.length = 14 + n by omega) (by omega)
  unfold handleRxPacket
  rw [hsame.type (by omega)]
  cases htype : frame.packet.type with
  | unknown => rfl
  | arp => exact congrArg _ (congrArg _ (handleArpPacket_alike s hsame (by omega)))
  | ip =>
    dsimp only
    unfold handleIpPacket
    rw [hpacket.length, hsame.rand, ← hpacket.header 9 (by omega)]
    by_cases haccepted : (newIpPacket frame.packet).length < 0
    · rw [if_pos haccepted, if_pos haccepted]
    rw [if_neg haccepted, if_neg haccepted]
    obtain ⟨hping, htcp⟩ := hsettled htype haccepted
    by_cases hprotocol : (newIpPacket frame.packet).header 9 = 1
    · rw [if_pos hprotocol, if_pos hprotocol]
      exact handlePingPacket_alike hpacket (by omega) (by omega) haccepted (hping hprotocol)
    rw [if_neg hprotocol, if_neg hprotocol]
    by_cases hprotocol' : (newIpPacket frame.packet).header 9 = 6
    · rw [if_pos hprotocol', if_pos hprotocol',
        handleTcpPacket_settled hpacket (by omega) (by omega) hdelivered haccepted
          (htcp hprotocol')]
    · rw [if_neg hprotocol', if_neg hprotocol']

/-! ## Other frames -/

/-- The frame with `behind` behind it, where the offsets count from the IP header. -/
def RxFrame.refill (frame : RxFrame) (behind : Bytes) : RxFrame :=
  { frame with
    packet :=
      { frame.packet with
        buffer := splice frame.packet.length.toNat frame.packet.buffer fun i => behind (i - 14) } }

/-- The segment that the frame holds, with `behind` behind it. -/
def RxFrame.segment (frame : RxFrame) (behind : Bytes) : TcpPacket :=
  (newIpPacket (frame.refill behind).packet).tcpPacket

section Refill

variable {frame : RxFrame} {n : ℕ} {s : Stack} {behind : Bytes}

theorem refill_same (frame : RxFrame) (behind : Bytes) : SameFrame frame (frame.refill behind) where
  length := rfl
  bytes := splice_same _ _ _
  rand := rfl

theorem not_decidesAlone {behind' : Bytes} {result result' : Option (Stack × List TxFrame)}
    (h : handleRxPacket s (frame.refill behind) = result)
    (h' : handleRxPacket s (frame.refill behind') = result') (hne : result ≠ result') :
    ¬ DecidesAlone frame := by
  intro halone
  rw [halone s _ (refill_same frame _)] at h h'
  exact hne (h.symm.trans h')

theorem refill_header (hn : frame.packet.length = 14 + n) (hheader : 20 ≤ n) :
    (newIpPacket (frame.refill behind).packet).header =
      splice n (newIpPacket frame.packet).header behind := by
  funext i
  unfold splice
  split
  · rename_i hi
    exact (((refill_same frame behind).newIpPacket hn hheader).header i hi).symm
  · rename_i hi
    refine (ntohIp_of_le _ (by omega)).trans ?_
    change splice frame.packet.length.toNat frame.packet.buffer (fun i => behind (i - 14))
      (14 + i) = _
    rw [splice_of_le _ _ (by omega), Nat.add_sub_cancel_left]

end Refill

/-- A stack with an open connection for the segment, which has read all that came before. -/
def openStack (packet : TcpPacket) : Stack :=
  { listeningStack with
    ipAddr := packet.ip.destIp
    tcpConn :=
      { listeningStack.tcpConn with
        state := .connected
        localPort := 80
        remotePort := packet.tcp.sourcePort
        remoteIp := packet.ip.sourceIp
        remoteSequence := packet.tcp.sequence - 1
        rxWrite := 1
        rxRead := 1 } }

/-- A SYN that may open a connection. -/
structure BareSyn (packet : TcpPacket) : Prop where
  port : packet.tcp.destPort = 80
  rst : packet.tcp.has TCP_RST = false
  flags : (packet.tcp.has TCP_SYN && !packet.tcp.has TCP_ACK) = true

/-- An acknowledgement with a length that a connection accepts. -/
structure PlainAck (packet : TcpPacket) : Prop where
  port : packet.tcp.destPort = 80
  rst : packet.tcp.has TCP_RST = false
  syn : packet.tcp.has TCP_SYN = false
  ack : packet.tcp.has TCP_ACK = true
  nonneg : 0 ≤ packet.dataLength
  le_max : packet.dataLength ≤ MAX_SEGMENT

section OpenStack

variable {packet : TcpPacket} (hplain : PlainAck packet) (windowSize : UInt16) (bytes : Bytes)

include hplain

theorem openStack_addressed :
    Addressed (openStack packet).ipAddr (openStack packet).tcpConn
      (packet.withBehind windowSize bytes) where
  port := hplain.port
  tuple := by
    unfold connectionMatch TcpPacket.withBehind openStack
    simp [hplain.port]

theorem openStack_accepts :
    Accepts (openStack packet).tcpConn (packet.withBehind windowSize bytes) where
  nonneg := hplain.nonneg
  le_max := hplain.le_max
  window := by
    have hmax := hplain.le_max
    obtain ⟨length, hlength⟩ := Int.eq_ofNat_of_zero_le hplain.nonneg
    change (1 : UInt32) + UInt32.ofInt packet.dataLength ≤ 1 + TCP_WINDOW
    rw [hlength] at hmax ⊢
    unfold MAX_SEGMENT at hmax
    rw [Word.ofInt_natCast, UInt32.le_iff_toNat_le]
    have hsum := Word.toNat_add_ofNat_le 1 length
    change _ ≤ 1 + length at hsum
    change _ ≤ 4097
    omega
  no_syn := hplain.syn
  ack := hplain.ack

/-- The connection takes over the window. -/
theorem openStack_window :
    (tcpInput (openStack packet).ipAddr (openStack packet).tcpConn
      (packet.withBehind windowSize bytes)).remoteWindow = windowSize.toUInt32 := by
  obtain ⟨added, hadded, heq⟩ := tcpInput_of_accepts (openStack_addressed hplain windowSize bytes)
    hplain.rst (openStack_accepts hplain windowSize bytes)
  rw [heq]
  change windowSize.toUInt32 <<< UInt32.ofNat added.remoteWindowScale = _
  rw [hadded.sameConnection.remoteWindowScale]
  exact UInt32.shiftLeft_zero

/-- The connection stores the payload. -/
theorem openStack_cell (hpos : 0 < packet.dataLength) {i : ℕ} (hi : i < packet.dataLength.toNat) :
    (tcpInput (openStack packet).ipAddr (openStack packet).tcpConn
      (packet.withBehind windowSize bytes)).rxBuffer ((1 + i) % RING) =
        bytes (packet.tcp.dataOffset.toNat + i) := by
  have hbase : (packet.withBehind windowSize bytes).base (openStack packet).tcpConn = 1 := by
    change packet.tcp.sequence - (packet.tcp.sequence - 1) = 1
    grind
  have hstores : Stores (openStack packet).ipAddr (openStack packet).tcpConn
      (packet.withBehind windowSize bytes) :=
    { addressed := openStack_addressed hplain windowSize bytes
      no_rst := hplain.rst
      accepts := openStack_accepts hplain windowSize bytes
      new := by
        have hmax := hplain.le_max
        obtain ⟨length, hlength⟩ := Int.eq_ofNat_of_zero_le hpos.le
        change (1 : UInt32) < (packet.withBehind windowSize bytes).base _ +
          UInt32.ofInt packet.dataLength
        rw [hbase]
        rw [hlength] at hmax hpos ⊢
        unfold MAX_SEGMENT at hmax
        rw [Word.ofInt_natCast, UInt32.lt_iff_toNat_lt,
          Word.toNat_add_ofNat (show (1 : UInt32).toNat + length < 2 ^ 32 by
            change 1 + length < _
            omega)]
        change 1 < 1 + length
        omega
      absent := nofun }
  have hcell := hstores.rxBuffer_cell hi
  rwa [hbase] at hcell

end OpenStack

/-- The frame holds `n` bytes of an IP packet, which goes to the handler of its protocol. -/
structure HandlerGets (frame : RxFrame) (protocol : UInt8) (n : ℕ) : Prop where
  type : frame.packet.type = .ip
  accepted : ¬ (newIpPacket frame.packet).length < 0
  protocol : (newIpPacket frame.packet).header 9 = protocol
  length : frame.packet.length = 14 + n

namespace HandlerGets

variable {frame : RxFrame} {protocol : UInt8} {n : ℕ} {s : Stack} {behind behind' : Bytes}

theorem header_le (h : HandlerGets frame protocol n) : 20 ≤ n := by
  have haccepted := newIpPacket_accepted h.accepted
  have hlength := h.length
  omega

/-- The IP header with its options is in the frame, too. -/
theorem transport_le (h : HandlerGets frame protocol n) :
    (newIpPacket frame.packet).transport ≤ n := by
  have haccepted := h.accepted
  have hlength := h.length
  have htransport := newIpPacket_transport frame.packet
  unfold newIpPacket at haccepted htransport ⊢
  dsimp only at haccepted htransport ⊢
  split_ifs at haccepted with hvalid
  · simp only [Bool.and_eq_true, decide_eq_true_eq] at hvalid
    omega
  · omega

theorem samePacket (h : HandlerGets frame protocol n) (behind : Bytes) :
    SamePacket n (newIpPacket frame.packet) (newIpPacket (frame.refill behind).packet) :=
  (refill_same frame behind).newIpPacket h.length h.header_le

theorem header (h : HandlerGets frame protocol n) (behind : Bytes) :
    (newIpPacket (frame.refill behind).packet).header =
      splice n (newIpPacket frame.packet).header behind :=
  refill_header h.length h.header_le

theorem refill (h : HandlerGets frame protocol n) (behind : Bytes) :
    HandlerGets (frame.refill behind) protocol n where
  type := by
    have hn := h.header_le
    rw [(refill_same frame behind).type (by rw [h.length]; omega), h.type]
  accepted := by
    rw [(h.samePacket behind).length]
    exact h.accepted
  protocol := by
    have hn := h.header_le
    rw [← (h.samePacket behind).header 9 (by omega), h.protocol]
  length := h.length

theorem handleRxPacket_ping (h : HandlerGets frame 1 n) (s : Stack) :
    handleRxPacket s frame = handlePingPacket s (newIpPacket frame.packet) := by
  unfold handleRxPacket
  rw [h.type]
  dsimp only
  rw [handleIpPacket, if_neg h.accepted, if_pos h.protocol]

theorem handleRxPacket_tcp (h : HandlerGets frame 6 n) (s : Stack) :
    handleRxPacket s frame =
      (handleTcpPacket s (newIpPacket frame.packet).tcpPacket frame.rand).map fun s' => (s', []) :=
  handleRxPacket_of_tcp (if_pos ⟨h.type, h.accepted, h.protocol⟩) s

/-- A ping whose type and code are not in the frame can be a request, the length of which
is negative, and a message that is ignored. -/
theorem ping_varies (h : HandlerGets frame 1 n)
    (hnot : ¬ PingSettled (newIpPacket frame.packet)) : ¬ DecidesAlone frame := by
  have hrest := rest_eq h.length
  have hle := h.transport_le
  unfold PingSettled at hnot
  have htotal := (newIpPacket_accepted h.accepted).2
  have hlength := h.length
  have htransport := newIpPacket_transport frame.packet
  have htype : ∀ code, splice n (newIpPacket frame.packet).header
      (fun i => if i = (newIpPacket frame.packet).transport then 8 else code)
        (newIpPacket frame.packet).transport = 8 := by
    intro code
    unfold splice
    split
    · by_contra hne
      exact hnot (Or.inr ⟨by omega, hne⟩)
    · exact if_pos rfl
  have hcode : ∀ code, splice n (newIpPacket frame.packet).header
      (fun i => if i = (newIpPacket frame.packet).transport then 8 else code)
        ((newIpPacket frame.packet).transport + 1) = code := by
    intro code
    rw [splice_of_le _ _ (by omega), if_neg (by omega)]
  -- what follows the type makes it a request, or not
  have hrequest : handleRxPacket listeningStack (frame.refill fun i =>
      if i = (newIpPacket frame.packet).transport then 8 else 0) = none := by
    rw [(h.refill _).handleRxPacket_ping]
    apply handlePingPacket_short
    · rw [(h.samePacket _).transport, h.header, htype]
    · rw [(h.samePacket _).transport, h.header, hcode]
    · rw [← (h.samePacket _).header.ipHeader h.header_le]
      unfold pingPayloadLength
      omega
  have hignored : handleRxPacket listeningStack (frame.refill fun i =>
      if i = (newIpPacket frame.packet).transport then 8 else 1) =
        some (listeningStack, []) := by
    rw [(h.refill _).handleRxPacket_ping]
    apply handlePingPacket_of_not_request
    rw [(h.samePacket _).transport, h.header, hcode]
    exact Or.inr (by decide)
  exact not_decidesAlone hrequest hignored (by simp)

theorem segment_varies (h : HandlerGets frame 6 n)
    (hne : handleTcpPacket s (frame.segment behind) frame.rand ≠
      handleTcpPacket s (frame.segment behind') frame.rand) : ¬ DecidesAlone frame := by
  refine not_decidesAlone ((h.refill behind).handleRxPacket_tcp s)
    ((h.refill behind').handleRxPacket_tcp s) fun heq => hne ?_
  exact Option.map_injective (fun _ _ hpair => congrArg Prod.fst hpair) heq

/-- What lies behind a frame without the flags: a port of 80 and some flags. -/
def flagsBehind (packet : IpPacket) (flags : UInt8) : Bytes := fun i =>
  if i = packet.transport + 3 then 80 else if i = packet.transport + 13 then flags else 0

theorem flagsBehind_destPort (h : HandlerGets frame 6 n)
    (hport : ¬ OtherPort (newIpPacket frame.packet))
    (hshort : (newIpPacket frame.packet).rest < 14) (flags : UInt8) :
    (frame.segment (flagsBehind (newIpPacket frame.packet) flags)).tcp.destPort = 80 := by
  have hrest := rest_eq h.length
  have hle := h.transport_le
  rw [RxFrame.segment, destPort_eq, (h.samePacket _).transport, h.header]
  rw [OtherPort, destPort_eq] at hport
  by_cases hfour : 4 ≤ (newIpPacket frame.packet).rest
  · have hsame := splice_same n (newIpPacket frame.packet).header
      (flagsBehind (newIpPacket frame.packet) flags)
    unfold be16 at hport ⊢
    rw [← hsame _ (by omega), ← hsame _ (by omega)]
    by_contra hne
    exact hport (Or.inl ⟨hfour, hne⟩)
  · have hhigh : splice n (newIpPacket frame.packet).header
        (flagsBehind (newIpPacket frame.packet) flags)
          ((newIpPacket frame.packet).transport + 2) = 0 := by
      unfold splice
      split
      · by_contra hne
        exact hport (Or.inr ⟨by omega, hne⟩)
      · rw [flagsBehind, if_neg (by omega), if_neg (by omega)]
    rw [be16, hhigh, splice_of_le _ _ (by omega), flagsBehind, if_pos rfl]
    rfl

theorem flagsBehind_has (h : HandlerGets frame 6 n)
    (hshort : (newIpPacket frame.packet).rest < 14) (flags : UInt8) {flag : UInt16}
    (hflag : flag.toNat < 256) :
    (frame.segment (flagsBehind (newIpPacket frame.packet) flags)).tcp.has flag =
      decide (flags.toNat &&& flag.toNat ≠ 0) := by
  have hrest := rest_eq h.length
  rw [Bool.eq_iff_iff, decide_eq_true_eq, TcpHeader.has, bne_iff_ne, ne_eq, RxFrame.segment,
    offsetFlags_eq, (h.samePacket _).transport, h.header, be16_and_eq_zero_iff _ _ hflag,
    splice_of_le _ _ (by omega), flagsBehind, if_neg (by omega), if_pos rfl]

theorem bytes_of_le (h : HandlerGets frame 6 n) (behind : Bytes) {i : ℕ} (hi : 20 ≤ i)
    (hle : n ≤ (newIpPacket frame.packet).transport + i) :
    (frame.segment behind).tcp.bytes i = behind ((newIpPacket frame.packet).transport + i) := by
  change ntohTcp _ _ _ = _
  rw [ntohTcp_of_le _ (by omega), (h.samePacket _).transport, h.header,
    splice_of_le _ _ hle]

/-- A segment without its flags in the frame can be a RST, which is dropped, and a SYN,
which opens a connection. -/
theorem flags_vary (h : HandlerGets frame 6 n) (hport : ¬ OtherPort (newIpPacket frame.packet))
    (hshort : (newIpPacket frame.packet).rest < 14) : ¬ DecidesAlone frame := by
  have hrest := rest_eq h.length
  have hdest := flagsBehind_destPort h hport hshort
  have hhas : ∀ (flags : UInt8) {flag : UInt16}, flag.toNat < 256 → _ :=
    fun flags => flagsBehind_has h hshort flags
  have hreset : handleTcpPacket listeningStack
      (frame.segment (flagsBehind (newIpPacket frame.packet) 4)) frame.rand =
        some listeningStack := by
    unfold handleTcpPacket
    rw [if_neg (not_not.mpr (hdest 4)), if_neg (fun hopen => hopen.1 rfl),
      hhas 4 (by decide), if_pos (by decide)]
    rfl
  have hsyn : handleTcpPacket listeningStack
      (frame.segment (flagsBehind (newIpPacket frame.packet) 2)) frame.rand ≠
        some listeningStack := by
    have hoption : (frame.segment (flagsBehind (newIpPacket frame.packet) 2)).tcp.bytes 20 = 0 := by
      rw [bytes_of_le h _ le_rfl (by omega), flagsBehind, if_neg (by omega), if_neg (by omega)]
    have hflags : ((frame.segment (flagsBehind (newIpPacket frame.packet) 2)).tcp.has TCP_SYN &&
        !(frame.segment (flagsBehind (newIpPacket frame.packet) 2)).tcp.has TCP_ACK) = true := by
      rw [hhas 2 (by decide), hhas 2 (by decide)]
      decide
    have hrst : (frame.segment (flagsBehind (newIpPacket frame.packet) 2)).tcp.has TCP_RST =
        false := by
      rw [hhas 2 (by decide)]
      decide
    rw [handleTcpPacket_of_listen rfl (hdest 2) hrst, acceptSyn_eq_acceptOptions _ _ _ hflags,
      scanOptions_of_zero hoption, scanOptions_of_zero hoption]
    exact acceptOptions_dropped_ne rfl (by decide) (by decide)
  exact segment_varies h fun heq => hsyn (heq.symm.trans hreset)

theorem segment_eq (h : HandlerGets frame 6 n) (hflags : 14 ≤ (newIpPacket frame.packet).rest)
    (behind : Bytes) :
    frame.segment behind = (newIpPacket frame.packet).tcpPacket.withBehind
      (frame.segment behind).tcp.windowSize (frame.segment behind).tcp.bytes := by
  have hrest := rest_eq h.length
  obtain ⟨k, hk, hheader, hflags, hwindow, hurgent, -⟩ :=
    exists_whole frame.packet h.header_le (by omega)
  exact (h.samePacket behind).tcpPacket hk hheader hflags hwindow hurgent

/-- The low byte of a window that is not in the frame. -/
theorem windowSize_ne (h : HandlerGets frame 6 n) (hshort : (newIpPacket frame.packet).rest < 16)
    (hzero : behind ((newIpPacket frame.packet).transport + 15) = 0)
    (hone : behind' ((newIpPacket frame.packet).transport + 15) = 1) :
    (frame.segment behind).tcp.windowSize ≠ (frame.segment behind').tcp.windowSize := by
  have hrest := rest_eq h.length
  have hvalue : ∀ behind, ∃ high : ℕ, (frame.segment behind).tcp.windowSize.toNat =
      256 * high + (behind ((newIpPacket frame.packet).transport + 15)).toNat := by
    intro behind
    refine ⟨((newIpPacket (frame.refill behind).packet).header
      ((newIpPacket frame.packet).transport + 14)).toNat, ?_⟩
    rw [RxFrame.segment, windowSize_eq, toNat_be16, (h.samePacket _).transport, h.header,
      splice_of_le _ _ (show n ≤ (newIpPacket frame.packet).transport + 14 + 1 by omega)]
  intro heq
  obtain ⟨a, ha⟩ := hvalue behind
  obtain ⟨b, hb⟩ := hvalue behind'
  rw [hzero] at ha
  rw [hone, ← heq, ha] at hb
  change 256 * a + 0 = 256 * b + 1 at hb
  omega

theorem segment_destPort (h : HandlerGets frame 6 n)
    (hflags : 14 ≤ (newIpPacket frame.packet).rest) (behind : Bytes) :
    (frame.segment behind).tcp.destPort =
      (newIpPacket frame.packet).tcpPacket.tcp.destPort := by
  rw [h.segment_eq hflags behind, TcpPacket.withBehind_destPort]

theorem segment_has (h : HandlerGets frame 6 n)
    (hflags : 14 ≤ (newIpPacket frame.packet).rest) (behind : Bytes) (flag : UInt16) :
    (frame.segment behind).tcp.has flag =
      (newIpPacket frame.packet).tcpPacket.tcp.has flag := by
  rw [h.segment_eq hflags behind, TcpPacket.withBehind_has]

/-- An opening SYN reaches the options. -/
theorem handleTcpPacket_syn (h : HandlerGets frame 6 n)
    (hflags : 14 ≤ (newIpPacket frame.packet).rest)
    (hbare : BareSyn (newIpPacket frame.packet).tcpPacket)
    (hlisten : s.tcpConn.state = .listen) (behind : Bytes) :
    handleTcpPacket s (frame.segment behind) frame.rand =
      acceptOptions s (frame.segment behind) frame.rand
        (scanOptions (fun i => (frame.segment behind).tcp.bytes (20 + i))
          ((frame.segment behind).tcp.dataOffset - 20) 2)
        (scanOptions (fun i => (frame.segment behind).tcp.bytes (20 + i))
          ((frame.segment behind).tcp.dataOffset - 20) 3) := by
  rw [handleTcpPacket_of_listen hlisten ((h.segment_destPort hflags behind).trans hbare.port)
    ((h.segment_has hflags behind TCP_RST).trans hbare.rst)]
  apply acceptSyn_eq_acceptOptions
  rw [h.segment_has hflags behind, h.segment_has hflags behind]
  exact hbare.flags

/-- What lies behind a frame without the window: its low byte, and no option. -/
def windowBehind (packet : IpPacket) (low : UInt8) : Bytes := fun i =>
  if i = packet.transport + 15 then low else 0

theorem windowBehind_low (packet : IpPacket) (low : UInt8) :
    windowBehind packet low (packet.transport + 15) = low := if_pos rfl

/-- A SYN without its window in the frame opens connections with different windows. -/
theorem syn_window_varies (h : HandlerGets frame 6 n)
    (hflags : 14 ≤ (newIpPacket frame.packet).rest)
    (hshort : (newIpPacket frame.packet).rest < 16)
    (hbare : BareSyn (newIpPacket frame.packet).tcpPacket) : ¬ DecidesAlone frame := by
  have hrest := rest_eq h.length
  have hlisten : listeningStack.tcpConn.state = .listen := rfl
  have hopens : ∀ low, handleTcpPacket listeningStack
        (frame.segment (windowBehind (newIpPacket frame.packet) low)) frame.rand =
      acceptOptions listeningStack
        (frame.segment (windowBehind (newIpPacket frame.packet) low)) frame.rand (some (-1))
          (some (-1)) := by
    intro low
    have hoption : (frame.segment
        (windowBehind (newIpPacket frame.packet) low)).tcp.bytes 20 = 0 := by
      rw [bytes_of_le h _ le_rfl (by omega), windowBehind, if_neg (by omega)]
    rw [h.handleTcpPacket_syn hflags hbare hlisten, scanOptions_of_zero hoption,
      scanOptions_of_zero hoption]
  have hne : handleTcpPacket listeningStack
        (frame.segment (windowBehind (newIpPacket frame.packet) 0)) frame.rand ≠
      handleTcpPacket listeningStack
        (frame.segment (windowBehind (newIpPacket frame.packet) 1)) frame.rand := by
    rw [hopens, hopens]
    intro heq
    exact h.windowSize_ne hshort (windowBehind_low _ 0) (windowBehind_low _ 1)
      (acceptOptions_windowSize heq)
  exact segment_varies h hne

/-- The options lie 20 bytes behind the start of the TCP header. -/
theorem options_eq (h : HandlerGets frame 6 n) (behind : Bytes) :
    (fun i => (frame.segment fun i =>
        behind (i - ((newIpPacket frame.packet).transport + 20))).tcp.bytes (20 + i)) =
      splice ((newIpPacket frame.packet).rest - 20).toNat
        (fun i => (newIpPacket frame.packet).tcpPacket.tcp.bytes (20 + i)) behind := by
  have hrest := rest_eq h.length
  funext i
  change ntohTcp _ _ _ = _
  rw [ntohTcp_of_le _ (by omega), (h.samePacket _).transport, h.header]
  unfold splice
  by_cases hi : i < ((newIpPacket frame.packet).rest - 20).toNat
  · rw [if_pos hi, if_pos (by omega)]
    exact (ntohTcp_of_le _ (by omega)).symm
  · rw [if_neg hi, if_neg (by omega)]
    refine congrArg behind ?_
    omega

/-- A SYN whose options are not settled has two outcomes. -/
theorem syn_options_vary (h : HandlerGets frame 6 n)
    (hwindow : 16 ≤ (newIpPacket frame.packet).rest)
    (hbare : BareSyn (newIpPacket frame.packet).tcpPacket)
    (hnot : ¬ OptionsSettled (fun i => (newIpPacket frame.packet).tcpPacket.tcp.bytes (20 + i))
      ((newIpPacket frame.packet).rest - 20).toNat
      ((newIpPacket frame.packet).tcpPacket.tcp.dataOffset - 20)) : ¬ DecidesAlone frame := by
  have hrest := rest_eq h.length
  have hlisten : listeningStack.tcpConn.state = .listen := rfl
  have hlen : (newIpPacket frame.packet).tcpPacket.tcp.dataOffset - 20 < 255 := by
    have hbounds := (newIpPacket frame.packet).tcpPacket.tcp.dataOffset_bounds
    omega
  obtain ⟨behind, behind', hne⟩ := exists_outcomes_ne (newIpPacket frame.packet).tcpPacket
    frame.rand hlisten hlen hnot
  have houtcome : ∀ behind, handleTcpPacket listeningStack (frame.segment fun i =>
        behind (i - ((newIpPacket frame.packet).transport + 20))) frame.rand =
      acceptOptions listeningStack (newIpPacket frame.packet).tcpPacket frame.rand
        (scanOptions (splice ((newIpPacket frame.packet).rest - 20).toNat
          (fun i => (newIpPacket frame.packet).tcpPacket.tcp.bytes (20 + i)) behind)
          ((newIpPacket frame.packet).tcpPacket.tcp.dataOffset - 20) 2)
        (scanOptions (splice ((newIpPacket frame.packet).rest - 20).toNat
          (fun i => (newIpPacket frame.packet).tcpPacket.tcp.bytes (20 + i)) behind)
          ((newIpPacket frame.packet).tcpPacket.tcp.dataOffset - 20) 3) := by
    intro behind
    have hoptions := h.options_eq behind
    have heq := h.segment_eq (by omega) fun i =>
      behind (i - ((newIpPacket frame.packet).transport + 20))
    have hsize : (frame.segment fun i =>
        behind (i - ((newIpPacket frame.packet).transport + 20))).tcp.windowSize =
          (newIpPacket frame.packet).tcpPacket.tcp.windowSize :=
      (h.samePacket _).windowSize (by omega)
    rw [h.handleTcpPacket_syn (by omega) hbare hlisten, hoptions, heq, hsize,
      TcpPacket.withBehind_dataOffset, acceptOptions_withBehind]
  rw [← houtcome, ← houtcome] at hne
  exact segment_varies h hne

/-- An acknowledgement without its window in the frame sets the window to different values. -/
theorem ack_window_varies (h : HandlerGets frame 6 n)
    (hflags : 14 ≤ (newIpPacket frame.packet).rest)
    (hshort : (newIpPacket frame.packet).rest < 16)
    (hplain : PlainAck (newIpPacket frame.packet).tcpPacket) : ¬ DecidesAlone frame := by
  have hopen : (openStack (newIpPacket frame.packet).tcpPacket).tcpConn.state ≠ .listen := nofun
  have hwindow := fun behind => openStack_window hplain
    (frame.segment behind).tcp.windowSize (frame.segment behind).tcp.bytes
  have hne : handleTcpPacket (openStack (newIpPacket frame.packet).tcpPacket)
        (frame.segment (windowBehind (newIpPacket frame.packet) 0)) frame.rand ≠
      handleTcpPacket (openStack (newIpPacket frame.packet).tcpPacket)
        (frame.segment (windowBehind (newIpPacket frame.packet) 1)) frame.rand := by
    rw [handleTcpPacket_open hopen, handleTcpPacket_open hopen]
    intro heq
    have hsame := congrArg (fun s : Stack => s.tcpConn.remoteWindow) (Option.some.inj heq)
    dsimp only at hsame
    rw [h.segment_eq hflags (windowBehind _ 0), h.segment_eq hflags (windowBehind _ 1), hwindow,
      hwindow] at hsame
    refine h.windowSize_ne hshort (windowBehind_low _ 0) (windowBehind_low _ 1) ?_
    rw [← UInt16.toNat_inj, ← UInt16.toNat_toUInt32, hsame, UInt16.toNat_toUInt32]
  exact segment_varies h hne

/-- The first byte of the urgent pointer comes from behind the frame, when the frame ends
with it and the payload does, too. -/
theorem ack_urgent_varies (h : HandlerGets frame 6 n)
    (hurgent : (newIpPacket frame.packet).rest = 19)
    (hplain : PlainAck (newIpPacket frame.packet).tcpPacket)
    (hend : (newIpPacket frame.packet).tcpPacket.tcp.dataOffset +
      (newIpPacket frame.packet).tcpPacket.dataLength = 19) : ¬ DecidesAlone frame := by
  have hrest := rest_eq h.length
  have hopen : (openStack (newIpPacket frame.packet).tcpPacket).tcpConn.state ≠ .listen := nofun
  have hnonneg := hplain.nonneg
  have hwords : ∃ words : ℕ, (newIpPacket frame.packet).tcpPacket.tcp.dataOffset = words * 4 :=
    ⟨_, rfl⟩
  obtain ⟨words, hwords⟩ := hwords
  have hbyte : ∀ behind, (frame.segment behind).tcp.bytes 18 =
      behind ((newIpPacket frame.packet).transport + 19) := by
    intro behind
    change ntohTcp _ _ _ = _
    rw [ntohTcp_urgent, (h.samePacket _).transport, h.header, splice_of_le _ _ (by omega)]
  have hcell := fun behind => openStack_cell hplain
    (frame.segment behind).tcp.windowSize (frame.segment behind).tcp.bytes
    (show 0 < (newIpPacket frame.packet).tcpPacket.dataLength by omega)
    (show 18 - words * 4 < (newIpPacket frame.packet).tcpPacket.dataLength.toNat by omega)
  have hlast : (newIpPacket frame.packet).tcpPacket.tcp.dataOffset.toNat + (18 - words * 4) =
      18 := by
    omega
  have hne : handleTcpPacket (openStack (newIpPacket frame.packet).tcpPacket)
        (frame.segment fun _ => 0) frame.rand ≠
      handleTcpPacket (openStack (newIpPacket frame.packet).tcpPacket)
        (frame.segment fun _ => 1) frame.rand := by
    rw [handleTcpPacket_open hopen, handleTcpPacket_open hopen]
    intro heq
    have hsame := congrArg (fun s : Stack => s.tcpConn.rxBuffer ((1 + (18 - words * 4)) % RING))
      (Option.some.inj heq)
    dsimp only at hsame
    rw [h.segment_eq (by omega) fun _ => 0, h.segment_eq (by omega) fun _ => 1, hcell, hcell,
      hlast, hbyte, hbyte] at hsame
    cases hsame
  exact segment_varies h hne

/-- A frame that is not settled is handled in two ways. -/
theorem tcp_varies (h : HandlerGets frame 6 n) (hother : ¬ OtherPort (newIpPacket frame.packet))
    (hnot : ¬ SegmentSettled (newIpPacket frame.packet)) : ¬ DecidesAlone frame := by
  by_cases hflags : (newIpPacket frame.packet).rest < 14
  · exact h.flags_vary hother hflags
  have hport : (newIpPacket frame.packet).tcpPacket.tcp.destPort = 80 := by
    by_contra hne
    exact hother (Or.inl ⟨by omega, hne⟩)
  intro halone
  refine hnot ⟨by omega, fun hrst hsyn hack => ?_, fun hrst hsyn hack hnonneg hmax => ?_⟩
  · have hbare : BareSyn (newIpPacket frame.packet).tcpPacket := by
      refine ⟨hport, hrst, ?_⟩
      rw [hsyn, hack]
      rfl
    by_cases hwindow : (newIpPacket frame.packet).rest < 16
    · exact absurd halone (h.syn_window_varies (by omega) hwindow hbare)
    refine ⟨by omega, ?_⟩
    by_contra hoptions
    exact h.syn_options_vary (by omega) hbare hoptions halone
  · have hplain : PlainAck (newIpPacket frame.packet).tcpPacket :=
      ⟨hport, hrst, hsyn, hack, hnonneg, hmax⟩
    by_cases hwindow : (newIpPacket frame.packet).rest < 16
    · exact absurd halone (h.ack_window_varies (by omega) hwindow hplain)
    refine ⟨by omega, fun hurgent hend => ?_⟩
    exact h.ack_urgent_varies hurgent hplain hend halone

end HandlerGets

/-- What lies behind a frame makes no difference exactly when the frame is settled. -/
theorem decidesAlone_iff (frame : RxFrame)
    (hdelivered : frame.packet.length ≤ PACKET_MAX_SIZE - 4) :
    DecidesAlone frame ↔ FrameSettled frame := by
  refine ⟨fun halone htype haccepted => ?_, FrameSettled.decidesAlone hdelivered⟩
  have hlength := newIpPacket_accepted haccepted
  obtain ⟨n, hn⟩ := Int.eq_ofNat_of_zero_le (show 0 ≤ frame.packet.length - 14 by omega)
  have hn' : frame.packet.length = 14 + n := by omega
  constructor
  · intro hprotocol
    by_contra hnot
    exact HandlerGets.ping_varies ⟨htype, haccepted, hprotocol, hn'⟩ hnot halone
  · intro hprotocol
    by_contra hnot
    push Not at hnot
    exact HandlerGets.tcp_varies ⟨htype, haccepted, hprotocol, hn'⟩ hnot.1 hnot.2 halone

theorem decidesAlone_iff_ping : DecidesAlone (echoFrame 0x45 34 0 32 46) :=
  (decidesAlone_iff (echoFrame 0x45 34 0 32 46) (by decide)).mpr fun _ _ =>
    ⟨fun _ => Or.inl (by decide), fun hprotocol => absurd hprotocol (by decide)⟩

/-- A frame that ends with its IP header, which announces a TCP segment. -/
def bareFrame (behind : List UInt8) : RxFrame where
  packet :=
    { buffer := fun i => List.getD
        ([2, 0, 0, 0, 0, 1, 2, 0, 0, 0, 0, 2, 0x08, 0x00,
          0x45, 0, 0, 20, 0, 0, 0x40, 0, 64, 6, 0, 0,
          10, 0, 0, 2, 10, 0, 0, 1] ++ behind) i 0
      length := 34 }
  rand := ⟨0, 100⟩

/-- The SYN that an earlier frame has left behind it opens a connection. -/
theorem bareFrame_opens :
    (handleRxPacket listeningStack (bareFrame [])).map (fun result => result.1.tcpConn.state) =
        some .listen ∧
      (handleRxPacket listeningStack
        (bareFrame [0x0F, 0xA0, 0, 80, 0, 0, 0, 0, 0, 0, 0, 0, 0x50, 0x02, 4, 0])).map
          (fun result => result.1.tcpConn.state) = some .synReceived ∧
      ∃ frame, frame.packet.length ≤ PACKET_MAX_SIZE - 4 ∧ ¬ DecidesAlone frame := by
  have hlisten : (handleRxPacket listeningStack (bareFrame [])).map
      (fun result => result.1.tcpConn.state) = some .listen := by
    decide
  have hopens : (handleRxPacket listeningStack
      (bareFrame [0x0F, 0xA0, 0, 80, 0, 0, 0, 0, 0, 0, 0, 0, 0x50, 0x02, 4, 0])).map
        (fun result => result.1.tcpConn.state) = some .synReceived := by
    decide
  refine ⟨hlisten, hopens, bareFrame [], by decide, fun halone => ?_⟩
  have hsame : SameFrame (bareFrame [])
      (bareFrame [0x0F, 0xA0, 0, 80, 0, 0, 0, 0, 0, 0, 0, 0, 0x50, 0x02, 4, 0]) := by
    refine ⟨rfl, ?_, rfl⟩
    unfold SameUpTo
    decide
  rw [halone listeningStack _ hsame, hlisten] at hopens
  cases hopens

end EthTransfer
