import EthTransfer.Frames.Bytes
import EthTransfer.Isolation
import EthTransfer.Receive.Window

/-!
# Payload copies

Handling a frame copies bytes of it: `handle_ping_packet` copies the payload of an echo
request into the reply, and `add_segment` that of a TCP segment into the receive ring.
`payloadCopies` are the calls of `memcpy` that do so, and `Copy.Inside` says that one
stays inside the frame and inside its target.

* `handlePingPacket_payload` and `handleTcpPacket_rxBuffer`: the copies are what the two
  functions do.
* `copies_inside_iff`: those of TCP always stay inside, and that of an echo request does
  when `total_length` fits the header length and the packet buffer.
-/

namespace EthTransfer

open RingBuffer

/-! ## Calls of `memcpy` -/

/-- Where a payload is copied to. -/
inductive Target where
  | txPacket
  | rxRing
  deriving DecidableEq

/-- The bytes of the target. -/
def Target.size : Target → Int
  | .txPacket => PACKET_MAX_SIZE
  | .rxRing => RX_MASK.toNat + 1

/-- A call of `memcpy`; `source` is a place in the received frame. -/
structure Copy where
  target : Target
  dest : Int
  source : Int
  length : Int
  deriving DecidableEq

/-- The call stays inside the first `frameLength` bytes of the frame, and inside its
target. -/
structure Copy.Inside (m : Copy) (frameLength : Int) : Prop where
  length_nonneg : 0 ≤ m.length
  source_nonneg : 0 ≤ m.source
  source_le : m.source + m.length ≤ frameLength
  dest_nonneg : 0 ≤ m.dest
  dest_le : m.dest + m.length ≤ m.target.size

/-- The calls in `copy_to_circle_buffer`. -/
def ringCopies (mask start : UInt32) (source length : Int) : List Copy :=
  if length > mask.toNat then []
  else if length ≤ 0 then []
  else
    let maskStart := (start &&& mask).toNat
    let maskEnd := ((start + UInt32.ofInt length - 1) &&& mask).toNat
    if maskStart ≤ maskEnd then [⟨.rxRing, maskStart, source, length⟩]
    else
      let len1 : Int := mask.toNat + 1 - maskStart
      [⟨.rxRing, maskStart, source, len1⟩, ⟨.rxRing, 0, source + len1, length - len1⟩]

/-- The call in `handle_ping_packet`. -/
def echoCopies (packet : IpPacket) : List Copy :=
  let header := ntohPing packet.header packet.transport
  if header packet.transport ≠ 8 ∨ header (packet.transport + 1) ≠ 0 then []
  else [⟨.txPacket, 42, 14 + packet.transport + 8, pingPayloadLength (ipHeader header)⟩]

/-- The calls in `handle_tcp_packet`. -/
def segmentCopies (s : Stack) (packet : IpPacket) : List Copy :=
  let segment := packet.tcpPacket
  if s.tcpConn.state ≠ .listen ∧ Stores s.ipAddr s.tcpConn segment then
    ringCopies RX_MASK (segment.base s.tcpConn)
      (14 + packet.transport + segment.tcp.dataOffset) segment.dataLength
  else []

/-- The calls in `handle_rx_packet`. -/
def payloadCopies (s : Stack) (frame : RxFrame) : List Copy :=
  let packet := newIpPacket frame.packet
  if frame.packet.type ≠ .ip then []
  else if packet.length < 0 then []
  else if packet.header 9 = 1 then echoCopies packet
  else if packet.header 9 = 6 then segmentCopies s packet
  else []

/-! ## What the calls do -/

/-- A call, when `memory` is what `packet->data` holds. -/
def Copy.run (memory dest : Bytes) (m : Copy) : Bytes :=
  memcpy dest m.dest.toNat memory (m.source - 14).toNat m.length.toNat

theorem memcpy_shift (dest memory : Bytes) (destOff shift sourceOff n : ℕ) :
    memcpy dest destOff (fun i => memory (shift + i)) sourceOff n =
      memcpy dest destOff memory (shift + sourceOff) n := by
  funext i
  simp [memcpy, Nat.add_assoc]

/-- `copy_to_circle_buffer` makes these calls. -/
theorem copyToCircleBuffer_eq_foldl (dest memory : Bytes) (mask start : UInt32) (shift : ℕ)
    (length : Int) :
    copyToCircleBuffer dest mask start (fun i => memory (shift + i)) length length =
      (ringCopies mask start (14 + shift) length).foldl (Copy.run memory) dest := by
  unfold copyToCircleBuffer ringCopies
  by_cases hlong : length > mask.toNat
  · rw [if_pos hlong, if_pos hlong]
    rfl
  rw [if_neg hlong, if_neg hlong, if_neg (lt_irrefl length)]
  by_cases hzero : length ≤ 0
  · rw [if_pos hzero, if_pos hzero]
    rfl
  rw [if_neg hzero, if_neg hzero]
  dsimp only
  split_ifs with hwrap
  · simp only [List.foldl_cons, List.foldl_nil, Copy.run, memcpy_shift]
    congr 1
    omega
  · simp only [List.foldl_cons, List.foldl_nil, Copy.run, memcpy_shift]
    have hle : (start &&& mask).toNat ≤ mask.toNat := by
      rw [UInt32.toNat_and]
      exact Nat.and_le_right
    have hlen1 : ((mask.toNat : Int) + 1 - (start &&& mask).toNat).toNat =
        mask.toNat + 1 - (start &&& mask).toNat := by
      omega
    rw [hlen1]
    congr 1
    · congr 1
      omega
    · omega
    · omega

/-- The reply to an echo request carries the bytes that the call copies. -/
theorem handlePingPacket_payload {s s' : Stack} {packet : IpPacket} {frames : List TxFrame}
    {reply : EchoReply} (hstep : handlePingPacket s packet = some (s', frames))
    (hsent : .echo reply ∈ frames) :
    ∃ m, echoCopies packet = [m] ∧
      reply.payload = (List.range m.length.toNat).map fun i =>
        ntohPing packet.header packet.transport ((m.source - 14).toNat + i) := by
  unfold handlePingPacket at hstep
  unfold echoCopies
  dsimp only at hstep ⊢
  split_ifs at hstep with hecho hneg hfits
  · cases hstep
    cases hsent
  · cases hstep
    obtain rfl := TxFrame.echo.inj (List.mem_singleton.mp hsent)
    rw [if_neg hecho]
    refine ⟨_, rfl, ?_⟩
    dsimp only
    rw [show ((14 : Int) + packet.transport + 8 - 14).toNat = packet.transport + 8 by omega]
  · cases hstep
    cases hsent

/-- The copies are what `handle_tcp_packet` does to the receive ring. -/
theorem handleTcpPacket_rxBuffer {s s' : Stack} {packet : IpPacket} {rand : Rand}
    (hstep : handleTcpPacket s packet.tcpPacket rand = some s') :
    s'.tcpConn.rxBuffer =
      (segmentCopies s packet).foldl (Copy.run (ntohTcp packet.header packet.transport))
        s.tcpConn.rxBuffer := by
  unfold segmentCopies
  by_cases hlisten : s.tcpConn.state = .listen
  · have hsame : s'.tcpConn.rxBuffer = s.tcpConn.rxBuffer := by
      rcases handleTcpPacket_listen hlisten packet.tcpPacket with hdrop | ⟨-, -, hsyn⟩
      · rw [hdrop] at hstep
        cases hstep
        rfl
      · rw [hsyn] at hstep
        rcases acceptSyn_cases s packet.tcpPacket with hhang | hdrop | ⟨-, _, _, -, hopens⟩
        · rw [hhang] at hstep
          cases hstep
        · rw [hdrop] at hstep
          cases hstep
          rfl
        · rw [hopens] at hstep
          cases hstep
          rfl
    dsimp only
    rw [if_neg fun hcopies => hcopies.1 hlisten]
    exact hsame
  · rw [handleTcpPacket_open hlisten] at hstep
    cases hstep
    dsimp only
    rw [tcpInput_rxBuffer]
    by_cases hstores : Stores s.ipAddr s.tcpConn packet.tcpPacket
    · obtain ⟨n, hn, hmax⟩ := hstores.accepts.exists_length
      obtain ⟨offset, hoffset⟩ :=
        Int.eq_ofNat_of_zero_le packet.tcpPacket.tcp.dataOffset_bounds.1
      have hpayload : packet.tcpPacket.payload = fun i =>
          ntohTcp packet.header packet.transport (packet.transport + offset + i) := by
        funext i
        rw [TcpPacket.payload, hoffset, Int.toNat_natCast, Nat.add_assoc]
        rfl
      rw [if_pos hstores, if_pos ⟨hlisten, hstores⟩, hn, Int.toNat_natCast, hpayload, hoffset,
        ← copyToCircleBuffer_ring _ _ _ (show n < 8192 by omega), copyToCircleBuffer_eq_foldl,
        Int.natCast_add, Int.add_assoc]
    · rw [if_neg hstores, if_neg fun hcopies => hstores hcopies.2]
      rfl

/-! ## Ranges -/

/-- What `new_ip_packet` has checked. -/
theorem newIpPacket_accepted {packet : EthPacket} (haccepted : ¬ (newIpPacket packet).length < 0) :
    20 ≤ (ipHeader (newIpPacket packet).header).totalLength.toNat ∧
      (14 : Int) + (ipHeader (newIpPacket packet).header).totalLength.toNat ≤ packet.length := by
  unfold newIpPacket at haccepted ⊢
  dsimp only at haccepted ⊢
  split_ifs at haccepted with hvalid
  · simp only [Bool.and_eq_true, decide_eq_true_eq] at hvalid
    omega
  · omega

/-- The length of an echo request leaves room for the headers, and its payload fits the
packet buffer. -/
def EchoFits (packet : IpPacket) : Prop :=
  ntohPing packet.header packet.transport packet.transport = 8 ∧
      ntohPing packet.header packet.transport (packet.transport + 1) = 0 →
    (ipHeader packet.header).ihl * 4 + 8 ≤ (ipHeader packet.header).totalLength.toNat ∧
      34 + (ipHeader packet.header).totalLength.toNat - (ipHeader packet.header).ihl * 4 ≤
        PACKET_MAX_SIZE

section Ranges

variable {packet : EthPacket} {s : Stack}

theorem newIpPacket_transport (packet : EthPacket) :
    ((newIpPacket packet).transport : Int) = (ipHeader (newIpPacket packet).header).ihl * 4 := by
  have hihl : 0 ≤ (ipHeader (newIpPacket packet).header).ihl := Int.natCast_nonneg _
  change (((ipHeader (newIpPacket packet).header).ihl.toNat * 4 : ℕ) : Int) = _
  omega

/-- The conversion of a ping header leaves the length of the packet. -/
theorem pingPayloadLength_ntohPing (header : Bytes) {i : ℕ} (hi : 2 ≤ i) :
    pingPayloadLength (ipHeader (ntohPing header i)) = pingPayloadLength (ipHeader header) := by
  unfold pingPayloadLength ipHeader IpHeader.ihl le16
  dsimp only
  rw [ntohPing_of_lt header (show 0 < i + 2 by omega),
    ntohPing_of_lt header (show 2 < i + 2 by omega),
    ntohPing_of_lt header (show 2 + 1 < i + 2 by omega)]

/-- The conversion of a TCP header leaves that of the packet, which is in front of it. -/
theorem dataLength_tcpPacket (packet : IpPacket) (hi : 4 ≤ packet.transport) :
    packet.tcpPacket.dataLength = (ipHeader packet.header).totalLength.toNat -
      4 * (ipHeader packet.header).ihl - packet.tcpPacket.tcp.dataOffset := by
  have hip : packet.tcpPacket.ip = ipHeader (ntohTcp packet.header packet.transport) := rfl
  rw [TcpPacket.dataLength, hip]
  unfold ipHeader IpHeader.ihl le16
  dsimp only
  rw [ntohTcp_of_lt packet.header (show 0 < packet.transport by omega),
    ntohTcp_of_lt packet.header (show 2 < packet.transport by omega),
    ntohTcp_of_lt packet.header (show 2 + 1 < packet.transport by omega)]

/-- Without an IP header the type of a message is the first byte of the packet, and an
8 there is a header length of eight words. -/
theorem transport_pos_of_echo
    (hecho : ntohPing (newIpPacket packet).header (newIpPacket packet).transport
      (newIpPacket packet).transport = 8) : 2 ≤ (newIpPacket packet).transport := by
  have htransport := newIpPacket_transport packet
  by_contra hsmall
  have hzero : (newIpPacket packet).transport = 0 := by omega
  rw [hzero, ntohPing_of_lt _ (by omega)] at hecho
  have hihl : (ipHeader (newIpPacket packet).header).ihl = 8 := by
    unfold IpHeader.ihl ipHeader
    dsimp only
    rw [hecho]
    decide
  omega

theorem echoCopies_inside_iff (haccepted : ¬ (newIpPacket packet).length < 0) :
    (∀ m ∈ echoCopies (newIpPacket packet), m.Inside packet.length) ↔
      EchoFits (newIpPacket packet) := by
  obtain ⟨-, hlength⟩ := newIpPacket_accepted haccepted
  have htransport := newIpPacket_transport packet
  unfold echoCopies EchoFits
  dsimp only
  by_cases hecho : ntohPing (newIpPacket packet).header (newIpPacket packet).transport
        (newIpPacket packet).transport ≠ 8 ∨
      ntohPing (newIpPacket packet).header (newIpPacket packet).transport
        ((newIpPacket packet).transport + 1) ≠ 0
  · rw [if_pos hecho]
    refine iff_of_true (by simp) (fun ⟨htype, hcode⟩ => ?_)
    tauto
  · rw [if_neg hecho]
    push Not at hecho
    rw [pingPayloadLength_ntohPing _ (transport_pos_of_echo hecho.1)]
    simp only [List.mem_singleton, forall_eq, hecho, and_self, true_implies]
    unfold pingPayloadLength
    constructor
    · intro hinside
      have hpos := hinside.length_nonneg
      have hdest := hinside.dest_le
      simp only [Target.size] at hpos hdest
      omega
    · rintro ⟨hpos, hdest⟩
      refine ⟨?_, ?_, ?_, ?_, ?_⟩ <;> simp only [Target.size] <;> omega

theorem ringCopies_inside (start : UInt32) {source : ℕ} {n length : Int}
    (hfits : source + n ≤ length) :
    ∀ m ∈ ringCopies RX_MASK start source n, m.Inside length := by
  intro m hm
  unfold ringCopies at hm
  split_ifs at hm with hlong hzero
  · cases hm
  · cases hm
  obtain ⟨n, rfl⟩ := Int.eq_ofNat_of_zero_le (show 0 ≤ n by omega)
  have hring : (start &&& RX_MASK).toNat < RX_MASK.toNat + 1 := by
    rw [Word.toNat_and_mask rx_mask_succ]
    exact Nat.mod_lt _ (Nat.succ_pos _)
  have hwrap := maskEnd_cases rx_mask_succ start (n := n) (by omega) (by omega)
  rw [← Word.toNat_and_mask rx_mask_succ] at hwrap
  rw [Word.ofInt_natCast] at hm
  dsimp only at hm
  split_ifs at hm with hend
  · obtain rfl := List.mem_singleton.mp hm
    have hle := hwrap.mp hend
    refine ⟨?_, ?_, ?_, ?_, ?_⟩ <;> simp only [Target.size] <;> omega
  · have hgt := mt hwrap.mpr hend
    simp only [List.mem_cons, List.not_mem_nil, or_false] at hm
    rcases hm with rfl | rfl
    · refine ⟨?_, ?_, ?_, ?_, ?_⟩ <;> simp only [Target.size] <;> omega
    · refine ⟨?_, ?_, ?_, ?_, ?_⟩ <;> simp only [Target.size] <;> omega

/-- Without an IP header the destination port of a segment is the length of the packet,
which `ntoh_tcp` has reversed: 80 stands for a packet that no frame holds. -/
theorem transport_pos_of_port (hdelivered : packet.length ≤ PACKET_MAX_SIZE - 4)
    (haccepted : ¬ (newIpPacket packet).length < 0)
    (hport : (newIpPacket packet).tcpPacket.tcp.destPort = 80) :
    4 ≤ (newIpPacket packet).transport := by
  obtain ⟨-, hlength⟩ := newIpPacket_accepted haccepted
  have htransport := newIpPacket_transport packet
  by_contra hsmall
  have hzero : (newIpPacket packet).transport = 0 := by omega
  have hbytes : (newIpPacket packet).tcpPacket.tcp.destPort =
      be16 (newIpPacket packet).header 2 := by
    simp [IpPacket.tcpPacket, hzero, ntohTcp, swap16, swap32, le16, be16, UInt16.or_comm]
  have htotal := toNat_le16 (newIpPacket packet).header 2
  have hreversed := toNat_be16 (newIpPacket packet).header 2
  rw [← hbytes, hport] at hreversed
  change 80 = _ at hreversed
  change _ ≤ packet.length at hlength
  have h3 := ((newIpPacket packet).header (2 + 1)).toNat_lt
  simp only [ipHeader] at hlength
  simp only [PACKET_MAX_SIZE] at hdelivered
  omega

theorem segmentCopies_inside (hdelivered : packet.length ≤ PACKET_MAX_SIZE - 4)
    (haccepted : ¬ (newIpPacket packet).length < 0) :
    ∀ m ∈ segmentCopies s (newIpPacket packet), m.Inside packet.length := by
  obtain ⟨-, hlength⟩ := newIpPacket_accepted haccepted
  have htransport := newIpPacket_transport packet
  unfold segmentCopies
  dsimp only
  split_ifs with hcopies
  · have hpos := transport_pos_of_port hdelivered haccepted hcopies.2.addressed.port
    have hend : (14 : Int) + (newIpPacket packet).transport +
        (newIpPacket packet).tcpPacket.tcp.dataOffset + (newIpPacket packet).tcpPacket.dataLength =
          14 + (ipHeader (newIpPacket packet).header).totalLength.toNat := by
      rw [dataLength_tcpPacket _ hpos]
      omega
    obtain ⟨offset, hoffset⟩ :=
      Int.eq_ofNat_of_zero_le (newIpPacket packet).tcpPacket.tcp.dataOffset_bounds.1
    rw [hoffset] at hend ⊢
    have hfits : ((14 + (newIpPacket packet).transport + offset : ℕ) : Int) +
        (newIpPacket packet).tcpPacket.dataLength ≤ packet.length := by
      push_cast
      omega
    have hinside := ringCopies_inside ((newIpPacket packet).tcpPacket.base s.tcpConn) hfits
    push_cast at hinside
    exact hinside
  · simp

end Ranges

/-- The copies of a frame that `new_ip_packet` accepts are inside the frame and inside
their target, unless it is an echo request whose lengths do not fit. -/
theorem copies_inside_iff (s : Stack) {frame : RxFrame}
    (hdelivered : frame.packet.length ≤ PACKET_MAX_SIZE - 4)
    (haccepted : ¬ (newIpPacket frame.packet).length < 0) :
    (∀ m ∈ payloadCopies s frame, m.Inside frame.packet.length) ↔
      (frame.packet.type = .ip ∧ (newIpPacket frame.packet).header 9 = 1 →
        EchoFits (newIpPacket frame.packet)) := by
  unfold payloadCopies
  dsimp only
  by_cases htype : frame.packet.type = .ip
  · rw [if_neg (not_not.mpr htype), if_neg haccepted]
    by_cases hping : (newIpPacket frame.packet).header 9 = 1
    · rw [if_pos hping, echoCopies_inside_iff haccepted]
      simp [htype, hping]
    · rw [if_neg hping]
      refine iff_of_true ?_ (fun h => absurd h.2 hping)
      split_ifs
      · exact segmentCopies_inside hdelivered haccepted
      · simp
  · rw [if_pos htype]
    simp [htype]

/-- An echo request for 10.0.0.1, with the 8 of its type at `place`. -/
def echoFrame (versionIhl : UInt8) (place : ℕ) (totalHigh totalLow : UInt8) (length : Int) :
    RxFrame where
  packet :=
    { buffer := fun i => if i = place then 8 else List.getD
        [2, 0, 0, 0, 0, 1, 2, 0, 0, 0, 0, 2, 0x08, 0x00,
          versionIhl, 0, totalHigh, totalLow, 0, 0, 0x40, 0, 64, 1, 0, 0,
          10, 0, 0, 2, 10, 0, 0, 1] i 0
      length := length }
  rand := ⟨0, 100⟩

theorem copies_inside_iff_ping :
    payloadCopies listeningStack (echoFrame 0x45 34 0 32 46) = [⟨.txPacket, 42, 42, 4⟩] ∧
      ∀ m ∈ payloadCopies listeningStack (echoFrame 0x45 34 0 32 46), m.Inside 46 :=
  ⟨by decide, (copies_inside_iff listeningStack (by decide) (by decide)).mpr fun _ _ => by decide⟩

/-- A request that ends with its IP header has a payload of -8 bytes, and with a short
header length the payload of a long one does not fit behind a header of 20 bytes; there
the type lies in the identification, which `ntoh_ip` reverses. -/
theorem echo_copies_outside :
    payloadCopies listeningStack (echoFrame 0x45 34 0 20 60) = [⟨.txPacket, 42, 42, -8⟩] ∧
      payloadCopies listeningStack (echoFrame 0x41 19 0x07 0xEE 2044) =
        [⟨.txPacket, 42, 26, 2018⟩] ∧
      ∃ frame, frame.packet.length ≤ PACKET_MAX_SIZE - 4 ∧
        ¬ (newIpPacket frame.packet).length < 0 ∧
        ¬ ∀ m ∈ payloadCopies listeningStack frame, m.Inside frame.packet.length := by
  have hshort : payloadCopies listeningStack (echoFrame 0x45 34 0 20 60) =
      [⟨.txPacket, 42, 42, -8⟩] := by
    decide
  refine ⟨hshort, by decide, echoFrame 0x45 34 0 20 60, by decide, by decide, fun hinside => ?_⟩
  rw [hshort] at hinside
  exact absurd (hinside _ List.mem_cons_self).length_nonneg (by decide)

end EthTransfer
