import EthTransfer.Frames.Bytes
import EthTransfer.Isolation

/-!
# Traffic for other hosts

The destination address is not checked in one place.  `handle_arp_packet` compares the
address that is asked for, and `handle_tcp_packet` compares the destination of a segment
while a connection is open.  `handle_ping_packet` and the SYN in `TCP_LISTEN` compare
nothing, and a short header length lets the comparison of an open connection read the
wrong bytes.

`DatagramIgnored` says when a datagram changes nothing, whoever it is for, and
`other_hosts_ignored_iff` that these datagrams, those for this host and ARP frames are
all the frames for which the stack keeps to its own address.
-/

namespace EthTransfer

/-! ## Frames for this host -/

/-- The frame is for this host: an ARP request for its address, or a datagram that is
addressed to it. -/
def ForHost (s : Stack) (frame : RxFrame) : Prop :=
  (frame.packet.type = .arp ∧ be16 frame.packet.buffer 20 = 1 ∧
      be32 frame.packet.buffer 38 = s.ipAddr) ∨
    frame.packet.type = .ip ∧ be32 frame.packet.buffer 30 = s.ipAddr

/-- The frame changes the connection or is answered only if it is for this host. -/
def KeepsToHost (s : Stack) (frame : RxFrame) : Prop :=
  ∀ s' frames, handleRxPacket s frame = some (s', frames) →
    s'.tcpConn ≠ s.tcpConn ∨ frames ≠ [] → ForHost s frame

/-! ## Segments that change nothing -/

/-- The bytes of a segment are no news. -/
def NothingStored (c : TcpConnection) (packet : TcpPacket) : Prop :=
  (packet.segment c).stop ≤ c.rxWrite ∨ packet.segment c ∈ c.rxSegments ∨
    c.rxSegments.length = SEG_MASK ∧
      c.copyRx packet.payload packet.dataLength (packet.base c) = c

/-- A segment that passes the checks and leaves the connection as it is. -/
structure Stale (c : TcpConnection) (packet : TcpPacket) : Prop where
  stored : NothingStored c packet
  ack : packet.ackOffset c ≤ c.txAcked
  window : packet.window c = c.remoteWindow
  limit : c.txAcked + packet.window c ≤ c.txLimit
  fin : packet.tcp.has TCP_FIN = true →
    packet.base c + UInt32.ofInt packet.dataLength = c.rxFin
  timer : packet.tcp.has TCP_FIN = true ∨ packet.dataLength > 0 → c.ackTimeout = -1

section Stale

variable {c : TcpConnection} {packet : TcpPacket}

theorem addSegment_eq_self_iff :
    (addSegment c packet.payload packet.dataLength (packet.base c)).1 = c ↔
      NothingStored c packet := by
  have hadded := addSegment_added c packet.payload packet.dataLength (packet.base c)
  unfold NothingStored TcpPacket.segment
  generalize (addSegment c packet.payload packet.dataLength (packet.base c)).1 = added at hadded
  cases hadded with
  | old hstop => exact iff_of_true rfl (.inl hstop)
  | duplicate hstop hmem => exact iff_of_true rfl (.inr (.inl hmem))
  | full hstop hmem hlen => simp [hmem, hlen, UInt32.not_le.mpr hstop]
  | @merged rxWrite kept hstop hmem hlen hmerged hsettled =>
    refine iff_of_false (fun heq => ?_) (by simp [hmem, hlen, UInt32.not_le.mpr hstop])
    have hwrite : rxWrite = c.rxWrite := congrArg TcpConnection.rxWrite heq
    have hkept : kept = c.rxSegments := congrArg TcpConnection.rxSegments heq
    rcases hmerged.dropped _ (List.mem_append_right _ List.mem_cons_self) with hk | hle
    · exact hmem (hkept ▸ hk)
    · rw [hwrite] at hle
      exact UInt32.not_lt.mpr hle hstop

/-- Which part of the connection `add_segment` changes. -/
theorem addSegment_fields (c : TcpConnection) (packet : TcpPacket) :
    ∃ rxBuffer rxWrite rxSegments,
      (addSegment c packet.payload packet.dataLength (packet.base c)).1 =
        { c with rxBuffer := rxBuffer, rxWrite := rxWrite, rxSegments := rxSegments } := by
  have hadded := addSegment_added c packet.payload packet.dataLength (packet.base c)
  generalize (addSegment c packet.payload packet.dataLength (packet.base c)).1 = added at hadded
  cases hadded <;> exact ⟨_, _, _, rfl⟩

/-- An acknowledgement that is no news. -/
theorem receiveAck_eq_self (hack : packet.ackOffset c ≤ c.txAcked)
    (hwindow : packet.window c = c.remoteWindow)
    (hlimit : c.txAcked + packet.window c ≤ c.txLimit) :
    receiveAck c packet = c := by
  have hold : ¬ c.txAcked < packet.tcp.ack - c.localSequence := UInt32.not_lt.mpr hack
  unfold TcpPacket.window at hwindow hlimit
  rw [hwindow] at hlimit
  unfold receiveAck
  simp [hold, hwindow, UInt32.not_lt.mpr hlimit]

theorem receiveFin_eq_self {base : UInt32}
    (hfin : packet.tcp.has TCP_FIN = true → base + UInt32.ofInt packet.dataLength = c.rxFin)
    (htimer : packet.tcp.has TCP_FIN = true ∨ packet.dataLength > 0 → c.ackTimeout = -1) :
    receiveFin c packet base = c := by
  have hrxFin : (if packet.tcp.has TCP_FIN then base + UInt32.ofInt packet.dataLength
      else c.rxFin) = c.rxFin := by
    split_ifs with h
    · exact hfin h
    · rfl
  have hackTimeout : (if packet.tcp.has TCP_FIN ∨ packet.dataLength > 0 then -1
      else c.ackTimeout) = c.ackTimeout := by
    split_ifs with h
    · exact (htimer h).symm
    · rfl
  rw [receiveFin, hrxFin, hackTimeout]

theorem receiveSegment_eq_self_iff (haccepts : Accepts c packet) :
    receiveSegment c packet = c ↔ Stale c packet := by
  rw [receiveSegment_of_accepts haccepts]
  constructor
  · intro heq
    obtain ⟨rxBuffer, rxWrite, rxSegments, hadded⟩ := addSegment_fields c packet
    have hself : (addSegment c packet.payload packet.dataLength (packet.base c)).1 = c ↔
        NothingStored c packet := addSegment_eq_self_iff
    rw [hadded] at hself heq
    have hstored : NothingStored c packet := by
      have hfield {α : Type} (field : TcpConnection → α) := congrArg field heq
      have hbuffer : rxBuffer = c.rxBuffer := hfield TcpConnection.rxBuffer
      have hwrite : rxWrite = c.rxWrite := hfield TcpConnection.rxWrite
      have hsegments : rxSegments = c.rxSegments := hfield TcpConnection.rxSegments
      exact hself.mp (by rw [hbuffer, hwrite, hsegments])
    rw [hself.mpr hstored] at heq
    have hfield {α : Type} (field : TcpConnection → α) := congrArg field heq
    have hacked : (receiveAck c packet).txAcked = c.txAcked := hfield TcpConnection.txAcked
    have hlimit : (receiveAck c packet).txLimit = c.txLimit := hfield TcpConnection.txLimit
    have hrxFin : (receiveFin (receiveAck c packet) packet (packet.base c)).rxFin = c.rxFin :=
      hfield TcpConnection.rxFin
    have htimer : (if packet.tcp.has TCP_FIN ∨ packet.dataLength > 0 then -1
        else (receiveAck c packet).ackTimeout) = c.ackTimeout := hfield TcpConnection.ackTimeout
    rw [receiveAck_txLimit, hacked] at hlimit
    rw [receiveFin_rxFin] at hrxFin
    refine ⟨hstored, ?_, hfield TcpConnection.remoteWindow, ?_, fun h => ?_, fun h => ?_⟩
    · rw [← hacked]
      exact (le_receiveAck_txAcked c packet).2
    · by_contra hlt
      rw [if_pos (UInt32.not_le.mp hlt)] at hlimit
      exact hlt (hlimit ▸ UInt32.le_refl _)
    · rwa [if_pos h] at hrxFin
    · rw [if_pos h] at htimer
      exact htimer.symm
  · intro hstale
    rw [addSegment_eq_self_iff.mpr hstale.stored,
      receiveAck_eq_self hstale.ack hstale.window hstale.limit]
    exact receiveFin_eq_self hstale.fin hstale.timer

end Stale

/-! ## Datagrams that change nothing -/

/-- `handle_tcp_packet` leaves the connection as it is. -/
def SegmentIgnored (s : Stack) (packet : TcpPacket) : Prop :=
  packet.tcp.destPort ≠ 80 ∨
    if s.tcpConn.state = .listen then
      packet.tcp.has TCP_RST = true ∨
        ∀ maxSegment windowScale, ¬ OpeningSyn packet maxSegment windowScale
    else
      connectionMatch s.ipAddr s.tcpConn packet = false ∨
        if packet.tcp.has TCP_RST then s.tcpConn.state = .sendRst ∧ s.tcpConn.ackTimeout = -1
        else Accepts s.tcpConn packet → Stale s.tcpConn packet

/-- `handle_ping_packet` sends nothing: the message is no echo request, or it is too
short or its answer too long. -/
def EchoIgnored (packet : IpPacket) : Prop :=
  let header := ntohPing packet.header packet.transport
  let length := pingPayloadLength (ipHeader header)
  (header packet.transport ≠ 8 ∨ header (packet.transport + 1) ≠ 0) ∨ length < 0 ∨
    (14 : Int) + (UInt16.ofInt (length + 20 + 8)).toNat > PACKET_MAX_SIZE

/-- A datagram that changes nothing and is not answered. -/
def DatagramIgnored (s : Stack) (packet : IpPacket) : Prop :=
  packet.length < 0 ∨
    if packet.header 9 = 1 then EchoIgnored packet
    else packet.header 9 = 6 → SegmentIgnored s packet.tcpPacket

section Ignored

variable {s : Stack}

theorem acceptSyn_ignored_iff (hlisten : s.tcpConn.state = .listen) (packet : TcpPacket)
    (rand : Rand) :
    (∀ s', acceptSyn s packet rand = some s' → s'.tcpConn = s.tcpConn) ↔
      ∀ maxSegment windowScale, ¬ OpeningSyn packet maxSegment windowScale := by
  constructor
  · intro hall maxSegment windowScale hopens
    have hconn := hall _ (hopens.acceptSyn_eq s rand)
    have hstate := congrArg TcpConnection.state hconn
    rw [hlisten] at hstate
    cases hstate
  · intro hnone s' haccept
    rcases acceptSyn_opening s packet with hhang | hdrop | ⟨maxSegment, windowScale, hopens⟩
    · rw [hhang rand] at haccept
      cases haccept
    · rw [hdrop rand] at haccept
      cases haccept
      rfl
    · exact absurd hopens (hnone maxSegment windowScale)

theorem tcpInput_eq_self_iff {packet : TcpPacket} (hport : packet.tcp.destPort = 80) :
    tcpInput s.ipAddr s.tcpConn packet = s.tcpConn ↔
      connectionMatch s.ipAddr s.tcpConn packet = false ∨
        if packet.tcp.has TCP_RST then s.tcpConn.state = .sendRst ∧ s.tcpConn.ackTimeout = -1
        else Accepts s.tcpConn packet → Stale s.tcpConn packet := by
  unfold tcpInput
  rw [if_neg (not_not.mpr hport)]
  cases hmatch : connectionMatch s.ipAddr s.tcpConn packet with
  | false => simp
  | true =>
    cases hrst : packet.tcp.has TCP_RST with
    | true =>
      simp only [Bool.not_true, Bool.false_eq_true, if_false, if_true, reduceCtorEq, false_or]
      constructor
      · intro heq
        exact ⟨(congrArg TcpConnection.state heq).symm,
          (congrArg TcpConnection.ackTimeout heq).symm⟩
      · rintro ⟨hstate, htimer⟩
        rw [← hstate, ← htimer]
    | false =>
      simp only [Bool.not_true, Bool.false_eq_true, if_false, reduceCtorEq, false_or]
      by_cases haccepts : Accepts s.tcpConn packet
      · simp [receiveSegment_eq_self_iff haccepts, haccepts]
      · simp [receiveSegment_of_not_accepts haccepts, haccepts]

theorem handleTcpPacket_ignored_iff (packet : TcpPacket) (rand : Rand) :
    (∀ s', handleTcpPacket s packet rand = some s' → s'.tcpConn = s.tcpConn) ↔
      SegmentIgnored s packet := by
  unfold SegmentIgnored
  by_cases hport : packet.tcp.destPort = 80
  · by_cases hlisten : s.tcpConn.state = .listen
    · cases hrst : packet.tcp.has TCP_RST with
      | true => simp [handleTcpPacket, hlisten, hrst]
      | false =>
        rw [handleTcpPacket_of_listen hlisten hport hrst, acceptSyn_ignored_iff hlisten]
        simp [hport, hlisten]
    · rw [handleTcpPacket_open hlisten, if_neg hlisten, ← tcpInput_eq_self_iff hport]
      simp [hport]
  · simp [handleTcpPacket, hport]

theorem handlePingPacket_ignored_iff (packet : IpPacket) :
    (∀ s' frames, handlePingPacket s packet = some (s', frames) →
      s'.tcpConn = s.tcpConn ∧ frames = []) ↔ EchoIgnored packet := by
  unfold handlePingPacket EchoIgnored
  dsimp only
  by_cases hecho : ntohPing packet.header packet.transport packet.transport ≠ 8 ∨
      ntohPing packet.header packet.transport (packet.transport + 1) ≠ 0
  · rw [if_pos hecho]
    refine iff_of_true (fun s' frames h => ?_) (.inl hecho)
    cases h
    exact ⟨rfl, rfl⟩
  rw [if_neg hecho]
  generalize pingPayloadLength (ipHeader (ntohPing packet.header packet.transport)) = length
  by_cases hneg : length < 0
  · rw [if_pos hneg]
    exact iff_of_true (fun s' frames h => by cases h) (.inr (.inl hneg))
  rw [if_neg hneg]
  by_cases hfits : (14 : Int) + (UInt16.ofInt (length + 20 + 8)).toNat ≤ PACKET_MAX_SIZE
  · rw [if_pos hfits]
    refine iff_of_false (fun hall => ?_) ?_
    · exact absurd (hall _ _ rfl).2 (by simp)
    · rintro (h | h | h)
      · exact hecho h
      · exact hneg h
      · omega
  · rw [if_neg hfits]
    refine iff_of_true (fun s' frames h => ?_) (.inr (.inr (by omega)))
    cases h
    exact ⟨rfl, rfl⟩

theorem handleIpPacket_ignored_iff (packet : IpPacket) (rand : Rand) :
    (∀ s' frames, handleIpPacket s packet rand = some (s', frames) →
      s'.tcpConn = s.tcpConn ∧ frames = []) ↔ DatagramIgnored s packet := by
  unfold handleIpPacket DatagramIgnored
  by_cases hinvalid : packet.length < 0
  · simp [hinvalid]
  by_cases hping : packet.header 9 = 1
  · simp [hinvalid, hping, ← handlePingPacket_ignored_iff (s := s)]
  by_cases htcp : packet.header 9 = 6
  · simp [hinvalid, htcp, ← handleTcpPacket_ignored_iff packet.tcpPacket rand]
  · simp [hinvalid, hping, htcp]

end Ignored

/-! ## Frames -/

theorem ntohArp_oper (packet : EthPacket) :
    le16 (ntohArp packet.data) 6 = be16 packet.buffer 20 := by
  simp [ntohArp, le16, swap32, swap16, be16, EthPacket.data, UInt16.or_comm]

theorem ntohArp_tpa (packet : EthPacket) :
    le32 (ntohArp packet.data) 24 = be32 packet.buffer 38 := by
  rw [ntohArp, le32_swap32]
  simp [swap32, swap16, be32, EthPacket.data]

/-- An ARP request that is answered asks for the address of this host. -/
theorem handleArpPacket_forHost {s : Stack} {frame : RxFrame} (htype : frame.packet.type = .arp)
    (hsent : handleArpPacket s (newArpPacket frame.packet) ≠ []) : ForHost s frame := by
  unfold handleArpPacket at hsent
  split_ifs at hsent with hvalid hrequest hhost
  · exact absurd rfl hsent
  · exact .inl ⟨htype, (ntohArp_oper frame.packet).symm.trans hrequest,
      (ntohArp_tpa frame.packet).symm.trans hhost⟩
  · exact absurd rfl hsent
  · exact absurd rfl hsent

/-- The stack keeps to its own address exactly for ARP frames, datagrams for this host and
datagrams that change nothing. -/
theorem other_hosts_ignored_iff (s : Stack) (frame : RxFrame) :
    KeepsToHost s frame ↔ (frame.packet.type = .ip →
      be32 frame.packet.buffer 30 = s.ipAddr ∨
        DatagramIgnored s (newIpPacket frame.packet)) := by
  unfold KeepsToHost handleRxPacket
  cases htype : frame.packet.type with
  | arp =>
    refine iff_of_true (fun s' frames h hacts => ?_) (by simp)
    cases h
    exact handleArpPacket_forHost htype (hacts.resolve_left (by simp))
  | unknown =>
    refine iff_of_true (fun s' frames h hacts => ?_) (by simp)
    cases h
    simp at hacts
  | ip =>
    simp only [true_implies]
    rw [← handleIpPacket_ignored_iff (newIpPacket frame.packet) frame.rand]
    by_cases hhost : be32 frame.packet.buffer 30 = s.ipAddr
    · exact iff_of_true (fun s' frames h hacts => .inr ⟨htype, hhost⟩) (.inl hhost)
    · have hother : ¬ ForHost s frame := by
        rintro (⟨harp, -⟩ | ⟨-, hdest⟩)
        · rw [htype] at harp
          cases harp
        · exact hhost hdest
      simp only [hhost, hother, false_or]
      refine forall_congr' fun s' => forall_congr' fun frames => imp_congr_right fun _ => ?_
      tauto

/-- A datagram from 10.0.0.2 to 10.0.0.9. -/
def strayFrame (protocol : UInt8) (content : List UInt8) : RxFrame where
  packet :=
    { buffer := fun i => List.getD
        ([2, 0, 0, 0, 0, 1, 2, 0, 0, 0, 0, 2, 0x08, 0x00,
          0x45, 0, 0, 20 + UInt8.ofNat content.length, 0, 0, 0x40, 0, 64, protocol, 0, 0,
          10, 0, 0, 2, 10, 0, 0, 9] ++ content) i 0
      length := 34 + content.length }
  rand := ⟨0, 100⟩

/-- An echo request. -/
def strayEcho : RxFrame := strayFrame 1 [8, 0, 0, 0, 0, 1, 0, 1]

/-- A SYN to port 80. -/
def straySyn : RxFrame :=
  strayFrame 6 [0x0F, 0xA0, 0, 80, 0, 0, 0, 0, 0, 0, 0, 0, 0x50, 2, 4, 0, 0, 0, 0, 0]

/-- A datagram for another host that the stack acts on. -/
theorem not_keepsToHost {s : Stack} {frame : RxFrame} (htype : frame.packet.type = .ip)
    (hdest : be32 frame.packet.buffer 30 ≠ s.ipAddr)
    (hacts : (handleRxPacket s frame).any (fun x =>
      decide (x.1.tcpConn.state ≠ s.tcpConn.state ∨ x.2 ≠ [])) = true) :
    ¬ KeepsToHost s frame := by
  obtain ⟨⟨s', frames⟩, hstep, hacted⟩ := (Option.any_eq_true _ _).mp hacts
  intro hkeeps
  have hfor := hkeeps s' frames hstep
    ((of_decide_eq_true hacted).imp_left fun hstate heq => hstate (by rw [heq]))
  rcases hfor with ⟨harp, -⟩ | ⟨-, hhost⟩
  · rw [htype] at harp
    cases harp
  · exact hdest hhost

/-- The host 10.0.0.1 answers both. -/
theorem stray_frames_answered :
    listeningStack.ipAddr = 0x0A000001 ∧ be32 strayEcho.packet.buffer 30 = 0x0A000009 ∧
      be32 straySyn.packet.buffer 30 = 0x0A000009 ∧ ¬ KeepsToHost listeningStack strayEcho ∧
      ¬ KeepsToHost listeningStack straySyn :=
  ⟨rfl, by decide, by decide, not_keepsToHost (by decide) (by decide) (by decide +kernel),
    not_keepsToHost (by decide) (by decide) (by decide +kernel)⟩

end EthTransfer
