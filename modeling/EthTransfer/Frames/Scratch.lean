import EthTransfer.Frames.Copies
import EthTransfer.Frames.Wire
import EthTransfer.Transmit.Arithmetic

/-!
# Uninitialised memory

A frame is built in a packet that is not cleared, and the first `length` bytes of it go
out.  Replies to ARP and echo requests never show what the packet held before.  A segment
does so when its length is wrong: with 2^31 bytes or more to be sent `data_length` is
negative, no byte is copied, and `total_length` keeps 16 bits of the sum.

* `wire_scratch_free_iff` says which states those are.
* `ConnRun.fillsFrame`: they need more than 2^31 bytes written on one connection.
* `scratch_on_the_wire` is a run that gets there.
-/

namespace EthTransfer

open GuardedRun InternetChecksum

/-! ## Received frames -/

/-- `handle_rx_packet`: the bytes of the frames that it sends. -/
def rxBytes (s : Stack) (frame : RxFrame) (scratch below : Bytes) : Option (List (List UInt8)) :=
  match frame.packet.type with
  | .arp => some (arpBytes s (newArpPacket frame.packet) scratch)
  | .ip =>
    let packet := newIpPacket frame.packet
    if packet.length < 0 then some []
    else if packet.header 9 = 1 then echoBytes s packet scratch below
    else if packet.header 9 = 6 then
      (handleTcpPacket s packet.tcpPacket frame.rand).map fun _ => []
    else some []
  | .unknown => some []

/-- A reply to a frame that `get_packet` delivers is shorter than 2^16 bytes. -/
theorem pingPayloadLength_lt {packet : EthPacket}
    (hdelivered : packet.length ≤ PACKET_MAX_SIZE - 4)
    (haccepted : ¬ (newIpPacket packet).length < 0)
    (hecho : ntohPing (newIpPacket packet).header (newIpPacket packet).transport
      (newIpPacket packet).transport = 8) :
    pingPayloadLength (ipHeader (ntohPing (newIpPacket packet).header
      (newIpPacket packet).transport)) < 65508 := by
  obtain ⟨-, hlength⟩ := newIpPacket_accepted haccepted
  have htransport := newIpPacket_transport packet
  rw [pingPayloadLength_ntohPing _ (transport_pos_of_echo hecho), pingPayloadLength]
  unfold PACKET_MAX_SIZE at hdelivered
  omega

/-- `handle_rx_packet` sends the bytes of its replies. -/
theorem rxBytes_eq (s : Stack) {frame : RxFrame}
    (hdelivered : frame.packet.length ≤ PACKET_MAX_SIZE - 4) (scratch below : Bytes) :
    rxBytes s frame scratch below =
      (handleRxPacket s frame).map fun result => result.2.map (TxFrame.bytes s) := by
  unfold rxBytes handleRxPacket
  cases htype : frame.packet.type with
  | arp =>
    dsimp only
    rw [arpBytes_eq s htype]
    rfl
  | ip =>
    dsimp only
    unfold handleIpPacket
    split_ifs with hinvalid hping htcp
    · rfl
    · by_cases hecho : ntohPing (newIpPacket frame.packet).header
          (newIpPacket frame.packet).transport (newIpPacket frame.packet).transport = 8
      · exact echoBytes_eq s htype (pingPayloadLength_lt hdelivered hinvalid hecho) scratch below
      · simp [echoBytes, handlePingPacket, hecho]
    · rw [Option.map_map]
      rfl
    · rfl
  | unknown => rfl

/-! ## Segments -/

/-- The length of the segment covers no byte that is not filled in: there are less than
2^31 bytes to be sent, or the 16 bits of `total_length` end the frame in front of the
payload or make it too long for `send_packet`. -/
def FillsFrame (c : TcpConnection) : Prop :=
  (sendRoom c).toNat < 2 ^ 31 ∨ (sendRoom c).toNat % 65536 = 0 ∨
    1994 < (sendRoom c).toNat % 65536

/-- `ip_checksum_add` reads in front of the end only. -/
theorem ipChecksumAdd_congr {buf buf' : Int → UInt8} {len : Int}
    (hsame : ∀ i < len, buf i = buf' i) (checksum : UInt32) :
    ipChecksumAdd checksum buf len = ipChecksumAdd checksum buf' len := by
  have hloop : ∀ (n : ℕ) (i : Int) (checksum : UInt32),
      checksumLoop buf len n i checksum = checksumLoop buf' len n i checksum := by
    intro n
    induction n with
    | zero => exact fun i checksum => rfl
    | succ n ih =>
      intro i checksum
      unfold checksumLoop
      split_ifs with hmore
      · dsimp only
        rw [hsame i (by omega), hsame (i + 1) (by omega), ih]
      · rfl
  unfold ipChecksumAdd
  rw [hloop, hsame (len - 1) (by omega)]

section Segment

variable {s : Stack} {c : TcpConnection} {below scratch scratch' : Bytes}

/-- With fewer bytes to be sent the length is a natural number. -/
theorem exists_sendLength (hshort : (sendRoom c).toNat < 2 ^ 31) : ∃ n : ℕ, sendLength c = n := by
  refine ⟨(sendLength c).toNat, ?_⟩
  rw [sendLength_eq_min, Word.toInt_of_lt hshort]
  unfold MAX_SEGMENT
  omega

/-- With too much to be sent the length is negative, and the sum in `total_length` wraps. -/
theorem sendLength_of_long (hlong : 2 ^ 31 ≤ (sendRoom c).toNat) :
    sendOffset c = 20 ∧ sendLength c = (sendRoom c).toNat - 2 ^ 32 ∧
      (UInt16.ofInt (20 + sendOffset c + sendLength c)).toNat =
        (40 + (sendRoom c).toNat) % 65536 := by
  have hlt := (sendRoom c).toNat_lt
  have hsyn : isSyn c = false := by
    by_contra hsyn
    rw [toNat_sendRoom, if_pos (by simpa using hsyn)] at hlong
    omega
  have hlength : sendLength c = (sendRoom c).toNat - 2 ^ 32 := by
    rw [sendLength_eq_min, Word.toInt_eq, if_neg (by omega)]
    unfold MAX_SEGMENT
    omega
  have hoffset : sendOffset c = 20 := by
    unfold sendOffset
    simp [hsyn]
  refine ⟨hoffset, hlength, ?_⟩
  rw [hlength, hoffset, UInt16.ofInt, UInt16.toNat_ofNat']
  omega

/-- The headers, with zero for the checksum of the segment. -/
theorem takeBytes_headers (s : Stack) (c : TcpConnection) (scratch : Bytes) (x : UInt16) :
    takeBytes (put16 (segmentBuffer s c scratch) 24 x) 54 =
      macBytes c.remoteMac ++ macBytes s.localMac ++ [0x00, 0x08, (0x45 : UInt8), 0] ++
        bytes16 (UInt16.ofInt (20 + sendOffset c + sendLength c)) ++
        bytes16 s.identificationCounter ++
        [(0x40 : UInt8), 0, 128, 6, x.toUInt8, (x >>> 8).toUInt8] ++
        bytes32 s.ipAddr ++ bytes32 c.remoteIp ++
        (buildSegment c fun _ => 0).headerBytes 0 := by
  unfold segmentBuffer buildSegment sendOffset
  cases isSyn c with
  | true => rfl
  | false => rfl

/-- The headers do not depend on what the packet held. -/
theorem putIpChecksum_agree {i : ℕ} (hi : i < 54) :
    putIpChecksum below (segmentBuffer s c scratch) i =
      putIpChecksum below (segmentBuffer s c scratch') i := by
  rw [putIpChecksum_eq, putIpChecksum_eq]
  have hheaders := fun x => (takeBytes_headers s c scratch x).trans
    (takeBytes_headers s c scratch' x).symm
  exact takeBytes_inj (hheaders _) hi

/-- Nor does the checksum of a segment that ends in front of the payload. -/
theorem putTcpChecksum_agree {len : Int} (hlen : len ≤ 20) {i : ℕ} (hi : i < 54) :
    putTcpChecksum below (putIpChecksum below (segmentBuffer s c scratch)) len i =
      putTcpChecksum below (putIpChecksum below (segmentBuffer s c scratch')) len i := by
  have hagree : ∀ (off : ℕ) (k : Int), off + k < 54 →
      pointer below (putIpChecksum below (segmentBuffer s c scratch)) off k =
        pointer below (putIpChecksum below (segmentBuffer s c scratch')) off k := by
    intro off k hk
    unfold pointer
    split_ifs with hfront
    · exact putIpChecksum_agree (by omega)
    · rfl
  unfold putTcpChecksum
  rw [ipChecksumAdd_congr (fun k hk => hagree 26 k (by omega)) 0,
    ipChecksumAdd_congr (fun k hk => hagree 34 k (by omega))]
  unfold put16
  rw [putIpChecksum_agree hi]

/-- The payload of a segment comes from the ring. -/
theorem buildSegment_congr {n : ℕ} (hlength : sendLength c = n) (scratch scratch' : Bytes) :
    buildSegment c scratch = buildSegment c scratch' := by
  have hpayload : (buildSegment c scratch).payload = (buildSegment c scratch').payload := by
    have hle := sendLength_le c
    unfold MAX_SEGMENT at hle
    refine List.ext_getElem? fun i => ?_
    by_cases hi : i < n
    · rw [buildSegment_payload_get hlength (by omega) hi,
        buildSegment_payload_get hlength (by omega) hi]
    · rw [List.getElem?_eq_none (by simp [hlength]; omega),
        List.getElem?_eq_none (by simp [hlength]; omega)]
  unfold buildSegment at hpayload ⊢
  simpa using hpayload

/-- The bytes do not depend on what the packet held. -/
theorem FillsFrame.segmentBytes_eq (hfills : FillsFrame c) (below scratch scratch' : Bytes) :
    segmentBytes s c scratch below = segmentBytes s c scratch' below := by
  by_cases hlong : (sendRoom c).toNat < 2 ^ 31
  · obtain ⟨n, hn⟩ := exists_sendLength hlong
    rw [EthTransfer.segmentBytes_eq s c scratch below hn,
      EthTransfer.segmentBytes_eq s c scratch' below hn, buildSegment_congr hn]
  · obtain ⟨hoffset, hlength, htotal⟩ := sendLength_of_long (not_lt.mp hlong)
    have hlt := (sendRoom c).toNat_lt
    have hbuild : ∀ scratch, (buildSegment c scratch).totalLength =
        UInt16.ofInt (20 + sendOffset c + sendLength c) := fun scratch => rfl
    unfold segmentBytes sendPacket PACKET_MAX_SIZE
    dsimp only
    rw [hbuild, hbuild, htotal]
    split_ifs with hrange
    · rfl
    · have hshort : (40 + (sendRoom c).toNat) % 65536 ≤ 40 := by
        unfold FillsFrame at hfills
        omega
      refine congrArg some (takeBytes_congr fun i hi => ?_)
      exact SameUpTo.swap16 (n := 54) (fun j hj => putTcpChecksum_agree (by omega) hj)
        (by omega) i (by omega)

/-- Nothing is copied behind the headers. -/
theorem segmentBuffer_behind (hlong : 2 ^ 31 ≤ (sendRoom c).toNat) :
    segmentBuffer s c scratch 54 = scratch 54 := by
  obtain ⟨hoffset, hlength, -⟩ := sendLength_of_long hlong
  have hlt := (sendRoom c).toNat_lt
  have hsyn : isSyn c = false := by
    by_contra hsyn
    simp [sendOffset, hsyn] at hoffset
  have hcopy : ∀ dest, copyFromCircleBuffer dest (sendLength c) c.txBuffer TX_MASK c.txSent
      (sendLength c) = dest := by
    intro dest
    unfold copyFromCircleBuffer
    rw [if_neg (by omega), if_neg (by omega), if_pos (by omega)]
  unfold segmentBuffer
  simp only [hsyn, hoffset, hcopy]
  rfl

/-- A byte of the packet that goes out as it was. -/
theorem segmentBytes_behind (hnot : ¬ FillsFrame c) (scratch below : Bytes) :
    ∃ bytes, segmentBytes s c scratch below = some bytes ∧ bytes[54]? = some (scratch 54) := by
  unfold FillsFrame at hnot
  obtain ⟨hoffset, hlength, htotal⟩ := sendLength_of_long (c := c) (by omega)
  have hbuild : (buildSegment c scratch).totalLength =
      UInt16.ofInt (20 + sendOffset c + sendLength c) := rfl
  unfold segmentBytes sendPacket PACKET_MAX_SIZE
  dsimp only
  rw [hbuild, htotal, if_neg (by omega)]
  refine ⟨_, rfl, ?_⟩
  rw [takeBytes, List.getElem?_map, List.getElem?_range (by omega), Option.map_some,
    swap16_of_gt _ (by omega), putTcpChecksum, put16_of_gt _ _ (by omega), putIpChecksum,
    put16_of_gt _ _ (by omega), segmentBuffer_behind (by omega)]

theorem segmentBytes_of_not_fillsFrame (hnot : ¬ FillsFrame c) (below : Bytes) :
    segmentBytes s c (fun _ => 0) below ≠ segmentBytes s c (fun _ => 1) below := by
  obtain ⟨bytes, hbytes, hzero⟩ := segmentBytes_behind (s := s) hnot (fun _ => 0) below
  obtain ⟨bytes', hbytes', hone⟩ := segmentBytes_behind (s := s) hnot (fun _ => 1) below
  intro hsame
  rw [hbytes, hbytes', Option.some.injEq] at hsame
  rw [hsame, hone] at hzero
  exact absurd hzero (by decide)

end Segment

/-! ## The wire -/

/-- What goes out does not depend on what the packets held, for every frame, and for a
segment exactly when its length is right. -/
theorem wire_scratch_free_iff (s : Stack) :
    (∀ frame : RxFrame, frame.packet.length ≤ PACKET_MAX_SIZE - 4 →
      ∀ below scratch scratch', rxBytes s frame scratch below = rxBytes s frame scratch' below) ∧
    ∀ clock, (∀ below scratch scratch',
        sendTcpBytes s clock scratch below = sendTcpBytes s clock scratch' below) ↔
      (s.tcpConn.state ≠ .listen → ∀ c, sendFrom s.tcpConn clock = some c → FillsFrame c) := by
  refine ⟨fun frame hdelivered below scratch scratch' => ?_, fun clock => ?_⟩
  · rw [rxBytes_eq s hdelivered, rxBytes_eq s hdelivered]
  unfold sendTcpBytes
  by_cases hlisten : s.tcpConn.state = .listen
  · simp [hlisten]
  simp only [hlisten, if_false, ne_eq, not_false_iff, true_implies]
  cases hfrom : sendFrom s.tcpConn clock with
  | none => simp
  | some c =>
    simp only [Option.bind_some, Option.some.injEq, forall_eq']
    constructor
    · intro hsame
      by_contra hnot
      exact segmentBytes_of_not_fillsFrame (s := s) hnot (fun _ => 0) (hsame _ _ _)
    · intro hfills below scratch scratch'
      exact hfills.segmentBytes_eq below scratch scratch'

/-- Segments are well behaved as long as fewer than 2^31 - 1 bytes are written, whatever the
peer sends. -/
theorem ConnRun.fillsFrame {s : Stack} {syn : TcpPacket} {c₀ c c₁ : TcpConnection}
    {h : ConnHistory} {clock : Clock} (hopens : Opens s syn c₀)
    (hrun : ConnRun s.ipAddr anyEvent c₀ h c) (hcount : (written h).length < 2 ^ 31 - 1)
    (hfrom : sendFrom c clock = some c₁) : FillsFrame c₁ := by
  have hwindow := hrun.windowBounded hopens.windowBounded
  have hsafe := hrun.sendSafe ⟨hopens.windowBounded, hopens.sendSafe⟩ hcount
  have hnonneg := ((hsafe.sendFrom hwindow hcount hfrom).exactSegment hcount).nonneg
  refine .inl (not_le.mp fun hlong => ?_)
  obtain ⟨-, hlength, -⟩ := sendLength_of_long hlong
  have hlt := (sendRoom c₁).toNat_lt
  omega

/-- An echo request and a SYN-ACK, in a packet of zeros and in one of ones. -/
theorem wire_scratch_free_iff_two :
    rxBytes listeningStack (echoFrame 0x45 34 0 32 46) (fun _ => 0) (fun _ => 0) =
        rxBytes listeningStack (echoFrame 0x45 34 0 32 46) (fun _ => 1) (fun _ => 0) ∧
      sendTcpBytes { listeningStack with tcpConn := peerConnection } ⟨0, 0⟩ (fun _ => 0)
          (fun _ => 0) =
        sendTcpBytes { listeningStack with tcpConn := peerConnection } ⟨0, 0⟩ (fun _ => 1)
          (fun _ => 0) := by
  refine ⟨(wire_scratch_free_iff listeningStack).1 _ (by decide) _ _ _,
    ((wire_scratch_free_iff _).2 ⟨0, 0⟩).mpr (fun _ c hfrom => ?_) _ _ _⟩
  have hdue : sendFrom peerConnection ⟨0, 0⟩ = some peerConnection := by
    rw [sendFrom, if_pos (by decide)]
  rw [hdue] at hfrom
  obtain rfl := Option.some.inj hfrom
  exact .inl (by decide)

/-- The peer acknowledges bytes that were never sent, and so makes room for two calls of
`write_tcp` with nearly 2^31 bytes each. -/
def hugeWrites : List ConnEvent :=
  [.send ⟨0, 0⟩ fun _ => 0, .receive (peerPacket 1 2147479652 TCP_ACK 4096 []),
    .write 1 (fun _ => 97) (2 ^ 31 - 1)] ++ List.replicate 12 (.send ⟨0, 0⟩ fun _ => 0) ++
    [.receive (peerPacket 1 4294931465 TCP_ACK 4096 [])] ++
    List.replicate 12 (.send ⟨0, 0⟩ fun _ => 0) ++
    [.write 1 (fun _ => 97) (2 ^ 31 - 31835)]

theorem hugeWrites_meets :
    ConnMeets listeningStack.ipAddr anyEvent peerConnection hugeWrites := by
  decide +kernel

/-- The connection after that. -/
def overfullConnection : TcpConnection :=
  (connExec listeningStack.ipAddr peerConnection hugeWrites).2

/-- The next segment has the length -65436 and a `total_length` of 140, so that 100 bytes
of the packet go out as they were. -/
theorem scratch_on_the_wire :
    Opens listeningStack peerSyn peerConnection ∧
      (∃ h, ConnRun listeningStack.ipAddr anyEvent peerConnection h overfullConnection) ∧
      (sendTcpBytes { listeningStack with tcpConn := overfullConnection } ⟨0, 0⟩ (fun _ => 7)
        (fun _ => 0)).map (List.drop 54) = some (List.replicate 100 7) ∧
      ¬ ∀ below scratch scratch',
        sendTcpBytes { listeningStack with tcpConn := overfullConnection } ⟨0, 0⟩ scratch below =
          sendTcpBytes { listeningStack with tcpConn := overfullConnection } ⟨0, 0⟩ scratch'
            below := by
  have hseven : (sendTcpBytes { listeningStack with tcpConn := overfullConnection } ⟨0, 0⟩
      (fun _ => 7) (fun _ => 0)).map (List.drop 54) = some (List.replicate 100 7) := by
    decide +kernel
  have hzero : (sendTcpBytes { listeningStack with tcpConn := overfullConnection } ⟨0, 0⟩
      (fun _ => 0) (fun _ => 0)).map (List.drop 54) = some (List.replicate 100 0) := by
    decide +kernel
  refine ⟨peerSyn_opens, ⟨_, hugeWrites_meets.run⟩, hseven, fun hsame => ?_⟩
  rw [hsame _ _ fun _ => 0, hzero] at hseven
  exact absurd hseven (by decide)

end EthTransfer
