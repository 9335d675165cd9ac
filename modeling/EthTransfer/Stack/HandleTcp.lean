import EthTransfer.Stack.AddSegment
import EthTransfer.Stack.Options

/-!
# Receiving TCP segments

`handle_tcp_packet`, cut at the points where it returns: the SYN that opens a
connection (`acceptSyn`), and the segment of an open connection
(`receiveSegment`), which stores the payload, takes the acknowledgement
(`receiveAck`) and the FIN (`receiveFin`).  `OpeningSyn` is a SYN that opens a
connection, and `acceptSyn_cases` says what happens to any other packet.

`tcpInput` is the whole function on a connection that is not in `TCP_LISTEN`.
It always returns, because only a SYN in `TCP_LISTEN` runs the option scanner.
`Received` lists what it can do.
-/

namespace EthTransfer

/-! ## The translation -/

/-- Two results of `rand()`. -/
structure Rand where
  first : UInt32
  second : UInt32

/-- `(rand() << 16) | (rand() & 0xFFFF)`. -/
def Rand.sequence (rand : Rand) : UInt32 := (rand.first <<< 16) ||| (rand.second &&& 0xFFFF)

/-- `connection_match`: the packet has the 4-tuple of the connection. -/
def connectionMatch (ipAddr : UInt32) (c : TcpConnection) (packet : TcpPacket) : Bool :=
  packet.tcp.sourcePort == c.remotePort && packet.tcp.destPort == c.localPort &&
    packet.ip.sourceIp == c.remoteIp && packet.ip.destIp == ipAddr

/-- The fields that an accepted SYN sets. -/
def openConnection (c : TcpConnection) (packet : TcpPacket) (id : Int) (rand : Rand)
    (windowScale : ℕ) (maxSegment : Int) : TcpConnection :=
  let remoteWindow := packet.tcp.windowSize.toUInt32 <<< UInt32.ofNat windowScale
  { c with
    connectionId := id
    state := .synReceived
    localPort := packet.tcp.destPort
    localSequence := rand.sequence
    remoteMac := packet.sourceMac
    remotePort := packet.tcp.sourcePort
    remoteIp := packet.ip.sourceIp
    remoteSequence := packet.tcp.sequence
    remoteWindowScale := windowScale
    remoteWindow := remoteWindow
    remoteMaxSegment := UInt32.ofInt maxSegment
    rxWrite := 1
    rxRead := 1
    rxFin := NO_FIN
    txWrite := 1
    txSent := 1
    txAcked := 0
    txLimit := 1 + remoteWindow
    txFin := NO_FIN
    ackTimeout := -1
    rxSegments := [] }

/-- The branch of `handle_tcp_packet` for `TCP_LISTEN`; `none` when the option
scanner does not return. -/
def acceptSyn (s : Stack) (packet : TcpPacket) (rand : Rand) : Option Stack :=
  if packet.tcp.has TCP_SYN && !packet.tcp.has TCP_ACK then do
    let options : Bytes := fun i => packet.tcp.bytes (20 + i)
    let maxSegment ← scanOptions options (packet.tcp.dataOffset - 20) 2
    let windowScale ← scanOptions options (packet.tcp.dataOffset - 20) 3
    let windowScale := if windowScale < 0 then 0 else windowScale
    if windowScale > 14 then some s
    else if maxSegment = 0 then some s
    else
      let maxSegment :=
        if maxSegment < 0 ∨ maxSegment > MAX_SEGMENT then MAX_SEGMENT else maxSegment
      some { s with
        connectionCounter := s.connectionCounter + 1
        tcpConn := openConnection s.tcpConn packet s.connectionCounter rand
          windowScale.toNat maxSegment }
  else some s

/-- The acknowledgement and the window of a segment.  `ack` is an `int`, and
the comparison converts it back to `uint32_t`. -/
def receiveAck (c : TcpConnection) (packet : TcpPacket) : TcpConnection :=
  let ack := Word.toInt (packet.tcp.ack - c.localSequence)
  let acked : Bool := UInt32.ofInt ack > c.txAcked
  let txAcked := if acked then UInt32.ofInt ack else c.txAcked
  let remoteWindow := packet.tcp.windowSize.toUInt32 <<< UInt32.ofNat c.remoteWindowScale
  let newLimit := txAcked + remoteWindow
  { c with
    txAcked := txAcked
    ackTimeout := if acked ∧ txAcked = c.txFin then -1 else c.ackTimeout
    remoteWindow := remoteWindow
    txLimit := if newLimit > c.txLimit then newLimit else c.txLimit
    state := if c.state = .synAckSent ∧ acked then .connected else c.state }

/-- The offset that a segment acknowledges. -/
def TcpPacket.ackOffset (packet : TcpPacket) (c : TcpConnection) : UInt32 :=
  packet.tcp.ack - c.localSequence

/-- The window that a segment of an open connection offers. -/
def TcpPacket.window (packet : TcpPacket) (c : TcpConnection) : UInt32 :=
  packet.tcp.windowSize.toUInt32 <<< UInt32.ofNat c.remoteWindowScale

/-- The end of `handle_tcp_packet`: a FIN, and the timer that makes the stack
acknowledge what arrived. -/
def receiveFin (c : TcpConnection) (packet : TcpPacket) (base : UInt32) : TcpConnection :=
  { c with
    rxFin := if packet.tcp.has TCP_FIN then base + UInt32.ofInt packet.dataLength else c.rxFin
    ackTimeout :=
      if packet.tcp.has TCP_FIN ∨ packet.dataLength > 0 then -1 else c.ackTimeout }

theorem receiveFin_rxFin (c : TcpConnection) (packet : TcpPacket) (base : UInt32) :
    (receiveFin c packet base).rxFin =
      if packet.tcp.has TCP_FIN then base + UInt32.ofInt packet.dataLength else c.rxFin := rfl

/-- The part of `handle_tcp_packet` for a segment of an open connection. -/
def receiveSegment (c : TcpConnection) (packet : TcpPacket) : TcpConnection :=
  let base := packet.tcp.sequence - c.remoteSequence
  let dataLength := packet.dataLength
  if dataLength < 0 ∨ dataLength > MAX_SEGMENT then c
  else if c.rxWrite + UInt32.ofInt dataLength > c.rxRead + TCP_WINDOW then c
  else if packet.tcp.has TCP_SYN then c
  else if !packet.tcp.has TCP_ACK then c
  else
    let c := (addSegment c packet.payload dataLength base).1
    let c := receiveAck c packet
    receiveFin c packet base

/-- `handle_tcp_packet`, after `ntoh_tcp`. -/
def handleTcpPacket (s : Stack) (packet : TcpPacket) (rand : Rand) : Option Stack :=
  if packet.tcp.destPort ≠ 80 then some s
  else if s.tcpConn.state ≠ .listen ∧ !connectionMatch s.ipAddr s.tcpConn packet then some s
  else if packet.tcp.has TCP_RST then
    if s.tcpConn.state ≠ .listen then
      some { s with tcpConn := { s.tcpConn with state := .sendRst, ackTimeout := -1 } }
    else some s
  else if s.tcpConn.state = .listen then acceptSyn s packet rand
  else some { s with tcpConn := receiveSegment s.tcpConn packet }

/-! ## The opening SYN -/

/-- The SYN opens a connection: the options hold a window scale of at most 14 and a
segment size other than 0, or none, which is a negative value. -/
structure OpeningSyn (packet : TcpPacket) (maxSegment windowScale : Int) : Prop where
  flags : (packet.tcp.has TCP_SYN && !packet.tcp.has TCP_ACK) = true
  maxSegment_eq : scanOptions (fun i => packet.tcp.bytes (20 + i)) (packet.tcp.dataOffset - 20) 2 =
    some maxSegment
  windowScale_eq : scanOptions (fun i => packet.tcp.bytes (20 + i)) (packet.tcp.dataOffset - 20) 3 =
    some windowScale
  windowScale_le : windowScale ≤ 14
  maxSegment_ne : maxSegment ≠ 0

theorem OpeningSyn.acceptSyn_eq {packet : TcpPacket} {maxSegment windowScale : Int}
    (h : OpeningSyn packet maxSegment windowScale) (s : Stack) (rand : Rand) :
    acceptSyn s packet rand =
      some { s with
        connectionCounter := s.connectionCounter + 1
        tcpConn := openConnection s.tcpConn packet s.connectionCounter rand
          (if windowScale < 0 then 0 else windowScale).toNat
          (if maxSegment < 0 ∨ maxSegment > MAX_SEGMENT then MAX_SEGMENT else maxSegment) } := by
  have hscale : ¬ (if windowScale < 0 then 0 else windowScale) > 14 := by
    have hle := h.windowScale_le
    omega
  unfold acceptSyn
  rw [if_pos h.flags]
  simp only [h.maxSegment_eq, h.windowScale_eq, Option.bind_eq_bind, Option.bind_some]
  rw [if_neg hscale, if_neg h.maxSegment_ne]

/-- What happens to a packet does not depend on the random numbers: the option
scanner hangs, the packet is dropped, or it opens a connection. -/
theorem acceptSyn_opening (s : Stack) (packet : TcpPacket) :
    (∀ rand, acceptSyn s packet rand = none) ∨ (∀ rand, acceptSyn s packet rand = some s) ∨
      ∃ maxSegment windowScale, OpeningSyn packet maxSegment windowScale := by
  by_cases hflags : (packet.tcp.has TCP_SYN && !packet.tcp.has TCP_ACK) = true
  · cases hmax : scanOptions (fun i => packet.tcp.bytes (20 + i)) (packet.tcp.dataOffset - 20) 2
      with
    | none => exact Or.inl fun _ => by simp [acceptSyn, hflags, hmax]
    | some maxSegment =>
      cases hscale : scanOptions (fun i => packet.tcp.bytes (20 + i))
        (packet.tcp.dataOffset - 20) 3 with
      | none => exact Or.inl fun _ => by simp [acceptSyn, hflags, hmax, hscale]
      | some windowScale =>
        by_cases hopens : windowScale ≤ 14 ∧ maxSegment ≠ 0
        · exact Or.inr (Or.inr ⟨maxSegment, windowScale, hflags, hmax, hscale, hopens.1, hopens.2⟩)
        · refine Or.inr (Or.inl fun _ => ?_)
          unfold acceptSyn
          rw [if_pos hflags]
          simp only [hmax, hscale, Option.bind_eq_bind, Option.bind_some]
          split_ifs <;> first | rfl | omega
  · exact Or.inr (Or.inl fun _ => if_neg hflags)

/-- The same, with what the open connection is. -/
theorem acceptSyn_cases (s : Stack) (packet : TcpPacket) :
    (∀ rand, acceptSyn s packet rand = none) ∨
      (∀ rand, acceptSyn s packet rand = some s) ∨
      packet.tcp.has TCP_SYN = true ∧ ∃ windowScale maxSegment, windowScale ≤ 14 ∧
        ∀ rand, acceptSyn s packet rand =
          some { s with
            connectionCounter := s.connectionCounter + 1
            tcpConn := openConnection s.tcpConn packet s.connectionCounter rand windowScale
              maxSegment } := by
  rcases acceptSyn_opening s packet with hhang | hdrop | ⟨maxSegment, windowScale, hopens⟩
  · exact Or.inl hhang
  · exact Or.inr (Or.inl hdrop)
  · have hflags := hopens.flags
    simp only [Bool.and_eq_true] at hflags
    have hle := hopens.windowScale_le
    exact Or.inr (Or.inr ⟨hflags.1, _, _, by omega, hopens.acceptSyn_eq s⟩)

theorem handleTcpPacket_of_listen {s : Stack} (hlisten : s.tcpConn.state = .listen)
    {packet : TcpPacket} (hport : packet.tcp.destPort = 80)
    (hrst : packet.tcp.has TCP_RST = false) (rand : Rand) :
    handleTcpPacket s packet rand = acceptSyn s packet rand := by
  unfold handleTcpPacket
  simp [hlisten, hport, hrst]

/-- `handle_tcp_packet` in `TCP_LISTEN`: as in `acceptSyn_cases`, and a RST never
opens a connection. -/
theorem handleTcpPacket_listen {s : Stack} (hlisten : s.tcpConn.state = .listen)
    (packet : TcpPacket) :
    (∀ rand, handleTcpPacket s packet rand = some s) ∨
      packet.tcp.destPort = 80 ∧ packet.tcp.has TCP_RST = false ∧
        ∀ rand, handleTcpPacket s packet rand = acceptSyn s packet rand := by
  by_cases hport : packet.tcp.destPort = 80
  · cases hrst : packet.tcp.has TCP_RST with
    | true => exact Or.inl fun _ => by simp [handleTcpPacket, hlisten, hrst]
    | false => exact Or.inr ⟨hport, rfl, handleTcpPacket_of_listen hlisten hport hrst⟩
  · exact Or.inl fun _ => by simp [handleTcpPacket, hport]

/-! ## The open connection -/

/-- `handle_tcp_packet` on a connection that is not in `TCP_LISTEN`. -/
def tcpInput (ipAddr : UInt32) (c : TcpConnection) (packet : TcpPacket) : TcpConnection :=
  if packet.tcp.destPort ≠ 80 then c
  else if !connectionMatch ipAddr c packet then c
  else if packet.tcp.has TCP_RST then { c with state := .sendRst, ackTimeout := -1 }
  else receiveSegment c packet

theorem handleTcpPacket_open {s : Stack} (hopen : s.tcpConn.state ≠ .listen)
    (packet : TcpPacket) (rand : Rand) :
    handleTcpPacket s packet rand =
      some { s with tcpConn := tcpInput s.ipAddr s.tcpConn packet } := by
  unfold handleTcpPacket tcpInput
  simp only [ne_eq, hopen, not_false_eq_true, true_and, if_true, if_false]
  split_ifs <;> rfl

/-- The checks that a segment passes before it is processed: its lengths, the
window test, and the flags. -/
structure Accepts (c : TcpConnection) (packet : TcpPacket) : Prop where
  nonneg : 0 ≤ packet.dataLength
  le_max : packet.dataLength ≤ MAX_SEGMENT
  window : c.rxWrite + UInt32.ofInt packet.dataLength ≤ c.rxRead + TCP_WINDOW
  no_syn : packet.tcp.has TCP_SYN = false
  ack : packet.tcp.has TCP_ACK = true

instance (c : TcpConnection) (packet : TcpPacket) : Decidable (Accepts c packet) :=
  decidable_of_iff
    (0 ≤ packet.dataLength ∧ packet.dataLength ≤ MAX_SEGMENT ∧
      c.rxWrite + UInt32.ofInt packet.dataLength ≤ c.rxRead + TCP_WINDOW ∧
      packet.tcp.has TCP_SYN = false ∧ packet.tcp.has TCP_ACK = true)
    ⟨fun ⟨h1, h2, h3, h4, h5⟩ => ⟨h1, h2, h3, h4, h5⟩,
      fun ⟨h1, h2, h3, h4, h5⟩ => ⟨h1, h2, h3, h4, h5⟩⟩

/-- The offset of a segment in the peer's stream. -/
def TcpPacket.base (packet : TcpPacket) (c : TcpConnection) : UInt32 :=
  packet.tcp.sequence - c.remoteSequence

/-- The table entry of a segment. -/
def TcpPacket.segment (packet : TcpPacket) (c : TcpConnection) : TcpSegment :=
  ⟨packet.base c, UInt32.ofInt packet.dataLength⟩

/-- A segment that fails a check changes nothing. -/
theorem receiveSegment_of_not_accepts {c : TcpConnection} {packet : TcpPacket}
    (h : ¬ Accepts c packet) : receiveSegment c packet = c := by
  unfold receiveSegment
  dsimp only
  split_ifs with h1 h2 h3 h4
  · rfl
  · rfl
  · rfl
  · rfl
  · refine absurd ⟨?_, ?_, UInt32.not_lt.mp h2, ?_, ?_⟩ h
    · omega
    · omega
    · simpa using h3
    · simpa using h4

/-- A segment that passes the checks is stored, acknowledged and closed with. -/
theorem receiveSegment_of_accepts {c : TcpConnection} {packet : TcpPacket}
    (h : Accepts c packet) :
    receiveSegment c packet =
      receiveFin (receiveAck (addSegment c packet.payload packet.dataLength (packet.base c)).1
        packet) packet (packet.base c) := by
  have h1 : ¬ (packet.dataLength < 0 ∨ packet.dataLength > MAX_SEGMENT) := by
    have := h.nonneg
    have := h.le_max
    omega
  have h2 : ¬ c.rxWrite + UInt32.ofInt packet.dataLength > c.rxRead + TCP_WINDOW :=
    UInt32.not_lt.mpr h.window
  unfold receiveSegment
  simp [h1, h2, h.no_syn, h.ack, TcpPacket.base]

/-- The length of an accepted segment. -/
theorem Accepts.exists_length {c : TcpConnection} {packet : TcpPacket} (h : Accepts c packet) :
    ∃ n : ℕ, packet.dataLength = n ∧ n ≤ 1400 := by
  obtain ⟨n, hn⟩ := Int.eq_ofNat_of_zero_le h.nonneg
  have hle := h.le_max
  unfold MAX_SEGMENT at hle
  exact ⟨n, hn, by omega⟩

/-- The packet is for this connection. -/
structure Addressed (ipAddr : UInt32) (c : TcpConnection) (packet : TcpPacket) : Prop where
  port : packet.tcp.destPort = 80
  tuple : connectionMatch ipAddr c packet = true

instance (ipAddr : UInt32) (c : TcpConnection) (packet : TcpPacket) :
    Decidable (Addressed ipAddr c packet) :=
  decidable_of_iff (packet.tcp.destPort = 80 ∧ connectionMatch ipAddr c packet = true)
    ⟨fun ⟨h1, h2⟩ => ⟨h1, h2⟩, fun ⟨h1, h2⟩ => ⟨h1, h2⟩⟩

/-- What `handle_tcp_packet` can do to an open connection. -/
inductive Received (ipAddr : UInt32) (c : TcpConnection) (packet : TcpPacket) :
    TcpConnection → Prop where
  /-- The packet is not for this connection, or fails a check. -/
  | ignored (h : Addressed ipAddr c packet →
      packet.tcp.has TCP_RST = false ∧ ¬ Accepts c packet) : Received ipAddr c packet c
  /-- A RST. -/
  | reset (hto : Addressed ipAddr c packet) (hrst : packet.tcp.has TCP_RST = true) :
      Received ipAddr c packet { c with state := .sendRst, ackTimeout := -1 }
  /-- A segment that passes the checks. -/
  | accepted {added : TcpConnection} (hto : Addressed ipAddr c packet)
      (hrst : packet.tcp.has TCP_RST = false) (haccepts : Accepts c packet)
      (hadded : Added c (c.copyRx packet.payload packet.dataLength (packet.base c))
        (packet.segment c) added) :
      Received ipAddr c packet
        (receiveFin (receiveAck added packet) packet (packet.base c))

/-- `tcpInput` does one of the three. -/
theorem tcpInput_received (ipAddr : UInt32) (c : TcpConnection) (packet : TcpPacket) :
    Received ipAddr c packet (tcpInput ipAddr c packet) := by
  unfold tcpInput
  split_ifs with hport hmatch hrst
  · exact .ignored fun h => absurd h.port hport
  · exact .ignored fun h => absurd h.tuple (by simpa using hmatch)
  · exact .reset ⟨not_not.mp hport, by simpa using hmatch⟩ hrst
  · have hto : Addressed ipAddr c packet := ⟨not_not.mp hport, by simpa using hmatch⟩
    have hrst' : packet.tcp.has TCP_RST = false := by simpa using hrst
    by_cases haccepts : Accepts c packet
    · rw [receiveSegment_of_accepts haccepts]
      exact .accepted hto hrst' haccepts (addSegment_added c _ _ _)
    · rw [receiveSegment_of_not_accepts haccepts]
      exact .ignored fun _ => ⟨hrst', haccepts⟩

/-- A packet for the connection that fails a check changes nothing. -/
theorem tcpInput_of_not_accepts (ipAddr : UInt32) {c : TcpConnection} {packet : TcpPacket}
    (hrst : packet.tcp.has TCP_RST = false) (h : ¬ Accepts c packet) :
    tcpInput ipAddr c packet = c := by
  unfold tcpInput
  rw [hrst, receiveSegment_of_not_accepts h]
  simp

/-- A packet for the connection that passes the checks is stored, acknowledged
and closed with. -/
theorem tcpInput_of_accepts {ipAddr : UInt32} {c : TcpConnection} {packet : TcpPacket}
    (hto : Addressed ipAddr c packet) (hrst : packet.tcp.has TCP_RST = false)
    (h : Accepts c packet) :
    ∃ added, Added c (c.copyRx packet.payload packet.dataLength (packet.base c))
        (packet.segment c) added ∧
      tcpInput ipAddr c packet =
        receiveFin (receiveAck added packet) packet (packet.base c) := by
  refine ⟨_, addSegment_added c packet.payload packet.dataLength (packet.base c), ?_⟩
  unfold tcpInput
  simp only [hto.port, hto.tuple, hrst, receiveSegment_of_accepts h]
  rfl

/-! ## What an acknowledgement does -/

theorem receiveAck_txAcked (c : TcpConnection) (packet : TcpPacket) :
    (receiveAck c packet).txAcked =
      if c.txAcked < packet.ackOffset c then packet.ackOffset c else c.txAcked := by
  unfold receiveAck TcpPacket.ackOffset
  by_cases h : c.txAcked < packet.tcp.ack - c.localSequence <;> simp [h]

theorem receiveAck_txLimit (c : TcpConnection) (packet : TcpPacket) :
    (receiveAck c packet).txLimit =
      if c.txLimit < (receiveAck c packet).txAcked + packet.window c then
        (receiveAck c packet).txAcked + packet.window c else c.txLimit := rfl

theorem receiveAck_state (c : TcpConnection) (packet : TcpPacket) :
    (receiveAck c packet).state =
      if c.state = .synAckSent ∧ c.txAcked < packet.ackOffset c then .connected else c.state := by
  unfold receiveAck TcpPacket.ackOffset
  by_cases h : c.txAcked < packet.tcp.ack - c.localSequence <;> simp [h]

/-- An acknowledgement moves `tx_acked` up only. -/
theorem le_receiveAck_txAcked (c : TcpConnection) (packet : TcpPacket) :
    c.txAcked ≤ (receiveAck c packet).txAcked ∧
      packet.ackOffset c ≤ (receiveAck c packet).txAcked := by
  rw [receiveAck_txAcked]
  split
  · rename_i h
    exact ⟨UInt32.le_of_lt h, UInt32.le_refl _⟩
  · rename_i h
    exact ⟨UInt32.le_refl _, UInt32.not_lt.mp h⟩

/-- `handle_tcp_packet` does not close an open connection. -/
theorem tcpInput_open {ipAddr : UInt32} {c : TcpConnection} (hopen : c.state ≠ .listen)
    (packet : TcpPacket) : (tcpInput ipAddr c packet).state ≠ .listen := by
  have hreceived := tcpInput_received ipAddr c packet
  generalize tcpInput ipAddr c packet = c' at hreceived
  cases hreceived with
  | ignored => exact hopen
  | reset => nofun
  | @accepted added hto hrst haccepts hadded =>
    show (receiveAck added packet).state ≠ .listen
    rw [receiveAck_state]
    split
    · nofun
    · cases hadded <;> exact hopen

/-- The outcome of `add_segment` in terms of the length of the segment. -/
theorem TcpPacket.added_of_length {c added : TcpConnection} {packet : TcpPacket} {n : ℕ}
    (hn : packet.dataLength = n)
    (hadded : Added c (c.copyRx packet.payload packet.dataLength (packet.base c))
      (packet.segment c) added) :
    Added c (c.copyRx packet.payload n (packet.base c)) ⟨packet.base c, UInt32.ofNat n⟩
      added := by
  unfold TcpPacket.segment at hadded
  rw [hn, Word.ofInt_natCast] at hadded
  exact hadded

end EthTransfer
