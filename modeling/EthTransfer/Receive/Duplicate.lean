import EthTransfer.Receive.Reassembly

/-!
# Duplicate delivery

Processing a packet a second time, right after the first, changes nothing.  A
segment that was stored is old or in the table the second time, or is copied
once more over its own bytes (`Added.again`).  Its acknowledgement is no longer
news (`receiveAck_again`).  A SYN that opened the connection is dropped by the
open connection, and one that was dropped is dropped again.
-/

namespace EthTransfer

open RingBuffer

/-! ## The segment -/

/-- Copying a segment a second time changes nothing. -/
theorem copyRx_again {c c' : TcpConnection} {data : Bytes} {n : ℕ} {dest : UInt32}
    (hn : n ≤ 1400) (hbuf : c'.rxBuffer = (c.copyRx data n dest).rxBuffer) :
    c'.copyRx data n dest = c' := by
  have hring : ∀ dest' : Bytes,
      copyToCircleBuffer dest' RX_MASK dest data n n = store RING dest' dest.toNat n data :=
    fun dest' => copyToCircleBuffer_ring _ _ _ (show n < 8192 by omega)
  have hsame : copyToCircleBuffer c'.rxBuffer RX_MASK dest data n n = c'.rxBuffer := by
    rw [hring, hbuf]
    show store RING (copyToCircleBuffer c.rxBuffer RX_MASK dest data n n) _ _ _ =
      copyToCircleBuffer c.rxBuffer RX_MASK dest data n n
    rw [hring, store_twice]
  unfold TcpConnection.copyRx
  rw [hsame]

/-- What `add_segment` leaves of the segment it was given: it is old, or in the
table, or its bytes are copied and the table is full. -/
theorem Added.known {c copied added : TcpConnection} {g : TcpSegment}
    (h : Added c copied g added) (hcopied : copied.rxSegments = c.rxSegments) :
    g.stop ≤ added.rxWrite ∨ g ∈ added.rxSegments ∨
      added.rxSegments.length = SEG_MASK ∧ added.rxBuffer = copied.rxBuffer := by
  cases h with
  | old hstop => exact Or.inl hstop
  | duplicate hstop hmem => exact Or.inr (Or.inl hmem)
  | full hstop hmem hlen => exact Or.inr (Or.inr ⟨hcopied ▸ hlen, rfl⟩)
  | merged hstop hmem hlen hmerged hsettled =>
    rcases hmerged.dropped g (List.mem_append_right _ (List.mem_singleton.mpr rfl)) with hk | hle
    · exact Or.inr (Or.inl hk)
    · exact Or.inl hle

/-- `add_segment` does nothing with a segment it has just been given. -/
theorem Added.again {c c' added result : TcpConnection} {data : Bytes} {n : ℕ} {dest : UInt32}
    (hn : n ≤ 1400)
    (hadded : Added c (c.copyRx data n dest) ⟨dest, UInt32.ofNat n⟩ added)
    (hwrite : c'.rxWrite = added.rxWrite) (hsegments : c'.rxSegments = added.rxSegments)
    (hbuf : c'.rxBuffer = added.rxBuffer)
    (hagain : Added c' (c'.copyRx data n dest) ⟨dest, UInt32.ofNat n⟩ result) :
    result = c' := by
  have hknown := hadded.known rfl
  rw [← hwrite, ← hsegments, ← hbuf] at hknown
  cases hagain with
  | old => rfl
  | duplicate => rfl
  | full hstop hmem hlen =>
    rcases hknown with hold | htable | ⟨-, hcopy⟩
    · exact absurd hold (UInt32.not_le.mpr hstop)
    · exact absurd htable hmem
    · exact copyRx_again hn hcopy
  | merged hstop hmem hlen =>
    rcases hknown with hold | htable | ⟨hfull, -⟩
    · exact absurd hold (UInt32.not_le.mpr hstop)
    · exact absurd htable hmem
    · exact absurd hfull hlen

/-! ## The acknowledgement and the FIN -/

/-- An acknowledgement that is not news, with a window that is known, changes
nothing. -/
theorem receiveAck_again {c : TcpConnection} {packet : TcpPacket}
    (hacked : packet.ackOffset c ≤ c.txAcked) (hwindow : c.remoteWindow = packet.window c)
    (hlimit : c.txAcked + c.remoteWindow ≤ c.txLimit) : receiveAck c packet = c := by
  have h1 : ¬ packet.tcp.ack - c.localSequence > c.txAcked := UInt32.not_lt.mpr hacked
  have h2 : ¬ c.txAcked + c.remoteWindow > c.txLimit := UInt32.not_lt.mpr hlimit
  unfold TcpPacket.window at hwindow
  unfold receiveAck
  simp only [Word.ofInt_toInt, h1, decide_false, Bool.false_eq_true, false_and, and_false,
    if_false, ← hwindow]
  rw [if_neg h2]

/-- A known FIN, with the timer expired, changes nothing. -/
theorem receiveFin_again {c : TcpConnection} {packet : TcpPacket} {base : UInt32}
    (hfin : packet.tcp.has TCP_FIN = true → c.rxFin = base + UInt32.ofInt packet.dataLength)
    (htimer : packet.tcp.has TCP_FIN = true ∨ packet.dataLength > 0 → c.ackTimeout = -1) :
    receiveFin c packet base = c := by
  have h1 : (if packet.tcp.has TCP_FIN = true then base + UInt32.ofInt packet.dataLength
      else c.rxFin) = c.rxFin := by
    split
    · rename_i h
      exact (hfin h).symm
    · rfl
  have h2 : (if packet.tcp.has TCP_FIN = true ∨ packet.dataLength > 0 then -1
      else c.ackTimeout) = c.ackTimeout := by
    split
    · rename_i h
      exact (htimer h).symm
    · rfl
  unfold receiveFin
  rw [h1, h2]

/-- The acknowledgement and the FIN of a packet change nothing the second
time. -/
theorem receiveFin_receiveAck_again (c : TcpConnection) (packet : TcpPacket) (base : UInt32) :
    receiveFin (receiveAck (receiveFin (receiveAck c packet) packet base) packet) packet base =
      receiveFin (receiveAck c packet) packet base := by
  have hack : receiveAck (receiveFin (receiveAck c packet) packet base) packet =
      receiveFin (receiveAck c packet) packet base := by
    refine receiveAck_again (le_receiveAck_txAcked c packet).2 rfl ?_
    show (receiveAck c packet).txAcked + packet.window c ≤ (receiveAck c packet).txLimit
    rw [receiveAck_txLimit]
    split
    · exact UInt32.le_refl _
    · rename_i h
      exact UInt32.not_lt.mp h
  rw [hack]
  refine receiveFin_again ?_ ?_
  · intro h
    rw [receiveFin_rxFin, if_pos h]
  · intro h
    show (if packet.tcp.has TCP_FIN = true ∨ packet.dataLength > 0 then -1 else _) = (-1 : Int)
    rw [if_pos h]

/-! ## The packet -/

/-- An open connection ignores a packet that it has just processed. -/
theorem tcpInput_again (ipAddr : UInt32) (c : TcpConnection) (packet : TcpPacket) :
    tcpInput ipAddr (tcpInput ipAddr c packet) packet = tcpInput ipAddr c packet := by
  have hreceived := tcpInput_received ipAddr c packet
  generalize hfirst : tcpInput ipAddr c packet = c' at hreceived
  cases hreceived with
  | ignored => exact hfirst
  | reset hto hrst =>
    unfold tcpInput
    simp [hrst]
  | @accepted added hto hrst haccepts hadded =>
    have hsame : SameConnection c
        (receiveFin (receiveAck added packet) packet (packet.base c)) :=
      (Received.accepted hto hrst haccepts hadded).sameConnection
    by_cases hagain : Accepts (receiveFin (receiveAck added packet) packet (packet.base c)) packet
    · obtain ⟨result, hresult, hinput⟩ :=
        tcpInput_of_accepts (hsame.addressed.mpr hto) hrst hagain
      have hbase : packet.base (receiveFin (receiveAck added packet) packet (packet.base c)) =
          packet.base c := by
        show packet.tcp.sequence - added.remoteSequence = _
        rw [hadded.sameConnection.remoteSequence]
        rfl
      obtain ⟨n, hn, hmax⟩ := haccepts.exists_length
      have hresult' := TcpPacket.added_of_length hn hresult
      rw [hbase] at hresult' hinput
      have hsegment : result = receiveFin (receiveAck added packet) packet (packet.base c) :=
        Added.again hmax (TcpPacket.added_of_length hn hadded) rfl rfl rfl hresult'
      rw [hinput, hsegment]
      exact receiveFin_receiveAck_again added packet (packet.base c)
    · exact tcpInput_of_not_accepts ipAddr hrst hagain

/-- A packet that is processed twice in a row leaves the connection as one that
is processed once, in every state and for every packet. -/
theorem duplicate_harmless (s : Stack) (packet : TcpPacket) (rand rand' : Rand) :
    ((handleTcpPacket s packet rand).bind fun s' => handleTcpPacket s' packet rand').map
        (·.tcpConn) =
      (handleTcpPacket s packet rand).map (·.tcpConn) := by
  by_cases hlisten : s.tcpConn.state = .listen
  · rcases handleTcpPacket_listen hlisten packet with hdrop | ⟨hport, hrst, haccept⟩
    · rw [hdrop rand, Option.bind_some, hdrop rand']
    rcases acceptSyn_cases s packet with hhang | hdrop | ⟨hsyn, windowScale, maxSegment, -, hopen⟩
    · rw [haccept rand, hhang rand]
      rfl
    · rw [haccept rand, hdrop rand, Option.bind_some, haccept rand', hdrop rand']
    · -- the open connection drops the SYN
      rw [haccept rand, hopen rand, Option.bind_some, handleTcpPacket_open (by nofun)]
      have hnot : ¬ Accepts (openConnection s.tcpConn packet s.connectionCounter rand windowScale
          maxSegment) packet := by
        intro h
        have hno := h.no_syn
        rw [hsyn] at hno
        cases hno
      simp only [Option.map_some, tcpInput_of_not_accepts s.ipAddr hrst hnot]
  · rw [handleTcpPacket_open hlisten, Option.bind_some]
    rw [handleTcpPacket_open (tcpInput_open hlisten packet)]
    simp only [Option.map_some, tcpInput_again]

end EthTransfer
