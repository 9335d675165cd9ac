import EthTransfer.Receive.Reassembly

/-!
# The receive window against any peer

`handle_tcp_packet` compares `rx_write + data_length` with the right edge of
the window, and stores the data at its own offset, which the comparison does
not look at.  So a peer can have segments stored beyond the window, and
`rx_write` then runs past the edge (`receive_window_overrun`).  A segment that
overlaps the unread bytes is stored whole and may replace them.

* `Stores` says when a segment is stored at all, and `FallsOn` which cells of the
  ring it then writes.
* `RxOrder` is what every state keeps, whatever the peer sends.
* A run whose stored segments end inside the window keeps the window
  (`ConnRun.rxWindow`).
* A segment leaves the unread bytes alone exactly when it is not stored or
  agrees with them (`keepsUnread_iff`).
-/

namespace EthTransfer

open GuardedRun RingBuffer

/-! ## Stored segments -/

/-- The segment is stored: it is for this connection, passes the checks, and is
neither old nor in the table. -/
structure Stores (ipAddr : UInt32) (c : TcpConnection) (packet : TcpPacket) : Prop where
  addressed : Addressed ipAddr c packet
  no_rst : packet.tcp.has TCP_RST = false
  accepts : Accepts c packet
  new : c.rxWrite < (packet.segment c).stop
  absent : packet.segment c ∉ c.rxSegments

instance (ipAddr : UInt32) (c : TcpConnection) (packet : TcpPacket) :
    Decidable (Stores ipAddr c packet) :=
  decidable_of_iff
    (Addressed ipAddr c packet ∧ packet.tcp.has TCP_RST = false ∧ Accepts c packet ∧
      c.rxWrite < (packet.segment c).stop ∧ packet.segment c ∉ c.rxSegments)
    ⟨fun ⟨h1, h2, h3, h4, h5⟩ => ⟨h1, h2, h3, h4, h5⟩,
      fun ⟨h1, h2, h3, h4, h5⟩ => ⟨h1, h2, h3, h4, h5⟩⟩

/-- The segment has a byte for the cell `k` of the receive ring. -/
def TcpPacket.FallsOn (packet : TcpPacket) (c : TcpConnection) (k : ℕ) : Prop :=
  ∃ i < packet.dataLength.toNat, ((packet.base c).toNat + i) % RING = k

section Cells

variable {ipAddr : UInt32} {c : TcpConnection} {packet : TcpPacket}

/-- A stored segment has at most 1400 bytes and ends above `rx_write`. -/
theorem Stores.length (h : Stores ipAddr c packet) :
    packet.dataLength.toNat ≤ 1400 ∧
      c.rxWrite.toNat < (packet.base c).toNat + packet.dataLength.toNat := by
  obtain ⟨n, hn, hmax⟩ := h.accepts.exists_length
  have hnew := h.new
  rw [TcpPacket.segment, hn, Word.ofInt_natCast] at hnew
  rw [hn, Int.toNat_natCast]
  exact ⟨hmax, lt_of_lt_stop hnew⟩

/-- The receive ring after a packet: with the copy of a stored segment, and as
it was otherwise. -/
theorem tcpInput_rxBuffer (ipAddr : UInt32) (c : TcpConnection) (packet : TcpPacket) :
    (tcpInput ipAddr c packet).rxBuffer =
      if Stores ipAddr c packet then
        store RING c.rxBuffer (packet.base c).toNat packet.dataLength.toNat packet.payload
      else c.rxBuffer := by
  have hcopy : Stores ipAddr c packet →
      (c.copyRx packet.payload packet.dataLength (packet.base c)).rxBuffer =
        store RING c.rxBuffer (packet.base c).toNat packet.dataLength.toNat packet.payload := by
    intro hstores
    obtain ⟨n, hn, hmax⟩ := hstores.accepts.exists_length
    rw [hn, Int.toNat_natCast]
    exact copyToCircleBuffer_ring _ _ _ (show n < 8192 by omega)
  have hreceived := tcpInput_received ipAddr c packet
  generalize tcpInput ipAddr c packet = c' at hreceived
  cases hreceived with
  | ignored h => rw [if_neg fun hs : Stores _ _ _ => (h hs.addressed).2 hs.accepts]
  | reset hto hrst =>
    rw [if_neg]
    intro hs
    have hno := hs.no_rst
    rw [hrst] at hno
    cases hno
  | @accepted added hto hrst haccepts hadded =>
    show added.rxBuffer = _
    cases hadded with
    | old hstop => rw [if_neg fun hs : Stores _ _ _ => UInt32.not_lt.mpr hstop hs.new]
    | duplicate hstop hmem => rw [if_neg fun hs : Stores _ _ _ => hs.absent hmem]
    | full hstop hmem =>
      have hs : Stores ipAddr c packet := ⟨hto, hrst, haccepts, hstop, hmem⟩
      rw [if_pos hs, hcopy hs]
    | merged hstop hmem =>
      have hs : Stores ipAddr c packet := ⟨hto, hrst, haccepts, hstop, hmem⟩
      rw [if_pos hs]
      exact hcopy hs

/-- The cell of a byte of a stored segment. -/
theorem Stores.rxBuffer_cell (h : Stores ipAddr c packet) {i : ℕ}
    (hi : i < packet.dataLength.toNat) :
    (tcpInput ipAddr c packet).rxBuffer (((packet.base c).toNat + i) % RING) =
      packet.payload i := by
  have hmax := h.length.1
  rw [tcpInput_rxBuffer, if_pos h]
  refine store_cell _ _ hi ?_
  unfold RING
  omega

/-- A cell that no byte of a stored segment falls on. -/
theorem tcpInput_rxBuffer_of_not {k : ℕ}
    (h : Stores ipAddr c packet → ¬ packet.FallsOn c k) :
    (tcpInput ipAddr c packet).rxBuffer k = c.rxBuffer k := by
  rw [tcpInput_rxBuffer]
  split
  · rename_i hstores
    exact store_cell_of_ne _ _ fun i hi hcell => h hstores ⟨i, hi, hcell⟩
  · rfl

end Cells

/-! ## What every state keeps -/

/-- The receive counters and the table, whatever the peer sends. -/
structure RxOrder (c : TcpConnection) : Prop where
  read_le : c.rxRead.toNat ≤ c.rxWrite.toNat
  settled : Settled c.rxWrite c.rxSegments

/-- A packet does not move `rx_read`. -/
theorem Received.rxRead {ipAddr : UInt32} {c c' : TcpConnection} {packet : TcpPacket}
    (h : Received ipAddr c packet c') : c'.rxRead = c.rxRead := by
  cases h with
  | accepted hto hrst haccepts hadded => exact hadded.state.2.2.1
  | _ => rfl

/-- A packet keeps the order. -/
theorem RxOrder.received {ipAddr : UInt32} {c c' : TcpConnection} {packet : TcpPacket}
    (h : RxOrder c) (hreceived : Received ipAddr c packet c') : RxOrder c' := by
  have hread := hreceived.rxRead
  cases hreceived with
  | ignored => exact h
  | reset => exact ⟨h.read_le, h.settled⟩
  | accepted hto hrst haccepts hadded =>
    obtain ⟨hle, hsettled⟩ := hadded.le_settled ⟨rfl, rfl⟩ h.settled
    refine ⟨?_, hsettled⟩
    rw [hread]
    exact Nat.le_trans h.read_le hle

/-- `read_tcp` hands over no more than there is, and keeps the order. -/
theorem RxOrder.reads {c : TcpConnection} {id : Int} {data : Bytes} {off len : Int}
    {result : ReadResult} (h : RxOrder c) (hreads : Reads c id data off len result) :
    RxOrder result.conn := by
  cases hreads with
  | released => exact ⟨h.read_le, h.settled⟩
  | @data n hid hoff hfin hlen havail =>
    have hread := h.read_le
    have hlt := c.rxWrite.toNat_lt
    have hn := Word.le_sub_of_le_toInt hread havail
    have hnext : (c.advance n).rxRead.toNat = c.rxRead.toNat + n := advance_rxRead (by omega)
    refine ⟨?_, h.settled⟩
    show (c.advance n).rxRead.toNat ≤ c.rxWrite.toNat
    omega
  | _ => exact h

/-- The fresh connection is in order. -/
theorem Opens.rxOrder {s : Stack} {syn : TcpPacket} {c₀ : TcpConnection}
    (hopens : Opens s syn c₀) : RxOrder c₀ := by
  obtain ⟨rand, windowScale, maxSegment, -, rfl⟩ := hopens.eq_openConnection
  refine ⟨le_rfl, ?_⟩
  intro g hg
  cases hg

/-- Every run keeps the order. -/
theorem ConnRun.rxOrder {ipAddr : UInt32} {ok : ConnGuard} {c₀ c : TcpConnection}
    {h : ConnHistory} (hrun : ConnRun ipAddr ok c₀ h c) (hstart : RxOrder c₀) : RxOrder c := by
  refine hrun.invariant (fun _ c => RxOrder c) hstart ?_
  intro h c e c' o _ horder _ _ hsteps
  have hcongr : SameReceiver c c' → RxOrder c' := by
    intro hrx
    refine ⟨?_, ?_⟩
    · rw [hrx.rxRead, hrx.rxWrite]
      exact horder.read_le
    · rw [hrx.rxWrite, hrx.rxSegments]
      exact horder.settled
  cases hsteps with
  | receive hreceived => exact horder.received hreceived
  | send hsends => exact hcongr hsends.sameReceiver
  | read hreads => exact horder.reads hreads
  | write hwrites => exact hcongr hwrites.sameReceiver
  | _ => exact ⟨horder.read_le, horder.settled⟩

/-! ## The window -/

/-- Every stored segment ends inside the window. -/
def StoresInWindow (ipAddr : UInt32) : ConnGuard := fun _ c e =>
  ∀ packet, e = .receive packet → Stores ipAddr c packet →
    InWindow c (packet.base c).toNat packet.dataLength.toNat

/-- A segment that is not stored keeps the window, wherever it lies. -/
theorem RxWindow.added_of_not_new {c added : TcpConnection} {data : Bytes} {n : Int}
    {dest : UInt32} {g : TcpSegment} (h : RxWindow c)
    (hadded : Added c (c.copyRx data n dest) g added)
    (hnew : ¬ (c.rxWrite < g.stop ∧ g ∉ c.rxSegments)) : RxWindow added := by
  cases hadded with
  | old => exact h
  | duplicate => exact h
  | full hstop hmem => exact absurd ⟨hstop, hmem⟩ hnew
  | merged hstop hmem => exact absurd ⟨hstop, hmem⟩ hnew

/-- A packet keeps the window when it is not stored or ends inside it. -/
theorem RxWindow.received {ipAddr : UInt32} {c c' : TcpConnection} {packet : TcpPacket}
    (h : RxWindow c) (hreceived : Received ipAddr c packet c')
    (hin : Stores ipAddr c packet →
      InWindow c (packet.base c).toNat packet.dataLength.toNat) : RxWindow c' := by
  cases hreceived with
  | ignored => exact h
  | reset => exact ⟨h.read_le, h.write_le, h.table, h.settled⟩
  | @accepted added hto hrst haccepts hadded =>
    have hw : RxWindow added := by
      by_cases hnew : c.rxWrite < (packet.segment c).stop ∧ packet.segment c ∉ c.rxSegments
      · obtain ⟨n, hn, -⟩ := haccepts.exists_length
        have hin' := hin ⟨hto, hrst, haccepts, hnew.1, hnew.2⟩
        rw [hn, Int.toNat_natCast] at hin'
        exact h.added hin' (TcpPacket.added_of_length hn hadded)
      · exact h.added_of_not_new hadded hnew
    exact ⟨hw.read_le, hw.write_le, hw.table, hw.settled⟩

/-- `read_tcp` keeps the window. -/
theorem RxWindow.reads {c : TcpConnection} {id : Int} {data : Bytes} {off len : Int}
    {result : ReadResult} (h : RxWindow c) (hreads : Reads c id data off len result) :
    RxWindow result.conn := by
  cases hreads with
  | released => exact ⟨h.read_le, h.write_le, h.table, h.settled⟩
  | data hid hoff hfin hlen havail =>
    exact h.advance (Word.le_sub_of_le_toInt h.read_le havail)
  | _ => exact h

/-- The fresh connection has an empty window. -/
theorem Opens.rxWindow {s : Stack} {syn : TcpPacket} {c₀ : TcpConnection}
    (hopens : Opens s syn c₀) : RxWindow c₀ := by
  obtain ⟨rand, windowScale, maxSegment, -, rfl⟩ := hopens.eq_openConnection
  refine ⟨le_rfl, ?_, ?_, ?_⟩
  · show 1 ≤ 1 + 4096
    omega
  · rintro p ⟨g, hg, -⟩
    cases hg
  · intro g hg
    cases hg

/-- A run whose stored segments end inside the window keeps it. -/
theorem ConnRun.rxWindow {ipAddr : UInt32} {c₀ c : TcpConnection} {h : ConnHistory}
    (hrun : ConnRun ipAddr (StoresInWindow ipAddr) c₀ h c) (hstart : RxWindow c₀) :
    RxWindow c := by
  refine hrun.invariant (fun _ c => RxWindow c) hstart ?_
  intro h c e c' o _ hwin _ hok hsteps
  cases hsteps with
  | receive hreceived => exact hwin.received hreceived (hok _ rfl)
  | send hsends => exact hwin.congr hsends.sameReceiver
  | read hreads => exact hwin.reads hreads
  | write hwrites => exact hwin.congr hwrites.sameReceiver
  | shutdown => exact ⟨hwin.read_le, hwin.write_le, hwin.table, hwin.settled⟩
  | close => exact ⟨hwin.read_le, hwin.write_le, hwin.table, hwin.settled⟩
  | stale => exact hwin

/-! ## The unread bytes -/

/-- The packet leaves the unread bytes alone. -/
def KeepsUnread (ipAddr : UInt32) (c : TcpConnection) (packet : TcpPacket) : Prop :=
  ∀ p, c.rxRead.toNat ≤ p → p < c.rxWrite.toNat →
    (tcpInput ipAddr c packet).rxBuffer (p % RING) = c.rxBuffer (p % RING)

/-- Where the segment falls on the cell of an unread byte, it has that byte. -/
def AgreesUnread (c : TcpConnection) (packet : TcpPacket) : Prop :=
  ∀ i < packet.dataLength.toNat, ∀ p, c.rxRead.toNat ≤ p → p < c.rxWrite.toNat →
    ((packet.base c).toNat + i) % RING = p % RING → packet.payload i = c.rxBuffer (p % RING)

/-- A packet leaves the unread bytes alone exactly when it is not stored or
agrees with them. -/
theorem keepsUnread_iff (ipAddr : UInt32) (c : TcpConnection) (packet : TcpPacket) :
    KeepsUnread ipAddr c packet ↔ (Stores ipAddr c packet → AgreesUnread c packet) := by
  constructor
  · intro hkeeps hstores i hi p hread hwrite hcell
    rw [← hkeeps p hread hwrite, ← hcell]
    exact (hstores.rxBuffer_cell hi).symm
  · intro hagrees p hread hwrite
    by_cases hhit : Stores ipAddr c packet ∧ packet.FallsOn c (p % RING)
    · obtain ⟨hstores, i, hi, hcell⟩ := hhit
      rw [← hagrees hstores i hi p hread hwrite hcell, ← hcell]
      exact hstores.rxBuffer_cell hi
    · exact tcpInput_rxBuffer_of_not fun hs hfalls => hhit ⟨hs, hfalls⟩

/-! ## The result -/

/-- The receive window: the counters stand in order within 4096 bytes, the
advertised window is the free space, and `read_tcp` finds no more than the ring
holds. -/
structure WindowKept (c : TcpConnection) : Prop where
  read_le : c.rxRead.toNat ≤ c.rxWrite.toNat
  write_le : c.rxWrite.toNat ≤ c.rxRead.toNat + TCP_WINDOW.toNat
  advertised : (sendWindow c).toNat = c.rxRead.toNat + TCP_WINDOW.toNat - c.rxWrite.toNat
  available : Word.toInt (c.rxWrite - c.rxRead) = c.rxWrite.toNat - c.rxRead.toNat

theorem RxWindow.windowKept {c : TcpConnection} (h : RxWindow c) : WindowKept c where
  read_le := h.read_le
  write_le := h.write_le
  advertised := by
    have := h.toNat_sendWindow
    have : TCP_WINDOW.toNat = 4096 := by decide
    omega
  available := by
    rw [h.toInt_available, Int.ofNat_sub h.read_le]

/-- A connection whose stored segments end inside the window keeps the receive
window, and a packet leaves its unread bytes alone exactly when it is not
stored or agrees with them. -/
theorem receive_window_of_storesInWindow {s : Stack} {syn : TcpPacket} {c₀ c : TcpConnection}
    {h : ConnHistory} (hopens : Opens s syn c₀)
    (hrun : ConnRun s.ipAddr (StoresInWindow s.ipAddr) c₀ h c) :
    WindowKept c ∧ ∀ packet, KeepsUnread s.ipAddr c packet ↔
      (Stores s.ipAddr c packet → AgreesUnread c packet) :=
  ⟨(hrun.rxWindow hopens.rxWindow).windowKept, keepsUnread_iff s.ipAddr c⟩

/-- The SYN-ACK, and four bytes. -/
def fourBytes : List ConnEvent :=
  [.send ⟨0, 0⟩ fun _ => 0, .receive (peerPacket 1 101 TCP_ACK 1024 [97, 97, 97, 97])]

theorem fourBytes_meets :
    ConnMeets listeningStack.ipAddr (StoresInWindow listeningStack.ipAddr) peerConnection
      fourBytes := by
  refine ⟨⟨by decide, nofun⟩, ⟨by decide +kernel, ?_⟩, trivial⟩
  rintro packet ⟨⟩ -
  exact Or.inr (by decide +kernel)

theorem receive_window_of_storesInWindow_four :
    WindowKept (connExec listeningStack.ipAddr peerConnection fourBytes).2 ∧
      KeepsUnread listeningStack.ipAddr (connExec listeningStack.ipAddr peerConnection fourBytes).2
        (peerPacket 5 101 TCP_ACK 1024 [98]) := by
  obtain ⟨hkept, hunread⟩ :=
    receive_window_of_storesInWindow peerSyn_opens fourBytes_meets.run
  refine ⟨hkept, (hunread _).mpr fun _ i hi p hread hwrite hcell => ?_⟩
  -- the byte behind the unread ones falls on none of their cells
  have hi' : i < 1 := hi
  have hread' : 1 ≤ p := hread
  have hwrite' : p < 5 := hwrite
  have hbase : (5 + i) % 8192 = p % 8192 := hcell
  omega

/-- The SYN-ACK, then three full segments that pass the window test out of
order, and the one that closes the gap. -/
def overrunEvents : List ConnEvent :=
  .send ⟨0, 0⟩ (fun _ => 0) ::
    [1401, 2801, 4201, 1].map fun sequence =>
      .receive (peerPacket sequence 101 TCP_ACK 1024 (List.replicate 1400 0))

/-- A peer can move `rx_write` past the window, and replace unread bytes. -/
theorem receive_window_overrun :
    Opens listeningStack peerSyn peerConnection ∧
      (∃ h c, ConnRun listeningStack.ipAddr anyEvent peerConnection h c ∧ c.state ≠ .listen ∧
        (returned h).length = 0 ∧ c.rxRead = 1 ∧ c.rxWrite = 5601 ∧ ¬ WindowKept c) ∧
      ∃ h c packet, ConnRun listeningStack.ipAddr anyEvent peerConnection h c ∧
        c.state ≠ .listen ∧ (returned h).length = 0 ∧
        ¬ KeepsUnread listeningStack.ipAddr c packet := by
  have hover : ConnMeets listeningStack.ipAddr anyEvent peerConnection overrunEvents := by
    decide +kernel
  have hfour : ConnMeets listeningStack.ipAddr anyEvent peerConnection fourBytes := by
    decide +kernel
  refine ⟨peerSyn_opens, ⟨_, _, hover.run, by decide +kernel, by decide +kernel, by decide +kernel,
    by decide +kernel, ?_⟩, _, _, peerPacket 1 101 TCP_ACK 1024 (List.replicate 8 98), hfour.run,
    by decide +kernel, by decide +kernel, ?_⟩
  · intro hkept
    have hedge : ¬ (connExec listeningStack.ipAddr peerConnection overrunEvents).2.rxWrite.toNat ≤
        (connExec listeningStack.ipAddr peerConnection overrunEvents).2.rxRead.toNat +
          TCP_WINDOW.toNat := by
      decide +kernel
    exact hedge hkept.write_le
  · intro hkeeps
    have hfirst := hkeeps 1 (by decide +kernel) (by decide +kernel)
    revert hfirst
    decide +kernel

end EthTransfer
