import EthTransfer.Receive.Reassembly

/-!
# The received stream

A conforming peer sends one byte stream, cut into segments in any way, and the
network loses, repeats and reorders them.  `receive_stream_fidelity` says
that the application reads exactly that stream.

* `Stream` is the peer's stream and `Slice` what a segment of it looks like:
  it stays below the right edge of some segment that the stack has sent, and a
  FIN stands at the end of the stream.
* `ReceivesStream` is the invariant.  It joins the window and its contents
  (`EthTransfer.Receive.Reassembly`) to the end of the stream, to what has been
  read, and to the edges that have been advertised.
* Each event keeps the invariant: `ReceivesStream.received`, `.sends`,
  `.reads`, and the calls that leave the receive side alone.
-/

namespace EthTransfer

open GuardedRun RingBuffer

/-! ## The peer -/

/-- The byte stream of a peer.  `byte p` is sent with sequence number
`remote_sequence + p`, for `1 ≤ p < fin`, and the FIN stands at `fin`. -/
structure Stream where
  byte : ℕ → UInt8
  fin : ℕ
  fin_pos : 1 ≤ fin
  fin_le : fin ≤ 2 ^ 31

/-- The bytes of the stream from `a` up to `b`. -/
def Stream.slice (st : Stream) (a b : ℕ) : List UInt8 := (List.range' a (b - a)).map st.byte

/-- The offset just past the window that a transmitted segment advertises. -/
def rightEdge (c : TcpConnection) (segment : TxSegment) : ℕ :=
  (segment.ack - c.remoteSequence).toNat + segment.windowSize.toNat

/-- A segment that a conforming peer sends: a slice of its stream, with a FIN
at the end of the stream only, and within a window advertised before. -/
structure Slice (st : Stream) (h : ConnHistory) (c : TcpConnection) (packet : TcpPacket) :
    Prop where
  nonneg : 0 ≤ packet.dataLength
  le_max : packet.dataLength ≤ MAX_SEGMENT
  at_end : packet.tcp.has TCP_FIN = true →
    (packet.base c).toNat + packet.dataLength.toNat = st.fin
  inside : 0 < packet.dataLength →
    1 ≤ (packet.base c).toNat ∧ (packet.base c).toNat + packet.dataLength.toNat ≤ st.fin
  bytes : ∀ i < packet.dataLength.toNat, packet.payload i = st.byte ((packet.base c).toNat + i)
  edge : 0 < packet.dataLength →
    ∃ t ∈ transmitted h, (packet.base c).toNat + packet.dataLength.toNat ≤ rightEdge c t

/-- The peer of the connection conforms.  Every other event is free, also the
packets of other hosts, RSTs, and SYNs. -/
def Conforms (ipAddr : UInt32) (st : Stream) : ConnGuard := fun h c e =>
  ∀ packet, e = .receive packet → Addressed ipAddr c packet →
    packet.tcp.has TCP_RST = false → packet.tcp.has TCP_SYN = false → Slice st h c packet

instance (st : Stream) (h : ConnHistory) (c : TcpConnection) (packet : TcpPacket) :
    Decidable (Slice st h c packet) :=
  decidable_of_iff
    (0 ≤ packet.dataLength ∧ packet.dataLength ≤ MAX_SEGMENT ∧
      (packet.tcp.has TCP_FIN = true →
        (packet.base c).toNat + packet.dataLength.toNat = st.fin) ∧
      (0 < packet.dataLength →
        1 ≤ (packet.base c).toNat ∧ (packet.base c).toNat + packet.dataLength.toNat ≤ st.fin) ∧
      (∀ i < packet.dataLength.toNat, packet.payload i = st.byte ((packet.base c).toNat + i)) ∧
      (0 < packet.dataLength → ∃ t ∈ transmitted h,
        (packet.base c).toNat + packet.dataLength.toNat ≤ rightEdge c t))
    ⟨fun ⟨h1, h2, h3, h4, h5, h6⟩ => ⟨h1, h2, h3, h4, h5, h6⟩,
      fun ⟨h1, h2, h3, h4, h5, h6⟩ => ⟨h1, h2, h3, h4, h5, h6⟩⟩

instance (ipAddr : UInt32) (st : Stream) (h : ConnHistory) (c : TcpConnection) (e : ConnEvent) :
    Decidable (Conforms ipAddr st h c e) :=
  ConnEvent.decidableReceive (fun packet => Addressed ipAddr c packet →
    packet.tcp.has TCP_RST = false → packet.tcp.has TCP_SYN = false → Slice st h c packet) e

/-- The peer has not reset the connection. -/
def NotReset (ipAddr : UInt32) (c : TcpConnection) (h : ConnHistory) : Prop :=
  ∀ packet o, (ConnEvent.receive packet, o) ∈ h → Addressed ipAddr c packet →
    packet.tcp.has TCP_RST = false

/-- The states before a reset, and the closed one. -/
def TcpState.beforeReset (state : TcpState) : Prop :=
  state = .listen ∨ state = .synReceived ∨ state = .synAckSent ∨ state = .connected

instance (state : TcpState) : Decidable state.beforeReset :=
  inferInstanceAs (Decidable (_ ∨ _))

/-! ## The invariant -/

/-- The receive side of a connection whose peer sends `st`. -/
structure ReceivesStream (st : Stream) (h : ConnHistory) (c : TcpConnection) : Prop where
  window : RxWindow c
  holds : Holds st.byte c
  write_le : c.rxWrite.toNat ≤ st.fin
  table_lt : ∀ p ∈ covered c.rxSegments, p < st.fin
  fin : c.rxFin = NO_FIN ∨ c.rxFin.toNat = st.fin
  delivered : returned h = st.slice 1 c.rxRead.toNat
  read_pos : 1 ≤ c.rxRead.toNat
  edges : ∀ t ∈ transmitted h, rightEdge c t ≤ c.rxRead.toNat + 4096

theorem Stream.slice_append (st : Stream) {a b : ℕ} (hab : a ≤ b) (n : ℕ) :
    st.slice a b ++ (List.range' b n).map st.byte = st.slice a (b + n) := by
  unfold Stream.slice
  rw [← List.map_append, show b + n - a = (b - a) + n by omega, ← List.range'_append_1,
    show a + (b - a) = b by omega]

section Steps

variable {ipAddr : UInt32} {st : Stream} {h : ConnHistory} {c c' : TcpConnection}

/-- An event that leaves the receive side alone, reads nothing and sends
nothing. -/
theorem ReceivesStream.quiet (hinv : ReceivesStream st h c) (hrx : SameReceiver c c')
    (hconn : SameConnection c c') (e : ConnEvent) {o : ConnOutput} (hsent : o.sent = none)
    (hret : o.returned = []) : ReceivesStream st (h ++ [(e, o)]) c' := by
  refine ⟨hinv.window.congr hrx, hinv.holds.congr hrx, ?_, ?_, ?_, ?_, ?_, ?_⟩
  · rw [hrx.rxWrite]
    exact hinv.write_le
  · rw [hrx.rxSegments]
    exact hinv.table_lt
  · rw [hrx.rxFin]
    exact hinv.fin
  · rw [returned_append, hret, List.append_nil, hrx.rxRead]
    exact hinv.delivered
  · rw [hrx.rxRead]
    exact hinv.read_pos
  · intro t ht
    rw [transmitted_append, hsent, Option.toList_none, List.append_nil] at ht
    unfold rightEdge
    rw [hconn.remoteSequence, hrx.rxRead]
    exact hinv.edges t ht

/-- A segment on the wire advertises the end of the window. -/
theorem RxWindow.rightEdge_eq (hwin : RxWindow c) {clock : Clock} {scratch : Bytes}
    {result : SendResult} {t : TxSegment} (hsends : Sends c clock scratch result)
    (ht : result.sent = some t) : rightEdge c t = c.rxRead.toNat + 4096 := by
  obtain ⟨hack, hwindow⟩ := hsends.sent_window ht
  unfold rightEdge
  rw [hack, hwindow, UInt32.add_sub_cancel]
  exact hwin.toNat_sendWindow

/-- `send_tcp_packet` keeps the invariant. -/
theorem ReceivesStream.sends (hinv : ReceivesStream st h c) {clock : Clock} {scratch : Bytes}
    {result : SendResult} (hsends : Sends c clock scratch result) (e : ConnEvent) :
    ReceivesStream st (h ++ [(e, ({ sent := result.sent } : ConnOutput))]) result.conn := by
  have hrx := hsends.sameReceiver
  have hconn := hsends.sameConnection
  have hquiet : ReceivesStream st (h ++ [(e, ({} : ConnOutput))]) result.conn :=
    hinv.quiet hrx hconn e rfl rfl
  refine ⟨hquiet.window, hquiet.holds, hquiet.write_le, hquiet.table_lt, hquiet.fin, ?_,
    hquiet.read_pos, ?_⟩
  · rw [returned_append, ← hquiet.delivered, returned_append]
  · intro t ht
    rw [transmitted_append, List.mem_append, Option.mem_toList] at ht
    rcases ht with hold | hnew
    · refine hquiet.edges t ?_
      rw [transmitted_append]
      exact List.mem_append_left _ hold
    · refine Nat.le_of_eq ?_
      have hedge := hinv.window.rightEdge_eq hsends hnew
      unfold rightEdge at hedge ⊢
      rw [hconn.remoteSequence, hrx.rxRead]
      exact hedge

/-- A slice of the stream ends inside the window, whatever was advertised
before. -/
theorem ReceivesStream.inWindow (hinv : ReceivesStream st h c) {packet : TcpPacket}
    (hslice : Slice st h c packet) {n : ℕ} (hn : packet.dataLength = n) :
    InWindow c (packet.base c).toNat n := by
  rcases Nat.eq_zero_or_pos n with hzero | hpos
  · exact Or.inl hzero
  · obtain ⟨t, ht, hle⟩ := hslice.edge (by omega)
    have hedge := hinv.edges t ht
    rw [hn, Int.toNat_natCast] at hle
    exact Or.inr (Nat.le_trans hle hedge)

/-- The FIN of a slice gives the end of the stream. -/
theorem Slice.fin_offset {packet : TcpPacket} (hslice : Slice st h c packet)
    (hflag : packet.tcp.has TCP_FIN = true) :
    (packet.base c + UInt32.ofInt packet.dataLength).toNat = st.fin := by
  have hle := st.fin_le
  have hend := hslice.at_end hflag
  obtain ⟨n, hn⟩ := Int.eq_ofNat_of_zero_le hslice.nonneg
  rw [hn, Int.toNat_natCast] at hend
  rw [hn, Word.ofInt_natCast, Word.toNat_add_ofNat (by omega), hend]

/-- A segment of the stream keeps the invariant. -/
theorem ReceivesStream.accepted (hinv : ReceivesStream st h c) {packet : TcpPacket}
    (haccepts : Accepts c packet) (hslice : Slice st h c packet) {added : TcpConnection}
    (hadded : Added c (c.copyRx packet.payload packet.dataLength (packet.base c))
      (packet.segment c) added) (e : ConnEvent) :
    ReceivesStream st (h ++ [(e, ({} : ConnOutput))])
      (receiveFin (receiveAck added packet) packet (packet.base c)) := by
  obtain ⟨n, hn, hmax⟩ := haccepts.exists_length
  have hin := hinv.inWindow hslice hn
  have hadd := TcpPacket.added_of_length hn hadded
  obtain ⟨-, -, hread, hfin⟩ := hadded.state
  have hcount : packet.dataLength.toNat = n := by rw [hn, Int.toNat_natCast]
  have hbytes := hslice.bytes
  rw [hcount] at hbytes
  have hend : n = 0 ∨ (packet.base c).toNat + n ≤ st.fin := by
    rcases Nat.eq_zero_or_pos n with hzero | hpos
    · exact Or.inl hzero
    · have hle := (hslice.inside (by omega)).2
      rw [hcount] at hle
      exact Or.inr hle
  have hw := hinv.window.added hin hadd
  have hb := hinv.holds.added hinv.window hmax hin hbytes hadd
  obtain ⟨hwrite, htable⟩ := hadd.bound hinv.write_le hinv.table_lt hend
  refine ⟨⟨hw.read_le, hw.write_le, hw.table, hw.settled⟩, fun p hp => hb p hp, hwrite, htable,
    ?_, ?_, ?_, ?_⟩
  · -- a FIN stands at the end of the stream
    rw [receiveFin_rxFin]
    split
    · rename_i hflag
      exact Or.inr (hslice.fin_offset hflag)
    · show added.rxFin = NO_FIN ∨ added.rxFin.toNat = st.fin
      rw [hfin]
      exact hinv.fin
  · rw [returned_append, List.append_nil]
    show returned h = st.slice 1 added.rxRead.toNat
    rw [hread]
    exact hinv.delivered
  · show 1 ≤ added.rxRead.toNat
    rw [hread]
    exact hinv.read_pos
  · intro t ht
    rw [transmitted_append, Option.toList_none, List.append_nil] at ht
    show (t.ack - added.remoteSequence).toNat + _ ≤ added.rxRead.toNat + 4096
    rw [hread, hadded.sameConnection.remoteSequence]
    exact hinv.edges t ht

/-- `handle_tcp_packet` keeps the invariant. -/
theorem ReceivesStream.received (hinv : ReceivesStream st h c) {packet : TcpPacket}
    (hok : Conforms ipAddr st h c (.receive packet))
    (hreceived : Received ipAddr c packet c') :
    ReceivesStream st (h ++ [(.receive packet, ({} : ConnOutput))]) c' := by
  cases hreceived with
  | ignored => exact hinv.quiet (SameReceiver.refl c) (SameConnection.refl c) _ rfl rfl
  | reset =>
    refine hinv.quiet ?_ ?_ _ rfl rfl
    · constructor <;> rfl
    · constructor <;> rfl
  | accepted hto hrst haccepts hadded =>
    exact hinv.accepted haccepts (hok packet rfl hto hrst haccepts.no_syn) hadded _

/-- `read_tcp` keeps the invariant, and hands over the next bytes. -/
theorem ReceivesStream.reads (hinv : ReceivesStream st h c) {id : Int} {data : Bytes}
    {off len : Int} {result : ReadResult} (hreads : Reads c id data off len result)
    (e : ConnEvent) :
    ReceivesStream st
      (h ++ [(e, { ret := result.ret, returned := takeBytes result.data result.ret })])
      result.conn := by
  have hnone : takeBytes data (-1) = [] := rfl
  cases hreads with
  | refused => exact hinv.quiet (SameReceiver.refl c) (SameConnection.refl c) _ rfl hnone
  | finished => exact hinv.quiet (SameReceiver.refl c) (SameConnection.refl c) _ rfl hnone
  | negative => exact hinv.quiet (SameReceiver.refl c) (SameConnection.refl c) _ rfl hnone
  | released =>
    refine hinv.quiet ?_ ?_ _ rfl hnone
    · constructor <;> rfl
    · constructor <;> rfl
  | @data n hid hoff hfin hlen havail =>
    have hwin := hinv.window
    have hn := Word.le_sub_of_le_toInt hwin.read_le havail
    have hread := hwin.read_le
    have hlt := c.rxWrite.toNat_lt
    have hnext : (c.advance n).rxRead.toNat = c.rxRead.toNat + n := advance_rxRead (by omega)
    refine ⟨hwin.advance hn, hinv.holds.advance hwin hn, hinv.write_le, hinv.table_lt, hinv.fin,
      ?_, ?_, ?_⟩
    · rw [returned_append, hinv.delivered]
      show _ ++ takeBytes _ n = st.slice 1 (c.advance n).rxRead.toNat
      rw [hinv.holds.takeBytes hwin hn data hlen, hnext]
      exact st.slice_append hinv.read_pos n
    · show 1 ≤ (c.advance n).rxRead.toNat
      have := hinv.read_pos
      omega
    · intro t ht
      rw [transmitted_append, Option.toList_none, List.append_nil] at ht
      have hedge := hinv.edges t ht
      show rightEdge c t ≤ (c.advance n).rxRead.toNat + 4096
      omega

end Steps

/-! ## The states before a reset -/

/-- `send_tcp_packet` does not leave the states before a reset. -/
theorem Sends.beforeReset {c : TcpConnection} {clock : Clock} {scratch : Bytes}
    {result : SendResult} (hsends : Sends c clock scratch result)
    (hstate : c.state.beforeReset) : result.conn.state.beforeReset := by
  rcases hsends.state_cases with hsame | hafter
  · rw [hsame]
    exact hstate
  · rw [hafter]
    split_ifs with hsyn hrst hboth
    · decide
    · exact absurd (hrst ▸ hstate) (by decide)
    · exact absurd (hboth ▸ hstate) (by decide)
    · exact hstate

/-- An event other than a RST of the peer does not leave the states before a
reset. -/
theorem ConnSteps.beforeReset {ipAddr : UInt32} {c c' : TcpConnection} {e : ConnEvent}
    {o : ConnOutput} (hsteps : ConnSteps ipAddr c e c' o) (hstate : c.state.beforeReset)
    (hreset : ∀ packet, e = .receive packet → Addressed ipAddr c packet →
      packet.tcp.has TCP_RST = false) : c'.state.beforeReset := by
  cases hsteps with
  | @receive packet c' h =>
    rcases h.state_cases with hsame | ⟨hto, hrst, -⟩ | ⟨-, hconnected⟩
    · rw [hsame]
      exact hstate
    · have hno := hreset packet rfl hto
      rw [hrst] at hno
      cases hno
    · rw [hconnected]
      decide
  | send h => exact h.beforeReset hstate
  | read h =>
    cases h with
    | released => exact Or.inl rfl
    | _ => exact hstate
  | write h => cases h <;> exact hstate
  | shutdown => exact hstate
  | close => exact Or.inl rfl
  | stale => exact hstate

/-- Without a RST of the peer, the connection stays in the states before a
reset. -/
theorem ConnRun.beforeReset {ipAddr : UInt32} {ok : ConnGuard} {c₀ c : TcpConnection}
    {h : ConnHistory} (hrun : ConnRun ipAddr ok c₀ h c) (hstart : c₀.state.beforeReset)
    (hreset : NotReset ipAddr c₀ h) : c.state.beforeReset := by
  refine hrun.invariant (fun h c => NotReset ipAddr c₀ h → c.state.beforeReset)
    (fun _ => hstart) ?_ hreset
  intro h c e c' o hrun ih _ _ hsteps hreset
  have hstate : c.state.beforeReset :=
    ih fun packet o hmem => hreset packet o (List.mem_append_left _ hmem)
  refine hsteps.beforeReset hstate ?_
  rintro packet rfl hto
  exact hreset packet o (List.mem_append_right _ (List.mem_singleton.mpr rfl))
    (hrun.sameConnection.addressed.mp hto)

/-! ## The result -/

/-- The fresh connection has received nothing. -/
theorem Opens.receivesStream {s : Stack} {syn : TcpPacket} {c₀ : TcpConnection}
    (hopens : Opens s syn c₀) (st : Stream) : ReceivesStream st [] c₀ := by
  obtain ⟨rand, windowScale, maxSegment, -, rfl⟩ := hopens.eq_openConnection
  have hpos := st.fin_pos
  have hnone : ∀ p, p ∉ covered [] := by
    rintro p ⟨g, hg, -⟩
    cases hg
  refine ⟨⟨le_rfl, ?_, ?_, ?_⟩, ?_, hpos, ?_, Or.inl rfl, rfl, le_rfl, ?_⟩
  · show 1 ≤ 1 + 4096
    omega
  · exact fun p hp => absurd hp (hnone p)
  · intro g hg
    cases hg
  · rintro p (⟨hread, hwrite⟩ | hp)
    · have h1 : 1 ≤ p := hread
      have h2 : p < 1 := hwrite
      omega
    · exact absurd hp (hnone p)
  · exact fun p hp => absurd hp (hnone p)
  · intro t ht
    cases ht

/-- Every run with a conforming peer keeps the invariant. -/
theorem ConnRun.receivesStream {ipAddr : UInt32} {st : Stream} {c₀ c : TcpConnection}
    {h : ConnHistory} (hrun : ConnRun ipAddr (Conforms ipAddr st) c₀ h c)
    (hstart : ReceivesStream st [] c₀) : ReceivesStream st h c := by
  refine hrun.invariant (ReceivesStream st) hstart ?_
  intro h c e c' o _ hinv _ hok hsteps
  cases hsteps with
  | receive hreceived => exact hinv.received hok hreceived
  | send hsends => exact hinv.sends hsends _
  | read hreads => exact hinv.reads hreads _
  | write hwrites =>
    exact hinv.quiet hwrites.sameReceiver hwrites.sameConnection _ rfl rfl
  | shutdown => exact hinv.quiet (by constructor <;> rfl) (by constructor <;> rfl) _ rfl rfl
  | close => exact hinv.quiet (by constructor <;> rfl) (by constructor <;> rfl) _ rfl rfl
  | stale => exact hinv.quiet (SameReceiver.refl c) (SameConnection.refl c) _ rfl rfl

/-- `read_tcp` answers -1 before a reset only when everything before the FIN
has been read. -/
theorem ReceivesStream.read_end {st : Stream} {h : ConnHistory} {c : TcpConnection}
    (hinv : ReceivesStream st h c) (hopen : c.state ≠ .listen)
    (hstate : c.state.beforeReset) {data : Bytes} {off len : Int} (hoff : 0 ≤ off)
    (hlen : 0 ≤ len) (hret : (readTcp c c.connectionId data off len).ret = -1) :
    returned h = st.slice 1 st.fin := by
  have hreads := readTcp_reads hopen c.connectionId data off len
  have hread := hinv.window.read_le
  have hwrite := hinv.write_le
  have hle := st.fin_le
  generalize readTcp c c.connectionId data off len = result at hreads hret
  cases hreads with
  | refused h =>
    rcases h with h | h
    · omega
    · exact absurd rfl h
  | released hid hdata =>
    rw [hdata] at hstate
    rcases hstate with h | h | h | h <;> cases h
  | finished hid hfin =>
    have hfin' := UInt32.le_iff_toNat_le.mp hfin
    rcases hinv.fin with hno | hat
    · rw [hno] at hfin'
      have : NO_FIN.toNat = 4294967295 := by decide
      omega
    · rw [hinv.delivered, show c.rxRead.toNat = st.fin by omega]
  | negative hid hneg =>
    rw [hinv.window.toInt_available] at hneg
    omega
  | data =>
    simp only at hret
    omega

/-- The application reads the stream of a conforming peer: what has been read
is the stream up to `rx_read` at every moment, and `read_tcp` answers -1 on a
connection that was not reset only when it has been read to its end. -/
theorem receive_stream_fidelity {s : Stack} {syn : TcpPacket} {c₀ c : TcpConnection}
    {h : ConnHistory} {st : Stream} (hopens : Opens s syn c₀)
    (hrun : ConnRun s.ipAddr (Conforms s.ipAddr st) c₀ h c) :
    returned h = st.slice 1 c.rxRead.toNat ∧
      (c.state ≠ .listen → NotReset s.ipAddr c₀ h →
        ∀ data off len, 0 ≤ off → 0 ≤ len →
          (readTcp c c.connectionId data off len).ret = -1 → returned h = st.slice 1 st.fin) := by
  have hinv := hrun.receivesStream (hopens.receivesStream st)
  refine ⟨hinv.delivered, ?_⟩
  intro hopen hreset data off len hoff hlen hret
  have hstart : c₀.state.beforeReset := by
    obtain ⟨rand, windowScale, maxSegment, -, rfl⟩ := hopens.eq_openConnection
    exact Or.inr (Or.inl rfl)
  exact hinv.read_end hopen (hrun.beforeReset hstart hreset) hoff hlen hret

/-- The stream of a peer that sends "hi". -/
def hiStream : Stream where
  byte p := if p = 1 then 104 else 105
  fin := 3
  fin_pos := by decide
  fin_le := by decide

/-- The SYN-ACK, the two bytes with the FIN, and a read. -/
def hiEvents : List ConnEvent :=
  [.send ⟨0, 0⟩ fun _ => 0,
    .receive (peerPacket 1 101 (TCP_ACK ||| TCP_FIN) 1024 [104, 105]),
    .read 1 (fun _ => 0) 0 10]

theorem hiEvents_meets :
    ConnMeets listeningStack.ipAddr (Conforms listeningStack.ipAddr hiStream) peerConnection
      hiEvents := by
  decide +kernel

theorem receive_stream_fidelity_hi :
    returned (connExec listeningStack.ipAddr peerConnection hiEvents).1 = [104, 105] ∧
      returned (connExec listeningStack.ipAddr peerConnection hiEvents).1 =
        hiStream.slice 1 hiStream.fin := by
  obtain ⟨hread, hend⟩ := receive_stream_fidelity peerSyn_opens hiEvents_meets.run
  refine ⟨hread, hend (by decide +kernel) ?_ (fun _ => 0) 0 10 (by decide) (by decide)
    (by decide +kernel)⟩
  intro packet o hmem _
  have hpacket : packet = peerPacket 1 101 (TCP_ACK ||| TCP_FIN) 1024 [104, 105] := by
    simp [connExec, exec, hiEvents] at hmem
    exact hmem.1
  rw [hpacket]
  decide

end EthTransfer
