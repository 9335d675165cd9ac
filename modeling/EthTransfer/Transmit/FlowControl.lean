import EthTransfer.Transmit.Wire

/-!
# Flow control

`tx_limit` is the offset up to which `send_tcp_packet` may send.  It stays below
the largest right edge that the peer has offered as long as no window is added
to an offset that it was not offered for (`flow_control_of_keepsEdge`).  The
code does that in two places.

* The window of the SYN is scaled, although the SYN carries it unscaled.
* The window of a segment is added to `tx_acked`, and not to the offset that the
  segment acknowledges.  For an old segment `tx_acked` is the larger one.
-/

namespace EthTransfer

open GuardedRun

/-! ## Right edges -/

/-- The right edge that a segment offers. -/
def TcpPacket.edge (packet : TcpPacket) (c : TcpConnection) : ℕ :=
  (packet.ackOffset c).toNat + (packet.window c).toNat

/-- The right edge that an event brings. -/
def eventEdge (ipAddr : UInt32) (c : TcpConnection) : ConnEvent → ℕ
  | .receive packet =>
    if Addressed ipAddr c packet ∧ packet.tcp.has TCP_ACK = true then packet.edge c else 0
  | _ => 0

/-- The largest right edge received so far; `first` is that of the SYN. -/
def offeredEdge (ipAddr : UInt32) (first : ℕ) (c : TcpConnection) (h : ConnHistory) : ℕ :=
  h.foldl (fun edge x => max edge (eventEdge ipAddr c x.1)) first

/-- The right edge of the SYN, whose window is not scaled. -/
def TcpPacket.synEdge (syn : TcpPacket) : ℕ := 1 + syn.tcp.windowSize.toNat

theorem offeredEdge_append (ipAddr : UInt32) (first : ℕ) (c : TcpConnection) (h : ConnHistory)
    (e : ConnEvent) (o : ConnOutput) :
    offeredEdge ipAddr first c (h ++ [(e, o)]) =
      max (offeredEdge ipAddr first c h) (eventEdge ipAddr c e) := by
  simp [offeredEdge]

/-- The right edges do not depend on what changes in a connection. -/
theorem SameConnection.offeredEdge {c c' : TcpConnection} (hsame : SameConnection c c')
    (ipAddr : UInt32) (first : ℕ) (h : ConnHistory) :
    EthTransfer.offeredEdge ipAddr first c' h = EthTransfer.offeredEdge ipAddr first c h := by
  have hevent : ∀ e, eventEdge ipAddr c' e = eventEdge ipAddr c e := by
    intro e
    cases e with
    | receive packet =>
      unfold eventEdge TcpPacket.edge TcpPacket.ackOffset TcpPacket.window
      simp only [hsame.addressed, hsame.localSequence, hsame.remoteWindowScale]
    | _ => rfl
  unfold EthTransfer.offeredEdge
  simp only [hevent]

/-- The payload of a segment on the wire stays below the largest edge received
before it. -/
def BelowEdge (ipAddr : UInt32) (first : ℕ) (c : TcpConnection) (h : ConnHistory)
    (_ : ConnEvent) (o : ConnOutput) : Prop :=
  ∀ t, o.sent = some t → ∀ i < t.payload.length,
    (t.byteOffset c i).toNat < offeredEdge ipAddr first c h

instance (ipAddr : UInt32) (first : ℕ) (c : TcpConnection) :
    ∀ h e o, Decidable (BelowEdge ipAddr first c h e o) := fun h _ o =>
  inferInstanceAs (Decidable (∀ t ∈ o.sent, ∀ i < t.payload.length,
    (t.byteOffset c i).toNat < offeredEdge ipAddr first c h))

theorem SameConnection.belowEdge {c c' : TcpConnection} (hsame : SameConnection c c')
    (ipAddr : UInt32) (first : ℕ) : BelowEdge ipAddr first c' = BelowEdge ipAddr first c := by
  funext h e o
  unfold BelowEdge TxSegment.byteOffset
  rw [hsame.offeredEdge, hsame.localSequence]

/-- A segment that is older than `tx_acked` offers no window beyond the edges
received so far, counted from `tx_acked`. -/
def KeepsEdge (ipAddr : UInt32) (first : ℕ) : ConnGuard := fun h c e =>
  ∀ packet, e = .receive packet → Addressed ipAddr c packet →
    packet.tcp.has TCP_RST = false → Accepts c packet → packet.ackOffset c < c.txAcked →
    c.txAcked.toNat + (packet.window c).toNat ≤ offeredEdge ipAddr first c h

/-! ## The invariant -/

/-- The limits of the connection lie within `edge`. -/
structure WithinEdge (edge : ℕ) (c : TcpConnection) : Prop where
  sent_le : c.txSent ≤ c.txLimit
  limit_le : c.txLimit.toNat ≤ edge
  window_le : c.txAcked.toNat + c.remoteWindow.toNat ≤ edge

/-- The payload on the wire stays below the edges, and so do the limits.  An edge
past the end of the sequence space bounds nothing. -/
structure FlowControlled (ipAddr : UInt32) (first : ℕ) (h : ConnHistory) (c : TcpConnection) :
    Prop where
  within : 2 ^ 32 ≤ offeredEdge ipAddr first c h ∨
    WithinEdge (offeredEdge ipAddr first c h) c
  payload : Always (BelowEdge ipAddr first c) h

section Steps

variable {ipAddr : UInt32} {first : ℕ} {h : ConnHistory} {c c' : TcpConnection}

/-- An event that sends nothing.  The limits may have moved. -/
theorem FlowControlled.quiet (hinv : FlowControlled ipAddr first h c)
    (hsame : SameConnection c c') (e : ConnEvent) {o : ConnOutput} (ho : o.sent = none)
    (hwithin : WithinEdge (offeredEdge ipAddr first c h) c →
      2 ^ 32 ≤ max (offeredEdge ipAddr first c h) (eventEdge ipAddr c e) ∨
        WithinEdge (max (offeredEdge ipAddr first c h) (eventEdge ipAddr c e)) c') :
    FlowControlled ipAddr first (h ++ [(e, o)]) c' := by
  refine ⟨?_, ?_⟩
  · rw [hsame.offeredEdge, offeredEdge_append]
    rcases hinv.within with hlarge | hin
    · exact Or.inl (Nat.le_trans hlarge (Nat.le_max_left _ _))
    · exact hwithin hin
  · rw [hsame.belowEdge]
    refine hinv.payload.append ?_
    intro t ht
    rw [ho] at ht
    cases ht

theorem WithinEdge.mono {edge edge' : ℕ} (h : WithinEdge edge c) (hle : edge ≤ edge') :
    WithinEdge edge' c :=
  ⟨h.sent_le, Nat.le_trans h.limit_le hle, Nat.le_trans h.window_le hle⟩

/-- The limits depend on four fields. -/
theorem WithinEdge.congr {edge : ℕ} (h : WithinEdge edge c) (hsent : c'.txSent = c.txSent)
    (hlimit : c'.txLimit = c.txLimit) (hacked : c'.txAcked = c.txAcked)
    (hwindow : c'.remoteWindow = c.remoteWindow) : WithinEdge edge c' := by
  refine ⟨?_, ?_, ?_⟩
  · rw [hsent, hlimit]
    exact h.sent_le
  · rw [hlimit]
    exact h.limit_le
  · rw [hacked, hwindow]
    exact h.window_le

/-- An event that sends nothing and leaves the limits alone. -/
theorem FlowControlled.same (hinv : FlowControlled ipAddr first h c)
    (hsame : SameConnection c c') (e : ConnEvent) {o : ConnOutput} (ho : o.sent = none)
    (hsent : c'.txSent = c.txSent) (hlimit : c'.txLimit = c.txLimit)
    (hacked : c'.txAcked = c.txAcked) (hwindow : c'.remoteWindow = c.remoteWindow) :
    FlowControlled ipAddr first (h ++ [(e, o)]) c' := by
  refine hinv.quiet hsame e ho fun hin => Or.inr ?_
  exact (hin.mono (Nat.le_max_left _ _)).congr hsent hlimit hacked hwindow

/-- The window of an acknowledgement, added to the new `tx_acked`, stays within
the edges. -/
theorem WithinEdge.acknowledge {edge : ℕ} (hin : WithinEdge edge c) {packet : TcpPacket}
    (hlt : edge < 2 ^ 32)
    (hwindow : (receiveAck c packet).txAcked.toNat + (packet.window c).toNat ≤ edge) :
    WithinEdge edge (receiveAck c packet) := by
  have hnew : ((receiveAck c packet).txAcked + packet.window c).toNat =
      (receiveAck c packet).txAcked.toNat + (packet.window c).toNat :=
    Word.toNat_add_of_lt (by omega)
  have hlimit := receiveAck_txLimit c packet
  refine ⟨?_, ?_, hwindow⟩
  · show c.txSent ≤ (receiveAck c packet).txLimit
    rw [hlimit]
    split
    · rename_i hmore
      exact UInt32.le_trans hin.sent_le (UInt32.le_of_lt hmore)
    · exact hin.sent_le
  · rw [hlimit]
    split
    · omega
    · exact hin.limit_le

/-- A packet keeps the limits within the edges, its own among them. -/
theorem WithinEdge.received {edge : ℕ} (hin : WithinEdge edge c) {packet : TcpPacket}
    (hreceived : Received ipAddr c packet c') (hmore : edge < 2 ^ 32)
    (hedge : Addressed ipAddr c packet → packet.tcp.has TCP_ACK = true → packet.edge c ≤ edge)
    (hold : Addressed ipAddr c packet → packet.tcp.has TCP_RST = false → Accepts c packet →
      packet.ackOffset c < c.txAcked → c.txAcked.toNat + (packet.window c).toNat ≤ edge) :
    WithinEdge edge c' := by
  cases hreceived with
  | ignored => exact hin
  | reset => exact ⟨hin.sent_le, hin.limit_le, hin.window_le⟩
  | @accepted added hto hrst haccepts hadded =>
    have htx := hadded.sameSender
    have hconn := hadded.sameConnection
    have hadd : WithinEdge edge added :=
      hin.congr htx.txSent htx.txLimit htx.txAcked htx.remoteWindow
    have hwindow : packet.window added = packet.window c := by
      unfold TcpPacket.window
      rw [hconn.remoteWindowScale]
    have hack : packet.ackOffset added = packet.ackOffset c := by
      unfold TcpPacket.ackOffset
      rw [hconn.localSequence]
    have hnext : WithinEdge edge (receiveAck added packet) := hadd.acknowledge hmore <| by
      rw [receiveAck_txAcked, hwindow, hack, htx.txAcked]
      have hown := hedge hto haccepts.ack
      unfold TcpPacket.edge at hown
      split
      · exact hown
      · rename_i hnot
        rcases UInt32.lt_or_eq_of_le (UInt32.not_lt.mp hnot) with hlt | heq
        · exact hold hto hrst haccepts hlt
        · rw [← heq]
          exact hown
    exact ⟨hnext.sent_le, hnext.limit_le, hnext.window_le⟩

/-- A segment stays within the limit. -/
theorem WithinEdge.transmit {edge : ℕ} (hin : WithinEdge edge c) (now : Int)
    (scratch : Bytes) :
    WithinEdge edge (transmit c now scratch).conn ∧
      ∀ i < (buildSegment c scratch).payload.length,
        ((buildSegment c scratch).byteOffset c i).toNat < edge := by
  have hle := UInt32.le_iff_toNat_le.mp hin.sent_le
  have hlimit := hin.limit_le
  have hlt := c.txLimit.toNat_lt
  obtain ⟨hmove, hlength⟩ := sendLength_le_limit c
  rw [Word.toNat_sub_cases, if_pos hle] at hmove hlength
  refine ⟨⟨?_, hlimit, hin.window_le⟩, ?_⟩
  · show c.txSent + UInt32.ofInt (sendLength c) ≤ c.txLimit
    rw [UInt32.le_iff_toNat_le, Word.toNat_add_of_lt (by omega)]
    omega
  · intro i hi
    have hsyn := isSyn_of_lt_length hi
    rw [length_buildSegment_payload] at hi
    rw [buildSegment_byteOffset hsyn, Word.toNat_add_ofNat (by omega)]
    omega

/-- Going back to `tx_acked` takes the limit back to the window offered there. -/
theorem WithinEdge.rewind {edge : ℕ} (hin : WithinEdge edge c) (hmore : edge < 2 ^ 32) :
    WithinEdge edge (rewind c) := by
  have hwindow := hin.window_le
  have hsum : (c.txAcked + c.remoteWindow).toNat = c.txAcked.toNat + c.remoteWindow.toNat :=
    Word.toNat_add_of_lt (by omega)
  refine ⟨?_, ?_, hwindow⟩
  · show c.txAcked ≤ c.txAcked + c.remoteWindow
    rw [UInt32.le_iff_toNat_le]
    omega
  · show (c.txAcked + c.remoteWindow).toNat ≤ edge
    omega

/-- A segment from a connection within the edges. -/
theorem FlowControlled.transmit (hinv : FlowControlled ipAddr first h c) (e : ConnEvent)
    (he : eventEdge ipAddr c e = 0) (now : Int) (scratch : Bytes) :
    FlowControlled ipAddr first (h ++ [(e, { sent := (transmit c now scratch).sent })])
      (transmit c now scratch).conn := by
  have hsame : SameConnection c (EthTransfer.transmit c now scratch).conn := by
    constructor <;> rfl
  have hedge : offeredEdge ipAddr first (EthTransfer.transmit c now scratch).conn
      (h ++ [(e, { sent := (EthTransfer.transmit c now scratch).sent })]) =
        offeredEdge ipAddr first c h := by
    rw [hsame.offeredEdge, offeredEdge_append, he, Nat.max_zero]
  refine ⟨?_, ?_⟩
  · rw [hedge]
    rcases hinv.within with hlarge | hin
    · exact Or.inl hlarge
    · exact Or.inr (hin.transmit now scratch).1
  · rw [hsame.belowEdge]
    refine hinv.payload.append ?_
    intro t ht i hi
    have hsent : (EthTransfer.transmit c now scratch).sent = some t := ht
    obtain rfl := transmit_sent hsent
    rcases hinv.within with hlarge | hin
    · exact Nat.lt_of_lt_of_le (UInt32.toNat_lt _) hlarge
    · exact (hin.transmit now scratch).2 i hi

/-- Every event keeps the payload below the edges, as long as no old window
reaches beyond them. -/
theorem FlowControlled.step (hinv : FlowControlled ipAddr first h c) {e : ConnEvent}
    {o : ConnOutput} (hok : KeepsEdge ipAddr first h c e) (hsteps : ConnSteps ipAddr c e c' o) :
    FlowControlled ipAddr first (h ++ [(e, o)]) c' := by
  have hsame := hsteps.sameConnection
  cases hsteps with
  | @receive packet _ hreceived =>
    refine hinv.quiet hsame _ rfl fun hin => ?_
    rcases Nat.lt_or_ge (max (offeredEdge ipAddr first c h)
      (eventEdge ipAddr c (.receive packet))) (2 ^ 32) with hmore | hlarge
    · refine Or.inr ((hin.mono (Nat.le_max_left _ _)).received hreceived hmore ?_ ?_)
      · intro hto hack
        refine Nat.le_trans (le_of_eq ?_) (Nat.le_max_right _ _)
        exact (if_pos ⟨hto, hack⟩).symm
      · intro hto hrst haccepts hlt
        exact Nat.le_trans (hok packet rfl hto hrst haccepts hlt) (Nat.le_max_left _ _)
    · exact Or.inl hlarge
  | send hsends =>
    rcases hsends.transmit_cases with ⟨hconn, hsent⟩ | ⟨c₁, rfl, rfl | ⟨-, -, rfl⟩⟩
    · rw [hconn]
      exact hinv.same (SameConnection.refl c) _ hsent rfl rfl rfl rfl
    · exact hinv.transmit _ rfl _ _
    · have hback : FlowControlled ipAddr first h (rewind c) := by
        have hkept : SameConnection c (rewind c) := by
          constructor <;> rfl
        refine ⟨?_, hkept.belowEdge ipAddr first ▸ hinv.payload⟩
        rw [hkept.offeredEdge]
        rcases Nat.lt_or_ge (offeredEdge ipAddr first c h) (2 ^ 32) with hmore | hlarge
        · exact Or.inr ((hinv.within.resolve_left (Nat.not_le.mpr hmore)).rewind hmore)
        · exact Or.inl hlarge
      exact hback.transmit _ rfl _ _
  | read hreads =>
    have htx := hreads.sameSender
    exact hinv.same hsame _ rfl htx.txSent htx.txLimit htx.txAcked htx.remoteWindow
  | write hwrites =>
    cases hwrites with
    | none => exact hinv.same hsame _ rfl rfl rfl rfl rfl
    | accepted => exact hinv.same hsame _ rfl rfl rfl rfl rfl
  | shutdown => exact hinv.same hsame _ rfl rfl rfl rfl rfl
  | close => exact hinv.same hsame _ rfl rfl rfl rfl rfl
  | stale => exact hinv.same hsame _ rfl rfl rfl rfl rfl

end Steps

/-! ## The result -/

/-- The fresh connection is within the edge of a SYN whose window is not
scaled. -/
theorem Opens.flowControlled {s : Stack} {syn : TcpPacket} {c₀ : TcpConnection}
    (hopens : Opens s syn c₀)
    (hscale : syn.tcp.windowSize = 0 ∨ c₀.remoteWindowScale = 0) :
    FlowControlled s.ipAddr syn.synEdge [] c₀ := by
  obtain ⟨rand, windowScale, maxSegment, -, rfl⟩ := hopens.eq_openConnection
  have hwindow : syn.tcp.windowSize.toUInt32 <<< UInt32.ofNat windowScale =
      syn.tcp.windowSize.toUInt32 := by
    rcases hscale with hzero | hscale
    · rw [hzero]
      simp
    · obtain rfl : windowScale = 0 := hscale
      simp
  have hsize := syn.tcp.windowSize.toNat_lt
  refine ⟨Or.inr ⟨?_, ?_, ?_⟩, ?_⟩
  · show 1 ≤ 1 + syn.tcp.windowSize.toUInt32 <<< UInt32.ofNat windowScale
    rw [hwindow, UInt32.le_iff_toNat_le, UInt32.toNat_add, UInt16.toNat_toUInt32]
    show 1 ≤ (1 + _) % _
    omega
  · show (1 + syn.tcp.windowSize.toUInt32 <<< UInt32.ofNat windowScale).toNat ≤ _
    rw [hwindow, UInt32.toNat_add, UInt16.toNat_toUInt32]
    show (1 + _) % _ ≤ 1 + _
    exact Nat.mod_le _ _
  · show 0 + (syn.tcp.windowSize.toUInt32 <<< UInt32.ofNat windowScale).toNat ≤ 1 + _
    rw [hwindow, UInt16.toNat_toUInt32]
    omega
  · exact always_nil

/-- When the SYN offers no window scale and no old segment offers, from
`tx_acked` on, more than the largest right edge received, no payload byte is
ever sent at or beyond that edge. -/
theorem flow_control_of_keepsEdge {s : Stack} {syn : TcpPacket} {c₀ c : TcpConnection}
    {h : ConnHistory} (hopens : Opens s syn c₀)
    (hscale : syn.tcp.windowSize = 0 ∨ c₀.remoteWindowScale = 0)
    (hrun : ConnRun s.ipAddr (KeepsEdge s.ipAddr syn.synEdge) c₀ h c) :
    Always (BelowEdge s.ipAddr syn.synEdge c) h := by
  have hinv : FlowControlled s.ipAddr syn.synEdge h c := by
    refine hrun.invariant (FlowControlled s.ipAddr syn.synEdge) (hopens.flowControlled hscale) ?_
    intro h c e c' o _ hinv _ hok hsteps
    exact hinv.step hok hsteps
  exact hinv.payload

/-- The handshake with a peer that offers 1024 bytes each time, three bytes, and
their acknowledgement, after which an old segment comes again. -/
def oldWindow : List ConnEvent :=
  [.send ⟨0, 0⟩ fun _ => 0, .receive (peerPacket 1 101 TCP_ACK 1024 []),
    .write 1 (fun _ => 97) 3, .send ⟨0, 0⟩ fun _ => 0,
    .receive (peerPacket 1 104 TCP_ACK 1024 []), .receive (peerPacket 1 101 TCP_ACK 1024 [])]

theorem oldWindow_meets :
    ConnMeets listeningStack.ipAddr (KeepsEdge listeningStack.ipAddr peerSyn.synEdge)
      peerConnection oldWindow := by
  refine ⟨⟨by decide, nofun⟩, ⟨by decide +kernel, ?_⟩, ⟨by decide +kernel, nofun⟩,
    ⟨by decide +kernel, nofun⟩, ⟨by decide +kernel, ?_⟩, ⟨by decide +kernel, ?_⟩, trivial⟩
  all_goals
    intro packet heq _ _ _
    obtain rfl := ConnEvent.receive.inj heq
    decide +kernel

theorem flow_control_of_keepsEdge_oldWindow :
    Always (BelowEdge listeningStack.ipAddr peerSyn.synEdge
        (connExec listeningStack.ipAddr peerConnection oldWindow).2)
      (connExec listeningStack.ipAddr peerConnection oldWindow).1 :=
  flow_control_of_keepsEdge peerSyn_opens (Or.inr rfl) oldWindow_meets.run

/-- A SYN that offers 100 bytes and a window scale of 7. -/
def scaledSyn : TcpPacket where
  sourceMac := peerSyn.sourceMac
  ip := { peerSyn.ip with totalLength := 44 }
  tcp :=
    { peerSyn.tcp with
      offsetFlags := 0x6000 ||| TCP_SYN
      windowSize := 100
      bytes := fun i => [3, 3, 7, 0].getD (i - 20) 0 }

/-- The connection that it opens. -/
def scaledConnection : TcpConnection :=
  openConnection listeningStack.tcpConn scaledSyn 1 ⟨0, 100⟩ 7 MAX_SEGMENT

theorem scaledSyn_opens : Opens listeningStack scaledSyn scaledConnection where
  listen := rfl
  accepted := ⟨⟨0, 100⟩, _, rfl, rfl⟩
  opened := by decide

/-- 200 bytes are written before the peer acknowledges the SYN and offers 128. -/
def scaledEvents : List ConnEvent :=
  [.send ⟨0, 0⟩ fun _ => 0, .write 1 (fun _ => 97) 200,
    .receive (peerPacket 1 101 TCP_ACK 1 []), .send ⟨0, 0⟩ fun _ => 0]

/-- The SYN of a peer that offers 1000 bytes and no window scale. -/
def narrowSyn : TcpPacket := peerPacket 0 0 TCP_SYN 1000 []

/-- The connection that it opens. -/
def narrowConnection : TcpConnection :=
  openConnection listeningStack.tcpConn narrowSyn 1 ⟨0, 100⟩ 0 MAX_SEGMENT

theorem narrowSyn_opens : Opens listeningStack narrowSyn narrowConnection where
  listen := rfl
  accepted := ⟨⟨0, 100⟩, _, rfl, rfl⟩
  opened := by decide

/-- 1000 bytes in two segments.  The acknowledgements of the two come in the
wrong order, and 500 bytes follow. -/
def reorderedEvents : List ConnEvent :=
  [.send ⟨0, 0⟩ fun _ => 0, .receive (peerPacket 1 101 TCP_ACK 1000 []),
    .write 1 (fun _ => 97) 500, .send ⟨0, 0⟩ fun _ => 0,
    .write 1 (fun _ => 97) 500, .send ⟨0, 0⟩ fun _ => 0,
    .receive (peerPacket 1 1101 TCP_ACK 0 []), .receive (peerPacket 1 601 TCP_ACK 500 []),
    .write 1 (fun _ => 97) 500, .send ⟨0, 0⟩ fun _ => 0]

/-- After a SYN with a window scale, and after two acknowledgements in the wrong
order, payload goes out beyond every edge received.  The peer never moves its
edge left: it stands at 101 and 129 in the first run, and at 1001 all the time
in the second. -/
theorem flow_control_overrun :
    (Opens listeningStack scaledSyn scaledConnection ∧
      ∃ h c, ConnRun listeningStack.ipAddr anyEvent scaledConnection h c ∧
        c.remoteWindowScale = 7 ∧ scaledSyn.synEdge = 101 ∧
        offeredEdge listeningStack.ipAddr scaledSyn.synEdge c h = 129 ∧
        ¬ Always (BelowEdge listeningStack.ipAddr scaledSyn.synEdge c) h) ∧
    Opens listeningStack narrowSyn narrowConnection ∧
      ∃ h c, ConnRun listeningStack.ipAddr anyEvent narrowConnection h c ∧
        c.remoteWindowScale = 0 ∧
        (∀ x ∈ h, eventEdge listeningStack.ipAddr c x.1 = 0 ∨
          eventEdge listeningStack.ipAddr c x.1 = 1001) ∧
        offeredEdge listeningStack.ipAddr narrowSyn.synEdge c h = 1001 ∧
        ¬ Always (BelowEdge listeningStack.ipAddr narrowSyn.synEdge c) h := by
  have hscaled : ConnMeets listeningStack.ipAddr anyEvent scaledConnection scaledEvents := by
    decide +kernel
  have hreordered :
      ConnMeets listeningStack.ipAddr anyEvent narrowConnection reorderedEvents := by
    decide +kernel
  exact ⟨⟨scaledSyn_opens, _, _, hscaled.run, rfl, rfl, by decide +kernel, by decide +kernel⟩,
    narrowSyn_opens, _, _, hreordered.run, rfl, by decide +kernel, by decide +kernel,
    by decide +kernel⟩

end EthTransfer
