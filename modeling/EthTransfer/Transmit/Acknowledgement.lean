import EthTransfer.Transmit.Wire

/-!
# Acknowledgements

`handle_tcp_packet` takes every acknowledgement above `tx_acked`, also one for
data that was never sent (`hostile_acknowledgement`).  This module is about the
runs whose peer acknowledges what was sent (`AcksSent`).

`TxWindow` is the picture of the transmit counters in these runs.  Its natural
numbers count without wrapping: `W` and `S` stand for `tx_write` and `tx_sent`,
and `D` for the highest offset that has been sent.  After a timeout `S` goes
back, and a late acknowledgement can then move `tx_acked` past it; `D` is what
keeps the three counters within two buffers of each other.
-/

namespace EthTransfer

/-! ## The counters -/

/-- The transmit counters, with `W` for `tx_write`, `S` for `tx_sent` and `D`
for the end of the data sent so far. -/
structure TxWindow (c : TcpConnection) (W S D : ℕ) : Prop where
  write : c.txWrite = UInt32.ofNat W
  sent : c.txSent = UInt32.ofNat S
  sent_le : S ≤ D
  high_le : D ≤ W
  high_near : D ≤ S + 4096
  acked_le : c.txAcked.toNat ≤ D + 1
  write_near : W ≤ c.txAcked.toNat + 4096

section Counters

variable {c c' : TcpConnection} {W S D : ℕ}

/-- The picture depends on three counters. -/
theorem TxWindow.congr (h : TxWindow c W S D) (hwrite : c'.txWrite = c.txWrite)
    (hsent : c'.txSent = c.txSent) (hacked : c'.txAcked = c.txAcked) : TxWindow c' W S D := by
  refine ⟨hwrite.trans h.write, hsent.trans h.sent, h.sent_le, h.high_le, h.high_near, ?_, ?_⟩
  · rw [hacked]
    exact h.acked_le
  · rw [hacked]
    exact h.write_near

/-- The unsent bytes. -/
theorem TxWindow.toNat_unsent (h : TxWindow c W S D) :
    (c.txWrite - c.txSent).toNat = W - S ∧ W - S ≤ 8193 := by
  have h1 := h.sent_le
  have h2 := h.high_le
  have h3 := h.high_near
  have h4 := h.acked_le
  have h5 := h.write_near
  refine ⟨?_, by omega⟩
  rw [h.write, h.sent]
  exact Word.ofNat_sub_ofNat (by omega) (by omega)

/-- The room in the transmit ring, which is one more when a FIN has been
acknowledged. -/
theorem TxWindow.bufferAvailable_eq (h : TxWindow c W S D) :
    bufferAvailable c = 4096 + c.txAcked.toNat - W ∧ bufferAvailable c ≤ 4097 := by
  have h2 := h.high_le
  have h4 := h.acked_le
  have h5 := h.write_near
  have hlt := c.txAcked.toNat_lt
  have hsize : BUFFER_SIZE.toNat = 4096 := by decide
  have hroom : (BUFFER_SIZE - (c.txWrite - c.txAcked)).toNat = 4096 + c.txAcked.toNat - W := by
    rw [UInt32.toNat_sub, UInt32.toNat_sub, h.write, UInt32.toNat_ofNat', hsize]
    omega
  unfold bufferAvailable
  rw [Word.toInt_of_lt (by omega), hroom]
  omega

/-- An acknowledgement of something sent keeps the picture. -/
theorem TxWindow.acknowledge (h : TxWindow c W S D) (hwrite : c'.txWrite = c.txWrite)
    (hsent : c'.txSent = c.txSent) (hle : c.txAcked.toNat ≤ c'.txAcked.toNat)
    (hacked : c'.txAcked.toNat ≤ D + 1) : TxWindow c' W S D := by
  have h5 := h.write_near
  exact ⟨hwrite.trans h.write, hsent.trans h.sent, h.sent_le, h.high_le, h.high_near, hacked,
    by omega⟩

/-- Going back to `tx_acked` keeps the picture: everything sent so far lies
within one buffer of it. -/
theorem TxWindow.rewind (h : TxWindow c W S D) {now : Int} (htime : timedOut c now = true) :
    TxWindow (rewind c) W c.txAcked.toNat D := by
  have hback := UInt32.lt_iff_toNat_lt.mp (timedOut_iff.mp htime).1
  rw [h.sent] at hback
  have hwrap := Word.toNat_ofNat_le S
  have h1 := h.sent_le
  have h2 := h.high_le
  have h5 := h.write_near
  exact ⟨h.write, (UInt32.ofNat_toNat).symm, by omega, h2, by omega, h.acked_le, h5⟩

/-- Sending `n` bytes keeps the picture. -/
theorem TxWindow.transmit (h : TxWindow c W S D) (now : Int) (scratch : Bytes) :
    ∃ n : ℕ, sendLength c = n ∧ n ≤ 1400 ∧ S + n ≤ W ∧
      (transmit c now scratch).sent = some (buildSegment c scratch) ∧
      TxWindow (transmit c now scratch).conn W (S + n) (max D (S + n)) := by
  obtain ⟨hunsent, hnear⟩ := h.toNat_unsent
  have h1 := h.sent_le
  have h2 := h.high_le
  have h3 := h.high_near
  have h4 := h.acked_le
  obtain ⟨n, hn, hmax, hle⟩ := sendLength_eq (c := c) (by omega)
  refine ⟨n, hn, hmax, by omega, transmit_sent_eq hn now scratch, h.write, ?_, by omega,
    by omega, by omega, ?_, h.write_near⟩
  · show c.txSent + UInt32.ofInt (sendLength c) = UInt32.ofNat (S + n)
    rw [hn, Word.ofInt_natCast, h.sent, UInt32.ofNat_add]
  · show c.txAcked.toNat ≤ max D (S + n) + 1
    omega

/-- Accepting `n` bytes keeps the picture. -/
theorem TxWindow.accept (h : TxWindow c W S D) {n : ℕ} (hn : (n : Int) ≤ bufferAvailable c)
    (hwrite : c'.txWrite = c.txWrite + UInt32.ofNat n) (hsent : c'.txSent = c.txSent)
    (hacked : c'.txAcked = c.txAcked) : TxWindow c' (W + n) S D := by
  have hroom := h.bufferAvailable_eq.1
  have h2 := h.high_le
  refine ⟨?_, hsent.trans h.sent, h.sent_le, by omega, h.high_near, ?_, ?_⟩
  · rw [hwrite, h.write, UInt32.ofNat_add]
  · rw [hacked]
    exact h.acked_le
  · rw [hacked]
    omega

end Counters

/-! ## Runs -/

/-- Every segment that passes the checks acknowledges only what has been
sent. -/
def AcksSent (ipAddr : UInt32) : ConnGuard := fun h c e =>
  ∀ packet, e = .receive packet → Addressed ipAddr c packet →
    packet.tcp.has TCP_RST = false → Accepts c packet →
    (packet.ackOffset c).toNat ≤ sentEnd c h

instance (ipAddr : UInt32) (h : ConnHistory) (c : TcpConnection) (e : ConnEvent) :
    Decidable (AcksSent ipAddr h c e) :=
  inferInstanceAs (Decidable (∀ packet, e = .receive packet → _))

/-- The counters in a run: `tx_acked` was sent, and nothing but a FIN lies
beyond the data. -/
structure TxHistory (h : ConnHistory) (c : TcpConnection) (W S D : ℕ) : Prop where
  window : TxWindow c W S D
  acked_sent : c.txAcked.toNat ≤ sentEnd c h
  sent_end : sentEnd c h ≤ D + 1

section Steps

variable {ipAddr : UInt32} {h : ConnHistory} {c c' : TcpConnection} {W S D : ℕ}

/-- An event that sends nothing and leaves the counters alone. -/
theorem TxHistory.quiet (hinv : TxHistory h c W S D) (hsame : SameConnection c c')
    (hwrite : c'.txWrite = c.txWrite) (hsent : c'.txSent = c.txSent)
    (hacked : c'.txAcked = c.txAcked) (e : ConnEvent) {o : ConnOutput} (ho : o.sent = none) :
    TxHistory (h ++ [(e, o)]) c' W S D := by
  have hend : sentEnd c' (h ++ [(e, o)]) = sentEnd c h := by
    rw [hsame.sentEnd, sentEnd_append_none ho]
  refine ⟨hinv.window.congr hwrite hsent hacked, ?_, ?_⟩
  · rw [hend, hacked]
    exact hinv.acked_sent
  · rw [hend]
    exact hinv.sent_end

/-- `handle_tcp_packet` keeps the counters. -/
theorem TxHistory.received (hinv : TxHistory h c W S D) {packet : TcpPacket}
    (hok : AcksSent ipAddr h c (.receive packet)) (hreceived : Received ipAddr c packet c') :
    TxHistory (h ++ [(.receive packet, ({} : ConnOutput))]) c' W S D := by
  obtain ⟨hwrite, hsent, -, -, hacked⟩ := hreceived.txAcked
  have hsame := hreceived.sameConnection
  rcases hacked with hacked | ⟨hto, hrst, haccepts, hle, hacked⟩
  · exact hinv.quiet hsame hwrite hsent hacked _ rfl
  · have hend : sentEnd c' (h ++ [(.receive packet, ({} : ConnOutput))]) = sentEnd c h := by
      rw [hsame.sentEnd, sentEnd_append_none rfl]
    have hback := hok packet rfl hto hrst haccepts
    rw [← hacked] at hback
    refine ⟨hinv.window.acknowledge hwrite hsent (UInt32.le_iff_toNat_le.mp hle)
      (Nat.le_trans hback hinv.sent_end), ?_, ?_⟩
    · rw [hend]
      exact hback
    · rw [hend]
      exact hinv.sent_end

/-- A segment from the connection as it is, or from the rewound one, keeps the
counters. -/
theorem TxHistory.transmit (hinv : TxHistory h c W S D) (e : ConnEvent) (now : Int)
    (scratch : Bytes) :
    ∃ n : ℕ, sendLength c = n ∧ S + n ≤ W ∧
      (transmit c now scratch).sent = some (buildSegment c scratch) ∧
      TxHistory (h ++ [(e, { sent := (transmit c now scratch).sent })])
        (transmit c now scratch).conn W (S + n) (max D (S + n)) := by
  obtain ⟨n, hn, -, hle, hsent, hwin⟩ := hinv.window.transmit now scratch
  refine ⟨n, hn, hle, hsent, hwin, ?_, ?_⟩
  · exact Nat.le_trans hinv.acked_sent (sentEnd_mono c h e _)
  · refine sentEnd_append_le (Nat.le_trans hinv.sent_end (by omega)) fun segment hsegment => ?_
    obtain rfl := Option.some.inj (hsent.symm.trans hsegment)
    show ((buildSegment c scratch).endOffset c).toNat ≤ _
    rw [buildSegment_endOffset c scratch hn, hinv.window.sent, ← UInt32.ofNat_add]
    have hwrap := Word.toNat_ofNat_le (S + n)
    rw [UInt32.toNat_add]
    have hfin : (if c.txFin ≤ c.txAcked then (1 : UInt32) else 0).toNat ≤ 1 := by
      split <;> decide
    omega

/-- `send_tcp_packet` keeps the counters, and goes back to `tx_acked` at most. -/
theorem TxHistory.sends (hinv : TxHistory h c W S D) {clock : Clock} {scratch : Bytes}
    {result : SendResult} (hsends : Sends c clock scratch result) (e : ConnEvent) :
    ∃ S' D', TxHistory (h ++ [(e, { sent := result.sent })]) result.conn W S' D' := by
  rcases hsends.transmit_cases with ⟨hconn, hsent⟩ | ⟨c₁, rfl, rfl | ⟨-, htime, rfl⟩⟩
  · rw [hconn]
    exact ⟨S, D, hinv.quiet (SameConnection.refl c) rfl rfl rfl e hsent⟩
  · obtain ⟨n, -, -, -, hnext⟩ := hinv.transmit e clock.armed scratch
    exact ⟨_, _, hnext⟩
  · have hback : TxHistory h (rewind c) W c.txAcked.toNat D :=
      ⟨hinv.window.rewind htime, hinv.acked_sent, hinv.sent_end⟩
    obtain ⟨n, -, -, -, hnext⟩ := hback.transmit e clock.armed scratch
    exact ⟨_, _, hnext⟩

/-- `write_tcp` keeps the counters. -/
theorem TxHistory.writes (hinv : TxHistory h c W S D) {data : Bytes} {len : Int}
    {result : TcpConnection × Int} (hwrites : Writes c data len result) (e : ConnEvent)
    {o : ConnOutput} (ho : o.sent = none) :
    TxHistory (h ++ [(e, o)]) result.1 (W + result.2.toNat) S D := by
  cases hwrites with
  | none => exact hinv.quiet (SameConnection.refl c) rfl rfl rfl e ho
  | @accepted n hpos hlen hwindow hbuffer =>
    have hend : sentEnd c (h ++ [(e, o)]) = sentEnd c h := sentEnd_append_none ho
    refine ⟨hinv.window.accept hbuffer rfl rfl rfl, ?_, ?_⟩
    · exact hend ▸ hinv.acked_sent
    · exact hend ▸ hinv.sent_end

/-- Every event of a run whose peer acknowledges what was sent keeps the
counters. -/
theorem TxHistory.step (hinv : TxHistory h c W S D) {e : ConnEvent} {o : ConnOutput}
    (hok : AcksSent ipAddr h c e) (hsteps : ConnSteps ipAddr c e c' o) :
    ∃ W' S' D', TxHistory (h ++ [(e, o)]) c' W' S' D' := by
  have hsame := hsteps.sameConnection
  cases hsteps with
  | receive hreceived => exact ⟨W, S, D, hinv.received hok hreceived⟩
  | send hsends => exact ⟨W, hinv.sends hsends _⟩
  | read hreads =>
    have htx := hreads.sameSender
    exact ⟨W, S, D, hinv.quiet hsame htx.txWrite htx.txSent htx.txAcked _ rfl⟩
  | write hwrites => exact ⟨_, S, D, hinv.writes hwrites _ rfl⟩
  | shutdown => exact ⟨W, S, D, hinv.quiet hsame rfl rfl rfl _ rfl⟩
  | close => exact ⟨W, S, D, hinv.quiet hsame rfl rfl rfl _ rfl⟩
  | stale => exact ⟨W, S, D, hinv.quiet hsame rfl rfl rfl _ rfl⟩

end Steps

/-- The fresh connection has nothing sent but the SYN to come. -/
theorem Opens.txHistory {s : Stack} {syn : TcpPacket} {c₀ : TcpConnection}
    (hopens : Opens s syn c₀) : TxHistory [] c₀ 1 1 1 := by
  obtain ⟨rand, windowScale, maxSegment, -, rfl⟩ := hopens.eq_openConnection
  refine ⟨⟨rfl, rfl, le_rfl, le_rfl, by omega, ?_, ?_⟩, ?_, ?_⟩
  · show 0 ≤ 1 + 1
    omega
  · show 1 ≤ 0 + 4096
    omega
  · exact le_rfl
  · exact Nat.zero_le _

/-- The counters of every run whose peer acknowledges what was sent. -/
theorem ConnRun.txHistory {ipAddr : UInt32} {c₀ c : TcpConnection} {h : ConnHistory}
    (hrun : ConnRun ipAddr (AcksSent ipAddr) c₀ h c) (hstart : TxHistory [] c₀ 1 1 1) :
    ∃ W S D, TxHistory h c W S D := by
  refine hrun.invariant (fun h c => ∃ W S D, TxHistory h c W S D) ⟨1, 1, 1, hstart⟩ ?_
  intro h c e c' o _ hinv _ hok hsteps
  obtain ⟨W, S, D, hinv⟩ := hinv
  exact hinv.step hok hsteps

/-- While every segment that passes the checks acknowledges only what has been
sent, `tx_acked` never exceeds the highest offset sent, and the transmit ring
never seems to have more room than its size and a FIN.  The first segment that
acknowledges more breaks this. -/
theorem acknowledgement_valid_of_acksSent {s : Stack} {syn : TcpPacket} {c₀ c : TcpConnection}
    {h : ConnHistory} (hopens : Opens s syn c₀)
    (hrun : ConnRun s.ipAddr (AcksSent s.ipAddr) c₀ h c) :
    c.txAcked.toNat ≤ sentEnd c h ∧ bufferAvailable c ≤ BUFFER_SIZE.toNat + 1 ∧
      ∀ packet, Addressed s.ipAddr c packet → packet.tcp.has TCP_RST = false →
        Accepts c packet →
        ((tcpInput s.ipAddr c packet).txAcked.toNat ≤ sentEnd c h ↔
          (packet.ackOffset c).toNat ≤ sentEnd c h) := by
  obtain ⟨W, S, D, hinv⟩ := hrun.txHistory hopens.txHistory
  refine ⟨hinv.acked_sent, hinv.window.bufferAvailable_eq.2, ?_⟩
  intro packet hto hrst haccepts
  obtain ⟨added, hadded, hinput⟩ := tcpInput_of_accepts hto hrst haccepts
  have hack : packet.ackOffset added = packet.ackOffset c := by
    unfold TcpPacket.ackOffset
    rw [hadded.sameConnection.localSequence]
  rw [hinput]
  show (receiveAck added packet).txAcked.toNat ≤ _ ↔ _
  rw [receiveAck_txAcked, hack, hadded.sameSender.txAcked]
  have hold := hinv.acked_sent
  split
  · exact Iff.rfl
  · rename_i hnot
    have hle := UInt32.le_iff_toNat_le.mp (UInt32.not_lt.mp hnot)
    omega

/-- The SYN-ACK, its acknowledgement, three bytes, and theirs. -/
def threeBytes : List ConnEvent :=
  [.send ⟨0, 0⟩ fun _ => 0, .receive (peerPacket 1 101 TCP_ACK 1024 []),
    .write 1 (fun _ => 97) 3, .send ⟨0, 0⟩ fun _ => 0,
    .receive (peerPacket 1 104 TCP_ACK 1024 [])]

theorem threeBytes_meets :
    ConnMeets listeningStack.ipAddr (AcksSent listeningStack.ipAddr) peerConnection
      threeBytes := by
  refine ⟨⟨by decide, nofun⟩, ⟨by decide +kernel, ?_⟩, ⟨by decide +kernel, nofun⟩,
    ⟨by decide +kernel, nofun⟩, ⟨by decide +kernel, ?_⟩, trivial⟩
  · intro packet heq _ _ _
    obtain rfl := ConnEvent.receive.inj heq
    decide +kernel
  · intro packet heq _ _ _
    obtain rfl := ConnEvent.receive.inj heq
    decide +kernel

theorem acknowledgement_valid_of_acksSent_three :
    (connExec listeningStack.ipAddr peerConnection threeBytes).2.txAcked.toNat ≤
        sentEnd (connExec listeningStack.ipAddr peerConnection threeBytes).2
          (connExec listeningStack.ipAddr peerConnection threeBytes).1 ∧
      bufferAvailable (connExec listeningStack.ipAddr peerConnection threeBytes).2 ≤ 4097 := by
  obtain ⟨hacked, hbuffer, -⟩ :=
    acknowledgement_valid_of_acksSent peerSyn_opens threeBytes_meets.run
  exact ⟨hacked, hbuffer⟩

/-- After the SYN-ACK, one acknowledgement of offset 5000 moves `tx_acked`
there, and one of a number before the initial one moves it to the end of the
sequence space. -/
theorem hostile_acknowledgement :
    Opens listeningStack peerSyn peerConnection ∧
      (∃ h c, ConnRun listeningStack.ipAddr anyEvent peerConnection h c ∧ c.state ≠ .listen ∧
        sentEnd c h = 1 ∧ c.txAcked = 5000 ∧ bufferAvailable c = 9095) ∧
      ∃ h c, ConnRun listeningStack.ipAddr anyEvent peerConnection h c ∧ c.state ≠ .listen ∧
        sentEnd c h = 1 ∧ c.txAcked = 0xFFFFFFFF := by
  have hbeyond : ConnMeets listeningStack.ipAddr anyEvent peerConnection
      [.send ⟨0, 0⟩ fun _ => 0, .receive (peerPacket 1 5100 TCP_ACK 1024 [])] := by
    decide +kernel
  have hbefore : ConnMeets listeningStack.ipAddr anyEvent peerConnection
      [.send ⟨0, 0⟩ fun _ => 0, .receive (peerPacket 1 99 TCP_ACK 1024 [])] := by
    decide +kernel
  exact ⟨peerSyn_opens, ⟨_, _, hbeyond.run, by decide +kernel, by decide +kernel,
    by decide +kernel, by decide +kernel⟩, _, _, hbefore.run, by decide +kernel,
    by decide +kernel, by decide +kernel⟩

end EthTransfer
