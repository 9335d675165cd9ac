import EthTransfer.Transmit.Acknowledgement
import EthTransfer.Transmit.Call

/-!
# Where the FIN stands

`send_tcp_packet` sets the FIN flag when `tx_acked` has reached `tx_fin`, and cuts
the segment from `tx_sent` on.  The FIN stands at the end of the stream in exactly
those runs in which the segment that carries it happens to end at `tx_fin`
(`fin_position_iff`, with `EndsAtFin`).  Two things go wrong.

* After a timeout `tx_sent` is behind `tx_acked` when a late acknowledgement has
  come, and the segment ends before the last byte (`fin_inside_stream`).
* Bytes are written after `shutdown_tcp`, and the segment carries them, too.
-/

namespace EthTransfer

open GuardedRun

/-! ## A SYN is no FIN -/

/-- While nothing is acknowledged, at most one buffer is written, and `tx_fin` is
not reached. -/
structure BeforeFirstAck (c : TcpConnection) : Prop where
  write_pos : 1 ≤ c.txWrite.toNat
  write_le : c.txWrite.toNat ≤ 4096
  fin_ne : c.txFin ≠ 0

section Steps

variable {ipAddr : UInt32} {c c' : TcpConnection}

theorem BeforeFirstAck.congr (h : BeforeFirstAck c) (hwrite : c'.txWrite = c.txWrite)
    (hfin : c'.txFin = c.txFin) : BeforeFirstAck c' := by
  refine ⟨?_, ?_, ?_⟩
  · rw [hwrite]
    exact h.write_pos
  · rw [hwrite]
    exact h.write_le
  · rw [hfin]
    exact h.fin_ne

/-- The transmit ring has room up to offset 4096. -/
theorem BeforeFirstAck.writes (h : BeforeFirstAck c) (hacked : c.txAcked = 0) {data : Bytes}
    {len : Int} {result : TcpConnection × Int} (hwrites : Writes c data len result) :
    BeforeFirstAck result.1 := by
  cases hwrites with
  | none => exact h
  | @accepted n hpos hlen hwindow hbuffer =>
    have hlow := h.write_pos
    have hhigh := h.write_le
    have hsize : BUFFER_SIZE.toNat = 4096 := by decide
    have hroom : (BUFFER_SIZE - (c.txWrite - c.txAcked)).toNat = 4096 - c.txWrite.toNat := by
      rw [hacked, UInt32.sub_zero, Word.toNat_sub_cases, hsize, if_pos hhigh]
    unfold bufferAvailable at hbuffer
    rw [Word.toInt_of_lt (by omega), hroom] at hbuffer
    have hnext : (c.txWrite + UInt32.ofNat n).toNat = c.txWrite.toNat + n :=
      Word.toNat_add_ofNat (by omega)
    refine ⟨?_, ?_, h.fin_ne⟩
    · show 1 ≤ (c.txWrite + UInt32.ofNat n).toNat
      omega
    · show (c.txWrite + UInt32.ofNat n).toNat ≤ 4096
      omega

/-- Every event keeps it, until something is acknowledged. -/
theorem BeforeFirstAck.step (h : c.txAcked = 0 → BeforeFirstAck c) {e : ConnEvent}
    {o : ConnOutput} (hsteps : ConnSteps ipAddr c e c' o) (hacked : c'.txAcked = 0) :
    BeforeFirstAck c' := by
  cases hsteps with
  | receive hreceived =>
    obtain ⟨hwrite, -, hfin, -⟩ := hreceived.txAcked
    exact (h (hreceived.acked_ne_zero hacked)).congr hwrite hfin
  | send hsends =>
    cases hsends with
    | idle => exact h hacked
    | due => exact (h hacked).congr rfl rfl
    | timeout => exact (h hacked).congr rfl rfl
  | read hreads =>
    have htx := hreads.sameSender
    exact (h (htx.txAcked ▸ hacked)).congr htx.txWrite htx.txFin
  | write hwrites =>
    have hzero : c.txAcked = 0 := by cases hwrites <;> exact hacked
    exact (h hzero).writes hzero hwrites
  | shutdown =>
    have hpos := (h hacked).write_pos
    refine ⟨hpos, (h hacked).write_le, fun (hzero : c.txWrite = 0) => ?_⟩
    rw [hzero] at hpos
    exact absurd hpos (by decide)
  | close => exact (h hacked).congr rfl rfl
  | stale => exact h hacked

end Steps

/-- A SYN never carries a FIN. -/
theorem ConnRun.syn_not_fin {s : Stack} {syn : TcpPacket} {c₀ c : TcpConnection}
    {ipAddr : UInt32} {ok : ConnGuard} {h : ConnHistory} (hopens : Opens s syn c₀)
    (hrun : ConnRun ipAddr ok c₀ h c) (hfin : c.txFin ≤ c.txAcked) : c.txAcked ≠ 0 := by
  have hstart : BeforeFirstAck c₀ := by
    obtain ⟨rand, windowScale, maxSegment, -, rfl⟩ := hopens.eq_openConnection
    exact ⟨le_rfl, show 1 ≤ 4096 by omega, show NO_FIN ≠ 0 by decide⟩
  have hinv : c.txAcked = 0 → BeforeFirstAck c := by
    refine hrun.invariant (fun _ c => c.txAcked = 0 → BeforeFirstAck c) (fun _ => hstart) ?_
    intro h c e c' o _ hinv _ _ hsteps
    exact BeforeFirstAck.step hinv hsteps
  intro hzero
  rw [hzero] at hfin
  refine (hinv hzero).fin_ne (UInt32.toNat_inj.mp ?_)
  exact Nat.le_zero.mp (UInt32.le_iff_toNat_le.mp hfin)

/-! ## The position -/

/-- A FIN stands at the end of the stream. -/
def FinAtEnd (_ : ConnHistory) (c : TcpConnection) (_ : Clock) (result : SendResult) : Prop :=
  ∀ t, result.sent = some t → t.has TCP_FIN = true →
    t.sequence + UInt32.ofNat t.payload.length = c.localSequence + c.txFin

/-- The bytes from `tx_sent` up to `tx_fin` fit into one segment, and it is cut
there: nothing was written after `shutdown_tcp`, or the limit or `MAX_SEGMENT` stands
there. -/
structure EndsAtFin (c : TcpConnection) : Prop where
  written : (c.txFin - c.txSent).toNat ≤ (c.txWrite - c.txSent).toNat
  room : (c.txFin - c.txSent).toNat ≤ (c.txLimit - c.txSent).toNat
  le_max : (c.txFin - c.txSent).toNat ≤ 1400
  cut : c.txFin = c.txWrite ∨ c.txFin = c.txLimit ∨ (c.txFin - c.txSent).toNat = 1400

/-- The segments that carry the FIN end there. -/
def FinSegmentsEnd (_ : ConnHistory) (c : TcpConnection) (clock : Clock) : Prop :=
  ∀ c₁, sendFrom c clock = some c₁ → c₁.txFin ≤ c₁.txAcked → EndsAtFin c₁

section Call

variable {c c₁ : TcpConnection} {W S D : ℕ} {clock : Clock}

/-- The counters of the connection that a call sends from. -/
theorem TxWindow.sendFrom (h : TxWindow c W S D) (hfrom : sendFrom c clock = some c₁) :
    ∃ S', TxWindow c₁ W S' D := by
  rcases sendFrom_cases hfrom with rfl | ⟨-, htime, rfl⟩
  · exact ⟨S, h⟩
  · exact ⟨_, h.rewind htime⟩

/-- The length of a segment with data, when the peer acknowledges only what was
sent. -/
theorem TxWindow.sendLength_eq (h : TxWindow c W S D) (hacked : c.txAcked ≠ 0) :
    sendLength c =
      min (min (c.txWrite - c.txSent).toNat (c.txLimit - c.txSent).toNat) 1400 := by
  have hsyn : isSyn c = false := beq_false_of_ne hacked
  obtain ⟨hunsent, hnear⟩ := h.toNat_unsent
  have hroom := toNat_sendRoom c
  rw [hsyn, if_neg Bool.false_ne_true] at hroom
  rw [sendLength_eq_min, Word.toInt_of_lt (by omega), hroom]
  unfold MAX_SEGMENT
  omega

/-- A segment ends at `tx_fin` exactly if it is cut there. -/
theorem buildSegment_end_iff (h : TxWindow c W S D) (hacked : c.txAcked ≠ 0)
    (scratch : Bytes) :
    (buildSegment c scratch).sequence +
        UInt32.ofNat (buildSegment c scratch).payload.length = c.localSequence + c.txFin ↔
      EndsAtFin c := by
  have hsyn : isSyn c = false := beq_false_of_ne hacked
  have hlength := h.sendLength_eq hacked
  have hposition : (buildSegment c scratch).sequence +
        UInt32.ofNat (buildSegment c scratch).payload.length = c.localSequence + c.txFin ↔
      (c.txFin - c.txSent).toNat = (sendLength c).toNat := by
    rw [length_buildSegment_payload, buildSegment_sequence, hsyn]
    simp only [Bool.false_eq_true, if_false, UInt32.sub_zero]
    have hlt : (sendLength c).toNat < 2 ^ 32 := by omega
    generalize (sendLength c).toNat = n at hlt
    constructor
    · intro heq
      have hdistance : c.txFin - c.txSent = UInt32.ofNat n := by grind
      rw [hdistance, Word.toNat_ofNat_of_lt hlt]
    · intro heq
      have hdistance : UInt32.ofNat n = c.txFin - c.txSent := by
        rw [← heq, UInt32.ofNat_toNat]
      grind
  have hwrite : (c.txFin - c.txSent).toNat = (c.txWrite - c.txSent).toNat ↔
      c.txFin = c.txWrite := by
    rw [UInt32.toNat_inj, UInt32.sub_left_inj]
  have hlimit : (c.txFin - c.txSent).toNat = (c.txLimit - c.txSent).toNat ↔
      c.txFin = c.txLimit := by
    rw [UInt32.toNat_inj, UInt32.sub_left_inj]
  rw [hposition, hlength]
  constructor
  · intro heq
    refine ⟨by omega, by omega, by omega, ?_⟩
    rw [← hwrite, ← hlimit]
    omega
  · rintro ⟨hle, hle', hmax, hcut⟩
    rw [← hwrite, ← hlimit] at hcut
    omega

/-- A call on a connection whose handshake is complete sends a segment, and it ends
at `tx_fin` exactly if it is cut there. -/
theorem TxHistory.finSegment {h : ConnHistory} (hinv : TxHistory h c W S D)
    (hopen : c.state ≠ .listen) (hacked : c.txAcked ≠ 0) (hfrom : sendFrom c clock = some c₁)
    (scratch : Bytes) :
    (sendTcpPacket c clock scratch).sent = some (buildSegment c₁ scratch) ∧
      ((buildSegment c₁ scratch).sequence +
          UInt32.ofNat (buildSegment c₁ scratch).payload.length = c.localSequence + c.txFin ↔
        EndsAtFin c₁) := by
  obtain ⟨S', hwindow⟩ := hinv.window.sendFrom hfrom
  obtain ⟨hsame, -, -, -, hacked', hfin, -⟩ := sendFrom_same hfrom
  obtain ⟨n, -, -, -, hsent, -⟩ := hwindow.transmit clock.armed scratch
  constructor
  · rw [sendTcpPacket_of_sendFrom hopen hfrom]
    exact hsent
  · rw [← hsame.localSequence, ← hfin]
    exact buildSegment_end_iff hwindow (hacked' ▸ hacked) scratch

end Call

/-- When the peer acknowledges only what was sent, every FIN of a run stands at the
end of the stream exactly if every segment that carries it is cut there. -/
theorem fin_position_iff {s : Stack} {syn : TcpPacket} {c₀ c : TcpConnection}
    {h : ConnHistory} (hopens : Opens s syn c₀)
    (hrun : ConnRun s.ipAddr (AcksSent s.ipAddr) c₀ h c) :
    EverySend s.ipAddr c₀ FinAtEnd h ↔
      ConnRun s.ipAddr ((AcksSent s.ipAddr).and (onSend FinSegmentsEnd)) c₀ h c := by
  refine hrun.everySend_iff ?_
  intro h c clock scratch hbefore hopen
  obtain ⟨W, S, D, hinv⟩ := hbefore.of_and.txHistory hopens.txHistory
  have hfinal : ∀ c₁, sendFrom c clock = some c₁ → c₁.txFin ≤ c₁.txAcked → c.txAcked ≠ 0 := by
    intro c₁ hfrom hfin
    obtain ⟨-, -, -, -, hacked, hfin', -⟩ := sendFrom_same hfrom
    exact hbefore.syn_not_fin hopens (hacked ▸ hfin' ▸ hfin)
  constructor
  · intro hend c₁ hfrom hfin
    obtain ⟨hsent, hiff⟩ := hinv.finSegment hopen (hfinal c₁ hfrom hfin) hfrom scratch
    refine hiff.mp (hend _ hsent ?_)
    rw [buildSegment_has_fin, decide_eq_true_eq]
    exact hfin
  · intro hends t hsent hfin
    obtain ⟨c₁, hfrom, -, rfl⟩ := (sendTcpPacket_sent_iff hopen).mp hsent
    rw [buildSegment_has_fin, decide_eq_true_eq] at hfin
    obtain ⟨-, hiff⟩ := hinv.finSegment hopen (hfinal c₁ hfrom hfin) hfrom scratch
    exact hiff.mpr (hends c₁ hfrom hfin)

/-- The handshake, `n` bytes and the shutdown. -/
def writeAndShutdown (n : Int) : List ConnEvent :=
  [.send ⟨0, 0⟩ fun _ => 0, .receive (peerPacket 1 101 TCP_ACK 4096 []),
    .write 1 (fun _ => 97) n, .shutdown 1]

/-- Three bytes, their acknowledgement, and the FIN. -/
def threeBytesAndFin : List ConnEvent :=
  writeAndShutdown 3 ++ [.send ⟨0, 0⟩ fun _ => 0, .receive (peerPacket 1 104 TCP_ACK 4096 []),
    .send ⟨0, 0⟩ fun _ => 0]

theorem fin_position_iff_three :
    EverySend listeningStack.ipAddr peerConnection FinAtEnd
        (connExec listeningStack.ipAddr peerConnection threeBytesAndFin).1 ↔
      ConnRun listeningStack.ipAddr
        ((AcksSent listeningStack.ipAddr).and (onSend FinSegmentsEnd)) peerConnection
        (connExec listeningStack.ipAddr peerConnection threeBytesAndFin).1
        (connExec listeningStack.ipAddr peerConnection threeBytesAndFin).2 :=
  fin_position_iff peerSyn_opens
    (ConnMeets.run (by decide +kernel : ConnMeets listeningStack.ipAddr
      (AcksSent listeningStack.ipAddr) peerConnection threeBytesAndFin))

/-- 4000 bytes in three segments, and the shutdown.  The timer expires, so the first
segment goes out again, and only then does the acknowledgement of everything
arrive. -/
def lateAcknowledgement : List ConnEvent :=
  writeAndShutdown 4000 ++ [.send ⟨0, 0⟩ fun _ => 0, .send ⟨0, 0⟩ fun _ => 0,
    .send ⟨0, 0⟩ fun _ => 0, .send ⟨21, 21⟩ fun _ => 0,
    .receive (peerPacket 1 4101 TCP_ACK 4096 [])]

/-- The next segment carries the bytes from 1401 up to 2801, and the FIN of a stream
that ends at 4001. -/
theorem fin_inside_stream :
    Opens listeningStack peerSyn peerConnection ∧
      ∃ h c, ConnRun listeningStack.ipAddr (AcksSent listeningStack.ipAddr) peerConnection h c ∧
        c.txFin = 4001 ∧ ∃ t, (sendTcpPacket c ⟨21, 21⟩ fun _ => 0).sent = some t ∧
          t.has TCP_FIN = true ∧ t.sequence = c.localSequence + 1401 ∧
          t.payload.length = 1400 := by
  have hmeets : ConnMeets listeningStack.ipAddr (AcksSent listeningStack.ipAddr) peerConnection
      lateAcknowledgement := by
    decide +kernel
  refine ⟨peerSyn_opens, _, _, hmeets.run, by decide +kernel,
    buildSegment (connExec listeningStack.ipAddr peerConnection lateAcknowledgement).2 fun _ => 0,
    ?_, by decide +kernel, by decide +kernel, by decide +kernel⟩
  exact (sendTcpPacket_sent_iff (by decide +kernel)).mpr ⟨_, if_pos (by decide +kernel),
    by decide +kernel, rfl⟩

end EthTransfer
