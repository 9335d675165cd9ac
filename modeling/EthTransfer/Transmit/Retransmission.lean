import EthTransfer.Transmit.Arithmetic

/-!
# Retransmission with a closed window

When the timer of unacknowledged data has expired and nothing new can be sent,
`send_tcp_packet` should go back to `tx_acked`.  It does so only if `tx_sent` has
reached `tx_write` (`retransmission_iff`): bytes that wait for window count as a
reason to send, and the call then sends an empty segment from `tx_sent` on and
arms the timer again.

A connection gets there by a timeout while the peer offers less than what is
unacknowledged, because the rewind takes `tx_limit` back to the smaller window.
-/

namespace EthTransfer

open GuardedRun

/-- The handshake is complete, bytes are unacknowledged and their timer has
expired, and there is nothing new to send below `tx_limit`. -/
structure LostData (c : TcpConnection) (clock : Clock) : Prop where
  handshake : c.txAcked ≠ 0
  unacked : c.txAcked < c.txSent
  armed : c.ackTimeout ≠ -1
  expired : c.ackTimeout < clock.checked
  no_rst : c.state ≠ .sendRst
  nothing_new : c.txWrite ≤ c.txSent ∨ c.txLimit ≤ c.txSent

/-- A call that finds lost data sends it again. -/
def ResendsLost (_ : ConnHistory) (c : TcpConnection) (clock : Clock) (result : SendResult) :
    Prop :=
  LostData c clock → ∃ t, result.sent = some t ∧ t.sequence = c.localSequence + c.txAcked

/-- A call that finds lost data finds no unsent bytes. -/
def NoneWaiting (_ : ConnHistory) (c : TcpConnection) (clock : Clock) : Prop :=
  LostData c clock → c.txWrite ≤ c.txSent

section Call

variable {c : TcpConnection} {clock : Clock}

theorem LostData.timedOut (h : LostData c clock) : timedOut c clock.checked = true :=
  timedOut_iff.mpr ⟨h.unacked, Or.inr h.expired⟩

/-- Lost data is sent again exactly if nothing waits to be sent. -/
theorem LostData.sendFrom_eq (h : LostData c clock) :
    sendFrom c clock = if c.txWrite ≤ c.txSent then some (rewind c) else some c := by
  have hdue : sendDue c = true ↔ c.txSent < c.txWrite := by
    rw [sendDue_iff]
    exact ⟨fun hor => hor.resolve_right (fun h' => h'.elim h.armed h.no_rst), Or.inl⟩
  unfold sendFrom
  rw [h.timedOut]
  by_cases hwrite : c.txWrite ≤ c.txSent
  · rw [if_pos hwrite, if_neg (fun h' => UInt32.not_lt.mpr hwrite (hdue.mp h')), if_pos rfl]
  · rw [if_neg hwrite, if_pos (hdue.mpr (UInt32.not_le.mp hwrite))]

/-- A segment starts at `tx_acked` exactly if the connection that the call sends
from stands there. -/
theorem buildSegment_sequence_acked (hsyn : c.txAcked ≠ 0) {c₁ : TcpConnection}
    (hsame : SameConnection c c₁) (hacked : c₁.txAcked = c.txAcked) (scratch : Bytes) :
    (buildSegment c₁ scratch).sequence = c.localSequence + c.txAcked ↔ c₁.txSent = c.txAcked := by
  have hnot : isSyn c₁ = false := by
    unfold isSyn
    rw [hacked]
    exact beq_false_of_ne hsyn
  rw [buildSegment_sequence, hnot, hsame.localSequence]
  simp only [Bool.false_eq_true, if_false]
  constructor
  · intro heq
    grind
  · intro heq
    grind

/-- A call resends lost data exactly if it finds no unsent bytes. -/
theorem resendsLost_iff {h : ConnHistory} (hbound : WindowBounded c)
    (hopen : c.state ≠ .listen) (scratch : Bytes) :
    ResendsLost h c clock (sendTcpPacket c clock scratch) ↔ NoneWaiting h c clock := by
  refine imp_congr_right fun hlost => ?_
  have hfrom := hlost.sendFrom_eq
  constructor
  · rintro ⟨t, hsent, hsequence⟩
    by_contra hwaiting
    rw [if_neg hwaiting] at hfrom
    obtain ⟨c₁, hfrom', -, rfl⟩ := (sendTcpPacket_sent_iff hopen).mp hsent
    obtain rfl := Option.some.inj (hfrom.symm.trans hfrom')
    rw [buildSegment_sequence_acked hlost.handshake (SameConnection.refl c) rfl] at hsequence
    exact UInt32.lt_irrefl _ (hsequence ▸ hlost.unacked)
  · intro hnone
    rw [if_pos hnone] at hfrom
    have hsame := sendFrom_same hfrom
    refine ⟨buildSegment (rewind c) scratch, ?_, ?_⟩
    · exact (sendTcpPacket_sent_iff hopen).mpr ⟨_, hfrom, hbound.frameFits_rewind, rfl⟩
    · exact (buildSegment_sequence_acked hlost.handshake hsame.1 rfl scratch).mpr rfl

end Call

/-! ## The result -/

/-- Every call of a run resends the lost data that it finds exactly if none of them
finds unsent bytes next to it. -/
theorem retransmission_iff {s : Stack} {syn : TcpPacket} {c₀ c : TcpConnection}
    {h : ConnHistory} (hopens : Opens s syn c₀) (hrun : ConnRun s.ipAddr anyEvent c₀ h c) :
    EverySend s.ipAddr c₀ ResendsLost h ↔ ConnRun s.ipAddr (onSend NoneWaiting) c₀ h c := by
  rw [← anyEvent_and (onSend _)]
  refine hrun.everySend_iff ?_
  intro h c clock scratch hbefore hopen
  exact resendsLost_iff (hbefore.windowBounded hopens.windowBounded) hopen scratch

/-- The handshake, 1000 bytes, and a segment that shrinks the window to
`windowSize`.  The timer expires twice. -/
def shrunkenWindow (windowSize : UInt16) : List ConnEvent :=
  [.send ⟨0, 0⟩ fun _ => 0, .receive (peerPacket 1 101 TCP_ACK 1024 []),
    .write 1 (fun _ => 97) 1000, .send ⟨0, 0⟩ fun _ => 0,
    .receive (peerPacket 1 101 TCP_ACK windowSize []), .send ⟨21, 21⟩ fun _ => 0]

/-- What they do to the connection. -/
def shrunkenExec (windowSize : UInt16) : ConnHistory × TcpConnection :=
  connExec listeningStack.ipAddr peerConnection (shrunkenWindow windowSize)

theorem retransmission_iff_shrunken :
    EverySend listeningStack.ipAddr peerConnection ResendsLost (shrunkenExec 1000).1 ↔
      ConnRun listeningStack.ipAddr (onSend NoneWaiting) peerConnection (shrunkenExec 1000).1
        (shrunkenExec 1000).2 :=
  retransmission_iff peerSyn_opens
    (ConnMeets.run (by decide +kernel : ConnMeets listeningStack.ipAddr anyEvent peerConnection
      (shrunkenWindow 1000)))

/-- When the window has shrunk to 500 bytes, the first timeout sends 500 of the
1000 bytes again.  The second one sends an empty segment behind them. -/
theorem lost_data_not_resent :
    Opens listeningStack peerSyn peerConnection ∧
      ∃ h c, ConnRun listeningStack.ipAddr anyEvent peerConnection h c ∧
        LostData c ⟨42, 42⟩ ∧ c.txSent < c.txWrite ∧
          ∃ t, (sendTcpPacket c ⟨42, 42⟩ fun _ => 0).sent = some t ∧
            t.sequence = c.localSequence + c.txAcked + 500 ∧ t.payload = [] := by
  have hmeets : ConnMeets listeningStack.ipAddr anyEvent peerConnection (shrunkenWindow 500) := by
    decide +kernel
  have hlost : LostData (shrunkenExec 500).2 ⟨42, 42⟩ :=
    ⟨by decide +kernel, by decide +kernel, by decide +kernel, by decide +kernel,
      by decide +kernel, by decide +kernel⟩
  exact ⟨peerSyn_opens, _, _, hmeets.run, hlost, by decide +kernel,
    buildSegment (shrunkenExec 500).2 fun _ => 0, by decide +kernel, by decide +kernel,
    by decide +kernel⟩

end EthTransfer
