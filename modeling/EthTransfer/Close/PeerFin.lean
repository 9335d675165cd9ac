import EthTransfer.Receive.Stream
import EthTransfer.Transmit.Call

/-!
# The acknowledgement of the peer's FIN

The FIN of the peer takes one sequence number, but `send_tcp_packet` always
acknowledges `rx_write`, and `rx_write` stops at `rx_fin`.  So a FIN whose stream has
arrived is acknowledged in exactly those runs in which nothing is sent after that
(`peer_fin_iff`).  With a peer that conforms it stays so: once the stream has
arrived, `rx_write` and `rx_fin` do not move (`ReceivesStream.arrived_step`).
-/

namespace EthTransfer

open GuardedRun

/-- The FIN of the peer and everything before it have arrived. -/
def FinArrived (c : TcpConnection) : Prop := c.rxWrite = c.rxFin

instance (c : TcpConnection) : Decidable (FinArrived c) :=
  inferInstanceAs (Decidable (_ = _))

/-- A segment acknowledges the data that has arrived in order, and the FIN behind
it. -/
def AcknowledgesFin (_ : ConnHistory) (c : TcpConnection) (_ : Clock) (result : SendResult) :
    Prop :=
  ∀ t, result.sent = some t →
    (FinArrived c → t.ack = c.remoteSequence + c.rxFin + 1) ∧
    (¬ FinArrived c → t.ack = c.remoteSequence + c.rxWrite)

/-- No segment is sent when the FIN has arrived. -/
def SilentAfterFin (_ : ConnHistory) (c : TcpConnection) (clock : Clock) : Prop :=
  Transmits c clock → ¬ FinArrived c

/-- A call acknowledges as it should exactly if the FIN has not arrived. -/
theorem acknowledgesFin_iff {h : ConnHistory} {c : TcpConnection} (hopen : c.state ≠ .listen)
    (clock : Clock) (scratch : Bytes) :
    AcknowledgesFin h c clock (sendTcpPacket c clock scratch) ↔ SilentAfterFin h c clock := by
  have hack : ∀ t, (sendTcpPacket c clock scratch).sent = some t →
      t.ack = c.remoteSequence + c.rxWrite := by
    intro t hsent
    rw [UInt32.add_comm]
    exact ((sendTcpPacket_sends hopen clock scratch).sent_window hsent).1
  unfold SilentAfterFin
  rw [transmits_iff hopen scratch]
  constructor
  · rintro hacks ⟨t, hsent⟩ harrived
    have hfin := (hacks t hsent).1 harrived
    rw [hack t hsent, show c.rxWrite = c.rxFin from harrived] at hfin
    grind
  · intro hsilent t hsent
    exact ⟨fun harrived => absurd harrived (hsilent ⟨t, hsent⟩), fun _ => hack t hsent⟩

/-! ## A conforming peer -/

section Steps

variable {ipAddr : UInt32} {st : Stream} {h : ConnHistory} {c c' : TcpConnection}

/-- When the FIN has arrived, `rx_write` and `rx_fin` stand at the end of the
stream. -/
theorem ReceivesStream.arrived (hinv : ReceivesStream st h c) (harrived : FinArrived c) :
    c.rxWrite.toNat = st.fin ∧ c.rxFin.toNat = st.fin := by
  have hwrite := hinv.write_le
  have hle := st.fin_le
  have hend : c.rxFin.toNat = st.fin := by
    rcases hinv.fin with hno | hat
    · rw [show c.rxWrite = c.rxFin from harrived, hno] at hwrite
      have hmax : NO_FIN.toNat = 4294967295 := by decide
      omega
    · exact hat
  rw [show c.rxWrite = c.rxFin from harrived]
  exact ⟨hend, hend⟩

theorem Added.rxWrite_le {copied : TcpConnection} {g : TcpSegment}
    (hadded : Added c copied g c') (hcopied : copied.rxWrite = c.rxWrite) :
    c.rxWrite ≤ c'.rxWrite := by
  cases hadded with
  | old => exact UInt32.le_refl _
  | duplicate => exact UInt32.le_refl _
  | full => rw [hcopied]; exact UInt32.le_refl _
  | merged _ _ _ hmerged => exact hmerged.le

/-- A packet of a conforming peer moves `rx_write` up only, and `rx_fin` to the end
of the stream. -/
theorem Received.rx_moves {packet : TcpPacket} (hreceived : Received ipAddr c packet c')
    (hok : Conforms ipAddr st h c (.receive packet)) :
    c.rxWrite ≤ c'.rxWrite ∧ (c'.rxFin = c.rxFin ∨ c'.rxFin.toNat = st.fin) := by
  cases hreceived with
  | ignored => exact ⟨UInt32.le_refl _, Or.inl rfl⟩
  | reset => exact ⟨UInt32.le_refl _, Or.inl rfl⟩
  | accepted hto hrst haccepts hadded =>
    refine ⟨hadded.rxWrite_le rfl, ?_⟩
    rw [receiveFin_rxFin]
    split
    · rename_i hflag
      exact Or.inr ((hok packet rfl hto hrst haccepts.no_syn).fin_offset hflag)
    · exact Or.inl hadded.state.2.2.2

/-- What has arrived stays so. -/
theorem ReceivesStream.arrived_step (hinv : ReceivesStream st h c) (harrived : FinArrived c)
    {e : ConnEvent} {o : ConnOutput} (hok : Conforms ipAddr st h c e)
    (hsteps : ConnSteps ipAddr c e c' o) (hnext : c'.rxWrite.toNat ≤ st.fin) : FinArrived c' := by
  obtain ⟨hwrite, hfin⟩ := hinv.arrived harrived
  have hsame : SameReceiver c c' → FinArrived c' := by
    intro hrx
    show c'.rxWrite = c'.rxFin
    rw [hrx.rxWrite, hrx.rxFin]
    exact harrived
  cases hsteps with
  | receive hreceived =>
    obtain ⟨hle, hmoves⟩ := hreceived.rx_moves hok
    have hle' := UInt32.le_iff_toNat_le.mp hle
    have hend : c'.rxFin.toNat = st.fin := by
      rcases hmoves with heq | heq
      · rw [heq]
        exact hfin
      · exact heq
    exact UInt32.toNat_inj.mp (by omega)
  | send hsends => exact hsame hsends.sameReceiver
  | read hreads => cases hreads <;> exact harrived
  | write hwrites => exact hsame hwrites.sameReceiver
  | shutdown => exact harrived
  | close => exact harrived
  | stale => exact harrived

end Steps

/-! ## The result -/

/-- With a conforming peer, every segment of a run acknowledges what has arrived,
the FIN included, exactly if none is sent once the FIN has arrived.  And what has
arrived stays so. -/
theorem peer_fin_iff {s : Stack} {syn : TcpPacket} {c₀ c : TcpConnection}
    {h : ConnHistory} {st : Stream} (hopens : Opens s syn c₀)
    (hrun : ConnRun s.ipAddr (Conforms s.ipAddr st) c₀ h c) :
    (EverySend s.ipAddr c₀ AcknowledgesFin h ↔
      ConnRun s.ipAddr ((Conforms s.ipAddr st).and (onSend SilentAfterFin)) c₀ h c) ∧
    ∀ e, c.state ≠ .listen → Conforms s.ipAddr st h c e → FinArrived c →
      FinArrived (connStep s.ipAddr c e).1 := by
  constructor
  · refine hrun.everySend_iff ?_
    intro h c clock scratch _ hopen
    exact acknowledgesFin_iff hopen clock scratch
  · intro e hopen hok harrived
    have hinv := hrun.receivesStream (hopens.receivesStream st)
    have hnext : ConnRun s.ipAddr (Conforms s.ipAddr st) c₀
        (h ++ [(e, (connStep s.ipAddr c e).2)]) (connStep s.ipAddr c e).1 :=
      hrun.next ⟨hopen, hok⟩
    exact hinv.arrived_step harrived hok (connStep_steps hopen e)
      (hnext.receivesStream (hopens.receivesStream st)).write_le

theorem peer_fin_iff_hi :
    (EverySend listeningStack.ipAddr peerConnection AcknowledgesFin
        (connExec listeningStack.ipAddr peerConnection hiEvents).1 ↔
      ConnRun listeningStack.ipAddr
        ((Conforms listeningStack.ipAddr hiStream).and (onSend SilentAfterFin)) peerConnection
        (connExec listeningStack.ipAddr peerConnection hiEvents).1
        (connExec listeningStack.ipAddr peerConnection hiEvents).2) ∧
    ∀ e, (connExec listeningStack.ipAddr peerConnection hiEvents).2.state ≠ .listen →
      Conforms listeningStack.ipAddr hiStream
        (connExec listeningStack.ipAddr peerConnection hiEvents).1
        (connExec listeningStack.ipAddr peerConnection hiEvents).2 e →
      FinArrived (connExec listeningStack.ipAddr peerConnection hiEvents).2 →
        FinArrived (connStep listeningStack.ipAddr
          (connExec listeningStack.ipAddr peerConnection hiEvents).2 e).1 :=
  peer_fin_iff peerSyn_opens hiEvents_meets.run

/-- The two bytes of the stream and its FIN have arrived.  The next segment
acknowledges the bytes only. -/
theorem peer_fin_not_acknowledged :
    Opens listeningStack peerSyn peerConnection ∧
      ∃ h c, ConnRun listeningStack.ipAddr (Conforms listeningStack.ipAddr hiStream)
          peerConnection h c ∧
        FinArrived c ∧ ∃ t, (sendTcpPacket c ⟨0, 0⟩ fun _ => 0).sent = some t ∧
          t.ack = c.remoteSequence + c.rxFin := by
  exact ⟨peerSyn_opens, _, _, hiEvents_meets.run, by decide +kernel,
    buildSegment (connExec listeningStack.ipAddr peerConnection hiEvents).2 fun _ => 0,
    by decide +kernel, by decide +kernel⟩

end EthTransfer
