import EthTransfer.Close.States
import EthTransfer.Transmit.Arithmetic
import EthTransfer.Transmit.Stream

/-!
# Sending the FIN

A segment carries the FIN as soon as `tx_acked` has reached `tx_fin`.  The FIN
takes no room in `tx_sent`, and it is no reason to send: `handle_tcp_packet` sets
`ack_timeout` to -1 for it, when an acknowledgement reaches `tx_fin` after
`shutdown_tcp`.

* `Prompted` says when a call sends at all.
* `fin_sent_iff`: the next call sends the FIN that is due exactly if something
  else prompts it.  Nothing does when the last acknowledgement comes before
  `shutdown_tcp` (`fin_not_sent`).
* `fin_resent_iff`: the next call repeats a lost FIN exactly if something else
  prompts it.  Nothing does when the FIN stands at the end of the data
  (`fin_not_resent`).
-/

namespace EthTransfer

open GuardedRun

/-! ## When a call sends -/

/-- The reasons to send at once. -/
def SendReason (c : TcpConnection) : Prop :=
  c.txSent < c.txWrite ∨ c.ackTimeout = -1 ∨ c.state = .sendRst

/-- There is a reason to send at once, and the frame is not too long, or the timer
of unacknowledged data has expired. -/
def Prompted (c : TcpConnection) (clock : Clock) : Prop :=
  SendReason c ∧ FrameFits c ∨
    ¬ SendReason c ∧ c.txAcked < c.txSent ∧ c.ackTimeout < clock.checked

/-- A call sends a segment exactly if it is prompted. -/
theorem transmits_iff_prompted {c : TcpConnection} (hbound : WindowBounded c) (clock : Clock) :
    Transmits c clock ↔ Prompted c clock := by
  unfold Transmits sendFrom Prompted
  by_cases hreason : SendReason c
  · rw [if_pos (sendDue_iff.mpr hreason)]
    simp [hreason]
  · have hdue : ¬ sendDue c = true := fun h => hreason (sendDue_iff.mp h)
    have harmed : c.ackTimeout ≠ -1 := fun h => hreason (Or.inr (Or.inl h))
    rw [if_neg hdue]
    have hiff : timedOut c clock.checked = true ↔
        c.txAcked < c.txSent ∧ c.ackTimeout < clock.checked := by
      rw [timedOut_iff, or_iff_right harmed]
    split
    · rename_i htime
      simp [hreason, hbound.frameFits_rewind, hiff.mp htime]
    · rename_i htime
      simp [hreason, ← hiff, htime]

/-- With no reason to send at once and nothing unacknowledged, no call sends
anything. -/
theorem sendTcpPacket_silent {c : TcpConnection} (hdue : sendDue c = false)
    (hacked : c.txSent ≤ c.txAcked) (clock : Clock) (scratch : Bytes) :
    (sendTcpPacket c clock scratch).sent = none := by
  have htime : timedOut c clock.checked = false := by
    rw [← Bool.not_eq_true]
    intro htime
    exact UInt32.not_lt.mpr hacked (timedOut_iff.mp htime).1
  unfold sendTcpPacket
  rw [hdue, htime]
  split <;> rfl

/-! ## The first FIN -/

/-- The connection is shut down, everything written is acknowledged, and no FIN is
on the wire yet. -/
structure FinDue (h : ConnHistory) (c : TcpConnection) : Prop where
  not_reset : c.state ≠ .sendRst ∧ c.state ≠ .dataToRead
  shut_down : ShutDown c.connectionId h
  acked : c.txFin ≤ c.txAcked
  unsent : ¬ FinSent h

/-- A call that finds a FIN due sends it. -/
def SendsFin (h : ConnHistory) (c : TcpConnection) (_ : Clock) (result : SendResult) : Prop :=
  FinDue h c → ∃ t, result.sent = some t ∧ t.has TCP_FIN = true

/-- A call that finds a FIN due is prompted by something else. -/
def PromptedWhenDue (h : ConnHistory) (c : TcpConnection) (clock : Clock) : Prop :=
  FinDue h c → Prompted c clock

section Call

variable {h : ConnHistory} {c : TcpConnection} {clock : Clock}

/-- A call sends a FIN exactly if it is prompted, and everything before the FIN is
acknowledged. -/
theorem sends_fin_iff (hbound : WindowBounded c) (hopen : c.state ≠ .listen)
    (scratch : Bytes) :
    (∃ t, (sendTcpPacket c clock scratch).sent = some t ∧ t.has TCP_FIN = true) ↔
      c.txFin ≤ c.txAcked ∧ Prompted c clock := by
  rw [← transmits_iff_prompted hbound, transmits_iff hopen scratch]
  constructor
  · rintro ⟨t, hsent, hfin⟩
    exact ⟨(sendTcpPacket_has_fin hopen hsent).mp hfin, t, hsent⟩
  · rintro ⟨hacked, t, hsent⟩
    exact ⟨t, hsent, (sendTcpPacket_has_fin hopen hsent).mpr hacked⟩

/-- The next call of every run sends the FIN that is due exactly if every such call
is prompted by something else. -/
theorem fin_sent_iff {s : Stack} {syn : TcpPacket} {c₀ c : TcpConnection}
    {h : ConnHistory} (hopens : Opens s syn c₀) (hrun : ConnRun s.ipAddr anyEvent c₀ h c) :
    EverySend s.ipAddr c₀ SendsFin h ↔ ConnRun s.ipAddr (onSend PromptedWhenDue) c₀ h c := by
  rw [← anyEvent_and (onSend _)]
  refine hrun.everySend_iff ?_
  intro h c clock scratch hbefore hopen
  have hbound := hbefore.windowBounded hopens.windowBounded
  refine imp_congr_right fun hdue => ?_
  rw [sends_fin_iff hbound hopen scratch]
  exact and_iff_right hdue.acked

/-- The SYN-ACK, the shutdown, and the acknowledgement that reaches the FIN. -/
def shutdownFirst : List ConnEvent :=
  [.send ⟨0, 0⟩ fun _ => 0, .shutdown 1, .receive (peerPacket 1 101 TCP_ACK 1024 []),
    .send ⟨0, 0⟩ fun _ => 0]

/-- What they do to the connection. -/
def shutdownExec : ConnHistory × TcpConnection :=
  connExec listeningStack.ipAddr peerConnection shutdownFirst

theorem shutdownFirst_meets :
    ConnMeets listeningStack.ipAddr anyEvent peerConnection shutdownFirst := by
  decide +kernel

theorem fin_sent_iff_shutdownFirst :
    EverySend listeningStack.ipAddr peerConnection SendsFin shutdownExec.1 ↔
      ConnRun listeningStack.ipAddr (onSend PromptedWhenDue) peerConnection shutdownExec.1
        shutdownExec.2 :=
  fin_sent_iff peerSyn_opens shutdownFirst_meets.run

/-- Three bytes are acknowledged before the shutdown.  The FIN is due, and no call
sends anything, whatever the clock says. -/
theorem fin_not_sent :
    Opens listeningStack peerSyn peerConnection ∧
      ∃ h c, ConnRun listeningStack.ipAddr anyEvent peerConnection h c ∧ c.state ≠ .listen ∧
        FinDue h c ∧ ∀ clock scratch, (sendTcpPacket c clock scratch).sent = none := by
  have hmeets : ConnMeets listeningStack.ipAddr anyEvent peerConnection
      (openEvents ++ [.shutdown 1]) := by
    decide +kernel
  refine ⟨peerSyn_opens, _, _, hmeets.run, by decide +kernel,
    ⟨by decide +kernel, ⟨{}, ?_⟩, by decide +kernel, by decide +kernel⟩,
    sendTcpPacket_silent (by decide +kernel) (by decide +kernel)⟩
  -- the shutdown is the last event of the history
  exact List.mem_append_right _ (List.mem_singleton.mpr rfl)

end Call

/-! ## A lost FIN -/

/-- A FIN is on the wire at `tx_fin`, the peer has acknowledged no more than what is
before it, and the timer has expired. -/
structure FinLost (h : ConnHistory) (c : TcpConnection) (clock : Clock) : Prop where
  sent : ∃ t ∈ transmitted h, t.has TCP_FIN = true ∧
    t.sequence + UInt32.ofNat t.payload.length = c.localSequence + c.txFin
  unacked : c.txAcked ≤ c.txFin
  expired : checkTimeout clock.checked c.ackTimeout = true

/-- A call that finds the FIN lost sends it again. -/
def ResendsFin (h : ConnHistory) (c : TcpConnection) (clock : Clock) (result : SendResult) :
    Prop :=
  FinLost h c clock → ∃ t, result.sent = some t ∧ t.has TCP_FIN = true

/-- A call that finds the FIN lost finds everything before it acknowledged, and is
prompted by something else. -/
def PromptedWhenLost (h : ConnHistory) (c : TcpConnection) (clock : Clock) : Prop :=
  FinLost h c clock → c.txFin ≤ c.txAcked ∧ Prompted c clock

/-- The next call of every run repeats a lost FIN exactly if every such call is
prompted by something else. -/
theorem fin_resent_iff {s : Stack} {syn : TcpPacket} {c₀ c : TcpConnection}
    {h : ConnHistory} (hopens : Opens s syn c₀) (hrun : ConnRun s.ipAddr anyEvent c₀ h c) :
    EverySend s.ipAddr c₀ ResendsFin h ↔ ConnRun s.ipAddr (onSend PromptedWhenLost) c₀ h c := by
  rw [← anyEvent_and (onSend _)]
  refine hrun.everySend_iff ?_
  intro h c clock scratch hbefore hopen
  have hbound := hbefore.windowBounded hopens.windowBounded
  exact imp_congr_right fun _ => sends_fin_iff hbound hopen scratch

theorem fin_resent_iff_shutdownFirst :
    EverySend listeningStack.ipAddr peerConnection ResendsFin shutdownExec.1 ↔
      ConnRun listeningStack.ipAddr (onSend PromptedWhenLost) peerConnection shutdownExec.1
        shutdownExec.2 :=
  fin_resent_iff peerSyn_opens shutdownFirst_meets.run

/-- The FIN is on the wire and nothing acknowledges it.  No call repeats it, however
long ago the timer expired. -/
theorem fin_not_resent :
    Opens listeningStack peerSyn peerConnection ∧
      ∃ h c, ConnRun listeningStack.ipAddr anyEvent peerConnection h c ∧ c.state ≠ .listen ∧
        (∀ now, 20 < now → FinLost h c ⟨now, now⟩) ∧
        ∀ clock scratch, (sendTcpPacket c clock scratch).sent = none := by
  refine ⟨peerSyn_opens, _, _, shutdownFirst_meets.run, by decide +kernel, fun now hnow => ?_,
    sendTcpPacket_silent (by decide +kernel) (by decide +kernel)⟩
  refine ⟨by decide +kernel, by decide +kernel, ?_⟩
  have htimeout : shutdownExec.2.ackTimeout = 20 := by decide +kernel
  show checkTimeout now shutdownExec.2.ackTimeout = true
  rw [htimeout]
  unfold checkTimeout
  simp [hnow]

end EthTransfer
