import EthTransfer.Transmit.Wire

/-!
# Calls of `send_tcp_packet`

The later modules say what each call of `send_tcp_packet` in a run does.  This
one has what they share.

* `sendFrom` is the connection that a call sends from, if it sends, and
  `sendTcpPacket_sent_iff` what it then puts on the wire.
* `EverySend` is a property of every call of a history.  `ConnRun.throughout_iff`
  and `ConnRun.everySend_iff` find the runs that have such a property: those whose
  events all meet a condition on the connection that they find.
-/

namespace EthTransfer

open GuardedRun

/-! ## One call -/

/-- The connection that a call sends from: the connection as it is when there is
a reason to send at once, and the rewound one when the timer has expired. -/
def sendFrom (c : TcpConnection) (clock : Clock) : Option TcpConnection :=
  if sendDue c then some c
  else if timedOut c clock.checked then some (rewind c)
  else none

/-- A call of `send_tcp_packet` puts a segment on the wire. -/
def Transmits (c : TcpConnection) (clock : Clock) : Prop :=
  ∃ c₁ ∈ sendFrom c clock, FrameFits c₁

instance (c : TcpConnection) (clock : Clock) : Decidable (Transmits c clock) :=
  inferInstanceAs (Decidable (∃ c₁ ∈ sendFrom c clock, _))

section Call

variable {c c₁ : TcpConnection} {clock : Clock} {scratch : Bytes} {t : TxSegment}

theorem sendFrom_cases (h : sendFrom c clock = some c₁) :
    c₁ = c ∨ sendDue c = false ∧ timedOut c clock.checked = true ∧ c₁ = rewind c := by
  unfold sendFrom at h
  split_ifs at h with hdue htime
  · exact Or.inl (Option.some.inj h).symm
  · exact Or.inr ⟨by simpa using hdue, htime, (Option.some.inj h).symm⟩

/-- What a call does, by the connection it sends from. -/
theorem sendTcpPacket_eq (hopen : c.state ≠ .listen) (clock : Clock) (scratch : Bytes) :
    sendTcpPacket c clock scratch =
      match sendFrom c clock with
      | some c₁ => transmit c₁ clock.armed scratch
      | none => { conn := c, sent := none, ret := false } := by
  unfold sendTcpPacket sendFrom
  rw [if_neg hopen]
  split_ifs <;> rfl

theorem sendTcpPacket_of_sendFrom (hopen : c.state ≠ .listen) (h : sendFrom c clock = some c₁)
    (scratch : Bytes) : sendTcpPacket c clock scratch = transmit c₁ clock.armed scratch := by
  rw [sendTcpPacket_eq hopen, h]

/-- A segment on the wire is built from the connection that the call sends from,
and passes the check of `send_packet`. -/
theorem sendTcpPacket_sent_iff (hopen : c.state ≠ .listen) :
    (sendTcpPacket c clock scratch).sent = some t ↔
      ∃ c₁, sendFrom c clock = some c₁ ∧ FrameFits c₁ ∧ t = buildSegment c₁ scratch := by
  rw [sendTcpPacket_eq hopen]
  cases sendFrom c clock with
  | none => simp
  | some c₁ => simp [transmit_sent_iff]

/-- Going back to `tx_acked` changes where a segment starts, and the limit. -/
theorem sendFrom_same (h : sendFrom c clock = some c₁) :
    SameConnection c c₁ ∧ SameReceiver c c₁ ∧ c₁.state = c.state ∧ c₁.txWrite = c.txWrite ∧
      c₁.txAcked = c.txAcked ∧ c₁.txFin = c.txFin ∧ c₁.txBuffer = c.txBuffer := by
  rcases sendFrom_cases h with rfl | ⟨-, -, rfl⟩
  · exact ⟨SameConnection.refl _, SameReceiver.refl _, rfl, rfl, rfl, rfl, rfl⟩
  · refine ⟨?_, ?_, rfl, rfl, rfl, rfl, rfl⟩
    · constructor <;> rfl
    · constructor <;> rfl

/-- A segment on the wire is a FIN exactly when everything before the FIN is
acknowledged, also after a rewind. -/
theorem sendTcpPacket_has_fin (hopen : c.state ≠ .listen)
    (hsent : (sendTcpPacket c clock scratch).sent = some t) :
    t.has TCP_FIN = true ↔ c.txFin ≤ c.txAcked := by
  obtain ⟨c₁, hfrom, -, rfl⟩ := (sendTcpPacket_sent_iff hopen).mp hsent
  obtain ⟨-, -, -, -, hacked, hfin, -⟩ := sendFrom_same hfrom
  rw [buildSegment_has_fin, hacked, hfin, decide_eq_true_eq]

theorem transmits_iff (hopen : c.state ≠ .listen) (scratch : Bytes) :
    Transmits c clock ↔ ∃ t, (sendTcpPacket c clock scratch).sent = some t := by
  constructor
  · rintro ⟨c₁, hfrom, hfits⟩
    exact ⟨_, (sendTcpPacket_sent_iff hopen).mpr ⟨c₁, hfrom, hfits, rfl⟩⟩
  · rintro ⟨t, hsent⟩
    obtain ⟨c₁, hfrom, hfits, -⟩ := (sendTcpPacket_sent_iff hopen).mp hsent
    exact ⟨c₁, hfrom, hfits⟩

end Call

/-! ## The calls of a run -/

/-- Both conditions. -/
def ConnGuard.and (ok ok' : ConnGuard) : ConnGuard := fun h c e => ok h c e ∧ ok' h c e

theorem ConnRun.of_and {ipAddr : UInt32} {ok ok' : ConnGuard} {c₀ c : TcpConnection}
    {h : ConnHistory} (hrun : ConnRun ipAddr (ok.and ok') c₀ h c) : ConnRun ipAddr ok c₀ h c :=
  Run.mono hrun fun _ _ _ hboth => ⟨hboth.1, hboth.2.1⟩

@[simp] theorem anyEvent_and (ok : ConnGuard) : anyEvent.and ok = ok := by
  funext h c e
  exact propext ⟨fun hboth => hboth.2, fun hok => ⟨trivial, hok⟩⟩

/-- A condition on the calls of `send_tcp_packet`. -/
def onSend (Q : ConnHistory → TcpConnection → Clock → Prop) : ConnGuard := fun h c e =>
  ∀ clock scratch, e = .send clock scratch → Q h c clock

/-- Every call of `send_tcp_packet` in the history is as `P` says, given what came
before it, the connection it was made on, and its result. -/
def EverySend (ipAddr : UInt32) (c₀ : TcpConnection)
    (P : ConnHistory → TcpConnection → Clock → SendResult → Prop) (h : ConnHistory) : Prop :=
  Throughout (connStep ipAddr) c₀
    (fun h c e => ∀ clock scratch, e = .send clock scratch →
      P h c clock (sendTcpPacket c clock scratch)) h

/-- When an event is as `P` says exactly if it meets `ok'`, provided that the events
before it have met `ok'`, the events of a run are all as `P` says exactly if they
all meet `ok'`. -/
theorem ConnRun.throughout_iff {ipAddr : UInt32} {ok ok' P : ConnGuard} {c₀ c : TcpConnection}
    {h : ConnHistory} (hrun : ConnRun ipAddr ok c₀ h c)
    (hiff : ∀ h c e, ConnRun ipAddr (ok.and ok') c₀ h c → c.state ≠ .listen → ok h c e →
      (P h c e ↔ ok' h c e)) :
    Throughout (connStep ipAddr) c₀ P h ↔ ConnRun ipAddr (ok.and ok') c₀ h c := by
  have hguard : (fun h (c : TcpConnection) e => (c.state ≠ .listen ∧ ok h c e) ∧ ok' h c e) =
      fun h c e => c.state ≠ .listen ∧ (ok.and ok') h c e := by
    funext h c e
    exact propext and_assoc
  unfold ConnRun
  rw [← hguard]
  refine Run.throughout_iff hrun ?_
  intro h c e hbefore hok
  rw [hguard] at hbefore
  exact hiff h c e hbefore hok.1 hok.2

/-- The same for the calls of `send_tcp_packet`. -/
theorem ConnRun.everySend_iff {ipAddr : UInt32} {ok : ConnGuard} {c₀ c : TcpConnection}
    {h : ConnHistory} {P : ConnHistory → TcpConnection → Clock → SendResult → Prop}
    {Q : ConnHistory → TcpConnection → Clock → Prop} (hrun : ConnRun ipAddr ok c₀ h c)
    (hiff : ∀ h c clock scratch, ConnRun ipAddr (ok.and (onSend Q)) c₀ h c →
      c.state ≠ .listen → (P h c clock (sendTcpPacket c clock scratch) ↔ Q h c clock)) :
    EverySend ipAddr c₀ P h ↔ ConnRun ipAddr (ok.and (onSend Q)) c₀ h c := by
  refine hrun.throughout_iff ?_
  intro h c e hbefore hopen _
  constructor
  · rintro hP clock scratch rfl
    exact (hiff h c clock scratch hbefore hopen).mp (hP clock scratch rfl)
  · rintro hQ clock scratch rfl
    exact (hiff h c clock scratch hbefore hopen).mpr (hQ clock scratch rfl)

end EthTransfer
