import EthTransfer.Receive.Stream
import EthTransfer.Transmit.Call

/-!
# The orderly close

`send_tcp_packet` should take a connection that one side has closed to
`TCP_RX_CLOSED` or `TCP_TX_CLOSED`, and on to `TCP_SEND_RST` when both have.  The
guard of that part is never met, so the states are as the close machine says in
exactly the runs whose segments are all sent before any side has closed
(`orderly_close_iff`).

`Moves` lists the transitions that there are.  None leads into the closing states,
and without a RST of the peer none leads to the end of a connection.
-/

namespace EthTransfer

open GuardedRun

/-! ## The transitions -/

/-- The states of the close machine. -/
def TcpState.closing (state : TcpState) : Prop :=
  state = .rxClosed ∨ state = .txClosed ∨ state = .bothClosed

instance (state : TcpState) : Decidable state.closing :=
  inferInstanceAs (Decidable (_ ∨ _))

/-- The states that an event can lead to. -/
inductive Moves (c : TcpConnection) : TcpState → Prop where
  | stay : Moves c c.state
  /-- A call of the application closes the connection. -/
  | listen : Moves c .listen
  /-- A RST arrives. -/
  | reset : Moves c .sendRst
  /-- The SYN is acknowledged. -/
  | connected (hstate : c.state = .synAckSent) : Moves c .connected
  /-- A SYN is sent. -/
  | syn (hacked : c.txAcked = 0) : Moves c .synAckSent
  /-- The RST is answered. -/
  | reported (hstate : c.state = .sendRst) : Moves c .dataToRead

/-- An event makes one of the transitions. -/
theorem ConnSteps.moves {ipAddr : UInt32} {c c' : TcpConnection} {e : ConnEvent}
    {o : ConnOutput} (hsteps : ConnSteps ipAddr c e c' o) : Moves c c'.state := by
  cases hsteps with
  | receive hreceived =>
    rcases hreceived.state_cases with hsame | ⟨-, -, hrst⟩ | ⟨hsyn, hconnected⟩
    · exact hsame ▸ .stay
    · exact hrst ▸ .reset
    · exact hconnected ▸ .connected hsyn
  | send hsends =>
    rcases hsends.state_cases with hsame | hafter
    · exact hsame ▸ .stay
    · rw [hafter]
      split_ifs with hsyn hrst
      · exact .syn (beq_iff_eq.mp hsyn)
      · exact .reported hrst
      · exact .reset
      · exact .stay
  | read hreads =>
    cases hreads with
    | released => exact .listen
    | _ => exact .stay
  | write hwrites => cases hwrites <;> exact .stay
  | shutdown => exact .stay
  | close => exact .listen
  | stale => exact .stay

/-- No transition leads into the closing states. -/
theorem Moves.not_closing {c : TcpConnection} {state : TcpState} (h : Moves c state)
    (hstate : ¬ c.state.closing) : ¬ state.closing := by
  cases h with
  | stay => exact hstate
  | _ => decide

/-- The closing states are not reached. -/
theorem ConnRun.not_closing {ipAddr : UInt32} {ok : ConnGuard} {c₀ c : TcpConnection}
    {h : ConnHistory} (hrun : ConnRun ipAddr ok c₀ h c) (hstart : ¬ c₀.state.closing) :
    ¬ c.state.closing := by
  refine hrun.invariant (fun _ c => ¬ c.state.closing) hstart ?_
  intro h c e c' o _ hinv _ _ hsteps
  exact hsteps.moves.not_closing hinv

/-! ## The close machine -/

/-- A segment with a FIN is on the wire. -/
def FinSent (h : ConnHistory) : Prop := ∃ t ∈ transmitted h, t.has TCP_FIN = true

instance (h : ConnHistory) : Decidable (FinSent h) :=
  inferInstanceAs (Decidable (∃ t ∈ transmitted h, _))

/-- The stream of the peer is complete. -/
def RxComplete (c : TcpConnection) : Prop := c.rxFin ≤ c.rxWrite

/-- The handshake is complete and the connection was not reset. -/
structure InUse (c : TcpConnection) : Prop where
  handshake : c.txAcked ≠ 0
  not_reset : c.state ≠ .sendRst ∧ c.state ≠ .dataToRead

/-- A segment `t` of a connection in use leaves the state that the close machine
prescribes. -/
def ClosesOrderly (h : ConnHistory) (c : TcpConnection) (_ : Clock) (result : SendResult) :
    Prop :=
  InUse c → ∀ t, result.sent = some t →
    (RxComplete c → ¬ (FinSent h ∨ t.has TCP_FIN = true) → result.conn.state = .rxClosed) ∧
    (¬ RxComplete c → FinSent h ∨ t.has TCP_FIN = true → result.conn.state = .txClosed) ∧
    (RxComplete c → FinSent h ∨ t.has TCP_FIN = true →
      result.conn.state = .sendRst ∧ result.conn.ackTimeout = -1)

/-- No segment of a connection in use is sent when a side has closed. -/
def NeitherClosed (h : ConnHistory) (c : TcpConnection) (clock : Clock) : Prop :=
  InUse c → Transmits c clock → ¬ RxComplete c ∧ ¬ FinSent h ∧ ¬ c.txFin ≤ c.txAcked

section Call

variable {c : TcpConnection} {clock : Clock} {scratch : Bytes} {t : TxSegment}

/-- A segment of a connection in use leaves the state alone. -/
theorem InUse.state_eq (h : InUse c) (hopen : c.state ≠ .listen) (hstate : ¬ c.state.closing)
    (clock : Clock) (scratch : Bytes) :
    (sendTcpPacket c clock scratch).conn.state = c.state := by
  have hsyn : isSyn c = false := beq_false_of_ne h.handshake
  have hboth : c.state ≠ .bothClosed := fun hboth => hstate (Or.inr (Or.inr hboth))
  rcases (sendTcpPacket_sends hopen clock scratch).state_cases with hsame | hafter
  · exact hsame
  · rw [hafter, hsyn, if_neg h.not_reset.1, if_neg hboth]
    rfl

/-- A call leaves the prescribed state exactly if no side has closed. -/
theorem closesOrderly_iff {h : ConnHistory} (hopen : c.state ≠ .listen)
    (hstate : ¬ c.state.closing) (scratch : Bytes) :
    ClosesOrderly h c clock (sendTcpPacket c clock scratch) ↔ NeitherClosed h c clock := by
  refine imp_congr_right fun huse => ?_
  rw [transmits_iff hopen scratch]
  have hsame := huse.state_eq hopen hstate clock scratch
  constructor
  · rintro hcloses ⟨t, hsent⟩
    obtain ⟨hrx, htx, hboth⟩ := hcloses t hsent
    rw [hsame] at hrx htx hboth
    rw [sendTcpPacket_has_fin hopen hsent] at hrx htx hboth
    by_cases hcomplete : RxComplete c
    · by_cases hfin : FinSent h ∨ c.txFin ≤ c.txAcked
      · exact absurd (hboth hcomplete hfin).1 huse.not_reset.1
      · exact absurd (Or.inl (hrx hcomplete hfin)) hstate
    · by_cases hfin : FinSent h ∨ c.txFin ≤ c.txAcked
      · exact absurd (Or.inr (Or.inl (htx hcomplete hfin))) hstate
      · exact ⟨hcomplete, fun h => hfin (Or.inl h), fun h => hfin (Or.inr h)⟩
  · intro hneither t hsent
    obtain ⟨hcomplete, hfin, hnow⟩ := hneither ⟨t, hsent⟩
    rw [sendTcpPacket_has_fin hopen hsent]
    have hnone : ¬ (FinSent h ∨ c.txFin ≤ c.txAcked) := fun hor => hor.elim hfin hnow
    exact ⟨fun h => absurd h hcomplete, fun _ h => absurd h hnone, fun h => absurd h hcomplete⟩

end Call

/-! ## The result -/

/-- The calls of a run leave the states of the close machine exactly if every
segment is sent before a side has closed.  Without a RST of the peer, a connection
never comes to `TCP_SEND_RST` and `TCP_DATA_TO_READ`, closed by both sides or not. -/
theorem orderly_close_iff {s : Stack} {syn : TcpPacket} {c₀ c : TcpConnection}
    {h : ConnHistory} (hopens : Opens s syn c₀) (hrun : ConnRun s.ipAddr anyEvent c₀ h c) :
    (EverySend s.ipAddr c₀ ClosesOrderly h ↔ ConnRun s.ipAddr (onSend NeitherClosed) c₀ h c) ∧
      (NotReset s.ipAddr c₀ h → c.state.beforeReset) := by
  have hstart : c₀.state = .synReceived := by
    obtain ⟨rand, windowScale, maxSegment, -, rfl⟩ := hopens.eq_openConnection
    rfl
  have hnot : ¬ c₀.state.closing := by
    rw [hstart]
    decide
  refine ⟨?_, hrun.beforeReset (Or.inr (Or.inl hstart))⟩
  rw [← anyEvent_and (onSend _)]
  refine hrun.everySend_iff ?_
  intro h c clock scratch hbefore hopen
  exact closesOrderly_iff hopen (hbefore.not_closing hnot) scratch

/-- The handshake, three bytes, and their acknowledgement. -/
def openEvents : List ConnEvent :=
  [.send ⟨0, 0⟩ fun _ => 0, .receive (peerPacket 1 101 TCP_ACK 1024 []),
    .write 1 (fun _ => 97) 3, .send ⟨0, 0⟩ fun _ => 0,
    .receive (peerPacket 1 104 TCP_ACK 1024 [])]

theorem orderly_close_iff_open :
    (EverySend listeningStack.ipAddr peerConnection ClosesOrderly
        (connExec listeningStack.ipAddr peerConnection openEvents).1 ↔
      ConnRun listeningStack.ipAddr (onSend NeitherClosed) peerConnection
        (connExec listeningStack.ipAddr peerConnection openEvents).1
        (connExec listeningStack.ipAddr peerConnection openEvents).2) ∧
      (NotReset listeningStack.ipAddr peerConnection
          (connExec listeningStack.ipAddr peerConnection openEvents).1 →
        (connExec listeningStack.ipAddr peerConnection openEvents).2.state.beforeReset) :=
  orderly_close_iff peerSyn_opens
    (ConnMeets.run (by decide +kernel : ConnMeets listeningStack.ipAddr anyEvent peerConnection
      openEvents))

/-- The handshake, the FIN of the peer, and the shutdown. -/
def bothClose : List ConnEvent :=
  [.send ⟨0, 0⟩ fun _ => 0, .receive (peerPacket 1 101 TCP_ACK 1024 []),
    .receive (peerPacket 1 101 (TCP_ACK ||| TCP_FIN) 1024 []), .shutdown 1]

/-- The segment that follows carries the FIN and acknowledges the peer's stream.
Both sides have closed, and the connection stays in `TCP_CONNECTED`. -/
theorem both_closed_connected :
    Opens listeningStack peerSyn peerConnection ∧
      ∃ h c, ConnRun listeningStack.ipAddr anyEvent peerConnection h c ∧ InUse c ∧
        RxComplete c ∧
        (∃ t, (sendTcpPacket c ⟨0, 0⟩ fun _ => 0).sent = some t ∧ t.has TCP_FIN = true) ∧
        (sendTcpPacket c ⟨0, 0⟩ fun _ => 0).conn.state = .connected ∧
        (sendTcpPacket c ⟨0, 0⟩ fun _ => 0).conn.ackTimeout ≠ -1 := by
  have hmeets : ConnMeets listeningStack.ipAddr anyEvent peerConnection bothClose := by
    decide +kernel
  have huse : InUse (connExec listeningStack.ipAddr peerConnection bothClose).2 :=
    ⟨by decide +kernel, by decide +kernel, by decide +kernel⟩
  refine ⟨peerSyn_opens, _, _, hmeets.run, huse, ?_, ⟨_, rfl, by decide +kernel⟩,
    by decide +kernel, by decide +kernel⟩
  show _ ≤ _
  decide +kernel

end EthTransfer
