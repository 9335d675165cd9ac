import EthTransfer.Transmit.Call

/-!
# After a reset

A RST takes an open connection to `TCP_SEND_RST`, the next segment takes it to
`TCP_DATA_TO_READ`, and from there it is closed.  There is one way back:
`send_tcp_packet` sends a SYN as long as nothing is acknowledged, and a SYN sets
`TCP_SYN_ACK_SENT`, whatever the state was.

* `AfterReset` is the invariant, and `AfterReset.step` keeps it over every event
  but such a call.
* `reset_final_iff` says that a reset is final in exactly the runs without one.
* `reset_reopens` is a run with one: the connection is in use again.
-/

namespace EthTransfer

open GuardedRun

/-- The states after a reset, and the closed one. -/
def TcpState.afterReset (state : TcpState) : Prop :=
  state = .sendRst ∨ state = .dataToRead ∨ state = .listen

instance (state : TcpState) : Decidable state.afterReset :=
  inferInstanceAs (Decidable (_ ∨ _))

/-- The packet is a RST with the 4-tuple of the connection. -/
def Resets (ipAddr : UInt32) (c : TcpConnection) (packet : TcpPacket) : Prop :=
  Addressed ipAddr c packet ∧ packet.tcp.has TCP_RST = true

instance (ipAddr : UInt32) (c : TcpConnection) (packet : TcpPacket) :
    Decidable (Resets ipAddr c packet) :=
  inferInstanceAs (Decidable (_ ∧ _))

/-- A RST has been processed. -/
def WasReset (ipAddr : UInt32) (c : TcpConnection) (h : ConnHistory) : Prop :=
  ∃ packet o, (ConnEvent.receive packet, o) ∈ h ∧ Resets ipAddr c packet

/-- The event leaves a connection that was reset in one of the states after a
reset. -/
def StaysReset (ipAddr : UInt32) : ConnGuard := fun h c e =>
  WasReset ipAddr c (h ++ [(e, (connStep ipAddr c e).2)]) →
    (connStep ipAddr c e).1.state.afterReset

/-- After a RST no segment is sent while nothing is acknowledged. -/
def AcknowledgedAtReset (ipAddr : UInt32) : ConnHistory → TcpConnection → Clock → Prop :=
  fun h c _ => WasReset ipAddr c h → c.txAcked ≠ 0

/-! ## The steps -/

section Steps

variable {ipAddr : UInt32} {h : ConnHistory} {c c' : TcpConnection} {e : ConnEvent}
  {o : ConnOutput}

theorem wasReset_append :
    WasReset ipAddr c (h ++ [(e, o)]) ↔
      WasReset ipAddr c h ∨ ∃ packet, e = .receive packet ∧ Resets ipAddr c packet := by
  constructor
  · rintro ⟨packet, o', hmem, hreset⟩
    rcases List.mem_append.mp hmem with hold | hlast
    · exact Or.inl ⟨packet, o', hold, hreset⟩
    · obtain ⟨rfl, -⟩ := Prod.mk.inj (List.mem_singleton.mp hlast)
      exact Or.inr ⟨packet, rfl, hreset⟩
  · rintro (⟨packet, o', hold, hreset⟩ | ⟨packet, rfl, hreset⟩)
    · exact ⟨packet, o', List.mem_append_left _ hold, hreset⟩
    · exact ⟨packet, o, List.mem_append_right _ (List.mem_singleton.mpr rfl), hreset⟩

theorem SameConnection.wasReset (hsame : SameConnection c c') :
    WasReset ipAddr c' h ↔ WasReset ipAddr c h := by
  unfold WasReset Resets
  simp only [hsame.addressed]

/-- A RST takes the connection to `TCP_SEND_RST`. -/
theorem Received.state_of_resets {packet : TcpPacket} (hreceived : Received ipAddr c packet c')
    (hreset : Resets ipAddr c packet) : c'.state = .sendRst := by
  obtain ⟨hto, hrst⟩ := hreset
  cases hreceived with
  | ignored hno =>
    rw [(hno hto).1] at hrst
    cases hrst
  | reset => rfl
  | accepted _ hno =>
    rw [hno] at hrst
    cases hrst

/-- The invariant after a reset.  The segment that reports it is not a SYN. -/
structure AfterReset (c : TcpConnection) : Prop where
  state : c.state.afterReset
  acked : c.state = .dataToRead → c.txAcked ≠ 0

theorem AfterReset.congr (hinv : AfterReset c) (hstate : c'.state = c.state)
    (hacked : c'.txAcked = 0 → c.txAcked = 0) : AfterReset c' := by
  refine ⟨hstate ▸ hinv.state, fun hdata h0 => ?_⟩
  exact hinv.acked (hstate.symm.trans hdata) (hacked h0)

/-- A connection in `TCP_SEND_RST`, or in `TCP_LISTEN`. -/
theorem AfterReset.of_state (hstate : c.state = .sendRst ∨ c.state = .listen) :
    AfterReset c := by
  rcases hstate with h | h
  · exact ⟨Or.inl h, fun h' => by rw [h] at h'; cases h'⟩
  · exact ⟨Or.inr (Or.inr h), fun h' => by rw [h] at h'; cases h'⟩

/-- A call of `send_tcp_packet` with something acknowledged. -/
theorem AfterReset.sends (hinv : AfterReset c) (hacked : c.txAcked ≠ 0) {clock : Clock}
    {scratch : Bytes} {result : SendResult} (hsends : Sends c clock scratch result) :
    AfterReset result.conn := by
  have hnot : isSyn c = false := beq_false_of_ne hacked
  have hkeep : result.conn.txAcked = c.txAcked := by cases hsends <;> rfl
  have hstate := hsends.state_cases
  rw [hnot] at hstate
  simp only [Bool.false_eq_true, if_false] at hstate
  refine ⟨?_, fun _ => hkeep ▸ hacked⟩
  rcases hinv.state with h | h | h <;> rw [h] at hstate <;> rcases hstate with h' | h' <;>
    rw [h'] <;> decide

/-- Every event keeps the invariant, except for a SYN. -/
theorem AfterReset.step (hinv : AfterReset c) (hsteps : ConnSteps ipAddr c e c' o)
    (hsend : ∀ clock scratch, e = .send clock scratch → c.txAcked ≠ 0) : AfterReset c' := by
  cases hsteps with
  | receive hreceived =>
    rcases hreceived.state_cases with hsame | ⟨-, -, hrst⟩ | ⟨hsyn, -⟩
    · exact hinv.congr hsame hreceived.acked_ne_zero
    · exact .of_state (Or.inl hrst)
    · have hstate := hinv.state
      rw [hsyn] at hstate
      exact absurd hstate (by decide)
  | send hsends => exact hinv.sends (hsend _ _ rfl) hsends
  | read hreads =>
    cases hreads with
    | released => exact .of_state (Or.inr rfl)
    | _ => exact hinv.congr rfl id
  | write hwrites => cases hwrites <;> exact hinv.congr rfl id
  | shutdown => exact hinv.congr rfl id
  | close => exact .of_state (Or.inr rfl)
  | stale => exact hinv

/-- An event keeps the invariant from the RST on. -/
theorem AfterReset.append (hopen : c.state ≠ .listen)
    (hinv : WasReset ipAddr c h → AfterReset c)
    (hsend : ∀ clock scratch, e = .send clock scratch → WasReset ipAddr c h → c.txAcked ≠ 0)
    (hreset : WasReset ipAddr c (h ++ [(e, (connStep ipAddr c e).2)])) :
    AfterReset (connStep ipAddr c e).1 := by
  rcases wasReset_append.mp hreset with hold | ⟨packet, rfl, hresets⟩
  · exact (hinv hold).step (connStep_steps hopen e) fun clock scratch he =>
      hsend clock scratch he hold
  · exact .of_state (Or.inl ((tcpInput_received ipAddr c packet).state_of_resets hresets))

/-- A run whose calls find something acknowledged keeps the invariant. -/
theorem ConnRun.afterReset {ok : ConnGuard} {c₀ : TcpConnection}
    (hrun : ConnRun ipAddr (ok.and (onSend (AcknowledgedAtReset ipAddr))) c₀ h c)
    (hreset : WasReset ipAddr c h) : AfterReset c := by
  refine Run.invariant (fun h c => WasReset ipAddr c h → AfterReset c) hrun ?_ ?_ hreset
  · rintro ⟨packet, o, hmem, -⟩
    cases hmem
  · intro h c e _ hinv hok hreset
    rw [(connStep_steps hok.1 e).sameConnection.wasReset] at hreset
    exact AfterReset.append hok.1 hinv hok.2.2 hreset

/-- A call on a reset connection with nothing acknowledged sends a SYN. -/
theorem sendTcpPacket_state_of_unacked (hrst : c.state = .sendRst) (hacked : c.txAcked = 0)
    (clock : Clock) (scratch : Bytes) :
    (sendTcpPacket c clock scratch).conn.state = .synAckSent := by
  have hopen : c.state ≠ .listen := by
    rw [hrst]
    nofun
  have hfrom : sendFrom c clock = some c :=
    if_pos (sendDue_iff.mpr (Or.inr (Or.inr hrst)))
  have hsyn : isSyn c = true := beq_iff_eq.mpr hacked
  rw [sendTcpPacket_of_sendFrom hopen hfrom]
  show (afterSend c clock.armed).state = .synAckSent
  rw [afterSend_state, hsyn, if_pos rfl]

end Steps

/-! ## The closed connection -/

/-- In `TCP_LISTEN` a packet opens a connection or leaves the state alone. -/
theorem handleTcpPacket_listen_or_opens {s s' : Stack} (hlisten : s.tcpConn.state = .listen)
    {packet : TcpPacket} {rand : Rand} (hstep : handleTcpPacket s packet rand = some s') :
    s'.tcpConn.state = .listen ∨ Opens s packet s'.tcpConn := by
  by_cases h : s'.tcpConn.state = .listen
  · exact Or.inl h
  · exact Or.inr ⟨hlisten, ⟨rand, s', hstep, rfl⟩, h⟩

/-- The calls leave `TCP_LISTEN` alone. -/
theorem connStep_listen {c : TcpConnection} (hlisten : c.state = .listen) (ipAddr : UInt32)
    {e : ConnEvent} (he : ∀ packet, e ≠ .receive packet) :
    (connStep ipAddr c e).1.state = .listen := by
  cases e with
  | receive packet => exact absurd rfl (he packet)
  | send clock scratch =>
    show (sendTcpPacket c clock scratch).conn.state = .listen
    unfold sendTcpPacket
    rw [if_pos hlisten]
    exact hlisten
  | read id data off len =>
    show (readTcp c id data off len).conn.state = .listen
    rw [readTcp_refused (Or.inl hlisten)]
    exact hlisten
  | write id data len =>
    unfold connStep
    dsimp only
    split
    · exact hlisten
    · have hwrites := writeRound_writes c data len
      generalize writeRound c data len = result at hwrites
      cases hwrites <;> exact hlisten
  | shutdown id =>
    show (shutdownTcp c id).1.state = .listen
    rw [shutdownTcp_refused (Or.inl hlisten)]
    exact hlisten
  | close id =>
    show (closeTcp c id).state = .listen
    rw [closeTcp_refused (Or.inl hlisten)]
    exact hlisten

/-! ## The result -/

/-- An event keeps a reset final exactly if it is not a call that sends a SYN. -/
theorem staysReset_iff {ipAddr : UInt32} {ok : ConnGuard} {c₀ c : TcpConnection}
    {h : ConnHistory} (hrun : ConnRun ipAddr (ok.and (onSend (AcknowledgedAtReset ipAddr))) c₀ h c)
    (hopen : c.state ≠ .listen) (e : ConnEvent) :
    StaysReset ipAddr h c e ↔ onSend (AcknowledgedAtReset ipAddr) h c e := by
  constructor
  · rintro hstays clock scratch rfl hreset h0
    have hinv := hrun.afterReset hreset
    have hrst : c.state = .sendRst := by
      rcases hinv.state with h | h | h
      · exact h
      · exact absurd h0 (hinv.acked h)
      · exact absurd h hopen
    have hstate := hstays (wasReset_append.mpr (Or.inl hreset))
    have hsyn : (connStep ipAddr c (.send clock scratch)).1.state = .synAckSent :=
      sendTcpPacket_state_of_unacked hrst h0 clock scratch
    rw [hsyn] at hstate
    exact absurd hstate (by decide)
  · intro hsend hreset
    exact (AfterReset.append hopen hrun.afterReset hsend hreset).state

/-- From a RST on, every event leaves the connection in `TCP_SEND_RST`,
`TCP_DATA_TO_READ` or `TCP_LISTEN` exactly if no segment is sent while nothing is
acknowledged.  From `TCP_LISTEN` only an accepted SYN leads on. -/
theorem reset_final_iff {ipAddr : UInt32} {c₀ c : TcpConnection} {h : ConnHistory}
    (hrun : ConnRun ipAddr anyEvent c₀ h c) :
    (Throughout (connStep ipAddr) c₀ (StaysReset ipAddr) h ↔
      ConnRun ipAddr (onSend (AcknowledgedAtReset ipAddr)) c₀ h c) ∧
    (∀ {s s' : Stack} {packet : TcpPacket} {rand : Rand}, s.tcpConn.state = .listen →
      handleTcpPacket s packet rand = some s' →
        s'.tcpConn.state = .listen ∨ Opens s packet s'.tcpConn) ∧
    ∀ {c : TcpConnection} {e : ConnEvent}, c.state = .listen →
      (∀ packet, e ≠ .receive packet) → (connStep ipAddr c e).1.state = .listen := by
  refine ⟨?_, fun hlisten hstep => handleTcpPacket_listen_or_opens hlisten hstep,
    fun hlisten he => connStep_listen hlisten _ he⟩
  rw [← anyEvent_and (onSend _)]
  refine hrun.throughout_iff ?_
  intro h c e hbefore hopen _
  exact staysReset_iff hbefore hopen e

/-- The handshake, a RST, and the segment that answers it. -/
def resetEvents : List ConnEvent :=
  [.send ⟨0, 0⟩ fun _ => 0, .receive (peerPacket 1 101 TCP_ACK 1024 []),
    .receive (peerPacket 1 101 TCP_RST 0 []), .send ⟨0, 0⟩ fun _ => 0]

theorem reset_final_iff_reset :
    (Throughout (connStep listeningStack.ipAddr) peerConnection (StaysReset listeningStack.ipAddr)
        (connExec listeningStack.ipAddr peerConnection resetEvents).1 ↔
      ConnRun listeningStack.ipAddr (onSend (AcknowledgedAtReset listeningStack.ipAddr))
        peerConnection (connExec listeningStack.ipAddr peerConnection resetEvents).1
        (connExec listeningStack.ipAddr peerConnection resetEvents).2) ∧
    (∀ {s s' : Stack} {packet : TcpPacket} {rand : Rand}, s.tcpConn.state = .listen →
      handleTcpPacket s packet rand = some s' →
        s'.tcpConn.state = .listen ∨ Opens s packet s'.tcpConn) ∧
    ∀ {c : TcpConnection} {e : ConnEvent}, c.state = .listen →
      (∀ packet, e ≠ .receive packet) →
        (connStep listeningStack.ipAddr c e).1.state = .listen :=
  reset_final_iff
    (ConnMeets.run (by decide +kernel : ConnMeets listeningStack.ipAddr anyEvent peerConnection
      resetEvents))

/-- A RST right after the SYN, the segment that answers it, and an
acknowledgement. -/
def earlyReset : List ConnEvent :=
  [.receive (peerPacket 1 0 TCP_RST 0 []), .send ⟨0, 0⟩ fun _ => 0,
    .receive (peerPacket 1 101 TCP_ACK 1024 [])]

/-- The connection that was reset is connected. -/
theorem reset_reopens :
    Opens listeningStack peerSyn peerConnection ∧
      ∃ h c, ConnRun listeningStack.ipAddr anyEvent peerConnection h c ∧
        WasReset listeningStack.ipAddr c (h.take 1) ∧
        (stateAfter (connStep listeningStack.ipAddr) peerConnection (h.take 2)).state =
          .synAckSent ∧
        c.state = .connected := by
  have hmeets : ConnMeets listeningStack.ipAddr anyEvent peerConnection earlyReset := by
    decide +kernel
  refine ⟨peerSyn_opens, _, _, hmeets.run, ?_, by decide +kernel, by decide +kernel⟩
  exact ⟨_, _, List.mem_singleton.mpr rfl, by decide +kernel⟩

end EthTransfer
