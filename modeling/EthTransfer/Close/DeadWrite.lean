import EthTransfer.Close.Reset
import EthTransfer.Close.States
import EthTransfer.Isolation
import EthTransfer.Stack.Refinement

/-!
# Writing to a dead connection

The loop of `write_tcp` ends when `len` bytes are accepted, and for no other reason.  A
peer that resets the connection in the middle of a transfer accepts no more, so the call
keeps polling a connection that is gone.

* `Taken` is what the frames of a poll do to an open connection: whether one of them is a
  RST, and whether one of them acknowledges something.
* `ipStackPoll_reset_iff` says when a poll leaves the connection reset.
* `write_dead_iff` finds the runs in which no round of the loop starts on such a
  connection.
-/

namespace EthTransfer

open Purge

/-- The peer has reset the connection, and the stack has reported it or is about to. -/
def TcpState.reset (state : TcpState) : Prop := state = .sendRst ∨ state = .dataToRead

instance (state : TcpState) : Decidable state.reset := inferInstanceAs (Decidable (_ ∨ _))

/-- A round of the loop of `write_tcp` starts on a connection that was reset. -/
def SpinsDead (m : Machine) : Prop :=
  m.writing.isSome = true ∧ m.stack.tcpConn.state.reset

instance (m : Machine) : Decidable (SpinsDead m) := inferInstanceAs (Decidable (_ ∧ _))

/-! ## The frames of a poll -/

/-- The segment acknowledges something new. -/
structure Acks (ipAddr : UInt32) (c : TcpConnection) (packet : TcpPacket) : Prop where
  addressed : Addressed ipAddr c packet
  no_rst : packet.tcp.has TCP_RST = false
  accepts : Accepts c packet
  new : c.txAcked < packet.ackOffset c

/-- The frame holds a RST for the connection. -/
def ResetFrame (s : Stack) (frame : RxFrame) : Prop :=
  ∃ packet, frame.tcpSegment = some packet ∧ Resets s.ipAddr s.tcpConn packet

/-- The frame holds a segment that acknowledges something new. -/
def AcksFrame (s : Stack) (frame : RxFrame) : Prop :=
  ∃ packet, frame.tcpSegment = some packet ∧ Acks s.ipAddr s.tcpConn packet

/-- A RST is among the frames, and something is acknowledged, before them or by one of
them. -/
def Breaks (s : Stack) (frames : List RxFrame) : Prop :=
  (∃ frame ∈ frames, ResetFrame s frame) ∧
    (s.tcpConn.txAcked ≠ 0 ∨ ∃ s' log, runLog handleRxPacket s frames = some (s', log) ∧
      ∃ entry ∈ log, AcksFrame entry.before entry.event)

/-- What received frames do to an open connection.  `resets` says that one of them is a RST,
`acks` that one of them acknowledges something. -/
structure Taken (s s' : Stack) (resets acks : Prop) : Prop where
  opened : s'.tcpConn.state ≠ .listen
  same : SameConnection s.tcpConn s'.tcpConn
  ipAddr : s'.ipAddr = s.ipAddr
  sendRst : s'.tcpConn.state = .sendRst ↔ s.tcpConn.state = .sendRst ∨ resets
  not_dataToRead : s.tcpConn.state ≠ .dataToRead → s'.tcpConn.state ≠ .dataToRead
  not_closing : ¬ s.tcpConn.state.closing → ¬ s'.tcpConn.state.closing
  acked : s'.tcpConn.txAcked ≠ 0 ↔ s.tcpConn.txAcked ≠ 0 ∨ acks

section Frames

variable {s s' s'' : Stack} {frame : RxFrame} {later : List TxFrame}

/-- A segment sets `tx_acked` when it acknowledges something new. -/
theorem Received.acked_iff {ipAddr : UInt32} {c c' : TcpConnection} {packet : TcpPacket}
    (hreceived : Received ipAddr c packet c') :
    c'.txAcked ≠ 0 ↔ c.txAcked ≠ 0 ∨ Acks ipAddr c packet := by
  constructor
  · intro hacked
    by_cases hzero : c.txAcked = 0
    · obtain ⟨-, -, -, -, hkeep | ⟨hto, hrst, haccepts, -, hoffset⟩⟩ := hreceived.txAcked
      · exact absurd (hkeep.trans hzero) hacked
      · refine Or.inr ⟨hto, hrst, haccepts, ?_⟩
        rw [hzero, ← hoffset]
        exact UInt32.pos_iff_ne_zero.mpr hacked
    · exact Or.inl hzero
  · rintro (hacked | hacks)
    · exact fun hzero => hacked (hreceived.acked_ne_zero hzero)
    · cases hreceived with
      | ignored hno => exact absurd hacks.accepts (hno hacks.addressed).2
      | reset hto hrst =>
        rw [hacks.no_rst] at hrst
        cases hrst
      | @accepted added hto hrst haccepts hadded =>
        intro hzero
        have hle := (le_receiveAck_txAcked added packet).2
        have hoffset : packet.ackOffset added = packet.ackOffset c := by
          unfold TcpPacket.ackOffset
          rw [hadded.sameConnection.localSequence]
        have hzero' : (receiveAck added packet).txAcked = 0 := hzero
        rw [hoffset, hzero'] at hle
        exact absurd (UInt32.lt_of_lt_of_le hacks.new hle) UInt32.not_lt_zero

/-- A frame that leaves the connection alone. -/
theorem Taken.same_conn (hopen : s.tcpConn.state ≠ .listen) (hconn : s'.tcpConn = s.tcpConn)
    (hip : s'.ipAddr = s.ipAddr) {resets acks : Prop} (hresets : ¬ resets) (hacks : ¬ acks) :
    Taken s s' resets acks where
  opened := hconn ▸ hopen
  same := hconn ▸ SameConnection.refl _
  ipAddr := hip
  sendRst := by simp [hconn, hresets]
  not_dataToRead h := hconn ▸ h
  not_closing h := hconn ▸ h
  acked := by simp [hconn, hacks]

/-- A TCP segment. -/
theorem Taken.received {packet : TcpPacket} (hopen' : s'.tcpConn.state ≠ .listen)
    (hreceived : Received s.ipAddr s.tcpConn packet s'.tcpConn) (hip : s'.ipAddr = s.ipAddr) :
    Taken s s' (Resets s.ipAddr s.tcpConn packet) (Acks s.ipAddr s.tcpConn packet) where
  opened := hopen'
  same := hreceived.sameConnection
  ipAddr := hip
  sendRst := by
    constructor
    · intro hstate
      rcases hreceived.state_cases with hsame | ⟨hto, hrst, -⟩ | ⟨-, hconnected⟩
      · exact Or.inl (hsame ▸ hstate)
      · exact Or.inr ⟨hto, hrst⟩
      · rw [hconnected] at hstate
        cases hstate
    · rintro (hstate | hresets)
      · rcases hreceived.state_cases with hsame | ⟨-, -, hrst⟩ | ⟨hsyn, -⟩
        · exact hsame.trans hstate
        · exact hrst
        · rw [hstate] at hsyn
          cases hsyn
      · exact hreceived.state_of_resets hresets
  not_dataToRead := by
    intro hnot
    rcases hreceived.state_cases with hsame | ⟨-, -, hrst⟩ | ⟨-, hconnected⟩
    · exact hsame ▸ hnot
    · rw [hrst]
      decide
    · rw [hconnected]
      decide
  not_closing := (ConnSteps.receive hreceived).moves.not_closing
  acked := hreceived.acked_iff

/-- One frame. -/
theorem handleRxPacket_taken (hopen : s.tcpConn.state ≠ .listen)
    (hstep : handleRxPacket s frame = some (s', later)) :
    Taken s s' (ResetFrame s frame) (AcksFrame s frame) := by
  have hopen' : s'.tcpConn.state ≠ .listen := (OpenAs.handleRxPacket ⟨hopen, rfl⟩ hstep).1
  cases htcp : frame.tcpSegment with
  | none =>
    obtain ⟨hconn, hip, -, -⟩ := handleRxPacket_of_not_tcp htcp hstep
    refine .same_conn hopen hconn hip ?_ ?_ <;> simp [ResetFrame, AcksFrame, htcp]
  | some packet =>
    rw [handleRxPacket_of_tcp htcp, handleTcpPacket_open hopen] at hstep
    obtain ⟨rfl, -⟩ := Prod.mk.inj (Option.some.inj hstep)
    have htaken := Taken.received hopen' (tcpInput_received s.ipAddr s.tcpConn packet) rfl
    simpa [ResetFrame, AcksFrame, htcp] using htaken

theorem Taken.resetFrame {resets acks : Prop} (h : Taken s s' resets acks) :
    ResetFrame s' frame ↔ ResetFrame s frame := by
  unfold ResetFrame Resets
  simp only [h.ipAddr, h.same.addressed]

theorem Taken.trans {resets acks resets' acks' : Prop} (h : Taken s s' resets acks)
    (h' : Taken s' s'' resets' acks') : Taken s s'' (resets ∨ resets') (acks ∨ acks') where
  opened := h'.opened
  same := h.same.trans h'.same
  ipAddr := h'.ipAddr.trans h.ipAddr
  sendRst := by rw [h'.sendRst, h.sendRst, or_assoc]
  not_dataToRead hnot := h'.not_dataToRead (h.not_dataToRead hnot)
  not_closing hnot := h'.not_closing (h.not_closing hnot)
  acked := by rw [h'.acked, h.acked, or_assoc]

/-- The frames one after the other. -/
theorem runLog_taken {frames : List RxFrame} {log : List (Entry Stack RxFrame (List TxFrame))}
    (hopen : s.tcpConn.state ≠ .listen) (hrun : runLog handleRxPacket s frames = some (s', log)) :
    Taken s s' (∃ frame ∈ frames, ResetFrame s frame)
      (∃ entry ∈ log, AcksFrame entry.before entry.event) := by
  induction frames generalizing s log with
  | nil =>
    obtain ⟨rfl, rfl⟩ := Prod.mk.inj (Option.some.inj hrun)
    exact .same_conn hopen rfl rfl (by simp) (by simp)
  | cons frame rest ih =>
    obtain ⟨s₁, sent, log', hstep, hrest, rfl⟩ := exists_of_runLog_cons hrun
    have hfirst := handleRxPacket_taken hopen hstep
    have hall := hfirst.trans (ih hfirst.opened hrest)
    simp only [hfirst.resetFrame] at hall
    simpa only [List.exists_mem_cons_iff] using hall

end Frames

/-! ## The calls of `send_tcp_packet` -/

/-- The connection is open and not reset. -/
structure Alive (c : TcpConnection) : Prop where
  opened : c.state ≠ .listen
  not_closing : ¬ c.state.closing
  not_reset : ¬ c.state.reset

section Sends

variable {s : Stack}

/-- A call of `send_tcp_packet` on the stack sends from the connection, or does nothing. -/
theorem Stack.sendTcpPacket_sends (hopen : s.tcpConn.state ≠ .listen) (input : SendInput) :
    ∃ clock result, Sends s.tcpConn clock input.scratch result ∧
      (s.sendTcpPacket input).1.tcpConn = result.conn := by
  unfold Stack.sendTcpPacket
  rw [if_neg hopen]
  dsimp only
  split
  · exact ⟨_, _, EthTransfer.sendTcpPacket_sends hopen ⟨(s.checkNow input.checked).2,
      (getNow (s.checkNow input.checked).1 input.armed).2⟩ input.scratch, rfl⟩
  · rename_i hidle
    rw [Bool.or_eq_true, not_or, Bool.not_eq_true, Bool.not_eq_true] at hidle
    exact ⟨⟨(s.checkNow input.checked).2, 0⟩, _, .idle hidle.1 hidle.2,
      (checkNow_conn s input.checked).1⟩

/-- A call keeps the connection alive. -/
theorem Alive.sendTcpPacket (h : Alive s.tcpConn) (input : SendInput) :
    Alive (s.sendTcpPacket input).1.tcpConn := by
  obtain ⟨clock, result, hsends, heq⟩ := Stack.sendTcpPacket_sends h.opened input
  have hboth : s.tcpConn.state ≠ .bothClosed := fun hboth =>
    h.not_closing (Or.inr (Or.inr hboth))
  have hrst : s.tcpConn.state ≠ .sendRst := fun hrst => h.not_reset (Or.inl hrst)
  rw [heq]
  have hstate : result.conn.state = s.tcpConn.state ∨ result.conn.state = .synAckSent := by
    rcases hsends.state_cases with hsame | hafter
    · exact Or.inl hsame
    · rw [hafter, if_neg hrst, if_neg hboth]
      cases isSyn s.tcpConn with
      | true => exact Or.inr rfl
      | false => exact Or.inl rfl
  rcases hstate with hsame | hsyn
  · exact ⟨hsame ▸ h.opened, hsame ▸ h.not_closing, hsame ▸ h.not_reset⟩
  · constructor <;> rw [hsyn] <;> decide

/-- A call leaves a connection reset when something is acknowledged. -/
theorem sendTcpPacket_reset (hreset : s.tcpConn.state.reset) (hacked : s.tcpConn.txAcked ≠ 0)
    (input : SendInput) : (s.sendTcpPacket input).1.tcpConn.state.reset ∧
      (s.sendTcpPacket input).1.tcpConn.txAcked ≠ 0 := by
  have hopen : s.tcpConn.state ≠ .listen := by
    rcases hreset with h | h <;> rw [h] <;> decide
  obtain ⟨clock, result, hsends, heq⟩ := s.sendTcpPacket_sends hopen input
  have hafter : AfterReset s.tcpConn := by
    refine ⟨?_, fun _ => hacked⟩
    rcases hreset with h | h
    · exact Or.inl h
    · exact Or.inr (Or.inl h)
  have hopen' := (OpenAs.sendTcpPacket ⟨hopen, rfl⟩ input).1
  rw [heq] at hopen' ⊢
  refine ⟨?_, ?_⟩
  · rcases (hafter.sends hacked hsends).state with h | h | h
    · exact Or.inl h
    · exact Or.inr h
    · exact absurd h hopen'
  · have hkeep : result.conn.txAcked = s.tcpConn.txAcked := by cases hsends <;> rfl
    rwa [hkeep]

/-- A call on a reset connection with nothing acknowledged sends a SYN. -/
theorem sendTcpPacket_unacked (hrst : s.tcpConn.state = .sendRst)
    (hzero : s.tcpConn.txAcked = 0) (input : SendInput) :
    Alive (s.sendTcpPacket input).1.tcpConn := by
  have hopen : s.tcpConn.state ≠ .listen := by
    rw [hrst]
    decide
  have hdue : sendDue s.tcpConn = true := sendDue_iff.mpr (Or.inr (Or.inr hrst))
  have hstate : (s.sendTcpPacket input).1.tcpConn.state = .synAckSent := by
    unfold Stack.sendTcpPacket
    rw [if_neg hopen, hdue]
    exact sendTcpPacket_state_of_unacked hrst hzero _ _
  constructor <;> rw [hstate] <;> decide

theorem Alive.sendLoop (h : Alive s.tcpConn) (inputs : ℕ → SendInput) (n i : ℕ) :
    Alive (sendLoop inputs n i s).1.tcpConn :=
  @sendLoop_invariant (fun s _ => Alive s.tcpConn) (fun input h => h.sendTcpPacket input) s [] h
    inputs n i

/-- The second loop of `ip_stack_poll` leaves the connection reset when it finds it in
`TCP_SEND_RST` and something is acknowledged. -/
theorem sendLoop_reset_iff (hopen : s.tcpConn.state ≠ .listen)
    (hclosing : ¬ s.tcpConn.state.closing) (hdata : s.tcpConn.state ≠ .dataToRead)
    (inputs : ℕ → SendInput) (n i : ℕ) :
    (sendLoop inputs (n + 1) i s).1.tcpConn.state.reset ↔
      s.tcpConn.state = .sendRst ∧ s.tcpConn.txAcked ≠ 0 := by
  by_cases hrst : s.tcpConn.state = .sendRst
  · by_cases hzero : s.tcpConn.txAcked = 0
    · refine iff_of_false (fun hreset => ?_) fun hboth => hboth.2 hzero
      have halive := sendTcpPacket_unacked hrst hzero (inputs i)
      rw [EthTransfer.sendLoop] at hreset
      rcases hresult : s.sendTcpPacket (inputs i) with ⟨s₁, sent, more⟩
      rw [hresult] at halive hreset
      cases more with
      | true => exact (halive.sendLoop inputs n (i + 1)).not_reset hreset
      | false => exact halive.not_reset hreset
    · refine iff_of_true ?_ ⟨hrst, hzero⟩
      exact (@sendLoop_invariant
        (fun s _ => s.tcpConn.state.reset ∧ s.tcpConn.txAcked ≠ 0)
        (fun input h => sendTcpPacket_reset h.1 h.2 input) s [] ⟨Or.inl hrst, hzero⟩ inputs (n + 1)
        i).1
  · refine iff_of_false (fun hreset => ?_) fun hboth => hrst hboth.1
    have halive : Alive s.tcpConn := ⟨hopen, hclosing, fun h => h.elim hrst hdata⟩
    exact (halive.sendLoop inputs (n + 1) i).not_reset hreset

/-- A poll leaves a connection reset when one of its frames is a RST and something is
acknowledged. -/
theorem ipStackPoll_reset_iff (h : Alive s.tcpConn) {poll : Poll} {s' : Stack}
    {frames : List TxFrame} (hpoll : ipStackPoll s poll = some (s', frames)) :
    s'.tcpConn.state.reset ↔ Breaks s poll.frames := by
  obtain ⟨⟨s₁, sent⟩, hloop, heq⟩ := Option.map_eq_some_iff.mp hpoll
  rw [receiveLoop_eq_runLog poll.frames_le] at hloop
  obtain ⟨⟨s₂, log⟩, hrun, heq'⟩ := Option.map_eq_some_iff.mp hloop
  obtain ⟨rfl, -⟩ := Prod.mk.inj heq'
  rcases hsent : sendLoop poll.sends POLL_CALLS 0 s₂ with ⟨s₃, later⟩
  dsimp only at heq
  rw [hsent] at heq
  obtain ⟨rfl, -⟩ := Prod.mk.inj heq
  have htaken := runLog_taken h.opened hrun
  have hdata : s.tcpConn.state ≠ .dataToRead := fun hdata => h.not_reset (Or.inr hdata)
  have hrst : s.tcpConn.state ≠ .sendRst := fun hrst => h.not_reset (Or.inl hrst)
  have hacks : (∃ entry ∈ log, AcksFrame entry.before entry.event) ↔
      ∃ s' log, runLog handleRxPacket s poll.frames = some (s', log) ∧
        ∃ entry ∈ log, AcksFrame entry.before entry.event := by
    simp [hrun]
  have hreset := sendLoop_reset_iff htaken.opened (htaken.not_closing h.not_closing)
    (htaken.not_dataToRead hdata) poll.sends 11 0
  rw [show 11 + 1 = POLL_CALLS from rfl, hsent, htaken.sendRst, htaken.acked, hacks,
    or_iff_right hrst] at hreset
  exact hreset

end Sends

/-! ## The rounds of a call -/

/-- The room for the next round of `write_tcp` is less than what is left to write. -/
def LeavesBytes (m : Machine) (w : Writing) : Prop := writeLength m.stack.tcpConn w.len < w.len

/-- The event does not lead to a round on a connection that was reset: a call of `write_tcp`
finds the connection alive, and no poll that leaves bytes to write breaks it. -/
def StaysAlive (m : Machine) : AppEvent → Prop
  | .write id _ len =>
    m.writing = none → OpenAs id m.stack → 0 < len → ¬ m.stack.tcpConn.state.reset
  | .poll poll =>
    ∀ w, m.writing = some w → LeavesBytes m w → ¬ Breaks (writeStep m.stack w).1 poll.frames
  | _ => True

/-- What every state of the machine keeps. -/
structure Sound (m : Machine) : Prop where
  writes_open : WritesOpen m
  len_pos : ∀ w, m.writing = some w → 0 < w.len
  carries : ∃ frames, Carries m.stack frames

section Rounds

variable {m m' : Machine} {e : AppEvent} {result : AppResult}

/-- The closing states are not reached. -/
theorem Sound.not_closing (h : Sound m) : ¬ m.stack.tcpConn.state.closing := by
  by_cases hlisten : m.stack.tcpConn.state = .listen
  · rw [hlisten]
    decide
  · obtain ⟨frames, hcarries⟩ := h.carries
    obtain ⟨s₀, syn, c₀, history, -, -, hopens, -, hrun, -, -⟩ := hcarries hlisten
    obtain ⟨rand, windowScale, maxSegment, -, rfl⟩ := hopens.eq_openConnection
    refine hrun.not_closing ?_
    show ¬ TcpState.synReceived.closing
    decide

/-- A round of `write_tcp` leaves the state of the connection alone. -/
theorem writeStep_state (s : Stack) (w : Writing) :
    (writeStep s w).1.tcpConn.state = s.tcpConn.state := by
  show (writeRound s.tcpConn w.data w.len).1.state = s.tcpConn.state
  have hwrites := writeRound_writes s.tcpConn w.data w.len
  generalize writeRound s.tcpConn w.data w.len = round at hwrites
  cases hwrites <;> rfl

/-- The loop of `write_tcp` goes on when the room is less than what is left. -/
theorem writeStep_len_pos {s : Stack} {w : Writing} (hlen : 0 < w.len) :
    (writeStep s w).2.len > 0 ↔ writeLength s.tcpConn w.len < w.len := by
  show w.len - (writeRound s.tcpConn w.data w.len).2 > 0 ↔ _
  unfold writeRound
  dsimp only
  split
  · show w.len - writeLength s.tcpConn w.len > 0 ↔ _
    omega
  · show w.len - 0 > 0 ↔ _
    omega

/-- A round of the loop, and what is left to write after it. -/
theorem exists_of_round {w : Writing} (hwriting : m.writing = some w) {poll : Poll}
    (hstep : machineStep m (.poll poll) = some (m', result)) :
    ∃ s' frames, ipStackPoll (writeStep m.stack w).1 poll = some (s', frames) ∧
      m' = if (writeStep m.stack w).2.len > 0 then ⟨s', some (writeStep m.stack w).2⟩
        else ⟨s', none⟩ := by
  unfold machineStep at hstep
  rw [hwriting] at hstep
  obtain ⟨⟨s', frames⟩, hpoll, heq⟩ := Option.map_eq_some_iff.mp hstep
  refine ⟨s', frames, hpoll, ?_⟩
  have hfst := congrArg Prod.fst heq
  rw [apply_ite Prod.fst] at hfst
  exact hfst.symm

/-- A round of the loop on a connection that is alive. -/
theorem round_iff (hsound : Sound m) (halive : ¬ SpinsDead m) {w : Writing}
    (hwriting : m.writing = some w) {poll : Poll}
    (hstep : machineStep m (.poll poll) = some (m', result)) :
    ¬ SpinsDead m' ↔ StaysAlive m (.poll poll) := by
  have halive' : Alive (writeStep m.stack w).1.tcpConn := by
    have hstate := writeStep_state m.stack w
    refine ⟨((hsound.writes_open w hwriting).writeStep w).1, hstate ▸ hsound.not_closing,
      fun hreset => halive ⟨by rw [hwriting]; rfl, ?_⟩⟩
    rwa [hstate] at hreset
  have hstays : StaysAlive m (.poll poll) ↔
      (LeavesBytes m w → ¬ Breaks (writeStep m.stack w).1 poll.frames) := by
    simp [StaysAlive, hwriting]
  rw [hstays]
  obtain ⟨s', frames, hpoll, rfl⟩ := exists_of_round hwriting hstep
  rw [← ipStackPoll_reset_iff halive' hpoll]
  have hgoes : (writeStep m.stack w).2.len > 0 ↔ LeavesBytes m w :=
    writeStep_len_pos (hsound.len_pos w hwriting)
  by_cases hleft : (writeStep m.stack w).2.len > 0
  · rw [if_pos hleft]
    simp [SpinsDead, hgoes.mp hleft]
  · rw [if_neg hleft]
    exact iff_of_true (by simp [SpinsDead]) fun hleaves => absurd (hgoes.mpr hleaves) hleft

/-- A call of `write_tcp`. -/
theorem write_iff (hidle : m.writing = none) {id : Int} {data : Bytes} {len : Int}
    (hstep : machineStep m (.write id data len) = some (m', result)) :
    ¬ SpinsDead m' ↔ StaysAlive m (.write id data len) := by
  have hstill : ¬ SpinsDead m := by simp [SpinsDead, hidle]
  unfold machineStep at hstep
  rw [hidle] at hstep
  dsimp only at hstep
  split_ifs at hstep with hrefused hlen
  · obtain ⟨rfl, -⟩ := Prod.mk.inj (Option.some.inj hstep)
    refine iff_of_true hstill fun _ hopen => absurd hrefused ?_
    exact not_or.mpr ⟨hopen.1, not_not.mpr hopen.2⟩
  · obtain ⟨rfl, -⟩ := Prod.mk.inj (Option.some.inj hstep)
    have hopen : OpenAs id m.stack :=
      ⟨fun h => hrefused (Or.inl h), not_not.mp fun h => hrefused (Or.inr h)⟩
    simp [SpinsDead, StaysAlive, hidle, hopen, hlen]
  · obtain ⟨rfl, -⟩ := Prod.mk.inj (Option.some.inj hstep)
    exact iff_of_true hstill fun _ _ hpos => absurd hpos hlen

/-- One event: the next round does not start on a connection that was reset exactly if the
event is as `StaysAlive` says. -/
theorem staysAlive_iff (hsound : Sound m) (halive : ¬ SpinsDead m)
    (hstep : machineStep m e = some (m', result)) : ¬ SpinsDead m' ↔ StaysAlive m e := by
  cases hwriting : m.writing with
  | some w =>
    cases e with
    | poll poll => exact round_iff hsound halive hwriting hstep
    | _ =>
      -- the application makes no call while `write_tcp` has not returned
      unfold machineStep at hstep
      rw [hwriting] at hstep
      cases hstep
  | none =>
    cases e with
    | write id data len => exact write_iff hwriting hstep
    | poll poll =>
      unfold machineStep at hstep
      rw [hwriting] at hstep
      obtain ⟨⟨s', frames⟩, -, heq⟩ := Option.map_eq_some_iff.mp hstep
      obtain ⟨rfl, -⟩ := Prod.mk.inj heq
      exact iff_of_true (by simp [SpinsDead]) (by simp [StaysAlive, hwriting])
    | _ =>
      refine iff_of_true ?_ trivial
      unfold machineStep at hstep
      rw [hwriting] at hstep
      obtain ⟨rfl, -⟩ := Prod.mk.inj (Option.some.inj hstep)
      simp [SpinsDead, hwriting]

/-- `write_tcp` polls with bytes left to write only. -/
theorem len_pos_step (hlen : ∀ w, m.writing = some w → 0 < w.len)
    (hstep : machineStep m e = some (m', result)) : ∀ w, m'.writing = some w → 0 < w.len := by
  cases hwriting : m.writing with
  | some w =>
    cases e with
    | poll poll =>
      obtain ⟨s', frames, -, rfl⟩ := exists_of_round hwriting hstep
      split
      · rename_i hleft
        rintro w' ⟨⟩
        exact hleft
      · nofun
    | _ =>
      unfold machineStep at hstep
      rw [hwriting] at hstep
      cases hstep
  | none =>
    cases machineStep_steps hstep with
    | poll => nofun
    | round hsome => rw [hwriting] at hsome; cases hsome
    | @began id data len =>
      have hentered {r : AppResult} :
          some (m, r) ≠ some (({ m with writing := some ⟨id, data, len, 0⟩ } : Machine), {}) := by
        intro heq
        rw [(Prod.mk.inj (Option.some.inj heq)).1] at hwriting
        cases hwriting
      unfold machineStep at hstep
      rw [hwriting] at hstep
      dsimp only at hstep
      split_ifs at hstep with hrefused hpos
      · exact absurd hstep hentered
      · rintro w' ⟨⟩
        exact hpos
      · exact absurd hstep hentered
    | answered => exact hlen
    | called => nofun

/-- An event keeps the invariant. -/
theorem Sound.machineStep (h : Sound m) (hstep : EthTransfer.machineStep m e = some (m', result)) :
    Sound m' := by
  obtain ⟨frames, hcarries⟩ := h.carries
  exact ⟨h.writes_open.machineStep hstep, len_pos_step h.len_pos hstep, _,
    hcarries.machineStep hstep⟩

end Rounds

/-! ## The result -/

/-- No round of `write_tcp` in a run from `TCP_LISTEN`, and none that is still to come,
starts on a connection that was reset exactly if every event of the run is as `StaysAlive`
says. -/
theorem write_dead_iff {m final : Machine} (hidle : m.writing = none)
    (hlisten : m.stack.tcpConn.state = .listen) {events : List AppEvent}
    {log : List (Entry Machine AppEvent AppResult)}
    (hrun : runLog machineStep m events = some (final, log)) :
    ((∀ entry ∈ log, ¬ SpinsDead entry.before) ∧ ¬ SpinsDead final) ↔
      ∀ entry ∈ log, StaysAlive entry.before entry.event := by
  have hsound : Sound m := by
    refine ⟨fun w hw => ?_, fun w hw => ?_, [], fun hopen => absurd hlisten hopen⟩
    · rw [hidle] at hw
      cases hw
    · rw [hidle] at hw
      cases hw
  have halive : ¬ SpinsDead m := by simp [SpinsDead, hidle]
  clear hidle hlisten
  induction events generalizing m log with
  | nil =>
    obtain ⟨rfl, rfl⟩ := Prod.mk.inj (Option.some.inj hrun)
    simp [halive]
  | cons e rest ih =>
    obtain ⟨m', result, log', hstep, hrest, rfl⟩ := exists_of_runLog_cons hrun
    have hfirst := staysAlive_iff hsound halive hstep
    simp only [List.forall_mem_cons, halive, not_false_eq_true, true_and]
    by_cases halive' : SpinsDead m'
    · refine iff_of_false (fun hall => ?_) fun hall => hfirst.mpr hall.1 halive'
      -- the state after the first event is the first of the others, or the last one
      cases rest with
      | nil =>
        obtain ⟨rfl, rfl⟩ := Prod.mk.inj (Option.some.inj hrest)
        exact hall.2 halive'
      | cons e' rest' =>
        obtain ⟨_, _, _, _, _, rfl⟩ := exists_of_runLog_cons hrest
        exact hall.1 _ List.mem_cons_self halive'
    · have hothers := ih hrest (hsound.machineStep hstep) halive'
      exact ⟨fun hall => ⟨hfirst.mp halive', hothers.mp hall⟩, fun hall => hothers.mpr hall.2⟩

/-! ## A RST in the middle of a transfer -/

/-- A poll at time 0 that receives nothing. -/
def pollNothing : Poll where
  frames := []
  sends := fun _ => ⟨⟨0, 0⟩, ⟨0, 0⟩, fun _ => 0⟩
  frames_le := by decide

/-- A peer with a window of 1024 bytes connects, and the application writes 2000. -/
def longWrite : List AppEvent :=
  [.poll (pollFrame (peerFrame 0xA0 0 0 0x02)), .poll (pollFrame (peerFrame 0xA0 1 101 0x10)),
    .write 1 (fun _ => 97) 2000, .poll pollNothing]

/-- The call polls on, and the connection is alive. -/
theorem write_dead_iff_long :
    ∃ final log, runLog machineStep ⟨listeningStack, none⟩ longWrite = some (final, log) ∧
      final.writing.map Writing.len = some 976 ∧
      ∀ entry ∈ log, StaysAlive entry.before entry.event := by
  have hrun : (runLog machineStep ⟨listeningStack, none⟩ longWrite).any (fun r =>
      decide (r.1.writing.map Writing.len = some 976 ∧
        (∀ entry ∈ r.2, ¬ SpinsDead entry.before) ∧ ¬ SpinsDead r.1)) = true := by
    decide +kernel
  obtain ⟨⟨final, log⟩, hrun, hall⟩ := (Option.any_eq_true _ _).mp hrun
  obtain ⟨hlen, halive⟩ := of_decide_eq_true hall
  exact ⟨final, log, hrun, hlen, (write_dead_iff rfl rfl hrun).mp halive⟩

/-- The peer resets the connection, and the call still has 976 bytes to write. -/
def resetWrite : List AppEvent :=
  longWrite ++ [.poll (pollFrame (peerFrame 0xA0 1 101 0x04)), .poll pollNothing]

/-- The next round starts on a connection that is gone, and so did the one before. -/
theorem write_spins :
    ∃ final log, runLog machineStep ⟨listeningStack, none⟩ resetWrite = some (final, log) ∧
      SpinsDead final ∧ final.writing.map Writing.len = some 976 ∧
      ∃ entry ∈ log, SpinsDead entry.before := by
  have hrun : (runLog machineStep ⟨listeningStack, none⟩ resetWrite).any (fun r =>
      decide (SpinsDead r.1 ∧ r.1.writing.map Writing.len = some 976 ∧
        ∃ entry ∈ r.2, SpinsDead entry.before)) = true := by
    decide +kernel
  obtain ⟨⟨final, log⟩, hrun, hall⟩ := (Option.any_eq_true _ _).mp hrun
  exact ⟨final, log, hrun, of_decide_eq_true hall⟩

end EthTransfer
