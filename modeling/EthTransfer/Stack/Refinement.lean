import EthTransfer.Lib.Purge
import EthTransfer.Stack.System

/-!
# The connection in the machine

How the runs of one connection stand in the runs of the whole stack.

* `machine_carries`: whenever a connection is open, a SYN has opened it, its
  state is reached by a `ConnRun`, and the TCP segments sent since then are those
  of the run.
* `writing_open`: the connection of a `write_tcp` call stays open until the call
  returns, although its id is checked only once.
-/

namespace EthTransfer

open GuardedRun Purge

/-! ## The run of the open connection -/

/-- When a connection is open, a SYN has opened it, a `ConnRun` leads from there
to its state, and the TCP segments sent since are those of the run. -/
def Carries (s : Stack) (frames : List TxFrame) : Prop :=
  s.tcpConn.state ≠ .listen →
    ∃ s₀ syn c₀ h earlier later, Opens s₀ syn c₀ ∧ s₀.ipAddr = s.ipAddr ∧
      ConnRun s.ipAddr anyEvent c₀ h s.tcpConn ∧ frames = earlier ++ later ∧
      tcpSegments later = transmitted h

section Carries

variable {s s' : Stack} {frames : List TxFrame}

/-- What does not touch the connection sends no TCP segment. -/
theorem Carries.same (hcarries : Carries s frames) (hconn : s'.tcpConn = s.tcpConn)
    (hip : s'.ipAddr = s.ipAddr) {later : List TxFrame} (hlater : tcpSegments later = []) :
    Carries s' (frames ++ later) := by
  unfold Carries at hcarries ⊢
  rw [hconn, hip]
  intro hopen
  obtain ⟨s₀, syn, c₀, h, before, after, hopens, haddr, hrun, rfl, hsegments⟩ := hcarries hopen
  refine ⟨s₀, syn, c₀, h, before, after ++ later, hopens, haddr, hrun, by simp, ?_⟩
  rw [tcpSegments_append, hlater, List.append_nil]
  exact hsegments

/-- An event of the connection continues its run. -/
theorem Carries.event (hcarries : Carries s frames) (hopen : s.tcpConn.state ≠ .listen)
    (e : ConnEvent) (hconn : s'.tcpConn = (connStep s.ipAddr s.tcpConn e).1)
    (hip : s'.ipAddr = s.ipAddr) {later : List TxFrame}
    (hlater : tcpSegments later = (connStep s.ipAddr s.tcpConn e).2.sent.toList) :
    Carries s' (frames ++ later) := by
  intro _
  obtain ⟨s₀, syn, c₀, h, before, after, hopens, haddr, hrun, rfl, hsegments⟩ := hcarries hopen
  refine ⟨s₀, syn, c₀, h ++ [(e, (connStep s.ipAddr s.tcpConn e).2)], before, after ++ later,
    hopens, haddr.trans hip.symm, ?_, by simp, ?_⟩
  · rw [hconn, hip]
    exact hrun.next ⟨hopen, trivial⟩
  · rw [tcpSegments_append, transmitted_append, hlater, hsegments]

theorem handleTcpPacket_ipAddr {packet : TcpPacket} {rand : Rand}
    (hstep : handleTcpPacket s packet rand = some s') : s'.ipAddr = s.ipAddr := by
  by_cases hlisten : s.tcpConn.state = .listen
  · rcases handleTcpPacket_listen hlisten packet with hdrop | ⟨-, -, haccept⟩
    · rw [hdrop rand] at hstep
      rw [← Option.some.inj hstep]
    · rw [haccept rand] at hstep
      rcases acceptSyn_cases s packet with hhang | hdrop | ⟨-, windowScale, maxSegment, -, hopen⟩
      · rw [hhang rand] at hstep
        cases hstep
      · rw [hdrop rand] at hstep
        rw [← Option.some.inj hstep]
      · rw [hopen rand] at hstep
        rw [← Option.some.inj hstep]
  · rw [handleTcpPacket_open hlisten] at hstep
    rw [← Option.some.inj hstep]

/-- A TCP segment is received by the open connection, or it may open one. -/
theorem Carries.handleTcpPacket (hcarries : Carries s frames) {packet : TcpPacket} {rand : Rand}
    (hstep : EthTransfer.handleTcpPacket s packet rand = some s') : Carries s' frames := by
  have hip := handleTcpPacket_ipAddr hstep
  by_cases hlisten : s.tcpConn.state = .listen
  · intro hopen
    exact ⟨s, packet, s'.tcpConn, [], frames, [], ⟨hlisten, ⟨rand, s', hstep, rfl⟩, hopen⟩,
      hip.symm, .start, by simp, rfl⟩
  · rw [handleTcpPacket_open hlisten] at hstep
    have hconn : s'.tcpConn = (connStep s.ipAddr s.tcpConn (.receive packet)).1 := by
      rw [← Option.some.inj hstep]
      rfl
    rw [← List.append_nil frames]
    exact hcarries.event hlisten (.receive packet) hconn hip rfl

theorem Carries.handleRxPacket (hcarries : Carries s frames) {frame : RxFrame}
    {later : List TxFrame} (hstep : EthTransfer.handleRxPacket s frame = some (s', later)) :
    Carries s' (frames ++ later) := by
  cases htcp : frame.tcpSegment with
  | none =>
    obtain ⟨hconn, hip, -, hsilent⟩ := handleRxPacket_of_not_tcp htcp hstep
    exact hcarries.same hconn hip hsilent
  | some packet =>
    rw [handleRxPacket_of_tcp htcp] at hstep
    obtain ⟨s₁, htcpStep, heq⟩ := Option.map_eq_some_iff.mp hstep
    obtain ⟨rfl, rfl⟩ := Prod.mk.inj heq
    rw [List.append_nil]
    exact hcarries.handleTcpPacket htcpStep

theorem getNow_conn (s : Stack) (time : Timespec) :
    (getNow s time).1.tcpConn = s.tcpConn ∧ (getNow s time).1.ipAddr = s.ipAddr := by
  unfold getNow
  dsimp only
  split <;> exact ⟨rfl, rfl⟩

theorem checkNow_conn (s : Stack) (time : Timespec) :
    (s.checkNow time).1.tcpConn = s.tcpConn ∧ (s.checkNow time).1.ipAddr = s.ipAddr := by
  unfold Stack.checkNow
  split
  · exact getNow_conn s time
  · exact ⟨rfl, rfl⟩

theorem Carries.sendTcpPacket (hcarries : Carries s frames) (input : SendInput) :
    Carries (s.sendTcpPacket input).1 (frames ++ (s.sendTcpPacket input).2.1) := by
  obtain ⟨hconn, hip⟩ := checkNow_conn s input.checked
  unfold Stack.sendTcpPacket
  dsimp only
  split
  · exact hcarries.same rfl rfl rfl
  · rename_i hopen
    split
    · refine hcarries.event hopen (.send ⟨(s.checkNow input.checked).2,
        (getNow (s.checkNow input.checked).1 input.armed).2⟩ input.scratch) ?_ ?_ ?_
      · rfl
      · exact (getNow_conn (s.checkNow input.checked).1 input.armed).2.trans hip
      · dsimp only [connStep]
        generalize (EthTransfer.sendTcpPacket s.tcpConn _ input.scratch).sent = sent
        cases sent <;> rfl
    · exact hcarries.same hconn hip rfl

theorem Carries.ipStackPoll (hcarries : Carries s frames) {poll : Poll} {later : List TxFrame}
    (hstep : EthTransfer.ipStackPoll s poll = some (s', later)) :
    Carries s' (frames ++ later) :=
  ipStackPoll_invariant Carries (fun h => h.handleRxPacket)
    (fun input h => h.sendTcpPacket input) frames hcarries hstep

theorem Carries.writeStep (hcarries : Carries s frames) (w : Writing) :
    Carries (EthTransfer.writeStep s w).1 frames := by
  by_cases hopen : s.tcpConn.state = .listen
  · intro hstill
    refine absurd ?_ hstill
    show (writeRound s.tcpConn w.data w.len).1.state = .listen
    unfold writeRound
    dsimp only
    split <;> exact hopen
  · rw [← List.append_nil frames]
    refine hcarries.event hopen (.write s.tcpConn.connectionId w.data w.len) ?_ ?_ ?_
    · simp only [connStep, ne_eq, not_true_eq_false, if_false]
      rfl
    · rfl
    · simp only [connStep, ne_eq, not_true_eq_false, if_false]
      rfl

end Carries

/-- Every event of the machine keeps the connection on its run. -/
theorem Carries.machineStep {m m' : Machine} {frames : List TxFrame}
    (hcarries : Carries m.stack frames) {e : AppEvent} {result : AppResult}
    (hstep : EthTransfer.machineStep m e = some (m', result)) :
    Carries m'.stack (frames ++ result.frames) := by
  cases machineStep_steps hstep with
  | poll _ hpoll => exact hcarries.ipStackPoll hpoll
  | @round w _ _ _ _ _ _ hpoll _ => exact (hcarries.writeStep w).ipStackPoll hpoll
  | began => exact hcarries.same rfl rfl rfl
  | answered => exact hcarries.same rfl rfl rfl
  | called action hconn hsent hclosed hframes =>
    rw [hframes]
    by_cases hlisten : m.stack.tcpConn.state = .listen
    · rw [hclosed hlisten]
      exact hcarries.same rfl rfl rfl
    · refine hcarries.event hlisten action ?_ ?_ ?_
      · exact hconn
      · rfl
      · rw [hsent]
        rfl

/-- Whatever the machine does from `TCP_LISTEN` on, an open connection is on its
run, and the TCP segments sent since it was opened are those of the run. -/
theorem machine_carries {m final : Machine} (hlisten : m.stack.tcpConn.state = .listen)
    {events : List AppEvent} {log : List (Entry Machine AppEvent AppResult)}
    (hrun : runLog machineStep m events = some (final, log)) :
    Carries final.stack (log.flatMap fun entry => entry.output.frames) := by
  have hstart : Carries m.stack [] := fun hopen => absurd hlisten hopen
  refine runLog_invariant AppResult.frames (fun m frames => Carries m.stack frames) ?_ [] hrun
    hstart
  intro m frames e m' result hcarries hstep
  exact hcarries.machineStep hstep

/-! ## The connection of a `write_tcp` call -/

section OpenAs

variable {k : Int} {s s' : Stack}

/-- `send_tcp_packet` does not close a connection. -/
theorem sendTcpPacket_open {c : TcpConnection} (hopen : c.state ≠ .listen) (clock : Clock)
    (scratch : Bytes) : (sendTcpPacket c clock scratch).conn.state ≠ .listen := by
  have hafter : ∀ c : TcpConnection, c.state ≠ .listen → ∀ now,
      (afterSend c now).state ≠ .listen := by
    intro c hopen now
    show (if sentState c = .bothClosed then TcpState.sendRst else sentState c) ≠ .listen
    split
    · nofun
    · rw [sentState_eq]
      split
      · nofun
      · split
        · nofun
        · exact hopen
  have hsends := sendTcpPacket_sends hopen clock scratch
  generalize sendTcpPacket c clock scratch = result at hsends
  cases hsends with
  | idle => exact hopen
  | due => exact hafter c hopen _
  | timeout => exact hafter (rewind c) hopen _

theorem OpenAs.handleRxPacket (hopen : OpenAs k s) {frame : RxFrame} {later : List TxFrame}
    (hstep : EthTransfer.handleRxPacket s frame = some (s', later)) : OpenAs k s' := by
  cases htcp : frame.tcpSegment with
  | none =>
    unfold OpenAs
    rw [(handleRxPacket_of_not_tcp htcp hstep).1]
    exact hopen
  | some packet =>
    rw [handleRxPacket_of_tcp htcp, handleTcpPacket_open hopen.1] at hstep
    obtain ⟨rfl, -⟩ := Prod.mk.inj (Option.some.inj hstep)
    have hsame := (tcpInput_received s.ipAddr s.tcpConn packet).sameConnection
    exact ⟨tcpInput_open hopen.1 packet, hsame.connectionId.trans hopen.2⟩

theorem OpenAs.sendTcpPacket (hopen : OpenAs k s) (input : SendInput) :
    OpenAs k (s.sendTcpPacket input).1 := by
  unfold Stack.sendTcpPacket
  rw [if_neg hopen.1]
  dsimp only
  split
  · have hsame := (sendTcpPacket_sends hopen.1 ⟨(s.checkNow input.checked).2,
      (getNow (s.checkNow input.checked).1 input.armed).2⟩ input.scratch).sameConnection
    exact ⟨sendTcpPacket_open hopen.1 _ _, hsame.connectionId.trans hopen.2⟩
  · unfold OpenAs
    rw [(checkNow_conn s input.checked).1]
    exact hopen

/-- `ip_stack_poll` does not close a connection, and so opens no other. -/
theorem OpenAs.ipStackPoll (hopen : OpenAs k s) {poll : Poll} {later : List TxFrame}
    (hstep : EthTransfer.ipStackPoll s poll = some (s', later)) : OpenAs k s' := by
  exact ipStackPoll_invariant (fun s _ => OpenAs k s) (fun h => h.handleRxPacket)
    (fun input h => h.sendTcpPacket input) [] hopen hstep

theorem OpenAs.writeStep (hopen : OpenAs k s) (w : Writing) :
    OpenAs k (EthTransfer.writeStep s w).1 := by
  have hwrites := writeRound_writes s.tcpConn w.data w.len
  unfold EthTransfer.writeStep
  dsimp only
  generalize writeRound s.tcpConn w.data w.len = result at hwrites
  cases hwrites with
  | none => exact hopen
  | accepted => exact hopen

end OpenAs

/-- The connection of the `write_tcp` call that is under way is open. -/
def WritesOpen (m : Machine) : Prop := ∀ w, m.writing = some w → OpenAs w.connectionId m.stack

theorem WritesOpen.machineStep {m m' : Machine} (hopen : WritesOpen m) {e : AppEvent}
    {result : AppResult} (hstep : EthTransfer.machineStep m e = some (m', result)) :
    WritesOpen m' := by
  cases machineStep_steps hstep with
  | poll => nofun
  | @round w poll s frames writing ret hwriting hpoll hnext =>
    intro w' hw'
    rcases hnext with rfl | rfl
    · cases hw'
    · obtain rfl := Option.some.inj hw'
      exact ((hopen w hwriting).writeStep w).ipStackPoll hpoll
  | began hown =>
    intro w hw
    obtain rfl := Option.some.inj hw
    exact hown
  | answered => exact hopen
  | called => nofun

/-- A `write_tcp` call that has not returned works on an open connection with its
id: the single check of the id is enough. -/
theorem writing_open {m final : Machine} (hidle : m.writing = none) {events : List AppEvent}
    {log : List (Entry Machine AppEvent AppResult)}
    (hrun : runLog machineStep m events = some (final, log)) : WritesOpen final := by
  have hstart : WritesOpen m := by
    intro w hw
    rw [hidle] at hw
    cases hw
  refine runLog_invariant AppResult.frames (fun m _ => WritesOpen m) ?_ [] hrun hstart
  intro m _ e m' result hopen hstep
  exact hopen.machineStep hstep

end EthTransfer
