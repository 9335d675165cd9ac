import EthTransfer.Lib.Purge
import EthTransfer.Stack.System

/-!
# Isolation of a connection

Two runs of the machine: one as it is, and one without the TCP segments of
foreign peers that arrive while the connection `k` is open (`foreignFrame`) and
without the calls that name neither `k` nor the open connection (`strayCall`).
While `k` is open, these are all calls with another id.

`connection_isolation` says that nothing tells the two apart: every event that
is left finds the machine in the same state, sends the same frames and returns
the same, and the runs end in the same state.  Calls that name another
connection while that one is open cannot be left out: `owner_close` is a run in
which one of them is what lets `k` open at all.
-/

namespace EthTransfer

open Purge

/-! ## What is deleted -/

/-- Source and destination of a segment. -/
def TcpPacket.tuple (packet : TcpPacket) : UInt32 × UInt16 × UInt32 × UInt16 :=
  (packet.ip.sourceIp, packet.tcp.sourcePort, packet.ip.destIp, packet.tcp.destPort)

/-- Source and destination of the segments of the connection. -/
def Stack.tuple (s : Stack) : UInt32 × UInt16 × UInt32 × UInt16 :=
  (s.tcpConn.remoteIp, s.tcpConn.remotePort, s.ipAddr, s.tcpConn.localPort)

theorem connectionMatch_iff {s : Stack} {packet : TcpPacket} :
    connectionMatch s.ipAddr s.tcpConn packet = true ↔ packet.tuple = s.tuple := by
  unfold connectionMatch TcpPacket.tuple Stack.tuple
  simp only [Bool.and_eq_true, beq_iff_eq, Prod.mk.injEq]
  tauto

/-- A TCP segment that arrives while `k` is open and is not from its 4-tuple. -/
def foreignFrame (k : Int) (s : Stack) (frame : RxFrame) : Bool :=
  match frame.tcpSegment with
  | some packet => decide (OpenAs k s ∧ packet.tuple ≠ s.tuple)
  | none => false

/-- The id that a call names. -/
def AppEvent.callId : AppEvent → Option Int
  | .read id _ _ _ => some id
  | .write id _ _ => some id
  | .shutdown id => some id
  | .close id => some id
  | .poll _ => none
  | .openTcp => none

/-- A call that names a connection other than `k`, and not the one that is
open. -/
def strayCall (k : Int) (m : Machine) (e : AppEvent) : Bool :=
  match e.callId with
  | some id => decide (id ≠ k ∧ ¬ OpenAs id m.stack)
  | none => false

/-- What a stray call returns, and what it leaves in the memory of the caller. -/
def refusal : AppEvent → AppResult
  | .read _ data _ _ => { ret := some (-1), data := some data }
  | .close _ => {}
  | _ => { ret := some (-1) }

/-- The poll without the foreign segments; `s` is the stack when it begins. -/
def isolatePoll (k : Int) (s : Stack) (poll : Poll) : Poll where
  frames := purge handleRxPacket (foreignFrame k) (fun _ frame => frame) s poll.frames
  sends := poll.sends
  frames_le := Nat.le_trans (length_purge_le _ _) poll.frames_le

/-- The event without the foreign segments. -/
def isolateEvent (k : Int) (m : Machine) : AppEvent → AppEvent
  | .poll poll =>
    match m.writing with
    | none => .poll (isolatePoll k m.stack poll)
    | some w => .poll (isolatePoll k (writeStep m.stack w).1 poll)
  | e => e

/-- The run without the foreign segments and the stray calls. -/
def isolate (k : Int) (m : Machine) (events : List AppEvent) : List AppEvent :=
  purge machineStep (strayCall k) (isolateEvent k) m events

/-! ## Foreign segments -/

section Foreign

variable {k : Int} {s : Stack}

/-- `handle_tcp_packet` drops a foreign segment before it touches anything. -/
theorem handleRxPacket_foreign {frame : RxFrame} (hforeign : foreignFrame k s frame = true)
    {s' : Stack} {frames : List TxFrame} (hstep : handleRxPacket s frame = some (s', frames)) :
    s' = s ∧ frames = [] := by
  unfold foreignFrame at hforeign
  cases htcp : frame.tcpSegment with
  | none =>
    rw [htcp] at hforeign
    cases hforeign
  | some packet =>
    rw [htcp] at hforeign
    obtain ⟨hopen, htuple⟩ := of_decide_eq_true hforeign
    have hignored : tcpInput s.ipAddr s.tcpConn packet = s.tcpConn := by
      have hmatch : ¬ connectionMatch s.ipAddr s.tcpConn packet = true :=
        fun h => htuple (connectionMatch_iff.mp h)
      unfold tcpInput
      simp [hmatch]
    rw [handleRxPacket_of_tcp htcp, handleTcpPacket_open hopen.1, hignored] at hstep
    obtain ⟨rfl, rfl⟩ := Prod.mk.inj (Option.some.inj hstep)
    exact ⟨rfl, rfl⟩

/-- Within its number of calls, the first loop of `ip_stack_poll` takes every
frame. -/
theorem receiveLoop_eq_runLog {n : ℕ} {frames : List RxFrame} (hlen : frames.length ≤ n)
    (s : Stack) :
    receiveLoop n s frames =
      (runLog handleRxPacket s frames).map fun r => (r.1, r.2.flatMap Entry.output) := by
  induction n generalizing s frames with
  | zero =>
    obtain rfl := List.length_eq_zero_iff.mp (Nat.le_zero.mp hlen)
    rfl
  | succ n ih =>
    cases frames with
    | nil => rfl
    | cons frame rest =>
      rw [receiveLoop, runLog]
      cases handleRxPacket s frame with
      | none => rfl
      | some result =>
        obtain ⟨s', sent⟩ := result
        simp only [Option.bind_some]
        rw [ih (Nat.le_of_succ_le_succ hlen)]
        cases runLog handleRxPacket s' rest with
        | none => rfl
        | some r => rfl

/-- Without the foreign segments `ip_stack_poll` does the same. -/
theorem ipStackPoll_isolate (k : Int) (s : Stack) (poll : Poll) :
    ipStackPoll s (isolatePoll k s poll) = ipStackPoll s poll := by
  have hreceive : receiveLoop POLL_CALLS s (isolatePoll k s poll).frames =
      receiveLoop POLL_CALLS s poll.frames := by
    rw [receiveLoop_eq_runLog (isolatePoll k s poll).frames_le,
      receiveLoop_eq_runLog poll.frames_le]
    exact runLog_purge_silent (fun s e s' o hforeign => handleRxPacket_foreign hforeign)
      (fun _ _ _ => rfl) s poll.frames
  have hsends : (isolatePoll k s poll).sends = poll.sends := rfl
  unfold ipStackPoll
  rw [hreceive, hsends]

theorem machineStep_isolate (k : Int) (m : Machine) (e : AppEvent) :
    machineStep m (isolateEvent k m e) = machineStep m e := by
  cases e with
  | poll poll =>
    unfold isolateEvent machineStep
    cases hwriting : m.writing with
    | none =>
      dsimp only
      rw [ipStackPoll_isolate]
    | some w =>
      dsimp only
      rw [ipStackPoll_isolate]
  | _ => rfl

end Foreign

/-! ## Stray calls -/

/-- Every call compares its id with that of the open connection before it does
anything. -/
theorem machineStep_refused {stack : Stack} {e : AppEvent} {id : Int} (hid : e.callId = some id)
    (hrefused : stack.tcpConn.state = .listen ∨ stack.tcpConn.connectionId ≠ id) :
    machineStep ⟨stack, none⟩ e = some (⟨stack, none⟩, refusal e) := by
  unfold machineStep
  cases e with
  | poll => cases hid
  | openTcp => cases hid
  | read id' data off len =>
    obtain rfl := Option.some.inj hid
    dsimp only
    rw [readTcp_refused hrefused]
    rfl
  | write id' data len =>
    obtain rfl := Option.some.inj hid
    exact if_pos hrefused
  | shutdown id' =>
    obtain rfl := Option.some.inj hid
    dsimp only
    rw [shutdownTcp_refused hrefused]
    rfl
  | close id' =>
    obtain rfl := Option.some.inj hid
    dsimp only
    rw [closeTcp_refused hrefused]
    rfl

/-- A stray call changes nothing. -/
theorem machineStep_stray {k : Int} {m m' : Machine} {e : AppEvent} {result : AppResult}
    (hstray : strayCall k m e = true) (hstep : machineStep m e = some (m', result)) :
    m' = m ∧ result = refusal e := by
  unfold strayCall at hstray
  cases hid : e.callId with
  | none =>
    rw [hid] at hstray
    cases hstray
  | some id =>
    rw [hid] at hstray
    obtain ⟨-, hclosed⟩ := of_decide_eq_true hstray
    have hrefused : m.stack.tcpConn.state = .listen ∨ m.stack.tcpConn.connectionId ≠ id := by
      unfold OpenAs at hclosed
      tauto
    obtain ⟨stack, writing⟩ := m
    cases writing with
    | some w =>
      -- the machine is in `write_tcp`, where the application makes no other call
      unfold machineStep at hstep
      cases e with
      | poll => cases hid
      | _ => cases hstep
    | none =>
      rw [machineStep_refused hid hrefused] at hstep
      obtain ⟨rfl, rfl⟩ := Prod.mk.inj (Option.some.inj hstep)
      exact ⟨rfl, rfl⟩

/-! ## The result -/

/-- Deleting the foreign segments and the stray calls changes neither the end of
a run nor, for any event that is left, the machine that it finds and what it
shows.  A stray call itself returns the same whatever the connection is. -/
theorem connection_isolation (k : Int) (m : Machine) (events : List AppEvent) :
    (runLog machineStep m (isolate k m events)).map (fun r => (r.1, r.2.map Entry.shown)) =
        (runLog machineStep m events).map (fun r =>
          (r.1, (r.2.filter fun entry => !strayCall k entry.before entry.event).map
            Entry.shown)) ∧
      ∀ final log, runLog machineStep m events = some (final, log) → ∀ entry ∈ log,
        strayCall k entry.before entry.event = true → entry.output = refusal entry.event := by
  constructor
  · refine runLog_purge ?_ ?_ m events
    · intro m e m' result hstray hstep
      exact (machineStep_stray hstray hstep).1
    · intro m e _
      exact machineStep_isolate k m e
  · intro final log hrun entry hmem hstray
    obtain ⟨m', hstep⟩ := exists_step_of_mem_log hrun hmem
    exact (machineStep_stray hstray hstep).2

/-! ## Two peers -/

/-- A TCP segment without payload from port 0x0F00 + `port` of 10.0.0.2 to port
80 of 10.0.0.1. -/
def peerFrame (port sequence ack flags : UInt8) : RxFrame where
  packet :=
    { buffer := fun i => List.getD
        [2, 0, 0, 0, 0, 1, 2, 0, 0, 0, 0, 2, 0x08, 0x00,
          0x45, 0, 0, 40, 0, 0, 0x40, 0, 64, 6, 0, 0, 10, 0, 0, 2, 10, 0, 0, 1,
          0x0F, port, 0, 80, 0, 0, 0, sequence, 0, 0, 0, ack, 0x50, flags, 4, 0, 0, 0, 0, 0] i 0
      length := 54 }
  rand := ⟨0, 100⟩

/-- A poll at time 0 that receives one frame. -/
def pollFrame (frame : RxFrame) : Poll where
  frames := [frame]
  sends := fun _ => ⟨⟨0, 0⟩, ⟨0, 0⟩, fun _ => 0⟩
  frames_le := by simp [POLL_CALLS]

/-- The first peer connects, and a second one sends a SYN. -/
def twoPeers : List AppEvent :=
  [.poll (pollFrame (peerFrame 0xA0 0 0 0x02)), .poll (pollFrame (peerFrame 0xA1 0 0 0x02)),
    .close 7, .poll (pollFrame (peerFrame 0xA0 1 101 0x10)), .openTcp]

/-- Without the SYN of the second peer and the call with an id that is not in use,
the first connection ends up the same. -/
theorem connection_isolation_two :
    (isolate 1 ⟨listeningStack, none⟩ twoPeers).length = 4 ∧
      (runLog machineStep ⟨listeningStack, none⟩
          (isolate 1 ⟨listeningStack, none⟩ twoPeers)).map (fun r => r.1) =
        (runLog machineStep ⟨listeningStack, none⟩ twoPeers).map fun r => r.1 := by
  refine ⟨by decide +kernel, ?_⟩
  have hsame := (connection_isolation 1 ⟨listeningStack, none⟩ twoPeers).1
  have hfirst := congrArg (Option.map Prod.fst) hsame
  simpa only [Option.map_map, Function.comp_def] using hfirst

/-- A call with another id than `k`, at any time. -/
def namesOther (k : Int) (_ : Machine) (e : AppEvent) : Bool :=
  match e.callId with
  | some id => decide (id ≠ k)
  | none => false

/-- The first peer connects, the application closes that connection, and the
second peer connects. -/
def afterClose : List AppEvent :=
  [.poll (pollFrame (peerFrame 0xA0 0 0 0x02)), .close 1,
    .poll (pollFrame (peerFrame 0xA1 0 0 0x02))]

/-- The `close_tcp` of the first connection's owner is what lets the second
connection open.  Without it the run ends with the first one. -/
theorem owner_close :
    (runLog machineStep ⟨listeningStack, none⟩ afterClose).map
        (fun r => (decide (OpenAs 2 r.1.stack), r.1.stack.tcpConn.connectionId)) =
          some (true, 2) ∧
      (runLog machineStep ⟨listeningStack, none⟩
        (purge machineStep (namesOther 2) (isolateEvent 2) ⟨listeningStack, none⟩
          afterClose)).map
        (fun r => (decide (OpenAs 2 r.1.stack), r.1.stack.tcpConn.connectionId)) =
          some (false, 1) := by
  constructor
  · decide +kernel
  · decide +kernel

end EthTransfer
