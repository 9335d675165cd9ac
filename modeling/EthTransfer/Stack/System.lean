import EthTransfer.Stack.Connection
import EthTransfer.Stack.Frame

/-!
# The stack as a machine

`ip_stack_poll` and the calls of the application, one event after the other.
The program has one thread, so the only thing that interrupts a call is the
`ip_stack_poll` in the loop of `write_tcp`.  `Machine` is the stack together
with the `write_tcp` call that has not returned, and `machineStep` is one event:
a call, or an `ip_stack_poll` of the application or of that loop.

What the outside world answers is part of an event: the frames that `get_packet`
delivers and the memory behind them, `rand`, the clock, and the memory that the
source does not clear.  The pauses of `usleep` show in the clock only.

`MachineSteps` lists what an event can do, and `ipStackPoll_invariant` says that
polling keeps what handling one frame and one call of `send_tcp_packet` keep.
-/

namespace EthTransfer

/-! ## The clock -/

/-- What `clock_gettime` answers. -/
structure Timespec where
  sec : Int
  nsec : Int

/-- `get_now`.  A `long` of 32 bits holds the milliseconds of 24 days; later readings, which
overflow it, are none of the model's. -/
def getNow (s : Stack) (time : Timespec) : Stack × Int :=
  let now := time.sec * 1000 + time.sec.tdiv 1000000
  let s := if s.baseTimeSet then s else { s with baseTime := now, baseTimeSet := true }
  (s, now - s.baseTime)

/-! ## Polling -/

/-- The answers for one call of `send_tcp_packet`: the clock in `check_timeout`
and when the timer is armed, and the memory of the fresh packet. -/
structure SendInput where
  checked : Timespec
  armed : Timespec
  scratch : Bytes

/-- The clock in the first line of `send_tcp_packet` that asks it: `&&` and
`check_timeout` do so only when they need to. -/
def Stack.checkNow (s : Stack) (time : Timespec) : Stack × Int :=
  if s.tcpConn.txAcked < s.tcpConn.txSent ∧ s.tcpConn.ackTimeout ≠ -1 then getNow s time
  else (s, 0)

/-- `send_tcp_packet` on the stack.  The third component is its return value. -/
def Stack.sendTcpPacket (s : Stack) (input : SendInput) : Stack × List TxFrame × Bool :=
  if s.tcpConn.state = .listen then (s, [], false)
  else
    let checked := s.checkNow input.checked
    if sendDue s.tcpConn || timedOut s.tcpConn checked.2 then
      let armed := getNow checked.1 input.armed
      let result := EthTransfer.sendTcpPacket s.tcpConn ⟨checked.2, armed.2⟩ input.scratch
      ({ armed.1 with
          tcpConn := result.conn
          identificationCounter := s.identificationCounter + 1 },
        result.sent.toList.map (.tcp s.identificationCounter), result.ret)
    else (checked.1, [], false)

/-- The first loop of `ip_stack_poll`, with `n` calls of `handle_rx_packet`
left. -/
def receiveLoop : (n : ℕ) → Stack → List RxFrame → Option (Stack × List TxFrame)
  | 0, s, _ => some (s, [])
  -- `get_packet` has nothing more
  | _ + 1, s, [] => some (s, [])
  | n + 1, s, frame :: rest =>
    (handleRxPacket s frame).bind fun (s', frames) =>
      (receiveLoop n s' rest).map fun (s'', later) => (s'', frames ++ later)

/-- The second loop of `ip_stack_poll`, with `n` calls of `send_tcp_packet` left,
the next one with the answers `inputs i`. -/
def sendLoop (inputs : ℕ → SendInput) : (n i : ℕ) → Stack → Stack × List TxFrame
  | 0, _, s => (s, [])
  | n + 1, i, s =>
    let (s', frames, more) := s.sendTcpPacket (inputs i)
    if more then
      let (s'', later) := sendLoop inputs n (i + 1) s'
      (s'', frames ++ later)
    else (s', frames)

/-- How often each loop of `ip_stack_poll` makes its call at most: `i` counts
from 10 down to -1. -/
def POLL_CALLS : ℕ := 12

/-- The answers for one call of `ip_stack_poll`. -/
structure Poll where
  frames : List RxFrame
  sends : ℕ → SendInput
  frames_le : frames.length ≤ POLL_CALLS

/-- `ip_stack_poll`: the stack and the frames sent.  It may not return, when a
frame is handled without end. -/
def ipStackPoll (s : Stack) (poll : Poll) : Option (Stack × List TxFrame) :=
  (receiveLoop POLL_CALLS s poll.frames).map fun (s', frames) =>
    let (s'', later) := sendLoop poll.sends POLL_CALLS 0 s'
    (s'', frames ++ later)

/-! ## The application -/

/-- A `write_tcp` call that has not returned: its id, the memory at
`buffer + off`, `len` and `written`. -/
structure Writing where
  connectionId : Int
  data : Bytes
  len : Int
  written : Int

/-- The stack, and the `write_tcp` call that is under way. -/
structure Machine where
  stack : Stack
  writing : Option Writing := none

/-- A call of the application, or one `ip_stack_poll`. -/
inductive AppEvent where
  | poll (poll : Poll)
  | openTcp
  | read (connectionId : Int) (data : Bytes) (off len : Int)
  | write (connectionId : Int) (data : Bytes) (len : Int)
  | shutdown (connectionId : Int)
  | close (connectionId : Int)

/-- What an event shows: the frames sent, the value of a call that returns one,
and the memory at `buffer + off` after `read_tcp`. -/
structure AppResult where
  frames : List TxFrame := []
  ret : Option Int := none
  data : Option Bytes := none

/-- The first half of a round of the loop of `write_tcp`. -/
def writeStep (s : Stack) (w : Writing) : Stack × Writing :=
  let (c, n) := writeRound s.tcpConn w.data w.len
  ({ s with tcpConn := c },
    { w with
      data := fun i => w.data (n.toNat + i)
      len := w.len - n
      written := w.written + n })

/-- One event.  A call while another has not returned does not happen. -/
def machineStep (m : Machine) (e : AppEvent) : Option (Machine × AppResult) :=
  match m.writing, e with
  | none, .poll poll =>
    (ipStackPoll m.stack poll).map fun (s, frames) => ({ stack := s }, { frames := frames })
  | some w, .poll poll =>
    let (s, w) := writeStep m.stack w
    (ipStackPoll s poll).map fun (s', frames) =>
      if w.len > 0 then ({ stack := s', writing := some w }, { frames := frames })
      else ({ stack := s' }, { frames := frames, ret := some w.written })
  | none, .openTcp => some (m, { ret := some (openTcp m.stack.tcpConn) })
  | none, .read id data off len =>
    let result := readTcp m.stack.tcpConn id data off len
    some ({ stack := { m.stack with tcpConn := result.conn } },
      { ret := some result.ret, data := some result.data })
  | none, .write id data len =>
    if m.stack.tcpConn.state = .listen ∨ m.stack.tcpConn.connectionId ≠ id then
      some (m, { ret := some (-1) })
    else if len > 0 then some ({ m with writing := some ⟨id, data, len, 0⟩ }, {})
    else some (m, { ret := some 0 })
  | none, .shutdown id =>
    let (c, ret) := shutdownTcp m.stack.tcpConn id
    some ({ stack := { m.stack with tcpConn := c } }, { ret := ret })
  | none, .close id =>
    some ({ stack := { m.stack with tcpConn := closeTcp m.stack.tcpConn id } }, {})
  | some _, _ => none

/-! ## What an event can do -/

/-- The connection `k` is open. -/
def OpenAs (k : Int) (s : Stack) : Prop :=
  s.tcpConn.state ≠ .listen ∧ s.tcpConn.connectionId = k

instance (k : Int) (s : Stack) : Decidable (OpenAs k s) :=
  inferInstanceAs (Decidable (_ ∧ _))

/-- What an event can do to the machine. -/
inductive MachineSteps (m : Machine) : AppEvent → Machine → AppResult → Prop where
  /-- The application polls. -/
  | poll {poll : Poll} {s : Stack} {frames : List TxFrame} (hidle : m.writing = none)
      (hpoll : ipStackPoll m.stack poll = some (s, frames)) :
      MachineSteps m (.poll poll) { stack := s } { frames := frames }
  /-- A round of the loop of `write_tcp`, after which the call may return. -/
  | round {w : Writing} {poll : Poll} {s : Stack} {frames : List TxFrame}
      {writing : Option Writing} {ret : Option Int} (hwriting : m.writing = some w)
      (hpoll : ipStackPoll (writeStep m.stack w).1 poll = some (s, frames))
      (hnext : writing = none ∨ writing = some (writeStep m.stack w).2) :
      MachineSteps m (.poll poll) { stack := s, writing := writing }
        { frames := frames, ret := ret }
  /-- `write_tcp` enters its loop. -/
  | began {id : Int} {data : Bytes} {len : Int} (hopen : OpenAs id m.stack) :
      MachineSteps m (.write id data len) { m with writing := some ⟨id, data, len, 0⟩ } {}
  /-- A call that leaves the stack alone. -/
  | answered {e : AppEvent} (ret : Int) : MachineSteps m e m { ret := some ret }
  /-- A call that acts on the connection, and does nothing while none is open. -/
  | called {e : AppEvent} {c : TcpConnection} {result : AppResult} (action : ConnEvent)
      (hconn : c = (connStep m.stack.ipAddr m.stack.tcpConn action).1)
      (hsent : (connStep m.stack.ipAddr m.stack.tcpConn action).2.sent = none)
      (hclosed : m.stack.tcpConn.state = .listen → c = m.stack.tcpConn)
      (hframes : result.frames = []) :
      MachineSteps m e { stack := { m.stack with tcpConn := c } } result

theorem machineStep_steps {m m' : Machine} {e : AppEvent} {result : AppResult}
    (hstep : machineStep m e = some (m', result)) : MachineSteps m e m' result := by
  unfold machineStep at hstep
  cases hwriting : m.writing with
  | none =>
    rw [hwriting] at hstep
    cases e with
    | poll poll =>
      obtain ⟨⟨s, frames⟩, hpoll, heq⟩ := Option.map_eq_some_iff.mp hstep
      obtain ⟨rfl, rfl⟩ := Prod.mk.inj heq
      exact .poll hwriting hpoll
    | openTcp =>
      obtain ⟨rfl, rfl⟩ := Prod.mk.inj (Option.some.inj hstep)
      exact .answered _
    | read id data off len =>
      obtain ⟨rfl, rfl⟩ := Prod.mk.inj (Option.some.inj hstep)
      refine .called (.read id data off len) rfl rfl (fun hlisten => ?_) rfl
      exact congrArg ReadResult.conn (readTcp_refused (Or.inl hlisten) data off len)
    | write id data len =>
      dsimp only at hstep
      split_ifs at hstep with hrefused hlen
      · obtain ⟨rfl, rfl⟩ := Prod.mk.inj (Option.some.inj hstep)
        exact .answered _
      · obtain ⟨rfl, rfl⟩ := Prod.mk.inj (Option.some.inj hstep)
        exact .began ⟨fun h => hrefused (Or.inl h), not_not.mp fun h => hrefused (Or.inr h)⟩
      · obtain ⟨rfl, rfl⟩ := Prod.mk.inj (Option.some.inj hstep)
        exact .answered _
    | shutdown id =>
      obtain ⟨rfl, rfl⟩ := Prod.mk.inj (Option.some.inj hstep)
      refine .called (.shutdown id) rfl rfl (fun hlisten => ?_) rfl
      exact congrArg Prod.fst (shutdownTcp_refused (Or.inl hlisten))
    | close id =>
      obtain ⟨rfl, rfl⟩ := Prod.mk.inj (Option.some.inj hstep)
      exact .called (.close id) rfl rfl (fun hlisten => closeTcp_refused (Or.inl hlisten)) rfl
  | some w =>
    rw [hwriting] at hstep
    cases e with
    | poll poll =>
      obtain ⟨⟨s, frames⟩, hpoll, heq⟩ := Option.map_eq_some_iff.mp hstep
      dsimp only at heq
      split at heq
      · obtain ⟨rfl, rfl⟩ := Prod.mk.inj heq
        exact .round hwriting hpoll (Or.inr rfl)
      · obtain ⟨rfl, rfl⟩ := Prod.mk.inj heq
        exact .round hwriting hpoll (Or.inl rfl)
    | _ => cases hstep

/-! ## Invariants of polling -/

section Invariant

variable (inv : Stack → List TxFrame → Prop)
  (hreceive : ∀ {s frames frame s' later}, inv s frames →
    handleRxPacket s frame = some (s', later) → inv s' (frames ++ later))
  (hsend : ∀ {s frames} (input : SendInput), inv s frames →
    inv (s.sendTcpPacket input).1 (frames ++ (s.sendTcpPacket input).2.1))

include hreceive in
theorem receiveLoop_invariant {n : ℕ} {s s' : Stack} {frames later : List TxFrame}
    {received : List RxFrame} (hinv : inv s frames)
    (hstep : receiveLoop n s received = some (s', later)) : inv s' (frames ++ later) := by
  induction n generalizing s frames received later with
  | zero =>
    obtain ⟨rfl, rfl⟩ := Prod.mk.inj (Option.some.inj hstep)
    rwa [List.append_nil]
  | succ n ih =>
    cases received with
    | nil =>
      obtain ⟨rfl, rfl⟩ := Prod.mk.inj (Option.some.inj hstep)
      rwa [List.append_nil]
    | cons frame rest =>
      obtain ⟨⟨s₁, sent⟩, hframe, hrest⟩ := Option.bind_eq_some_iff.mp hstep
      obtain ⟨⟨s₂, sent'⟩, hloop, heq⟩ := Option.map_eq_some_iff.mp hrest
      obtain ⟨rfl, rfl⟩ := Prod.mk.inj heq
      rw [← List.append_assoc]
      exact ih (hreceive hinv hframe) hloop

include hsend in
theorem sendLoop_invariant {s : Stack} {frames : List TxFrame} (hinv : inv s frames)
    (inputs : ℕ → SendInput) (n i : ℕ) :
    inv (sendLoop inputs n i s).1 (frames ++ (sendLoop inputs n i s).2) := by
  induction n generalizing s frames i with
  | zero =>
    show inv s (frames ++ [])
    rwa [List.append_nil]
  | succ n ih =>
    have hsent := hsend (inputs i) hinv
    rw [sendLoop]
    rcases hresult : s.sendTcpPacket (inputs i) with ⟨s₁, sent, more⟩
    rw [hresult] at hsent
    cases more with
    | true =>
      dsimp only
      rw [if_pos rfl, ← List.append_assoc]
      exact ih hsent (i + 1)
    | false => exact hsent

include hreceive hsend in
/-- A property of the stack and of the frames sent that handling one frame and
one call of `send_tcp_packet` keep is kept by `ip_stack_poll`. -/
theorem ipStackPoll_invariant {s s' : Stack} (frames : List TxFrame) {later : List TxFrame}
    {poll : Poll} (hinv : inv s frames) (hstep : ipStackPoll s poll = some (s', later)) :
    inv s' (frames ++ later) := by
  obtain ⟨⟨s₁, sent⟩, hloop, heq⟩ := Option.map_eq_some_iff.mp hstep
  obtain ⟨rfl, rfl⟩ := Prod.mk.inj heq
  rw [← List.append_assoc]
  exact sendLoop_invariant inv hsend (receiveLoop_invariant inv hreceive hinv hloop) poll.sends
    POLL_CALLS 0

end Invariant

end EthTransfer
