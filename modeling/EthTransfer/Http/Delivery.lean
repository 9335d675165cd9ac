import EthTransfer.Http.Exchange
import EthTransfer.Http.Release
import EthTransfer.Stack.Refinement

/-!
# The exchanges of a session

`main` on the whole stack (`SessionRun`) answers what a single connection says to it
(`ExchangeRun`): every answer of a session ends an exchange that begins with a SYN of the
session, and whose events are what the session has done since (`session_exchanged`).  What
`Http.Exchange` says about one connection so holds for each connection of a session, with
anything before it, and whatever other hosts send.

`sessionLog` is what a session does, frame by frame and call by call.  `Pending` and `Kept`
are the invariant.  A connection that `main` does not know yet has only
received and sent, so an exchange with any variables of `main` leads to it; the connection of
`main` is in one exchange with it.  Connection ids count up, so the id of a connection that is
gone never comes back.
-/

namespace EthTransfer

open GuardedRun

/-! ## The log of a poll -/

/-- What a session does that can concern the request of a connection: a frame is handled,
`send_tcp_packet` gets past its tests, `main` reads from its connection and goes on. -/
inductive SessionEvent where
  | frame (frame : RxFrame)
  | send (clock : Clock) (scratch : Bytes)
  | turn (user : User)

/-- A call of `send_tcp_packet`. -/
def Stack.sendEvents (s : Stack) (input : SendInput) : List SessionEvent :=
  if s.tcpConn.state = .listen then []
  else
    let checked := s.checkNow input.checked
    if sendDue s.tcpConn || timedOut s.tcpConn checked.2 then
      [.send ⟨checked.2, (getNow checked.1 input.armed).2⟩ input.scratch]
    else []

/-- The second loop of `ip_stack_poll`. -/
def sendLoopEvents (inputs : ℕ → SendInput) : (n i : ℕ) → Stack → List SessionEvent
  | 0, _, _ => []
  | n + 1, i, s =>
    let (s', _, more) := s.sendTcpPacket (inputs i)
    s.sendEvents (inputs i) ++ if more then sendLoopEvents inputs n (i + 1) s' else []

/-- `ip_stack_poll`. -/
def pollEvents (s : Stack) (poll : Poll) : List SessionEvent :=
  poll.frames.map .frame ++
    match receiveLoop POLL_CALLS s poll.frames with
    | some (s', _) => sendLoopEvents poll.sends POLL_CALLS 0 s'
    | none => []

section Poll

variable (inv : Stack → List SessionEvent → Prop)
  (hreceive : ∀ {s seen frame s' later}, inv s seen →
    handleRxPacket s frame = some (s', later) → inv s' (seen ++ [.frame frame]))
  (hsend : ∀ {s seen} (input : SendInput), inv s seen →
    inv (s.sendTcpPacket input).1 (seen ++ s.sendEvents input))

include hreceive in
theorem receiveLoop_events {n : ℕ} {s s' : Stack} {seen : List SessionEvent}
    {received : List RxFrame} {later : List TxFrame} (hinv : inv s seen)
    (hlength : received.length ≤ n) (hstep : receiveLoop n s received = some (s', later)) :
    inv s' (seen ++ received.map .frame) := by
  induction n generalizing s seen received later with
  | zero =>
    obtain rfl := List.length_eq_zero_iff.mp (Nat.le_zero.mp hlength)
    obtain ⟨rfl, -⟩ := Prod.mk.inj (Option.some.inj hstep)
    simpa using hinv
  | succ n ih =>
    cases received with
    | nil =>
      obtain ⟨rfl, -⟩ := Prod.mk.inj (Option.some.inj hstep)
      simpa using hinv
    | cons frame rest =>
      obtain ⟨⟨s₁, sent⟩, hframe, hrest⟩ := Option.bind_eq_some_iff.mp hstep
      obtain ⟨⟨s₂, sent'⟩, hloop, heq⟩ := Option.map_eq_some_iff.mp hrest
      obtain ⟨rfl, -⟩ := Prod.mk.inj heq
      simpa using ih (hreceive hinv hframe) (Nat.le_of_succ_le_succ hlength) hloop

include hsend in
theorem sendLoop_events {s : Stack} {seen : List SessionEvent} (hinv : inv s seen)
    (inputs : ℕ → SendInput) (n i : ℕ) :
    inv (sendLoop inputs n i s).1 (seen ++ sendLoopEvents inputs n i s) := by
  induction n generalizing s seen i with
  | zero => simpa [sendLoop, sendLoopEvents] using hinv
  | succ n ih =>
    have hsent := hsend (inputs i) hinv
    rw [sendLoop, sendLoopEvents]
    rcases hresult : s.sendTcpPacket (inputs i) with ⟨s₁, sent, more⟩
    rw [hresult] at hsent
    cases more with
    | true => simpa using ih hsent (i + 1)
    | false => simpa using hsent

include hreceive hsend in
/-- A property of the stack and of the log, which handling one frame and one call of
`send_tcp_packet` keep, is kept by `ip_stack_poll`. -/
theorem ipStackPoll_events {s s' : Stack} {seen : List SessionEvent} {later : List TxFrame}
    {poll : Poll} (hinv : inv s seen) (hstep : ipStackPoll s poll = some (s', later)) :
    inv s' (seen ++ pollEvents s poll) := by
  obtain ⟨⟨s₁, sent⟩, hloop, heq⟩ := Option.map_eq_some_iff.mp hstep
  obtain ⟨rfl, -⟩ := Prod.mk.inj heq
  have hreceived := receiveLoop_events inv hreceive hinv poll.frames_le hloop
  rw [pollEvents, hloop, ← List.append_assoc]
  exact sendLoop_events inv hsend hreceived poll.sends POLL_CALLS 0

end Poll

/-! ## Connection ids -/

/-- The ids of the connections so far are below the next one. -/
structure Counted (s : Stack) : Prop where
  nonneg : 0 ≤ s.connectionCounter
  id : s.tcpConn.state ≠ .listen →
    0 ≤ s.tcpConn.connectionId ∧ s.tcpConn.connectionId < s.connectionCounter

/-- What handling one frame does to the connection. -/
inductive Handles (s : Stack) (frame : RxFrame) (s' : Stack) : Prop where
  /-- Nothing. -/
  | quiet (hconn : s'.tcpConn = s.tcpConn) (hcounter : s'.connectionCounter = s.connectionCounter)
      (htcp : s.tcpConn.state ≠ .listen → frame.tcpSegment = none)
  /-- A segment for the open connection. -/
  | segment (hopen : s.tcpConn.state ≠ .listen) (packet : TcpPacket)
      (htcp : frame.tcpSegment = some packet)
      (hconn : s'.tcpConn = (connStep s.ipAddr s.tcpConn (.receive packet)).1)
      (hcounter : s'.connectionCounter = s.connectionCounter)
  /-- A SYN opens a connection. -/
  | opened (packet : TcpPacket) (htcp : frame.tcpSegment = some packet)
      (hopens : Opens s packet s'.tcpConn)
      (hid : s'.tcpConn.connectionId = s.connectionCounter)
      (hcounter : s'.connectionCounter = s.connectionCounter + 1)

variable {s s' : Stack} {frame : RxFrame} {later : List TxFrame}

theorem handleTcpPacket_handles {packet : TcpPacket} (htcp : frame.tcpSegment = some packet)
    (hstep : handleTcpPacket s packet frame.rand = some s') : Handles s frame s' := by
  by_cases hlisten : s.tcpConn.state = .listen
  · have hdropped (heq : some s = some s') : Handles s frame s' := by
      obtain rfl := Option.some.inj heq
      exact .quiet rfl rfl fun hopen => absurd hlisten hopen
    rcases handleTcpPacket_listen hlisten packet with hdrop | ⟨-, -, haccept⟩
    · exact hdropped ((hdrop frame.rand).symm.trans hstep)
    have haccepted := (haccept frame.rand).symm.trans hstep
    rcases acceptSyn_cases s packet with hhang | hdrop | ⟨-, windowScale, maxSegment, -, hopen⟩
    · rw [hhang] at haccepted
      cases haccepted
    · exact hdropped ((hdrop frame.rand).symm.trans haccepted)
    · rw [hopen] at haccepted
      obtain rfl := Option.some.inj haccepted
      exact .opened packet htcp ⟨hlisten, ⟨frame.rand, _, hstep, rfl⟩, by simp [openConnection]⟩
        rfl rfl
  · rw [handleTcpPacket_open hlisten] at hstep
    obtain rfl := Option.some.inj hstep
    exact .segment hlisten packet htcp rfl rfl

theorem handleRxPacket_handles (hstep : handleRxPacket s frame = some (s', later)) :
    Handles s frame s' ∧ s'.ipAddr = s.ipAddr := by
  cases htcp : frame.tcpSegment with
  | none =>
    obtain ⟨hconn, hip, hcounter, -⟩ := handleRxPacket_of_not_tcp htcp hstep
    exact ⟨.quiet hconn hcounter fun _ => htcp, hip⟩
  | some packet =>
    rw [handleRxPacket_of_tcp htcp] at hstep
    obtain ⟨s₁, htcpStep, heq⟩ := Option.map_eq_some_iff.mp hstep
    obtain ⟨rfl, -⟩ := Prod.mk.inj heq
    exact ⟨handleTcpPacket_handles htcp htcpStep, handleTcpPacket_ipAddr htcpStep⟩

/-- What `send_tcp_packet` does to the connection. -/
theorem sendTcpPacket_conn (s : Stack) (input : SendInput) :
    (s.sendTcpPacket input).1.ipAddr = s.ipAddr ∧
      (s.sendTcpPacket input).1.connectionCounter = s.connectionCounter ∧
      ((s.sendTcpPacket input).1.tcpConn = s.tcpConn ∧ s.sendEvents input = [] ∨
        s.tcpConn.state ≠ .listen ∧ ∃ clock scratch, s.sendEvents input = [.send clock scratch] ∧
          (s.sendTcpPacket input).1.tcpConn =
            (connStep s.ipAddr s.tcpConn (.send clock scratch)).1) := by
  obtain ⟨hconn, hip⟩ := checkNow_conn s input.checked
  have hnow (s : Stack) (time : Timespec) :
      (getNow s time).1.connectionCounter = s.connectionCounter := by
    unfold getNow
    dsimp only
    split <;> rfl
  have hcounter : (s.checkNow input.checked).1.connectionCounter = s.connectionCounter := by
    unfold Stack.checkNow
    split
    · exact hnow s input.checked
    · rfl
  unfold Stack.sendTcpPacket Stack.sendEvents
  dsimp only
  split
  · exact ⟨rfl, rfl, .inl ⟨rfl, rfl⟩⟩
  · rename_i hopen
    split
    · exact ⟨(getNow_conn _ _).2.trans hip, (hnow _ _).trans hcounter,
        .inr ⟨hopen, ⟨_, _⟩, input.scratch, rfl, rfl⟩⟩
    · exact ⟨hip, hcounter, .inl ⟨hconn, rfl⟩⟩

/-! ## Exchanges -/

/-- What an event of a session is for the exchange that goes on. -/
def SessionEvent.exchange : SessionEvent → Option ExchangeEvent
  | .frame frame => frame.tcpSegment.map .receive
  | .send clock scratch => some (.send clock scratch)
  | .turn user => some (.turn user)

variable {cfg : Config} {seen : List SessionEvent} {k : Int} {server : Server}

/-- The end of a session's log is the exchange `h` from `v₀` to `v`: it begins with a SYN in
the log, and its events are those behind it. -/
structure Exchanges (cfg : Config) (ipAddr : UInt32) (log : List SessionEvent) (v₀ : Exchange)
    (h : ExchangeHistory) (v : Exchange) : Prop where
  opens : ∃ s₀ syn earlier frame later, Opens s₀ syn v₀.conn ∧ s₀.ipAddr = ipAddr ∧
    log = earlier ++ .frame frame :: later ∧ frame.tcpSegment = some syn ∧
    h.map Prod.fst = later.filterMap SessionEvent.exchange
  opening : Opening cfg v₀.server
  run : ExchangeRun cfg ipAddr anyEvent v₀ h v
  undecided : Undecided h

/-- An exchange leads to the connection and to `main`. -/
def Serves (cfg : Config) (ipAddr : UInt32) (seen : List SessionEvent) (v : Exchange) : Prop :=
  ∃ v₀ h, Exchanges cfg ipAddr seen v₀ h v

/-- A SYN begins an exchange. -/
theorem Serves.start {syn : TcpPacket} (hopens : Opens s syn s'.tcpConn)
    (htcp : frame.tcpSegment = some syn) (hopening : Opening cfg server) :
    Serves cfg s.ipAddr (seen ++ [.frame frame]) ⟨s'.tcpConn, server⟩ :=
  ⟨⟨s'.tcpConn, server⟩, [], ⟨s, syn, seen, frame, [], hopens, rfl, rfl, htcp, rfl⟩, hopening,
    .start, by simp [Undecided]⟩

variable {ipAddr : UInt32} {v : Exchange}

/-- A frame without a TCP segment. -/
theorem Serves.skip (hserves : Serves cfg ipAddr seen v) (htcp : frame.tcpSegment = none) :
    Serves cfg ipAddr (seen ++ [.frame frame]) v := by
  obtain ⟨v₀, h, ⟨s₀, syn, earlier, first, later, hopens, hip, rfl, hsyn, hevents⟩, hopening, hrun,
    hundecided⟩ := hserves
  refine ⟨v₀, h, ⟨s₀, syn, earlier, first, later ++ [.frame frame], hopens, hip, by simp, hsyn,
    ?_⟩, hopening, hrun, hundecided⟩
  simp [hevents, SessionEvent.exchange, htcp]

theorem Undecided.append {h : ExchangeHistory} {e : ExchangeEvent} {o : ExchangeOutput}
    (hundecided : Undecided h) (hlast : ∀ turn ∈ o.turn, turn.result = none) :
    Undecided (h ++ [(e, o)]) := by
  intro x hx
  rcases List.mem_append.mp hx with hx | hx
  · exact hundecided x hx
  · obtain rfl := List.mem_singleton.mp hx
    exact hlast

/-- An event of the exchange. -/
theorem Serves.next (hserves : Serves cfg ipAddr seen v) {x : SessionEvent} {e : ExchangeEvent}
    (hevent : x.exchange = some e) (hgoes : ∀ h, Undecided h → Goes anyEvent h v e)
    (hwaits : ∀ turn ∈ (exchangeStep cfg ipAddr v e).2.turn, turn.result = none) :
    Serves cfg ipAddr (seen ++ [x]) (exchangeStep cfg ipAddr v e).1 := by
  obtain ⟨v₀, h, ⟨s₀, syn, earlier, first, later, hopens, hip, rfl, hsyn, hevents⟩, hopening, hrun,
    hundecided⟩ := hserves
  refine ⟨v₀, _, ⟨s₀, syn, earlier, first, later ++ [x], hopens, hip, by simp, hsyn, ?_⟩, hopening,
    hrun.next (hgoes h hundecided), hundecided.append hwaits⟩
  simp [hevents, hevent]

/-- A TCP segment for the connection. -/
theorem Serves.receive (hserves : Serves cfg ipAddr seen v) (hopen : v.conn.state ≠ .listen)
    {packet : TcpPacket} (htcp : frame.tcpSegment = some packet) :
    Serves cfg ipAddr (seen ++ [.frame frame])
      { v with conn := (connStep ipAddr v.conn (.receive packet)).1 } :=
  hserves.next (by simp [SessionEvent.exchange, htcp])
    (fun _ hundecided => .receive hopen hundecided trivial) (by simp [exchangeStep])

/-- A call of `send_tcp_packet`. -/
theorem Serves.send (hserves : Serves cfg ipAddr seen v) (hopen : v.conn.state ≠ .listen)
    (clock : Clock) (scratch : Bytes) :
    Serves cfg ipAddr (seen ++ [.send clock scratch])
      { v with conn := (connStep ipAddr v.conn (.send clock scratch)).1 } :=
  hserves.next rfl (fun _ hundecided => .send hopen hundecided trivial) (by simp [exchangeStep])

/-- A turn of `main` that waits. -/
theorem Serves.turn (hserves : Serves cfg ipAddr seen v) (hopen : v.conn.state ≠ .listen)
    (user : User) (hwaits : ∀ turn ∈ (exchangeStep cfg ipAddr v (.turn user)).2.turn,
      turn.result = none) :
    Serves cfg ipAddr (seen ++ [.turn user]) (exchangeStep cfg ipAddr v (.turn user)).1 :=
  hserves.next rfl (fun _ hundecided => .turn hopen hundecided user) hwaits

/-! ## The invariant -/

/-- A connection other than `k` is one that `main` does not know. -/
structure Pending (cfg : Config) (k : Int) (seen : List SessionEvent) (s : Stack) :
    Prop where
  counted : Counted s
  lt : k < s.connectionCounter
  fresh : s.tcpConn.state ≠ .listen → s.tcpConn.connectionId ≠ k →
    ∀ server, Opening cfg server → Serves cfg s.ipAddr seen ⟨s.tcpConn, server⟩

/-- The connection of `main` is in an exchange with it. -/
structure Kept (cfg : Config) (server : Server) (seen : List SessionEvent) (s : Stack) :
    Prop where
  pending : Pending cfg server.connectionId seen s
  serves : OpenAs server.connectionId s → Serves cfg s.ipAddr seen ⟨s.tcpConn, server⟩

theorem connStep_sameConnection (ipAddr : UInt32) {c : TcpConnection} (hopen : c.state ≠ .listen)
    (e : ConnEvent) : SameConnection c (connStep ipAddr c e).1 :=
  (connStep_steps hopen e).sameConnection

theorem Counted.congr (hcounted : Counted s) (hconn : s'.tcpConn = s.tcpConn)
    (hcounter : s'.connectionCounter = s.connectionCounter) : Counted s' := by
  refine ⟨?_, ?_⟩
  · rw [hcounter]
    exact hcounted.nonneg
  · rw [hconn, hcounter]
    exact hcounted.id

/-- An event of the open connection keeps its id. -/
theorem Counted.event (hcounted : Counted s) (hopen : s.tcpConn.state ≠ .listen) {e : ConnEvent}
    (hconn : s'.tcpConn = (connStep s.ipAddr s.tcpConn e).1)
    (hcounter : s'.connectionCounter = s.connectionCounter) : Counted s' := by
  have hsame := connStep_sameConnection s.ipAddr hopen e
  refine ⟨?_, fun _ => ?_⟩
  · rw [hcounter]
    exact hcounted.nonneg
  · rw [hconn, hsame.connectionId, hcounter]
    exact hcounted.id hopen

/-- Handling a frame. -/
theorem Pending.handleRxPacket (hpending : Pending cfg k seen s)
    (hstep : handleRxPacket s frame = some (s', later)) :
    Pending cfg k (seen ++ [.frame frame]) s' := by
  obtain ⟨hhandles, hip⟩ := handleRxPacket_handles hstep
  have hlt := hpending.lt
  have hnonneg := hpending.counted.nonneg
  cases hhandles with
  | quiet hconn hcounter htcp =>
    refine ⟨hpending.counted.congr hconn hcounter, by rwa [hcounter], fun hopen hid server h => ?_⟩
    rw [hconn] at hopen hid ⊢
    rw [hip]
    exact (hpending.fresh hopen hid server h).skip (htcp hopen)
  | segment hopen packet htcp hconn hcounter =>
    refine ⟨hpending.counted.event hopen hconn hcounter, by rwa [hcounter],
      fun _ hid server h => ?_⟩
    have hsame := connStep_sameConnection s.ipAddr hopen (.receive packet)
    rw [hconn, hsame.connectionId] at hid
    rw [hip, hconn]
    exact (hpending.fresh hopen hid server h).receive hopen htcp
  | opened packet htcp hopens hid hcounter =>
    refine ⟨⟨by omega, fun _ => by omega⟩, by omega, fun _ _ server h => ?_⟩
    rw [hip]
    exact .start hopens htcp h

/-- A call of `send_tcp_packet`. -/
theorem Pending.sendTcpPacket (hpending : Pending cfg k seen s) (input : SendInput) :
    Pending cfg k (seen ++ s.sendEvents input) (s.sendTcpPacket input).1 := by
  obtain ⟨hip, hcounter, ⟨hconn, hevents⟩ | ⟨hopen, clock, scratch, hevents, hconn⟩⟩ :=
    sendTcpPacket_conn s input
  · refine ⟨hpending.counted.congr hconn hcounter, by rw [hcounter]; exact hpending.lt, ?_⟩
    rw [hconn, hip, hevents, List.append_nil]
    exact hpending.fresh
  · refine ⟨hpending.counted.event hopen hconn hcounter, by rw [hcounter]; exact hpending.lt,
      fun _ hid server h => ?_⟩
    have hsame := connStep_sameConnection s.ipAddr hopen (.send clock scratch)
    rw [hconn, hsame.connectionId] at hid
    rw [hip, hconn, hevents]
    exact (hpending.fresh hopen hid server h).send hopen clock scratch

theorem Kept.handleRxPacket (hkept : Kept cfg server seen s)
    (hstep : handleRxPacket s frame = some (s', later)) :
    Kept cfg server (seen ++ [.frame frame]) s' := by
  refine ⟨hkept.pending.handleRxPacket hstep, fun hopenAs => ?_⟩
  obtain ⟨hhandles, hip⟩ := handleRxPacket_handles hstep
  have hlt := hkept.pending.lt
  cases hhandles with
  | quiet hconn hcounter htcp =>
    unfold OpenAs at hopenAs
    rw [hconn] at hopenAs ⊢
    rw [hip]
    exact (hkept.serves hopenAs).skip (htcp hopenAs.1)
  | segment hopen packet htcp hconn hcounter =>
    have hsame := connStep_sameConnection s.ipAddr hopen (.receive packet)
    have hid := hopenAs.2
    rw [hconn, hsame.connectionId] at hid
    rw [hip, hconn]
    exact (hkept.serves ⟨hopen, hid⟩).receive hopen htcp
  | opened packet htcp hopens hid hcounter =>
    have hold := hopenAs.2
    omega

theorem Kept.sendTcpPacket (hkept : Kept cfg server seen s) (input : SendInput) :
    Kept cfg server (seen ++ s.sendEvents input) (s.sendTcpPacket input).1 := by
  refine ⟨hkept.pending.sendTcpPacket input, fun hopenAs => ?_⟩
  obtain ⟨hip, hcounter, ⟨hconn, hevents⟩ | ⟨hopen, clock, scratch, hevents, hconn⟩⟩ :=
    sendTcpPacket_conn s input
  · unfold OpenAs at hopenAs
    rw [hconn] at hopenAs ⊢
    rw [hip, hevents, List.append_nil]
    exact hkept.serves hopenAs
  · have hsame := connStep_sameConnection s.ipAddr hopen (.send clock scratch)
    have hid := hopenAs.2
    rw [hconn, hsame.connectionId] at hid
    rw [hip, hconn, hevents]
    exact (hkept.serves ⟨hopen, hid⟩).send hopen clock scratch

theorem Pending.ipStackPoll (hpending : Pending cfg k seen s) {poll : Poll}
    (hstep : ipStackPoll s poll = some (s', later)) :
    Pending cfg k (seen ++ pollEvents s poll) s' :=
  ipStackPoll_events (fun s seen => Pending cfg k seen s) (fun h => h.handleRxPacket)
    (fun input h => h.sendTcpPacket input) hpending hstep

theorem Kept.ipStackPoll (hkept : Kept cfg server seen s) {poll : Poll}
    (hstep : ipStackPoll s poll = some (s', later)) :
    Kept cfg server (seen ++ pollEvents s poll) s' :=
  ipStackPoll_events (fun s seen => Kept cfg server seen s) (fun h => h.handleRxPacket)
    (fun input h => h.sendTcpPacket input) hkept hstep

/-! ## Answers -/

/-- A call of the application adds to the log what its poll does. -/
def Machine.events (m : Machine) : AppEvent → List SessionEvent
  | .poll poll =>
    match m.writing with
    | some w => pollEvents (writeStep m.stack w).1 poll
    | none => pollEvents m.stack poll
  | _ => []

/-- What an answer adds to the log. -/
def Machine.playEvents (m : Machine) : List AppEvent → List SessionEvent
  | [] => []
  | e :: rest =>
    m.events e ++
      match machineStep m e with
      | some (m', _) => m'.playEvents rest
      | none => []

/-- A `write_tcp` call writes to the connection `k`. -/
def WritesTo (k : Int) (m : Machine) : Prop :=
  ∀ w, m.writing = some w → w.connectionId = k ∧ OpenAs k m.stack

/-- An event of the connection `k` concerns no other. -/
theorem Pending.event (hpending : Pending cfg k seen s) (hopen : OpenAs k s) {e : ConnEvent}
    {c : TcpConnection} (hconn : c = (connStep s.ipAddr s.tcpConn e).1)
    (seen' : List SessionEvent) : Pending cfg k seen' { s with tcpConn := c } := by
  have hsame := connStep_sameConnection s.ipAddr hopen.1 e
  refine ⟨hpending.counted.event hopen.1 hconn rfl, hpending.lt, fun _ hid => absurd ?_ hid⟩
  rw [hconn, hsame.connectionId]
  exact hopen.2

theorem Pending.writeStep (hpending : Pending cfg k seen s) (hopen : OpenAs k s) (w : Writing) :
    Pending cfg k seen (writeStep s w).1 := by
  have hconn : (EthTransfer.writeStep s w).1.tcpConn =
      (connStep s.ipAddr s.tcpConn (.write s.tcpConn.connectionId w.data w.len)).1 := by
    simp [connStep, EthTransfer.writeStep]
  exact hpending.event hopen hconn seen

/-- An event of an answer. -/
def Answering (k : Int) (e : AppEvent) : Prop :=
  e.WritesTo k ∨ e.Drains k ∨ e = .shutdown k ∨ e = .close k

theorem Answering.cases {e : AppEvent} (hanswering : Answering k e) :
    (∃ poll, e = .poll poll) ∨ e.callId = some k := by
  rcases hanswering with hwrites | hdrains | rfl | rfl
  · cases e with
    | poll poll => exact .inl ⟨poll, rfl⟩
    | write => exact .inr (congrArg some hwrites)
    | _ => cases hwrites
  · cases e with
    | poll poll => exact .inl ⟨poll, rfl⟩
    | read => exact .inr (congrArg some hdrains.1)
    | _ => cases hdrains
  · exact .inr rfl
  · exact .inr rfl

variable {m m' : Machine} {e : AppEvent} {result : AppResult}

/-- A poll, also one in the loop of `write_tcp`. -/
theorem Pending.poll (hpending : Pending cfg k seen m.stack) (hwrites : WritesTo k m)
    {poll : Poll} (hstep : machineStep m (.poll poll) = some (m', result)) :
    Pending cfg k (seen ++ m.events (.poll poll)) m'.stack ∧ WritesTo k m' := by
  have hidle (s : Stack) : WritesTo k { stack := s } := fun w hw => by cases hw
  unfold machineStep at hstep
  unfold Machine.events
  cases hwriting : m.writing with
  | none =>
    rw [hwriting] at hstep
    obtain ⟨⟨s, frames⟩, hpoll, heq⟩ := Option.map_eq_some_iff.mp hstep
    obtain ⟨rfl, -⟩ := Prod.mk.inj heq
    exact ⟨hpending.ipStackPoll hpoll, hidle s⟩
  | some w =>
    obtain ⟨hid, hopen⟩ := hwrites w hwriting
    rw [hwriting] at hstep
    obtain ⟨⟨s, frames⟩, hpoll, heq⟩ := Option.map_eq_some_iff.mp hstep
    have hafter := (hpending.writeStep hopen w).ipStackPoll hpoll
    have hopen' := (hopen.writeStep w).ipStackPoll hpoll
    dsimp only at heq
    split at heq
    · obtain ⟨rfl, -⟩ := Prod.mk.inj heq
      refine ⟨hafter, fun w' hw => ?_⟩
      obtain rfl := Option.some.inj hw
      exact ⟨hid, hopen'⟩
    · obtain ⟨rfl, -⟩ := Prod.mk.inj heq
      exact ⟨hafter, hidle s⟩

/-- A call with the id `k`. -/
theorem Pending.call (hpending : Pending cfg k seen m.stack) (hwrites : WritesTo k m)
    (hid : e.callId = some k) (hstep : machineStep m e = some (m', result)) :
    Pending cfg k seen m'.stack ∧ WritesTo k m' := by
  by_cases hopen : OpenAs k m.stack
  · cases machineStep_steps hstep with
    | poll => cases hid
    | round => cases hid
    | @began id data len hopen' =>
      obtain rfl := Option.some.inj hid
      refine ⟨hpending, fun w hw => ?_⟩
      obtain rfl := Option.some.inj hw
      exact ⟨rfl, hopen'⟩
    | answered => exact ⟨hpending, hwrites⟩
    | called action hconn hsent hclosed hframes =>
      exact ⟨hpending.event hopen hconn seen, fun w hw => by cases hw⟩
  · obtain ⟨stack, writing⟩ := m
    cases writing with
    | none =>
      rw [machineStep_refused hid (by unfold OpenAs at hopen; tauto)] at hstep
      obtain ⟨rfl, -⟩ := Prod.mk.inj (Option.some.inj hstep)
      exact ⟨hpending, hwrites⟩
    | some w => exact absurd (hwrites w rfl).2 hopen

/-- The events of an answer to `k` concern no other connection. -/
theorem Pending.play {events : List AppEvent} (hpending : Pending cfg k seen m.stack)
    (hwrites : WritesTo k m) (hanswering : ∀ e ∈ events, Answering k e)
    (hplay : m.play events = some m') :
    Pending cfg k (seen ++ m.playEvents events) m'.stack := by
  induction events generalizing m seen with
  | nil =>
    obtain rfl := Option.some.inj hplay
    simpa [Machine.playEvents] using hpending
  | cons e rest ih =>
    obtain ⟨m₁, hfirst, hrest⟩ := Option.bind_eq_some_iff.mp hplay
    obtain ⟨⟨m₁, result⟩, hstep, rfl⟩ := Option.map_eq_some_iff.mp hfirst
    have hlater : ∀ e ∈ rest, Answering k e := fun e he => hanswering e (List.mem_cons_of_mem _ he)
    rw [Machine.playEvents, hstep, ← List.append_assoc]
    rcases (hanswering e List.mem_cons_self).cases with ⟨poll, rfl⟩ | hid
    · obtain ⟨hnext, hwrites'⟩ := hpending.poll hwrites hstep
      exact ih hnext hwrites' hlater hrest
    · obtain ⟨hnext, hwrites'⟩ := hpending.call hwrites hid hstep
      have hquiet : m.events e = [] := by
        cases e with
        | poll poll => cases hid
        | _ => rfl
      rw [hquiet, List.append_nil]
      exact ih hnext hwrites' hlater hrest

theorem Answers.answering {events : List AppEvent} (hanswers : Answers k events) :
    ∀ e ∈ events, Answering k e := by
  obtain ⟨writes, drains, rfl, hwrites, hdrains⟩ := hanswers.calls
  intro e he
  simp only [List.mem_append, List.mem_cons, List.not_mem_nil, or_false] at he
  rcases he with (he | rfl | he) | rfl
  · exact .inl (hwrites e he)
  · exact .inr (.inr (.inl rfl))
  · exact .inr (.inl (hdrains e he))
  · exact .inr (.inr (.inr rfl))

/-! ## Turns -/

/-- The connection is kept, unless the pass is over. -/
def Passing.Keeps (k : Int) : Passing → Prop
  | .over turn => ∀ s, turn = .waits s → s.connectionId = k
  | .asks s => s.connectionId = k

theorem scanRequest_keeps (cfg : Config) (s : Server) :
    (scanRequest cfg s).Keeps s.connectionId := by
  unfold scanRequest
  dsimp only
  split_ifs with hnone
  · intro s' hwaits
    cases hwaits
    rfl
  · split
    · intro s' hwaits
      cases hwaits
    · split
      · intro s' hwaits
        cases hwaits
      · exact rfl
      · exact rfl
      · intro s' hwaits
        cases hwaits

theorem finish_waits {user : User} {server' : Server}
    (hfinish : finish user server = .waits server') : server' = server := by
  unfold finish at hfinish
  split_ifs at hfinish
  · split at hfinish
    · cases hfinish
    · split at hfinish
      · cases hfinish
      · dsimp only at hfinish
        split at hfinish <;> cases hfinish
  · exact (Turn.waits.inj hfinish).symm

/-- A turn that waits keeps the connection. -/
theorem serve_waits {user : User} {read : Option (List UInt8)} {server' : Server}
    (hserve : serve cfg user server read = .waits server') :
    server'.connectionId = server.connectionId := by
  have hstore : (server.store read).connectionId = server.connectionId := by
    cases read <;> rfl
  have hkeeps : (arrive cfg server read).Keeps server.connectionId := by
    unfold arrive
    split_ifs with hfull
    · intro s' hwaits
      cases hwaits
    · dsimp only
      split_ifs
      · rw [← hstore]
        exact scanRequest_keeps cfg _
      · exact hstore
  rw [serve_eq] at hserve
  generalize arrive cfg server read = passing at hserve hkeeps
  rcases passing with turn | s
  · exact hkeeps server' hserve
  · rw [finish_waits hserve]
    exact hkeeps

/-- A turn of an exchange that does not end the program. -/
theorem exchangeStep_goesOn {user : User} {turn : Turn}
    (hturn : (exchangeStep cfg ipAddr v (.turn user)).2.turn = some turn)
    (hgoesOn : turn.ends = false) :
    (∃ e, (exchangeStep cfg ipAddr v (.turn user)).1.conn = (connStep ipAddr v.conn e).1) ∧
      (exchangeStep cfg ipAddr v (.turn user)).1.server = turn.next v.server ∧
      ∀ server', turn = .waits server' → server'.connectionId = v.server.connectionId := by
  by_cases hfull : v.server.readCount ≥ cfg.maxSize
  · simp only [exchangeStep, if_pos hfull] at hturn
    obtain rfl := Option.some.inj hturn
    cases hgoesOn
  · simp only [exchangeStep, if_neg hfull] at hturn ⊢
    obtain rfl := Option.some.inj hturn
    exact ⟨⟨_, rfl⟩, rfl, fun server' hwaits => serve_waits hwaits⟩

/-- What the rest of a turn does, when `ip_stack_poll` has returned. -/
inductive TurnSteps (cfg : Config) (server : Server) (stack : Stack) (i : Iteration) :
    Session → Turn → Prop where
  /-- `open_tcp` is called. -/
  | opens (hclosed : server.connectionId = -1) {server' : Server}
      (hid : server'.connectionId = openTcp stack.tcpConn)
      (hopening : server.readBuffer.length = cfg.maxSize → Opening cfg server') :
      TurnSteps cfg server stack i ⟨stack, server'⟩ (.waits server')
  /-- The buffer is full. -/
  | exits {e' : Session} : TurnSteps cfg server stack i e' .exits
  /-- The connection is gone, and nothing is read. -/
  | gone (hopen : server.connectionId ≠ -1) (hgone : ¬ OpenAs server.connectionId stack)
      {server' : Server} (hid : server'.connectionId = server.connectionId) :
      TurnSteps cfg server stack i ⟨stack, server'⟩ (.waits server')
  /-- A turn of the exchange. -/
  | exchanges (hopen : OpenAs server.connectionId stack) {turn : Turn}
      (hturn : (exchangeStep cfg stack.ipAddr ⟨stack.tcpConn, server⟩ (.turn i.user)).2.turn =
        some turn)
      {e' : Session}
      (hserver : e'.server =
        (exchangeStep cfg stack.ipAddr ⟨stack.tcpConn, server⟩ (.turn i.user)).1.server)
      (hwaits : ∀ server', turn = .waits server' → e'.stack = { stack with tcpConn :=
        (exchangeStep cfg stack.ipAddr ⟨stack.tcpConn, server⟩ (.turn i.user)).1.conn })
      (hread : (exchangeStep cfg stack.ipAddr ⟨stack.tcpConn, server⟩ (.turn i.user)).1.conn =
        (server.readTcp cfg stack).conn)
      (hresponds : ∀ server' action, turn = .responds server' action → ∃ m,
        Machine.play { stack := { stack with tcpConn := (server.readTcp cfg stack).conn } }
          i.answer = some m ∧ e'.stack = m.stack) :
      TurnSteps cfg server stack i e' turn

variable {i : Iteration} {e' : Session} {turn : Turn} {stack : Stack}

theorem turn_steps (hbetween : BetweenTurns cfg server)
    (hturn : Session.turn cfg server stack i = some (e', turn)) :
    TurnSteps cfg server stack i e' turn := by
  unfold Session.turn at hturn
  by_cases hclosed : server.connectionId = -1
  · rw [if_pos hclosed] at hturn
    obtain ⟨rfl, rfl⟩ := Prod.mk.inj (Option.some.inj hturn)
    simp only [loopStep, loopTurn, if_pos hclosed]
    exact .opens hclosed rfl fun hlength => ⟨hlength, rfl, rfl, rfl⟩
  rw [if_neg hclosed] at hturn
  by_cases hfull : server.readCount ≥ cfg.maxSize
  · rw [if_pos hfull] at hturn
    obtain ⟨rfl, rfl⟩ := Prod.mk.inj (Option.some.inj hturn)
    exact .exits
  rw [if_neg hfull] at hturn
  dsimp only at hturn
  by_cases hopen : OpenAs server.connectionId stack
  · have hstep : exchangeStep cfg stack.ipAddr ⟨stack.tcpConn, server⟩ (.turn i.user) =
        (⟨(server.readTcp cfg stack).conn, (serve cfg i.user server
            (server.readTcp cfg stack).received).next server⟩,
          { events := [(server.readEvent cfg,
              (connStep stack.ipAddr stack.tcpConn (server.readEvent cfg)).2)]
            turn := some (serve cfg i.user server (server.readTcp cfg stack).received) }) := by
      simp only [exchangeStep, if_neg hfull]
      rfl
    simp only [loopStep, loopTurn, if_neg hclosed] at hturn
    generalize hserve : serve cfg i.user server (server.readTcp cfg stack).received = end' at *
    split at hturn
    · rename_i s' action
      obtain ⟨m, hplay, heq⟩ := Option.map_eq_some_iff.mp hturn
      obtain ⟨rfl, rfl⟩ := Prod.mk.inj heq
      refine .exchanges hopen (by rw [hstep]) (by rw [hstep]) (fun s hwaits => by cases hwaits)
        (by rw [hstep]) ?_
      intro _ _ _
      exact ⟨m, hplay, rfl⟩
    · rename_i hother
      obtain ⟨rfl, rfl⟩ := Prod.mk.inj (Option.some.inj hturn)
      refine .exchanges hopen (by rw [hstep]) (by rw [hstep]) (fun s _ => by rw [hstep])
        (by rw [hstep]) ?_
      intro s action hresponds
      exact absurd hresponds (hother s action)
  · have hrefused : stack.tcpConn.state = .listen ∨
        stack.tcpConn.connectionId ≠ server.connectionId := by
      unfold OpenAs at hopen
      tauto
    have hread : server.readTcp cfg stack = ⟨stack.tcpConn, _, -1⟩ := readTcp_refused hrefused _ _ _
    have hconn : (server.readTcp cfg stack).conn = stack.tcpConn := by rw [hread]
    have hreceived : (server.readTcp cfg stack).received = none := by
      simp [hread, ReadResult.received]
    obtain ⟨p, hopened⟩ := hbetween.opened hclosed
    have hcount := hopened.stored.readCount
    obtain ⟨server', hserve, hid⟩ := hopened.serve_none (by omega) i.user
    simp only [loopStep, loopTurn, if_neg hclosed, hreceived, hserve, hconn] at hturn
    obtain ⟨rfl, rfl⟩ := Prod.mk.inj (Option.some.inj hturn)
    exact .gone hclosed hopen hid

/-! ## The invariant over a session -/

/-- What the rest of a turn adds to the log, behind `ip_stack_poll`: `main` reads from its
connection while it is open, and sends its answer. -/
def Server.events (cfg : Config) (s : Server) (stack : Stack) (i : Iteration) (turn : Turn) :
    List SessionEvent :=
  if s.connectionId = -1 ∨ ¬ OpenAs s.connectionId stack then []
  else
    .turn i.user ::
      match turn with
      | .responds _ _ =>
        Machine.playEvents { stack := { stack with tcpConn := (s.readTcp cfg stack).conn } }
          i.answer
      | _ => []

theorem Server.events_of_gone (hgone : server.connectionId = -1 ∨
    ¬ OpenAs server.connectionId stack) : server.events cfg stack i turn = [] :=
  if_pos hgone

theorem Server.events_of_open (hopen : ¬ (server.connectionId = -1 ∨
    ¬ OpenAs server.connectionId stack)) (turn : Turn) :
    server.events cfg stack i turn = .turn i.user ::
      match turn with
      | .responds _ _ =>
        Machine.playEvents { stack := { stack with tcpConn := (server.readTcp cfg stack).conn } }
          i.answer
      | _ => [] :=
  if_neg hopen

/-- What a turn adds to the log. -/
def Session.events (cfg : Config) (e : Session) (i : Iteration) (turn : Option Turn) :
    List SessionEvent :=
  pollEvents e.stack i.poll ++
    match ipStackPoll e.stack i.poll, turn with
    | some (stack, _), some turn => e.server.events cfg stack i turn
    | _, _ => []

/-- The log of a session. -/
def sessionLog (cfg : Config) : Session → History Iteration (Option Turn) → List SessionEvent
  | _, [] => []
  | e, (i, turn) :: rest => e.events cfg i turn ++ sessionLog cfg (sessionStep cfg e i).1 rest

theorem sessionLog_append (cfg : Config) (e : Session) (h h' : History Iteration (Option Turn)) :
    sessionLog cfg e (h ++ h') =
      sessionLog cfg e h ++ sessionLog cfg (stateAfter (sessionStep cfg) e h) h' := by
  induction h generalizing e with
  | nil => rfl
  | cons x rest ih =>
    rw [List.cons_append, sessionLog, ih, sessionLog, List.append_assoc]
    rfl

/-- The rest of a turn keeps the invariant, unless the program ends. -/
theorem Kept.turnSteps (hkept : Kept cfg server seen stack) (hbetween : BetweenTurns cfg server)
    (hanswers : ∀ s action, turn = .responds s action → Answers server.connectionId i.answer ∧
      ¬ OpenAs server.connectionId e'.stack ∧ e'.server.connectionId = -1)
    (hsteps : TurnSteps cfg server stack i e' turn) (hgoesOn : turn.ends = false) :
    Kept cfg e'.server (seen ++ server.events cfg stack i turn) e'.stack := by
  have hcounted := hkept.pending.counted
  have hnonneg := hcounted.nonneg
  cases hsteps with
  | opens hclosed hid hopening =>
    simp only [Server.events_of_gone (Or.inl hclosed), List.append_nil]
    by_cases hlisten : stack.tcpConn.state = .listen
    · have hnone : openTcp stack.tcpConn = -1 := by simp [openTcp, hlisten]
      refine ⟨⟨hcounted, by omega, fun hopen => absurd hlisten hopen⟩, fun hopen => ?_⟩
      exact absurd hlisten hopen.1
    · have hopen : openTcp stack.tcpConn = stack.tcpConn.connectionId := by simp [openTcp, hlisten]
      obtain ⟨hpos, hlt⟩ := hcounted.id hlisten
      refine ⟨⟨hcounted, by omega, fun _ hother => ?_⟩, fun _ => ?_⟩
      · exact absurd (hopen.symm.trans hid.symm) hother
      · exact hkept.pending.fresh hlisten (by omega) _ (hopening hbetween.readBuffer)
  | exits => cases hgoesOn
  | gone hne hgone hid =>
    simp only [Server.events_of_gone (Or.inr hgone), List.append_nil]
    refine ⟨?_, fun hopen => absurd (hid ▸ hopen) hgone⟩
    rw [hid]
    exact hkept.pending
  | exchanges hopen hturn hserver hwaits hread hresponds =>
    have hserves := hkept.serves hopen
    obtain ⟨⟨e, hconn⟩, hnext, hid⟩ := exchangeStep_goesOn hturn hgoesOn
    have hpending := hkept.pending.event hopen hconn (seen ++ [.turn i.user])
    have hne : server.connectionId ≠ -1 := by
      have hpos := (hcounted.id hopen.1).1
      have hsame := hopen.2
      omega
    have hreads : ¬ (server.connectionId = -1 ∨ ¬ OpenAs server.connectionId stack) :=
      fun h => h.elim hne fun hgone => hgone hopen
    cases turn with
    | exits => cases hgoesOn
    | faults => cases hgoesOn
    | waits server' =>
      have hexchange := hserves.turn hopen.1 i.user fun turn hmem => by
        rw [hturn] at hmem
        obtain rfl := Option.some.inj hmem
        rfl
      rw [Server.events_of_open hreads, hwaits server' rfl, hserver]
      refine ⟨?_, fun _ => hexchange⟩
      rw [hnext]
      exact (hid server' rfl).symm ▸ hpending
    | responds server' action =>
      obtain ⟨hanswer, hclosed, hnone⟩ := hanswers server' action rfl
      obtain ⟨m, hplay, hstack⟩ := hresponds server' action rfl
      rw [hread] at hpending
      have hafter := hpending.play (fun w hw => by cases hw) hanswer.answering hplay
      rw [← hstack, List.append_assoc, List.singleton_append] at hafter
      have hpos := hafter.counted.nonneg
      have hother : e'.stack.tcpConn.state ≠ .listen →
          e'.stack.tcpConn.connectionId ≠ server.connectionId :=
        fun hlisten hid => hclosed ⟨hlisten, hid⟩
      rw [Server.events_of_open hreads]
      refine ⟨⟨hafter.counted, by omega, fun hlisten _ => ?_⟩, fun hopen' => ?_⟩
      · exact hafter.fresh hlisten (hother hlisten)
      · have hcounted' := hafter.counted.id hopen'.1
        have hid' := hopen'.2
        omega

variable {e e₀ : Session} {h : History Iteration (Option Turn)} {ok : SessionGuard}

/-- Nobody is connected, and connection ids are not negative. -/
structure Idle (s : Stack) : Prop where
  listen : s.tcpConn.state = .listen
  nonneg : 0 ≤ s.connectionCounter

/-- The invariant over a session, until the program ends. -/
theorem SessionRun.kept (hinit : Initial cfg e₀.server) (hidle : Idle e₀.stack)
    (hrun : SessionRun cfg ok e₀ h e) (hgoesOn : ∀ x ∈ h, ∀ turn ∈ x.2, turn.ends = false) :
    Kept cfg e.server (sessionLog cfg e₀ h) e.stack := by
  induction hrun with
  | start =>
    have hnone := hinit.connectionId
    have hnonneg := hidle.nonneg
    refine ⟨⟨⟨hnonneg, fun hopen => absurd hidle.listen hopen⟩, by omega,
      fun hopen => absurd hidle.listen hopen⟩, fun hopen => absurd hidle.listen hopen.1⟩
  | @next h e i hrun hok ih =>
    have hbetween := SessionRun.betweenTurns hinit hrun
    obtain ⟨⟨e', turn⟩, hstep⟩ := Option.isSome_iff_exists.mp hok.1.returns
    have hsession : sessionStep cfg e i = (e', some turn) := by simp [sessionStep, hstep]
    rw [hsession] at hgoesOn ⊢
    obtain ⟨⟨stack, frames⟩, hpoll, hturn⟩ := Option.bind_eq_some_iff.mp hstep
    have hkept := (ih fun x hx => hgoesOn x (List.mem_append_left _ hx)).ipStackPoll hpoll
    have hlast := hgoesOn _ (List.mem_append_right h List.mem_cons_self) turn rfl
    have hafter := hkept.turnSteps hbetween (fun s action hresponds => by
      subst hresponds
      exact ⟨hok.1.answers e' s action hstep, iterate_answered hbetween hok.1 hstep⟩)
      (turn_steps hbetween hturn) hlast
    have hlog : sessionLog cfg e₀ (h ++ [(i, some turn)]) =
        sessionLog cfg e₀ h ++ pollEvents e.stack i.poll ++ e.server.events cfg stack i turn := by
      rw [sessionLog_append, hrun.stateAfter_eq]
      simp [sessionLog, Session.events, hpoll]
    exact hlog ▸ hafter

/-! ## The result -/

theorem ipStackPoll_ipAddr {poll : Poll} (hstep : ipStackPoll s poll = some (s', later)) :
    s'.ipAddr = s.ipAddr :=
  ipStackPoll_invariant (fun s' _ => s'.ipAddr = s.ipAddr)
    (fun hip h => (handleRxPacket_handles h).2.trans hip)
    (fun input hip => (sendTcpPacket_conn _ input).1.trans hip) [] rfl hstep

/-- Every answer of a session ends an exchange between a connection and `main`, which begins
with a SYN of the session, with no byte read, and whose events are those in the log behind
that SYN.  When the peer of the connection conforms, the answer is the one to the request
that its stream begins with. -/
theorem session_exchanged {server : Server} {action : Action} (hinit : Initial cfg e₀.server)
    (hidle : Idle e₀.stack) (hrun : SessionRun cfg ok e₀ h e) (hreturns : Returns cfg h e i)
    (hstep : iterate cfg e i = some (e', .responds server action)) :
    ∃ stack frames v₀ hx, ipStackPoll e.stack i.poll = some (stack, frames) ∧
      Exchanges cfg e.stack.ipAddr (sessionLog cfg e₀ h ++ pollEvents e.stack i.poll) v₀ hx
        ⟨stack.tcpConn, e.server⟩ ∧
      (exchangeStep cfg e.stack.ipAddr ⟨stack.tcpConn, e.server⟩ (.turn i.user)).2.turn =
        some (.responds server action) ∧
      ∀ st p result, ExchangeRun cfg e.stack.ipAddr (Conforms e.stack.ipAddr st) v₀ hx
          ⟨stack.tcpConn, e.server⟩ →
        p <+: st.slice 1 st.fin → p.length ≤ cfg.maxSize → Decides cfg i.user p result →
        result = .action action := by
  obtain ⟨⟨stack, frames⟩, hpoll, hturn⟩ := Option.bind_eq_some_iff.mp hstep
  have hbetween := SessionRun.betweenTurns hinit hrun
  have hkept := (SessionRun.kept hinit hidle hrun hreturns.goesOn).ipStackPoll hpoll
  have hip := ipStackPoll_ipAddr hpoll
  cases turn_steps hbetween hturn with
  | exchanges hopen hturn hserver hwaits hread hresponds =>
    obtain ⟨v₀, hx, hexchanges⟩ := hkept.serves hopen
    rw [hip] at hexchanges hturn
    refine ⟨stack, frames, v₀, hx, hpoll, hexchanges, hturn, ?_⟩
    intro st p result hconforms hstream hroom hdecides
    obtain ⟨s₀, syn, -, -, -, hopens, hip₀, -⟩ := hexchanges.opens
    obtain ⟨turn, hturn', hresult⟩ := ExchangeRun.answers hexchanges.opening
      (hopens.receivesStream st) hconforms hstream hroom hdecides
      (.turn hopen.1 hexchanges.undecided i.user)
    obtain rfl := Option.some.inj (hturn.symm.trans hturn')
    split at hresult
    · cases hresult
    · exact (Option.some.inj hresult).symm

/-- The request of the first peer for the page, in a segment with its acknowledgement. -/
def requestFrame : RxFrame where
  packet :=
    { buffer := fun i => List.getD
        ([2, 0, 0, 0, 0, 1, 2, 0, 0, 0, 0, 2, 0x08, 0x00,
          0x45, 0, 0, 48, 0, 0, 0x40, 0, 64, 6, 0, 0, 10, 0, 0, 2, 10, 0, 0, 1,
          0x0F, 0xA0, 0, 80, 0, 0, 0, 1, 0, 0, 0, 101, 0x50, 0x10, 4, 0, 0, 0, 0, 0] ++
          ascii "GET / \n\n") i 0
      length := 62 }
  rand := ⟨0, 100⟩

/-- A client connects. -/
def connectTurn : Iteration := frameTurn (peerFrame 0xA0 0 0 0x02)

/-- Its request arrives, and the answer is the end of the connection. -/
def requestTurn : Iteration :=
  { frameTurn requestFrame with answer := [.shutdown 1, .close 1] }

def connectExec : History Iteration (Option Turn) × Session :=
  exec (sessionStep smallConfig) [] idleSession [connectTurn]

theorem connectExec_run :
    SessionRun smallConfig anyIteration idleSession connectExec.1 connectExec.2 := by
  have hmeets : Meets (sessionStep smallConfig) (Waits smallConfig) [] idleSession [connectTurn] :=
    by decide +kernel
  exact (Run.start.exec hmeets).mono fun _ _ _ hwaits => ⟨hwaits.returns, trivial⟩

theorem requestTurn_answers (k : Int) : Answers k [.shutdown k, .close k] :=
  ⟨[], [], rfl, by simp, by simp⟩

/-- The page answers an exchange of three events: the SYN-ACK, the request and its ACK. -/
theorem session_exchanged_page :
    ∃ stack frames v₀ hx server,
      ipStackPoll connectExec.2.stack requestTurn.poll = some (stack, frames) ∧
      Opening smallConfig v₀.server ∧
      ExchangeRun smallConfig listeningStack.ipAddr anyEvent v₀ hx
        ⟨stack.tcpConn, connectExec.2.server⟩ ∧ hx.length ≤ 3 ∧
      (exchangeStep smallConfig listeningStack.ipAddr ⟨stack.tcpConn, connectExec.2.server⟩
        (.turn requestTurn.user)).2.turn = some (.responds server .uploadForm) := by
  have hany : ((iterate smallConfig connectExec.2 requestTurn).any fun x =>
      x.2.result = some (.action .uploadForm)) = true := by
    decide +kernel
  obtain ⟨⟨e', turn⟩, hstep, hresult⟩ := (Option.any_eq_true _ _).mp hany
  cases turn with
  | responds server action =>
    have hreturns : Returns smallConfig connectExec.1 connectExec.2 requestTurn :=
      ⟨by decide +kernel, by decide +kernel, fun _ _ _ _ => requestTurn_answers _, by simp [hstep]⟩
    have hip : connectExec.2.stack.ipAddr = listeningStack.ipAddr := by decide +kernel
    obtain ⟨stack, frames, v₀, hx, hpoll, hexchanges, hturn, -⟩ :=
      session_exchanged idleServer_initial ⟨rfl, by decide⟩ connectExec_run hreturns hstep
    simp only [Turn.result, decide_eq_true_eq, Option.some.injEq, Result.action.injEq] at hresult
    rw [hip, hresult] at hturn
    have hlog : (sessionLog smallConfig idleSession connectExec.1 ++
        pollEvents connectExec.2.stack requestTurn.poll).length = 4 := by
      decide +kernel
    have hlength : hx.length ≤ 3 := by
      obtain ⟨-, -, earlier, frame, later, -, -, hseen, -, hevents⟩ := hexchanges.opens
      have hle := List.length_filterMap_le SessionEvent.exchange later
      rw [← hevents, List.length_map] at hle
      rw [hseen, List.length_append, List.length_cons] at hlog
      omega
    exact ⟨stack, frames, v₀, hx, server, hpoll, hexchanges.opening, hip ▸ hexchanges.run, hlength,
      hturn⟩
  | _ => simp [Turn.result] at hresult

end EthTransfer
