import EthTransfer.Lib.GuardedRun
import EthTransfer.Stack.HandleTcp
import EthTransfer.Stack.SendTcp
import EthTransfer.Stack.Api

/-!
# Runs of one connection

A connection begins when a SYN is accepted in `TCP_LISTEN` (`Opens`) and ends
when its state returns to `TCP_LISTEN`.  In between, received segments, calls
of `send_tcp_packet` and application calls come in any order.  `connStep` is
one such event, and `ConnRun` the runs whose events meet a guard.  `ConnSteps` says
once what an event can do, and `ConnRun.invariant` is the induction over runs
that every later module uses.

The output of an event records what the outside sees: the segment on the wire,
the return value, the bytes handed to the application and the bytes taken from
it.  `returned`, `written` and `transmitted` collect them over a history.

The last part says what the events leave alone: the identity of the
connection, its receive side, and its transmit side.
-/

namespace EthTransfer

open GuardedRun

/-! ## Events -/

/-- What happens to an open connection. -/
inductive ConnEvent where
  | receive (packet : TcpPacket)
  | send (clock : Clock) (scratch : Bytes)
  | read (connectionId : Int) (data : Bytes) (off len : Int)
  /-- One round of the loop of a `write_tcp` call. -/
  | write (connectionId : Int) (data : Bytes) (len : Int)
  | shutdown (connectionId : Int)
  | close (connectionId : Int)

/-- What an event shows to the outside. -/
structure ConnOutput where
  sent : Option TxSegment := none
  ret : Int := 0
  returned : List UInt8 := []
  accepted : List UInt8 := []

/-- One event of an open connection.  A `write_tcp` call checks its id once;
while the connection is open, the check gives the same answer in every
round. -/
def connStep (ipAddr : UInt32) (c : TcpConnection) : ConnEvent → TcpConnection × ConnOutput
  | .receive packet => (tcpInput ipAddr c packet, {})
  | .send clock scratch =>
    let result := sendTcpPacket c clock scratch
    (result.conn, { sent := result.sent })
  | .read connectionId data off len =>
    let result := readTcp c connectionId data off len
    (result.conn, { ret := result.ret, returned := takeBytes result.data result.ret })
  | .write connectionId data len =>
    if c.connectionId ≠ connectionId then (c, { ret := -1 })
    else
      let result := writeRound c data len
      (result.1, { accepted := takeBytes data result.2 })
  | .shutdown connectionId => ((shutdownTcp c connectionId).1, {})
  | .close connectionId => (closeTcp c connectionId, {})

/-- What an event can do to an open connection, and what it shows. -/
inductive ConnSteps (ipAddr : UInt32) (c : TcpConnection) :
    ConnEvent → TcpConnection → ConnOutput → Prop where
  | receive {packet : TcpPacket} {c' : TcpConnection} (h : Received ipAddr c packet c') :
      ConnSteps ipAddr c (.receive packet) c' {}
  | send {clock : Clock} {scratch : Bytes} {result : SendResult}
      (h : Sends c clock scratch result) :
      ConnSteps ipAddr c (.send clock scratch) result.conn { sent := result.sent }
  | read {id : Int} {data : Bytes} {off len : Int} {result : ReadResult}
      (h : Reads c id data off len result) :
      ConnSteps ipAddr c (.read id data off len) result.conn
        { ret := result.ret, returned := takeBytes result.data result.ret }
  | write {data : Bytes} {len : Int} {result : TcpConnection × Int}
      (h : Writes c data len result) :
      ConnSteps ipAddr c (.write c.connectionId data len) result.1
        { accepted := takeBytes data result.2 }
  | shutdown : ConnSteps ipAddr c (.shutdown c.connectionId) { c with txFin := c.txWrite } {}
  | close : ConnSteps ipAddr c (.close c.connectionId) { c with state := .listen } {}
  /-- A call with the id of another connection. -/
  | stale {e : ConnEvent} (ret : Int) : ConnSteps ipAddr c e c { ret := ret }

/-- `connStep` does one of these. -/
theorem connStep_steps {ipAddr : UInt32} {c : TcpConnection} (hopen : c.state ≠ .listen)
    (e : ConnEvent) : ConnSteps ipAddr c e (connStep ipAddr c e).1 (connStep ipAddr c e).2 := by
  cases e with
  | receive packet => exact .receive (tcpInput_received ipAddr c packet)
  | send clock scratch => exact .send (sendTcpPacket_sends hopen clock scratch)
  | read id data off len => exact .read (readTcp_reads hopen id data off len)
  | write id data len =>
    unfold connStep
    dsimp only
    split
    · exact .stale (-1)
    · rename_i hid
      obtain rfl := not_not.mp hid
      exact .write (writeRound_writes c data len)
  | shutdown id =>
    unfold connStep shutdownTcp
    dsimp only
    split
    · exact .stale 0
    · rename_i hid
      obtain rfl := not_not.mp fun h => hid (Or.inr h)
      exact .shutdown
  | close id =>
    unfold connStep closeTcp
    dsimp only
    split
    · exact .stale 0
    · rename_i hid
      obtain rfl := not_not.mp hid
      exact .close

/-- The history of a connection. -/
abbrev ConnHistory := History ConnEvent ConnOutput

/-- A guard on the events of a connection. -/
abbrev ConnGuard := ConnHistory → TcpConnection → ConnEvent → Prop

/-- The runs of a connection from `c₀`.  They stop when it is closed, and every
event meets `ok`. -/
def ConnRun (ipAddr : UInt32) (ok : ConnGuard) (c₀ : TcpConnection) :
    ConnHistory → TcpConnection → Prop :=
  Run (connStep ipAddr) (fun h c e => c.state ≠ .listen ∧ ok h c e) c₀

/-- What a list of events does to a connection. -/
def connExec (ipAddr : UInt32) (c₀ : TcpConnection) (events : List ConnEvent) :
    ConnHistory × TcpConnection :=
  exec (connStep ipAddr) [] c₀ events

/-- The events of the list find the connection open and meet the guard. -/
def ConnMeets (ipAddr : UInt32) (ok : ConnGuard) (c₀ : TcpConnection)
    (events : List ConnEvent) : Prop :=
  Meets (connStep ipAddr) (fun h c e => c.state ≠ .listen ∧ ok h c e) [] c₀ events

instance (ipAddr : UInt32) (ok : ConnGuard) [∀ h c e, Decidable (ok h c e)]
    (c₀ : TcpConnection) (events : List ConnEvent) : Decidable (ConnMeets ipAddr ok c₀ events) :=
  inferInstanceAs (Decidable (Meets _ _ _ _ _))

theorem ConnMeets.run {ipAddr : UInt32} {ok : ConnGuard} {c₀ : TcpConnection}
    {events : List ConnEvent} (h : ConnMeets ipAddr ok c₀ events) :
    ConnRun ipAddr ok c₀ (connExec ipAddr c₀ events).1 (connExec ipAddr c₀ events).2 :=
  Run.exec .start h

/-- No condition on the events. -/
def anyEvent : ConnGuard := fun _ _ _ => True

instance (h : ConnHistory) (c : TcpConnection) (e : ConnEvent) : Decidable (anyEvent h c e) :=
  isTrue trivial

/-- A condition on the received packets can be checked. -/
instance ConnEvent.decidableReceive (P : TcpPacket → Prop) [∀ packet, Decidable (P packet)] :
    ∀ e : ConnEvent, Decidable (∀ packet, e = .receive packet → P packet)
  | .receive packet =>
    decidable_of_iff (P packet) ⟨fun h _ heq => ConnEvent.receive.inj heq ▸ h, fun h => h _ rfl⟩
  | .send .. => isTrue nofun
  | .read .. => isTrue nofun
  | .write .. => isTrue nofun
  | .shutdown _ => isTrue nofun
  | .close _ => isTrue nofun

/-! ## The opening SYN -/

/-- The SYN `syn`, received in `TCP_LISTEN`, opens the connection `c₀`. -/
structure Opens (s : Stack) (syn : TcpPacket) (c₀ : TcpConnection) : Prop where
  listen : s.tcpConn.state = .listen
  accepted : ∃ rand s', handleTcpPacket s syn rand = some s' ∧ s'.tcpConn = c₀
  opened : c₀.state ≠ .listen

/-- The SYN goes to port 80, its options are fine, and it sets the fields of a fresh
connection. -/
theorem Opens.openingSyn {s : Stack} {syn : TcpPacket} {c₀ : TcpConnection}
    (h : Opens s syn c₀) :
    ∃ maxSegment windowScale rand, OpeningSyn syn maxSegment windowScale ∧
      syn.tcp.destPort = 80 ∧ syn.tcp.has TCP_RST = false ∧
      c₀ = openConnection s.tcpConn syn s.connectionCounter rand
        (if windowScale < 0 then 0 else windowScale).toNat
        (if maxSegment < 0 ∨ maxSegment > MAX_SEGMENT then MAX_SEGMENT else maxSegment) := by
  obtain ⟨rand, s', hstep, rfl⟩ := h.accepted
  have hne : some s ≠ some s' := fun heq => h.opened (Option.some.inj heq ▸ h.listen)
  rcases handleTcpPacket_listen h.listen syn with hdrop | ⟨hport, hrst, haccept⟩
  · exact absurd ((hdrop rand).symm.trans hstep) hne
  rw [haccept rand] at hstep
  rcases acceptSyn_opening s syn with hhang | hdrop | ⟨maxSegment, windowScale, hopens⟩
  · exact absurd ((hhang rand).symm.trans hstep) (by simp)
  · exact absurd ((hdrop rand).symm.trans hstep) hne
  · obtain rfl := Option.some.inj ((hopens.acceptSyn_eq s rand).symm.trans hstep)
    exact ⟨maxSegment, windowScale, rand, hopens, hport, hrst, rfl⟩

/-- Its window scale is at most 14. -/
theorem Opens.eq_openConnection {s : Stack} {syn : TcpPacket} {c₀ : TcpConnection}
    (h : Opens s syn c₀) :
    ∃ rand windowScale maxSegment, windowScale ≤ 14 ∧
      c₀ = openConnection s.tcpConn syn s.connectionCounter rand windowScale maxSegment := by
  obtain ⟨maxSegment, windowScale, rand, hopens, -, -, rfl⟩ := h.openingSyn
  have hle := hopens.windowScale_le
  exact ⟨rand, _, _, by omega, rfl⟩

/-! ## Histories -/

/-- The bytes that `read_tcp` has handed over. -/
def returned (h : ConnHistory) : List UInt8 := h.flatMap (·.2.returned)

/-- The bytes that `write_tcp` has accepted. -/
def written (h : ConnHistory) : List UInt8 := h.flatMap (·.2.accepted)

/-- The segments on the wire. -/
def transmitted (h : ConnHistory) : List TxSegment := h.filterMap (·.2.sent)

@[simp] theorem returned_append (h : ConnHistory) (e : ConnEvent) (o : ConnOutput) :
    returned (h ++ [(e, o)]) = returned h ++ o.returned := by
  simp [returned]

@[simp] theorem written_append (h : ConnHistory) (e : ConnEvent) (o : ConnOutput) :
    written (h ++ [(e, o)]) = written h ++ o.accepted := by
  simp [written]

@[simp] theorem transmitted_append (h : ConnHistory) (e : ConnEvent) (o : ConnOutput) :
    transmitted (h ++ [(e, o)]) = transmitted h ++ o.sent.toList := by
  cases hsent : o.sent <;> simp [transmitted, hsent]

/-! ## What the events leave alone -/

/-- The identity of a connection, which no event changes. -/
structure SameConnection (c c' : TcpConnection) : Prop where
  connectionId : c'.connectionId = c.connectionId
  localPort : c'.localPort = c.localPort
  localSequence : c'.localSequence = c.localSequence
  remoteMac : c'.remoteMac = c.remoteMac
  remotePort : c'.remotePort = c.remotePort
  remoteIp : c'.remoteIp = c.remoteIp
  remoteSequence : c'.remoteSequence = c.remoteSequence
  remoteWindowScale : c'.remoteWindowScale = c.remoteWindowScale
  remoteMaxSegment : c'.remoteMaxSegment = c.remoteMaxSegment

/-- The receive side of a connection. -/
structure SameReceiver (c c' : TcpConnection) : Prop where
  rxBuffer : c'.rxBuffer = c.rxBuffer
  rxWrite : c'.rxWrite = c.rxWrite
  rxRead : c'.rxRead = c.rxRead
  rxFin : c'.rxFin = c.rxFin
  rxSegments : c'.rxSegments = c.rxSegments

/-- The transmit side of a connection. -/
structure SameSender (c c' : TcpConnection) : Prop where
  txBuffer : c'.txBuffer = c.txBuffer
  txWrite : c'.txWrite = c.txWrite
  txSent : c'.txSent = c.txSent
  txAcked : c'.txAcked = c.txAcked
  txLimit : c'.txLimit = c.txLimit
  txFin : c'.txFin = c.txFin
  remoteWindow : c'.remoteWindow = c.remoteWindow

theorem SameConnection.refl (c : TcpConnection) : SameConnection c c := by
  constructor <;> rfl

theorem SameConnection.trans {c c' c'' : TcpConnection} (h : SameConnection c c')
    (h' : SameConnection c' c'') : SameConnection c c'' :=
  ⟨h'.1.trans h.1, h'.2.trans h.2, h'.3.trans h.3, h'.4.trans h.4, h'.5.trans h.5,
    h'.6.trans h.6, h'.7.trans h.7, h'.8.trans h.8, h'.9.trans h.9⟩

theorem SameReceiver.refl (c : TcpConnection) : SameReceiver c c := by
  constructor <;> rfl

theorem Added.sameConnection {c : TcpConnection} {data : Bytes} {dataLength : Int}
    {dest : UInt32} {g : TcpSegment} {c' : TcpConnection}
    (h : Added c (c.copyRx data dataLength dest) g c') : SameConnection c c' := by
  cases h <;> constructor <;> rfl

theorem Added.sameSender {c : TcpConnection} {data : Bytes} {dataLength : Int}
    {dest : UInt32} {g : TcpSegment} {c' : TcpConnection}
    (h : Added c (c.copyRx data dataLength dest) g c') : SameSender c c' := by
  cases h <;> constructor <;> rfl

theorem Added.state {c : TcpConnection} {data : Bytes} {dataLength : Int}
    {dest : UInt32} {g : TcpSegment} {c' : TcpConnection}
    (h : Added c (c.copyRx data dataLength dest) g c') :
    c'.state = c.state ∧ c'.ackTimeout = c.ackTimeout ∧ c'.rxRead = c.rxRead ∧
      c'.rxFin = c.rxFin := by
  cases h <;> exact ⟨rfl, rfl, rfl, rfl⟩

theorem Received.sameConnection {ipAddr : UInt32} {c c' : TcpConnection} {packet : TcpPacket}
    (h : Received ipAddr c packet c') : SameConnection c c' := by
  cases h with
  | ignored => exact SameConnection.refl c
  | reset => constructor <;> rfl
  | accepted _ _ _ hadded =>
    refine hadded.sameConnection.trans ?_
    constructor <;> rfl

/-- A packet changes the state by a RST, and by an acknowledgement of the SYN. -/
theorem Received.state_cases {ipAddr : UInt32} {c c' : TcpConnection} {packet : TcpPacket}
    (h : Received ipAddr c packet c') :
    c'.state = c.state ∨
      Addressed ipAddr c packet ∧ packet.tcp.has TCP_RST = true ∧ c'.state = .sendRst ∨
      c.state = .synAckSent ∧ c'.state = .connected := by
  cases h with
  | ignored => exact Or.inl rfl
  | reset hto hrst => exact Or.inr (Or.inl ⟨hto, hrst, rfl⟩)
  | @accepted added hto hrst haccepts hadded =>
    show (receiveAck added packet).state = c.state ∨
      _ ∧ _ ∧ (receiveAck added packet).state = _ ∨ _ ∧ (receiveAck added packet).state = _
    rw [receiveAck_state, hadded.state.1]
    split
    · rename_i hsyn
      exact Or.inr (Or.inr ⟨hsyn.1, rfl⟩)
    · exact Or.inl rfl

theorem Sends.sameConnection {c : TcpConnection} {clock : Clock} {scratch : Bytes}
    {result : SendResult} (h : Sends c clock scratch result) : SameConnection c result.conn := by
  cases h <;> constructor <;> rfl

theorem Sends.sameReceiver {c : TcpConnection} {clock : Clock} {scratch : Bytes}
    {result : SendResult} (h : Sends c clock scratch result) : SameReceiver c result.conn := by
  cases h <;> constructor <;> rfl

theorem Reads.sameConnection {c : TcpConnection} {id : Int} {data : Bytes} {off len : Int}
    {result : ReadResult} (h : Reads c id data off len result) :
    SameConnection c result.conn := by
  cases h <;> constructor <;> rfl

theorem Reads.sameSender {c : TcpConnection} {id : Int} {data : Bytes} {off len : Int}
    {result : ReadResult} (h : Reads c id data off len result) : SameSender c result.conn := by
  cases h <;> constructor <;> rfl

theorem Writes.sameConnection {c : TcpConnection} {data : Bytes} {len : Int}
    {result : TcpConnection × Int} (h : Writes c data len result) :
    SameConnection c result.1 := by
  cases h <;> constructor <;> rfl

theorem Writes.sameReceiver {c : TcpConnection} {data : Bytes} {len : Int}
    {result : TcpConnection × Int} (h : Writes c data len result) :
    SameReceiver c result.1 := by
  cases h <;> constructor <;> rfl

/-- No event changes the identity of an open connection. -/
theorem ConnSteps.sameConnection {ipAddr : UInt32} {c c' : TcpConnection} {e : ConnEvent}
    {o : ConnOutput} (h : ConnSteps ipAddr c e c' o) : SameConnection c c' := by
  cases h with
  | receive h => exact h.sameConnection
  | send h => exact h.sameConnection
  | read h => exact h.sameConnection
  | write h => exact h.sameConnection
  | shutdown => constructor <;> rfl
  | close => constructor <;> rfl
  | stale => exact SameConnection.refl c

/-- A property of history and connection that holds at the start and that every
event of an open connection keeps holds at the end of every run. -/
theorem ConnRun.invariant {ipAddr : UInt32} {ok : ConnGuard} {c₀ c : TcpConnection}
    {h : ConnHistory} (inv : ConnHistory → TcpConnection → Prop)
    (hrun : ConnRun ipAddr ok c₀ h c) (hstart : inv [] c₀)
    (hstep : ∀ {h c e c' o}, ConnRun ipAddr ok c₀ h c → inv h c → c.state ≠ .listen →
      ok h c e → ConnSteps ipAddr c e c' o → inv (h ++ [(e, o)]) c') : inv h c := by
  refine Run.invariant inv hrun hstart ?_
  intro h c e hrun hinv hok
  exact hstep hrun hinv hok.1 hok.2 (connStep_steps hok.1 e)

/-- A connection keeps its identity over a run. -/
theorem ConnRun.sameConnection {ipAddr : UInt32} {ok : ConnGuard} {c₀ c : TcpConnection}
    {h : ConnHistory} (hrun : ConnRun ipAddr ok c₀ h c) : SameConnection c₀ c := by
  refine hrun.invariant (fun _ c => SameConnection c₀ c) (SameConnection.refl c₀) ?_
  intro h c e c' o _ hsame _ _ hsteps
  exact hsame.trans hsteps.sameConnection

/-- The 4-tuple of a connection does not change. -/
theorem SameConnection.connectionMatch {c c' : TcpConnection} (h : SameConnection c c')
    (ipAddr : UInt32) (packet : TcpPacket) :
    connectionMatch ipAddr c' packet = connectionMatch ipAddr c packet := by
  unfold EthTransfer.connectionMatch
  rw [h.remotePort, h.localPort, h.remoteIp]

theorem SameConnection.addressed {c c' : TcpConnection} (h : SameConnection c c')
    {ipAddr : UInt32} {packet : TcpPacket} :
    Addressed ipAddr c' packet ↔ Addressed ipAddr c packet := by
  constructor
  · rintro ⟨hport, htuple⟩
    exact ⟨hport, (h.connectionMatch ipAddr packet).symm.trans htuple⟩
  · rintro ⟨hport, htuple⟩
    exact ⟨hport, (h.connectionMatch ipAddr packet).trans htuple⟩

/-! ## A peer on the wire

A stack that listens, and a peer that opens a connection to it: the concrete
inputs on which the runs of the later modules are evaluated. -/

/-- A stack at 10.0.0.1 that waits for a connection. -/
def listeningStack : Stack where
  localMac := ⟨#v[2, 0, 0, 0, 0, 1]⟩
  ipAddr := 0x0A000001
  identificationCounter := 0
  connectionCounter := 1
  baseTime := 0
  baseTimeSet := true
  tcpConn :=
    { connectionId := 0
      rxBuffer := fun _ => 0
      txBuffer := fun _ => 0
      state := .listen
      localPort := 0
      localSequence := 0
      remoteMac := ⟨#v[0, 0, 0, 0, 0, 0]⟩
      remotePort := 0
      remoteIp := 0
      remoteSequence := 0
      remoteWindowScale := 0
      remoteWindow := 0
      remoteMaxSegment := 0
      rxWrite := 0
      rxRead := 0
      rxAcked := 0
      rxWindow := 0
      rxFin := 0
      txWrite := 0
      txSent := 0
      txAcked := 0
      txLimit := 0
      txFin := 0
      ackTimeout := -1
      rxSegments := [] }

/-- A packet without options from port 4000 of 10.0.0.2 to port 80. -/
def peerPacket (sequence ack : UInt32) (flags windowSize : UInt16) (payload : List UInt8) :
    TcpPacket where
  sourceMac := ⟨#v[2, 0, 0, 0, 0, 2]⟩
  ip :=
    { versionIhl := 0x45
      totalLength := UInt16.ofNat (40 + payload.length)
      protocol := 6
      sourceIp := 0x0A000002
      destIp := 0x0A000001 }
  tcp :=
    { sourcePort := 4000
      destPort := 80
      sequence := sequence
      ack := ack
      offsetFlags := 0x5000 ||| flags
      windowSize := windowSize
      bytes := fun i => payload.getD (i - 20) 0 }

/-- The SYN of the peer, with initial sequence number 0. -/
def peerSyn : TcpPacket := peerPacket 0 0 TCP_SYN 1024 []

/-- The connection that the SYN opens, with initial sequence number 100. -/
def peerConnection : TcpConnection :=
  openConnection listeningStack.tcpConn peerSyn 1 ⟨0, 100⟩ 0 MAX_SEGMENT

theorem peerSyn_opens : Opens listeningStack peerSyn peerConnection where
  listen := rfl
  accepted := ⟨⟨0, 100⟩, _, rfl, rfl⟩
  opened := by decide

end EthTransfer
