import EthTransfer.Driver.Boot
import EthTransfer.Frames.Scratch
import EthTransfer.Lib.Purge
import EthTransfer.Stack.System

/-!
# What the stack hands to the driver

The functions of `ip_stack.c` that handle a packet of `get_packet`, with the packets that they
hand to `send_packet`.  `EthTransfer.Frames.Transmit` has the same code with the bytes that go
out, and `EthTransfer.Stack` the same again with their fields.

* `handlePacket_eq`: the packets go out as the bytes of the frames that `handleRxPacket` sends.
* `Sending` is a frame with the connection that a segment is built from, and `GoesOut` says
  which bytes go out for it (`tcpPackets_goesOut`).
* `runSends` is what a machine sends, also up to a frame that it handles without end.
-/

namespace EthTransfer

open Purge

/-! ## Received packets -/

/-- `handle_arp_packet`. -/
def arpPackets (s : Stack) (packet : ArpPacket) (scratch : Bytes) : List PacketMemory :=
  if packet.length < 0 then []
  else if le16 packet.header 6 = 0x0001 then
    if le32 packet.header 24 = s.ipAddr then [⟨arpReplyBuffer s packet scratch, 42, some .arp⟩]
    else []
  else []

/-- `handle_ping_packet`. -/
def pingPackets (s : Stack) (packet : IpPacket) (scratch below : Bytes) :
    Option (Stack × List PacketMemory) :=
  let header := ntohPing packet.header packet.transport
  let ip := ipHeader header
  if header packet.transport ≠ 8 ∨ header (packet.transport + 1) ≠ 0 then some (s, [])
  else if pingPayloadLength ip < 0 then none
  else
    let buffer := echoReplyBuffer s packet header scratch
    let buffer := putIpChecksum below buffer
    let buffer := putPingChecksum below buffer (pingPayloadLength ip + 8)
    let length : Int := (UInt16.ofInt (pingPayloadLength ip + 20 + 8)).toNat + 14
    some ({ s with identificationCounter := s.identificationCounter + 1 },
      [⟨buffer, length, some .ip⟩])

/-- `handle_ip_packet`. -/
def ipPackets (s : Stack) (packet : IpPacket) (rand : Rand) (scratch below : Bytes) :
    Option (Stack × List PacketMemory) :=
  if packet.length < 0 then some (s, [])
  else if packet.header 9 = 1 then pingPackets s packet scratch below
  else if packet.header 9 = 6 then
    (handleTcpPacket s packet.tcpPacket rand).map fun s' => (s', [])
  else some (s, [])

/-- `handle_rx_packet` behind `get_packet`, which has set the type. -/
def handlePacket (s : Stack) (type : Option EthType) (frame : RxFrame) (scratch below : Bytes) :
    Option (Stack × List PacketMemory) :=
  match type with
  | some .arp => some (s, arpPackets s (newArpPacket frame.packet) scratch)
  | some .ip => ipPackets s (newIpPacket frame.packet) frame.rand scratch below
  | _ => some (s, [])

/-- `send_packet` of the driver sends what `sendPacket` says. -/
theorem framesOf_eq (buffer : Bytes) (length : Int) (type : EthType) :
    framesOf ⟨buffer, length, some type⟩ = (sendPacket buffer length).toList := by
  have hsend : Sendable ⟨buffer, length, some type⟩ ↔
      ¬ (length < 0 ∨ length > PACKET_MAX_SIZE) := by simp [Sendable]
  unfold framesOf sendPacket
  rw [if_congr hsend rfl rfl, ite_not]
  split_ifs <;> rfl

theorem arpPackets_frames (s : Stack) (packet : ArpPacket) (scratch : Bytes) :
    (arpPackets s packet scratch).flatMap framesOf = arpBytes s packet scratch := by
  unfold arpPackets arpBytes
  split_ifs
  · rfl
  · rw [List.flatMap_singleton, framesOf_eq]
  · rfl
  · rfl

theorem pingPackets_frames (s : Stack) {packet : IpPacket} (htype : packet.ethPacket.type = .ip)
    (hlt : pingPayloadLength (ipHeader (ntohPing packet.header packet.transport)) < 65508)
    (scratch below : Bytes) :
    (pingPackets s packet scratch below).map (fun r => (r.1, r.2.flatMap framesOf)) =
      (handlePingPacket s packet).map fun r => (r.1, r.2.map (TxFrame.bytes s)) := by
  have hbytes := echoBytes_eq s htype hlt scratch below
  unfold echoBytes handlePingPacket at hbytes
  unfold pingPackets handlePingPacket
  dsimp only at hbytes ⊢
  split_ifs at hbytes ⊢
  · rfl
  · rfl
  all_goals
    simp only [Option.map_some, List.flatMap_singleton, framesOf_eq]
    exact congrArg some (Prod.ext rfl (Option.some.inj hbytes))

/-- The packets go out as the bytes of the frames that `handle_rx_packet` sends. -/
theorem handlePacket_eq (s : Stack) {frame : RxFrame}
    (hdelivered : frame.packet.length ≤ PACKET_MAX_SIZE - 4) (scratch below : Bytes) :
    (handlePacket s (some frame.packet.type) frame scratch below).map
        (fun r => (r.1, r.2.flatMap framesOf)) =
      (handleRxPacket s frame).map fun r => (r.1, r.2.map (TxFrame.bytes s)) := by
  unfold handlePacket handleRxPacket
  cases htype : frame.packet.type with
  | arp =>
    dsimp only
    rw [Option.map_some, Option.map_some, arpPackets_frames, arpBytes_eq s htype]
  | ip =>
    dsimp only
    unfold ipPackets handleIpPacket
    split_ifs with hinvalid hping htcp
    · rfl
    · by_cases hecho : ntohPing (newIpPacket frame.packet).header
          (newIpPacket frame.packet).transport (newIpPacket frame.packet).transport = 8
      · exact pingPackets_frames s htype (pingPayloadLength_lt hdelivered hinvalid hecho) _ _
      · simp [pingPackets, handlePingPacket, hecho]
    · rw [Option.map_map, Option.map_map]
      rfl
    · rfl
  | unknown => rfl

/-! ## Segments -/

/-- The branch `if (send)` of `send_tcp_packet`. -/
def transmitPacket (s : Stack) (c : TcpConnection) (scratch below : Bytes) : PacketMemory :=
  let buffer := segmentBuffer s c scratch
  let buffer := putIpChecksum below buffer
  let buffer := putTcpChecksum below buffer (sendOffset c + sendLength c)
  ⟨buffer, 14 + (buildSegment c scratch).totalLength.toNat, some .ip⟩

/-- `send_tcp_packet`. -/
def tcpPackets (s : Stack) (clock : Clock) (scratch below : Bytes) : List PacketMemory :=
  if s.tcpConn.state = .listen then []
  else ((sendFrom s.tcpConn clock).map fun c => transmitPacket s c scratch below).toList

/-- A frame that the stack sends.  For a segment, `origin` is the connection that it is built
from. -/
structure Sending where
  frame : TxFrame
  origin : Option TcpConnection

/-- The frame goes out as its bytes.  Nothing is said of a segment that is built from a
connection with 2^31 bytes or more to send, whose `data_length` is negative. -/
def GoesOut (s : Stack) (sending : Sending) (bytes : List UInt8) : Prop :=
  (∀ c ∈ sending.origin, 0 ≤ sendLength c) → bytes = sending.frame.bytes s

/-- What `send_tcp_packet` sends. -/
def tcpSendings (s : Stack) (clock : Clock) (scratch : Bytes) : List Sending :=
  (sendTcpPacket s.tcpConn clock scratch).sent.toList.map fun segment =>
    ⟨.tcp s.identificationCounter segment, sendFrom s.tcpConn clock⟩

theorem tcpPackets_goesOut (s : Stack) (clock : Clock) (scratch below : Bytes) :
    List.Forall₂ (GoesOut s) (tcpSendings s clock scratch)
      ((tcpPackets s clock scratch below).flatMap framesOf) := by
  unfold tcpPackets tcpSendings
  by_cases hlisten : s.tcpConn.state = .listen
  · simp [sendTcpPacket, hlisten]
  rw [if_neg hlisten, sendTcpPacket_eq hlisten]
  cases hfrom : sendFrom s.tcpConn clock with
  | none => exact .nil
  | some c =>
    have hframes : framesOf (transmitPacket s c scratch below) =
        (segmentBytes s c scratch below).toList := framesOf_eq _ _ _
    simp only [Option.map_some, Option.toList_some, List.flatMap_singleton, hframes]
    have hfits : (buildSegment c scratch).fits = (segmentBytes s c scratch below).isSome := by
      unfold TxSegment.fits segmentBytes sendPacket
      dsimp only
      split_ifs with hrange
      · exact decide_eq_false (by omega)
      · exact decide_eq_true (by omega)
    unfold transmit
    dsimp only
    rw [hfits]
    cases hbytes : segmentBytes s c scratch below with
    | none => exact .nil
    | some bytes =>
      refine .cons (fun hlength => ?_) .nil
      obtain ⟨n, hn⟩ := Int.eq_ofNat_of_zero_le (hlength c rfl)
      rw [segmentBytes_eq s c scratch below hn] at hbytes
      exact (Option.some.inj hbytes).symm

/-! ## What the stack sends -/

/-- `handle_rx_packet`.  A frame that is handled without end is not answered. -/
def Stack.receiveSends (s : Stack) (frame : RxFrame) : List Sending :=
  match handleRxPacket s frame with
  | some (_, frames) => frames.map (⟨·, none⟩)
  | none => []

/-- The first loop of `ip_stack_poll`, also when it does not end. -/
def receiveLoopSends : (n : ℕ) → Stack → List RxFrame → List Sending
  | 0, _, _ => []
  | _ + 1, _, [] => []
  | n + 1, s, frame :: rest =>
    s.receiveSends frame ++
      match handleRxPacket s frame with
      | some (s', _) => receiveLoopSends n s' rest
      | none => []

/-- `send_tcp_packet`. -/
def Stack.tcpSends (s : Stack) (input : SendInput) : List Sending :=
  let checked := s.checkNow input.checked
  let armed := getNow checked.1 input.armed
  (s.sendTcpPacket input).2.1.map (⟨·, sendFrom s.tcpConn ⟨checked.2, armed.2⟩⟩)

/-- The second loop of `ip_stack_poll`. -/
def sendLoopSends (inputs : ℕ → SendInput) : (n i : ℕ) → Stack → List Sending
  | 0, _, _ => []
  | n + 1, i, s =>
    let (s', _, more) := s.sendTcpPacket (inputs i)
    s.tcpSends (inputs i) ++ if more then sendLoopSends inputs n (i + 1) s' else []

/-- `ip_stack_poll`. -/
def pollSends (s : Stack) (poll : Poll) : List Sending :=
  receiveLoopSends POLL_CALLS s poll.frames ++
    match receiveLoop POLL_CALLS s poll.frames with
    | some (s', _) => sendLoopSends poll.sends POLL_CALLS 0 s'
    | none => []

/-- One event of the machine.  Only a poll sends. -/
def Machine.sends (m : Machine) : AppEvent → List Sending
  | .poll poll =>
    match m.writing with
    | some w => pollSends (writeStep m.stack w).1 poll
    | none => pollSends m.stack poll
  | _ => []

/-- One event after the other. -/
def runSends (m : Machine) : List AppEvent → List Sending
  | [] => []
  | e :: rest =>
    m.sends e ++
      match machineStep m e with
      | some (m', _) => runSends m' rest
      | none => []

theorem Stack.receiveSends_frames {s s' : Stack} {frame : RxFrame} {frames : List TxFrame}
    (h : handleRxPacket s frame = some (s', frames)) :
    (s.receiveSends frame).map Sending.frame = frames := by
  simp [receiveSends, h, Function.comp_def]

theorem Stack.tcpSends_frames (s : Stack) (input : SendInput) :
    (s.tcpSends input).map Sending.frame = (s.sendTcpPacket input).2.1 := by
  simp [tcpSends, Function.comp_def]

theorem receiveLoopSends_frames {n : ℕ} {s s' : Stack} {received : List RxFrame}
    {frames : List TxFrame} (h : receiveLoop n s received = some (s', frames)) :
    (receiveLoopSends n s received).map Sending.frame = frames := by
  induction n generalizing s received frames with
  | zero =>
    obtain ⟨-, rfl⟩ := Prod.mk.inj (Option.some.inj h)
    rfl
  | succ n ih =>
    cases received with
    | nil =>
      obtain ⟨-, rfl⟩ := Prod.mk.inj (Option.some.inj h)
      rfl
    | cons frame rest =>
      obtain ⟨⟨s₁, sent⟩, hframe, hrest⟩ := Option.bind_eq_some_iff.mp h
      obtain ⟨⟨s₂, later⟩, hloop, heq⟩ := Option.map_eq_some_iff.mp hrest
      obtain ⟨rfl, rfl⟩ := Prod.mk.inj heq
      rw [receiveLoopSends, hframe, List.map_append, Stack.receiveSends_frames hframe, ih hloop]

theorem sendLoopSends_frames (inputs : ℕ → SendInput) (n i : ℕ) (s : Stack) :
    (sendLoopSends inputs n i s).map Sending.frame = (sendLoop inputs n i s).2 := by
  induction n generalizing i s with
  | zero => rfl
  | succ n ih =>
    rw [sendLoopSends, sendLoop, List.map_append, Stack.tcpSends_frames]
    dsimp only
    split_ifs
    · rw [ih]
    · rw [List.map_nil, List.append_nil]

theorem pollSends_frames {s s' : Stack} {poll : Poll} {frames : List TxFrame}
    (h : ipStackPoll s poll = some (s', frames)) :
    (pollSends s poll).map Sending.frame = frames := by
  obtain ⟨⟨s₁, sent⟩, hloop, heq⟩ := Option.map_eq_some_iff.mp h
  have hsends := sendLoopSends_frames poll.sends POLL_CALLS 0 s₁
  dsimp only at heq
  generalize sendLoop poll.sends POLL_CALLS 0 s₁ = looped at heq hsends
  obtain ⟨-, rfl⟩ := Prod.mk.inj heq
  rw [pollSends, hloop, List.map_append, receiveLoopSends_frames hloop, hsends]

/-- A call of the application sends nothing. -/
theorem machineStep_quiet {m m' : Machine} {e : AppEvent} {result : AppResult}
    (hcall : ∀ poll, e ≠ .poll poll) (h : machineStep m e = some (m', result)) :
    result.frames = [] := by
  cases machineStep_steps h with
  | poll _ _ => exact absurd rfl (hcall _)
  | round _ _ _ => exact absurd rfl (hcall _)
  | began _ => rfl
  | answered _ => rfl
  | called _ _ _ _ hframes => exact hframes

theorem Machine.sends_frames {m m' : Machine} {e : AppEvent} {result : AppResult}
    (h : machineStep m e = some (m', result)) :
    (m.sends e).map Sending.frame = result.frames := by
  cases e with
  | poll poll =>
    unfold machineStep at h
    unfold Machine.sends
    cases hwriting : m.writing with
    | none =>
      rw [hwriting] at h
      obtain ⟨⟨s, frames⟩, hpoll, heq⟩ := Option.map_eq_some_iff.mp h
      obtain ⟨-, rfl⟩ := Prod.mk.inj heq
      exact pollSends_frames hpoll
    | some w =>
      rw [hwriting] at h
      obtain ⟨⟨s, frames⟩, hpoll, heq⟩ := Option.map_eq_some_iff.mp h
      dsimp only at heq
      split at heq <;>
      · obtain ⟨-, rfl⟩ := Prod.mk.inj heq
        exact pollSends_frames hpoll
  | _ => exact (machineStep_quiet (fun _ heq => by cases heq) h).symm

/-- The frames of a run. -/
def sentIn {σ ε : Type} (log : List (Entry σ ε AppResult)) : List TxFrame :=
  log.flatMap fun entry => entry.output.frames

theorem runSends_frames {m m' : Machine} {events : List AppEvent}
    {log : List (Entry Machine AppEvent AppResult)}
    (h : runLog machineStep m events = some (m', log)) :
    (runSends m events).map Sending.frame = sentIn log := by
  induction events generalizing m log with
  | nil =>
    obtain ⟨-, rfl⟩ := Prod.mk.inj (Option.some.inj h)
    rfl
  | cons e rest ih =>
    obtain ⟨⟨m₁, result⟩, hstep, hrest⟩ := Option.bind_eq_some_iff.mp h
    obtain ⟨⟨m₂, later⟩, hrun, heq⟩ := Option.map_eq_some_iff.mp hrest
    obtain ⟨rfl, rfl⟩ := Prod.mk.inj heq
    rw [runSends, hstep, List.map_append, Machine.sends_frames hstep, ih hrun]
    rfl

end EthTransfer
