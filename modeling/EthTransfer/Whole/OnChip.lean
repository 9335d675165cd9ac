import EthTransfer.Stack.Refinement
import EthTransfer.Transmit.Timer
import EthTransfer.Whole.Packets

/-!
# The stack on the chip

`ip_stack_poll` and the calls of the application as in `EthTransfer.Stack.System`, with the
driver and the chip below them: a frame is handled when `get_packet` has taken it off the chip,
and what answers it goes through `send_packet`, while further frames come in.

* `Links` is a triple for programs that use the driver only through these two functions.
* `HostRun` is a run on the chip, event by event, and `machine_on_chip` says that there is one
  for every sequence of events.
* `Computes` compares the run with a machine that is given its frames.
* `powered_on_chip`: a run from power-on.
-/

namespace EthTransfer

open Program Purge

/-! ## The code -/

/-- The answers for one call of `handle_rx_packet`, apart from those of the chip: the memory of
the packet that it receives, of the one that it sends and in front of this, and `rand`. -/
structure RxInput where
  memory : Bytes
  scratch : Bytes
  below : Bytes
  rand : Rand

/-- The answers for one call of `ip_stack_poll`. -/
structure PollInput where
  receives : ℕ → RxInput
  sends : ℕ → SendInput
  below : ℕ → Bytes

/-- The packets of `send_tcp_packet`. -/
def Stack.tcpPackets (s : Stack) (input : SendInput) (below : Bytes) : List PacketMemory :=
  let checked := s.checkNow input.checked
  let armed := getNow checked.1 input.armed
  EthTransfer.tcpPackets s ⟨checked.2, armed.2⟩ input.scratch below

namespace Bus

variable {σ : Type} [Chip σ]

/-- Packets that go to `send_packet` one after the other. -/
def sendPackets : List PacketMemory → (turns : ℕ) → Bus σ Unit
  | [], _ => pure ()
  | packet :: packets, turns => do
    let _ ← sendPacket packet turns
    sendPackets packets turns

/-- `handle_rx_packet`: the frame, if there is one, and the stack, or `none` when the frame is
handled without end. -/
def handleRxPacket (s : Stack) (input : RxInput) (turns : ℕ) :
    Bus σ (Option RxFrame × Option Stack) := do
  let (packet, found) ← getPacket ⟨input.memory, -1, none⟩
  if found = false then return (none, some s)
  else
    let frame : RxFrame := ⟨packet.received, input.rand⟩
    match handlePacket s packet.type frame input.scratch input.below with
    | none => return (some frame, none)
    | some (s', packets) =>
      sendPackets packets turns
      return (some frame, some s')

/-- The first loop of `ip_stack_poll`, with `n` calls left. -/
def receiveLoop (inputs : ℕ → RxInput) (turns : ℕ) :
    (n i : ℕ) → Stack → Bus σ (List RxFrame × Option Stack)
  | 0, _, s => return ([], some s)
  | n + 1, i, s => do
    match ← handleRxPacket s (inputs i) turns with
    | (none, s') => return ([], s')
    | (some frame, none) => return ([frame], none)
    | (some frame, some s') =>
      let (frames, s'') ← receiveLoop inputs turns n (i + 1) s'
      return (frame :: frames, s'')

/-- `send_tcp_packet`. -/
def sendTcpPacket (s : Stack) (input : SendInput) (below : Bytes) (turns : ℕ) :
    Bus σ (Stack × Bool) := do
  sendPackets (s.tcpPackets input below) turns
  let (s', _, more) := s.sendTcpPacket input
  return (s', more)

/-- The second loop of `ip_stack_poll`. -/
def sendLoop (inputs : ℕ → SendInput) (below : ℕ → Bytes) (turns : ℕ) :
    (n i : ℕ) → Stack → Bus σ Stack
  | 0, _, s => return s
  | n + 1, i, s => do
    let (s', more) ← sendTcpPacket s (inputs i) (below i) turns
    if more then sendLoop inputs below turns n (i + 1) s' else return s'

/-- `ip_stack_poll`, with the frames that it has taken off the chip. -/
def ipStackPoll (s : Stack) (input : PollInput) (turns : ℕ) :
    Bus σ (List RxFrame × Option Stack) := do
  match ← receiveLoop input.receives turns POLL_CALLS 0 s with
  | (frames, none) => return (frames, none)
  | (frames, some s') =>
    let s'' ← sendLoop input.sends input.below turns POLL_CALLS 0 s'
    return (frames, some s'')

end Bus

/-- A call of the application.  Only `write_tcp` polls, and not before the next event. -/
inductive ApiCall where
  | openTcp
  | read (connectionId : Int) (data : Bytes) (off len : Int)
  | write (connectionId : Int) (data : Bytes) (len : Int)
  | shutdown (connectionId : Int)
  | close (connectionId : Int)

def ApiCall.event : ApiCall → AppEvent
  | openTcp => .openTcp
  | read id data off len => .read id data off len
  | write id data len => .write id data len
  | shutdown id => .shutdown id
  | close id => .close id

/-- A call of the application, or one `ip_stack_poll`. -/
inductive HostEvent where
  | poll (input : PollInput)
  | call (call : ApiCall)

/-- The event of the machine, with the frames that came off the chip. -/
def HostEvent.event (frames : List RxFrame) : HostEvent → AppEvent
  | poll input => .poll ⟨frames.take POLL_CALLS, input.sends, List.length_take_le _ _⟩
  | call apiCall => apiCall.event

/-- How many frames an event takes, if there are any. -/
def HostEvent.takes : HostEvent → ℕ
  | poll _ => 1
  | call _ => 0

namespace Bus

variable {σ : Type} [Chip σ]

/-- One event. -/
def machineStep (m : Machine) : HostEvent → (turns : ℕ) → Bus σ (List RxFrame × Option Machine)
  | .poll input, turns =>
    match m.writing with
    | none => do
      let (frames, s) ← ipStackPoll m.stack input turns
      return (frames, s.map fun s => { stack := s })
    | some w => do
      let next := writeStep m.stack w
      let (frames, s) ← ipStackPoll next.1 input turns
      return (frames, s.map fun s =>
        { stack := s, writing := if next.2.len > 0 then some next.2 else none })
  | .call call, _ => return ([], (EthTransfer.machineStep m call.event).map Prod.fst)

/-- One event after the other, with the frames that each of them has taken off the chip. -/
def runMachine (m : Machine) :
    List HostEvent → (turns : ℕ) → Bus σ (List (List RxFrame) × Option Machine)
  | [], _ => return ([], some m)
  | e :: events, turns => do
    match ← machineStep m e turns with
    | (frames, none) => return ([frames], none)
    | (frames, some m') =>
      let (polls, final) ← runMachine m' events turns
      return (frames :: polls, final)

end Bus

/-! ## Programs that use the driver -/

/-- Between two calls of the driver the program may start, and when it returns, it has taken
packets off the chip and sent frames that are in `Q` with its result. -/
def Links {α : Type} (m : ℕ → Bus Transceiver α) (takes : α → ℕ)
    (Q : α → List PacketMemory → List (List UInt8) → Prop) : Prop :=
  ∀ (p : ℕ) (port : Port Transceiver), Between p port →
    (∀ n, ∃ m ≥ n, (port.chip.line m).finishes = true) →
    Program.Returns (fun port' => port' = port) m fun a port' =>
      ∃ packets sent, Q a packets sent ∧ Over port.chip sent (takes a) packets port'

/-- Fewer frames than were taken. -/
theorem Over.fewer {start : Transceiver} {sent : List (List UInt8)} {takes takes' : ℕ}
    {delivered : List PacketMemory} {port : Port Transceiver}
    (h : Over start sent takes delivered port) (hle : takes' ≤ takes) :
    Over start sent takes' delivered port := by
  obtain ⟨read, p, hpassed, hbetween, hbrings, htakes⟩ := h
  exact ⟨read, p, hpassed, hbetween, hbrings, (min_le_min_right _ hle).trans htakes⟩

namespace Links

variable {α β : Type} {m : ℕ → Bus Transceiver α} {k : α → ℕ}
  {Q : α → List PacketMemory → List (List UInt8) → Prop}

theorem pure {a : α} (hnone : k a = 0) (h : Q a [] []) :
    Links (fun _ => (Pure.pure a : Bus Transceiver α)) k Q := by
  intro p port hbetween _
  refine (Program.Returns.pure a).mono (fun port' heq => ?_) fun _ _ hq => hq
  subst heq
  refine ⟨[], [], h, [], p, ?_, hbetween, .nil, hnone ▸ min_le_left _ _⟩
  exact (Grows.refl _).passed (List.append_nil _).symm rfl

theorem seq {f : ℕ → α → Bus Transceiver β} {j : β → ℕ}
    {R : β → List PacketMemory → List (List UInt8) → Prop} (hm : Links m k Q)
    (hf : ∀ a packets sent, Q a packets sent → Links (fun n => f n a) (fun b => j b - k a)
      fun b packets' sent' => R b (packets ++ packets') (sent ++ sent')) :
    Links (fun n => m n >>= f n) j R := by
  intro p port hbetween hfair
  refine (hm p port hbetween hfair).seq fun a => Program.Returns.pointwise fun port₁ h => ?_
  obtain ⟨packets, sent, hq, hover⟩ := h
  obtain ⟨q, hbetween₁, hline⟩ := hover.next
  refine (hf a packets sent hq q port₁ hbetween₁ (by rwa [hline])).weaken fun b port₂ h => ?_
  obtain ⟨packets', sent', hr, hover'⟩ := h
  exact ⟨_, _, hr, (hover.trans hover').fewer le_add_tsub⟩

theorem weaken {R : α → List PacketMemory → List (List UInt8) → Prop} (h : Links m k Q)
    (hr : ∀ a packets sent, Q a packets sent → R a packets sent) : Links m k R := by
  intro p port hbetween hfair
  refine (h p port hbetween hfair).weaken fun a port' hpost => ?_
  obtain ⟨packets, sent, hq, hover⟩ := hpost
  exact ⟨packets, sent, hr a packets sent hq, hover⟩

end Links

/-- A packet that comes off the chip is as `new_arp_packet` and `new_ip_packet` expect it. -/
theorem Over.sound {start : Transceiver} {sent : List (List UInt8)} {takes : ℕ}
    {delivered : List PacketMemory} {port : Port Transceiver}
    (h : Over start sent takes delivered port) : ∀ packet ∈ delivered,
      packet.type = some packet.received.type ∧
        packet.received.length ≤ PACKET_MAX_SIZE - 4 := by
  obtain ⟨read, -, -, -, hbrings, -⟩ := h
  have hfits : ∀ frame ∈ fitting read, (sizeOf frame : Int) ≤ PACKET_MAX_SIZE := fun frame hmem =>
    of_decide_eq_true (List.mem_filter.mp hmem).2
  generalize fitting read = frames at hbrings hfits
  induction hbrings with
  | nil => exact fun packet hmem => nomatch hmem
  | @cons frame packet frames packets hbring _ ih =>
    obtain ⟨hfit, hfits⟩ := List.forall_mem_cons.mp hfits
    refine List.forall_mem_cons.mpr ⟨⟨hbring.ownType, ?_⟩, ih hfits⟩
    have hlength : packet.received.length = sizeOf frame - 4 := hbring.length
    omega

/-- A call of `get_packet`. -/
theorem getPacket_links (packet : PacketMemory) :
    Links (fun _ => Bus.getPacket packet) (fun _ => 1) fun result packets sent =>
      packets = given result ∧ sent = [] ∧ ∀ packet ∈ packets,
        packet.type = some packet.received.type ∧
          packet.received.length ≤ PACKET_MAX_SIZE - 4 := by
  intro p port hbetween _
  refine (Bus.getPacket_returns hbetween packet).weaken fun result port' hover => ?_
  exact ⟨given result, [], ⟨rfl, rfl, hover.sound⟩, hover⟩

theorem sendPackets_links (packets : List PacketMemory) :
    Links (fun turns => Bus.sendPackets packets turns) (fun _ => 0) fun _ taken sent =>
      taken = [] ∧ sent = packets.flatMap framesOf := by
  induction packets with
  | nil => exact Links.pure rfl ⟨rfl, rfl⟩
  | cons packet packets ih =>
    have hsend : Links (fun turns => Bus.sendPacket packet turns) (fun _ => 0) fun _ taken sent =>
        taken = [] ∧ sent = framesOf packet := by
      intro p port hbetween hfair
      refine (Bus.sendPacket_returns hbetween hfair packet).weaken fun _ _ h => ?_
      exact ⟨[], framesOf packet, ⟨rfl, rfl⟩, h.2⟩
    refine hsend.seq fun _ taken sent h => ?_
    obtain ⟨rfl, rfl⟩ := h
    refine ih.weaken fun _ taken' sent' h => ?_
    obtain ⟨rfl, rfl⟩ := h
    exact ⟨rfl, rfl⟩

/-! ## The stack -/

/-- The addresses of the host. -/
structure SameHost (s s' : Stack) : Prop where
  localMac : s'.localMac = s.localMac
  ipAddr : s'.ipAddr = s.ipAddr

theorem SameHost.refl (s : Stack) : SameHost s s := ⟨rfl, rfl⟩

theorem SameHost.trans {s s' s'' : Stack} (h : SameHost s s') (h' : SameHost s' s'') :
    SameHost s s'' := ⟨h'.localMac.trans h.localMac, h'.ipAddr.trans h.ipAddr⟩

theorem SameHost.bytes {s s' : Stack} (h : SameHost s s') (frame : TxFrame) :
    frame.bytes s' = frame.bytes s := by
  obtain ⟨hmac, hip⟩ := h
  cases frame <;> simp only [TxFrame.bytes, hmac, hip]

theorem SameHost.goesOut {s s' : Stack} (h : SameHost s s') {sendings : List Sending}
    {sent : List (List UInt8)} (hgoes : List.Forall₂ (GoesOut s') sendings sent) :
    List.Forall₂ (GoesOut s) sendings sent :=
  hgoes.imp fun sending _ hbytes hlength => (hbytes hlength).trans (h.bytes sending.frame)

theorem handleTcpPacket_host {s s' : Stack} {packet : TcpPacket} {rand : Rand}
    (h : handleTcpPacket s packet rand = some s') : SameHost s s' := by
  refine ⟨?_, handleTcpPacket_ipAddr h⟩
  by_cases hlisten : s.tcpConn.state = .listen
  · rcases handleTcpPacket_listen hlisten packet with hdrop | ⟨-, -, haccept⟩
    · rw [hdrop rand] at h
      rw [← Option.some.inj h]
    · rw [haccept rand] at h
      rcases acceptSyn_cases s packet with hhang | hdrop | ⟨-, windowScale, maxSegment, -, hopen⟩
      · rw [hhang rand] at h
        cases h
      · rw [hdrop rand] at h
        rw [← Option.some.inj h]
      · rw [hopen rand] at h
        rw [← Option.some.inj h]
  · rw [handleTcpPacket_open hlisten] at h
    rw [← Option.some.inj h]

theorem handleRxPacket_host {s s' : Stack} {frame : RxFrame} {frames : List TxFrame}
    (h : handleRxPacket s frame = some (s', frames)) : SameHost s s' := by
  have hsame {frames' : List TxFrame} (heq : some (s, frames') = some (s', frames)) :
      SameHost s s' := by
    rw [(Prod.mk.inj (Option.some.inj heq)).1]
    exact .refl s'
  unfold handleRxPacket at h
  cases htype : frame.packet.type with
  | arp =>
    rw [htype] at h
    exact hsame h
  | ip =>
    rw [htype] at h
    dsimp only at h
    unfold handleIpPacket at h
    split_ifs at h
    · exact hsame h
    · unfold handlePingPacket at h
      dsimp only at h
      split_ifs at h
      · exact hsame h
      all_goals
        rw [← (Prod.mk.inj (Option.some.inj h)).1]
        exact ⟨rfl, rfl⟩
    · obtain ⟨s₁, hstep, heq⟩ := Option.map_eq_some_iff.mp h
      rw [← (Prod.mk.inj heq).1]
      exact handleTcpPacket_host hstep
    · exact hsame h
  | unknown =>
    rw [htype] at h
    exact hsame h

theorem getNow_host (s : Stack) (time : Timespec) : SameHost s (getNow s time).1 := by
  unfold getNow
  dsimp only
  split <;> exact ⟨rfl, rfl⟩

theorem checkNow_host (s : Stack) (time : Timespec) : SameHost s (s.checkNow time).1 := by
  unfold Stack.checkNow
  split
  · exact getNow_host s time
  · exact .refl s

theorem sendTcpPacket_host (s : Stack) (input : SendInput) :
    SameHost s (s.sendTcpPacket input).1 := by
  have hchecked := checkNow_host s input.checked
  unfold Stack.sendTcpPacket
  dsimp only
  split
  · exact .refl s
  · split
    · have harmed := hchecked.trans (getNow_host _ input.armed)
      exact ⟨harmed.localMac, harmed.ipAddr⟩
    · exact hchecked

theorem receiveLoop_host {n : ℕ} {s s' : Stack} {received : List RxFrame} {frames : List TxFrame}
    (h : receiveLoop n s received = some (s', frames)) : SameHost s s' :=
  @receiveLoop_invariant (fun s' _ => SameHost s s')
    (fun hhost hstep => hhost.trans (handleRxPacket_host hstep)) n s s' [] frames received
    (.refl s) h

theorem ipStackPoll_host {s s' : Stack} {poll : Poll} {frames : List TxFrame}
    (h : ipStackPoll s poll = some (s', frames)) : SameHost s s' :=
  ipStackPoll_invariant (fun s' _ => SameHost s s')
    (fun hhost hstep => hhost.trans (handleRxPacket_host hstep))
    (fun input hhost => hhost.trans (sendTcpPacket_host _ input)) [] (.refl s) h

theorem sendTcpPacket_goesOut (s : Stack) (input : SendInput) (below : Bytes) :
    List.Forall₂ (GoesOut s) (s.tcpSends input)
      ((s.tcpPackets input below).flatMap framesOf) := by
  have hgoes := tcpPackets_goesOut s ⟨(s.checkNow input.checked).2,
    (getNow (s.checkNow input.checked).1 input.armed).2⟩ input.scratch below
  unfold Stack.tcpSends Stack.sendTcpPacket Stack.tcpPackets
  unfold tcpSendings at hgoes
  dsimp only
  split_ifs with hlisten hdue
  · simpa [EthTransfer.sendTcpPacket, hlisten] using hgoes
  · simpa [Function.comp_def] using hgoes
  · rw [Bool.or_eq_true, not_or, Bool.not_eq_true, Bool.not_eq_true] at hdue
    simpa [EthTransfer.sendTcpPacket, hlisten, hdue.1, hdue.2] using hgoes

/-- `handlePacket_eq`, as what comes out. -/
theorem handlePacket_goesOut (s : Stack) (frame : RxFrame)
    (hdelivered : frame.packet.length ≤ PACKET_MAX_SIZE - 4) (scratch below : Bytes) :
    (handlePacket s (some frame.packet.type) frame scratch below).map Prod.fst =
        (handleRxPacket s frame).map Prod.fst ∧
      List.Forall₂ (GoesOut s) (s.receiveSends frame)
        (((handlePacket s (some frame.packet.type) frame scratch below).map
          Prod.snd).getD [] |>.flatMap framesOf) := by
  have heq := handlePacket_eq s hdelivered scratch below
  unfold Stack.receiveSends
  cases hpacket : handlePacket s (some frame.packet.type) frame scratch below with
  | none =>
    rw [hpacket] at heq
    rw [Option.map_eq_none_iff.mp heq.symm]
    exact ⟨rfl, .nil⟩
  | some r =>
    rw [hpacket, Option.map_some] at heq
    obtain ⟨⟨s', frames⟩, hframe, hr⟩ := Option.map_eq_some_iff.mp heq.symm
    obtain ⟨hs', hsent⟩ := Prod.mk.inj hr
    dsimp only [Option.map_some, Option.getD_some]
    rw [hframe, ← hs', ← hsent]
    refine ⟨rfl, List.forall₂_map_left_iff.mpr (List.forall₂_map_right_iff.mpr ?_)⟩
    exact List.forall₂_same.mpr fun _ _ _ => rfl

/-! ## On the chip -/

/-- What one call of `handle_rx_packet` can do. -/
inductive HandlesOne (s : Stack) : Option RxFrame × Option Stack → List PacketMemory →
    List (List UInt8) → Prop where
  /-- `get_packet` has nothing more. -/
  | nothing : HandlesOne s (none, some s) [] []
  | frame {packet : PacketMemory} {rand : Rand} {sent : List (List UInt8)}
      (hsent : List.Forall₂ (GoesOut s) (s.receiveSends ⟨packet.received, rand⟩) sent) :
      HandlesOne s (some ⟨packet.received, rand⟩,
        (handleRxPacket s ⟨packet.received, rand⟩).map Prod.fst) [packet] sent

theorem handleRxPacket_links (s : Stack) (input : RxInput) :
    Links (fun turns => Bus.handleRxPacket s input turns) (fun _ => 1) (HandlesOne s) := by
  unfold Bus.handleRxPacket
  refine (getPacket_links _).seq fun result packets sent h => ?_
  obtain ⟨rfl, rfl, hsound⟩ := h
  obtain ⟨packet, found⟩ := result
  cases found with
  | false => exact Links.pure rfl .nothing
  | true =>
    obtain ⟨htype, hlength⟩ := hsound packet (List.mem_singleton_self packet)
    obtain ⟨hfinal, hsent⟩ := handlePacket_goesOut s ⟨packet.received, input.rand⟩ hlength
      input.scratch input.below
    dsimp only at hfinal hsent ⊢
    rw [← htype] at hfinal hsent
    simp only [Bool.true_eq_false, if_false]
    cases hpacket : handlePacket s packet.type ⟨packet.received, input.rand⟩ input.scratch
        input.below with
    | none =>
      rw [hpacket] at hfinal hsent
      have hframe := HandlesOne.frame hsent
      rw [← hfinal] at hframe
      exact Links.pure rfl hframe
    | some r =>
      rw [hpacket] at hfinal hsent
      have hframe := HandlesOne.frame hsent
      rw [← hfinal] at hframe
      refine (sendPackets_links r.2).seq fun _ taken sent h => ?_
      obtain ⟨rfl, rfl⟩ := h
      refine Links.pure rfl ?_
      simp only [List.append_nil, List.nil_append]
      exact hframe

/-- What a loop of calls of `handle_rx_packet` has taken off the chip, and sent. -/
structure Receives (n : ℕ) (s : Stack) (result : List RxFrame × Option Stack)
    (packets : List PacketMemory) (sent : List (List UInt8)) : Prop where
  frames : result.1.map RxFrame.packet = packets.map PacketMemory.received
  length : result.1.length ≤ n
  final : result.2 = (receiveLoop n s result.1).map Prod.fst
  sent : List.Forall₂ (GoesOut s) (receiveLoopSends n s result.1) sent

theorem receiveLoop_links (inputs : ℕ → RxInput) (n i : ℕ) (s : Stack) :
    Links (fun turns => Bus.receiveLoop inputs turns n i s) (fun _ => min n 1) (Receives n s) := by
  induction n generalizing i s with
  | zero => exact Links.pure rfl ⟨rfl, le_rfl, rfl, .nil⟩
  | succ n ih =>
    refine (handleRxPacket_links s (inputs i)).seq fun result packets sent h => ?_
    cases h with
    | nothing => exact Links.pure (by omega) ⟨rfl, Nat.zero_le _, rfl, .nil⟩
    | @frame packet rand _ hsent =>
      cases hstep : handleRxPacket s ⟨packet.received, rand⟩ with
      | none =>
        refine Links.pure (by omega) ⟨rfl, by simp, ?_, ?_⟩
        · simp [receiveLoop, hstep]
        · simpa [receiveLoopSends, hstep] using hsent
      | some r =>
        obtain ⟨s', frames⟩ := r
        refine (ih (i + 1) s').seq fun later packets' sent' h => ?_
        refine Links.pure (by omega) ?_
        have hlater := (handleRxPacket_host hstep).goesOut h.sent
        rw [List.append_nil, List.append_nil]
        refine ⟨?_, ?_, ?_, ?_⟩
        · simp [h.frames]
        · simpa using h.length
        · simp [receiveLoop, hstep, h.final, Function.comp_def]
        · simpa [receiveLoopSends, hstep] using List.rel_append hsent hlater

theorem sendTcpPacket_links (s : Stack) (input : SendInput) (below : Bytes) :
    Links (fun turns => Bus.sendTcpPacket s input below turns) (fun _ => 0) fun result taken sent =>
      taken = [] ∧ result = ((s.sendTcpPacket input).1, (s.sendTcpPacket input).2.2) ∧
        List.Forall₂ (GoesOut s) (s.tcpSends input) sent := by
  unfold Bus.sendTcpPacket
  refine (sendPackets_links _).seq fun _ taken sent h => ?_
  obtain ⟨rfl, rfl⟩ := h
  refine Links.pure rfl ⟨rfl, rfl, ?_⟩
  rw [List.append_nil]
  exact sendTcpPacket_goesOut s input below

theorem sendLoop_links (inputs : ℕ → SendInput) (below : ℕ → Bytes) (n i : ℕ) (s : Stack) :
    Links (fun turns => Bus.sendLoop inputs below turns n i s) (fun _ => 0) fun s' taken sent =>
      taken = [] ∧ s' = (sendLoop inputs n i s).1 ∧
        List.Forall₂ (GoesOut s) (sendLoopSends inputs n i s) sent := by
  induction n generalizing i s with
  | zero => exact Links.pure rfl ⟨rfl, rfl, .nil⟩
  | succ n ih =>
    refine (sendTcpPacket_links s (inputs i) (below i)).seq fun result taken sent h => ?_
    obtain ⟨rfl, rfl, hsent⟩ := h
    dsimp only [sendLoop, sendLoopSends]
    cases hmore : (s.sendTcpPacket (inputs i)).2.2 with
    | false => exact Links.pure rfl ⟨rfl, rfl, by simpa using hsent⟩
    | true =>
      refine (ih (i + 1) _).weaken fun s' taken' sent' h => ?_
      obtain ⟨rfl, rfl, hlater⟩ := h
      have hboth := List.rel_append hsent ((sendTcpPacket_host s (inputs i)).goesOut hlater)
      exact ⟨rfl, rfl, by simpa using hboth⟩

theorem ipStackPoll_links (s : Stack) (input : PollInput) :
    Links (fun turns => Bus.ipStackPoll s input turns) (fun _ => 1) fun result packets sent =>
      result.1.map RxFrame.packet = packets.map PacketMemory.received ∧
        result.1.length ≤ POLL_CALLS ∧
        result.2 = (ipStackPoll s
          ⟨result.1.take POLL_CALLS, input.sends, List.length_take_le _ _⟩).map Prod.fst ∧
        List.Forall₂ (GoesOut s) (pollSends s
          ⟨result.1.take POLL_CALLS, input.sends, List.length_take_le _ _⟩) sent := by
  unfold Bus.ipStackPoll
  refine (receiveLoop_links input.receives POLL_CALLS 0 s).seq ?_
  intro result packets sent h
  obtain ⟨frames, final⟩ := result
  obtain ⟨hframes, hlength, hfinal, hsent⟩ := h
  dsimp only at hframes hlength hfinal hsent ⊢
  cases hloop : receiveLoop POLL_CALLS s frames with
  | none =>
    rw [hloop] at hfinal
    subst hfinal
    refine Links.pure rfl ⟨by simpa using hframes, hlength, ?_, ?_⟩
    · simp [ipStackPoll, List.take_of_length_le hlength, hloop]
    · simpa [pollSends, List.take_of_length_le hlength, hloop] using hsent
  | some r =>
    obtain ⟨s', answers⟩ := r
    rw [hloop] at hfinal
    subst hfinal
    refine (sendLoop_links input.sends input.below POLL_CALLS 0 s').seq ?_
    intro s'' taken sent' h
    obtain ⟨rfl, rfl, hlater⟩ := h
    have hboth := List.rel_append hsent ((receiveLoop_host hloop).goesOut hlater)
    refine Links.pure rfl ⟨by simpa using hframes, hlength, ?_, ?_⟩
    · simp [ipStackPoll, List.take_of_length_le hlength, hloop]
    · simpa [pollSends, List.take_of_length_le hlength, hloop] using hboth

/-! ## Events -/

theorem writeStep_host (s : Stack) (w : Writing) : SameHost s (writeStep s w).1 := by
  unfold writeStep
  exact ⟨rfl, rfl⟩

/-- What one event has taken off the chip, and what it has done with it. -/
structure TakesTurn (m : Machine) (e : HostEvent) (result : List RxFrame × Option Machine)
    (packets : List PacketMemory) (sent : List (List UInt8)) : Prop where
  frames : result.1.map RxFrame.packet = packets.map PacketMemory.received
  length : result.1.length ≤ POLL_CALLS
  final : result.2 = (machineStep m (e.event result.1)).map Prod.fst
  sent : List.Forall₂ (GoesOut m.stack) (m.sends (e.event result.1)) sent

theorem machineStep_links (m : Machine) (e : HostEvent) :
    Links (fun turns => Bus.machineStep m e turns) (fun _ => e.takes) (TakesTurn m e) := by
  cases e with
  | poll input =>
    unfold Bus.machineStep
    cases hwriting : m.writing with
    | none =>
      refine (ipStackPoll_links m.stack input).seq fun result packets sent h => ?_
      obtain ⟨hframes, hlength, hfinal, hsent⟩ := h
      refine Links.pure rfl ⟨by simpa using hframes, hlength, ?_, ?_⟩
      · simp [machineStep, HostEvent.event, hwriting, hfinal, Function.comp_def]
      · simpa [Machine.sends, HostEvent.event, hwriting] using hsent
    | some w =>
      refine (ipStackPoll_links (writeStep m.stack w).1 input).seq ?_
      intro result packets sent h
      obtain ⟨hframes, hlength, hfinal, hsent⟩ := h
      refine Links.pure rfl ⟨by simpa using hframes, hlength, ?_, ?_⟩
      · by_cases hlen : (writeStep m.stack w).2.len > 0 <;>
          simp [machineStep, HostEvent.event, hwriting, hfinal, hlen, Function.comp_def]
      · have hgoes := (writeStep_host m.stack w).goesOut hsent
        simpa [Machine.sends, HostEvent.event, hwriting] using hgoes
  | call call =>
    refine Links.pure rfl ⟨rfl, Nat.zero_le _, rfl, ?_⟩
    have hquiet : m.sends call.event = [] := by cases call <;> rfl
    exact hquiet.symm ▸ .nil

/-! ## Runs -/

theorem machineStep_host {m m' : Machine} {e : AppEvent} {r : AppResult}
    (h : machineStep m e = some (m', r)) : SameHost m.stack m'.stack := by
  cases machineStep_steps h with
  | poll _ hpoll => exact ipStackPoll_host hpoll
  | round _ hpoll _ => exact (writeStep_host _ _).trans (ipStackPoll_host hpoll)
  | began _ => exact .refl _
  | answered _ => exact .refl _
  | called _ _ _ _ _ => exact ⟨rfl, rfl⟩

/-- An event on the chip: it returns, has done what `TakesTurn` says, and has taken a frame, if
it polls and the chip held one. -/
structure HostStep (m : Machine) (port : Port Transceiver) (e : HostEvent)
    (frames : List RxFrame) (final : Option Machine) (port' : Port Transceiver) : Prop where
  ends : Ends (fun turns => Bus.machineStep m e turns) port (frames, final) port'
  turn : ∃ packets sent, TakesTurn m e (frames, final) packets sent ∧
    Over port.chip sent e.takes packets port'

/-- The events one by one, up to the end or to a frame that is handled without end. -/
inductive HostRun : Machine → Port Transceiver → List HostEvent → List (List RxFrame) →
    Option Machine → Port Transceiver → Prop where
  | nil {m : Machine} {port : Port Transceiver} : HostRun m port [] [] (some m) port
  | hangs {m : Machine} {port port' : Port Transceiver} {e : HostEvent} {events : List HostEvent}
      {frames : List RxFrame} (hstep : HostStep m port e frames none port') :
      HostRun m port (e :: events) [frames] none port'
  | cons {m m₁ : Machine} {port port₁ port' : Port Transceiver} {e : HostEvent}
      {events : List HostEvent} {frames : List RxFrame} {polls : List (List RxFrame)}
      {final : Option Machine} (hstep : HostStep m port e frames (some m₁) port₁)
      (hrest : HostRun m₁ port₁ events polls final port') :
      HostRun m port (e :: events) (frames :: polls) final port'

theorem runMachine_returns {p : ℕ} {port : Port Transceiver} (h : Between p port)
    (hfair : ∀ n, ∃ m ≥ n, (port.chip.line m).finishes = true) (m : Machine)
    (events : List HostEvent) :
    Program.Returns (fun port' => port' = port) (fun turns => Bus.runMachine m events turns)
      fun result port' => HostRun m port events result.1 result.2 port' := by
  induction events generalizing p port m with
  | nil => exact (Program.Returns.pure _).mono (fun _ heq => heq ▸ .nil) fun _ _ hrun => hrun
  | cons e events ih =>
    refine (machineStep_links m e p port h hfair).ends.seq fun result =>
      Program.Returns.pointwise fun port₁ hpost => ?_
    obtain ⟨hends, packets, sent, hturn, hover⟩ := hpost
    obtain ⟨frames, final⟩ := result
    have hstep : HostStep m port e frames final port₁ := ⟨hends, packets, sent, hturn, hover⟩
    obtain ⟨q, hbetween, hline⟩ := hover.next
    cases final with
    | none => exact (Program.Returns.pure _).mono (fun _ heq => heq ▸ .hangs hstep) fun _ _ h => h
    | some m₁ =>
      refine (ih hbetween (by rwa [hline]) m₁).seq fun result => ?_
      exact (Program.Returns.pure _).mono (fun _ hrest => .cons hstep hrest) fun _ _ h => h

/-- The machine `m` that is given its frames comes to the same end, a frame without end
included, and its frames are those that were sent. -/
structure Computes (m : Machine) (events : List AppEvent) (final : Option Machine)
    (sent : List (List UInt8)) : Prop where
  final : final = (runLog machineStep m events).map Prod.fst
  frames : ∀ m' log, runLog machineStep m events = some (m', log) →
    (runSends m events).map Sending.frame = sentIn log
  sent : List.Forall₂ (GoesOut m.stack) (runSends m events) sent

/-- What the events do together. -/
theorem HostRun.computes {p : ℕ} {m : Machine} {port port' : Port Transceiver}
    {events : List HostEvent} {polls : List (List RxFrame)} {final : Option Machine}
    (hrun : HostRun m port events polls final port') (h : Between p port) :
    ∃ packets sent,
      Over port.chip sent ((events.take polls.length).map HostEvent.takes).sum packets port' ∧
      polls.flatten.map RxFrame.packet = packets.map PacketMemory.received ∧
      Computes m (List.zipWith HostEvent.event polls events) final sent := by
  induction hrun generalizing p with
  | nil =>
    refine ⟨[], [], ⟨[], p, ?_, h, .nil, min_le_left _ _⟩, rfl, rfl, fun _ _ => runSends_frames,
      .nil⟩
    exact (Grows.refl _).passed (List.append_nil _).symm rfl
  | @hangs m port port' e events frames hstep =>
    obtain ⟨-, packets, sent, ⟨hframes, -, hfinal, hsent⟩, hover⟩ := hstep
    have hstuck : machineStep m (e.event frames) = none :=
      Option.map_eq_none_iff.mp hfinal.symm
    refine ⟨packets, sent, by simpa using hover, by simpa using hframes, ?_, fun _ _ =>
      runSends_frames, ?_⟩
    · simp [runLog, hstuck]
    · simpa [runSends, hstuck] using hsent
  | @cons m m₁ port port₁ port' e events frames polls final hstep hrest ih =>
    obtain ⟨-, packets, sent, ⟨hframes, -, hfinal, hsent⟩, hover⟩ := hstep
    obtain ⟨q, hbetween, -⟩ := hover.next
    obtain ⟨packets', sent', hover', hpolls, hrest', -, hlater⟩ := ih hbetween
    obtain ⟨⟨m₂, result⟩, hstep, rfl⟩ := Option.map_eq_some_iff.mp hfinal.symm
    have hboth := List.rel_append hsent ((machineStep_host hstep).goesOut hlater)
    refine ⟨packets ++ packets', sent ++ sent', ?_, ?_, ?_, fun _ _ => runSends_frames, ?_⟩
    · simpa using hover.trans hover'
    · simpa [hpolls] using hframes
    · simp [runLog, hstep, hrest', Function.comp_def]
    · simpa [runSends, hstep] using hboth

/-- A frame as the stack gets it. -/
structure SeenAs (frame : List UInt8) (packet : EthPacket) : Prop where
  bytes : ∀ i, (h : i < frame.length) → packet.buffer i = frame[i]
  length : packet.length = sizeOf frame - 4

/-- Over every run of the machine, and whatever comes in between any two commands of the driver,
the machine does with the frames that `get_packet` takes off the chip what it does with them
when they are given to it, and the chip sends the bytes of its frames and of nothing else.  No
frame is taken twice or out of order, and every poll takes one when the chip holds one. -/
theorem machine_on_chip {p : ℕ} {port : Port Transceiver} (h : Between p port)
    (hfair : ∀ n, ∃ m ≥ n, (port.chip.line m).finishes = true) (m : Machine)
    (events : List HostEvent) :
    ∃ polls final port' packets sent,
      Ends (fun turns => Bus.runMachine m events turns) port (polls, final) port' ∧
      HostRun m port events polls final port' ∧
      Over port.chip sent ((events.take polls.length).map HostEvent.takes).sum packets port' ∧
      polls.flatten.map RxFrame.packet = packets.map PacketMemory.received ∧
      Computes m (List.zipWith HostEvent.event polls events) final sent := by
  obtain ⟨⟨polls, final⟩, port', hends, hrun⟩ := runMachine_returns h hfair m events port rfl
  obtain ⟨packets, sent, hover, hpolls, hcomputes⟩ := hrun.computes h
  exact ⟨polls, final, port', packets, sent, hends, hrun, hover, hpolls, hcomputes⟩

/-- A poll, a call of the application, and a poll again. -/
def hostEvents : List HostEvent :=
  let poll : HostEvent := .poll
    ⟨fun _ => ⟨fun _ => 0, fun _ => 0, fun _ => 0, ⟨0, 1⟩⟩,
      fun _ => ⟨⟨5, 0⟩, ⟨5, 0⟩, fun _ => 0⟩, fun _ _ => 0⟩
  [poll, .call .openTcp, poll]

theorem machine_on_chip_busyLine :
    ∃ polls final port' packets sent,
      Ends (fun turns => Bus.runMachine { stack := listeningStack } hostEvents turns)
        ⟨busyLine, [], 0, ⟨.replicate 6 0⟩⟩ (polls, final) port' ∧
      HostRun { stack := listeningStack } ⟨busyLine, [], 0, ⟨.replicate 6 0⟩⟩ hostEvents polls
        final port' ∧
      Over busyLine sent ((hostEvents.take polls.length).map HostEvent.takes).sum packets port' ∧
      polls.flatten.map RxFrame.packet = packets.map PacketMemory.received ∧
      Computes { stack := listeningStack } (List.zipWith HostEvent.event polls hostEvents) final
        sent :=
  machine_on_chip busyLine_between busyLine_finishes _ hostEvents

/-! ## From power-on -/

/-- `init_ip` behind `init_ethernet`; `rand` is the value of `rand`. -/
def Stack.initIp (s : Stack) (addr : UInt32) (rand : Int) : Stack :=
  { s with
    ipAddr := addr
    identificationCounter := UInt16.ofInt rand
    connectionCounter := 1
    tcpConn := { s.tcpConn with state := .listen } }

namespace Bus

variable {σ : Type}

/-- `get_local_mac`. -/
def getLocalMac [Chip σ] : Bus σ EthMac := return (← get).macAddress

/-- `init_ip`, with the address that `init_ethernet` uses. -/
def initIp [ResetChip σ] (s : Stack) (addr : UInt32) (rand : Int) (mac : EthMac) (turns : ℕ) :
    Bus σ (Bool × Stack) := do
  let ready ← initEthernet mac turns
  let localMac ← getLocalMac
  let s := { s with localMac := localMac }
  if ready = false then return (false, s)
  else return (true, s.initIp addr rand)

theorem initIp_returns {port : Port Transceiver} (hstack : port.bankStack = [])
    (hbank : port.currentBank = 0) (hline : Lively port.chip.line) (s : Stack) (addr : UInt32)
    (rand : Int) (mac : EthMac) :
    Program.Returns (fun port' => port' = port) (fun turns => initIp s addr rand mac turns)
      fun result port' => result = (true, { s with localMac := mac }.initIp addr rand) ∧
        Fresh mac port.chip.line port' := by
  unfold initIp
  refine (initEthernet_returns hstack hbank hline mac).seq fun ready => ?_
  refine Program.Returns.assume fun hready => ?_
  refine Program.Returns.seq
    (Q := fun localMac port' => localMac = mac ∧ Fresh mac port.chip.line port')
    (.of_ok fun port' h => ⟨_, _, rfl, h.localMac, h⟩) fun localMac => ?_
  refine Program.Returns.assume fun hmac => ?_
  subst hready hmac
  exact (Program.Returns.pure _).mono (fun _ h => ⟨rfl, h⟩) fun _ _ h => h

end Bus

/-- From power-on: `init_ip` finds the chip, whatever state it and the stack were in.  Then,
over every run of the machine, the frames that the chip has stored are those that were read, in
their order, and those that it still holds.  The machine handles what fits into a packet, byte
for byte, and the chip has sent the bytes of the frames that the machine sends when it is given
these, and of nothing else. -/
theorem powered_on_chip {port : Port Transceiver} (hstack : port.bankStack = [])
    (hbank : port.currentBank = 0) (hline : Bus.Lively port.chip.line) (s : Stack) (addr : UInt32)
    (rand : Int) (mac : EthMac) (events : List HostEvent) :
    ∃ s' booted polls final port',
      Ends (fun turns => Bus.initIp s addr rand mac turns) port (true, s') booted ∧
      s'.ipAddr = addr ∧ s'.localMac = mac ∧ s'.tcpConn.state = .listen ∧
      Ends (fun turns => Bus.runMachine { stack := s' } events turns) booted (polls, final) port' ∧
      HostRun { stack := s' } booted events polls final port' ∧
      (∃ read p, port'.chip.stored = read ++ port'.chip.held.map Prod.snd ∧ Between p port' ∧
        List.Forall₂ SeenAs (fitting read) (polls.flatten.map RxFrame.packet)) ∧
      Computes { stack := s' } (List.zipWith HostEvent.event polls events) final
        port'.chip.sent := by
  obtain ⟨_, booted, hboot, rfl, hfresh⟩ :=
    Bus.initIp_returns hstack hbank hline s addr rand mac port rfl
  obtain ⟨⟨polls, final⟩, port', hends, hrun⟩ :=
    runMachine_returns hfresh.between (hfresh.line ▸ hline.finishes) _ events booted rfl
  obtain ⟨packets, sent, ⟨read, p, hpassed, hbetween, hbrings, -⟩, hpolls, hcomputes⟩ :=
    hrun.computes hfresh.between
  obtain ⟨hstored, hsent⟩ := hfresh.passed hpassed
  refine ⟨_, booted, polls, final, port', hboot, rfl, rfl, rfl, hends, hrun,
    ⟨read, p, hstored, hbetween, ?_⟩, hsent ▸ hcomputes⟩
  rw [hpolls]
  exact List.forall₂_map_right_iff.mpr (hbrings.imp fun _ _ h => ⟨h.ownBytes, h.length⟩)

theorem powered_on_chip_lateLine :
    ∃ s' booted polls final port',
      Ends (fun turns => Bus.initIp openedStack 0x0A000001 7 ⟨.replicate 6 2⟩ turns)
        ⟨lateLine, [], 0, ⟨.replicate 6 0⟩⟩ (true, s') booted ∧
      s'.ipAddr = 0x0A000001 ∧ s'.localMac = ⟨.replicate 6 2⟩ ∧ s'.tcpConn.state = .listen ∧
      Ends (fun turns => Bus.runMachine { stack := s' } hostEvents turns) booted (polls, final)
        port' ∧
      HostRun { stack := s' } booted hostEvents polls final port' ∧
      (∃ read p, port'.chip.stored = read ++ port'.chip.held.map Prod.snd ∧ Between p port' ∧
        List.Forall₂ SeenAs (fitting read) (polls.flatten.map RxFrame.packet)) ∧
      Computes { stack := s' } (List.zipWith HostEvent.event polls hostEvents) final
        port'.chip.sent :=
  powered_on_chip rfl rfl lateLine_lively openedStack _ _ _ hostEvents

end EthTransfer
