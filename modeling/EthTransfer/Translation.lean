import Mathlib.Data.List.GetD
import EthTransfer.Stack.Connection

/-!
# Sequence numbers

The stack compares sequence numbers relative to the initial ones only, so it does
not matter where a stream begins, and nothing changes when the numbers wrap.
`shift` moves the numbers: those of the peer by `a`, those of the stack by `b`.

* Each function of the stack commutes with the shift (`tcpInput_shift`,
  `sendTcpPacket_shift` and so on), and so does a step (`connStep_shift`).
* `translation_invariant` lifts that to runs: the shifted events make a run whose
  states and outputs are the shifted ones.

There is one exception.  `handle_tcp_packet` does not check that the offset field
of a segment leaves room for the header.  With a smaller one the payload begins
inside the header, and the application reads the sequence number as data
(`header_read_as_data`).
-/

namespace EthTransfer

open GuardedRun

/-! ## The shift -/

/-- The connection with the sequence numbers of the peer moved by `a`, and its own by
`b`. -/
def TcpConnection.shift (a b : UInt32) (c : TcpConnection) : TcpConnection :=
  { c with remoteSequence := c.remoteSequence + a, localSequence := c.localSequence + b }

/-- A segment of the peer with the numbers moved.  They also stand in the header in
memory; `bytes` is that memory. -/
def TcpPacket.shift (a b : UInt32) (bytes : Bytes) (packet : TcpPacket) : TcpPacket :=
  { packet with
    tcp :=
      { packet.tcp with
        sequence := packet.tcp.sequence + a
        ack := packet.tcp.ack + b
        bytes := bytes } }

/-- `packet'` is `packet` with the numbers moved.  Behind the 20 bytes of the header
the memory is the same. -/
def TcpPacket.Shifted (a b : UInt32) (packet packet' : TcpPacket) : Prop :=
  ∃ bytes, (∀ i, 20 ≤ i → bytes i = packet.tcp.bytes i) ∧ packet' = packet.shift a b bytes

/-- A segment of the stack with the numbers moved. -/
def TxSegment.shift (a b : UInt32) (segment : TxSegment) : TxSegment :=
  { segment with sequence := segment.sequence + b, ack := segment.ack + a }

/-- The output of an event with the numbers moved. -/
def ConnOutput.shift (a b : UInt32) (o : ConnOutput) : ConnOutput :=
  { o with sent := o.sent.map (TxSegment.shift a b) }

/-- An event with the numbers moved.  The packets of other hosts and the calls stay
what they are. -/
inductive ShiftedEvent (ipAddr : UInt32) (c : TcpConnection) (a b : UInt32) :
    ConnEvent → ConnEvent → Prop where
  | peer {packet packet' : TcpPacket} (h : packet.Shifted a b packet') :
      ShiftedEvent ipAddr c a b (.receive packet) (.receive packet')
  | foreign {packet : TcpPacket} (h : ¬ Addressed ipAddr c packet) :
      ShiftedEvent ipAddr c a b (.receive packet) (.receive packet)
  | call {e : ConnEvent} (h : ∀ packet, e ≠ .receive packet) : ShiftedEvent ipAddr c a b e e

/-- The payload of every segment that passes the checks lies behind the header. -/
def WholeHeader (ipAddr : UInt32) : ConnGuard := fun _ c e =>
  ∀ packet, e = .receive packet → Addressed ipAddr c packet →
    packet.tcp.has TCP_RST = false → Accepts c packet → 0 < packet.dataLength →
    20 ≤ packet.tcp.dataOffset

instance (ipAddr : UInt32) (h : ConnHistory) (c : TcpConnection) (e : ConnEvent) :
    Decidable (WholeHeader ipAddr h c e) :=
  inferInstanceAs (Decidable (∀ packet, e = .receive packet → _))

/-! ## The receiver -/

section Receiver

variable (a b : UInt32) (c : TcpConnection) {packet : TcpPacket} {bytes : Bytes}

/-- `add_segment` works with offsets. -/
theorem addSegment_shift (data : Bytes) (dataLength : Int) (dest : UInt32) :
    (addSegment (c.shift a b) data dataLength dest).1 =
      (addSegment c data dataLength dest).1.shift a b := by
  have hwrite : (c.shift a b).rxWrite = c.rxWrite := rfl
  have hsegments : (c.shift a b).rxSegments = c.rxSegments := rfl
  unfold addSegment
  rw [hwrite, hsegments]
  by_cases hold : dest + UInt32.ofInt dataLength ≤ c.rxWrite
  · rw [if_pos hold, if_pos hold]
  · rw [if_neg hold, if_neg hold]
    dsimp only
    cases hfind : findLatest ⟨dest, UInt32.ofInt dataLength⟩ c.rxSegments 0 (-1) 0 with
    | none => rfl
    | some result =>
      dsimp only
      by_cases hfull : c.rxSegments.length = SEG_MASK
      · rw [if_pos hfull, if_pos hfull, findLatest_index hfind]
        rfl
      · rw [if_neg hfull, if_neg hfull]
        rfl

/-- `add_segment` reads the bytes of the payload only. -/
theorem addSegment_congr {data data' : Bytes} {dataLength : Int} (dest : UInt32)
    (hdata : 0 < dataLength → data' = data) :
    addSegment c data' dataLength dest = addSegment c data dataLength dest := by
  have hcopy : copyToCircleBuffer c.rxBuffer RX_MASK dest data' dataLength dataLength =
      copyToCircleBuffer c.rxBuffer RX_MASK dest data dataLength dataLength := by
    rcases Int.lt_or_le 0 dataLength with hpos | hnone
    · rw [hdata hpos]
    · unfold copyToCircleBuffer
      simp only [hnone, if_true]
  unfold addSegment
  rw [hcopy]

/-- The offset of a segment, and the one that it acknowledges. -/
theorem base_shift :
    (packet.shift a b bytes).base (c.shift a b) = packet.base c ∧
      (packet.shift a b bytes).ackOffset (c.shift a b) = packet.ackOffset c := by
  have hcancel : ∀ x y z : UInt32, x + z - (y + z) = x - y := by
    intro x y z
    grind
  exact ⟨hcancel _ _ _, hcancel _ _ _⟩

theorem receiveAck_shift :
    receiveAck (c.shift a b) (packet.shift a b bytes) = (receiveAck c packet).shift a b := by
  have hack : packet.tcp.ack + b - (c.localSequence + b) = packet.tcp.ack - c.localSequence :=
    (@base_shift a b c packet bytes).2
  unfold receiveAck
  dsimp only [TcpPacket.shift, TcpConnection.shift]
  rw [hack]
  rfl

/-- A segment is accepted or not whatever its numbers are. -/
theorem accepts_shift :
    Accepts (c.shift a b) (packet.shift a b bytes) ↔ Accepts c packet :=
  ⟨fun h => ⟨h.nonneg, h.le_max, h.window, h.no_syn, h.ack⟩,
    fun h => ⟨h.nonneg, h.le_max, h.window, h.no_syn, h.ack⟩⟩

theorem receiveSegment_shift
    (hpayload : Accepts c packet → 0 < packet.dataLength →
      (packet.shift a b bytes).payload = packet.payload) :
    receiveSegment (c.shift a b) (packet.shift a b bytes) =
      (receiveSegment c packet).shift a b := by
  by_cases haccepts : Accepts c packet
  · have hbase := (@base_shift a b c packet bytes).1
    rw [receiveSegment_of_accepts haccepts,
      receiveSegment_of_accepts ((accepts_shift a b c).mpr haccepts), hbase]
    show receiveFin (receiveAck (addSegment (c.shift a b) _ packet.dataLength _).1 _) _ _ = _
    rw [addSegment_congr (c.shift a b) _ (hpayload haccepts), addSegment_shift, receiveAck_shift]
    rfl
  · rw [receiveSegment_of_not_accepts haccepts,
      receiveSegment_of_not_accepts fun h => haccepts ((accepts_shift a b c).mp h)]

/-- `handle_tcp_packet` commutes with the shift. -/
theorem tcpInput_shift (ipAddr : UInt32)
    (hpayload : Addressed ipAddr c packet → packet.tcp.has TCP_RST = false → Accepts c packet →
      0 < packet.dataLength → (packet.shift a b bytes).payload = packet.payload) :
    tcpInput ipAddr (c.shift a b) (packet.shift a b bytes) =
      (tcpInput ipAddr c packet).shift a b := by
  have hmatch : connectionMatch ipAddr (c.shift a b) (packet.shift a b bytes) =
      connectionMatch ipAddr c packet := rfl
  have hport : (packet.shift a b bytes).tcp.destPort = packet.tcp.destPort := rfl
  have hflag : (packet.shift a b bytes).tcp.has TCP_RST = packet.tcp.has TCP_RST := rfl
  unfold tcpInput
  rw [hmatch, hport, hflag]
  split_ifs with h80 htuple hrst
  · rfl
  · rfl
  · rfl
  · refine receiveSegment_shift a b c (hpayload ⟨?_, ?_⟩ ?_)
    · exact not_not.mp h80
    · simpa using htuple
    · simpa using hrst

end Receiver

/-- With the whole header before it, the payload is the same. -/
theorem TcpPacket.payload_shift {a b : UInt32} {packet : TcpPacket} {bytes : Bytes}
    (hbytes : ∀ i, 20 ≤ i → bytes i = packet.tcp.bytes i) (hheader : 20 ≤ packet.tcp.dataOffset) :
    (packet.shift a b bytes).payload = packet.payload := by
  funext i
  show bytes (packet.tcp.dataOffset.toNat + i) = packet.tcp.bytes (packet.tcp.dataOffset.toNat + i)
  exact hbytes _ (by omega)

/-! ## The sender -/

section Sender

variable (a b : UInt32) (c : TcpConnection)

theorem buildSegment_shift (scratch : Bytes) :
    buildSegment (c.shift a b) scratch = (buildSegment c scratch).shift a b := by
  have hsequence : ∀ x y z : UInt32, x + (y + b) - z = x + y - z + b := by
    intro x y z
    grind
  have hack : ∀ x y : UInt32, x + (y + a) = x + y + a := by
    intro x y
    grind
  unfold buildSegment
  dsimp only [TcpConnection.shift, TxSegment.shift]
  rw [hsequence, hack]
  rfl

theorem transmit_shift (now : Int) (scratch : Bytes) :
    (transmit (c.shift a b) now scratch).conn = (transmit c now scratch).conn.shift a b ∧
      (transmit (c.shift a b) now scratch).sent =
        (transmit c now scratch).sent.map (TxSegment.shift a b) := by
  refine ⟨rfl, ?_⟩
  have hfits : (buildSegment (c.shift a b) scratch).fits = (buildSegment c scratch).fits := rfl
  show (if (buildSegment (c.shift a b) scratch).fits then some _ else none) =
    (if (buildSegment c scratch).fits then some _ else none : Option TxSegment).map _
  rw [hfits, buildSegment_shift]
  split <;> rfl

/-- `send_tcp_packet` commutes with the shift. -/
theorem sendTcpPacket_shift (clock : Clock) (scratch : Bytes) :
    (sendTcpPacket (c.shift a b) clock scratch).conn =
        (sendTcpPacket c clock scratch).conn.shift a b ∧
      (sendTcpPacket (c.shift a b) clock scratch).sent =
        (sendTcpPacket c clock scratch).sent.map (TxSegment.shift a b) := by
  have hstate : (c.shift a b).state = c.state := rfl
  have hdue : sendDue (c.shift a b) = sendDue c := rfl
  have htime : timedOut (c.shift a b) clock.checked = timedOut c clock.checked := rfl
  have hback : rewind (c.shift a b) = (rewind c).shift a b := rfl
  unfold sendTcpPacket
  rw [hstate, hdue, htime, hback]
  split_ifs
  · exact ⟨rfl, rfl⟩
  · exact transmit_shift a b c clock.armed scratch
  · exact transmit_shift a b (rewind c) clock.armed scratch
  · exact ⟨rfl, rfl⟩

end Sender

/-! ## The application -/

section Application

variable (a b : UInt32) (c : TcpConnection)

/-- `read_tcp` commutes with the shift. -/
theorem readTcp_shift (connectionId : Int) (data : Bytes) (off len : Int) :
    readTcp (c.shift a b) connectionId data off len =
      { readTcp c connectionId data off len with
        conn := (readTcp c connectionId data off len).conn.shift a b } := by
  have hstate : (c.shift a b).state = c.state := rfl
  have hid : (c.shift a b).connectionId = c.connectionId := rfl
  have hread : (c.shift a b).rxRead = c.rxRead := rfl
  have hwrite : (c.shift a b).rxWrite = c.rxWrite := rfl
  have hfin : (c.shift a b).rxFin = c.rxFin := rfl
  unfold readTcp
  rw [hstate, hid, hread, hwrite, hfin]
  dsimp only
  split_ifs <;> rfl

/-- A round of `write_tcp` commutes with the shift. -/
theorem writeRound_shift (data : Bytes) (len : Int) :
    writeRound (c.shift a b) data len =
      ((writeRound c data len).1.shift a b, (writeRound c data len).2) := by
  have hlength : writeLength (c.shift a b) len = writeLength c len := rfl
  unfold writeRound
  rw [hlength]
  dsimp only
  split <;> rfl

/-- `shutdown_tcp` and `close_tcp` commute with the shift. -/
theorem shutdownTcp_shift (connectionId : Int) :
    (shutdownTcp (c.shift a b) connectionId).1 = (shutdownTcp c connectionId).1.shift a b ∧
      closeTcp (c.shift a b) connectionId = (closeTcp c connectionId).shift a b := by
  have hstate : (c.shift a b).state = c.state := rfl
  have hid : (c.shift a b).connectionId = c.connectionId := rfl
  unfold shutdownTcp closeTcp
  rw [hstate, hid]
  constructor
  · split <;> rfl
  · split <;> rfl

end Application

/-! ## The step -/

/-- A packet of another host changes nothing. -/
theorem tcpInput_of_not_addressed {ipAddr : UInt32} {c : TcpConnection} {packet : TcpPacket}
    (hnot : ¬ Addressed ipAddr c packet) : tcpInput ipAddr c packet = c := by
  have hreceived := tcpInput_received ipAddr c packet
  generalize tcpInput ipAddr c packet = c' at hreceived
  cases hreceived with
  | ignored => rfl
  | reset hto => exact absurd hto hnot
  | accepted hto => exact absurd hto hnot

/-- A step from the shifted connection, with the shifted event, leads to the shifted
connection and shows the shifted output. -/
theorem connStep_shift {ipAddr : UInt32} {a b : UInt32} {h : ConnHistory}
    {c₀ c : TcpConnection} {e e' : ConnEvent} (hsame : SameConnection c₀ c)
    (hok : WholeHeader ipAddr h c e) (hevent : ShiftedEvent ipAddr c₀ a b e e') :
    (connStep ipAddr (c.shift a b) e').1 = (connStep ipAddr c e).1.shift a b ∧
      (connStep ipAddr (c.shift a b) e').2 = (connStep ipAddr c e).2.shift a b := by
  cases hevent with
  | @peer packet packet' hshift =>
    obtain ⟨bytes, hbytes, rfl⟩ := hshift
    refine ⟨tcpInput_shift a b c ipAddr fun hto hrst haccepts hpos => ?_, rfl⟩
    exact TcpPacket.payload_shift hbytes (hok packet rfl hto hrst haccepts hpos)
  | @foreign packet hnot =>
    have hnot' : ¬ Addressed ipAddr c packet := fun hto => hnot (hsame.addressed.mp hto)
    have hshift : ¬ Addressed ipAddr (c.shift a b) packet := fun hto => hnot' ⟨hto.port, hto.tuple⟩
    refine ⟨?_, rfl⟩
    show tcpInput ipAddr (c.shift a b) packet = (tcpInput ipAddr c packet).shift a b
    rw [tcpInput_of_not_addressed hnot', tcpInput_of_not_addressed hshift]
  | call hcall =>
    cases e with
    | receive packet => exact absurd rfl (hcall packet)
    | send clock scratch =>
      obtain ⟨hconn, hsent⟩ := sendTcpPacket_shift a b c clock scratch
      exact ⟨hconn, congrArg (fun sent => ({ sent := sent } : ConnOutput)) hsent⟩
    | read id data off len =>
      unfold connStep
      dsimp only
      rw [readTcp_shift]
      exact ⟨rfl, rfl⟩
    | write id data len =>
      have hid : (c.shift a b).connectionId = c.connectionId := rfl
      unfold connStep
      dsimp only
      rw [hid, writeRound_shift]
      split <;> exact ⟨rfl, rfl⟩
    | shutdown id => exact ⟨(shutdownTcp_shift a b c id).1, rfl⟩
    | close id => exact ⟨(shutdownTcp_shift a b c id).2, rfl⟩

/-! ## The opening SYN -/

/-- Every number is a result of `(rand() << 16) | (rand() & 0xFFFF)`. -/
theorem exists_rand_sequence (x : UInt32) : ∃ rand : Rand, rand.sequence = x := by
  refine ⟨⟨x >>> 16, x⟩, ?_⟩
  have hx := x.toNat_lt
  have hlow : x.toNat % 2 ^ 16 < 2 ^ 16 := Nat.mod_lt _ (by omega)
  have hmask : (0xFFFF : UInt32).toNat = 2 ^ 16 - 1 := by decide
  have hshift : (16 : UInt32).toNat % 32 = 16 := by decide
  unfold Rand.sequence
  rw [← UInt32.toNat_inj, UInt32.toNat_or, UInt32.toNat_shiftLeft, UInt32.toNat_shiftRight,
    UInt32.toNat_and, hmask, hshift, Nat.and_two_pow_sub_one_eq_mod, Nat.shiftRight_eq_div_pow,
    Nat.mod_eq_of_lt (by rw [Nat.shiftLeft_eq]; omega), ← Nat.shiftLeft_add_eq_or_of_lt hlow,
    Nat.shiftLeft_eq]
  omega

/-- The options stand behind the 20 bytes of the header. -/
theorem OpeningSyn.shift {a b : UInt32} {syn : TcpPacket} {bytes : Bytes}
    {maxSegment windowScale : Int} (h : OpeningSyn syn maxSegment windowScale)
    (hbytes : ∀ i, 20 ≤ i → bytes i = syn.tcp.bytes i) :
    OpeningSyn (syn.shift a b bytes) maxSegment windowScale := by
  have hoptions : (fun i => (syn.shift a b bytes).tcp.bytes (20 + i)) =
      fun i => syn.tcp.bytes (20 + i) := by
    funext i
    exact hbytes (20 + i) (by omega)
  refine ⟨h.flags, ?_, ?_, h.windowScale_le, h.maxSegment_ne⟩
  · rw [hoptions]
    exact h.maxSegment_eq
  · rw [hoptions]
    exact h.windowScale_eq

/-- The shifted SYN opens the shifted connection. -/
theorem Opens.shift {a b : UInt32} {s : Stack} {syn syn' : TcpPacket} {c₀ : TcpConnection}
    (hopens : Opens s syn c₀) (hsyn : syn.Shifted a b syn') : Opens s syn' (c₀.shift a b) := by
  obtain ⟨bytes, hbytes, rfl⟩ := hsyn
  refine ⟨hopens.listen, ?_, hopens.opened⟩
  obtain ⟨maxSegment, windowScale, rand, hopening, hport, hrst, rfl⟩ := hopens.openingSyn
  obtain ⟨rand', hrand⟩ := exists_rand_sequence (rand.sequence + b)
  have hshift : OpeningSyn (syn.shift a b bytes) maxSegment windowScale := hopening.shift hbytes
  have hport' : (syn.shift a b bytes).tcp.destPort = 80 := hport
  have hrst' : (syn.shift a b bytes).tcp.has TCP_RST = false := hrst
  refine ⟨rand', _, (handleTcpPacket_of_listen hopens.listen hport' hrst' rand').trans
    (hshift.acceptSyn_eq s rand'), ?_⟩
  unfold openConnection
  rw [hrand]
  rfl

/-! ## The result -/

/-- When the numbers of the peer are moved by `a` and those of the stack by `b`, in the
SYN and in every segment of a run, the run goes on as before.  Its states are the same
except for the two initial numbers, the calls return the same, and the segments sent
differ by `b` in their sequence number and by `a` in their acknowledgement.  This holds
for all runs whose payloads begin behind the header. -/
theorem translation_invariant {a b : UInt32} {s : Stack} {syn syn' : TcpPacket}
    {c₀ c : TcpConnection} {h : ConnHistory} {events : List ConnEvent}
    (hopens : Opens s syn c₀) (hrun : ConnRun s.ipAddr (WholeHeader s.ipAddr) c₀ h c)
    (hsyn : syn.Shifted a b syn')
    (hevents : List.Forall₂ (ShiftedEvent s.ipAddr c₀ a b) (h.map Prod.fst) events) :
    Opens s syn' (c₀.shift a b) ∧
      ∃ h', ConnRun s.ipAddr anyEvent (c₀.shift a b) h' (c.shift a b) ∧
        h'.map Prod.fst = events ∧
        (∀ n, stateAfter (connStep s.ipAddr) (c₀.shift a b) (h'.take n) =
          (stateAfter (connStep s.ipAddr) c₀ (h.take n)).shift a b) ∧
        h'.map Prod.snd = (h.map Prod.snd).map (ConnOutput.shift a b) := by
  have hok : ∀ h c e h' c' e', ConnRun s.ipAddr (WholeHeader s.ipAddr) c₀ h c →
      (c.state ≠ .listen ∧ WholeHeader s.ipAddr h c e) → c' = c.shift a b →
      ShiftedEvent s.ipAddr c₀ a b e e' →
      (c'.state ≠ .listen ∧ anyEvent h' c' e') ∧
        (connStep s.ipAddr c' e').1 = (connStep s.ipAddr c e).1.shift a b ∧
        (connStep s.ipAddr c' e').2 = (connStep s.ipAddr c e).2.shift a b := by
    rintro h c e h' _ e' hrun ⟨hopen, hheader⟩ rfl hevent
    exact ⟨⟨hopen, trivial⟩, connStep_shift (ConnRun.sameConnection hrun) hheader hevent⟩
  obtain ⟨h', _, hrun', hevents', rfl, hstates, houtputs⟩ :=
    Run.lockstep (fun c c' => c' = c.shift a b) (ShiftedEvent s.ipAddr c₀ a b)
      (fun o o' => o' = o.shift a b) hrun rfl hok hevents
  refine ⟨hopens.shift hsyn, h', hrun', hevents', hstates, ?_⟩
  rw [← List.forall₂_eq_eq_eq, List.forall₂_map_right_iff]
  exact houtputs.flip

/-- A peer whose SYN has sequence number 4294967295, so that its numbers wrap after
the SYN.  It then sends two bytes. -/
def wrapEvents (sequence : UInt32) : List ConnEvent :=
  [.send ⟨0, 0⟩ fun _ => 0, .receive (peerPacket (sequence + 1) 101 TCP_ACK 1024 [104, 105]),
    .read 1 (fun _ => 0) 0 10]

/-- The same two bytes are read when the numbers of the peer wrap. -/
theorem translation_invariant_wrap :
    Opens listeningStack (peerPacket 0xFFFFFFFF 0 TCP_SYN 1024 [])
        (peerConnection.shift 0xFFFFFFFF 0) ∧
      ∃ h', ConnRun listeningStack.ipAddr anyEvent (peerConnection.shift 0xFFFFFFFF 0) h'
          ((connExec listeningStack.ipAddr peerConnection (wrapEvents 0)).2.shift 0xFFFFFFFF 0) ∧
        h'.map Prod.fst = wrapEvents 0xFFFFFFFF ∧
        (∀ n, stateAfter (connStep listeningStack.ipAddr) (peerConnection.shift 0xFFFFFFFF 0)
            (h'.take n) =
          (stateAfter (connStep listeningStack.ipAddr) peerConnection
            ((connExec listeningStack.ipAddr peerConnection (wrapEvents 0)).1.take n)).shift
              0xFFFFFFFF 0) ∧
        h'.map Prod.snd =
          ((connExec listeningStack.ipAddr peerConnection (wrapEvents 0)).1.map Prod.snd).map
            (ConnOutput.shift 0xFFFFFFFF 0) := by
  have hmeets : ConnMeets listeningStack.ipAddr (WholeHeader listeningStack.ipAddr)
      peerConnection (wrapEvents 0) := by
    decide +kernel
  refine translation_invariant peerSyn_opens hmeets.run ⟨_, fun _ _ => rfl, rfl⟩ ?_
  refine .cons (.call nofun) (.cons (.peer ⟨_, fun _ _ => rfl, rfl⟩) (.cons (.call nofun) .nil))

/-! ## Payloads inside the header -/

/-- A segment of the peer that ends with its header, which is in memory as it came. -/
def headerPacket (sequence ack : UInt8) (offsetFlags : UInt16) : TcpPacket :=
  let packet := peerPacket sequence.toUInt32 ack.toUInt32 0 1024 []
  { packet with
    tcp :=
      { packet.tcp with
        offsetFlags := offsetFlags
        bytes := fun i => List.getD
          [0xA0, 0x0F, 80, 0, sequence, 0, 0, 0, ack, 0, 0, 0, offsetFlags.toUInt8,
            (offsetFlags >>> 8).toUInt8, 0, 4, 0, 0, 0, 0] i 0 } }

theorem headerPacket_shifted {sequence sequence' : UInt8} (ack : UInt8) (offsetFlags : UInt16)
    (hnext : sequence'.toUInt32 = sequence.toUInt32 + 1) :
    (headerPacket sequence ack offsetFlags).Shifted 1 0
      (headerPacket sequence' ack offsetFlags) := by
  refine ⟨(headerPacket sequence' ack offsetFlags).tcp.bytes, fun i hi => ?_, ?_⟩
  · unfold headerPacket
    dsimp only
    rw [List.getD_eq_default _ _ hi, List.getD_eq_default _ _ hi]
  · have hack : ack.toUInt32 = ack.toUInt32 + 0 := (UInt32.add_zero _).symm
    unfold TcpPacket.shift headerPacket peerPacket
    dsimp only
    rw [hnext, ← hack]

/-- After the SYN-ACK, a segment whose offset field says 4 bytes, and a read. -/
def headerEvents (sequence : UInt8) : List ConnEvent :=
  [.send ⟨0, 0⟩ fun _ => 0, .receive (headerPacket sequence 101 (0x1000 ||| TCP_ACK)),
    .read 1 (fun _ => 0) 0 16]

/-- The 16 bytes of the header behind its first 4 are taken as data.  Among them is
the sequence number, so `read_tcp` shows it. -/
theorem header_read_as_data :
    Opens listeningStack (headerPacket 0 0 (0x5000 ||| TCP_SYN)) peerConnection ∧
      (headerPacket 0 0 (0x5000 ||| TCP_SYN)).Shifted 1 0
        (headerPacket 1 0 (0x5000 ||| TCP_SYN)) ∧
      Opens listeningStack (headerPacket 1 0 (0x5000 ||| TCP_SYN)) (peerConnection.shift 1 0) ∧
      ∃ h c h' c', ConnRun listeningStack.ipAddr anyEvent peerConnection h c ∧
        ConnRun listeningStack.ipAddr anyEvent (peerConnection.shift 1 0) h' c' ∧
        List.Forall₂ (ShiftedEvent listeningStack.ipAddr peerConnection 1 0) (h.map Prod.fst)
          (h'.map Prod.fst) ∧
        returned h ≠ returned h' := by
  have hmeets : ConnMeets listeningStack.ipAddr anyEvent peerConnection (headerEvents 1) := by
    decide +kernel
  have hmeets' : ConnMeets listeningStack.ipAddr anyEvent (peerConnection.shift 1 0)
      (headerEvents 2) := by
    decide +kernel
  have hopens : Opens listeningStack (headerPacket 0 0 (0x5000 ||| TCP_SYN)) peerConnection :=
    ⟨rfl, ⟨⟨0, 100⟩, _, rfl, rfl⟩, by decide⟩
  have hsyn : (headerPacket 0 0 (0x5000 ||| TCP_SYN)).Shifted 1 0
      (headerPacket 1 0 (0x5000 ||| TCP_SYN)) := headerPacket_shifted _ _ (by decide)
  refine ⟨hopens, hsyn, hopens.shift hsyn, _, _, _, _, hmeets.run, hmeets'.run, ?_, ?_⟩
  · exact .cons (.call nofun) (.cons (.peer (headerPacket_shifted _ _ (by decide)))
      (.cons (.call nofun) .nil))
  · decide +kernel

end EthTransfer
