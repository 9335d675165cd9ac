import EthTransfer.Driver.GetPacket
import EthTransfer.Lib.GuardedRun

/-!
# The receive ring

The chip writes the frames it receives one behind the other into the receive buffer,
each at an even address and with a pointer to the place behind it, and `get_packet`
takes them out.  `Receiver` is both together, with the frames that no call has got past
yet, and `rxStep` is one arrival or one call.

`Synced` is the invariant: `ERDPT` stands at the first unread frame, and the unread
frames lie behind it as the chip wrote them.  Positions count from the start of the run
and never wrap, so an address is a position modulo the size of the ring.
-/

namespace EthTransfer

open GuardedRun RingBuffer

/-! ## Frames in the buffer -/

/-- The next even number. -/
def roundUp (n : ℕ) : ℕ := n + n % 2

/-- The size that `get_packet` sees of a frame with its checksum. -/
def sizeOf (frame : List UInt8) : ℕ := roundUp frame.length

/-- The pointer that the chip writes before a frame at address `r`. -/
def nextAddress (r : ℕ) (frame : List UInt8) : ℕ :=
  roundUp (r + 6 + frame.length) % (RX_END + 1)

/-- What the chip writes at address `r`: the pointer, four status bytes and the frame. -/
def record (r : ℕ) (status : Vector UInt8 4) (frame : List UInt8) : List UInt8 :=
  UInt8.ofNat (nextAddress r frame) :: UInt8.ofNat (nextAddress r frame / 256) ::
    (status.toList ++ frame)

/-- The bytes of the ring that unread frames take. -/
def used (unread : List (ℕ × List UInt8)) : ℕ := (unread.map fun f => 6 + sizeOf f.2).sum

/-! ## The machine -/

/-- The controller and the driver.  `writePointer` is `ERXWRPT`, where the chip writes
the next frame, and `unread` are the frames that no call has got past, each with its
address. -/
structure Receiver where
  spi : Spi
  writePointer : ℕ
  unread : List (ℕ × List UInt8)

/-- The start of the next unread frame, or of the next frame to arrive. -/
def Receiver.nextUnread (s : Receiver) : ℕ :=
  match s.unread with
  | [] => s.writePointer
  | (address, _) :: _ => address

/-- A frame arrives, with its status, or `get_packet` is called. -/
inductive RxEvent where
  | arrival (status : Vector UInt8 4) (frame : List UInt8)
  | call (packet : PacketMemory)

/-- What an event shows. -/
inductive RxResult where
  | stored
  | returned (packet : PacketMemory) (ret : Bool)
  | exited

/-- The chip stores a frame. -/
def Controller.receive (c : Controller) (r : ℕ) (status : Vector UInt8 4) (frame : List UInt8) :
    Controller :=
  let c := { c with
    memory := RingBuffer.store (RX_END + 1) c.memory r (record r status frame).length
      fun i => (record r status frame).getD i 0 }
  c.setRegister 1 EPKTCNT (c.epktcnt + 1)

/-- One arrival or one call. -/
def rxStep (s : Receiver) : RxEvent → Receiver × RxResult
  | .arrival status frame =>
    ({ spi := { s.spi with controller := s.spi.controller.receive s.writePointer status frame }
       writePointer := nextAddress s.writePointer frame
       unread := s.unread ++ [(s.writePointer, frame)] }, .stored)
  | .call packet =>
    match getPacket s.spi packet with
    | none => (s, .exited)
    | some (spi, packet, ret) =>
      ({ s with
          spi := spi
          unread := if s.spi.controller.epktcnt = 0 then s.unread else s.unread.tail },
        .returned packet ret)

/-- The chip stores frames that are shorter than the ring, as long as there is room
behind the unread ones and `EPKTCNT` can count them. -/
def Storable (_ : History RxEvent RxResult) (s : Receiver) : RxEvent → Prop
  | .arrival _ frame => 6 + frame.length < RX_END + 1 ∧
      used s.unread + (6 + sizeOf frame) ≤ RX_END + 1 ∧ s.spi.controller.epktcnt < 255
  | .call _ => True

/-- The start of the program, at any even place of the ring. -/
structure Started (s : Receiver) : Prop where
  ready : Ready s.spi
  unread : s.unread = []
  count : s.spi.controller.epktcnt = 0
  even : s.writePointer % 2 = 0
  erdpt : s.spi.controller.erdpt = s.writePointer
  inside : s.writePointer ≤ RX_END

/-! ## The invariant -/

/-- The unread frames lie in the memory one behind the other, from position `p` on. -/
def Queued (memory : Bytes) : ℕ → List (ℕ × List UInt8) → Prop
  | _, [] => True
  | p, (r, frame) :: rest =>
    r = p % (RX_END + 1) ∧
      (∃ status, RingBuffer.Holds (RX_END + 1) memory p (record r status frame)) ∧
      Queued memory (p + (6 + sizeOf frame)) rest

/-- The driver and the chip agree on where the unread frames lie: from position `p` on. -/
structure Synced (s : Receiver) (p : ℕ) : Prop where
  ready : Ready s.spi
  even : p % 2 = 0
  erdpt : s.spi.controller.erdpt = p % (RX_END + 1)
  queued : Queued s.spi.controller.memory p s.unread
  fits : used s.unread ≤ RX_END + 1
  writePointer : s.writePointer = (p + used s.unread) % (RX_END + 1)
  count : s.spi.controller.epktcnt.toNat = s.unread.length

theorem length_le_sizeOf (frame : List UInt8) : frame.length ≤ sizeOf frame :=
  Nat.le_add_right _ _

theorem length_record (r : ℕ) (status : Vector UInt8 4) (frame : List UInt8) :
    (record r status frame).length = 6 + frame.length := by
  simp [record]
  omega

theorem used_append (unread : List (ℕ × List UInt8)) (r : ℕ) (frame : List UInt8) :
    used (unread ++ [(r, frame)]) = used unread + (6 + sizeOf frame) := by
  simp [used]

theorem used_even (unread : List (ℕ × List UInt8)) : used unread % 2 = 0 := by
  induction unread with
  | nil => rfl
  | cons f rest ih =>
    simp only [used, List.map_cons, List.sum_cons, sizeOf, roundUp] at ih ⊢
    omega

/-- The chip's pointer in positions. -/
theorem nextAddress_eq {p : ℕ} (heven : p % 2 = 0) (frame : List UInt8) :
    nextAddress (p % (RX_END + 1)) frame = (p + (6 + sizeOf frame)) % (RX_END + 1) := by
  unfold nextAddress sizeOf roundUp RX_END
  omega

/-- The size that the driver works out from the pointer. -/
theorem storedSize_eq (p : ℕ) {n : ℕ} (hn : 6 + n ≤ RX_END + 1) :
    storedSize ((p + (6 + n)) % (RX_END + 1)) (p % (RX_END + 1)) = n := by
  unfold storedSize
  unfold RX_END at hn ⊢
  dsimp only
  split_ifs <;> omega

/-- A frame that is stored behind the unread ones joins them. -/
theorem Queued.append {memory : Bytes} {p : ℕ} {unread : List (ℕ × List UInt8)}
    (hqueued : Queued memory p unread) (status : Vector UInt8 4) (frame : List UInt8)
    (hroom : used unread + (6 + sizeOf frame) ≤ RX_END + 1) {r : ℕ}
    (hr : r = (p + used unread) % (RX_END + 1)) :
    Queued (RingBuffer.store (RX_END + 1) memory r (record r status frame).length
      fun i => (record r status frame).getD i 0) p (unread ++ [(r, frame)]) := by
  have hlength := length_record r status frame
  have hsize := length_le_sizeOf frame
  have hstore (start n : ℕ) (source : ℕ → UInt8) (hstart : r = start % (RX_END + 1)) :
      RingBuffer.store (RX_END + 1) memory r n source =
        RingBuffer.store (RX_END + 1) memory start n source := by
    rw [hstart, store_mod]
  rw [hstore _ _ _ hr]
  -- positions of the frames before it stay below its own
  generalize hq : p + used unread = q at hr
  suffices h : ∀ p', p' + used unread = q → Queued memory p' unread →
      Queued (RingBuffer.store (RX_END + 1) memory q (record r status frame).length
        fun i => (record r status frame).getD i 0) p' (unread ++ [(r, frame)]) from
    h p hq hqueued
  clear hqueued hq hstore
  induction unread with
  | nil =>
    rintro p' rfl -
    refine ⟨hr, ⟨status, ?_⟩, trivial⟩
    exact holds_store memory _ _ 0 (by omega)
  | cons f rest ih =>
    obtain ⟨r', frame'⟩ := f
    rintro p' hq ⟨hr', ⟨status', hold⟩, hrest⟩
    have hused : used ((r', frame') :: rest) = 6 + sizeOf frame' + used rest := by simp [used]
    have hlength' := length_record r' status' frame'
    have hsize' := length_le_sizeOf frame'
    refine ⟨hr', ⟨status', hold.store _ (by omega) (by omega)⟩, ?_⟩
    exact ih (by omega) _ (by omega) hrest

/-! ## What a call delivers -/

/-- The packet holds the frame: its bytes are at the front of the buffer, with the
EtherType in host order. -/
structure Delivers (frame : List UInt8) (packet : PacketMemory) : Prop where
  bytes : ∀ i, (h : i < frame.length) → i ≠ 12 → i ≠ 13 → packet.buffer i = frame[i]
  etherType : (h : 14 ≤ frame.length) → packet.buffer 12 = frame[13] ∧ packet.buffer 13 = frame[12]
  length : packet.length = sizeOf frame - 4
  type : ∃ raw : Bytes, (∀ i, (h : i < frame.length) → raw i = frame[i]) ∧
    packet.type = some (EthPacket.type ⟨raw, packet.length⟩)

theorem fillPacket_length (packet : PacketMemory) (buffer : Bytes) (size : Int) :
    (fillPacket packet buffer size).length = size - 4 := by
  unfold fillPacket
  dsimp only
  split_ifs <;> rfl

theorem fillPacket_buffer (packet : PacketMemory) (buffer : Bytes) (size : Int) :
    (fillPacket packet buffer size).buffer = if size < 14 then buffer else ntohEth buffer := by
  unfold fillPacket
  dsimp only
  split_ifs <;> rfl

/-- What `get_packet` makes of a buffer that starts with the frame. -/
theorem delivers_fillPacket (packet : PacketMemory) {buffer : Bytes} {frame : List UInt8}
    (hbytes : ∀ i, (h : i < frame.length) → buffer i = frame[i]) :
    Delivers frame (fillPacket packet buffer (sizeOf frame)) where
  bytes i hi h12 h13 := by
    rw [fillPacket_buffer, ← hbytes i hi]
    unfold ntohEth swap16
    split_ifs <;> simp_all
  etherType h := by
    have hsize := length_le_sizeOf frame
    rw [fillPacket_buffer, if_neg (by omega), ← hbytes 12 (by omega), ← hbytes 13 (by omega)]
    exact ⟨rfl, rfl⟩
  length := fillPacket_length packet buffer _
  type := by
    refine ⟨buffer, hbytes, ?_⟩
    rw [fillPacket_type, fillPacket_length]

/-- The pointer before a stored frame. -/
theorem pointerAt_of_holds {memory : Bytes} {p r : ℕ} {status : Vector UInt8 4}
    {frame : List UInt8} (hold : RingBuffer.Holds (RX_END + 1) memory p (record r status frame)) :
    pointerAt memory (p % (RX_END + 1)) = nextAddress r frame := by
  have hlow : memory ((p + 0) % (RX_END + 1)) = UInt8.ofNat (nextAddress r frame) :=
    hold 0 (by simp [record])
  have hhigh : memory ((p + 1) % (RX_END + 1)) = UInt8.ofNat (nextAddress r frame / 256) :=
    hold 1 (by simp [record])
  have hlt : nextAddress r frame < 65536 := by
    unfold nextAddress RX_END
    omega
  rw [Nat.add_zero] at hlow
  rw [pointerAt, Nat.mod_add_mod, hlow, hhigh, toNat_bytes hlt]

/-- The bytes of a stored frame, behind its pointer and its status. -/
theorem frame_of_holds {memory : Bytes} {p r : ℕ} {status : Vector UInt8 4}
    {frame : List UInt8} (hold : RingBuffer.Holds (RX_END + 1) memory p (record r status frame))
    (buffer : Bytes) {i : ℕ} (hi : i < frame.length) :
    load (RX_END + 1) buffer memory (p % (RX_END + 1) + 6) (sizeOf frame) i = frame[i] := by
  have hsize := length_le_sizeOf frame
  have hlength := length_record r status frame
  have hlt : 6 + i < (record r status frame).length := by omega
  have hbyte := hold (6 + i) hlt
  have hrecord : (record r status frame)[6 + i] = frame[i] := by
    simp [record, List.getElem_append_right, show 6 + i = 4 + i + 1 + 1 by omega]
  rw [hrecord] at hbyte
  unfold load
  rw [if_pos (by omega), Nat.add_assoc, Nat.mod_add_mod]
  exact hbyte

/-! ## Steps -/

/-- What an arrival changes. -/
theorem view_receive (spi : Spi) (r : ℕ) (status : Vector UInt8 4) (frame : List UInt8) :
    ({ spi with controller := spi.controller.receive r status frame } : Spi).view =
      { spi.view with
        memory := RingBuffer.store (RX_END + 1) spi.controller.memory r
          (record r status frame).length fun i => (record r status frame).getD i 0
        epktcnt := spi.controller.epktcnt + 1 } := rfl

/-- The program starts in step. -/
theorem Started.synced {s : Receiver} (hstart : Started s) : Synced s s.writePointer where
  ready := hstart.ready
  even := hstart.even
  erdpt := by rw [hstart.erdpt, Nat.mod_eq_of_lt (Nat.lt_succ_of_le hstart.inside)]
  queued := by simp [hstart.unread, Queued]
  fits := by simp [hstart.unread, used]
  writePointer := by
    have hmod := Nat.mod_eq_of_lt (Nat.lt_succ_of_le hstart.inside)
    simpa [hstart.unread, used] using hmod.symm
  count := by simp [hstart.unread, hstart.count]

/-- The next unread frame starts at position `p`. -/
theorem Synced.nextUnread {s : Receiver} {p : ℕ} (hsync : Synced s p) :
    s.nextUnread = p % (RX_END + 1) := by
  have hqueued := hsync.queued
  have hwrite := hsync.writePointer
  unfold Receiver.nextUnread
  cases hunread : s.unread with
  | nil => simpa [hunread, used] using hwrite
  | cons f rest =>
    rw [hunread] at hqueued
    exact hqueued.1

/-- An arrival keeps the ring in step. -/
theorem Synced.arrival {s : Receiver} {p : ℕ} (hsync : Synced s p) (status : Vector UInt8 4)
    {frame : List UInt8} (hroom : used s.unread + (6 + sizeOf frame) ≤ RX_END + 1)
    (hcount : s.spi.controller.epktcnt < 255) :
    Synced (rxStep s (.arrival status frame)).1 p := by
  have hview := view_receive s.spi s.writePointer status frame
  have hwrite := hsync.writePointer
  have heven : (p + used s.unread) % 2 = 0 := by
    have hused := used_even s.unread
    have hp := hsync.even
    omega
  exact
    { ready := hsync.ready.of_view hview
      even := hsync.even
      erdpt := (congrArg View.erdpt hview).trans hsync.erdpt
      queued := hsync.queued.append status frame hroom hwrite
      fits := (used_append _ _ _).trans_le hroom
      writePointer := by
        change nextAddress s.writePointer frame = _
        rw [hwrite, nextAddress_eq heven, Nat.add_assoc]
        exact congrArg (fun n => (p + n) % (RX_END + 1)) (used_append _ _ _).symm
      count := by
        have hbound := UInt8.lt_iff_toNat_lt.mp hcount
        have hone : (s.spi.controller.epktcnt + 1).toNat = s.spi.controller.epktcnt.toNat + 1 := by
          rw [UInt8.toNat_add]
          exact Nat.mod_eq_of_lt (Nat.succ_lt_succ hbound)
        refine (congrArg (UInt8.toNat ∘ View.epktcnt) hview).trans (hone.trans ?_)
        simp [rxStep, hsync.count] }

theorem rxStep_call {s : Receiver} {packet packet' : PacketMemory} {spi : Spi} {ret : Bool}
    (hcall : getPacket s.spi packet = some (spi, packet', ret)) :
    rxStep s (.call packet) =
      ({ s with
          spi := spi
          unread := if s.spi.controller.epktcnt = 0 then s.unread else s.unread.tail },
        .returned packet' ret) := by
  simp only [rxStep, hcall]

/-- A call with nothing to read. -/
theorem Synced.call_nil {s : Receiver} {p : ℕ} (hsync : Synced s p) (hunread : s.unread = [])
    (packet : PacketMemory) :
    Synced (rxStep s (.call packet)).1 p ∧ (rxStep s (.call packet)).1.unread = [] ∧
      (rxStep s (.call packet)).2 = .returned { packet with type := none } false := by
  have hzero : s.spi.controller.epktcnt = 0 := by
    have hcount := hsync.count
    rw [hunread, List.length_nil] at hcount
    exact UInt8.toNat_inj.mp hcount
  have herdpt : s.spi.controller.erdpt ≤ RX_END := hsync.erdpt ▸ mod_le_rxEnd _
  obtain ⟨spi', hcall, hview⟩ := getPacket_of_none hsync.ready packet hzero
  rw [rxStep_call hcall, if_pos hzero]
  refine ⟨?_, hunread, rfl⟩
  exact
    { ready := hsync.ready.of_view hview
      even := hsync.even
      erdpt := (congrArg View.erdpt hview).trans hsync.erdpt
      queued := by
        rw [show spi'.controller.memory = _ from congrArg View.memory hview]
        exact hsync.queued
      fits := hsync.fits
      writePointer := hsync.writePointer
      count := (congrArg (UInt8.toNat ∘ View.epktcnt) hview).trans hsync.count }

/-- A call with a frame to read gets past this frame, and delivers it if it fits. -/
theorem Synced.call_cons {s : Receiver} {p : ℕ} (hsync : Synced s p) {r : ℕ}
    {frame : List UInt8} {rest : List (ℕ × List UInt8)} (hunread : s.unread = (r, frame) :: rest)
    (packet : PacketMemory) :
    Synced (rxStep s (.call packet)).1 (p + (6 + sizeOf frame)) ∧
      (rxStep s (.call packet)).1.unread = rest ∧
      (rxStep s (.call packet)).1.spi.controller.erxrdpt =
        (p + (6 + sizeOf frame)) % (RX_END + 1) ∧
      ∃ packet', (rxStep s (.call packet)).2 =
          .returned packet' (decide ((sizeOf frame : Int) ≤ PACKET_MAX_SIZE)) ∧
        ((sizeOf frame : Int) ≤ PACKET_MAX_SIZE → Delivers frame packet') := by
  have hqueued := hsync.queued
  have hfits := hsync.fits
  have hwrite := hsync.writePointer
  have hcount := hsync.count
  have heven := hsync.even
  rw [hunread] at hqueued hfits hwrite hcount
  obtain ⟨hr, ⟨status, hold⟩, hrest⟩ := hqueued
  have hused : used ((r, frame) :: rest) = 6 + sizeOf frame + used rest := by simp [used]
  have herdpt : s.spi.controller.erdpt ≤ RX_END := hsync.erdpt ▸ mod_le_rxEnd _
  have hsome : s.spi.controller.epktcnt ≠ 0 := by
    intro hzero
    rw [hzero, List.length_cons] at hcount
    exact absurd hcount.symm (Nat.succ_ne_zero _)
  -- the pointer before the frame gives its size
  have hpointer : (p + (6 + sizeOf frame)) % (RX_END + 1) =
      pointerAt s.spi.controller.memory s.spi.controller.erdpt := by
    rw [hsync.erdpt, pointerAt_of_holds hold, hr, nextAddress_eq heven]
  have hsize : (sizeOf frame : Int) =
      storedSize ((p + (6 + sizeOf frame)) % (RX_END + 1)) s.spi.controller.erdpt := by
    rw [hsync.erdpt, storedSize_eq p (by omega)]
  obtain ⟨spi', hcall, hview⟩ :=
    getPacket_of_some hsync.ready herdpt packet hsome hpointer hsize
  have hmoved : (if (sizeOf frame : Int) ≤ PACKET_MAX_SIZE then
      (s.spi.controller.erdpt + 6 + (sizeOf frame : Int).toNat) % (RX_END + 1)
      else (p + (6 + sizeOf frame)) % (RX_END + 1)) = (p + (6 + sizeOf frame)) % (RX_END + 1) := by
    rw [hsync.erdpt, Int.toNat_natCast, Nat.add_assoc, Nat.mod_add_mod, ite_self]
  rw [hmoved] at hview
  rw [rxStep_call hcall, if_neg hsome, hunread, List.tail_cons]
  refine ⟨?_, rfl, congrArg View.erxrdpt hview, _, rfl, fun hle => ?_⟩
  · exact
      { ready := hsync.ready.of_view hview
        even := by
          unfold sizeOf roundUp
          omega
        erdpt := congrArg View.erdpt hview
        queued := by
          rw [show spi'.controller.memory = _ from congrArg View.memory hview]
          exact hrest
        fits := by
          dsimp only
          omega
        writePointer := by
          rw [hwrite, hused, ← Nat.add_assoc p]
        count := by
          refine (congrArg (UInt8.toNat ∘ View.epktcnt) hview).trans ?_
          have hone : (1 : UInt8) ≤ s.spi.controller.epktcnt := by
            rw [UInt8.le_iff_toNat_le, hcount, List.length_cons]
            exact Nat.succ_le_succ (Nat.zero_le _)
          refine (UInt8.toNat_sub_of_le _ _ hone).trans ?_
          rw [hcount, List.length_cons]
          rfl }
  · rw [packetAfter, if_pos hle, hsync.erdpt, Int.toNat_natCast]
    exact delivers_fillPacket packet fun i hi => frame_of_holds hold packet.buffer hi

/-! ## Runs -/

/-- The frames that arrived. -/
def arrivedFrames (h : History RxEvent RxResult) : List (List UInt8) :=
  h.filterMap fun
    | (.arrival _ frame, _) => some frame
    | _ => none

/-- The packets that `get_packet` returned with a frame. -/
def deliveredPackets (h : History RxEvent RxResult) : List PacketMemory :=
  h.filterMap fun
    | (_, .returned packet true) => some packet
    | _ => none

/-- The frames that fit into an `eth_packet`. -/
def fitting (frames : List (List UInt8)) : List (List UInt8) :=
  frames.filter fun frame => (sizeOf frame : Int) ≤ PACKET_MAX_SIZE

/-- A call returns, and when `EPKTCNT` counts a frame it gets past exactly one and leaves
both pointers at the start of the next one. -/
def Releases (s : Receiver) : RxEvent → Prop
  | .arrival _ _ => True
  | .call packet =>
    (∃ packet' ret, (rxStep s (.call packet)).2 = .returned packet' ret) ∧
    (s.spi.controller.epktcnt ≠ 0 →
      let s' := (rxStep s (.call packet)).1
      s'.spi.controller.erdpt = s'.nextUnread ∧ s'.spi.controller.erxrdpt = s'.nextUnread ∧
        s.spi.controller.epktcnt = s'.spi.controller.epktcnt + 1 ∧ s.unread.tail = s'.unread)

/-- Everything that a run has in step: what arrived was read in order, the frames that
fit were delivered, and the others lie unread in the ring. -/
structure InStep (h : History RxEvent RxResult) (s : Receiver) : Prop where
  synced : ∃ p, Synced s p
  read : ∃ read, arrivedFrames h = read ++ s.unread.map Prod.snd ∧
    List.Forall₂ Delivers (fitting read) (deliveredPackets h)

/-- Every step keeps the machine in step, and every call releases one frame. -/
theorem InStep.step {h : History RxEvent RxResult} {s : Receiver} (hin : InStep h s)
    {e : RxEvent} (hok : Storable h s e) :
    InStep (h ++ [(e, (rxStep s e).2)]) (rxStep s e).1 ∧ Releases s e := by
  obtain ⟨⟨p, hsync⟩, read, harrived, hdelivered⟩ := hin
  cases e with
  | arrival status frame =>
    obtain ⟨-, hroom, hcount⟩ := hok
    refine ⟨⟨⟨p, hsync.arrival status hroom hcount⟩, read, ?_, ?_⟩, trivial⟩
    · simp [arrivedFrames, rxStep] at harrived ⊢
      simp [harrived]
    · simpa [deliveredPackets, rxStep] using hdelivered
  | call packet =>
    cases hunread : s.unread with
    | nil =>
      obtain ⟨hnext, hempty, hresult⟩ := hsync.call_nil hunread packet
      refine ⟨⟨⟨p, hnext⟩, read, ?_, ?_⟩, ⟨_, _, hresult⟩, fun hsome => ?_⟩
      · rw [hempty]
        simpa [arrivedFrames, hunread] using harrived
      · simpa [deliveredPackets, hresult] using hdelivered
      · have hcount := hsync.count
        rw [hunread, List.length_nil] at hcount
        exact absurd (UInt8.toNat_inj.mp hcount) hsome
    | cons f rest =>
      obtain ⟨r, frame⟩ := f
      obtain ⟨hnext, hrest, herxrdpt, packet', hresult, hdelivers⟩ :=
        hsync.call_cons hunread packet
      refine ⟨⟨⟨_, hnext⟩, read ++ [frame], ?_, ?_⟩, ⟨_, _, hresult⟩, fun _ => ?_⟩
      · rw [hrest]
        simpa [arrivedFrames, hunread] using harrived
      · by_cases hle : (sizeOf frame : Int) ≤ PACKET_MAX_SIZE
        · have hone := List.Forall₂.cons (hdelivers hle) .nil
          simpa [deliveredPackets, fitting, hresult, hle] using List.rel_append hdelivered hone
        · simpa [deliveredPackets, fitting, hresult, hle] using hdelivered
      · dsimp only
        rw [hnext.nextUnread, hrest, hunread]
        refine ⟨hnext.erdpt, herxrdpt, ?_, rfl⟩
        have hbefore := hsync.count
        have hafter := hnext.count
        have hlt := s.spi.controller.epktcnt.toNat_lt
        rw [hunread, List.length_cons] at hbefore
        rw [hrest] at hafter
        rw [← UInt8.toNat_inj, UInt8.toNat_add, hafter, hbefore]
        exact (Nat.mod_eq_of_lt (hbefore ▸ hlt)).symm

/-- `get_packet` stays in step with the controller over every sequence of arrivals and
calls, from any even place of the ring: the frames that fit into a packet are delivered
once and in order, the others are skipped, and every call that finds a frame releases
one and leaves `ERDPT` and `ERXRDPT` at the start of the next unread frame. -/
theorem receive_in_step {s₀ s : Receiver} {h : History RxEvent RxResult} (hstart : Started s₀)
    (hrun : Run rxStep Storable s₀ h s) :
    (∃ read, arrivedFrames h = read ++ s.unread.map Prod.snd ∧
        List.Forall₂ Delivers (fitting read) (deliveredPackets h)) ∧
      s.spi.controller.epktcnt.toNat = s.unread.length ∧
      Throughout rxStep s₀ (fun _ s e => Releases s e) h := by
  have hinv : InStep h s ∧ Throughout rxStep s₀ (fun _ s e => Releases s e) h := by
    refine hrun.invariant (fun h s => InStep h s ∧ Throughout rxStep s₀ _ h) ?_ ?_
    · exact ⟨⟨⟨_, hstart.synced⟩, [], by simp [arrivedFrames, hstart.unread], .nil⟩, always_nil⟩
    · rintro h s e hr ⟨hin, hall⟩ hok
      obtain ⟨hnext, hreleases⟩ := hin.step hok
      refine ⟨hnext, hall.append ?_⟩
      rw [hr.stateAfter_eq]
      exact hreleases
  obtain ⟨⟨⟨p, hsync⟩, hread⟩, hall⟩ := hinv
  exact ⟨hread, hsync.count, hall⟩

instance (h : History RxEvent RxResult) (s : Receiver) : DecidablePred (Storable h s)
  | .arrival _ _ => inferInstanceAs (Decidable (_ ∧ _))
  | .call _ => isTrue trivial

/-- The chip after a reset. -/
def resetReceiver : Receiver where
  spi := { controller := ⟨fun _ => 0, fun _ _ => 0⟩, bankStack := [], currentBank := 0 }
  writePointer := 0
  unread := []

/-- Two frames arrive, and the first one is read. -/
def firstFrames : List RxEvent :=
  [.arrival (.replicate 4 0) [1, 2, 3, 4, 5, 6, 7, 8, 9, 10, 11, 12, 8, 6, 15],
    .arrival (.replicate 4 0) [1, 2, 3], .call ⟨fun _ => 0, 0, none⟩]

theorem receive_in_step_firstFrames :
    let run := exec rxStep [] resetReceiver firstFrames
    (∃ read, arrivedFrames run.1 = read ++ run.2.unread.map Prod.snd ∧
        List.Forall₂ Delivers (fitting read) (deliveredPackets run.1)) ∧
      run.2.spi.controller.epktcnt.toNat = run.2.unread.length ∧
      Throughout rxStep resetReceiver (fun _ s e => Releases s e) run.1 :=
  receive_in_step ⟨⟨rfl, rfl, by decide⟩, rfl, rfl, rfl, rfl, Nat.zero_le _⟩
    (Run.exec .start (by decide))

end EthTransfer
