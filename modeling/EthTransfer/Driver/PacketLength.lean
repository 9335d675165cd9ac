import EthTransfer.Driver.ReceiveRing

/-!
# The length of a packet

`get_packet` works out the length of a packet from the pointer to the next frame, and it does
not use the byte count that the chip reports in the status.  The chip rounds its pointers up
to even addresses.

* `FrameStored` is what the driver finds of a frame, at any place of the ring and with any status.
  `Synced.stored` says that the frames of every run are found like this.
* `getPacket_length`: the length counts the padding byte, too, so it is right for the frames
  of an even number of bytes (`getPacket_length_iff`).
-/

namespace EthTransfer

open RingBuffer

/-- The next frame lies at the even address `r`, where `ERDPT` stands. -/
structure FrameStored (spi : Spi) (r : ℕ) (frame : List UInt8) : Prop where
  ready : Ready spi
  even : r % 2 = 0
  inside : r ≤ RX_END
  erdpt : spi.controller.erdpt = r
  count : spi.controller.epktcnt ≠ 0
  hold : ∃ status, RingBuffer.Holds (RX_END + 1) spi.controller.memory r (record r status frame)

/-- In a run of the receiver the next unread frame is stored like this. -/
theorem Synced.stored {s : Receiver} {p : ℕ} (hsync : Synced s p) {r : ℕ} {frame : List UInt8}
    {rest : List (ℕ × List UInt8)} (hunread : s.unread = (r, frame) :: rest) :
    FrameStored s.spi r frame := by
  have hqueued := hsync.queued
  have hcount := hsync.count
  rw [hunread] at hqueued hcount
  obtain ⟨rfl, ⟨status, hold⟩, -⟩ := hqueued
  refine
    { ready := hsync.ready
      even := ?_
      inside := mod_le_rxEnd p
      erdpt := hsync.erdpt
      count := ?_
      hold := ⟨status, fun i hi => ?_⟩ }
  · have heven := hsync.even
    unfold RX_END
    omega
  · intro hzero
    rw [hzero, List.length_cons] at hcount
    exact absurd hcount.symm (Nat.succ_ne_zero _)
  · rw [Nat.mod_add_mod]
    exact hold i hi

/-- The frame fits into a packet with its padding. -/
theorem sizeOf_le {frame : List UInt8} (hmax : (frame.length : Int) ≤ PACKET_MAX_SIZE) :
    (sizeOf frame : Int) ≤ PACKET_MAX_SIZE := by
  have hmaxSize : PACKET_MAX_SIZE = 2048 := rfl
  unfold sizeOf roundUp
  omega

/-- What `get_packet` takes for the length: the frame and its padding, without the four bytes
of the checksum. -/
theorem getPacket_length {spi : Spi} {r : ℕ} {frame : List UInt8}
    (hstored : FrameStored spi r frame) (hmax : (frame.length : Int) ≤ PACKET_MAX_SIZE)
    (packet : PacketMemory) :
    ∃ spi' packet', getPacket spi packet = some (spi', packet', true) ∧
      packet'.length = sizeOf frame - 4 := by
  obtain ⟨status, hold⟩ := hstored.hold
  have hsizeOf := sizeOf_le hmax
  have hring : 6 + sizeOf frame ≤ RX_END + 1 := by
    have hmaxSize : PACKET_MAX_SIZE = 2048 := rfl
    unfold RX_END
    omega
  have hmod : r % (RX_END + 1) = r := Nat.mod_eq_of_lt (Nat.lt_succ_of_le hstored.inside)
  have hnext := nextAddress_eq hstored.even frame
  have hpointer := pointerAt_of_holds hold
  have hsize := storedSize_eq r hring
  rw [hmod] at hnext hpointer hsize
  rw [← hnext, ← hstored.erdpt] at hsize
  rw [← hstored.erdpt] at hpointer
  obtain ⟨spi', hcall, -⟩ := getPacket_of_some hstored.ready
    (hstored.erdpt.trans_le hstored.inside) packet hstored.count hpointer.symm hsize.symm
  rw [decide_eq_true hsizeOf] at hcall
  refine ⟨spi', _, hcall, ?_⟩
  rw [packetAfter, if_pos hsizeOf, fillPacket_length]

/-- `get_packet` sets the length of the frame without its checksum exactly if the frame has an
even number of bytes, wherever it lies in the ring. -/
theorem getPacket_length_iff {spi : Spi} {r : ℕ} {frame : List UInt8}
    (hstored : FrameStored spi r frame) (hmax : (frame.length : Int) ≤ PACKET_MAX_SIZE)
    (packet : PacketMemory) :
    (∃ spi' packet', getPacket spi packet = some (spi', packet', true) ∧
      packet'.length = frame.length - 4) ↔ frame.length % 2 = 0 := by
  obtain ⟨spi', packet', hcall, hlength⟩ := getPacket_length hstored hmax packet
  have hsize : sizeOf frame = frame.length + frame.length % 2 := rfl
  constructor
  · rintro ⟨spi'', packet'', hcall', hright⟩
    rw [hcall] at hcall'
    cases hcall'
    omega
  · intro heven
    exact ⟨spi', packet', hcall, by omega⟩

/-- The controller after a reset, when a frame of `n` bytes has arrived. -/
def holding (n : ℕ) : Receiver :=
  (rxStep resetReceiver (.arrival (.replicate 4 0) (List.replicate n 7))).1

theorem holding_stored {n : ℕ} (hn : n ≤ 2048) :
    FrameStored (holding n).spi 0 (List.replicate n 7) := by
  have hstart : Started resetReceiver := ⟨⟨rfl, rfl, by decide⟩, rfl, rfl, rfl, rfl, Nat.zero_le _⟩
  have hroom : used resetReceiver.unread + (6 + sizeOf (List.replicate n (7 : UInt8))) ≤
      RX_END + 1 := by
    have hused : used resetReceiver.unread = 0 := rfl
    unfold sizeOf roundUp RX_END
    rw [List.length_replicate]
    omega
  exact (hstart.synced.arrival (.replicate 4 0) hroom (by decide)).stored rfl

theorem getPacket_length_iff_even :
    (∃ spi' packet', getPacket (holding 60).spi ⟨fun _ => 0, 0, none⟩ = some (spi', packet', true) ∧
      packet'.length = (List.replicate 60 (7 : UInt8)).length - 4) ↔
      (List.replicate 60 (7 : UInt8)).length % 2 = 0 :=
  getPacket_length_iff (holding_stored (by decide)) (by decide) ⟨fun _ => 0, 0, none⟩

/-- The length of a frame of 61 bytes is one too large. -/
theorem getPacket_length_odd :
    ¬ ∀ (spi : Spi) (r : ℕ) (frame : List UInt8) (packet : PacketMemory), FrameStored spi r frame →
      14 ≤ frame.length → (frame.length : Int) ≤ PACKET_MAX_SIZE →
      ∃ spi' packet', getPacket spi packet = some (spi', packet', true) ∧
        packet'.length = frame.length - 4 := by
  intro hall
  have hstored := holding_stored (show 61 ≤ 2048 by decide)
  obtain ⟨spi₁, packet₁, hcall, hlength⟩ :=
    hall (holding 61).spi 0 (List.replicate 61 7) ⟨fun _ => 0, 0, none⟩ hstored (by decide)
      (by decide)
  obtain ⟨spi₂, packet₂, hcall', hlength'⟩ :=
    getPacket_length hstored (by decide) ⟨fun _ => 0, 0, none⟩
  rw [hcall] at hcall'
  cases hcall'
  rw [hlength] at hlength'
  exact absurd hlength' (by decide)

end EthTransfer
