import EthTransfer.Driver.Enc28j60
import EthTransfer.Stack.Frame

/-!
# `get_packet`

The driver takes one frame from the receive ring: it reads the pointer to the next
frame, works out the stored size from it, and then reads the frame or, when it is too
large, moves the read pointer past it.

`getPacket_of_none` and `getPacket_of_some` say all that a call does.  The second one
speaks of the pointer that it finds in the memory, whatever this holds.
`fillPacket_type` says that the frame is the one `handleRxPacket` starts from.
-/

namespace EthTransfer

/-- The memory of an `eth_packet`.  A type of `none` is `ETH_NULL`. -/
structure PacketMemory where
  buffer : Bytes
  length : Int
  type : Option EthType

/-! ## The functions of the driver -/

/-- `read_buffer_short`. -/
def readBufferShort (spi : Spi) : ℕ × Spi :=
  let (buf, spi) := bufferRead spi (fun _ => 0) 0 2
  ((buf 1).toNat <<< 8 ||| (buf 0).toNat, spi)

/-- `read_buffer_int`. -/
def readBufferInt (spi : Spi) : Int × Spi :=
  let (buf, spi) := bufferRead spi (fun _ => 0) 0 4
  (Word.toInt (le32 buf 0), spi)

/-- `ntoh_eth`. -/
def ntohEth (buffer : Bytes) : Bytes := swap16 buffer 12

/-- `size`: how far the next frame is away, without the pointer and the status. -/
def storedSize (nextPacket readPointer : ℕ) : Int :=
  let size : Int := nextPacket - readPointer - 6
  if size < 0 then size + RX_END + 1 else size

/-- What `get_packet` does with the frame that it has read into `buffer`. -/
def fillPacket (packet : PacketMemory) (buffer : Bytes) (size : Int) : PacketMemory :=
  let packet := { packet with buffer := buffer, length := size - 4 }
  if size < 14 then { packet with type := some .unknown }
  else
    let packet := { packet with buffer := ntohEth packet.buffer }
    let etherType := le16 packet.buffer 12
    if etherType = 0x0800 then { packet with type := some .ip }
    else if etherType = 0x0806 then { packet with type := some .arp }
    else { packet with type := some .unknown }

/-- The branch of `get_packet` that reads the frame, or moves the read pointer past
it. -/
def readFrame (spi : Spi) (packet : PacketMemory) (size : Int) (nextPacket : ℕ) : Bytes × Spi :=
  if size ≤ PACKET_MAX_SIZE then bufferRead spi packet.buffer 0 size.toNat
  else (packet.buffer, writeControlRegisterWord spi ERDPTL nextPacket)

/-- `get_packet`: the packet, and whether it holds a frame.  `none` when the program
exits. -/
def getPacket (spi : Spi) (packet : PacketMemory) : Option (Spi × PacketMemory × Bool) := do
  let spi ← pushBank spi 1
  let count := readControlRegister spi EPKTCNT
  let spi ← popBank spi
  if count = 0 then
    some (spi, { packet with type := none }, false)
  else
    let spi ← pushBank spi 0
    let readPointer := readControlRegisterWord spi ERDPTL
    let spi ← popBank spi
    let (nextPacket, spi) := readBufferShort spi
    let size := storedSize nextPacket readPointer
    let (_status, spi) := readBufferInt spi
    let (buffer, spi) := readFrame spi packet size nextPacket
    let spi ← pushBank spi 0
    let spi := writeControlRegisterWord spi ERXRDPTL nextPacket
    let spi ← popBank spi
    let spi := setControlRegister spi ECON2 ECON2_PKTDEC
    if size > PACKET_MAX_SIZE then
      some (spi, { packet with type := none }, false)
    else
      some (spi, fillPacket packet buffer size, true)

/-- What `get_packet` delivers has the type that the stack reads off the frame, and is
the frame with its EtherType in host order. -/
theorem fillPacket_type (packet : PacketMemory) (buffer : Bytes) (size : Int) :
    (fillPacket packet buffer size).type = some (EthPacket.type ⟨buffer, size - 4⟩) := by
  unfold fillPacket EthPacket.type ntohEth
  dsimp only
  rw [Int.sub_add_cancel]
  split_ifs <;> rfl

/-! ## What a call does -/

/-- Between two calls of the driver bank `0` is selected, as after the start of the
program, and the bank stack has room. -/
structure Ready (spi : Spi) : Prop where
  bank : spi.controller.bank = 0
  currentBank : spi.currentBank = 0
  bankStack : spi.bankStack.length < BANK_STACK_SIZE

/-- A state with the same banks is ready, too. -/
theorem Ready.of_view {spi spi' : Spi} (hready : Ready spi) {memory : Bytes}
    {erdpt erxrdpt : ℕ} {count : UInt8}
    (hview : spi'.view =
      { spi.view with
        memory := memory, erdpt := erdpt, erxrdpt := erxrdpt, epktcnt := count }) :
    Ready spi' where
  bank := (congrArg View.bank hview).trans hready.bank
  currentBank := (congrArg View.currentBank hview).trans hready.currentBank
  bankStack := (congrArg (List.length ∘ View.bankStack) hview).trans_lt hready.bankStack

/-- What a ready state shows of the banks. -/
theorem Ready.view_eq {spi : Spi} (hready : Ready spi) :
    spi.view = { spi.view with bank := 0, bankStack := spi.bankStack, currentBank := 0 } := by
  unfold Spi.view
  rw [hready.bank, hready.currentBank]

/-- Work between `push_bank` and `pop_bank` that keeps the bank stack leaves the banks
as they were. -/
theorem Ready.push_pop {spi : Spi} (hready : Ready spi) {bank : ℕ} (hbank : bank < 4)
    (work : Spi → Spi)
    (hwork : ∀ spi', (work spi').bankStack = spi'.bankStack) :
    ∃ pushed popped, pushBank spi bank = some pushed ∧ popBank (work pushed) = some popped ∧
      pushed.view = { spi.view with
        bank := bank
        bankStack := 0 :: spi.bankStack
        currentBank := bank } ∧
      popped.view = { (work pushed).view with
        bank := 0
        bankStack := spi.bankStack
        currentBank := 0 } := by
  obtain ⟨pushed, hpush, hpushed⟩ := view_pushBank spi hbank hready.bankStack
  rw [hready.currentBank] at hpushed
  have hstack : (work pushed).bankStack = 0 :: spi.bankStack :=
    (hwork pushed).trans (congrArg View.bankStack hpushed)
  obtain ⟨popped, hpop, hpopped⟩ := view_popBank (by omega) hstack
  exact ⟨pushed, popped, hpush, hpop, hpushed, hpopped⟩

/-- Reading a register in another bank changes nothing that can be seen. -/
theorem Ready.peek {spi : Spi} (hready : Ready spi) {bank : ℕ} (hbank : bank < 4) :
    ∃ pushed popped, pushBank spi bank = some pushed ∧ popBank pushed = some popped ∧
      pushed.view = { spi.view with
        bank := bank
        bankStack := 0 :: spi.bankStack
        currentBank := bank } ∧
      popped.view = spi.view := by
  obtain ⟨pushed, popped, hpush, hpop, hpushed, hpopped⟩ :=
    hready.push_pop hbank id fun _ => rfl
  refine ⟨pushed, popped, hpush, hpop, hpushed, hpopped.trans ?_⟩
  rw [id_eq, hpushed, ← hready.view_eq]

/-- The pointer to the next frame that lies at an address of the receive ring. -/
def pointerAt (memory : Bytes) (address : ℕ) : ℕ :=
  (memory address).toNat + 256 * (memory ((address + 1) % (RX_END + 1))).toNat

theorem pointerAt_lt (memory : Bytes) (address : ℕ) : pointerAt memory address < 65536 := by
  have hlow := (memory address).toNat_lt
  have hhigh := (memory ((address + 1) % (RX_END + 1))).toNat_lt
  unfold pointerAt
  omega

theorem readBufferShort_eq (spi : Spi) (herdpt : spi.controller.erdpt ≤ RX_END) :
    (readBufferShort spi).1 = pointerAt spi.controller.memory spi.controller.erdpt ∧
      (readBufferShort spi).2.view =
        { spi.view with erdpt := (spi.controller.erdpt + 2) % (RX_END + 1) } := by
  obtain ⟨hbytes, hview⟩ := bufferRead_eq spi (fun _ => 0) 0 2 herdpt
  refine ⟨?_, hview⟩
  have hlow := hbytes 0
  have hhigh := hbytes 1
  rw [if_pos (by omega)] at hlow hhigh
  rw [Nat.sub_zero, Nat.add_zero, Nat.mod_eq_of_lt (by omega)] at hlow
  rw [Nat.sub_zero] at hhigh
  unfold readBufferShort
  dsimp only
  rw [hlow, hhigh, ← Nat.shiftLeft_add_eq_or_of_lt (UInt8.toNat_lt _), Nat.shiftLeft_eq,
    pointerAt]
  omega

theorem mod_le_rxEnd (address : ℕ) : address % (RX_END + 1) ≤ RX_END :=
  Nat.le_of_lt_succ (Nat.mod_lt _ (Nat.succ_pos _))

/-- The pointer and the status. -/
theorem readHeader_eq (spi : Spi) (herdpt : spi.controller.erdpt ≤ RX_END) :
    (readBufferShort spi).1 = pointerAt spi.controller.memory spi.controller.erdpt ∧
      (readBufferInt (readBufferShort spi).2).2.view =
        { spi.view with erdpt := (spi.controller.erdpt + 6) % (RX_END + 1) } := by
  obtain ⟨hpointer, hview⟩ := readBufferShort_eq spi herdpt
  refine ⟨hpointer, ?_⟩
  have hmoved : (readBufferShort spi).2.controller.erdpt =
      (spi.controller.erdpt + 2) % (RX_END + 1) := congrArg View.erdpt hview
  refine (bufferRead_eq _ (fun _ => 0) 0 4 (hmoved ▸ mod_le_rxEnd _)).2.trans ?_
  rw [hview, hmoved, Nat.mod_add_mod]

/-- `get_packet` reads `EPKTCNT` in bank `1`. -/
theorem readCount_eq {spi : Spi} (hready : Ready spi) :
    ∃ pushed popped, pushBank spi 1 = some pushed ∧ popBank pushed = some popped ∧
      readControlRegister pushed EPKTCNT = spi.controller.epktcnt.toNat ∧
      popped.view = spi.view := by
  obtain ⟨pushed, popped, hpush, hpop, hpushed, hpopped⟩ := hready.peek (show 1 < 4 by omega)
  refine ⟨pushed, popped, hpush, hpop, ?_, hpopped⟩
  have hbank : pushed.controller.bankOf EPKTCNT = 1 := congrArg View.bank hpushed
  have hkept : pushed.controller.epktcnt = spi.controller.epktcnt := congrArg View.epktcnt hpushed
  unfold readControlRegister
  dsimp only
  rw [hbank]
  exact congrArg UInt8.toNat hkept

/-- `get_packet` reads `ERDPT` in bank `0`. -/
theorem readPointer_eq {spi : Spi} (hready : Ready spi) :
    ∃ pushed popped, pushBank spi 0 = some pushed ∧ popBank pushed = some popped ∧
      readControlRegisterWord pushed ERDPTL = spi.controller.erdpt ∧ popped.view = spi.view := by
  obtain ⟨pushed, popped, hpush, hpop, hpushed, hpopped⟩ := hready.peek (show 0 < 4 by omega)
  refine ⟨pushed, popped, hpush, hpop, ?_, hpopped⟩
  rw [readErdpt (congrArg View.bank hpushed)]
  exact congrArg View.erdpt hpushed

theorem readFrame_eq {spi : Spi} (hready : Ready spi)
    (herdpt : spi.controller.erdpt ≤ RX_END) (packet : PacketMemory) (size : Int) {next : ℕ}
    (hnext : next < 65536) :
    (size ≤ PACKET_MAX_SIZE → (readFrame spi packet size next).1 =
      RingBuffer.load (RX_END + 1) packet.buffer spi.controller.memory spi.controller.erdpt
        size.toNat) ∧
    (readFrame spi packet size next).2.view =
      { spi.view with
        erdpt := if size ≤ PACKET_MAX_SIZE then
          (spi.controller.erdpt + size.toNat) % (RX_END + 1) else next } := by
  unfold readFrame
  by_cases hsize : size ≤ PACKET_MAX_SIZE
  · rw [if_pos hsize, if_pos hsize]
    exact ⟨fun _ => bufferRead_zero spi packet.buffer size.toNat herdpt,
      (bufferRead_eq spi packet.buffer 0 size.toNat herdpt).2⟩
  · rw [if_neg hsize, if_neg hsize]
    refine ⟨fun h => absurd h hsize, ?_⟩
    rw [writeControlRegisterWord_eq spi next (show ERDPTL + 1 < EIE by decide), hready.bank]
    exact view_setErdpt spi hnext

/-- `get_packet` releases a frame: it sets `ERXRDPT` in bank `0`, and then `PKTDEC`. -/
theorem release_eq {spi : Spi} (hready : Ready spi) {next : ℕ} (hnext : next < 65536) :
    ∃ pushed popped, pushBank spi 0 = some pushed ∧
      popBank (writeControlRegisterWord pushed ERXRDPTL next) = some popped ∧
      (setControlRegister popped ECON2 ECON2_PKTDEC).view =
        { spi.view with erxrdpt := next, epktcnt := spi.controller.epktcnt - 1 } := by
  obtain ⟨pushed, popped, hpush, hpop, hpushed, hpopped⟩ :=
    hready.push_pop (show 0 < 4 by omega) (fun s => writeControlRegisterWord s ERXRDPTL next)
      fun _ => rfl
  refine ⟨pushed, popped, hpush, hpop, ?_⟩
  have hbank : pushed.controller.bank = 0 := congrArg View.bank hpushed
  rw [writeControlRegisterWord_eq pushed next (show ERXRDPTL + 1 < EIE by decide), hbank,
    view_setErxrdpt pushed hnext, hpushed] at hpopped
  have hcount : popped.controller.epktcnt = spi.controller.epktcnt :=
    congrArg View.epktcnt hpopped
  rw [view_pktdec, hpopped, hcount, hready.view_eq]

/-- Nothing has arrived. -/
theorem getPacket_of_none {spi : Spi} (hready : Ready spi) (packet : PacketMemory)
    (hcount : spi.controller.epktcnt = 0) :
    ∃ spi', getPacket spi packet = some (spi', { packet with type := none }, false) ∧
      spi'.view = spi.view := by
  obtain ⟨pushed, popped, hpush, hpop, hread, hpopped⟩ := readCount_eq hready
  refine ⟨popped, ?_, hpopped⟩
  have hzero : readControlRegister pushed EPKTCNT = 0 := hread.trans (congrArg _ hcount)
  unfold getPacket
  simp only [Option.bind_eq_bind, Option.bind_some, hpush, hpop, hzero, ↓reduceIte]

/-- The packet after a call that finds a frame of this size at `ERDPT`, behind its
pointer and its status. -/
def packetAfter (packet : PacketMemory) (memory : Bytes) (erdpt : ℕ) (size : Int) : PacketMemory :=
  if size ≤ PACKET_MAX_SIZE then
    fillPacket packet
      (RingBuffer.load (RX_END + 1) packet.buffer memory (erdpt + 6) size.toNat) size
  else { packet with type := none }

/-- Something has arrived. -/
theorem getPacket_of_some {spi : Spi} (hready : Ready spi)
    (herdpt : spi.controller.erdpt ≤ RX_END) (packet : PacketMemory)
    (hcount : spi.controller.epktcnt ≠ 0) {next : ℕ} {size : Int}
    (hnext : next = pointerAt spi.controller.memory spi.controller.erdpt)
    (hsize : size = storedSize next spi.controller.erdpt) :
    ∃ spi', getPacket spi packet =
        some (spi', packetAfter packet spi.controller.memory spi.controller.erdpt size,
          decide (size ≤ PACKET_MAX_SIZE)) ∧
      spi'.view = { spi.view with
        erdpt := if size ≤ PACKET_MAX_SIZE then
          (spi.controller.erdpt + 6 + size.toNat) % (RX_END + 1) else next
        erxrdpt := next
        epktcnt := spi.controller.epktcnt - 1 } := by
  have hlt : next < 65536 := hnext ▸ pointerAt_lt _ _
  obtain ⟨pushed, counted, hpush, hpop, hread, hcounted⟩ := readCount_eq hready
  have hsome : readControlRegister pushed EPKTCNT ≠ 0 := fun hzero =>
    hcount (UInt8.toNat_inj.mp (hread.symm.trans hzero))
  have hready₁ : Ready counted := hready.of_view hcounted
  obtain ⟨pushed₂, located, hpush₂, hpop₂, hpointer, hlocated⟩ := readPointer_eq hready₁
  rw [show counted.controller.erdpt = spi.controller.erdpt from congrArg View.erdpt hcounted]
    at hpointer
  have hsame : located.view = spi.view := hlocated.trans hcounted
  have herdpt₂ : located.controller.erdpt = spi.controller.erdpt := congrArg View.erdpt hsame
  have hmemory₂ : located.controller.memory = spi.controller.memory :=
    congrArg View.memory hsame
  obtain ⟨hpointed, hheader⟩ := readHeader_eq located (herdpt₂ ▸ herdpt)
  rw [herdpt₂, hmemory₂, ← hnext] at hpointed
  rw [hsame, herdpt₂] at hheader
  generalize hheaded : (readBufferInt (readBufferShort located).2).2 = headed at hheader
  have hready₃ : Ready headed := hready.of_view hheader
  have herdpt₃ : headed.controller.erdpt = (spi.controller.erdpt + 6) % (RX_END + 1) :=
    congrArg View.erdpt hheader
  have hmemory₃ : headed.controller.memory = spi.controller.memory :=
    congrArg View.memory hheader
  obtain ⟨hbytes, hframe⟩ := readFrame_eq hready₃ (herdpt₃ ▸ mod_le_rxEnd _) packet size hlt
  rw [hheader, herdpt₃, Nat.mod_add_mod] at hframe
  rw [herdpt₃, hmemory₃, RingBuffer.load_mod] at hbytes
  have hready₄ : Ready (readFrame headed packet size next).2 := hready.of_view hframe
  obtain ⟨pushed₅, released, hpush₅, hpop₅, hreleased⟩ := release_eq hready₄ hlt
  have hcount₄ : (readFrame headed packet size next).2.controller.epktcnt =
      spi.controller.epktcnt := congrArg View.epktcnt hframe
  rw [hframe, hcount₄] at hreleased
  refine ⟨_, ?_, hreleased⟩
  unfold getPacket
  simp only [Option.bind_eq_bind, Option.bind_some, hpush, hpop, if_neg hsome, hpush₂, hpop₂,
    hpointer, hpointed, ← hsize, hheaded, hpush₅, hpop₅]
  by_cases hfits : size ≤ PACKET_MAX_SIZE
  · rw [if_neg (not_lt.mpr hfits), hbytes hfits, packetAfter, if_pos hfits, decide_eq_true hfits]
  · rw [if_pos (not_le.mp hfits), packetAfter, if_neg hfits, decide_eq_false hfits]

end EthTransfer
