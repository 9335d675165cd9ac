import EthTransfer.Lib.SpiSlave
import EthTransfer.Stack.Types

/-!
# The serial bus on the pins

`gpio_spi.c` from `init_spi` to `buffer_read`: each function writes the set and the clear
register of the pins bit by bit.  `Gpio` is the part of the pins that it uses, and `Board`
adds the slave that is connected to them.

* `isOutput_setInput` and `isOutput_setOutput`: what the function select registers say.
* `Wired` is the direction of the pins after `init_spi`, and `set_link` and `clr_link` give
  the lines after a write then.
* `assertCs_spec`, `spiWriteByte_spec`, `spiReadByte_spec` and `deassertCs_spec`: one lemma for
  each part of a transaction.
-/

namespace EthTransfer

open SpiSlave

/-! ## Pins -/

def MOSI : ℕ := 10
def MISO : ℕ := 9
def SCK : ℕ := 11
def CS : ℕ := 8
def INT : ℕ := 25

def CS_BIT : BitVec 32 := (1 : BitVec 32) <<< CS
def SCK_BIT : BitVec 32 := (1 : BitVec 32) <<< SCK
def MOSI_BIT : BitVec 32 := (1 : BitVec 32) <<< MOSI
def MISO_BIT : BitVec 32 := (1 : BitVec 32) <<< MISO

/-- The pins: the registers that select what they are for, ten pins each, the levels to which
they have been set, and the levels of those that are inputs. -/
structure Gpio where
  select : ℕ → BitVec 32
  latch : BitVec 32
  inputs : BitVec 32

namespace Gpio

/-- The three bits of a pin select `001`. -/
def isOutput (gpio : Gpio) (pin : ℕ) : Bool :=
  (gpio.select (pin / 10) >>> (pin % 10 * 3)) &&& 7 == 1

def level (gpio : Gpio) (pin : ℕ) : Bool :=
  if gpio.isOutput pin then gpio.latch.getLsbD pin else gpio.inputs.getLsbD pin

def lines (gpio : Gpio) : Lines := ⟨gpio.level CS, gpio.level SCK, gpio.level MOSI⟩

end Gpio

/-- The pins and the slave that is connected to them. -/
structure Board where
  gpio : Gpio
  slave : Slave 8

namespace Board

/-! ## `gpio_spi.c` -/

/-- The pins change, and the slave sees it. -/
def drive (board : Board) (gpio : Gpio) : Board :=
  ⟨gpio, board.slave.observe board.gpio.lines gpio.lines⟩

/-- `*(gpio_set) = value`. -/
def set (board : Board) (value : BitVec 32) : Board :=
  board.drive { board.gpio with latch := board.gpio.latch ||| value }

/-- `*(gpio_clr) = value`. -/
def clr (board : Board) (value : BitVec 32) : Board :=
  board.drive { board.gpio with latch := board.gpio.latch &&& ~~~value }

/-- `*(gpio_get)`. -/
def get (board : Board) : BitVec 32 :=
  (BitVec.ofBoolListLE ((List.range 32).map fun pin =>
    if pin = MISO ∧ board.gpio.isOutput pin = false then board.slave.miso
    else board.gpio.level pin)).setWidth 32

/-- `*(gpio_base + offset) = value`. -/
def writeSelect (board : Board) (offset : ℕ) (value : BitVec 32) : Board :=
  board.drive
    { board.gpio with select := fun r => if r = offset then value else board.gpio.select r }

/-- `set_input`. -/
def setInput (board : Board) (pin : ℕ) : Board :=
  let offset := pin / 10
  let shift := pin % 10 * 3
  board.writeSelect offset (board.gpio.select offset &&& ~~~((7 : BitVec 32) <<< shift))

/-- `set_output`. -/
def setOutput (board : Board) (pin : ℕ) : Board :=
  let board := board.setInput pin
  let offset := pin / 10
  let shift := pin % 10 * 3
  board.writeSelect offset (board.gpio.select offset ||| (1 : BitVec 32) <<< shift)

/-- `init_spi`. -/
def initSpi (board : Board) : Board :=
  let board := board.setInput MISO
  let board := board.setInput INT
  let board := board.setOutput MOSI
  let board := board.setOutput CS
  let board := board.setOutput SCK
  let board := board.set (CS_BIT ||| MOSI_BIT)
  board.clr SCK_BIT

/-- `SHORT_WAIT`.  `shortWait_eq` says all there is to know of it. -/
@[irreducible] def shortWait (board : Board) : Board :=
  Nat.repeat (fun board => board.clr 0) 16 board

/-- `assert_cs`. -/
def assertCs (board : Board) : Board := board.shortWait.clr CS_BIT

/-- `deassert_cs`. -/
def deassertCs (board : Board) : Board :=
  let board := board.shortWait.clr SCK_BIT
  let board := board.shortWait.set CS_BIT
  board.shortWait.set SCK_BIT

/-- The loop of `spi_write_byte`, with `turns` bits left to go out. -/
def writeBits (board : Board) (b : BitVec 32) : (turns : ℕ) → Board
  | 0 => board
  | turns + 1 =>
    let board := board.shortWait.clr (SCK_BIT ||| MOSI_BIT)
    let board := board.set (b &&& MOSI_BIT)
    let board := board.shortWait.set SCK_BIT
    board.writeBits (b <<< 1) turns

/-- `spi_write_byte`. -/
def spiWriteByte (board : Board) (b : BitVec 32) : Board := board.writeBits (b <<< (MOSI - 7)) 8

/-- The loop of `spi_read_byte`. -/
def readBits (board : Board) (b : BitVec 32) : (turns : ℕ) → BitVec 32 × Board
  | 0 => (b, board)
  | turns + 1 =>
    let board := board.shortWait.clr SCK_BIT
    let board := board.shortWait.set SCK_BIT
    let b := b ||| (board.get &&& MISO_BIT)
    board.readBits (b <<< 1) turns

/-- `spi_read_byte`. -/
def spiReadByte (board : Board) : BitVec 32 × Board :=
  let (b, board) := board.readBits 0 8
  (b.sshiftRight (MISO + 1), board)

/-- The three functions that write a control register.  They differ in `opcode`. -/
def registerCommand (opcode : BitVec 32) (board : Board) (address data : BitVec 32) : Board :=
  let board := board.assertCs
  let cmd := opcode ||| (0x1F &&& address)
  let board := board.spiWriteByte cmd
  let board := board.spiWriteByte data
  board.deassertCs

/-- `write_control_register`. -/
def writeControlRegister (board : Board) (address data : BitVec 32) : Board :=
  board.registerCommand 0x40 address data

/-- `clear_control_register`. -/
def clearControlRegister (board : Board) (address data : BitVec 32) : Board :=
  board.registerCommand 0xA0 address data

/-- `set_control_register`. -/
def setControlRegister (board : Board) (address data : BitVec 32) : Board :=
  board.registerCommand 0x80 address data

/-- `read_control_register`. -/
def readControlRegister (board : Board) (address : BitVec 32) : BitVec 32 × Board :=
  let board := board.assertCs
  let cmd := 0x00 ||| (0x1F &&& address)
  let board := board.spiWriteByte cmd
  let (data, board) := board.spiReadByte
  (data, board.deassertCs)

/-- What a `char` is as an `int`: the compiler decides whether it has a sign. -/
def ofChar (signed : Bool) (byte : UInt8) : BitVec 32 :=
  if signed then byte.toBitVec.signExtend 32 else byte.toBitVec.setWidth 32

/-- The loop of `buffer_write`, with `len` bytes left to go out from `off` on. -/
def writeBytes (signed : Bool) (board : Board) (buf : Bytes) (off : ℕ) : (len : ℕ) → Board
  | 0 => board
  | len + 1 =>
    let board := board.spiWriteByte (ofChar signed (buf off))
    board.writeBytes signed buf (off + 1) len

/-- `buffer_write`. -/
def bufferWrite (signed : Bool) (board : Board) (buf : Bytes) (off : ℕ) (len : ℤ) : ℤ × Board :=
  let board := board.assertCs
  let board := board.spiWriteByte 0x7A
  let board := board.writeBytes signed buf off len.toNat
  (len, board.deassertCs)

/-- The loop of `buffer_read`, with `len` bytes left to go to `buf` from `off` on. -/
def readBytes (board : Board) (buf : Bytes) (off : ℕ) : (len : ℕ) → Bytes × Board
  | 0 => (buf, board)
  | len + 1 =>
    let (data, board) := board.spiReadByte
    board.readBytes (fun i => if i = off then ⟨data.setWidth 8⟩ else buf i) (off + 1) len

/-- `buffer_read`. -/
def bufferRead (board : Board) (buf : Bytes) (off : ℕ) (len : ℤ) : ℤ × Bytes × Board :=
  let board := board.assertCs
  let board := board.spiWriteByte 0x3A
  let (buf, board) := board.readBytes buf off len.toNat
  (len, buf, board.deassertCs)

/-! ## Directions -/

section Directions

variable {x : BitVec 32} {s t : ℕ}

theorem getLsbD_seven (i : ℕ) : (7#32).getLsbD i = decide (i < 3) := by
  have hseven : 7#32 = BitVec.ofNat 32 (2 ^ 3 - 1) := rfl
  rw [hseven, BitVec.getLsbD_ofNat, Nat.testBit_two_pow_sub_one]
  by_cases hi : i < 3 <;> simp [hi]
  omega

/-- The bits of a pin, when they are cleared. -/
theorem field_clear (x : BitVec 32) (s : ℕ) : ((x &&& ~~~(7#32 <<< s)) >>> s) &&& 7#32 = 0#32 := by
  apply BitVec.eq_of_getLsbD_eq
  intro i hi
  by_cases hlow : i < 3 <;> simp [getLsbD_seven, hlow]

/-- And then one of them is set. -/
theorem field_set (x : BitVec 32) (hs : s < 32) :
    ((x &&& ~~~(7#32 <<< s) ||| 1#32 <<< s) >>> s) &&& 7#32 = 1#32 := by
  apply BitVec.eq_of_getLsbD_eq
  intro i hi
  by_cases hzero : i = 0
  · simp [hzero, hs]
  · by_cases hlow : i < 3 <;> simp [getLsbD_seven, hlow, hzero]

/-- A mask at one pin is not at another one. -/
theorem getLsbD_mask {mask : BitVec 32} (hmask : ∀ i, 3 ≤ i → mask.getLsbD i = false)
    (h : t + 3 ≤ s ∨ s + 3 ≤ t) {i : ℕ} (hi : i < 3) : (mask <<< s).getLsbD (t + i) = false := by
  rw [BitVec.getLsbD_shiftLeft]
  rcases h with hlt | hge
  · simp [show t + i < s by omega]
  · simp [hmask (t + i - s) (by omega)]

/-- So the bits of the other pin stay when the mask is cleared. -/
theorem field_clear_of_ne {mask : BitVec 32} (hmask : ∀ i, 3 ≤ i → mask.getLsbD i = false)
    (x : BitVec 32) (h : t + 3 ≤ s ∨ s + 3 ≤ t) :
    ((x &&& ~~~(mask <<< s)) >>> t) &&& 7#32 = (x >>> t) &&& 7#32 := by
  apply BitVec.eq_of_getLsbD_eq
  intro i hi
  by_cases hlow : i < 3
  · simp only [BitVec.getLsbD_and, BitVec.getLsbD_ushiftRight, BitVec.getLsbD_not,
      getLsbD_mask hmask h hlow, Bool.not_false, Bool.and_true]
    by_cases hbit : x.getLsbD (t + i)
    · simp [BitVec.lt_of_getLsbD hbit]
    · simp [hbit]
  · simp [getLsbD_seven, hlow]

/-- And when it is set. -/
theorem field_set_of_ne {mask : BitVec 32} (hmask : ∀ i, 3 ≤ i → mask.getLsbD i = false)
    (x : BitVec 32) (h : t + 3 ≤ s ∨ s + 3 ≤ t) :
    ((x ||| mask <<< s) >>> t) &&& 7#32 = (x >>> t) &&& 7#32 := by
  apply BitVec.eq_of_getLsbD_eq
  intro i hi
  by_cases hlow : i < 3
  · simp only [BitVec.getLsbD_and, BitVec.getLsbD_or, BitVec.getLsbD_ushiftRight,
      getLsbD_mask hmask h hlow, Bool.or_false]
  · simp [getLsbD_seven, hlow]

theorem seven_mask : ∀ i, 3 ≤ i → (7#32).getLsbD i = false := by
  intro i hi
  simp [getLsbD_seven, hi]

theorem one_mask : ∀ i, 3 ≤ i → (1#32).getLsbD i = false := by
  intro i hi
  simp [show i ≠ 0 by omega]

variable {board : Board} {pin q : ℕ}

theorem isOutput_setInput :
    (board.setInput pin).gpio.isOutput q = (q ≠ pin && board.gpio.isOutput q) := by
  by_cases hpin : q = pin
  · subst hpin
    have hfield := field_clear (board.gpio.select (q / 10)) (q % 10 * 3)
    simp [setInput, writeSelect, drive, Gpio.isOutput, hfield]
  · have hsame : (board.setInput pin).gpio.isOutput q = board.gpio.isOutput q := by
      by_cases hoffset : q / 10 = pin / 10
      · have hfield := field_clear_of_ne seven_mask (board.gpio.select (pin / 10))
          (show q % 10 * 3 + 3 ≤ pin % 10 * 3 ∨ pin % 10 * 3 + 3 ≤ q % 10 * 3 by omega)
        simp [setInput, writeSelect, drive, Gpio.isOutput, hoffset, hfield]
      · simp [setInput, writeSelect, drive, Gpio.isOutput, hoffset]
    simp [hpin, hsame]

theorem isOutput_setOutput :
    (board.setOutput pin).gpio.isOutput q = (q = pin || board.gpio.isOutput q) := by
  by_cases hpin : q = pin
  · subst hpin
    have hshift : q % 10 * 3 < 32 := by omega
    have hfield := field_set (board.gpio.select (q / 10)) hshift
    simp [setOutput, setInput, writeSelect, drive, Gpio.isOutput, hfield]
  · have hsame : (board.setOutput pin).gpio.isOutput q =
        (board.setInput pin).gpio.isOutput q := by
      by_cases hoffset : q / 10 = pin / 10
      · have hfield := field_set_of_ne one_mask ((board.setInput pin).gpio.select (pin / 10))
          (show q % 10 * 3 + 3 ≤ pin % 10 * 3 ∨ pin % 10 * 3 + 3 ≤ q % 10 * 3 by omega)
        simp [setOutput, writeSelect, drive, Gpio.isOutput, hoffset, hfield]
      · simp [setOutput, writeSelect, drive, Gpio.isOutput, hoffset]
    rw [hsame, isOutput_setInput]
    simp [hpin]

end Directions

/-! ## Lines -/

/-- The lines and the slave. -/
def link (board : Board) : Link 8 := ⟨board.gpio.lines, board.slave⟩

/-- The lines when their pins are outputs and a value is written to the set register. -/
def raised (lines : Lines) (value : BitVec 32) : Lines where
  cs := lines.cs || value.getLsbD CS
  sck := lines.sck || value.getLsbD SCK
  mosi := lines.mosi || value.getLsbD MOSI

/-- And when it is written to the clear register. -/
def lowered (lines : Lines) (value : BitVec 32) : Lines where
  cs := lines.cs && !value.getLsbD CS
  sck := lines.sck && !value.getLsbD SCK
  mosi := lines.mosi && !value.getLsbD MOSI

/-- The directions of the pins after `init_spi`. -/
structure Wired (board : Board) : Prop where
  cs : board.gpio.isOutput CS = true
  sck : board.gpio.isOutput SCK = true
  mosi : board.gpio.isOutput MOSI = true
  miso : board.gpio.isOutput MISO = false

theorem Wired.of_select {board board' : Board} (h : board.Wired)
    (hselect : board'.gpio.select = board.gpio.select) : board'.Wired := by
  have hsame (pin : ℕ) : board'.gpio.isOutput pin = board.gpio.isOutput pin := by
    unfold Gpio.isOutput
    rw [hselect]
  exact ⟨(hsame CS).trans h.cs, (hsame SCK).trans h.sck, (hsame MOSI).trans h.mosi,
    (hsame MISO).trans h.miso⟩

section Lines

variable {board : Board}

theorem Wired.set (h : board.Wired) (value : BitVec 32) : (board.set value).Wired :=
  h.of_select rfl

theorem Wired.clr (h : board.Wired) (value : BitVec 32) : (board.clr value).Wired :=
  h.of_select rfl

theorem lines_set (h : board.Wired) (value : BitVec 32) :
    (board.set value).gpio.lines = raised board.gpio.lines value := by
  have hwired := h.set value
  simp only [Gpio.lines, Gpio.level, raised, h.cs, h.sck, h.mosi, hwired.cs, hwired.sck,
    hwired.mosi, if_true]
  simp [Board.set, drive]

theorem lines_clr (h : board.Wired) (value : BitVec 32) :
    (board.clr value).gpio.lines = lowered board.gpio.lines value := by
  have hwired := h.clr value
  simp only [Gpio.lines, Gpio.level, lowered, h.cs, h.sck, h.mosi, hwired.cs, hwired.sck,
    hwired.mosi, if_true]
  simp [Board.clr, drive, CS, SCK, MOSI]

/-- Bits in the set register raise the lines. -/
theorem set_link (h : board.Wired) (value : BitVec 32) :
    (board.set value).link = board.link.move (raised board.gpio.lines value) := by
  rw [← lines_set h]
  rfl

/-- Bits in the clear register lower them. -/
theorem clr_link (h : board.Wired) (value : BitVec 32) :
    (board.clr value).link = board.link.move (lowered board.gpio.lines value) := by
  rw [← lines_clr h]
  rfl

theorem slave_set (h : board.Wired) (value : BitVec 32) :
    (board.set value).slave = (board.link.move (raised board.gpio.lines value)).slave :=
  congrArg Link.slave (set_link h value)

theorem slave_clr (h : board.Wired) (value : BitVec 32) :
    (board.clr value).slave = (board.link.move (lowered board.gpio.lines value)).slave :=
  congrArg Link.slave (clr_link h value)

/-- A write of zero changes nothing. -/
theorem clr_zero (board : Board) : board.clr 0#32 = board := by
  have hlatch : board.gpio.latch &&& ~~~0#32 = board.gpio.latch := BitVec.and_allOnes
  have hslave := congrArg Link.slave (Link.move_self board.link)
  rw [clr, hlatch]
  exact congrArg (Board.mk board.gpio) hslave

theorem shortWait_eq (board : Board) : board.shortWait = board := by
  simp [shortWait, Nat.repeat, clr_zero]

/-- The master reads the line of the slave. -/
theorem get_miso (h : board.Wired) : board.get.getLsbD MISO = board.slave.miso := by
  have hmiso : MISO = 9 := rfl
  have hinput : board.gpio.isOutput 9 = false := h.miso
  rw [get, BitVec.getLsbD_setWidth, BitVec.getLsbD_ofBoolListLE]
  simp [hmiso, hinput]

end Lines

/-! ## Transactions -/

/-- CS is low.  The slave has been `start` before, and `frame` has been exchanged since then. -/
structure Exchanging (board : Board) (start : Slave 8) (frame : Frame 8) : Prop where
  wired : board.Wired
  receiving : board.link.Receiving start frame

/-- CS is high, and the slave is not selected. -/
structure Idle (board : Board) : Prop where
  wired : board.Wired
  cs : board.gpio.lines.cs = true

section Transactions

variable {board : Board} {start : Slave 8} {frame : Frame 8}

theorem assertCs_spec (h : board.Idle) : board.assertCs.Exchanging board.slave .empty := by
  have hbit : CS_BIT.getLsbD CS = true := by decide
  unfold assertCs
  rw [shortWait_eq]
  refine ⟨h.wired.clr _, ?_⟩
  rw [clr_link h.wired]
  exact Link.select h.cs (by simp [lowered, hbit])

namespace Exchanging

theorem cs (h : board.Exchanging start frame) : board.gpio.lines.cs = false := h.receiving.cs

/-- The pins of the clock and of MOSI go low, or only the one of the clock. -/
theorem clr (value : BitVec 32) (h : board.Exchanging start frame)
    (hsck : value.getLsbD SCK = true) :
    (board.clr value).Exchanging start frame ∧ (board.clr value).gpio.lines.sck = false ∧
      (board.clr value).gpio.lines.mosi = (board.gpio.lines.mosi && !value.getLsbD MOSI) ∧
      (board.gpio.lines.sck = true →
        (board.clr value).slave.miso = (start.word frame).getMsbD frame.bits.length) := by
  have hcs : (lowered board.gpio.lines value).cs = false := by simp [lowered, h.cs]
  have hlow : (lowered board.gpio.lines value).sck = false := by simp [lowered, hsck]
  refine ⟨⟨h.wired.clr _, ?_⟩, ?_, ?_, fun hbefore => ?_⟩
  · rw [clr_link h.wired]
    exact h.receiving.lower hcs hlow
  · rw [lines_clr h.wired]
    exact hlow
  · rw [lines_clr h.wired]
    rfl
  · rw [slave_clr h.wired]
    exact h.receiving.miso_lower hcs hlow hbefore

/-- The pin of MOSI goes high while the clock is low, or no pin does. -/
theorem setMosi (h : board.Exchanging start frame) (hbefore : board.gpio.lines.sck = false)
    (b : BitVec 32) :
    (board.set (b &&& MOSI_BIT)).Exchanging start frame ∧
      (board.set (b &&& MOSI_BIT)).gpio.lines.sck = false ∧
      (board.set (b &&& MOSI_BIT)).gpio.lines.mosi =
        (board.gpio.lines.mosi || b.getLsbD MOSI) := by
  have hlines : raised board.gpio.lines (b &&& MOSI_BIT) =
      { board.gpio.lines with mosi := board.gpio.lines.mosi || b.getLsbD MOSI } := by
    simp only [raised, BitVec.getLsbD_and, show MOSI_BIT.getLsbD CS = false by decide,
      show MOSI_BIT.getLsbD SCK = false by decide, show MOSI_BIT.getLsbD MOSI = true by decide,
      Bool.and_false, Bool.and_true, Bool.or_false]
  refine ⟨⟨h.wired.set _, ?_⟩, ?_, ?_⟩
  · rw [set_link h.wired, hlines]
    exact h.receiving.lower h.cs hbefore
  · rw [lines_set h.wired, hlines]
    exact hbefore
  · rw [lines_set h.wired, hlines]

/-- The pin of the clock goes high. -/
theorem setSck (h : board.Exchanging start frame) (hbefore : board.gpio.lines.sck = false) :
    (board.set SCK_BIT).Exchanging start
        (frame.sample (start.word frame) board.gpio.lines.mosi) ∧
      (board.set SCK_BIT).gpio.lines.sck = true ∧
      (board.set SCK_BIT).gpio.lines.mosi = board.gpio.lines.mosi ∧
      (board.set SCK_BIT).slave.miso = board.slave.miso := by
  have hlines : raised board.gpio.lines SCK_BIT = { board.gpio.lines with sck := true } := by
    simp only [raised, show SCK_BIT.getLsbD CS = false by decide,
      show SCK_BIT.getLsbD SCK = true by decide, show SCK_BIT.getLsbD MOSI = false by decide,
      Bool.or_false, Bool.or_true]
  obtain ⟨hreceiving, hmiso⟩ :=
    h.receiving.raise { board.gpio.lines with sck := true } h.cs rfl hbefore
  refine ⟨⟨h.wired.set _, ?_⟩, ?_, ?_, ?_⟩
  · rw [set_link h.wired, hlines]
    exact hreceiving
  · rw [lines_set h.wired, hlines]
  · rw [lines_set h.wired, hlines]
  · rw [slave_set h.wired, hlines]
    exact hmiso

end Exchanging

/-! ### Bytes out -/

/-- The bits of a byte stand at the pin of MOSI one after the other. -/
theorem getLsbD_shifted (data : BitVec 32) {j : ℕ} (hj : j < 8) :
    (data <<< (MOSI - 7) <<< j).getLsbD MOSI = (data.setWidth 8).getMsbD j := by
  have hmosi : MOSI = 10 := rfl
  rw [hmosi, BitVec.getLsbD_shiftLeft, BitVec.getLsbD_shiftLeft, BitVec.getMsbD_eq_getLsbD,
    BitVec.getLsbD_setWidth, show 10 - j - (10 - 7) = 8 - 1 - j by omega]
  simp [hj, show ¬ 10 < j by omega, show ¬ 10 - j < 3 by omega, show 10 - j < 32 by omega,
    show 7 - j < 8 by omega]

theorem writeBits_spec {byte : BitVec 8} {b : BitVec 32} {n turns : ℕ} (hturns : n + turns = 8)
    (h : board.Exchanging start (frame.after byte (start.word frame) n))
    (hsck : 0 < n → board.gpio.lines.sck = true)
    (hb : ∀ j < turns, (b <<< j).getLsbD MOSI = byte.getMsbD (n + j)) :
    (board.writeBits b turns).Exchanging start (frame.after byte (start.word frame) 8) ∧
      (board.writeBits b turns).gpio.lines.sck = true := by
  induction turns generalizing board b n with
  | zero =>
    obtain rfl : n = 8 := by omega
    rw [writeBits]
    exact ⟨h, hsck (by decide)⟩
  | succ turns ih =>
    have hn : n < 8 := by omega
    have hword : start.word (frame.after byte (start.word frame) n) = start.word frame := by
      rw [Slave.word, Frame.received_after hn]
      rfl
    have hbit : b.getLsbD MOSI = byte.getMsbD n := by simpa using hb 0 (by omega)
    obtain ⟨h₁, hsck₁, hmosi₁, -⟩ := h.clr (SCK_BIT ||| MOSI_BIT) (by decide)
    obtain ⟨h₂, hsck₂, hmosi₂⟩ := h₁.setMosi hsck₁ b
    obtain ⟨h₃, hsck₃, -, -⟩ := h₂.setSck hsck₂
    have hmosi : (board.clr (SCK_BIT ||| MOSI_BIT)).gpio.lines.mosi = false := by
      rw [hmosi₁, show (SCK_BIT ||| MOSI_BIT).getLsbD MOSI = true by decide, Bool.not_true,
        Bool.and_false]
    rw [hword, hmosi₂, hmosi, Bool.false_or, hbit, Frame.sample_after hn] at h₃
    simp only [writeBits, shortWait_eq]
    refine ih (by omega) h₃ (fun _ => hsck₃) fun j hj => ?_
    have hshift : b <<< 1 <<< j = b <<< (j + 1) := by
      rw [← BitVec.shiftLeft_add, Nat.add_comm]
    rw [hshift, hb (j + 1) (by omega)]
    congr 1
    omega

/-- A byte goes out, and the clock stays high. -/
theorem spiWriteByte_spec (h : board.Exchanging start frame) (hbits : frame.bits = [])
    (data : BitVec 32) :
    (board.spiWriteByte data).Exchanging start (frame.push (data.setWidth 8) (start.word frame)) ∧
      (board.spiWriteByte data).gpio.lines.sck = true := by
  have hzero := Frame.after_zero (data.setWidth 8) (start.word frame) (show 0 < 8 by decide) hbits
  rw [← Frame.after_self]
  refine writeBits_spec (Nat.zero_add 8) (by rwa [hzero]) (fun hlt => absurd hlt (by decide)) ?_
  intro j hj
  rw [Nat.zero_add]
  exact getLsbD_shifted data hj

/-! ### Bytes in -/

/-- What the slave samples while the pin of MOSI stays as it is. -/
def fill (bit : Bool) : BitVec 8 := if bit then BitVec.allOnes 8 else 0

theorem getMsbD_fill (bit : Bool) {n : ℕ} (hn : n < 8) : (fill bit).getMsbD n = bit := by
  cases bit with
  | false => simp [fill]
  | true => rw [fill, if_pos rfl, BitVec.getMsbD_allOnes, decide_eq_true hn]

/-- One bit more is read behind those that have been read. -/
theorem shiftLeft_read {sent : BitVec 8} {levels : BitVec 32} {n : ℕ} (hn : n < 8)
    (hlevel : levels.getLsbD MISO = sent.getMsbD n) :
    ((sent >>> (8 - n)).setWidth 32 <<< 10 ||| (levels &&& MISO_BIT)) <<< 1 =
      (sent >>> (8 - (n + 1))).setWidth 32 <<< 10 := by
  have hmask (i : ℕ) : MISO_BIT.getLsbD i = decide (i = 9) := by
    rw [MISO_BIT, show MISO = 9 from rfl, BitVec.getLsbD_shiftLeft]
    by_cases hi : i = 9
    · subst hi
      rfl
    · by_cases hlow : i < 9 <;> simp [hi, hlow]
      omega
  apply BitVec.eq_of_getLsbD_eq
  intro i hi
  simp only [BitVec.getLsbD_shiftLeft, BitVec.getLsbD_or, BitVec.getLsbD_setWidth,
    BitVec.getLsbD_ushiftRight, BitVec.getLsbD_and, hmask]
  rcases lt_trichotomy i 10 with hlt | rfl | hgt
  · simp [show i - 1 < 10 by omega, show i - 1 ≠ 9 by omega, hlt]
  · have hmiso : levels.getLsbD (10 - 1) = sent.getLsbD (8 - (n + 1) + (10 - 10)) := by
      rw [show levels.getLsbD (10 - 1) = _ from hlevel, BitVec.getMsbD_eq_getLsbD,
        decide_eq_true hn, Bool.true_and, show 8 - 1 - n = 8 - (n + 1) + (10 - 10) by omega]
    rw [hmiso]
    simp only [Nat.reduceLT, Nat.reduceSub, decide_true, decide_false, Bool.true_and, Bool.and_true,
      Bool.not_false, Bool.not_true, Bool.false_and, Bool.false_or]
  · have hindex : 8 - n + (i - 1 - 10) = 8 - (n + 1) + (i - 10) := by omega
    rw [hindex]
    simp [hi, show ¬ i - 1 = 9 by omega, show ¬ i < 1 by omega, show ¬ i - 1 < 10 by omega,
      show ¬ i < 10 by omega, show i - 1 < 32 by omega, show i - 1 - 10 < 32 by omega,
      show i - 10 < 32 by omega]

/-- And then the bits are shifted to the end. -/
theorem sshiftRight_read (sent : BitVec 8) :
    (sent.setWidth 32 <<< 10).sshiftRight (MISO + 1) = sent.setWidth 32 := by
  have hhigh {i : ℕ} (hi : 8 ≤ i) : sent.getLsbD i = false := BitVec.getLsbD_of_ge sent i hi
  have hmsb : (sent.setWidth 32 <<< 10).msb = false := by
    rw [BitVec.msb_eq_getLsbD_last, BitVec.getLsbD_shiftLeft, BitVec.getLsbD_setWidth,
      hhigh (by decide), Bool.and_false, Bool.and_false]
  apply BitVec.eq_of_getLsbD_eq
  intro i hi
  rw [BitVec.getLsbD_sshiftRight, hmsb, show MISO + 1 = 10 from rfl, BitVec.getLsbD_shiftLeft,
    BitVec.getLsbD_setWidth, BitVec.getLsbD_setWidth, Nat.add_sub_cancel_left]
  by_cases hlow : 10 + i < 32
  · simp [hlow, hi]
  · simp [hlow, hhigh (show 8 ≤ i by omega)]

theorem readBits_spec {bit : Bool} {b : BitVec 32} {n turns : ℕ} (hturns : n + turns = 8)
    (h : board.Exchanging start (frame.after (fill bit) (start.word frame) n))
    (hsck : board.gpio.lines.sck = true) (hmosi : board.gpio.lines.mosi = bit)
    (hb : b = (start.word frame >>> (8 - n)).setWidth 32 <<< 10) :
    (board.readBits b turns).1 = (start.word frame).setWidth 32 <<< 10 ∧
      (board.readBits b turns).2.Exchanging start
        (frame.after (fill bit) (start.word frame) 8) ∧
      (board.readBits b turns).2.gpio.lines.sck = true := by
  induction turns generalizing board b n with
  | zero =>
    obtain rfl : n = 8 := by omega
    rw [readBits]
    refine ⟨?_, h, hsck⟩
    rw [hb, Nat.sub_self, BitVec.ushiftRight_zero]
  | succ turns ih =>
    have hn : n < 8 := by omega
    have hword : start.word (frame.after (fill bit) (start.word frame) n) = start.word frame := by
      rw [Slave.word, Frame.received_after hn]
      rfl
    obtain ⟨h₁, hsck₁, hmosi₁, hmiso₁⟩ := h.clr SCK_BIT (by decide)
    obtain ⟨h₂, hsck₂, hmosi₂, hmiso₂⟩ := h₁.setSck hsck₁
    have hkept : (board.clr SCK_BIT).gpio.lines.mosi = bit := by
      rw [hmosi₁, hmosi, show SCK_BIT.getLsbD MOSI = false by decide, Bool.not_false,
        Bool.and_true]
    have hlevel : ((board.clr SCK_BIT).set SCK_BIT).get.getLsbD MISO =
        (start.word frame).getMsbD n := by
      rw [get_miso h₂.wired, hmiso₂, hmiso₁ hsck, hword, Frame.length_bits_after hn]
    have hsample : (frame.after (fill bit) (start.word frame) n).sample (start.word frame) bit =
        frame.after (fill bit) (start.word frame) (n + 1) := by
      rw [← Frame.sample_after hn, getMsbD_fill bit hn]
    rw [hword, hkept, hsample] at h₂
    simp only [readBits, shortWait_eq]
    refine ih (by omega) h₂ hsck₂ (hmosi₂.trans hkept) ?_
    rw [hb, shiftLeft_read hn hlevel]

/-- A byte comes in, while the slave samples a byte that does not count. -/
theorem spiReadByte_spec (h : board.Exchanging start frame) (hbits : frame.bits = [])
    (hsck : board.gpio.lines.sck = true) :
    ∃ byte, board.spiReadByte.1 = (start.word frame).setWidth 32 ∧
      board.spiReadByte.2.Exchanging start (frame.push byte (start.word frame)) ∧
      board.spiReadByte.2.gpio.lines.sck = true := by
  set byte := fill board.gpio.lines.mosi with hbyte
  have hzero := Frame.after_zero byte (start.word frame) (show 0 < 8 by decide) hbits
  have hstart : (0 : BitVec 32) = (start.word frame >>> (8 - 0)).setWidth 32 <<< 10 := by
    rw [BitVec.ushiftRight_eq_zero (by decide)]
    rfl
  obtain ⟨hread, h', hsck'⟩ := readBits_spec (Nat.zero_add 8) (by rwa [hzero]) hsck rfl hstart
  refine ⟨byte, ?_, by rwa [← Frame.after_self], hsck'⟩
  have hback : (board.readBits 0 8).1.sshiftRight (MISO + 1) = (start.word frame).setWidth 32 := by
    rw [hread, sshiftRight_read]
  exact hback

/-- CS goes high while the clock is low, and the clock goes high behind it. -/
theorem deassertCs_spec (h : board.Exchanging start frame) :
    board.deassertCs.Idle ∧ board.deassertCs.slave.frames = start.frames ++ [frame] := by
  simp only [deassertCs, shortWait_eq]
  obtain ⟨h₁, -, -, -⟩ := h.clr SCK_BIT (by decide)
  set board₁ := board.clr SCK_BIT
  set board₂ := board₁.set CS_BIT with hboard₂
  have hwired₂ : board₂.Wired := h₁.wired.set CS_BIT
  have hraised₂ : (raised board₁.gpio.lines CS_BIT).cs = true := by
    rw [raised, show CS_BIT.getLsbD CS = true by decide, Bool.or_true]
  have hcs₂ : board₂.gpio.lines.cs = true := by rw [hboard₂, lines_set h₁.wired, hraised₂]
  have hslave₂ : board₂.slave =
      { board₁.slave with frames := start.frames ++ [frame], frame := none } := by
    rw [hboard₂, slave_set h₁.wired]
    exact h₁.receiving.release hraised₂
  -- the clock goes high behind CS, and the slave does not see it
  have hraised₃ : (raised board₂.gpio.lines SCK_BIT).cs = true := by
    rw [raised, hcs₂, Bool.true_or]
  refine ⟨⟨hwired₂.set _, by rw [lines_set hwired₂, hraised₃]⟩, ?_⟩
  have hnone : board₂.slave.frame = none := by rw [hslave₂]
  rw [slave_set hwired₂, Link.idle hnone (hcs₂.trans hraised₃.symm)]
  exact congrArg Slave.frames hslave₂

end Transactions

end Board

end EthTransfer
