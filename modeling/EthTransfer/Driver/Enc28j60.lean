import EthTransfer.Stack.Types
import EthTransfer.Lib.RingBuffer
import Mathlib.Data.List.Basic
import Mathlib.Tactic.IntervalCases

/-!
# The ENC28J60 behind its SPI commands

`Controller` is the part of the chip that receiving needs: the buffer memory and the
control registers.  A register has an address of five bits.  The registers from `EIE`
on are the same in all banks, and the others belong to the bank that `BSEL` in `ECON1`
selects.  `Spi` adds the bank stack of `gpio_spi.c`, and the functions below it are
those of this file, one for each SPI command and for the words and banks built from
them.

Two side effects of the chip matter.  Reading buffer memory moves `ERDPT` on, from
`RX_END` back to `0`, and setting `PKTDEC` in `ECON2` takes one off `EPKTCNT`.

`View` is what receiving can tell of a controller, and each function has one lemma
that says what it does to the view.
-/

namespace EthTransfer

/-! ## Registers -/

def EIE : ℕ := 0x1B
def ECON2 : ℕ := 0x1E
def ECON1 : ℕ := 0x1F

def ECON1_BSEL : UInt8 := 0x03
def ECON2_PKTDEC : UInt8 := 0x40

def ERDPTL : ℕ := 0x00
def ERXRDPTL : ℕ := 0x0C

def EPKTCNT : ℕ := 0x19

/-- The last address of the receive buffer, `MEM_HIGH - TX_SIZE`. -/
def RX_END : ℕ := 0x13FF

def BANK_STACK_SIZE : ℕ := 128

/-- The chip: its buffer memory, and its registers by bank and address. -/
structure Controller where
  memory : Bytes
  registers : ℕ → ℕ → UInt8

/-- The selected bank. -/
def Controller.bank (c : Controller) : ℕ := (c.registers 0 ECON1 &&& ECON1_BSEL).toNat

/-- The bank in which an address is looked up.  The common registers are kept under
bank `0`. -/
def Controller.bankOf (c : Controller) (address : ℕ) : ℕ := if EIE ≤ address then 0 else c.bank

/-- Set a register. -/
def Controller.setRegister (c : Controller) (bank address : ℕ) (data : UInt8) : Controller :=
  { c with registers := fun b a => if b = bank ∧ a = address then data else c.registers b a }

/-- Two registers as one number, the low byte first. -/
def Controller.word (c : Controller) (bank address : ℕ) : ℕ :=
  (c.registers bank address).toNat + 256 * (c.registers bank (address + 1)).toNat

/-- `ERDPT`, where the next byte of buffer memory is read. -/
def Controller.erdpt (c : Controller) : ℕ := c.word 0 ERDPTL

/-- `ERXRDPT`, up to which the chip may write received frames. -/
def Controller.erxrdpt (c : Controller) : ℕ := c.word 0 ERXRDPTL

/-- `EPKTCNT`, the number of received frames that are not released. -/
def Controller.epktcnt (c : Controller) : UInt8 := c.registers 1 EPKTCNT

/-- Set both bytes of a register pair. -/
def Controller.setWord (c : Controller) (bank address value : ℕ) : Controller :=
  (c.setRegister bank address (UInt8.ofNat value)).setRegister bank (address + 1)
    (UInt8.ofNat (value / 256))

/-! ## Commands -/

/-- The controller, and `bank_stack`, `bank_index` and `current_bank`.  The list holds
the entries below `bank_index`, the last one first. -/
structure Spi where
  controller : Controller
  bankStack : List ℕ
  currentBank : ℕ

/-- `write_control_register`. -/
def writeControlRegister (spi : Spi) (address data : ℕ) : Spi :=
  let c := spi.controller
  { spi with controller := c.setRegister (c.bankOf address) address (UInt8.ofNat data) }

/-- `read_control_register`. -/
def readControlRegister (spi : Spi) (address : ℕ) : ℕ :=
  let c := spi.controller
  (c.registers (c.bankOf address) address).toNat

/-- `clear_control_register`. -/
def clearControlRegister (spi : Spi) (address : ℕ) (data : UInt8) : Spi :=
  let c := spi.controller
  let bank := c.bankOf address
  { spi with controller := c.setRegister bank address (c.registers bank address &&& ~~~data) }

/-- `set_control_register`.  `PKTDEC` does not stay set: it takes one off `EPKTCNT`. -/
def setControlRegister (spi : Spi) (address : ℕ) (data : UInt8) : Spi :=
  let c := spi.controller
  let bank := c.bankOf address
  if address = ECON2 ∧ data &&& ECON2_PKTDEC ≠ 0 then
    let c := c.setRegister bank address (c.registers bank address ||| (data &&& ~~~ECON2_PKTDEC))
    { spi with controller := c.setRegister 1 EPKTCNT (c.epktcnt - 1) }
  else
    { spi with controller := c.setRegister bank address (c.registers bank address ||| data) }

/-- One byte of the "read buffer memory" command. -/
def Controller.readByte (c : Controller) : UInt8 × Controller :=
  (c.memory c.erdpt, c.setWord 0 ERDPTL (if c.erdpt = RX_END then 0 else c.erdpt + 1))

/-- `buffer_read`, with `len` bytes left to go to `buf` from `off` on. -/
def bufferRead (spi : Spi) (buf : Bytes) (off : ℕ) : (len : ℕ) → Bytes × Spi
  | 0 => (buf, spi)
  | len + 1 =>
    let (byte, c) := spi.controller.readByte
    bufferRead { spi with controller := c } (fun i => if i = off then byte else buf i) (off + 1) len

/-- `set_bank`. -/
def setBank (spi : Spi) (bank : ℕ) : Spi :=
  let spi := { spi with currentBank := bank }
  let spi := clearControlRegister spi ECON1 ECON1_BSEL
  setControlRegister spi ECON1 (UInt8.ofNat bank &&& ECON1_BSEL)

/-- `push_bank`; `none` when the program exits. -/
def pushBank (spi : Spi) (bank : ℕ) : Option Spi :=
  if spi.bankStack.length ≥ BANK_STACK_SIZE then none
  else some (setBank { spi with bankStack := spi.currentBank :: spi.bankStack } bank)

/-- `pop_bank`; `none` when the program exits. -/
def popBank (spi : Spi) : Option Spi :=
  match spi.bankStack with
  | [] => none
  | bank :: rest => some (setBank { spi with bankStack := rest } bank)

/-- `write_control_register_word`. -/
def writeControlRegisterWord (spi : Spi) (address data : ℕ) : Spi :=
  writeControlRegister (writeControlRegister spi address data) (address + 1) (data >>> 8)

/-- `read_control_register_word`. -/
def readControlRegisterWord (spi : Spi) (address : ℕ) : ℕ :=
  (readControlRegister spi (address + 1) &&& 0xFF) <<< 8 |||
    (readControlRegister spi address &&& 0xFF)

/-! ## What a function does to the view -/

/-- What receiving can tell of the controller and the bank stack. -/
structure View where
  memory : Bytes
  erdpt : ℕ
  erxrdpt : ℕ
  epktcnt : UInt8
  bank : ℕ
  bankStack : List ℕ
  currentBank : ℕ

/-- The view of a state. -/
def Spi.view (spi : Spi) : View where
  memory := spi.controller.memory
  erdpt := spi.controller.erdpt
  erxrdpt := spi.controller.erxrdpt
  epktcnt := spi.controller.epktcnt
  bank := spi.controller.bank
  bankStack := spi.bankStack
  currentBank := spi.currentBank

/-- A pair of registers that was set holds the value, if two bytes can. -/
theorem toNat_bytes {value : ℕ} (h : value < 65536) :
    (UInt8.ofNat value).toNat + 256 * (UInt8.ofNat (value / 256)).toNat = value := by
  rw [UInt8.toNat_ofNat', UInt8.toNat_ofNat']
  omega

/-- A bank number written to `BSEL` is read back from it. -/
theorem select_bank (old new : UInt8) :
    (old &&& ~~~ECON1_BSEL ||| new &&& ECON1_BSEL) &&& ECON1_BSEL = new &&& ECON1_BSEL := by
  apply UInt8.eq_of_toBitVec_eq
  ext i hi
  simp only [UInt8.toBitVec_and, UInt8.toBitVec_or, UInt8.toBitVec_not, BitVec.getElem_and,
    BitVec.getElem_or, BitVec.getElem_not]
  cases ECON1_BSEL.toBitVec[i] <;> simp

theorem Controller.setRegister_of_ne (c : Controller) {bank address b a : ℕ} (data : UInt8)
    (h : ¬ (b = bank ∧ a = address)) :
    (c.setRegister bank address data).registers b a = c.registers b a := if_neg h

/-- Setting one register twice. -/
@[simp] theorem Controller.setRegister_setRegister (c : Controller) (bank address : ℕ)
    (old new : UInt8) :
    (c.setRegister bank address old).setRegister bank address new =
      c.setRegister bank address new := by
  unfold setRegister
  congr 1
  funext b a
  by_cases h : b = bank ∧ a = address
  · rw [if_pos h, if_pos h]
  · rw [if_neg h, if_neg h]
    exact c.setRegister_of_ne old h

@[simp] theorem Controller.setRegister_same (c : Controller) (bank address : ℕ) (data : UInt8) :
    (c.setRegister bank address data).registers bank address = data := if_pos ⟨rfl, rfl⟩

/-- `ECON1` is one register in every bank, and no part of the others. -/
theorem view_setEcon1 (c : Controller) (data : UInt8) (stack : List ℕ) (current : ℕ) :
    (Spi.mk (c.setRegister 0 ECON1 data) stack current).view =
      { (Spi.mk c stack current).view with bank := (data &&& ECON1_BSEL).toNat } := rfl

/-- `set_bank` selects the bank and touches nothing else. -/
theorem view_setBank (spi : Spi) {bank : ℕ} (hbank : bank < 4) :
    (setBank spi bank).view = { spi.view with bank := bank, currentBank := bank } := by
  have hread : (UInt8.ofNat bank &&& ECON1_BSEL).toNat = bank := by
    interval_cases bank <;> rfl
  have hcommon (c : Controller) : c.bankOf ECON1 = 0 := rfl
  have hother (data : UInt8) : ¬ (ECON1 = ECON2 ∧ data &&& ECON2_PKTDEC ≠ 0) := fun h =>
    absurd h.1 (by decide)
  simp only [setBank, clearControlRegister, setControlRegister, hcommon, if_neg (hother _),
    Controller.setRegister_setRegister, Controller.setRegister_same]
  rw [view_setEcon1, select_bank, hread]
  rfl

theorem view_pushBank (spi : Spi) {bank : ℕ} (hbank : bank < 4)
    (hroom : spi.bankStack.length < BANK_STACK_SIZE) :
    ∃ spi', pushBank spi bank = some spi' ∧
      spi'.view = { spi.view with
        bank := bank
        bankStack := spi.currentBank :: spi.bankStack
        currentBank := bank } := by
  refine ⟨_, if_neg (by omega), ?_⟩
  rw [view_setBank _ hbank]
  rfl

theorem view_popBank {spi : Spi} {bank : ℕ} {rest : List ℕ} (hbank : bank < 4)
    (hstack : spi.bankStack = bank :: rest) :
    ∃ spi', popBank spi = some spi' ∧
      spi'.view = { spi.view with bank := bank, bankStack := rest, currentBank := bank } := by
  refine ⟨setBank { spi with bankStack := rest } bank, ?_, ?_⟩
  · rw [popBank, hstack]
  · rw [view_setBank _ hbank]
    rfl

/-- `write_control_register_word` sets the pair of the selected bank. -/
theorem writeControlRegisterWord_eq (spi : Spi) {address : ℕ} (data : ℕ)
    (haddress : address + 1 < EIE) :
    writeControlRegisterWord spi address data =
      { spi with controller := spi.controller.setWord spi.controller.bank address data } := by
  have hbank (c : Controller) (a : ℕ) (ha : a < EIE) : c.bankOf a = c.bank := if_neg (by omega)
  have hecon1 : ¬ (0 = spi.controller.bank ∧ ECON1 = address) := by
    rintro ⟨-, rfl⟩
    exact absurd haddress (by decide)
  have hsame : (spi.controller.setRegister spi.controller.bank address
      (UInt8.ofNat data)).bank = spi.controller.bank := by
    have hread := spi.controller.setRegister_of_ne (UInt8.ofNat data) hecon1
    rw [Controller.bank, hread]
    rfl
  simp only [writeControlRegisterWord, writeControlRegister, Controller.setWord,
    hbank _ address (by omega), hbank _ (address + 1) haddress, hsame, Nat.shiftRight_eq_div_pow]

/-- What setting the pair of `ERDPT` changes. -/
theorem view_setErdpt (spi : Spi) {value : ℕ} (hvalue : value < 65536) :
    ({ spi with controller := spi.controller.setWord 0 ERDPTL value } : Spi).view =
      { spi.view with erdpt := value } := by
  have hword := toNat_bytes hvalue
  simp only [Spi.view]
  congr 1

/-- What setting the pair of `ERXRDPT` changes. -/
theorem view_setErxrdpt (spi : Spi) {value : ℕ} (hvalue : value < 65536) :
    ({ spi with controller := spi.controller.setWord 0 ERXRDPTL value } : Spi).view =
      { spi.view with erxrdpt := value } := by
  have hword := toNat_bytes hvalue
  simp only [Spi.view]
  congr 1

/-- `read_control_register_word` of `ERDPT`, with bank `0` selected. -/
theorem readErdpt {spi : Spi} (hbank : spi.controller.bank = 0) :
    readControlRegisterWord spi ERDPTL = spi.controller.erdpt := by
  have hmask (x : UInt8) : x.toNat &&& 0xFF = x.toNat := by
    have hx := x.toNat_lt
    rw [Nat.and_two_pow_sub_one_eq_mod _ 8]
    omega
  have hlow : spi.controller.bankOf ERDPTL = 0 := by rw [Controller.bankOf, hbank, ite_self]
  have hhigh : spi.controller.bankOf (ERDPTL + 1) = 0 := by
    rw [Controller.bankOf, hbank, ite_self]
  unfold readControlRegisterWord readControlRegister Controller.erdpt Controller.word
  dsimp only
  rw [hlow, hhigh, hmask, hmask, ← Nat.shiftLeft_add_eq_or_of_lt (UInt8.toNat_lt _),
    Nat.shiftLeft_eq]
  omega

/-- Setting `PKTDEC` takes one off `EPKTCNT`. -/
theorem view_pktdec (spi : Spi) :
    (setControlRegister spi ECON2 ECON2_PKTDEC).view =
      { spi.view with epktcnt := spi.controller.epktcnt - 1 } := by
  have hdec : ECON2 = ECON2 ∧ ECON2_PKTDEC &&& ECON2_PKTDEC ≠ 0 := ⟨rfl, by decide⟩
  rw [setControlRegister]
  dsimp only
  rw [if_pos hdec]
  rfl

/-- Reading a byte moves `ERDPT` on by one, round the receive buffer. -/
theorem view_readByte (spi : Spi) (herdpt : spi.controller.erdpt ≤ RX_END) :
    ({ spi with controller := spi.controller.readByte.2 } : Spi).view =
      { spi.view with erdpt := (spi.controller.erdpt + 1) % (RX_END + 1) } := by
  have hnext : (if spi.controller.erdpt = RX_END then 0 else spi.controller.erdpt + 1) =
      (spi.controller.erdpt + 1) % (RX_END + 1) := by
    split_ifs with hend
    · rw [hend, Nat.mod_self]
    · rw [Nat.mod_eq_of_lt (by omega)]
  have hlt : (spi.controller.erdpt + 1) % (RX_END + 1) < 65536 := by
    unfold RX_END
    omega
  unfold Controller.readByte
  dsimp only
  rw [hnext]
  exact view_setErdpt spi hlt

/-- `buffer_read` copies what lies from `ERDPT` on, and leaves `ERDPT` behind it. -/
theorem bufferRead_eq (spi : Spi) (buf : Bytes) (off len : ℕ)
    (herdpt : spi.controller.erdpt ≤ RX_END) :
    (∀ i, (bufferRead spi buf off len).1 i = if off ≤ i ∧ i < off + len then
      spi.controller.memory ((spi.controller.erdpt + (i - off)) % (RX_END + 1)) else buf i) ∧
    (bufferRead spi buf off len).2.view =
      { spi.view with erdpt := (spi.controller.erdpt + len) % (RX_END + 1) } := by
  induction len generalizing spi buf off with
  | zero =>
    refine ⟨fun i => (if_neg (by omega)).symm, ?_⟩
    rw [Nat.add_zero, Nat.mod_eq_of_lt (by omega)]
    rfl
  | succ len ih =>
    have hview := view_readByte spi herdpt
    have hread : spi.controller.readByte.2.erdpt = (spi.controller.erdpt + 1) % (RX_END + 1) :=
      congrArg View.erdpt hview
    have hlt : spi.controller.readByte.2.erdpt ≤ RX_END := by
      rw [hread]
      exact Nat.le_of_lt_succ (Nat.mod_lt _ (Nat.succ_pos _))
    obtain ⟨hbytes, hrest⟩ := ih { spi with controller := spi.controller.readByte.2 }
      (fun i => if i = off then spi.controller.readByte.1 else buf i) (off + 1) hlt
    constructor
    · intro i
      refine (hbytes i).trans ?_
      dsimp only
      rw [hread, Nat.mod_add_mod]
      rcases Nat.lt_trichotomy i off with h | rfl | h
      · rw [if_neg (by omega), if_neg (by omega), if_neg (by omega)]
      · rw [if_neg (by omega), if_pos rfl, if_pos (by omega), Nat.sub_self, Nat.add_zero,
          Nat.mod_eq_of_lt (by omega)]
        rfl
      · rw [if_neg (show i ≠ off by omega),
          show spi.controller.erdpt + 1 + (i - (off + 1)) =
            spi.controller.erdpt + (i - off) by omega]
        exact if_congr (by omega) rfl rfl
    · refine hrest.trans ?_
      rw [hview, hread, Nat.mod_add_mod, show spi.controller.erdpt + 1 + len =
        spi.controller.erdpt + (len + 1) by omega]

/-- `buffer_read` to the front of a buffer is a load from the receive ring. -/
theorem bufferRead_zero (spi : Spi) (buf : Bytes) (len : ℕ)
    (herdpt : spi.controller.erdpt ≤ RX_END) :
    (bufferRead spi buf 0 len).1 =
      RingBuffer.load (RX_END + 1) buf spi.controller.memory spi.controller.erdpt len := by
  funext i
  rw [(bufferRead_eq spi buf 0 len herdpt).1 i, RingBuffer.load, Nat.zero_add, Nat.sub_zero]
  exact if_congr (by omega) rfl rfl

end EthTransfer
