import EthTransfer.Driver.GetPacket
import EthTransfer.Lib.Program

/-!
# The driver on any chip

`EthTransfer.Driver.GetPacket` runs one function of the driver on one chip.  Here are the
functions of `gpio_spi.c` and `eth_driver.c` on every chip: whatever it answers to a read,
and whatever a command does to it.  All that is known of a chip is that its bank-select bits
do as they are told.

A function may exit, and a loop that polls the chip may go on for ever.  The bound on the
turns of such a loop stands for as long as one cares to wait.
-/

namespace EthTransfer

open Program

/-! ## Registers -/

/-- A register: the bank under whose heading `eth_driver_local.h` lists it, if any, and its
address. -/
structure Register where
  bank : Option ℕ
  address : ℕ
  deriving DecidableEq, Repr

/-- The register behind the first one of a pair. -/
def Register.high (register : Register) : Register :=
  { register with address := register.address + 1 }

namespace Register

def ECON2 : Register := ⟨none, EthTransfer.ECON2⟩
def ECON1 : Register := ⟨none, EthTransfer.ECON1⟩

def ERDPTL : Register := ⟨some 0, EthTransfer.ERDPTL⟩
def EWRPTL : Register := ⟨some 0, 0x02⟩
def ETXSTL : Register := ⟨some 0, 0x04⟩
def ETXNDL : Register := ⟨some 0, 0x06⟩
def ERXSTL : Register := ⟨some 0, 0x08⟩
def ERXNDL : Register := ⟨some 0, 0x0A⟩
def ERXRDPTL : Register := ⟨some 0, EthTransfer.ERXRDPTL⟩

def EPKTCNT : Register := ⟨some 1, EthTransfer.EPKTCNT⟩

def MACON1 : Register := ⟨some 2, 0x00⟩
def MACON3 : Register := ⟨some 2, 0x02⟩
def MACON4 : Register := ⟨some 2, 0x03⟩
def MABBIPG : Register := ⟨some 2, 0x04⟩
def MAIPGL : Register := ⟨some 2, 0x06⟩
def MAMXFLL : Register := ⟨some 2, 0x0A⟩
def MICMD : Register := ⟨some 2, 0x12⟩
def MIREGADR : Register := ⟨some 2, 0x14⟩
def MIWRL : Register := ⟨some 2, 0x16⟩
def MIWRH : Register := ⟨some 2, 0x17⟩
def MIRDL : Register := ⟨some 2, 0x18⟩

def MAADR5 : Register := ⟨some 3, 0x00⟩
def MAADR6 : Register := ⟨some 3, 0x01⟩
def MAADR3 : Register := ⟨some 3, 0x02⟩
def MAADR4 : Register := ⟨some 3, 0x03⟩
def MAADR1 : Register := ⟨some 3, 0x04⟩
def MAADR2 : Register := ⟨some 3, 0x05⟩
def MISTAT : Register := ⟨some 3, 0x0A⟩

end Register

def ECON1_TXRTS : UInt8 := 0x08
def ECON1_RXEN : UInt8 := 0x04

def MACON1_TXPAUS : ℕ := 0x08
def MACON1_RXPAUS : ℕ := 0x04
def MACON1_PASSALL : ℕ := 0x02
def MACON1_MARXEN : ℕ := 0x01
def MACON3_PADCFG : ℕ := 0xE0
def MACON3_TXCRCEN : ℕ := 0x10
def MACON3_FRMLNEN : ℕ := 0x02
def MACON3_FULDPX : ℕ := 0x01
def MACON4_DEFER : ℕ := 0x40
def MICMD_MIIRD : UInt8 := 0x01
def MISTAT_BUSY : UInt8 := 0x01

def PHCON1 : ℕ := 0x00
def PHCON1_PDPXMD : ℕ := 0x0100

/-- The first address of the transmit buffer. -/
def TX_START : ℕ := RX_END + 1

/-! ## The chip -/

/-- The SPI commands.  Buffer memory is read and written byte by byte. -/
inductive Command where
  | read (register : Register)
  | write (register : Register) (data : UInt8)
  | clear (register : Register) (data : UInt8)
  | set (register : Register) (data : UInt8)
  | readMemory
  | writeMemory (data : UInt8)

/-- The register that a command accesses. -/
def Command.register : Command → Option Register
  | .read register | .write register _ | .clear register _ | .set register _ => some register
  | .readMemory | .writeMemory _ => none

/-- The two low bits of a byte. -/
def lowBits (data : UInt8) : BitVec 2 := data.toBitVec.setWidth 2

/-- What a command makes of the bank-select bits, the low bits of `ECON1`. -/
def Command.select (bits : BitVec 2) : Command → BitVec 2
  | .write register data => if register.address = ECON1 then lowBits data else bits
  | .clear register data => if register.address = ECON1 then bits &&& ~~~lowBits data else bits
  | .set register data => if register.address = ECON1 then bits ||| lowBits data else bits
  | _ => bits

/-- A chip: a command changes it and is answered by a byte, and its bank-select bits do as
they are told. -/
class Chip (σ : Type) where
  step : σ → Command → σ × UInt8
  bsel : σ → BitVec 2
  bsel_step : ∀ chip command, bsel (step chip command).1 = command.select (bsel chip)

/-- Why the driver stops: `push_bank` or `pop_bank` exits, or a loop needs more turns. -/
inductive Stop where
  | exhausted
  | underflow
  | runsOn
  deriving DecidableEq, Repr

/-- The driver and its chip.  `bankStack` holds the entries below `bank_index`, the last one
first. -/
structure Port (σ : Type) where
  chip : σ
  bankStack : List Int
  currentBank : Int
  macAddress : EthMac

/-- A function of the driver. -/
abbrev Bus (σ α : Type) := StateT (Port σ) (Except Stop) α

namespace Bus

variable {σ : Type} [Chip σ]

/-! ## `gpio_spi.c` -/

/-- One command, and the answer of the chip. -/
def command (command : Command) : Bus σ UInt8 := fun port =>
  .ok ((Chip.step port.chip command).2, { port with chip := (Chip.step port.chip command).1 })

/-- `write_control_register`. -/
def writeControlRegister (register : Register) (data : Int) : Bus σ Unit := do
  let _ ← command (.write register (UInt8.ofInt data))

/-- `read_control_register`. -/
def readControlRegister (register : Register) : Bus σ UInt8 := command (.read register)

/-- `clear_control_register`. -/
def clearControlRegister (register : Register) (data : UInt8) : Bus σ Unit := do
  let _ ← command (.clear register data)

/-- `set_control_register`. -/
def setControlRegister (register : Register) (data : UInt8) : Bus σ Unit := do
  let _ ← command (.set register data)

/-- `buffer_write`, with `len` bytes left to go out from `off` on. -/
def bufferWrite (buf : Bytes) (off : ℕ) : (len : ℕ) → Bus σ Unit
  | 0 => pure ()
  | len + 1 => do
    let _ ← command (.writeMemory (buf off))
    bufferWrite buf (off + 1) len

/-- `buffer_read`, with `len` bytes left to go to `buf` from `off` on. -/
def bufferRead (buf : Bytes) (off : ℕ) : (len : ℕ) → Bus σ Bytes
  | 0 => pure buf
  | len + 1 => do
    let byte ← command .readMemory
    bufferRead (fun i => if i = off then byte else buf i) (off + 1) len

/-- `write_control_register_word`. -/
def writeControlRegisterWord (register : Register) (data : Int) : Bus σ Unit := do
  writeControlRegister register data
  writeControlRegister register.high (data >>> (8 : ℕ))

/-- `read_control_register_word`.  The source does not say which half is read first. -/
def readControlRegisterWord (register : Register) : Bus σ ℕ := do
  let high ← readControlRegister register.high
  let low ← readControlRegister register
  return (high.toNat &&& 0xFF) <<< 8 ||| (low.toNat &&& 0xFF)

/-- `set_write_pointer`. -/
def setWritePointer (address : Int) : Bus σ Unit := writeControlRegisterWord .EWRPTL address

/-- `set_bank`. -/
def setBank (bank : Int) : Bus σ Unit := do
  modify fun port => { port with currentBank := bank }
  clearControlRegister .ECON1 ECON1_BSEL
  setControlRegister .ECON1 (UInt8.ofInt bank &&& ECON1_BSEL)

/-- `push_bank`. -/
def pushBank (bank : Int) : Bus σ Unit := do
  let port ← get
  if port.bankStack.length ≥ BANK_STACK_SIZE then throw .exhausted
  set { port with bankStack := port.currentBank :: port.bankStack }
  setBank bank

/-- `pop_bank`. -/
def popBank : Bus σ Unit := do
  let port ← get
  match port.bankStack with
  | [] => throw .underflow
  | bank :: rest =>
    set { port with bankStack := rest }
    setBank bank

/-- `wait_busy`. -/
def waitBusy (turns : ℕ) : Bus σ Unit := do
  pushBank 3
  whileDo (do return (← readControlRegister .MISTAT) &&& MISTAT_BUSY != 0) .runsOn turns
  popBank

/-- `read_phy_reg`. -/
def readPhyReg (address : Int) (turns : ℕ) : Bus σ ℕ := do
  pushBank 2
  writeControlRegister .MIREGADR (UInt8.ofInt address &&& 0x1F).toNat
  setControlRegister .MICMD MICMD_MIIRD
  waitBusy turns
  clearControlRegister .MICMD MICMD_MIIRD
  let read ← readControlRegisterWord .MIRDL
  popBank
  return read

/-- `write_phy_reg`. -/
def writePhyReg (address data : Int) (turns : ℕ) : Bus σ Unit := do
  pushBank 2
  writeControlRegister .MIREGADR (UInt8.ofInt address &&& 0x1F).toNat
  writeControlRegister .MIWRL data
  writeControlRegister .MIWRH (data >>> (8 : ℕ))
  popBank
  waitBusy turns

/-! ## `eth_driver.c` -/

/-- `test_present`. -/
def testPresent : Bus σ Bool := do
  pushBank 0
  clearControlRegister .ECON1 0x3
  let read ← readControlRegister .ECON1
  popBank
  if read &&& 0x3 ≠ 0 then
    popBank
    return false
  else
    pushBank 0
    setControlRegister .ECON1 0x3
    let read ← readControlRegister .ECON1
    popBank
    if read &&& 0x3 ≠ 0x3 then return false
    else return true

/-- `set_rx_range`. -/
def setRxRange (start stop : Int) : Bus σ Unit := do
  pushBank 0
  writeControlRegisterWord .ERXSTL start
  writeControlRegisterWord .ERXNDL stop
  popBank

/-- `set_receive_enable`. -/
def setReceiveEnable (receive : Int) (turns : ℕ) : Bus σ Unit := do
  let mac := (← get).macAddress.mac
  if receive ≠ 0 then
    clearControlRegister .ECON1 ECON1_RXEN
    pushBank 2
    writeControlRegister .MACON1
      (MACON1_TXPAUS ||| MACON1_RXPAUS ||| MACON1_PASSALL ||| MACON1_MARXEN : ℕ)
    writeControlRegister .MACON3
      (MACON3_PADCFG ||| MACON3_TXCRCEN ||| MACON3_FRMLNEN ||| MACON3_FULDPX : ℕ)
    writeControlRegister .MACON4 MACON4_DEFER
    writeControlRegisterWord .MAMXFLL 1518
    writeControlRegister .MABBIPG 0x15
    writeControlRegisterWord .MAIPGL 0x12
    popBank
    pushBank 3
    writeControlRegister .MAADR1 (mac.get 0).toNat
    writeControlRegister .MAADR2 (mac.get 1).toNat
    writeControlRegister .MAADR3 (mac.get 2).toNat
    writeControlRegister .MAADR4 (mac.get 3).toNat
    writeControlRegister .MAADR5 (mac.get 4).toNat
    writeControlRegister .MAADR6 (mac.get 5).toNat
    popBank
    writePhyReg PHCON1 PHCON1_PDPXMD turns
    setControlRegister .ECON1 ECON1_RXEN
  else
    pushBank 2
    clearControlRegister .MACON1 (UInt8.ofNat MACON1_MARXEN)
    popBank
    clearControlRegister .ECON1 ECON1_RXEN

/-- `read_buffer_short`. -/
def readBufferShort : Bus σ ℕ := do
  let buf ← bufferRead (fun _ => 0) 0 2
  return (buf 1).toNat <<< 8 ||| (buf 0).toNat

/-- `read_buffer_int`. -/
def readBufferInt : Bus σ Int := do
  let buf ← bufferRead (fun _ => 0) 0 4
  return Word.toInt (le32 buf 0)

/-- The branch of `get_packet` that reads the frame, or moves the read pointer past it. -/
def readFrame (packet : PacketMemory) (size : Int) (nextPacket : ℕ) : Bus σ Bytes :=
  if size ≤ PACKET_MAX_SIZE then bufferRead packet.buffer 0 size.toNat
  else do
    writeControlRegisterWord .ERDPTL nextPacket
    return packet.buffer

/-- `get_packet`: the packet, and whether it holds a frame. -/
def getPacket (packet : PacketMemory) : Bus σ (PacketMemory × Bool) := do
  pushBank 1
  let count ← readControlRegister .EPKTCNT
  popBank
  if count = 0 then return ({ packet with type := none }, false)
  else
    pushBank 0
    let readPointer ← readControlRegisterWord .ERDPTL
    popBank
    let nextPacket ← readBufferShort
    let size := storedSize nextPacket readPointer
    let _status ← readBufferInt
    let buffer ← readFrame packet size nextPacket
    pushBank 0
    writeControlRegisterWord .ERXRDPTL nextPacket
    popBank
    setControlRegister .ECON2 ECON2_PKTDEC
    if size > PACKET_MAX_SIZE then return ({ packet with type := none }, false)
    else return (fillPacket packet buffer size, true)

/-- `hton_eth`. -/
def htonEth (buffer : Bytes) : Bytes := swap16 buffer 12

/-- `send_packet`: the packet, and whether it was sent. -/
def sendPacket (packet : PacketMemory) (turns : ℕ) : Bus σ (PacketMemory × Bool) := do
  if packet.type = none then return (packet, false)
  else if packet.length < 0 ∨ packet.length > PACKET_MAX_SIZE then return (packet, false)
  else
    let packet := { packet with buffer := htonEth packet.buffer }
    setWritePointer TX_START
    bufferWrite (fun _ => 0x0E) 0 1
    bufferWrite packet.buffer 0 packet.length.toNat
    let packet := { packet with buffer := htonEth packet.buffer }
    pushBank 0
    writeControlRegisterWord .ETXSTL TX_START
    writeControlRegisterWord .ETXNDL (TX_START + packet.length)
    popBank
    setControlRegister .ECON1 ECON1_TXRTS
    whileDo (do return (← readControlRegister .ECON1) &&& ECON1_TXRTS != 0) .runsOn turns
    return (packet, true)

end Bus

end EthTransfer
