import EthTransfer.Driver.GpioSpi

/-!
# Sessions on the serial bus

The calls of `gpio_spi.h` that exchange a frame with the chip, one after the other, and what
the slave makes of the frames.  `decode` reads a frame by itself: the first byte is an opcode
in three bits and an argument in five, and the opcode says what the other bytes are.

* `decode_command` reads back the first byte of a frame.
* `writeBytes_spec` and `readBytes_spec` are about the loops of the two functions that take a
  buffer.
* `Board.run_spec` is one call, and `session_faithful` is any number of them.
-/

namespace EthTransfer

open SpiSlave

/-! ## Frames -/

/-- What a frame asks of the chip. -/
inductive Transaction where
  | readRegister (address : BitVec 5)
  | readBuffer (count : ℕ)
  | writeRegister (address : BitVec 5) (data : BitVec 8)
  | writeBuffer (data : List (BitVec 8))
  | setBits (address : BitVec 5) (data : BitVec 8)
  | clearBits (address : BitVec 5) (data : BitVec 8)
  deriving DecidableEq

/-- The argument of the opcodes for buffers. -/
def BUFFER_ARGUMENT : BitVec 5 := 0x1A

def decodeCommand (opcode : ℕ) (argument : BitVec 5) (data : List (BitVec 8)) :
    Option Transaction :=
  match opcode, data with
  | 0, [_] => some (.readRegister argument)
  | 1, _ => if argument = BUFFER_ARGUMENT then some (.readBuffer data.length) else none
  | 2, [byte] => some (.writeRegister argument byte)
  | 3, _ => if argument = BUFFER_ARGUMENT then some (.writeBuffer data) else none
  | 4, [byte] => some (.setBits argument byte)
  | 5, [byte] => some (.clearBits argument byte)
  | _, _ => none

/-- What the slave makes of a frame.  Bits that are no whole byte spoil it. -/
def decode (frame : Frame 8) : Option Transaction :=
  match frame.bits, frame.received with
  | [], command :: data => decodeCommand (command >>> 5).toNat (command.setWidth 5) data
  | _, _ => none

/-- The first byte of a frame. -/
def commandByte (opcode : BitVec 3) (argument : BitVec 32) : BitVec 32 :=
  opcode.setWidth 32 <<< 5 ||| (0x1F &&& argument)

theorem getLsbD_argument (argument : BitVec 32) (i : ℕ) :
    (0x1F &&& argument).getLsbD i = (decide (i < 5) && argument.getLsbD i) := by
  have hmask : (0x1F : BitVec 32) = BitVec.ofNat 32 (2 ^ 5 - 1) := rfl
  rw [BitVec.getLsbD_and, hmask, BitVec.getLsbD_ofNat, Nat.testBit_two_pow_sub_one]
  by_cases hi : i < 5
  · simp [hi, show i < 32 by omega]
  · simp [hi]

theorem commandByte_opcode (opcode : BitVec 3) (argument : BitVec 32) :
    (((commandByte opcode argument).setWidth 8) >>> 5).toNat = opcode.toNat := by
  have hbits : ((commandByte opcode argument).setWidth 8) >>> 5 = opcode.setWidth 8 := by
    apply BitVec.eq_of_getLsbD_eq
    intro i hi
    rw [BitVec.getLsbD_ushiftRight, BitVec.getLsbD_setWidth, commandByte, BitVec.getLsbD_or,
      getLsbD_argument, BitVec.getLsbD_shiftLeft, BitVec.getLsbD_setWidth,
      BitVec.getLsbD_setWidth, Nat.add_sub_cancel_left]
    by_cases hlow : i < 3
    · simp [hi, show 5 + i < 8 by omega, show 5 + i < 32 by omega, show i < 32 by omega]
    · simp [BitVec.getLsbD_of_ge opcode i (by omega)]
  rw [hbits, BitVec.toNat_setWidth_of_le (by decide)]

theorem commandByte_argument (opcode : BitVec 3) (argument : BitVec 32) :
    ((commandByte opcode argument).setWidth 8).setWidth 5 = argument.setWidth 5 := by
  apply BitVec.eq_of_getLsbD_eq
  intro i hi
  rw [BitVec.getLsbD_setWidth, BitVec.getLsbD_setWidth, BitVec.getLsbD_setWidth, commandByte,
    BitVec.getLsbD_or, getLsbD_argument, BitVec.getLsbD_shiftLeft]
  simp [hi, show i < 8 by omega]

/-- The opcode and the argument come back from the first byte. -/
theorem decode_command {frame : Frame 8} (opcode : BitVec 3) (argument : BitVec 32)
    (data : List (BitVec 8)) (hbits : frame.bits = [])
    (hreceived : frame.received = (commandByte opcode argument).setWidth 8 :: data) :
    decode frame = decodeCommand opcode.toNat (argument.setWidth 5) data := by
  rw [decode, hbits, hreceived]
  dsimp only
  rw [commandByte_opcode, commandByte_argument]

/-! ## Buffers -/

/-- A block of memory with these bytes from an offset on. -/
def stored (buf : Bytes) (off : ℕ) (data : List (BitVec 8)) : Bytes := fun i =>
  if i < off then buf i else (data[i - off]?.map UInt8.ofBitVec).getD (buf i)

theorem stored_nil (buf : Bytes) (off : ℕ) : stored buf off [] = buf := by
  funext i
  simp [stored]

/-- The first byte, and then the others behind it. -/
theorem stored_cons (buf : Bytes) (off : ℕ) (byte : BitVec 8) (data : List (BitVec 8)) :
    stored (fun i => if i = off then ⟨byte⟩ else buf i) (off + 1) data =
      stored buf off (byte :: data) := by
  funext i
  unfold stored
  rcases lt_trichotomy i off with hlt | rfl | hgt
  · simp [hlt, show i < off + 1 by omega, show i ≠ off by omega]
  · simp
  · obtain ⟨k, rfl⟩ : ∃ k, i = off + 1 + k := ⟨i - (off + 1), by omega⟩
    have hnear : ¬ off + 1 + k < off + 1 := by omega
    have hoff : ¬ off + 1 + k < off := by omega
    have hne : off + 1 + k ≠ off := by omega
    have hindex : off + 1 + k - off = k + 1 := by omega
    simp only [if_neg hnear, if_neg hoff, if_neg hne, hindex, Nat.add_sub_cancel_left,
      List.getElem?_cons_succ]

/-- The bytes of a block of memory from an offset on. -/
def bytesFrom (buf : Bytes) (off len : ℕ) : List (BitVec 8) :=
  (List.range len).map fun i => (buf (off + i)).toBitVec

theorem bytesFrom_succ (buf : Bytes) (off len : ℕ) :
    bytesFrom buf off (len + 1) = (buf off).toBitVec :: bytesFrom buf (off + 1) len := by
  rw [bytesFrom, List.range_succ_eq_map, List.map_cons, List.map_map, Nat.add_zero]
  refine congrArg (List.cons _) (List.map_congr_left fun i _ => ?_)
  rw [Function.comp_apply, Nat.add_succ, Nat.succ_add]

namespace Board

variable {board : Board} {start : Slave 8} {frame : Frame 8}

/-- The sign of a `char` does not go out. -/
theorem setWidth_ofChar (signed : Bool) (byte : UInt8) :
    (ofChar signed byte).setWidth 8 = byte.toBitVec := by
  cases signed with
  | false => simp [ofChar]
  | true =>
    apply BitVec.eq_of_getLsbD_eq
    intro i hi
    rw [BitVec.getLsbD_setWidth, ofChar, if_pos rfl, BitVec.getLsbD_signExtend]
    simp [hi, show i < 32 by omega]

theorem writeBytes_spec (signed : Bool) (buf : Bytes) (off len : ℕ)
    (h : board.Exchanging start frame) (hbits : frame.bits = []) :
    ∃ frame', (board.writeBytes signed buf off len).Exchanging start frame' ∧
      frame'.bits = [] ∧ frame'.received = frame.received ++ bytesFrom buf off len := by
  induction len generalizing board frame off with
  | zero => exact ⟨frame, h, hbits, by simp [bytesFrom]⟩
  | succ len ih =>
    obtain ⟨hbyte, -⟩ := spiWriteByte_spec h hbits (ofChar signed (buf off))
    obtain ⟨frame', h', hbits', hreceived⟩ := ih (off + 1) hbyte rfl
    refine ⟨frame', h', hbits', ?_⟩
    rw [hreceived, bytesFrom_succ, setWidth_ofChar]
    simp [Frame.received, Frame.push]

theorem readBytes_spec (buf : Bytes) (off len : ℕ) (h : board.Exchanging start frame)
    (hbits : frame.bits = []) (hsck : board.gpio.lines.sck = true) :
    ∃ words, words.length = len ∧
      (board.readBytes buf off len).1 = stored buf off (words.map Prod.snd) ∧
      (board.readBytes buf off len).2.Exchanging start ⟨frame.words ++ words, []⟩ := by
  induction len generalizing board frame off buf with
  | zero =>
    refine ⟨[], rfl, (stored_nil buf off).symm, ?_⟩
    rw [List.append_nil, ← hbits]
    exact h
  | succ len ih =>
    obtain ⟨byte, hread, hbyte, hsck'⟩ := spiReadByte_spec h hbits hsck
    obtain ⟨words, hlength, hstored, h'⟩ :=
      ih (fun i => if i = off then ⟨board.spiReadByte.1.setWidth 8⟩ else buf i) (off + 1) hbyte rfl
        hsck'
    refine ⟨(byte, start.word frame) :: words, by rw [List.length_cons, hlength], ?_, ?_⟩
    · have hword : board.spiReadByte.1.setWidth 8 = start.word frame := by
        rw [hread, BitVec.setWidth_setWidth_of_le _ (by decide), BitVec.setWidth_eq]
      rw [List.map_cons, ← stored_cons, ← hword]
      exact hstored
    · rw [List.append_cons]
      exact h'

end Board

/-! ## Calls -/

/-- The calls that exchange a frame, with their parameters. -/
inductive SpiCall where
  | writeControlRegister (address data : BitVec 32)
  | readControlRegister (address : BitVec 32)
  | clearControlRegister (address data : BitVec 32)
  | setControlRegister (address data : BitVec 32)
  | bufferWrite (buf : Bytes) (off : ℕ) (len : ℤ)
  | bufferRead (buf : Bytes) (off : ℕ) (len : ℤ)

/-- What a call returns, and the buffer that it leaves. -/
inductive Returned where
  | nothing
  | data (value : BitVec 32)
  | written (len : ℤ)
  | read (len : ℤ) (buf : Bytes)

namespace SpiCall

def run (signed : Bool) (board : Board) : (call : SpiCall) → Returned × Board
  | writeControlRegister address data => (.nothing, board.writeControlRegister address data)
  | readControlRegister address =>
    let (data, board) := board.readControlRegister address
    (.data data, board)
  | clearControlRegister address data => (.nothing, board.clearControlRegister address data)
  | setControlRegister address data => (.nothing, board.setControlRegister address data)
  | bufferWrite buf off len =>
    let (len, board) := board.bufferWrite signed buf off len
    (.written len, board)
  | bufferRead buf off len =>
    let (len, buf, board) := board.bufferRead buf off len
    (.read len buf, board)

/-- What a call is for. -/
def transaction : (call : SpiCall) → Transaction
  | writeControlRegister address data => .writeRegister (address.setWidth 5) (data.setWidth 8)
  | readControlRegister address => .readRegister (address.setWidth 5)
  | clearControlRegister address data => .clearBits (address.setWidth 5) (data.setWidth 8)
  | setControlRegister address data => .setBits (address.setWidth 5) (data.setWidth 8)
  | bufferWrite buf off len => .writeBuffer (bytesFrom buf off len.toNat)
  | bufferRead _ _ len => .readBuffer len.toNat

/-- What a call returns when these are the bytes of the slave behind the first one. -/
def answer (sent : List (BitVec 8)) : (call : SpiCall) → Returned
  | readControlRegister _ => .data ((sent.headD 0).setWidth 32)
  | bufferWrite _ _ len => .written len
  | bufferRead buf off len => .read len (stored buf off sent)
  | _ => .nothing

end SpiCall

namespace Board

variable {board : Board}

/-- CS goes low, and the first byte goes out. -/
theorem command_spec (h : board.Idle) (cmd : BitVec 32) :
    ∃ sent, (board.assertCs.spiWriteByte cmd).Exchanging board.slave
        ⟨[(cmd.setWidth 8, sent)], []⟩ ∧
      (board.assertCs.spiWriteByte cmd).gpio.lines.sck = true :=
  ⟨_, spiWriteByte_spec (assertCs_spec h) rfl cmd⟩

/-- The functions that write a register send one frame of two bytes. -/
theorem registerCommand_spec (h : board.Idle) (opcode : BitVec 3) (address data : BitVec 32) :
    ∃ frame, (board.registerCommand (opcode.setWidth 32 <<< 5) address data).Idle ∧
      (board.registerCommand (opcode.setWidth 32 <<< 5) address data).slave.frames =
        board.slave.frames ++ [frame] ∧
      decode frame = decodeCommand opcode.toNat (address.setWidth 5) [data.setWidth 8] := by
  obtain ⟨sent, hcommand, -⟩ := command_spec h (commandByte opcode address)
  obtain ⟨hdata, -⟩ := spiWriteByte_spec hcommand rfl data
  obtain ⟨hidle, hframes⟩ := deassertCs_spec hdata
  exact ⟨_, hidle, hframes, decode_command opcode address [data.setWidth 8] rfl rfl⟩

theorem readControlRegister_spec (h : board.Idle) (address : BitVec 32) :
    ∃ frame, (board.readControlRegister address).2.Idle ∧
      (board.readControlRegister address).2.slave.frames = board.slave.frames ++ [frame] ∧
      decode frame = some (.readRegister (address.setWidth 5)) ∧
      (board.readControlRegister address).1 = (frame.sent.tail.headD 0).setWidth 32 := by
  obtain ⟨sent, hcommand, hsck⟩ := command_spec h (commandByte 0 address)
  obtain ⟨byte, hread, hdata, -⟩ := spiReadByte_spec hcommand rfl hsck
  obtain ⟨hidle, hframes⟩ := deassertCs_spec hdata
  exact ⟨_, hidle, hframes, decode_command 0 address [byte] rfl rfl, hread⟩

theorem bufferWrite_spec (signed : Bool) (h : board.Idle) (buf : Bytes) (off : ℕ) (len : ℤ) :
    ∃ frame, (board.bufferWrite signed buf off len).2.Idle ∧
      (board.bufferWrite signed buf off len).2.slave.frames = board.slave.frames ++ [frame] ∧
      decode frame = some (.writeBuffer (bytesFrom buf off len.toNat)) := by
  obtain ⟨sent, hcommand, -⟩ := command_spec h (commandByte 3 0x1A)
  obtain ⟨frame, hdata, hbits, hreceived⟩ := writeBytes_spec signed buf off len.toNat hcommand rfl
  obtain ⟨hidle, hframes⟩ := deassertCs_spec hdata
  exact ⟨frame, hidle, hframes, decode_command 3 0x1A _ hbits hreceived⟩

theorem bufferRead_spec (h : board.Idle) (buf : Bytes) (off : ℕ) (len : ℤ) :
    ∃ frame, (board.bufferRead buf off len).2.2.Idle ∧
      (board.bufferRead buf off len).2.2.slave.frames = board.slave.frames ++ [frame] ∧
      decode frame = some (.readBuffer len.toNat) ∧
      (board.bufferRead buf off len).2.1 = stored buf off frame.sent.tail := by
  obtain ⟨sent, hcommand, hsck⟩ := command_spec h (commandByte 1 0x1A)
  obtain ⟨words, hlength, hstored, hdata⟩ := readBytes_spec buf off len.toNat hcommand rfl hsck
  obtain ⟨hidle, hframes⟩ := deassertCs_spec hdata
  refine ⟨_, hidle, hframes, ?_, hstored⟩
  have hdecode : decode ⟨[((commandByte 1 0x1A).setWidth 8, sent)] ++ words, []⟩ =
      decodeCommand 1 BUFFER_ARGUMENT (words.map Prod.fst) := decode_command 1 0x1A _ rfl rfl
  have hcount : (words.map Prod.fst).length = len.toNat := by rw [List.length_map, hlength]
  rw [← hcount]
  exact hdecode

/-- After `init_spi` the pins have their directions, and CS is high. -/
theorem initSpi_idle (board : Board) : board.initSpi.Idle := by
  set wired := ((((board.setInput MISO).setInput INT).setOutput MOSI).setOutput CS).setOutput SCK
    with hboard
  have hwired : wired.Wired := by
    refine ⟨?_, ?_, ?_, ?_⟩ <;> rw [hboard] <;>
      simp [isOutput_setOutput, isOutput_setInput, MISO, MOSI, SCK, CS]
  have hset := hwired.set (CS_BIT ||| MOSI_BIT)
  have hraise : (CS_BIT ||| MOSI_BIT).getLsbD CS = true := by decide
  have hkeep : SCK_BIT.getLsbD CS = false := by decide
  have hcs : ((wired.set (CS_BIT ||| MOSI_BIT)).clr SCK_BIT).gpio.lines.cs = true := by
    rw [lines_clr hset, lines_set hwired, lowered, raised, hraise, hkeep, Bool.or_true,
      Bool.not_false, Bool.and_true]
  exact ⟨hset.clr SCK_BIT, hcs⟩

/-- One call after the other, with what they return. -/
def session (signed : Bool) (board : Board) : (calls : List SpiCall) → List Returned × Board
  | [] => ([], board)
  | call :: calls =>
    let (returned, board) := call.run signed board
    let (others, board) := board.session signed calls
    (returned :: others, board)

/-- One call: the slave sees its transaction in one frame, and what it sends is what the call
returns. -/
theorem run_spec (signed : Bool) (h : board.Idle) (call : SpiCall) :
    ∃ frame, (call.run signed board).2.Idle ∧
      (call.run signed board).2.slave.frames = board.slave.frames ++ [frame] ∧
      decode frame = some call.transaction ∧
      (call.run signed board).1 = call.answer frame.sent.tail := by
  cases call with
  | writeControlRegister address data =>
    obtain ⟨frame, hidle, hframes, hdecode⟩ := registerCommand_spec h 2 address data
    exact ⟨frame, hidle, hframes, hdecode, rfl⟩
  | readControlRegister address =>
    obtain ⟨frame, hidle, hframes, hdecode, hread⟩ := readControlRegister_spec h address
    exact ⟨frame, hidle, hframes, hdecode, congrArg Returned.data hread⟩
  | clearControlRegister address data =>
    obtain ⟨frame, hidle, hframes, hdecode⟩ := registerCommand_spec h 5 address data
    exact ⟨frame, hidle, hframes, hdecode, rfl⟩
  | setControlRegister address data =>
    obtain ⟨frame, hidle, hframes, hdecode⟩ := registerCommand_spec h 4 address data
    exact ⟨frame, hidle, hframes, hdecode, rfl⟩
  | bufferWrite buf off len =>
    obtain ⟨frame, hidle, hframes, hdecode⟩ := bufferWrite_spec signed h buf off len
    exact ⟨frame, hidle, hframes, hdecode, rfl⟩
  | bufferRead buf off len =>
    obtain ⟨frame, hidle, hframes, hdecode, hread⟩ := bufferRead_spec h buf off len
    exact ⟨frame, hidle, hframes, hdecode, congrArg (Returned.read len) hread⟩

/-- And a session that begins when the slave is not selected. -/
theorem session_spec (signed : Bool) (h : board.Idle) (calls : List SpiCall) :
    ∃ frames, (board.session signed calls).2.Idle ∧
      (board.session signed calls).2.slave.frames = board.slave.frames ++ frames ∧
      frames.map decode = calls.map (fun call => some call.transaction) ∧
      (board.session signed calls).1 =
        List.zipWith (fun call frame => call.answer frame.sent.tail) calls frames := by
  induction calls generalizing board with
  | nil => exact ⟨[], h, (List.append_nil _).symm, rfl, rfl⟩
  | cons call calls ih =>
    obtain ⟨frame, hidle, hframes, hdecode, hreturned⟩ := run_spec signed h call
    obtain ⟨frames, hidle', hframes', hdecodes, hothers⟩ := ih hidle
    refine ⟨frame :: frames, hidle', ?_, ?_, ?_⟩
    · rw [List.append_cons, ← hframes]
      exact hframes'
    · rw [List.map_cons, List.map_cons, hdecode, hdecodes]
    · rw [List.zipWith_cons_cons, ← hreturned, ← hothers]
      rfl

end Board

/-- After `init_spi` the slave sees exactly the transactions of the calls, one frame of whole
bytes for each, and the calls return what it sends in them. -/
theorem session_faithful (signed : Bool) (board : Board) (calls : List SpiCall) :
    let start := board.initSpi
    let session := start.session signed calls
    ∃ frames, session.2.slave.frames = start.slave.frames ++ frames ∧
      session.2.gpio.lines.cs = true ∧
      frames.map decode = calls.map (fun call => some call.transaction) ∧
      session.1 = List.zipWith (fun call frame => call.answer frame.sent.tail) calls frames := by
  obtain ⟨frames, hidle, hframes, hdecode, hreturned⟩ :=
    board.initSpi.session_spec signed board.initSpi_idle calls
  exact ⟨frames, hframes, hidle.cs, hdecode, hreturned⟩

end EthTransfer
