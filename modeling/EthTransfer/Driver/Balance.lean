import EthTransfer.Driver.BankStack

/-!
# The driver keeps the bank stack

Every function of the driver is a sequence of commands and of brackets, so it keeps the
discipline of `EthTransfer.Driver.BankStack`.

* The rules for the commands come first.  A command that leaves the bank-select bits alone
  needs no room.
* Then one lemma for each function.  `test_present` has two ways out, and one of them pops
  twice.
* `balanced_iff` puts them together.
-/

namespace EthTransfer

open Program

namespace Bus

section Functions

variable {σ : Type} [Chip σ] {policy : BankPolicy} {bits : BitVec 2} {waits : Bool} {depth : ℕ}

/-! ## Registers and buffer memory -/

section Registers

variable {register : Register} (hallows : policy.allows bits register)
include hallows

theorem writeControlRegister_runs (hne : register.address ≠ EthTransfer.ECON1) (data : Int) :
    Runs (banked σ policy bits waits depth) fun _ => writeControlRegister register data :=
  (command_runs (quiet_write hne _) ((BankPolicy.permits_iff rfl).mpr hallows)).seq fun _ =>
    .pure ()

theorem readControlRegister_runs :
    Runs (banked σ policy bits waits depth) fun _ => readControlRegister register :=
  command_runs (quiet_read register) ((BankPolicy.permits_iff rfl).mpr hallows)

theorem clearControlRegister_runs {data : UInt8}
    (hquiet : register.address = EthTransfer.ECON1 → lowBits data = 0) :
    Runs (banked σ policy bits waits depth) fun _ => clearControlRegister register data :=
  (command_runs (quiet_clear hquiet) ((BankPolicy.permits_iff rfl).mpr hallows)).seq fun _ =>
    .pure ()

theorem setControlRegister_runs {data : UInt8}
    (hquiet : register.address = EthTransfer.ECON1 → lowBits data = 0) :
    Runs (banked σ policy bits waits depth) fun _ => setControlRegister register data :=
  (command_runs (quiet_set hquiet) ((BankPolicy.permits_iff rfl).mpr hallows)).seq fun _ =>
    .pure ()

end Registers

section Words

variable {register : Register} (hallows : policy.AllowsWord bits register)
include hallows

theorem writeControlRegisterWord_runs (hne : register.address ≠ EthTransfer.ECON1)
    (hne' : register.high.address ≠ EthTransfer.ECON1) (data : Int) :
    Runs (banked σ policy bits waits depth) fun _ => writeControlRegisterWord register data :=
  (writeControlRegister_runs hallows.1 hne data).seq fun _ =>
    writeControlRegister_runs hallows.2 hne' _

theorem readControlRegisterWord_runs :
    Runs (banked σ policy bits waits depth) fun _ => readControlRegisterWord register :=
  (readControlRegister_runs hallows.2).seq fun _ =>
    (readControlRegister_runs hallows.1).seq fun _ => .pure _

end Words

theorem bufferRead_runs (len : ℕ) (buf : Bytes) (off : ℕ) :
    Runs (banked σ policy bits waits depth) fun _ => bufferRead buf off len := by
  induction len generalizing buf off with
  | zero => exact .pure buf
  | succ len ih =>
    exact (command_runs quiet_readMemory fun register h => nomatch h).seq fun _ => ih _ _

theorem bufferWrite_runs (len : ℕ) (buf : Bytes) (off : ℕ) :
    Runs (banked σ policy bits waits depth) fun _ => bufferWrite buf off len := by
  induction len generalizing off with
  | zero => exact .pure ()
  | succ len ih =>
    exact (command_runs (quiet_writeMemory _) fun register h => nomatch h).seq fun _ => ih _

/-! ## Waiting for the chip -/

/-- The test of a loop that waits for bits of a register. -/
def poll (register : Register) (mask : UInt8) : Bus σ Bool := do
  return (← readControlRegister register) &&& mask != 0

theorem poll_eq (register : Register) (mask : UInt8) (port : Port σ) :
    poll register mask port = .ok ((Chip.step port.chip (.read register)).2 &&& mask != 0,
      { port with chip := (Chip.step port.chip (.read register)).1 }) := rfl

/-- A register that clears at last ends the loop that polls it. -/
theorem settles_of_clears {register : Register} {mask : UInt8} {chip : σ}
    (h : Clears register mask chip) (port : Port σ) :
    Settles (poll register mask) { port with chip := chip } := by
  induction h with
  | @now chip hclear =>
    apply Settles.now
    rw [poll_eq, hclear]
    rfl
  | @later chip _ ih =>
    by_cases hclear : (Chip.step chip (.read register)).2 &&& mask = 0
    · apply Settles.now
      rw [poll_eq, hclear]
      rfl
    · refine Settles.later ?_ ih
      rw [poll_eq, bne_iff_ne.mpr hclear]

theorem poll_runs {register : Register} {mask : UInt8} (hallows : policy.allows bits register)
    (hclears : ∀ chip : σ, Responsive chip → Clears register mask chip) :
    Runs (banked σ policy bits true depth) fun turns =>
      whileDo (poll register mask) .runsOn turns := by
  apply Runs.whileDo
  · exact (readControlRegister_runs hallows).seq fun _ => .pure _
  · rfl
  · exact fun port _ hlive => settles_of_clears (hclears _ (hlive rfl)) port

theorem waitBusy_runs :
    Runs (banked σ policy bits true (depth + 1)) fun turns => waitBusy turns := by
  have heq (turns : ℕ) : waitBusy (σ := σ) turns =
      withBank 3 (whileDo (poll .MISTAT MISTAT_BUSY) .runsOn turns) := by
    simp [waitBusy, withBank, poll]
  simp only [heq]
  exact bracket_banked 3
    (poll_runs (policy.of_listed (by decide)) fun chip h => h.phy chip (.refl chip))

/-! ## The functions -/

theorem readPhyReg_runs (address : Int) :
    Runs (banked σ policy bits true (depth + 2)) fun turns => readPhyReg address turns := by
  have heq (turns : ℕ) : readPhyReg (σ := σ) address turns = withBank 2 (do
      writeControlRegister .MIREGADR (UInt8.ofInt address &&& 0x1F).toNat
      setControlRegister .MICMD MICMD_MIIRD
      waitBusy turns
      clearControlRegister .MICMD MICMD_MIIRD
      readControlRegisterWord .MIRDL) := by
    simp [readPhyReg, withBank]
  simp only [heq]
  apply bracket_banked
  apply (writeControlRegister_runs (policy.of_listed (by decide)) (by decide) _).seq fun _ => ?_
  apply (setControlRegister_runs (policy.of_listed (by decide)) (by decide)).seq fun _ => ?_
  apply waitBusy_runs.seq fun _ => ?_
  apply (clearControlRegister_runs (policy.of_listed (by decide)) (by decide)).seq fun _ => ?_
  exact readControlRegisterWord_runs (.of_listed (by decide))

theorem writePhyReg_runs (address data : Int) :
    Runs (banked σ policy bits true (depth + 1)) fun turns => writePhyReg address data turns := by
  have heq (turns : ℕ) : writePhyReg (σ := σ) address data turns = (do
      withBank 2 (do
        writeControlRegister .MIREGADR (UInt8.ofInt address &&& 0x1F).toNat
        writeControlRegister .MIWRL data
        writeControlRegister .MIWRH (data >>> (8 : ℕ)))
      waitBusy turns) := by
    simp [writePhyReg, withBank]
  simp only [heq]
  apply Runs.seq
  · apply bracket_banked
    apply (writeControlRegister_runs (policy.of_listed (by decide)) (by decide) _).seq fun _ => ?_
    apply (writeControlRegister_runs (policy.of_listed (by decide)) (by decide) _).seq fun _ => ?_
    exact writeControlRegister_runs (policy.of_listed (by decide)) (by decide) _
  · exact fun _ => waitBusy_runs

theorem setRxRange_runs (start stop : Int) :
    Runs (banked σ policy bits waits (depth + 1)) fun _ => setRxRange start stop := by
  have heq : setRxRange (σ := σ) start stop = withBank 0 (do
      writeControlRegisterWord .ERXSTL start
      writeControlRegisterWord .ERXNDL stop) := by
    simp [setRxRange, withBank]
  rw [heq]
  apply bracket_banked
  apply (writeControlRegisterWord_runs (.of_listed (by decide)) (by decide) (by decide) _).seq
    fun _ => ?_
  exact writeControlRegisterWord_runs (.of_listed (by decide)) (by decide) (by decide) _

/-- The first bracket of `set_receive_enable`. -/
def configureMac : Bus σ Unit := do
  writeControlRegister .MACON1
    (MACON1_TXPAUS ||| MACON1_RXPAUS ||| MACON1_PASSALL ||| MACON1_MARXEN : ℕ)
  writeControlRegister .MACON3
    (MACON3_PADCFG ||| MACON3_TXCRCEN ||| MACON3_FRMLNEN ||| MACON3_FULDPX : ℕ)
  writeControlRegister .MACON4 MACON4_DEFER
  writeControlRegisterWord .MAMXFLL 1518
  writeControlRegister .MABBIPG 0x15
  writeControlRegisterWord .MAIPGL 0x12

/-- The second one. -/
def writeMacAddress (a b c d e f : UInt8) : Bus σ Unit := do
  writeControlRegister .MAADR1 a.toNat
  writeControlRegister .MAADR2 b.toNat
  writeControlRegister .MAADR3 c.toNat
  writeControlRegister .MAADR4 d.toNat
  writeControlRegister .MAADR5 e.toNat
  writeControlRegister .MAADR6 f.toNat

theorem setReceiveEnable_eq (receive : Int) (turns : ℕ) :
    setReceiveEnable (σ := σ) receive turns = (do
      let mac := (← get).macAddress.mac
      if receive ≠ 0 then
        clearControlRegister .ECON1 ECON1_RXEN
        withBank 2 configureMac
        withBank 3 (writeMacAddress (mac.get 0) (mac.get 1) (mac.get 2) (mac.get 3) (mac.get 4)
          (mac.get 5))
        writePhyReg PHCON1 PHCON1_PDPXMD turns
        setControlRegister .ECON1 ECON1_RXEN
      else
        withBank 2 (clearControlRegister .MACON1 (UInt8.ofNat MACON1_MARXEN))
        clearControlRegister .ECON1 ECON1_RXEN) := by
  simp [setReceiveEnable, withBank, configureMac, writeMacAddress]

theorem configureMac_runs :
    Runs (banked σ policy (BitVec.ofInt 2 2) waits depth) fun _ => configureMac := by
  apply (writeControlRegister_runs (policy.of_listed (by decide)) (by decide) _).seq fun _ => ?_
  apply (writeControlRegister_runs (policy.of_listed (by decide)) (by decide) _).seq fun _ => ?_
  apply (writeControlRegister_runs (policy.of_listed (by decide)) (by decide) _).seq fun _ => ?_
  apply (writeControlRegisterWord_runs (.of_listed (by decide)) (by decide) (by decide) _).seq
    fun _ => ?_
  apply (writeControlRegister_runs (policy.of_listed (by decide)) (by decide) _).seq fun _ => ?_
  exact writeControlRegisterWord_runs (.of_listed (by decide)) (by decide) (by decide) _

theorem writeMacAddress_runs (a b c d e f : UInt8) :
    Runs (banked σ policy (BitVec.ofInt 2 3) waits depth) fun _ =>
      writeMacAddress a b c d e f := by
  apply (writeControlRegister_runs (policy.of_listed (by decide)) (by decide) _).seq fun _ => ?_
  apply (writeControlRegister_runs (policy.of_listed (by decide)) (by decide) _).seq fun _ => ?_
  apply (writeControlRegister_runs (policy.of_listed (by decide)) (by decide) _).seq fun _ => ?_
  apply (writeControlRegister_runs (policy.of_listed (by decide)) (by decide) _).seq fun _ => ?_
  apply (writeControlRegister_runs (policy.of_listed (by decide)) (by decide) _).seq fun _ => ?_
  exact writeControlRegister_runs (policy.of_listed (by decide)) (by decide) _

theorem setReceiveEnable_runs (receive : Int) :
    Runs (banked σ policy bits true (depth + 1)) fun turns => setReceiveEnable receive turns := by
  have hecon1 : policy.allows bits .ECON1 := policy.of_global (by decide)
  simp only [setReceiveEnable_eq]
  apply Runs.seq
  · exact .of_returns fun port _ => ⟨port, port, rfl, SameBanks.refl port, .refl⟩
  intro port
  apply Runs.ite
  · intro _
    apply (clearControlRegister_runs hecon1 (by decide)).seq fun _ => ?_
    apply (bracket_banked 2 configureMac_runs).seq fun _ => ?_
    apply (bracket_banked 3 (writeMacAddress_runs _ _ _ _ _ _)).seq fun _ => ?_
    apply (writePhyReg_runs _ _).seq fun _ => ?_
    exact setControlRegister_runs hecon1 (by decide)
  · intro _
    apply Runs.seq
    · exact bracket_banked 2 (clearControlRegister_runs (policy.of_listed (by decide)) (by decide))
    · exact fun _ => clearControlRegister_runs hecon1 (by decide)

theorem readBufferShort_runs : Runs (banked σ policy bits waits depth) fun _ => readBufferShort :=
  (bufferRead_runs 2 _ 0).seq fun _ => .pure _

theorem readBufferInt_runs : Runs (banked σ policy bits waits depth) fun _ => readBufferInt :=
  (bufferRead_runs 4 _ 0).seq fun _ => .pure _

/-- A frame that is too long is left through the read pointer, which is a register of bank 0. -/
theorem readFrame_runs (herdpt : policy.AllowsWord bits .ERDPTL) (packet : PacketMemory)
    (size : Int) (nextPacket : ℕ) :
    Runs (banked σ policy bits waits depth) fun _ => readFrame packet size nextPacket := by
  apply Runs.ite
  · exact fun _ => bufferRead_runs _ _ _
  · intro _
    apply (writeControlRegisterWord_runs herdpt (by decide) (by decide) _).seq fun _ => ?_
    exact .pure _

theorem getPacket_eq (packet : PacketMemory) : getPacket (σ := σ) packet = (do
    let count ← withBank 1 (readControlRegister .EPKTCNT)
    if count = 0 then return ({ packet with type := none }, false)
    else
      let readPointer ← withBank 0 (readControlRegisterWord .ERDPTL)
      let nextPacket ← readBufferShort
      let size := storedSize nextPacket readPointer
      let _status ← readBufferInt
      let buffer ← readFrame packet size nextPacket
      withBank 0 (writeControlRegisterWord .ERXRDPTL nextPacket)
      setControlRegister .ECON2 ECON2_PKTDEC
      if size > PACKET_MAX_SIZE then return ({ packet with type := none }, false)
      else return (fillPacket packet buffer size, true)) := by
  simp [getPacket, withBank]

theorem getPacket_runs (herdpt : policy.AllowsWord bits .ERDPTL) (packet : PacketMemory) :
    Runs (banked σ policy bits waits (depth + 1)) fun _ => getPacket packet := by
  rw [getPacket_eq]
  apply Runs.seq
  · exact bracket_banked 1 (readControlRegister_runs (policy.of_listed (by decide)))
  intro count
  apply Runs.ite
  · exact fun _ => .pure _
  intro _
  apply Runs.seq
  · exact bracket_banked 0 (readControlRegisterWord_runs (.of_listed (by decide)))
  intro readPointer
  apply readBufferShort_runs.seq fun nextPacket => ?_
  apply readBufferInt_runs.seq fun _ => ?_
  apply (readFrame_runs herdpt _ _ _).seq fun buffer => ?_
  apply Runs.seq
  · exact bracket_banked 0
      (writeControlRegisterWord_runs (.of_listed (by decide)) (by decide) (by decide) _)
  intro _
  apply (setControlRegister_runs (policy.of_global (by decide)) (by decide)).seq fun _ => ?_
  apply Runs.ite
  · exact fun _ => .pure _
  · exact fun _ => .pure _

theorem sendPacket_eq (packet : PacketMemory) (turns : ℕ) :
    sendPacket (σ := σ) packet turns = (do
      if packet.type = none then return (packet, false)
      else if packet.length < 0 ∨ packet.length > PACKET_MAX_SIZE then return (packet, false)
      else
        let buffer := htonEth packet.buffer
        setWritePointer TX_START
        bufferWrite (fun _ => 0x0E) 0 1
        bufferWrite buffer 0 packet.length.toNat
        withBank 0 (do
          writeControlRegisterWord .ETXSTL TX_START
          writeControlRegisterWord .ETXNDL (TX_START + packet.length))
        setControlRegister .ECON1 ECON1_TXRTS
        whileDo (poll .ECON1 ECON1_TXRTS) .runsOn turns
        return ({ packet with buffer := htonEth buffer }, true)) := by
  simp [sendPacket, withBank, poll]

/-- The write pointer is set without a bracket, too. -/
theorem sendPacket_runs (hewrpt : policy.AllowsWord bits .EWRPTL) (packet : PacketMemory) :
    Runs (banked σ policy bits true (depth + 1)) fun turns => sendPacket packet turns := by
  simp only [sendPacket_eq]
  apply Runs.ite
  · exact fun _ => .pure _
  intro _
  apply Runs.ite
  · exact fun _ => .pure _
  intro _
  apply (writeControlRegisterWord_runs hewrpt (by decide) (by decide) _).seq fun _ => ?_
  apply (bufferWrite_runs _ _ _).seq fun _ => ?_
  apply (bufferWrite_runs _ _ _).seq fun _ => ?_
  apply Runs.seq
  · apply bracket_banked
    apply Runs.seq
    · exact writeControlRegisterWord_runs (.of_listed (by decide)) (by decide) (by decide) _
    · intro _
      exact writeControlRegisterWord_runs (.of_listed (by decide)) (by decide) (by decide) _
  intro _
  apply (setControlRegister_runs (policy.of_global (by decide)) (by decide)).seq fun _ => ?_
  apply Runs.seq
  · exact poll_runs (policy.of_global (by decide)) fun chip h => h.transmit chip (.refl chip)
  · exact fun _ => .pure _

/-! ## `test_present` -/

/-- The first bracket of `test_present`.  It writes the bank-select bits. -/
def clearBsel : Bus σ UInt8 := do
  clearControlRegister .ECON1 0x3
  readControlRegister .ECON1

/-- The second one, which writes them, too. -/
def setBsel : Bus σ UInt8 := do
  setControlRegister .ECON1 0x3
  readControlRegister .ECON1

theorem testPresent_eq : testPresent (σ := σ) = (do
    let read ← withBank 0 clearBsel
    if read &&& 0x3 ≠ 0 then
      popBank
      return false
    else
      let read ← withBank 0 setBsel
      if read &&& 0x3 ≠ 0x3 then return false
      else return true) := by
  simp [testPresent, withBank, clearBsel, setBsel]

/-- What `test_present` reads first. -/
def firstRead (chip : σ) : UInt8 :=
  (Chip.step (Chip.step (selectBank chip 0) (.clear .ECON1 0x3)).1 (.read .ECON1)).2

/-- Both brackets leave the stack alone, and the first pop selects the bank, whatever was
selected before. -/
theorem withBank_clearBsel (policy : BankPolicy) {port : Port σ}
    (hroom : port.bankStack.length < BANK_STACK_SIZE) :
    ∃ port', withBank 0 clearBsel port = .ok (firstRead port.chip, popped port port') ∧
      Path policy (pushed port 0).chip port'.chip :=
  ⟨_, withBank_ok hroom rfl rfl,
    (Path.refl.step _ ((BankPolicy.permits_iff rfl).mpr (policy.of_global (by decide)))).step _
      ((BankPolicy.permits_iff rfl).mpr (policy.of_global (by decide)))⟩

theorem setBsel_loose : Runs (loose σ policy) fun _ => setBsel := by
  have hpermits {bits : BitVec 2} : policy.allows bits .ECON1 := policy.of_global (by decide)
  apply Runs.seq
  · exact (command_loose fun _ => (BankPolicy.permits_iff rfl).mpr hpermits).seq fun _ => .pure ()
  · exact fun _ => command_loose fun _ => (BankPolicy.permits_iff rfl).mpr hpermits

/-- What is left of `test_present` when the bits that it clears read back as clear. -/
theorem testPresent_rest : Runs (banked σ policy bits waits (depth + 1)) fun _ => (do
    let read ← withBank 0 setBsel
    if read &&& 0x3 ≠ 0x3 then return false
    else return true : Bus σ Bool) := by
  apply (bracket_loose 0 setBsel_loose).seq fun read => ?_
  apply Runs.ite
  · exact fun _ => .pure _
  · exact fun _ => .pure _

/-- `test_present` leaves the stack and `current_bank` as they were, and the bank selected. -/
theorem testPresent_selects (policy : BankPolicy) {port : Port σ}
    (hroom : port.bankStack.length < BANK_STACK_SIZE) (hfound : firstRead port.chip &&& 0x3 = 0) :
    ∃ present port₁ port', testPresent port = .ok (present, port') ∧
      SameBanks (popped port port₁) port' ∧
      Path policy (pushed port 0).chip port₁.chip ∧ Path policy port.chip port'.chip := by
  obtain ⟨port₁, hrun, hpath⟩ := withBank_clearBsel policy hroom
  have hinv : (banked σ policy (BitVec.ofInt 2 port.currentBank) false 1).inv
      (popped port port₁) := ⟨⟨selected_popped port port₁, hroom⟩, selected_popped port port₁⟩
  obtain ⟨present, port', ⟨hsame, hpath'⟩, n₀, hends⟩ :=
    testPresent_rest.ends _ hinv fun hwaits => nomatch hwaits
  refine ⟨present, port₁, port', ?_, hsame, hpath, (path_popped hpath).trans hpath'⟩
  rw [testPresent_eq, bind_ok hrun, if_neg (not_not.mpr hfound)]
  exact hends n₀ le_rfl

/-- When the bits that it clears read back as clear, `test_present` keeps the banks. -/
theorem testPresent_found {port : Port σ} (hselected : Selected port)
    (hroom : port.bankStack.length < BANK_STACK_SIZE)
    (hfound : firstRead port.chip &&& 0x3 = 0) :
    ∃ present port', testPresent port = .ok (present, port') ∧ SameBanks port port' := by
  obtain ⟨present, port₁, port', hrun, hsame, hpath, -⟩ :=
    testPresent_selects .anywhere hroom hfound
  exact ⟨present, port', hrun, (sameBanks_popped hselected hpath).trans hsame⟩

/-- Otherwise it pops once more than it pushed. -/
theorem testPresent_missing {port : Port σ} (hroom : port.bankStack.length < BANK_STACK_SIZE)
    (hmissing : firstRead port.chip &&& 0x3 ≠ 0) :
    ∃ port', port'.bankStack = port.bankStack ∧
      testPresent port = (popBank >>= fun _ => pure false) port' := by
  obtain ⟨port₁, hrun, -⟩ := withBank_clearBsel .anywhere hroom
  refine ⟨popped port port₁, rfl, ?_⟩
  rw [testPresent_eq, bind_ok hrun, if_pos hmissing]

end Functions

end Bus

/-! ## The driver -/

/-- A call of a function of the driver. -/
inductive DriverCall where
  | testPresent
  | setRxRange (start stop : Int)
  | setReceiveEnable (receive : Int)
  | getPacket (packet : PacketMemory)
  | sendPacket (packet : PacketMemory)
  | waitBusy
  | readPhyReg (address : Int)
  | writePhyReg (address data : Int)

section Driver

variable {σ : Type} [Chip σ]

/-- What the call does. -/
def DriverCall.run : DriverCall → (turns : ℕ) → Bus σ Unit
  | .testPresent, _ => do let _ ← Bus.testPresent
  | .setRxRange start stop, _ => Bus.setRxRange start stop
  | .setReceiveEnable receive, turns => Bus.setReceiveEnable receive turns
  | .getPacket packet, _ => do let _ ← Bus.getPacket packet
  | .sendPacket packet, turns => do let _ ← Bus.sendPacket packet turns
  | .waitBusy, turns => Bus.waitBusy turns
  | .readPhyReg address, turns => do let _ ← Bus.readPhyReg address turns
  | .writePhyReg address data, turns => Bus.writePhyReg address data turns

/-- The calls with a loop that waits for the chip. -/
def DriverCall.waits : DriverCall → Bool
  | .testPresent | .setRxRange _ _ | .getPacket _ => false
  | _ => true

/-- The bank-select bits of the chip are equal to `current_bank`. -/
def BankAgrees (port : Port σ) : Prop := ((Chip.bsel port.chip).toNat : Int) = port.currentBank

theorem BankAgrees.selected {port : Port σ} (h : BankAgrees port) : Selected port := by
  unfold Selected
  rw [← h, BitVec.ofInt_natCast, BitVec.ofNat_toNat, BitVec.setWidth_eq]

/-- The stack and `current_bank` are as they were, and the chip agrees with it. -/
structure Restored (port port' : Port σ) : Prop where
  bankStack : port'.bankStack = port.bankStack
  currentBank : port'.currentBank = port.currentBank
  agrees : BankAgrees port'

theorem SameBanks.restored {port port' : Port σ} (hsame : SameBanks port port')
    (h : BankAgrees port) : Restored port port' where
  bankStack := hsame.bankStack
  currentBank := hsame.currentBank
  agrees := by
    unfold BankAgrees
    rw [hsame.bsel, hsame.currentBank]
    exact h

/-- The call does not exit and restores the banks when it returns.  It returns, unless it
waits for a chip that stays busy. -/
structure Balanced (call : DriverCall) (port : Port σ) : Prop where
  restores : ∀ turns, match call.run turns port with
    | .ok (_, port') => Restored port port'
    | .error stop => stop = .runsOn
  returns : (call.waits = true → Responsive port.chip) →
    ∃ turns port', call.run turns port = .ok ((), port')

theorem Balanced.of_runs {call : DriverCall} {port : Port σ} {depth : ℕ} (hagrees : BankAgrees port)
    (hroom : port.bankStack.length + depth ≤ BANK_STACK_SIZE)
    (h : Runs (balance σ call.waits depth) call.run) : Balanced call port where
  restores turns := by
    rcases (h.keeps turns).cases ⟨hagrees.selected, hroom⟩ with
      ⟨_, port', hrun, hsame⟩ | ⟨stop, hrun, hstop⟩
    · rw [hrun]
      exact hsame.restored hagrees
    · rwa [hrun]
  returns hresponsive := by
    obtain ⟨_, port', _, turns, hends⟩ := h.ends port ⟨hagrees.selected, hroom⟩ hresponsive
    exact ⟨turns, port', hends turns le_rfl⟩

/-- Two free entries on the stack are enough for every call but `test_present`. -/
theorem DriverCall.runs {call : DriverCall} (hne : call ≠ .testPresent) :
    Runs (balance σ call.waits 2) call.run := by
  have hanywhere {bits : BitVec 2} {register : Register} :
      BankPolicy.anywhere.AllowsWord bits register := ⟨trivial, trivial⟩
  refine balance_of_banked fun bits => ?_
  cases call with
  | testPresent => exact absurd rfl hne
  | setRxRange start stop => exact Bus.setRxRange_runs start stop
  | setReceiveEnable receive => exact Bus.setReceiveEnable_runs receive
  | getPacket packet => exact (Bus.getPacket_runs hanywhere packet).seq fun _ => .pure ()
  | sendPacket packet => exact (Bus.sendPacket_runs hanywhere packet).seq fun _ => .pure ()
  | waitBusy => exact Bus.waitBusy_runs
  | readPhyReg address => exact (Bus.readPhyReg_runs address).seq fun _ => .pure ()
  | writePhyReg address data => exact Bus.writePhyReg_runs address data

/-- A call of `test_present` keeps the banks exactly when it finds the bits clear that it
has cleared. -/
theorem testPresent_balanced_iff {port : Port σ} (hagrees : BankAgrees port)
    (hroom : port.bankStack.length < BANK_STACK_SIZE) :
    Balanced .testPresent port ↔ Bus.firstRead port.chip &&& 0x3 = 0 := by
  constructor
  · intro hbalanced
    by_contra hmissing
    obtain ⟨port₁, hsame, heq⟩ := Bus.testPresent_missing hroom hmissing
    have hrestores := hbalanced.restores 0
    cases hstack : port.bankStack with
    | nil =>
      have hrun : DriverCall.run .testPresent 0 port = .error Stop.underflow :=
        bind_error (heq.trans (bind_error (Bus.popBank_nil (hsame.trans hstack))))
      rw [hrun] at hrestores
      cases hrestores
    | cons bank rest =>
      have hrun : DriverCall.run .testPresent 0 port = .ok ((), _) :=
        bind_ok (heq.trans (bind_ok (Bus.popBank_eq (hsame.trans hstack))))
      rw [hrun] at hrestores
      have hlength := congrArg List.length (hrestores.bankStack.trans hstack)
      exact absurd hlength (by simp)
  · intro hfound
    obtain ⟨present, port', hrun, hsame⟩ := Bus.testPresent_found hagrees.selected hroom hfound
    have hcall (turns : ℕ) : DriverCall.run .testPresent turns port = .ok ((), port') :=
      bind_ok hrun
    constructor
    · intro turns
      rw [hcall turns]
      exact hsame.restored hagrees
    · exact fun _ => ⟨0, port', hcall 0⟩

/-- The other calls do so anyway. -/
theorem DriverCall.balanced_of_found {call : DriverCall} {port : Port σ}
    (hagrees : BankAgrees port) (hlength : port.bankStack.length < 120)
    (hfound : call = .testPresent → Bus.firstRead port.chip &&& 0x3 = 0) :
    Balanced call port := by
  have hsize : BANK_STACK_SIZE = 128 := rfl
  by_cases hcall : call = .testPresent
  · subst hcall
    exact (testPresent_balanced_iff hagrees (by omega)).mpr (hfound rfl)
  · exact .of_runs hagrees (by omega) (DriverCall.runs hcall)

/-- A call keeps the banks, whatever the chip answers, unless it is a `test_present` that
reads back bits which it has just cleared: this one pops an entry that is not its own.
Pushes and pops that match keep the banks in any case. -/
theorem balanced_iff (port : Port σ) (hagrees : BankAgrees port) :
    (port.bankStack.length < 120 → ∀ call, Balanced call port ↔
      (call = .testPresent → Bus.firstRead port.chip &&& 0x3 = 0)) ∧
    ∀ ops depth, WellNested ops depth → port.bankStack.length + depth ≤ BANK_STACK_SIZE →
      ∃ port', ops.forM BankOp.run port = .ok ((), port') ∧ Restored port port' := by
  constructor
  · intro hlength call
    have hroom : port.bankStack.length < BANK_STACK_SIZE :=
      hlength.trans (by decide)
    constructor
    · rintro hbalanced rfl
      exact (testPresent_balanced_iff hagrees hroom).mp hbalanced
    · exact DriverCall.balanced_of_found hagrees hlength
  · intro ops depth hops hdepth
    obtain ⟨_, port', hsame, n₀, hends⟩ :=
      (balance_of_banked hops.runs).ends port ⟨hagrees.selected, hdepth⟩
        (fun hwaits => nomatch hwaits)
    exact ⟨port', hends n₀ le_rfl, hsame.restored hagrees⟩

/-- A chip that answers its reads from a list, and with zeros after it. -/
structure ScriptedChip where
  bits : BitVec 2
  answers : List UInt8

instance : Chip ScriptedChip where
  step
    | ⟨bits, answers⟩, .read _ => (⟨bits, answers.tail⟩, answers.headD 0)
    | ⟨bits, answers⟩, .readMemory => (⟨bits, answers.tail⟩, answers.headD 0)
    | ⟨bits, answers⟩, command => (⟨command.select bits, answers⟩, 0)
  bsel := ScriptedChip.bits
  bsel_step _ command := by cases command <;> rfl

/-- The driver at its start. -/
def answering (answers : List UInt8) : Port ScriptedChip :=
  ⟨⟨0, answers⟩, [], 0, ⟨.replicate 6 0⟩⟩

/-- A board that is there is found, and the calls of `push_bank_test` restore the bank. -/
theorem balanced_iff_found : Balanced .testPresent (answering [0, 3]) ∧
    ∃ port', [BankOp.push 3, .push 2, .pop, .push 0, .push 1, .pop, .pop, .pop].forM BankOp.run
      (answering []) = .ok ((), port') ∧ Restored (answering []) port' :=
  ⟨((balanced_iff (answering [0, 3]) rfl).1 (by decide) .testPresent).mpr fun _ => rfl,
    (balanced_iff (answering []) rfl).2 _ _ (.nest (.nest .nil (.nest (.nest .nil .nil) .nil)) .nil)
      (by decide)⟩

/-- Without a board the line may be read as high all the time.  `test_present` then exits at
its second `pop_bank`, where it is about to say that there is no board. -/
theorem testPresent_exits : Bus.testPresent (answering [0xFF]) = .error .underflow ∧
    BankAgrees (answering [0xFF]) ∧ ¬ Balanced .testPresent (answering [0xFF]) := by
  refine ⟨rfl, rfl, fun hbalanced => ?_⟩
  have hexit : Stop.underflow = .runsOn := hbalanced.restores 0
  cases hexit

/-! ## Runs -/

/-- Calls one after the other, each of which returns. -/
inductive DriverRun : Port σ → List DriverCall → Port σ → Prop
  | nil (port : Port σ) : DriverRun port [] port
  | cons {port port' port'' : Port σ} {call : DriverCall} {calls : List DriverCall} {turns : ℕ}
      (hcall : call.run turns port = .ok ((), port'))
      (hfound : call = .testPresent → Bus.firstRead port.chip &&& 0x3 = 0)
      (hrest : DriverRun port' calls port'') : DriverRun port (call :: calls) port''

/-- So the driver can go on for ever without an entry left on the stack. -/
theorem DriverRun.restored {port port' : Port σ} {calls : List DriverCall}
    (h : DriverRun port calls port') (hagrees : BankAgrees port)
    (hlength : port.bankStack.length < 120) : Restored port port' := by
  induction h with
  | nil port => exact ⟨rfl, rfl, hagrees⟩
  | @cons port port₁ port₂ call calls turns hcall hfound _ ih =>
    have hrestored : Restored port port₁ := by
      have hcase := (DriverCall.balanced_of_found hagrees hlength hfound).restores turns
      rwa [hcall] at hcase
    obtain ⟨hstack, hbank, hagrees'⟩ := ih hrestored.agrees (by rwa [hrestored.bankStack])
    exact ⟨hstack.trans hrestored.bankStack, hbank.trans hrestored.currentBank, hagrees'⟩

end Driver

end EthTransfer
