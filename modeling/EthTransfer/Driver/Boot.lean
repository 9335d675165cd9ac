import EthTransfer.Driver.Duplex

/-!
# From power-on

`init_ethernet` on a `Transceiver` in any state: it resets the chip, finds it, lays the receive
ring from `0` to `RX_END`, and lets frames in with its last command only.

* `Silent` is what holds until then: no frame is held, and none comes in.
* `initEthernet_returns`: when the clock is ready, the driver and the chip are in step, and the
  chip has the MAC address of the driver.
* `session_in_step`: what holds of all calls behind `init_ethernet`.
-/

namespace EthTransfer

open Program

/-- No frame is held, and none comes in. -/
structure Silent (t : Transceiver) : Prop where
  deaf : t.controller.flag ECON1_RXEN = false
  held : t.held = []
  stored : t.stored = []
  count : t.controller.epktcnt = 0

/-- As long as `RXEN` is not set, nothing comes in. -/
theorem Silent.grows {t t' : Transceiver} (h : Silent t) (hgrows : Grows t t') : Silent t' := by
  obtain ⟨hdeaf, hheld, hstored, -, hcount⟩ := hgrows.deaf h.deaf
  exact ⟨hdeaf, hheld.trans h.held, hstored.trans h.stored, hcount.trans h.count⟩

/-! ## Registers of other banks -/

section Apart

variable {s s' : Sight}

/-- Registers of one bank are set, and nothing else is. -/
structure Apart (bank : ℕ) (s s' : Sight) : Prop where
  file : ∀ b ≠ bank, s'.file b = s.file b
  sending : s'.sending = s.sending
  receiving : s'.receiving = s.receiving
  sent : s'.sent = s.sent
  line : s'.line = s.line

theorem Apart.refl (bank : ℕ) (s : Sight) : Apart bank s s := ⟨fun _ _ => rfl, rfl, rfl, rfl, rfl⟩

theorem Apart.set {b : ℕ} (h : Apart b s s') (address : ℕ) (data : UInt8) :
    Apart b s (s'.set b address data) where
  file bank hne := by
    rw [← h.file bank hne]
    funext a
    exact if_neg fun heq => hne heq.1
  sending := h.sending
  receiving := h.receiving
  sent := h.sent
  line := h.line

theorem Apart.setWord {b : ℕ} (h : Apart b s s') (address value : ℕ) :
    Apart b s (s'.setWord b address value) := (h.set _ _).set _ _

theorem Apart.word {b b' : ℕ} (h : Apart b s s') (hne : b' ≠ b) (address : ℕ) :
    s'.word b' address = s.word b' address := by
  rw [Sight.word, h.file b' hne]
  rfl

/-- The registers of the MAC address, in the order of its bytes. -/
def addressRegisters : Vector Register 6 :=
  #v[.MAADR1, .MAADR2, .MAADR3, .MAADR4, .MAADR5, .MAADR6]

/-- The MAC address of the chip. -/
def Sight.macAddress (s : Sight) : EthMac :=
  ⟨addressRegisters.map fun register => s.file 3 register.address⟩

theorem Apart.macAddress {b : ℕ} (h : Apart b s s') (hne : 3 ≠ b) :
    s'.macAddress = s.macAddress := by
  rw [Sight.macAddress, h.file 3 hne]
  rfl

end Apart

/-- A chip that was reset. -/
theorem reset_silent (t : Transceiver) : Silent t.reset ∧ t.reset.sight.sending = false := by
  have hregister {bank address : ℕ} (h : ¬ Steady bank address) :
      t.reset.controller.registers bank address = 0 := by
    show (if Steady bank address then t.defaults bank address else 0) = 0
    exact if_neg h
  have hflag (mask : UInt8) : t.reset.controller.flag mask = false := by
    rw [Controller.flag, hregister (by decide), UInt8.zero_and]
    rfl
  exact ⟨⟨hflag _, rfl, rfl, hregister (by decide)⟩, hflag _⟩

namespace Bus

variable {start : Transceiver} {stack : List Int} {bank : Int} {mac : EthMac} {s s' : Sight}

/-! ## `test_present` -/

/-- The low bits of `ECON1`, as `test_present` reads them. -/
theorem toNat_lowBits (data : UInt8) : (data &&& 0x3).toNat = (lowBits data).toNat := by
  unfold lowBits
  rw [UInt8.toNat_and, BitVec.toNat_setWidth, UInt8.toNat_toBitVec]
  exact Nat.and_two_pow_sub_one_eq_mod _ 2

/-- The first bracket of `test_present` reads bits that are clear. -/
theorem clearBsel_returns (hb : BitVec.ofInt 2 bank = 0) (hidle : s.sending = false) :
    Returns (Amid start stack bank mac s) (fun _ => clearBsel) fun a port =>
      a &&& 0x3 = 0 ∧ Amid start stack bank mac s port := by
  have hselect : (Command.clear .ECON1 0x3).select (BitVec.ofInt 2 bank) = BitVec.ofInt 2 bank := by
    rw [hb]
    rfl
  have hclear : Returns (Amid start stack bank mac s)
      (fun _ => clearControlRegister .ECON1 0x3) fun _ => Amid start stack bank mac s := by
    refine unanswered (Q := fun _ => True) (command_returns hidle hselect ?_)
    intro t answer _ _ hsight
    refine ⟨(execute_clearEcon1 t answer _).1, ?_, trivial⟩
    exact (execute_other t answer (by decide) (by decide)).1.trans hsight
  refine hclear.seq fun _ => command_returns hidle rfl ?_
  intro t answer _ hselected hsight
  refine ⟨Untouched.grows ⟨rfl, rfl, rfl, rfl, fun _ _ => rfl⟩ id, hsight, ?_⟩
  apply UInt8.toNat_inj.mp
  refine (toNat_lowBits (t.controller.registers 0 EthTransfer.ECON1)).trans ?_
  exact (congrArg BitVec.toNat (hselected.trans hb)).trans rfl

/-- The second one reads bits that are set. -/
theorem setBsel_returns (hidle : s.sending = false) :
    Returns (Amid start stack bank mac s) (fun _ => setBsel) fun a port =>
      a &&& 0x3 = 0x3 ∧ Loose start stack mac s port := by
  refine .of_ok fun port h => ⟨_, _, rfl, ?_, ?_⟩
  · apply UInt8.toNat_inj.mp
    refine (toNat_lowBits _).trans ?_
    have hread := elapse_bsel (Chip.step port.chip (.set .ECON1 0x3)).1
    have hset : Chip.bsel (Chip.step port.chip (.set .ECON1 0x3)).1 = BitVec.allOnes 2 := by
      rw [Chip.bsel_step]
      exact BitVec.or_allOnes
    exact (congrArg BitVec.toNat (hread.trans hset)).trans rfl
  · have hsight : port.chip.elapse.sight = s := (elapse_sight (h.sight ▸ hidle)).trans h.sight
    have hset : (Chip.step port.chip (.set .ECON1 0x3)).1.sight = s :=
      (execute_other _ (port.chip.line port.chip.now).answer (by decide) (by decide)).2.trans hsight
    have hgrows : Grows start (Chip.step port.chip (.set .ECON1 0x3)).1 :=
      (h.grows.trans (elapse_grows _)).trans
        (execute_setEcon1_grows _ (port.chip.line port.chip.now).answer (by decide))
    exact
      { bankStack := h.bankStack
        macAddress := h.macAddress
        grows := (hgrows.trans (elapse_grows _)).trans
          (Untouched.grows ⟨rfl, rfl, rfl, rfl, fun _ _ => rfl⟩ id)
        sight := (elapse_sight (hset ▸ hidle)).trans hset }

/-- The chip is found. -/
theorem testPresent_returns (hroom : stack.length < BANK_STACK_SIZE) (hidle : s.sending = false) :
    Returns (Amid start stack bank mac s) (fun _ => testPresent) fun present port =>
      present = true ∧ Amid start stack bank mac s port := by
  have hzero : BitVec.ofInt 2 0 = 0 := rfl
  rw [testPresent_eq]
  refine (withBank_returns hroom hidle hidle (clearBsel_returns hzero hidle)).seq fun read => ?_
  refine Returns.assume fun hread => Returns.ite (fun hnot => absurd hread hnot) fun _ => ?_
  refine (withBank_rebase (φ := fun a mid => a &&& 0x3 = 0x3 ∧ mid = start) hroom hidle hidle
    ((setBsel_returns hidle).weaken fun a port h => ⟨start, ⟨h.1, rfl⟩, h.2⟩)).seq fun read => ?_
  refine Returns.ghost fun mid => Returns.assume fun hread => ?_
  obtain ⟨hread, rfl⟩ := hread
  refine Returns.ite (fun hnot => absurd hread hnot) fun _ => ?_
  exact (Returns.pure true).mono (fun port h => ⟨rfl, h⟩) fun _ _ h => h

/-! ## Registers -/

/-- A byte of `ERXST`, which goes to `ERXWRPT`, too. -/
theorem setErxst_returns {register : Register} (hsilent : Silent start)
    (hregister : register.address = Register.ERXSTL.address ∨
      register.address = Register.ERXSTL.address + 1)
    (hb : (BitVec.ofInt 2 bank).toNat = 0) (hidle : s.sending = false) (data : Int) :
    Returns (Amid start stack bank mac s) (fun _ => writeControlRegister register data)
      fun _ port => ∃ mid, (Silent mid ∧ mid.writePointer =
          (s.set 0 register.address (UInt8.ofInt data)).word 0 Register.ERXSTL.address) ∧
        Amid mid stack bank mac (s.set 0 register.address (UInt8.ofInt data)) port := by
  have haddress : register.address < EIE ∧ Steady 0 register.address := by
    rcases hregister with heq | heq <;> rw [heq] <;> decide
  refine .of_ok fun port h => ?_
  set chip := (Chip.step port.chip (.write register (UInt8.ofInt data))).1 with hchip
  have hsilent' : Silent port.chip.elapse := hsilent.grows (h.grows.trans (elapse_grows _))
  have hsight : port.chip.elapse.sight = s := (elapse_sight (h.sight ▸ hidle)).trans h.sight
  have hbank := bankOf_eq hb ((elapse_bsel port.chip).trans h.selected) haddress.1
  have hset : chip.controller =
      port.chip.elapse.controller.setRegister 0 register.address (UInt8.ofInt data) := by
    show (port.chip.elapse.execute _ _).1.controller = _
    rw [execute_controller, Controller.step, hbank]
  have hseen : chip.sight = s.set 0 register.address (UInt8.ofInt data) :=
    hsight ▸ sight_of_setRegister hset rfl rfl haddress.2
  refine ⟨(), { port with chip := chip }, rfl, chip, ⟨?_, ?_⟩, ?_⟩
  · exact
      { deaf := (congrArg Sight.receiving hseen).trans
          ((congrArg Sight.receiving hsight).symm.trans hsilent'.deaf)
        held := hsilent'.held
        stored := hsilent'.stored
        count := by
          rw [hset]
          refine Eq.trans ?_ hsilent'.count
          exact Controller.setRegister_of_ne _ _ fun heq => absurd heq.1 (by decide) }
  · have hword : chip.sight.word 0 Register.ERXSTL.address =
        chip.controller.word 0 Register.ERXSTL.address := sight_word chip (by decide) (by decide)
    rw [← hseen, hword]
    exact if_pos ⟨hbank, hregister⟩
  · exact
      { bankStack := h.bankStack
        currentBank := h.currentBank
        macAddress := h.macAddress
        selected := (Chip.bsel_step _ _).trans ((if_neg haddress.2.1).trans h.selected)
        grows := .refl _
        sight := hseen }

/-- `set_rx_range` starts the ring at `0`, where the next frame goes. -/
theorem setRxRange_returns (hsilent : Silent start) (hroom : stack.length < BANK_STACK_SIZE)
    (hidle : s.sending = false) :
    Returns (Amid start stack bank mac s) (fun _ => setRxRange 0 RX_END) fun _ port =>
      ∃ mid, (Silent mid ∧ mid.writePointer = 0) ∧ Amid mid stack bank mac
        ((s.setWord 0 Register.ERXSTL.address 0).setWord 0 Register.ERXNDL.address RX_END)
        port := by
  have heq : setRxRange (σ := Transceiver) 0 RX_END = withBank 0 (do
      writeControlRegisterWord .ERXSTL 0
      writeControlRegisterWord .ERXNDL RX_END) := by
    simp [setRxRange, withBank]
  have hzero : (BitVec.ofInt 2 0).toNat = 0 := rfl
  rw [heq]
  refine withBank_rebase hroom hidle (by exact hidle) ?_
  refine Returns.seq ((setErxst_returns hsilent (.inl rfl) hzero hidle 0).seq fun _ =>
    Returns.ghost fun half => Returns.assume fun hhalf =>
      setErxst_returns hhalf.1 (.inr rfl) hzero
        (show (s.set 0 Register.ERXSTL.address _).sending = false from hidle) _) fun _ => ?_
  refine Returns.ghost fun mid => Returns.assume fun hmid => ?_
  refine (writeControlRegisterWord_returns hzero (by decide) (by decide) ?_ RX_END).weaken
    fun _ port h => ⟨mid, ⟨hmid.1, hmid.2.trans ?_⟩, h.loose⟩
  · exact hidle
  · exact Sight.word_setWord s 0 _ (show 0 < 65536 by decide)

/-- The loop that waits for the PHY. -/
theorem waitBusy_returns (hroom : stack.length < BANK_STACK_SIZE) (hidle : s.sending = false)
    (hwaits : ∀ n, ∃ m ≥ n, (s.line m).answer &&& MISTAT_BUSY = 0) :
    Returns (Amid start stack bank mac s) (fun turns => waitBusy turns) fun _ =>
      Amid start stack bank mac s := by
  have heq (turns : ℕ) : waitBusy (σ := Transceiver) turns =
      withBank 3 (whileDo (poll .MISTAT MISTAT_BUSY) .runsOn turns) := by
    simp [waitBusy, withBank, poll]
  simp only [heq]
  refine (withBank_returns (φ := fun _ => True) hroom hidle hidle ?_).weaken fun _ _ h => h.2
  have hread {port : Port Transceiver} (h : Amid start (bank :: stack) 3 mac s port) :
      Amid start (bank :: stack) 3 mac s
        { port with chip := (Chip.step port.chip (.read .MISTAT)).1 } :=
    h.read _ ((elapse_sight (h.sight ▸ hidle)).trans h.sight)
  -- the answer is a byte of the line, and no register
  have htest {port : Port Transceiver} (h : Amid start (bank :: stack) 3 mac s port) :
      poll .MISTAT MISTAT_BUSY port = .ok ((s.line port.chip.now).answer &&& MISTAT_BUSY != 0,
        { port with chip := (Chip.step port.chip (.read .MISTAT)).1 }) := by
    have hlive : Transceiver.Live port.chip.elapse.controller .MISTAT := by
      refine Or.inr (le_of_le_of_eq (by decide : 2 ≤ 3) (Eq.symm ?_))
      exact bankOf_eq rfl ((elapse_bsel port.chip).trans h.selected) (by decide)
    have hanswer : (Chip.step port.chip (.read .MISTAT)).2 = (s.line port.chip.now).answer := by
      rw [show s.line = port.chip.line from (congrArg Sight.line h.sight).symm]
      exact if_pos hlive
    rw [poll_eq, hanswer]
  refine (wait_returns (R := Amid start (bank :: stack) 3 mac s) hwaits (fun port h hends => ?_)
    fun port h hgoes => ?_).weaken fun _ _ h => ⟨trivial, h⟩
  · have hrun := htest h
    rw [hends] at hrun
    exact ⟨_, hrun, hread h⟩
  · have hrun := htest h
    rw [bne_iff_ne.mpr hgoes] at hrun
    exact ⟨_, hrun, hread h, elapse_now port.chip⟩

/-! ## `set_receive_enable` -/

variable (start stack mac) in
theorem configureMac_returns (hidle : s.sending = false) :
    ∃ s', Apart 2 s s' ∧ Returns (Amid start stack 2 mac s) (fun _ => configureMac)
      fun _ => Amid start stack 2 mac s' := by
  have htwo : (BitVec.ofInt 2 2).toNat = 2 := rfl
  refine ⟨_, ?_, (writeControlRegister_returns htwo (by decide) hidle _).seq fun _ =>
    (writeControlRegister_returns htwo (by decide) (by exact hidle) _).seq fun _ =>
    (writeControlRegister_returns htwo (by decide) (by exact hidle) _).seq fun _ =>
    (writeControlRegisterWord_returns htwo (by decide) (by decide) (by exact hidle) _).seq fun _ =>
    (writeControlRegister_returns htwo (by decide) (by exact hidle) _).seq fun _ =>
    writeControlRegisterWord_returns htwo (by decide) (by decide) (by exact hidle) 0x12⟩
  exact ((((((Apart.refl 2 s).set _ _).set _ _).set _ _).setWord _ _).set _ _).setWord _ _

variable (start stack mac) in
theorem writeMacAddress_returns (hidle : s.sending = false) (address : EthMac) :
    ∃ s', Apart 3 s s' ∧ s'.macAddress = address ∧
      Returns (Amid start stack 3 mac s) (fun _ => writeMacAddress (address.mac.get 0)
        (address.mac.get 1) (address.mac.get 2) (address.mac.get 3) (address.mac.get 4)
        (address.mac.get 5)) fun _ => Amid start stack 3 mac s' := by
  have hthree : (BitVec.ofInt 2 3).toNat = 3 := rfl
  refine ⟨_, ?_, ?_, (writeControlRegister_returns hthree (by decide) hidle _).seq fun _ =>
    (writeControlRegister_returns hthree (by decide) (by exact hidle) _).seq fun _ =>
    (writeControlRegister_returns hthree (by decide) (by exact hidle) _).seq fun _ =>
    (writeControlRegister_returns hthree (by decide) (by exact hidle) _).seq fun _ =>
    (writeControlRegister_returns hthree (by decide) (by exact hidle) _).seq fun _ =>
    writeControlRegister_returns hthree (by decide) (by exact hidle) _⟩
  · exact ((((((Apart.refl 3 s).set _ _).set _ _).set _ _).set _ _).set _ _).set _ _
  · obtain ⟨bytes⟩ := address
    simp only [ofInt_natCast, UInt8.ofNat_toNat]
    refine congrArg EthMac.mk (Vector.ext fun i hi => ?_)
    rw [Vector.getElem_map]
    interval_cases i <;> rfl

variable (start stack bank mac) in
/-- `write_phy_reg` sets registers of bank 2. -/
theorem writePhyReg_returns (hroom : stack.length < BANK_STACK_SIZE) (hidle : s.sending = false)
    (hwaits : ∀ n, ∃ m ≥ n, (s.line m).answer &&& MISTAT_BUSY = 0) (address data : Int) :
    ∃ s', Apart 2 s s' ∧ Returns (Amid start stack bank mac s)
      (fun turns => writePhyReg address data turns) fun _ => Amid start stack bank mac s' := by
  have heq (turns : ℕ) : writePhyReg (σ := Transceiver) address data turns = (do
      withBank 2 (do
        writeControlRegister .MIREGADR (UInt8.ofInt address &&& 0x1F).toNat
        writeControlRegister .MIWRL data
        writeControlRegister .MIWRH (data >>> (8 : ℕ)))
      waitBusy turns) := by
    simp [writePhyReg, withBank]
  have htwo : (BitVec.ofInt 2 2).toNat = 2 := rfl
  simp only [heq]
  refine ⟨_, ?_, (withBank_returns (φ := fun _ => True) hroom hidle ?_
    (((writeControlRegister_returns htwo (by decide) hidle _).seq fun _ =>
      (writeControlRegister_returns htwo (by decide) (by exact hidle) _).seq fun _ =>
      writeControlRegister_returns htwo (by decide) (by exact hidle) _).weaken
        fun _ _ h => ⟨trivial, h⟩)).seq fun _ =>
    Returns.assume fun _ => waitBusy_returns hroom ?_ ?_⟩
  · exact (((Apart.refl 2 s).set _ _).set _ _).set _ _
  · exact hidle
  · exact hidle
  · exact hwaits

/-- `RXEN` is clear already. -/
theorem clearRxen_returns (hdeaf : s.receiving = false) (hidle : s.sending = false) :
    Returns (Amid start stack bank mac s) (fun _ => clearControlRegister .ECON1 ECON1_RXEN)
      fun _ => Amid start stack bank mac s := by
  have hselect : (Command.clear .ECON1 ECON1_RXEN).select (BitVec.ofInt 2 bank) =
      BitVec.ofInt 2 bank := by
    have hnone : lowBits ECON1_RXEN = 0 := by decide
    show BitVec.ofInt 2 bank &&& ~~~lowBits ECON1_RXEN = _
    rw [hnone]
    exact BitVec.and_allOnes
  refine unanswered (Q := fun _ => True) (command_returns hidle hselect ?_)
  intro t answer _ _ hsight
  have hmasks : ECON1_RXEN &&& ECON1_TXRTS = 0 := by decide
  obtain ⟨hgrows, hseen⟩ := execute_clearEcon1 t answer ECON1_RXEN
  refine ⟨hgrows, ?_, trivial⟩
  rw [hseen, (disjoint_masks hmasks _).1, UInt8.and_assoc, UInt8.not_and_self, UInt8.and_zero,
    ← hsight]
  exact Sight.ext rfl rfl ((congrArg Sight.receiving hsight).trans hdeaf).symm rfl rfl rfl

/-- The chip hears, and nothing has come in or gone out. -/
structure Fresh (mac : EthMac) (line : ℕ → Moment) (port : Port Transceiver) : Prop where
  between : Between 0 port
  bankStack : port.bankStack = []
  held : port.chip.held = []
  stored : port.chip.stored = []
  sent : port.chip.sent = []
  line : port.chip.line = line
  macAddress : port.chip.sight.macAddress = mac
  localMac : port.macAddress = mac

/-- Setting `RXEN` lets frames in. -/
theorem setRxen_returns (hsilent : Silent start) (hwrite : start.writePointer = 0)
    (hidle : s.sending = false) (herdpt : s.word 0 Register.ERDPTL.address = 0)
    (herxst : s.word 0 Register.ERXSTL.address = 0)
    (herxnd : s.word 0 Register.ERXNDL.address = RX_END) (hsent : s.sent = [])
    (hmac : s.macAddress = mac) :
    Returns (Amid start [] 0 mac s) (fun _ => setControlRegister .ECON1 ECON1_RXEN)
      fun _ port => Fresh mac s.line port := by
  refine unanswered (Q := fun _ => True) (.of_ok fun port h => ⟨_, _, rfl, trivial, ?_⟩)
  have hselect : lowBits ECON1_RXEN = 0 := by decide
  have hmasks : ECON1_RXEN &&& ECON1_TXRTS = 0 := by decide
  have hgrows : Grows start port.chip.elapse := h.grows.trans (elapse_grows port.chip)
  have hsight : port.chip.elapse.sight = s := (elapse_sight (h.sight ▸ hidle)).trans h.sight
  have hsilent' := hsilent.grows hgrows
  have hwrite' : port.chip.elapse.writePointer = 0 :=
    (hgrows.deaf hsilent.deaf).2.2.2.1.trans hwrite
  obtain ⟨huntouched, hseen⟩ :=
    execute_setEcon1 port.chip.elapse (port.chip.line port.chip.now).answer ECON1_RXEN
  have hset : (ECON1_RXEN != 0) = true := by decide
  rw [or_and_mask, hset, (disjoint_masks hmasks _).2, hsight] at hseen
  have hnext : (Chip.step port.chip (.set .ECON1 ECON1_RXEN)).1.sight =
      { s with receiving := true } := hseen.trans (by rw [← hsight]; rfl)
  have hheld : (Chip.step port.chip (.set .ECON1 ECON1_RXEN)).1.held = [] :=
    huntouched.held.trans hsilent'.held
  exact
    { between :=
        { room := (congrArg List.length h.bankStack).trans_lt (by decide)
          currentBank := h.currentBank
          selected := by
            refine (Chip.bsel_step _ _).trans ?_
            show Chip.bsel port.chip ||| lowBits ECON1_RXEN = _
            rw [hselect, h.selected]
            exact BitVec.or_zero
          linked :=
            { even := rfl
              queued := by
                rw [hheld]
                trivial
              fits := by
                rw [hheld]
                exact Nat.zero_le _
              writePointer := by
                rw [hheld]
                exact huntouched.writePointer.trans hwrite'
              count := by
                rw [hheld]
                exact congrArg UInt8.toNat (huntouched.count.trans hsilent'.count) }
          rest := hnext ▸ ⟨hidle, rfl, herdpt, herxst, herxnd⟩ }
      bankStack := h.bankStack
      held := hheld
      stored := huntouched.stored.trans hsilent'.stored
      sent := (congrArg Sight.sent hnext).trans hsent
      line := congrArg Sight.line hnext
      macAddress := (congrArg Sight.macAddress hnext).trans hmac
      localMac := h.macAddress }

/-- `set_receive_enable` gives the chip the MAC address of the driver. -/
theorem setReceiveEnable_returns (hsilent : Silent start) (hwrite : start.writePointer = 0)
    (hdeaf : s.receiving = false) (hidle : s.sending = false)
    (herdpt : s.word 0 Register.ERDPTL.address = 0)
    (herxst : s.word 0 Register.ERXSTL.address = 0)
    (herxnd : s.word 0 Register.ERXNDL.address = RX_END) (hsent : s.sent = [])
    (hwaits : ∀ n, ∃ m ≥ n, (s.line m).answer &&& MISTAT_BUSY = 0) :
    Returns (Amid start [] 0 mac s) (fun turns => setReceiveEnable 1 turns)
      fun _ port => Fresh mac s.line port := by
  have hroom : ([] : List Int).length < BANK_STACK_SIZE := by decide
  simp only [setReceiveEnable_eq]
  refine Returns.seq (Q := fun port' port => port' = port ∧ Amid start [] 0 mac s port)
    (.of_ok fun port h => ⟨port, port, rfl, rfl, h⟩) fun known => ?_
  refine Returns.mono (P := fun port => known.macAddress = mac ∧ Amid start [] 0 mac s port) ?_
    (fun port h => ⟨h.1 ▸ h.2.macAddress, h.2⟩) fun _ _ h => h
  refine Returns.assume fun hmac => Returns.ite (fun _ => ?_) fun hzero => absurd one_ne_zero hzero
  rw [hmac]
  refine (clearRxen_returns hdeaf hidle).seq fun _ => ?_
  obtain ⟨s₁, hmacon, hfirst⟩ := configureMac_returns start [0] mac hidle
  have hidle₁ : s₁.sending = false := hmacon.sending.trans hidle
  refine (withBank_returns (φ := fun _ => True) hroom hidle hidle₁
    (hfirst.weaken fun _ _ h => ⟨trivial, h⟩)).seq fun _ => Returns.assume fun _ => ?_
  obtain ⟨s₂, haddress, hmac₂, hsecond⟩ := writeMacAddress_returns start [0] mac hidle₁ mac
  have hidle₂ : s₂.sending = false := haddress.sending.trans hidle₁
  refine (withBank_returns (φ := fun _ => True) hroom hidle₁ hidle₂
    (hsecond.weaken fun _ _ h => ⟨trivial, h⟩)).seq fun _ => Returns.assume fun _ => ?_
  have hline₂ : s₂.line = s.line := haddress.line.trans hmacon.line
  obtain ⟨s₃, hphy, hthird⟩ := writePhyReg_returns start [] 0 mac hroom hidle₂
    (by rwa [hline₂]) PHCON1 PHCON1_PDPXMD
  refine hthird.seq fun _ => ?_
  -- three brackets in banks 2 and 3, which the ring has nothing to do with
  have hword (address : ℕ) : s₃.word 0 address = s.word 0 address := by
    rw [hphy.word (by decide), haddress.word (by decide), hmacon.word (by decide)]
  refine (setRxen_returns hsilent hwrite (hphy.sending.trans hidle₂) ((hword _).trans herdpt)
    ((hword _).trans herxst) ((hword _).trans herxnd) ?_ ?_).weaken fun _ port h => ?_
  · rw [hphy.sent, haddress.sent, hmacon.sent, hsent]
  · rw [hphy.macAddress (by decide), hmac₂]
  · rwa [hphy.line, hline₂] at h

/-- A clock that gets ready while the loop runs is found ready. -/
theorem clockReady_found (turns : ℕ) (hidle : s.sending = false) :
    Returns (fun port => (∃ i < turns, (s.line (port.chip.now + i)).answer &&& 0x01 ≠ 0) ∧
        Amid start stack bank mac s port)
      (fun _ => clockReady turns) fun ready port =>
        ready = true ∧ Amid start stack bank mac s port := by
  induction turns with
  | zero =>
    rintro port ⟨⟨i, hi, -⟩, -⟩
    exact absurd hi (Nat.not_lt_zero i)
  | succ turns ih =>
    refine Returns.seq (Q := fun read port => (read &&& 0x01 ≠ 0 ∨
      ∃ i < turns, (s.line (port.chip.now + i)).answer &&& 0x01 ≠ 0) ∧
        Amid start stack bank mac s port) (.of_ok fun port h => ⟨_, _, rfl, ?_, ?_⟩) fun read => ?_
    · obtain ⟨⟨i, hi, hready⟩, h⟩ := h
      have hline : s.line = port.chip.line := (congrArg Sight.line h.sight).symm
      rw [hline] at hready ⊢
      cases i with
      | zero => exact Or.inl hready
      | succ i =>
        refine Or.inr ⟨i, by omega, ?_⟩
        have hnow : (Chip.step port.chip (.read .ESTAT)).1.now = port.chip.now + 1 :=
          elapse_now port.chip
        dsimp only
        rwa [hnow, Nat.add_assoc, Nat.add_comm 1 i]
    · exact h.2.read _ ((elapse_sight (h.2.sight ▸ hidle)).trans h.2.sight)
    · refine Returns.ite (fun _ => ?_) fun hnot => ?_
      · exact (Returns.pure true).mono (fun _ h => ⟨rfl, h.2⟩) fun _ _ h => h
      · exact ih.mono (fun port h => ⟨h.1.resolve_left hnot, h.2⟩) fun _ _ h => h

/-- What the driver waits for happens again and again: transmissions end, the PHY is not busy,
and the clock is not late. -/
structure Lively (line : ℕ → Moment) : Prop where
  finishes : ∀ n, ∃ m ≥ n, (line m).finishes = true
  phy : ∀ n, ∃ m ≥ n, (line m).answer &&& MISTAT_BUSY = 0
  clock : ∀ n, ∃ i < 100, (line (n + i)).answer &&& 0x01 ≠ 0

/-- `init_ethernet` behind `test_present`. -/
theorem startUp_returns (hsilent : Silent start) (hdeaf : s.receiving = false)
    (hidle : s.sending = false) (hsent : s.sent = []) (hline : Lively s.line) (address : EthMac) :
    Returns (Amid start [] 0 mac s) (fun turns => startUp address true turns)
      fun ready port => ready = true ∧ Fresh address s.line port := by
  have hzero : (BitVec.ofInt 2 0).toNat = 0 := rfl
  refine Returns.ite (fun hmissing => nomatch hmissing) fun _ => ?_
  refine Returns.seq (Q := fun _ => Amid start [] 0 address s)
    (.of_ok fun port h => ⟨(), _, rfl, ?_⟩) fun _ => ?_
  · exact { h with macAddress := rfl }
  refine (setRxRange_returns hsilent (by decide) hidle).seq fun _ => ?_
  refine Returns.ghost fun mid => Returns.assume fun hmid => ?_
  refine (writeControlRegisterWord_returns hzero (by decide) (by decide) ?_ TX_START).seq
    fun _ => ?_
  · exact hidle
  refine (writeControlRegisterWord_returns hzero (by decide) (by decide) ?_ 0).seq fun _ => ?_
  · exact hidle
  refine Returns.seq ((clockReady_found 100 ?_).mono (fun port h => ⟨?_, h⟩) fun _ _ h => h)
    fun ready => Returns.assume fun hready => ?_
  · exact hidle
  · exact hline.clock port.chip.now
  refine Returns.ite (fun hlate => nomatch hready.symm.trans hlate) fun _ => ?_
  refine (setReceiveEnable_returns hmid.1 hmid.2 ?_ ?_ ?_ ?_ ?_ ?_ ?_).seq fun _ =>
    (Returns.pure true).mono (fun _ h => ⟨rfl, h⟩) fun _ _ h => h
  · exact hdeaf
  · exact hidle
  · exact Sight.word_setWord _ _ _ (by decide)
  · rw [Sight.word_setWord_of_ne _ _ _ (by decide), Sight.word_setWord_of_ne _ _ _ (by decide),
      Sight.word_setWord_of_ne _ _ _ (by decide)]
    exact Sight.word_setWord _ _ _ (by decide)
  · rw [Sight.word_setWord_of_ne _ _ _ (by decide), Sight.word_setWord_of_ne _ _ _ (by decide)]
    exact Sight.word_setWord _ _ _ (by decide)
  · exact hsent
  · exact hline.phy

/-- `init_ethernet` finds the chip, whatever state it was in, and when it returns nothing has
come in that the driver will not see. -/
theorem initEthernet_returns {port : Port Transceiver} (hstack : port.bankStack = [])
    (hbank : port.currentBank = 0) (hline : Lively port.chip.line) (address : EthMac) :
    Returns (fun port' => port' = port) (fun turns => initEthernet address turns)
      fun ready port' => ready = true ∧ Fresh address port.chip.line port' := by
  set chip := Transceiver.reset port.chip with hchip
  obtain ⟨hsilent, hidle⟩ := reset_silent port.chip
  refine Returns.seq (Q := fun _ => Amid chip [] 0 port.macAddress chip.sight)
    (.of_ok fun port' h => ⟨(), _, rfl, ?_⟩) fun _ => ?_
  · subst h
    exact ⟨hstack, hbank, rfl, rfl, .refl _, rfl⟩
  refine (testPresent_returns (by decide) hidle).seq fun present => ?_
  refine Returns.assume fun hpresent => ?_
  rw [hpresent]
  exact startUp_returns hsilent hsilent.deaf hidle rfl hline address

end Bus

/-- What has passed since the start is all that has passed. -/
theorem Bus.Fresh.passed {mac : EthMac} {line : ℕ → Moment} {port : Port Transceiver}
    (h : Bus.Fresh mac line port) {t : Transceiver} {read sent : List (List UInt8)}
    (hpassed : Passed port.chip t read sent) :
    t.stored = read ++ t.held.map Prod.snd ∧ t.sent = sent := by
  obtain ⟨new, hframes, hstored⟩ := hpassed.frames
  rw [h.held, List.map_nil, List.nil_append] at hframes
  rw [hstored, h.stored, List.nil_append, hframes, hpassed.sent, h.sent, List.nil_append]
  exact ⟨rfl, rfl⟩

/-- From power-on: `init_ethernet` finds the chip, whatever state it was in, gives it the MAC
address, and ends before the first frame comes in.  Then, over every sequence of calls, the
frames that the chip has stored are those that were read, in their order, and those that it
still holds; what fits into a packet is delivered as it came in, and what is sent are the
frames of the packets. -/
theorem session_in_step {port : Port Transceiver} (hstack : port.bankStack = [])
    (hbank : port.currentBank = 0) (hline : Bus.Lively port.chip.line) (address : EthMac)
    (calls : List LinkCall) :
    ∃ booted results port',
      Ends (fun turns => Bus.initEthernet address turns) port true booted ∧
      booted.chip.sight.macAddress = address ∧ booted.chip.stored = [] ∧
      Ends (fun turns => runCalls calls turns) booted results port' ∧
      CallRun booted calls results port' ∧
      port'.chip.sent = calls.flatMap LinkCall.frames ∧
      ∃ read p, port'.chip.stored = read ++ port'.chip.held.map Prod.snd ∧ Between p port' ∧
        List.Forall₂ Brings (fitting read) (deliveredBy calls results) := by
  obtain ⟨ready, booted, hboot, rfl, hfresh⟩ :=
    Bus.initEthernet_returns hstack hbank hline address port rfl
  obtain ⟨results, port', hends, hrun⟩ :=
    runCalls_returns hfresh.between (hfresh.line ▸ hline.finishes) calls booted rfl
  obtain ⟨read, p, hpassed, hbetween, hbrings, -⟩ := hrun.over hfresh.between
  obtain ⟨hstored, hsent⟩ := hfresh.passed hpassed
  exact ⟨booted, results, port', hboot, hfresh.macAddress, hfresh.stored, hends, hrun, hsent,
    read, p, hstored, hbetween, hbrings⟩

/-- A chip in some state, on a line that brings a frame before every fourth command.  The clock
and the PHY share a bit, which is set before every other command. -/
def lateLine : Transceiver where
  controller := ⟨fun _ => 7, fun _ _ => 0xFF⟩
  writePointer := 5
  held := [(2, [9])]
  stored := [[8], [9]]
  sent := [[1]]
  line n := ⟨if n % 4 = 0 then [(.replicate 4 0, [1, 2, 3])] else [], n % 8 = 7,
    if n % 2 = 0 then 0 else 1⟩
  now := 0
  defaults := fun _ _ => 0xAA

theorem lateLine_lively : Bus.Lively lateLine.line where
  finishes n := ⟨8 * n + 7, by omega, decide_eq_true (show (8 * n + 7) % 8 = 7 by omega)⟩
  phy n := by
    refine ⟨2 * n, by omega, ?_⟩
    show (if 2 * n % 2 = 0 then 0 else 1 : UInt8) &&& MISTAT_BUSY = 0
    rw [if_pos (by omega)]
    rfl
  clock n := by
    refine ⟨1 - n % 2, by omega, ?_⟩
    show (if (n + (1 - n % 2)) % 2 = 0 then 0 else 1 : UInt8) &&& 0x01 ≠ 0
    rw [if_neg (by omega)]
    decide

theorem session_in_step_lateLine :
    ∃ booted results port',
      Ends (fun turns => Bus.initEthernet ⟨.replicate 6 2⟩ turns)
        ⟨lateLine, [], 0, ⟨.replicate 6 0⟩⟩ true booted ∧
      booted.chip.sight.macAddress = ⟨.replicate 6 2⟩ ∧ booted.chip.stored = [] ∧
      Ends (fun turns => runCalls busyCalls turns) booted results port' ∧
      CallRun booted busyCalls results port' ∧
      port'.chip.sent = busyCalls.flatMap LinkCall.frames ∧
      ∃ read p, port'.chip.stored = read ++ port'.chip.held.map Prod.snd ∧ Between p port' ∧
        List.Forall₂ Brings (fitting read) (deliveredBy busyCalls results) :=
  session_in_step rfl rfl lateLine_lively _ busyCalls

end EthTransfer
