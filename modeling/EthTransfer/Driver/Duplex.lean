import EthTransfer.Driver.Transceiver

/-!
# Sending and receiving while the line goes on

`get_packet` and `send_packet` run on a `Transceiver`, on which frames come in between any
two of their commands.

* `Amid` is what holds in the middle of a call, and each function of the driver has a triple
  that says what it does to the sight.
* `getPacket_returns`: a call takes the frame that is the first one when `EPKTCNT` is read.
* `sendPacket_returns`: a call sends the bytes of its packet, and of nothing else.
* `CallRun` is a run of calls, one by one, and `calls_in_step` says that every sequence of
  calls has one.
-/

namespace EthTransfer

open Program

/-- In the middle of a call that has started on the chip `start`: the banks, and the sight. -/
structure Amid (start : Transceiver) (stack : List Int) (bank : Int) (mac : EthMac) (s : Sight)
    (port : Port Transceiver) : Prop where
  bankStack : port.bankStack = stack
  currentBank : port.currentBank = bank
  macAddress : port.macAddress = mac
  selected : Chip.bsel port.chip = BitVec.ofInt 2 bank
  grows : Grows start port.chip
  sight : port.chip.sight = s

/-- A read that leaves the bank selected, with what the time before it does to the sight. -/
theorem Amid.read {start : Transceiver} {stack : List Int} {bank : Int} {mac : EthMac}
    {s s' : Sight} {port : Port Transceiver} (h : Amid start stack bank mac s port)
    (register : Register) (hsight : port.chip.elapse.sight = s') : Amid start stack bank mac s'
      { port with chip := (Chip.step port.chip (.read register)).1 } where
  bankStack := h.bankStack
  currentBank := h.currentBank
  macAddress := h.macAddress
  selected := (Chip.bsel_step _ _).trans h.selected
  grows := (h.grows.trans (elapse_grows _)).trans
    (Untouched.grows ⟨rfl, rfl, rfl, rfl, fun _ _ => rfl⟩ id)
  sight := hsight

/-- The same, when the bank-select bits are not known. -/
structure Loose (start : Transceiver) (stack : List Int) (mac : EthMac) (s : Sight)
    (port : Port Transceiver) : Prop where
  bankStack : port.bankStack = stack
  macAddress : port.macAddress = mac
  grows : Grows start port.chip
  sight : port.chip.sight = s

theorem Amid.loose {start : Transceiver} {stack : List Int} {bank : Int} {mac : EthMac} {s : Sight}
    {port : Port Transceiver} (h : Amid start stack bank mac s port) :
    Loose start stack mac s port :=
  ⟨h.bankStack, h.macAddress, h.grows, h.sight⟩

namespace Bus

variable {start : Transceiver} {stack : List Int} {bank : Int} {mac : EthMac} {s s' : Sight}

/-! ## Commands -/

/-- A command that leaves the bank selected. -/
theorem command_returns {command : Command} {Q : UInt8 → Prop} (hidle : s.sending = false)
    (hselect : command.select (BitVec.ofInt 2 bank) = BitVec.ofInt 2 bank)
    (hdo : ∀ t answer, Grows start t → t.controller.bsel = BitVec.ofInt 2 bank → t.sight = s →
      Grows t (t.execute answer command).1 ∧ (t.execute answer command).1.sight = s' ∧
        Q (t.execute answer command).2) :
    Returns (Amid start stack bank mac s) (fun _ => Bus.command command)
      fun a port => Q a ∧ Amid start stack bank mac s' port := by
  refine .of_ok fun port h => ⟨_, _, rfl, ?_⟩
  have hsight : port.chip.elapse.sight = s :=
    (elapse_sight (h.sight ▸ hidle)).trans h.sight
  have hgrows : Grows start port.chip.elapse := h.grows.trans (elapse_grows port.chip)
  obtain ⟨hgrown, hseen, hanswer⟩ := hdo port.chip.elapse (port.chip.line port.chip.now).answer
    hgrows ((elapse_bsel port.chip).trans h.selected) hsight
  refine ⟨hanswer, h.bankStack, h.currentBank, h.macAddress, ?_, hgrows.trans hgrown, hseen⟩
  rw [Chip.bsel_step, h.selected, hselect]

/-- A command whose answer is not used. -/
theorem unanswered {command : Command} {P : Port Transceiver → Prop} {Q : UInt8 → Prop}
    {R : Port Transceiver → Prop}
    (h : Returns P (fun _ => Bus.command command) fun a port => Q a ∧ R port) :
    Returns P (fun _ => do let _ ← Bus.command command) fun _ => R :=
  h.seq fun _ => (Returns.pure ()).mono (fun _ hr => hr.2) fun _ _ hr => hr

/-- The bank of a register. -/
theorem bankOf_eq {t : Transceiver} {b address : ℕ} (hb : (BitVec.ofInt 2 bank).toNat = b)
    (hselected : t.controller.bsel = BitVec.ofInt 2 bank) (haddress : address < EIE) :
    t.controller.bankOf address = b := by
  rw [Controller.bankOf, if_neg (by omega), Controller.bank_eq, hselected, hb]

/-- A register that may be written in any bank without more ado: it is no common one, the
chip does not write it, and it is no part of `ERXST`. -/
def Plain (bank address : ℕ) : Prop :=
  address < EIE ∧ Steady bank address ∧
    ¬ (bank = 0 ∧ (address = Register.ERXSTL.address ∨ address = Register.ERXSTL.address + 1))

instance (bank address : ℕ) : Decidable (Plain bank address) :=
  inferInstanceAs (Decidable (_ ∧ _))

theorem writeControlRegister_returns {register : Register} {b : ℕ}
    (hb : (BitVec.ofInt 2 bank).toNat = b) (hplain : Plain b register.address)
    (hidle : s.sending = false) (data : Int) :
    Returns (Amid start stack bank mac s) (fun _ => writeControlRegister register data)
      fun _ => Amid start stack bank mac (s.set b register.address (UInt8.ofInt data)) := by
  obtain ⟨haddress, hsteady, hother⟩ := hplain
  have hecon1 : register.address ≠ EthTransfer.ECON1 := hsteady.1
  have hselect : (Command.write register (UInt8.ofInt data)).select (BitVec.ofInt 2 bank) =
      BitVec.ofInt 2 bank := if_neg hecon1
  refine unanswered (Q := fun _ => True) (command_returns hidle hselect ?_)
  intro t answer _ hselected hsight
  have hbank := bankOf_eq hb hselected haddress
  have hset : (t.execute answer (.write register (UInt8.ofInt data))).1.controller =
      t.controller.setRegister b register.address (UInt8.ofInt data) := by
    rw [execute_controller, Controller.step, hbank]
  have hseen := sight_of_setRegister hset rfl rfl hsteady
  refine ⟨Untouched.grows ⟨rfl, rfl, ?_, ?_, fun _ _ => ?_⟩ ?_, hsight ▸ hseen, trivial⟩
  · exact if_neg (by rwa [hbank])
  · rw [hset]
    exact Controller.setRegister_of_ne _ _ fun h => hsteady.2 ⟨h.1.symm, h.2.symm⟩
  · rw [hset]
    rfl
  · exact (congrArg Sight.receiving hseen).trans

theorem writeControlRegisterWord_returns {register : Register} {b : ℕ}
    (hb : (BitVec.ofInt 2 bank).toNat = b) (hlow : Plain b register.address)
    (hhigh : Plain b (register.address + 1)) (hidle : s.sending = false) (value : ℕ) :
    Returns (Amid start stack bank mac s) (fun _ => writeControlRegisterWord register value)
      fun _ => Amid start stack bank mac (s.setWord b register.address value) := by
  have hbyte : UInt8.ofInt ((value : Int) >>> (8 : ℕ)) = UInt8.ofNat (value / 256) := by
    rw [← ofInt_natCast, ← Nat.shiftRight_eq_div_pow value 8]
    rfl
  unfold writeControlRegisterWord
  refine (writeControlRegister_returns hb hlow hidle value).seq fun _ => ?_
  rw [ofInt_natCast]
  refine (writeControlRegister_returns hb (show Plain b register.high.address from hhigh) ?_
    _).weaken fun _ _ h => ?_
  · exact hidle
  · rw [hbyte] at h
    exact h

/-- A read of a register that the chip does not write. -/
theorem readControlRegister_returns {register : Register} {b : ℕ}
    (hb : (BitVec.ofInt 2 bank).toNat = b) (haddress : register.address < EIE)
    (hsteady : Steady b register.address) (hshown : b < 2) (hidle : s.sending = false) :
    Returns (Amid start stack bank mac s) (fun _ => readControlRegister register)
      fun a port => a = s.file b register.address ∧ Amid start stack bank mac s port := by
  refine command_returns hidle rfl ?_
  intro t answer _ hselected hsight
  have hbank := bankOf_eq hb hselected haddress
  refine ⟨Untouched.grows ⟨rfl, rfl, rfl, rfl, fun _ _ => rfl⟩ id, hsight, ?_⟩
  have hlive : ¬ Transceiver.Live t.controller register := by
    rintro (h | h)
    · rw [h] at haddress
      exact absurd haddress (by decide)
    · omega
  show (if _ then _ else t.controller.registers _ _) = _
  rw [if_neg hlive, hbank, ← hsight]
  exact (if_pos hsteady).symm

theorem readControlRegisterWord_returns {register : Register} {b : ℕ}
    (hb : (BitVec.ofInt 2 bank).toNat = b) (haddress : register.address + 1 < EIE)
    (hlow : Steady b register.address) (hhigh : Steady b (register.address + 1))
    (hshown : b < 2) (hidle : s.sending = false) :
    Returns (Amid start stack bank mac s) (fun _ => readControlRegisterWord register)
      fun a port => a = s.word b register.address ∧ Amid start stack bank mac s port := by
  unfold readControlRegisterWord
  refine (readControlRegister_returns hb (show register.high.address < EIE from haddress)
    (show Steady b register.high.address from hhigh) hshown hidle).seq fun high => ?_
  refine Returns.assume fun hhigh => ?_
  refine (readControlRegister_returns hb (Nat.lt_of_succ_lt haddress) hlow hshown
    hidle).seq fun low => ?_
  refine Returns.assume fun hlow => (Returns.pure _).mono (fun _ h => ⟨?_, h⟩) fun _ _ h => h
  have hmask (x : UInt8) : x.toNat &&& 0xFF = x.toNat := by
    have hx := x.toNat_lt
    rw [Nat.and_two_pow_sub_one_eq_mod _ 8]
    omega
  rw [hhigh, hlow, hmask, hmask, ← Nat.shiftLeft_add_eq_or_of_lt (UInt8.toNat_lt _),
    Nat.shiftLeft_eq, Sight.word, Nat.mul_comm, Nat.add_comm]
  rfl

/-! ## `ECON1` -/

/-- Bits of `ECON1` are cleared. -/
theorem execute_clearEcon1 (t : Transceiver) (answer mask : UInt8) :
    Grows t (t.execute answer (.clear .ECON1 mask)).1 ∧
      (t.execute answer (.clear .ECON1 mask)).1.sight = { t.sight with
        sending := t.controller.registers 0 EthTransfer.ECON1 &&& ~~~mask &&& ECON1_TXRTS != 0
        receiving := t.controller.registers 0 EthTransfer.ECON1 &&& ~~~mask &&& ECON1_RXEN != 0
        } := by
  have hsight : (t.execute answer (.clear .ECON1 mask)).1.sight = { t.sight with
      sending := t.controller.registers 0 EthTransfer.ECON1 &&& ~~~mask &&& ECON1_TXRTS != 0
      receiving := t.controller.registers 0 EthTransfer.ECON1 &&& ~~~mask &&& ECON1_RXEN != 0 } :=
    sight_of_setEcon1 rfl rfl rfl
  refine ⟨Untouched.grows ⟨rfl, rfl, rfl, ?_, fun _ _ => rfl⟩ fun hdeaf => ?_, hsight⟩
  · exact Controller.setRegister_of_ne _ _ fun h => absurd h.2 (by decide)
  · refine (congrArg Sight.receiving hsight).trans ?_
    have hclear : t.controller.registers 0 EthTransfer.ECON1 &&& ECON1_RXEN = 0 := by
      simpa [Controller.flag] using hdeaf
    dsimp only
    rw [UInt8.and_assoc, UInt8.and_comm (~~~mask), ← UInt8.and_assoc, hclear, UInt8.zero_and]
    rfl

/-- Bits of `ECON1` are set. -/
theorem execute_setEcon1 (t : Transceiver) (answer mask : UInt8) :
    Untouched t (t.execute answer (.set .ECON1 mask)).1 ∧
      (t.execute answer (.set .ECON1 mask)).1.sight = { t.sight with
        sending := (t.controller.registers 0 EthTransfer.ECON1 ||| mask) &&& ECON1_TXRTS != 0
        receiving := (t.controller.registers 0 EthTransfer.ECON1 ||| mask) &&& ECON1_RXEN != 0
        } := by
  have hother : ¬ (Register.ECON1.address = EthTransfer.ECON2 ∧ mask &&& ECON2_PKTDEC ≠ 0) :=
    fun h => absurd h.1 (by decide)
  have hset : (t.execute answer (.set .ECON1 mask)).1.controller =
      t.controller.setRegister 0 EthTransfer.ECON1
        (t.controller.registers 0 EthTransfer.ECON1 ||| mask) := by
    rw [execute_controller, Controller.step, EthTransfer.setControlRegister, if_neg hother]
    rfl
  refine ⟨⟨?_, rfl, rfl, ?_, fun _ _ => ?_⟩, sight_of_setEcon1 hset rfl rfl⟩
  · exact if_neg (t := t.held.tail) hother
  · rw [hset]
    exact Controller.setRegister_of_ne _ _ (by decide)
  · rw [hset]
    rfl

/-- Without `RXEN` among the bits, frames come in as before. -/
theorem execute_setEcon1_grows (t : Transceiver) (answer : UInt8) {mask : UInt8}
    (hmask : mask &&& ECON1_RXEN = 0) : Grows t (t.execute answer (.set .ECON1 mask)).1 := by
  obtain ⟨huntouched, hsight⟩ := execute_setEcon1 t answer mask
  refine huntouched.grows fun hdeaf => (congrArg Sight.receiving hsight).trans ?_
  rw [(disjoint_masks hmask _).2]
  exact hdeaf

/-- Bits that are no flags of the sight are cleared and set. -/
theorem execute_other (t : Transceiver) (answer : UInt8) {mask : UInt8}
    (hsending : mask &&& ECON1_TXRTS = 0) (hreceiving : mask &&& ECON1_RXEN = 0) :
    (t.execute answer (.clear .ECON1 mask)).1.sight = t.sight ∧
      (t.execute answer (.set .ECON1 mask)).1.sight = t.sight := by
  rw [(execute_clearEcon1 t answer mask).2, (execute_setEcon1 t answer mask).2,
    (disjoint_masks hsending _).1, (disjoint_masks hsending _).2, (disjoint_masks hreceiving _).1,
    (disjoint_masks hreceiving _).2]
  exact ⟨rfl, rfl⟩

/-! ## Brackets -/

/-- `set_bank` gives two commands, and changes the bank-select bits only. -/
theorem selectBank_sight {t : Transceiver} (hidle : t.sight.sending = false) (bank : Int) :
    Grows t (selectBank t bank) ∧ (selectBank t bank).sight = t.sight := by
  have hbits (flag : UInt8) (h : ECON1_BSEL &&& flag = 0) :
      UInt8.ofInt bank &&& ECON1_BSEL &&& flag = 0 := by
    rw [UInt8.and_assoc, h]
    exact UInt8.and_zero
  set cleared := (t.elapse.execute (t.line t.now).answer (.clear .ECON1 ECON1_BSEL)).1
    with hcleared
  have hsight : cleared.sight = t.sight :=
    (execute_other _ _ (by decide) (by decide)).1.trans (elapse_sight hidle)
  have hgrows : Grows t cleared := (elapse_grows t).trans (execute_clearEcon1 _ _ _).1
  have hselected : selectBank t bank = (cleared.elapse.execute (cleared.line cleared.now).answer
      (.set .ECON1 (UInt8.ofInt bank &&& ECON1_BSEL))).1 := rfl
  rw [hselected]
  constructor
  · refine hgrows.trans ((elapse_grows cleared).trans ?_)
    exact execute_setEcon1_grows _ _ (hbits _ (by decide))
  · refine (execute_other _ _ (hbits _ (by decide)) (hbits _ (by decide))).2.trans ?_
    exact (elapse_sight (hsight ▸ hidle)).trans hsight

/-- A bracket whose work looks at the chip at some time `mid`.  What it does to the
bank-select bits does not matter. -/
theorem withBank_rebase {α : Type} {body : ℕ → Bus Transceiver α} {ambient : Int}
    {φ : α → Transceiver → Prop} (hroom : stack.length < BANK_STACK_SIZE)
    (hidle : s.sending = false) (hidle' : s'.sending = false)
    (hbody : Returns (Amid start (ambient :: stack) bank mac s) body fun a port =>
      ∃ mid, φ a mid ∧ Loose mid (ambient :: stack) mac s' port) :
    Returns (Amid start stack ambient mac s) (fun turns => withBank bank (body turns)) fun a port =>
      ∃ mid, φ a mid ∧ Amid mid stack ambient mac s' port := by
  intro port h
  have hport : port.bankStack.length < BANK_STACK_SIZE := h.bankStack ▸ hroom
  obtain ⟨hgrows, hsight⟩ := selectBank_sight (h.sight ▸ hidle) bank
  have hpushed : Amid start (ambient :: stack) bank mac s (pushed port bank) :=
    { bankStack := by rw [pushed, h.bankStack, h.currentBank]
      currentBank := rfl
      macAddress := h.macAddress
      selected := bsel_selectBank port.chip bank
      grows := h.grows.trans hgrows
      sight := hsight.trans h.sight }
  obtain ⟨a, port', ⟨n₀, hends⟩, mid, hφ, h'⟩ := hbody _ hpushed
  obtain ⟨hgrows', hsight'⟩ := selectBank_sight (h'.sight ▸ hidle') port.currentBank
  refine ⟨a, popped port port', ⟨n₀, fun n hn => ?_⟩, mid, hφ, ?_⟩
  · refine withBank_ok hport (hends n hn) ?_
    rw [h'.bankStack, h.bankStack, h.currentBank]
  · exact
      { bankStack := h.bankStack
        currentBank := h.currentBank
        macAddress := h'.macAddress
        selected := h.currentBank ▸ selected_popped port port'
        grows := h'.grows.trans hgrows'
        sight := hsight'.trans h'.sight }

theorem withBank_returns {α : Type} {body : ℕ → Bus Transceiver α} {ambient : Int}
    {φ : α → Prop} (hroom : stack.length < BANK_STACK_SIZE)
    (hidle : s.sending = false) (hidle' : s'.sending = false)
    (hbody : Returns (Amid start (ambient :: stack) bank mac s) body fun a port =>
      φ a ∧ Amid start (ambient :: stack) bank mac s' port) :
    Returns (Amid start stack ambient mac s) (fun turns => withBank bank (body turns)) fun a port =>
      φ a ∧ Amid start stack ambient mac s' port := by
  refine (withBank_rebase (φ := fun a mid => φ a ∧ mid = start) hroom hidle hidle'
    (hbody.weaken fun a port h => ⟨start, ⟨h.1, rfl⟩, h.2.loose⟩)).weaken ?_
  rintro a port ⟨mid, ⟨hφ, rfl⟩, h⟩
  exact ⟨hφ, h⟩

/-! ## Buffer memory -/

/-- A byte of the frames that the chip holds.  `k` counts from the start of the first one. -/
theorem readMemory_returns {p k : ℕ} (hlinked : Linked start p) (hk : k < used start.held)
    (hidle : s.sending = false)
    (hpointer : s.word 0 Register.ERDPTL.address = (p + k) % (RX_END + 1)) :
    Returns (Amid start stack bank mac s) (fun _ => command .readMemory) fun a port =>
      a = start.controller.memory ((p + k) % (RX_END + 1)) ∧
        Amid start stack bank mac
          (s.setWord 0 Register.ERDPTL.address ((p + (k + 1)) % (RX_END + 1))) port := by
  refine command_returns hidle rfl ?_
  intro t answer hgrows _ hsight
  have herdpt : t.controller.erdpt = (p + k) % (RX_END + 1) := by
    rw [← hpointer, ← hsight]
    exact (sight_word t (by decide) (by decide)).symm
  have hnext : (if t.controller.erdpt = RX_END then 0 else t.controller.erdpt + 1) =
      (p + (k + 1)) % (RX_END + 1) := by
    rw [herdpt]
    unfold RX_END
    split_ifs <;> omega
  have hset : (t.execute answer .readMemory).1.controller =
      t.controller.setWord 0 Register.ERDPTL.address ((p + (k + 1)) % (RX_END + 1)) := by
    rw [← hnext]
    rfl
  have hseen := sight_of_setWord hset rfl rfl (by decide) (by decide)
  refine ⟨Untouched.grows ⟨rfl, rfl, rfl, rfl, fun _ _ => rfl⟩ ?_, hsight ▸ hseen, ?_⟩
  · exact (congrArg Sight.receiving hseen).trans
  · show t.controller.memory t.controller.erdpt = _
    rw [herdpt]
    exact hgrows.memory hlinked k hk

/-- `buffer_read` copies bytes of the frames that the chip holds. -/
theorem bufferRead_returns {p : ℕ} (hlinked : Linked start p) (len : ℕ) {k : ℕ} (buf : Bytes)
    (off : ℕ) (hk : k + len ≤ used start.held) {s : Sight} (hidle : s.sending = false)
    (hpointer : s.word 0 Register.ERDPTL.address = (p + k) % (RX_END + 1)) :
    Returns (Amid start stack bank mac s) (fun _ => bufferRead buf off len) fun a port =>
      (∀ i, a i = if off ≤ i ∧ i < off + len then
        start.controller.memory ((p + k + (i - off)) % (RX_END + 1)) else buf i) ∧
      Amid start stack bank mac
        (s.setWord 0 Register.ERDPTL.address ((p + (k + len)) % (RX_END + 1))) port := by
  induction len generalizing k buf off s with
  | zero =>
    refine (Returns.pure buf).mono (fun port h => ⟨fun i => (if_neg (by omega)).symm, ?_⟩)
      fun _ _ h => h
    rw [Nat.add_zero, ← hpointer, Sight.setWord_word]
    exact h
  | succ len ih =>
    have hlt : (p + (k + 1)) % (RX_END + 1) < 65536 := by
      unfold RX_END
      omega
    refine (readMemory_returns hlinked (by omega) hidle hpointer).seq fun byte => ?_
    refine Returns.assume fun hbyte => ?_
    refine (ih (k := k + 1) _ (off + 1) (by omega) ?_ ?_).weaken fun a port h => ?_
    · exact hidle
    · exact Sight.word_setWord _ _ _ hlt
    obtain ⟨hbytes, hport⟩ := h
    rw [Sight.setWord_setWord, show k + 1 + len = k + (len + 1) by omega] at hport
    refine ⟨fun i => (hbytes i).trans ?_, hport⟩
    rcases Nat.lt_trichotomy i off with h | rfl | h
    · rw [if_neg (by omega), if_neg (by omega), if_neg (by omega)]
    · rw [if_neg (by omega), if_pos rfl, if_pos (by omega), Nat.sub_self, Nat.add_zero]
      exact hbyte
    · rw [if_neg (show i ≠ off by omega),
        show p + (k + 1) + (i - (off + 1)) = p + k + (i - off) by omega]
      exact if_congr (by omega) rfl rfl

end Bus

/-! ## What a call does -/

/-- Between two calls nothing is sent, frames are received, `ERDPT` stands at position `p`,
and the ring is the one from `0` to `RX_END`. -/
structure AtRest (p : ℕ) (s : Sight) : Prop where
  idle : s.sending = false
  receiving : s.receiving = true
  erdpt : s.word 0 Register.ERDPTL.address = p % (RX_END + 1)
  erxst : s.word 0 Register.ERXSTL.address = 0
  erxnd : s.word 0 Register.ERXNDL.address = RX_END

/-- The sight with the read pointer at a position. -/
def readingAt (s : Sight) (position : ℕ) : Sight :=
  s.setWord 0 Register.ERDPTL.address (position % (RX_END + 1))

theorem word_readingAt (s : Sight) (position : ℕ) :
    (readingAt s position).word 0 Register.ERDPTL.address = position % (RX_END + 1) := by
  apply Sight.word_setWord
  unfold RX_END
  omega

@[simp] theorem readingAt_readingAt (s : Sight) (position position' : ℕ) :
    readingAt (readingAt s position) position' = readingAt s position' :=
  Sight.setWord_setWord _ _ _ _ _

/-- The sight after a call that has taken a frame. -/
theorem AtRest.taken {p : ℕ} {s : Sight} (h : AtRest p s) (position erxrdpt : ℕ) (data : UInt8) :
    AtRest position (((readingAt s position).setWord 0 Register.ERXRDPTL.address erxrdpt).set 0
      ECON2 data) where
  idle := h.idle
  receiving := h.receiving
  erdpt := by
    rw [Sight.word_set_of_ne _ _ (by decide), Sight.word_setWord_of_ne _ _ _ (by decide)]
    exact word_readingAt s position
  erxst := by
    rw [Sight.word_set_of_ne _ _ (by decide), Sight.word_setWord_of_ne _ _ _ (by decide), readingAt,
      Sight.word_setWord_of_ne _ _ _ (by decide), h.erxst]
  erxnd := by
    rw [Sight.word_set_of_ne _ _ (by decide), Sight.word_setWord_of_ne _ _ _ (by decide), readingAt,
      Sight.word_setWord_of_ne _ _ _ (by decide), h.erxnd]

/-- The driver and the chip between two calls. -/
structure Between (p : ℕ) (port : Port Transceiver) : Prop where
  room : port.bankStack.length < BANK_STACK_SIZE
  currentBank : port.currentBank = 0
  selected : Chip.bsel port.chip = BitVec.ofInt 2 0
  linked : Linked port.chip p
  rest : AtRest p port.chip.sight

/-- The EtherType is turned round twice. -/
theorem htonEth_htonEth (buffer : Bytes) : Bus.htonEth (Bus.htonEth buffer) = buffer := by
  funext i
  unfold Bus.htonEth swap16
  by_cases h12 : i = 12
  · simp [h12]
  · by_cases h13 : i = 13
    · simp [h13]
    · simp [h12, h13]

/-- The frame of a packet that `get_packet` has filled in, as it was before `ntoh_eth`. -/
def PacketMemory.received (packet : PacketMemory) : EthPacket where
  buffer := if packet.length + 4 < 14 then packet.buffer else swap16 packet.buffer 12
  length := packet.length

/-- The packet holds the frame, and its type is that of the bytes in it, also where the frame
is too short to have one. -/
structure Brings (frame : List UInt8) (packet : PacketMemory) : Prop extends
    Delivers frame packet where
  ownType : packet.type = some packet.received.type
  ownBytes : ∀ i, (h : i < frame.length) → packet.received.buffer i = frame[i]

theorem received_fillPacket (packet : PacketMemory) (buffer : Bytes) (size : Int) :
    (fillPacket packet buffer size).received = ⟨buffer, size - 4⟩ := by
  unfold PacketMemory.received
  rw [fillPacket_buffer, fillPacket_length, Int.sub_add_cancel]
  split_ifs
  · rfl
  · rw [show swap16 (ntohEth buffer) 12 = Bus.htonEth (Bus.htonEth buffer) from rfl,
      htonEth_htonEth]

theorem brings_fillPacket (packet : PacketMemory) {buffer : Bytes} {frame : List UInt8}
    (hbytes : ∀ i, (h : i < frame.length) → buffer i = frame[i]) :
    Brings frame (fillPacket packet buffer (sizeOf frame)) :=
  { delivers_fillPacket packet hbytes with
    ownType := by rw [received_fillPacket, fillPacket_type]
    ownBytes := by rwa [received_fillPacket] }

/-- From `t` to `t'` the driver has read the frames `read`, the first ones that the chip
held or has stored since, and the chip has sent the frames `sent`. -/
structure Passed (t t' : Transceiver) (read sent : List (List UInt8)) : Prop where
  frames : ∃ new, t.held.map Prod.snd ++ new = read ++ t'.held.map Prod.snd ∧
    t'.stored = t.stored ++ new
  sent : t'.sent = t.sent ++ sent
  line : t'.line = t.line

theorem Passed.trans {t t' t'' : Transceiver} {read read' sent sent' : List (List UInt8)}
    (h : Passed t t' read sent) (h' : Passed t' t'' read' sent') :
    Passed t t'' (read ++ read') (sent ++ sent') where
  frames := by
    obtain ⟨new, hframes, hstored⟩ := h.frames
    obtain ⟨new', hframes', hstored'⟩ := h'.frames
    refine ⟨new ++ new', ?_, ?_⟩
    · rw [← List.append_assoc, hframes, List.append_assoc, hframes', List.append_assoc]
    · rw [hstored', hstored, List.append_assoc]
  sent := by rw [h'.sent, h.sent, List.append_assoc]
  line := h'.line.trans h.line

/-- A frame that the chip held is read, or held still. -/
theorem Passed.length {t t' : Transceiver} {read sent : List (List UInt8)}
    (h : Passed t t' read sent) : t.held.length ≤ read.length + t'.held.length := by
  obtain ⟨new, hframes, -⟩ := h.frames
  have hlength := congrArg List.length hframes
  simp only [List.length_append, List.length_map] at hlength
  omega

/-- A call that starts on the chip `start` is over: it has sent the frames `sent`, and the
frames that it has got past are those that it delivers, apart from what is too long.  These are
at least `takes` frames, if the chip held so many. -/
def Over (start : Transceiver) (sent : List (List UInt8)) (takes : ℕ)
    (delivered : List PacketMemory) (port : Port Transceiver) : Prop :=
  ∃ read p, Passed start port.chip read sent ∧ Between p port ∧
    List.Forall₂ Brings (fitting read) delivered ∧ min takes start.held.length ≤ read.length

/-- The next call may start, on the same line. -/
theorem Over.next {start : Transceiver} {sent : List (List UInt8)} {takes : ℕ}
    {delivered : List PacketMemory} {port : Port Transceiver}
    (h : Over start sent takes delivered port) :
    ∃ p, Between p port ∧ port.chip.line = start.line := by
  obtain ⟨_, p, hpassed, hbetween, -⟩ := h
  exact ⟨p, hbetween, hpassed.line⟩

theorem Over.trans {start : Transceiver} {sent sent' : List (List UInt8)} {takes takes' : ℕ}
    {delivered delivered' : List PacketMemory} {port port' : Port Transceiver}
    (h : Over start sent takes delivered port)
    (h' : Over port.chip sent' takes' delivered' port') :
    Over start (sent ++ sent') (takes + takes') (delivered ++ delivered') port' := by
  obtain ⟨read, p, hpassed, -, hbrings, htakes⟩ := h
  obtain ⟨read', p', hpassed', hbetween', hbrings', htakes'⟩ := h'
  have hsplit : fitting (read ++ read') = fitting read ++ fitting read' :=
    List.filter_append read read'
  have hlength := hpassed.length
  refine ⟨read ++ read', p', hpassed.trans hpassed', hbetween', ?_, ?_⟩
  · rw [hsplit]
    exact List.rel_append hbrings hbrings'
  · rw [List.length_append]
    omega

/-- Time alone reads nothing. -/
theorem Grows.passed {t t' : Transceiver} {sent : List (List UInt8)} (h : Grows t t')
    (hsent : t'.sent = t.sent ++ sent) (hline : t'.line = t.line) : Passed t t' [] sent where
  frames := by
    obtain ⟨new, hheld, hstored⟩ := h.frames
    refine ⟨new.map Prod.snd, ?_, hstored⟩
    rw [hheld, List.map_append, List.nil_append]
  sent := hsent
  line := hline

/-- A call may start. -/
theorem Between.amid {p : ℕ} {port : Port Transceiver} (h : Between p port) :
    Amid port.chip port.bankStack 0 port.macAddress port.chip.sight port :=
  ⟨rfl, h.currentBank, rfl, h.selected, .refl _, rfl⟩

/-- A call is over. -/
theorem Amid.between {start : Transceiver} {stack : List Int} {mac : EthMac} {s : Sight} {p : ℕ}
    {port : Port Transceiver} (h : Amid start stack 0 mac s port)
    (hroom : stack.length < BANK_STACK_SIZE)
    (hlinked : Linked port.chip p) (hrest : AtRest p s) : Between p port :=
  ⟨h.bankStack ▸ hroom, h.currentBank, h.selected, hlinked, h.sight ▸ hrest⟩

/-- The packet of a call that returned a frame. -/
def given (result : PacketMemory × Bool) : List PacketMemory :=
  if result.2 then [result.1] else []

namespace Bus

variable {start : Transceiver} {stack : List Int} {bank : Int} {mac : EthMac} {s s' : Sight}

/-- The count is that of some time `mid`. -/
theorem readCount_returns (hb : (BitVec.ofInt 2 bank).toNat = 1) (hidle : s.sending = false) :
    Returns (Amid start stack bank mac s) (fun _ => readControlRegister .EPKTCNT) fun a port =>
      ∃ mid, (Grows start mid ∧ a = mid.controller.epktcnt) ∧ Amid mid stack bank mac s port := by
  refine .of_ok fun port h => ⟨_, _, rfl, port.chip.elapse, ⟨?_, ?_⟩, ?_⟩
  · exact h.grows.trans (elapse_grows port.chip)
  · have hbank := bankOf_eq hb ((elapse_bsel port.chip).trans h.selected)
      (show EPKTCNT < EIE by decide)
    have hlive : ¬ Transceiver.Live port.chip.elapse.controller .EPKTCNT := by
      rintro (heq | hle)
      · exact absurd heq (by decide)
      · rw [show Register.EPKTCNT.address = EPKTCNT from rfl, hbank] at hle
        omega
    show (if _ then _ else port.chip.elapse.controller.registers _ _) = _
    rw [if_neg hlive, show Register.EPKTCNT.address = EPKTCNT from rfl, hbank]
    rfl
  · refine ⟨h.bankStack, h.currentBank, h.macAddress, ?_,
      Untouched.grows ⟨rfl, rfl, rfl, rfl, fun _ _ => rfl⟩ id, ?_⟩
    · exact (Chip.bsel_step _ _).trans h.selected
    · exact (elapse_sight (h.sight ▸ hidle)).trans h.sight

/-- The first frame of `start` is released, and nothing is sent. -/
structure Took (start : Transceiver) (rest : List (ℕ × List UInt8)) (s : Sight) (p : ℕ)
    (port : Port Transceiver) : Prop where
  frames : ∃ new, port.chip.held = rest ++ new ∧
    port.chip.stored = start.stored ++ new.map Prod.snd
  sent : port.chip.sent = s.sent
  line : port.chip.line = s.line
  between : Between p port

/-- What setting `PKTDEC` does. -/
theorem execute_pktdec (t : Transceiver) (answer : UInt8) {t' : Transceiver}
    (ht' : t' = (t.execute answer (.set .ECON2 ECON2_PKTDEC)).1) :
    t'.held = t.held.tail ∧ t'.stored = t.stored ∧ t'.writePointer = t.writePointer ∧
      t'.controller.memory = t.controller.memory ∧
      t'.controller.epktcnt = t.controller.epktcnt - 1 ∧
      ∃ data, t'.sight = t.sight.set 0 EthTransfer.ECON2 data := by
  have hdec : Register.ECON2.address = EthTransfer.ECON2 ∧ ECON2_PKTDEC &&& ECON2_PKTDEC ≠ 0 :=
    ⟨rfl, by decide⟩
  set data := t.controller.registers 0 EthTransfer.ECON2 |||
    (ECON2_PKTDEC &&& ~~~ECON2_PKTDEC) with hdata
  set written : Transceiver :=
    { t with controller := t.controller.setRegister 0 EthTransfer.ECON2 data } with hwritten
  have hset : t'.controller =
      written.controller.setRegister 1 EthTransfer.EPKTCNT (t.controller.epktcnt - 1) := by
    rw [ht', execute_controller, Controller.step, EthTransfer.setControlRegister, if_pos hdec]
    rfl
  have hheld : t'.held = t.held.tail := by
    rw [ht']
    exact if_pos (e := t.held) hdec
  have hstored : t'.stored = t.stored := ht' ▸ rfl
  have hwrite : t'.writePointer = t.writePointer := ht' ▸ rfl
  have hsent : t'.sent = t.sent := ht' ▸ rfl
  have hline : t'.line = t.line := ht' ▸ rfl
  refine ⟨hheld, hstored, hwrite, ?_, ?_, data, ?_⟩
  · rw [hset]
    rfl
  · rw [hset]
    exact Controller.setRegister_same _ _ _ _
  · have hfile : written.sight = t.sight.set 0 EthTransfer.ECON2 data :=
      sight_of_setRegister rfl rfl rfl (by decide)
    rw [← hfile]
    exact sight_of_setCount hset hsent hline

/-- Setting `PKTDEC` releases the first frame. -/
theorem release_returns {p r : ℕ} {frame : List UInt8} {rest : List (ℕ × List UInt8)}
    (hlinked : Linked start p) (hheld : start.held = (r, frame) :: rest)
    (hroom : stack.length < BANK_STACK_SIZE)
    (hrest : ∀ data, AtRest (p + (6 + sizeOf frame)) (s.set 0 EthTransfer.ECON2 data)) :
    Returns (Amid start stack 0 mac s) (fun _ => setControlRegister .ECON2 ECON2_PKTDEC)
      fun _ port => Took start rest s (p + (6 + sizeOf frame)) port := by
  refine unanswered (Q := fun _ => True) (.of_ok fun port h => ⟨_, _, rfl, trivial, ?_⟩)
  have hgrows : Grows start port.chip.elapse := h.grows.trans (elapse_grows port.chip)
  have hsight : port.chip.elapse.sight = s :=
    (elapse_sight (h.sight ▸ (hrest 0).idle)).trans h.sight
  have hstep : (Chip.step port.chip (.set .ECON2 ECON2_PKTDEC)).1 =
      (port.chip.elapse.execute (port.chip.line port.chip.now).answer
        (.set .ECON2 ECON2_PKTDEC)).1 := rfl
  obtain ⟨hheld', hstored, hwrite, hmemory, hcount, data, hdata⟩ := execute_pktdec _ _ hstep
  obtain ⟨new, hnew, hstored'⟩ := hgrows.frames
  rw [hheld, List.cons_append] at hnew
  rw [hnew, List.tail_cons] at hheld'
  rw [hsight] at hdata
  exact
    { frames := ⟨new, hheld', hstored.trans hstored'⟩
      sent := congrArg Sight.sent hdata
      line := congrArg Sight.line hdata
      between :=
        { room := (congrArg List.length h.bankStack).trans_lt hroom
          currentBank := h.currentBank
          selected := (Chip.bsel_step _ _).trans h.selected
          linked := (hgrows.linked hlinked).release hnew hheld' hmemory hwrite hcount
          rest := hdata ▸ hrest data } }

/-! ## `get_packet` -/

section Taking

variable {p r : ℕ} {frame : List UInt8} {rest : List (ℕ × List UInt8)}

/-- The pointer before the first frame. -/
theorem readBufferShort_returns (hlinked : Linked start p)
    (hheld : start.held = (r, frame) :: rest) (hidle : s.sending = false)
    (herdpt : s.word 0 Register.ERDPTL.address = p % (RX_END + 1)) :
    Returns (Amid start stack bank mac s) (fun _ => readBufferShort) fun a port =>
      a = (p + (6 + sizeOf frame)) % (RX_END + 1) ∧
        Amid start stack bank mac (readingAt s (p + 2)) port := by
  have hqueued := hlinked.queued
  have hused : used start.held = 6 + sizeOf frame + used rest := by simp [hheld, used]
  rw [hheld] at hqueued
  obtain ⟨hr, ⟨status, hold⟩, -⟩ := hqueued
  have hpointer : pointerAt start.controller.memory (p % (RX_END + 1)) =
      (p + (6 + sizeOf frame)) % (RX_END + 1) := by
    rw [pointerAt_of_holds hold, hr, nextAddress_eq hlinked.even]
  refine (bufferRead_returns hlinked 2 (k := 0) _ 0 (by omega) hidle herdpt).seq fun buf => ?_
  refine (Returns.pure _).mono (fun port h => ?_) fun _ _ h => h
  obtain ⟨hbytes, hport⟩ := h
  refine ⟨?_, hport⟩
  have hlow := hbytes 0
  have hhigh := hbytes 1
  rw [if_pos (by omega), Nat.sub_zero, Nat.add_zero] at hlow hhigh
  rw [hlow, hhigh, ← hpointer, pointerAt, ← Nat.shiftLeft_add_eq_or_of_lt (UInt8.toNat_lt _),
    Nat.shiftLeft_eq, Nat.mod_add_mod]
  omega

/-- The status behind the pointer. -/
theorem readBufferInt_returns (hlinked : Linked start p)
    (hheld : start.held = (r, frame) :: rest) (hidle : s.sending = false)
    (herdpt : s.word 0 Register.ERDPTL.address = (p + 2) % (RX_END + 1)) :
    Returns (Amid start stack bank mac s) (fun _ => readBufferInt) fun _ port =>
      Amid start stack bank mac (readingAt s (p + 6)) port := by
  have hused : used start.held = 6 + sizeOf frame + used rest := by simp [hheld, used]
  refine (bufferRead_returns hlinked 4 (k := 2) _ 0 (by omega) hidle herdpt).seq fun buf => ?_
  exact (Returns.pure _).mono (fun port h => h.2) fun _ _ h => h

/-- The bytes of the first frame, or nothing of it when it is too long. -/
theorem readFrame_returns (hlinked : Linked start p)
    (hheld : start.held = (r, frame) :: rest) (hb : (BitVec.ofInt 2 bank).toNat = 0)
    (hidle : s.sending = false)
    (herdpt : s.word 0 Register.ERDPTL.address = (p + 6) % (RX_END + 1)) (packet : PacketMemory) :
    Returns (Amid start stack bank mac s)
      (fun _ => readFrame packet (sizeOf frame) ((p + (6 + sizeOf frame)) % (RX_END + 1)))
      fun a port => ((sizeOf frame : Int) ≤ PACKET_MAX_SIZE →
          ∀ i, (h : i < frame.length) → a i = frame[i]) ∧
        Amid start stack bank mac (readingAt s (p + (6 + sizeOf frame))) port := by
  have hqueued := hlinked.queued
  have hused : used start.held = 6 + sizeOf frame + used rest := by simp [hheld, used]
  rw [hheld] at hqueued
  obtain ⟨-, ⟨status, hold⟩, -⟩ := hqueued
  refine Returns.ite (fun hfits => ?_) fun hlong => ?_
  · refine (bufferRead_returns hlinked _ (k := 6) _ 0 ?_ hidle herdpt).weaken fun a port h => ?_
    · rw [Int.toNat_natCast]
      omega
    · rw [Int.toNat_natCast] at h
      refine ⟨fun _ i hi => ?_, h.2⟩
      have hbyte := frame_of_holds hold packet.buffer hi
      have hsize := length_le_sizeOf frame
      rw [RingBuffer.load, if_pos (by omega), Nat.add_assoc, Nat.mod_add_mod] at hbyte
      rw [h.1 i, if_pos (by omega), Nat.sub_zero, Nat.add_assoc]
      exact hbyte
  · refine (writeControlRegisterWord_returns hb (by decide) (by decide) hidle _).seq fun _ => ?_
    exact (Returns.pure _).mono (fun port h => ⟨fun hfits => absurd hfits hlong, h⟩)
      fun _ _ h => h

/-- A call that finds a frame. -/
theorem takeFrame_returns (hlinked : Linked start p)
    (hheld : start.held = (r, frame) :: rest) (hroom : stack.length < BANK_STACK_SIZE)
    (hrest : AtRest p s) (packet : PacketMemory) :
    Returns (Amid start stack 0 mac s) (fun _ => do
        let readPointer ← withBank 0 (readControlRegisterWord .ERDPTL)
        let nextPacket ← readBufferShort
        let size := storedSize nextPacket readPointer
        let _status ← readBufferInt
        let buffer ← readFrame packet size nextPacket
        withBank 0 (writeControlRegisterWord .ERXRDPTL nextPacket)
        setControlRegister .ECON2 ECON2_PKTDEC
        if size > PACKET_MAX_SIZE then return ({ packet with type := none }, false)
        else return (fillPacket packet buffer size, true))
      fun result port => Took start rest s (p + (6 + sizeOf frame)) port ∧
        List.Forall₂ Brings (fitting [frame]) (given result) := by
  have hidle := hrest.idle
  have hfits := hlinked.fits
  have hused : used start.held = 6 + sizeOf frame + used rest := by simp [hheld, used]
  refine (withBank_returns hroom hidle hidle (readControlRegisterWord_returns rfl (by decide)
    (by decide) (by decide) (by decide) hidle)).seq fun readPointer => ?_
  refine Returns.assume fun hreadPointer => ?_
  refine (readBufferShort_returns hlinked hheld hidle hrest.erdpt).seq fun nextPacket => ?_
  refine Returns.assume fun hnextPacket => ?_
  have hsize : storedSize nextPacket readPointer = sizeOf frame := by
    rw [hnextPacket, hreadPointer]
    refine (congrArg (storedSize _) hrest.erdpt).trans ?_
    exact storedSize_eq p (by omega)
  dsimp only
  rw [hsize, hnextPacket]
  have hidle' (q : ℕ) : (readingAt s q).sending = false := hidle
  refine (readBufferInt_returns hlinked hheld (hidle' _) (word_readingAt s _)).seq fun _ => ?_
  rw [readingAt_readingAt]
  have hzero : (BitVec.ofInt 2 0).toNat = 0 := rfl
  refine (readFrame_returns hlinked hheld hzero (hidle' _) (word_readingAt s _) packet).seq
    fun buffer => ?_
  rw [readingAt_readingAt]
  refine Returns.assume fun hbytes => ?_
  refine (withBank_returns (φ := fun _ => True) hroom (hidle' _) ?_
    ((writeControlRegisterWord_returns hzero (by decide) (by decide) (hidle' _) _).weaken
      fun _ _ h => ⟨trivial, h⟩)).seq fun _ => ?_
  · exact hidle
  refine Returns.assume fun _ => ?_
  refine (release_returns hlinked hheld hroom fun data => hrest.taken _ _ data).seq fun _ => ?_
  refine Returns.ite (fun hlong => ?_) fun hshort => ?_
  · have hnone : fitting [frame] = [] := by simp [fitting, not_le.mpr hlong]
    refine (Returns.pure _).mono (fun port h => ⟨⟨h.frames, h.sent, h.line, h.between⟩, ?_⟩)
      fun _ _ h => h
    rw [hnone]
    exact .nil
  · have hle : (sizeOf frame : Int) ≤ PACKET_MAX_SIZE := not_lt.mp hshort
    have hone : fitting [frame] = [frame] := by simp [fitting, hle]
    refine (Returns.pure _).mono (fun port h => ⟨⟨h.frames, h.sent, h.line, h.between⟩, ?_⟩)
      fun _ _ h => h
    rw [hone]
    exact .cons (brings_fillPacket packet (hbytes hle)) .nil

end Taking

/-- `get_packet` takes the frame that is the first one when it reads `EPKTCNT`, if there is
one, whatever comes in during the call. -/
theorem getPacket_returns {p : ℕ} {port : Port Transceiver} (h : Between p port)
    (packet : PacketMemory) :
    Returns (fun port' => port' = port) (fun _ => getPacket packet) fun result port' =>
      Over port.chip [] 1 (given result) port' := by
  have hidle := h.rest.idle
  rw [getPacket_eq]
  refine Returns.mono (P := Amid port.chip port.bankStack 0 port.macAddress port.chip.sight) ?_
    (fun _ heq => heq ▸ h.amid) fun _ _ hover => hover
  have hcount : (BitVec.ofInt 2 1).toNat = 1 := rfl
  refine (withBank_rebase h.room hidle hidle ((readCount_returns hcount hidle).weaken
    fun _ _ hread => hread.imp fun _ hmid => ⟨hmid.1, hmid.2.loose⟩)).seq fun count => ?_
  refine Returns.ghost fun mid => Returns.assume fun hmid => ?_
  obtain ⟨hgrows, rfl⟩ := hmid
  have hlinked := hgrows.linked h.linked
  obtain ⟨new, hheld, hstored⟩ := hgrows.frames
  refine Returns.ite (fun hzero => ?_) fun hsome => ?_
  · refine (Returns.pure _).mono (fun port' hport => ?_) fun _ _ hover => hover
    refine ⟨[], p, ?_, ?_, .nil, ?_⟩
    · refine (hgrows.trans hport.grows).passed ?_ (congrArg Sight.line hport.sight)
      rw [List.append_nil]
      exact congrArg Sight.sent hport.sight
    · exact hport.between h.room (hport.grows.linked hlinked) h.rest
    · have hnone : mid.held.length = 0 := by rw [← hlinked.count, hzero]; rfl
      rw [hheld, List.length_append] at hnone
      exact (min_le_right _ _).trans (Nat.le_of_add_right_le hnone.le)
  · obtain ⟨⟨r, frame⟩, rest, hcons⟩ : ∃ f rest, mid.held = f :: rest := by
      refine List.exists_cons_of_ne_nil fun hnil => hsome ?_
      apply UInt8.toNat_inj.mp
      rw [hlinked.count, hnil]
      rfl
    refine (takeFrame_returns hlinked hcons h.room h.rest packet).weaken fun _ port' hpost => ?_
    obtain ⟨⟨⟨new', hheld', hstored'⟩, hsent, hline, hbetween⟩, hgiven⟩ := hpost
    refine ⟨[frame], _, ⟨⟨new.map Prod.snd ++ new'.map Prod.snd, ?_, ?_⟩, ?_, hline⟩, hbetween,
      hgiven, min_le_left _ _⟩
    · rw [← List.append_assoc, ← List.map_append, ← hheld, hcons, hheld']
      simp
    · rw [hstored', hstored, List.append_assoc]
    · rw [hsent, List.append_nil]
      rfl

end Bus

/-! ## `send_packet` -/

/-- `send_packet` does not refuse the packet. -/
def Sendable (packet : PacketMemory) : Prop :=
  packet.type ≠ none ∧ 0 ≤ packet.length ∧ packet.length ≤ PACKET_MAX_SIZE

instance (packet : PacketMemory) : Decidable (Sendable packet) :=
  inferInstanceAs (Decidable (_ ∧ _ ∧ _))

/-- The frame that is sent for a packet: its bytes, with the EtherType in network order. -/
def framesOf (packet : PacketMemory) : List (List UInt8) :=
  if Sendable packet then [(List.range packet.length.toNat).map (Bus.htonEth packet.buffer)] else []

/-- The sight after `len` bytes of a buffer went to place `j` of the transmit buffer. -/
def put (s : Sight) (j : ℕ) (buf : Bytes) (off len : ℕ) : Sight :=
  Sight.setWord { s with transmitBuffer := RingBuffer.memcpy s.transmitBuffer j buf off len }
    0 Register.EWRPTL.address (TX_START + (j + len))

theorem put_zero {s : Sight} {j : ℕ} (buf : Bytes) (off : ℕ)
    (hpointer : s.word 0 Register.EWRPTL.address = TX_START + j) : put s j buf off 0 = s := by
  have hsame : RingBuffer.memcpy s.transmitBuffer j buf off 0 = s.transmitBuffer :=
    funext fun i => if_neg (by omega)
  rw [put, hsame, Nat.add_zero, ← hpointer]
  exact Sight.setWord_word s _ _

theorem put_put (s : Sight) (j : ℕ) (buf : Bytes) (off len len' : ℕ) :
    put (put s j buf off len) (j + len) buf (off + len) len' = put s j buf off (len + len') := by
  have hbytes : RingBuffer.memcpy (RingBuffer.memcpy s.transmitBuffer j buf off len) (j + len) buf
      (off + len) len' = RingBuffer.memcpy s.transmitBuffer j buf off (len + len') := by
    funext i
    unfold RingBuffer.memcpy
    split_ifs <;> first | rfl | omega | exact congrArg buf (by omega)
  unfold put
  rw [← hbytes, ← Nat.add_assoc j]
  exact Sight.setWord_setWord { s with
    transmitBuffer := RingBuffer.memcpy (RingBuffer.memcpy s.transmitBuffer j buf off len) (j + len)
      buf (off + len) len' } 0 _ (TX_START + (j + len)) _

theorem word_put (s : Sight) (j : ℕ) (buf : Bytes) (off len : ℕ)
    (h : TX_START + (j + len) ≤ MEM_HIGH) :
    (put s j buf off len).word 0 Register.EWRPTL.address = TX_START + (j + len) := by
  apply Sight.word_setWord
  unfold MEM_HIGH at h
  omega

namespace Bus

variable {start : Transceiver} {stack : List Int} {bank : Int} {mac : EthMac} {s : Sight}

theorem writeMemory_returns {j : ℕ} (hidle : s.sending = false)
    (hpointer : s.word 0 Register.EWRPTL.address = TX_START + j) (hroom : TX_START + j < MEM_HIGH)
    (buf : Bytes) (off : ℕ) :
    Returns (Amid start stack bank mac s) (fun _ => command (.writeMemory (buf off)))
      fun _ => Amid start stack bank mac (put s j buf off 1) := by
  refine (command_returns (Q := fun _ => True) hidle rfl ?_).weaken fun _ _ h => h.2
  intro t answer _ _ hsight
  have hword : t.controller.word 0 Register.EWRPTL.address = TX_START + j := by
    rw [← hpointer, ← hsight]
    exact (sight_word t (by decide) (by decide)).symm
  set stored : Transceiver := { t with controller := { t.controller with
    memory := fun i => if i = TX_START + j then buf off else t.controller.memory i } } with hstored
  have hset : (t.execute answer (.writeMemory (buf off))).1.controller =
      stored.controller.setWord 0 Register.EWRPTL.address (TX_START + (j + 1)) := by
    show t.controller.writeByte (buf off) = _
    unfold Controller.writeByte
    rw [hword]
    dsimp only
    rw [if_neg (show TX_START + j ≠ MEM_HIGH by omega)]
    rfl
  have hseen : (t.execute answer (.writeMemory (buf off))).1.sight = put s j buf off 1 := by
    have hbuffer : stored.sight = { t.sight with
        transmitBuffer := RingBuffer.memcpy t.sight.transmitBuffer j buf off 1 } := by
      refine Sight.ext rfl rfl rfl (funext fun i => ?_) rfl rfl
      show ite (TX_START + i = TX_START + j) (buf off) (t.controller.memory (TX_START + i)) =
        RingBuffer.memcpy t.sight.transmitBuffer j buf off 1 i
      unfold RingBuffer.memcpy
      by_cases hi : i = j
      · subst hi
        rw [if_pos rfl, if_pos (by omega), Nat.sub_self, Nat.add_zero]
      · rw [if_neg (by omega), if_neg (by omega)]
        rfl
    rw [put, ← hsight, ← hbuffer]
    exact sight_of_setWord hset rfl rfl (by decide) (by decide)
  refine ⟨Untouched.grows ⟨rfl, rfl, rfl, ?_, fun i hi => ?_⟩ fun hdeaf => ?_, hseen, trivial⟩
  · rw [hset]
    rfl
  · rw [hset]
    exact if_neg (by unfold TX_START; omega)
  · refine (congrArg Sight.receiving hseen).trans ?_
    rw [← hsight] at hseen ⊢
    exact hdeaf

/-- `buffer_write` copies bytes to the transmit buffer. -/
theorem bufferWrite_returns (len : ℕ) {j : ℕ} (buf : Bytes) (off : ℕ) {s : Sight}
    (hidle : s.sending = false)
    (hpointer : s.word 0 Register.EWRPTL.address = TX_START + j)
    (hroom : TX_START + (j + len) ≤ MEM_HIGH) :
    Returns (Amid start stack bank mac s) (fun _ => bufferWrite buf off len)
      fun _ => Amid start stack bank mac (put s j buf off len) := by
  induction len generalizing j off s with
  | zero =>
    rw [put_zero buf off hpointer]
    exact (Returns.pure ()).mono (fun _ h => h) fun _ _ h => h
  | succ len ih =>
    refine (writeMemory_returns hidle hpointer (by omega) buf off).seq fun _ => ?_
    refine (ih (off + 1) ?_ (word_put s j buf off 1 (by omega)) (by omega)).weaken fun _ _ h => ?_
    · exact hidle
    · rwa [put_put, Nat.add_comm 1 len] at h

/-- Setting `TXRTS` starts a transmission. -/
theorem setTxrts_returns (hidle : s.sending = false) :
    Returns (Amid start stack bank mac s) (fun _ => setControlRegister .ECON1 ECON1_TXRTS)
      fun _ => Amid start stack bank mac { s with sending := true } := by
  have hselect : (Command.set .ECON1 ECON1_TXRTS).select (BitVec.ofInt 2 bank) =
      BitVec.ofInt 2 bank := by
    have hnone : lowBits ECON1_TXRTS = 0 := by decide
    show BitVec.ofInt 2 bank ||| lowBits ECON1_TXRTS = _
    rw [hnone]
    exact BitVec.or_zero
  refine unanswered (Q := fun _ => True) (command_returns hidle hselect ?_)
  intro t answer _ _ hsight
  have hmasks : ECON1_TXRTS &&& ECON1_RXEN = 0 := by decide
  have hseen := (execute_setEcon1 t answer ECON1_TXRTS).2
  have hset : (ECON1_TXRTS != 0) = true := by decide
  refine ⟨execute_setEcon1_grows t answer hmasks, ?_, trivial⟩
  rw [hseen, or_and_mask, hset, (disjoint_masks hmasks _).2, ← hsight]
  rfl

/-- A loop that goes round until the time `ends`, and once for every command before it. -/
theorem wait_returns {test : Bus Transceiver Bool} {I R : Port Transceiver → Prop} {ends : ℕ → Prop}
    (hfair : ∀ n, ∃ m ≥ n, ends m)
    (hnow : ∀ port, I port → ends port.chip.now → ∃ port', test port = .ok (false, port') ∧ R port')
    (hlater : ∀ port, I port → ¬ ends port.chip.now → ∃ port', test port = .ok (true, port') ∧
      I port' ∧ port'.chip.now = port.chip.now + 1) :
    Returns I (fun turns => whileDo test .runsOn turns) fun _ => R := by
  refine (Returns.whileDo (I := fun k port => I port ∧ ends (port.chip.now + k)) ?_).mono ?_
    fun _ _ h => h
  · rintro k port ⟨h, hends⟩
    by_cases hcase : ends port.chip.now
    · exact Or.inl (hnow port h hcase)
    · obtain ⟨port', hrun, h', htime⟩ := hlater port h hcase
      have hk : 0 < k := by
        refine Nat.pos_of_ne_zero fun hzero => hcase ?_
        rwa [hzero, Nat.add_zero] at hends
      refine Or.inr ⟨k - 1, by omega, port', hrun, h', ?_⟩
      rwa [htime, show port.chip.now + 1 + (k - 1) = port.chip.now + k by omega]
  · intro port h
    obtain ⟨m, hle, hends⟩ := hfair port.chip.now
    exact ⟨m - port.chip.now, h, by rwa [Nat.add_sub_cancel' hle]⟩

/-- The loop that waits for `TXRTS` ends with the transmission. -/
theorem waitTxrts_returns (hstart : TX_START ≤ s.word 0 Register.ETXSTL.address)
    (hfair : ∀ n, ∃ m ≥ n, (s.line m).finishes = true) :
    Returns (Amid start stack bank mac { s with sending := true })
      (fun turns => whileDo (poll .ECON1 ECON1_TXRTS) .runsOn turns)
      fun _ => Amid start stack bank mac
        { s with sending := false, sent := s.sent ++ [s.outgoing] } := by
  have helapse {port : Port Transceiver}
      (h : Amid start stack bank mac { s with sending := true } port) :
      port.chip.elapse.sight = if (s.line port.chip.now).finishes then
        { s with sending := false, sent := s.sent ++ [s.outgoing] }
      else { s with sending := true } := by
    have hline : port.chip.line = s.line := congrArg Sight.line h.sight
    have hmoment := elapse_sending (congrArg Sight.sending h.sight) (h.sight ▸ hstart)
    rwa [h.sight, hline] at hmoment
  -- the test reads `ECON1` after the time before it
  have htest (port : Port Transceiver) : poll .ECON1 ECON1_TXRTS port =
      .ok (port.chip.elapse.sight.sending,
        { port with chip := (Chip.step port.chip (.read .ECON1)).1 }) := poll_eq _ _ _
  refine wait_returns hfair (fun port h hends => ?_) fun port h hgoes => ?_
  · have hsight := (helapse h).trans (if_pos hends)
    have hrun := htest port
    rw [hsight] at hrun
    exact ⟨_, hrun, h.read _ hsight⟩
  · have hsight := (helapse h).trans (if_neg hgoes)
    have hrun := htest port
    rw [hsight] at hrun
    exact ⟨_, hrun, h.read _ hsight, elapse_now port.chip⟩

end Bus

/-- The sight when the transmission of a frame of `n` bytes starts. -/
def loaded (s : Sight) (buffer : Bytes) (n : ℕ) : Sight :=
  let s := s.setWord 0 Register.EWRPTL.address TX_START
  let s := put (put s 0 (fun _ => 0x0E) 0 1) 1 buffer 0 n
  (s.setWord 0 Register.ETXSTL.address TX_START).setWord 0 Register.ETXNDL.address (TX_START + n)

/-- What is loaded is what will be sent. -/
theorem outgoing_loaded (s : Sight) (buffer : Bytes) {n : ℕ} (hn : TX_START + (1 + n) ≤ MEM_HIGH) :
    (loaded s buffer n).word 0 Register.ETXSTL.address = TX_START ∧
      (loaded s buffer n).outgoing = (List.range n).map buffer := by
  have hetxst : (loaded s buffer n).word 0 Register.ETXSTL.address = TX_START := by
    rw [loaded, Sight.word_setWord_of_ne _ _ _ (by decide)]
    exact Sight.word_setWord _ _ _ (by decide)
  have hetxnd : (loaded s buffer n).word 0 Register.ETXNDL.address = TX_START + n := by
    apply Sight.word_setWord
    unfold MEM_HIGH at hn
    omega
  refine ⟨hetxst, ?_⟩
  unfold Sight.outgoing
  dsimp only
  rw [hetxst, hetxnd, Nat.add_sub_cancel_left]
  refine List.map_congr_left fun i hi => ?_
  rw [List.mem_range] at hi
  rw [show TX_START + 1 + i - TX_START = 1 + i by omega]
  refine (if_pos (show 1 ≤ 1 + i ∧ 1 + i < 1 + n by omega)).trans ?_
  rw [Nat.zero_add, Nat.add_sub_cancel_left]

/-- The pointers of reception are no part of what `send_packet` writes. -/
theorem word_loaded (s : Sight) (buffer : Bytes) (n : ℕ) {address : ℕ}
    (h : address + 1 < Register.EWRPTL.address ∨ Register.ETXNDL.address + 1 < address) :
    (loaded s buffer n).word 0 address = s.word 0 address := by
  have hewrpt : Register.EWRPTL.address = 0x02 := rfl
  have hetxst : Register.ETXSTL.address = 0x04 := rfl
  have hetxnd : Register.ETXNDL.address = 0x06 := rfl
  have hput (s : Sight) (j : ℕ) (buf : Bytes) (len : ℕ) :
      (put s j buf 0 len).word 0 address = s.word 0 address :=
    Sight.word_setWord_of_ne _ _ _ (by omega)
  rw [loaded, Sight.word_setWord_of_ne _ _ _ (by omega), Sight.word_setWord_of_ne _ _ _ (by omega),
    hput, hput, Sight.word_setWord_of_ne _ _ _ (by omega)]

theorem AtRest.sent {s : Sight} {p : ℕ} (h : AtRest p s) (buffer : Bytes) (n : ℕ)
    (sent : List (List UInt8)) :
    AtRest p { loaded s buffer n with sending := false, sent := sent } where
  idle := rfl
  receiving := h.receiving
  erdpt := (word_loaded s buffer n (by decide)).trans h.erdpt
  erxst := (word_loaded s buffer n (by decide)).trans h.erxst
  erxnd := (word_loaded s buffer n (by decide)).trans h.erxnd

namespace Bus

/-- `send_packet` sends the bytes of its packet once, and nothing else, and leaves the packet
as it was. -/
theorem sendPacket_returns {p : ℕ} {port : Port Transceiver} (h : Between p port)
    (hfair : ∀ n, ∃ m ≥ n, (port.chip.line m).finishes = true) (packet : PacketMemory) :
    Returns (fun port' => port' = port) (fun turns => sendPacket packet turns)
      fun result port' => result = (packet, decide (Sendable packet)) ∧
        Over port.chip (framesOf packet) 0 [] port' := by
  have hidle := h.rest.idle
  simp only [sendPacket_eq]
  refine Returns.mono (P := Amid port.chip port.bankStack 0 port.macAddress port.chip.sight) ?_
    (fun _ heq => heq ▸ h.amid) fun _ _ hover => hover
  have hrefused (hnot : ¬ Sendable packet) :
      Returns (Amid port.chip port.bankStack 0 port.macAddress port.chip.sight)
        (fun _ => (Pure.pure (packet, false) : Bus Transceiver _)) fun result port' =>
          result = (packet, decide (Sendable packet)) ∧
            Over port.chip (framesOf packet) 0 [] port' := by
    refine (Returns.pure _).mono (fun port' hport => ?_) fun _ _ hover => hover
    rw [decide_eq_false hnot, framesOf, if_neg hnot]
    refine ⟨rfl, [], p, ?_, ?_, .nil, min_le_left _ _⟩
    · refine hport.grows.passed ?_ (congrArg Sight.line hport.sight)
      rw [List.append_nil]
      exact congrArg Sight.sent hport.sight
    · exact hport.between h.room (hport.grows.linked h.linked) h.rest
  refine Returns.ite (fun hnone => hrefused fun hsend => hsend.1 hnone) fun htype => ?_
  refine Returns.ite (fun hrange => hrefused fun hsend => ?_) fun hrange => ?_
  · have hlow := hsend.2.1
    have hhigh := hsend.2.2
    omega
  have hsend : Sendable packet := ⟨htype, by omega, by omega⟩
  obtain ⟨n, hn⟩ := Int.eq_ofNat_of_zero_le hsend.2.1
  have hfits : (n : Int) ≤ PACKET_MAX_SIZE := hn ▸ hsend.2.2
  have hroom : TX_START + (1 + n) ≤ MEM_HIGH := by
    unfold PACKET_MAX_SIZE at hfits
    unfold TX_START RX_END MEM_HIGH
    omega
  have hzero : (BitVec.ofInt 2 0).toNat = 0 := rfl
  have hlast : (TX_START : Int) + n = ((TX_START + n : ℕ) : Int) := rfl
  rw [hn, Int.toNat_natCast, hlast]
  refine (writeControlRegisterWord_returns hzero (by decide) (by decide) hidle _).seq fun _ => ?_
  refine (bufferWrite_returns 1 (j := 0) _ 0 ?_ ?_ (by omega)).seq fun _ => ?_
  · exact hidle
  · exact Sight.word_setWord _ _ _ (by decide)
  refine (bufferWrite_returns n (j := 1) _ 0 ?_ (word_put _ _ _ _ _ ?_) (by omega)).seq fun _ => ?_
  · exact hidle
  · decide
  refine (withBank_returns (φ := fun _ => True) h.room ?_ ?_
    (((writeControlRegisterWord_returns hzero (by decide) (by decide) ?_ _).seq fun _ =>
      writeControlRegisterWord_returns hzero (by decide) (by decide) ?_ _).weaken
        fun _ _ hport => ⟨trivial, hport⟩)).seq fun _ => ?_
  · exact hidle
  · exact hidle
  · exact hidle
  · exact hidle
  refine Returns.assume fun _ => ?_
  refine (setTxrts_returns ?_).seq fun _ => ?_
  · exact hidle
  have hloaded := outgoing_loaded port.chip.sight (htonEth packet.buffer) hroom
  refine (waitTxrts_returns (s := loaded port.chip.sight (htonEth packet.buffer) n)
    hloaded.1.ge hfair).seq fun _ => ?_
  refine (Returns.pure _).mono (fun port' hport => ⟨?_, [], p, ?_, ?_, .nil,
    min_le_left _ _⟩) fun _ _ hover => hover
  · rw [decide_eq_true hsend, htonEth_htonEth, ← hn]
  · refine hport.grows.passed ?_ (congrArg Sight.line hport.sight)
    rw [framesOf, if_pos hsend, hn, Int.toNat_natCast, ← hloaded.2]
    exact congrArg Sight.sent hport.sight
  · exact hport.between h.room (hport.grows.linked h.linked) (h.rest.sent _ _ _)

end Bus

/-! ## Runs -/

/-- A call of `get_packet` or of `send_packet`. -/
inductive LinkCall where
  | receive (packet : PacketMemory)
  | send (packet : PacketMemory)

def LinkCall.run {σ : Type} [Chip σ] : LinkCall → (turns : ℕ) → Bus σ (PacketMemory × Bool)
  | .receive packet, _ => Bus.getPacket packet
  | .send packet, turns => Bus.sendPacket packet turns

/-- Calls one after the other. -/
def runCalls {σ : Type} [Chip σ] :
    List LinkCall → (turns : ℕ) → Bus σ (List (PacketMemory × Bool))
  | [], _ => return []
  | call :: calls, turns => do
    let result ← call.run turns
    let results ← runCalls calls turns
    return result :: results

/-- The frames that a call sends. -/
def LinkCall.frames : LinkCall → List (List UInt8)
  | .receive _ => []
  | .send packet => framesOf packet

/-- The frames that a call takes, if there are any. -/
def LinkCall.takes : LinkCall → ℕ
  | .receive _ => 1
  | .send _ => 0

/-- The packet that a call delivers. -/
def LinkCall.delivered : LinkCall → PacketMemory × Bool → List PacketMemory
  | .receive _, result => given result
  | .send _, _ => []

/-- The packets that the calls deliver. -/
def deliveredBy (calls : List LinkCall) (results : List (PacketMemory × Bool)) :
    List PacketMemory :=
  (List.zipWith LinkCall.delivered calls results).flatten

theorem LinkCall.run_returns {p : ℕ} {port : Port Transceiver} (h : Between p port)
    (hfair : ∀ n, ∃ m ≥ n, (port.chip.line m).finishes = true) (call : LinkCall) :
    Returns (fun port' => port' = port) (fun turns => call.run turns) fun result port' =>
      Over port.chip call.frames call.takes (call.delivered result) port' := by
  cases call with
  | receive packet => exact Bus.getPacket_returns h packet
  | send packet => exact (Bus.sendPacket_returns h hfair packet).weaken fun _ _ hover => hover.2

/-- The calls one by one: each returns, and does what `Over` says, from the chip that it
starts on. -/
inductive CallRun : Port Transceiver → List LinkCall → List (PacketMemory × Bool) →
    Port Transceiver → Prop where
  | nil {port : Port Transceiver} : CallRun port [] [] port
  | cons {port port₁ port₂ : Port Transceiver} {call : LinkCall} {calls : List LinkCall}
      {result : PacketMemory × Bool} {results : List (PacketMemory × Bool)}
      (hends : Ends (fun turns => call.run turns) port result port₁)
      (hover : Over port.chip call.frames call.takes (call.delivered result) port₁)
      (hrest : CallRun port₁ calls results port₂) :
      CallRun port (call :: calls) (result :: results) port₂

/-- What the calls do together. -/
theorem CallRun.over {p : ℕ} {port port' : Port Transceiver} {calls : List LinkCall}
    {results : List (PacketMemory × Bool)} (hrun : CallRun port calls results port')
    (h : Between p port) :
    Over port.chip (calls.flatMap LinkCall.frames) (calls.map LinkCall.takes).sum
      (deliveredBy calls results) port' := by
  induction hrun generalizing p with
  | nil =>
    exact ⟨[], p, (Grows.refl _).passed (List.append_nil _).symm rfl, h, .nil, min_le_left _ _⟩
  | cons hends hover hrest ih =>
    obtain ⟨p', hbetween, -⟩ := hover.next
    exact hover.trans (ih hbetween)

theorem runCalls_returns {p : ℕ} {port : Port Transceiver} (h : Between p port)
    (hfair : ∀ n, ∃ m ≥ n, (port.chip.line m).finishes = true) (calls : List LinkCall) :
    Returns (fun port' => port' = port) (fun turns => runCalls calls turns) fun results port' =>
      CallRun port calls results port' := by
  induction calls generalizing p port with
  | nil => exact (Returns.pure []).mono (fun port' heq => heq ▸ .nil) fun _ _ hrun => hrun
  | cons call calls ih =>
    refine (call.run_returns h hfair).ends.seq fun result => Returns.pointwise fun port₁ hcall => ?_
    obtain ⟨hends, hover⟩ := hcall
    obtain ⟨p', hbetween, hline⟩ := hover.next
    refine (ih hbetween (by rwa [hline])).seq fun results => ?_
    exact (Returns.pure _).mono (fun port₂ hrest => .cons hends hover hrest) fun _ _ h => h

/-- Over every sequence of calls, and whatever comes in between any two commands of them, the
frames that the chip stores are read in their order and none twice, those that fit into a
packet are delivered as they came in, and what is sent are the frames of the packets to send,
in their order.  Every call of `get_packet` takes a frame when the chip holds one. -/
theorem calls_in_step {p : ℕ} {port : Port Transceiver} (h : Between p port)
    (hfair : ∀ n, ∃ m ≥ n, (port.chip.line m).finishes = true) (calls : List LinkCall) :
    ∃ results port', Ends (fun turns => runCalls calls turns) port results port' ∧
      Over port.chip (calls.flatMap LinkCall.frames) (calls.map LinkCall.takes).sum
        (deliveredBy calls results) port' ∧
      CallRun port calls results port' := by
  obtain ⟨results, port', hends, hrun⟩ := runCalls_returns h hfair calls port rfl
  exact ⟨results, port', hends, hrun.over h, hrun⟩

/-- A chip between two calls, on a line that brings a frame before every fourth command. -/
def busyLine : Transceiver where
  controller := ⟨fun _ => 0, fun bank address =>
    if address = ECON1 then ECON1_RXEN else if bank = 0 ∧ address = 0x0A then 0xFF
    else if bank = 0 ∧ address = 0x0B then 0x13 else 0⟩
  writePointer := 0
  held := []
  stored := []
  sent := []
  line n := ⟨if n % 4 = 0 then [(.replicate 4 0, [1, 2, 3])] else [], n % 8 = 7, 0⟩
  now := 0
  defaults := fun _ _ => 0

theorem busyLine_between : Between 0 ⟨busyLine, [], 0, ⟨.replicate 6 0⟩⟩ where
  room := by decide
  currentBank := rfl
  selected := by decide
  linked := ⟨rfl, trivial, Nat.zero_le _, rfl, rfl⟩
  rest := ⟨by decide, by decide, by decide, by decide, by decide⟩

theorem busyLine_finishes (n : ℕ) : ∃ m ≥ n, (busyLine.line m).finishes = true :=
  ⟨8 * n + 7, by omega, decide_eq_true (show (8 * n + 7) % 8 = 7 by omega)⟩

/-- A call of each kind. -/
def busyCalls : List LinkCall :=
  [.receive ⟨fun _ => 0, 0, none⟩, .send ⟨fun _ => 0, 60, some .ip⟩]

theorem calls_in_step_busyLine :
    ∃ results port', Ends (fun turns => runCalls busyCalls turns)
        ⟨busyLine, [], 0, ⟨.replicate 6 0⟩⟩ results port' ∧
      Over busyLine (busyCalls.flatMap LinkCall.frames) (busyCalls.map LinkCall.takes).sum
        (deliveredBy busyCalls results) port' ∧
      CallRun ⟨busyLine, [], 0, ⟨.replicate 6 0⟩⟩ busyCalls results port' :=
  calls_in_step busyLine_between busyLine_finishes busyCalls

end EthTransfer
