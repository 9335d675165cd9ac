import EthTransfer.Driver.Balance

/-!
# The two models of the driver

`Controller` is a chip, and on it `get_packet` of `EthTransfer.Driver.Bus` does what
`getPacket` of `EthTransfer.Driver.GetPacket` does.

* `Mirrors` relates a run on the port to the result of the function that passes the state
  along.
* One lemma for each function, up to `getPacket_mirrors`.
* `getPacket_banks`: what holds of the driver on every chip holds on this one.
-/

namespace EthTransfer

open Program

/-! ## The controller as a chip -/

/-- The last address of the buffer memory. -/
def MEM_HIGH : ℕ := 0x1FFF

/-- One byte of the "write buffer memory" command. -/
def Controller.writeByte (c : Controller) (data : UInt8) : Controller :=
  let address := c.word 0 Register.EWRPTL.address
  let c := { c with memory := fun i => if i = address then data else c.memory i }
  c.setWord 0 Register.EWRPTL.address (if address = MEM_HIGH then 0 else address + 1)

/-- The chip of `EthTransfer.Driver.Enc28j60`, one command at a time. -/
def Controller.step (c : Controller) : Command → Controller × UInt8
  | .read register => (c, c.registers (c.bankOf register.address) register.address)
  | .write register data => (c.setRegister (c.bankOf register.address) register.address data, 0)
  | .clear register data =>
    ((clearControlRegister ⟨c, [], 0⟩ register.address data).controller, 0)
  | .set register data => ((setControlRegister ⟨c, [], 0⟩ register.address data).controller, 0)
  | .readMemory => (c.readByte.2, c.readByte.1)
  | .writeMemory data => (c.writeByte data, 0)

/-- The bits that select the bank. -/
def Controller.bsel (c : Controller) : BitVec 2 := lowBits (c.registers 0 ECON1)

/-- They change when `ECON1` is written, under any bank. -/
theorem Controller.bsel_setRegister (c : Controller) (address : ℕ) (data : UInt8) :
    (c.setRegister (c.bankOf address) address data).bsel =
      if address = ECON1 then lowBits data else c.bsel := by
  by_cases h : address = ECON1
  · subst h
    rw [if_pos rfl]
    exact congrArg lowBits (c.setRegister_same 0 ECON1 data)
  · rw [if_neg h]
    exact congrArg lowBits (c.setRegister_of_ne data fun heq => h heq.2.symm)

theorem lowBits_and_not (old data : UInt8) :
    lowBits (old &&& ~~~data) = lowBits old &&& ~~~lowBits data := by
  unfold lowBits
  rw [UInt8.toBitVec_and, UInt8.toBitVec_not, BitVec.setWidth_and, BitVec.setWidth_not (by decide)]

theorem lowBits_or (old data : UInt8) : lowBits (old ||| data) = lowBits old ||| lowBits data := by
  unfold lowBits
  rw [UInt8.toBitVec_or, BitVec.setWidth_or]

/-- The bank-select bits of the controller do as they are told. -/
theorem Controller.bsel_step (c : Controller) (command : Command) :
    (c.step command).1.bsel = command.select c.bsel := by
  cases command with
  | read register => rfl
  | write register data => exact c.bsel_setRegister register.address data
  | clear register data =>
    refine (c.bsel_setRegister register.address _).trans ?_
    show _ = if register.address = ECON1 then c.bsel &&& ~~~lowBits data else c.bsel
    by_cases h : register.address = ECON1
    · rw [if_pos h, if_pos h, lowBits_and_not, h]
      rfl
    · rw [if_neg h, if_neg h]
  | set register data =>
    show _ = if register.address = ECON1 then c.bsel ||| lowBits data else c.bsel
    by_cases h : register.address = ECON1
    · have hother : ¬ (register.address = ECON2 ∧ data &&& ECON2_PKTDEC ≠ 0) := by
        rintro ⟨heq, -⟩
        exact absurd (h.symm.trans heq) (by decide)
      rw [if_pos h, Controller.step, setControlRegister, if_neg hother]
      refine (c.bsel_setRegister register.address _).trans ?_
      rw [if_pos h, lowBits_or, h]
      rfl
    · rw [if_neg h, Controller.step, setControlRegister]
      -- `PKTDEC` changes `EPKTCNT`, too, which is no part of `ECON1`.
      split
      · exact (c.bsel_setRegister register.address _).trans (if_neg h)
      · exact (c.bsel_setRegister register.address _).trans (if_neg h)
  | readMemory => rfl
  | writeMemory data => rfl

instance : Chip Controller where
  step := Controller.step
  bsel := Controller.bsel
  bsel_step := Controller.bsel_step

/-- The port of a state.  The MAC address is no part of what receiving needs. -/
def Spi.port (spi : Spi) (mac : EthMac) : Port Controller :=
  ⟨spi.controller, spi.bankStack.map Nat.cast, spi.currentBank, mac⟩

/-! ## Mirroring -/

/-- From the port of `spi` the program returns what the function that passes the state along
returns, and it stops where this one has no result. -/
def Mirrors (mac : EthMac) {α : Type} (m : Bus Controller α) (spi : Spi) :
    Option (Spi × α) → Prop
  | some (spi', a) => m (spi.port mac) = .ok (a, spi'.port mac)
  | none => ∃ stop, m (spi.port mac) = .error stop

namespace Bus

variable {α β : Type} {mac : EthMac}

/-- A function that always returns comes first. -/
theorem mirrors_bind {m : Bus Controller α} {f : α → Bus Controller β} {spi spi' : Spi} {a : α}
    {result : Option (Spi × β)} (hm : m (spi.port mac) = .ok (a, spi'.port mac))
    (hf : Mirrors mac (f a) spi' result) : Mirrors mac (m >>= f) spi result := by
  cases result with
  | some result => exact (bind_ok hm).trans hf
  | none =>
    obtain ⟨stop, hstop⟩ := hf
    exact ⟨stop, (bind_ok hm).trans hstop⟩

theorem mirrors_ite {c c' : Prop} [Decidable c] [Decidable c'] {m m' : Bus Controller α}
    {spi : Spi} {result result' : Option (Spi × α)} (hc : c ↔ c')
    (hm : c → Mirrors mac m spi result) (hm' : ¬ c → Mirrors mac m' spi result') :
    Mirrors mac (if c then m else m') spi (if c' then result else result') := by
  by_cases h : c
  · rw [if_pos h, if_pos (hc.mp h)]
    exact hm h
  · rw [if_neg h, if_neg fun h' => h (hc.mpr h')]
    exact hm' h

theorem ofInt_natCast (n : ℕ) : UInt8.ofInt n = UInt8.ofNat n := by
  apply UInt8.toNat_inj.mp
  rw [UInt8.ofInt, UInt8.toNat_ofNat', UInt8.toNat_ofNat']
  omega

/-! ## The functions -/

theorem writeControlRegister_mirrors (spi : Spi) (register : Register) (data : ℕ) :
    writeControlRegister register data (spi.port mac) =
      .ok ((), (EthTransfer.writeControlRegister spi register.address data).port mac) := by
  unfold writeControlRegister
  rw [ofInt_natCast]
  rfl

theorem setControlRegister_mirrors (spi : Spi) (register : Register) (data : UInt8) :
    setControlRegister register data (spi.port mac) =
      .ok ((), (EthTransfer.setControlRegister spi register.address data).port mac) := by
  show Except.ok ((), ({ spi.port mac with
    chip := (EthTransfer.setControlRegister _ register.address data).controller } :
      Port Controller)) = _
  unfold EthTransfer.setControlRegister
  dsimp only
  split <;> rfl

theorem setBank_mirrors (spi : Spi) (bank : ℕ) :
    setBank bank (spi.port mac) = .ok ((), (EthTransfer.setBank spi bank).port mac) := by
  unfold setBank EthTransfer.setBank
  rw [ofInt_natCast]
  exact setControlRegister_mirrors
    (EthTransfer.clearControlRegister { spi with currentBank := bank } ECON1 ECON1_BSEL) .ECON1 _

theorem pushBank_mirrors {f : Unit → Bus Controller α} {spi : Spi} (bank : ℕ)
    {g : Spi → Option (Spi × α)} (hf : ∀ spi', Mirrors mac (f ()) spi' (g spi')) :
    Mirrors mac (pushBank bank >>= f) spi (EthTransfer.pushBank spi bank >>= g) := by
  unfold EthTransfer.pushBank
  by_cases hfull : spi.bankStack.length ≥ BANK_STACK_SIZE
  · rw [if_pos hfull]
    refine ⟨.exhausted, bind_error ?_⟩
    unfold pushBank
    rw [get_bind, if_pos (by rwa [Spi.port, List.length_map])]
    rfl
  · rw [if_neg hfull]
    refine mirrors_bind ?_ (hf _)
    have hroom : (spi.port mac).bankStack.length < BANK_STACK_SIZE := by
      rw [Spi.port, List.length_map]
      omega
    rw [pushBank_eq hroom]
    exact setBank_mirrors { spi with bankStack := spi.currentBank :: spi.bankStack } bank

theorem popBank_mirrors {f : Unit → Bus Controller α} {spi : Spi}
    {g : Spi → Option (Spi × α)} (hf : ∀ spi', Mirrors mac (f ()) spi' (g spi')) :
    Mirrors mac (popBank >>= f) spi (EthTransfer.popBank spi >>= g) := by
  unfold EthTransfer.popBank
  cases hstack : spi.bankStack with
  | nil => exact ⟨.underflow, bind_error (popBank_nil (by rw [Spi.port, hstack]; rfl))⟩
  | cons bank rest =>
    refine mirrors_bind ?_ (hf _)
    rw [popBank_eq (show (spi.port mac).bankStack = _ by rw [Spi.port, hstack]; rfl)]
    exact setBank_mirrors { spi with bankStack := rest } bank

theorem writeControlRegisterWord_mirrors (spi : Spi) (register : Register) (data : ℕ) :
    writeControlRegisterWord register data (spi.port mac) =
      .ok ((), (EthTransfer.writeControlRegisterWord spi register.address data).port mac) :=
  (bind_ok (writeControlRegister_mirrors spi register data)).trans
    (writeControlRegister_mirrors _ register.high _)

theorem readControlRegisterWord_mirrors (spi : Spi) (register : Register) :
    readControlRegisterWord register (spi.port mac) =
      .ok (EthTransfer.readControlRegisterWord spi register.address, spi.port mac) := rfl

theorem bufferRead_mirrors (len : ℕ) (spi : Spi) (buf : Bytes) (off : ℕ) :
    bufferRead buf off len (spi.port mac) =
      .ok ((EthTransfer.bufferRead spi buf off len).1,
        (EthTransfer.bufferRead spi buf off len).2.port mac) := by
  induction len generalizing spi buf off with
  | zero => rfl
  | succ len ih => exact ih { spi with controller := spi.controller.readByte.2 } _ _

theorem readBufferShort_mirrors (spi : Spi) :
    readBufferShort (spi.port mac) =
      .ok ((EthTransfer.readBufferShort spi).1, (EthTransfer.readBufferShort spi).2.port mac) := rfl

theorem readBufferInt_mirrors (spi : Spi) :
    readBufferInt (spi.port mac) =
      .ok ((EthTransfer.readBufferInt spi).1, (EthTransfer.readBufferInt spi).2.port mac) := rfl

theorem readFrame_mirrors (spi : Spi) (packet : PacketMemory) (size : Int) (nextPacket : ℕ) :
    readFrame packet size nextPacket (spi.port mac) =
      .ok ((EthTransfer.readFrame spi packet size nextPacket).1,
        (EthTransfer.readFrame spi packet size nextPacket).2.port mac) := by
  unfold readFrame EthTransfer.readFrame
  split
  · exact bufferRead_mirrors size.toNat spi packet.buffer 0
  · exact bind_ok (writeControlRegisterWord_mirrors spi .ERDPTL nextPacket)

/-- `get_packet` is one function in both models. -/
theorem getPacket_mirrors (mac : EthMac) (spi : Spi) (packet : PacketMemory) :
    Mirrors mac (getPacket packet) spi (EthTransfer.getPacket spi packet) := by
  unfold getPacket EthTransfer.getPacket
  apply pushBank_mirrors
  intro spi
  apply mirrors_bind rfl
  apply popBank_mirrors
  intro spi
  apply mirrors_ite UInt8.toNat_inj.symm
  · exact fun _ => rfl
  intro _
  apply pushBank_mirrors
  intro spi
  apply mirrors_bind (readControlRegisterWord_mirrors spi .ERDPTL)
  apply popBank_mirrors
  intro spi
  apply mirrors_bind (readBufferShort_mirrors spi)
  apply mirrors_bind (readBufferInt_mirrors _)
  apply mirrors_bind (readFrame_mirrors _ packet _ _)
  apply pushBank_mirrors
  intro spi
  apply mirrors_bind (writeControlRegisterWord_mirrors spi .ERXRDPTL _)
  apply popBank_mirrors
  intro spi
  apply mirrors_bind (setControlRegister_mirrors spi .ECON2 ECON2_PKTDEC)
  apply mirrors_ite Iff.rfl
  · exact fun _ => rfl
  · exact fun _ => rfl

end Bus

/-- A packet that is received leaves the bank stack as it was. -/
theorem getPacket_banks {spi spi' : Spi} {packet : PacketMemory} {result : PacketMemory × Bool}
    (hbank : spi.controller.bsel = BitVec.ofInt 2 spi.currentBank)
    (hroom : spi.bankStack.length < BANK_STACK_SIZE)
    (hrun : getPacket spi packet = some (spi', result)) :
    spi'.bankStack = spi.bankStack ∧ spi'.currentBank = spi.currentBank := by
  have hport := Bus.getPacket_mirrors ⟨.replicate 6 0⟩ spi packet
  rw [hrun] at hport
  have hinv : (balance Controller false 1).inv (spi.port ⟨.replicate 6 0⟩) := by
    refine ⟨hbank, ?_⟩
    rw [Spi.port, List.length_map]
    exact hroom
  have hruns : Runs (balance Controller false 1) fun _ => Bus.getPacket packet :=
    balance_of_banked fun _ => Bus.getPacket_runs ⟨trivial, trivial⟩ packet
  have hsame : SameBanks _ (spi'.port _) := (hruns.keeps 0).of_ok hinv hport
  constructor
  · exact List.map_injective_iff.mpr Nat.cast_injective hsame.bankStack
  · exact Nat.cast_injective hsame.currentBank

end EthTransfer
