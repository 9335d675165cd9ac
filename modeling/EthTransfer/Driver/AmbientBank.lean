import EthTransfer.Driver.Balance

/-!
# Registers in their own bank

The driver from `init_ethernet` on, with the functions that its users call.  A register below
`EIE` is there only when the bank-select bits hold its bank.  Most functions select the bank
first, but the pointers of buffer memory are set without a bracket, in whatever bank the
caller has left.

* `session` is `init_ethernet` and calls after it.
* `test_present` selects bank 0, whatever the chip has started with, and from there on every
  function keeps it (`startUp_runs`, `EthCall.runs`).
* `Recorder` is a chip that notes its commands with the bank-select bits at each of them, and
  that may fall silent, so that every loop ends.
* `accesses_inBank`: every access is made in the bank of its register.
-/

namespace EthTransfer

open Program

def Register.ESTAT : Register := ⟨none, 0x1D⟩

/-- A chip that can be reset.  What is left of it is not known. -/
class ResetChip (σ : Type) extends Chip σ where
  reset : σ → σ

/-! ## The driver -/

namespace Bus

variable {σ : Type}

/-- `soft_reset`. -/
def softReset [ResetChip σ] : Bus σ Unit :=
  modify fun port => { port with chip := ResetChip.reset port.chip }

section Functions

variable [Chip σ]

/-- `set_read_pointer`. -/
def setReadPointer (address : Int) : Bus σ Unit := writeControlRegisterWord .ERDPTL address

/-- The loop of `init_ethernet` that waits for the clock. -/
def clockReady : (turns : ℕ) → Bus σ Bool
  | 0 => return false
  | turns + 1 => do
    let clkReady := (← readControlRegister .ESTAT) &&& 0x01
    if clkReady ≠ 0 then return true else clockReady turns

/-- `init_ethernet` behind `test_present`.  The address comes from a file or from `rand`. -/
def startUp (mac : EthMac) (present : Bool) (turns : ℕ) : Bus σ Bool := do
  if present = false then return false
  else
    modify fun port => { port with macAddress := mac }
    setRxRange 0 RX_END
    setWritePointer TX_START
    setReadPointer 0
    let ready ← clockReady 100
    if ready = false then return false
    else
      setReceiveEnable 1 turns
      return true

/-- `close_ethernet`, as far as the chip is concerned. -/
def closeEthernet (turns : ℕ) : Bus σ Unit := setReceiveEnable 0 turns

end Functions

/-- `init_ethernet`, once the pins are open. -/
def initEthernet [ResetChip σ] (mac : EthMac) (turns : ℕ) : Bus σ Bool := do
  softReset
  let present ← testPresent
  startUp mac present turns

end Bus

/-- A call of one of the functions that the driver offers. -/
inductive EthCall where
  | getPacket (packet : PacketMemory)
  | sendPacket (packet : PacketMemory)
  | closeEthernet

def EthCall.run {σ : Type} [Chip σ] : EthCall → (turns : ℕ) → Bus σ Unit
  | .getPacket packet, _ => do let _ ← Bus.getPacket packet
  | .sendPacket packet, turns => do let _ ← Bus.sendPacket packet turns
  | .closeEthernet, turns => Bus.closeEthernet turns

/-- `init_ethernet`, and calls one after the other. -/
def session {σ : Type} [ResetChip σ] (mac : EthMac) (calls : List EthCall) (turns : ℕ) :
    Bus σ Unit := do
  let _ ← Bus.initEthernet mac turns
  calls.forM fun call => call.run turns

/-! ## The ambient bank -/

section Ambient

variable {σ : Type} [Chip σ]

/-- Bank 0 has the read pointer and the write pointer. -/
theorem pointers_listed : BankPolicy.listed.AllowsWord (BitVec.ofInt 2 0) .ERDPTL ∧
    BankPolicy.listed.AllowsWord (BitVec.ofInt 2 0) .EWRPTL := by
  constructor <;> exact .of_listed (by decide)

namespace Bus

variable {policy : BankPolicy} {bits : BitVec 2} {waits : Bool} {depth : ℕ}

theorem clockReady_runs (turns : ℕ) :
    Runs (banked σ policy bits waits depth) fun _ => clockReady turns := by
  induction turns with
  | zero => exact .pure false
  | succ turns ih =>
    apply (readControlRegister_runs (policy.of_global (by decide))).seq fun read => ?_
    apply Runs.ite
    · exact fun _ => .pure true
    · exact fun _ => ih

theorem startUp_runs (mac : EthMac) (present : Bool) :
    Runs (banked σ .listed (BitVec.ofInt 2 0) true (depth + 1)) fun turns =>
      startUp mac present turns := by
  obtain ⟨herdpt, hewrpt⟩ := pointers_listed
  apply Runs.ite
  · exact fun _ => .pure false
  intro _
  apply Runs.seq
  · exact .of_returns fun port _ =>
      ⟨(), { port with macAddress := mac }, rfl, ⟨rfl, rfl, rfl, .refl _⟩, .refl⟩
  intro _
  apply (setRxRange_runs _ _).seq fun _ => ?_
  apply (writeControlRegisterWord_runs hewrpt (by decide) (by decide) _).seq fun _ => ?_
  apply (writeControlRegisterWord_runs herdpt (by decide) (by decide) _).seq fun _ => ?_
  apply (clockReady_runs 100).seq fun ready => ?_
  apply Runs.ite
  · exact fun _ => .pure false
  · intro _
    exact (setReceiveEnable_runs 1).seq fun _ => .pure true

end Bus

/-- Every call keeps bank 0. -/
theorem EthCall.runs (call : EthCall) :
    Runs (banked σ .listed (BitVec.ofInt 2 0) true 2) fun turns => call.run turns := by
  cases call with
  | getPacket packet => exact (Bus.getPacket_runs pointers_listed.1 packet).seq fun _ => .pure ()
  | sendPacket packet => exact (Bus.sendPacket_runs pointers_listed.2 packet).seq fun _ => .pure ()
  | closeEthernet => exact Bus.setReceiveEnable_runs 0

theorem calls_runs (calls : List EthCall) :
    Runs (banked σ .listed (BitVec.ofInt 2 0) true 2) fun turns =>
      calls.forM fun call => call.run turns := by
  induction calls with
  | nil => exact .pure ()
  | cons call calls ih => exact call.runs.seq fun _ => ih

end Ambient

section Session

variable {σ : Type} [ResetChip σ]

/-- Where `test_present` has found a board it has selected bank 0. -/
theorem session_eq (port : Port σ) (hstack : port.bankStack = []) (hbank : port.currentBank = 0)
    (hfound : Bus.firstRead (ResetChip.reset port.chip) &&& 0x3 = 0) (mac : EthMac)
    (calls : List EthCall) :
    ∃ present port', (∀ turns, session mac calls turns port =
        (Bus.startUp mac present turns >>= fun _ => calls.forM fun call => call.run turns) port') ∧
      (banked σ .listed (BitVec.ofInt 2 0) true 2).inv port' ∧
      Path .listed (ResetChip.reset port.chip) port'.chip := by
  set port₀ : Port σ := { port with chip := ResetChip.reset port.chip } with hport₀
  have hroom : port₀.bankStack.length < BANK_STACK_SIZE := by
    rw [show port₀.bankStack = [] from hstack]
    decide
  obtain ⟨present, port₁, port', hrun, hsame, -, hpath⟩ :=
    Bus.testPresent_selects .listed hroom hfound
  have hselected : Chip.bsel port'.chip = BitVec.ofInt 2 port.currentBank :=
    hsame.bsel.trans (Bus.selected_popped port₀ port₁)
  have hempty : port'.bankStack = [] := hsame.bankStack.trans hstack
  have hinv : (balance σ true 2).inv port' := by
    constructor
    · unfold Selected
      rw [hselected, hsame.currentBank]
      rfl
    · rw [hempty]
      decide
  refine ⟨present, port', fun turns => ?_, ⟨hinv, by rw [hselected, hbank]⟩, hpath⟩
  have hreset : (Bus.softReset : Bus σ Unit) port = .ok ((), port₀) := rfl
  rw [session, Bus.initEthernet, bind_assoc, bind_ok hreset, bind_assoc, bind_ok hrun]

end Session

/-! ## Recording -/

/-- A command, with the bank-select bits when it is given. -/
structure BankedAccess where
  bits : BitVec 2
  command : Command

/-- A register below `EIE` is accessed in the bank under which it is listed. -/
def BankedAccess.InBank (access : BankedAccess) : Prop :=
  ∀ register ∈ access.command.register, register.address < EIE →
    register.bank = some access.bits.toNat

/-- A chip that notes the accesses.  `answers` is the number of commands that it still answers,
`none` if it never stops; behind them it answers zeros.  A part of a run that does not end is
the start of a run that does. -/
structure Recorder (σ : Type) where
  chip : σ
  answers : Option ℕ
  log : List BankedAccess

instance {σ : Type} [Chip σ] : Chip (Recorder σ) where
  step recorder command :=
    ({ chip := (Chip.step recorder.chip command).1
       answers := recorder.answers.map (· - 1)
       log := recorder.log ++ [⟨Chip.bsel recorder.chip, command⟩] },
      if recorder.answers = some 0 then 0 else (Chip.step recorder.chip command).2)
  bsel recorder := Chip.bsel recorder.chip
  bsel_step recorder command := Chip.bsel_step recorder.chip command

instance {σ : Type} [ResetChip σ] : ResetChip (Recorder σ) where
  reset recorder := { recorder with chip := ResetChip.reset recorder.chip }

namespace Recorder

variable {σ : Type} [Chip σ] {recorder recorder' : Recorder σ}

/-- The log of permitted commands. -/
theorem log_of_path (h : Path .listed recorder recorder') :
    ∃ accesses, recorder'.log = recorder.log ++ accesses ∧
      ∀ access ∈ accesses, access.InBank := by
  induction h with
  | refl => exact ⟨[], by simp, by simp⟩
  | @step recorder₁ _ command hpermits ih =>
    obtain ⟨accesses, hlog, hall⟩ := ih
    refine ⟨accesses ++ [⟨Chip.bsel recorder₁.chip, command⟩], ?_, ?_⟩
    · rw [← List.append_assoc, ← hlog]
      rfl
    · intro access haccess
      rcases List.mem_append.mp haccess with hold | hnew
      · exact hall access hold
      · obtain rfl := List.mem_singleton.mp hnew
        exact hpermits

theorem clears {register : Register} {mask : UInt8} {k : ℕ} (h : recorder.answers = some k) :
    Clears register mask recorder := by
  induction k generalizing recorder with
  | zero =>
    have hanswer : (Chip.step recorder (.read register)).2 = 0 := if_pos h
    apply Clears.now
    rw [hanswer]
    exact UInt8.zero_and
  | succ k ih =>
    apply Clears.later
    exact ih (congrArg (Option.map (· - 1)) h)

/-- A chip that falls silent does not stay busy. -/
theorem responsive (h : recorder.answers.isSome) : Responsive recorder := by
  have hreached {recorder' : Recorder σ} (hpath : Reached recorder recorder') :
      ∃ k, recorder'.answers = some k := by
    obtain ⟨commands, rfl⟩ := hpath
    induction commands generalizing recorder with
    | nil => exact Option.isSome_iff_exists.mp h
    | cons command commands ih =>
      have hnext : (Chip.step recorder command).1.answers.isSome := by simpa [Chip.step] using h
      exact ih hnext
  constructor
  · intro recorder' hpath
    exact clears (hreached hpath).choose_spec
  · intro recorder' hpath
    exact clears (hreached hpath).choose_spec

/-- Its answers are those of the chip, or zeros. -/
theorem firstRead_eq (recorder : Recorder σ) :
    Bus.firstRead recorder = 0 ∨ Bus.firstRead recorder = Bus.firstRead recorder.chip :=
  ite_eq_or_eq _ _ _

end Recorder

/-! ## Runs -/

section Runs

variable {σ : Type} [ResetChip σ]

/-- A board is found where the bits that were cleared read back as clear. -/
theorem firstRead_of_present (port : Port σ) {port' : Port σ} (hstack : port.bankStack = [])
    (h : Bus.testPresent port = .ok (true, port')) : Bus.firstRead port.chip &&& 0x3 = 0 := by
  by_contra hmissing
  have hroom : port.bankStack.length < BANK_STACK_SIZE := by
    rw [hstack]
    decide
  obtain ⟨port₁, hsame, heq⟩ := Bus.testPresent_missing hroom hmissing
  rw [h, bind_error (Bus.popBank_nil (hsame.trans hstack))] at heq
  cases heq

/-- The driver before `init_ethernet`, with a recorded chip. -/
def recording (chip : σ) (answers : Option ℕ) (mac : EthMac) : Port (Recorder σ) :=
  ⟨⟨chip, answers, []⟩, [], 0, mac⟩

/-- A run has noted accesses in the banks of their registers only, unless it goes on. -/
def NotedInBank : Except Stop (Unit × Port (Recorder σ)) → Prop
  | .ok (_, port) => ∀ access ∈ port.chip.log, access.InBank
  | .error stop => stop = .runsOn

/-- On a chip that `test_present` finds, the driver makes every access in the bank of its
register, whatever it is asked to do and whatever it reads.  It does not exit, and it returns
when the chip falls silent. -/
theorem accesses_inBank (chip : σ) (mac mac' : EthMac) (calls : List EthCall)
    (answers : Option ℕ)
    (hpresent : ∃ port', Bus.testPresent ⟨ResetChip.reset chip, [], 0, mac⟩ = .ok (true, port')) :
    (∀ turns, NotedInBank (session mac' calls turns (recording chip answers mac))) ∧
    (answers.isSome → ∃ turns port',
      session mac' calls turns (recording chip answers mac) = .ok ((), port')) := by
  obtain ⟨port', hpresent⟩ := hpresent
  have hchip : Bus.firstRead (ResetChip.reset chip) &&& 0x3 = 0 :=
    firstRead_of_present ⟨ResetChip.reset chip, [], 0, mac⟩ rfl hpresent
  have hfound : Bus.firstRead (ResetChip.reset (recording chip answers mac).chip) &&& 0x3 = 0 := by
    rcases Recorder.firstRead_eq (ResetChip.reset (recording chip answers mac).chip) with h | h
    · rw [h]
      rfl
    · rw [h]
      exact hchip
  obtain ⟨present, port₀, hsession, hinv, hpath⟩ :=
    session_eq (recording chip answers mac) rfl rfl hfound mac' calls
  have hruns : Program.Runs (banked (Recorder σ) .listed (BitVec.ofInt 2 0) true 2) fun turns =>
      (Bus.startUp mac' present turns >>= fun _ => calls.forM fun call => call.run turns) :=
    (Bus.startUp_runs mac' present).seq fun _ => calls_runs calls
  constructor
  · intro turns
    rw [hsession turns]
    rcases (hruns.keeps turns).cases hinv with ⟨_, port₁, hrun, -, hpath'⟩ | ⟨stop, hrun, hstop⟩
    · rw [hrun]
      obtain ⟨accesses, hlog, hall⟩ := Recorder.log_of_path (hpath.trans hpath')
      have hnoted : port₁.chip.log = accesses := hlog
      intro access haccess
      exact hall access (hnoted ▸ haccess)
    · rwa [hrun]
  · intro hsilent
    have hlive : (banked (Recorder σ) .listed (BitVec.ofInt 2 0) true 2).live port₀ := fun _ =>
      (Recorder.responsive hsilent).reached hpath.reached
    obtain ⟨_, port₁, -, turns, hends⟩ := hruns.ends port₀ hinv hlive
    exact ⟨turns, port₁, (hsession turns).trans (hends turns le_rfl)⟩

end Runs

instance : ResetChip ScriptedChip where
  reset chip := { chip with bits := 0 }

/-- A board with a packet. -/
def board : ScriptedChip := ⟨3, [0, 3, 1, 0, 1]⟩

def boardCalls : List EthCall := [.getPacket ⟨fun _ => 0, 0, none⟩, .closeEthernet]

theorem accesses_inBank_board :
    (∀ turns, NotedInBank
      (session ⟨.replicate 6 2⟩ boardCalls turns (recording board none ⟨.replicate 6 0⟩))) ∧
    ((none : Option ℕ).isSome → ∃ turns port', session ⟨.replicate 6 2⟩ boardCalls turns
      (recording board none ⟨.replicate 6 0⟩) = .ok ((), port')) :=
  accesses_inBank board ⟨.replicate 6 0⟩ ⟨.replicate 6 2⟩ boardCalls none ⟨_, rfl⟩

end EthTransfer
