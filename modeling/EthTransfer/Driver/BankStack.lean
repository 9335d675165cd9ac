import EthTransfer.Driver.Bus
import Mathlib.Tactic.IntervalCases

/-!
# The bank stack

`push_bank` and `pop_bank` let a function of the driver select a bank and give the old one
back.  A function keeps the bank stack when it leaves the stack, `current_bank` and the
bank-select bits of the chip as they were.

* `balance` is this discipline, with the room on the stack that a function needs.
* `banked` is the same for a function that is called under given bank-select bits, and that
  only accesses the registers which a policy allows under the bits of the moment.
* `bracket` is its rule: what stands between a push and a pop may even write the bank-select
  bits behind the back of the stack, if it leaves the stack alone.
* `WellNested.runs`: pushes and pops that match keep the stack, if it has room for their
  depth.
-/

namespace EthTransfer

open Program

/-! ## The discipline -/

section Discipline

variable {σ : Type} [Chip σ]

/-- Commands lead from one state of the chip to the other. -/
def Reached (chip chip' : σ) : Prop :=
  ∃ commands : List Command, chip' = commands.foldl (fun s c => (Chip.step s c).1) chip

theorem Reached.refl (chip : σ) : Reached chip chip := ⟨[], rfl⟩

theorem Reached.step {chip chip' : σ} (h : Reached chip chip') (command : Command) :
    Reached chip (Chip.step chip' command).1 := by
  obtain ⟨commands, rfl⟩ := h
  exact ⟨commands ++ [command], by simp⟩

theorem Reached.trans {chip chip' chip'' : σ} (h : Reached chip chip')
    (h' : Reached chip' chip'') : Reached chip chip'' := by
  obtain ⟨commands, rfl⟩ := h
  obtain ⟨commands', rfl⟩ := h'
  exact ⟨commands ++ commands', by simp⟩

/-- The chip has the register under these bank-select bits: the registers from `EIE` on are in
every bank. -/
def Register.Listed (register : Register) (bits : BitVec 2) : Prop :=
  register.address < EIE → register.bank = some bits.toNat

instance (register : Register) (bits : BitVec 2) : Decidable (register.Listed bits) :=
  inferInstanceAs (Decidable (_ → _))

/-- Which registers may be accessed under which bank-select bits: those that are there, and
maybe others. -/
structure BankPolicy where
  allows : BitVec 2 → Register → Prop
  of_listed : ∀ {bits register}, register.Listed bits → allows bits register

namespace BankPolicy

/-- Any register at any time. -/
def anywhere : BankPolicy := ⟨fun _ _ => True, fun _ => trivial⟩

/-- No others. -/
def listed : BankPolicy := ⟨fun bits register => register.Listed bits, fun h => h⟩

/-- Both registers of a pair are allowed. -/
def AllowsWord (policy : BankPolicy) (bits : BitVec 2) (register : Register) : Prop :=
  policy.allows bits register ∧ policy.allows bits register.high

/-- The command accesses an allowed register, or none. -/
def Permits (policy : BankPolicy) (bits : BitVec 2) (command : Command) : Prop :=
  ∀ register ∈ command.register, policy.allows bits register

variable {policy : BankPolicy} {bits : BitVec 2} {register : Register}

/-- The registers that are in every bank are always allowed. -/
theorem of_global (policy : BankPolicy) (h : EIE ≤ register.address) :
    policy.allows bits register :=
  policy.of_listed fun hlt => absurd hlt (Nat.not_lt.mpr h)

theorem AllowsWord.of_listed (h : register.Listed bits ∧ register.high.Listed bits) :
    policy.AllowsWord bits register :=
  ⟨policy.of_listed h.1, policy.of_listed h.2⟩

theorem permits_iff {command : Command} (h : command.register = some register) :
    policy.Permits bits command ↔ policy.allows bits register := by
  simp [Permits, h]

end BankPolicy

/-- Commands lead from one state of the chip to the other, and the policy permits each of them
when it is given. -/
inductive Path (policy : BankPolicy) (chip : σ) : σ → Prop
  | refl : Path policy chip chip
  | step {chip' : σ} (h : Path policy chip chip') (command : Command)
      (hpermits : policy.Permits (Chip.bsel chip') command) :
      Path policy chip (Chip.step chip' command).1

namespace Path

variable {policy : BankPolicy} {chip chip' chip'' : σ}

theorem trans (h : Path policy chip chip') (h' : Path policy chip' chip'') :
    Path policy chip chip'' := by
  induction h' with
  | refl => exact h
  | step _ command hpermits ih => exact ih.step command hpermits

theorem reached (h : Path policy chip chip') : Reached chip chip' := by
  induction h with
  | refl => exact .refl chip
  | step _ command _ ih => exact ih.step command

end Path

/-- When the register is read again and again, the bits of the mask are clear at last. -/
inductive Clears (register : Register) (mask : UInt8) : σ → Prop
  | now {chip : σ} (h : (Chip.step chip (.read register)).2 &&& mask = 0) :
      Clears register mask chip
  | later {chip : σ} (h : Clears register mask (Chip.step chip (.read register)).1) :
      Clears register mask chip

/-- Whatever it is told, the chip does not stay busy for ever. -/
structure Responsive (chip : σ) : Prop where
  phy : ∀ chip', Reached chip chip' → Clears .MISTAT MISTAT_BUSY chip'
  transmit : ∀ chip', Reached chip chip' → Clears .ECON1 ECON1_TXRTS chip'

theorem Responsive.reached {chip chip' : σ} (h : Responsive chip) (hreached : Reached chip chip') :
    Responsive chip' where
  phy chip'' h' := h.phy chip'' (hreached.trans h')
  transmit chip'' h' := h.transmit chip'' (hreached.trans h')

/-- The bank-select bits of the chip are those of `current_bank`. -/
def Selected (port : Port σ) : Prop := Chip.bsel port.chip = BitVec.ofInt 2 port.currentBank

/-- The banks are as they were. -/
structure SameBanks (port port' : Port σ) : Prop where
  bankStack : port'.bankStack = port.bankStack
  currentBank : port'.currentBank = port.currentBank
  bsel : Chip.bsel port'.chip = Chip.bsel port.chip
  reached : Reached port.chip port'.chip

theorem SameBanks.refl (port : Port σ) : SameBanks port port := ⟨rfl, rfl, rfl, .refl _⟩

theorem SameBanks.trans {port port' port'' : Port σ} (h : SameBanks port port')
    (h' : SameBanks port' port'') : SameBanks port port'' :=
  ⟨h'.1.trans h.1, h'.2.trans h.2, h'.3.trans h.3, h.4.trans h'.4⟩

/-- The stack is as it was.  `current_bank` and the bank-select bits may differ. -/
structure SameStack (policy : BankPolicy) (port port' : Port σ) : Prop where
  bankStack : port'.bankStack = port.bankStack
  path : Path policy port.chip port'.chip

variable (σ)

/-- The banks are kept, with room for `depth` pushes.  When the function waits for the
chip, it returns if the chip is responsive. -/
def balance (waits : Bool) (depth : ℕ) : Discipline (Port σ) Stop where
  inv port := Selected port ∧ port.bankStack.length + depth ≤ BANK_STACK_SIZE
  live port := waits = true → Responsive port.chip
  rel := SameBanks
  stops stop := stop = .runsOn
  refl := SameBanks.refl
  trans := SameBanks.trans
  inv_stable h hrel := by
    obtain ⟨hselected, hroom⟩ := h
    refine ⟨?_, by rwa [hrel.bankStack]⟩
    unfold Selected
    rw [hrel.bsel, hrel.currentBank]
    exact hselected
  live_stable h hrel hwaits := (h hwaits).reached hrel.reached

/-- The banks are kept by a function that is called under the given bank-select bits, and the
policy permits its commands. -/
def banked (policy : BankPolicy) (bits : BitVec 2) (waits : Bool) (depth : ℕ) :
    Discipline (Port σ) Stop where
  inv port := (balance σ waits depth).inv port ∧ Chip.bsel port.chip = bits
  live := (balance σ waits depth).live
  rel port port' := SameBanks port port' ∧ Path policy port.chip port'.chip
  stops stop := stop = .runsOn
  refl port := ⟨.refl port, .refl⟩
  trans h h' := ⟨h.1.trans h'.1, h.2.trans h'.2⟩
  inv_stable h hrel := ⟨(balance σ waits depth).inv_stable h.1 hrel.1, hrel.1.bsel.trans h.2⟩
  live_stable h hrel := (balance σ waits depth).live_stable h hrel.1

/-- The stack is kept. -/
def loose (policy : BankPolicy) : Discipline (Port σ) Stop where
  inv _ := True
  live _ := True
  rel := SameStack policy
  stops stop := stop = .runsOn
  refl _ := ⟨rfl, .refl⟩
  trans h h' := ⟨h'.1.trans h.1, h.2.trans h'.2⟩
  inv_stable _ _ := trivial
  live_stable _ _ := trivial

variable {σ}

/-- What keeps the banks under all bank-select bits, whatever it accesses. -/
theorem balance_of_banked {α : Type} {waits : Bool} {depth : ℕ} {m : ℕ → Bus σ α}
    (h : ∀ bits, Runs (banked σ .anywhere bits waits depth) m) :
    Runs (balance σ waits depth) m where
  keeps n port hport := by
    rcases ((h _).keeps n).cases ⟨hport, rfl⟩ with ⟨a, port', hrun, hrel⟩ | ⟨stop, hrun, hstop⟩
    · rw [hrun]
      exact hrel.1
    · rwa [hrun]
  ends port hport hlive := by
    obtain ⟨a, port', hrel, hends⟩ := (h _).ends port ⟨hport, rfl⟩ hlive
    exact ⟨a, port', hrel.1, hends⟩

end Discipline

/-! ## Commands -/

namespace Bus

section Commands

variable {σ α β : Type} [Chip σ] {policy : BankPolicy} {bits : BitVec 2} {waits : Bool}
  {depth : ℕ}

/-- The command leaves the bank-select bits alone. -/
def Quiet (c : Command) : Prop := ∀ bits, c.select bits = bits

theorem quiet_read (register : Register) : Quiet (.read register) := fun _ => rfl

theorem quiet_readMemory : Quiet .readMemory := fun _ => rfl

theorem quiet_writeMemory (data : UInt8) : Quiet (.writeMemory data) := fun _ => rfl

theorem quiet_write {register : Register} (hne : register.address ≠ EthTransfer.ECON1)
    (data : UInt8) : Quiet (.write register data) := fun _ => if_neg hne

/-- Clearing other bits of `ECON1` is allowed. -/
theorem quiet_clear {register : Register} {data : UInt8}
    (hquiet : register.address = EthTransfer.ECON1 → lowBits data = 0) :
    Quiet (.clear register data) := by
  intro bits
  show (if register.address = EthTransfer.ECON1 then bits &&& ~~~lowBits data else bits) = bits
  split
  · rename_i heq
    rw [hquiet heq]
    exact BitVec.and_allOnes
  · rfl

/-- And so is setting them. -/
theorem quiet_set {register : Register} {data : UInt8}
    (hquiet : register.address = EthTransfer.ECON1 → lowBits data = 0) :
    Quiet (.set register data) := by
  intro bits
  show (if register.address = EthTransfer.ECON1 then bits ||| lowBits data else bits) = bits
  split
  · rename_i heq
    rw [hquiet heq]
    exact BitVec.or_zero
  · rfl

theorem command_runs {c : Command} (hquiet : Quiet c) (hpermits : policy.Permits bits c) :
    Runs (banked σ policy bits waits depth) fun _ => command c := by
  refine .of_returns fun port hport => ⟨_, _, rfl, ⟨rfl, rfl, ?_, (Reached.refl _).step c⟩, ?_⟩
  · exact (Chip.bsel_step port.chip c).trans (hquiet _)
  · exact Path.refl.step c (by rwa [hport.2])

/-- A command leaves the stack alone. -/
theorem command_loose {c : Command} (hpermits : ∀ bits, policy.Permits bits c) :
    Runs (loose σ policy) fun _ => command c :=
  .of_returns fun _ _ => ⟨_, _, rfl, rfl, Path.refl.step c (hpermits _)⟩

/-! ## Pushing and popping -/

/-- The chip after `set_bank`. -/
def selectBank (chip : σ) (bank : Int) : σ :=
  (Chip.step (Chip.step chip (.clear .ECON1 ECON1_BSEL)).1
    (.set .ECON1 (UInt8.ofInt bank &&& ECON1_BSEL))).1

theorem path_selectBank (policy : BankPolicy) (chip : σ) (bank : Int) :
    Path policy chip (selectBank chip bank) :=
  (Path.refl.step _ ((BankPolicy.permits_iff rfl).mpr (policy.of_global (by decide)))).step _
    ((BankPolicy.permits_iff rfl).mpr (policy.of_global (by decide)))

/-- The bits that `set_bank` writes. -/
theorem lowBits_bank (bank : Int) :
    lowBits (UInt8.ofInt bank &&& ECON1_BSEL) = BitVec.ofInt 2 bank := by
  have hmask (data : UInt8) : lowBits (data &&& ECON1_BSEL) = lowBits data := by
    unfold lowBits
    rw [UInt8.toBitVec_and, BitVec.setWidth_and]
    exact BitVec.and_allOnes
  rw [hmask]
  apply BitVec.eq_of_toNat_eq
  simp [lowBits, UInt8.ofInt]
  omega

/-- `set_bank` selects the bank, whatever was selected before. -/
theorem bsel_selectBank (chip : σ) (bank : Int) :
    Chip.bsel (selectBank chip bank) = BitVec.ofInt 2 bank := by
  have hclear (bits : BitVec 2) :
      (Command.clear .ECON1 ECON1_BSEL).select bits = bits &&& ~~~lowBits ECON1_BSEL := rfl
  have hset (bits : BitVec 2) (data : UInt8) :
      (Command.set .ECON1 data).select bits = bits ||| lowBits data := rfl
  have hall : ~~~lowBits ECON1_BSEL = 0 := by decide
  have hnone (bits : BitVec 2) : bits &&& 0 = 0 := BitVec.and_zero
  rw [selectBank, Chip.bsel_step, Chip.bsel_step, hclear, hset, hall, hnone, lowBits_bank]
  exact BitVec.zero_or

omit [Chip σ] in
theorem get_bind (k : Port σ → Bus σ α) (port : Port σ) : (get >>= k) port = k port port := rfl

/-- The state after `push_bank`. -/
def pushed (port : Port σ) (bank : Int) : Port σ :=
  { port with
    chip := selectBank port.chip bank
    bankStack := port.currentBank :: port.bankStack
    currentBank := bank }

theorem pushBank_eq {port : Port σ} (hroom : port.bankStack.length < BANK_STACK_SIZE)
    (bank : Int) : pushBank bank port = .ok ((), pushed port bank) := by
  unfold pushBank
  rw [get_bind, if_neg (by omega)]
  rfl

theorem popBank_eq {port : Port σ} {bank : Int} {rest : List Int}
    (hstack : port.bankStack = bank :: rest) :
    popBank port = .ok ((), { port with
      chip := selectBank port.chip bank
      bankStack := rest
      currentBank := bank }) := by
  unfold popBank
  rw [get_bind, hstack]
  rfl

theorem popBank_nil {port : Port σ} (hstack : port.bankStack = []) :
    popBank port = .error .underflow := by
  unfold popBank
  rw [get_bind, hstack]
  rfl

/-! ## Brackets -/

/-- A push, a pop, and what stands between them. -/
def withBank (bank : Int) (body : Bus σ α) : Bus σ α := do
  pushBank bank
  let a ← body
  popBank
  return a

/-- The state after the pop that gives the banks of `port` back. -/
def popped (port port' : Port σ) : Port σ :=
  { port' with
    chip := selectBank port'.chip port.currentBank
    bankStack := port.bankStack
    currentBank := port.currentBank }

theorem withBank_ok {port port' : Port σ} {bank : Int} {body : Bus σ α} {a : α}
    (hroom : port.bankStack.length < BANK_STACK_SIZE)
    (hbody : body (pushed port bank) = .ok (a, port'))
    (hstack : port'.bankStack = port.currentBank :: port.bankStack) :
    withBank bank body port = .ok (a, popped port port') := by
  unfold withBank
  rw [bind_ok (pushBank_eq hroom bank), bind_ok hbody, bind_ok (popBank_eq hstack)]
  rfl

theorem withBank_error {port : Port σ} {bank : Int} {body : Bus σ α} {stop : Stop}
    (hroom : port.bankStack.length < BANK_STACK_SIZE)
    (hbody : body (pushed port bank) = .error stop) :
    withBank bank body port = .error stop := by
  unfold withBank
  rw [bind_ok (pushBank_eq hroom bank), bind_error hbody]

/-- What the pushed and the popped entry enclose. -/
theorem path_popped {port port' : Port σ} {bank : Int}
    (hpath : Path policy (pushed port bank).chip port'.chip) :
    Path policy port.chip (popped port port').chip :=
  (path_selectBank policy port.chip bank).trans (hpath.trans (path_selectBank _ _ _))

theorem selected_popped (port port' : Port σ) : Selected (popped port port') :=
  bsel_selectBank port'.chip port.currentBank

/-- The pop undoes whatever happened to the bank-select bits. -/
theorem sameBanks_popped {port port' : Port σ} {bank : Int} (hselected : Selected port)
    (hpath : Path policy (pushed port bank).chip port'.chip) :
    SameBanks port (popped port port') where
  bankStack := rfl
  currentBank := rfl
  bsel := (bsel_selectBank port'.chip port.currentBank).trans hselected.symm
  reached := (path_popped hpath).reached

/-- The work between a push and a pop has to leave the stack alone, and no more. -/
theorem bracket {D : Discipline (Port σ) Stop} {body : ℕ → Bus σ α} (bank : Int)
    (hbody : Runs D body)
    (hinv : ∀ port, (balance σ waits (depth + 1)).inv port → D.inv (pushed port bank))
    (hlive : ∀ port, (balance σ waits (depth + 1)).live port → D.live (pushed port bank))
    (hrel : ∀ port port', D.rel port port' → SameStack policy port port')
    (hstops : ∀ stop, D.stops stop → stop = .runsOn) :
    Runs (banked σ policy bits waits (depth + 1)) fun n => withBank bank (body n) where
  keeps n port hport := by
    have hroom : port.bankStack.length < BANK_STACK_SIZE := by
      have hdepth := hport.1.2
      omega
    rcases (hbody.keeps n).cases (hinv port hport.1) with
      ⟨a, port', hrun, hr⟩ | ⟨stop, hrun, hstop⟩
    · have hsame := hrel _ _ hr
      rw [withBank_ok hroom hrun hsame.bankStack]
      exact ⟨sameBanks_popped hport.1.1 hsame.path, path_popped hsame.path⟩
    · rw [withBank_error hroom hrun]
      exact hstops stop hstop
  ends port hport hlives := by
    have hroom : port.bankStack.length < BANK_STACK_SIZE := by
      have hdepth := hport.1.2
      omega
    obtain ⟨a, port', hr, n₀, hends⟩ := hbody.ends _ (hinv port hport.1) (hlive port hlives)
    have hsame := hrel _ _ hr
    exact ⟨a, popped port port', ⟨sameBanks_popped hport.1.1 hsame.path, path_popped hsame.path⟩,
      n₀, fun n hn => withBank_ok hroom (hends n hn) hsame.bankStack⟩

/-- Brackets nest.  Inside one, the registers of its bank are there. -/
theorem bracket_banked {body : ℕ → Bus σ α} (bank : Int)
    (hbody : Runs (banked σ policy (BitVec.ofInt 2 bank) waits depth) body) :
    Runs (banked σ policy bits waits (depth + 1)) fun n => withBank bank (body n) := by
  apply bracket bank hbody
  · intro port hport
    have hselected := bsel_selectBank port.chip bank
    refine ⟨⟨hselected, ?_⟩, hselected⟩
    have hdepth := hport.2
    show port.bankStack.length + 1 + depth ≤ BANK_STACK_SIZE
    omega
  · intro port hlive hwaits
    exact (hlive hwaits).reached (path_selectBank policy port.chip bank).reached
  · exact fun port port' h => ⟨h.1.bankStack, h.2⟩
  · exact fun stop h => h

/-- In a bracket the bank-select bits may be written. -/
theorem bracket_loose {body : ℕ → Bus σ α} (bank : Int) (hbody : Runs (loose σ policy) body) :
    Runs (banked σ policy bits waits (depth + 1)) fun n => withBank bank (body n) :=
  bracket bank hbody (fun _ _ => trivial) (fun _ _ => trivial) (fun _ _ h => h) (fun _ h => h)

/-- More room, or a responsive chip, does no harm. -/
theorem banked_mono {waits' : Bool} {depth' : ℕ} {m : ℕ → Bus σ α}
    (h : Runs (banked σ policy bits waits depth) m) (hdepth : depth ≤ depth')
    (hwaits : waits = true → waits' = true) : Runs (banked σ policy bits waits' depth') m := by
  apply h.mono
  · intro port hport
    have hroom := hport.1.2
    exact ⟨⟨hport.1.1, by omega⟩, hport.2⟩
  · exact fun port _ hlive hw => hlive (hwaits hw)
  · exact fun _ _ _ hsame => hsame
  · exact fun _ hstop => hstop

end Commands

end Bus

/-! ## Pushes and pops that match -/

/-- A call of `push_bank` or of `pop_bank`. -/
inductive BankOp where
  | push (bank : Int)
  | pop
  deriving DecidableEq, Repr

/-- What the call does. -/
def BankOp.run {σ : Type} [Chip σ] : BankOp → Bus σ Unit
  | .push bank => Bus.pushBank bank
  | .pop => Bus.popBank

/-- Every push has its pop.  The number is the depth of the nesting. -/
inductive WellNested : List BankOp → ℕ → Prop
  | nil : WellNested [] 0
  | nest {bank : Int} {inner rest : List BankOp} {depth depth' : ℕ}
      (hinner : WellNested inner depth) (hrest : WellNested rest depth') :
      WellNested (.push bank :: (inner ++ .pop :: rest)) (max (depth + 1) depth')

/-- Calls that match keep the banks. -/
theorem WellNested.runs {σ : Type} [Chip σ] {policy : BankPolicy} {ops : List BankOp} {depth : ℕ}
    (h : WellNested ops depth) (bits : BitVec 2) :
    Runs (banked σ policy bits false depth) fun _ => ops.forM BankOp.run := by
  induction h generalizing bits with
  | nil => exact Runs.pure ()
  | @nest bank inner rest depth depth' _ _ ihinner ihrest =>
    have hsplit : (BankOp.push bank :: (inner ++ .pop :: rest)).forM BankOp.run =
        (Bus.withBank bank (inner.forM BankOp.run) >>= fun _ => rest.forM BankOp.run :
          Bus σ Unit) := by
      simp [Bus.withBank, BankOp.run]
    simp only [hsplit]
    apply Runs.seq
    · exact Bus.banked_mono (Bus.bracket_banked bank (ihinner _)) (le_max_left _ _) id
    · exact fun _ => Bus.banked_mono (ihrest bits) (le_max_right _ _) id

end EthTransfer
