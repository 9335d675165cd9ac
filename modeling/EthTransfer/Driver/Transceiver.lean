import EthTransfer.Driver.AmbientBank
import EthTransfer.Driver.ReceiveRing
import EthTransfer.Driver.Simulation
import EthTransfer.Lib.Returns

/-!
# The chip on the line

A `Controller` does what it is told and nothing else.  `Transceiver` is this chip while the
line goes on: before every command of the driver frames may come in, and a transmission may
come to its end.  `Moment` is what happens before one command, and a run may have any
sequence of them, so a frame may come in between the two bytes of a pointer.

* A frame that comes in is stored behind those that the chip holds, while `RXEN` is set and
  where there is room, and is dropped otherwise.
* A transmission takes its bytes from the buffer memory when it ends, not when it begins.
* `Sight` is what commands change, and what the line leaves alone when nothing is sent.
* `Linked` says where the frames lie that the chip holds, and `Grows` what time does to them.
-/

namespace EthTransfer

open RingBuffer

/-! ## The chip -/

/-- What happens before a command: the frames that come in, each with its status, whether a
transmission ends, and the answer of a register that does not show what was written to it. -/
structure Moment where
  arrivals : List (Vector UInt8 4 × List UInt8)
  finishes : Bool
  answer : UInt8

/-- The controller, where it writes the next frame, and the frames that are not released,
each with its address.  `stored` and `sent` are all frames since the reset, and `line` is
what happens before each command, of which `now` is the next.  A reset gives the registers
their `defaults`. -/
structure Transceiver where
  controller : Controller
  writePointer : ℕ
  held : List (ℕ × List UInt8)
  stored : List (List UInt8)
  sent : List (List UInt8)
  line : ℕ → Moment
  now : ℕ
  defaults : ℕ → ℕ → UInt8

/-- A flag of `ECON1`. -/
def Controller.flag (c : Controller) (mask : UInt8) : Bool := c.registers 0 ECON1 &&& mask != 0

/-- The bytes from behind `ETXST` up to `ETXND`.  The byte at `ETXST` is no part of the
frame. -/
def Controller.outgoing (c : Controller) : List UInt8 :=
  let start := c.word 0 Register.ETXSTL.address
  (List.range (c.word 0 Register.ETXNDL.address - start)).map fun i => c.memory (start + 1 + i)

namespace Transceiver

/-- The chip stores a frame that is shorter than the ring, when there is room behind the
frames that it holds and `EPKTCNT` can count it. -/
def Accepts (t : Transceiver) (frame : List UInt8) : Prop :=
  t.controller.flag ECON1_RXEN ∧ 6 + frame.length < RX_END + 1 ∧
    used t.held + (6 + sizeOf frame) ≤ RX_END + 1 ∧ t.controller.epktcnt < 255

instance (t : Transceiver) (frame : List UInt8) : Decidable (t.Accepts frame) :=
  inferInstanceAs (Decidable (_ ∧ _))

/-- A frame comes in. -/
def arrive (t : Transceiver) (arrival : Vector UInt8 4 × List UInt8) : Transceiver :=
  if t.Accepts arrival.2 then
    { t with
      controller := t.controller.receive t.writePointer arrival.1 arrival.2
      writePointer := nextAddress t.writePointer arrival.2
      held := t.held ++ [(t.writePointer, arrival.2)]
      stored := t.stored ++ [arrival.2] }
  else t

/-- A transmission ends, if there is one. -/
def transmit (t : Transceiver) : Transceiver :=
  if t.controller.flag ECON1_TXRTS then
    { t with
      controller := t.controller.setRegister 0 ECON1
        (t.controller.registers 0 ECON1 &&& ~~~ECON1_TXRTS)
      sent := t.sent ++ [t.controller.outgoing] }
  else t

/-- The time before a command. -/
def elapse (t : Transceiver) : Transceiver :=
  let moment := t.line t.now
  let t := moment.arrivals.foldl arrive t
  let t := if moment.finishes then t.transmit else t
  { t with now := t.now + 1 }

/-- A read of the register does not show what was written to it.  The clock bit of `ESTAT`
is set by the chip, and the registers of banks 2 and 3 send a dummy byte first, which the
driver takes for the answer. -/
def Live (c : Controller) (register : Register) : Prop :=
  register.address = Register.ESTAT.address ∨ 2 ≤ c.bankOf register.address

instance (c : Controller) (register : Register) : Decidable (Live c register) :=
  inferInstanceAs (Decidable (_ ∨ _))

/-- What a command does at once.  A write to `ERXST` also goes to `ERXWRPT`, and `PKTDEC`
releases the first frame. -/
def execute (t : Transceiver) (answer : UInt8) (command : Command) : Transceiver × UInt8 :=
  let (c, read) := t.controller.step command
  match command with
  | .read register => ({ t with controller := c }, if Live c register then answer else read)
  | .write register _ =>
    ({ t with
      controller := c
      writePointer := if t.controller.bankOf register.address = 0 ∧
          (register.address = Register.ERXSTL.address ∨
            register.address = Register.ERXSTL.address + 1)
        then c.word 0 Register.ERXSTL.address else t.writePointer }, read)
  | .set register data =>
    ({ t with
      controller := c
      held := if register.address = ECON2 ∧ data &&& ECON2_PKTDEC ≠ 0 then t.held.tail
        else t.held }, read)
  | _ => ({ t with controller := c }, read)

/-- One command, after the time before it. -/
def step (t : Transceiver) (command : Command) : Transceiver × UInt8 :=
  t.elapse.execute (t.line t.now).answer command

end Transceiver

/-- A register is one that the chip does not write by itself. -/
def Steady (bank address : ℕ) : Prop := address ≠ ECON1 ∧ ¬ (bank = 1 ∧ address = EPKTCNT)

instance (bank address : ℕ) : Decidable (Steady bank address) :=
  inferInstanceAs (Decidable (_ ∧ _))

/-- A reset.  The buffer memory stays as it was. -/
def Transceiver.reset (t : Transceiver) : Transceiver :=
  { t with
    controller := { t.controller with
      registers := fun bank address =>
        if Steady bank address then t.defaults bank address else 0 }
    held := []
    stored := []
    sent := [] }

/-! ## What time leaves alone -/

/-- A mask does not touch the bits of another one. -/
theorem disjoint_masks {mask flag : UInt8} (h : mask &&& flag = 0) (old : UInt8) :
    (old &&& ~~~mask) &&& flag = old &&& flag ∧ (old ||| mask) &&& flag = old &&& flag := by
  have hbit (i : ℕ) (hi : i < 8) : (mask.toBitVec[i] && flag.toBitVec[i]) = false := by
    have hboth := congrArg (fun x : UInt8 => x.toBitVec[i]) h
    simpa using hboth
  constructor
  · apply UInt8.eq_of_toBitVec_eq
    ext i hi
    simp only [UInt8.toBitVec_and, UInt8.toBitVec_not, BitVec.getElem_and, BitVec.getElem_not]
    rcases Bool.and_eq_false_iff.mp (hbit i hi) with hmask | hflag
    · rw [hmask, Bool.not_false, Bool.and_true]
    · rw [hflag, Bool.and_false, Bool.and_false]
  · apply UInt8.eq_of_toBitVec_eq
    ext i hi
    simp only [UInt8.toBitVec_and, UInt8.toBitVec_or, BitVec.getElem_and, BitVec.getElem_or]
    rcases Bool.and_eq_false_iff.mp (hbit i hi) with hmask | hflag
    · rw [hmask, Bool.or_false]
    · rw [hflag, Bool.and_false, Bool.and_false]

/-- The bits of a mask that are set read back as set. -/
theorem or_and_mask (old mask : UInt8) : (old ||| mask) &&& mask = mask := by
  apply UInt8.eq_of_toBitVec_eq
  ext i hi
  simp only [UInt8.toBitVec_and, UInt8.toBitVec_or, BitVec.getElem_and, BitVec.getElem_or]
  cases old.toBitVec[i] <;> simp

/-- What the driver can tell of the chip, the banks and the frames that it holds apart: the
steady registers, two flags of `ECON1`, the buffer memory behind the receive buffer, and what
was sent. -/
@[ext] structure Sight where
  file : ℕ → ℕ → UInt8
  sending : Bool
  receiving : Bool
  transmitBuffer : Bytes
  sent : List (List UInt8)
  line : ℕ → Moment

/-- The sight of a chip. -/
def Transceiver.sight (t : Transceiver) : Sight where
  file bank address := if Steady bank address then t.controller.registers bank address else 0
  sending := t.controller.flag ECON1_TXRTS
  receiving := t.controller.flag ECON1_RXEN
  transmitBuffer i := t.controller.memory (TX_START + i)
  sent := t.sent
  line := t.line

/-- The frames that the chip holds lie one behind the other, from position `p` on. -/
structure Linked (t : Transceiver) (p : ℕ) : Prop where
  even : p % 2 = 0
  queued : Queued t.controller.memory p t.held
  fits : used t.held ≤ RX_END + 1
  writePointer : t.writePointer = (p + used t.held) % (RX_END + 1)
  count : t.controller.epktcnt.toNat = t.held.length

/-- Frames are added behind those that the chip holds, which stay where they are.  Without
`RXEN` none is added. -/
structure Grows (t t' : Transceiver) : Prop where
  frames : ∃ new, t'.held = t.held ++ new ∧ t'.stored = t.stored ++ new.map Prod.snd
  linked : ∀ {p}, Linked t p → Linked t' p
  memory : ∀ {p}, Linked t p → ∀ i < used t.held,
    t'.controller.memory ((p + i) % (RX_END + 1)) = t.controller.memory ((p + i) % (RX_END + 1))
  deaf : t.controller.flag ECON1_RXEN = false → t'.controller.flag ECON1_RXEN = false ∧
    t'.held = t.held ∧ t'.stored = t.stored ∧ t'.writePointer = t.writePointer ∧
    t'.controller.epktcnt = t.controller.epktcnt

theorem used_append_list (unread new : List (ℕ × List UInt8)) :
    used (unread ++ new) = used unread + used new := by
  simp [used]

theorem Grows.refl (t : Transceiver) : Grows t t where
  frames := ⟨[], by simp⟩
  linked h := h
  memory _ _ _ := rfl
  deaf h := ⟨h, rfl, rfl, rfl, rfl⟩

theorem Grows.trans {t t' t'' : Transceiver} (h : Grows t t') (h' : Grows t' t'') :
    Grows t t'' where
  frames := by
    obtain ⟨new, hheld, hstored⟩ := h.frames
    obtain ⟨new', hheld', hstored'⟩ := h'.frames
    refine ⟨new ++ new', ?_, ?_⟩
    · rw [hheld', hheld, List.append_assoc]
    · rw [hstored', hstored, List.map_append, List.append_assoc]
  linked hlinked := h'.linked (h.linked hlinked)
  memory hlinked i hi := by
    obtain ⟨new, hheld, -⟩ := h.frames
    have hused : used t'.held = used t.held + used new := by rw [hheld, used_append_list]
    exact (h'.memory (h.linked hlinked) i (by omega)).trans (h.memory hlinked i hi)
  deaf hflag := by
    obtain ⟨hflag', hheld, hstored, hwrite, hcount⟩ := h.deaf hflag
    obtain ⟨hflag'', hheld', hstored', hwrite', hcount'⟩ := h'.deaf hflag'
    exact ⟨hflag'', hheld'.trans hheld, hstored'.trans hstored, hwrite'.trans hwrite,
      hcount'.trans hcount⟩

/-- Frames lie where they did when no cell of the ring has changed. -/
theorem Queued.congr {memory memory' : Bytes} {p : ℕ} {unread : List (ℕ × List UInt8)}
    (h : Queued memory p unread) (hsame : ∀ i ≤ RX_END, memory' i = memory i) :
    Queued memory' p unread := by
  induction unread generalizing p with
  | nil => trivial
  | cons f rest ih =>
    obtain ⟨hr, ⟨status, hold⟩, hrest⟩ := h
    refine ⟨hr, ⟨status, fun i hi => ?_⟩, ih hrest⟩
    rw [hsame _ (mod_le_rxEnd _)]
    exact hold i hi

/-- Neither the ring nor `EPKTCNT` is touched. -/
structure Untouched (t t' : Transceiver) : Prop where
  held : t'.held = t.held
  stored : t'.stored = t.stored
  writePointer : t'.writePointer = t.writePointer
  count : t'.controller.epktcnt = t.controller.epktcnt
  memory : ∀ i ≤ RX_END, t'.controller.memory i = t.controller.memory i

theorem Untouched.linked {t t' : Transceiver} (h : Untouched t t') {p : ℕ} (hlinked : Linked t p) :
    Linked t' p where
  even := hlinked.even
  queued := h.held ▸ hlinked.queued.congr h.memory
  fits := h.held ▸ hlinked.fits
  writePointer := by rw [h.writePointer, h.held, hlinked.writePointer]
  count := by rw [h.count, h.held, hlinked.count]

theorem Untouched.grows {t t' : Transceiver} (h : Untouched t t')
    (hdeaf : t.controller.flag ECON1_RXEN = false → t'.controller.flag ECON1_RXEN = false) :
    Grows t t' where
  frames := ⟨[], by simp [h.held, h.stored]⟩
  linked := h.linked
  memory _ _ _ := h.memory _ (mod_le_rxEnd _)
  deaf hflag := ⟨hdeaf hflag, h.held, h.stored, h.writePointer, h.count⟩

/-- The first frame is released. -/
theorem Linked.release {t t' : Transceiver} {p r : ℕ} {frame : List UInt8}
    {rest : List (ℕ × List UInt8)} (h : Linked t p) (hheld : t.held = (r, frame) :: rest)
    (hheld' : t'.held = rest) (hmemory : t'.controller.memory = t.controller.memory)
    (hwrite : t'.writePointer = t.writePointer)
    (hcount : t'.controller.epktcnt = t.controller.epktcnt - 1) :
    Linked t' (p + (6 + sizeOf frame)) := by
  obtain ⟨heven, hqueued, hfits, hpointer, hlength⟩ := h
  have hused : used ((r, frame) :: rest) = 6 + sizeOf frame + used rest := by simp [used]
  rw [hheld] at hqueued hfits hpointer hlength
  rw [hused] at hfits hpointer
  exact
    { even := by
        unfold sizeOf roundUp
        omega
      queued := by
        rw [hheld', hmemory]
        exact hqueued.2.2
      fits := by
        rw [hheld']
        omega
      writePointer := by rw [hheld', hwrite, hpointer, Nat.add_assoc p]
      count := by
        have hone : (1 : UInt8) ≤ t.controller.epktcnt := by
          rw [UInt8.le_iff_toNat_le, hlength, List.length_cons]
          exact Nat.succ_le_succ (Nat.zero_le _)
        rw [hcount, hheld', UInt8.toNat_sub_of_le _ _ hone, hlength, List.length_cons]
        rfl }

/-! ## Arrivals -/

/-- The cells behind the ring are no part of a store. -/
theorem store_outside (memory : Bytes) (start n : ℕ) (source : Bytes) {i : ℕ} (hi : RX_END < i) :
    RingBuffer.store (RX_END + 1) memory start n source i = memory i :=
  if_neg fun h => absurd h.1 (by omega)

theorem registers_receive (c : Controller) (r : ℕ) (status : Vector UInt8 4)
    (frame : List UInt8) {bank address : ℕ} (h : ¬ (bank = 1 ∧ address = EPKTCNT)) :
    (c.receive r status frame).registers bank address = c.registers bank address :=
  Controller.setRegister_of_ne _ _ h

theorem memory_receive (c : Controller) (r : ℕ) (status : Vector UInt8 4) (frame : List UInt8) :
    (c.receive r status frame).memory = RingBuffer.store (RX_END + 1) c.memory r
      (record r status frame).length fun i => (record r status frame).getD i 0 := rfl

/-- Arrivals do not change the sight. -/
theorem arrive_sight (t : Transceiver) (arrival : Vector UInt8 4 × List UInt8) :
    (t.arrive arrival).sight = t.sight := by
  unfold Transceiver.arrive
  split
  · have hecon1 : ((t.controller.receive t.writePointer arrival.1 arrival.2).registers 0 ECON1) =
        t.controller.registers 0 ECON1 := registers_receive _ _ _ _ (by decide)
    refine Sight.ext (funext fun bank => funext fun address => ?_) ?_ ?_ (funext fun i => ?_) rfl
      rfl
    · exact if_ctx_congr Iff.rfl (fun h => registers_receive _ _ _ _ h.2) fun _ => rfl
    · simp only [Transceiver.sight, Controller.flag, hecon1]
    · simp only [Transceiver.sight, Controller.flag, hecon1]
    · show (t.controller.receive t.writePointer arrival.1 arrival.2).memory (TX_START + i) = _
      rw [memory_receive, store_outside _ _ _ _ (show RX_END < TX_START + i by
        unfold TX_START
        omega)]
      rfl
  · rfl

/-- An arrival that is stored joins the frames behind the others. -/
theorem arrive_grows (t : Transceiver) (arrival : Vector UInt8 4 × List UInt8) :
    Grows t (t.arrive arrival) := by
  unfold Transceiver.arrive
  split
  · rename_i haccepts
    obtain ⟨status, frame⟩ := arrival
    obtain ⟨hreceiving, -, hroom, hcount⟩ := haccepts
    have hlength := length_record t.writePointer status frame
    have hsize := length_le_sizeOf frame
    refine ⟨⟨[(t.writePointer, frame)], rfl, rfl⟩, fun {p} h => ?_, fun {p} h i hi => ?_,
      fun hdeaf => absurd hreceiving (by rw [hdeaf]; decide)⟩
    · have heven : (p + used t.held) % 2 = 0 := by
        have hused := used_even t.held
        have hp := h.even
        omega
      exact
        { even := h.even
          queued := h.queued.append status frame hroom h.writePointer
          fits := (used_append _ _ _).trans_le hroom
          writePointer := by
            show nextAddress t.writePointer frame = _
            rw [h.writePointer, nextAddress_eq heven, used_append, Nat.add_assoc]
          count := by
            have hlt := UInt8.lt_iff_toNat_lt.mp hcount
            have hone : (t.controller.epktcnt + 1).toNat = t.controller.epktcnt.toNat + 1 := by
              rw [UInt8.toNat_add]
              exact Nat.mod_eq_of_lt (Nat.succ_lt_succ hlt)
            refine hone.trans ?_
            rw [h.count, List.length_append, List.length_singleton] }
    · show (t.controller.receive t.writePointer status frame).memory _ = _
      dsimp only at hroom
      rw [memory_receive, hlength, h.writePointer, store_mod, store_at _ _ (by omega) (by omega),
        if_neg (by omega)]
  · exact .refl t

/-- The end of a transmission lets the frames alone. -/
theorem transmit_grows (t : Transceiver) : Grows t t.transmit := by
  unfold Transceiver.transmit
  split
  · have hmasks : ECON1_TXRTS &&& ECON1_RXEN = 0 := by decide
    refine Untouched.grows ⟨rfl, rfl, rfl, ?_, fun _ _ => rfl⟩ fun hdeaf => ?_
    · exact Controller.setRegister_of_ne _ _ (by decide)
    · unfold Controller.flag
      rw [Controller.setRegister_same, (disjoint_masks hmasks _).1]
      exact hdeaf
  · exact .refl t

theorem transmit_of_idle {t : Transceiver} (h : t.sight.sending = false) : t.transmit = t := by
  have hflag : ¬ t.controller.flag ECON1_TXRTS = true := by
    rw [show t.controller.flag ECON1_TXRTS = false from h]
    decide
  exact if_neg hflag

/-! ## Time -/

theorem arrivals_sight (t : Transceiver) (arrivals : List (Vector UInt8 4 × List UInt8)) :
    (arrivals.foldl Transceiver.arrive t).sight = t.sight := by
  induction arrivals generalizing t with
  | nil => rfl
  | cons arrival rest ih => exact (ih _).trans (arrive_sight t arrival)

theorem arrivals_grows (t : Transceiver) (arrivals : List (Vector UInt8 4 × List UInt8)) :
    Grows t (arrivals.foldl Transceiver.arrive t) := by
  induction arrivals generalizing t with
  | nil => exact .refl t
  | cons arrival rest ih => exact (arrive_grows t arrival).trans (ih _)

theorem arrivals_now (t : Transceiver) (arrivals : List (Vector UInt8 4 × List UInt8)) :
    (arrivals.foldl Transceiver.arrive t).now = t.now := by
  induction arrivals generalizing t with
  | nil => rfl
  | cons arrival rest ih =>
    refine (ih _).trans ?_
    unfold Transceiver.arrive
    split <;> rfl

theorem elapse_now (t : Transceiver) : t.elapse.now = t.now + 1 := by
  refine congrArg (· + 1) (Eq.trans ?_ (arrivals_now t (t.line t.now).arrivals))
  split
  · unfold Transceiver.transmit
    split <;> rfl
  · rfl

/-- Whatever happens on the line adds frames to those that the chip holds. -/
theorem elapse_grows (t : Transceiver) : Grows t t.elapse := by
  have harrivals := arrivals_grows t (t.line t.now).arrivals
  have hmoment (t' : Transceiver) :
      Grows t' (if (t.line t.now).finishes then t'.transmit else t') := by
    split
    · exact transmit_grows t'
    · exact .refl t'
  refine harrivals.trans ((hmoment _).trans ?_)
  exact Untouched.grows ⟨rfl, rfl, rfl, rfl, fun _ _ => rfl⟩ id

/-- While nothing is sent, the line leaves the sight alone. -/
theorem elapse_sight {t : Transceiver} (h : t.sight.sending = false) :
    t.elapse.sight = t.sight := by
  have harrivals := arrivals_sight t (t.line t.now).arrivals
  have hidle := transmit_of_idle ((congrArg Sight.sending harrivals).trans h)
  unfold Transceiver.elapse
  dsimp only
  rw [hidle, ite_self]
  exact harrivals

/-! ## The bank -/

/-- The line does not change the bank-select bits. -/
theorem elapse_bsel (t : Transceiver) : t.elapse.controller.bsel = t.controller.bsel := by
  have harrive (t : Transceiver) (arrival : Vector UInt8 4 × List UInt8) :
      (t.arrive arrival).controller.bsel = t.controller.bsel := by
    unfold Transceiver.arrive
    split
    · exact congrArg lowBits (registers_receive _ _ _ _ (by decide))
    · rfl
  have harrivals (arrivals : List (Vector UInt8 4 × List UInt8)) (t : Transceiver) :
      (arrivals.foldl Transceiver.arrive t).controller.bsel = t.controller.bsel := by
    induction arrivals generalizing t with
    | nil => rfl
    | cons arrival rest ih => exact (ih _).trans (harrive t arrival)
  have htransmit (t : Transceiver) : t.transmit.controller.bsel = t.controller.bsel := by
    unfold Transceiver.transmit
    split
    · have hnone : ~~~lowBits ECON1_TXRTS = BitVec.allOnes 2 := by decide
      refine (congrArg lowBits (Controller.setRegister_same _ _ _ _)).trans ?_
      rw [lowBits_and_not, hnone, BitVec.and_allOnes]
      rfl
    · rfl
  refine Eq.trans ?_ (harrivals (t.line t.now).arrivals t)
  show (if (t.line t.now).finishes then Transceiver.transmit _ else _).controller.bsel = _
  split
  · exact htransmit _
  · rfl

theorem execute_controller (t : Transceiver) (answer : UInt8) (command : Command) :
    (t.execute answer command).1.controller = (t.controller.step command).1 := by
  cases command <;> rfl

instance : ResetChip Transceiver where
  step := Transceiver.step
  bsel t := t.controller.bsel
  bsel_step t command := by
    rw [Transceiver.step, execute_controller, Controller.bsel_step, elapse_bsel]
  reset := Transceiver.reset

/-- The bank of the controller is what the bits say. -/
theorem Controller.bank_eq (c : Controller) : c.bank = c.bsel.toNat := by
  unfold Controller.bank Controller.bsel lowBits
  rw [UInt8.toNat_and, BitVec.toNat_setWidth, UInt8.toNat_toBitVec]
  exact Nat.and_two_pow_sub_one_eq_mod _ 2

/-! ## Commands -/

namespace Sight

/-- Set a register. -/
def set (s : Sight) (bank address : ℕ) (data : UInt8) : Sight :=
  { s with file := fun b a => if b = bank ∧ a = address then data else s.file b a }

/-- Two registers as one number, the low byte first. -/
def word (s : Sight) (bank address : ℕ) : ℕ :=
  (s.file bank address).toNat + 256 * (s.file bank (address + 1)).toNat

/-- Set both bytes of a register pair. -/
def setWord (s : Sight) (bank address value : ℕ) : Sight :=
  (s.set bank address (UInt8.ofNat value)).set bank (address + 1) (UInt8.ofNat (value / 256))

theorem set_set (s : Sight) (bank address : ℕ) (old new : UInt8) :
    (s.set bank address old).set bank address new = s.set bank address new := by
  unfold set
  congr 1
  funext b a
  dsimp only
  split <;> rfl

theorem set_comm (s : Sight) {bank address address' : ℕ} (data data' : UInt8)
    (hne : address ≠ address') :
    (s.set bank address data).set bank address' data' =
      (s.set bank address' data').set bank address data := by
  unfold set
  congr 1
  funext b a
  dsimp only
  split_ifs with h h' <;> first | rfl | exact absurd (h'.2.symm.trans h.2) hne

/-- A pair that is set twice holds the second value. -/
@[simp] theorem setWord_setWord (s : Sight) (bank address old new : ℕ) :
    (s.setWord bank address old).setWord bank address new = s.setWord bank address new := by
  unfold setWord
  rw [set_comm _ _ _ (show address + 1 ≠ address by omega), set_set, set_set]

/-- A pair that was set holds the value, if two bytes can. -/
theorem word_setWord (s : Sight) (bank address : ℕ) {value : ℕ} (h : value < 65536) :
    (s.setWord bank address value).word bank address = value := by
  have hlow : (s.setWord bank address value).file bank address = UInt8.ofNat value :=
    (if_neg (by omega)).trans (if_pos ⟨rfl, rfl⟩)
  have hhigh : (s.setWord bank address value).file bank (address + 1) =
      UInt8.ofNat (value / 256) := if_pos ⟨rfl, rfl⟩
  rw [word, hlow, hhigh]
  exact toNat_bytes h

/-- Another pair is not touched. -/
theorem word_setWord_of_ne (s : Sight) (bank : ℕ) {address address' : ℕ} (value : ℕ)
    (h : address + 1 < address' ∨ address' + 1 < address) :
    (s.setWord bank address value).word bank address' = s.word bank address' := by
  have hsame (a : ℕ) (hlow : a ≠ address) (hhigh : a ≠ address + 1) :
      (s.setWord bank address value).file bank a = s.file bank a :=
    (if_neg fun heq => hhigh heq.2).trans (if_neg fun heq => hlow heq.2)
  rw [word, hsame _ (by omega) (by omega), hsame _ (by omega) (by omega)]
  rfl

theorem word_set_of_ne (s : Sight) (bank : ℕ) {address address' : ℕ} {data : UInt8}
    (h : address < address' ∨ address' + 1 < address) :
    (s.set bank address data).word bank address' = s.word bank address' := by
  have hsame (a : ℕ) (hne : a ≠ address) : (s.set bank address data).file bank a = s.file bank a :=
    if_neg fun heq => hne heq.2
  rw [word, hsame _ (by omega), hsame _ (by omega)]
  rfl

/-- Setting a pair to what it holds. -/
theorem setWord_word (s : Sight) (bank address : ℕ) :
    s.setWord bank address (s.word bank address) = s := by
  have hlow := (s.file bank address).toNat_lt
  have hfile : (s.setWord bank address (s.word bank address)).file = s.file := by
    funext b a
    show (if b = bank ∧ a = address + 1 then _ else if b = bank ∧ a = address then _ else _) = _
    split_ifs with h h'
    · rw [h.1, h.2]
      apply UInt8.toNat_inj.mp
      rw [UInt8.toNat_ofNat', word]
      have hhigh := (s.file bank (address + 1)).toNat_lt
      omega
    · rw [h'.1, h'.2]
      apply UInt8.toNat_inj.mp
      rw [UInt8.toNat_ofNat', word]
      omega
    · rfl
  exact Sight.ext hfile rfl rfl rfl rfl rfl

end Sight

section Effects

variable {t t' : Transceiver}

/-- A steady register is set. -/
theorem sight_of_setRegister {bank address : ℕ} {data : UInt8}
    (hcontroller : t'.controller = t.controller.setRegister bank address data)
    (hsent : t'.sent = t.sent) (hline : t'.line = t.line) (hsteady : Steady bank address) :
    t'.sight = t.sight.set bank address data := by
  have hecon1 : t'.controller.registers 0 ECON1 = t.controller.registers 0 ECON1 := by
    rw [hcontroller]
    exact Controller.setRegister_of_ne _ _ fun h => hsteady.1 h.2.symm
  refine Sight.ext (funext fun b => funext fun a => ?_) ?_ ?_ ?_ hsent hline
  · show (if Steady b a then t'.controller.registers b a else 0) = if _ then data else _
    rw [hcontroller]
    by_cases h : b = bank ∧ a = address
    · rw [if_pos h, h.1, h.2, if_pos hsteady]
      exact Controller.setRegister_same _ _ _ _
    · rw [if_neg h, Controller.setRegister_of_ne _ _ h]
      rfl
  · simp only [Transceiver.sight, Controller.flag, hecon1]; rfl
  · simp only [Transceiver.sight, Controller.flag, hecon1]; rfl
  · simp only [Transceiver.sight, hcontroller]; rfl

/-- A pair of steady registers is set. -/
theorem sight_of_setWord {bank address value : ℕ}
    (hcontroller : t'.controller = t.controller.setWord bank address value)
    (hsent : t'.sent = t.sent) (hline : t'.line = t.line) (hlow : Steady bank address)
    (hhigh : Steady bank (address + 1)) : t'.sight = t.sight.setWord bank address value := by
  set half : Transceiver :=
    { t with controller := t.controller.setRegister bank address (UInt8.ofNat value) } with hhalf
  have hfirst : half.sight = t.sight.set bank address (UInt8.ofNat value) :=
    sight_of_setRegister rfl rfl rfl hlow
  have hsecond : t'.sight = half.sight.set bank (address + 1) (UInt8.ofNat (value / 256)) :=
    sight_of_setRegister hcontroller hsent hline hhigh
  rw [hsecond, hfirst]
  rfl

/-- `ECON1` is set. -/
theorem sight_of_setEcon1 {data : UInt8}
    (hcontroller : t'.controller = t.controller.setRegister 0 ECON1 data)
    (hsent : t'.sent = t.sent) (hline : t'.line = t.line) :
    t'.sight = { t.sight with
      sending := data &&& ECON1_TXRTS != 0
      receiving := data &&& ECON1_RXEN != 0 } := by
  have hecon1 : t'.controller.registers 0 ECON1 = data := by
    rw [hcontroller]
    exact Controller.setRegister_same _ _ _ _
  refine Sight.ext (funext fun b => funext fun a => ?_) ?_ ?_ ?_ hsent hline
  · refine if_ctx_congr Iff.rfl (fun h => ?_) fun _ => rfl
    rw [hcontroller]
    exact Controller.setRegister_of_ne _ _ fun heq => h.1 heq.2
  · simp only [Transceiver.sight, Controller.flag, hecon1]
  · simp only [Transceiver.sight, Controller.flag, hecon1]
  · simp only [Transceiver.sight, hcontroller]
    rfl

/-- `EPKTCNT` is set. -/
theorem sight_of_setCount {count : UInt8}
    (hcontroller : t'.controller = t.controller.setRegister 1 EPKTCNT count)
    (hsent : t'.sent = t.sent) (hline : t'.line = t.line) : t'.sight = t.sight := by
  have hecon1 : t'.controller.registers 0 ECON1 = t.controller.registers 0 ECON1 := by
    rw [hcontroller]
    exact Controller.setRegister_of_ne _ _ (by decide)
  refine Sight.ext (funext fun b => funext fun a => ?_) ?_ ?_ ?_ hsent hline
  · refine if_ctx_congr Iff.rfl (fun h => ?_) fun _ => rfl
    rw [hcontroller]
    exact Controller.setRegister_of_ne _ _ h.2
  · simp only [Transceiver.sight, Controller.flag, hecon1]
  · simp only [Transceiver.sight, Controller.flag, hecon1]
  · simp only [Transceiver.sight, hcontroller]
    rfl

/-- A register pair in bank 0. -/
theorem sight_word (t : Transceiver) {address : ℕ} (hlow : Steady 0 address)
    (hhigh : Steady 0 (address + 1)) : t.sight.word 0 address = t.controller.word 0 address := by
  show (if _ then _ else _ : UInt8).toNat + 256 * (if _ then _ else _ : UInt8).toNat = _
  rw [if_pos hlow, if_pos hhigh]
  rfl

end Effects

/-! ## Transmissions -/

/-- The bytes that a transmission sends, as far as the sight shows them. -/
def Sight.outgoing (s : Sight) : List UInt8 :=
  let start := s.word 0 Register.ETXSTL.address
  (List.range (s.word 0 Register.ETXNDL.address - start)).map fun i =>
    s.transmitBuffer (start + 1 + i - TX_START)

theorem outgoing_eq (t : Transceiver)
    (hstart : TX_START ≤ t.sight.word 0 Register.ETXSTL.address) :
    t.controller.outgoing = t.sight.outgoing := by
  have hetxst := sight_word t (show Steady 0 Register.ETXSTL.address by decide) (by decide)
  have hetxnd := sight_word t (show Steady 0 Register.ETXNDL.address by decide) (by decide)
  rw [hetxst] at hstart
  unfold Controller.outgoing Sight.outgoing
  dsimp only
  rw [hetxst, hetxnd]
  refine List.map_congr_left fun i _ => ?_
  show _ = t.controller.memory (TX_START + _)
  rw [show TX_START + (t.controller.word 0 Register.ETXSTL.address + 1 + i - TX_START) =
    t.controller.word 0 Register.ETXSTL.address + 1 + i by omega]

/-- While a frame is sent, the line may bring this to its end. -/
theorem elapse_sending {t : Transceiver} (h : t.sight.sending = true)
    (hstart : TX_START ≤ t.sight.word 0 Register.ETXSTL.address) :
    t.elapse.sight = if (t.line t.now).finishes then
      { t.sight with sending := false, sent := t.sight.sent ++ [t.sight.outgoing] }
    else t.sight := by
  have harrivals := arrivals_sight t (t.line t.now).arrivals
  have hmoment : t.elapse.sight = (if (t.line t.now).finishes then
      ((t.line t.now).arrivals.foldl Transceiver.arrive t).transmit
      else (t.line t.now).arrivals.foldl Transceiver.arrive t).sight := rfl
  rw [hmoment]
  split
  · generalize (t.line t.now).arrivals.foldl Transceiver.arrive t = t' at harrivals
    rw [← harrivals] at h hstart ⊢
    have hflag : t'.controller.flag ECON1_TXRTS = true := h
    have hmasks : ECON1_TXRTS &&& ECON1_RXEN = 0 := by decide
    have hcleared : t'.controller.registers 0 ECON1 &&& ~~~ECON1_TXRTS &&& ECON1_TXRTS = 0 := by
      rw [UInt8.and_assoc, UInt8.not_and_self, UInt8.and_zero]
    set logged : Transceiver := { t' with sent := t'.sent ++ [t'.controller.outgoing] }
      with hlogged
    have hsight : t'.transmit.sight = { logged.sight with
        sending := t'.controller.registers 0 ECON1 &&& ~~~ECON1_TXRTS &&& ECON1_TXRTS != 0
        receiving := t'.controller.registers 0 ECON1 &&& ~~~ECON1_TXRTS &&& ECON1_RXEN != 0 } := by
      rw [Transceiver.transmit, if_pos hflag]
      exact sight_of_setEcon1 (t := logged) rfl rfl rfl
    rw [hsight, hcleared, (disjoint_masks hmasks _).1, ← outgoing_eq t' hstart]
    rfl
  · exact harrivals

end EthTransfer
