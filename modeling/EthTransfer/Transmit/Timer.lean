import EthTransfer.Lib.Purge
import EthTransfer.Stack.System

/-!
# The retransmission timer

`get_now` is meant to count milliseconds.  It divides `tv_sec` where `tv_nsec` should
stand, so what it counts is whole seconds, at a little more than 1000 each.

* `Timespec.value`: what `get_now` makes of a reading of the clock.
* `BaseBy`: the base time is not set, or an earlier reading has set it.  `get_now` keeps
  this (`BaseBy.getNow`).
* `Arms.fires_iff`: the timer that `send_tcp_packet` arms fires when the next second begins.
* `measures_millis_iff`: so it measures milliseconds only by chance.
-/

namespace EthTransfer

/-! ## Readings of the clock -/

/-- The reading `t` is not after `t'`. -/
instance : LE Timespec := ⟨fun t t' => t.sec < t'.sec ∨ t.sec = t'.sec ∧ t.nsec ≤ t'.nsec⟩

instance (t t' : Timespec) : Decidable (t ≤ t') :=
  inferInstanceAs (Decidable (t.sec < t'.sec ∨ t.sec = t'.sec ∧ t.nsec ≤ t'.nsec))

theorem Timespec.le_iff {t t' : Timespec} :
    t ≤ t' ↔ t.sec < t'.sec ∨ t.sec = t'.sec ∧ t.nsec ≤ t'.nsec := Iff.rfl

theorem Timespec.le_refl (t : Timespec) : t ≤ t := Or.inr ⟨rfl, Int.le_refl _⟩

theorem Timespec.le_trans {t t' t'' : Timespec} (h : t ≤ t') (h' : t' ≤ t'') : t ≤ t'' := by
  rw [le_iff] at *
  omega

/-- The whole milliseconds of a reading. -/
def Timespec.millis (t : Timespec) : Int := t.sec * 1000 + t.nsec / 1000000

/-- What `get_now` computes from a reading, before it subtracts the base time. -/
def Timespec.value (t : Timespec) : Int := t.sec * 1000 + t.sec.tdiv 1000000

/-- A second is at least 1000. -/
theorem Timespec.value_le {t t' : Timespec} (hle : t.sec ≤ t'.sec) :
    t.value + 1000 * (t'.sec - t.sec) ≤ t'.value := by
  have hdiv : t.sec.tdiv 1000000 ≤ t'.sec.tdiv 1000000 := Int.tdiv_le_tdiv (by decide) hle
  unfold value
  omega

theorem Timespec.value_mono {t t' : Timespec} (h : t ≤ t') : t.value ≤ t'.value := by
  have hle : t.sec ≤ t'.sec := by
    rw [le_iff] at h
    omega
  have hvalue := value_le hle
  omega

theorem Timespec.value_congr {t t' : Timespec} (h : t.sec = t'.sec) : t.value = t'.value := by
  unfold value
  rw [h]

/-! ## The base time -/

/-- The base time is not set, or a reading that is not after `time` has set it. -/
def BaseBy (s : Stack) (time : Timespec) : Prop :=
  s.baseTimeSet = true → ∃ first : Timespec, first ≤ time ∧ s.baseTime = first.value

theorem BaseBy.mono {s : Stack} {time time' : Timespec} (h : BaseBy s time) (hle : time ≤ time') :
    BaseBy s time' := by
  intro hset
  obtain ⟨first, hfirst, hbase⟩ := h hset
  exact ⟨first, Timespec.le_trans hfirst hle, hbase⟩

/-- `get_now` counts from the base time, which its first call sets. -/
theorem getNow_set (s : Stack) (time : Timespec) :
    (getNow s time).1.baseTimeSet = true ∧
      (getNow s time).2 = time.value - (getNow s time).1.baseTime := by
  unfold getNow
  cases hset : s.baseTimeSet with
  | true => exact ⟨hset, rfl⟩
  | false => exact ⟨rfl, rfl⟩

/-- `get_now` with a base time that is set. -/
theorem getNow_of_set {s : Stack} (hset : s.baseTimeSet = true) (time : Timespec) :
    (getNow s time).2 = time.value - s.baseTime := by
  unfold getNow
  rw [hset]
  rfl

theorem BaseBy.getNow {s : Stack} {time time' : Timespec} (h : BaseBy s time')
    (hle : time ≤ time') : BaseBy (getNow s time).1 time' := by
  unfold EthTransfer.getNow
  cases hset : s.baseTimeSet with
  | true => exact h
  | false => exact fun _ => ⟨time, hle, rfl⟩

theorem BaseBy.checkNow {s : Stack} {time time' : Timespec} (h : BaseBy s time')
    (hle : time ≤ time') : BaseBy (s.checkNow time).1 time' := by
  unfold Stack.checkNow
  split
  · exact h.getNow hle
  · exact h

/-- A call of `send_tcp_packet` that sends. -/
structure Arms (s : Stack) (input : SendInput) : Prop where
  opened : s.tcpConn.state ≠ .listen
  sends : (sendDue s.tcpConn || timedOut s.tcpConn (s.checkNow input.checked).2) = true
  state : s.tcpConn.state ≠ .bothClosed

/-- The connection after such a call, by its clock. -/
theorem Arms.ackTimeout_eq {s : Stack} {input : SendInput} (h : Arms s input) (now : Clock)
    (hchecked : now.checked = (s.checkNow input.checked).2) :
    (EthTransfer.sendTcpPacket s.tcpConn now input.scratch).conn.ackTimeout =
      now.armed + ACK_TIMEOUT := by
  have harmed (c : TcpConnection) (hstate : c.state ≠ .bothClosed) :
      (transmit c now.armed input.scratch).conn.ackTimeout = now.armed + ACK_TIMEOUT := by
    have hsent : sentState c ≠ .bothClosed := by
      rw [sentState_eq]
      split_ifs
      · decide
      · decide
      · exact hstate
    exact if_neg hsent
  unfold EthTransfer.sendTcpPacket
  rw [if_neg h.opened, hchecked]
  cases hdue : sendDue s.tcpConn with
  | true =>
    rw [if_pos rfl]
    exact harmed _ h.state
  | false =>
    have htime : timedOut s.tcpConn (s.checkNow input.checked).2 = true := by
      have hsends := h.sends
      rwa [hdue, Bool.false_or] at hsends
    rw [if_neg (by decide), if_pos htime]
    exact harmed (rewind s.tcpConn) h.state

/-- What the timer is armed with: 20 more than the reading of `get_now`. -/
theorem Arms.armed {s : Stack} {input : SendInput} (h : Arms s input)
    (hbase : BaseBy s input.checked) (hle : input.checked ≤ input.armed) :
    (s.sendTcpPacket input).1.baseTimeSet = true ∧
      (s.sendTcpPacket input).1.baseTime ≤ input.armed.value ∧
      (s.sendTcpPacket input).1.tcpConn.ackTimeout =
        input.armed.value - (s.sendTcpPacket input).1.baseTime + ACK_TIMEOUT := by
  obtain ⟨hset, hnow⟩ := getNow_set (s.checkNow input.checked).1 input.armed
  obtain ⟨first, hfirst, hvalue⟩ :=
    ((hbase.mono hle).checkNow hle).getNow (Timespec.le_refl input.armed) hset
  have htimeout := h.ackTimeout_eq ⟨(s.checkNow input.checked).2,
    (EthTransfer.getNow (s.checkNow input.checked).1 input.armed).2⟩ rfl
  have hmono := Timespec.value_mono hfirst
  unfold Stack.sendTcpPacket
  rw [if_neg h.opened]
  dsimp only
  rw [if_pos h.sends]
  refine ⟨hset, by rw [hvalue]; exact hmono, ?_⟩
  rw [← hnow]
  exact htimeout

/-! ## The base time in a run -/

/-- Only `get_now` assigns the base time. -/
def SameBase (s s' : Stack) : Prop :=
  s'.baseTime = s.baseTime ∧ s'.baseTimeSet = s.baseTimeSet

theorem BaseBy.same {s s' : Stack} {time : Timespec} (h : BaseBy s time) (hsame : SameBase s s') :
    BaseBy s' time := by
  unfold BaseBy
  rw [hsame.1, hsame.2]
  exact h

theorem handleTcpPacket_sameBase {s s' : Stack} {packet : TcpPacket} {rand : Rand}
    (hstep : handleTcpPacket s packet rand = some s') : SameBase s s' := by
  by_cases hlisten : s.tcpConn.state = .listen
  · rcases handleTcpPacket_listen hlisten packet with hdrop | ⟨-, -, haccept⟩
    · rw [hdrop] at hstep
      obtain rfl := Option.some.inj hstep
      exact ⟨rfl, rfl⟩
    · rw [haccept] at hstep
      rcases acceptSyn_cases s packet with hhang | hdrop | ⟨-, scale, size, -, hopens⟩
      · rw [hhang] at hstep
        cases hstep
      · rw [hdrop] at hstep
        obtain rfl := Option.some.inj hstep
        exact ⟨rfl, rfl⟩
      · rw [hopens] at hstep
        obtain rfl := Option.some.inj hstep
        exact ⟨rfl, rfl⟩
  · rw [handleTcpPacket_open hlisten] at hstep
    obtain rfl := Option.some.inj hstep
    exact ⟨rfl, rfl⟩

theorem handlePingPacket_sameBase {s s' : Stack} {packet : IpPacket} {frames : List TxFrame}
    (hstep : handlePingPacket s packet = some (s', frames)) : SameBase s s' := by
  unfold handlePingPacket at hstep
  dsimp only at hstep
  split_ifs at hstep
  all_goals
    obtain ⟨rfl, rfl⟩ := Prod.mk.inj (Option.some.inj hstep)
    exact ⟨rfl, rfl⟩

theorem handleRxPacket_sameBase {s s' : Stack} {frame : RxFrame} {frames : List TxFrame}
    (hstep : handleRxPacket s frame = some (s', frames)) : SameBase s s' := by
  unfold handleRxPacket at hstep
  cases htype : frame.packet.type with
  | arp =>
    rw [htype] at hstep
    obtain ⟨rfl, rfl⟩ := Prod.mk.inj (Option.some.inj hstep)
    exact ⟨rfl, rfl⟩
  | ip =>
    rw [htype] at hstep
    dsimp only at hstep
    unfold handleIpPacket at hstep
    split_ifs at hstep
    · obtain ⟨rfl, rfl⟩ := Prod.mk.inj (Option.some.inj hstep)
      exact ⟨rfl, rfl⟩
    · exact handlePingPacket_sameBase hstep
    · obtain ⟨s₁, htcp, heq⟩ := Option.map_eq_some_iff.mp hstep
      obtain ⟨rfl, rfl⟩ := Prod.mk.inj heq
      exact handleTcpPacket_sameBase htcp
    · obtain ⟨rfl, rfl⟩ := Prod.mk.inj (Option.some.inj hstep)
      exact ⟨rfl, rfl⟩
  | unknown =>
    rw [htype] at hstep
    obtain ⟨rfl, rfl⟩ := Prod.mk.inj (Option.some.inj hstep)
    exact ⟨rfl, rfl⟩

/-- The two readings of a call are not after `time`. -/
def SendInput.ReadBy (input : SendInput) (time : Timespec) : Prop :=
  input.checked ≤ input.armed ∧ input.armed ≤ time

theorem BaseBy.sendTcpPacket {s : Stack} {time : Timespec} {input : SendInput}
    (h : BaseBy s time) (hread : input.ReadBy time) : BaseBy (s.sendTcpPacket input).1 time := by
  obtain ⟨hchecked, harmed⟩ := hread
  have hbase := h.checkNow (Timespec.le_trans hchecked harmed)
  unfold Stack.sendTcpPacket
  split
  · exact h
  · dsimp only
    split
    · exact (hbase.getNow harmed).same ⟨rfl, rfl⟩
    · exact hbase

theorem BaseBy.sendLoop {s : Stack} {time : Timespec} {inputs : ℕ → SendInput} (h : BaseBy s time)
    (hread : ∀ i, (inputs i).ReadBy time) (n i : ℕ) :
    BaseBy (EthTransfer.sendLoop inputs n i s).1 time := by
  induction n generalizing s i with
  | zero => exact h
  | succ n ih =>
    have hsent := h.sendTcpPacket (hread i)
    rw [EthTransfer.sendLoop]
    rcases hresult : s.sendTcpPacket (inputs i) with ⟨s₁, sent, more⟩
    rw [hresult] at hsent
    cases more with
    | true => exact ih hsent (i + 1)
    | false => exact hsent

theorem BaseBy.ipStackPoll {s s' : Stack} {time : Timespec} {poll : Poll} {frames : List TxFrame}
    (h : BaseBy s time) (hread : ∀ i, (poll.sends i).ReadBy time)
    (hstep : EthTransfer.ipStackPoll s poll = some (s', frames)) : BaseBy s' time := by
  obtain ⟨⟨s₁, sent⟩, hloop, heq⟩ := Option.map_eq_some_iff.mp hstep
  obtain ⟨rfl, rfl⟩ := Prod.mk.inj heq
  have hreceived : BaseBy s₁ time :=
    @receiveLoop_invariant (fun s _ => BaseBy s time)
      (fun hinv hframe => hinv.same (handleRxPacket_sameBase hframe)) POLL_CALLS s s₁ [] sent
      poll.frames h hloop
  exact hreceived.sendLoop hread POLL_CALLS 0

/-- The readings of an event are not after `time`. -/
def AppEvent.ReadBy (e : AppEvent) (time : Timespec) : Prop :=
  ∀ poll, e = .poll poll → ∀ i, (poll.sends i).ReadBy time

/-- An event keeps the base time, or sets it to a reading of its own. -/
theorem BaseBy.machineStep {m m' : Machine} {e : AppEvent} {result : AppResult} {time : Timespec}
    (h : BaseBy m.stack time) (hread : e.ReadBy time)
    (hstep : EthTransfer.machineStep m e = some (m', result)) : BaseBy m'.stack time := by
  cases machineStep_steps hstep with
  | poll _ hpoll => exact h.ipStackPoll (hread _ rfl) hpoll
  | round _ hpoll =>
    have hwrite (w : Writing) : BaseBy (writeStep m.stack w).1 time := h.same ⟨rfl, rfl⟩
    exact (hwrite _).ipStackPoll (hread _ rfl) hpoll
  | began => exact h
  | answered => exact h
  | called => exact h.same ⟨rfl, rfl⟩

/-- In every run from a stack whose base time is not set, the base time is a reading of the
run. -/
theorem BaseBy.run {m m' : Machine} {events : List AppEvent} {time : Timespec}
    {log : List (Purge.Entry Machine AppEvent AppResult)} (h : BaseBy m.stack time)
    (hread : ∀ e ∈ events, e.ReadBy time)
    (hrun : Purge.runLog EthTransfer.machineStep m events = some (m', log)) :
    BaseBy m'.stack time := by
  induction events generalizing m log with
  | nil =>
    obtain ⟨rfl, rfl⟩ := Prod.mk.inj (Option.some.inj hrun)
    exact h
  | cons e rest ih =>
    obtain ⟨m₁, result, log', hstep, hrest, rfl⟩ := Purge.exists_of_runLog_cons hrun
    exact ih (h.machineStep (hread e (by simp)) hstep) (fun e' he' => hread e' (by simp [he']))
      hrest

/-! ## The timer -/

variable {s : Stack} {input : SendInput} {time : Timespec}

/-- The timer fires when the second in which it was armed is over. -/
theorem Arms.fires_iff (h : Arms s input) (hbase : BaseBy s input.checked)
    (hchecked : input.checked ≤ input.armed) (hle : input.armed ≤ time) :
    checkTimeout (getNow (s.sendTcpPacket input).1 time).2
        (s.sendTcpPacket input).1.tcpConn.ackTimeout = true ↔ input.armed.sec < time.sec := by
  obtain ⟨hset, hbefore, htimeout⟩ := h.armed hbase hchecked
  have hwait : ACK_TIMEOUT = 20 := rfl
  have hsec : input.armed.sec ≤ time.sec := by
    rw [Timespec.le_iff] at hle
    omega
  have hvalue := Timespec.value_le hsec
  unfold checkTimeout
  rw [getNow_of_set hset, htimeout, Bool.or_eq_true, beq_iff_eq, decide_eq_true_eq]
  constructor
  · intro hfires
    by_contra hsame
    have heq := Timespec.value_congr (show input.armed.sec = time.sec by omega)
    omega
  · intro hlater
    omega

/-- The timer fires by the milliseconds that have passed exactly when at most 20 have
passed within a second, or more than 20 and a second has begun. -/
theorem measures_millis_iff (h : Arms s input) (hbase : BaseBy s input.checked)
    (hchecked : input.checked ≤ input.armed) (hle : input.armed ≤ time) :
    (checkTimeout (getNow (s.sendTcpPacket input).1 time).2
        (s.sendTcpPacket input).1.tcpConn.ackTimeout = true ↔
      ACK_TIMEOUT < time.millis - input.armed.millis) ↔
    (input.armed.sec = time.sec ∧ time.millis - input.armed.millis ≤ ACK_TIMEOUT ∨
      input.armed.sec < time.sec ∧ ACK_TIMEOUT < time.millis - input.armed.millis) := by
  have hwait : ACK_TIMEOUT = 20 := rfl
  rw [h.fires_iff hbase hchecked hle, hwait]
  rw [Timespec.le_iff] at hle
  omega

/-- A stack with an open connection, which has a SYN-ACK to send. -/
def openedStack : Stack := { listeningStack with tcpConn := peerConnection }

/-- A call of `send_tcp_packet` at one reading of the clock. -/
def sendAt (time : Timespec) : SendInput := ⟨time, time, fun _ => 0⟩

theorem openedStack_arms (time : Timespec) : Arms openedStack (sendAt time) where
  opened := by decide
  sends := rfl
  state := by decide

theorem openedStack_baseBy {time : Timespec} (hle : (⟨0, 0⟩ : Timespec) ≤ time) :
    BaseBy openedStack time := fun _ => ⟨⟨0, 0⟩, hle, rfl⟩

/-- A timer armed at 0.5 s measures milliseconds up to 0.6 s only in the first 20 of them. -/
theorem measures_millis_iff_half :
    (checkTimeout (getNow (openedStack.sendTcpPacket (sendAt ⟨0, 500000000⟩)).1
          ⟨0, 600000000⟩).2
        (openedStack.sendTcpPacket (sendAt ⟨0, 500000000⟩)).1.tcpConn.ackTimeout = true ↔
      ACK_TIMEOUT < Timespec.millis ⟨0, 600000000⟩ - Timespec.millis ⟨0, 500000000⟩) ↔
    ((0 : Int) = 0 ∧
        Timespec.millis ⟨0, 600000000⟩ - Timespec.millis ⟨0, 500000000⟩ ≤ ACK_TIMEOUT ∨
      (0 : Int) < 0 ∧
        ACK_TIMEOUT < Timespec.millis ⟨0, 600000000⟩ - Timespec.millis ⟨0, 500000000⟩) :=
  measures_millis_iff (openedStack_arms ⟨0, 500000000⟩) (openedStack_baseBy (by decide))
    (by decide) (show (⟨0, 500000000⟩ : Timespec) ≤ ⟨0, 600000000⟩ by decide)

/-- Armed one millisecond before the end of a second, the timer fires a millisecond later;
armed at its beginning, it has not fired 999 milliseconds later. -/
theorem timer_early_and_late :
    (checkTimeout (getNow (openedStack.sendTcpPacket (sendAt ⟨0, 999000000⟩)).1 ⟨1, 0⟩).2
        (openedStack.sendTcpPacket (sendAt ⟨0, 999000000⟩)).1.tcpConn.ackTimeout = true ∧
      Timespec.millis ⟨1, 0⟩ - Timespec.millis ⟨0, 999000000⟩ = 1) ∧
    checkTimeout (getNow (openedStack.sendTcpPacket (sendAt ⟨0, 0⟩)).1 ⟨0, 999000000⟩).2
        (openedStack.sendTcpPacket (sendAt ⟨0, 0⟩)).1.tcpConn.ackTimeout = false ∧
      Timespec.millis ⟨0, 999000000⟩ - Timespec.millis ⟨0, 0⟩ = 999 := by
  decide +kernel

end EthTransfer
