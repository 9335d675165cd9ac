import EthTransfer.Transmit.Call

/-!
# The arithmetic of `send_tcp_packet`

`send_tcp_packet` subtracts `uint32_t` counters, reads the difference as an
`int` and compares it with another difference.  As long as fewer than
2^31 - 1 bytes are written, whatever the peer sends, none of this wraps
(`send_arithmetic`).

* `CountersInOrder` is what holds before and after a call.
* `ExactSegment` is what holds of the connection that a call sends from: its
  differences, its length and its frame are those of the integers.
* `SendSafe` is the invariant.  A window is less than 2^30 (`WindowBounded`), so
  that the limit that a rewind computes does not wrap.

With one byte more the length can be negative (`negative_length`), because an
early timeout takes `tx_sent` back to 0, one before the first byte.
-/

namespace EthTransfer

open GuardedRun

/-! ## What is safe -/

/-- Nothing beyond `tx_write` or `tx_limit` has been sent. -/
structure CountersInOrder (c : TcpConnection) : Prop where
  sent_le_write : c.txSent ≤ c.txWrite
  sent_le_limit : c.txSent ≤ c.txLimit

/-- The segment that the connection sends is the one that the integers give. -/
structure ExactSegment (c : TcpConnection) : Prop where
  unsent : Word.toInt (c.txWrite - c.txSent) = (c.txWrite.toNat : Int) - c.txSent.toNat
  room : ((c.txLimit - c.txSent).toNat : Int) = (c.txLimit.toNat : Int) - c.txSent.toNat
  length : sendLength c =
    if isSyn c then 0
    else min (min ((c.txWrite.toNat : Int) - c.txSent.toNat)
      ((c.txLimit.toNat : Int) - c.txSent.toNat)) MAX_SEGMENT
  nonneg : 0 ≤ sendLength c
  le_max : sendLength c ≤ MAX_SEGMENT
  frame : 14 + 20 + sendOffset c + sendLength c ≤ PACKET_MAX_SIZE

/-- The invariant: `n` bytes are written, and the counters are in order. -/
structure SendSafe (c : TcpConnection) (n : ℕ) : Prop where
  count : c.txWrite.toNat = 1 + n
  sent_le_write : c.txSent.toNat ≤ c.txWrite.toNat
  sent_le_limit : c.txSent.toNat ≤ c.txLimit.toNat

theorem SendSafe.countersInOrder {c : TcpConnection} {n : ℕ} (h : SendSafe c n) :
    CountersInOrder c :=
  ⟨UInt32.le_iff_toNat_le.mpr h.sent_le_write, UInt32.le_iff_toNat_le.mpr h.sent_le_limit⟩

section Segment

variable {c : TcpConnection} {n : ℕ}

/-- The length of a segment, when the unsent data is less than 2^31 bytes. -/
theorem SendSafe.length_eq (h : SendSafe c n)
    (hunsent : c.txWrite.toNat - c.txSent.toNat < 2 ^ 31) :
    sendLength c =
      if isSyn c then 0
      else min (min ((c.txWrite.toNat : Int) - c.txSent.toNat)
        ((c.txLimit.toNat : Int) - c.txSent.toNat)) MAX_SEGMENT := by
  have hwrite : (c.txWrite - c.txSent).toNat = c.txWrite.toNat - c.txSent.toNat := by
    rw [Word.toNat_sub_cases, if_pos h.sent_le_write]
  have hlimit : (c.txLimit - c.txSent).toNat = c.txLimit.toNat - c.txSent.toNat := by
    rw [Word.toNat_sub_cases, if_pos h.sent_le_limit]
  have hle := h.sent_le_write
  have hle' := h.sent_le_limit
  have hroom := toNat_sendRoom c
  rw [hwrite, hlimit] at hroom
  rw [sendLength_eq_min, Word.toInt_of_lt (by split at hroom <;> omega), hroom]
  unfold MAX_SEGMENT
  split <;> omega

/-- Nothing wraps in the computation of a segment from safe counters. -/
theorem SendSafe.exactSegment (h : SendSafe c n) (hcount : n < 2 ^ 31 - 1) :
    ExactSegment c := by
  have hW := h.count
  have hle := h.sent_le_write
  have hle' := h.sent_le_limit
  have hlength := h.length_eq (by omega)
  have hnonneg : 0 ≤ sendLength c := by
    rw [hlength]
    unfold MAX_SEGMENT
    split <;> omega
  have hoffset := sendOffset_cases c
  refine ⟨?_, ?_, hlength, hnonneg, sendLength_le c, ?_⟩
  · have hsub : (c.txWrite - c.txSent).toNat = c.txWrite.toNat - c.txSent.toNat := by
      rw [Word.toNat_sub_cases, if_pos hle]
    rw [Word.toInt_of_lt (by omega)]
    omega
  · rw [Word.toNat_sub_cases, if_pos hle']
    omega
  · have hmax := sendLength_le c
    unfold MAX_SEGMENT at hmax
    unfold PACKET_MAX_SIZE
    omega

end Segment

/-! ## The window -/

/-- The peer offers no more than 16 bits, shifted by 14. -/
structure WindowBounded (c : TcpConnection) : Prop where
  window_lt : c.remoteWindow.toNat < 2 ^ 30
  scale_le : c.remoteWindowScale ≤ 14

/-- A window scale is at most 14, so a window is less than 2^30. -/
theorem window_shift_lt (size : UInt16) {scale : ℕ} (hscale : scale ≤ 14) :
    (size.toUInt32 <<< UInt32.ofNat scale).toNat < 2 ^ 30 := by
  have hsize := size.toNat_lt
  have hpow : 2 ^ scale ≤ 2 ^ 14 := Nat.pow_le_pow_right (by omega) hscale
  have hprod : size.toNat * 2 ^ scale ≤ 65535 * 2 ^ 14 := Nat.mul_le_mul (by omega) hpow
  rw [UInt32.toNat_shiftLeft, Word.toNat_ofNat_of_lt (by omega), UInt16.toNat_toUInt32,
    Nat.mod_eq_of_lt (show scale < 32 by omega), Nat.shiftLeft_eq]
  exact Nat.lt_of_le_of_lt (Nat.mod_le _ _) (by omega)

/-- A packet brings a window of its own, or none. -/
theorem Received.remoteWindow {ipAddr : UInt32} {c c' : TcpConnection} {packet : TcpPacket}
    (hreceived : Received ipAddr c packet c') :
    c'.remoteWindow = c.remoteWindow ∨ c'.remoteWindow = packet.window c := by
  cases hreceived with
  | ignored => exact Or.inl rfl
  | reset => exact Or.inl rfl
  | @accepted added hto hrst haccepts hadded =>
    right
    show packet.window added = packet.window c
    unfold TcpPacket.window
    rw [hadded.sameConnection.remoteWindowScale]

/-- Only a packet changes the window. -/
theorem WindowBounded.step {ipAddr : UInt32} {c c' : TcpConnection} {e : ConnEvent}
    {o : ConnOutput} (h : WindowBounded c) (hsteps : ConnSteps ipAddr c e c' o) :
    WindowBounded c' := by
  refine ⟨?_, hsteps.sameConnection.remoteWindowScale ▸ h.scale_le⟩
  cases hsteps with
  | @receive packet _ hreceived =>
    rcases hreceived.remoteWindow with hsame | hown
    · rw [hsame]
      exact h.window_lt
    · rw [hown]
      exact window_shift_lt packet.tcp.windowSize h.scale_le
  | send hsends => cases hsends <;> exact h.window_lt
  | read hreads =>
    rw [hreads.sameSender.remoteWindow]
    exact h.window_lt
  | write hwrites => cases hwrites <;> exact h.window_lt
  | shutdown => exact h.window_lt
  | close => exact h.window_lt
  | stale => exact h.window_lt

/-- After a rewind there is room for the window only, so the length is not
negative. -/
theorem WindowBounded.frameFits_rewind {c : TcpConnection} (h : WindowBounded c) :
    FrameFits (rewind c) := by
  have hroom : c.txAcked + c.remoteWindow - c.txAcked = c.remoteWindow := by
    rw [UInt32.add_comm, UInt32.add_sub_cancel]
  have hle : (sendRoom (rewind c)).toNat ≤ (c.txAcked + c.remoteWindow - c.txAcked).toNat :=
    sendRoom_le_limit (rewind c)
  have hlt := h.window_lt
  rw [hroom] at hle
  refine frameFits_of_nonneg ?_
  rw [sendLength_eq_min, Word.toInt_of_lt (by omega)]
  unfold MAX_SEGMENT
  omega

theorem Opens.windowBounded {s : Stack} {syn : TcpPacket} {c₀ : TcpConnection}
    (hopens : Opens s syn c₀) : WindowBounded c₀ := by
  obtain ⟨rand, windowScale, maxSegment, hscale, rfl⟩ := hopens.eq_openConnection
  exact ⟨window_shift_lt syn.tcp.windowSize hscale, hscale⟩

/-- The windows of a run are less than 2^30. -/
theorem ConnRun.windowBounded {ipAddr : UInt32} {ok : ConnGuard} {c₀ c : TcpConnection}
    {h : ConnHistory} (hrun : ConnRun ipAddr ok c₀ h c) (hstart : WindowBounded c₀) :
    WindowBounded c := by
  refine hrun.invariant (fun _ c => WindowBounded c) hstart ?_
  intro h c e c' o _ hinv _ _ hsteps
  exact hinv.step hsteps

/-! ## The steps -/

section Steps

variable {ipAddr : UInt32} {c c' : TcpConnection} {n : ℕ}

/-- The invariant is about three fields. -/
theorem SendSafe.congr (h : SendSafe c n) (hwrite : c'.txWrite = c.txWrite)
    (hsent : c'.txSent = c.txSent) (hlimit : c'.txLimit = c.txLimit) : SendSafe c' n := by
  refine ⟨?_, ?_, ?_⟩
  · rw [hwrite]
    exact h.count
  · rw [hsent, hwrite]
    exact h.sent_le_write
  · rw [hsent, hlimit]
    exact h.sent_le_limit

/-- A packet moves the limit up only. -/
theorem SendSafe.received (h : SendSafe c n) {packet : TcpPacket}
    (hreceived : Received ipAddr c packet c') : SendSafe c' n := by
  cases hreceived with
  | ignored => exact h
  | reset => exact h.congr rfl rfl rfl
  | @accepted added hto hrst haccepts hadded =>
    have htx := hadded.sameSender
    have hadd : SendSafe added n := h.congr htx.txWrite htx.txSent htx.txLimit
    refine ⟨hadd.count, hadd.sent_le_write, ?_⟩
    show added.txSent.toNat ≤ (receiveAck added packet).txLimit.toNat
    rw [receiveAck_txLimit]
    split
    · rename_i hlt
      exact Nat.le_trans hadd.sent_le_limit (Nat.le_of_lt (UInt32.lt_iff_toNat_lt.mp hlt))
    · exact hadd.sent_le_limit

/-- `tx_sent` moves to the end of the segment. -/
theorem SendSafe.transmit (h : SendSafe c n) (hcount : n < 2 ^ 31 - 1) (now : Int)
    (scratch : Bytes) : SendSafe (transmit c now scratch).conn n := by
  have hW := h.count
  have hle := h.sent_le_write
  have hle' := h.sent_le_limit
  have hexact := h.exactSegment hcount
  obtain ⟨len, hlen⟩ := Int.eq_ofNat_of_zero_le hexact.nonneg
  have hroom : (len : Int) ≤ (c.txWrite.toNat : Int) - c.txSent.toNat ∧
      (len : Int) ≤ (c.txLimit.toNat : Int) - c.txSent.toNat := by
    rw [← hlen, hexact.length]
    split <;> omega
  have hnext : (c.txSent + UInt32.ofInt (sendLength c)).toNat = c.txSent.toNat + len := by
    rw [hlen, Word.ofInt_natCast, Word.toNat_add_ofNat (by omega)]
  refine ⟨hW, ?_, ?_⟩
  · show (c.txSent + UInt32.ofInt (sendLength c)).toNat ≤ c.txWrite.toNat
    omega
  · show (c.txSent + UInt32.ofInt (sendLength c)).toNat ≤ c.txLimit.toNat
    omega

/-- Going back to `tx_acked` when less than `tx_sent` is acknowledged. -/
theorem SendSafe.rewind (h : SendSafe c n) (hwindow : WindowBounded c) (hcount : n < 2 ^ 31 - 1)
    {now : Int} (htime : timedOut c now = true) : SendSafe (rewind c) n := by
  have hlt := UInt32.lt_iff_toNat_lt.mp (timedOut_iff.mp htime).1
  have hW := h.count
  have hle := h.sent_le_write
  have hbound := hwindow.window_lt
  refine ⟨hW, ?_, ?_⟩
  · show c.txAcked.toNat ≤ c.txWrite.toNat
    omega
  · show c.txAcked.toNat ≤ (c.txAcked + c.remoteWindow).toNat
    rw [Word.toNat_add_of_lt (by omega)]
    omega

/-- The connection that a call sends from is as safe as the one that it is made
on. -/
theorem SendSafe.sendFrom (h : SendSafe c n) (hwindow : WindowBounded c)
    (hcount : n < 2 ^ 31 - 1) {clock : Clock} {c₁ : TcpConnection}
    (hfrom : sendFrom c clock = some c₁) : SendSafe c₁ n := by
  rcases sendFrom_cases hfrom with rfl | ⟨-, htime, rfl⟩
  · exact h
  · exact h.rewind hwindow hcount htime

/-- A call of `send_tcp_packet`. -/
theorem SendSafe.sends (h : SendSafe c n) (hwindow : WindowBounded c) (hcount : n < 2 ^ 31 - 1)
    {clock : Clock} {scratch : Bytes} {result : SendResult}
    (hsends : Sends c clock scratch result) : SendSafe result.conn n := by
  cases hsends with
  | idle => exact h
  | due => exact h.transmit hcount _ _
  | timeout _ htime => exact (h.rewind hwindow hcount htime).transmit hcount _ _

/-- `write_tcp` moves `tx_write` only. -/
theorem SendSafe.writes (h : SendSafe c n) {data : Bytes} {len : Int}
    {result : TcpConnection × Int} (hwrites : Writes c data len result)
    (hcount : n + result.2.toNat < 2 ^ 31 - 1) : SendSafe result.1 (n + result.2.toNat) := by
  cases hwrites with
  | none => exact h
  | @accepted k hpos hlen hwindow hbuffer =>
    have hW := h.count
    have hle := h.sent_le_write
    rw [Int.toNat_natCast] at hcount ⊢
    have hnext : (c.txWrite + UInt32.ofNat k).toNat = c.txWrite.toNat + k :=
      Word.toNat_add_ofNat (by omega)
    refine ⟨?_, ?_, h.sent_le_limit⟩
    · show (c.txWrite + UInt32.ofNat k).toNat = _
      omega
    · show c.txSent.toNat ≤ (c.txWrite + UInt32.ofNat k).toNat
      omega

/-- Every event keeps the counters in order. -/
theorem SendSafe.step {h : ConnHistory} {e : ConnEvent} {o : ConnOutput}
    (hinv : SendSafe c (written h).length) (hbound : WindowBounded c)
    (hsteps : ConnSteps ipAddr c e c' o)
    (hcount : (written (h ++ [(e, o)])).length < 2 ^ 31 - 1) :
    SendSafe c' (written (h ++ [(e, o)])).length := by
  have hquiet : o.accepted = [] → (written (h ++ [(e, o)])).length = (written h).length := by
    intro hnone
    rw [written_append, hnone, List.append_nil]
  cases hsteps with
  | receive hreceived =>
    rw [hquiet rfl]
    exact hinv.received hreceived
  | send hsends =>
    rw [hquiet rfl] at hcount ⊢
    exact hinv.sends hbound hcount hsends
  | read hreads =>
    have htx := hreads.sameSender
    rw [hquiet rfl]
    exact hinv.congr htx.txWrite htx.txSent htx.txLimit
  | write hwrites =>
    rw [written_append, List.length_append, length_takeBytes] at hcount ⊢
    exact hinv.writes hwrites hcount
  | shutdown =>
    rw [hquiet rfl]
    exact hinv.congr rfl rfl rfl
  | close =>
    rw [hquiet rfl]
    exact hinv.congr rfl rfl rfl
  | stale =>
    rw [hquiet rfl]
    exact hinv

end Steps

/-! ## The result -/

/-- The counters of a fresh connection are in order. -/
theorem Opens.sendSafe {s : Stack} {syn : TcpPacket} {c₀ : TcpConnection}
    (hopens : Opens s syn c₀) : SendSafe c₀ 0 := by
  obtain ⟨rand, windowScale, maxSegment, hscale, rfl⟩ := hopens.eq_openConnection
  have hwindow := window_shift_lt syn.tcp.windowSize hscale
  refine ⟨rfl, le_rfl, ?_⟩
  show 1 ≤ (1 + syn.tcp.windowSize.toUInt32 <<< UInt32.ofNat windowScale).toNat
  rw [UInt32.toNat_add]
  show 1 ≤ (1 + _) % _
  omega

/-- The counters stay in order while fewer than 2^31 - 1 bytes are written. -/
theorem ConnRun.sendSafe {ipAddr : UInt32} {ok : ConnGuard} {c₀ c : TcpConnection}
    {h : ConnHistory} (hrun : ConnRun ipAddr ok c₀ h c)
    (hstart : WindowBounded c₀ ∧ SendSafe c₀ 0) (hcount : (written h).length < 2 ^ 31 - 1) :
    SendSafe c (written h).length := by
  refine hrun.invariant
    (fun h c => (written h).length < 2 ^ 31 - 1 → SendSafe c (written h).length)
    (fun _ => hstart.2) ?_ hcount
  intro h c e c' o hrun hinv _ _ hsteps hcount
  refine (hinv ?_).step (hrun.windowBounded hstart.1) hsteps hcount
  rw [written_append, List.length_append] at hcount
  omega

/-- Whatever the peer sends, and in whatever order the application calls come,
as long as fewer than 2^31 - 1 bytes are written: the counters are in order before
and after each call of `send_tcp_packet`, and the segment that it sends is the one
that the integers give. -/
theorem send_arithmetic {s : Stack} {syn : TcpPacket} {c₀ c : TcpConnection}
    {h : ConnHistory} (hopens : Opens s syn c₀) (hrun : ConnRun s.ipAddr anyEvent c₀ h c)
    (hcount : (written h).length < 2 ^ 31 - 1) :
    CountersInOrder c ∧ ∀ clock scratch,
      CountersInOrder (sendTcpPacket c clock scratch).conn ∧
        ∀ c₁, sendFrom c clock = some c₁ → ExactSegment c₁ := by
  have hwindow := hrun.windowBounded hopens.windowBounded
  have hsafe := hrun.sendSafe ⟨hopens.windowBounded, hopens.sendSafe⟩ hcount
  refine ⟨hsafe.countersInOrder, fun clock scratch => ⟨?_, fun c₁ hfrom => ?_⟩⟩
  · by_cases hopen : c.state = .listen
    · have hsame : (sendTcpPacket c clock scratch).conn = c := by
        unfold sendTcpPacket
        rw [if_pos hopen]
      rw [hsame]
      exact hsafe.countersInOrder
    · exact (hsafe.sends hwindow hcount (sendTcpPacket_sends hopen clock scratch)).countersInOrder
  · exact (hsafe.sendFrom hwindow hcount hfrom).exactSegment hcount

/-- The SYN goes out twice, because the timer expires before the peer answers.
The peer then acknowledges nearly 2^31 bytes that were never sent. -/
def farAcknowledgement : List ConnEvent :=
  [.send ⟨0, 0⟩ fun _ => 0, .send ⟨21, 21⟩ fun _ => 0,
    .receive (peerPacket 1 2147479652 TCP_ACK 4096 [])]

theorem farAcknowledgement_meets :
    ConnMeets listeningStack.ipAddr anyEvent peerConnection farAcknowledgement := by
  decide +kernel

/-- The connection after that. -/
def farConnection : TcpConnection :=
  (connExec listeningStack.ipAddr peerConnection farAcknowledgement).2

theorem send_arithmetic_far :
    CountersInOrder farConnection ∧ ∀ clock scratch,
      CountersInOrder (sendTcpPacket farConnection clock scratch).conn ∧
        ∀ c₁, sendFrom farConnection clock = some c₁ → ExactSegment c₁ :=
  send_arithmetic peerSyn_opens farAcknowledgement_meets.run (by decide +kernel)

/-- The `write_tcp` call that follows: 2^31 - 1 bytes at once. -/
def hugeWrite : ConnEvent := .write 1 (fun _ => 97) (2 ^ 31 - 1)

theorem hugeWrite_accepted :
    (connStep listeningStack.ipAddr farConnection hugeWrite).2.accepted =
      takeBytes (fun _ => 97) (2 ^ 31 - 1) := by
  have hcount : (writeRound farConnection (fun _ => 97) (2 ^ 31 - 1)).2 = 2 ^ 31 - 1 := by
    decide +kernel
  unfold connStep hugeWrite
  dsimp only
  rw [if_neg (by decide +kernel), hcount]

/-- A run that writes 2^31 - 1 bytes.  The length of the segment that it then sends
is negative. -/
theorem negative_length :
    Opens listeningStack peerSyn peerConnection ∧
      ∃ h c c₁, ConnRun listeningStack.ipAddr anyEvent peerConnection h c ∧
        (written h).length < 2 ^ 31 ∧ sendFrom c ⟨0, 0⟩ = some c₁ ∧
        sendLength c₁ = -2 ^ 31 ∧ ¬ ExactSegment c₁ := by
  have hrun : ConnRun listeningStack.ipAddr anyEvent peerConnection
      (connExec listeningStack.ipAddr peerConnection farAcknowledgement).1 farConnection :=
    farAcknowledgement_meets.run
  have hlength : sendLength (connStep listeningStack.ipAddr farConnection hugeWrite).1 =
      -2 ^ 31 := by
    decide +kernel
  have hfrom : sendFrom (connStep listeningStack.ipAddr farConnection hugeWrite).1 ⟨0, 0⟩ =
      some (connStep listeningStack.ipAddr farConnection hugeWrite).1 := by
    unfold sendFrom
    rw [if_pos (by decide +kernel)]
  refine ⟨peerSyn_opens, _, _, _, hrun.next (e := hugeWrite) ⟨by decide +kernel, trivial⟩, ?_,
    hfrom, hlength, ?_⟩
  · have hnone : written (connExec listeningStack.ipAddr peerConnection farAcknowledgement).1 =
        [] := by
      decide +kernel
    rw [written_append, hnone, hugeWrite_accepted, List.nil_append, length_takeBytes]
    decide
  · intro hexact
    have hnonneg := hexact.nonneg
    rw [hlength] at hnonneg
    omega

end EthTransfer
