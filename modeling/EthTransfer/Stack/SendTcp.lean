import EthTransfer.Stack.CircleBuffer

/-!
# Sending TCP segments

`send_tcp_packet`, cut into the decision to send (`sendDue`, `timedOut`), the
go-back-N step (`rewind`), the length and the flags of the segment
(`sendLength`, `sendFlags`), the segment itself (`buildSegment`) and the state
update (`afterSend`).

`Sends` lists what a call can do.  `sendRoom` is the number of bytes that there are
to be sent, and `sendLength_eq_min` cuts it to `MAX_SEGMENT`.

A `TxSegment` holds the fields of the TCP header, the two options of a SYN, and
the payload.  The Ethernet and IP headers around it come from the connection
and the stack alone.
-/

namespace EthTransfer

/-- A transmitted TCP segment, in host order. -/
structure TxSegment where
  destMac : EthMac
  destIp : UInt32
  totalLength : UInt16
  sourcePort : UInt16
  destPort : UInt16
  sequence : UInt32
  ack : UInt32
  offsetFlags : UInt16
  windowSize : UInt16
  options : List UInt32
  payload : List UInt8
  deriving DecidableEq, Repr

/-- Whether a flag of a transmitted segment is set. -/
def TxSegment.has (segment : TxSegment) (flag : UInt16) : Bool :=
  segment.offsetFlags &&& flag != 0

/-- What `get_now` answers during one call: to `check_timeout`, and when the
timer is armed. -/
structure Clock where
  checked : Int
  armed : Int

/-- `check_timeout`. -/
def checkTimeout (now timeout : Int) : Bool := timeout == -1 || decide (now > timeout)

/-- C's `!` on an integer. -/
def logicalNot (n : ℕ) : ℕ := if n = 0 then 1 else 0

/-- The reasons to send at once: unsent data, a pending acknowledgement, and a
pending RST. -/
def sendDue (c : TcpConnection) : Bool :=
  decide (c.txSent < c.txWrite) || c.ackTimeout == -1 || c.state == .sendRst

/-- The timer of unacknowledged data has expired. -/
def timedOut (c : TcpConnection) (now : Int) : Bool :=
  decide (c.txAcked < c.txSent) && checkTimeout now c.ackTimeout

/-- Go back to the first unacknowledged byte. -/
def rewind (c : TcpConnection) : TcpConnection :=
  { c with txSent := c.txAcked, txLimit := c.txAcked + c.remoteWindow }

/-- The segment is a SYN as long as nothing is acknowledged. -/
def isSyn (c : TcpConnection) : Bool := c.txAcked == 0

/-- `data_offset`. -/
def sendOffset (c : TcpConnection) : Int := if isSyn c then 28 else 20

/-- The final value of `data_length`.  The comparison with the room up to
`tx_limit` is one of `uint32_t`. -/
def sendLength (c : TcpConnection) : Int :=
  let dataLength := if isSyn c then 0 else Word.toInt (c.txWrite - c.txSent)
  let dataLength :=
    if UInt32.ofInt dataLength > c.txLimit - c.txSent then Word.toInt (c.txLimit - c.txSent)
    else dataLength
  if dataLength > MAX_SEGMENT then MAX_SEGMENT else dataLength

/-- The flags of the segment. -/
def sendFlags (c : TcpConnection) : UInt16 :=
  TCP_ACK ||| (if isSyn c then TCP_SYN else 0) |||
    (if c.txAcked ≥ c.txFin then TCP_FIN else 0) |||
    (if c.state = .sendRst then TCP_RST else 0)

/-- The advertised window, cut to the 16 bits of its field. -/
def sendWindow (c : TcpConnection) : UInt16 := (c.rxRead + TCP_WINDOW - c.rxWrite).toUInt16

/-- The segment that `send_tcp_packet` builds.  `scratch` is the memory behind
the TCP header in the fresh packet, which the source does not clear. -/
def buildSegment (c : TcpConnection) (scratch : Bytes) : TxSegment :=
  let dataLength := sendLength c
  let body := copyFromCircleBuffer scratch dataLength c.txBuffer TX_MASK c.txSent dataLength
  { destMac := c.remoteMac
    destIp := c.remoteIp
    totalLength := UInt16.ofInt (20 + sendOffset c + dataLength)
    sourcePort := c.localPort
    destPort := c.remotePort
    sequence := c.txSent + c.localSequence - (if isSyn c then 1 else 0)
    ack := c.rxWrite + c.remoteSequence
    offsetFlags := (UInt16.ofInt (sendOffset c) >>> 2) <<< 12 ||| sendFlags c
    windowSize := sendWindow c
    options :=
      if isSyn c then [0x02040000 + UInt32.ofInt MAX_SEGMENT, 0x01030300] else []
    payload := (List.range dataLength.toNat).map body }

/-- The states of an orderly close. -/
def closeState (c : TcpConnection) (flags : UInt16) (state : TcpState) : TcpState :=
  let state :=
    if c.rxWrite ≥ c.rxFin then
      if state = .txClosed then .bothClosed else .rxClosed
    else state
  if flags &&& TCP_FIN != 0 then
    if state = .rxClosed then .bothClosed else .txClosed
  else state

/-- The state after a segment has been sent.  The source guards the orderly
close with `!tcp_conn.state == TCP_DATA_TO_READ`, which compares the negated
state with the number 8. -/
def sentState (c : TcpConnection) : TcpState :=
  let state := if isSyn c then .synAckSent else c.state
  let state := if state = .sendRst then .dataToRead else state
  if logicalNot state.code = TcpState.dataToRead.code then closeState c (sendFlags c) state
  else state

/-- The connection after a segment has been sent. -/
def afterSend (c : TcpConnection) (now : Int) : TcpConnection :=
  let state := sentState c
  { c with
    rxAcked := c.rxWrite
    rxWindow := (sendWindow c).toUInt32
    txSent := c.txSent + UInt32.ofInt (sendLength c)
    ackTimeout := if state = .bothClosed then -1 else now + ACK_TIMEOUT
    state := if state = .bothClosed then .sendRst else state }

/-- `send_packet` puts a frame on the wire when its length is in range. -/
def TxSegment.fits (segment : TxSegment) : Bool :=
  decide ((14 : Int) + segment.totalLength.toNat ≤ PACKET_MAX_SIZE)

/-- The result of a call of `send_tcp_packet`: the connection, the segment on
the wire, and the return value. -/
structure SendResult where
  conn : TcpConnection
  sent : Option TxSegment
  ret : Bool

/-- The branch `if (send)`. -/
def transmit (c : TcpConnection) (now : Int) (scratch : Bytes) : SendResult :=
  let segment := buildSegment c scratch
  { conn := afterSend c now
    sent := if segment.fits then some segment else none
    ret := sendLength c > 0 }

/-- `send_tcp_packet`. -/
def sendTcpPacket (c : TcpConnection) (clock : Clock) (scratch : Bytes) : SendResult :=
  if c.state = .listen then { conn := c, sent := none, ret := false }
  else if sendDue c then transmit c clock.armed scratch
  else if timedOut c clock.checked then transmit (rewind c) clock.armed scratch
  else { conn := c, sent := none, ret := false }

/-! ## The dead close machine -/

/-- The negation of a state is 0 or 1, so the guard of the orderly close is
never met. -/
theorem logicalNot_ne (state : TcpState) :
    logicalNot state.code ≠ TcpState.dataToRead.code := by
  cases state <;> decide

theorem sentState_eq (c : TcpConnection) :
    sentState c =
      if isSyn c then .synAckSent
      else if c.state = .sendRst then .dataToRead else c.state := by
  unfold sentState
  simp only [logicalNot_ne, if_false]
  split_ifs <;> simp_all

/-- The state after a segment.  `TCP_BOTH_CLOSED` would become `TCP_SEND_RST`. -/
theorem afterSend_state (c : TcpConnection) (now : Int) :
    (afterSend c now).state =
      if isSyn c then .synAckSent
      else if c.state = .sendRst then .dataToRead
      else if c.state = .bothClosed then .sendRst else c.state := by
  show (if sentState c = .bothClosed then .sendRst else sentState c) = _
  rw [sentState_eq]
  split_ifs <;> simp_all

/-! ## What a call can do -/

theorem sendDue_iff {c : TcpConnection} :
    sendDue c = true ↔ c.txSent < c.txWrite ∨ c.ackTimeout = -1 ∨ c.state = .sendRst := by
  unfold sendDue
  simp only [Bool.or_eq_true, decide_eq_true_eq, beq_iff_eq, or_assoc]

theorem timedOut_iff {c : TcpConnection} {now : Int} :
    timedOut c now = true ↔ c.txAcked < c.txSent ∧ (c.ackTimeout = -1 ∨ c.ackTimeout < now) := by
  unfold timedOut checkTimeout
  simp only [Bool.and_eq_true, Bool.or_eq_true, decide_eq_true_eq, beq_iff_eq, gt_iff_lt]

/-- What `send_tcp_packet` can do to an open connection. -/
inductive Sends (c : TcpConnection) (clock : Clock) (scratch : Bytes) : SendResult → Prop where
  /-- Nothing to send. -/
  | idle (hdue : sendDue c = false) (htime : timedOut c clock.checked = false) :
      Sends c clock scratch { conn := c, sent := none, ret := false }
  /-- A segment from `tx_sent` on. -/
  | due (hdue : sendDue c = true) : Sends c clock scratch (transmit c clock.armed scratch)
  /-- The timer has expired: a segment from `tx_acked` on. -/
  | timeout (hdue : sendDue c = false) (htime : timedOut c clock.checked = true) :
      Sends c clock scratch (transmit (rewind c) clock.armed scratch)

theorem sendTcpPacket_sends {c : TcpConnection} (hopen : c.state ≠ .listen) (clock : Clock)
    (scratch : Bytes) : Sends c clock scratch (sendTcpPacket c clock scratch) := by
  unfold sendTcpPacket
  rw [if_neg hopen]
  split_ifs with hdue htime
  · exact .due hdue
  · exact .timeout (by simpa using hdue) htime
  · exact .idle (by simpa using hdue) (by simpa using htime)

/-- A segment on the wire is the one that was built. -/
theorem transmit_sent {c : TcpConnection} {now : Int} {scratch : Bytes} {segment : TxSegment}
    (h : (transmit c now scratch).sent = some segment) : segment = buildSegment c scratch := by
  unfold transmit at h
  dsimp only at h
  split at h
  · exact (Option.some.inj h).symm
  · cases h

/-- Every segment on the wire acknowledges `rx_write` and advertises the
window, also after a rewind. -/
theorem Sends.sent_window {c : TcpConnection} {clock : Clock} {scratch : Bytes}
    {result : SendResult} {t : TxSegment} (h : Sends c clock scratch result)
    (ht : result.sent = some t) :
    t.ack = c.rxWrite + c.remoteSequence ∧ t.windowSize = sendWindow c := by
  cases h with
  | idle => cases ht
  | due =>
    rw [transmit_sent ht]
    exact ⟨rfl, rfl⟩
  | timeout =>
    rw [transmit_sent ht]
    exact ⟨rfl, rfl⟩

/-- The state after a call: what it was, or what a segment makes of it.  A rewind
changes neither the state nor whether the segment is a SYN. -/
theorem Sends.state_cases {c : TcpConnection} {clock : Clock} {scratch : Bytes}
    {result : SendResult} (h : Sends c clock scratch result) :
    result.conn.state = c.state ∨
      result.conn.state =
        if isSyn c then .synAckSent
        else if c.state = .sendRst then .dataToRead
        else if c.state = .bothClosed then .sendRst else c.state := by
  cases h with
  | idle => exact Or.inl rfl
  | due => exact Or.inr (afterSend_state c _)
  | timeout => exact Or.inr (afterSend_state (rewind c) _)

/-! ## Lengths -/

/-- The bytes that there are to be sent and that fit below `tx_limit`.  A SYN
carries none. -/
def sendRoom (c : TcpConnection) : UInt32 :=
  if isSyn c then 0
  else if c.txLimit - c.txSent < c.txWrite - c.txSent then c.txLimit - c.txSent
  else c.txWrite - c.txSent

/-- A segment is as long as there are bytes for it, up to `MAX_SEGMENT`.  The
number of bytes is read as an `int`. -/
theorem sendLength_eq_min (c : TcpConnection) :
    sendLength c = min (Word.toInt (sendRoom c)) MAX_SEGMENT := by
  have hzero : ¬ UInt32.ofInt 0 > c.txLimit - c.txSent := by
    rw [gt_iff_lt, UInt32.not_lt, UInt32.le_iff_toNat_le]
    simp [Word.toNat_ofInt]
  have hmin : ∀ x y : Int, (if x > y then y else x) = min x y := by
    intro x y
    split <;> omega
  unfold sendLength sendRoom
  dsimp only
  rw [hmin]
  cases isSyn c with
  | true =>
    simp only [if_true]
    rw [if_neg hzero]
    rfl
  | false =>
    simp only [Bool.false_eq_true, if_false, Word.ofInt_toInt, gt_iff_lt]
    split <;> rfl

/-- The room is the smaller of the two differences. -/
theorem toNat_sendRoom (c : TcpConnection) :
    (sendRoom c).toNat =
      if isSyn c then 0 else min (c.txWrite - c.txSent).toNat (c.txLimit - c.txSent).toNat := by
  unfold sendRoom
  simp only [UInt32.lt_iff_toNat_lt]
  split_ifs
  · rfl
  · omega
  · omega

theorem sendRoom_le_limit (c : TcpConnection) :
    (sendRoom c).toNat ≤ (c.txLimit - c.txSent).toNat := by
  rw [toNat_sendRoom]
  split <;> omega

theorem sendRoom_le_unsent (c : TcpConnection) :
    (sendRoom c).toNat ≤ (c.txWrite - c.txSent).toNat := by
  rw [toNat_sendRoom]
  split <;> omega

theorem sendLength_le (c : TcpConnection) : sendLength c ≤ MAX_SEGMENT := by
  rw [sendLength_eq_min]
  exact min_le_right _ _

/-- A SYN carries no data. -/
theorem sendLength_syn {c : TcpConnection} (h : isSyn c = true) : sendLength c = 0 := by
  have hroom : sendRoom c = 0 := by
    unfold sendRoom
    rw [if_pos h]
  rw [sendLength_eq_min, hroom]
  decide

/-- The header is 20 bytes long, and the options of a SYN take 8 more. -/
theorem sendOffset_cases (c : TcpConnection) : sendOffset c = 20 ∨ sendOffset c = 28 := by
  unfold sendOffset
  split
  · exact Or.inr rfl
  · exact Or.inl rfl

end EthTransfer
