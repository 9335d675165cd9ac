import EthTransfer.Stack.Connection

/-!
# Segments on the wire

What `send_tcp_packet` puts on the wire, in terms of the connection it was
called on.

* The flags, the sequence number and the payload of `buildSegment`.
* `sendLength_eq` and `sendLength_le_limit`: the length is a natural number when
  the unsent data is less than 2^31 bytes, and it never exceeds the room up to
  `tx_limit`.
* `FrameFits` is the check of `send_packet`, and `transmit_sent_iff` says when a
  segment passes it.
* `endOffset` is the offset just past a segment, with the SYN and the FIN
  counting as one each, and `sentEnd` the highest one in a history.
-/

namespace EthTransfer

open RingBuffer

/-! ## The fields -/

/-- The offset and flag bits of a segment by its three conditions. -/
def offsetFlagBits (syn fin rst : Bool) : UInt16 :=
  (UInt16.ofInt (if syn then 28 else 20) >>> 2) <<< 12 |||
    (TCP_ACK ||| (if syn then TCP_SYN else 0) ||| (if fin then TCP_FIN else 0) |||
      (if rst then TCP_RST else 0))

theorem offsetFlagBits_has : ∀ syn fin rst : Bool,
    (offsetFlagBits syn fin rst &&& TCP_SYN != 0) = syn ∧
      (offsetFlagBits syn fin rst &&& TCP_FIN != 0) = fin ∧
      (offsetFlagBits syn fin rst &&& TCP_ACK != 0) = true := by
  decide

section Fields

variable (c : TcpConnection) (scratch : Bytes)

theorem buildSegment_offsetFlags :
    (buildSegment c scratch).offsetFlags =
      offsetFlagBits (isSyn c) (decide (c.txFin ≤ c.txAcked)) (decide (c.state = .sendRst)) := by
  simp [buildSegment, offsetFlagBits, sendOffset, sendFlags]

/-- A segment is a SYN exactly as long as nothing is acknowledged. -/
@[simp] theorem buildSegment_has_syn : (buildSegment c scratch).has TCP_SYN = isSyn c := by
  unfold TxSegment.has
  rw [buildSegment_offsetFlags]
  exact (offsetFlagBits_has _ _ _).1

/-- A segment is a FIN exactly when everything before the FIN is
acknowledged. -/
@[simp] theorem buildSegment_has_fin :
    (buildSegment c scratch).has TCP_FIN = decide (c.txFin ≤ c.txAcked) := by
  unfold TxSegment.has
  rw [buildSegment_offsetFlags]
  exact (offsetFlagBits_has _ _ _).2.1

/-- Every segment acknowledges. -/
@[simp] theorem buildSegment_has_ack : (buildSegment c scratch).has TCP_ACK = true := by
  unfold TxSegment.has
  rw [buildSegment_offsetFlags]
  exact (offsetFlagBits_has _ _ _).2.2

@[simp] theorem length_buildSegment_payload :
    (buildSegment c scratch).payload.length = (sendLength c).toNat := by
  simp [buildSegment]

theorem buildSegment_sequence :
    (buildSegment c scratch).sequence =
      c.txSent + c.localSequence - (if isSyn c then 1 else 0) := rfl

end Fields

/-! ## The length -/

/-- The room up to `tx_limit` bounds the length, whatever the counters are. -/
theorem sendLength_le_limit (c : TcpConnection) :
    (UInt32.ofInt (sendLength c)).toNat ≤ (c.txLimit - c.txSent).toNat ∧
      (sendLength c).toNat ≤ (c.txLimit - c.txSent).toNat := by
  have hroom := sendRoom_le_limit c
  have hint := Word.toInt_eq (sendRoom c)
  have hlt := (sendRoom c).toNat_lt
  rw [Word.toNat_ofInt, sendLength_eq_min]
  unfold MAX_SEGMENT
  split at hint <;> omega

/-- With less than 2^31 bytes unsent, the length is a natural number of bytes
that are there to be sent. -/
theorem sendLength_eq {c : TcpConnection} (hdata : (c.txWrite - c.txSent).toNat < 2 ^ 31) :
    ∃ n : ℕ, sendLength c = n ∧ n ≤ 1400 ∧ n ≤ (c.txWrite - c.txSent).toNat := by
  have hroom := sendRoom_le_unsent c
  have hlength := sendLength_eq_min c
  rw [Word.toInt_of_lt (by omega)] at hlength
  unfold MAX_SEGMENT at hlength
  exact ⟨min (sendRoom c).toNat 1400, by omega, by omega, by omega⟩

/-- The length check of `send_packet`, on the segment that the connection would
send. -/
def FrameFits (c : TcpConnection) : Prop :=
  (14 : Int) + (UInt16.ofInt (20 + sendOffset c + sendLength c)).toNat ≤ PACKET_MAX_SIZE

instance (c : TcpConnection) : Decidable (FrameFits c) :=
  inferInstanceAs (Decidable (_ ≤ _))

theorem transmit_sent_iff {c : TcpConnection} {now : Int} {scratch : Bytes} {t : TxSegment} :
    (transmit c now scratch).sent = some t ↔ FrameFits c ∧ t = buildSegment c scratch := by
  have hfits : (buildSegment c scratch).fits = true ↔ FrameFits c := by
    unfold TxSegment.fits FrameFits
    exact decide_eq_true_iff
  show (if (buildSegment c scratch).fits then some (buildSegment c scratch) else none) = some t ↔ _
  split
  · rename_i h
    simp [hfits.mp h, eq_comm]
  · rename_i h
    have hnot : ¬ FrameFits c := fun hf => h (hfits.mpr hf)
    simp [hnot]

/-- A segment whose length is not negative is short enough for the wire. -/
theorem frameFits_of_nonneg {c : TcpConnection} (h : 0 ≤ sendLength c) : FrameFits c := by
  have hmax := sendLength_le c
  unfold MAX_SEGMENT at hmax
  have hoffset := sendOffset_cases c
  have hlt : (UInt16.ofInt (20 + sendOffset c + sendLength c)).toNat =
      (20 + sendOffset c + sendLength c).toNat := by
    rw [UInt16.ofInt, UInt16.toNat_ofNat']
    omega
  unfold FrameFits PACKET_MAX_SIZE
  rw [hlt]
  omega

theorem transmit_sent_eq {c : TcpConnection} {n : ℕ} (hlength : sendLength c = n) (now : Int)
    (scratch : Bytes) : (transmit c now scratch).sent = some (buildSegment c scratch) :=
  transmit_sent_iff.mpr ⟨frameFits_of_nonneg (by omega), rfl⟩

/-- A segment with data is not a SYN. -/
theorem isSyn_of_lt_length {c : TcpConnection} {scratch : Bytes} {i : ℕ}
    (hi : i < (buildSegment c scratch).payload.length) : isSyn c = false := by
  by_contra hsyn
  rw [length_buildSegment_payload, sendLength_syn (Bool.not_eq_false _ ▸ hsyn)] at hi
  exact absurd hi (Nat.not_lt_zero i)

/-- The payload is what the transmit ring holds from `tx_sent` on. -/
theorem buildSegment_payload_get {c : TcpConnection} {n i : ℕ} (hlength : sendLength c = n)
    (hn : n ≤ 1400) (hi : i < n) (scratch : Bytes) :
    (buildSegment c scratch).payload[i]? =
      some (c.txBuffer ((c.txSent.toNat + i) % RING)) := by
  show ((List.range (sendLength c).toNat).map (copyFromCircleBuffer scratch (sendLength c)
    c.txBuffer RX_MASK c.txSent (sendLength c)))[i]? = _
  rw [hlength, Int.toNat_natCast,
    copyFromCircleBuffer_ring _ _ _ (show n < 8192 by omega) le_rfl, List.getElem?_map,
    List.getElem?_range hi]
  simp only [Option.map_some, load, hi, if_true]

/-! ## Received packets -/

/-- A packet moves `tx_acked` at most, up to the offset that it acknowledges. -/
theorem Received.txAcked {ipAddr : UInt32} {c c' : TcpConnection} {packet : TcpPacket}
    (hreceived : Received ipAddr c packet c') :
    c'.txWrite = c.txWrite ∧ c'.txSent = c.txSent ∧ c'.txFin = c.txFin ∧
      c'.txBuffer = c.txBuffer ∧
      (c'.txAcked = c.txAcked ∨
        Addressed ipAddr c packet ∧ packet.tcp.has TCP_RST = false ∧ Accepts c packet ∧
          c.txAcked ≤ c'.txAcked ∧ c'.txAcked = packet.ackOffset c) := by
  cases hreceived with
  | ignored => exact ⟨rfl, rfl, rfl, rfl, Or.inl rfl⟩
  | reset => exact ⟨rfl, rfl, rfl, rfl, Or.inl rfl⟩
  | @accepted added hto hrst haccepts hadded =>
    have htx := hadded.sameSender
    have hack : packet.ackOffset added = packet.ackOffset c := by
      unfold TcpPacket.ackOffset
      rw [hadded.sameConnection.localSequence]
    refine ⟨htx.txWrite, htx.txSent, htx.txFin, htx.txBuffer, ?_⟩
    show (receiveAck added packet).txAcked = c.txAcked ∨ _ ∧ _ ∧ _ ∧
      c.txAcked ≤ (receiveAck added packet).txAcked ∧ (receiveAck added packet).txAcked = _
    rw [receiveAck_txAcked, hack, htx.txAcked]
    split
    · rename_i hlt
      exact Or.inr ⟨hto, hrst, haccepts, UInt32.le_of_lt hlt, rfl⟩
    · exact Or.inl rfl

/-- `tx_acked` does not go back to 0. -/
theorem Received.acked_ne_zero {ipAddr : UInt32} {c c' : TcpConnection} {packet : TcpPacket}
    (hreceived : Received ipAddr c packet c') (h : c'.txAcked = 0) : c.txAcked = 0 := by
  obtain ⟨-, -, -, -, hkeep | ⟨-, -, -, hle, -⟩⟩ := hreceived.txAcked
  · exact hkeep.symm.trans h
  · rw [h] at hle
    have hle' := UInt32.le_iff_toNat_le.mp hle
    rw [← UInt32.toNat_inj]
    exact Nat.le_zero.mp hle'

/-! ## Calls of `send_tcp_packet` -/

/-- A call sends nothing, or it sends from the connection as it is or from the
rewound one. -/
theorem Sends.transmit_cases {c : TcpConnection} {clock : Clock} {scratch : Bytes}
    {result : SendResult} (h : Sends c clock scratch result) :
    result.conn = c ∧ result.sent = none ∨
      ∃ c₁, result = transmit c₁ clock.armed scratch ∧
        (c₁ = c ∨ sendDue c = false ∧ timedOut c clock.checked = true ∧ c₁ = rewind c) := by
  cases h with
  | idle => exact Or.inl ⟨rfl, rfl⟩
  | due => exact Or.inr ⟨c, rfl, Or.inl rfl⟩
  | timeout hdue htime => exact Or.inr ⟨rewind c, rfl, Or.inr ⟨hdue, htime, rfl⟩⟩

/-- The segments on the wire after a segment has been sent. -/
theorem mem_transmitted_transmit {h : ConnHistory} {e : ConnEvent} {c : TcpConnection}
    {now : Int} {scratch : Bytes} {segment : TxSegment}
    (hmem : segment ∈ transmitted (h ++ [(e, { sent := (transmit c now scratch).sent })])) :
    segment ∈ transmitted h ∨ segment = buildSegment c scratch := by
  rw [transmitted_append] at hmem
  rcases List.mem_append.mp hmem with hold | hlast
  · exact Or.inl hold
  · have hsent : (transmit c now scratch).sent = some segment := Option.mem_toList.mp hlast
    exact Or.inr (transmit_sent hsent)

/-! ## Offsets -/

/-- The offset of the payload byte `i` of a segment. -/
def TxSegment.byteOffset (c : TcpConnection) (segment : TxSegment) (i : ℕ) : UInt32 :=
  segment.sequence + UInt32.ofNat i - c.localSequence

/-- The offset just past a segment.  A SYN and a FIN count as one each. -/
def TxSegment.endOffset (c : TcpConnection) (segment : TxSegment) : UInt32 :=
  segment.sequence + UInt32.ofNat segment.payload.length +
    (if segment.has TCP_SYN then 1 else 0) + (if segment.has TCP_FIN then 1 else 0) -
    c.localSequence

/-- The highest offset that the segments on the wire have reached. -/
def sentEnd (c : TcpConnection) (h : ConnHistory) : ℕ :=
  ((transmitted h).map fun segment => (segment.endOffset c).toNat).foldr max 0

theorem sentEnd_le_iff {c : TcpConnection} {h : ConnHistory} {b : ℕ} :
    sentEnd c h ≤ b ↔ ∀ segment ∈ transmitted h, (segment.endOffset c).toNat ≤ b := by
  unfold sentEnd
  induction transmitted h with
  | nil => simp
  | cons segment rest ih => simp [ih]

theorem endOffset_le_sentEnd {c : TcpConnection} {h : ConnHistory} {segment : TxSegment}
    (hmem : segment ∈ transmitted h) : (segment.endOffset c).toNat ≤ sentEnd c h :=
  sentEnd_le_iff.mp le_rfl segment hmem

theorem SameConnection.sentEnd {c c' : TcpConnection} (hsame : SameConnection c c')
    (h : ConnHistory) : EthTransfer.sentEnd c' h = EthTransfer.sentEnd c h := by
  unfold EthTransfer.sentEnd TxSegment.endOffset
  rw [hsame.localSequence]

/-- An event without a segment does not move the highest offset. -/
theorem sentEnd_append_none {c : TcpConnection} {h : ConnHistory} {e : ConnEvent}
    {o : ConnOutput} (hsent : o.sent = none) : sentEnd c (h ++ [(e, o)]) = sentEnd c h := by
  unfold sentEnd
  rw [transmitted_append, hsent, Option.toList_none, List.append_nil]

/-- The highest offset only grows. -/
theorem sentEnd_mono (c : TcpConnection) (h : ConnHistory) (e : ConnEvent) (o : ConnOutput) :
    sentEnd c h ≤ sentEnd c (h ++ [(e, o)]) := by
  rw [sentEnd_le_iff]
  intro segment hmem
  refine endOffset_le_sentEnd ?_
  rw [transmitted_append]
  exact List.mem_append_left _ hmem

/-- A bound of the highest offset that the next segment keeps, too. -/
theorem sentEnd_append_le {c : TcpConnection} {h : ConnHistory} {e : ConnEvent}
    {o : ConnOutput} {b : ℕ} (hle : sentEnd c h ≤ b)
    (hnew : ∀ segment, o.sent = some segment → (segment.endOffset c).toNat ≤ b) :
    sentEnd c (h ++ [(e, o)]) ≤ b := by
  rw [sentEnd_le_iff, transmitted_append]
  intro segment hmem
  rcases List.mem_append.mp hmem with hold | hlast
  · exact sentEnd_le_iff.mp hle segment hold
  · exact hnew segment (Option.mem_toList.mp hlast)

/-- A segment that is built from `tx_sent` on ends `n` bytes later, and one more
when it carries a FIN.  The SYN stands one before `tx_sent`. -/
theorem buildSegment_endOffset (c : TcpConnection) (scratch : Bytes) {n : ℕ}
    (hlength : sendLength c = n) :
    (buildSegment c scratch).endOffset c =
      c.txSent + UInt32.ofNat n + (if c.txFin ≤ c.txAcked then 1 else 0) := by
  unfold TxSegment.endOffset
  rw [buildSegment_has_syn, buildSegment_has_fin, length_buildSegment_payload,
    buildSegment_sequence, hlength, Int.toNat_natCast]
  simp only [decide_eq_true_eq]
  generalize (if c.txFin ≤ c.txAcked then (1 : UInt32) else 0) = fin
  generalize (if isSyn c = true then (1 : UInt32) else 0) = syn
  grind

/-- The offset of a payload byte.  A SYN has none. -/
theorem buildSegment_byteOffset {c : TcpConnection} (hsyn : isSyn c = false) (scratch : Bytes)
    (i : ℕ) : (buildSegment c scratch).byteOffset c i = c.txSent + UInt32.ofNat i := by
  unfold TxSegment.byteOffset
  rw [buildSegment_sequence, hsyn]
  simp only [Bool.false_eq_true, if_false]
  grind

end EthTransfer
