import EthTransfer.Transmit.Wire

/-!
# Position 0 belongs to the SYN

A SYN-ACK is sent with `tx_sent + local_sequence - 1`, and `tx_sent` is 1 until
data is sent.  A timeout before anything is acknowledged goes back to
`tx_acked`, which is 0 then: the SYN-ACK is sent again with
`local_sequence - 1`, and after the acknowledgement the payload starts at
position 0 (`early_timeout`).

`syn_position_iff` says that this is the only way.
-/

namespace EthTransfer

open GuardedRun

/-! ## The early timeout -/

/-- A call of `send_tcp_packet` goes back to `tx_acked` before anything is
acknowledged. -/
def EarlyTimeout (c : TcpConnection) : ConnEvent → Prop
  | .send clock _ => sendDue c = false ∧ timedOut c clock.checked = true ∧ c.txAcked = 0
  | _ => False

instance EarlyTimeout.decidable (c : TcpConnection) : ∀ e, Decidable (EarlyTimeout c e)
  | .send _ _ => inferInstanceAs (Decidable (_ ∧ _ ∧ _))
  | .receive _ => isFalse id
  | .read _ _ _ _ => isFalse id
  | .write _ _ _ => isFalse id
  | .shutdown _ => isFalse id
  | .close _ => isFalse id

/-- No call times out before anything is acknowledged. -/
def NoEarlyTimeout : ConnGuard := fun _ c e => ¬ EarlyTimeout c e

instance (h : ConnHistory) (c : TcpConnection) (e : ConnEvent) :
    Decidable (NoEarlyTimeout h c e) :=
  inferInstanceAs (Decidable (¬ _))

/-! ## The positions -/

/-- Every SYN on the wire carries `local_sequence`. -/
def SynAtStart (h : ConnHistory) (c : TcpConnection) : Prop :=
  ∀ t ∈ transmitted h, t.has TCP_SYN = true → t.sequence = c.localSequence

/-- Every payload byte on the wire stands above `local_sequence`. -/
def PayloadAbove (h : ConnHistory) (c : TcpConnection) : Prop :=
  ∀ t ∈ transmitted h, ∀ i < t.payload.length,
    1 ≤ (t.byteOffset c i).toNat ∧ (t.byteOffset c i).toNat < 2 ^ 31

/-- The SYN part of the invariant. -/
structure SynFirst (h : ConnHistory) (c : TcpConnection) : Prop where
  at_start : SynAtStart h c
  waiting : c.txAcked = 0 → c.txSent = 1

/-- The payload part of the invariant. -/
structure PayloadAfter (h : ConnHistory) (c : TcpConnection) : Prop where
  above : PayloadAbove h c
  count : c.txWrite.toNat = 1 + (written h).length
  sent_pos : 1 ≤ c.txSent.toNat
  sent_le : c.txSent.toNat ≤ c.txWrite.toNat

section Steps

variable {ipAddr : UInt32} {h : ConnHistory} {c c' : TcpConnection}

/-- An event that sends nothing and leaves the counters alone. -/
theorem SynFirst.quiet (hinv : SynFirst h c) (hsame : SameConnection c c')
    (hacked : c'.txAcked = 0 → c.txAcked = 0) (hsent : c'.txSent = c.txSent) (e : ConnEvent)
    {o : ConnOutput} (ho : o.sent = none) : SynFirst (h ++ [(e, o)]) c' := by
  refine ⟨?_, fun h0 => hsent.trans (hinv.waiting (hacked h0))⟩
  intro t ht hsyn
  rw [transmitted_append, ho, Option.toList_none, List.append_nil] at ht
  rw [hsame.localSequence]
  exact hinv.at_start t ht hsyn

/-- A segment from a connection that waits at position 1 for its first
acknowledgement, or has it, keeps the invariant. -/
theorem SynFirst.transmit (hinv : SynFirst h c) (e : ConnEvent) (now : Int) (scratch : Bytes) :
    SynFirst (h ++ [(e, { sent := (transmit c now scratch).sent })])
      (transmit c now scratch).conn := by
  refine ⟨?_, ?_⟩
  · intro t ht hsyn
    rcases mem_transmitted_transmit ht with hold | rfl
    · exact hinv.at_start t hold hsyn
    · rw [buildSegment_has_syn] at hsyn
      have hsent := hinv.waiting (by simpa [isSyn] using hsyn)
      show c.txSent + c.localSequence - (if isSyn c then 1 else 0) = c.localSequence
      rw [hsyn, hsent, if_pos rfl]
      grind
  · intro h0
    have hsyn : isSyn c = true := by
      show (c.txAcked == 0) = true
      rw [beq_iff_eq]
      exact h0
    show c.txSent + UInt32.ofInt (sendLength c) = 1
    rw [sendLength_syn hsyn, hinv.waiting h0]
    rfl

/-- Every event but an early timeout keeps the SYN at its position. -/
theorem SynFirst.step (hinv : SynFirst h c) {e : ConnEvent} {o : ConnOutput}
    (hok : ¬ EarlyTimeout c e) (hsteps : ConnSteps ipAddr c e c' o) :
    SynFirst (h ++ [(e, o)]) c' := by
  have hsame := hsteps.sameConnection
  cases hsteps with
  | receive hreceived =>
    exact hinv.quiet hsame hreceived.acked_ne_zero hreceived.txAcked.2.1 _ rfl
  | send hsends =>
    rcases hsends.transmit_cases with ⟨hconn, hsent⟩ | ⟨c₁, rfl, rfl | ⟨hdue, htime, rfl⟩⟩
    · rw [hconn]
      exact hinv.quiet (SameConnection.refl c) id rfl _ hsent
    · exact hinv.transmit _ _ _
    · have hback : SynFirst h (rewind c) :=
        ⟨hinv.at_start, fun h0 => absurd ⟨hdue, htime, h0⟩ hok⟩
      exact hback.transmit _ _ _
  | read hreads =>
    have htx := hreads.sameSender
    exact hinv.quiet hsame (fun h0 => htx.txAcked.symm.trans h0) htx.txSent _ rfl
  | write hwrites => cases hwrites <;> exact hinv.quiet hsame id rfl _ rfl
  | shutdown => exact hinv.quiet hsame id rfl _ rfl
  | close => exact hinv.quiet hsame id rfl _ rfl
  | stale => exact hinv.quiet hsame id rfl _ rfl

/-- An event that sends and writes nothing. -/
theorem PayloadAfter.quiet (hinv : PayloadAfter h c) (hsame : SameConnection c c')
    (hwrite : c'.txWrite = c.txWrite) (hsent : c'.txSent = c.txSent) (e : ConnEvent)
    {o : ConnOutput} (ho : o.sent = none) (hacc : o.accepted = []) :
    PayloadAfter (h ++ [(e, o)]) c' := by
  refine ⟨?_, ?_, ?_, ?_⟩
  · unfold PayloadAbove TxSegment.byteOffset
    rw [transmitted_append, ho, Option.toList_none, List.append_nil, hsame.localSequence]
    exact hinv.above
  · rw [hwrite, written_append, hacc, List.append_nil]
    exact hinv.count
  · rw [hsent]
    exact hinv.sent_pos
  · rw [hsent, hwrite]
    exact hinv.sent_le

/-- A segment carries payload from `tx_sent` up to `tx_write` only. -/
theorem PayloadAfter.transmit (hinv : PayloadAfter h c) (hcount : (written h).length < 2 ^ 31)
    (e : ConnEvent) (now : Int) (scratch : Bytes) :
    PayloadAfter (h ++ [(e, { sent := (transmit c now scratch).sent })])
      (transmit c now scratch).conn := by
  have hW := hinv.count
  have hpos := hinv.sent_pos
  have hle := hinv.sent_le
  have hunsent : (c.txWrite - c.txSent).toNat = c.txWrite.toNat - c.txSent.toNat := by
    rw [Word.toNat_sub_cases, if_pos hle]
  obtain ⟨n, hn, hmax, hroom⟩ := sendLength_eq (c := c) (by omega)
  have hnext : (c.txSent + UInt32.ofInt (sendLength c)).toNat = c.txSent.toNat + n := by
    rw [hn, Word.ofInt_natCast, Word.toNat_add_ofNat (by omega)]
  refine ⟨?_, ?_, ?_, ?_⟩
  · intro t ht i hi
    rcases mem_transmitted_transmit ht with hold | rfl
    · exact hinv.above t hold i hi
    · have hsyn := isSyn_of_lt_length hi
      rw [length_buildSegment_payload, hn, Int.toNat_natCast] at hi
      show 1 ≤ ((buildSegment c scratch).byteOffset c i).toNat ∧
        ((buildSegment c scratch).byteOffset c i).toNat < 2 ^ 31
      rw [buildSegment_byteOffset hsyn, Word.toNat_add_ofNat (by omega)]
      omega
  · rw [written_append, List.append_nil]
    exact hW
  · show 1 ≤ (c.txSent + UInt32.ofInt (sendLength c)).toNat
    omega
  · show (c.txSent + UInt32.ofInt (sendLength c)).toNat ≤ c.txWrite.toNat
    omega

/-- Going back to `tx_acked`, when something is acknowledged. -/
theorem PayloadAfter.rewind (hinv : PayloadAfter h c) {now : Int}
    (htime : timedOut c now = true) (hacked : c.txAcked ≠ 0) : PayloadAfter h (rewind c) := by
  have hlt := UInt32.lt_iff_toNat_lt.mp (timedOut_iff.mp htime).1
  have hle := hinv.sent_le
  have hne : c.txAcked.toNat ≠ 0 := fun h0 => hacked (UInt32.toNat_inj.mp h0)
  refine ⟨hinv.above, hinv.count, ?_, ?_⟩
  · show 1 ≤ c.txAcked.toNat
    omega
  · show c.txAcked.toNat ≤ c.txWrite.toNat
    omega

/-- `write_tcp` moves `tx_write` only. -/
theorem PayloadAfter.writes (hinv : PayloadAfter h c) {data : Bytes} {len : Int}
    {result : TcpConnection × Int} (hwrites : Writes c data len result) (e : ConnEvent)
    (hcount : (written (h ++ [(e, { accepted := takeBytes data result.2 })])).length < 2 ^ 31) :
    PayloadAfter (h ++ [(e, { accepted := takeBytes data result.2 })]) result.1 := by
  cases hwrites with
  | none => exact hinv.quiet (SameConnection.refl c) rfl rfl e rfl rfl
  | @accepted n hpos hlen hwindow hbuffer =>
    have hW := hinv.count
    have hle := hinv.sent_le
    rw [written_append, List.length_append, length_takeBytes, Int.toNat_natCast] at hcount
    have hnext : (c.txWrite + UInt32.ofNat n).toNat = c.txWrite.toNat + n :=
      Word.toNat_add_ofNat (by omega)
    refine ⟨?_, ?_, hinv.sent_pos, ?_⟩
    · unfold PayloadAbove
      rw [transmitted_append, Option.toList_none, List.append_nil]
      exact hinv.above
    · rw [written_append, List.length_append, length_takeBytes, Int.toNat_natCast]
      show (c.txWrite + UInt32.ofNat n).toNat = _
      omega
    · show c.txSent.toNat ≤ (c.txWrite + UInt32.ofNat n).toNat
      omega

/-- Every event but an early timeout keeps the payload above the SYN. -/
theorem PayloadAfter.step (hinv : PayloadAfter h c) {e : ConnEvent} {o : ConnOutput}
    (hok : ¬ EarlyTimeout c e) (hsteps : ConnSteps ipAddr c e c' o)
    (hcount : (written (h ++ [(e, o)])).length < 2 ^ 31) : PayloadAfter (h ++ [(e, o)]) c' := by
  have hsame := hsteps.sameConnection
  have hlength : (written h).length < 2 ^ 31 := by
    rw [written_append, List.length_append] at hcount
    omega
  cases hsteps with
  | receive hreceived =>
    obtain ⟨hwrite, hsent, -⟩ := hreceived.txAcked
    exact hinv.quiet hsame hwrite hsent _ rfl rfl
  | send hsends =>
    rcases hsends.transmit_cases with ⟨hconn, hsent⟩ | ⟨c₁, rfl, rfl | ⟨hdue, htime, rfl⟩⟩
    · rw [hconn]
      exact hinv.quiet (SameConnection.refl c) rfl rfl _ hsent rfl
    · exact hinv.transmit hlength _ _ _
    · have hback := hinv.rewind htime fun h0 => hok ⟨hdue, htime, h0⟩
      exact hback.transmit hlength _ _ _
  | read hreads =>
    have htx := hreads.sameSender
    exact hinv.quiet hsame htx.txWrite htx.txSent _ rfl rfl
  | write hwrites => exact hinv.writes hwrites _ hcount
  | shutdown => exact hinv.quiet hsame rfl rfl _ rfl rfl
  | close => exact hinv.quiet hsame rfl rfl _ rfl rfl
  | stale => exact hinv.quiet hsame rfl rfl _ rfl rfl

end Steps

/-! ## The result -/

/-- The fresh connection waits at position 1. -/
theorem Opens.synFirst {s : Stack} {syn : TcpPacket} {c₀ : TcpConnection}
    (hopens : Opens s syn c₀) : SynFirst [] c₀ ∧ PayloadAfter [] c₀ := by
  obtain ⟨rand, windowScale, maxSegment, -, rfl⟩ := hopens.eq_openConnection
  refine ⟨⟨?_, fun _ => rfl⟩, ⟨?_, rfl, le_rfl, le_rfl⟩⟩
  · intro t ht
    cases ht
  · intro t ht
    cases ht

/-- A run without an early timeout keeps the SYN at its position and the payload
above it. -/
theorem ConnRun.synFirst {ipAddr : UInt32} {c₀ c : TcpConnection} {h : ConnHistory}
    (hrun : ConnRun ipAddr NoEarlyTimeout c₀ h c)
    (hstart : SynFirst [] c₀ ∧ PayloadAfter [] c₀) :
    SynFirst h c ∧ ((written h).length < 2 ^ 31 → PayloadAfter h c) := by
  refine hrun.invariant
    (fun h c => SynFirst h c ∧ ((written h).length < 2 ^ 31 → PayloadAfter h c))
    ⟨hstart.1, fun _ => hstart.2⟩ ?_
  intro h c e c' o _ hinv _ hok hsteps
  refine ⟨hinv.1.step hok hsteps, fun hcount => (hinv.2 ?_).step hok hsteps hcount⟩
  rw [written_append, List.length_append] at hcount
  omega

/-- An early timeout puts a SYN on the wire one before its position. -/
theorem not_synAtStart_of_earlyTimeout {ipAddr : UInt32} {h : ConnHistory} {c : TcpConnection}
    {e : ConnEvent} (hopen : c.state ≠ .listen) (hearly : EarlyTimeout c e) :
    ¬ SynAtStart (h ++ [(e, (connStep ipAddr c e).2)]) (connStep ipAddr c e).1 := by
  cases e with
  | send clock scratch =>
    obtain ⟨hdue, htime, h0⟩ := hearly
    have hsyn : isSyn (rewind c) = true := by
      show (c.txAcked == 0) = true
      rw [beq_iff_eq]
      exact h0
    have hresult : sendTcpPacket c clock scratch = transmit (rewind c) clock.armed scratch := by
      unfold sendTcpPacket
      rw [if_neg hopen, hdue, htime]
      rfl
    have hsent : (connStep ipAddr c (.send clock scratch)).2.sent =
        some (buildSegment (rewind c) scratch) := by
      show (sendTcpPacket c clock scratch).sent = _
      rw [hresult]
      exact transmit_sent_eq (n := 0) (sendLength_syn hsyn) _ _
    intro hstart
    have hposition := hstart (buildSegment (rewind c) scratch)
      (by rw [transmitted_append, hsent]; simp) (by rw [buildSegment_has_syn, hsyn])
    have hlocal : (connStep ipAddr c (.send clock scratch)).1.localSequence =
        c.localSequence := by
      show (sendTcpPacket c clock scratch).conn.localSequence = _
      rw [hresult]
      rfl
    rw [hlocal, buildSegment_sequence, hsyn, if_pos rfl] at hposition
    have hzero : c.txAcked + c.localSequence - 1 = c.localSequence := hposition
    rw [h0] at hzero
    grind
  | _ => cases hearly

/-- A SYN before the last event was a SYN after it. -/
theorem SynAtStart.of_append {ipAddr : UInt32} {h : ConnHistory} {c : TcpConnection}
    {e : ConnEvent} (hopen : c.state ≠ .listen)
    (hstart : SynAtStart (h ++ [(e, (connStep ipAddr c e).2)]) (connStep ipAddr c e).1) :
    SynAtStart h c := by
  intro t ht hsyn
  have hsteps : ConnSteps ipAddr c e _ _ := connStep_steps hopen e
  have hsame := hsteps.sameConnection
  rw [← hsame.localSequence]
  refine hstart t ?_ hsyn
  rw [transmitted_append]
  exact List.mem_append_left _ ht

/-- Every SYN on the wire carries `local_sequence`, and no payload byte stands at
`local_sequence` or below, exactly when no call of `send_tcp_packet` times out
before anything is acknowledged.  The payload part is about the first 2^31
bytes. -/
theorem syn_position_iff {s : Stack} {syn : TcpPacket} {c₀ c : TcpConnection}
    {h : ConnHistory} (hopens : Opens s syn c₀) (hrun : ConnRun s.ipAddr anyEvent c₀ h c) :
    (SynAtStart h c ∧ ((written h).length < 2 ^ 31 → PayloadAbove h c)) ↔
      ConnRun s.ipAddr NoEarlyTimeout c₀ h c := by
  constructor
  · intro hposition
    refine Run.restrict SynAtStart hrun hposition.1 ?_
    intro h c e _ hok hstart
    refine ⟨hstart.of_append hok.1, hok.1, fun hearly => ?_⟩
    exact not_synAtStart_of_earlyTimeout hok.1 hearly hstart
  · intro hrun
    obtain ⟨hsyn, hpayload⟩ := hrun.synFirst hopens.synFirst
    exact ⟨hsyn.at_start, fun hcount => (hpayload hcount).above⟩

/-- The SYN-ACK, its acknowledgement in time, three bytes, and a timeout. -/
def timelyEvents : List ConnEvent :=
  [.send ⟨0, 0⟩ fun _ => 0, .receive (peerPacket 1 101 TCP_ACK 1024 []),
    .write 1 (fun _ => 97) 3, .send ⟨0, 0⟩ fun _ => 0, .send ⟨100, 100⟩ fun _ => 0]

theorem syn_position_iff_timely :
    SynAtStart (connExec listeningStack.ipAddr peerConnection timelyEvents).1
        (connExec listeningStack.ipAddr peerConnection timelyEvents).2 ∧
      PayloadAbove (connExec listeningStack.ipAddr peerConnection timelyEvents).1
        (connExec listeningStack.ipAddr peerConnection timelyEvents).2 := by
  have hany : ConnMeets listeningStack.ipAddr anyEvent peerConnection timelyEvents := by
    decide +kernel
  have htimely : ConnMeets listeningStack.ipAddr NoEarlyTimeout peerConnection timelyEvents := by
    decide +kernel
  obtain ⟨hsyn, hpayload⟩ := (syn_position_iff peerSyn_opens hany.run).mpr htimely.run
  exact ⟨hsyn, hpayload (by decide +kernel)⟩

/-- The SYN-ACK, a timeout, the acknowledgement, and three bytes. -/
def earlyEvents : List ConnEvent :=
  [.send ⟨0, 0⟩ fun _ => 0, .send ⟨100, 100⟩ fun _ => 0,
    .receive (peerPacket 1 101 TCP_ACK 1024 []), .write 1 (fun _ => 97) 3,
    .send ⟨100, 100⟩ fun _ => 0]

/-- After an early timeout the SYN-ACK carries `local_sequence - 1`, and a
payload byte stands at `local_sequence`. -/
theorem early_timeout :
    Opens listeningStack peerSyn peerConnection ∧
      ∃ h c, ConnRun listeningStack.ipAddr anyEvent peerConnection h c ∧ c.state ≠ .listen ∧
        (written h).length = 3 ∧ c.localSequence = 100 ∧
        (∃ t ∈ transmitted h, t.has TCP_SYN = true ∧ t.sequence = 99) ∧
        ∃ t ∈ transmitted h, 0 < t.payload.length ∧ t.byteOffset c 0 = 0 := by
  have hmeets : ConnMeets listeningStack.ipAddr anyEvent peerConnection earlyEvents := by
    decide +kernel
  exact ⟨peerSyn_opens, _, _, hmeets.run, by decide +kernel, by decide +kernel,
    by decide +kernel, by decide +kernel, by decide +kernel⟩

end EthTransfer
