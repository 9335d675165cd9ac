import EthTransfer.Transmit.Call

/-!
# The size of a segment

The SYN tells the largest segment that the peer takes, and `handle_tcp_packet`
keeps it in `remote_max_segment` (`Opens.remoteMaxSegment`).  `send_tcp_packet`
never reads the field.  It cuts a segment to `MAX_SEGMENT` only, so the peer's
limit is kept in exactly those runs in which no call finds more bytes to send
than that (`segment_size_iff`).
-/

namespace EthTransfer

open GuardedRun

/-! ## The limit of the peer -/

/-- The MSS option of a SYN, negative when there is none; `none` when the option
scanner does not return. -/
def TcpPacket.mssOption (syn : TcpPacket) : Option Int :=
  scanOptions (fun i => syn.tcp.bytes (20 + i)) (syn.tcp.dataOffset - 20) 2

/-- What `handle_tcp_packet` makes of the option. -/
def storedSegment (option : Int) : Int :=
  if option < 0 ∨ option > MAX_SEGMENT then MAX_SEGMENT else option

theorem storedSegment_bounds {option : Int} (hne : option ≠ 0) :
    0 < storedSegment option ∧ storedSegment option ≤ MAX_SEGMENT := by
  unfold storedSegment MAX_SEGMENT
  split <;> omega

/-- The connection keeps the value of the MSS option, and `MAX_SEGMENT` when there
is none or it is larger. -/
theorem Opens.remoteMaxSegment {s : Stack} {syn : TcpPacket} {c₀ : TcpConnection}
    (hopens : Opens s syn c₀) :
    ∃ option, syn.mssOption = some option ∧ option ≠ 0 ∧
      (c₀.remoteMaxSegment.toNat : Int) = storedSegment option := by
  obtain ⟨option, windowScale, rand, hsyn, -, -, rfl⟩ := hopens.openingSyn
  refine ⟨option, hsyn.maxSegment_eq, hsyn.maxSegment_ne, ?_⟩
  have hbounds := storedSegment_bounds hsyn.maxSegment_ne
  show ((UInt32.ofInt (storedSegment option)).toNat : Int) = _
  unfold MAX_SEGMENT at hbounds
  rw [Word.toNat_ofInt]
  omega

/-! ## The limit on the wire -/

/-- The segment that a call sends is no longer than both sides take. -/
def WithinAgreed (maxSegment : UInt32) (_ : ConnHistory) (_ : TcpConnection) (_ : Clock)
    (result : SendResult) : Prop :=
  ∀ t, result.sent = some t → (t.payload.length : Int) ≤ min MAX_SEGMENT maxSegment.toNat

/-- The peer takes segments of `MAX_SEGMENT`, or there are no more bytes to send
than it takes. -/
def FewBytes (maxSegment : UInt32) (_ : ConnHistory) (c : TcpConnection) (clock : Clock) :
    Prop :=
  ∀ c₁, sendFrom c clock = some c₁ →
    MAX_SEGMENT ≤ maxSegment.toNat ∨ Word.toInt (sendRoom c₁) ≤ maxSegment.toNat

/-- A call keeps the limit of the peer exactly if it finds few bytes. -/
theorem withinAgreed_iff {maxSegment : UInt32} {h : ConnHistory} {c : TcpConnection}
    (hopen : c.state ≠ .listen) (clock : Clock) (scratch : Bytes) :
    WithinAgreed maxSegment h c clock (sendTcpPacket c clock scratch) ↔
      FewBytes maxSegment h c clock := by
  constructor
  · intro hwithin c₁ hfrom
    have hlength := sendLength_eq_min c₁
    rcases Int.lt_or_le (sendLength c₁) 0 with hneg | hnonneg
    · unfold MAX_SEGMENT at *
      omega
    · have hsent : (sendTcpPacket c clock scratch).sent = some (buildSegment c₁ scratch) :=
        (sendTcpPacket_sent_iff hopen).mpr ⟨c₁, hfrom, frameFits_of_nonneg hnonneg, rfl⟩
      have hle := hwithin _ hsent
      rw [length_buildSegment_payload] at hle
      omega
  · intro hfew t hsent
    obtain ⟨c₁, hfrom, -, rfl⟩ := (sendTcpPacket_sent_iff hopen).mp hsent
    have hlength := sendLength_eq_min c₁
    have hmax := hfew c₁ hfrom
    rw [length_buildSegment_payload]
    unfold MAX_SEGMENT at *
    omega

/-- No segment is longer than the limit in the MSS option exactly in the runs
whose calls find few bytes. -/
theorem segment_size_iff {s : Stack} {syn : TcpPacket} {c₀ c : TcpConnection}
    {h : ConnHistory} (hopens : Opens s syn c₀) (hrun : ConnRun s.ipAddr anyEvent c₀ h c) :
    (∃ option, syn.mssOption = some option ∧ option ≠ 0 ∧
      (c.remoteMaxSegment.toNat : Int) = storedSegment option) ∧
    (EverySend s.ipAddr c₀ (WithinAgreed c.remoteMaxSegment) h ↔
      ConnRun s.ipAddr (onSend (FewBytes c.remoteMaxSegment)) c₀ h c) := by
  refine ⟨?_, ?_⟩
  · rw [hrun.sameConnection.remoteMaxSegment]
    exact hopens.remoteMaxSegment
  · rw [← anyEvent_and (onSend _)]
    refine hrun.everySend_iff ?_
    intro h c clock scratch _ hopen
    exact withinAgreed_iff hopen clock scratch

/-- The SYN of a peer that takes segments of 100 bytes. -/
def smallSyn : TcpPacket where
  sourceMac := peerSyn.sourceMac
  ip := { peerSyn.ip with totalLength := 44 }
  tcp :=
    { peerSyn.tcp with
      offsetFlags := 0x6000 ||| TCP_SYN
      bytes := fun i => [2, 4, 0, 100].getD (i - 20) 0 }

/-- The connection that it opens. -/
def smallConnection : TcpConnection :=
  openConnection listeningStack.tcpConn smallSyn 1 ⟨0, 100⟩ 0 100

theorem smallSyn_opens : Opens listeningStack smallSyn smallConnection where
  listen := rfl
  accepted := ⟨⟨0, 100⟩, _, rfl, rfl⟩
  opened := by decide

/-- The handshake, and `n` bytes in one call. -/
def handshakeAndWrite (n : Int) : List ConnEvent :=
  [.send ⟨0, 0⟩ fun _ => 0, .receive (peerPacket 1 101 TCP_ACK 1024 []),
    .write 1 (fun _ => 97) n, .send ⟨0, 0⟩ fun _ => 0]

/-- What they do to the connection of the peer that takes 100 bytes. -/
def smallExec (n : Int) : ConnHistory × TcpConnection :=
  connExec listeningStack.ipAddr smallConnection (handshakeAndWrite n)

theorem segment_size_iff_small :
    (∃ option, smallSyn.mssOption = some option ∧ option ≠ 0 ∧
      ((smallExec 100).2.remoteMaxSegment.toNat : Int) = storedSegment option) ∧
    (EverySend listeningStack.ipAddr smallConnection
        (WithinAgreed (smallExec 100).2.remoteMaxSegment) (smallExec 100).1 ↔
      ConnRun listeningStack.ipAddr (onSend (FewBytes (smallExec 100).2.remoteMaxSegment))
        smallConnection (smallExec 100).1 (smallExec 100).2) :=
  segment_size_iff smallSyn_opens
    (ConnMeets.run (by decide +kernel : ConnMeets listeningStack.ipAddr anyEvent smallConnection
      (handshakeAndWrite 100)))

/-- A peer that takes 100 bytes gets a segment of 200. -/
theorem segment_too_long :
    Opens listeningStack smallSyn smallConnection ∧
      ∃ h c, ConnRun listeningStack.ipAddr anyEvent smallConnection h c ∧
        c.remoteMaxSegment = 100 ∧ ∃ t ∈ transmitted h, t.payload.length = 200 := by
  have hmeets : ConnMeets listeningStack.ipAddr anyEvent smallConnection
      (handshakeAndWrite 200) := by
    decide +kernel
  exact ⟨smallSyn_opens, _, _, hmeets.run, rfl, by decide +kernel⟩

end EthTransfer
