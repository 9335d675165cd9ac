import EthTransfer.Transmit.Acknowledgement

/-!
# The transmitted stream

Every payload byte on the wire is the byte that the application wrote at that
offset, when the peer acknowledges only what was sent and nothing is written
after `shutdown_tcp` (`Orderly`).

The transmit ring holds the last 8192 bytes written.  After a timeout `tx_sent`
goes back to `tx_acked`, and a late acknowledgement can then let `write_tcp`
write up to 4096 bytes past the new `tx_acked`, while the bytes from `tx_sent`
on are still to be sent again.  `SendsStream.beyond` is why these bytes are
still there: `D`, the end of the data sent so far, is within 4096 bytes of both.
A FIN is why nothing may be written after `shutdown_tcp`: its acknowledgement
moves `tx_acked` one past `D`.
-/

namespace EthTransfer

open RingBuffer

/-- `shutdown_tcp` has been called for connection `id`. -/
def ShutDown (id : Int) (h : ConnHistory) : Prop := ∃ o, (ConnEvent.shutdown id, o) ∈ h

/-- The peer acknowledges only what was sent, and the application does not write
after `shutdown_tcp`. -/
def Orderly (ipAddr : UInt32) : ConnGuard := fun h c e =>
  AcksSent ipAddr h c e ∧
    ∀ data len, e = .write c.connectionId data len → ¬ ShutDown c.connectionId h

/-- The transmit side of a connection with an orderly peer and application. -/
structure SendsStream (h : ConnHistory) (c : TcpConnection) (W S D : ℕ) : Prop where
  history : TxHistory h c W S D
  count : W = 1 + (written h).length
  contents : ∀ p, 1 ≤ p → p < W → W ≤ p + RING →
    (written h)[p - 1]? = some (c.txBuffer (p % RING))
  beyond : W ≤ S + RING
  no_fin : ¬ ShutDown c.connectionId h →
    c.txFin = NO_FIN ∧ sentEnd c h ≤ D ∧ c.txAcked.toNat ≤ D
  wire : ∀ t ∈ transmitted h, ∀ i < t.payload.length, 1 ≤ (t.byteOffset c i).toNat →
    (t.byteOffset c i).toNat < W ∧ t.payload[i]? = (written h)[(t.byteOffset c i).toNat - 1]?

theorem ShutDown.append {id : Int} {h : ConnHistory} (hshut : ShutDown id h) (e : ConnEvent)
    (o : ConnOutput) : ShutDown id (h ++ [(e, o)]) := by
  obtain ⟨o', hmem⟩ := hshut
  exact ⟨o', List.mem_append_left _ hmem⟩

section Steps

variable {ipAddr : UInt32} {h : ConnHistory} {c c' : TcpConnection} {W S D : ℕ}

/-- An event that sends and writes nothing, and does not move `tx_acked` past
the data. -/
theorem SendsStream.quiet (hinv : SendsStream h c W S D) {e : ConnEvent} {o : ConnOutput}
    (hhistory : TxHistory (h ++ [(e, o)]) c' W S D) (hsame : SameConnection c c')
    (hbuf : c'.txBuffer = c.txBuffer) (ho : o.sent = none) (hacc : o.accepted = [])
    (hfin : ¬ ShutDown c.connectionId (h ++ [(e, o)]) →
      c'.txFin = c.txFin ∧ c'.txAcked.toNat ≤ D) :
    SendsStream (h ++ [(e, o)]) c' W S D := by
  have hwritten : written (h ++ [(e, o)]) = written h := by
    rw [written_append, hacc, List.append_nil]
  have hsent : transmitted (h ++ [(e, o)]) = transmitted h := by
    rw [transmitted_append, ho, Option.toList_none, List.append_nil]
  refine ⟨hhistory, ?_, ?_, hinv.beyond, ?_, ?_⟩
  · rw [hwritten]
    exact hinv.count
  · rw [hwritten, hbuf]
    exact hinv.contents
  · intro hshut
    rw [hsame.connectionId] at hshut
    obtain ⟨hold, hend, -⟩ := hinv.no_fin fun hs => hshut (hs.append e o)
    obtain ⟨hkeep, hacked⟩ := hfin hshut
    refine ⟨hkeep.trans hold, ?_, hacked⟩
    rw [hsame.sentEnd, sentEnd_append_none ho]
    exact hend
  · rw [hsent, hwritten]
    unfold TxSegment.byteOffset
    rw [hsame.localSequence]
    exact hinv.wire

/-- Going back to `tx_acked` loses nothing: everything from there on is in the
ring. -/
theorem SendsStream.rewind (hinv : SendsStream h c W S D) {now : Int}
    (htime : timedOut c now = true) :
    SendsStream h (rewind c) W c.txAcked.toNat D := by
  have hnear := hinv.history.window.write_near
  refine ⟨⟨hinv.history.window.rewind htime, hinv.history.acked_sent, hinv.history.sent_end⟩,
    hinv.count, hinv.contents, ?_, hinv.no_fin, hinv.wire⟩
  unfold RING
  omega

/-- A segment carries the bytes that were written at its offsets. -/
theorem SendsStream.segment (hinv : SendsStream h c W S D) (hcount : (written h).length < 2 ^ 31)
    {n : ℕ} (hlength : sendLength c = n) (hn : n ≤ 1400) (hle : S + n ≤ W) (scratch : Bytes) :
    ∀ i < (buildSegment c scratch).payload.length,
      1 ≤ ((buildSegment c scratch).byteOffset c i).toNat →
      ((buildSegment c scratch).byteOffset c i).toNat < W ∧
        (buildSegment c scratch).payload[i]? =
          (written h)[((buildSegment c scratch).byteOffset c i).toNat - 1]? := by
  intro i hi hpos
  have hsyn := isSyn_of_lt_length hi
  rw [length_buildSegment_payload, hlength, Int.toNat_natCast] at hi
  have hW := hinv.count
  have hbeyond := hinv.beyond
  have hsent : c.txSent.toNat = S := by
    rw [hinv.history.window.sent, Word.toNat_ofNat_of_lt (by omega)]
  have hoffset : ((buildSegment c scratch).byteOffset c i).toNat = S + i := by
    rw [buildSegment_byteOffset hsyn, hinv.history.window.sent, ← UInt32.ofNat_add,
      Word.toNat_ofNat_of_lt (by omega)]
  rw [hoffset] at hpos ⊢
  refine ⟨by omega, ?_⟩
  rw [buildSegment_payload_get hlength hn hi, hsent,
    hinv.contents (S + i) hpos (by omega) (by omega)]

/-- A segment from the connection as it is, or from the rewound one. -/
theorem SendsStream.transmit (hinv : SendsStream h c W S D)
    (hcount : (written h).length < 2 ^ 31) (e : ConnEvent) (now : Int) (scratch : Bytes) :
    ∃ S' D', SendsStream (h ++ [(e, { sent := (transmit c now scratch).sent })])
      (transmit c now scratch).conn W S' D' := by
  obtain ⟨n, hn, hle, hsent, hnext⟩ := hinv.history.transmit e now scratch
  have hmax := sendLength_le c
  unfold MAX_SEGMENT at hmax
  have hsegment := hinv.segment hcount hn (by omega) hle scratch
  have hW := hinv.count
  have hbeyond := hinv.beyond
  refine ⟨S + n, max D (S + n), hnext, ?_, ?_, by omega, ?_, ?_⟩
  · rw [written_append, List.append_nil]
    exact hW
  · rw [written_append, List.append_nil]
    exact hinv.contents
  · intro hshut
    obtain ⟨hfin, hend, hacked⟩ := hinv.no_fin fun hs => hshut (hs.append e _)
    have hhigh := hinv.history.window.high_le
    refine ⟨hfin, sentEnd_append_le (Nat.le_trans hend (by omega)) fun t ht => ?_, ?_⟩
    · obtain rfl := Option.some.inj (hsent.symm.trans ht)
      show ((buildSegment c scratch).endOffset c).toNat ≤ _
      have hno : ¬ c.txFin ≤ c.txAcked := by
        rw [hfin, UInt32.le_iff_toNat_le]
        have : NO_FIN.toNat = 4294967295 := by decide
        omega
      have hwrap := Word.toNat_ofNat_le (S + n)
      rw [buildSegment_endOffset c scratch hn, hinv.history.window.sent, ← UInt32.ofNat_add,
        if_neg hno, UInt32.add_zero]
      omega
    · exact Nat.le_trans hacked (Nat.le_max_left _ _)
  · rw [written_append, List.append_nil, transmitted_append]
    intro t ht
    rcases List.mem_append.mp ht with hold | hlast
    · exact hinv.wire t hold
    · obtain rfl := Option.some.inj (hsent.symm.trans (Option.mem_toList.mp hlast))
      exact hsegment

/-- `write_tcp` puts the bytes behind those that are there, and overwrites none
that may still be sent. -/
theorem SendsStream.writes (hinv : SendsStream h c W S D) {data : Bytes} {len : Int}
    {result : TcpConnection × Int} (hwrites : Writes c data len result) {e : ConnEvent}
    (hshut : ¬ ShutDown c.connectionId h)
    (hcount : (written (h ++ [(e, { accepted := takeBytes data result.2 })])).length < 2 ^ 31) :
    SendsStream (h ++ [(e, { accepted := takeBytes data result.2 })]) result.1
      (W + result.2.toNat) S D := by
  have hhistory := hinv.history.writes hwrites e (o := { accepted := takeBytes data result.2 }) rfl
  have hW := hinv.count
  cases hwrites with
  | none =>
    refine hinv.quiet hhistory (SameConnection.refl c) rfl rfl rfl fun _ => ⟨rfl, ?_⟩
    exact (hinv.no_fin hshut).2.2
  | @accepted n hpos hlen hwindow hbuffer =>
    have hroom := hinv.history.window.bufferAvailable_eq.1
    have hnear := hinv.history.window.high_near
    have hhigh := hinv.history.window.high_le
    obtain ⟨hfin, hend, hacked⟩ := hinv.no_fin hshut
    have hbytes : (takeBytes data n).length = n := by
      rw [length_takeBytes, Int.toNat_natCast]
    rw [written_append, List.length_append, hbytes] at hcount
    have hwrite : c.txWrite.toNat = W := by
      rw [hinv.history.window.write, Word.toNat_ofNat_of_lt (by omega)]
    have hold : ∀ p, p - 1 < (written h).length →
        (written h ++ takeBytes data n)[p - 1]? = (written h)[p - 1]? :=
      fun p hp => List.getElem?_append_left hp
    refine ⟨hhistory, ?_, ?_, ?_, ?_, ?_⟩
    · rw [written_append, List.length_append, hbytes, Int.toNat_natCast]
      omega
    · intro p hpos hlt hle
      rw [Int.toNat_natCast] at hlt hle
      have hcontents := hinv.contents
      rw [hW] at hcontents hlt hle
      rw [written_append]
      show (written h ++ (List.range (n : Int).toNat).map data)[p - 1]? =
        some (copyToCircleBuffer c.txBuffer RX_MASK c.txWrite data n n (p % RING))
      rw [copyToCircleBuffer_ring _ _ _ (show n < 8192 by omega), hwrite, hW, Int.toNat_natCast]
      exact getElem?_append_store data hcontents (by unfold RING; omega) hpos hlt hle
    · unfold RING
      rw [Int.toNat_natCast]
      omega
    · intro _
      rw [sentEnd_append_none rfl]
      exact ⟨hfin, hend, hacked⟩
    · intro t ht i hi hpos
      rw [transmitted_append, Option.toList_none, List.append_nil] at ht
      have hpos' : 1 ≤ (t.byteOffset c i).toNat := hpos
      obtain ⟨hlt, hget⟩ := hinv.wire t ht i hi hpos'
      have hoff : (t.byteOffset c i).toNat - 1 < (written h).length := by omega
      refine ⟨Nat.lt_of_lt_of_le hlt (Nat.le_add_right _ _), ?_⟩
      rw [written_append]
      exact hget.trans (hold _ hoff).symm

/-- Every event of an orderly run keeps the stream. -/
theorem SendsStream.step (hinv : SendsStream h c W S D) {e : ConnEvent} {o : ConnOutput}
    (hok : Orderly ipAddr h c e) (hsteps : ConnSteps ipAddr c e c' o)
    (hcount : (written (h ++ [(e, o)])).length < 2 ^ 31) :
    ∃ W' S' D', SendsStream (h ++ [(e, o)]) c' W' S' D' := by
  have hsame := hsteps.sameConnection
  have hlength : (written h).length < 2 ^ 31 := by
    rw [written_append, List.length_append] at hcount
    omega
  have hacked : ∀ {e' : ConnEvent} {o' : ConnOutput},
      ¬ ShutDown c.connectionId (h ++ [(e', o')]) → c.txAcked.toNat ≤ D :=
    fun hshut => (hinv.no_fin fun hs => hshut (hs.append _ _)).2.2
  cases hsteps with
  | @receive packet _ hreceived =>
    obtain ⟨-, -, hfin, hbuf, hmoved⟩ := hreceived.txAcked
    refine ⟨W, S, D, hinv.quiet (hinv.history.received hok.1 hreceived) hsame hbuf rfl rfl
      fun hshut => ⟨hfin, ?_⟩⟩
    rcases hmoved with hkeep | ⟨hto, hrst, haccepts, -, hack⟩
    · rw [hkeep]
      exact hacked hshut
    · rw [hack]
      exact Nat.le_trans (hok.1 packet rfl hto hrst haccepts)
        (hinv.no_fin fun hs => hshut (hs.append _ _)).2.1
  | send hsends =>
    rcases hsends.transmit_cases with ⟨hconn, hsent⟩ | ⟨c₁, rfl, rfl | ⟨-, htime, rfl⟩⟩
    · rw [hconn]
      exact ⟨W, S, D, hinv.quiet (hinv.history.quiet (SameConnection.refl c) rfl rfl rfl _ hsent)
        (SameConnection.refl c) rfl hsent rfl fun hshut => ⟨rfl, hacked hshut⟩⟩
    · exact ⟨W, hinv.transmit hlength _ _ _⟩
    · exact ⟨W, (hinv.rewind htime).transmit hlength _ _ _⟩
  | read hreads =>
    have htx := hreads.sameSender
    exact ⟨W, S, D, hinv.quiet
      (hinv.history.quiet hsame htx.txWrite htx.txSent htx.txAcked _ rfl) hsame htx.txBuffer rfl
      rfl fun hshut => ⟨htx.txFin, htx.txAcked ▸ hacked hshut⟩⟩
  | write hwrites => exact ⟨_, S, D, hinv.writes hwrites (hok.2 _ _ rfl) hcount⟩
  | shutdown =>
    exact ⟨W, S, D, hinv.quiet (hinv.history.quiet hsame rfl rfl rfl _ rfl) hsame rfl rfl rfl
      fun hshut => absurd ⟨_, List.mem_append_right _ (List.mem_singleton.mpr rfl)⟩ hshut⟩
  | close =>
    exact ⟨W, S, D, hinv.quiet (hinv.history.quiet hsame rfl rfl rfl _ rfl) hsame rfl rfl rfl
      fun hshut => ⟨rfl, hacked hshut⟩⟩
  | stale =>
    exact ⟨W, S, D, hinv.quiet (hinv.history.quiet hsame rfl rfl rfl _ rfl) hsame rfl rfl rfl
      fun hshut => ⟨rfl, hacked hshut⟩⟩

end Steps

/-! ## The result -/

/-- The fresh connection has nothing to send. -/
theorem Opens.sendsStream {s : Stack} {syn : TcpPacket} {c₀ : TcpConnection}
    (hopens : Opens s syn c₀) : SendsStream [] c₀ 1 1 1 := by
  have hhistory := hopens.txHistory
  obtain ⟨rand, windowScale, maxSegment, -, rfl⟩ := hopens.eq_openConnection
  refine ⟨hhistory, rfl, ?_, ?_, ?_, ?_⟩
  · intro p hpos hlt
    omega
  · unfold RING
    omega
  · intro _
    exact ⟨rfl, Nat.zero_le _, Nat.zero_le _⟩
  · intro t ht
    cases ht

/-- The stream of every orderly run. -/
theorem ConnRun.sendsStream {ipAddr : UInt32} {c₀ c : TcpConnection} {h : ConnHistory}
    (hrun : ConnRun ipAddr (Orderly ipAddr) c₀ h c) (hstart : SendsStream [] c₀ 1 1 1)
    (hcount : (written h).length < 2 ^ 31) : ∃ W S D, SendsStream h c W S D := by
  refine hrun.invariant
    (fun h c => (written h).length < 2 ^ 31 → ∃ W S D, SendsStream h c W S D)
    (fun _ => ⟨1, 1, 1, hstart⟩) ?_ hcount
  intro h c e c' o _ ih _ hok hsteps hcount
  have hlength : (written h).length < 2 ^ 31 := by
    rw [written_append, List.length_append] at hcount
    omega
  obtain ⟨W, S, D, hinv⟩ := ih hlength
  exact hinv.step hok hsteps hcount

/-- In an orderly run that writes less than 2^31 bytes, every payload byte on
the wire at offset `p` from 1 on lies below `tx_write` and is the `p`-th byte
written, and the ring holds every byte that is still to be sent, be it for the
first time or again. -/
theorem transmit_stream_fidelity {s : Stack} {syn : TcpPacket} {c₀ c : TcpConnection}
    {h : ConnHistory} (hopens : Opens s syn c₀)
    (hrun : ConnRun s.ipAddr (Orderly s.ipAddr) c₀ h c)
    (hcount : (written h).length < 2 ^ 31) :
    (∀ t ∈ transmitted h, ∀ i < t.payload.length, 1 ≤ (t.byteOffset c i).toNat →
        (t.byteOffset c i).toNat < c.txWrite.toNat ∧
          t.payload[i]? = (written h)[(t.byteOffset c i).toNat - 1]?) ∧
      ∀ p, 1 ≤ p → min c.txSent.toNat c.txAcked.toNat ≤ p → p < c.txWrite.toNat →
        (written h)[p - 1]? = some (c.txBuffer (p % RING)) := by
  obtain ⟨W, S, D, hinv⟩ := hrun.sendsStream hopens.sendsStream hcount
  have hW := hinv.count
  have hbeyond := hinv.beyond
  have hnear := hinv.history.window.write_near
  have hsent_le := hinv.history.window.sent_le
  have hhigh_le := hinv.history.window.high_le
  have hwrite : c.txWrite.toNat = W := by
    rw [hinv.history.window.write, Word.toNat_ofNat_of_lt (by omega)]
  have hsent : c.txSent.toNat = S := by
    rw [hinv.history.window.sent, Word.toNat_ofNat_of_lt (by omega)]
  rw [hwrite, hsent]
  refine ⟨hinv.wire, ?_⟩
  intro p hpos hfrom hlt
  refine hinv.contents p hpos hlt ?_
  unfold RING at hbeyond ⊢
  omega

/-- The handshake, three bytes, a timeout that sends them again, and a late
acknowledgement. -/
def resentBytes : List ConnEvent :=
  [.send ⟨0, 0⟩ fun _ => 0, .receive (peerPacket 1 101 TCP_ACK 1024 []),
    .write 1 (fun _ => 97) 3, .send ⟨0, 0⟩ fun _ => 0, .send ⟨100, 100⟩ fun _ => 0,
    .receive (peerPacket 1 104 TCP_ACK 1024 [])]

theorem resentBytes_meets :
    ConnMeets listeningStack.ipAddr (Orderly listeningStack.ipAddr) peerConnection
      resentBytes := by
  refine ⟨⟨by decide, nofun, nofun⟩, ⟨by decide +kernel, ?_, nofun⟩,
    ⟨by decide +kernel, nofun, ?_⟩, ⟨by decide +kernel, nofun, nofun⟩,
    ⟨by decide +kernel, nofun, nofun⟩, ⟨by decide +kernel, ?_, nofun⟩, trivial⟩
  · intro packet heq _ _ _
    obtain rfl := ConnEvent.receive.inj heq
    decide +kernel
  · intro data len _ hshut
    obtain ⟨o, hmem⟩ := hshut
    simp at hmem
  · intro packet heq _ _ _
    obtain rfl := ConnEvent.receive.inj heq
    decide +kernel

theorem transmit_stream_fidelity_resent :
    written (connExec listeningStack.ipAddr peerConnection resentBytes).1 = [97, 97, 97] ∧
      ∀ t ∈ transmitted (connExec listeningStack.ipAddr peerConnection resentBytes).1,
        ∀ i < t.payload.length,
          1 ≤ (t.byteOffset (connExec listeningStack.ipAddr peerConnection resentBytes).2 i).toNat →
          t.payload[i]? = [97, 97, 97][(t.byteOffset
            (connExec listeningStack.ipAddr peerConnection resentBytes).2 i).toNat - 1]? := by
  have hwritten :
      written (connExec listeningStack.ipAddr peerConnection resentBytes).1 = [97, 97, 97] := by
    decide +kernel
  refine ⟨hwritten, fun t ht i hi hpos => ?_⟩
  rw [← hwritten]
  exact ((transmit_stream_fidelity peerSyn_opens resentBytes_meets.run (by decide +kernel)).1 t ht i
    hi hpos).2

end EthTransfer
