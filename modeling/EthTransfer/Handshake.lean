import EthTransfer.Transmit.Wire

/-!
# The handshake

A peer answers the SYN-ACK with a segment that acknowledges the SYN and no more
than what was sent (`AnswersSyn`).  Only such a peer is known to have seen
`local_sequence`.  `handle_tcp_packet` asks for an answer neither before it
stores data nor before it enters `TCP_CONNECTED` (`handshake_bypass`), but it
gets one when every segment before the answer acknowledges only what was sent,
and the SYN if it carries data (`handshake_safety_of_answersFirst`).

Until the answer the connection is `Unanswered`: nothing is acknowledged,
nothing is there to be read, and every segment sent is a SYN-ACK.
-/

namespace EthTransfer

open GuardedRun

/-! ## Answers -/

/-- A segment from the 4-tuple of the connection answers a SYN-ACK that was sent
before. -/
def AnswersSyn (ipAddr : UInt32) (c : TcpConnection) (h : ConnHistory) :
    ConnEvent → ConnOutput → Prop
  | .receive packet, _ =>
    Addressed ipAddr c packet ∧ packet.tcp.has TCP_ACK = true ∧
      (∃ t ∈ transmitted h, t.has TCP_SYN = true ∧ t.has TCP_ACK = true) ∧
      1 ≤ (packet.ackOffset c).toNat ∧ (packet.ackOffset c).toNat ≤ sentEnd c h
  | _, _ => False

instance (ipAddr : UInt32) (c : TcpConnection) :
    ∀ h e o, Decidable (AnswersSyn ipAddr c h e o)
  | _, .receive packet, _ => inferInstanceAs (Decidable (Addressed ipAddr c packet ∧ _))
  | _, .send .., _ => isFalse id
  | _, .read .., _ => isFalse id
  | _, .write .., _ => isFalse id
  | _, .shutdown _, _ => isFalse id
  | _, .close _, _ => isFalse id

/-- `read_tcp` hands over bytes after an answer only. -/
def ReadsAfterAnswer (ipAddr : UInt32) (c : TcpConnection) (h : ConnHistory) (_ : ConnEvent)
    (o : ConnOutput) : Prop :=
  o.returned ≠ [] → Once (AnswersSyn ipAddr c) h

instance (ipAddr : UInt32) (c : TcpConnection) :
    ∀ h e o, Decidable (ReadsAfterAnswer ipAddr c h e o) :=
  fun h _ o => inferInstanceAs (Decidable (o.returned ≠ [] → Once (AnswersSyn ipAddr c) h))

/-- Until the answer, a segment that passes the checks acknowledges only what was
sent, and the SYN if it carries data. -/
def AnswersFirst (ipAddr : UInt32) : ConnGuard := fun h c e =>
  ∀ packet, e = .receive packet → Addressed ipAddr c packet →
    packet.tcp.has TCP_RST = false → Accepts c packet → ¬ Once (AnswersSyn ipAddr c) h →
    (packet.ackOffset c).toNat ≤ sentEnd c h ∧
      (0 < packet.dataLength → 1 ≤ (packet.ackOffset c).toNat)

section SameConnection

variable {c c' : TcpConnection}

theorem SameConnection.answersSyn (hsame : SameConnection c c') (ipAddr : UInt32) :
    AnswersSyn ipAddr c' = AnswersSyn ipAddr c := by
  funext h e o
  cases e with
  | receive packet =>
    unfold AnswersSyn TcpPacket.ackOffset
    simp only [hsame.addressed, hsame.localSequence, hsame.sentEnd]
  | _ => rfl

theorem SameConnection.readsAfterAnswer (hsame : SameConnection c c') (ipAddr : UInt32) :
    ReadsAfterAnswer ipAddr c' = ReadsAfterAnswer ipAddr c := by
  unfold ReadsAfterAnswer
  rw [hsame.answersSyn]

end SameConnection

/-! ## Before the answer -/

/-- The connection before the answer. -/
structure Unanswered (h : ConnHistory) (c : TcpConnection) : Prop where
  acked : c.txAcked = 0
  state : c.state ≠ .connected
  unread : c.rxWrite = c.rxRead
  table : ∀ g ∈ c.rxSegments, g.length = 0
  wire : ∀ t ∈ transmitted h, t.has TCP_SYN = true ∧ t.has TCP_ACK = true

/-- Empty segments do not move `rx_write`. -/
theorem Merged.empty {w w' : UInt32} {segments kept : List TcpSegment}
    (hmerged : Merged w segments w' kept) (hempty : ∀ g ∈ segments, g.length = 0) : w' = w := by
  rcases UInt32.lt_or_eq_of_le hmerged.le with hlt | heq
  · obtain ⟨g, hg, hpos, hstop⟩ :=
      hmerged.covers w.toNat le_rfl (UInt32.lt_iff_toNat_lt.mp hlt)
    unfold TcpSegment.stop at hstop
    rw [hempty g hg, UInt32.add_zero] at hstop
    omega
  · exact heq.symm

/-- An empty segment leaves a table of empty segments, and `rx_write`. -/
theorem Added.empty {c added : TcpConnection} {data : Bytes} {n : Int} {dest : UInt32}
    {g : TcpSegment} (hadded : Added c (c.copyRx data n dest) g added) (hg : g.length = 0)
    (htable : ∀ g ∈ c.rxSegments, g.length = 0) :
    added.rxWrite = c.rxWrite ∧ ∀ g ∈ added.rxSegments, g.length = 0 := by
  cases hadded with
  | old => exact ⟨rfl, htable⟩
  | duplicate => exact ⟨rfl, htable⟩
  | full => exact ⟨rfl, htable⟩
  | merged _ _ _ hmerged =>
    have hall : ∀ g' ∈ c.rxSegments ++ [g], g'.length = 0 := by
      intro g' hmem
      rcases List.mem_append.mp hmem with hold | hnew
      · exact htable g' hold
      · rw [List.mem_singleton.mp hnew]
        exact hg
    exact ⟨hmerged.empty hall, fun g' hmem => hall g' (hmerged.sublist.subset hmem)⟩

section Steps

variable {ipAddr : UInt32} {h : ConnHistory} {c c' : TcpConnection}

/-- An event that sends nothing. -/
theorem Unanswered.quiet (hun : Unanswered h c) {e : ConnEvent} {o : ConnOutput}
    (hsent : o.sent = none) (hacked : c'.txAcked = 0) (hstate : c'.state ≠ .connected)
    (hunread : c'.rxWrite = c'.rxRead) (htable : ∀ g ∈ c'.rxSegments, g.length = 0) :
    Unanswered (h ++ [(e, o)]) c' := by
  refine ⟨hacked, hstate, hunread, htable, ?_⟩
  rw [transmitted_append, hsent, Option.toList_none, List.append_nil]
  exact hun.wire

/-- Before the answer, a segment that acknowledges something that was sent is the
answer. -/
theorem Unanswered.answersSyn (hun : Unanswered h c) {packet : TcpPacket}
    (hto : Addressed ipAddr c packet) (hack : packet.tcp.has TCP_ACK = true)
    (hpos : 1 ≤ (packet.ackOffset c).toNat)
    (hle : (packet.ackOffset c).toNat ≤ sentEnd c h) (o : ConnOutput) :
    AnswersSyn ipAddr c h (.receive packet) o := by
  have hsome : ∃ t, t ∈ transmitted h := by
    by_contra hnone
    have hzero : sentEnd c h ≤ 0 :=
      sentEnd_le_iff.mpr fun t ht => absurd ⟨t, ht⟩ hnone
    omega
  obtain ⟨t, ht⟩ := hsome
  exact ⟨hto, hack, ⟨t, ht, hun.wire t ht⟩, hpos, hle⟩

/-- A packet is the answer, or it leaves the connection unanswered. -/
theorem Unanswered.received (hun : Unanswered h c) {packet : TcpPacket}
    (hreceived : Received ipAddr c packet c')
    (hok : Addressed ipAddr c packet → packet.tcp.has TCP_RST = false → Accepts c packet →
      (packet.ackOffset c).toNat ≤ sentEnd c h ∧
        (0 < packet.dataLength → 1 ≤ (packet.ackOffset c).toNat)) {o : ConnOutput}
    (ho : o.sent = none) :
    AnswersSyn ipAddr c h (.receive packet) o ∨
      Unanswered (h ++ [(.receive packet, o)]) c' := by
  cases hreceived with
  | ignored =>
    exact Or.inr (hun.quiet ho hun.acked hun.state hun.unread hun.table)
  | reset =>
    exact Or.inr (hun.quiet ho hun.acked nofun hun.unread hun.table)
  | @accepted added hto hrst haccepts hadded =>
    obtain ⟨hle, hdata⟩ := hok hto hrst haccepts
    rcases Nat.lt_or_ge 0 (packet.ackOffset c).toNat with hpos | hzero
    · exact Or.inl (hun.answersSyn hto haccepts.ack hpos hle _)
    · have hlength : packet.dataLength = 0 := by
        have hnonneg := haccepts.nonneg
        by_contra hne
        have hpos := hdata (by omega)
        omega
      have hempty : (packet.segment c).length = 0 := by
        unfold TcpPacket.segment
        rw [hlength]
        rfl
      obtain ⟨hwrite, htable⟩ := hadded.empty hempty hun.table
      have htx := hadded.sameSender
      have hack : packet.ackOffset added = 0 := by
        unfold TcpPacket.ackOffset at hzero ⊢
        rw [hadded.sameConnection.localSequence]
        exact UInt32.toNat_inj.mp (Nat.le_zero.mp hzero)
      refine Or.inr (hun.quiet ho ?_ ?_ ?_ htable)
      · show (receiveAck added packet).txAcked = 0
        rw [receiveAck_txAcked, hack, htx.txAcked, hun.acked]
        rfl
      · show (receiveAck added packet).state ≠ .connected
        rw [receiveAck_state, hack, htx.txAcked, hun.acked, if_neg (by simp), hadded.state.1]
        exact hun.state
      · show added.rxWrite = added.rxRead
        rw [hwrite, hadded.state.2.2.1]
        exact hun.unread

/-- A segment that is sent before the answer is a SYN-ACK. -/
theorem Unanswered.transmit (hun : Unanswered h c) (e : ConnEvent) (now : Int)
    (scratch : Bytes) :
    Unanswered (h ++ [(e, { sent := (transmit c now scratch).sent })])
      (transmit c now scratch).conn := by
  have hsyn : isSyn c = true := by
    show (c.txAcked == 0) = true
    rw [beq_iff_eq]
    exact hun.acked
  refine ⟨hun.acked, ?_, hun.unread, hun.table, ?_⟩
  · show (if sentState c = .bothClosed then TcpState.sendRst else sentState c) ≠ .connected
    rw [sentState_eq, if_pos hsyn]
    nofun
  · intro t ht
    rcases mem_transmitted_transmit ht with hold | rfl
    · exact hun.wire t hold
    · rw [buildSegment_has_syn, buildSegment_has_ack]
      exact ⟨hsyn, rfl⟩

/-- Before the answer nothing is read. -/
theorem Unanswered.read (hun : Unanswered h c) {id : Int} {data : Bytes} {off len : Int}
    {result : ReadResult} (hreads : Reads c id data off len result) :
    result.ret ≤ 0 ∧ ∀ e o, o.sent = none → Unanswered (h ++ [(e, o)]) result.conn := by
  have havailable : Word.toInt (c.rxWrite - c.rxRead) = 0 := by
    rw [hun.unread, UInt32.sub_self]
    rfl
  have hkeep : ∀ e o, o.sent = none → Unanswered (h ++ [(e, o)]) c := by
    intro e o ho
    exact hun.quiet ho hun.acked hun.state hun.unread hun.table
  have hfail : (-1 : Int) ≤ 0 := by decide
  cases hreads with
  | refused => exact ⟨hfail, hkeep⟩
  | released =>
    exact ⟨hfail, fun e o ho => hun.quiet ho hun.acked nofun hun.unread hun.table⟩
  | finished => exact ⟨hfail, hkeep⟩
  | negative => exact ⟨hfail, hkeep⟩
  | @data n _ _ _ _ havail =>
    obtain rfl : n = 0 := by omega
    refine ⟨le_rfl, fun e o ho => hun.quiet ho hun.acked hun.state ?_ hun.table⟩
    show c.rxWrite = c.rxRead + UInt32.ofNat 0
    rw [hun.unread]
    exact (UInt32.add_zero _).symm

/-- Every event but the answer leaves the connection unanswered, and hands
nothing over. -/
theorem Unanswered.step (hun : Unanswered h c) {e : ConnEvent} {o : ConnOutput}
    (hnone : ¬ Once (AnswersSyn ipAddr c) h) (hok : AnswersFirst ipAddr h c e)
    (hsteps : ConnSteps ipAddr c e c' o) :
    (AnswersSyn ipAddr c h e o ∨ Unanswered (h ++ [(e, o)]) c') ∧ o.returned = [] := by
  cases hsteps with
  | receive hreceived =>
    refine ⟨hun.received hreceived (fun hto hrst haccepts => ?_) rfl, rfl⟩
    exact hok _ rfl hto hrst haccepts hnone
  | send hsends =>
    refine ⟨Or.inr ?_, rfl⟩
    rcases hsends.transmit_cases with ⟨hconn, hsent⟩ | ⟨c₁, rfl, rfl | ⟨-, -, rfl⟩⟩
    · rw [hconn]
      exact hun.quiet hsent hun.acked hun.state hun.unread hun.table
    · exact hun.transmit _ _ _
    · have hback : Unanswered h (rewind c) :=
        ⟨hun.acked, hun.state, hun.unread, hun.table, hun.wire⟩
      exact hback.transmit _ _ _
  | read hreads =>
    obtain ⟨hret, hkeep⟩ := hun.read hreads
    refine ⟨Or.inr (hkeep _ _ rfl), ?_⟩
    rw [← List.length_eq_zero_iff, length_takeBytes]
    exact Int.toNat_of_nonpos hret
  | write hwrites =>
    refine ⟨Or.inr ?_, ?_⟩
    · cases hwrites with
      | none => exact hun.quiet rfl hun.acked hun.state hun.unread hun.table
      | accepted => exact hun.quiet rfl hun.acked hun.state hun.unread hun.table
    · rfl
  | shutdown => exact ⟨Or.inr (hun.quiet rfl hun.acked hun.state hun.unread hun.table), rfl⟩
  | close => exact ⟨Or.inr (hun.quiet rfl hun.acked nofun hun.unread hun.table), rfl⟩
  | stale => exact ⟨Or.inr (hun.quiet rfl hun.acked hun.state hun.unread hun.table), rfl⟩

end Steps

/-! ## The result -/

/-- The fresh connection is unanswered. -/
theorem Opens.unanswered {s : Stack} {syn : TcpPacket} {c₀ : TcpConnection}
    (hopens : Opens s syn c₀) : Unanswered [] c₀ := by
  obtain ⟨rand, windowScale, maxSegment, -, rfl⟩ := hopens.eq_openConnection
  exact ⟨rfl, nofun, rfl, nofun, nofun⟩

/-- When every segment before the answer acknowledges only what was sent, and the
SYN if it carries data, the connection is in `TCP_CONNECTED` and `read_tcp` hands
over bytes only after an answer. -/
theorem handshake_safety_of_answersFirst {s : Stack} {syn : TcpPacket} {c₀ c : TcpConnection}
    {h : ConnHistory} (hopens : Opens s syn c₀)
    (hrun : ConnRun s.ipAddr (AnswersFirst s.ipAddr) c₀ h c) :
    (c.state = .connected → Once (AnswersSyn s.ipAddr c) h) ∧
      Always (ReadsAfterAnswer s.ipAddr c) h := by
  have hinv : (Once (AnswersSyn s.ipAddr c) h ∨ Unanswered h c) ∧
      Always (ReadsAfterAnswer s.ipAddr c) h := by
    refine hrun.invariant
      (fun h c => (Once (AnswersSyn s.ipAddr c) h ∨ Unanswered h c) ∧
        Always (ReadsAfterAnswer s.ipAddr c) h)
      ⟨Or.inr hopens.unanswered, always_nil⟩ ?_
    rintro h c e c' o - ⟨hanswer, hreads⟩ - hok hsteps
    rw [hsteps.sameConnection.answersSyn, hsteps.sameConnection.readsAfterAnswer]
    by_cases honce : Once (AnswersSyn s.ipAddr c) h
    · exact ⟨Or.inl honce.append, hreads.append fun _ => honce⟩
    · obtain ⟨hlast, hnothing⟩ := (hanswer.resolve_left honce).step honce hok hsteps
      refine ⟨?_, hreads.append fun hne => absurd hnothing hne⟩
      rcases hlast with hlast | hun
      · exact Or.inl (Once.last hlast)
      · exact Or.inr hun
  obtain ⟨hanswer, hreads⟩ := hinv
  refine ⟨fun hstate => ?_, hreads⟩
  rcases hanswer with honce | hun
  · exact honce
  · exact absurd hstate hun.state

/-- The SYN-ACK, its answer, three bytes of data, and a read. -/
def answeredEvents : List ConnEvent :=
  [.send ⟨0, 0⟩ fun _ => 0, .receive (peerPacket 1 101 TCP_ACK 1024 []),
    .receive (peerPacket 1 101 TCP_ACK 1024 [97, 98, 99]), .read 1 (fun _ => 0) 0 3]

theorem answeredEvents_meets :
    ConnMeets listeningStack.ipAddr (AnswersFirst listeningStack.ipAddr) peerConnection
      answeredEvents := by
  refine ⟨⟨by decide, nofun⟩, ⟨by decide +kernel, ?_⟩, ⟨by decide +kernel, ?_⟩,
    ⟨by decide +kernel, nofun⟩, trivial⟩
  all_goals
    intro packet heq _ _ _ _
    obtain rfl := ConnEvent.receive.inj heq
    decide +kernel

theorem handshake_safety_of_answersFirst_read :
    returned (connExec listeningStack.ipAddr peerConnection answeredEvents).1 = [97, 98, 99] ∧
      (connExec listeningStack.ipAddr peerConnection answeredEvents).2.state = .connected ∧
      Once (AnswersSyn listeningStack.ipAddr
          (connExec listeningStack.ipAddr peerConnection answeredEvents).2)
        (connExec listeningStack.ipAddr peerConnection answeredEvents).1 := by
  have hstate : (connExec listeningStack.ipAddr peerConnection answeredEvents).2.state =
      .connected := by
    decide +kernel
  refine ⟨by decide +kernel, hstate, ?_⟩
  exact (handshake_safety_of_answersFirst peerSyn_opens answeredEvents_meets.run).1 hstate

/-- A sender that has seen nothing of the stack: three bytes right after the SYN
are read before anything is sent, and an acknowledgement of a number that was
never sent leads to `TCP_CONNECTED`. -/
theorem handshake_bypass :
    Opens listeningStack peerSyn peerConnection ∧
      (∃ h c, ConnRun listeningStack.ipAddr anyEvent peerConnection h c ∧
        transmitted h = [] ∧ returned h = [97, 98, 99] ∧
        ¬ Always (ReadsAfterAnswer listeningStack.ipAddr c) h) ∧
      ∃ h c, ConnRun listeningStack.ipAddr anyEvent peerConnection h c ∧ sentEnd c h = 1 ∧
        c.state = .connected ∧ ¬ Once (AnswersSyn listeningStack.ipAddr c) h := by
  have hinjected : ConnMeets listeningStack.ipAddr anyEvent peerConnection
      [.receive (peerPacket 1 0 TCP_ACK 1024 [97, 98, 99]), .read 1 (fun _ => 0) 0 3] := by
    decide +kernel
  have hguessed : ConnMeets listeningStack.ipAddr anyEvent peerConnection
      [.send ⟨0, 0⟩ fun _ => 0, .receive (peerPacket 1 5000000 TCP_ACK 1024 [])] := by
    decide +kernel
  exact ⟨peerSyn_opens, ⟨_, _, hinjected.run, by decide +kernel, by decide +kernel,
    by decide +kernel⟩, _, _, hguessed.run, by decide +kernel, by decide +kernel,
    by decide +kernel⟩

end EthTransfer
