import EthTransfer.Receive.Stream
import EthTransfer.Receive.Window

/-!
# The order of arrival

When the segments of a set all get past the window test, the order in which
they arrive does not matter: `rx_write` is the first offset that the table and
the segments leave missing, and `Frontier` knows no order.  The window test
looks at the current `rx_write`, so it can turn a segment away in one order and
let it in in another.  Nor does the order matter to the readable bytes, unless
the ring held bytes of another stream: then it shows which segments were stored
and which found their bytes already there.

* `letIn` are the segments that an order gets past the test, and `FirstGap` the
  first offset that they leave missing.
* `deliver_firstGap` is the induction over an order: `rx_write` ends at the
  first gap.
* `deliver_rxWrite_eq_iff` compares two orders: they end with the same `rx_write`
  exactly when no segment that one of them lets in covers the first gap of the
  other.
* `storedIn` are the segments that an order stores, and `deliver_rxBuffer` what a
  cell of the ring holds after them.
* `sameOutcome_iff` adds the readable bytes: a cell on which only one of the
  orders stores must hold the byte already (`Replaces`).
-/

namespace EthTransfer

open Frontier

/-! ## Deliveries -/

/-- The connection after a list of packets. -/
def deliver (ipAddr : UInt32) (c : TcpConnection) (packets : List TcpPacket) : TcpConnection :=
  packets.foldl (tcpInput ipAddr) c

@[simp] theorem deliver_cons (ipAddr : UInt32) (c : TcpConnection) (packet : TcpPacket)
    (rest : List TcpPacket) :
    deliver ipAddr c (packet :: rest) = deliver ipAddr (tcpInput ipAddr c packet) rest := rfl

/-- The packets that pass the checks when they arrive, the window test among
them. -/
def letIn (ipAddr : UInt32) : TcpConnection → List TcpPacket → List TcpPacket
  | _, [] => []
  | c, packet :: rest =>
    if Accepts c packet then packet :: letIn ipAddr (tcpInput ipAddr c packet) rest
    else letIn ipAddr (tcpInput ipAddr c packet) rest

/-- The packets that are stored when they arrive. -/
def storedIn (ipAddr : UInt32) : TcpConnection → List TcpPacket → List TcpPacket
  | _, [] => []
  | c, packet :: rest =>
    if Stores ipAddr c packet then packet :: storedIn ipAddr (tcpInput ipAddr c packet) rest
    else storedIn ipAddr (tcpInput ipAddr c packet) rest

/-- Every packet finds room in the table when it arrives. -/
def FindsRoom (ipAddr : UInt32) : TcpConnection → List TcpPacket → Prop
  | _, [] => True
  | c, packet :: rest =>
    c.rxSegments.length ≠ SEG_MASK ∧ FindsRoom ipAddr (tcpInput ipAddr c packet) rest

instance FindsRoom.decidable (ipAddr : UInt32) : ∀ c packets, Decidable (FindsRoom ipAddr c packets)
  | _, [] => isTrue trivial
  | c, packet :: rest =>
    have := FindsRoom.decidable ipAddr (tcpInput ipAddr c packet) rest
    inferInstanceAs (Decidable (_ ≠ _ ∧ _))

/-- The offsets covered by the table of `c` and the segments of `packets`. -/
def reach (c : TcpConnection) (packets : List TcpPacket) : Set ℕ :=
  covered (c.rxSegments ++ packets.map (·.segment c))

/-- `w` is the first offset from `rx_write` on that the table and what the order
lets in leave missing. -/
def FirstGap (ipAddr : UInt32) (c : TcpConnection) (packets : List TcpPacket) (w : ℕ) : Prop :=
  IsFrontier (reach c (letIn ipAddr c packets)) c.rxWrite.toNat w

/-- A data segment of the stream `byte` inside the window. -/
structure DataSegment (ipAddr : UInt32) (byte : ℕ → UInt8) (c : TcpConnection)
    (packet : TcpPacket) : Prop where
  addressed : Addressed ipAddr c packet
  no_rst : packet.tcp.has TCP_RST = false
  inWindow : InWindow c (packet.base c).toNat packet.dataLength.toNat
  bytes : ∀ i < packet.dataLength.toNat, packet.payload i = byte ((packet.base c).toNat + i)

theorem letIn_subset (ipAddr : UInt32) (c : TcpConnection) (packets : List TcpPacket) :
    letIn ipAddr c packets ⊆ packets := by
  induction packets generalizing c with
  | nil => exact List.Subset.refl _
  | cons packet rest ih =>
    rw [letIn]
    split
    · exact List.cons_subset_cons _ (ih _)
    · exact List.Subset.trans (ih _) (List.subset_cons_self _ _)

/-! ## What a packet leaves alone -/

section Deliver

variable {ipAddr : UInt32} {c : TcpConnection} {packet : TcpPacket} {packets : List TcpPacket}

theorem tcpInput_sameConnection : SameConnection c (tcpInput ipAddr c packet) :=
  (tcpInput_received ipAddr c packet).sameConnection

theorem tcpInput_rxRead : (tcpInput ipAddr c packet).rxRead = c.rxRead :=
  (tcpInput_received ipAddr c packet).rxRead

/-- The offset of a segment is the same after another packet. -/
theorem SameConnection.base {c' : TcpConnection} (h : SameConnection c c')
    (packet : TcpPacket) : packet.base c' = packet.base c := by
  unfold TcpPacket.base
  rw [h.remoteSequence]

theorem SameConnection.segment {c' : TcpConnection} (h : SameConnection c c')
    (packet : TcpPacket) : packet.segment c' = packet.segment c := by
  unfold TcpPacket.segment
  rw [h.base]

/-- A segment falls on the same cells after another packet. -/
theorem SameConnection.fallsOn {c' : TcpConnection} (h : SameConnection c c')
    {packet : TcpPacket} {k : ℕ} : packet.FallsOn c' k ↔ packet.FallsOn c k := by
  unfold TcpPacket.FallsOn
  rw [h.base]

/-- A data segment is one before and after another packet. -/
theorem DataSegment.tcpInput {byte : ℕ → UInt8} {other : TcpPacket}
    (h : DataSegment ipAddr byte c packet) :
    DataSegment ipAddr byte (tcpInput ipAddr c other) packet := by
  have hsame : SameConnection c (EthTransfer.tcpInput ipAddr c other) := tcpInput_sameConnection
  refine ⟨hsame.addressed.mpr h.addressed, h.no_rst, ?_, ?_⟩
  · unfold InWindow
    rw [hsame.base, tcpInput_rxRead]
    exact h.inWindow
  · rw [hsame.base]
    exact h.bytes

/-! ## The frontier of an order -/

/-- The frontier of what a packet leaves, together with later segments, is the
frontier of everything. -/
theorem Added.isFrontier {copied added : TcpConnection} {g : TcpSegment}
    (hadded : Added c copied g added) (hroom : c.rxSegments.length ≠ SEG_MASK)
    {later : List TcpSegment} {w : ℕ}
    (hlater : IsFrontier (covered (added.rxSegments ++ later)) added.rxWrite.toNat w) :
    IsFrontier (covered (c.rxSegments ++ g :: later)) c.rxWrite.toNat w := by
  cases hadded with
  | old hstop =>
    refine hlater.congr fun p hp => ?_
    have hnot : ¬ g.Covers p := by
      intro hcovers
      have := UInt32.le_iff_toNat_le.mp hstop
      have := hcovers.2
      omega
    simp [hnot]
  | duplicate hstop hmem =>
    refine hlater.congr fun p _ => ?_
    have hcov : g.Covers p → p ∈ covered c.rxSegments := fun h => ⟨g, hmem, h⟩
    simp only [mem_covered_append, mem_covered_cons]
    tauto
  | full hstop hmem hlen => exact absurd hlen hroom
  | @merged w' kept hstop hmem hlen hmerged hsettled =>
    refine IsFrontier.trans ?_ (hmerged.isFrontier hsettled) (hlater.congr ?_)
    · intro p _ hp
      simp only [mem_covered_append, mem_covered_cons, mem_covered_nil, or_false] at hp ⊢
      tauto
    · intro p hp
      -- above the new `rx_write`, the table covers what it covered before
      have hkept : p ∈ covered kept ↔ p ∈ covered (c.rxSegments ++ [g]) := by
        constructor
        · exact fun h => covered_mono hmerged.sublist h
        · rintro ⟨g', hg', hcovers⟩
          rcases hmerged.dropped g' hg' with hk | hle
          · exact ⟨g', hk, hcovers⟩
          · have hle' := UInt32.le_iff_toNat_le.mp hle
            have hlt := hcovers.2
            have hp' : w'.toNat ≤ p := hp
            omega
      show p ∈ covered (kept ++ later) ↔ _
      rw [mem_covered_append, hkept]
      simp only [mem_covered_append, mem_covered_cons, mem_covered_nil, or_false]
      tauto

/-- `rx_write` ends at the first gap of what the order lets in. -/
theorem deliver_firstGap
    (hto : ∀ packet ∈ packets, Addressed ipAddr c packet ∧ packet.tcp.has TCP_RST = false)
    (hroom : FindsRoom ipAddr c packets) (hsettled : Settled c.rxWrite c.rxSegments) :
    FirstGap ipAddr c packets (deliver ipAddr c packets).rxWrite.toNat := by
  induction packets generalizing c with
  | nil =>
    refine IsFrontier.self fun h => ?_
    simp only [reach, letIn, List.map_nil, List.append_nil] at h
    exact absurd (hsettled.lt_of_mem h) (lt_irrefl _)
  | cons packet rest ih =>
    have hsame : SameConnection c (tcpInput ipAddr c packet) := tcpInput_sameConnection
    have hto' : ∀ other ∈ rest, Addressed ipAddr (tcpInput ipAddr c packet) other ∧
        other.tcp.has TCP_RST = false := by
      intro other hmem
      obtain ⟨ha, hr⟩ := hto other (List.mem_cons_of_mem _ hmem)
      exact ⟨hsame.addressed.mpr ha, hr⟩
    obtain ⟨haddr, hrst⟩ := hto packet List.mem_cons_self
    unfold FirstGap
    rw [deliver_cons, letIn]
    split
    · rename_i haccepts
      obtain ⟨added, hadded, hinput⟩ := tcpInput_of_accepts haddr hrst haccepts
      have hsettled' : Settled (tcpInput ipAddr c packet).rxWrite
          (tcpInput ipAddr c packet).rxSegments := by
        rw [hinput]
        exact (hadded.le_settled ⟨rfl, rfl⟩ hsettled).2
      have hrest := ih hto' hroom.2 hsettled'
      have hsegments : ∀ other : TcpPacket,
          other.segment (tcpInput ipAddr c packet) = other.segment c :=
        fun other => hsame.segment other
      unfold FirstGap reach at hrest
      simp only [hsegments] at hrest
      refine hadded.isFrontier hroom.1 ?_
      rw [hinput] at hrest ⊢
      exact hrest
    · rename_i haccepts
      have hinput := tcpInput_of_not_accepts ipAddr hrst haccepts
      rw [hinput] at hto' ⊢
      exact ih hto' (hinput ▸ hroom.2) hsettled

/-- The segments of a stream keep the window and its contents. -/
theorem deliver_holds {byte : ℕ → UInt8} (hwin : RxWindow c) (hholds : Holds byte c)
    (hdata : ∀ packet ∈ packets, DataSegment ipAddr byte c packet) :
    RxWindow (deliver ipAddr c packets) ∧ Holds byte (deliver ipAddr c packets) ∧
      (deliver ipAddr c packets).rxRead = c.rxRead := by
  induction packets generalizing c with
  | nil => exact ⟨hwin, hholds, rfl⟩
  | cons packet rest ih =>
    have hreceived := tcpInput_received ipAddr c packet
    have hd := hdata packet List.mem_cons_self
    obtain ⟨hw, hh, hr⟩ := ih (hwin.received hreceived fun _ => hd.inWindow)
      (hholds.received hwin hreceived ⟨hd.inWindow, hd.bytes⟩)
      (fun other hmem => (hdata other (List.mem_cons_of_mem _ hmem)).tcpInput)
    exact ⟨hw, hh, hr.trans tcpInput_rxRead⟩

end Deliver

/-! ## The ring after an order -/

section Cells

variable {ipAddr : UInt32} {byte : ℕ → UInt8} {c : TcpConnection} {packet : TcpPacket}
  {packets : List TcpPacket}

/-- A segment that an order stores is one of its packets, and ends above
`rx_read`. -/
theorem mem_storedIn (horder : RxOrder c) (hmem : packet ∈ storedIn ipAddr c packets) :
    packet ∈ packets ∧ packet.dataLength.toNat ≤ 1400 ∧
      c.rxRead.toNat < (packet.base c).toNat + packet.dataLength.toNat := by
  induction packets generalizing c with
  | nil => cases hmem
  | cons first rest ih =>
    have hlater : packet ∈ storedIn ipAddr (tcpInput ipAddr c first) rest →
        packet ∈ rest ∧ packet.dataLength.toNat ≤ 1400 ∧
          c.rxRead.toNat < (packet.base c).toNat + packet.dataLength.toNat := by
      intro hmem
      have hih := ih (horder.received (tcpInput_received ipAddr c first)) hmem
      rw [tcpInput_rxRead, tcpInput_sameConnection.base] at hih
      exact hih
    rw [storedIn] at hmem
    split at hmem
    · rename_i hstores
      rcases List.mem_cons.mp hmem with rfl | hmem
      · have hlength := hstores.length
        have := horder.read_le
        exact ⟨List.mem_cons_self, hlength.1, by omega⟩
      · exact ⟨List.mem_cons_of_mem _ (hlater hmem).1, (hlater hmem).2⟩
    · exact ⟨List.mem_cons_of_mem _ (hlater hmem).1, (hlater hmem).2⟩

/-- Stored data segments lie within one turn of the ring: where two of them fall
on the same cell, they have the same offset. -/
theorem offset_eq_of_cell {others : List TcpPacket} {other : TcpPacket} {i j : ℕ}
    (horder : RxOrder c) (hmem : packet ∈ storedIn ipAddr c packets)
    (hmem' : other ∈ storedIn ipAddr c others) (hdata : DataSegment ipAddr byte c packet)
    (hdata' : DataSegment ipAddr byte c other) (hi : i < packet.dataLength.toNat)
    (hj : j < other.dataLength.toNat)
    (hcell : ((packet.base c).toNat + i) % RING = ((other.base c).toNat + j) % RING) :
    (packet.base c).toNat + i = (other.base c).toNat + j := by
  obtain ⟨-, hmax, hpos⟩ := mem_storedIn horder hmem
  obtain ⟨-, hmax', hpos'⟩ := mem_storedIn horder hmem'
  have hend := hdata.inWindow.resolve_left (by omega)
  have hend' := hdata'.inWindow.resolve_left (by omega)
  unfold RING at hcell
  omega

/-- A cell that no stored segment falls on is left alone. -/
theorem deliver_rxBuffer_of_not {k : ℕ}
    (hnot : ∀ packet ∈ storedIn ipAddr c packets, ¬ packet.FallsOn c k) :
    (deliver ipAddr c packets).rxBuffer k = c.rxBuffer k := by
  induction packets generalizing c with
  | nil => rfl
  | cons packet rest ih =>
    have hsame : SameConnection c (tcpInput ipAddr c packet) := tcpInput_sameConnection
    have hrest : storedIn ipAddr (tcpInput ipAddr c packet) rest ⊆
        storedIn ipAddr c (packet :: rest) := by
      rw [storedIn]
      split
      · exact List.subset_cons_self _ _
      · exact List.Subset.refl _
    rw [deliver_cons, ih fun other hmem hfalls => hnot other (hrest hmem) (hsame.fallsOn.mp hfalls)]
    refine tcpInput_rxBuffer_of_not fun hstores => hnot packet ?_
    rw [storedIn, if_pos hstores]
    exact List.mem_cons_self

/-- A cell that a stored segment falls on holds the byte of the stream. -/
theorem deliver_rxBuffer (horder : RxOrder c)
    (hdata : ∀ packet ∈ packets, DataSegment ipAddr byte c packet)
    (hmem : packet ∈ storedIn ipAddr c packets) {i : ℕ} (hi : i < packet.dataLength.toNat) :
    (deliver ipAddr c packets).rxBuffer (((packet.base c).toNat + i) % RING) =
      packet.payload i := by
  induction packets generalizing c packet i with
  | nil => cases hmem
  | cons first rest ih =>
    have hsame : SameConnection c (tcpInput ipAddr c first) := tcpInput_sameConnection
    have horder' := horder.received (tcpInput_received ipAddr c first)
    have hdata' : ∀ other ∈ rest, DataSegment ipAddr byte (tcpInput ipAddr c first) other :=
      fun other hother => (hdata other (List.mem_cons_of_mem _ hother)).tcpInput
    have hlater : ∀ other ∈ storedIn ipAddr (tcpInput ipAddr c first) rest,
        ∀ j < other.dataLength.toNat,
          (deliver ipAddr c (first :: rest)).rxBuffer (((other.base c).toNat + j) % RING) =
            other.payload j := by
      intro other hother j hj
      have hih := ih horder' hdata' hother hj
      rw [hsame.base] at hih
      exact hih
    by_cases hin : packet ∈ storedIn ipAddr (tcpInput ipAddr c first) rest
    · exact hlater packet hin i hi
    have hfirst := hmem
    rw [storedIn] at hfirst
    split at hfirst
    · rename_i hstores
      obtain rfl := (List.mem_cons.mp hfirst).resolve_right hin
      by_cases hhit : ∃ other ∈ storedIn ipAddr (tcpInput ipAddr c packet) rest,
          other.FallsOn c (((packet.base c).toNat + i) % RING)
      · -- a later segment falls on the cell again, with the same byte
        obtain ⟨other, hother, j, hj, hcell⟩ := hhit
        have hother' : other ∈ storedIn ipAddr c (packet :: rest) := by
          rw [storedIn, if_pos hstores]
          exact List.mem_cons_of_mem _ hother
        have hd := hdata packet List.mem_cons_self
        have hd' := hdata other (mem_storedIn horder hother').1
        have hoffset := offset_eq_of_cell horder hother' hmem hd' hd hj hi hcell
        rw [← hcell, hlater other hother j hj, hd'.bytes j hj, hd.bytes i hi, hoffset]
      · rw [deliver_cons, deliver_rxBuffer_of_not fun other hother hfalls =>
          hhit ⟨other, hother, hsame.fallsOn.mp hfalls⟩]
        exact hstores.rxBuffer_cell hi
    · exact absurd hfirst hin

end Cells

/-! ## Two orders -/

/-- Two orders end with the same `rx_write` and the same readable bytes. -/
structure SameOutcome (ipAddr : UInt32) (c : TcpConnection) (packets others : List TcpPacket) :
    Prop where
  rxWrite : (deliver ipAddr c packets).rxWrite = (deliver ipAddr c others).rxWrite
  bytes : ∀ p, c.rxRead.toNat ≤ p → p < (deliver ipAddr c packets).rxWrite.toNat →
    (deliver ipAddr c packets).rxBuffer (p % RING) = (deliver ipAddr c others).rxBuffer (p % RING)

/-- The window test turns a segment away in the first order that it lets in in
the second, and the segment covers the first gap of the first order. -/
def TurnsAway (ipAddr : UInt32) (c : TcpConnection) (packets others : List TcpPacket) : Prop :=
  ∃ packet ∈ packets, packet ∉ letIn ipAddr c packets ∧ packet ∈ letIn ipAddr c others ∧
    ∃ w, FirstGap ipAddr c packets w ∧ (packet.segment c).Covers w

/-- A segment stored in the first order puts another byte on the cell of a
readable offset, and no segment stored in the second falls on that cell. -/
def Replaces (ipAddr : UInt32) (c : TcpConnection) (packets others : List TcpPacket) : Prop :=
  ∃ packet ∈ storedIn ipAddr c packets, ∃ i < packet.dataLength.toNat, ∃ p w,
    FirstGap ipAddr c packets w ∧ c.rxRead.toNat ≤ p ∧ p < w ∧
    ((packet.base c).toNat + i) % RING = p % RING ∧
    packet.payload i ≠ c.rxBuffer (p % RING) ∧
    ∀ other ∈ storedIn ipAddr c others, ¬ other.FallsOn c (p % RING)

section TwoOrders

variable {ipAddr : UInt32} {c : TcpConnection} {packets others : List TcpPacket}

/-- The second order covers the first gap of the first exactly by a segment that
the first turns away. -/
theorem turnsAway_iff (hsub : others ⊆ packets) {w : ℕ} (hgap : FirstGap ipAddr c packets w) :
    TurnsAway ipAddr c packets others ↔ w ∈ reach c (letIn ipAddr c others) := by
  constructor
  · intro ⟨packet, _, _, hin, w', hgap', hcovers⟩
    obtain rfl := hgap.unique hgap'
    exact ⟨packet.segment c, List.mem_append_right _ (List.mem_map_of_mem hin), hcovers⟩
  · intro ⟨g, hg, hcovers⟩
    rcases List.mem_append.mp hg with htable | hlet
    · exact absurd ⟨g, List.mem_append_left _ htable, hcovers⟩ hgap.gap
    · obtain ⟨packet, hin, rfl⟩ := List.mem_map.mp hlet
      refine ⟨packet, hsub (letIn_subset _ _ _ hin), fun hmem => ?_, hin, w, hgap, hcovers⟩
      exact hgap.gap
        ⟨packet.segment c, List.mem_append_right _ (List.mem_map_of_mem hmem), hcovers⟩

/-- An order that lets everything in turns nothing away. -/
theorem not_turnsAway_of_letIn (h : packets ⊆ letIn ipAddr c packets) :
    ¬ TurnsAway ipAddr c packets others := by
  intro ⟨packet, hmem, hnot, _⟩
  exact hnot (h hmem)

/-- Two orders of the same packets end with the same `rx_write` exactly when
neither turns away what the other needs. -/
theorem deliver_rxWrite_eq_iff (hperm : packets.Perm others)
    (hto : ∀ packet ∈ packets, Addressed ipAddr c packet ∧ packet.tcp.has TCP_RST = false)
    (hroom : FindsRoom ipAddr c packets) (hroom' : FindsRoom ipAddr c others)
    (hsettled : Settled c.rxWrite c.rxSegments) :
    (deliver ipAddr c packets).rxWrite = (deliver ipAddr c others).rxWrite ↔
      ¬ TurnsAway ipAddr c packets others ∧ ¬ TurnsAway ipAddr c others packets := by
  have hgap := deliver_firstGap hto hroom hsettled
  have hgap' := deliver_firstGap (fun packet hmem => hto packet (hperm.mem_iff.mpr hmem)) hroom'
    hsettled
  rw [turnsAway_iff hperm.symm.subset hgap, turnsAway_iff hperm.subset hgap',
    ← UInt32.toNat_inj]
  exact IsFrontier.eq_iff hgap hgap'

/-- An order that another one agrees with replaces nothing. -/
theorem not_replaces {byte : ℕ → UInt8} (horder : RxOrder c)
    (hdata : ∀ packet ∈ packets, DataSegment ipAddr byte c packet)
    (hgap : FirstGap ipAddr c packets (deliver ipAddr c packets).rxWrite.toNat)
    (hbytes : ∀ p, c.rxRead.toNat ≤ p → p < (deliver ipAddr c packets).rxWrite.toNat →
      (deliver ipAddr c packets).rxBuffer (p % RING) =
        (deliver ipAddr c others).rxBuffer (p % RING)) :
    ¬ Replaces ipAddr c packets others := by
  intro ⟨packet, hmem, i, hi, p, w, hw, hread, hwrite, hcell, hne, hnot⟩
  obtain rfl := hgap.unique hw
  refine hne ?_
  calc packet.payload i = (deliver ipAddr c packets).rxBuffer (p % RING) := by
        rw [← hcell, deliver_rxBuffer horder hdata hmem hi]
    _ = (deliver ipAddr c others).rxBuffer (p % RING) := hbytes p hread hwrite
    _ = c.rxBuffer (p % RING) := deliver_rxBuffer_of_not hnot

/-- Where a segment stored in one order falls, the other order has its byte,
when the one order replaces nothing. -/
theorem deliver_rxBuffer_other {byte : ℕ → UInt8} (horder : RxOrder c)
    (hdata : ∀ packet ∈ packets, DataSegment ipAddr byte c packet)
    (hdata' : ∀ packet ∈ others, DataSegment ipAddr byte c packet)
    (hgap : FirstGap ipAddr c packets (deliver ipAddr c packets).rxWrite.toNat)
    (hkeep : ¬ Replaces ipAddr c packets others) {packet : TcpPacket} {p : ℕ}
    (hread : c.rxRead.toNat ≤ p) (hwrite : p < (deliver ipAddr c packets).rxWrite.toNat)
    (hmem : packet ∈ storedIn ipAddr c packets) (hfalls : packet.FallsOn c (p % RING)) :
    (deliver ipAddr c packets).rxBuffer (p % RING) =
      (deliver ipAddr c others).rxBuffer (p % RING) := by
  obtain ⟨i, hi, hcell⟩ := hfalls
  have hforth : (deliver ipAddr c packets).rxBuffer (p % RING) = packet.payload i := by
    rw [← hcell, deliver_rxBuffer horder hdata hmem hi]
  by_cases hhit : ∃ other ∈ storedIn ipAddr c others, other.FallsOn c (p % RING)
  · obtain ⟨other, hother, j, hj, hcell'⟩ := hhit
    have hd := hdata packet (mem_storedIn horder hmem).1
    have hd' := hdata' other (mem_storedIn horder hother).1
    have hoffset := offset_eq_of_cell horder hmem hother hd hd' hi hj (hcell.trans hcell'.symm)
    rw [hforth, ← hcell', deliver_rxBuffer horder hdata' hother hj, hd.bytes i hi,
      hd'.bytes j hj, hoffset]
  · have hnot : ∀ other ∈ storedIn ipAddr c others, ¬ other.FallsOn c (p % RING) :=
      fun other hother hfalls => hhit ⟨other, hother, hfalls⟩
    rw [hforth, deliver_rxBuffer_of_not hnot]
    by_contra hne
    exact hkeep ⟨packet, hmem, i, hi, p, _, hgap, hread, hwrite, hcell, hne, hnot⟩

/-- With the same `rx_write`, two orders end alike exactly when neither replaces
a byte that the other leaves. -/
theorem sameOutcome_iff {byte : ℕ → UInt8} (horder : RxOrder c) (hperm : packets.Perm others)
    (hdata : ∀ packet ∈ packets, DataSegment ipAddr byte c packet)
    (hroom : FindsRoom ipAddr c packets) (hroom' : FindsRoom ipAddr c others) :
    SameOutcome ipAddr c packets others ↔
      (deliver ipAddr c packets).rxWrite = (deliver ipAddr c others).rxWrite ∧
        ¬ Replaces ipAddr c packets others ∧ ¬ Replaces ipAddr c others packets := by
  have hdata' : ∀ packet ∈ others, DataSegment ipAddr byte c packet :=
    fun packet hmem => hdata packet (hperm.mem_iff.mpr hmem)
  have hgap := deliver_firstGap
    (fun packet hmem => ⟨(hdata packet hmem).addressed, (hdata packet hmem).no_rst⟩) hroom
    horder.settled
  have hgap' := deliver_firstGap
    (fun packet hmem => ⟨(hdata' packet hmem).addressed, (hdata' packet hmem).no_rst⟩) hroom'
    horder.settled
  constructor
  · intro h
    refine ⟨h.rxWrite, not_replaces horder hdata hgap h.bytes,
      not_replaces horder hdata' hgap' fun p hread hwrite => (h.bytes p hread ?_).symm⟩
    rw [h.rxWrite]
    exact hwrite
  · intro ⟨hwrite, hkeep, hkeep'⟩
    refine ⟨hwrite, fun p hread hlt => ?_⟩
    by_cases hhit : ∃ packet ∈ storedIn ipAddr c packets, packet.FallsOn c (p % RING)
    · obtain ⟨packet, hmem, hfalls⟩ := hhit
      exact deliver_rxBuffer_other horder hdata hdata' hgap hkeep hread hlt hmem hfalls
    by_cases hhit' : ∃ other ∈ storedIn ipAddr c others, other.FallsOn c (p % RING)
    · obtain ⟨other, hmem, hfalls⟩ := hhit'
      exact (deliver_rxBuffer_other horder hdata' hdata hgap' hkeep' hread (hwrite ▸ hlt) hmem
        hfalls).symm
    · rw [deliver_rxBuffer_of_not fun packet hmem hfalls => hhit ⟨packet, hmem, hfalls⟩,
        deliver_rxBuffer_of_not fun other hmem hfalls => hhit' ⟨other, hmem, hfalls⟩]

/-- When the ring holds the stream of the segments, the readable bytes are those
of the stream in every order. -/
theorem sameOutcome_iff_rxWrite {byte : ℕ → UInt8} (hwin : RxWindow c) (hholds : Holds byte c)
    (hdata : ∀ packet ∈ packets, DataSegment ipAddr byte c packet)
    (hdata' : ∀ packet ∈ others, DataSegment ipAddr byte c packet) :
    SameOutcome ipAddr c packets others ↔
      (deliver ipAddr c packets).rxWrite = (deliver ipAddr c others).rxWrite := by
  constructor
  · exact fun h => h.rxWrite
  · intro heq
    refine ⟨heq, fun p hread hwrite => ?_⟩
    obtain ⟨-, hh, hr⟩ := deliver_holds hwin hholds hdata
    obtain ⟨-, hh', hr'⟩ := deliver_holds hwin hholds hdata'
    rw [hh p (Or.inl ⟨hr ▸ hread, hwrite⟩), hh' p (Or.inl ⟨hr' ▸ hread, heq ▸ hwrite⟩)]

end TwoOrders

/-- In every reachable state, two orders of a set of data segments of one stream
end alike exactly when neither turns away a segment that the other lets in and
that covers its first gap, and neither replaces a byte that the other leaves.
Where the ring holds that stream already, the first of the two decides. -/
theorem order_independence_iff {s : Stack} {syn : TcpPacket} {c₀ c : TcpConnection}
    {h : ConnHistory} {byte : ℕ → UInt8} {packets others : List TcpPacket}
    (hopens : Opens s syn c₀) (hrun : ConnRun s.ipAddr anyEvent c₀ h c)
    (hperm : packets.Perm others)
    (hdata : ∀ packet ∈ packets, DataSegment s.ipAddr byte c packet)
    (hroom : FindsRoom s.ipAddr c packets) (hroom' : FindsRoom s.ipAddr c others) :
    (SameOutcome s.ipAddr c packets others ↔
        (¬ TurnsAway s.ipAddr c packets others ∧ ¬ TurnsAway s.ipAddr c others packets) ∧
          ¬ Replaces s.ipAddr c packets others ∧ ¬ Replaces s.ipAddr c others packets) ∧
      (RxWindow c → Holds byte c → (SameOutcome s.ipAddr c packets others ↔
        ¬ TurnsAway s.ipAddr c packets others ∧ ¬ TurnsAway s.ipAddr c others packets)) := by
  have horder := hrun.rxOrder hopens.rxOrder
  have hwrite := deliver_rxWrite_eq_iff hperm
    (fun packet hmem => ⟨(hdata packet hmem).addressed, (hdata packet hmem).no_rst⟩) hroom hroom'
    horder.settled
  refine ⟨?_, fun hwin hholds => ?_⟩
  · rw [sameOutcome_iff horder hperm hdata hroom hroom', hwrite]
  · rw [sameOutcome_iff_rxWrite hwin hholds hdata
      fun packet hmem => hdata packet (hperm.mem_iff.mpr hmem)]
    exact hwrite

/-! ## Concrete orders -/

/-- A data segment of zeros from the peer. -/
def zeros (sequence : UInt32) (n : ℕ) : TcpPacket :=
  peerPacket sequence 101 TCP_ACK 1024 (List.replicate n 0)

theorem zeros_payload (sequence : UInt32) (n i : ℕ) : (zeros sequence n).payload i = 0 := by
  show (List.replicate n (0 : UInt8)).getD (_ + i - 20) 0 = 0
  simp [List.getD_eq_getElem?_getD, List.getElem?_replicate]
  split <;> rfl

/-- The connection after the SYN-ACK. -/
def synAcked : ConnHistory × TcpConnection :=
  connExec listeningStack.ipAddr peerConnection [.send ⟨0, 0⟩ fun _ => 0]

theorem synAcked_run :
    ConnRun listeningStack.ipAddr anyEvent peerConnection synAcked.1 synAcked.2 :=
  ConnMeets.run (by decide +kernel)

theorem zeros_dataSegment {sequence : UInt32} {n : ℕ}
    (h : Addressed listeningStack.ipAddr synAcked.2 (zeros sequence n) ∧
      (zeros sequence n).tcp.has TCP_RST = false ∧
      InWindow synAcked.2 ((zeros sequence n).base synAcked.2).toNat
        (zeros sequence n).dataLength.toNat) :
    DataSegment listeningStack.ipAddr (fun _ => 0) synAcked.2 (zeros sequence n) :=
  ⟨h.1, h.2.1, h.2.2, fun i _ => zeros_payload sequence n i⟩

theorem synAcked_holds : RxWindow synAcked.2 ∧ Holds (fun _ => 0) synAcked.2 := by
  have hsends := sendTcpPacket_sends peerSyn_opens.opened ⟨0, 0⟩ fun _ => 0
  have hinv := peerSyn_opens.receivesStream ⟨fun _ => 0, 1, le_rfl, by decide⟩
  exact ⟨hinv.window.congr hsends.sameReceiver, hinv.holds.congr hsends.sameReceiver⟩

theorem order_independence_iff_two :
    SameOutcome listeningStack.ipAddr synAcked.2 [zeros 1 10, zeros 11 10]
      [zeros 11 10, zeros 1 10] := by
  have hdata : ∀ packet ∈ [zeros 1 10, zeros 11 10],
      DataSegment listeningStack.ipAddr (fun _ => 0) synAcked.2 packet := by
    intro packet hmem
    simp only [List.mem_cons, List.not_mem_nil, or_false] at hmem
    rcases hmem with rfl | rfl
    · exact zeros_dataSegment ⟨by decide +kernel, by decide +kernel, Or.inr (by decide +kernel)⟩
    · exact zeros_dataSegment ⟨by decide +kernel, by decide +kernel, Or.inr (by decide +kernel)⟩
  -- the window test lets everything in
  have hforth : letIn listeningStack.ipAddr synAcked.2 [zeros 1 10, zeros 11 10] =
      [zeros 1 10, zeros 11 10] := rfl
  have hback : letIn listeningStack.ipAddr synAcked.2 [zeros 11 10, zeros 1 10] =
      [zeros 11 10, zeros 1 10] := rfl
  refine ((order_independence_iff peerSyn_opens synAcked_run (List.Perm.swap _ _ _) hdata
    (by decide +kernel) (by decide +kernel)).2 synAcked_holds.1 synAcked_holds.2).mpr ⟨?_, ?_⟩
  · exact not_turnsAway_of_letIn (hforth ▸ List.Subset.refl _)
  · exact not_turnsAway_of_letIn (hback ▸ List.Subset.refl _)

/-- Three overlapping segments inside the window.  In order, the window test
turns the last one away; when it comes first, it is let in. -/
theorem order_dependence :
    Opens listeningStack peerSyn peerConnection ∧
      ConnRun listeningStack.ipAddr anyEvent peerConnection synAcked.1 synAcked.2 ∧
      synAcked.2.state ≠ .listen ∧
      RxWindow synAcked.2 ∧ Holds (fun _ => 0) synAcked.2 ∧
      (∀ packet ∈ [zeros 1 1400, zeros 1401 1400, zeros 2600 1400],
        DataSegment listeningStack.ipAddr (fun _ => 0) synAcked.2 packet) ∧
      FindsRoom listeningStack.ipAddr synAcked.2
        [zeros 1 1400, zeros 1401 1400, zeros 2600 1400] ∧
      FindsRoom listeningStack.ipAddr synAcked.2
        [zeros 2600 1400, zeros 1 1400, zeros 1401 1400] ∧
      (deliver listeningStack.ipAddr synAcked.2
        [zeros 1 1400, zeros 1401 1400, zeros 2600 1400]).rxWrite = 2801 ∧
      (deliver listeningStack.ipAddr synAcked.2
        [zeros 2600 1400, zeros 1 1400, zeros 1401 1400]).rxWrite = 4000 ∧
      ¬ SameOutcome listeningStack.ipAddr synAcked.2
        [zeros 1 1400, zeros 1401 1400, zeros 2600 1400]
        [zeros 2600 1400, zeros 1 1400, zeros 1401 1400] := by
  refine ⟨peerSyn_opens, synAcked_run, by decide +kernel, synAcked_holds.1, synAcked_holds.2, ?_,
    by decide +kernel, by decide +kernel, by decide +kernel, by decide +kernel, ?_⟩
  · intro packet hmem
    simp only [List.mem_cons, List.not_mem_nil, or_false] at hmem
    rcases hmem with rfl | rfl | rfl
    · exact zeros_dataSegment ⟨by decide +kernel, by decide +kernel, Or.inr (by decide +kernel)⟩
    · exact zeros_dataSegment ⟨by decide +kernel, by decide +kernel, Or.inr (by decide +kernel)⟩
    · exact zeros_dataSegment ⟨by decide +kernel, by decide +kernel, Or.inr (by decide +kernel)⟩
  · intro hsame
    have hwrite := hsame.rxWrite
    revert hwrite
    decide +kernel

end EthTransfer
