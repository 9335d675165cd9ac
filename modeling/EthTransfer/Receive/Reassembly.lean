import EthTransfer.Stack.Connection

/-!
# The receive window

The receive ring holds a window of the peer's stream: the unread bytes
`[rx_read, rx_write)` and the segments of the table above them.  `RxWindow` is
the bookkeeping part of that picture and `Holds` its contents.

Both are kept by a segment that ends inside the window (`InWindow`), whatever
`add_segment` does with it: `RxWindow.added` and `Holds.added`.  The reason is
`copyRx_at`.  The positions that matter and the positions that are written lie
within one turn of the ring, so none of them share a cell.
-/

namespace EthTransfer

open RingBuffer

/-! ## The picture -/

/-- The counters and the table of a connection that keeps its window. -/
structure RxWindow (c : TcpConnection) : Prop where
  read_le : c.rxRead.toNat ≤ c.rxWrite.toNat
  write_le : c.rxWrite.toNat ≤ c.rxRead.toNat + 4096
  table : ∀ p ∈ covered c.rxSegments, p < c.rxRead.toNat + 4096
  settled : Settled c.rxWrite c.rxSegments

/-- The offsets whose bytes the connection holds: unread, or out of order. -/
def held (c : TcpConnection) : Set ℕ :=
  {p | c.rxRead.toNat ≤ p ∧ p < c.rxWrite.toNat ∨ p ∈ covered c.rxSegments}

/-- The bytes the connection holds are those of the stream `byte`. -/
def Holds (byte : ℕ → UInt8) (c : TcpConnection) : Prop :=
  ∀ p ∈ held c, c.rxBuffer (p % RING) = byte p

/-- `n` bytes at offset `base` end inside the window, and their end does not
wrap.  Without bytes nothing is asked. -/
def InWindow (c : TcpConnection) (base n : ℕ) : Prop :=
  n = 0 ∨ base + n ≤ c.rxRead.toNat + 4096

/-- A covered offset lies above `rx_write`. -/
theorem Settled.lt_of_mem {w : UInt32} {segments : List TcpSegment}
    (h : Settled w segments) {p : ℕ} (hp : p ∈ covered segments) : w.toNat < p := by
  obtain ⟨g, hg, hpos, -⟩ := hp
  have := UInt32.lt_iff_toNat_lt.mp (h g hg).1
  omega

/-- The held offsets lie in one window of 4096 offsets from `rx_read`. -/
theorem RxWindow.of_mem_held {c : TcpConnection} (h : RxWindow c) {p : ℕ} (hp : p ∈ held c) :
    c.rxRead.toNat ≤ p ∧ p < c.rxRead.toNat + 4096 := by
  have := h.read_le
  have := h.write_le
  rcases hp with ⟨hread, hwrite⟩ | hcov
  · omega
  · have := h.settled.lt_of_mem hcov
    have := h.table p hcov
    omega

/-- The offsets a new segment covers. -/
theorem covers_newSegment {dest : UInt32} {n p : ℕ}
    (h : TcpSegment.Covers ⟨dest, UInt32.ofNat n⟩ p) :
    dest.toNat ≤ p ∧ p < dest.toNat + n := by
  have hstop := Word.toNat_add_ofNat_le dest n
  obtain ⟨hpos, hlt⟩ := h
  exact ⟨hpos, Nat.lt_of_lt_of_le hlt hstop⟩

theorem mem_covered_concat {segments : List TcpSegment} {g : TcpSegment} {p : ℕ} :
    p ∈ covered (segments ++ [g]) ↔ p ∈ covered segments ∨ g.Covers p := by
  simp

/-- The window depends on the receive side only. -/
theorem RxWindow.congr {c c' : TcpConnection} (h : RxWindow c) (hrx : SameReceiver c c') :
    RxWindow c' := by
  refine ⟨?_, ?_, ?_, ?_⟩
  · rw [hrx.rxRead, hrx.rxWrite]
    exact h.read_le
  · rw [hrx.rxRead, hrx.rxWrite]
    exact h.write_le
  · rw [hrx.rxRead, hrx.rxSegments]
    exact h.table
  · rw [hrx.rxWrite, hrx.rxSegments]
    exact h.settled

/-- So do its contents. -/
theorem Holds.congr {byte : ℕ → UInt8} {c c' : TcpConnection} (h : Holds byte c)
    (hrx : SameReceiver c c') : Holds byte c' := by
  unfold Holds held
  rw [hrx.rxBuffer, hrx.rxRead, hrx.rxWrite, hrx.rxSegments]
  exact h

/-- The advertised window is the free space: what it adds to `rx_write` is the
end of the window. -/
theorem RxWindow.toNat_sendWindow {c : TcpConnection} (h : RxWindow c) :
    c.rxWrite.toNat + (sendWindow c).toNat = c.rxRead.toNat + 4096 := by
  have hread := h.read_le
  have hwrite := h.write_le
  have hlt := c.rxWrite.toNat_lt
  have hwin : TCP_WINDOW.toNat = 4096 := by decide
  unfold sendWindow
  rw [UInt32.toNat_toUInt16, UInt32.toNat_sub, UInt32.toNat_add, hwin]
  omega

/-! ## The copy -/

/-- What a cell of the receive ring holds after the copy of a segment, for the
offsets within one turn of the segment. -/
theorem copyRx_at {c : TcpConnection} {dest : UInt32} {n p : ℕ} (data : Bytes)
    (hn : n ≤ 1400) (hend : dest.toNat + n ≤ p + RING) (hstart : p < dest.toNat + RING) :
    (c.copyRx data n dest).rxBuffer (p % RING) =
      if dest.toNat ≤ p ∧ p < dest.toNat + n then data (p - dest.toNat)
      else c.rxBuffer (p % RING) := by
  unfold TcpConnection.copyRx
  rw [copyToCircleBuffer_ring _ _ _ (show n < 8192 by omega)]
  exact store_at _ _ hend hstart

/-- An empty segment leaves the ring alone. -/
theorem copyRx_zero (c : TcpConnection) (data : Bytes) (dest : UInt32) :
    (c.copyRx data (0 : ℕ) dest).rxBuffer = c.rxBuffer := by
  unfold TcpConnection.copyRx
  rw [copyToCircleBuffer_ring _ _ _ (by decide)]
  funext i
  simp [store]

/-- The cells of the window after the copy of a segment that is new and ends
inside the window. -/
theorem RxWindow.copyRx_at {c : TcpConnection} (h : RxWindow c) {dest : UInt32} {n p : ℕ}
    (data : Bytes) (hn : n ≤ 1400) (hin : InWindow c dest.toNat n)
    (hnew : c.rxWrite.toNat < dest.toNat + n)
    (hp : c.rxRead.toNat ≤ p ∧ p < c.rxRead.toNat + 4096) :
    (c.copyRx data n dest).rxBuffer (p % RING) =
      if dest.toNat ≤ p ∧ p < dest.toNat + n then data (p - dest.toNat)
      else c.rxBuffer (p % RING) := by
  have := h.read_le
  have := h.write_le
  rcases hin with rfl | hin
  · rw [copyRx_zero, if_neg (by omega)]
  · refine EthTransfer.copyRx_at data hn ?_ ?_ <;> simp only [RING] <;> omega

/-! ## What `add_segment` keeps -/

section Added

variable {c c' : TcpConnection} {data : Bytes} {n : ℕ} {dest : UInt32}

/-- A segment that is not below `rx_write` ends above it, wrap or no wrap. -/
theorem lt_of_lt_stop {w : UInt32}
    (hstop : w < TcpSegment.stop ⟨dest, UInt32.ofNat n⟩) : w.toNat < dest.toNat + n :=
  Nat.lt_of_lt_of_le (UInt32.lt_iff_toNat_lt.mp hstop) (Word.toNat_add_ofNat_le dest n)

/-- The table and the frontier after a merge stay below a bound that the table
and the new segment keep. -/
theorem Merged.bound {w w' : UInt32} {segments kept : List TcpSegment}
    (h : Merged w segments w' kept) {b : ℕ} (hw : w.toNat ≤ b)
    (htable : ∀ p ∈ covered segments, p < b) : w'.toNat ≤ b := by
  by_contra hlt
  have hcov := h.covers b (by omega) (by omega)
  exact absurd (htable b hcov) (lt_irrefl b)

/-- `add_segment` keeps every bound that the frontier, the table and the new
segment keep. -/
theorem Added.bound {b : ℕ} (hw : c.rxWrite.toNat ≤ b)
    (htable : ∀ p ∈ covered c.rxSegments, p < b) (hn : n = 0 ∨ dest.toNat + n ≤ b)
    (hadded : Added c (c.copyRx data n dest) ⟨dest, UInt32.ofNat n⟩ c') :
    c'.rxWrite.toNat ≤ b ∧ ∀ p ∈ covered c'.rxSegments, p < b := by
  cases hadded with
  | old => exact ⟨hw, htable⟩
  | duplicate => exact ⟨hw, htable⟩
  | full => exact ⟨hw, htable⟩
  | merged hstop hmem hlen hmerged hsettled =>
    have hall : ∀ p ∈ covered (c.rxSegments ++ [⟨dest, UInt32.ofNat n⟩]), p < b := by
      intro p hp
      rcases mem_covered_concat.mp hp with hp | hp
      · exact htable p hp
      · have := covers_newSegment hp
        rcases hn with rfl | hn <;> omega
    exact ⟨hmerged.bound hw hall, fun p hp => hall p (covered_mono hmerged.sublist hp)⟩

/-- `add_segment` moves `rx_write` up only, and settles the table. -/
theorem Added.le_settled {copied : TcpConnection} {g : TcpSegment} (hadded : Added c copied g c')
    (hcopied : copied.rxWrite = c.rxWrite ∧ copied.rxSegments = c.rxSegments)
    (hsettled : Settled c.rxWrite c.rxSegments) :
    c.rxWrite.toNat ≤ c'.rxWrite.toNat ∧ Settled c'.rxWrite c'.rxSegments := by
  cases hadded with
  | old => exact ⟨le_rfl, hsettled⟩
  | duplicate => exact ⟨le_rfl, hsettled⟩
  | full =>
    rw [hcopied.1, hcopied.2]
    exact ⟨le_rfl, hsettled⟩
  | merged hstop hmem hlen hmerged hsettled =>
    exact ⟨UInt32.le_iff_toNat_le.mp hmerged.le, hsettled⟩

/-- `add_segment` keeps the window. -/
theorem RxWindow.added (h : RxWindow c) (hin : InWindow c dest.toNat n)
    (hadded : Added c (c.copyRx data n dest) ⟨dest, UInt32.ofNat n⟩ c') : RxWindow c' := by
  have hread : c'.rxRead = c.rxRead := hadded.state.2.2.1
  obtain ⟨hwrite, htable⟩ := hadded.bound h.write_le h.table hin
  obtain ⟨hle, hsettled⟩ := hadded.le_settled ⟨rfl, rfl⟩ h.settled
  rw [← hread] at hwrite htable
  refine ⟨?_, hwrite, htable, hsettled⟩
  rw [hread]
  exact Nat.le_trans h.read_le hle

/-- What `add_segment` holds afterwards was held before or is in the new
segment. -/
theorem mem_held_added {p : ℕ}
    (hadded : Added c (c.copyRx data n dest) ⟨dest, UInt32.ofNat n⟩ c') (hp : p ∈ held c') :
    p ∈ held c ∨ TcpSegment.Covers ⟨dest, UInt32.ofNat n⟩ p := by
  cases hadded with
  | old => exact Or.inl hp
  | duplicate => exact Or.inl hp
  | full => exact Or.inl hp
  | merged hstop hmem hlen hmerged hsettled =>
    have hcov : p ∈ covered (c.rxSegments ++ [⟨dest, UInt32.ofNat n⟩]) → p ∈ held c ∨
        TcpSegment.Covers ⟨dest, UInt32.ofNat n⟩ p := by
      intro h
      rcases mem_covered_concat.mp h with h | h
      · exact Or.inl (Or.inr h)
      · exact Or.inr h
    rcases hp with ⟨hread, hwrite⟩ | hkept
    · rcases Nat.lt_or_ge p c.rxWrite.toNat with hlt | hge
      · exact Or.inl (Or.inl ⟨hread, hlt⟩)
      · exact hcov (hmerged.covers p hge hwrite)
    · exact hcov (covered_mono hmerged.sublist hkept)

/-- After the copy of a new segment that carries the bytes of the stream, the
ring holds the stream wherever it did before and wherever the segment lies. -/
theorem Holds.copyRx {byte : ℕ → UInt8} (h : Holds byte c) (hwin : RxWindow c) (hn : n ≤ 1400)
    (hin : InWindow c dest.toNat n) (hbytes : ∀ i < n, data i = byte (dest.toNat + i))
    (hnew : c.rxWrite.toNat < dest.toNat + n) {p : ℕ}
    (hrange : c.rxRead.toNat ≤ p ∧ p < c.rxRead.toNat + 4096)
    (hp : p ∈ held c ∨ TcpSegment.Covers ⟨dest, UInt32.ofNat n⟩ p) :
    (c.copyRx data n dest).rxBuffer (p % RING) = byte p := by
  rw [hwin.copyRx_at data hn hin hnew hrange]
  split
  · rename_i hmem
    rw [hbytes _ (by omega), Nat.add_sub_cancel' hmem.1]
  · rename_i hmem
    rcases hp with hold | hcovers
    · exact h p hold
    · exact absurd (covers_newSegment hcovers) hmem

/-- `add_segment` keeps the contents, when the segment carries the bytes of the
stream. -/
theorem Holds.added {byte : ℕ → UInt8} (h : Holds byte c) (hwin : RxWindow c) (hn : n ≤ 1400)
    (hin : InWindow c dest.toNat n) (hbytes : ∀ i < n, data i = byte (dest.toNat + i))
    (hadded : Added c (c.copyRx data n dest) ⟨dest, UInt32.ofNat n⟩ c') : Holds byte c' := by
  intro p hp
  have hread : c'.rxRead = c.rxRead := hadded.state.2.2.1
  have hrange := (hwin.added hin hadded).of_mem_held hp
  rw [hread] at hrange
  have hmem := mem_held_added hadded hp
  cases hadded with
  | old => exact h p hp
  | duplicate => exact h p hp
  | full hstop => exact h.copyRx hwin hn hin hbytes (lt_of_lt_stop hstop) hrange hmem
  | merged hstop => exact h.copyRx hwin hn hin hbytes (lt_of_lt_stop hstop) hrange hmem

/-- A packet keeps the contents, when it carries bytes of the stream and ends
inside the window. -/
theorem Holds.received {byte : ℕ → UInt8} {ipAddr : UInt32} {packet : TcpPacket}
    (h : Holds byte c) (hwin : RxWindow c) (hreceived : Received ipAddr c packet c')
    (hdata : InWindow c (packet.base c).toNat packet.dataLength.toNat ∧
      ∀ i < packet.dataLength.toNat, packet.payload i = byte ((packet.base c).toNat + i)) :
    Holds byte c' := by
  cases hreceived with
  | ignored => exact h
  | reset => exact fun p hp => h p hp
  | accepted hto hrst haccepts hadded =>
    obtain ⟨n, hn, hmax⟩ := haccepts.exists_length
    have hcount : packet.dataLength.toNat = n := by rw [hn, Int.toNat_natCast]
    rw [hcount] at hdata
    have hb := h.added hwin hmax hdata.1 hdata.2 (TcpPacket.added_of_length hn hadded)
    exact fun p hp => hb p hp

end Added

/-! ## What `read_tcp` keeps -/

section Read

variable {c : TcpConnection} {n : ℕ}

/-- The connection after `n` bytes have been read. -/
def TcpConnection.advance (c : TcpConnection) (n : ℕ) : TcpConnection :=
  { c with
    rxRead := c.rxRead + UInt32.ofNat n
    ackTimeout := if (n : Int) > 0 then -1 else c.ackTimeout }

/-- The unread count is a small non-negative `int`. -/
theorem RxWindow.toInt_available (h : RxWindow c) :
    Word.toInt (c.rxWrite - c.rxRead) = (c.rxWrite.toNat - c.rxRead.toNat : ℕ) := by
  have hread := h.read_le
  have hwrite := h.write_le
  have hsub : (c.rxWrite - c.rxRead).toNat = c.rxWrite.toNat - c.rxRead.toNat := by
    rw [Word.toNat_sub_cases, if_pos hread]
  rw [Word.toInt_of_lt (by omega), hsub]

theorem advance_rxRead (hn : c.rxRead.toNat + n < 2 ^ 32) :
    (c.advance n).rxRead.toNat = c.rxRead.toNat + n :=
  Word.toNat_add_ofNat hn

/-- Reading keeps the window. -/
theorem RxWindow.advance (h : RxWindow c) (hn : n ≤ c.rxWrite.toNat - c.rxRead.toNat) :
    RxWindow (c.advance n) := by
  have hread := h.read_le
  have hwrite := h.write_le
  have hlt := c.rxWrite.toNat_lt
  have hnext : (c.advance n).rxRead.toNat = c.rxRead.toNat + n := advance_rxRead (by omega)
  refine ⟨?_, ?_, ?_, h.settled⟩
  · rw [hnext]
    show c.rxRead.toNat + n ≤ c.rxWrite.toNat
    omega
  · rw [hnext]
    show c.rxWrite.toNat ≤ c.rxRead.toNat + n + 4096
    omega
  · intro p hp
    have := h.table p hp
    omega

/-- Reading keeps the contents of what is left. -/
theorem Holds.advance {byte : ℕ → UInt8} (h : Holds byte c) (hwin : RxWindow c)
    (hn : n ≤ c.rxWrite.toNat - c.rxRead.toNat) : Holds byte (c.advance n) := by
  have hread := hwin.read_le
  have hlt := c.rxWrite.toNat_lt
  have hnext : (c.advance n).rxRead.toNat = c.rxRead.toNat + n := advance_rxRead (by omega)
  intro p hp
  refine h p ?_
  rcases hp with ⟨hle, hw⟩ | hcov
  · exact Or.inl ⟨by omega, hw⟩
  · exact Or.inr hcov

/-- The bytes that `read_tcp` copies out are the unread bytes from `rx_read`
on. -/
theorem Holds.takeBytes {byte : ℕ → UInt8} (h : Holds byte c) (hwin : RxWindow c)
    (hn : n ≤ c.rxWrite.toNat - c.rxRead.toNat) (data : Bytes) {len : Int}
    (hlen : (n : Int) ≤ len) :
    takeBytes (copyFromCircleBuffer data len c.rxBuffer RX_MASK c.rxRead n) n =
      (List.range' c.rxRead.toNat n).map byte := by
  have hread := hwin.read_le
  have hwrite := hwin.write_le
  rw [copyFromCircleBuffer_ring _ _ _ (show n < 8192 by omega) hlen, EthTransfer.takeBytes,
    List.range'_eq_map_range, List.map_map]
  refine List.map_congr_left fun i hi => ?_
  rw [Int.toNat_natCast, List.mem_range] at hi
  simp only [load, hi, if_true, Function.comp]
  exact h _ (Or.inl ⟨by omega, by omega⟩)

end Read

end EthTransfer
