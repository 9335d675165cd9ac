import EthTransfer.Lib.Frontier
import EthTransfer.Stack.CircleBuffer

/-!
# Reassembly

`add_segment` stores a received segment in the receive ring, enters it in the
table of out-of-order segments, and moves `rx_write` over every segment that
has become contiguous.

The module has three parts.

* The translation.  `findLatest` is the first loop, `mergePass` one round of
  the second and `mergeSegments` all of it.
* The merge.  `Merged` is what any number of rounds does, and
  `mergeLoop_settled` says that the fuel of `mergeSegments` lets the loop run
  until a round changes nothing.  Together they make the new `rx_write` the
  frontier of the table (`Merged.isFrontier`).
* The outcomes.  `Added` lists the four things that `addSegment` can do, and
  `addSegment_added` is the inversion lemma that every later proof uses.
-/

namespace EthTransfer

/-! ## The translation -/

/-- The offset just past a segment. -/
def TcpSegment.stop (segment : TcpSegment) : UInt32 := segment.position + segment.length

/-- The first loop of `add_segment`, at index `i` of the table.  It answers
`none` when the new segment is in the table already.  Otherwise it gives the
final `latest_index` and `latest`; the source assigns the index to `latest`,
and `latest_index` keeps its initial value. -/
def findLatest (newSegment : TcpSegment) :
    List TcpSegment → (i : ℕ) → (latestIndex : Int) → (latest : UInt32) → Option (Int × UInt32)
  | [], _, latestIndex, latest => some (latestIndex, latest)
  | other :: rest, i, latestIndex, latest =>
    if other.position = newSegment.position ∧ other.length = newSegment.length then none
    else if other.position ≥ latest then
      findLatest newSegment rest (i + 1) latestIndex (UInt32.ofNat i)
    else findLatest newSegment rest (i + 1) latestIndex latest

/-- One round of the merge loop: the new `rx_write`, the segments that stay in
the table, and `updated`. -/
def mergePass (rxWrite : UInt32) : List TcpSegment → UInt32 × List TcpSegment × Bool
  | [] => (rxWrite, [], false)
  | other :: rest =>
    if other.stop ≤ rxWrite then mergePass rxWrite rest
    else if other.position ≤ rxWrite then
      let (rxWrite', kept, _) := mergePass other.stop rest
      (rxWrite', kept, true)
    else
      let (rxWrite', kept, updated) := mergePass rxWrite rest
      (rxWrite', other :: kept, updated)

/-- The loop `while (updated)`, with the value of `ack_required` so far. -/
def mergeLoop : (fuel : ℕ) → UInt32 → List TcpSegment → Int → UInt32 × List TcpSegment × Int
  | 0, rxWrite, segments, ackRequired => (rxWrite, segments, ackRequired)
  | fuel + 1, rxWrite, segments, ackRequired =>
    match mergePass rxWrite segments with
    | (rxWrite', kept, true) => mergeLoop fuel rxWrite' kept 1
    | (rxWrite', kept, false) => (rxWrite', kept, ackRequired)

/-- The second half of `add_segment`, and its return value. -/
def mergeSegments (c : TcpConnection) : TcpConnection × Int :=
  let (rxWrite, kept, ackRequired) :=
    mergeLoop (c.rxSegments.length + 1) c.rxWrite c.rxSegments 0
  ({ c with rxWrite := rxWrite, rxSegments := kept }, ackRequired)

/-- `add_segment`. -/
def addSegment (c : TcpConnection) (data : Bytes) (dataLength : Int) (dest : UInt32) :
    TcpConnection × Int :=
  if dest + UInt32.ofInt dataLength ≤ c.rxWrite then (c, 0)
  else
    let newSegment : TcpSegment := ⟨dest, UInt32.ofInt dataLength⟩
    match findLatest newSegment c.rxSegments 0 (-1) 0 with
    | none => (c, 0)
    | some (latestIndex, latest) =>
      let c := { c with
        rxBuffer := copyToCircleBuffer c.rxBuffer RX_MASK dest data dataLength dataLength }
      if c.rxSegments.length = SEG_MASK then
        if latestIndex < 0 then (c, 0)
        else if latestIndex ≥ c.rxSegments.length then (c, 0)
        else
          match c.rxSegments[latest.toNat]? with
          | none => mergeSegments c
          | some latestSegment =>
            if latestSegment.position > newSegment.position then
              mergeSegments { c with rxSegments := c.rxSegments.set latest.toNat newSegment }
            else mergeSegments c
      else mergeSegments { c with rxSegments := c.rxSegments ++ [newSegment] }

/-! ## The first loop -/

/-- The first loop finds a duplicate exactly when there is one. -/
theorem findLatest_eq_none_iff {newSegment : TcpSegment} {segments : List TcpSegment}
    {i : ℕ} {latestIndex : Int} {latest : UInt32} :
    findLatest newSegment segments i latestIndex latest = none ↔ newSegment ∈ segments := by
  induction segments generalizing i latest with
  | nil => simp [findLatest]
  | cons other rest ih =>
    have heq : newSegment = other ↔
        other.position = newSegment.position ∧ other.length = newSegment.length := by
      cases other
      cases newSegment
      simp only [TcpSegment.mk.injEq, eq_comm]
    rw [findLatest, List.mem_cons, heq]
    split
    · rename_i h
      simp [h]
    · rename_i h
      split <;> simp [h, ih]

/-- The first loop never assigns `latest_index`. -/
theorem findLatest_index {newSegment : TcpSegment} {segments : List TcpSegment}
    {i : ℕ} {latestIndex index : Int} {latest last : UInt32}
    (h : findLatest newSegment segments i latestIndex latest = some (index, last)) :
    index = latestIndex := by
  induction segments generalizing i latest with
  | nil =>
    simp only [findLatest, Option.some.injEq, Prod.mk.injEq] at h
    exact h.1.symm
  | cons other rest ih =>
    rw [findLatest] at h
    split_ifs at h
    · exact ih h
    · exact ih h

/-! ## The merge -/

/-- A segment covers the offsets from its position to its end.  A segment whose
end wraps past `2 ^ 32` covers nothing. -/
def TcpSegment.Covers (segment : TcpSegment) (p : ℕ) : Prop :=
  segment.position.toNat ≤ p ∧ p < segment.stop.toNat

/-- The offsets that a table covers. -/
def covered (segments : List TcpSegment) : Set ℕ :=
  {p | ∃ g ∈ segments, g.Covers p}

@[simp] theorem mem_covered_nil (p : ℕ) : p ∉ covered [] := by
  intro ⟨g, hg, _⟩
  cases hg

@[simp] theorem mem_covered_cons {g : TcpSegment} {segments : List TcpSegment} {p : ℕ} :
    p ∈ covered (g :: segments) ↔ g.Covers p ∨ p ∈ covered segments := by
  show (∃ g' ∈ g :: segments, g'.Covers p) ↔ g.Covers p ∨ ∃ g' ∈ segments, g'.Covers p
  simp

@[simp] theorem mem_covered_append {segments later : List TcpSegment} {p : ℕ} :
    p ∈ covered (segments ++ later) ↔ p ∈ covered segments ∨ p ∈ covered later := by
  induction segments with
  | nil => simp
  | cons g rest ih => simp [ih, or_assoc]

/-- What rounds of the merge loop do to `rx_write` and the table. -/
structure Merged (rxWrite : UInt32) (segments : List TcpSegment) (rxWrite' : UInt32)
    (kept : List TcpSegment) : Prop where
  le : rxWrite ≤ rxWrite'
  covers : ∀ p, rxWrite.toNat ≤ p → p < rxWrite'.toNat → p ∈ covered segments
  sublist : kept.Sublist segments
  dropped : ∀ g ∈ segments, g ∈ kept ∨ g.stop ≤ rxWrite'

theorem covered_mono {kept segments : List TcpSegment} (h : kept.Sublist segments) :
    covered kept ⊆ covered segments :=
  fun _ ⟨g, hg, hp⟩ => ⟨g, h.subset hg, hp⟩

theorem Merged.refl (w : UInt32) (segments : List TcpSegment) :
    Merged w segments w segments where
  le := UInt32.le_refl w
  covers p h1 h2 := absurd h1 (by omega)
  sublist := List.Sublist.refl _
  dropped g hg := Or.inl hg

theorem Merged.trans {w w' w'' : UInt32} {segments kept kept' : List TcpSegment}
    (h : Merged w segments w' kept) (h' : Merged w' kept w'' kept') :
    Merged w segments w'' kept' where
  le := UInt32.le_trans h.le h'.le
  covers p hwp hpw := by
    rcases Nat.lt_or_ge p w'.toNat with hlt | hge
    · exact h.covers p hwp hlt
    · exact covered_mono h.sublist (h'.covers p hge hpw)
  sublist := h'.sublist.trans h.sublist
  dropped g hg := by
    rcases h.dropped g hg with hk | hle
    · exact h'.dropped g hk
    · exact Or.inr (UInt32.le_trans hle h'.le)

/-- One round merges. -/
theorem mergePass_merged (w : UInt32) (segments : List TcpSegment) :
    Merged w segments (mergePass w segments).1 (mergePass w segments).2.1 := by
  induction segments generalizing w with
  | nil => exact Merged.refl w []
  | cons other rest ih =>
    rw [mergePass]
    split
    · rename_i hstop
      have h := ih w
      refine ⟨h.le, ?_, h.sublist.cons other, ?_⟩
      · intro p hwp hpw
        exact covered_mono (List.sublist_cons_self other rest) (h.covers p hwp hpw)
      · intro g hg
        rcases List.mem_cons.mp hg with rfl | hg
        · exact Or.inr (UInt32.le_trans hstop h.le)
        · exact h.dropped g hg
    · rename_i hstop
      split
      · rename_i hpos
        have h := ih other.stop
        have hle : w ≤ other.stop := UInt32.le_of_lt (UInt32.not_le.mp hstop)
        refine ⟨UInt32.le_trans hle h.le, ?_, h.sublist.cons other, ?_⟩
        · intro p hwp hpw
          rcases Nat.lt_or_ge p other.stop.toNat with hlt | hge
          · have hposp : other.position.toNat ≤ p :=
              Nat.le_trans (UInt32.le_iff_toNat_le.mp hpos) hwp
            exact ⟨other, List.mem_cons_self, hposp, hlt⟩
          · exact covered_mono (List.sublist_cons_self other rest) (h.covers p hge hpw)
        · intro g hg
          rcases List.mem_cons.mp hg with rfl | hg
          · exact Or.inr h.le
          · exact h.dropped g hg
      · have h := ih w
        refine ⟨h.le, ?_, h.sublist.cons_cons other, ?_⟩
        · intro p hwp hpw
          exact covered_mono (List.sublist_cons_self other rest) (h.covers p hwp hpw)
        · intro g hg
          rcases List.mem_cons.mp hg with rfl | hg
          · exact Or.inl List.mem_cons_self
          · rcases h.dropped g hg with hk | hle
            · exact Or.inl (List.mem_cons_of_mem _ hk)
            · exact Or.inr hle

/-- A round that updates takes a segment off the table, so the loop ends. -/
theorem mergePass_length (w : UInt32) (segments : List TcpSegment)
    (h : (mergePass w segments).2.2 = true) :
    (mergePass w segments).2.1.length < segments.length := by
  induction segments generalizing w with
  | nil => cases h
  | cons other rest ih =>
    rw [mergePass] at h ⊢
    split
    · rename_i hstop
      rw [if_pos hstop] at h
      exact Nat.lt_succ_of_lt (ih w h)
    · rename_i hstop
      rw [if_neg hstop] at h
      split
      · exact Nat.lt_succ_of_le (mergePass_merged other.stop rest).sublist.length_le
      · rename_i hpos
        rw [if_neg hpos] at h
        exact Nat.succ_lt_succ (ih w h)

/-- The table is settled at `w`: every segment lies above it. -/
def Settled (w : UInt32) (segments : List TcpSegment) : Prop :=
  ∀ g ∈ segments, w < g.position ∧ w < g.stop

/-- A round that does not update leaves `rx_write` alone and settles the
table. -/
theorem mergePass_settled (w : UInt32) (segments : List TcpSegment)
    (h : (mergePass w segments).2.2 = false) :
    (mergePass w segments).1 = w ∧ Settled w (mergePass w segments).2.1 := by
  induction segments generalizing w with
  | nil => exact ⟨rfl, fun g hg => absurd hg (by simp [mergePass])⟩
  | cons other rest ih =>
    rw [mergePass] at h ⊢
    split
    · rename_i hstop
      rw [if_pos hstop] at h
      exact ih w h
    · rename_i hstop
      rw [if_neg hstop] at h
      split
      · rename_i hpos
        rw [if_pos hpos] at h
        cases h
      · rename_i hpos
        rw [if_neg hpos] at h
        obtain ⟨hw, hsettled⟩ := ih w h
        refine ⟨hw, fun g hg => ?_⟩
        rcases List.mem_cons.mp hg with rfl | hg
        · exact ⟨UInt32.not_le.mp hpos, UInt32.not_le.mp hstop⟩
        · exact hsettled g hg

/-- With more fuel than segments the loop merges and settles the table. -/
theorem mergeLoop_settled {fuel : ℕ} (w : UInt32) (segments : List TcpSegment)
    (hfuel : segments.length < fuel) (ackRequired : Int) :
    Merged w segments (mergeLoop fuel w segments ackRequired).1
        (mergeLoop fuel w segments ackRequired).2.1 ∧
      Settled (mergeLoop fuel w segments ackRequired).1
        (mergeLoop fuel w segments ackRequired).2.1 := by
  induction fuel generalizing w segments ackRequired with
  | zero => omega
  | succ fuel ih =>
    have hmerged := mergePass_merged w segments
    rw [mergeLoop]
    rcases hpass : mergePass w segments with ⟨w', kept, updated⟩
    rw [hpass] at hmerged
    cases updated with
    | true =>
      have hlen := mergePass_length w segments (by rw [hpass])
      rw [hpass] at hlen
      obtain ⟨hm, hs⟩ := ih w' kept (by simp only at hlen; omega) 1
      exact ⟨hmerged.trans hm, hs⟩
    | false =>
      have hsettled := mergePass_settled w segments (by rw [hpass])
      rw [hpass] at hsettled
      obtain ⟨rfl, hs⟩ := hsettled
      exact ⟨hmerged, hs⟩

/-- After a merge that settles the table, `rx_write` is the first offset that
the table did not cover. -/
theorem Merged.isFrontier {w w' : UInt32} {segments kept : List TcpSegment}
    (h : Merged w segments w' kept) (hs : Settled w' kept) :
    Frontier.IsFrontier (covered segments) w.toNat w'.toNat where
  le := UInt32.le_iff_toNat_le.mp h.le
  covered := h.covers
  gap := by
    rintro ⟨g, hg, hpos, hstop⟩
    rcases h.dropped g hg with hk | hle
    · have := UInt32.lt_iff_toNat_lt.mp (hs g hk).1
      omega
    · have := UInt32.le_iff_toNat_le.mp hle
      omega

/-! ## The outcomes -/

/-- The connection after the copy into the receive ring. -/
def TcpConnection.copyRx (c : TcpConnection) (data : Bytes) (dataLength : Int)
    (dest : UInt32) : TcpConnection :=
  { c with rxBuffer := copyToCircleBuffer c.rxBuffer RX_MASK dest data dataLength dataLength }

/-- What `add_segment` can do with `newSegment`; `copied` is the connection
after the copy into the ring. -/
inductive Added (c copied : TcpConnection) (newSegment : TcpSegment) : TcpConnection → Prop where
  /-- Nothing new: the segment ends at or below `rx_write`. -/
  | old (hstop : newSegment.stop ≤ c.rxWrite) : Added c copied newSegment c
  /-- The segment waits in the table already. -/
  | duplicate (hstop : c.rxWrite < newSegment.stop) (hmem : newSegment ∈ c.rxSegments) :
      Added c copied newSegment c
  /-- The table is full: the bytes are copied and the segment is forgotten. -/
  | full (hstop : c.rxWrite < newSegment.stop) (hmem : newSegment ∉ c.rxSegments)
      (hlen : c.rxSegments.length = SEG_MASK) : Added c copied newSegment copied
  /-- The segment is entered and the table merged. -/
  | merged {rxWrite : UInt32} {kept : List TcpSegment} (hstop : c.rxWrite < newSegment.stop)
      (hmem : newSegment ∉ c.rxSegments) (hlen : c.rxSegments.length ≠ SEG_MASK)
      (hmerged : Merged c.rxWrite (c.rxSegments ++ [newSegment]) rxWrite kept)
      (hsettled : Settled rxWrite kept) :
      Added c copied newSegment { copied with rxWrite := rxWrite, rxSegments := kept }

/-- `addSegment` has one of the four outcomes. -/
theorem addSegment_added (c : TcpConnection) (data : Bytes) (dataLength : Int)
    (dest : UInt32) :
    Added c (c.copyRx data dataLength dest) ⟨dest, UInt32.ofInt dataLength⟩
      (addSegment c data dataLength dest).1 := by
  unfold addSegment
  split
  · rename_i hstop
    exact .old hstop
  · rename_i hstop
    have hstop' : c.rxWrite < TcpSegment.stop ⟨dest, UInt32.ofInt dataLength⟩ :=
      UInt32.not_le.mp hstop
    dsimp only
    split
    · rename_i hfind
      exact .duplicate hstop' (findLatest_eq_none_iff.mp hfind)
    · rename_i latestIndex latest hfind
      have hmem : (⟨dest, UInt32.ofInt dataLength⟩ : TcpSegment) ∉ c.rxSegments := by
        intro h
        rw [findLatest_eq_none_iff.mpr h] at hfind
        cases hfind
      split
      · rename_i hlen
        rw [findLatest_index hfind, if_pos (by decide)]
        exact .full hstop' hmem hlen
      · rename_i hlen
        obtain ⟨hm, hs⟩ := mergeLoop_settled c.rxWrite
          (c.rxSegments ++ [⟨dest, UInt32.ofInt dataLength⟩]) (Nat.lt_succ_self _) 0
        exact .merged hstop' hmem hlen hm hs

end EthTransfer
