import EthTransfer.Stack.Connection

/-!
# The merge of a new segment

`add_segment` on a table with room for one more segment.  The loop `while (updated)` has
no bound in the source, and `MergeRuns` counts its rounds without one.

* `exists_mergeRuns`: the loop ends, after at most one round for each segment and one
  more.
* `mergeSegments_ack`: it answers 1 when it has moved `rx_write`.
* `addSegment_eq`: `add_segment` as a function of its three tests.
* `addSegment_frontier`: it moves `rx_write` to the first offset that is still missing,
  and keeps whatever lies above.
-/

namespace EthTransfer

open Frontier

/-! ## The loop -/

/-- The loop `while (updated)` ends after `rounds` rounds: the last one leaves `updated`
at zero, the others do not. -/
inductive MergeRuns : UInt32 → List TcpSegment → (rounds : ℕ) → UInt32 → List TcpSegment → Prop
  | last {w w' : UInt32} {segments kept : List TcpSegment}
      (hpass : mergePass w segments = (w', kept, false)) : MergeRuns w segments 1 w' kept
  | next {w w₁ w' : UInt32} {segments kept₁ kept : List TcpSegment} {rounds : ℕ}
      (hpass : mergePass w segments = (w₁, kept₁, true))
      (hruns : MergeRuns w₁ kept₁ rounds w' kept) : MergeRuns w segments (rounds + 1) w' kept

/-- The loop has one result. -/
theorem MergeRuns.unique {w w' w'' : UInt32} {segments kept kept' : List TcpSegment}
    {rounds rounds' : ℕ} (h : MergeRuns w segments rounds w' kept)
    (h' : MergeRuns w segments rounds' w'' kept') : rounds = rounds' ∧ w' = w'' ∧ kept = kept' := by
  induction h generalizing rounds' with
  | last hpass =>
    cases h' with
    | last hpass' =>
      rw [hpass] at hpass'
      cases hpass'
      exact ⟨rfl, rfl, rfl⟩
    | next hpass' =>
      rw [hpass] at hpass'
      cases hpass'
  | next hpass hruns ih =>
    cases h' with
    | last hpass' =>
      rw [hpass] at hpass'
      cases hpass'
    | next hpass' hruns' =>
      rw [hpass] at hpass'
      cases hpass'
      obtain ⟨rfl, rfl, rfl⟩ := ih hruns'
      exact ⟨rfl, rfl, rfl⟩

/-- With more fuel than segments the loop ends: a round that updates takes a segment off
the table. -/
theorem mergeLoop_runs {fuel : ℕ} (w : UInt32) (segments : List TcpSegment)
    (hfuel : segments.length < fuel) (ackRequired : Int) :
    ∃ rounds ≤ segments.length + 1, MergeRuns w segments rounds
      (mergeLoop fuel w segments ackRequired).1 (mergeLoop fuel w segments ackRequired).2.1 := by
  induction fuel generalizing w segments ackRequired with
  | zero => omega
  | succ fuel ih =>
    rw [mergeLoop]
    rcases hpass : mergePass w segments with ⟨w₁, kept, updated⟩
    cases updated with
    | true =>
      have hlength := mergePass_length w segments (by rw [hpass])
      rw [hpass] at hlength
      dsimp only at hlength
      obtain ⟨rounds, hrounds, hruns⟩ := ih w₁ kept (by omega) 1
      exact ⟨rounds + 1, by omega, .next hpass hruns⟩
    | false => exact ⟨1, by omega, .last hpass⟩

/-- The merge loop of `add_segment` ends, with the result of `mergeSegments`. -/
theorem exists_mergeRuns (c : TcpConnection) :
    ∃ rounds ≤ c.rxSegments.length + 1, MergeRuns c.rxWrite c.rxSegments rounds
      (mergeSegments c).1.rxWrite (mergeSegments c).1.rxSegments :=
  mergeLoop_runs c.rxWrite c.rxSegments (Nat.lt_succ_self _) 0

/-! ## The return value -/

/-- A round that updates moves `rx_write` up. -/
theorem mergePass_lt (w : UInt32) (segments : List TcpSegment)
    (h : (mergePass w segments).2.2 = true) : w < (mergePass w segments).1 := by
  induction segments generalizing w with
  | nil => cases h
  | cons other rest ih =>
    rw [mergePass] at h ⊢
    split
    · rename_i hstop
      rw [if_pos hstop] at h
      exact ih w h
    · rename_i hstop
      rw [if_neg hstop] at h
      split
      · exact UInt32.lt_of_lt_of_le (UInt32.not_le.mp hstop) (mergePass_merged other.stop rest).le
      · rename_i hpos
        rw [if_neg hpos] at h
        exact ih w h

/-- The loop sets `ack_required` when it moves `rx_write`. -/
theorem mergeLoop_ack {fuel : ℕ} (w : UInt32) (segments : List TcpSegment)
    (hfuel : segments.length < fuel) (ackRequired : Int) :
    (mergeLoop fuel w segments ackRequired).2.2 =
      if w < (mergeLoop fuel w segments ackRequired).1 then 1 else ackRequired := by
  induction fuel generalizing w segments ackRequired with
  | zero => omega
  | succ fuel ih =>
    rw [mergeLoop]
    rcases hpass : mergePass w segments with ⟨w₁, kept, updated⟩
    cases updated with
    | true =>
      have hlength := mergePass_length w segments (by rw [hpass])
      have hlt := mergePass_lt w segments (by rw [hpass])
      rw [hpass] at hlength hlt
      dsimp only at hlength hlt ⊢
      have hle := (mergeLoop_settled w₁ kept (show kept.length < fuel by omega) 1).1.le
      rw [ih w₁ kept (by omega), ite_self, if_pos (UInt32.lt_of_lt_of_le hlt hle)]
    | false =>
      have hsettled := mergePass_settled w segments (by rw [hpass])
      rw [hpass] at hsettled
      obtain ⟨rfl, -⟩ := hsettled
      rw [if_neg (UInt32.lt_irrefl w₁)]

theorem mergeSegments_ack (c : TcpConnection) :
    (mergeSegments c).2 = if c.rxWrite < (mergeSegments c).1.rxWrite then 1 else 0 :=
  mergeLoop_ack c.rxWrite c.rxSegments (Nat.lt_succ_self _) 0

/-! ## The three tests -/

/-- `add_segment`, by what it tests: the segment is old, it is in the table, the table is
full. -/
theorem addSegment_eq (c : TcpConnection) (data : Bytes) (dataLength : Int) (dest : UInt32) :
    addSegment c data dataLength dest =
      if TcpSegment.stop ⟨dest, UInt32.ofInt dataLength⟩ ≤ c.rxWrite then (c, 0)
      else if ⟨dest, UInt32.ofInt dataLength⟩ ∈ c.rxSegments then (c, 0)
      else if c.rxSegments.length = SEG_MASK then (c.copyRx data dataLength dest, 0)
      else mergeSegments { c.copyRx data dataLength dest with
        rxSegments := c.rxSegments ++ [⟨dest, UInt32.ofInt dataLength⟩] } := by
  unfold addSegment
  by_cases hstop : TcpSegment.stop ⟨dest, UInt32.ofInt dataLength⟩ ≤ c.rxWrite
  · rw [if_pos hstop, if_pos (show dest + UInt32.ofInt dataLength ≤ c.rxWrite from hstop)]
  rw [if_neg hstop, if_neg (show ¬ dest + UInt32.ofInt dataLength ≤ c.rxWrite from hstop)]
  dsimp only
  by_cases hmem : (⟨dest, UInt32.ofInt dataLength⟩ : TcpSegment) ∈ c.rxSegments
  · rw [if_pos hmem, findLatest_eq_none_iff.mpr hmem]
  rw [if_neg hmem]
  cases hfind : findLatest ⟨dest, UInt32.ofInt dataLength⟩ c.rxSegments 0 (-1) 0 with
  | none => exact absurd (findLatest_eq_none_iff.mp hfind) hmem
  | some result =>
    obtain ⟨latestIndex, latest⟩ := result
    dsimp only
    by_cases hfull : c.rxSegments.length = SEG_MASK
    · rw [if_pos hfull, if_pos hfull, findLatest_index hfind, if_pos (by decide)]
      rfl
    · rw [if_neg hfull, if_neg hfull]
      rfl

/-- The answer is 1 when `rx_write` has moved. -/
theorem addSegment_ack (c : TcpConnection) (data : Bytes) (dataLength : Int) (dest : UInt32) :
    (addSegment c data dataLength dest).2 =
      if c.rxWrite < (addSegment c data dataLength dest).1.rxWrite then 1 else 0 := by
  have hstill (c' : TcpConnection) (h : c'.rxWrite = c.rxWrite) :
      (0 : Int) = if c.rxWrite < c'.rxWrite then 1 else 0 := by
    rw [h, if_neg (UInt32.lt_irrefl c.rxWrite)]
  rw [addSegment_eq]
  split
  · exact hstill c rfl
  · split
    · exact hstill c rfl
    · split
      · exact hstill (c.copyRx data dataLength dest) rfl
      · exact mergeSegments_ack _

/-! ## The frontier -/

/-- A segment whose end does not pass `2 ^ 32`. -/
abbrev TcpSegment.Fits (segment : TcpSegment) : Prop :=
  segment.position.toNat + segment.length.toNat < 2 ^ 32

/-- The offsets of the bytes of a table. -/
def spanned (segments : List TcpSegment) : Set ℕ :=
  {p | ∃ g ∈ segments, g.position.toNat ≤ p ∧ p < g.position.toNat + g.length.toNat}

theorem TcpSegment.Fits.toNat_stop {segment : TcpSegment} (h : segment.Fits) :
    segment.stop.toNat = segment.position.toNat + segment.length.toNat := by
  unfold TcpSegment.Fits at h
  rw [TcpSegment.stop, UInt32.toNat_add, Nat.mod_eq_of_lt h]

/-- Segments that do not pass `2 ^ 32` cover their bytes. -/
theorem covered_eq_spanned {segments : List TcpSegment} (hfits : ∀ g ∈ segments, g.Fits) :
    covered segments = spanned segments := by
  ext p
  constructor
  · rintro ⟨g, hg, hpos, hlt⟩
    exact ⟨g, hg, hpos, (hfits g hg).toNat_stop ▸ hlt⟩
  · rintro ⟨g, hg, hpos, hlt⟩
    exact ⟨g, hg, hpos, (hfits g hg).toNat_stop.symm ▸ hlt⟩

/-- A table whose segments start above `rx_write` is settled. -/
theorem settled_of_fits {w : UInt32} {segments : List TcpSegment}
    (habove : ∀ g ∈ segments, w < g.position) (hfits : ∀ g ∈ segments, g.Fits) :
    Settled w segments := by
  intro g hg
  have hstop := (hfits g hg).toNat_stop
  have hlt := UInt32.lt_iff_toNat_lt.mp (habove g hg)
  exact ⟨habove g hg, UInt32.lt_iff_toNat_lt.mpr (by omega)⟩

/-- A settled table does not cover `rx_write`. -/
theorem Settled.not_mem_covered {w : UInt32} {segments : List TcpSegment}
    (h : Settled w segments) : w.toNat ∉ covered segments := by
  rintro ⟨g, hg, hpos, -⟩
  have hlt := UInt32.lt_iff_toNat_lt.mp (h g hg).1
  omega

/-- What a merge drops lies below the new `rx_write`. -/
theorem Merged.mem_covered {w w' : UInt32} {segments kept : List TcpSegment}
    (h : Merged w segments w' kept) {p : ℕ} (hp : p ∈ covered segments) (hle : w'.toNat ≤ p) :
    p ∈ covered kept := by
  obtain ⟨g, hg, hcovers⟩ := hp
  rcases h.dropped g hg with hkept | hstop
  · exact ⟨g, hkept, hcovers⟩
  · have hle' := UInt32.le_iff_toNat_le.mp hstop
    have hlt := hcovers.2
    omega

/-- What `add_segment` leaves behind, when the table and the new segment cover `all`. -/
structure AtFrontier (c c' : TcpConnection) (all : Set ℕ) : Prop where
  frontier : IsFrontier all c.rxWrite.toNat c'.rxWrite.toNat
  above : ∀ g ∈ c'.rxSegments, c'.rxWrite < g.position
  keeps : ∀ p, c'.rxWrite.toNat < p → p ∈ all → p ∈ spanned c'.rxSegments
  count : c'.rxSegments.length ≤ SEG_MASK

/-- Nothing to do: the new segment has no byte from `rx_write` on that is not in the
table. -/
theorem AtFrontier.unchanged {c : TcpConnection} {new : Set ℕ}
    (hsettled : Settled c.rxWrite c.rxSegments) (hfits : ∀ g ∈ c.rxSegments, g.Fits)
    (hcount : c.rxSegments.length ≤ SEG_MASK)
    (hold : ∀ p ∈ new, c.rxWrite.toNat ≤ p → p ∈ spanned c.rxSegments) :
    AtFrontier c c (spanned c.rxSegments ∪ new) where
  frontier := by
    refine IsFrontier.self fun hmem => hsettled.not_mem_covered ?_
    rw [covered_eq_spanned hfits]
    rcases hmem with hmem | hmem
    · exact hmem
    · exact hold _ hmem le_rfl
  above g hg := (hsettled g hg).1
  keeps p hp hmem := by
    rcases hmem with hmem | hmem
    · exact hmem
    · exact hold p hmem (Nat.le_of_lt hp)
  count := hcount

/-- A table with room for the new segment, merged. -/
theorem AtFrontier.merged {c c' : TcpConnection} {g : TcpSegment}
    (hcount : c.rxSegments.length < SEG_MASK) (hfits : ∀ g' ∈ c.rxSegments ++ [g], g'.Fits)
    (hmerged : Merged c.rxWrite (c.rxSegments ++ [g]) c'.rxWrite c'.rxSegments)
    (hsettled : Settled c'.rxWrite c'.rxSegments) :
    AtFrontier c c' (spanned (c.rxSegments ++ [g])) where
  frontier := by
    rw [← covered_eq_spanned hfits]
    exact hmerged.isFrontier hsettled
  above g hg := (hsettled g hg).1
  keeps p hp hmem := by
    rw [← covered_eq_spanned hfits] at hmem
    rw [← covered_eq_spanned fun g' hg' => hfits g' (hmerged.sublist.subset hg')]
    exact hmerged.mem_covered hmem (Nat.le_of_lt hp)
  count := by
    have hlength := hmerged.sublist.length_le
    rw [List.length_append, List.length_singleton] at hlength
    omega

/-- `add_segment` on a table of fewer than `SEG_MASK` segments above `rx_write`: `rx_write`
moves to the least offset that the table and the new segment do not cover, what they cover
above it stays in the table, all of whose segments lie above it, and the answer is 1 when
`rx_write` has moved.  The merge loop ends on every table. -/
theorem addSegment_frontier (c : TcpConnection) (data : Bytes) (n : ℕ) (dest : UInt32)
    (hcount : c.rxSegments.length < SEG_MASK) (habove : ∀ g ∈ c.rxSegments, c.rxWrite < g.position)
    (hfits : ∀ g ∈ c.rxSegments, g.Fits) (hnew : dest.toNat + n < 2 ^ 32) :
    AtFrontier c (addSegment c data n dest).1
        (spanned c.rxSegments ∪ {p | dest.toNat ≤ p ∧ p < dest.toNat + n}) ∧
      (addSegment c data n dest).2 =
        (if c.rxWrite < (addSegment c data n dest).1.rxWrite then 1 else 0) ∧
      ∀ c : TcpConnection, ∃ rounds ≤ c.rxSegments.length + 1,
        MergeRuns c.rxWrite c.rxSegments rounds (mergeSegments c).1.rxWrite
          (mergeSegments c).1.rxSegments := by
  refine ⟨?_, addSegment_ack c data n dest, exists_mergeRuns⟩
  have hsettled := settled_of_fits habove hfits
  have hlength : (UInt32.ofNat n).toNat = n := by
    rw [UInt32.toNat_ofNat', Nat.mod_eq_of_lt (by omega)]
  have hfit : TcpSegment.Fits ⟨dest, UInt32.ofNat n⟩ := by
    unfold TcpSegment.Fits
    rwa [hlength]
  have hend : (TcpSegment.stop ⟨dest, UInt32.ofNat n⟩).toNat = dest.toNat + n := by
    rw [hfit.toNat_stop, hlength]
  rw [addSegment_eq, Word.ofInt_natCast]
  split_ifs with hold hmem hfull
  · refine .unchanged hsettled hfits hcount.le fun p hp hle => ?_
    have hstop := UInt32.le_iff_toNat_le.mp hold
    have hlt := hp.2
    omega
  · refine .unchanged hsettled hfits hcount.le fun p hp _ => ⟨_, hmem, ?_⟩
    rwa [hlength]
  · omega
  · have hall : ∀ g ∈ c.rxSegments ++ [⟨dest, UInt32.ofNat n⟩], g.Fits := by
      intro g hg
      rcases List.mem_append.mp hg with hg | hg
      · exact hfits g hg
      · rwa [List.mem_singleton.mp hg]
    have hunion : spanned c.rxSegments ∪ {p | dest.toNat ≤ p ∧ p < dest.toNat + n} =
        spanned (c.rxSegments ++ [⟨dest, UInt32.ofNat n⟩]) := by
      ext p
      simp [spanned, hlength, or_and_right, exists_or]
    obtain ⟨hmerged, hsettled'⟩ := mergeLoop_settled c.rxWrite
      (c.rxSegments ++ [⟨dest, UInt32.ofNat n⟩]) (Nat.lt_succ_self _) 0
    rw [hunion]
    exact .merged hcount hall hmerged hsettled'

/-- A connection with two segments above a gap. -/
def gapConnection : TcpConnection :=
  { peerConnection with rxWrite := 10, rxSegments := [⟨30, 5⟩, ⟨20, 4⟩] }

/-- The new segment closes the gap and overlaps the second one. -/
theorem addSegment_frontier_gap :
    AtFrontier gapConnection (addSegment gapConnection (fun _ => 97) 12 9).1
        (spanned gapConnection.rxSegments ∪ {p | 9 ≤ p ∧ p < 9 + 12}) ∧
      (addSegment gapConnection (fun _ => 97) 12 9).1.rxWrite = 24 ∧
      (addSegment gapConnection (fun _ => 97) 12 9).2 = 1 := by
  obtain ⟨hfrontier, -, -⟩ := addSegment_frontier gapConnection (fun _ => 97) 12 9
    (by decide) (by decide) (by decide) (by decide)
  exact ⟨hfrontier, by decide +kernel, by decide +kernel⟩

end EthTransfer
