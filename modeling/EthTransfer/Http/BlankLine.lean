import EthTransfer.Http.Agreement

/-!
# The first blank line

`header_scan` runs again over the whole buffer each time bytes have arrived, with a
longer length.  A blank line can be cut anywhere by the end of what has been read.

* `BlankLine` says what the scan looks for: the end of a line with an empty line behind
  it, all of it inside the length.
* `BlankLine.mono` and `BlankLine.cut`: a longer length keeps a blank line, and a shorter
  one keeps it as long as the line ends inside.
* `headerScan_eq_iff` and `headerScan_eq_neg_one_iff`: the scan returns the end of the
  first blank line, or `-1`.
* `headerScan_first_blank_line`: so the answer does not depend on how the bytes arrive.
-/

namespace EthTransfer

open Search

/-- The `LF` at `i` has an empty line behind it inside `len`; the byte behind the empty
line is at `k`. -/
inductive BlankLine (buffer : List UInt8) (len : Int) (i : ℕ) : (k : ℕ) → Prop
  | lf (hlf : buffer[i]? = some LF) (hlf' : buffer[i + 1]? = some LF)
      (hlen : (i + 1 : Int) < len) : BlankLine buffer len i (i + 2)
  | crlf (hlf : buffer[i]? = some LF) (hcr : buffer[i + 1]? = some CR)
      (hlf' : buffer[i + 2]? = some LF) (hlen : (i + 2 : Int) < len) :
      BlankLine buffer len i (i + 3)

namespace BlankLine

variable {buffer : List UInt8} {len len' : Int} {i k k' : ℕ}

theorem mono (h : BlankLine buffer len i k) (hle : len ≤ len') : BlankLine buffer len' i k := by
  cases h with
  | lf hlf hlf' hlen => exact .lf hlf hlf' (by omega)
  | crlf hlf hcr hlf' hlen => exact .crlf hlf hcr hlf' (by omega)

theorem cut (h : BlankLine buffer len i k) (hle : k ≤ len') : BlankLine buffer len' i k := by
  cases h with
  | lf hlf hlf' hlen => exact .lf hlf hlf' (by omega)
  | crlf hlf hcr hlf' hlen => exact .crlf hlf hcr hlf' (by omega)

theorem end_bounds (h : BlankLine buffer len i k) : i + 2 ≤ k ∧ k ≤ i + 3 ∧ k ≤ len := by
  cases h <;> omega

theorem toNat_iff : BlankLine buffer len.toNat i k ↔ BlankLine buffer len i k := by
  constructor
  · intro h
    have hend := h.end_bounds
    exact h.cut (by omega)
  · intro h
    exact h.mono (by omega)

/-- The byte behind the first `LF` says which of the two it is. -/
theorem unique (h : BlankLine buffer len i k) (h' : BlankLine buffer len' i k') : k = k' := by
  have hne : some LF ≠ some CR := by decide
  cases h with
  | lf hlf hlf' hlen =>
    cases h' with
    | lf => rfl
    | crlf hlf₂ hcr => exact absurd (hlf'.symm.trans hcr) hne
  | crlf hlf hcr hlf' hlen =>
    cases h' with
    | lf hlf₂ hlf₂' => exact absurd (hlf₂'.symm.trans hcr) hne
    | crlf => rfl

end BlankLine

/-- No blank line starts in front of `i`. -/
def NoneBefore (buffer : List UInt8) (len : Int) (i : ℕ) : Prop :=
  ∀ j < i, ∀ e, ¬ BlankLine buffer len j e

theorem getD_eq_iff {buffer : List UInt8} {i : ℕ} {b : UInt8} (hb : b ≠ 0) :
    buffer.getD i 0 = b ↔ buffer[i]? = some b := by
  rw [List.getD_eq_getElem?_getD]
  cases buffer[i]? with
  | none => simpa using hb.symm
  | some a => simp

/-- One turn of the loop. -/
theorem headerEnd_eq_some_iff {buffer : List UInt8} {len i e : ℕ} :
    headerEnd buffer len i = some e ↔ BlankLine buffer len i e := by
  have hlf : LF ≠ 0 := by decide
  have hcr : CR ≠ 0 := by decide
  unfold headerEnd
  simp only [getD_eq_iff hlf, getD_eq_iff hcr]
  constructor
  · intro h
    split_ifs at h with hi hfirst hsecond
    · obtain rfl := Option.some.inj h
      exact .lf hi hfirst.2 (by omega)
    · obtain rfl := Option.some.inj h
      exact .crlf hi hsecond.2.1 hsecond.2.2 (by omega)
  · intro h
    cases h with
    | lf hi hi' hlen => rw [if_pos hi, if_pos ⟨by omega, hi'⟩]
    | crlf hi hi' hi'' hlen =>
      have hne : ¬ (i + 1 < len ∧ buffer[i + 1]? = some LF) := by
        rintro ⟨-, h⟩
        exact absurd (hi'.symm.trans h) (by decide)
      rw [if_pos hi, if_neg hne, if_pos ⟨by omega, hi', hi''⟩]

theorem headerEnd_eq_none_iff {buffer : List UInt8} {len i : ℕ} :
    headerEnd buffer len i = none ↔ ∀ e, ¬ BlankLine buffer len i e := by
  simp [← headerEnd_eq_some_iff, Option.eq_none_iff_forall_ne_some]

/-- The loop over the bytes below `len` and below the bound of the scan. -/
theorem headerScan_eq_first (buffer : List UInt8) (len : Int) :
    headerScan buffer len =
      match first (min len HEADER_MAX).toNat (headerEnd buffer (min len HEADER_MAX).toNat) with
      | some i => (i : Int)
      | none => -1 := by
  have hmin : min len.toNat HEADER_MAX = (min len HEADER_MAX).toNat := by omega
  unfold headerScan
  by_cases hneg : len < 0
  · have hzero : (min len HEADER_MAX).toNat = 0 := by omega
    rw [if_pos hneg, hzero]
    rfl
  · rw [← hmin]
    exact if_neg hneg

/-- The scan returns the end of the first blank line below its bound. -/
theorem headerScan_eq_iff {buffer : List UInt8} {len : Int} {k : ℕ} :
    headerScan buffer len = k ↔
      ∃ i, BlankLine buffer (min len HEADER_MAX) i k ∧
        NoneBefore buffer (min len HEADER_MAX) i := by
  have hfound (e : ℕ) :
      first (min len HEADER_MAX).toNat (headerEnd buffer (min len HEADER_MAX).toNat) = some e ↔
        ∃ i, BlankLine buffer (min len HEADER_MAX) i e ∧
          NoneBefore buffer (min len HEADER_MAX) i := by
    simp only [first_eq_some_iff, headerEnd_eq_some_iff, headerEnd_eq_none_iff, BlankLine.toNat_iff]
    constructor
    · rintro ⟨i, -, hline, hbefore⟩
      exact ⟨i, hline, hbefore⟩
    · rintro ⟨i, hline, hbefore⟩
      have hend := hline.end_bounds
      exact ⟨i, by omega, hline, hbefore⟩
  rw [headerScan_eq_first, ← hfound]
  split
  · rename_i e he
    rw [he, Option.some.injEq]
    omega
  · rename_i he
    simp [he]

/-- The scan returns `-1` when there is no blank line below its bound. -/
theorem headerScan_eq_neg_one_iff {buffer : List UInt8} {len : Int} :
    headerScan buffer len = -1 ↔ ∀ i k, ¬ BlankLine buffer (min len HEADER_MAX) i k := by
  have hnone :
      first (min len HEADER_MAX).toNat (headerEnd buffer (min len HEADER_MAX).toNat) = none ↔
        ∀ i k, ¬ BlankLine buffer (min len HEADER_MAX) i k := by
    simp only [first_eq_none_iff, headerEnd_eq_none_iff, BlankLine.toNat_iff]
    constructor
    · intro hall i k hline
      have hend := hline.end_bounds
      exact hall i (by omega) k hline
    · exact fun hall i _ => hall i
  rw [headerScan_eq_first, ← hnone]
  split
  · rename_i e he
    simp [he]
  · rename_i he
    simp [he]

/-- A longer length does not bring a blank line in front of one that was found: that line
would end in front of it, inside the shorter length. -/
theorem NoneBefore.mono {buffer : List UInt8} {len len' : Int} {i k : ℕ}
    (hbefore : NoneBefore buffer len i) (hline : BlankLine buffer len i k) :
    NoneBefore buffer len' i := by
  intro j hj e hline'
  have hend := hline.end_bounds
  have hend' := hline'.end_bounds
  exact hbefore j hj e (hline'.cut (by omega))

/-- A length in front of the end of the first blank line has none. -/
theorem NoneBefore.cut {buffer : List UInt8} {len len' : Int} {i k : ℕ}
    (hbefore : NoneBefore buffer len i) (hline : BlankLine buffer len i k) (hlt : len' < k)
    (j e : ℕ) : ¬ BlankLine buffer len' j e := by
  intro hline'
  have hend := hline.end_bounds
  have hend' := hline'.end_bounds
  rcases Nat.lt_trichotomy j i with hj | rfl | hj
  · exact hbefore j hj e (hline'.cut (by omega))
  · have heq := hline'.unique hline
    omega
  · omega

/-- For every length up to the bound of the scan, `header_scan` returns the end of the
first blank line inside the length, or `-1` when there is none.  An answer other than `-1`
stays the answer for every longer length, and every length below it gives `-1`. -/
theorem headerScan_first_blank_line (buffer : List UInt8) :
    (∀ len : Int, len ≤ HEADER_MAX →
      (∀ k : ℕ, headerScan buffer len = k ↔
        ∃ i, BlankLine buffer len i k ∧ NoneBefore buffer len i) ∧
      (headerScan buffer len = -1 ↔ ∀ i k, ¬ BlankLine buffer len i k) ∧
      (headerScan buffer len = -1 ∨ 0 ≤ headerScan buffer len)) ∧
    (∀ n k : Int, headerScan buffer n = k → 0 ≤ k →
      (∀ m, n ≤ m → headerScan buffer m = k) ∧
      ∀ m, m < k → headerScan buffer m = -1) := by
  constructor
  · intro len hlen
    have hmin : min len HEADER_MAX = len := by omega
    refine ⟨fun k => ?_, ?_, ?_⟩
    · rw [headerScan_eq_iff, hmin]
    · rw [headerScan_eq_neg_one_iff, hmin]
    · rw [headerScan_eq_first]
      split
      · exact Or.inr (Int.natCast_nonneg _)
      · exact Or.inl rfl
  · intro n k hscan hk
    obtain ⟨k, rfl⟩ := Int.eq_ofNat_of_zero_le hk
    obtain ⟨i, hline, hbefore⟩ := headerScan_eq_iff.mp hscan
    constructor
    · intro m hm
      rw [headerScan_eq_iff]
      exact ⟨i, hline.mono (by omega), hbefore.mono hline⟩
    · intro m hm
      rw [headerScan_eq_neg_one_iff]
      exact hbefore.cut hline (by omega)

/-- The end of a header line, a blank line with `CR`, and a byte of the content. -/
theorem headerScan_first_blank_line_crlf :
    headerScan [CR, LF, CR, LF, 66] 5 = 4 ∧
      (∀ m, 5 ≤ m → headerScan [CR, LF, CR, LF, 66] m = 4) ∧
      ∀ m, m < 4 → headerScan [CR, LF, CR, LF, 66] m = -1 :=
  have hscan : headerScan [CR, LF, CR, LF, 66] 5 = 4 := by decide
  ⟨hscan, (headerScan_first_blank_line [CR, LF, CR, LF, 66]).2 5 4 hscan (by decide)⟩

end EthTransfer
