import Mathlib.Data.Nat.ModEq
import Mathlib.Data.List.Basic

/-!
# The Internet checksum

The checksum of RFC 1071: the bytes are taken as 16-bit words in network order, an odd
byte at the end as the high half of a word, and the words are added with the carry going
round.

* `Folds t x`: `x` is what is left of the plain sum `t` when all carries have gone round.
  There is one such `x` (`Folds.unique`), so it does not matter when a program adds the
  carries: `folds_onesSum` is one word at a time, `folds_twice` all of them at the end.
* `onesSum_of_checksum`: with the complement of the sum in a field that was zero, the sum
  is `0xFFFF`.
-/

namespace InternetChecksum

/-- Bytes as words in network order. -/
def words : List UInt8 → List ℕ
  | [] => []
  | [a] => [256 * a.toNat]
  | a :: b :: l => (256 * a.toNat + b.toNat) :: words l

/-- Add with the carry going round. -/
def onesAdd (a b : ℕ) : ℕ := (a + b) % 65536 + (a + b) / 65536

/-- The sum that a receiver computes. -/
def onesSum (l : List UInt8) : ℕ := (words l).foldl onesAdd 0

/-- The plain sum of the words. -/
def wordSum (l : List UInt8) : ℕ := (words l).sum

/-! ## Words -/

theorem words_append {l : List UInt8} (heven : l.length % 2 = 0) (m : List UInt8) :
    words (l ++ m) = words l ++ words m := by
  induction l using words.induct with
  | case1 => rfl
  | case2 a => cases heven
  | case3 a b l ih =>
    rw [List.length_cons, List.length_cons] at heven
    rw [List.cons_append, List.cons_append, words, words, ih (by omega), List.cons_append]

theorem wordSum_append {l : List UInt8} (heven : l.length % 2 = 0) (m : List UInt8) :
    wordSum (l ++ m) = wordSum l + wordSum m := by
  rw [wordSum, words_append heven, List.sum_append, wordSum, wordSum]

theorem words_lt {l : List UInt8} : ∀ w ∈ words l, w < 65536 := by
  induction l using words.induct with
  | case1 => simp [words]
  | case2 a =>
    have ha := a.toNat_lt
    simp [words]
    omega
  | case3 a b l ih =>
    have ha := a.toNat_lt
    have hb := b.toNat_lt
    simp only [words, List.mem_cons, forall_eq_or_imp]
    exact ⟨by omega, ih⟩

/-- The plain sum of `n` bytes. -/
theorem wordSum_le (l : List UInt8) : wordSum l ≤ 65535 * l.length := by
  induction l using words.induct with
  | case1 => simp [wordSum, words]
  | case2 a =>
    have ha := a.toNat_lt
    simp [wordSum, words]
    omega
  | case3 a b l ih =>
    have ha := a.toNat_lt
    have hb := b.toNat_lt
    simp only [wordSum, words, List.sum_cons, List.length_cons] at ih ⊢
    omega

/-! ## Carries -/

/-- `x` is what is left of `t` when the carries have gone round. -/
structure Folds (t x : ℕ) : Prop where
  le : x ≤ 65535
  modEq : x ≡ t [MOD 65535]
  zero : x = 0 ↔ t = 0

theorem Folds.unique {t x y : ℕ} (hx : Folds t x) (hy : Folds t y) : x = y := by
  have hmod : x % 65535 = y % 65535 := hx.modEq.trans hy.modEq.symm
  have hzero : x = 0 ↔ y = 0 := hx.zero.trans hy.zero.symm
  have hxle := hx.le
  have hyle := hy.le
  omega

theorem folds_onesAdd {t x w : ℕ} (h : Folds t x) (hw : w < 65536) :
    Folds (t + w) (onesAdd x w) := by
  have hle := h.le
  have hmod : x % 65535 = t % 65535 := h.modEq
  have hzero := h.zero
  unfold onesAdd
  refine ⟨by omega, ?_, by omega⟩
  unfold Nat.ModEq
  omega

/-- Carries that go round at once. -/
theorem folds_onesSum (l : List UInt8) : Folds (wordSum l) (onesSum l) := by
  have hrun : ∀ (ws : List ℕ) (t x : ℕ), (∀ w ∈ ws, w < 65536) → Folds t x →
      Folds (t + ws.sum) (ws.foldl onesAdd x) := by
    intro ws
    induction ws with
    | nil => exact fun t x _ h => h
    | cons w ws ih =>
      intro t x hlt h
      rw [List.sum_cons, ← Nat.add_assoc, List.foldl_cons]
      exact ih _ _ (fun v hv => hlt v (List.mem_cons_of_mem _ hv))
        (folds_onesAdd h (hlt w List.mem_cons_self))
  have hsum := hrun (words l) 0 0 words_lt ⟨by omega, rfl, Iff.rfl⟩
  rwa [Nat.zero_add] at hsum

/-- Carries that go round at the end. -/
def fold (t : ℕ) : ℕ := t % 65536 + t / 65536

theorem folds_twice {t : ℕ} (hlt : t < 2 ^ 32) : Folds t (fold (fold t)) := by
  unfold fold
  refine ⟨by omega, ?_, by omega⟩
  unfold Nat.ModEq
  omega

theorem fold_twice_wordSum {l : List UInt8} (hlt : wordSum l < 2 ^ 32) :
    fold (fold (wordSum l)) = onesSum l :=
  (folds_twice hlt).unique (folds_onesSum l)

/-! ## Verifying -/

/-- The value of the checksum field. -/
def checksum (l : List UInt8) : UInt16 := UInt16.ofNat (65535 - onesSum l)

/-- A field of two bytes adds its value to the sum. -/
theorem wordSum_field {l : List UInt8} (heven : l.length % 2 = 0) (v : UInt16)
    (m : List UInt8) :
    wordSum (l ++ (v >>> 8).toUInt8 :: v.toUInt8 :: m) =
      wordSum (l ++ 0 :: 0 :: m) + v.toNat := by
  have hlt := v.toNat_lt
  have hvalue : 256 * (v >>> 8).toUInt8.toNat + v.toUInt8.toNat = v.toNat := by
    rw [UInt16.toNat_toUInt8, UInt16.toNat_toUInt8, UInt16.toNat_shiftRight]
    change 256 * (v.toNat >>> 8 % 2 ^ 8) + v.toNat % 2 ^ 8 = _
    rw [Nat.shiftRight_eq_div_pow]
    omega
  rw [wordSum_append heven, wordSum_append heven]
  simp only [wordSum, words, List.sum_cons, UInt8.toNat_zero]
  omega

/-- The sum of a message that carries its checksum. -/
theorem onesSum_of_checksum {l m : List UInt8} (heven : l.length % 2 = 0) {v : UInt16}
    (hfield : v = checksum (l ++ 0 :: 0 :: m)) :
    onesSum (l ++ (v >>> 8).toUInt8 :: v.toUInt8 :: m) = 65535 := by
  have hzeroed := folds_onesSum (l ++ 0 :: 0 :: m)
  have hle := hzeroed.le
  have hmod : onesSum (l ++ 0 :: 0 :: m) % 65535 = wordSum (l ++ 0 :: 0 :: m) % 65535 :=
    hzeroed.modEq
  have hzero := hzeroed.zero
  have hvalue : v.toNat = 65535 - onesSum (l ++ 0 :: 0 :: m) := by
    rw [hfield, checksum, UInt16.toNat_ofNat']
    omega
  have hfull : Folds (wordSum (l ++ (v >>> 8).toUInt8 :: v.toUInt8 :: m)) 65535 := by
    rw [wordSum_field heven, hvalue]
    refine ⟨by omega, ?_, by omega⟩
    unfold Nat.ModEq
    omega
  exact (folds_onesSum _).unique hfull

/-- What a right sum says about the field. -/
theorem modEq_of_onesSum {l m : List UInt8} (heven : l.length % 2 = 0) {v : UInt16}
    (hsum : onesSum (l ++ (v >>> 8).toUInt8 :: v.toUInt8 :: m) = 65535) :
    (wordSum (l ++ 0 :: 0 :: m) + v.toNat) % 65535 = 0 := by
  have hmod := (folds_onesSum (l ++ (v >>> 8).toUInt8 :: v.toUInt8 :: m)).modEq
  rw [hsum, wordSum_field heven] at hmod
  unfold Nat.ModEq at hmod
  omega

end InternetChecksum
