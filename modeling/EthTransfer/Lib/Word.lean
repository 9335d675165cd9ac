import Mathlib.Tactic.Ring
import Mathlib.Data.Nat.ModEq

/-!
# Conversions between C's `int` and `uint32_t`

A C program mixes the two types freely: a `uint32_t` assigned to an `int` is
read as two's complement, and an `int` compared with a `uint32_t` is first
converted back.  `toInt` and `UInt32.ofInt` are these two conversions.  The
lemmas below move them, and the wrapping operations of `UInt32`, to natural
numbers, where `omega` closes the goals.
-/

namespace Word

/-- The value of a `uint32_t` assigned to an `int`. -/
def toInt (x : UInt32) : ℤ := x.toInt32.toInt

theorem toInt_eq (x : UInt32) :
    toInt x = if x.toNat < 2 ^ 31 then (x.toNat : ℤ) else x.toNat - 2 ^ 32 := by
  have h : toInt x = x.toBitVec.toInt := rfl
  rw [h, BitVec.toInt_eq_toNat_cond]
  simp only [UInt32.toNat_toBitVec]
  split <;> split <;> omega

theorem toInt_of_lt {x : UInt32} (h : x.toNat < 2 ^ 31) : toInt x = x.toNat := by
  rw [toInt_eq, if_pos h]

theorem toNat_ofInt (z : ℤ) : (UInt32.ofInt z).toNat = (z % 2 ^ 32).toNat := by
  have hlt : (z % 2 ^ 32).toNat < 2 ^ 32 := by omega
  rw [UInt32.ofInt, UInt32.toNat_ofNat', Nat.mod_eq_of_lt hlt]

/-- An `int` read back from a `uint32_t` and converted again is unchanged. -/
@[simp] theorem ofInt_toInt (x : UInt32) : UInt32.ofInt (toInt x) = x := by
  have hx := x.toNat_lt
  rw [← UInt32.toNat_inj, toNat_ofInt, toInt_eq]
  split <;> omega

@[simp] theorem ofInt_natCast (n : ℕ) : UInt32.ofInt (n : ℤ) = UInt32.ofNat n := by
  rw [← UInt32.toNat_inj, toNat_ofInt, UInt32.toNat_ofNat']
  omega

/-- A sum that fits does not wrap. -/
theorem toNat_add_of_lt {a b : UInt32} (h : a.toNat + b.toNat < 2 ^ 32) :
    (a + b).toNat = a.toNat + b.toNat := by
  rw [UInt32.toNat_add, Nat.mod_eq_of_lt h]

theorem toNat_add_ofNat_le (a : UInt32) (n : ℕ) : (a + UInt32.ofNat n).toNat ≤ a.toNat + n := by
  rw [UInt32.toNat_add, UInt32.toNat_ofNat', Nat.add_mod_mod]
  exact Nat.mod_le _ _

theorem toNat_add_ofNat {a : UInt32} {n : ℕ} (h : a.toNat + n < 2 ^ 32) :
    (a + UInt32.ofNat n).toNat = a.toNat + n := by
  rw [UInt32.toNat_add, UInt32.toNat_ofNat', Nat.add_mod_mod, Nat.mod_eq_of_lt h]

/-- Subtraction modulo `2 ^ 32`, with the wrap spelled out. -/
theorem toNat_sub_cases (a b : UInt32) :
    (a - b).toNat = if b.toNat ≤ a.toNat then a.toNat - b.toNat
      else a.toNat + 2 ^ 32 - b.toNat := by
  have ha := a.toNat_lt
  have hb := b.toNat_lt
  rw [UInt32.toNat_sub]
  split <;> omega

/-- A count that fits into the difference of two counters in order, read as an
`int`, fits into their distance. -/
theorem le_sub_of_le_toInt {a b : UInt32} (h : b.toNat ≤ a.toNat) {n : ℕ}
    (hn : (n : ℤ) ≤ toInt (a - b)) : n ≤ a.toNat - b.toNat := by
  have ha := a.toNat_lt
  rw [toInt_eq, toNat_sub_cases, if_pos h] at hn
  split at hn <;> omega

/-- The difference of two counters that have both wrapped is the difference of
the counts, as long as that difference fits. -/
theorem ofNat_sub_ofNat {a b : ℕ} (h : b ≤ a) (hlt : a - b < 2 ^ 32) :
    (UInt32.ofNat a - UInt32.ofNat b).toNat = a - b := by
  rw [← UInt32.ofNat_sub h, UInt32.toNat_ofNat', Nat.mod_eq_of_lt hlt]

theorem toNat_ofNat_le (n : ℕ) : (UInt32.ofNat n).toNat ≤ n := by
  rw [UInt32.toNat_ofNat']
  exact Nat.mod_le _ _

theorem toNat_ofNat_of_lt {n : ℕ} (h : n < 2 ^ 32) : (UInt32.ofNat n).toNat = n := by
  rw [UInt32.toNat_ofNat', Nat.mod_eq_of_lt h]

/-- A mask of the form `2 ^ k - 1` keeps the remainder modulo `2 ^ k`. -/
theorem toNat_and_mask {mask : UInt32} {k : ℕ} (hmask : mask.toNat + 1 = 2 ^ k)
    (x : UInt32) : (x &&& mask).toNat = x.toNat % (mask.toNat + 1) := by
  rw [UInt32.toNat_and, show mask.toNat = 2 ^ k - 1 by omega,
    Nat.and_two_pow_sub_one_eq_mod, Nat.sub_add_cancel Nat.one_le_two_pow]

end Word
