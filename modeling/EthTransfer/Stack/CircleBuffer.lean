import EthTransfer.Lib.RingBuffer
import EthTransfer.Stack.Types

/-!
# The circular buffers

`copy_to_circle_buffer` and `copy_from_circle_buffer`, and what they mean on
stream positions.  A mask of the form `2 ^ k - 1` makes each of them a
`RingBuffer.store` or a `RingBuffer.load`; a start past `2 ^ 31` or a sum past
`2 ^ 32` is no exception, since the size of the ring divides `2 ^ 32`.
-/

namespace EthTransfer

open RingBuffer

/-- `copy_to_circle_buffer`.  The start is an `int` in the source, and only its
low bits are used. -/
def copyToCircleBuffer (dest : Bytes) (destMask destStart : UInt32) (source : Bytes)
    (sourceSize length : Int) : Bytes :=
  if length > destMask.toNat then dest
  else if length > sourceSize then dest
  else if length ≤ 0 then dest
  else
    let maskStart := (destStart &&& destMask).toNat
    let maskEnd := ((destStart + UInt32.ofInt length - 1) &&& destMask).toNat
    if maskStart ≤ maskEnd then memcpy dest maskStart source 0 length.toNat
    else
      let len1 := destMask.toNat + 1 - maskStart
      let len2 := length.toNat - len1
      memcpy (memcpy dest maskStart source 0 len1) 0 source len1 len2

/-- `copy_from_circle_buffer`. -/
def copyFromCircleBuffer (dest : Bytes) (destSize : Int) (source : Bytes)
    (sourceMask sourceStart : UInt32) (length : Int) : Bytes :=
  if length > sourceMask.toNat then dest
  else if length > destSize then dest
  else if length ≤ 0 then dest
  else
    let maskStart := (sourceStart &&& sourceMask).toNat
    let maskEnd := ((sourceStart + UInt32.ofInt length - 1) &&& sourceMask).toNat
    if maskStart ≤ maskEnd then memcpy dest 0 source maskStart length.toNat
    else
      let len1 := sourceMask.toNat + 1 - maskStart
      let len2 := length.toNat - len1
      memcpy (memcpy dest 0 source maskStart len1) len1 source 0 len2

section Meaning

variable {mask : UInt32} {k : ℕ}

/-- The size of a ring divides `2 ^ 32`. -/
theorem mask_succ_dvd (hmask : mask.toNat + 1 = 2 ^ k) : mask.toNat + 1 ∣ 2 ^ 32 := by
  have hk : k ≤ 32 := by
    by_contra hgt
    have hpow : 2 ^ 32 < 2 ^ k := Nat.pow_lt_pow_right (by decide) (by omega)
    have := mask.toNat_lt
    omega
  rw [hmask]
  exact Nat.pow_dvd_pow 2 hk

/-- The masked end of a range of `n` bytes: one flat copy is enough exactly
when it does not lie before the masked start. -/
theorem maskEnd_cases (hmask : mask.toNat + 1 = 2 ^ k) (start : UInt32) {n : ℕ}
    (hpos : 0 < n) (hn : n ≤ mask.toNat) :
    ((start &&& mask).toNat ≤ ((start + UInt32.ofNat n - 1) &&& mask).toNat ↔
      start.toNat % (mask.toNat + 1) + n ≤ mask.toNat + 1) := by
  have hlt : start.toNat % (mask.toNat + 1) < mask.toNat + 1 := Nat.mod_lt _ (by omega)
  have hsum : (start + UInt32.ofNat n - 1).toNat = (start.toNat + (n - 1)) % 2 ^ 32 := by
    have hs := start.toNat_lt
    rw [UInt32.toNat_sub, UInt32.toNat_add, UInt32.toNat_ofNat', UInt32.toNat_one]
    omega
  rw [Word.toNat_and_mask hmask, Word.toNat_and_mask hmask, hsum,
    Nat.mod_mod_of_dvd _ (mask_succ_dvd hmask), ← Nat.mod_add_mod]
  generalize start.toNat % (mask.toNat + 1) = a at *
  by_cases hfit : a + (n - 1) < mask.toNat + 1
  · rw [Nat.mod_eq_of_lt hfit]
    omega
  · rw [Nat.mod_eq_sub_mod (by omega), Nat.mod_eq_of_lt (by omega)]
    omega

/-- A copy into a ring is a store. -/
theorem copyToCircleBuffer_eq_store (hmask : mask.toNat + 1 = 2 ^ k) (dest source : Bytes)
    (start : UInt32) {sourceSize : Int} {n : ℕ} (hn : n ≤ mask.toNat)
    (hsize : (n : Int) ≤ sourceSize) :
    copyToCircleBuffer dest mask start source sourceSize n =
      store (mask.toNat + 1) dest start.toNat n source := by
  rw [copyToCircleBuffer, if_neg (by omega), if_neg (by omega)]
  rcases Nat.eq_zero_or_pos n with rfl | hpos
  · rw [if_pos (by omega)]
    funext i
    simp [store]
  rw [if_neg (by omega)]
  simp only [Word.ofInt_natCast, Int.toNat_natCast, maskEnd_cases hmask start hpos hn]
  rw [Word.toNat_and_mask hmask]
  split
  · rename_i hfit
    exact memcpy_eq_store dest source hfit
  · rename_i hwrap
    exact memcpy_wrap_eq_store dest source (by omega) (by omega) (by omega)

/-- A copy out of a ring is a load. -/
theorem copyFromCircleBuffer_eq_load (hmask : mask.toNat + 1 = 2 ^ k) (dest source : Bytes)
    (start : UInt32) {destSize : Int} {n : ℕ} (hn : n ≤ mask.toNat)
    (hsize : (n : Int) ≤ destSize) :
    copyFromCircleBuffer dest destSize source mask start n =
      load (mask.toNat + 1) dest source start.toNat n := by
  rw [copyFromCircleBuffer, if_neg (by omega), if_neg (by omega)]
  rcases Nat.eq_zero_or_pos n with rfl | hpos
  · rw [if_pos (by omega)]
    funext i
    simp [load]
  rw [if_neg (by omega)]
  simp only [Word.ofInt_natCast, Int.toNat_natCast, maskEnd_cases hmask start hpos hn]
  rw [Word.toNat_and_mask hmask]
  split
  · rename_i hfit
    exact memcpy_eq_load dest source hfit
  · rename_i hwrap
    exact memcpy_wrap_eq_load dest source (by omega) (by omega) (by omega)

/-- A range that starts at a 32-bit sum starts in the cell of the sum. -/
theorem store_start_add (hmask : mask.toNat + 1 = 2 ^ k) (ring source : Bytes) (start : UInt32)
    (n n' : ℕ) :
    store (mask.toNat + 1) ring (start + UInt32.ofNat n).toNat n' source =
      store (mask.toNat + 1) ring (start.toNat + n) n' source := by
  have hsum : (start + UInt32.ofNat n).toNat = (start.toNat + n) % 2 ^ 32 := by
    rw [UInt32.toNat_add, UInt32.toNat_ofNat', Nat.add_mod_mod]
  rw [hsum, ← store_mod, Nat.mod_mod_of_dvd _ (mask_succ_dvd hmask), store_mod]

/-- The copies mean what they should cell by cell, for every start and every length up to
the mask that the given buffer has: a copy into the ring sets the cells of the range and no
other one, a copy out of it reads these cells, what was written is read back, and two
copies one behind the other are the copy of the concatenation. -/
theorem circleBuffer_pointwise (hmask : mask.toNat + 1 = 2 ^ k) (start : UInt32) {n : ℕ}
    (hn : n ≤ mask.toNat) (ring : Bytes) :
    (∀ (source : Bytes) (sourceSize : Int), n ≤ sourceSize →
      (∀ i < n, copyToCircleBuffer ring mask start source sourceSize n
        ((start.toNat + i) % 2 ^ k) = source i) ∧
      ∀ cell, (∀ i < n, (start.toNat + i) % 2 ^ k ≠ cell) →
        copyToCircleBuffer ring mask start source sourceSize n cell = ring cell) ∧
    (∀ (dest : Bytes) (destSize : Int), n ≤ destSize →
      (∀ i < n, copyFromCircleBuffer dest destSize ring mask start n i =
        ring ((start.toNat + i) % 2 ^ k)) ∧
      ∀ i, n ≤ i → copyFromCircleBuffer dest destSize ring mask start n i = dest i) ∧
    (∀ (source dest : Bytes) (sourceSize destSize : Int), n ≤ sourceSize → n ≤ destSize →
      ∀ i < n, copyFromCircleBuffer dest destSize
        (copyToCircleBuffer ring mask start source sourceSize n) mask start n i = source i) ∧
    ∀ (source source' : Bytes) (size size' size'' : Int) (n' : ℕ),
      n + n' ≤ mask.toNat → n ≤ size → n' ≤ size' → n + n' ≤ size'' →
      copyToCircleBuffer (copyToCircleBuffer ring mask start source size n) mask
          (start + UInt32.ofNat n) source' size' n' =
        copyToCircleBuffer ring mask start (fun i => if i < n then source i else source' (i - n))
          size'' ((n + n' : ℕ) : Int) := by
  have hle : n ≤ mask.toNat + 1 := by omega
  rw [← hmask]
  refine ⟨fun source sourceSize hsize => ?_, fun dest destSize hsize => ?_, ?_, ?_⟩
  · rw [copyToCircleBuffer_eq_store hmask ring source start hn hsize]
    exact ⟨fun i hi => store_cell ring source hi hle,
      fun cell hne => store_cell_of_ne ring source hne⟩
  · rw [copyFromCircleBuffer_eq_load hmask dest ring start hn hsize]
    exact ⟨fun i hi => if_pos hi, fun i hi => if_neg (by omega)⟩
  · intro source dest sourceSize destSize hsource hdest i hi
    rw [copyToCircleBuffer_eq_store hmask ring source start hn hsource,
      copyFromCircleBuffer_eq_load hmask dest _ start hn hdest, load_store dest ring source hi hle]
  · intro source source' size size' size'' n' hsum hsize hsize' hsize''
    rw [copyToCircleBuffer_eq_store hmask ring source start hn hsize,
      copyToCircleBuffer_eq_store hmask _ source' _ (by omega) hsize',
      copyToCircleBuffer_eq_store hmask ring _ start hsum (by omega), store_start_add hmask,
      store_append ring source source' (by omega)]

/-- Three bytes at the end of the 32-bit range, in a ring of eight cells. -/
theorem circleBuffer_pointwise_wrap :
    copyToCircleBuffer (fun _ => 0) 7 0xFFFFFFFE (fun i => UInt8.ofNat i) 8 3 0 = 2 ∧
      copyFromCircleBuffer (fun _ => 0) 8
        (copyToCircleBuffer (fun _ => 0) 7 0xFFFFFFFE (fun i => UInt8.ofNat i) 8 3) 7
        0xFFFFFFFE 3 2 = 2 ∧
      copyToCircleBuffer
          (copyToCircleBuffer (fun _ => 0) 7 0xFFFFFFFE (fun i => UInt8.ofNat i) 8 3) 7
          1 (fun i => UInt8.ofNat i) 8 2 =
        copyToCircleBuffer (fun _ => 0) 7 0xFFFFFFFE
          (fun i => if i < 3 then UInt8.ofNat i else UInt8.ofNat (i - 3)) 8 5 :=
  have hcopies := circleBuffer_pointwise (show (7 : UInt32).toNat + 1 = 2 ^ 3 by decide)
    0xFFFFFFFE (show 3 ≤ (7 : UInt32).toNat by decide) fun _ => 0
  ⟨(hcopies.1 (fun i => UInt8.ofNat i) 8 (by decide)).1 2 (by decide),
    hcopies.2.2.1 (fun i => UInt8.ofNat i) (fun _ => 0) 8 8 (by decide) (by decide) 2 (by decide),
    hcopies.2.2.2 (fun i => UInt8.ofNat i) (fun i => UInt8.ofNat i) 8 8 8 2 (by decide) (by decide)
      (by decide) (by decide)⟩

end Meaning

/-! ## The rings of the connection -/

/-- The size of the receive and of the transmit ring. -/
def RING : ℕ := 8192

theorem rx_mask_succ : RX_MASK.toNat + 1 = 2 ^ 13 := by decide

/-- A copy into the receive or transmit ring. -/
theorem copyToCircleBuffer_ring (dest source : Bytes) (start : UInt32) {n : ℕ}
    (hn : n < RING) :
    copyToCircleBuffer dest RX_MASK start source n n =
      store RING dest start.toNat n source :=
  copyToCircleBuffer_eq_store rx_mask_succ dest source start (Nat.le_of_lt_succ hn) le_rfl

/-- A copy out of the receive or transmit ring. -/
theorem copyFromCircleBuffer_ring (dest source : Bytes) (start : UInt32) {destSize : Int}
    {n : ℕ} (hn : n < RING) (hsize : (n : Int) ≤ destSize) :
    copyFromCircleBuffer dest destSize source RX_MASK start n =
      load RING dest source start.toNat n :=
  copyFromCircleBuffer_eq_load rx_mask_succ dest source start (Nat.le_of_lt_succ hn) hsize

end EthTransfer
