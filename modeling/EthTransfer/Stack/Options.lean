import EthTransfer.Stack.Types

/-!
# The TCP option scanner

`scan_options` walks the option list of a SYN.  Its loop moves by the length
byte of each option, and a length byte of 0 moves it by nothing, so the loop
need not end.  `scanOptionsFrom` is the loop with fuel, `scanOptions` gives it
one unit more than there are bytes, and `none` says that the loop does not end:
`scanOptions_eq_none_iff` shows that no larger amount of fuel helps.
-/

namespace EthTransfer

/-- The loop of `scan_options`, with the cursor at offset `i`. -/
def scanOptionsFrom (buf : Bytes) (len kind : Int) : (fuel i : ℕ) → Option Int
  | 0, _ => none
  | fuel + 1, i =>
    if ¬ (i : Int) < len - 1 then some (-1)
    else if buf i = 0 then some (-1)
    else if buf i = 1 then scanOptionsFrom buf len kind fuel (i + 1)
    else
      let size := (buf (i + 1)).toNat
      if (i : Int) + size > len then some (-1)
      else if (buf i).toNat = kind then
        if size = 4 then
          let msb := (buf (i + 2)).toNat
          let lsb := (buf (i + 3)).toNat
          some ((msb <<< 8 ||| lsb : ℕ) : Int)
        else if size = 3 then some (buf (i + 2)).toNat
        else some (-1)
      -- `buf += size - 1`, and the `buf++` of the loop
      else scanOptionsFrom buf len kind fuel (i + size)

/-- `scan_options`; `none` when the loop does not end. -/
def scanOptions (buf : Bytes) (len kind : Int) : Option Int :=
  scanOptionsFrom buf len kind (len.toNat + 1) 0

/-- An option of another kind with length byte 0 stops the cursor for good. -/
theorem scanOptionsFrom_stuck {buf : Bytes} {len kind : Int} {i : ℕ}
    (hi : (i : Int) < len - 1) (h0 : buf i ≠ 0) (h1 : buf i ≠ 1)
    (hsize : (buf (i + 1)).toNat = 0) (hkind : (buf i).toNat ≠ kind) (fuel : ℕ) :
    scanOptionsFrom buf len kind fuel i = none := by
  induction fuel with
  | zero => rfl
  | succ fuel ih =>
    have hend : ¬ (i : Int) + (0 : ℕ) > len := by omega
    rw [scanOptionsFrom, if_neg (not_not.mpr hi), if_neg h0, if_neg h1]
    simp only [hsize, if_neg hend, if_neg hkind, Nat.add_zero]
    exact ih

private theorem scanOptionsFrom_fuel_aux (buf : Bytes) (len kind : Int) (extra : ℕ) :
    ∀ (fuel i : ℕ), (len - i).toNat < fuel →
      scanOptionsFrom buf len kind (fuel + extra) i = scanOptionsFrom buf len kind fuel i := by
  intro fuel
  induction fuel with
  | zero => intro i hfuel; omega
  | succ fuel ih =>
    intro i hfuel
    rw [show fuel + 1 + extra = fuel + extra + 1 by omega, scanOptionsFrom, scanOptionsFrom]
    split
    · rfl
    · rename_i hi
      split
      · rfl
      · rename_i h0
        split
        · exact ih (i + 1) (by omega)
        · rename_i h1
          dsimp only
          split
          · rfl
          · split
            · rfl
            · rename_i hkind
              -- a cursor that moves has less left to scan; one that does not is stuck
              rcases Nat.eq_zero_or_pos (buf (i + 1)).toNat with hsize | hsize
              · have hlt : (i : Int) < len - 1 := not_not.mp hi
                simp only [hsize, Nat.add_zero]
                rw [scanOptionsFrom_stuck hlt h0 h1 hsize hkind,
                  scanOptionsFrom_stuck hlt h0 h1 hsize hkind]
              · exact ih _ (by omega)

private theorem scanOptionsFrom_mono (buf : Bytes) (len kind : Int) (extra : ℕ) :
    ∀ (fuel i : ℕ) (result : Int), scanOptionsFrom buf len kind fuel i = some result →
      scanOptionsFrom buf len kind (fuel + extra) i = some result := by
  intro fuel
  induction fuel with
  | zero => intro i result h; cases h
  | succ fuel ih =>
    intro i result h
    rw [show fuel + 1 + extra = fuel + extra + 1 by omega]
    rw [scanOptionsFrom] at h ⊢
    dsimp only at h ⊢
    split_ifs at h ⊢ <;> first | exact h | exact ih _ _ h

/-- The fuel of `scanOptions` is enough: it gives no answer exactly when no
amount of fuel does. -/
theorem scanOptions_eq_none_iff (buf : Bytes) (len kind : Int) :
    scanOptions buf len kind = none ↔
      ∀ fuel, scanOptionsFrom buf len kind fuel 0 = none := by
  constructor
  · intro h fuel
    by_contra hne
    obtain ⟨result, hresult⟩ := Option.ne_none_iff_exists'.mp hne
    have hmore := scanOptionsFrom_mono buf len kind (len.toNat + 1) fuel 0 result hresult
    rw [Nat.add_comm, scanOptionsFrom_fuel_aux buf len kind fuel _ 0 (by omega)] at hmore
    rw [scanOptions, hmore] at h
    cases h
  · intro h
    exact h _

end EthTransfer
