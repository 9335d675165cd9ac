import Mathlib.Tactic.Ring
import Mathlib.Data.Nat.ModEq

/-!
# Ring buffers

A ring of `m` cells holds a window of an unbounded stream: stream position `p`
lives in cell `p % m`.  `store` is the pointwise meaning of writing `n`
elements at a stream position, and `memcpy` is the flat copy a program builds
it from.

* `store_at`: what a cell holds after a store, in terms of stream positions.
  The two side conditions say that the position and the stored range lie in
  one window of `m` positions, so no two of them share a cell.
* `store_cell` and `store_cell_of_ne`: the same, cell by cell, for a range of at
  most one turn.
* `getElem?_append_store`: a ring that holds the end of a list still does so when
  elements are added to both.
* `store_append`: two stores one behind the other are one.
* `store_twice`: storing the same elements again changes nothing.
* `Holds`, `holds_store` and `Holds.store`: lists in a ring, which a store behind them
  does not touch.
* `memcpy_eq_store` and `memcpy_wrap_eq_store`: one flat copy, or two when
  the range wraps, is a store.
-/

namespace RingBuffer

variable {α : Type*}

/-- Copy `n` cells of `source`, from `sourceOff` on, to `dest` at `destOff`. -/
def memcpy (dest : ℕ → α) (destOff : ℕ) (source : ℕ → α) (sourceOff n : ℕ) : ℕ → α :=
  fun i => if destOff ≤ i ∧ i < destOff + n then source (sourceOff + (i - destOff))
    else dest i

/-- How far cell `i` lies behind stream position `start`, walking round the
ring of `m` cells. -/
def distance (m start i : ℕ) : ℕ := (i + m - start % m) % m

/-- Write `n` elements of `source` at stream position `start` of a ring of `m`
cells. -/
def store (m : ℕ) (ring : ℕ → α) (start n : ℕ) (source : ℕ → α) : ℕ → α :=
  fun i => if i < m ∧ distance m start i < n then source (distance m start i)
    else ring i

/-! ## Distances -/

/-- The distance is the difference modulo the size of the ring. -/
theorem distance_add_modEq {m : ℕ} (hm : 0 < m) (start p : ℕ) :
    distance m start (p % m) + start ≡ p [MOD m] := by
  have hlt : start % m < m := Nat.mod_lt _ hm
  have hsum : p % m + m - start % m + start % m = p % m + m := by omega
  calc distance m start (p % m) + start
      ≡ (p % m + m - start % m) + start % m [MOD m] :=
        (Nat.mod_modEq _ _).add (Nat.mod_modEq _ _).symm
    _ = p % m + m := hsum
    _ ≡ p [MOD m] := by simp [Nat.ModEq]

/-- A position at or after `start`, less than one turn away. -/
theorem distance_of_le {m start p : ℕ} (hle : start ≤ p) (hlt : p < start + m) :
    distance m start (p % m) = p - start := by
  have hm : 0 < m := by omega
  have hd : distance m start (p % m) < m := Nat.mod_lt _ hm
  have hmod : distance m start (p % m) + start ≡ (p - start) + start [MOD m] := by
    rw [Nat.sub_add_cancel hle]
    exact distance_add_modEq hm start p
  exact (Nat.ModEq.add_right_cancel' start hmod).eq_of_lt_of_lt hd (by omega)

/-- A position before `start`, less than one turn away. -/
theorem distance_of_gt {m start p : ℕ} (hgt : p < start) (hle : start < p + m) :
    distance m start (p % m) = p + m - start := by
  have hm : 0 < m := by omega
  have hd : distance m start (p % m) < m := Nat.mod_lt _ hm
  have hmod : distance m start (p % m) + start ≡ (p + m - start) + start [MOD m] := by
    rw [Nat.sub_add_cancel hle.le]
    calc distance m start (p % m) + start ≡ p [MOD m] := distance_add_modEq hm start p
      _ ≡ p + m [MOD m] := by simp [Nat.ModEq]
  exact (Nat.ModEq.add_right_cancel' start hmod).eq_of_lt_of_lt hd (by omega)

/-- Distances from a position below the size of the ring, cell by cell. -/
theorem distance_of_lt {m start i : ℕ} (hi : i < m) :
    distance m start i =
      if start % m ≤ i then i - start % m else i + m - start % m := by
  have hs : start % m < m := Nat.mod_lt _ (by omega)
  unfold distance
  split
  · rw [show i + m - start % m = i - start % m + m by omega, Nat.add_mod_right,
      Nat.mod_eq_of_lt (by omega)]
  · exact Nat.mod_eq_of_lt (by omega)

/-! ## Stores -/

/-- The cell of stream position `p` after a store.  The stored range ends at
most one turn after `p` and `p` lies less than one turn after `start`, so the
cell was written exactly when `p` is a position of the range. -/
theorem store_at {m start n p : ℕ} (ring source : ℕ → α)
    (hend : start + n ≤ p + m) (hstart : p < start + m) :
    store m ring start n source (p % m) =
      if start ≤ p ∧ p < start + n then source (p - start) else ring (p % m) := by
  have hm : 0 < m := by omega
  have hcell : p % m < m := Nat.mod_lt _ hm
  unfold store
  by_cases hle : start ≤ p
  · rw [distance_of_le hle hstart]
    have hiff : p - start < n ↔ p < start + n := by omega
    simp [hcell, hle, hiff]
  · have hn : ¬ (p % m < m ∧ distance m start (p % m) < n) := by
      rintro ⟨-, hd⟩
      rcases Nat.eq_zero_or_pos n with rfl | hpos
      · omega
      · rw [distance_of_gt (by omega) (by omega)] at hd
        omega
    rw [if_neg hn, if_neg (by omega)]

/-- The cell of a stored position. -/
theorem store_cell {m start n i : ℕ} (ring source : ℕ → α) (hi : i < n) (hn : n ≤ m) :
    store m ring start n source ((start + i) % m) = source i := by
  rw [store_at ring source (by omega) (by omega), if_pos (by omega), Nat.add_sub_cancel_left]

/-- A stream that a list holds from position `start` on: when the last turn of it is
in the ring, it is there also after the next elements were stored behind it. -/
theorem getElem?_append_store {m n start : ℕ} {l : List α} {ring : ℕ → α} (source : ℕ → α)
    (hold : ∀ p, start ≤ p → p < start + l.length → start + l.length ≤ p + m →
      l[p - start]? = some (ring (p % m))) (hn : n ≤ m) {p : ℕ} (hpos : start ≤ p)
    (hlt : p < start + l.length + n) (hle : start + l.length + n ≤ p + m) :
    (l ++ (List.range n).map source)[p - start]? =
      some (store m ring (start + l.length) n source (p % m)) := by
  rw [store_at ring source (by omega) (by omega)]
  by_cases hnew : start + l.length ≤ p
  · rw [if_pos ⟨hnew, hlt⟩, List.getElem?_append_right (by omega), List.getElem?_map,
      List.getElem?_range (by omega), show p - start - l.length = p - (start + l.length) by omega]
    rfl
  · rw [if_neg (by omega), List.getElem?_append_left (by omega)]
    exact hold p hpos (by omega) (by omega)

/-- A cell that no stored position falls on is unchanged. -/
theorem store_cell_of_ne {m start n cell : ℕ} (ring source : ℕ → α)
    (hne : ∀ i < n, (start + i) % m ≠ cell) : store m ring start n source cell = ring cell := by
  unfold store
  split
  · rename_i h
    obtain ⟨hcell, hlt⟩ := h
    have hmod := distance_add_modEq (show 0 < m by omega) start cell
    rw [Nat.mod_eq_of_lt hcell, Nat.add_comm] at hmod
    refine absurd ?_ (hne _ hlt)
    rw [hmod, Nat.mod_eq_of_lt hcell]
  · rfl

/-- A store reads the elements that it stores. -/
theorem store_congr {m start n : ℕ} {ring source source' : ℕ → α}
    (h : ∀ i < n, source i = source' i) :
    store m ring start n source = store m ring start n source' := by
  funext i
  unfold store
  split
  · rename_i hcell
    exact h _ hcell.2
  · rfl

/-- Storing the same elements a second time changes nothing. -/
@[simp] theorem store_twice (m : ℕ) (ring : ℕ → α) (start n : ℕ) (source : ℕ → α) :
    store m (store m ring start n source) start n source =
      store m ring start n source := by
  funext i
  unfold store
  split <;> simp_all

/-- Every cell of the ring has a position in the turn from `start` on. -/
theorem exists_position {m cell : ℕ} (start : ℕ) (hcell : cell < m) :
    ∃ p, p % m = cell ∧ start ≤ p ∧ p < start + m := by
  have hm : 0 < m := by omega
  have hmod := distance_add_modEq hm start cell
  have hlt : distance m start (cell % m) < m := Nat.mod_lt _ hm
  refine ⟨start + distance m start (cell % m), ?_, by omega, by omega⟩
  rw [Nat.add_comm, hmod, Nat.mod_eq_of_lt hcell]

/-- Two stores one behind the other are the store of both together. -/
theorem store_append {m start n n' : ℕ} (ring source source' : ℕ → α) (hle : n + n' ≤ m) :
    store m (store m ring start n source) (start + n) n' source' =
      store m ring start (n + n') fun i => if i < n then source i else source' (i - n) := by
  funext cell
  by_cases hcell : cell < m
  · obtain ⟨p, rfl, hstart, hend⟩ := exists_position start hcell
    rw [store_at _ _ (by omega) (by omega), store_at _ _ (by omega) (by omega),
      store_at _ _ (by omega) (by omega)]
    by_cases hfirst : p < start + n
    · rw [if_neg (by omega), if_pos ⟨hstart, hfirst⟩, if_pos (by omega), if_pos (by omega)]
    · rw [if_neg (by omega : ¬ (start ≤ p ∧ p < start + n))]
      by_cases hsecond : p < start + n + n'
      · rw [if_pos (by omega), if_pos (by omega), if_neg (by omega), Nat.sub_sub]
      · rw [if_neg (by omega), if_neg (by omega)]
  · unfold store
    rw [if_neg (by omega), if_neg (by omega), if_neg (by omega)]

/-- A store depends on the cell it starts at, not on the turn. -/
theorem store_mod (m : ℕ) (ring : ℕ → α) (start n : ℕ) (source : ℕ → α) :
    store m ring (start % m) n source = store m ring start n source := by
  unfold store distance
  rw [Nat.mod_mod]

/-- One flat copy is a store when the range does not wrap. -/
theorem memcpy_eq_store {m start n : ℕ} (ring source : ℕ → α)
    (hfit : start % m + n ≤ m) :
    memcpy ring (start % m) source 0 n = store m ring start n source := by
  funext i
  unfold memcpy store
  by_cases hi : i < m
  · rw [distance_of_lt hi]
    by_cases hle : start % m ≤ i
    · have hiff : i < start % m + n ↔ i - start % m < n := by omega
      simp [hle, hi, hiff]
    · have hge : ¬ i + m - start % m < n := by omega
      simp [hle, hge]
  · rw [if_neg (by omega), if_neg (by omega)]

/-- Two flat copies are a store when the range wraps. -/
theorem memcpy_wrap_eq_store {m start n : ℕ} (ring source : ℕ → α) (hm : 0 < m)
    (hwrap : m < start % m + n) (hn : n ≤ m) :
    memcpy (memcpy ring (start % m) source 0 (m - start % m)) 0 source
        (m - start % m) (n - (m - start % m)) =
      store m ring start n source := by
  have hs : start % m < m := Nat.mod_lt _ hm
  funext i
  unfold memcpy store
  by_cases hi : i < m
  · rw [distance_of_lt hi]
    by_cases hle : start % m ≤ i
    · rw [if_neg (by omega), if_pos (by omega), if_pos hle, if_pos (by omega), Nat.zero_add]
    · rw [if_neg hle]
      by_cases hlow : i < n - (m - start % m)
      · rw [if_pos (by omega), if_pos (by omega)]
        congr 1
        omega
      · rw [if_neg (by omega), if_neg (by omega), if_neg (by omega)]
  · rw [if_neg (by omega), if_neg (by omega), if_neg (by omega)]

/-! ## Loads -/

/-- Read `n` elements at stream position `start` into `dest`, which starts at
cell `0`. -/
def load (m : ℕ) (dest : ℕ → α) (ring : ℕ → α) (start n : ℕ) : ℕ → α :=
  fun i => if i < n then ring ((start + i) % m) else dest i

/-- What was stored is loaded. -/
theorem load_store {m start n i : ℕ} (dest ring source : ℕ → α) (hi : i < n) (hn : n ≤ m) :
    load m dest (store m ring start n source) start n i = source i := by
  unfold load
  rw [if_pos hi, store_cell ring source hi hn]

/-- A load depends on the cell it starts at, not on the turn. -/
theorem load_mod (m : ℕ) (dest ring : ℕ → α) (start n : ℕ) :
    load m dest ring (start % m) n = load m dest ring start n := by
  funext i
  unfold load
  rw [Nat.mod_add_mod]

/-- One flat copy is a load when the range does not wrap. -/
theorem memcpy_eq_load {m start n : ℕ} (dest ring : ℕ → α)
    (hfit : start % m + n ≤ m) :
    memcpy dest 0 ring (start % m) n = load m dest ring start n := by
  funext i
  unfold memcpy load
  by_cases hi : i < n
  · rw [if_pos (by omega), if_pos hi, Nat.sub_zero, Nat.add_mod]
    congr 1
    have him : i % m = i := Nat.mod_eq_of_lt (by omega)
    by_cases hm : start % m + i < m
    · rw [him, Nat.mod_eq_of_lt hm]
    · omega
  · rw [if_neg (by omega), if_neg hi]

/-- Two flat copies are a load when the range wraps. -/
theorem memcpy_wrap_eq_load {m start n : ℕ} (dest ring : ℕ → α) (hm : 0 < m)
    (hwrap : m < start % m + n) (hn : n ≤ m) :
    memcpy (memcpy dest 0 ring (start % m) (m - start % m)) (m - start % m) ring 0
        (n - (m - start % m)) =
      load m dest ring start n := by
  have hs : start % m < m := Nat.mod_lt _ hm
  funext i
  unfold memcpy load
  by_cases hi : i < n
  · rw [if_pos hi, ← Nat.mod_add_mod start m i]
    by_cases hlow : i < m - start % m
    · have hcell : (start % m + i) % m = start % m + i := Nat.mod_eq_of_lt (by omega)
      rw [if_neg (by omega), if_pos (by omega), hcell, Nat.sub_zero]
    · have hcell : (start % m + i) % m = start % m + i - m := by
        rw [Nat.mod_eq_sub_mod (by omega), Nat.mod_eq_of_lt (by omega)]
      rw [if_pos (by omega), hcell]
      congr 1
      omega
  · rw [if_neg (by omega), if_neg (by omega), if_neg hi]

/-! ## Lists in a ring -/

/-- The ring holds the list from stream position `start` on. -/
def Holds (m : ℕ) (ring : ℕ → α) (start : ℕ) (l : List α) : Prop :=
  ∀ i, (h : i < l.length) → ring ((start + i) % m) = l[i]

/-- What was stored is there. -/
theorem holds_store {m : ℕ} (ring : ℕ → α) (start : ℕ) (l : List α) (default : α)
    (hle : l.length ≤ m) :
    Holds m (store m ring start l.length fun i => l.getD i default) start l := by
  intro i hi
  rw [store_cell ring _ hi hle]
  exact (List.getElem_eq_getD default).symm

/-- A store behind a list, less than one turn away, does not touch it. -/
theorem Holds.store {m : ℕ} {ring : ℕ → α} {start p n : ℕ} {l : List α}
    (hold : Holds m ring start l) (source : ℕ → α) (hbehind : start + l.length ≤ p)
    (hturn : p + n ≤ start + m) : Holds m (store m ring p n source) start l := by
  intro i hi
  rw [store_at ring source (by omega) (by omega), if_neg (by omega)]
  exact hold i hi

end RingBuffer
