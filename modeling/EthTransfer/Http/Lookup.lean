import EthTransfer.Http.Memory
import Mathlib.Data.Nat.Find
import Mathlib.Order.Bounds.Basic

/-!
# What the searches find

`find_needle` and `header_value` against what they are for: the least place with a property,
and `-1` when there is none.

* `Locates` says this of a result.
* `findNeedle_locates`: `find_needle` looks for a needle with a byte of the haystack behind
  it, so `findNeedle_exact_iff` has a condition.
* `headerValue_locates`: behind `split_header`, `header_value` finds the first line with the
  key.  The loop goes from line start to line start (`skipLine_next`).
-/

namespace EthTransfer

open Search Traced

/-- `value` is the least of the places, `offset` further on, or `-1` when there is no place. -/
structure Locates (places : Set ℕ) (offset : ℕ) (value : Int) : Prop where
  found : ∀ i : ℕ, value = i + offset ↔ IsLeast places i
  missing : value = -1 ↔ ∀ i, i ∉ places

theorem Locates.of_isLeast {places : Set ℕ} {offset i : ℕ} (h : IsLeast places i) :
    Locates places offset (i + offset) where
  found j := by
    constructor
    · intro heq
      have hij : i = j := by omega
      rwa [← hij]
    · intro hj
      rw [h.unique hj]
  missing := by
    constructor
    · intro heq
      omega
    · intro hnone
      exact absurd h.1 (hnone i)

theorem Locates.of_none {places : Set ℕ} (offset : ℕ) (h : ∀ i, i ∉ places) :
    Locates places offset (-1) where
  found i := by
    constructor
    · intro heq
      omega
    · intro hi
      exact absurd hi.1 (h i)
  missing := ⟨fun _ => h, fun _ => rfl⟩

/-- A place of a set is a least one, or there is none. -/
theorem exists_isLeast_or (places : Set ℕ) : (∃ i, IsLeast places i) ∨ ∀ i, i ∉ places := by
  classical
  by_cases h : ∃ i, i ∈ places
  · exact .inl ⟨Nat.find h, Nat.find_spec h, fun j hj => Nat.find_min' h hj⟩
  · exact .inr (not_exists.mp h)

/-! ## Needles -/

/-- `haystack[i .. i + n) = needle`. -/
def OccursAt (haystack needle : List UInt8) (i : ℕ) : Prop :=
  i + needle.length ≤ haystack.length ∧ (haystack.drop i).take needle.length = needle

theorem occursAt_iff {haystack needle : List UInt8} (rest : List UInt8) {i : ℕ} :
    OccursAt haystack needle i ↔
      i + needle.length ≤ haystack.length ∧ needle <+: (haystack ++ rest).drop i := by
  refine and_congr_right fun hfits => ?_
  rw [List.drop_append_of_le_length (by omega), List.prefix_iff_eq_take,
    List.take_append_of_le_length (by rw [List.length_drop]; omega)]
  exact eq_comm

/-- `find_needle` finds the first place with a byte of the haystack behind the needle. -/
theorem findNeedle_locates (haystack needle : List UInt8) (len : ℕ) :
    Locates {i | i + needle.length < len ∧ needleAt haystack needle i} 0
      (findNeedle haystack len needle) := by
  set places := {i | i + needle.length < len ∧ needleAt haystack needle i} with hplaces
  have hmem {i : ℕ} : i ∈ places ↔ i + needle.length < len ∧ needleAt haystack needle i := Iff.rfl
  unfold findNeedle
  rcases exists_isLeast_or places with ⟨i, hleast⟩ | hnone
  · obtain ⟨hlt, hat⟩ := hmem.mp hleast.1
    have hfound : (first ((len : Int) - needle.length).toNat fun i =>
        if needleAt haystack needle i then some i else none) = some i := by
      refine first_eq_some_iff.mpr ⟨i, by omega, if_pos hat, fun j hj => if_neg fun hj' => ?_⟩
      exact absurd (hleast.2 (hmem.mpr ⟨by omega, hj'⟩)) (by omega)
    rw [hfound]
    exact .of_isLeast hleast
  · have hmissing : (first ((len : Int) - needle.length).toNat fun i =>
        if needleAt haystack needle i then some i else none) = none :=
      first_eq_none_iff.mpr fun i hi => if_neg fun hat => hnone i (hmem.mpr ⟨by omega, hat⟩)
    rw [hmissing]
    exact .of_none 0 hnone

/-- `find_needle` is an exact search exactly if the first occurrence of the needle, when there
is one, has a byte of the haystack behind it. -/
theorem findNeedle_exact_iff (front haystack rest needle : List UInt8) (hne : needle ≠ []) :
    (∃ value, Returns (Memory.Inside front.length haystack.length)
        (Memory.findNeedle front.length haystack.length needle) (front ++ (haystack ++ rest)) value
        (front ++ (haystack ++ rest)) ∧
      Locates {i | OccursAt haystack needle i} 0 value) ↔
    ∀ i, IsLeast {i | OccursAt haystack needle i} i → i + needle.length < haystack.length := by
  have hfits : front.length + haystack.length ≤ (front ++ (haystack ++ rest)).length := by simp
  have hreturns := Memory.findNeedle_returns needle hfits
  rw [List.drop_left] at hreturns
  have hlocates := findNeedle_locates (haystack ++ rest) needle haystack.length
  have hplaces : {i | i + needle.length < haystack.length ∧ needleAt (haystack ++ rest) needle i} =
      {i | OccursAt haystack needle i ∧ i + needle.length < haystack.length} := by
    ext i
    show _ ∧ _ ↔ OccursAt haystack needle i ∧ _
    rw [occursAt_iff rest, needleAt_iff hne]
    constructor
    · rintro ⟨hlt, hat⟩
      exact ⟨⟨hlt.le, hat⟩, hlt⟩
    · rintro ⟨⟨-, hat⟩, hlt⟩
      exact ⟨hlt, hat⟩
  rw [hplaces] at hlocates
  constructor
  · rintro ⟨value, hvalue, hexact⟩ i hleast
    rw [hvalue.value_eq hreturns] at hexact
    exact ((hlocates.found i).mp ((hexact.found i).mpr hleast)).1.2
  · intro hbehind
    refine ⟨_, hreturns, ?_⟩
    rcases exists_isLeast_or {i | OccursAt haystack needle i} with ⟨i, hleast⟩ | hnone
    · have hfound := (hlocates.found i).mpr
        ⟨⟨hleast.1, hbehind i hleast⟩, fun j hj => hleast.2 hj.1⟩
      rw [hfound]
      exact .of_isLeast hleast
    · rw [hlocates.missing.mpr fun i hi => hnone i hi.1]
      exact .of_none 0 hnone

theorem findNeedle_exact_iff_behind :
    (∃ value, Returns (Memory.Inside 1 4)
        (Memory.findNeedle (1 : ℕ) (4 : ℕ) [97, 97]) ([1] ++ ([98, 97, 97, 98] ++ [])) value
        ([1] ++ ([98, 97, 97, 98] ++ [])) ∧
      Locates {i | OccursAt [98, 97, 97, 98] [97, 97] i} 0 value) ↔
    ∀ i, IsLeast {i | OccursAt [98, 97, 97, 98] [97, 97] i} i → i + 2 < 4 :=
  findNeedle_exact_iff [1] [98, 97, 97, 98] [] [97, 97] (by decide)

/-- A haystack that is the needle. -/
theorem findNeedle_misses_last :
    ¬ ∀ (front haystack rest needle : List UInt8), needle ≠ [] →
      ∃ value, Returns (Memory.Inside front.length haystack.length)
        (Memory.findNeedle front.length haystack.length needle) (front ++ (haystack ++ rest)) value
        (front ++ (haystack ++ rest)) ∧
      Locates {i | OccursAt haystack needle i} 0 value := by
  intro hall
  obtain ⟨value, hvalue, hexact⟩ := hall [] [97] [] [97] (by decide)
  have hmissing : value = -1 := by
    have hresult := hvalue.result
    have hrun : (Memory.findNeedle (([] : List UInt8).length : ℕ) ([97] : List UInt8).length [97]
      ([] ++ ([97] ++ []))).2 = some (-1, [97]) := by decide
    rw [hrun] at hresult
    cases hresult
    rfl
  exact hexact.missing.mp hmissing 0 ⟨by decide, by decide⟩

/-! ## Keys -/

/-- The bytes that end a line. -/
def EndsLine (b : UInt8) : Prop := b = CR ∨ b = LF ∨ b = 0

/-- A line starts at `s`: at the start, or behind a byte that ends a line. -/
def LineStart (header : List UInt8) (s : ℕ) : Prop :=
  s = 0 ∨ ∃ j b, s = j + 1 ∧ header[j]? = some b ∧ EndsLine b

/-- The lines that start with the key. -/
def keyLines (header key : List UInt8) : Set ℕ :=
  {s | LineStart header s ∧ OccursAt header key s}

section Keys

variable {buffer key header : List UInt8}

/-- A line starts at `s` once `split_header` has put zeros at the ends of the lines. -/
def SplitStart (buffer : List UInt8) (s : ℕ) : Prop :=
  s = 0 ∨ ∃ j < buffer.length, s = j + 1 ∧ buffer.getD j 0 = 0

/-- The inner loop goes to the next line start, or to the limit. -/
theorem skipLine_next {limit l : ℕ} (hlt : l < limit) (hlimit : limit ≤ buffer.length) :
    l ≤ skipLine buffer limit l ∧
      (skipLine buffer limit l < limit → SplitStart buffer (skipLine buffer limit l + 1)) ∧
      ∀ s, l < s → s ≤ limit → SplitStart buffer s → skipLine buffer limit l < s := by
  rw [Memory.skipLine_eq]
  have hlength : (buffer.drop l).length = buffer.length - l := List.length_drop
  refine ⟨by omega, fun hend => ?_, fun s hs hle hstart => ?_⟩
  · have hstops : decide ((buffer.drop l).getD (Memory.stringLength buffer l) 0 = 0) = true :=
      stops_reach (show Memory.stringLength buffer l < _ by omega)
    rw [Memory.getD_drop, decide_eq_true_eq] at hstops
    refine .inr ⟨l + Memory.stringLength buffer l, by omega, by omega, hstops⟩
  · rcases hstart with rfl | ⟨j, -, rfl, hzero⟩
    · omega
    · have hreach := Memory.stringLength_le (show l ≤ j by omega) hzero
      omega

/-- The outer loop from a line start on finds the first line with the key. -/
theorem headerValueLoop_locates (key : List UInt8) {limit : ℕ} (hlimit : limit ≤ buffer.length)
    (fuel l : ℕ) (hfuel : limit ≤ l + fuel) (hstart : SplitStart buffer l) :
    Locates {s | l ≤ s ∧ s < limit ∧ SplitStart buffer s ∧ key <+: buffer.drop s} key.length
      (headerValueLoop buffer key limit fuel l) := by
  induction fuel generalizing l with
  | zero => exact .of_none _ fun s hs => absurd hs.2.1 (by have := hs.1; omega)
  | succ fuel ih =>
    unfold headerValueLoop
    by_cases hlt : l < limit
    · rw [if_pos hlt]
      by_cases hkey : key.isPrefixOf (buffer.drop l)
      · rw [if_pos hkey]
        rw [List.isPrefixOf_iff_prefix] at hkey
        exact .of_isLeast ⟨⟨le_rfl, hlt, hstart, hkey⟩, fun s hs => hs.1⟩
      · rw [if_neg hkey]
        rw [List.isPrefixOf_iff_prefix] at hkey
        obtain ⟨hle, hnext, hskip⟩ := skipLine_next hlt hlimit
        set next := skipLine buffer limit l with hnextdef
        have hsame : {s | l ≤ s ∧ s < limit ∧ SplitStart buffer s ∧ key <+: buffer.drop s} =
            {s | next + 1 ≤ s ∧ s < limit ∧ SplitStart buffer s ∧ key <+: buffer.drop s} := by
          ext s
          constructor
          · rintro ⟨hls, hslt, hs, hat⟩
            have hne : l ≠ s := by
              rintro rfl
              exact hkey hat
            exact ⟨hskip s (by omega) hslt.le hs, hslt, hs, hat⟩
          · rintro ⟨hns, hslt, hs, hat⟩
            exact ⟨by omega, hslt, hs, hat⟩
        rw [hsame]
        by_cases hend : next < limit
        · exact ih (next + 1) (by omega) (hnext hend)
        · have hover : headerValueLoop buffer key limit fuel (next + 1) = -1 := by
            cases fuel with
            | zero => rfl
            | succ fuel => exact if_neg (by omega)
          rw [hover]
          exact .of_none _ fun s hs => absurd hs.2.1 (by have := hs.1; omega)
    · rw [if_neg hlt]
      exact .of_none _ fun s hs => absurd hs.2.1 (by have := hs.1; omega)

/-- A value starts below the length. -/
theorem headerValue_lt {len v : ℕ} (hlen : len ≤ buffer.length)
    (h : headerValue buffer len key = v) : v < len := by
  have hlimit : ((len : Int) - key.length).toNat ≤ buffer.length := by omega
  have hlocates := headerValueLoop_locates key hlimit ((len : Int) - key.length).toNat 0 (by omega)
    (.inl rfl)
  rcases exists_isLeast_or {s | 0 ≤ s ∧ s < ((len : Int) - key.length).toNat ∧
      SplitStart buffer s ∧ key <+: buffer.drop s} with ⟨s, hleast⟩ | hnone
  · have hsum : (s : Int) + key.length = v := ((hlocates.found s).mpr hleast).symm.trans h
    have hlt := hleast.1.2.1
    omega
  · have hmissing : (-1 : Int) = v := (hlocates.missing.mpr hnone).symm.trans h
    omega

/-- A key stands where it stood before the lines were split. -/
theorem prefix_map_splitByte (htext : ∀ b ∈ key, ¬ EndsLine b) (header : List UInt8) :
    key <+: header.map splitByte ↔ key <+: header := by
  induction key generalizing header with
  | nil => simp
  | cons a key ih =>
    cases header with
    | nil => simp
    | cons b header =>
      have ha : ¬ EndsLine a := htext a (by simp)
      have hbyte : a = splitByte b ↔ a = b := by
        unfold splitByte
        split_ifs with hb
        · constructor
          · rintro rfl
            exact absurd (.inr (.inr rfl)) ha
          · rintro rfl
            exact absurd (hb.elim (fun h => .inr (.inl h)) .inl) ha
        · rfl
      rw [List.map_cons, List.cons_prefix_cons, List.cons_prefix_cons, hbyte,
        ih fun b hb => htext b (List.mem_cons_of_mem _ hb)]

theorem splitByte_eq_zero_iff (b : UInt8) : splitByte b = 0 ↔ EndsLine b := by
  unfold splitByte EndsLine
  split_ifs with hb
  · exact iff_of_true rfl (hb.elim (fun h => .inr (.inl h)) .inl)
  · constructor
    · exact fun hzero => .inr (.inr hzero)
    · rintro (h | h | h)
      · exact absurd (.inr h) hb
      · exact absurd (.inl h) hb
      · exact h

/-- The line starts of the header, seen behind `split_header`. -/
theorem splitStart_iff (rest : List UInt8) {s : ℕ} (hs : s ≤ header.length) :
    SplitStart (header.map splitByte ++ rest) s ↔ LineStart header s := by
  refine or_congr_right ?_
  have hbyte {j : ℕ} (hj : j < header.length) :
      (header.map splitByte ++ rest).getD j 0 = splitByte header[j] := by
    rw [List.getD_append _ _ _ _ (by simpa using hj), List.getD_eq_getElem _ _ (by simpa using hj),
      List.getElem_map]
  constructor
  · rintro ⟨j, -, rfl, hzero⟩
    rw [hbyte (by omega), splitByte_eq_zero_iff] at hzero
    exact ⟨j, header[j], rfl, List.getElem?_eq_getElem (by omega), hzero⟩
  · rintro ⟨j, b, rfl, hat, hends⟩
    obtain ⟨hj, rfl⟩ := List.getElem?_eq_some_iff.mp hat
    refine ⟨j, ?_, rfl, ?_⟩
    · simp
      omega
    · rw [hbyte hj, splitByte_eq_zero_iff]
      exact hends

/-- A key has the last byte of the header behind it. -/
theorem OccursAt.lt_of_last {s : ℕ} (hat : OccursAt header key s) (hne : key ≠ [])
    (htext : ∀ b ∈ key, ¬ EndsLine b) {last : UInt8} (hlast : header.getLast? = some last)
    (hends : EndsLine last) : s + key.length < header.length := by
  obtain ⟨hle, htake⟩ := hat
  refine lt_of_le_of_ne hle fun heq => ?_
  have hdrop : (header.drop s).take key.length = header.drop s :=
    List.take_of_length_le (by rw [List.length_drop]; omega)
  have hpos := List.length_pos_iff.mpr hne
  have hkey : key.getLast? = some last := by
    rw [← hlast, ← htake, hdrop, List.getLast?_drop, if_neg (by omega)]
  exact htext last (List.mem_of_getLast? hkey) hends

/-- `header_value` behind `split_header`: the first line start at which the key stands, and a
zero in the header behind the value.  No byte outside the header is touched. -/
theorem headerValue_locates (front header rest key : List UInt8)
    (hlast : header.getLast? = some LF ∨ header.getLast? = some 0) (hne : key ≠ [])
    (htext : ∀ b ∈ key, b ≠ CR ∧ b ≠ LF ∧ b ≠ 0) :
    ∃ value, Returns (Memory.Inside front.length header.length)
        (do
          Memory.splitHeader front.length header.length
          Memory.headerValue front.length header.length key)
        (front ++ (header ++ rest)) value (front ++ (header.map splitByte ++ rest)) ∧
      Locates (keyLines header key) key.length value ∧
      ∀ v : ℕ, value = v → ∃ z, v ≤ z ∧ z < header.length ∧
        (header.map splitByte)[z]? = some 0 := by
  have hends : ∃ last, header.getLast? = some last ∧ EndsLine last := by
    rcases hlast with h | h
    · exact ⟨LF, h, .inr (.inl rfl)⟩
    · exact ⟨0, h, .inr (.inr rfl)⟩
  obtain ⟨last, hlast, hends⟩ := hends
  have htext' : ∀ b ∈ key, ¬ EndsLine b := fun b hb h =>
    h.elim (htext b hb).1 fun h => h.elim (htext b hb).2.1 (htext b hb).2.2
  have hzero : 0 ∉ key := fun h => (htext 0 h).2.2 rfl
  have hpos : 0 < header.length := List.length_pos_iff.mpr fun h => by simp [h] at hlast
  have hat : (header.map splitByte)[header.length - 1]? = some 0 := by
    rw [List.getElem?_map, ← List.getLast?_eq_getElem?, hlast, Option.map_some,
      (splitByte_eq_zero_iff last).mpr hends]
  have hfits : front.length + header.length ≤ (front ++ (header ++ rest)).length := by simp
  have hsplit := Memory.splitHeader_returns hfits
  rw [splitHeader_append] at hsplit
  have hfits' : front.length + header.length ≤
      (front ++ (header.map splitByte ++ rest)).length := by simp
  have hend : (front ++ (header.map splitByte ++ rest)).getD
      (front.length + header.length - 1) 0 = 0 := by
    rw [Nat.add_sub_assoc hpos, ← Memory.getD_drop, List.drop_left, List.getD_append _ _ _ _
      (by rw [List.length_map]; omega), List.getD_eq_getElem?_getD, hat]
    rfl
  have hvalue := Memory.headerValue_returns hzero hpos hend hfits'
  rw [List.drop_left] at hvalue
  have hlimit : ((header.length : Int) - key.length).toNat ≤
      (header.map splitByte ++ rest).length := by
    rw [List.length_append, List.length_map]
    omega
  have hlocates := headerValueLoop_locates key hlimit
    ((header.length : Int) - key.length).toNat 0 (by omega) (.inl rfl)
  have hsame : {s | 0 ≤ s ∧ s < ((header.length : Int) - key.length).toNat ∧
      SplitStart (header.map splitByte ++ rest) s ∧
        key <+: (header.map splitByte ++ rest).drop s} = keyLines header key := by
    ext s
    have hoccurs : OccursAt (header.map splitByte) key s ↔ OccursAt header key s := by
      rw [occursAt_iff [], occursAt_iff [], List.append_nil, List.append_nil, List.length_map,
        ← List.map_drop, prefix_map_splitByte htext']
    constructor
    · rintro ⟨-, hlt, hs, hkey⟩
      exact ⟨(splitStart_iff rest (by omega)).mp hs,
        hoccurs.mp ((occursAt_iff rest).mpr ⟨by simp; omega, hkey⟩)⟩
    · rintro ⟨hs, hkey⟩
      have hlt := hkey.lt_of_last hne htext' hlast hends
      exact ⟨Nat.zero_le _, by omega, (splitStart_iff rest (by omega)).mpr hs,
        ((occursAt_iff rest).mp (hoccurs.mpr hkey)).2⟩
  rw [hsame] at hlocates
  refine ⟨_, hsplit.bind hvalue, hlocates, fun v hv => ?_⟩
  refine ⟨header.length - 1, ?_, by omega, hat⟩
  rcases exists_isLeast_or (keyLines header key) with ⟨s, hleast⟩ | hnone
  · have hfound := (hlocates.found s).mpr hleast
    have hlt := hleast.1.2.lt_of_last hne htext' hlast hends
    have hsum : (s : Int) + key.length = v := hfound.symm.trans hv
    omega
  · have hmissing : (-1 : Int) = v := (hlocates.missing.mpr hnone).symm.trans hv
    omega

end Keys

/-- A blank line, and a line with the key. -/
theorem headerValue_locates_key :
    ∃ value, Returns (Memory.Inside 1 7)
        (do
          Memory.splitHeader (1 : ℕ) 7
          Memory.headerValue (1 : ℕ) (7 : ℕ) [97, 58])
        ([1] ++ ([CR, LF, LF, 97, 58, 98, LF] ++ [2])) value
        ([1] ++ ([CR, LF, LF, 97, 58, 98, LF].map splitByte ++ [2])) ∧
      Locates (keyLines [CR, LF, LF, 97, 58, 98, LF] [97, 58]) 2 value ∧
      ∀ v : ℕ, value = v → ∃ z, v ≤ z ∧ z < 7 ∧
        ([CR, LF, LF, 97, 58, 98, LF].map splitByte)[z]? = some 0 :=
  headerValue_locates [1] [CR, LF, LF, 97, 58, 98, LF] [2] [97, 58] (.inl rfl) (by decide)
    (by simp [CR, LF])

end EthTransfer
