import Mathlib.Data.List.GetD
import Mathlib.Data.List.TakeWhile

/-!
# Bounded searches and strings in memory

`first n f` is the answer of a loop that tries `f 0`, `f 1` and so on below `n` and
stops at the first answer.

* `first_eq_some_iff` and `first_eq_none_iff`: what such a loop finds.
* `first_congr`: only what is tried counts.

`infix_append_cons_iff` and `infix_append_of_disjoint` say where a string can lie in a list
with elements that it does not have, and `length_le_of_first` that a part of a list that
ends with the first occurrence of a string is as short as can be.

`cString` is the string that starts at a place of a block of bytes, up to the first
zero.  `cString_append` gives it when the zero is known, and `cString_append_right` says
that what lies behind the zero does not count.
-/

namespace Search

variable {α : Type*}

/-! ## Loops with an early return -/

/-- The first answer of `f` below `n`. -/
def first (n : ℕ) (f : ℕ → Option α) : Option α := (List.range n).findSome? f

theorem first_succ (n : ℕ) (f : ℕ → Option α) : first (n + 1) f = (first n f).or (f n) := by
  simp [first, List.range_succ]

theorem first_eq_none_iff {n : ℕ} {f : ℕ → Option α} :
    first n f = none ↔ ∀ i < n, f i = none := by
  simp [first]

theorem first_eq_some_iff {n : ℕ} {f : ℕ → Option α} {a : α} :
    first n f = some a ↔ ∃ i < n, f i = some a ∧ ∀ j < i, f j = none := by
  induction n with
  | zero => simp [first]
  | succ n ih =>
    rw [first_succ]
    cases hfirst : first n f with
    | some b =>
      rw [Option.some_or, ← hfirst, ih]
      constructor
      · rintro ⟨i, hi, h⟩
        exact ⟨i, by omega, h⟩
      · rintro ⟨i, hi, hfi, hnone⟩
        refine ⟨i, ?_, hfi, hnone⟩
        by_contra hge
        have hall : ∀ j < n, f j = none := fun j hj => hnone j (by omega)
        simp [first_eq_none_iff.mpr hall] at hfirst
    | none =>
      rw [Option.none_or]
      have hall := first_eq_none_iff.mp hfirst
      constructor
      · intro hfn
        exact ⟨n, by omega, hfn, hall⟩
      · rintro ⟨i, hi, hfi, -⟩
        rcases Nat.lt_succ_iff_lt_or_eq.mp hi with hlt | rfl
        · simp [hall i hlt] at hfi
        · exact hfi

theorem first_congr {n : ℕ} {f g : ℕ → Option α} (h : ∀ i < n, f i = g i) :
    first n f = first n g := by
  induction n with
  | zero => rfl
  | succ n ih => rw [first_succ, first_succ, ih fun i hi => h i (by omega), h n (by omega)]

/-! ## Loops over a list -/

/-- How far a loop gets over a list before an element stops it. -/
def reach (stops : α → Bool) (l : List α) : ℕ := (l.takeWhile fun a => !stops a).length

section Reach

variable {stops : α → Bool} {l : List α} {d : α}

theorem not_stops_of_lt_reach {j : ℕ} (hj : j < reach stops l) : stops (l.getD j d) = false := by
  have hfront := List.takeWhile_prefix (l := l) fun a => !stops a
  have hlt : j < l.length := lt_of_lt_of_le hj hfront.length_le
  have hall := List.mem_takeWhile_imp (List.getElem_mem hj)
  rw [hfront.getElem hj] at hall
  rw [List.getD_eq_getElem _ _ hlt]
  simpa using hall

theorem stops_reach (hlt : reach stops l < l.length) : stops (l.getD (reach stops l) d) = true := by
  set front := l.takeWhile fun a => !stops a with hfront
  set back := l.dropWhile fun a => !stops a with hback
  have hsplit : front ++ back = l := List.takeWhile_append_dropWhile
  have hreach : reach stops l = front.length := rfl
  have hne : back ≠ [] := by
    intro hnil
    rw [hnil, List.append_nil] at hsplit
    rw [hreach, hsplit] at hlt
    exact lt_irrefl _ hlt
  obtain ⟨a, rest, hcons⟩ := List.exists_cons_of_ne_nil hne
  have hhead := List.head_dropWhile_not (fun a => !stops a) (l := l) (by rwa [← hback])
  simp only [← hback, hcons] at hhead
  have hat : (front ++ a :: rest).getD front.length d = a := by
    rw [List.getD_append_right _ _ _ _ le_rfl, Nat.sub_self]
    rfl
  rw [← hcons, hsplit, ← hreach] at hat
  rw [hat]
  simpa using hhead

/-- A bounded loop over a list finds the element that stops it. -/
theorem first_getD (stops : α → Bool) (d : α) {n : ℕ} (hn : n ≤ l.length) :
    first n (fun i => if stops (l.getD i d) then some i else none) =
      if reach stops l < n then some (reach stops l) else none := by
  split_ifs with hlt
  · refine first_eq_some_iff.mpr ⟨reach stops l, hlt, if_pos (stops_reach (by omega)), ?_⟩
    exact fun j hj => if_neg (ne_true_of_eq_false (not_stops_of_lt_reach hj))
  · refine first_eq_none_iff.mpr fun j hj => if_neg (ne_true_of_eq_false ?_)
    exact not_stops_of_lt_reach (by omega)

end Reach

/-! ## Strings -/

/-- A string that starts with another one does so before its end. -/
theorem prefix_append_cons_iff {zero : α} {key s rest : List α} (hkey : zero ∉ key) :
    key <+: s ++ zero :: rest ↔ key <+: s := by
  constructor
  · intro hstarts
    have hs : s ++ [zero] <+: s ++ zero :: rest := by
      rw [List.prefix_append_right_inj]
      exact List.prefix_append [zero] rest
    rcases List.prefix_or_prefix_of_prefix hstarts hs with hle | hge
    · rcases List.prefix_concat_iff.mp hle with rfl | hle
      · simp at hkey
      · exact hle
    · exact absurd (hge.subset (by simp)) hkey
  · exact fun hstarts => hstarts.trans (List.prefix_append _ _)

/-- A string without `a` lies on one side of `a`. -/
theorem infix_append_cons_iff {a : α} {key s rest : List α} (hkey : a ∉ key) :
    key <:+: s ++ a :: rest ↔ key <:+: s ∨ key <:+: rest := by
  induction s with
  | nil =>
    rw [List.nil_append, List.infix_cons_iff, ← List.nil_append (a :: rest),
      prefix_append_cons_iff hkey, List.prefix_nil, List.infix_nil]
  | cons b s ih =>
    rw [List.cons_append, List.infix_cons_iff, ih, ← List.cons_append, prefix_append_cons_iff hkey,
      List.infix_cons_iff, or_assoc]

/-- A string has no part in a list without its elements. -/
theorem infix_append_of_disjoint {key s rest : List α} (hkey : key ≠ [])
    (hdisjoint : ∀ a ∈ s, a ∉ key) : key <:+: s ++ rest ↔ key <:+: rest := by
  induction s with
  | nil => rfl
  | cons a s ih =>
    have hstarts : ¬ key <+: a :: (s ++ rest) := by
      intro hstarts
      obtain ⟨b, tail, rfl⟩ := List.exists_cons_of_ne_nil hkey
      have hab : b = a := (List.cons_prefix_cons.mp hstarts).1
      exact hdisjoint a (by simp) (by simp [hab])
    rw [List.cons_append, List.infix_cons_iff, or_iff_right hstarts]
    exact ih fun b hb => hdisjoint b (by simp [hb])

/-- What ends with `key`, and has it at no earlier place, is as short as can be. -/
theorem length_le_of_first {key front back first last : List α}
    (hsplit : front ++ back = first ++ last) (hends : key <:+ front)
    (hfirst : ¬ key <:+: first.dropLast) : first.length ≤ front.length := by
  by_contra hlt
  have hfront : front <+: first.dropLast := by
    have hle : front <+: first := by
      have hwhole : front <+: first ++ last := by
        rw [← hsplit]
        exact List.prefix_append _ _
      exact List.prefix_of_prefix_length_le hwhole (List.prefix_append _ _) (by omega)
    rw [List.dropLast_eq_take]
    exact List.prefix_take_iff.mpr ⟨hle, by omega⟩
  exact hfirst (hends.isInfix.trans hfront.isInfix)

section Strings

variable [DecidableEq α]

/-- The elements from place `p` on, up to the first `zero`; `none` when there is no
`zero` behind `p`. -/
def cString (zero : α) (block : List α) (p : ℕ) : Option (List α) :=
  if zero ∈ block.drop p then some ((block.drop p).takeWhile (· ≠ zero)) else none

variable {zero : α} {s front rest : List α}

/-- The part of a list before the first `zero`. -/
theorem takeWhile_append_cons (hs : zero ∉ s) :
    (s ++ zero :: rest).takeWhile (· ≠ zero) = s := by
  have hall : ∀ x ∈ s, decide (x ≠ zero) = true := fun x hx =>
    decide_eq_true (ne_of_mem_of_not_mem hx hs)
  rw [List.takeWhile_append_of_pos hall, List.takeWhile_cons_of_neg (by simp), List.append_nil]

theorem takeWhile_append_cons_eq (s rest : List α) :
    (s ++ zero :: rest).takeWhile (· ≠ zero) = s.takeWhile (· ≠ zero) := by
  induction s with
  | nil => simp
  | cons a s ih =>
    rw [List.cons_append, List.takeWhile_cons, List.takeWhile_cons, ih]

/-- A string that stands in the block. -/
theorem cString_append (hs : zero ∉ s) {p : ℕ} (hp : p = front.length) :
    cString zero (front ++ (s ++ zero :: rest)) p = some s := by
  have hmem : zero ∈ s ++ zero :: rest := by simp
  rw [cString, hp, List.drop_left, if_pos hmem, takeWhile_append_cons hs]

/-- What lies behind a zero does not count. -/
theorem cString_append_right {block : List α} {p : ℕ} (hzero : zero ∈ block.drop p) :
    cString zero (block ++ rest) p = cString zero block p := by
  have hle : p ≤ block.length := by
    by_contra hlt
    simp [List.drop_eq_nil_of_le (show block.length ≤ p by omega)] at hzero
  have hstops : ¬ ((block.drop p).takeWhile (· ≠ zero)).length = (block.drop p).length := by
    intro hlength
    have hself := (List.takeWhile_prefix (p := (· ≠ zero)) (l := block.drop p)).eq_of_length hlength
    simpa using List.takeWhile_eq_self_iff.mp hself zero hzero
  rw [cString, cString, List.drop_append_of_le_length hle, if_pos (by simp [hzero]), if_pos hzero,
    List.takeWhile_append, if_neg hstops]

end Strings

end Search
