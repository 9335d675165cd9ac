import Mathlib.Data.Set.Basic
import Mathlib.Order.Basic

/-!
# The frontier of a covered set

A receiver that collects pieces of a stream in any order holds a set of covered
positions.  Everything below the first uncovered position can be handed on.
`IsFrontier s w f` says that `f` is that position, looking from `w` up.

The frontier depends on the covered set only, so it does not remember the order
in which the pieces arrived (`IsFrontier.unique`), it moves up when the set
grows (`IsFrontier.mono`), and it can be computed in stages
(`IsFrontier.trans`).
-/

namespace Frontier

variable {α : Type*} [LinearOrder α]

/-- `f` is the least position at or above `w` that `s` does not cover. -/
structure IsFrontier (s : Set α) (w f : α) : Prop where
  le : w ≤ f
  covered : ∀ p, w ≤ p → p < f → p ∈ s
  gap : f ∉ s

variable {s t : Set α} {w f g m x : α}

/-- Whatever is covered from `w` to `x` lies below the frontier. -/
theorem IsFrontier.le_of_covered (h : IsFrontier s w f)
    (hx : ∀ p, w ≤ p → p < x → p ∈ s) : x ≤ f := by
  by_contra hlt
  exact h.gap (hx f h.le (not_le.mp hlt))

/-- A larger set has a frontier at least as high. -/
theorem IsFrontier.mono (hst : s ⊆ t) (hf : IsFrontier s w f)
    (hg : IsFrontier t w g) : f ≤ g :=
  hg.le_of_covered fun p hwp hpf => hst (hf.covered p hwp hpf)

/-- The frontier of a set is unique. -/
theorem IsFrontier.unique (hf : IsFrontier s w f) (hg : IsFrontier s w g) : f = g :=
  le_antisymm (hf.mono subset_rfl hg) (hg.mono subset_rfl hf)

/-- Only the positions from `w` up matter. -/
theorem IsFrontier.congr (hst : ∀ p, w ≤ p → (p ∈ s ↔ p ∈ t))
    (hf : IsFrontier s w f) : IsFrontier t w f where
  le := hf.le
  covered p hwp hpf := (hst p hwp).mp (hf.covered p hwp hpf)
  gap hft := hf.gap ((hst f hf.le).mpr hft)

/-- A frontier of a larger set can be reached in two stages. -/
theorem IsFrontier.trans (hst : ∀ p, w ≤ p → p ∈ s → p ∈ t)
    (hm : IsFrontier s w m) (hf : IsFrontier t m f) : IsFrontier t w f where
  le := hm.le.trans hf.le
  covered p hwp hpf := by
    rcases lt_or_ge p m with hpm | hmp
    · exact hst p hwp (hm.covered p hwp hpm)
    · exact hf.covered p hmp hpf
  gap := hf.gap

/-- Two sets have the same frontier exactly when neither covers the frontier of
the other. -/
theorem IsFrontier.eq_iff (hf : IsFrontier s w f) (hg : IsFrontier t w g) :
    f = g ↔ f ∉ t ∧ g ∉ s := by
  constructor
  · intro h
    subst h
    exact ⟨hg.gap, hf.gap⟩
  · intro h
    rcases lt_trichotomy f g with hlt | heq | hgt
    · exact absurd (hg.covered f hf.le hlt) h.1
    · exact heq
    · exact absurd (hf.covered g hg.le hgt) h.2

/-- A frontier that does not move is its own starting point. -/
theorem IsFrontier.self (hw : w ∉ s) : IsFrontier s w w where
  le := le_rfl
  covered _ hwp hpw := absurd hwp (not_le.mpr hpw)
  gap := hw

end Frontier
