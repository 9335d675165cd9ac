import Mathlib.Data.Nat.Basic

/-!
# Programs with a state

A program of `StateT σ (Except ε)` takes a state and returns, in a new state, or stops for a
reason.  A program with loops takes a bound on the turns of each loop as well, and stops
when a loop needs more turns.

* A `Discipline` says which states a program may start from, how the state in which it
  returns is related to the first one, and which reasons to stop are allowed.  In the states
  of `live` every loop ends.
* `Runs` is the judgement: the program keeps the discipline with every bound, and with a
  large enough one it returns from every live state.
* The rules follow the syntax: `Runs.pure`, `Runs.seq`, `Runs.whileDo`.
-/

namespace Program

variable {σ α β ε : Type}

/-- From a state in `P` the program returns in a state that `R` relates to the first one, or
stops for a reason in `E`. -/
def Keeps (P : σ → Prop) (R : σ → σ → Prop) (E : ε → Prop) (m : StateT σ (Except ε) α) : Prop :=
  ∀ s, P s → match m s with
    | .ok (_, s') => R s s'
    | .error e => E e

/-- With a large enough bound the program returns `a` in the state `s'`. -/
def Ends (m : ℕ → StateT σ (Except ε) α) (s : σ) (a : α) (s' : σ) : Prop :=
  ∃ n₀, ∀ n ≥ n₀, m n s = .ok (a, s')

/-- The states from which a program may start, those from which its loops end, the relation
of the last state to the first one, and the reasons to stop. -/
structure Discipline (σ ε : Type) where
  inv : σ → Prop
  live : σ → Prop
  rel : σ → σ → Prop
  stops : ε → Prop
  refl : ∀ s, rel s s
  trans : ∀ {s s' s''}, rel s s' → rel s' s'' → rel s s''
  inv_stable : ∀ {s s'}, inv s → rel s s' → inv s'
  live_stable : ∀ {s s'}, live s → rel s s' → live s'

/-- The program keeps the discipline, whatever the bound, and it returns from the live
states. -/
structure Runs (D : Discipline σ ε) (m : ℕ → StateT σ (Except ε) α) : Prop where
  keeps : ∀ n, Keeps D.inv D.rel D.stops (m n)
  ends : ∀ s, D.inv s → D.live s → ∃ a s', D.rel s s' ∧ Ends m s a s'

section Rules

variable {D : Discipline σ ε}

theorem bind_ok {m : StateT σ (Except ε) α} {f : α → StateT σ (Except ε) β} {s s' : σ} {a : α}
    (h : m s = .ok (a, s')) : (m >>= f) s = f a s' := by
  show (m s >>= fun p => f p.1 p.2) = f a s'
  rw [h]
  rfl

theorem bind_error {m : StateT σ (Except ε) α} {f : α → StateT σ (Except ε) β} {s : σ} {e : ε}
    (h : m s = .error e) : (m >>= f) s = .error e := by
  show (m s >>= fun p => f p.1 p.2) = .error e
  rw [h]
  rfl

/-- What a program that keeps the discipline does. -/
theorem Keeps.cases {P : σ → Prop} {R : σ → σ → Prop} {E : ε → Prop}
    {m : StateT σ (Except ε) α} (h : Keeps P R E m) {s : σ} (hs : P s) :
    (∃ a s', m s = .ok (a, s') ∧ R s s') ∨ ∃ e, m s = .error e ∧ E e := by
  have hcase := h s hs
  cases hrun : m s with
  | ok result =>
    rw [hrun] at hcase
    exact Or.inl ⟨result.1, result.2, rfl, hcase⟩
  | error e =>
    rw [hrun] at hcase
    exact Or.inr ⟨e, rfl, hcase⟩

theorem Keeps.of_ok {P : σ → Prop} {R : σ → σ → Prop} {E : ε → Prop}
    {m : StateT σ (Except ε) α} (h : Keeps P R E m) {s s' : σ} {a : α} (hs : P s)
    (hrun : m s = .ok (a, s')) : R s s' := by
  have hcase := h s hs
  rwa [hrun] at hcase

/-- A program without loops that always returns. -/
theorem Runs.of_returns {m : StateT σ (Except ε) α}
    (h : ∀ s, D.inv s → ∃ a s', m s = .ok (a, s') ∧ D.rel s s') : Runs D fun _ => m where
  keeps _ s hs := by
    obtain ⟨a, s', hrun, hrel⟩ := h s hs
    rwa [hrun]
  ends s hs _ := by
    obtain ⟨a, s', hrun, hrel⟩ := h s hs
    exact ⟨a, s', hrel, 0, fun _ _ => hrun⟩

theorem Runs.pure (a : α) : Runs D fun _ => (Pure.pure a : StateT σ (Except ε) α) :=
  .of_returns fun s _ => ⟨a, s, rfl, D.refl s⟩

/-- One program after the other. -/
theorem Runs.seq {m : ℕ → StateT σ (Except ε) α} {f : ℕ → α → StateT σ (Except ε) β}
    (hm : Runs D m) (hf : ∀ a, Runs D fun n => f n a) : Runs D fun n => m n >>= f n where
  keeps n s hs := by
    rcases (hm.keeps n).cases hs with ⟨a, s', hrun, hrel⟩ | ⟨e, hrun, hstop⟩
    · have hs' := D.inv_stable hs hrel
      rw [bind_ok hrun]
      rcases ((hf a).keeps n).cases hs' with ⟨b, s'', hrun', hrel'⟩ | ⟨e, hrun', hstop⟩
      · rw [hrun']
        exact D.trans hrel hrel'
      · rwa [hrun']
    · rwa [bind_error hrun]
  ends s hs hlive := by
    obtain ⟨a, s', hrel, n₁, hrun⟩ := hm.ends s hs hlive
    obtain ⟨b, s'', hrel', n₂, hrun'⟩ :=
      (hf a).ends s' (D.inv_stable hs hrel) (D.live_stable hlive hrel)
    refine ⟨b, s'', D.trans hrel hrel', max n₁ n₂, fun n hn => ?_⟩
    refine (bind_ok (hrun n (le_trans (le_max_left n₁ n₂) hn))).trans ?_
    exact hrun' n (le_trans (le_max_right n₁ n₂) hn)

/-- One of two programs. -/
theorem Runs.ite {c : Prop} [Decidable c] {m m' : ℕ → StateT σ (Except ε) α} (hm : c → Runs D m)
    (hm' : ¬ c → Runs D m') : Runs D fun n => if c then m n else m' n := by
  by_cases hc : c
  · simpa only [if_pos hc] using hm hc
  · simpa only [if_neg hc] using hm' hc

/-- A program keeps every discipline that asks for more at the start and for less at the
end. -/
theorem Runs.mono {D' : Discipline σ ε} {m : ℕ → StateT σ (Except ε) α} (h : Runs D m)
    (hinv : ∀ s, D'.inv s → D.inv s) (hlive : ∀ s, D'.inv s → D'.live s → D.live s)
    (hrel : ∀ s s', D'.inv s → D.rel s s' → D'.rel s s') (hstops : ∀ e, D.stops e → D'.stops e) :
    Runs D' m where
  keeps n s hs := by
    rcases (h.keeps n).cases (hinv s hs) with ⟨a, s', hrun, hr⟩ | ⟨e, hrun, hstop⟩
    · rw [hrun]
      exact hrel s s' hs hr
    · rw [hrun]
      exact hstops e hstop
  ends s hs hl := by
    obtain ⟨a, s', hr, hends⟩ := h.ends s (hinv s hs) (hlive s hs hl)
    exact ⟨a, s', hrel s s' hs hr, hends⟩

end Rules

/-! ## Loops -/

section Loops

variable {D : Discipline σ ε}

/-- `while (test) {}`, with a bound on the number of turns. -/
def whileDo (test : StateT σ (Except ε) Bool) (gaveUp : ε) : (turns : ℕ) → StateT σ (Except ε) Unit
  | 0 => throw gaveUp
  | turns + 1 => do
    if ← test then whileDo test gaveUp turns

/-- After some turns the test fails. -/
inductive Settles (test : StateT σ (Except ε) Bool) : σ → Prop
  | now {s s' : σ} (hrun : test s = .ok (false, s')) : Settles test s
  | later {s s' : σ} (hrun : test s = .ok (true, s')) (h : Settles test s') : Settles test s

variable {test : StateT σ (Except ε) Bool} {gaveUp : ε}

theorem whileDo_of_false {s s' : σ} (hrun : test s = .ok (false, s')) (turns : ℕ) :
    whileDo test gaveUp (turns + 1) s = .ok ((), s') := by
  rw [whileDo, bind_ok hrun]
  rfl

theorem whileDo_of_true {s s' : σ} (hrun : test s = .ok (true, s')) (turns : ℕ) :
    whileDo test gaveUp (turns + 1) s = whileDo test gaveUp turns s' := by
  rw [whileDo, bind_ok hrun]
  rfl

/-- A loop keeps the discipline of its test, and it ends where the test settles. -/
theorem Runs.whileDo (htest : Runs D fun _ => test) (hstops : D.stops gaveUp)
    (hsettles : ∀ s, D.inv s → D.live s → Settles test s) :
    Runs D fun n => whileDo test gaveUp n where
  keeps n := by
    induction n with
    | zero => exact fun s _ => hstops
    | succ n ih =>
      intro s hs
      rcases (htest.keeps n).cases hs with ⟨a, s', hrun, hrel⟩ | ⟨e, hrun, hstop⟩
      · cases a with
        | true =>
          rw [whileDo_of_true hrun]
          rcases ih.cases (D.inv_stable hs hrel) with ⟨a, s'', hrun', hrel'⟩ | ⟨e, hrun', hstop⟩
          · rw [hrun']
            exact D.trans hrel hrel'
          · rwa [hrun']
        | false => rwa [whileDo_of_false hrun]
      · rw [Program.whileDo, bind_error hrun]
        exact hstop
  ends s hs hlive := by
    have hsettle := hsettles s hs hlive
    induction hsettle with
    | now hrun =>
      refine ⟨(), _, (htest.keeps 0).of_ok hs hrun, 1, fun n hn => ?_⟩
      obtain ⟨turns, rfl⟩ := Nat.exists_eq_add_of_le' hn
      exact whileDo_of_false hrun turns
    | later hrun _ ih =>
      have hrel := (htest.keeps 0).of_ok hs hrun
      obtain ⟨a, s'', hrel', n₀, hends⟩ :=
        ih (D.inv_stable hs hrel) (D.live_stable hlive hrel)
      refine ⟨a, s'', D.trans hrel hrel', n₀ + 1, fun n hn => ?_⟩
      obtain ⟨turns, rfl⟩ := Nat.exists_eq_add_of_le' (show 1 ≤ n by omega)
      exact (whileDo_of_true hrun turns).trans (hends turns (by omega))

end Loops

end Program
