import EthTransfer.Lib.Program

/-!
# Programs that return

`Returns P m Q` is a triple for total correctness: from a state in `P` the program returns,
once the bound on the turns of its loops is large enough, with a result and in a state that
are in `Q`.  The rules follow the syntax, and `Returns.whileDo` asks for a number that gets
smaller from turn to turn.
-/

namespace Program

variable {σ α β ε : Type}

/-- From every state in `P` the program returns, and `Q` holds of what it returns and of the
state after it. -/
def Returns (P : σ → Prop) (m : ℕ → StateT σ (Except ε) α) (Q : α → σ → Prop) : Prop :=
  ∀ s, P s → ∃ a s', Ends m s a s' ∧ Q a s'

namespace Returns

variable {P : σ → Prop} {m : ℕ → StateT σ (Except ε) α} {Q : α → σ → Prop}

/-- A program without loops. -/
theorem of_ok {m : StateT σ (Except ε) α}
    (h : ∀ s, P s → ∃ a s', m s = .ok (a, s') ∧ Q a s') : Returns P (fun _ => m) Q := by
  intro s hs
  obtain ⟨a, s', hrun, hq⟩ := h s hs
  exact ⟨a, s', ⟨0, fun _ _ => hrun⟩, hq⟩

theorem pure (a : α) :
    Returns (Q a) (fun _ => (Pure.pure a : StateT σ (Except ε) α)) Q :=
  of_ok fun s hs => ⟨a, s, rfl, hs⟩

/-- One program after the other. -/
theorem seq {f : ℕ → α → StateT σ (Except ε) β} {R : β → σ → Prop} (hm : Returns P m Q)
    (hf : ∀ a, Returns (Q a) (fun n => f n a) R) : Returns P (fun n => m n >>= f n) R := by
  intro s hs
  obtain ⟨a, s', ⟨n₁, hrun⟩, hq⟩ := hm s hs
  obtain ⟨b, s'', ⟨n₂, hrun'⟩, hr⟩ := hf a s' hq
  refine ⟨b, s'', ⟨max n₁ n₂, fun n hn => ?_⟩, hr⟩
  refine (bind_ok (hrun n (le_trans (le_max_left n₁ n₂) hn))).trans ?_
  exact hrun' n (le_trans (le_max_right n₁ n₂) hn)

/-- One of two programs. -/
theorem ite {c : Prop} [Decidable c] {m' : ℕ → StateT σ (Except ε) α}
    (hm : c → Returns P m Q) (hm' : ¬ c → Returns P m' Q) :
    Returns P (fun n => if c then m n else m' n) Q := by
  by_cases hc : c
  · simpa only [if_pos hc] using hm hc
  · simpa only [if_neg hc] using hm' hc

/-- More at the start and less at the end. -/
theorem mono {P' : σ → Prop} {Q' : α → σ → Prop} (h : Returns P m Q) (hp : ∀ s, P' s → P s)
    (hq : ∀ a s, Q a s → Q' a s) : Returns P' m Q' := by
  intro s hs
  obtain ⟨a, s', hends, hpost⟩ := h s (hp s hs)
  exact ⟨a, s', hends, hq a s' hpost⟩

theorem weaken {Q' : α → σ → Prop} (h : Returns P m Q) (hq : ∀ a s, Q a s → Q' a s) :
    Returns P m Q' :=
  h.mono (fun _ hs => hs) hq

/-- What is known of the first state may be used. -/
theorem assume {φ : Prop} (h : φ → Returns P m Q) : Returns (fun s => φ ∧ P s) m Q :=
  fun s hs => h hs.1 s hs.2

/-- A value that is not in the program. -/
theorem ghost {ι : Type} {P : ι → σ → Prop} (h : ∀ x, Returns (P x) m Q) :
    Returns (fun s => ∃ x, P x s) m Q := by
  rintro s ⟨x, hs⟩
  exact h x s hs

/-- What the postcondition says may depend on the first state. -/
theorem pointwise (h : ∀ s, P s → Returns (fun s' => s' = s) m Q) : Returns P m Q :=
  fun s hs => h s hs s rfl

/-- From one state it is the program that returns so. -/
theorem ends {s : σ} (h : Returns (fun s' => s' = s) m Q) :
    Returns (fun s' => s' = s) m fun a s' => Ends m s a s' ∧ Q a s' := by
  rintro s' rfl
  obtain ⟨a, s'', hends, hq⟩ := h s' rfl
  exact ⟨a, s'', hends, hends, hq⟩

/-- A loop whose test brings down a number as long as it succeeds. -/
theorem whileDo {test : StateT σ (Except ε) Bool} {gaveUp : ε} {I : ℕ → σ → Prop}
    {R : σ → Prop}
    (h : ∀ k s, I k s → (∃ s', test s = .ok (false, s') ∧ R s') ∨
      ∃ j < k, ∃ s', test s = .ok (true, s') ∧ I j s') :
    Returns (fun s => ∃ k, I k s) (fun turns => Program.whileDo test gaveUp turns)
      fun _ s => R s := by
  rintro s ⟨k, hs⟩
  induction k using Nat.strong_induction_on generalizing s with
  | _ k ih =>
    rcases h k s hs with ⟨s', hrun, hr⟩ | ⟨j, hlt, s', hrun, hnext⟩
    · refine ⟨(), s', ⟨1, fun n hn => ?_⟩, hr⟩
      obtain ⟨turns, rfl⟩ := Nat.exists_eq_add_of_le' hn
      exact whileDo_of_false hrun turns
    · obtain ⟨_, s'', ⟨n₀, hends⟩, hr⟩ := ih j hlt s' hnext
      refine ⟨(), s'', ⟨n₀ + 1, fun n hn => ?_⟩, hr⟩
      obtain ⟨turns, rfl⟩ := Nat.exists_eq_add_of_le' (show 1 ≤ n by omega)
      exact (whileDo_of_true hrun turns).trans (hends turns (by omega))

end Returns

end Program
