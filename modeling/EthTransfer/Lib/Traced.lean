import EthTransfer.Lib.Search

/-!
# Programs that leave a trace

A program of `Traced` works on a state and leaves a list of events.  It returns a value and a
new state, or it stops, and then the events up to there remain.

* `Returns P m s a s'`: from `s` the program returns `a` in the state `s'`, and each event on
  the way satisfies `P`.  The rules follow the syntax: `Returns.pure`, `Returns.bind`.
* `Emits m s e`: the event `e` is in the trace, whatever comes after it.
* `firstFrom` is a loop with an early return.  `Returns.firstFrom` says that it computes
  `Search.first`.
-/

/-- A program that takes a state, leaves events, and returns a value in a new state if it does
not stop. -/
def Traced (σ ε α : Type) : Type := σ → List ε × Option (α × σ)

namespace Traced

open Search

variable {σ ε α β : Type}

instance : Monad (Traced σ ε) where
  pure a s := ([], some (a, s))
  bind m f s :=
    match m s with
    | (events, none) => (events, none)
    | (events, some (a, s')) => (events ++ (f a s').1, (f a s').2)

/-- The program stops here. -/
def stop : Traced σ ε α := fun _ => ([], none)

/-- The program returns, and its events satisfy `P`. -/
structure Returns (P : ε → Prop) (m : Traced σ ε α) (s : σ) (a : α) (s' : σ) : Prop where
  result : (m s).2 = some (a, s')
  events : ∀ e ∈ (m s).1, P e

/-- The event is in the trace. -/
def Emits (m : Traced σ ε α) (s : σ) (e : ε) : Prop := e ∈ (m s).1

/-! ## Sequences -/

section Sequences

variable {P Q : ε → Prop} {m : Traced σ ε α} {f : α → Traced σ ε β} {s s' s'' : σ} {a : α} {b : β}

theorem bind_apply (m : Traced σ ε α) (f : α → Traced σ ε β) (s : σ) :
    (m >>= f) s =
      match (m s).2 with
      | none => ((m s).1, none)
      | some (a, s') => ((m s).1 ++ (f a s').1, (f a s').2) := by
  show (match m s with
    | (events, none) => (events, none)
    | (events, some (a, s')) => (events ++ (f a s').1, (f a s').2)) = _
  obtain ⟨events, _ | ⟨a, s'⟩⟩ := m s <;> rfl

theorem bind_of_some (h : (m s).2 = some (a, s')) :
    (m >>= f) s = ((m s).1 ++ (f a s').1, (f a s').2) := by
  rw [bind_apply, h]

theorem bind_of_none (h : (m s).2 = none) : (m >>= f) s = ((m s).1, none) := by
  rw [bind_apply, h]

theorem Returns.pure (P : ε → Prop) (a : α) (s : σ) :
    Returns P (Pure.pure a : Traced σ ε α) s a s where
  result := rfl
  events := by
    intro e he
    cases he

/-- One program after the other. -/
theorem Returns.bind (hm : Returns P m s a s') (hf : Returns P (f a) s' b s'') :
    Returns P (m >>= f) s b s'' where
  result := by
    rw [bind_of_some hm.result]
    exact hf.result
  events := by
    rw [bind_of_some hm.result]
    intro e he
    rcases List.mem_append.mp he with he | he
    · exact hm.events e he
    · exact hf.events e he

theorem Returns.mono (h : Returns P m s a s') (hPQ : ∀ e, P e → Q e) : Returns Q m s a s' :=
  ⟨h.result, fun e he => hPQ e (h.events e he)⟩

/-- A program returns one value. -/
theorem Returns.value_eq (h : Returns P m s a s') {a' : α} (h' : Returns Q m s a' s'') : a = a' :=
  congrArg Prod.fst (Option.some.inj (h.result.symm.trans h'.result))

theorem Emits.bind_left {e : ε} (h : Emits m s e) (f : α → Traced σ ε β) :
    Emits (m >>= f) s e := by
  unfold Emits
  cases hm : (m s).2 with
  | none =>
    rw [bind_of_none hm]
    exact h
  | some result =>
    rw [bind_of_some (show (m s).2 = some (result.1, result.2) from hm)]
    exact List.mem_append_left _ h

theorem Emits.bind_right {e : ε} (hm : (m s).2 = some (a, s')) (h : Emits (f a) s' e) :
    Emits (m >>= f) s e := by
  unfold Emits
  rw [bind_of_some hm]
  exact List.mem_append_right _ h

end Sequences

/-! ## Loops -/

section Loops

variable {P : ε → Prop} {s : σ}

/-- The loop that runs `body` for `i`, `i + 1` and so on, at most `n` times, until it has an
answer. -/
def firstFrom (body : ℕ → Traced σ ε (Option α)) : (n i : ℕ) → Traced σ ε (Option α)
  | 0, _ => pure none
  | n + 1, i => do
    match ← body i with
    | some a => return some a
    | none => firstFrom body n (i + 1)

/-- A body that leaves the state alone is run up to its first answer. -/
theorem Returns.firstFrom {body : ℕ → Traced σ ε (Option α)} {answer : ℕ → Option α} {n : ℕ}
    (hbody : ∀ i < n, (∀ j < i, answer j = none) → Returns P (body i) s (answer i) s) :
    Returns P (Traced.firstFrom body n 0) s (first n answer) s := by
  suffices h : ∀ k i, i + k = n → (∀ j < i, answer j = none) →
      Returns P (Traced.firstFrom body k i) s (first n answer) s from
    h n 0 (Nat.zero_add n) fun j hj => absurd hj (Nat.not_lt_zero j)
  intro k
  induction k with
  | zero =>
    intro i hi hnone
    rw [first_eq_none_iff.mpr fun j hj => hnone j (by omega)]
    exact .pure P none s
  | succ k ih =>
    intro i hi hnone
    have hstep := hbody i (by omega) hnone
    cases hanswer : answer i with
    | some a =>
      rw [first_eq_some_iff.mpr ⟨i, by omega, hanswer, hnone⟩]
      rw [hanswer] at hstep
      exact hstep.bind (.pure P _ s)
    | none =>
      rw [hanswer] at hstep
      refine hstep.bind (ih (i + 1) (by omega) fun j hj => ?_)
      rcases Nat.lt_succ_iff_lt_or_eq.mp hj with hlt | rfl
      · exact hnone j hlt
      · exact hanswer

/-- The body is run for `i`, `i + 1` and so on, `n` times. -/
def forFrom (body : ℕ → Traced σ ε Unit) : (n i : ℕ) → Traced σ ε Unit
  | 0, _ => pure ()
  | n + 1, i => do
    body i
    forFrom body n (i + 1)

/-- The states that the body runs through. -/
theorem Returns.forFrom {body : ℕ → Traced σ ε Unit} {state : ℕ → σ} {n : ℕ}
    (hbody : ∀ i < n, Returns P (body i) (state i) () (state (i + 1))) :
    Returns P (Traced.forFrom body n 0) (state 0) () (state n) := by
  suffices h : ∀ k i, i + k = n → Returns P (Traced.forFrom body k i) (state i) () (state n) from
    h n 0 (Nat.zero_add n)
  intro k
  induction k with
  | zero =>
    rintro i hi
    rw [← hi]
    exact .pure P () _
  | succ k ih => exact fun i hi => (hbody i (by omega)).bind (ih (i + 1) (by omega))

end Loops

end Traced
