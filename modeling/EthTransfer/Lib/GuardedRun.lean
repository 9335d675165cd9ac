import Mathlib.Data.List.Basic
import Mathlib.Data.List.Forall2

/-!
# Guarded runs of a state machine

A machine is a total step function from a state and an event to a state and an
output.  `Run step ok s₀ h s` says that the machine goes from `s₀` to `s`
with history `h`, the list of the events it took and the outputs it gave, and
that every event met the guard `ok` when it was taken.  The guard sees the
history so far and the state, so it can say what an environment does ("only
acknowledges what was sent") as well as what a single step meets.

The rules are `Run.invariant`, one induction for every invariant that relates
a history to a state, and `Run.restrict`, which reads a guard off the end of a
run.  `Always` and `Once` speak about every event and about some event of a
history, each with what came before it.  `Throughout` adds the state that the
event found, and `Run.throughout_iff` turns a fact about single steps, "the step
does what it should exactly when the guard holds", into one about whole runs.
`exec` runs a list of events, and `Run.exec` says when that is a run.
`Run.lockstep` runs two machines side by side.
-/

namespace GuardedRun

variable {σ ε ο : Type*}

/-- What happened in a run: every event with the output it gave. -/
abbrev History (ε ο : Type*) := List (ε × ο)

/-- The runs of `step` from `s₀` whose every event met `ok`. -/
inductive Run (step : σ → ε → σ × ο) (ok : History ε ο → σ → ε → Prop) (s₀ : σ) :
    History ε ο → σ → Prop where
  | start : Run step ok s₀ [] s₀
  | next {h : History ε ο} {s : σ} {e : ε} :
      Run step ok s₀ h s → ok h s e → Run step ok s₀ (h ++ [(e, (step s e).2)]) (step s e).1

variable {step : σ → ε → σ × ο} {ok ok' : History ε ο → σ → ε → Prop} {s₀ s : σ}
  {h : History ε ο}

/-- A property of history and state that holds at the start and that every
step keeps holds at the end of every run.  The step may use that it was taken
in a run. -/
theorem Run.invariant (inv : History ε ο → σ → Prop) (hrun : Run step ok s₀ h s)
    (hstart : inv [] s₀)
    (hstep : ∀ h s e, Run step ok s₀ h s → inv h s → ok h s e →
      inv (h ++ [(e, (step s e).2)]) (step s e).1) : inv h s := by
  induction hrun with
  | start => exact hstart
  | next hr hok ih => exact hstep _ _ _ hr ih hok

/-- A run that meets a guard meets every weaker one. -/
theorem Run.mono (hrun : Run step ok s₀ h s) (hle : ∀ h s e, ok h s e → ok' h s e) :
    Run step ok' s₀ h s := by
  induction hrun with
  | start => exact .start
  | next hr hok ih => exact .next ih (hle _ _ _ hok)

/-- A run that ends in `P` meets every guard that a step into `P` meets, when
`P` holds before such a step, too. -/
theorem Run.restrict (P : History ε ο → σ → Prop) (hrun : Run step ok s₀ h s) (hend : P h s)
    (hback : ∀ h s e, Run step ok s₀ h s → ok h s e →
      P (h ++ [(e, (step s e).2)]) (step s e).1 → P h s ∧ ok' h s e) : Run step ok' s₀ h s := by
  induction hrun with
  | start => exact .start
  | next hr hk ih =>
    obtain ⟨hp, hk'⟩ := hback _ _ _ hr hk hend
    exact .next (ih hp) hk'

/-! ## Events of a history -/

section Events

variable {P : History ε ο → ε → ο → Prop} {e : ε} {o : ο}

/-- Every event of the history is as `P` says, given what came before it. -/
def Always (P : History ε ο → ε → ο → Prop) (h : History ε ο) : Prop :=
  ∀ before e o rest, h = before ++ (e, o) :: rest → P before e o

/-- Some event of the history is as `P` says, given what came before it. -/
def Once (P : History ε ο → ε → ο → Prop) (h : History ε ο) : Prop :=
  ∃ before e o rest, h = before ++ (e, o) :: rest ∧ P before e o

/-- An event of a longer history is an event of the shorter one or the last. -/
private theorem append_eq_split {h before rest : History ε ο} {x y : ε × ο}
    (heq : h ++ [x] = before ++ y :: rest) :
    before = h ∧ y = x ∨ ∃ rest', h = before ++ y :: rest' := by
  rcases List.eq_nil_or_concat' rest with rfl | ⟨rest', last, rfl⟩
  · obtain ⟨hh, hx⟩ := List.append_inj' heq rfl
    exact Or.inl ⟨hh.symm, (List.singleton_inj.mp hx).symm⟩
  · refine Or.inr ⟨rest', ?_⟩
    rw [← List.cons_append, ← List.append_assoc] at heq
    exact (List.append_inj' heq rfl).1

@[simp] theorem always_nil : Always P [] :=
  fun _ _ _ _ heq => absurd heq (by simp)

/-- One more event. -/
theorem Always.append (hall : Always P h) (hlast : P h e o) : Always P (h ++ [(e, o)]) := by
  intro before e' o' rest heq
  rcases append_eq_split heq with ⟨rfl, hx⟩ | ⟨rest', hh⟩
  · obtain ⟨rfl, rfl⟩ := Prod.mk.inj hx
    exact hlast
  · exact hall before e' o' rest' hh

theorem Always.of_append (hall : Always P (h ++ [(e, o)])) : Always P h ∧ P h e o :=
  ⟨fun before e' o' rest heq => hall before e' o' (rest ++ [(e, o)]) (by rw [heq]; simp),
    hall h e o [] rfl⟩

/-- What has happened stays so. -/
theorem Once.append (honce : Once P h) : Once P (h ++ [(e, o)]) := by
  obtain ⟨before, e', o', rest, rfl, hp⟩ := honce
  exact ⟨before, e', o', rest ++ [(e, o)], by simp, hp⟩

/-- The last event may be the one. -/
theorem Once.last (hlast : P h e o) : Once P (h ++ [(e, o)]) :=
  ⟨h, e, o, [], rfl, hlast⟩

/-- The events of a history by their positions. -/
theorem once_iff : Once P h ↔ ∃ i : Fin h.length, P (h.take i) h[i].1 h[i].2 := by
  constructor
  · rintro ⟨before, e, o, rest, rfl, hp⟩
    refine ⟨⟨before.length, by simp⟩, ?_⟩
    simpa using hp
  · rintro ⟨i, hp⟩
    refine ⟨h.take i, h[i].1, h[i].2, h.drop (i + 1), ?_, hp⟩
    exact (List.take_append_drop i h).symm.trans (by rw [List.drop_eq_getElem_cons i.isLt]; rfl)

theorem always_iff : Always P h ↔ ∀ i : Fin h.length, P (h.take i) h[i].1 h[i].2 := by
  constructor
  · intro hall i
    refine hall _ _ _ (h.drop (i + 1)) ?_
    exact (List.take_append_drop i h).symm.trans (by rw [List.drop_eq_getElem_cons i.isLt]; rfl)
  · rintro hall before e o rest rfl
    simpa using hall ⟨before.length, by simp⟩

instance [∀ h e o, Decidable (P h e o)] : Decidable (Once P h) :=
  decidable_of_iff _ once_iff.symm

instance [∀ h e o, Decidable (P h e o)] : Decidable (Always P h) :=
  decidable_of_iff _ always_iff.symm

end Events

/-! ## The states of a run -/

section States

/-- The state that a history leads to. -/
def stateAfter (step : σ → ε → σ × ο) (s₀ : σ) (h : History ε ο) : σ :=
  h.foldl (fun s x => (step s x.1).1) s₀

theorem Run.stateAfter_eq (hrun : Run step ok s₀ h s) : stateAfter step s₀ h = s := by
  induction hrun with
  | start => rfl
  | next hr hok ih => simp [stateAfter, List.foldl_append, ← ih]

/-- The last event of a run, and the run before it. -/
theorem Run.of_append {e : ε} {o : ο} (hrun : Run step ok s₀ (h ++ [(e, o)]) s) :
    ∃ s', Run step ok s₀ h s' ∧ ok h s' e ∧ o = (step s' e).2 ∧ s = (step s' e).1 := by
  generalize hsplit : h ++ [(e, o)] = h' at hrun
  cases hrun with
  | start => simp at hsplit
  | next hr hok =>
    obtain ⟨rfl, hlast⟩ := List.append_inj' hsplit rfl
    obtain ⟨rfl, rfl⟩ := Prod.mk.inj (List.singleton_inj.mp hlast)
    exact ⟨_, hr, hok, rfl, rfl⟩

/-- Every event of the history is as `P` says, given what came before it and the
state that it found. -/
def Throughout (step : σ → ε → σ × ο) (s₀ : σ) (P : History ε ο → σ → ε → Prop)
    (h : History ε ο) : Prop :=
  Always (fun before e _ => P before (stateAfter step s₀ before) e) h

/-- When a step is as `P` says exactly if it meets a further guard, provided that
the steps before it have met it, a run is so throughout exactly if all its steps
meet the guard. -/
theorem Run.throughout_iff {P : History ε ο → σ → ε → Prop} (hrun : Run step ok s₀ h s)
    (hiff : ∀ h s e, Run step (fun h s e => ok h s e ∧ ok' h s e) s₀ h s → ok h s e →
      (P h s e ↔ ok' h s e)) :
    Throughout step s₀ P h ↔ Run step (fun h s e => ok h s e ∧ ok' h s e) s₀ h s := by
  induction hrun with
  | start => exact ⟨fun _ => .start, fun _ => always_nil⟩
  | @next h s e hr hok ih =>
    constructor
    · intro hall
      obtain ⟨hbefore, hlast⟩ := hall.of_append
      have hrun' := ih.mp hbefore
      rw [hr.stateAfter_eq] at hlast
      exact .next hrun' ⟨hok, (hiff h s e hrun' hok).mp hlast⟩
    · intro hrun'
      obtain ⟨s', hbefore, ⟨-, hguard⟩, -, -⟩ := hrun'.of_append
      obtain rfl : s' = s := hbefore.stateAfter_eq.symm.trans hr.stateAfter_eq
      refine (ih.mpr hbefore).append ?_
      rw [hr.stateAfter_eq]
      exact (hiff h s' e hbefore hok).mpr hguard

end States

/-! ## Two machines side by side -/

/-- A list whose elements are related to those of a longer list, one by one, ends
in one that is related to its last element. -/
private theorem forall₂_concat {α β : Type*} {r : α → β → Prop} {l : List α} {a : α}
    {l' : List β} (h : List.Forall₂ r (l ++ [a]) l') :
    ∃ l₁ b, l' = l₁ ++ [b] ∧ List.Forall₂ r l l₁ ∧ r a b := by
  have hback := List.forall₂_reverse_iff.mpr h
  rw [List.reverse_append, List.reverse_singleton, List.singleton_append,
    List.forall₂_cons_left_iff] at hback
  obtain ⟨b, rest, hr, hrest, heq⟩ := hback
  refine ⟨rest.reverse, b, ?_, ?_, hr⟩
  · rw [← List.reverse_reverse l', heq, List.reverse_cons]
  · rw [← List.forall₂_reverse_iff, List.reverse_reverse]
    exact hrest

/-- Two machines that take related events from related states to related states,
and show related outputs, do so over whole runs. -/
theorem Run.lockstep {σ' ε' ο' : Type*} {step' : σ' → ε' → σ' × ο'}
    {ok' : History ε' ο' → σ' → ε' → Prop} {s₀' : σ'} (R : σ → σ' → Prop) (E : ε → ε' → Prop)
    (O : ο → ο' → Prop) (hrun : Run step ok s₀ h s) (hstart : R s₀ s₀')
    (hstep : ∀ h s e h' s' e', Run step ok s₀ h s → ok h s e → R s s' → E e e' →
      ok' h' s' e' ∧ R (step s e).1 (step' s' e').1 ∧ O (step s e).2 (step' s' e').2)
    {events : List ε'} (hevents : List.Forall₂ E (h.map Prod.fst) events) :
    ∃ h' s', Run step' ok' s₀' h' s' ∧ h'.map Prod.fst = events ∧ R s s' ∧
      (∀ n, R (stateAfter step s₀ (h.take n)) (stateAfter step' s₀' (h'.take n))) ∧
      List.Forall₂ O (h.map Prod.snd) (h'.map Prod.snd) := by
  induction hrun generalizing events with
  | start =>
    obtain rfl := List.forall₂_nil_left_iff.mp hevents
    exact ⟨[], s₀', .start, rfl, hstart, fun n => by simpa [stateAfter] using hstart, .nil⟩
  | @next h s e hr hok ih =>
    rw [List.map_append, List.map_singleton] at hevents
    obtain ⟨before, e', rfl, hbefore, he⟩ := forall₂_concat hevents
    obtain ⟨h', s', hrun', rfl, hR, hstates, houtputs⟩ := ih hbefore
    obtain ⟨hok', hnext, hlast⟩ := hstep h s e h' s' e' hr hok hR he
    refine ⟨_, _, .next hrun' hok', by simp, hnext, fun n => ?_, ?_⟩
    · have hlength : h.length = h'.length := by
        have hsame := houtputs.length_eq
        rwa [List.length_map, List.length_map] at hsame
      rcases Nat.lt_or_ge h.length n with hlt | hge
      · rw [List.take_of_length_le (by simp; omega), List.take_of_length_le (by simp; omega),
          (Run.next hr hok).stateAfter_eq, (Run.next hrun' hok').stateAfter_eq]
        exact hnext
      · rw [List.take_append_of_le_length hge, List.take_append_of_le_length (hlength ▸ hge)]
        exact hstates n
    · rw [List.map_append, List.map_append, List.map_singleton, List.map_singleton]
      exact List.rel_append houtputs (.cons hlast .nil)

/-! ## Lists of events -/

/-- Take a list of events from a state with a history. -/
def exec (step : σ → ε → σ × ο) : History ε ο → σ → List ε → History ε ο × σ
  | h, s, [] => (h, s)
  | h, s, e :: rest => exec step (h ++ [(e, (step s e).2)]) (step s e).1 rest

/-- Every event of the list meets the guard when its turn comes. -/
def Meets (step : σ → ε → σ × ο) (ok : History ε ο → σ → ε → Prop) :
    History ε ο → σ → List ε → Prop
  | _, _, [] => True
  | h, s, e :: rest => ok h s e ∧ Meets step ok (h ++ [(e, (step s e).2)]) (step s e).1 rest

instance Meets.decidable [hok : ∀ h s e, Decidable (ok h s e)] :
    ∀ h s events, Decidable (Meets step ok h s events)
  | _, _, [] => isTrue trivial
  | h, s, e :: rest =>
    have := Meets.decidable (h ++ [(e, (step s e).2)]) (step s e).1 rest
    inferInstanceAs (Decidable (ok h s e ∧ _))

/-- A list of events that meets the guard continues a run. -/
theorem Run.exec (hrun : Run step ok s₀ h s) {events : List ε}
    (hmeets : Meets step ok h s events) :
    Run step ok s₀ (exec step h s events).1 (exec step h s events).2 := by
  induction events generalizing h s with
  | nil => exact hrun
  | cons e rest ih => exact ih (hrun.next hmeets.1) hmeets.2

end GuardedRun
