import Mathlib.Data.List.Basic

/-!
# Deleting events that have no effect

`runLog` takes a list of events through a step function that may fail, and logs
the state before each event, the event, and what it gave out.  `purge` deletes
the events that `drop` names, in the state in which they arrive, and edits the
others.

`runLog_purge` says when the deletion shows nowhere: a dropped event leaves the
state alone, and an edited event does what the event did.  What is left of the
log is then the log without the dropped events.  When the dropped events give
nothing out, the outputs one after the other do not change at all
(`runLog_purge_silent`).
-/

namespace Purge

variable {σ ε ο : Type*}

/-- One line of the log. -/
structure Entry (σ ε ο : Type*) where
  before : σ
  event : ε
  output : ο

/-- What the log shows without its events. -/
def Entry.shown (entry : Entry σ ε ο) : σ × ο := (entry.before, entry.output)

/-- Take the events one after the other.  There is no result when one of them
fails. -/
def runLog (step : σ → ε → Option (σ × ο)) : σ → List ε → Option (σ × List (Entry σ ε ο))
  | s, [] => some (s, [])
  | s, e :: rest =>
    (step s e).bind fun (s', o) =>
      (runLog step s' rest).map fun (final, log) => (final, ⟨s, e, o⟩ :: log)

/-- Delete the events to be dropped, and edit the others. -/
def purge (step : σ → ε → Option (σ × ο)) (drop : σ → ε → Bool) (edit : σ → ε → ε) :
    σ → List ε → List ε
  | _, [] => []
  | s, e :: rest =>
    match step s e with
    | none => e :: rest
    | some (s', _) =>
      if drop s e then purge step drop edit s' rest
      else edit s e :: purge step drop edit s' rest

section Rules

variable {step : σ → ε → Option (σ × ο)} {drop : σ → ε → Bool} {edit : σ → ε → ε}

theorem runLog_cons {s s' final : σ} {e : ε} {o : ο} {rest : List ε}
    {log : List (Entry σ ε ο)} (hstep : step s e = some (s', o))
    (hrest : runLog step s' rest = some (final, log)) :
    runLog step s (e :: rest) = some (final, ⟨s, e, o⟩ :: log) := by
  simp [runLog, hstep, hrest]

/-- A run of one more event is that event and a run of the others. -/
theorem exists_of_runLog_cons {s final : σ} {e : ε} {rest : List ε}
    {log : List (Entry σ ε ο)} (hrun : runLog step s (e :: rest) = some (final, log)) :
    ∃ s' o log', step s e = some (s', o) ∧ runLog step s' rest = some (final, log') ∧
      log = ⟨s, e, o⟩ :: log' := by
  rw [runLog] at hrun
  obtain ⟨⟨s', o⟩, hstep, hrun⟩ := Option.bind_eq_some_iff.mp hrun
  obtain ⟨⟨final', log'⟩, hrest, hrun⟩ := Option.map_eq_some_iff.mp hrun
  obtain ⟨rfl, rfl⟩ := Prod.mk.inj hrun
  exact ⟨s', o, log', hstep, hrest, rfl⟩

/-- A property of the state and of all that came out before it, which every step
keeps, holds at the end. -/
theorem runLog_invariant {ω : Type*} (out : ο → List ω) (inv : σ → List ω → Prop)
    (hkeep : ∀ s seen e s' o, inv s seen → step s e = some (s', o) → inv s' (seen ++ out o))
    {s final : σ} {events : List ε} {log : List (Entry σ ε ο)} (seen : List ω)
    (hrun : runLog step s events = some (final, log)) (hstart : inv s seen) :
    inv final (seen ++ log.flatMap fun entry => out entry.output) := by
  induction events generalizing s log seen with
  | nil =>
    obtain ⟨rfl, rfl⟩ := Prod.mk.inj (Option.some.inj hrun)
    rwa [List.flatMap_nil, List.append_nil]
  | cons e rest ih =>
    obtain ⟨s', o, log', hstep, hrest, rfl⟩ := exists_of_runLog_cons hrun
    rw [List.flatMap_cons, ← List.append_assoc]
    exact ih _ hrest (hkeep s seen e s' o hstart hstep)

/-- Every line of the log is a step. -/
theorem exists_step_of_mem_log {s final : σ} {events : List ε} {log : List (Entry σ ε ο)}
    (hrun : runLog step s events = some (final, log)) {entry : Entry σ ε ο}
    (hmem : entry ∈ log) : ∃ s', step entry.before entry.event = some (s', entry.output) := by
  induction events generalizing s log with
  | nil =>
    obtain ⟨-, rfl⟩ := Prod.mk.inj (Option.some.inj hrun)
    cases hmem
  | cons e rest ih =>
    obtain ⟨s', o, log', hstep, hrest, rfl⟩ := exists_of_runLog_cons hrun
    rcases List.mem_cons.mp hmem with rfl | hmem
    · exact ⟨s', hstep⟩
    · exact ih hrest hmem

/-- A purge adds no events. -/
theorem length_purge_le (s : σ) (events : List ε) :
    (purge step drop edit s events).length ≤ events.length := by
  induction events generalizing s with
  | nil => exact Nat.le_refl _
  | cons e rest ih =>
    rw [purge]
    split
    · exact Nat.le_refl _
    · split
      · exact Nat.le_succ_of_le (ih _)
      · exact Nat.succ_le_succ (ih _)

/-- When dropped events change nothing and edited events do what they did, the
purged run ends in the same state, and its log is the log of the kept events. -/
theorem runLog_purge
    (hdrop : ∀ s e s' o, drop s e = true → step s e = some (s', o) → s' = s)
    (hedit : ∀ s e, drop s e = false → step s (edit s e) = step s e) (s : σ)
    (events : List ε) :
    (runLog step s (purge step drop edit s events)).map (fun r => (r.1, r.2.map Entry.shown)) =
      (runLog step s events).map fun r =>
        (r.1, (r.2.filter fun entry => !drop entry.before entry.event).map Entry.shown) := by
  induction events generalizing s with
  | nil => rfl
  | cons e rest ih =>
    rw [purge]
    cases hstep : step s e with
    | none => simp [runLog, hstep]
    | some result =>
      obtain ⟨s', o⟩ := result
      dsimp only
      cases hkeep : drop s e with
      | true =>
        obtain rfl := hdrop s e s' o hkeep hstep
        rw [if_pos rfl, ih]
        cases hrest : runLog step s' rest with
        | none => simp [runLog, hstep, hrest]
        | some rest' => simp [runLog_cons hstep hrest, hkeep]
      | false =>
        have hedited : step s (edit s e) = some (s', o) := (hedit s e hkeep).trans hstep
        have htail := ih s'
        rw [if_neg (by simp)]
        cases hrest : runLog step s' rest with
        | none =>
          rw [hrest, Option.map_none, Option.map_eq_none_iff] at htail
          simp [runLog, hedited, hstep, hrest, htail]
        | some rest' =>
          rw [hrest, Option.map_some, Option.map_eq_some_iff] at htail
          obtain ⟨purged, hpurged, heq⟩ := htail
          rw [runLog_cons hedited hpurged, runLog_cons hstep hrest]
          obtain ⟨hfinal, hlog⟩ := Prod.mk.inj heq
          simp [hkeep, hfinal, hlog, Entry.shown]

end Rules

section Silent

variable {ω : Type*} {step : σ → ε → Option (σ × List ω)} {drop : σ → ε → Bool}
  {edit : σ → ε → ε}

/-- Elements that contribute nothing may be filtered out. -/
theorem flatMap_filter {α : Type*} {keep : α → Bool} {f : α → List ω} {l : List α}
    (hquiet : ∀ x ∈ l, keep x = false → f x = []) :
    (l.filter keep).flatMap f = l.flatMap f := by
  induction l with
  | nil => rfl
  | cons x rest ih =>
    have hrest := ih fun y hy => hquiet y (List.mem_cons_of_mem x hy)
    cases hkeep : keep x with
    | true => rw [List.filter_cons_of_pos hkeep, List.flatMap_cons, List.flatMap_cons, hrest]
    | false =>
      rw [List.filter_cons_of_neg (by simp [hkeep]), List.flatMap_cons,
        hquiet x List.mem_cons_self hkeep, hrest, List.nil_append]

/-- When dropped events change nothing and give nothing out, the purged run ends
in the same state and gives out the same. -/
theorem runLog_purge_silent
    (hdrop : ∀ s e s' o, drop s e = true → step s e = some (s', o) → s' = s ∧ o = [])
    (hedit : ∀ s e, drop s e = false → step s (edit s e) = step s e) (s : σ)
    (events : List ε) :
    (runLog step s (purge step drop edit s events)).map
        (fun r => (r.1, r.2.flatMap Entry.output)) =
      (runLog step s events).map fun r => (r.1, r.2.flatMap Entry.output) := by
  have hpurge := runLog_purge (fun s e s' o hd hs => (hdrop s e s' o hd hs).1) hedit s events
  have hshown : ∀ log : List (Entry σ ε (List ω)),
      (log.map Entry.shown).flatMap Prod.snd = log.flatMap Entry.output := by
    intro log
    rw [List.flatMap_map]
    rfl
  have houtputs := congrArg
    (Option.map fun r : σ × List (σ × List ω) => (r.1, r.2.flatMap Prod.snd)) hpurge
  simp only [Option.map_map, Function.comp_def, hshown] at houtputs
  rw [houtputs]
  cases hrun : runLog step s events with
  | none => rfl
  | some r =>
    obtain ⟨final, log⟩ := r
    simp only [Option.map_some]
    rw [flatMap_filter]
    intro entry hmem hkeep
    obtain ⟨s', hstep⟩ := exists_step_of_mem_log hrun hmem
    exact (hdrop _ _ _ _ (by simpa using hkeep) hstep).2

end Silent

end Purge
