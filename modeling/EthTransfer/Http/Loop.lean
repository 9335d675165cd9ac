import EthTransfer.Http.Segmentation
import EthTransfer.Lib.GuardedRun

/-!
# Runs of the server loop

A run of the loop of `main`, over any number of connections, with any bytes from
`read_tcp`.  In every state of a run with an open connection, the loop has read some
bytes of it and waits for more (`LoopRun.betweenTurns`), so what `Http.Segmentation` says about
one connection holds in every run.
-/

namespace EthTransfer

open Search GuardedRun

/-- The variables of `main` in front of its loop. -/
structure Initial (cfg : Config) (s : Server) : Prop where
  readBuffer : s.readBuffer.length = cfg.maxSize
  readCount : s.readCount = 0
  httpHeader : s.httpHeader = -1
  contentLength : s.contentLength = -1
  requiredLength : s.requiredLength = -1
  connectionId : s.connectionId = -1
  complete : s.complete = false
  boundary : s.boundary = none

/-- The program is over after the turn. -/
def Turn.ends : Turn → Bool
  | .exits => true
  | .faults => true
  | _ => false

/-- The turn takes place, and `read_tcp` writes at most `max_data` bytes. -/
structure Enabled (cfg : Config) (h : History Pass Turn) (s : Server) (pass : Pass) :
    Prop where
  incomplete : s.complete = false
  goesOn : ∀ x ∈ h, x.2.ends = false
  fits : s.readCount < cfg.maxSize →
    ((pass.read.getD []).length : Int) ≤ cfg.maxSize - s.readCount

/-- A condition on the turns of a run. -/
abbrev LoopGuard := History Pass Turn → Server → Pass → Prop

def anyPass : LoopGuard := fun _ _ _ => True

/-- The runs of the loop whose turns all meet a condition. -/
def LoopRun (cfg : Config) (ok : LoopGuard) : Server → History Pass Turn → Server → Prop :=
  Run (loopStep cfg) fun h s pass => Enabled cfg h s pass ∧ ok h s pass

/-! ## The invariant -/

/-- What holds of the variables in front of every turn. -/
structure BetweenTurns (cfg : Config) (s : Server) : Prop where
  readBuffer : s.readBuffer.length = cfg.maxSize
  opened : s.connectionId ≠ -1 → ∃ p, Opened cfg p s

variable {cfg : Config} {s s₀ : Server} {pass : Pass} {h : History Pass Turn} {ok : LoopGuard}

/-- A result of `-1` is as good as a result of zero. -/
theorem arrive_getD (cfg : Config) (s : Server) (read : Option (List UInt8)) :
    arrive cfg s read = arrive cfg s (some (read.getD [])) := by
  cases read with
  | some data => rfl
  | none =>
    have hstore : s.store none = s.store (some []) := by
      simp [Server.store]
    simp only [arrive, Option.getD_none, hstore]

theorem finish_responds {user : User} {s' : Server} {action : Action}
    (hfinish : finish user s = .responds s' action) :
    s'.connectionId = -1 ∧ s'.readBuffer.length = s.readBuffer.length := by
  unfold finish at hfinish
  split_ifs at hfinish
  split at hfinish
  · cases hfinish
  · rename_i buffer hwrite
    split at hfinish
    · cases hfinish
    · dsimp only at hfinish
      split at hfinish
      · cases hfinish
      · rename_i buffer' outcome hparse
        cases hfinish
        exact ⟨rfl, (parseHttpContent_length hparse).trans (writeAt_length hwrite)⟩

/-- An answer gives the connection up. -/
theorem Arrives.responds {user : User} {p : List UInt8} {passing : Passing} {s' : Server}
    {action : Action} (harrives : Arrives cfg p passing)
    (hturn : passing.turn user = .responds s' action) :
    s'.connectionId = -1 ∧ s'.readBuffer.length = cfg.maxSize := by
  cases harrives with
  | scanning => cases hturn
  | answered _ _ _ hlength =>
    cases hturn
    exact ⟨rfl, hlength⟩
  | fault => cases hturn
  | other _ _ _ hstored =>
    obtain ⟨hclosed, hlength⟩ := finish_responds hturn
    exact ⟨hclosed, hlength.trans hstored.readBuffer⟩
  | reading hstored =>
    obtain ⟨hclosed, hlength⟩ := finish_responds hturn
    exact ⟨hclosed, hlength.trans hstored.readBuffer⟩

/-- `open_tcp` starts from nothing. -/
theorem loopTurn_opens (hclosed : s.connectionId = -1) (hlength : s.readBuffer.length = cfg.maxSize)
    (pass : Pass) : ∃ s', loopTurn cfg s pass = .waits s' ∧ Opening cfg s' :=
  ⟨_, if_pos hclosed, hlength, rfl, rfl, rfl⟩

/-- What a turn over an open connection leaves. -/
theorem BetweenTurns.cases (hbetween : BetweenTurns cfg s) (henabled : Enabled cfg h s pass)
    (hopen : s.connectionId ≠ -1) :
    (∀ s', loopTurn cfg s pass = .waits s' → ∃ p, Opened cfg p s') ∧
      ∀ s' action, loopTurn cfg s pass = .responds s' action →
        s'.connectionId = -1 ∧ s'.readBuffer.length = cfg.maxSize := by
  obtain ⟨p, hopened⟩ := hbetween.opened hopen
  have hcount := hopened.stored.readCount
  rw [loopTurn, if_neg hopen]
  by_cases hfull : (cfg.maxSize : Int) - s.readCount ≤ 0
  · rw [serve, arrive, if_pos hfull]
    refine ⟨fun s' hs => ?_, fun s' action hs => ?_⟩ <;> cases hs
  · have hfits := henabled.fits (by omega)
    have harrives := arrive_opened (pass.read.getD []) hopened (by omega) (by omega)
    rw [serve_eq, arrive_getD]
    exact ⟨fun s' hturn => ⟨_, (harrives.follows pass.user).waits s' hturn⟩,
      fun s' action hturn => harrives.responds hturn⟩

/-- One turn. -/
theorem BetweenTurns.step (hbetween : BetweenTurns cfg s) (henabled : Enabled cfg h s pass) :
    BetweenTurns cfg (loopStep cfg s pass).1 := by
  show BetweenTurns cfg ((loopTurn cfg s pass).next s)
  by_cases hclosed : s.connectionId = -1
  · obtain ⟨s', hturn, hopening⟩ := loopTurn_opens hclosed hbetween.readBuffer pass
    rw [hturn]
    exact ⟨hopening.readBuffer, fun _ => ⟨[], hopening.opened⟩⟩
  · obtain ⟨hwaits, hresponds⟩ := hbetween.cases henabled hclosed
    generalize loopTurn cfg s pass = turn at *
    cases turn with
    | waits s' =>
      obtain ⟨p, hopened⟩ := hwaits s' rfl
      exact ⟨hopened.stored.readBuffer, fun _ => ⟨p, hopened⟩⟩
    | responds s' action =>
      obtain ⟨hgone, hlength⟩ := hresponds s' action rfl
      exact ⟨hlength, fun hne => absurd hgone hne⟩
    | exits => exact hbetween
    | faults => exact hbetween

theorem Initial.betweenTurns (hinit : Initial cfg s) : BetweenTurns cfg s :=
  ⟨hinit.readBuffer, fun hne => absurd hinit.connectionId hne⟩

theorem LoopRun.betweenTurns (hinit : Initial cfg s₀) (hrun : LoopRun cfg ok s₀ h s) :
    BetweenTurns cfg s :=
  Run.invariant (fun _ s => BetweenTurns cfg s) hrun hinit.betweenTurns
    fun _ _ _ _ hbetween hok => hbetween.step hok.1

/-- When a turn is as `P` says exactly if it meets `ok`, the turns of a run are all as `P`
says exactly if they all meet `ok`. -/
theorem LoopRun.throughout_iff {P : LoopGuard} (hinit : Initial cfg s₀)
    (hrun : LoopRun cfg anyPass s₀ h s)
    (hiff : ∀ h s pass, BetweenTurns cfg s → Enabled cfg h s pass → (P h s pass ↔ ok h s pass)) :
    Throughout (loopStep cfg) s₀ P h ↔ LoopRun cfg ok s₀ h s := by
  have hguard : (fun h s pass => Enabled cfg h s pass ∧ ok h s pass) =
      fun h s pass => (Enabled cfg h s pass ∧ anyPass h s pass) ∧ ok h s pass := by
    simp [anyPass]
  unfold LoopRun
  rw [hguard]
  refine Run.throughout_iff hrun fun h s pass hbefore hok => ?_
  rw [← hguard] at hbefore
  exact hiff h s pass (LoopRun.betweenTurns hinit hbefore) hok.1

/-- The variables of `main` in front of its loop, with the buffer of `smallConfig`. -/
def idleServer : Server := { freshServer 0 with connectionId := -1 }

theorem idleServer_initial : Initial smallConfig idleServer :=
  ⟨List.length_replicate, rfl, rfl, rfl, rfl, rfl, rfl, rfl⟩

end EthTransfer
