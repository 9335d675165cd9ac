import EthTransfer.Http.Loop
import EthTransfer.Stack.System

/-!
# The server on the stack

The loop of `main` together with the stack it runs on.  `iterate` is one turn: it polls
the network, and then calls `open_tcp` or `read_tcp` and goes on as `loopStep` says.  An
answer is sent with `write_tcp` and `shutdown_close`.  The texts of the answers are left
open, so `Answers` allows any calls of `write_tcp`, polls between them, and any number of
rounds of `shutdown_close`.

`SessionRun.loopRun` says that a run of both is a run of the loop for what the stack
returns, so what holds of every run of the loop holds here.
-/

namespace EthTransfer

open GuardedRun

/-! ## Answers -/

/-- Events of the machine, one after the other; `none` when one does not return. -/
def Machine.play (m : Machine) (events : List AppEvent) : Option Machine :=
  events.foldlM (fun m e => (machineStep m e).map Prod.fst) m

/-- A call of `write_tcp`, or a poll. -/
def AppEvent.WritesTo (id : Int) : AppEvent → Prop
  | .poll _ => True
  | .write id' _ _ => id' = id
  | _ => False

/-- A call of `read_tcp` in `shutdown_close`, or a poll. -/
def AppEvent.Drains (id : Int) : AppEvent → Prop
  | .poll _ => True
  | .read id' _ off len => id' = id ∧ off = 0 ∧ len = 4096
  | _ => False

/-- The calls that send an answer and close the connection. -/
structure Answers (id : Int) (events : List AppEvent) : Prop where
  calls : ∃ writes drains, events = writes ++ .shutdown id :: drains ++ [.close id] ∧
    (∀ e ∈ writes, e.WritesTo id) ∧ ∀ e ∈ drains, e.Drains id

/-! ## One turn -/

/-- `main` and the stack. -/
structure Session where
  stack : Stack
  server : Server

/-- What one turn gets from outside: the answers for `ip_stack_poll`, those of the user,
and what happens while an answer is sent. -/
structure Iteration where
  poll : Poll
  user : User
  answer : List AppEvent

/-- The call of `read_tcp`. -/
def Server.readTcp (cfg : Config) (s : Server) (stack : Stack) : ReadResult :=
  EthTransfer.readTcp stack.tcpConn s.connectionId
    (fun i => s.readBuffer.getD (s.readCount.toNat + i) 0) s.readCount
    (cfg.maxSize - s.readCount)

/-- What `read_tcp` has written to `read_buffer`. -/
def ReadResult.received (result : ReadResult) : Option (List UInt8) :=
  if result.ret ≥ 0 then some (takeBytes result.data result.ret) else none

/-- The rest of a turn, when `ip_stack_poll` has returned. -/
def Session.turn (cfg : Config) (s : Server) (stack : Stack) (i : Iteration) :
    Option (Session × Turn) :=
  if s.connectionId = -1 then
    let next := loopStep cfg s ⟨openTcp stack.tcpConn, none, i.user⟩
    some (⟨stack, next.1⟩, next.2)
  else if s.readCount ≥ cfg.maxSize then some (⟨stack, s⟩, .exits)
  else
    let result := s.readTcp cfg stack
    let stack := { stack with tcpConn := result.conn }
    let next := loopStep cfg s ⟨s.connectionId, result.received, i.user⟩
    match next.2 with
    | .responds _ _ =>
      (Machine.play { stack := stack } i.answer).map fun m => (⟨m.stack, next.1⟩, next.2)
    | _ => some (⟨stack, next.1⟩, next.2)

/-- One turn of the loop of `main`. -/
def iterate (cfg : Config) (e : Session) (i : Iteration) : Option (Session × Turn) :=
  (ipStackPoll e.stack i.poll).bind fun (stack, _) => Session.turn cfg e.server stack i

/-! ## Runs -/

/-- A turn as a step.  One that does not return has no output. -/
def sessionStep (cfg : Config) (e : Session) (i : Iteration) : Session × Option Turn :=
  (((iterate cfg e i).map Prod.fst).getD e, (iterate cfg e i).map Prod.snd)

/-- The turn takes place and returns. -/
structure Returns (cfg : Config) (h : History Iteration (Option Turn)) (e : Session)
    (i : Iteration) : Prop where
  incomplete : e.server.complete = false
  goesOn : ∀ x ∈ h, ∀ turn ∈ x.2, turn.ends = false
  answers : ∀ e' s action, iterate cfg e i = some (e', .responds s action) →
    Answers e.server.connectionId i.answer
  returns : (iterate cfg e i).isSome

abbrev SessionGuard := History Iteration (Option Turn) → Session → Iteration → Prop

def anyIteration : SessionGuard := fun _ _ _ => True

/-- The runs of the server on the stack whose turns all meet a condition. -/
def SessionRun (cfg : Config) (ok : SessionGuard) :
    Session → History Iteration (Option Turn) → Session → Prop :=
  Run (sessionStep cfg) fun h e i => Returns cfg h e i ∧ ok h e i

variable {cfg : Config} {e e' e₀ : Session} {i : Iteration} {stack : Stack} {turn : Turn}
  {h : History Iteration (Option Turn)} {ok : SessionGuard}

/-- `read_tcp` returns at most what it is asked for. -/
theorem readTcp_received (c : TcpConnection) (id : Int) (data : Bytes) (off len : Int)
    (hlen : 0 ≤ len) :
    (((readTcp c id data off len).received.getD []).length : Int) ≤ len := by
  unfold ReadResult.received
  by_cases hopen : c.state = .listen
  · simp [readTcp_refused (Or.inl hopen), hlen]
  · have hreads := readTcp_reads hopen id data off len
    generalize readTcp c id data off len = result at *
    cases hreads with
    | data hid hoff hfin hle havail => simp [hle]
    | _ => simp [hlen]

/-! ## The loop in a session -/

/-- What a turn of a session is for the loop. -/
structure Projects (cfg : Config) (s : Server) (pass : Pass) (s' : Server) (turn : Turn) :
    Prop where
  step : loopStep cfg s pass = (s', turn)
  fits : s.readCount < cfg.maxSize →
    ((pass.read.getD []).length : Int) ≤ cfg.maxSize - s.readCount

theorem loopStep_full {s : Server} (hopen : s.connectionId ≠ -1)
    (hfull : s.readCount ≥ cfg.maxSize) (pass : Pass) : loopStep cfg s pass = (s, .exits) := by
  have hexits : loopTurn cfg s pass = .exits := by
    rw [loopTurn, if_neg hopen, serve, arrive, if_pos (by omega)]
  rw [loopStep, hexits]
  rfl

theorem turn_projects {s : Server} (hturn : Session.turn cfg s stack i = some (e', turn)) :
    ∃ pass, Projects cfg s pass e'.server turn := by
  unfold Session.turn at hturn
  by_cases hclosed : s.connectionId = -1
  · rw [if_pos hclosed] at hturn
    obtain ⟨rfl, rfl⟩ := Prod.mk.inj (Option.some.inj hturn)
    exact ⟨_, rfl, fun hlt => by simp; omega⟩
  rw [if_neg hclosed] at hturn
  by_cases hfull : s.readCount ≥ cfg.maxSize
  · rw [if_pos hfull] at hturn
    obtain ⟨rfl, rfl⟩ := Prod.mk.inj (Option.some.inj hturn)
    exact ⟨⟨-1, none, i.user⟩, loopStep_full hclosed hfull _, fun hlt => by omega⟩
  rw [if_neg hfull] at hturn
  dsimp only at hturn
  have hfits := readTcp_received stack.tcpConn s.connectionId
    (fun i => s.readBuffer.getD (s.readCount.toNat + i) 0) s.readCount (cfg.maxSize - s.readCount)
    (by omega)
  refine ⟨⟨s.connectionId, (s.readTcp cfg stack).received, i.user⟩, ?_, fun _ => hfits⟩
  split at hturn
  · obtain ⟨m, -, heq⟩ := Option.map_eq_some_iff.mp hturn
    obtain ⟨rfl, rfl⟩ := Prod.mk.inj heq
    rfl
  · obtain ⟨rfl, rfl⟩ := Prod.mk.inj (Option.some.inj hturn)
    rfl

/-- Every turn of a session is one of the loop. -/
theorem iterate_projects (hstep : iterate cfg e i = some (e', turn)) :
    ∃ pass, Projects cfg e.server pass e'.server turn := by
  obtain ⟨⟨stack, frames⟩, -, hturn⟩ := Option.bind_eq_some_iff.mp hstep
  exact turn_projects hturn

/-- A run of a session is a run of the loop. -/
theorem SessionRun.loopRun (hrun : SessionRun cfg ok e₀ h e) :
    ∃ h', LoopRun cfg anyPass e₀.server h' e.server ∧
      h'.map (fun x => some x.2) = h.map Prod.snd := by
  induction hrun with
  | start => exact ⟨[], .start, rfl⟩
  | @next h e i hrun hok ih =>
    obtain ⟨h', hloop, hsame⟩ := ih
    obtain ⟨⟨e', turn⟩, hstep⟩ := Option.isSome_iff_exists.mp hok.1.returns
    obtain ⟨pass, hprojects⟩ := iterate_projects hstep
    have hgoesOn : ∀ x ∈ h', x.2.ends = false := by
      intro x hx
      have hmem : some x.2 ∈ h.map Prod.snd := by
        rw [← hsame]
        exact List.mem_map_of_mem hx
      obtain ⟨y, hy, heq⟩ := List.mem_map.mp hmem
      exact hok.1.goesOn y hy x.2 (by simp [heq])
    have hnext := hloop.next ⟨⟨hok.1.incomplete, hgoesOn, hprojects.fits⟩, trivial⟩
    rw [hprojects.step] at hnext
    have hsession : sessionStep cfg e i = (e', some turn) := by
      simp [sessionStep, hstep]
    rw [hsession]
    exact ⟨_, hnext, by simp [hsame]⟩

/-- The invariant of the loop. -/
theorem SessionRun.betweenTurns (hinit : Initial cfg e₀.server)
    (hrun : SessionRun cfg ok e₀ h e) : BetweenTurns cfg e.server := by
  obtain ⟨h', hloop, -⟩ := hrun.loopRun
  exact hloop.betweenTurns hinit

/-! ## Answered connections -/

theorem closeTcp_closed (c : TcpConnection) (id : Int) :
    ¬ ((closeTcp c id).state ≠ .listen ∧ (closeTcp c id).connectionId = id) := by
  unfold closeTcp
  split_ifs with hid
  · exact fun hopen => hid hopen.2
  · exact fun hopen => hopen.1 rfl

/-- Closing the connection is the last thing that sending an answer does. -/
theorem Answers.closed {id : Int} {m m' : Machine} {events : List AppEvent}
    (hanswers : Answers id events) (hplay : m.play events = some m') : ¬ OpenAs id m'.stack := by
  obtain ⟨writes, drains, rfl, -, -⟩ := hanswers.calls
  rw [Machine.play, List.foldlM_append] at hplay
  obtain ⟨m₁, -, hclose⟩ := Option.bind_eq_some_iff.mp hplay
  simp only [List.foldlM_cons, List.foldlM_nil, machineStep] at hclose
  cases hwriting : m₁.writing with
  | none =>
    rw [hwriting] at hclose
    obtain rfl := Option.some.inj hclose
    exact closeTcp_closed m₁.stack.tcpConn id
  | some w =>
    rw [hwriting] at hclose
    cases hclose

/-- An answered turn plays the calls of the answer. -/
theorem turn_answered {s s' : Server} {action : Action} (hopen : s.connectionId ≠ -1)
    (hturn : Session.turn cfg s stack i = some (e', .responds s' action)) :
    ∃ m m', Machine.play m i.answer = some m' ∧ m'.stack = e'.stack := by
  unfold Session.turn at hturn
  rw [if_neg hopen] at hturn
  by_cases hfull : s.readCount ≥ cfg.maxSize
  · rw [if_pos hfull] at hturn
    cases hturn
  rw [if_neg hfull] at hturn
  dsimp only at hturn
  split at hturn
  · obtain ⟨m', hplay, heq⟩ := Option.map_eq_some_iff.mp hturn
    obtain ⟨rfl, -⟩ := Prod.mk.inj heq
    exact ⟨_, m', hplay, rfl⟩
  · rename_i hother
    obtain ⟨-, heq⟩ := Prod.mk.inj (Option.some.inj hturn)
    exact absurd heq (hother s' action)

/-- After an answer the connection is closed, and `main` waits for another one. -/
theorem iterate_answered {s : Server} {action : Action}
    (hbetween : BetweenTurns cfg e.server) (hreturns : Returns cfg h e i)
    (hstep : iterate cfg e i = some (e', .responds s action)) :
    ¬ OpenAs e.server.connectionId e'.stack ∧ e'.server.connectionId = -1 := by
  obtain ⟨pass, hprojects⟩ := iterate_projects hstep
  obtain ⟨hnext, hturn⟩ := Prod.mk.inj hprojects.step
  have hopen : e.server.connectionId ≠ -1 := by
    intro hclosed
    rw [loopTurn, if_pos hclosed] at hturn
    cases hturn
  have hserver : e'.server = s := by
    rw [← hnext, hturn]
    rfl
  have henabled : Enabled cfg [] e.server pass := ⟨hreturns.incomplete, by simp, hprojects.fits⟩
  refine ⟨?_, ?_⟩
  · obtain ⟨⟨stack, frames⟩, -, hsession⟩ := Option.bind_eq_some_iff.mp hstep
    obtain ⟨m, m', hplay, hstack⟩ := turn_answered hopen hsession
    rw [← hstack]
    exact (hreturns.answers e' s action hstep).closed hplay
  · rw [hserver]
    exact ((hbetween.cases henabled hopen).2 s action hturn).1

end EthTransfer
