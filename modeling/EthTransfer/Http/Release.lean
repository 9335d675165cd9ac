import EthTransfer.Http.Session
import EthTransfer.Isolation

/-!
# Dead connections

`read_tcp` answers `-1` when the connection has come to its end (`Ended`).  `main` treats
this like a call that brings no bytes, so while its request is incomplete it keeps the
connection and asks again.

`dead_connection_released_iff` says that a run releases dead connections exactly if it
never finds one: no poll may end the connection before the request is complete.
-/

namespace EthTransfer

open GuardedRun

variable {cfg : Config}

/-- The turn calls `read_tcp`. -/
def Server.Reads (cfg : Config) (s : Server) : Prop :=
  s.connectionId ≠ -1 ∧ s.readCount < cfg.maxSize

instance (s : Server) : Decidable (s.Reads cfg) := inferInstanceAs (Decidable (_ ∧ _))

/-- There is nothing to read, now and later: another connection or none, a reset one that
has been read, or the end of the peer's stream. -/
def Ended (c : TcpConnection) (id : Int) : Prop :=
  (c.state = .listen ∨ c.connectionId ≠ id) ∨
    (c.state = .dataToRead ∧ (c.rxRead ≥ c.rxWrite ∨ c.rxRead ≥ c.rxFin)) ∨
    c.rxRead ≥ c.rxFin ∨ Word.toInt (c.rxWrite - c.rxRead) < 0

instance (c : TcpConnection) (id : Int) : Decidable (Ended c id) :=
  inferInstanceAs (Decidable (_ ∨ _))

/-- `read_tcp` is called for a connection that is open, and when it answers `-1` and the
request stays incomplete, `main` and the stack give the connection up. -/
def ReleasesDead (cfg : Config) : SessionGuard := fun _ e i =>
  ∀ stack frames, ipStackPoll e.stack i.poll = some (stack, frames) → e.server.Reads cfg →
    OpenAs e.server.connectionId stack ∧
      ((e.server.readTcp cfg stack).ret = -1 → ∀ e' s, iterate cfg e i = some (e', .waits s) →
        e'.server.connectionId = -1 ∧ e'.stack.tcpConn.state = .listen)

/-- The poll of the turn leaves the connection alive. -/
def FindsAlive (cfg : Config) : SessionGuard := fun _ e i =>
  ∀ stack frames, ipStackPoll e.stack i.poll = some (stack, frames) → e.server.Reads cfg →
    ¬ Ended stack.tcpConn e.server.connectionId

/-- When `read_tcp` answers `-1`. -/
theorem readTcp_ret_iff {c : TcpConnection} {id : Int} {data : Bytes} {off len : Int}
    (hoff : 0 ≤ off) (hlen : 0 ≤ len) : (readTcp c id data off len).ret = -1 ↔ Ended c id := by
  unfold readTcp Ended
  rw [if_neg (by omega)]
  by_cases hclosed : c.state = .listen ∨ c.connectionId ≠ id
  · rw [if_pos hclosed]
    exact iff_of_true rfl (.inl hclosed)
  by_cases hread : c.state = .dataToRead ∧ (c.rxRead ≥ c.rxWrite ∨ c.rxRead ≥ c.rxFin)
  · rw [if_neg hclosed, if_pos hread]
    exact iff_of_true rfl (.inr (.inl hread))
  by_cases hfin : c.rxRead ≥ c.rxFin
  · rw [if_neg hclosed, if_neg hread, if_pos hfin]
    exact iff_of_true rfl (.inr (.inr (.inl hfin)))
  rw [if_neg hclosed, if_neg hread, if_neg hfin]
  have hiff : ((c.state = .listen ∨ c.connectionId ≠ id) ∨
      (c.state = .dataToRead ∧ (c.rxRead ≥ c.rxWrite ∨ c.rxRead ≥ c.rxFin)) ∨
      c.rxRead ≥ c.rxFin ∨ Word.toInt (c.rxWrite - c.rxRead) < 0) ↔
      Word.toInt (c.rxWrite - c.rxRead) < 0 := by
    tauto
  rw [hiff]
  dsimp only
  generalize hlength : (if len < Word.toInt (c.rxWrite - c.rxRead) then len
    else Word.toInt (c.rxWrite - c.rxRead)) = dataLength
  by_cases hneg : dataLength < 0
  · rw [if_pos hneg]
    refine iff_of_true rfl ?_
    split at hlength <;> omega
  · rw [if_neg hneg]
    refine iff_of_false (fun hret => hneg ?_) ?_
    · have hret' : dataLength = -1 := hret
      omega
    · split at hlength <;> omega

variable {e e₀ : Session} {i : Iteration} {h : History Iteration (Option Turn)}
  {s : Server} {p : List UInt8}

/-- A turn that brings no bytes waits. -/
theorem Opened.serve_none (hopened : Opened cfg p s) (hroom : p.length < cfg.maxSize)
    (user : User) :
    ∃ s', serve cfg user s none = .waits s' ∧ s'.connectionId = s.connectionId := by
  have hcount := hopened.stored.readCount
  unfold serve arrive
  rw [if_neg (by omega)]
  rcases hopened.progress with hscan | ⟨h, c, required, boundary, hreading, hlt⟩
  · obtain ⟨rest, hrest⟩ := hscan.bytes
    have hnone : headerScan s.readBuffer s.readCount = -1 := by
      rw [hcount, ← hrest, headerScan_append_right, hscan.scan]
    simp only [Server.store, hscan.httpHeader, if_true, scanRequest, hnone]
    exact ⟨_, rfl, rfl⟩
  · have hfound : s.httpHeader ≠ -1 := by
      rw [hreading.httpHeader]
      exact hreading.found
    have hmore : ¬ s.readCount ≥ s.requiredLength := by
      rw [hreading.requiredLength, hcount]
      omega
    dsimp only [Server.store]
    rw [if_neg hfound]
    dsimp only
    rw [finish, if_neg hmore]
    exact ⟨s, rfl, rfl⟩

/-- A dead connection is kept. -/
theorem keeps_ended (hbetween : BetweenTurns cfg e.server) (hreads : e.server.Reads cfg)
    {stack : Stack} {frames : List TxFrame}
    (hpoll : ipStackPoll e.stack i.poll = some (stack, frames))
    (hret : (e.server.readTcp cfg stack).ret = -1) :
    ∃ e' s, iterate cfg e i = some (e', .waits s) ∧ e'.server.connectionId ≠ -1 := by
  obtain ⟨hopen, hlt⟩ := hreads
  obtain ⟨p, hopened⟩ := hbetween.opened hopen
  have hcount := hopened.stored.readCount
  obtain ⟨s', hserve, hid⟩ := hopened.serve_none (by omega) i.user
  have hturn (id : Int) : loopTurn cfg e.server ⟨id, none, i.user⟩ = .waits s' := by
    rw [loopTurn, if_neg hopen, hserve]
  have hreceived : (e.server.readTcp cfg stack).received = none := by
    simp [ReadResult.received, hret]
  have hiterate : iterate cfg e i =
      some (⟨{ stack with tcpConn := (e.server.readTcp cfg stack).conn }, s'⟩, .waits s') := by
    unfold iterate
    rw [hpoll, Option.bind_some]
    simp only [Session.turn, if_neg hopen, if_neg (not_le.mpr hlt), hreceived, loopStep, hturn]
    rfl
  exact ⟨_, _, hiterate, by rwa [hid]⟩

/-- One turn. -/
theorem releases_iff (hbetween : BetweenTurns cfg e.server) :
    ReleasesDead cfg h e i ↔ FindsAlive cfg h e i := by
  have hended (stack : Stack) (hreads : e.server.Reads cfg) :
      (e.server.readTcp cfg stack).ret = -1 ↔ Ended stack.tcpConn e.server.connectionId := by
    obtain ⟨p, hopened⟩ := hbetween.opened hreads.1
    have hcount := hopened.stored.readCount
    have hlt := hreads.2
    exact readTcp_ret_iff (by omega) (by omega)
  constructor
  · intro hreleases stack frames hpoll hreads hdead
    obtain ⟨-, hreleased⟩ := hreleases stack frames hpoll hreads
    have hret := (hended stack hreads).mpr hdead
    obtain ⟨e', s, hiterate, hkept⟩ := keeps_ended hbetween hreads hpoll hret
    exact hkept (hreleased hret e' s hiterate).1
  · intro halive stack frames hpoll hreads
    have hdead := halive stack frames hpoll hreads
    refine ⟨⟨fun hlisten => hdead (.inl (.inl hlisten)), ?_⟩, fun hret => ?_⟩
    · by_contra hid
      exact hdead (.inl (.inr hid))
    · exact absurd ((hended stack hreads).mp hret) hdead

/-- Every turn of a run releases dead connections exactly if every turn finds its
connection alive. -/
theorem dead_connection_released_iff (hinit : Initial cfg e₀.server)
    (hrun : SessionRun cfg anyIteration e₀ h e) :
    Throughout (sessionStep cfg) e₀ (ReleasesDead cfg) h ↔
      SessionRun cfg (FindsAlive cfg) e₀ h e := by
  have hguard : (fun h e i => Returns cfg h e i ∧ FindsAlive cfg h e i) =
      fun h e i => (Returns cfg h e i ∧ anyIteration h e i) ∧ FindsAlive cfg h e i := by
    simp [anyIteration]
  unfold SessionRun
  rw [hguard]
  refine Run.throughout_iff hrun fun h e i hbefore _ => ?_
  rw [← hguard] at hbefore
  exact releases_iff (SessionRun.betweenTurns hinit hbefore)

/-! ## A client that resets its connection -/

/-- The turn takes place, and the loop waits after it. -/
def Waits (cfg : Config) : SessionGuard := fun h e i =>
  e.server.complete = false ∧ (∀ x ∈ h, ∀ turn ∈ x.2, turn.ends = false) ∧
    ((iterate cfg e i).any fun x => x.2.result.isNone) = true

instance : ∀ h e i, Decidable (Waits cfg h e i) := fun _ _ _ => inferInstanceAs (Decidable (_ ∧ _))

theorem Waits.returns (hwaits : Waits cfg h e i) : Returns cfg h e i := by
  obtain ⟨hincomplete, hgoesOn, hany⟩ := hwaits
  obtain ⟨x, hstep, hnone⟩ := (Option.any_eq_true _ _).mp hany
  refine ⟨hincomplete, hgoesOn, fun e' s action hresponds => ?_, by simp [hstep]⟩
  rw [hstep] at hresponds
  obtain rfl := Option.some.inj hresponds
  cases hnone

/-- A turn with one frame. -/
def frameTurn (frame : RxFrame) : Iteration := ⟨pollFrame frame, ⟨[], fun _ => true⟩, []⟩

/-- Nobody is connected. -/
def idleSession : Session := ⟨listeningStack, idleServer⟩

/-- A client connects, and resets the connection before it sends its request. -/
def resetTurns : List Iteration :=
  [frameTurn (peerFrame 0xA0 0 0 0x02), frameTurn (peerFrame 0xA0 1 101 0x10),
    frameTurn (peerFrame 0xA0 1 101 0x04)]

def resetExec (n : ℕ) : History Iteration (Option Turn) × Session :=
  exec (sessionStep smallConfig) [] idleSession (resetTurns.take n)

theorem resetExec_run {n : ℕ}
    (hmeets : Meets (sessionStep smallConfig) (Waits smallConfig) [] idleSession
      (resetTurns.take n)) :
    SessionRun smallConfig anyIteration idleSession (resetExec n).1 (resetExec n).2 :=
  (Run.start.exec hmeets).mono fun _ _ _ hwaits => ⟨hwaits.returns, trivial⟩

theorem dead_connection_released_iff_reset :
    Throughout (sessionStep smallConfig) idleSession (ReleasesDead smallConfig) (resetExec 2).1 ↔
      SessionRun smallConfig (FindsAlive smallConfig) idleSession (resetExec 2).1
        (resetExec 2).2 :=
  dead_connection_released_iff idleServer_initial (resetExec_run (by decide +kernel))

/-- The third turn finds the connection dead, and the loop keeps it. -/
theorem reset_connection_kept :
    SessionRun smallConfig anyIteration idleSession (resetExec 3).1 (resetExec 3).2 ∧
      (resetExec 3).2.server.connectionId = 1 ∧ (resetExec 3).2.stack.tcpConn.state = .listen ∧
      ¬ Throughout (sessionStep smallConfig) idleSession (ReleasesDead smallConfig)
        (resetExec 3).1 := by
  refine ⟨resetExec_run (by decide +kernel), by decide +kernel, by decide +kernel, fun hall => ?_⟩
  have hreleases := hall (resetExec 2).1 (frameTurn (peerFrame 0xA0 1 101 0x04)) _ [] rfl
  have hrun := resetExec_run (n := 2) (by decide +kernel)
  dsimp only at hreleases
  rw [hrun.stateAfter_eq] at hreleases
  have halive := (releases_iff (hrun.betweenTurns idleServer_initial)).mp hreleases
  have hdead : ((ipStackPoll (resetExec 2).2.stack
      (frameTurn (peerFrame 0xA0 1 101 0x04)).poll).any fun x =>
        decide (Ended x.1.tcpConn (resetExec 2).2.server.connectionId)) = true := by
    decide +kernel
  obtain ⟨⟨stack, frames⟩, hpoll, hended⟩ := (Option.any_eq_true _ _).mp hdead
  exact halive stack frames hpoll (by decide +kernel) (of_decide_eq_true hended)

end EthTransfer
