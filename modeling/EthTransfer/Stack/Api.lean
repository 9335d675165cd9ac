import EthTransfer.Stack.CircleBuffer

/-!
# The application calls

`open_tcp`, `read_tcp`, `shutdown_tcp`, `close_tcp`, and one round of the loop
of `write_tcp`.  The loop itself polls the network between its rounds, so it
stands with `ip_stack_poll` in `EthTransfer.Stack.System`.
-/

namespace EthTransfer

/-- The first `n` bytes of a block. -/
def takeBytes (block : Bytes) (n : Int) : List UInt8 := (List.range n.toNat).map block

@[simp] theorem length_takeBytes (block : Bytes) (n : Int) :
    (takeBytes block n).length = n.toNat := by
  simp [takeBytes]

/-- `open_tcp`. -/
def openTcp (c : TcpConnection) : Int :=
  if c.state = .listen then -1 else c.connectionId

/-- The result of `read_tcp`: the connection, the memory at `buffer + off`, and
the return value. -/
structure ReadResult where
  conn : TcpConnection
  data : Bytes
  ret : Int

/-- `read_tcp`; `data` is the memory at `buffer + off`. -/
def readTcp (c : TcpConnection) (connectionId : Int) (data : Bytes) (off len : Int) :
    ReadResult :=
  if off < 0 then { conn := c, data := data, ret := -1 }
  else if c.state = .listen ∨ c.connectionId ≠ connectionId then
    { conn := c, data := data, ret := -1 }
  else if c.state = .dataToRead ∧ (c.rxRead ≥ c.rxWrite ∨ c.rxRead ≥ c.rxFin) then
    { conn := { c with state := .listen }, data := data, ret := -1 }
  else if c.rxRead ≥ c.rxFin then { conn := c, data := data, ret := -1 }
  else
    let available := Word.toInt (c.rxWrite - c.rxRead)
    let dataLength := if len < available then len else available
    if dataLength < 0 then { conn := c, data := data, ret := -1 }
    else
      { conn := { c with
          rxRead := c.rxRead + UInt32.ofInt dataLength
          ackTimeout := if dataLength > 0 then -1 else c.ackTimeout }
        data := copyFromCircleBuffer data len c.rxBuffer RX_MASK c.rxRead dataLength
        ret := dataLength }

/-- The room `write_tcp` finds in the peer's window. -/
def windowAvailable (c : TcpConnection) : Int :=
  Word.toInt (c.txAcked + c.remoteWindow - c.txWrite)

/-- The room `write_tcp` finds in the transmit ring. -/
def bufferAvailable (c : TcpConnection) : Int :=
  Word.toInt (BUFFER_SIZE - (c.txWrite - c.txAcked))

/-- `data_length` of one round of `write_tcp`. -/
def writeLength (c : TcpConnection) (len : Int) : Int :=
  let available :=
    if windowAvailable c > bufferAvailable c then bufferAvailable c else windowAvailable c
  if len < available then len else available

/-- One round of the loop of `write_tcp`, without the poll; `data` is the
memory at `buffer + off`.  The second component is the number of bytes
accepted. -/
def writeRound (c : TcpConnection) (data : Bytes) (len : Int) : TcpConnection × Int :=
  let dataLength := writeLength c len
  if dataLength > 0 then
    ({ c with
        txBuffer := copyToCircleBuffer c.txBuffer TX_MASK c.txWrite data dataLength dataLength
        txWrite := c.txWrite + UInt32.ofInt dataLength }, dataLength)
  else (c, 0)

/-- `shutdown_tcp`.  On success the source returns no value. -/
def shutdownTcp (c : TcpConnection) (connectionId : Int) : TcpConnection × Option Int :=
  if c.state = .listen ∨ c.connectionId ≠ connectionId then (c, some (-1))
  else ({ c with txFin := c.txWrite }, none)

/-- `close_tcp`. -/
def closeTcp (c : TcpConnection) (connectionId : Int) : TcpConnection :=
  if c.connectionId ≠ connectionId then c else { c with state := .listen }

/-! ## Refused calls

A call that no open connection answers to. -/

section Refused

variable {c : TcpConnection} {connectionId : Int}

theorem readTcp_refused (h : c.state = .listen ∨ c.connectionId ≠ connectionId) (data : Bytes)
    (off len : Int) :
    readTcp c connectionId data off len = { conn := c, data := data, ret := -1 } := by
  unfold readTcp
  rw [if_pos h]
  split <;> rfl

theorem shutdownTcp_refused (h : c.state = .listen ∨ c.connectionId ≠ connectionId) :
    shutdownTcp c connectionId = (c, some (-1)) := by
  unfold shutdownTcp
  rw [if_pos h]

/-- `close_tcp` on a closed connection only says again that it is closed. -/
theorem closeTcp_refused (h : c.state = .listen ∨ c.connectionId ≠ connectionId) :
    closeTcp c connectionId = c := by
  unfold closeTcp
  split
  · rfl
  · rename_i hid
    rw [← h.resolve_right hid]

end Refused

/-! ## What a call can do -/

/-- What `read_tcp` can do to an open connection. -/
inductive Reads (c : TcpConnection) (connectionId : Int) (data : Bytes) (off len : Int) :
    ReadResult → Prop where
  /-- A negative offset, or another connection's id. -/
  | refused (h : off < 0 ∨ c.connectionId ≠ connectionId) :
      Reads c connectionId data off len { conn := c, data := data, ret := -1 }
  /-- A reset connection that has been read to its end. -/
  | released (hid : c.connectionId = connectionId) (hstate : c.state = .dataToRead) :
      Reads c connectionId data off len
        { conn := { c with state := .listen }, data := data, ret := -1 }
  /-- The end of the peer's stream. -/
  | finished (hid : c.connectionId = connectionId) (hfin : c.rxFin ≤ c.rxRead) :
      Reads c connectionId data off len { conn := c, data := data, ret := -1 }
  /-- A negative count, from `len` or from the counters. -/
  | negative (hid : c.connectionId = connectionId)
      (hneg : len < 0 ∨ Word.toInt (c.rxWrite - c.rxRead) < 0) :
      Reads c connectionId data off len { conn := c, data := data, ret := -1 }
  /-- `n` bytes are handed over. -/
  | data {n : ℕ} (hid : c.connectionId = connectionId) (hoff : 0 ≤ off)
      (hfin : c.rxRead < c.rxFin) (hlen : (n : Int) ≤ len)
      (havail : (n : Int) ≤ Word.toInt (c.rxWrite - c.rxRead)) :
      Reads c connectionId data off len
        { conn := { c with
            rxRead := c.rxRead + UInt32.ofNat n
            ackTimeout := if (n : Int) > 0 then -1 else c.ackTimeout }
          data := copyFromCircleBuffer data len c.rxBuffer RX_MASK c.rxRead n
          ret := n }

theorem readTcp_reads {c : TcpConnection} (hopen : c.state ≠ .listen) (connectionId : Int)
    (data : Bytes) (off len : Int) :
    Reads c connectionId data off len (readTcp c connectionId data off len) := by
  unfold readTcp
  split_ifs with hoff hid hdone hfin
  · exact .refused (Or.inl hoff)
  · exact .refused (Or.inr (hid.resolve_left hopen))
  · have hid' : c.connectionId = connectionId := by
      by_contra hne
      exact hid (Or.inr hne)
    exact .released hid' hdone.1
  · have hid' : c.connectionId = connectionId := by
      by_contra hne
      exact hid (Or.inr hne)
    exact .finished hid' hfin
  · have hid' : c.connectionId = connectionId := by
      by_contra hne
      exact hid (Or.inr hne)
    dsimp only
    generalize hn : (if len < Word.toInt (c.rxWrite - c.rxRead) then len
      else Word.toInt (c.rxWrite - c.rxRead)) = dataLength
    by_cases hneg : dataLength < 0
    · rw [if_pos hneg]
      refine .negative hid' ?_
      split at hn <;> omega
    · obtain ⟨n, rfl⟩ := Int.eq_ofNat_of_zero_le (not_lt.mp hneg)
      rw [if_neg hneg, Word.ofInt_natCast]
      refine .data hid' (not_lt.mp hoff) (UInt32.not_le.mp hfin) ?_ ?_
      · split at hn <;> omega
      · split at hn <;> omega

/-- What a round of `write_tcp` can do. -/
inductive Writes (c : TcpConnection) (data : Bytes) (len : Int) : TcpConnection × Int → Prop where
  /-- No room, or nothing left to write. -/
  | none : Writes c data len (c, 0)
  /-- `n` bytes are accepted. -/
  | accepted {n : ℕ} (hpos : 0 < n) (hlen : (n : Int) ≤ len)
      (hwindow : (n : Int) ≤ windowAvailable c) (hbuffer : (n : Int) ≤ bufferAvailable c) :
      Writes c data len
        ({ c with
            txBuffer := copyToCircleBuffer c.txBuffer TX_MASK c.txWrite data n n
            txWrite := c.txWrite + UInt32.ofNat n }, n)

theorem writeRound_writes (c : TcpConnection) (data : Bytes) (len : Int) :
    Writes c data len (writeRound c data len) := by
  have hle : writeLength c len ≤ len ∧ writeLength c len ≤ windowAvailable c ∧
      writeLength c len ≤ bufferAvailable c := by
    unfold writeLength
    dsimp only
    split_ifs <;> omega
  unfold writeRound
  dsimp only
  generalize writeLength c len = dataLength at *
  obtain ⟨hlen, hwindow, hbuffer⟩ := hle
  split_ifs with hpos
  · obtain ⟨n, rfl⟩ := Int.eq_ofNat_of_zero_le (le_of_lt hpos)
    rw [Word.ofInt_natCast]
    exact .accepted (by omega) hlen hwindow hbuffer
  · exact .none

end EthTransfer
