import EthTransfer.Receive.Merge
import EthTransfer.Receive.Stream

/-!
# Progress in order

A segment that reaches over `rx_write` should move it.  The table of out-of-order segments
holds 31, and a new segment that finds it full should take the place of the highest one.
`findLatest` leaves `latest_index` at its first value, so `add_segment` returns before it
replaces or merges anything.

* `Progress` is what should happen to a segment that passes the checks.
* `BelowFull` is the condition under which it does not: the table is full, and the segment
  is new and lies below the highest one.
* `progress_iff` decides it in every state that a run with a conforming peer reaches.
-/

namespace EthTransfer

open Frontier

/-! ## What should happen -/

/-- Entry `i` of the table has the highest position. -/
structure Highest (segments : List TcpSegment) (i : ℕ) (g : TcpSegment) : Prop where
  stored : segments[i]? = some g
  le : ∀ g' ∈ segments, g'.position ≤ g.position

/-- The new segment has taken the place of the highest one, and the table is merged. -/
def KeptInPlace (c c' : TcpConnection) (newSegment : TcpSegment) : Prop :=
  ∃ i g, Highest c.rxSegments i g ∧
    Merged c.rxWrite (c.rxSegments.set i newSegment) c'.rxWrite c'.rxSegments ∧
    Settled c'.rxWrite c'.rxSegments

/-- The table is full, and the segment is a new one below the highest in it. -/
structure BelowFull (c : TcpConnection) (newSegment : TcpSegment) : Prop where
  full : c.rxSegments.length = SEG_MASK
  new : c.rxWrite < newSegment.stop
  absent : newSegment ∉ c.rxSegments
  below : ∃ g ∈ c.rxSegments, newSegment.position < g.position

/-- A segment that reaches over `rx_write` moves it to its end or further, and a new segment
below the highest one of a full table is kept in its place. -/
structure Progress (ipAddr : UInt32) (c : TcpConnection) (packet : TcpPacket) : Prop where
  in_order : (packet.base c).toNat ≤ c.rxWrite.toNat →
    c.rxWrite.toNat < (packet.base c).toNat + packet.dataLength.toNat →
    (packet.base c).toNat + packet.dataLength.toNat ≤ (tcpInput ipAddr c packet).rxWrite.toNat
  in_place : BelowFull c (packet.segment c) →
    KeptInPlace c (tcpInput ipAddr c packet) (packet.segment c)

/-! ## What does -/

section Steps

variable {c added : TcpConnection} {data : Bytes} {n : ℕ} {dest : UInt32}

/-- A segment that reaches over `rx_write` moves it, unless it finds the table full. -/
theorem Added.in_order (hadded : Added c (c.copyRx data n dest) ⟨dest, UInt32.ofNat n⟩ added)
    (hsettled : Settled c.rxWrite c.rxSegments)
    (hnot : ¬ BelowFull c ⟨dest, UInt32.ofNat n⟩) (hfits : dest.toNat + n < 2 ^ 32)
    (hbase : dest.toNat ≤ c.rxWrite.toNat) (hover : c.rxWrite.toNat < dest.toNat + n) :
    dest.toNat + n ≤ added.rxWrite.toNat := by
  have hend : (TcpSegment.stop ⟨dest, UInt32.ofNat n⟩).toNat = dest.toNat + n :=
    Word.toNat_add_ofNat hfits
  cases hadded with
  | old hstop =>
    have hle := UInt32.le_iff_toNat_le.mp hstop
    omega
  | duplicate hstop hmem =>
    have hlt : c.rxWrite.toNat < dest.toNat := UInt32.lt_iff_toNat_lt.mp (hsettled _ hmem).1
    omega
  | full hstop hmem hlen =>
    -- every segment of the table lies above the new one
    obtain ⟨g, hg⟩ := List.exists_mem_of_length_pos
      (show 0 < c.rxSegments.length by rw [hlen]; decide)
    refine absurd ⟨hlen, hstop, hmem, g, hg, UInt32.lt_iff_toNat_lt.mpr ?_⟩ hnot
    have hlt := UInt32.lt_iff_toNat_lt.mp (hsettled g hg).1
    exact Nat.lt_of_le_of_lt hbase hlt
  | merged hstop hmem hlen hmerged hsettled' =>
    refine (hmerged.isFrontier hsettled').le_of_covered fun p hle hlt => ?_
    exact mem_covered_concat.mpr (Or.inr ⟨Nat.le_trans hbase hle, hend ▸ hlt⟩)

/-- A full table stays as it is, so the new segment is in no place of it. -/
theorem Added.not_in_place {copied : TcpConnection} {g : TcpSegment}
    (hadded : Added c copied g added) (hcopied : copied.rxSegments = c.rxSegments)
    (hbelow : BelowFull c g) : ¬ KeptInPlace c added g := by
  rintro ⟨i, highest, hhighest, hmerged, -⟩
  have hsame : added.rxSegments = c.rxSegments := by
    cases hadded with
    | old hstop => exact absurd hbelow.new (UInt32.not_lt.mpr hstop)
    | duplicate hstop hmem => rfl
    | full hstop hmem hlen => exact hcopied
    | merged hstop hmem hlen => exact absurd hbelow.full hlen
  have heq : c.rxSegments = c.rxSegments.set i g := by
    refine List.Sublist.eq_of_length ?_ (List.length_set ..).symm
    rw [← hsame] at hmerged ⊢
    exact hmerged.sublist
  obtain ⟨hi, -⟩ := List.getElem?_eq_some_iff.mp hhighest.stored
  refine hbelow.absent ?_
  rw [heq]
  exact List.mem_set hi g

end Steps

/-- In every state of a connection with a conforming peer, a segment that passes the checks
makes progress exactly when it is not a new one below the highest of a full table. -/
theorem progress_iff {s : Stack} {syn : TcpPacket} {c₀ c : TcpConnection} {h : ConnHistory}
    {st : Stream} {packet : TcpPacket} (hopens : Opens s syn c₀)
    (hrun : ConnRun s.ipAddr (Conforms s.ipAddr st) c₀ h c) (hto : Addressed s.ipAddr c packet)
    (hrst : packet.tcp.has TCP_RST = false) (haccepts : Accepts c packet) :
    Progress s.ipAddr c packet ↔ ¬ BelowFull c (packet.segment c) := by
  have hinv := hrun.receivesStream (hopens.receivesStream st)
  obtain ⟨added, hadded, heq⟩ := tcpInput_of_accepts hto hrst haccepts
  obtain ⟨n, hn, hmax⟩ := haccepts.exists_length
  have hcount : packet.dataLength.toNat = n := by rw [hn, Int.toNat_natCast]
  have hsegment : packet.segment c = ⟨packet.base c, UInt32.ofNat n⟩ := by
    rw [TcpPacket.segment, hn, Word.ofInt_natCast]
  constructor
  · intro hprogress hbelow
    have hplace := hprogress.in_place hbelow
    rw [heq] at hplace
    exact hadded.not_in_place rfl hbelow hplace
  · intro hnot
    refine ⟨fun hbase hover => ?_, fun hbelow => absurd hbelow hnot⟩
    rw [hcount] at hover ⊢
    rw [heq]
    have hfin := hinv.write_le
    have hle := st.fin_le
    refine (TcpPacket.added_of_length hn hadded).in_order hinv.window.settled ?_ (by omega) hbase
      hover
    rwa [hsegment] at hnot

/-! ## A full table -/

/-- A peer that sends zeros. -/
def zerosStream : Stream where
  byte _ := 0
  fin := 4097
  fin_pos := by decide
  fin_le := by decide

/-- A data segment of one zero. -/
def zeroSegment (sequence : UInt32) : TcpPacket := peerPacket sequence 101 TCP_ACK 1024 [0]

/-- The SYN-ACK, then every second byte of the stream from offset 3 on. -/
def everySecond (n : ℕ) : List ConnEvent :=
  .send ⟨0, 0⟩ (fun _ => 0) ::
    (List.range n).map fun i => .receive (zeroSegment (3 + 2 * UInt32.ofNat i))

/-- The connection after them. -/
def secondsStored (n : ℕ) : ConnHistory × TcpConnection :=
  connExec listeningStack.ipAddr peerConnection (everySecond n)

theorem progress_iff_room :
    Progress listeningStack.ipAddr (secondsStored 30).2 (zeroSegment 1) := by
  have hmeets : ConnMeets listeningStack.ipAddr (Conforms listeningStack.ipAddr zerosStream)
      peerConnection (everySecond 30) := by
    decide +kernel
  refine (progress_iff peerSyn_opens hmeets.run (by decide +kernel) (by decide +kernel)
    (by decide +kernel)).mpr fun hbelow => ?_
  have hfull := hbelow.full
  revert hfull
  decide +kernel

/-- With 31 segments in the table, the missing byte is dropped: `rx_write` stays, and it will
be dropped again. -/
theorem progress_blocked :
    Opens listeningStack peerSyn peerConnection ∧
      ConnRun listeningStack.ipAddr (Conforms listeningStack.ipAddr zerosStream) peerConnection
        (secondsStored 31).1 (secondsStored 31).2 ∧
      ¬ Progress listeningStack.ipAddr (secondsStored 31).2 (zeroSegment 1) ∧
      (secondsStored 31).2.state ≠ .listen ∧
      (secondsStored 31).2.rxSegments.length = SEG_MASK ∧
      Slice zerosStream (secondsStored 31).1 (secondsStored 31).2 (zeroSegment 1) ∧
      Addressed listeningStack.ipAddr (secondsStored 31).2 (zeroSegment 1) ∧
      (zeroSegment 1).tcp.has TCP_RST = false ∧
      Accepts (secondsStored 31).2 (zeroSegment 1) ∧
      ((zeroSegment 1).base (secondsStored 31).2).toNat = 1 ∧
      (zeroSegment 1).dataLength = 1 ∧
      (secondsStored 31).2.rxWrite = 1 ∧
      (tcpInput listeningStack.ipAddr (secondsStored 31).2 (zeroSegment 1)).rxWrite = 1 := by
  have hmeets : ConnMeets listeningStack.ipAddr (Conforms listeningStack.ipAddr zerosStream)
      peerConnection (everySecond 31) := by
    decide +kernel
  refine ⟨peerSyn_opens, hmeets.run, fun hprogress => ?_, by decide +kernel⟩
  have horder := hprogress.in_order (by decide +kernel) (by decide +kernel)
  revert horder
  decide +kernel

end EthTransfer
