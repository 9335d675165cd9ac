import EthTransfer.Frames.Bytes
import EthTransfer.Frames.Transmit
import Mathlib.Tactic.IntervalCases

/-!
# Frames on the wire

`TxFrame.bytes` writes a transmitted frame down as a list of bytes, in the order in which
they leave, with its checksums.  The theorems say that the three functions that send a
frame send these bytes, whatever the packet that they fill in held at first.

* `arpBytes_eq`, `echoBytes_eq` and `segmentBytes_eq`.
* `ipChecksumAdd_eq`: on a list of bytes, `ip_checksum_add` adds the sum of its words.
-/

namespace EthTransfer

open InternetChecksum RingBuffer

/-! ## Fields -/

def bytes16 (v : UInt16) : List UInt8 := [(v >>> 8).toUInt8, v.toUInt8]

def bytes32 (v : UInt32) : List UInt8 :=
  [(v >>> 24).toUInt8, (v >>> 16).toUInt8, (v >>> 8).toUInt8, v.toUInt8]

def macBytes (v : EthMac) : List UInt8 :=
  [v.mac[0], v.mac[1], v.mac[2], v.mac[3], v.mac[4], v.mac[5]]

@[simp] theorem length_bytes16 (v : UInt16) : (bytes16 v).length = 2 := rfl

@[simp] theorem length_bytes32 (v : UInt32) : (bytes32 v).length = 4 := rfl

@[simp] theorem length_macBytes (v : EthMac) : (macBytes v).length = 6 := rfl

/-! ## Frames -/

/-- The Ethernet header. -/
def ethBytes (dest source : EthMac) (etherType : UInt16) : List UInt8 :=
  macBytes dest ++ macBytes source ++ bytes16 etherType

/-- The IP header. -/
def ipBytes (totalLength identification : UInt16) (protocol : UInt8) (source dest : UInt32)
    (checksum : UInt16) : List UInt8 :=
  [0x45, 0] ++ bytes16 totalLength ++ bytes16 identification ++ [0x40, 0, 128, protocol] ++
    bytes16 checksum ++ bytes32 source ++ bytes32 dest

/-- The ping header of a reply. -/
def EchoReply.headerBytes (reply : EchoReply) (checksum : UInt16) : List UInt8 :=
  [0, 0] ++ bytes16 checksum ++ bytes16 reply.identifier ++ bytes16 reply.sequenceNumber

/-- The ping message of a reply. -/
def EchoReply.messageBytes (reply : EchoReply) (checksum : UInt16) : List UInt8 :=
  reply.headerBytes checksum ++ reply.payload

/-- The TCP header without options. -/
def TxSegment.headerBytes (segment : TxSegment) (checksum : UInt16) : List UInt8 :=
  bytes16 segment.sourcePort ++ bytes16 segment.destPort ++ bytes32 segment.sequence ++
    bytes32 segment.ack ++ bytes16 segment.offsetFlags ++ bytes16 segment.windowSize ++
    bytes16 checksum ++ [0, 0]

/-- The TCP segment. -/
def TxSegment.segmentBytes (segment : TxSegment) (checksum : UInt16) : List UInt8 :=
  segment.headerBytes checksum ++ segment.options.flatMap bytes32 ++ segment.payload

/-- The pseudo header of a segment. -/
def pseudoHeader (source dest : UInt32) (tcpLength : UInt16) : List UInt8 :=
  bytes32 source ++ bytes32 dest ++ [0, 6] ++ bytes16 tcpLength

/-- A transmitted frame.  The checksum of a message is that of the same message with zero
in its field, and a segment is summed behind its pseudo header. -/
def TxFrame.bytes (s : Stack) : TxFrame → List UInt8
  | .arp reply =>
    ethBytes reply.dest s.localMac 0x0806 ++ [0, 1, 0x08, 0x00, 6, 4, 0, 2] ++
      macBytes reply.sha ++ bytes32 reply.spa ++ macBytes reply.tha ++ bytes32 reply.tpa
  | .echo reply =>
    let ip := ipBytes reply.totalLength reply.identification 1 reply.sourceIp reply.destIp
    ethBytes reply.dest s.localMac 0x0800 ++ ip (checksum (ip 0)) ++
      reply.messageBytes (checksum (reply.messageBytes 0))
  | .tcp identification segment =>
    let ip := ipBytes segment.totalLength identification 6 s.ipAddr segment.destIp
    let tcpLength := UInt16.ofNat (segment.segmentBytes 0).length
    ethBytes segment.destMac s.localMac 0x0800 ++ ip (checksum (ip 0)) ++
      segment.segmentBytes
        (checksum (pseudoHeader s.ipAddr segment.destIp tcpLength ++ segment.segmentBytes 0))

/-! ## Checksums -/

theorem toNat_word (a b : UInt8) :
    (a.toUInt32 <<< 8 ||| b.toUInt32).toNat = 256 * a.toNat + b.toNat := by
  have hlt := a.toNat_lt
  simp only [UInt32.toNat_or, UInt32.toNat_shiftLeft, UInt8.toNat_toUInt32, UInt32.reduceToNat,
    Nat.reduceMod]
  rw [Nat.mod_eq_of_lt (by rw [Nat.shiftLeft_eq]; omega), shiftLeft_or_byte]

theorem ofNat_word (a b : UInt8) :
    a.toUInt32 <<< 8 ||| b.toUInt32 = UInt32.ofNat (256 * a.toNat + b.toNat) := by
  rw [← toNat_word, UInt32.ofNat_toNat]

theorem ipChecksumAdd_eq (checksum : UInt32) (buf : Int → UInt8) {l : List UInt8}
    (hbuf : ∀ k (h : k < l.length), buf k = l[k]) :
    ipChecksumAdd checksum buf l.length = checksum + UInt32.ofNat (wordSum l) := by
  have hloop : ∀ (l : List UInt8) (n : ℕ) (i len : Int) (checksum : UInt32),
      (∀ k (h : k < l.length), buf (i + k) = l[k]) → len = i + l.length → l.length ≤ n →
      (if (checksumLoop buf len n i checksum).1 ≠ len then
        (checksumLoop buf len n i checksum).2 + (buf (len - 1)).toUInt32 <<< 8
      else (checksumLoop buf len n i checksum).2) = checksum + UInt32.ofNat (wordSum l) := by
    intro l
    induction l using words.induct with
    | case1 =>
      intro n i len checksum _ hlen _
      have hstop : checksumLoop buf len n i checksum = (i, checksum) := by
        cases n with
        | zero => rfl
        | succ n => rw [checksumLoop, if_neg (by simp at hlen; omega)]
      rw [hstop]
      simp at hlen
      simp [hlen, wordSum, words]
    | case2 a =>
      intro n i len checksum hbuf hlen _
      have hstop : checksumLoop buf len n i checksum = (i, checksum) := by
        cases n with
        | zero => rfl
        | succ n => rw [checksumLoop, if_neg (by simp at hlen; omega)]
      have hlast := hbuf 0 (by simp)
      simp at hlen hlast
      have hword := ofNat_word a 0
      simp at hword
      rw [hstop, if_pos (by dsimp only; omega), show len - 1 = i by omega, hlast]
      simp [wordSum, words, hword]
    | case3 a b l ih =>
      intro n i len checksum hbuf hlen hn
      have h0 := hbuf 0 (by simp)
      have h1 := hbuf 1 (by simp)
      simp at h0 h1 hlen hn
      obtain ⟨n, rfl⟩ : ∃ m, n = m + 1 := ⟨n - 1, by omega⟩
      have hnext : checksumLoop buf len (n + 1) i checksum = checksumLoop buf len n (i + 2)
          (checksum + UInt32.ofNat (256 * a.toNat + b.toNat)) := by
        rw [checksumLoop, if_pos (by omega)]
        dsimp only
        rw [h0, h1, ofNat_word]
      rw [hnext, ih n (i + 2) len _ (fun k hk => ?_) (by omega) (by omega)]
      · simp only [wordSum, words, List.sum_cons, UInt32.ofNat_add, UInt32.add_assoc]
      · have hrest := hbuf (k + 2) (by simp; omega)
        simp at hrest
        rw [← hrest]
        congr 1
        omega
  have h := hloop l (l.length : Int).toNat 0 l.length checksum (by simpa using hbuf) (by simp)
    (by simp)
  exact h

theorem foldStep_eq {t : ℕ} (hlt : t < 2 ^ 32) :
    (UInt32.ofNat t &&& (0xFFFF : UInt32)) + (UInt32.ofNat t >>> 16) = UInt32.ofNat (fold t) := by
  have hlow : (UInt32.ofNat t &&& (0xFFFF : UInt32)).toNat = t % 65536 := by
    rw [UInt32.toNat_and, Word.toNat_ofNat_of_lt hlt]
    exact Nat.and_two_pow_sub_one_eq_mod t 16
  have hhigh : (UInt32.ofNat t >>> 16).toNat = t / 65536 := by
    rw [UInt32.toNat_shiftRight, Word.toNat_ofNat_of_lt hlt]
    exact Nat.shiftRight_eq_div_pow t 16
  rw [← UInt32.toNat_inj, UInt32.toNat_add, hlow, hhigh, UInt32.toNat_ofNat', fold]

theorem toNat_ipChecksumFinal {t : ℕ} (hlt : t < 2 ^ 32) :
    (ipChecksumFinal (UInt32.ofNat t)).toNat = 65535 - fold (fold t) := by
  have hle := (folds_twice hlt).le
  have hfold : fold t < 2 ^ 32 := by
    unfold fold
    omega
  unfold ipChecksumFinal
  dsimp only
  rw [foldStep_eq hlt, foldStep_eq hfold, UInt32.toNat_toUInt16, UInt32.toNat_and,
    UInt32.toNat_not, Word.toNat_ofNat_of_lt (by omega)]
  have hmask := Nat.and_two_pow_sub_one_eq_mod (UInt32.size - 1 - fold (fold t)) 16
  change (UInt32.size - 1 - fold (fold t) &&& 65535) % 2 ^ 16 = _
  rw [hmask]
  unfold UInt32.size
  omega

/-- The bytes that a pointer leads to. -/
theorem pointer_natCast (below buffer : Bytes) (off k : ℕ) :
    pointer below buffer off k = buffer (off + k) := by
  unfold pointer
  rw [if_pos (by omega)]
  congr 1

theorem ipChecksumAdd_pointer (sum : UInt32) (below buffer : Bytes) (off n : ℕ) :
    ipChecksumAdd sum (pointer below buffer off) n =
      sum + UInt32.ofNat (wordSum (takeBytes (fun i => buffer (off + i)) n)) := by
  have hsum := ipChecksumAdd_eq sum (pointer below buffer off)
    (l := takeBytes (fun i => buffer (off + i)) n) fun k hk => by
      rw [pointer_natCast]
      simp [takeBytes]
  rw [length_takeBytes, Int.toNat_natCast] at hsum
  exact hsum

/-- The checksum of bytes that were added in one or several pieces. -/
theorem ipChecksumFinal_eq {l : List UInt8} (hlt : wordSum l < 2 ^ 32) :
    ipChecksumFinal (UInt32.ofNat (wordSum l)) = checksum l := by
  have hle := (folds_onesSum l).le
  rw [← UInt16.toNat_inj, toNat_ipChecksumFinal hlt, fold_twice_wordSum hlt, checksum,
    UInt16.toNat_ofNat', Nat.mod_eq_of_lt (by omega)]

/-! ## Memory -/

theorem takeBytes_add (b : Bytes) (m n : ℕ) :
    takeBytes b ((m + n : ℕ) : Int) = takeBytes b m ++ takeBytes (fun i => b (m + i)) n := by
  simp only [takeBytes, Int.toNat_natCast, List.range_add, List.map_append, List.map_map]
  rfl

theorem takeBytes_congr {b b' : Bytes} {n : Int} (h : ∀ i < n.toNat, b i = b' i) :
    takeBytes b n = takeBytes b' n := by
  simpa [takeBytes] using h

theorem takeBytes_inj {b b' : Bytes} {n : Int} (h : takeBytes b n = takeBytes b' n) {i : ℕ}
    (hi : i < n.toNat) : b i = b' i :=
  List.map_inj_left.mp h i (List.mem_range.mpr hi)

theorem toNat_htons (v : UInt16) :
    (htons v).toNat = 256 * (v.toNat % 256) + v.toNat / 256 := by
  have hlt := v.toNat_lt
  have hhigh : v.toNat <<< 8 % 2 ^ 16 = (v.toNat % 256) <<< 8 := by
    rw [Nat.shiftLeft_eq, Nat.shiftLeft_eq]
    omega
  simp only [htons, UInt16.toNat_or, UInt16.toNat_shiftLeft, UInt16.toNat_shiftRight,
    UInt16.reduceToNat, Nat.reduceMod]
  rw [hhigh, Nat.shiftRight_eq_div_pow, ← Nat.shiftLeft_add_eq_or_of_lt (by omega),
    Nat.shiftLeft_eq]
  omega

/-- A checksum in network order. -/
theorem put16_htons (b : Bytes) (i : ℕ) (v : UInt16) :
    put16 b i (htons v) = swap16 (put16 b i v) i := by
  have hlt := v.toNat_lt
  have hvalue := toNat_htons v
  have hlow : (htons v).toUInt8 = (v >>> 8).toUInt8 := by
    rw [← UInt8.toNat_inj, UInt16.toNat_toUInt8, UInt16.toNat_toUInt8, UInt16.toNat_shiftRight,
      hvalue]
    simp only [UInt16.reduceToNat, Nat.reduceMod, Nat.shiftRight_eq_div_pow]
    omega
  have hhigh : (htons v >>> 8).toUInt8 = v.toUInt8 := by
    have hdiv : (256 * (v.toNat % 256) + v.toNat / 256) / 2 ^ 8 = v.toNat % 256 := by omega
    rw [← UInt8.toNat_inj, UInt16.toNat_toUInt8, UInt16.toNat_toUInt8, UInt16.toNat_shiftRight,
      hvalue]
    simp only [UInt16.reduceToNat, Nat.reduceMod, Nat.shiftRight_eq_div_pow]
    rw [hdiv, Nat.mod_mod]
  funext j
  simp only [put16, swap16, hlow, hhigh]
  split_ifs <;> simp_all

theorem atOffset_of_le {off i : ℕ} (f : Bytes → Bytes) (b : Bytes) (hle : off ≤ i) :
    atOffset off f b i = f (fun j => b (off + j)) (i - off) := by
  unfold atOffset
  rw [if_neg (by omega)]

/-- The conversions leave what is behind their header. -/
theorem swap16_of_gt (b : Bytes) {i j : ℕ} (hlt : i + 1 < j) : swap16 b i j = b j := by
  rw [swap16, if_neg (by omega), if_neg (by omega)]

theorem put16_of_gt (b : Bytes) (v : UInt16) {i j : ℕ} (hlt : i + 1 < j) : put16 b i v j = b j := by
  rw [put16, if_neg (by omega), if_neg (by omega)]

theorem swap32_of_gt (b : Bytes) {i j : ℕ} (hlt : i + 3 < j) : swap32 b i j = b j := by
  rw [swap32, if_neg (by omega), if_neg (by omega), if_neg (by omega), if_neg (by omega)]

theorem ntohIp_of_le (b : Bytes) {j : ℕ} (hle : 20 ≤ j) : ntohIp b j = b j := by
  rw [ntohIp, swap32_of_gt _ (by omega), swap32_of_gt _ (by omega), swap16_of_gt _ (by omega),
    swap16_of_gt _ (by omega), swap16_of_gt _ (by omega)]

theorem ntohTcp_of_le (b : Bytes) {i j : ℕ} (hle : i + 20 ≤ j) : ntohTcp b i j = b j := by
  simp only [ntohTcp]
  rw [swap16_of_gt _ (by omega), swap16_of_gt _ (by omega), swap16_of_gt _ (by omega),
    swap32_of_gt _ (by omega), swap32_of_gt _ (by omega), swap16_of_gt _ (by omega),
    swap16_of_gt _ (by omega)]

theorem ntohPing_of_le (b : Bytes) {i j : ℕ} (hle : i + 8 ≤ j) : ntohPing b i j = b j := by
  rw [ntohPing, swap16_of_gt _ (by omega), swap16_of_gt _ (by omega), swap16_of_gt _ (by omega)]

/-! ## TCP -/

section Segment

variable (s : Stack) (c : TcpConnection) (scratch : Bytes)

/-- The packet as `send_packet` writes it. -/
def finished (buffer : Bytes) (ipSum tcpSum : UInt16) : Bytes :=
  swap16 (swap16 (put16 (swap16 (put16 buffer 24 ipSum) 24) 50 tcpSum) 50) 12

/-- The headers, from the first byte to the options. -/
theorem takeBytes_finished (x y : UInt16) :
    takeBytes (finished (segmentBuffer s c scratch) x y) (34 + sendOffset c) =
      ethBytes c.remoteMac s.localMac 0x0800 ++
        ipBytes (buildSegment c scratch).totalLength s.identificationCounter 6 s.ipAddr
          c.remoteIp x ++
        ((buildSegment c scratch).headerBytes y ++
          (buildSegment c scratch).options.flatMap bytes32) := by
  unfold sendOffset segmentBuffer buildSegment sendOffset
  cases isSyn c with
  | true => rfl
  | false => rfl

theorem takeBytes_ipHeader :
    takeBytes (fun i => segmentBuffer s c scratch (14 + i)) 20 =
      ipBytes (buildSegment c scratch).totalLength s.identificationCounter 6 s.ipAddr
        c.remoteIp 0 := by
  unfold segmentBuffer buildSegment sendOffset
  cases isSyn c with
  | true => rfl
  | false => rfl

theorem takeBytes_addresses (x : UInt16) :
    takeBytes (fun i => put16 (segmentBuffer s c scratch) 24 x (26 + i)) 8 =
      bytes32 s.ipAddr ++ bytes32 c.remoteIp := by
  unfold segmentBuffer buildSegment sendOffset
  cases isSyn c with
  | true => rfl
  | false => rfl

theorem takeBytes_tcpHeader (x : UInt16) :
    takeBytes (fun i => put16 (segmentBuffer s c scratch) 24 x (34 + i)) (sendOffset c) =
      (buildSegment c scratch).headerBytes 0 ++
        (buildSegment c scratch).options.flatMap bytes32 := by
  unfold sendOffset segmentBuffer buildSegment sendOffset
  cases isSyn c with
  | true => rfl
  | false => rfl

/-- The conversions leave what is copied behind the TCP header. -/
theorem hton_copy (buffer : Bytes) (copy : Bytes → Bytes) {off : ℕ} (hoff : 20 ≤ off) (i : ℕ) :
    atOffset 34 htonTcp (atOffset 14 htonIp (atOffset (34 + off) copy buffer)) (34 + off + i) =
      copy (fun j => buffer (34 + off + j)) i := by
  rw [atOffset_of_le _ _ (by omega), htonTcp, ntohTcp_of_le _ (by omega),
    atOffset_of_le _ _ (by omega),
    htonIp, ntohIp_of_le _ (by omega), atOffset_of_le _ _ (by omega)]
  congr 1
  omega

/-- Behind the options there is what `copy_from_circle_buffer` has left. -/
theorem segmentBuffer_payload :
    ∃ dest : Bytes, ∀ i, segmentBuffer s c scratch (34 + (sendOffset c).toNat + i) =
      copyFromCircleBuffer dest (sendLength c) c.txBuffer TX_MASK c.txSent (sendLength c) i := by
  have hoffset := sendOffset_cases c
  exact ⟨_, fun i => hton_copy _ _ (by omega) i⟩

/-- The payload comes from the ring, whatever was in the packet. -/
theorem takeBytes_payload {n : ℕ} (hlength : sendLength c = n) :
    takeBytes (fun i => segmentBuffer s c scratch (34 + (sendOffset c).toNat + i)) n =
      (buildSegment c scratch).payload := by
  have hle := sendLength_le c
  unfold MAX_SEGMENT at hle
  obtain ⟨dest, hdest⟩ := segmentBuffer_payload s c scratch
  have hring : ∀ dest, copyFromCircleBuffer dest n c.txBuffer TX_MASK c.txSent n =
      load RING dest c.txBuffer c.txSent.toNat n := fun dest =>
    copyFromCircleBuffer_ring dest c.txBuffer c.txSent (show n < 8192 by omega) le_rfl
  have hpayload : (buildSegment c scratch).payload =
      takeBytes (copyFromCircleBuffer scratch (sendLength c) c.txBuffer TX_MASK c.txSent
        (sendLength c)) (sendLength c) := rfl
  rw [takeBytes_congr fun i _ => hdest i, hpayload, hlength, hring, hring]
  refine takeBytes_congr fun i hi => ?_
  rw [Int.toNat_natCast] at hi
  rw [load, load, if_pos hi, if_pos hi]

theorem ipChecksum_pointer (below buffer : Bytes) (off : ℕ) {n : ℕ} (hn : n ≤ 65535) :
    ipChecksum (pointer below buffer off) n =
      checksum (takeBytes (fun i => buffer (off + i)) n) := by
  have hle := wordSum_le (takeBytes (fun i => buffer (off + i)) n)
  rw [length_takeBytes, Int.toNat_natCast] at hle
  rw [ipChecksum, ipChecksumAdd_pointer, UInt32.zero_add, ipChecksumFinal_eq (by omega)]

/-- The second piece of the pseudo header. -/
theorem ipChecksumAdd_tempEncode (sum : UInt32) (n : ℕ) :
    ipChecksumAdd sum (tempEncode n) 4 =
      sum + UInt32.ofNat (wordSum ([0, 6] ++ bytes16 (UInt16.ofNat n))) := by
  have hshift : (n : Int) >>> (8 : ℕ) = ((n / 256 : ℕ) : Int) := by
    rw [Int.shiftRight_eq_div_pow]
    norm_num
  have hhigh : UInt8.ofInt ((n : Int) >>> (8 : ℕ)) = (UInt16.ofNat n >>> 8).toUInt8 := by
    rw [hshift, ← UInt8.toNat_inj, UInt8.ofInt, UInt8.toNat_ofNat', UInt16.toNat_toUInt8,
      UInt16.toNat_shiftRight, UInt16.toNat_ofNat']
    simp only [UInt16.reduceToNat, Nat.reduceMod, Nat.shiftRight_eq_div_pow]
    omega
  have hlow : UInt8.ofInt (n : Int) = (UInt16.ofNat n).toUInt8 := by
    rw [← UInt8.toNat_inj, UInt8.ofInt, UInt8.toNat_ofNat', UInt16.toNat_toUInt8,
      UInt16.toNat_ofNat']
    omega
  refine ipChecksumAdd_eq sum (tempEncode n) (l := [0, 6] ++ bytes16 (UInt16.ofNat n)) ?_
  intro k hk
  have hk4 : k < 4 := hk
  interval_cases k
  · rfl
  · rfl
  · exact hhigh
  · exact hlow

/-- The segment, with zero for its checksum. -/
theorem takeBytes_segment (x : UInt16) {n : ℕ} (hlength : sendLength c = n) :
    takeBytes (fun i => put16 (segmentBuffer s c scratch) 24 x (34 + i))
        (((sendOffset c).toNat + n : ℕ) : Int) =
      (buildSegment c scratch).segmentBytes 0 := by
  have hoffset := sendOffset_cases c
  have hcast : (((sendOffset c).toNat : ℕ) : Int) = sendOffset c := by omega
  rw [takeBytes_add, hcast, takeBytes_tcpHeader, TxSegment.segmentBytes,
    ← takeBytes_payload s c scratch hlength]
  congr 1
  refine takeBytes_congr fun i _ => ?_
  rw [put16_of_gt _ _ (by omega), Nat.add_assoc]

/-- The checksum of a segment. -/
theorem putTcpChecksum_eq (below : Bytes) (x : UInt16) {n : ℕ} (hlength : sendLength c = n) :
    putTcpChecksum below (put16 (segmentBuffer s c scratch) 24 x) (sendOffset c + sendLength c) =
      put16 (put16 (segmentBuffer s c scratch) 24 x) 50 (htons (checksum
        (pseudoHeader s.ipAddr c.remoteIp
          (UInt16.ofNat ((buildSegment c scratch).segmentBytes 0).length) ++
          (buildSegment c scratch).segmentBytes 0))) := by
  have hoffset := sendOffset_cases c
  have hle := sendLength_le c
  unfold MAX_SEGMENT at hle
  have hcast : sendOffset c + sendLength c = (((sendOffset c).toNat + n : ℕ) : Int) := by omega
  have htotal : ((buildSegment c scratch).segmentBytes 0).length = (sendOffset c).toNat + n := by
    rw [← takeBytes_segment s c scratch x hlength, length_takeBytes, Int.toNat_natCast]
  have hsegment := wordSum_le ((buildSegment c scratch).segmentBytes 0)
  have haddresses := wordSum_le (bytes32 s.ipAddr ++ bytes32 c.remoteIp)
  have hrest := wordSum_le ([0, 6] ++ bytes16 (UInt16.ofNat ((sendOffset c).toNat + n)))
  have hsum : wordSum (pseudoHeader s.ipAddr c.remoteIp
        (UInt16.ofNat ((buildSegment c scratch).segmentBytes 0).length) ++
        (buildSegment c scratch).segmentBytes 0) =
      wordSum (bytes32 s.ipAddr ++ bytes32 c.remoteIp) +
        wordSum ([0, 6] ++ bytes16 (UInt16.ofNat ((sendOffset c).toNat + n))) +
        wordSum ((buildSegment c scratch).segmentBytes 0) := by
    rw [htotal, pseudoHeader, List.append_assoc (bytes32 _ ++ bytes32 _),
      wordSum_append (by simp), wordSum_append (by simp)]
  rw [htotal] at hsegment
  change _ ≤ 65535 * 8 at haddresses
  change _ ≤ 65535 * 4 at hrest
  unfold putTcpChecksum
  dsimp only
  have hfirst := ipChecksumAdd_pointer 0 below (put16 (segmentBuffer s c scratch) 24 x) 26 8
  rw [Nat.cast_ofNat, takeBytes_addresses, UInt32.zero_add] at hfirst
  rw [hfirst, hcast, ipChecksumAdd_tempEncode, ipChecksumAdd_pointer,
    takeBytes_segment s c scratch x hlength, ← UInt32.ofNat_add, ← UInt32.ofNat_add, ← hsum,
    ipChecksumFinal_eq (by omega)]

theorem putIpChecksum_eq (below : Bytes) :
    putIpChecksum below (segmentBuffer s c scratch) =
      put16 (segmentBuffer s c scratch) 24 (htons (checksum
        (ipBytes (buildSegment c scratch).totalLength s.identificationCounter 6 s.ipAddr
          c.remoteIp 0))) := by
  have hip := ipChecksum_pointer below (segmentBuffer s c scratch) 14 (n := 20) (by omega)
  rw [Nat.cast_ofNat, takeBytes_ipHeader] at hip
  rw [putIpChecksum, hip]

/-- The length of a frame. -/
theorem frameLength_eq {n : ℕ} (hlength : sendLength c = n) :
    14 + ((buildSegment c scratch).totalLength.toNat : Int) =
      ((34 + (sendOffset c).toNat + n : ℕ) : Int) := by
  have hoffset := sendOffset_cases c
  have hle := sendLength_le c
  unfold MAX_SEGMENT at hle
  have htotal : (buildSegment c scratch).totalLength =
      UInt16.ofInt (20 + sendOffset c + sendLength c) := rfl
  rw [htotal, UInt16.ofInt, UInt16.toNat_ofNat']
  omega

/-- A segment goes out as its bytes. -/
theorem segmentBytes_eq (below : Bytes) {n : ℕ} (hlength : sendLength c = n) :
    segmentBytes s c scratch below =
      some (TxFrame.bytes s (.tcp s.identificationCounter (buildSegment c scratch))) := by
  have hoffset := sendOffset_cases c
  have hle := sendLength_le c
  unfold MAX_SEGMENT at hle
  have hcast : ((34 + (sendOffset c).toNat : ℕ) : Int) = 34 + sendOffset c := by omega
  unfold segmentBytes sendPacket PACKET_MAX_SIZE
  dsimp only
  rw [frameLength_eq c scratch hlength, if_neg (by omega), putIpChecksum_eq,
    putTcpChecksum_eq s c scratch below _ hlength, takeBytes_add, hcast]
  rw [put16_htons _ 24, put16_htons _ 50]
  have hfront := takeBytes_finished s c scratch
  unfold finished at hfront
  rw [hfront]
  have hpayload : ∀ x y : UInt16, takeBytes (fun i => swap16 (swap16 (put16 (swap16
      (put16 (segmentBuffer s c scratch) 24 x) 24) 50 y) 50) 12 (34 + (sendOffset c).toNat + i)) n =
        (buildSegment c scratch).payload := by
    intro x y
    rw [← takeBytes_payload s c scratch hlength]
    refine takeBytes_congr fun i _ => ?_
    rw [swap16_of_gt _ (by omega), swap16_of_gt _ (by omega), put16_of_gt _ _ (by omega),
      swap16_of_gt _ (by omega), put16_of_gt _ _ (by omega)]
  rw [hpayload, TxFrame.bytes]
  simp only [TxSegment.segmentBytes, List.append_assoc]
  rfl

end Segment

/-! ## ARP -/

theorem etherType_of_arp {packet : EthPacket} (htype : packet.type = .arp) :
    packet.etherType = 0x0806 := by
  unfold EthPacket.type at htype
  dsimp only at htype
  split_ifs at htype with hshort hip harp
  exact harp

theorem etherType_of_ip {packet : EthPacket} (htype : packet.type = .ip) :
    packet.etherType = 0x0800 := by
  unfold EthPacket.type at htype
  dsimp only at htype
  split_ifs at htype with hshort hip
  exact hip

/-- A reply to an ARP request goes out as its bytes. -/
theorem arpBytes_eq (s : Stack) {packet : ArpPacket} (htype : packet.ethPacket.type = .arp)
    (scratch : Bytes) :
    arpBytes s packet scratch = (handleArpPacket s packet).map (TxFrame.bytes s) := by
  have hreply : takeBytes (swap16 (arpReplyBuffer s packet scratch) 12) 42 =
      ethBytes packet.ethPacket.source s.localMac packet.ethPacket.etherType ++
        [0, 1, 0x08, 0x00, 6, 4, 0, 2] ++ macBytes s.localMac ++ bytes32 s.ipAddr ++
        macBytes (readMac packet.header 8) ++ bytes32 (le32 packet.header 14) := rfl
  have hsent : sendPacket (arpReplyBuffer s packet scratch) 42 =
      some (takeBytes (swap16 (arpReplyBuffer s packet scratch) 12) 42) := by
    rw [sendPacket, if_neg (by decide)]
  unfold arpBytes handleArpPacket
  rw [hsent, hreply, etherType_of_arp htype]
  split_ifs <;> rfl

/-! ## Ping -/

section Echo

variable (s : Stack) (packet : IpPacket) (header scratch : Bytes)

/-- The reply to an echo request, with `header` the memory at `rx_ip_packet.ip_header`. -/
def echoReply : EchoReply where
  dest := packet.ethPacket.source
  identification := s.identificationCounter
  totalLength := UInt16.ofInt (pingPayloadLength (ipHeader header) + 20 + 8)
  sourceIp := s.ipAddr
  destIp := (ipHeader header).sourceIp
  identifier := le16 header (packet.transport + 4)
  sequenceNumber := le16 header (packet.transport + 6)
  payload := (List.range (pingPayloadLength (ipHeader header)).toNat).map fun i =>
    header (packet.transport + 8 + i)

theorem takeBytes_echoFront (x y : UInt16) :
    takeBytes (swap16 (swap16 (put16 (swap16 (put16 (echoReplyBuffer s packet header scratch)
        24 x) 24) 36 y) 36) 12) 42 =
      ethBytes packet.ethPacket.source s.localMac packet.ethPacket.etherType ++
        ipBytes (echoReply s packet header).totalLength s.identificationCounter 1 s.ipAddr
          (ipHeader header).sourceIp x ++
        (echoReply s packet header).headerBytes y := rfl

theorem takeBytes_echoIpHeader :
    takeBytes (fun i => echoReplyBuffer s packet header scratch (14 + i)) 20 =
      ipBytes (echoReply s packet header).totalLength s.identificationCounter 1 s.ipAddr
        (ipHeader header).sourceIp 0 := rfl

theorem takeBytes_echoHeader (x : UInt16) :
    takeBytes (fun i => put16 (echoReplyBuffer s packet header scratch) 24 x (34 + i)) 8 =
      (echoReply s packet header).headerBytes 0 := rfl

theorem takeBytes_echoPayload :
    takeBytes (fun i => echoReplyBuffer s packet header scratch (42 + i))
        (pingPayloadLength (ipHeader header)) =
      (echoReply s packet header).payload := by
  have hpayload : (echoReply s packet header).payload =
      takeBytes (fun i => header (packet.transport + 8 + i))
        (pingPayloadLength (ipHeader header)) := rfl
  rw [hpayload]
  refine takeBytes_congr fun i hi => ?_
  unfold echoReplyBuffer
  rw [atOffset_of_le _ _ (by omega), htonPing, ntohPing_of_le _ (by omega),
    atOffset_of_le _ _ (by omega),
    htonIp, ntohIp_of_le _ (by omega), put16_of_gt _ _ (by omega), memcpy, if_pos (by omega)]
  congr 1
  omega

/-- The message, with zero for its checksum. -/
theorem takeBytes_message (x : UInt16) {n : ℕ}
    (hlength : pingPayloadLength (ipHeader header) = n) :
    takeBytes (fun i => put16 (echoReplyBuffer s packet header scratch) 24 x (34 + i))
        ((8 + n : ℕ) : Int) =
      (echoReply s packet header).messageBytes 0 := by
  rw [takeBytes_add, Nat.cast_ofNat, takeBytes_echoHeader, EchoReply.messageBytes,
    ← takeBytes_echoPayload s packet header scratch, hlength]
  congr 1
  refine takeBytes_congr fun i _ => ?_
  rw [put16_of_gt _ _ (by omega), ← Nat.add_assoc]

/-- A reply to an echo request goes out as its bytes. -/
theorem sendPacket_echo (htype : packet.ethPacket.type = .ip) (below : Bytes) {n : ℕ}
    (hlength : pingPayloadLength (ipHeader header) = n) (hfits : n + 42 ≤ 2048) :
    sendPacket (putPingChecksum below (putIpChecksum below
        (echoReplyBuffer s packet header scratch)) (pingPayloadLength (ipHeader header) + 8))
        ((UInt16.ofInt (pingPayloadLength (ipHeader header) + 20 + 8)).toNat + 14) =
      some (TxFrame.bytes s (.echo (echoReply s packet header))) := by
  have hip := ipChecksum_pointer below (echoReplyBuffer s packet header scratch) 14 (n := 20)
    (by omega)
  rw [Nat.cast_ofNat, takeBytes_echoIpHeader] at hip
  have hcast : pingPayloadLength (ipHeader header) + 8 = ((8 + n : ℕ) : Int) := by omega
  have htotal : ((UInt16.ofInt (pingPayloadLength (ipHeader header) + 20 + 8)).toNat : Int) + 14 =
      ((42 + n : ℕ) : Int) := by
    rw [hlength, UInt16.ofInt, UInt16.toNat_ofNat']
    omega
  unfold sendPacket PACKET_MAX_SIZE putIpChecksum putPingChecksum
  rw [htotal, if_neg (by omega), hip, hcast, ipChecksum_pointer _ _ _ (by omega),
    takeBytes_message s packet header scratch _ hlength, takeBytes_add, Nat.cast_ofNat,
    put16_htons _ 24, put16_htons _ 36, takeBytes_echoFront]
  have hpayload : ∀ x y : UInt16, takeBytes (fun i => swap16 (swap16 (put16 (swap16
      (put16 (echoReplyBuffer s packet header scratch) 24 x) 24) 36 y) 36) 12 (42 + i)) n =
        (echoReply s packet header).payload := by
    intro x y
    rw [← takeBytes_echoPayload s packet header scratch, hlength]
    refine takeBytes_congr fun i _ => ?_
    rw [swap16_of_gt _ (by omega), swap16_of_gt _ (by omega), put16_of_gt _ _ (by omega),
      swap16_of_gt _ (by omega), put16_of_gt _ _ (by omega)]
  rw [hpayload, etherType_of_ip htype, TxFrame.bytes]
  simp only [EchoReply.messageBytes, List.append_assoc]
  rfl

end Echo

/-- `handle_ping_packet` sends the bytes of its replies. -/
theorem echoBytes_eq (s : Stack) {packet : IpPacket} (htype : packet.ethPacket.type = .ip)
    (hlt : pingPayloadLength (ipHeader (ntohPing packet.header packet.transport)) < 65508)
    (scratch below : Bytes) :
    echoBytes s packet scratch below =
      (handlePingPacket s packet).map fun result => result.2.map (TxFrame.bytes s) := by
  unfold echoBytes handlePingPacket
  dsimp only
  split_ifs with hecho hneg hfits
  · rfl
  · rfl
  · obtain ⟨n, hn⟩ := Int.eq_ofNat_of_zero_le (not_lt.mp hneg)
    have hsmall : n + 42 ≤ 2048 := by
      rw [hn, UInt16.ofInt, UInt16.toNat_ofNat', PACKET_MAX_SIZE] at hfits
      omega
    rw [sendPacket_echo s packet _ scratch htype below hn hsmall]
    rfl
  · have hlong : (14 : Int) + (UInt16.ofInt (pingPayloadLength (ipHeader
        (ntohPing packet.header packet.transport)) + 20 + 8)).toNat > PACKET_MAX_SIZE := by
      omega
    rw [sendPacket, if_pos (by omega)]
    rfl

end EthTransfer
