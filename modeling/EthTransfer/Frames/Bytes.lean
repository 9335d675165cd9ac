import EthTransfer.Stack.System

/-!
# Bytes of a frame

`be16` and `be32` read a frame as it is on the wire.  `ntohs` and `ntohl` turn these into
the fields that the code reads, and the conversions leave the bytes in front of their
header alone.

`SameUpTo` says that two memories begin with the same bytes.  A conversion keeps this when
the common part ends in front of each word that it reverses, or behind it.
-/

namespace EthTransfer

/-- Two bytes in network order. -/
def be16 (b : Bytes) (i : ℕ) : UInt16 := (b i).toUInt16 <<< 8 ||| (b (i + 1)).toUInt16

/-- Four bytes in network order. -/
def be32 (b : Bytes) (i : ℕ) : UInt32 :=
  (b i).toUInt32 <<< 24 ||| (b (i + 1)).toUInt32 <<< 16 ||| (b (i + 2)).toUInt32 <<< 8 |||
    (b (i + 3)).toUInt32

theorem le16_swap16 (b : Bytes) (i : ℕ) : le16 (swap16 b i) i = be16 b i := by
  simp [le16, swap16, be16, UInt16.or_comm]

theorem le32_swap32 (b : Bytes) (i : ℕ) : le32 (swap32 b i) i = be32 b i := by
  simp only [le32, swap32, be32, if_true, Nat.add_eq_left, Nat.add_right_inj, Nat.reduceEqDiff,
    if_false, OfNat.ofNat_ne_zero, one_ne_zero]
  generalize (b i).toUInt32 <<< 24 = b₀
  generalize (b (i + 1)).toUInt32 <<< 16 = b₁
  generalize (b (i + 2)).toUInt32 <<< 8 = b₂
  generalize (b (i + 3)).toUInt32 = b₃
  ac_rfl

/-! ## Values -/

/-- One more byte behind a number. -/
theorem shiftLeft_or_byte (x : ℕ) (b : UInt8) : x <<< 8 ||| b.toNat = 256 * x + b.toNat := by
  rw [← Nat.shiftLeft_add_eq_or_of_lt (UInt8.toNat_lt b), Nat.shiftLeft_eq]
  omega

theorem toNat_be16 (b : Bytes) (i : ℕ) :
    (be16 b i).toNat = 256 * (b i).toNat + (b (i + 1)).toNat := by
  have hlt := (b i).toNat_lt
  simp only [be16, UInt16.toNat_or, UInt16.toNat_shiftLeft, UInt8.toNat_toUInt16,
    UInt16.reduceToNat, Nat.reduceMod]
  rw [Nat.mod_eq_of_lt (by rw [Nat.shiftLeft_eq]; omega), shiftLeft_or_byte]

theorem toNat_be32 (b : Bytes) (i : ℕ) :
    (be32 b i).toNat = 16777216 * (b i).toNat + 65536 * (b (i + 1)).toNat +
      256 * (b (i + 2)).toNat + (b (i + 3)).toNat := by
  have hnested : (b i).toNat <<< 24 ||| (b (i + 1)).toNat <<< 16 ||| (b (i + 2)).toNat <<< 8 |||
      (b (i + 3)).toNat =
        (((b i).toNat <<< 8 ||| (b (i + 1)).toNat) <<< 8 ||| (b (i + 2)).toNat) <<< 8 |||
          (b (i + 3)).toNat := by
    rw [Nat.shiftLeft_or_distrib, Nat.shiftLeft_or_distrib, Nat.shiftLeft_or_distrib,
      ← Nat.shiftLeft_add, ← Nat.shiftLeft_add, ← Nat.shiftLeft_add]
  have hmod : ∀ (x : UInt8) {k : ℕ}, k ≤ 24 → x.toNat <<< k % 2 ^ 32 = x.toNat <<< k := by
    intro x k hk
    have hx := x.toNat_lt
    refine Nat.mod_eq_of_lt ?_
    rw [Nat.shiftLeft_eq]
    calc x.toNat * 2 ^ k < 2 ^ 8 * 2 ^ k := Nat.mul_lt_mul_of_pos_right hx (Nat.two_pow_pos k)
      _ ≤ 2 ^ 8 * 2 ^ 24 := Nat.mul_le_mul_left _ (Nat.pow_le_pow_right (by decide) hk)
  simp only [be32, UInt32.toNat_or, UInt32.toNat_shiftLeft, UInt8.toNat_toUInt32,
    UInt32.reduceToNat, Nat.reduceMod]
  rw [hmod _ (by omega), hmod _ (by omega), hmod _ (by omega), hnested, shiftLeft_or_byte,
    shiftLeft_or_byte, shiftLeft_or_byte]
  omega

theorem toNat_le16 (b : Bytes) (i : ℕ) :
    (le16 b i).toNat = (b i).toNat + 256 * (b (i + 1)).toNat := by
  have hswap : be16 (swap16 b i) i = le16 b i := by
    simp [le16, swap16, be16, UInt16.or_comm]
  rw [← hswap, toNat_be16]
  simp [swap16, Nat.add_comm]

theorem be16_of_bytes {b : Bytes} {i : ℕ} {v : UInt16} (hhigh : b i = (v >>> 8).toUInt8)
    (hlow : b (i + 1) = v.toUInt8) : be16 b i = v := by
  have hlt := v.toNat_lt
  rw [← UInt16.toNat_inj, toNat_be16, hhigh, hlow, UInt16.toNat_toUInt8, UInt16.toNat_toUInt8,
    UInt16.toNat_shiftRight]
  simp only [UInt16.reduceToNat, Nat.reduceMod, Nat.shiftRight_eq_div_pow]
  omega

theorem be32_of_bytes {b : Bytes} {i : ℕ} {v : UInt32} (h0 : b i = (v >>> 24).toUInt8)
    (h1 : b (i + 1) = (v >>> 16).toUInt8) (h2 : b (i + 2) = (v >>> 8).toUInt8)
    (h3 : b (i + 3) = v.toUInt8) : be32 b i = v := by
  have hlt := v.toNat_lt
  rw [← UInt32.toNat_inj, toNat_be32, h0, h1, h2, h3]
  simp only [UInt32.toNat_toUInt8, UInt32.toNat_shiftRight, UInt32.reduceToNat, Nat.reduceMod,
    Nat.shiftRight_eq_div_pow]
  omega

/-- A flag is a bit of the low byte. -/
theorem be16_and_eq_zero_iff (b : Bytes) (i : ℕ) {flag : UInt16} (hflag : flag.toNat < 256) :
    be16 b i &&& flag = 0 ↔ (b (i + 1)).toNat &&& flag.toNat = 0 := by
  have hlow : (256 * (b i).toNat + (b (i + 1)).toNat) &&& flag.toNat =
      (b (i + 1)).toNat &&& flag.toNat := by
    have hle : (256 * (b i).toNat + (b (i + 1)).toNat) &&& flag.toNat < 2 ^ 8 :=
      lt_of_le_of_lt Nat.and_le_right hflag
    have hlt := (b (i + 1)).toNat_lt
    rw [← Nat.mod_eq_of_lt hle, Nat.and_mod_two_pow,
      Nat.mod_eq_of_lt (show flag.toNat < 2 ^ 8 from hflag)]
    congr 1
    omega
  rw [← UInt16.toNat_inj, UInt16.toNat_and, toNat_be16, hlow]
  rfl

/-! ## Conversions in place -/

theorem swap16_of_lt (b : Bytes) {i j : ℕ} (hlt : j < i) : swap16 b i j = b j := by
  rw [swap16, if_neg (by omega), if_neg (by omega)]

theorem swap32_of_lt (b : Bytes) {i j : ℕ} (hlt : j < i) : swap32 b i j = b j := by
  rw [swap32, if_neg (by omega), if_neg (by omega), if_neg (by omega), if_neg (by omega)]

/-- `ntoh_ping` and `ntoh_tcp` leave what is in front of their header. -/
theorem ntohPing_of_lt (b : Bytes) {i j : ℕ} (hlt : j < i + 2) : ntohPing b i j = b j := by
  rw [ntohPing, swap16_of_lt _ (by omega), swap16_of_lt _ (by omega), swap16_of_lt _ hlt]

theorem ntohTcp_of_lt (b : Bytes) {i j : ℕ} (hlt : j < i) : ntohTcp b i j = b j := by
  simp only [ntohTcp]
  rw [swap16_of_lt _ (by omega), swap16_of_lt _ (by omega), swap16_of_lt _ (by omega),
    swap32_of_lt _ (by omega), swap32_of_lt _ (by omega), swap16_of_lt _ (by omega),
    swap16_of_lt _ hlt]

/-! ## The TCP header -/

section TcpHeader

variable (packet : IpPacket)

/-- The fields of a TCP header, in terms of the bytes on the wire. -/
theorem sourcePort_eq :
    packet.tcpPacket.tcp.sourcePort = be16 packet.header packet.transport := by
  simp [IpPacket.tcpPacket, ntohTcp, swap16, swap32, le16, be16, UInt16.or_comm, Nat.add_assoc]

theorem destPort_eq :
    packet.tcpPacket.tcp.destPort = be16 packet.header (packet.transport + 2) := by
  simp [IpPacket.tcpPacket, ntohTcp, swap16, swap32, le16, be16, UInt16.or_comm, Nat.add_assoc]

theorem sequence_eq :
    packet.tcpPacket.tcp.sequence = be32 packet.header (packet.transport + 4) := by
  rw [← le32_swap32]
  simp [IpPacket.tcpPacket, ntohTcp, swap16, swap32, le32, Nat.add_assoc]

theorem ack_eq :
    packet.tcpPacket.tcp.ack = be32 packet.header (packet.transport + 8) := by
  rw [← le32_swap32]
  simp [IpPacket.tcpPacket, ntohTcp, swap16, swap32, le32, Nat.add_assoc]

theorem offsetFlags_eq :
    packet.tcpPacket.tcp.offsetFlags = be16 packet.header (packet.transport + 12) := by
  simp [IpPacket.tcpPacket, ntohTcp, swap16, swap32, le16, be16, UInt16.or_comm, Nat.add_assoc]

theorem windowSize_eq :
    packet.tcpPacket.tcp.windowSize = be16 packet.header (packet.transport + 14) := by
  simp [IpPacket.tcpPacket, ntohTcp, swap16, swap32, le16, be16, UInt16.or_comm, Nat.add_assoc]

/-- `ntoh_tcp` exchanges the bytes of the urgent pointer. -/
theorem ntohTcp_urgent (b : Bytes) (i : ℕ) : ntohTcp b i (i + 18) = b (i + 19) := by
  simp [ntohTcp, swap16, swap32, Nat.add_assoc]

/-- The offset field counts at most fifteen words. -/
theorem TcpHeader.dataOffset_bounds (header : TcpHeader) :
    0 ≤ header.dataOffset ∧ header.dataOffset ≤ 60 := by
  have hlt := header.offsetFlags.toNat_lt
  have hshift : (header.offsetFlags >>> 12).toNat = header.offsetFlags.toNat / 4096 := by
    rw [UInt16.toNat_shiftRight]
    exact Nat.shiftRight_eq_div_pow _ 12
  unfold TcpHeader.dataOffset
  omega

end TcpHeader

/-! ## Common bytes -/

/-- The first `n` bytes are the same. -/
def SameUpTo (n : ℕ) (b b' : Bytes) : Prop := ∀ j < n, b j = b' j

namespace SameUpTo

variable {n i : ℕ} {b b' : Bytes}

theorem mono (h : SameUpTo n b b') {k : ℕ} (hk : k ≤ n) : SameUpTo k b b' :=
  fun j hj => h j (by omega)

theorem shift (h : SameUpTo n b b') {k : ℕ} (off : ℕ) (hk : off + k ≤ n) :
    SameUpTo k (fun j => b (off + j)) (fun j => b' (off + j)) :=
  fun j hj => h (off + j) (by omega)

protected theorem swap16 (h : SameUpTo n b b') (hi : i + 2 ≤ n ∨ n ≤ i) :
    SameUpTo n (swap16 b i) (swap16 b' i) := by
  intro j hj
  unfold EthTransfer.swap16
  split_ifs
  · exact h _ (by omega)
  · exact h _ (by omega)
  · exact h _ hj

protected theorem swap32 (h : SameUpTo n b b') (hi : i + 4 ≤ n ∨ n ≤ i) :
    SameUpTo n (swap32 b i) (swap32 b' i) := by
  intro j hj
  unfold EthTransfer.swap32
  split_ifs
  · exact h _ (by omega)
  · exact h _ (by omega)
  · exact h _ (by omega)
  · exact h _ (by omega)
  · exact h _ hj

protected theorem le16 (h : SameUpTo n b b') (hi : i + 2 ≤ n) : le16 b i = le16 b' i := by
  unfold EthTransfer.le16
  rw [h i (by omega), h (i + 1) (by omega)]

protected theorem le32 (h : SameUpTo n b b') (hi : i + 4 ≤ n) : le32 b i = le32 b' i := by
  unfold EthTransfer.le32
  rw [h i (by omega), h (i + 1) (by omega), h (i + 2) (by omega), h (i + 3) (by omega)]

protected theorem readMac (h : SameUpTo n b b') (hi : i + 6 ≤ n) :
    readMac b i = readMac b' i := by
  unfold EthTransfer.readMac
  congr 2
  funext j
  exact h _ (by omega)

protected theorem ntohArp (h : SameUpTo n b b') (hn : 28 ≤ n) :
    SameUpTo n (ntohArp b) (ntohArp b') := by
  unfold EthTransfer.ntohArp
  apply SameUpTo.swap32
  · apply SameUpTo.swap32
    · exact ((h.swap16 (by omega)).swap16 (by omega)).swap16 (by omega)
    · omega
  · omega

protected theorem ntohIp (h : SameUpTo n b b') (hn : 20 ≤ n) :
    SameUpTo n (ntohIp b) (ntohIp b') := by
  unfold EthTransfer.ntohIp
  apply SameUpTo.swap32
  · apply SameUpTo.swap32
    · exact ((h.swap16 (by omega)).swap16 (by omega)).swap16 (by omega)
    · omega
  · omega

protected theorem ntohPing (h : SameUpTo n b b') (hn : i + 8 ≤ n) :
    SameUpTo n (ntohPing b i) (ntohPing b' i) := by
  unfold EthTransfer.ntohPing
  exact ((h.swap16 (by omega)).swap16 (by omega)).swap16 (by omega)

/-- The window and the urgent pointer are the words that the common part can end in. -/
protected theorem ntohTcp (h : SameUpTo n b b') (hn : i + 14 ≤ n) (hwindow : n ≠ i + 15)
    (hurgent : n ≠ i + 19) : SameUpTo n (ntohTcp b i) (ntohTcp b' i) := by
  unfold EthTransfer.ntohTcp
  have hports := (h.swap16 (i := i) (by omega)).swap16 (i := i + 2) (by omega)
  have hnumbers := (hports.swap32 (i := i + 4) (by omega)).swap32 (i := i + 8) (by omega)
  exact ((hnumbers.swap16 (by omega)).swap16 (by omega)).swap16 (by omega)

protected theorem ipHeader (h : SameUpTo n b b') (hn : 20 ≤ n) : ipHeader b = ipHeader b' := by
  unfold EthTransfer.ipHeader
  rw [h 0 (by omega), h 9 (by omega), h.le16 (by omega), h.le32 (by omega), h.le32 (by omega)]

end SameUpTo

/-- The first `n` bytes, with `behind` from there on. -/
def splice (n : ℕ) (b behind : Bytes) : Bytes := fun j => if j < n then b j else behind j

theorem splice_same (n : ℕ) (b behind : Bytes) : SameUpTo n b (splice n b behind) :=
  fun _ hj => (if_pos hj).symm

theorem splice_of_le {n j : ℕ} (b behind : Bytes) (hj : n ≤ j) : splice n b behind j = behind j :=
  if_neg (by omega)

end EthTransfer
