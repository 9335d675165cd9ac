import EthTransfer.Frames.Bytes

/-!
# The walk over the options

`scan_options` on every byte string.

* `scanOptionsFrom_turn`: what one turn of its loop can do.
* `Reaches`: where the cursor gets.  It stays where an option of another kind has length
  byte 0 (`ZeroLength`).
* `scanOptions_terminates_iff`: the loop ends unless the cursor gets to such an option, and
  `handle_tcp_packet` returns unless a SYN brings one.
* `scanOptions_encode`: what it answers for a list of well-formed options.
* `scanReadsFrom_inside`: the bytes that it reads.
-/

namespace EthTransfer

/-! ## One turn -/

section Turn

variable {buf : Bytes} {len kind : Int} {i : ℕ}

/-- The cursor stands on an option other than a NOP and the end of the list. -/
structure OnOption (buf : Bytes) (len : Int) (i : ℕ) : Prop where
  lt : (i : Int) < len - 1
  ne_end : buf i ≠ 0
  ne_nop : buf i ≠ 1

/-- Where the cursor of `scan_options` gets. -/
inductive Reaches (buf : Bytes) (len kind : Int) : (i : ℕ) → Prop
  | start : Reaches buf len kind 0
  | nop {i : ℕ} (h : Reaches buf len kind i) (hlt : (i : Int) < len - 1) (hnop : buf i = 1) :
      Reaches buf len kind (i + 1)
  | option {i : ℕ} (h : Reaches buf len kind i) (hon : OnOption buf len i)
      (hkind : (buf i).toNat ≠ kind) (hfits : (i : Int) + (buf (i + 1)).toNat ≤ len) :
      Reaches buf len kind (i + (buf (i + 1)).toNat)

/-- An option of another kind with length byte 0. -/
structure ZeroLength (buf : Bytes) (len kind : Int) (i : ℕ) : Prop where
  on : OnOption buf len i
  kind_ne : (buf i).toNat ≠ kind
  size : buf (i + 1) = 0

theorem scanOptionsFrom_end (fuel : ℕ) (hend : ¬ (i : Int) < len - 1) :
    scanOptionsFrom buf len kind (fuel + 1) i = some (-1) := by
  rw [scanOptionsFrom, if_pos hend]

theorem scanOptionsFrom_endOfList (fuel : ℕ) (h0 : buf i = 0) :
    scanOptionsFrom buf len kind (fuel + 1) i = some (-1) := by
  rw [scanOptionsFrom, if_pos h0, ite_self]

theorem scanOptionsFrom_nop (fuel : ℕ) (hlt : (i : Int) < len - 1) (hnop : buf i = 1) :
    scanOptionsFrom buf len kind (fuel + 1) i = scanOptionsFrom buf len kind fuel (i + 1) := by
  have h0 : buf i ≠ 0 := by
    rw [hnop]
    decide
  rw [scanOptionsFrom, if_neg (not_not.mpr hlt), if_neg h0, if_pos hnop]

theorem OnOption.scan_long (h : OnOption buf len i) (fuel : ℕ)
    (hlong : len < (i : Int) + (buf (i + 1)).toNat) :
    scanOptionsFrom buf len kind (fuel + 1) i = some (-1) := by
  rw [scanOptionsFrom, if_neg (not_not.mpr h.lt), if_neg h.ne_end, if_neg h.ne_nop]
  exact if_pos hlong

theorem OnOption.scan_other (h : OnOption buf len i) (fuel : ℕ)
    (hfits : (i : Int) + (buf (i + 1)).toNat ≤ len) (hkind : (buf i).toNat ≠ kind) :
    scanOptionsFrom buf len kind (fuel + 1) i =
      scanOptionsFrom buf len kind fuel (i + (buf (i + 1)).toNat) := by
  rw [scanOptionsFrom, if_neg (not_not.mpr h.lt), if_neg h.ne_end, if_neg h.ne_nop]
  dsimp only
  rw [if_neg (by omega), if_neg hkind]

/-- What the scan answers at an option of the kind that it looks for. -/
def optionValue (buf : Bytes) (i : ℕ) : Int :=
  if (buf (i + 1)).toNat = 4 then 256 * (buf (i + 2)).toNat + (buf (i + 3)).toNat
  else if (buf (i + 1)).toNat = 3 then (buf (i + 2)).toNat
  else -1

theorem OnOption.scan_kind (h : OnOption buf len i) (fuel : ℕ)
    (hfits : (i : Int) + (buf (i + 1)).toNat ≤ len) (hkind : (buf i).toNat = kind) :
    scanOptionsFrom buf len kind (fuel + 1) i = some (optionValue buf i) := by
  rw [scanOptionsFrom, if_neg (not_not.mpr h.lt), if_neg h.ne_end, if_neg h.ne_nop]
  dsimp only
  rw [if_neg (by omega), if_pos hkind, shiftLeft_or_byte, optionValue]
  split_ifs
  · rw [Nat.cast_add, Nat.cast_mul]
    rfl
  · rfl
  · rfl

/-- One turn of the loop answers, walks over a NOP, or walks over an option of another
kind. -/
theorem scanOptionsFrom_turn (buf : Bytes) (len kind : Int) (i : ℕ) :
    (∃ answer, ∀ fuel, scanOptionsFrom buf len kind (fuel + 1) i = some answer) ∨
    ((i : Int) < len - 1 ∧ buf i = 1) ∨
    (OnOption buf len i ∧ (buf i).toNat ≠ kind ∧ (i : Int) + (buf (i + 1)).toNat ≤ len) := by
  by_cases hlt : (i : Int) < len - 1
  · by_cases h0 : buf i = 0
    · exact Or.inl ⟨-1, fun fuel => scanOptionsFrom_endOfList fuel h0⟩
    by_cases h1 : buf i = 1
    · exact Or.inr (Or.inl ⟨hlt, h1⟩)
    have hon : OnOption buf len i := ⟨hlt, h0, h1⟩
    by_cases hfits : (i : Int) + (buf (i + 1)).toNat ≤ len
    · by_cases hkind : ((buf i).toNat : Int) = kind
      · exact Or.inl ⟨_, fun fuel => hon.scan_kind fuel hfits hkind⟩
      · exact Or.inr (Or.inr ⟨hon, hkind, hfits⟩)
    · exact Or.inl ⟨-1, fun fuel => hon.scan_long fuel (by omega)⟩
  · exact Or.inl ⟨-1, fun fuel => scanOptionsFrom_end fuel hlt⟩

end Turn

/-! ## Termination -/

section Termination

variable {buf : Bytes} {len kind : Int} {i : ℕ}

/-- Where the cursor gets, the loop of the whole scan gets. -/
theorem Reaches.hangs (h : Reaches buf len kind i)
    (hhangs : ∀ fuel, scanOptionsFrom buf len kind fuel i = none) (fuel : ℕ) :
    scanOptionsFrom buf len kind fuel 0 = none := by
  induction h with
  | start => exact hhangs fuel
  | nop _ hlt hnop ih =>
    apply ih
    intro fuel
    cases fuel with
    | zero => rfl
    | succ fuel => rw [scanOptionsFrom_nop fuel hlt hnop, hhangs fuel]
  | option _ hon hkind hfits ih =>
    apply ih
    intro fuel
    cases fuel with
    | zero => rfl
    | succ fuel => rw [hon.scan_other fuel hfits hkind, hhangs fuel]

/-- As long as no option has length 0, the cursor moves. -/
theorem Reaches.terminates (hmoves : ∀ i, Reaches buf len kind i → ¬ ZeroLength buf len kind i)
    {fuel : ℕ} (h : Reaches buf len kind i) (hfuel : (len - i).toNat < fuel) :
    ∃ answer, scanOptionsFrom buf len kind fuel i = some answer := by
  induction fuel generalizing i with
  | zero => omega
  | succ fuel ih =>
    rcases scanOptionsFrom_turn buf len kind i with ⟨answer, hanswer⟩ | ⟨hlt, hnop⟩ |
      ⟨hon, hkind, hfits⟩
    · exact ⟨answer, hanswer fuel⟩
    · rw [scanOptionsFrom_nop fuel hlt hnop]
      exact ih (h.nop hlt hnop) (by omega)
    · have hsize : (buf (i + 1)).toNat ≠ 0 := by
        intro hzero
        exact hmoves i h ⟨hon, hkind, UInt8.toNat_inj.mp hzero⟩
      have hlt := hon.lt
      rw [hon.scan_other fuel hfits hkind]
      exact ih (h.option hon hkind hfits) (by omega)

/-- The scan ends unless its cursor gets to an option of length 0. -/
theorem exists_scanOptionsFrom_iff (buf : Bytes) (len kind : Int) :
    (∃ fuel answer, scanOptionsFrom buf len kind fuel 0 = some answer) ↔
      ∀ i, Reaches buf len kind i → ¬ ZeroLength buf len kind i := by
  constructor
  · rintro ⟨fuel, answer, hanswer⟩ i hreaches hzero
    have hsize : (buf (i + 1)).toNat = 0 := by
      rw [hzero.size]
      rfl
    have hhangs := hreaches.hangs (fun fuel =>
      scanOptionsFrom_stuck hzero.on.lt hzero.on.ne_end hzero.on.ne_nop hsize hzero.kind_ne fuel)
      fuel
    rw [hhangs] at hanswer
    cases hanswer
  · intro hmoves
    obtain ⟨answer, hanswer⟩ := Reaches.start.terminates hmoves (Nat.lt_succ_self _)
    exact ⟨_, answer, hanswer⟩

end Termination

/-! ## SYNs -/

/-- The packet is a SYN whose options `handle_tcp_packet` scans. -/
structure ScansOptions (s : Stack) (packet : TcpPacket) : Prop where
  listen : s.tcpConn.state = .listen
  port : packet.tcp.destPort = 80
  rst : packet.tcp.has TCP_RST = false
  bare : (packet.tcp.has TCP_SYN && !packet.tcp.has TCP_ACK) = true

/-- The options of a SYN have an option of length 0 that stops the scan for `kind`. -/
def StopsScan (packet : TcpPacket) (kind : Int) : Prop :=
  ∃ i, Reaches (fun i => packet.tcp.bytes (20 + i)) (packet.tcp.dataOffset - 20) kind i ∧
    ZeroLength (fun i => packet.tcp.bytes (20 + i)) (packet.tcp.dataOffset - 20) kind i

theorem scanOptions_eq_none_iff_stopsScan (packet : TcpPacket) (kind : Int) :
    scanOptions (fun i => packet.tcp.bytes (20 + i)) (packet.tcp.dataOffset - 20) kind = none ↔
      StopsScan packet kind := by
  have hends := exists_scanOptionsFrom_iff (fun i => packet.tcp.bytes (20 + i))
    (packet.tcp.dataOffset - 20) kind
  rw [scanOptions_eq_none_iff, StopsScan]
  constructor
  · intro hnone
    by_contra hmoves
    obtain ⟨fuel, answer, hanswer⟩ := hends.mpr fun i hreaches hzero =>
      hmoves ⟨i, hreaches, hzero⟩
    rw [hnone fuel] at hanswer
    cases hanswer
  · rintro ⟨i, hreaches, hzero⟩ fuel
    by_contra hne
    obtain ⟨answer, hanswer⟩ := Option.ne_none_iff_exists'.mp hne
    exact hends.mp ⟨fuel, answer, hanswer⟩ i hreaches hzero

/-- The branch for `TCP_LISTEN` does not return when one of the two scans does not. -/
theorem acceptSyn_eq_none_iff {packet : TcpPacket}
    (hbare : (packet.tcp.has TCP_SYN && !packet.tcp.has TCP_ACK) = true) (s : Stack)
    (rand : Rand) :
    acceptSyn s packet rand = none ↔ StopsScan packet 2 ∨ StopsScan packet 3 := by
  rw [← scanOptions_eq_none_iff_stopsScan, ← scanOptions_eq_none_iff_stopsScan]
  cases hmax : scanOptions (fun i => packet.tcp.bytes (20 + i)) (packet.tcp.dataOffset - 20) 2 with
  | none => simp [acceptSyn, hbare, hmax]
  | some maxSegment =>
    cases hscale : scanOptions (fun i => packet.tcp.bytes (20 + i)) (packet.tcp.dataOffset - 20) 3
      with
    | none => simp [acceptSyn, hbare, hmax, hscale]
    | some windowScale =>
      unfold acceptSyn
      rw [if_pos hbare]
      simp only [hmax, hscale, Option.bind_eq_bind, Option.bind_some]
      split_ifs <;> simp

/-- `handle_tcp_packet` returns unless a SYN brings an option that stops one of its two
scans. -/
theorem handleTcpPacket_eq_none_iff (s : Stack) (packet : TcpPacket) (rand : Rand) :
    handleTcpPacket s packet rand = none ↔
      ScansOptions s packet ∧ (StopsScan packet 2 ∨ StopsScan packet 3) := by
  by_cases hlisten : s.tcpConn.state = .listen
  · by_cases hport : packet.tcp.destPort = 80
    · cases hrst : packet.tcp.has TCP_RST with
      | true =>
        have hdrop : handleTcpPacket s packet rand = some s := by
          simp [handleTcpPacket, hlisten, hport, hrst]
        rw [hdrop]
        exact ⟨fun h => absurd h (Option.some_ne_none s),
          fun h => absurd (hrst.symm.trans h.1.rst) (by decide)⟩
      | false =>
        rw [handleTcpPacket_of_listen hlisten hport hrst]
        by_cases hbare : (packet.tcp.has TCP_SYN && !packet.tcp.has TCP_ACK) = true
        · rw [acceptSyn_eq_none_iff hbare]
          exact ⟨fun h => ⟨⟨hlisten, hport, hrst, hbare⟩, h⟩, And.right⟩
        · have hdrop : acceptSyn s packet rand = some s := if_neg hbare
          rw [hdrop]
          exact ⟨fun h => absurd h (Option.some_ne_none s), fun h => absurd h.1.bare hbare⟩
    · have hdrop : handleTcpPacket s packet rand = some s := by
        simp [handleTcpPacket, hport]
      rw [hdrop]
      exact ⟨fun h => absurd h (Option.some_ne_none s), fun h => absurd h.1.port hport⟩
  · rw [handleTcpPacket_open hlisten]
    constructor
    · intro h
      cases h
    · rintro ⟨hscans, -⟩
      exact absurd hscans.listen hlisten

/-- `scan_options` ends unless its cursor gets to an option of another kind with length
byte 0, and `handle_tcp_packet` returns unless a SYN brings such options for one of the two
kinds that it looks for. -/
theorem scanOptions_terminates_iff (buf : Bytes) (len kind : Int) (s : Stack)
    (packet : TcpPacket) (rand : Rand) :
    ((∃ fuel answer, scanOptionsFrom buf len kind fuel 0 = some answer) ↔
      ∀ i, Reaches buf len kind i → ¬ ZeroLength buf len kind i) ∧
    ((∃ s', handleTcpPacket s packet rand = some s') ↔
      (ScansOptions s packet → ¬ StopsScan packet 2 ∧ ¬ StopsScan packet 3)) := by
  refine ⟨exists_scanOptionsFrom_iff buf len kind, ?_⟩
  rw [← Option.ne_none_iff_exists', ne_eq, handleTcpPacket_eq_none_iff, not_and, not_or]

/-- A SYN with one option of kind 5 and length byte 0, and zeros behind it. -/
def stuckSyn : TcpPacket := peerPacket 0 0 (TCP_SYN ||| 0x2000) 1024 [5, 0, 0, 0]

/-- The scan does not end, with any fuel, and the SYN hangs the stack. -/
theorem stuckSyn_hangs :
    (∀ fuel, scanOptionsFrom (fun i => [5, 0, 0, 0].getD i 0) 4 2 fuel 0 = none) ∧
      handleTcpPacket listeningStack stuckSyn ⟨0, 0⟩ = none := by
  refine ⟨fun fuel => scanOptionsFrom_stuck ?_ ?_ ?_ ?_ ?_ fuel, by decide +kernel⟩ <;> decide

/-! ## Well-formed options -/

/-- An option with a kind, a length and a value. -/
structure ValueOption where
  kind : UInt8
  value : List UInt8
  kind_ge : 2 ≤ kind.toNat
  length_le : value.length ≤ 38

/-- A TCP option in front of the end of the list. -/
inductive TcpOption where
  | nop
  | value (option : ValueOption)

/-- The bytes of an option.  The length byte counts the kind and itself. -/
def TcpOption.encode : TcpOption → List UInt8
  | .nop => [1]
  | .value option => option.kind :: UInt8.ofNat (option.value.length + 2) :: option.value

/-- The bytes of a list of options, and of the end of the list with its padding if there is
one. -/
def encodeOptions (options : List TcpOption) (ending : Option (List UInt8)) : List UInt8 :=
  options.flatMap TcpOption.encode ++ (ending.map (0 :: ·)).getD []

/-- The number that a value of one or two bytes is, high byte first. -/
def valueNumber : List UInt8 → Int
  | [b] => b.toNat
  | [hi, lo] => 256 * hi.toNat + lo.toNat
  | _ => -1

/-- What a scan for `kind` should find: the value of the first option of that kind. -/
def findOption (kind : Int) : List TcpOption → Int
  | [] => -1
  | .nop :: rest => findOption kind rest
  | .value option :: rest =>
    if (option.kind.toNat : Int) = kind then valueNumber option.value else findOption kind rest

/-- The memory holds the bytes from `i` on. -/
def HoldsAt (buf : Bytes) (i : ℕ) (bytes : List UInt8) : Prop :=
  ∀ j, (h : j < bytes.length) → buf (i + j) = bytes[j]

section Decode

variable {buf : Bytes} {len kind : Int} {i : ℕ}

theorem HoldsAt.append {bytes bytes' : List UInt8} (h : HoldsAt buf i (bytes ++ bytes')) :
    HoldsAt buf i bytes ∧ HoldsAt buf (i + bytes.length) bytes' := by
  constructor
  · intro j hj
    rw [h j (by rw [List.length_append]; omega), List.getElem_append_left hj]
  · intro j hj
    rw [Nat.add_assoc, h (bytes.length + j) (by rw [List.length_append]; omega),
      List.getElem_append_right (by omega)]
    simp

theorem HoldsAt.tail {b : UInt8} {bytes : List UInt8} (h : HoldsAt buf i (b :: bytes)) :
    buf i = b ∧ HoldsAt buf (i + 1) bytes :=
  ⟨h 0 (Nat.succ_pos _), (show HoldsAt buf i ([b] ++ bytes) from h).append.2⟩

/-- The length byte of an option. -/
theorem ValueOption.toNat_size (option : ValueOption) :
    (UInt8.ofNat (option.value.length + 2)).toNat = option.value.length + 2 := by
  have hle := option.length_le
  rw [UInt8.toNat_ofNat', Nat.mod_eq_of_lt (by omega)]

/-- The value of an option in memory. -/
theorem HoldsAt.optionValue_eq {option : ValueOption}
    (h : HoldsAt buf i (TcpOption.value option).encode) :
    optionValue buf i = valueNumber option.value := by
  obtain ⟨-, hbody⟩ := h.tail
  obtain ⟨hsize, hvalue⟩ := hbody.tail
  rw [optionValue, hsize, option.toNat_size]
  generalize option.value = value at hvalue
  match value, hvalue with
  | [], _ => rfl
  | [b], hvalue =>
    rw [if_neg (by simp), if_pos (by simp), hvalue.tail.1]
    rfl
  | [hi, lo], hvalue =>
    rw [if_pos (by simp), hvalue.tail.1, hvalue.tail.2.tail.1]
    rfl
  | _ :: _ :: _ :: _, _ =>
    rw [if_neg (by simp), if_neg (by simp)]
    rfl

/-- From an option on, the scan finds what it should find. -/
theorem scanOptionsFrom_encode (options : List TcpOption) (ending : Option (List UInt8))
    {fuel : ℕ} (h : HoldsAt buf i (encodeOptions options ending))
    (hend : (i : Int) + (encodeOptions options ending).length = len)
    (hfuel : (encodeOptions options ending).length < fuel) :
    scanOptionsFrom buf len kind fuel i = some (findOption kind options) := by
  induction options generalizing i fuel with
  | nil =>
    obtain ⟨fuel, rfl⟩ := Nat.exists_eq_succ_of_ne_zero (show fuel ≠ 0 by omega)
    cases ending with
    | none =>
      have hlen : (i : Int) + (0 : ℕ) = len := hend
      exact scanOptionsFrom_end fuel (by omega)
    | some padding => exact scanOptionsFrom_endOfList fuel h.tail.1
  | cons option rest ih =>
    have hbytes : encodeOptions (option :: rest) ending =
        option.encode ++ encodeOptions rest ending := by
      rw [encodeOptions, encodeOptions, List.flatMap_cons, List.append_assoc]
    rw [hbytes, List.length_append] at hend hfuel
    rw [hbytes] at h
    obtain ⟨hhere, hrest⟩ := h.append
    obtain ⟨fuel, rfl⟩ := Nat.exists_eq_succ_of_ne_zero (show fuel ≠ 0 by omega)
    cases option with
    | nop =>
      have hlength : (TcpOption.encode .nop).length = 1 := rfl
      rw [hlength] at hend hfuel hrest
      have htail : scanOptionsFrom buf len kind fuel (i + 1) = some (findOption kind rest) :=
        ih hrest (by omega) (by omega)
      by_cases hlt : (i : Int) < len - 1
      · rw [scanOptionsFrom_nop fuel hlt hhere.tail.1]
        exact htail
      · -- the NOP is the last byte, and nothing is looked for behind it
        obtain ⟨fuel, rfl⟩ := Nat.exists_eq_succ_of_ne_zero (show fuel ≠ 0 by omega)
        rw [scanOptionsFrom_end fuel (by omega)] at htail
        rw [scanOptionsFrom_end _ hlt, htail]
        rfl
    | value option =>
      have hlength : (TcpOption.encode (.value option)).length = option.value.length + 2 := by
        simp [TcpOption.encode]
      obtain ⟨hkind, hbody⟩ := hhere.tail
      have hsize : (buf (i + 1)).toNat = option.value.length + 2 := by
        rw [hbody.tail.1, option.toNat_size]
      have hge := option.kind_ge
      have hon : OnOption buf len i := by
        refine ⟨by omega, ?_, ?_⟩ <;> rw [hkind] <;> rintro heq <;> rw [heq] at hge <;>
          exact absurd hge (by decide)
      rw [hlength] at hend hfuel hrest
      by_cases hfound : (option.kind.toNat : Int) = kind
      · rw [hon.scan_kind fuel (by omega) (by rw [hkind, hfound]), hhere.optionValue_eq,
          findOption, if_pos hfound]
      · rw [hon.scan_other fuel (by omega) (by rw [hkind]; exact hfound), hsize,
          findOption, if_neg hfound]
        exact ih hrest (by omega) (by omega)

end Decode

/-! ## The bytes that are read -/

/-- `*(buf + i)`, with a log of the places that were read. -/
def readLogged (buf : Bytes) (i : ℕ) : StateM (List ℕ) UInt8 := fun log => (buf i, log ++ [i])

/-- The loop of `scan_options`, reading with a log. -/
def scanReadsFrom (buf : Bytes) (len kind : Int) : (fuel i : ℕ) → StateM (List ℕ) (Option Int)
  | 0, _ => pure none
  | fuel + 1, i => do
    if ¬ (i : Int) < len - 1 then pure (some (-1))
    else if (← readLogged buf i) = 0 then pure (some (-1))
    else if (← readLogged buf i) = 1 then scanReadsFrom buf len kind fuel (i + 1)
    else
      let size := (← readLogged buf (i + 1)).toNat
      if (i : Int) + size > len then pure (some (-1))
      else if (← readLogged buf i).toNat = kind then
        if size = 4 then
          let msb := (← readLogged buf (i + 2)).toNat
          let lsb := (← readLogged buf (i + 3)).toNat
          pure (some ((msb <<< 8 ||| lsb : ℕ) : Int))
        else if size = 3 then pure (some (← readLogged buf (i + 2)).toNat)
        else pure (some (-1))
      else scanReadsFrom buf len kind fuel (i + size)

theorem readLogged_bind {α : Type} (buf : Bytes) (i : ℕ) (f : UInt8 → StateM (List ℕ) α)
    (log : List ℕ) : (readLogged buf i >>= f) log = f (buf i) (log ++ [i]) := rfl

/-- The log changes nothing, and every place in it lies in front of the end. -/
theorem scanReadsFrom_inside (buf : Bytes) (len kind : Int) (fuel i : ℕ) (log : List ℕ)
    (hlog : ∀ j ∈ log, (j : Int) < len) :
    ((scanReadsFrom buf len kind fuel i).run log).1 = scanOptionsFrom buf len kind fuel i ∧
      ∀ j ∈ ((scanReadsFrom buf len kind fuel i).run log).2, (j : Int) < len := by
  have hconcat {log : List ℕ} (hlog : ∀ j ∈ log, (j : Int) < len) {i : ℕ} (hi : (i : Int) < len) :
      ∀ j ∈ log ++ [i], (j : Int) < len := by
    intro j hj
    rcases List.mem_append.mp hj with hj | hj
    · exact hlog j hj
    · rwa [List.mem_singleton.mp hj]
  induction fuel generalizing i log with
  | zero => exact ⟨rfl, hlog⟩
  | succ fuel ih =>
    rw [StateT.run, scanReadsFrom, scanOptionsFrom]
    by_cases hend : ¬ (i : Int) < len - 1
    · rw [if_pos hend, if_pos hend]
      exact ⟨rfl, hlog⟩
    rw [if_neg hend, if_neg hend, readLogged_bind]
    have hi : (i : Int) < len := by omega
    have hlog := hconcat hlog hi
    by_cases h0 : buf i = 0
    · rw [if_pos h0, if_pos h0]
      exact ⟨rfl, hlog⟩
    rw [if_neg h0, if_neg h0, readLogged_bind]
    have hlog := hconcat hlog hi
    by_cases h1 : buf i = 1
    · rw [if_pos h1, if_pos h1]
      exact ih _ _ hlog
    rw [if_neg h1, if_neg h1, readLogged_bind]
    have hlog := hconcat hlog (show ((i + 1 : ℕ) : Int) < len by omega)
    dsimp only
    by_cases hlong : (i : Int) + (buf (i + 1)).toNat > len
    · rw [if_pos hlong, if_pos hlong]
      exact ⟨rfl, hlog⟩
    rw [if_neg hlong, if_neg hlong, readLogged_bind]
    have hlog := hconcat hlog hi
    by_cases hkind : ((buf i).toNat : Int) = kind
    · rw [if_pos hkind, if_pos hkind]
      by_cases hword : (buf (i + 1)).toNat = 4
      · rw [if_pos hword, if_pos hword, readLogged_bind, readLogged_bind]
        have hlog := hconcat hlog (show ((i + 2 : ℕ) : Int) < len by omega)
        exact ⟨rfl, hconcat hlog (show ((i + 3 : ℕ) : Int) < len by omega)⟩
      rw [if_neg hword, if_neg hword]
      by_cases hbyte : (buf (i + 1)).toNat = 3
      · rw [if_pos hbyte, if_pos hbyte, readLogged_bind]
        exact ⟨rfl, hconcat hlog (show ((i + 2 : ℕ) : Int) < len by omega)⟩
      · rw [if_neg hbyte, if_neg hbyte]
        exact ⟨rfl, hlog⟩
    · rw [if_neg hkind, if_neg hkind]
      exact ih _ _ hlog

example : ((scanReadsFrom (fun i => [1, 2, 4, 5, 6].getD i 0) 5 2 6 0).run []).2 =
    [0, 0, 1, 1, 2, 1, 3, 4] := by decide

/-! ## The scan as a whole -/

/-- On the bytes of well-formed options, with or without an end of the list, the scan
answers with the value of the first option of the kind, or with `-1`.  On any bytes, and
with any number of turns, it reads only places in front of the end. -/
theorem scanOptions_encode (options : List TcpOption) (ending : Option (List UInt8)) (kind : Int)
    {buf : Bytes} (hbuf : HoldsAt buf 0 (encodeOptions options ending)) :
    scanOptions buf (encodeOptions options ending).length kind =
        some (findOption kind options) ∧
      ∀ (buf : Bytes) (len kind : Int) (fuel : ℕ),
        ((scanReadsFrom buf len kind fuel 0).run []).1 = scanOptionsFrom buf len kind fuel 0 ∧
          ∀ j ∈ ((scanReadsFrom buf len kind fuel 0).run []).2, (j : Int) < len := by
  constructor
  · apply scanOptionsFrom_encode options ending hbuf
    · simp
    · simp
  · exact fun buf len kind fuel => scanReadsFrom_inside buf len kind fuel 0 [] nofun

/-- The options of a SYN: a NOP, a segment size of 1460, a window scale of 7. -/
def synOptions : List TcpOption :=
  [.nop, .value ⟨2, [5, 180], by decide, by decide⟩, .value ⟨3, [7], by decide, by decide⟩]

/-- Both are found in front of the end of the list. -/
theorem scanOptions_encode_syn :
    scanOptions (fun i => (encodeOptions synOptions (some [2, 3])).getD i 0) 11 2 = some 1460 ∧
      scanOptions (fun i => (encodeOptions synOptions (some [2, 3])).getD i 0) 11 3 = some 7 := by
  have hholds : HoldsAt (fun i => (encodeOptions synOptions (some [2, 3])).getD i 0) 0
      (encodeOptions synOptions (some [2, 3])) := by
    intro j hj
    rw [Nat.zero_add]
    exact (List.getElem_eq_getD 0).symm
  exact ⟨(scanOptions_encode synOptions (some [2, 3]) 2 hholds).1,
    (scanOptions_encode synOptions (some [2, 3]) 3 hholds).1⟩

end EthTransfer
