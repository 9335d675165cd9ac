import EthTransfer.Frames.OptionWalk

/-!
# Options cut off by the end of the frame

`handle_tcp_packet` takes the length of the options from the offset field and does not
compare it with the length of the frame.  `scanKnown` is `scan_options` when only the
first `known` bytes of the options are in the frame: it is settled by these, or it gets to
an option that the frame cuts.

* `scanKnown_settled`: what is settled is what `scan_options` answers, whatever comes
  behind the frame.
* `CutAt` says what is known of an option that the frame cuts, and `CutAt.exists_value`,
  `CutAt.hangs` and `CutAt.value_fill` what the bytes behind the frame can make of it.
* `OptionsSettled.outcome` and `exists_outcomes_ne`: what comes behind the frame makes no
  difference to a SYN exactly when its options are settled.
-/

namespace EthTransfer

/-! ## Scanning what is known -/

/-- Where the scanner gets with the known bytes. -/
inductive Scanned where
  /-- To its answer; `none` when the loop does not end. -/
  | settled (answer : Option Int)
  /-- To the option at `i`, of which it needs a byte that is not known. -/
  | cut (i : ℕ)
  deriving DecidableEq, Repr

/-- The loop of `scan_options` on the first `known` bytes. -/
def scanKnownFrom (buf : Bytes) (known : ℕ) (len kind : Int) : (fuel i : ℕ) → Scanned
  | 0, _ => .settled none
  | fuel + 1, i =>
    if ¬ (i : Int) < len - 1 then .settled (some (-1))
    else if known ≤ i then .cut i
    else if buf i = 0 then .settled (some (-1))
    else if buf i = 1 then scanKnownFrom buf known len kind fuel (i + 1)
    else if known ≤ i + 1 then .cut i
    else
      let size := (buf (i + 1)).toNat
      if (i : Int) + size > len then .settled (some (-1))
      else if (buf i).toNat = kind then
        if size = 4 then
          if known ≤ i + 3 then .cut i
          else
            let msb := (buf (i + 2)).toNat
            let lsb := (buf (i + 3)).toNat
            .settled (some ((msb <<< 8 ||| lsb : ℕ) : Int))
        else if size = 3 then
          if known ≤ i + 2 then .cut i else .settled (some (buf (i + 2)).toNat)
        else .settled (some (-1))
      else scanKnownFrom buf known len kind fuel (i + size)

/-- `scan_options` on the first `known` bytes. -/
def scanKnown (buf : Bytes) (known : ℕ) (len kind : Int) : Scanned :=
  scanKnownFrom buf known len kind (len.toNat + 1) 0

/-- An option that the frame cuts: its kind is not known, its size is not, or it is of the
kind that is looked for and its value, a byte or a word, is not known in full. -/
inductive CutAt (buf : Bytes) (known : ℕ) (len kind : Int) (i : ℕ) : Prop where
  | unread (hi : (i : Int) < len - 1) (hknown : known ≤ i)
  | size (hi : (i : Int) < len - 1) (hknown : known = i + 1) (h0 : buf i ≠ 0) (h1 : buf i ≠ 1)
  | byte (hi : (i : Int) < len - 1) (hknown : known = i + 2) (h0 : buf i ≠ 0) (h1 : buf i ≠ 1)
      (hkind : (buf i).toNat = kind) (hsize : (buf (i + 1)).toNat = 3) (hfits : (i : Int) + 3 ≤ len)
  | word (hi : (i : Int) < len - 1) (hknown : known = i + 2 ∨ known = i + 3) (h0 : buf i ≠ 0)
      (h1 : buf i ≠ 1) (hkind : (buf i).toNat = kind) (hsize : (buf (i + 1)).toNat = 4)
      (hfits : (i : Int) + 4 ≤ len)

section Scan

variable {buf buf' : Bytes} {known fuel i j : ℕ} {len kind : Int}

theorem OnOption.same (h : OnOption buf len i) (hsame : SameUpTo known buf buf') (hi : i < known) :
    OnOption buf' len i where
  lt := h.lt
  ne_end := hsame i hi ▸ h.ne_end
  ne_nop := hsame i hi ▸ h.ne_nop

/-- What the known bytes settle holds for whatever comes behind them. -/
theorem scanKnownFrom_settled (hsame : SameUpTo known buf buf') {answer : Option Int}
    (hscan : scanKnownFrom buf known len kind fuel j = .settled answer) :
    scanOptionsFrom buf' len kind fuel j = answer := by
  induction fuel generalizing j with
  | zero => exact Scanned.settled.inj hscan
  | succ fuel ih =>
    rw [scanKnownFrom] at hscan
    rw [scanOptionsFrom]
    by_cases hend : ¬ (j : Int) < len - 1
    · rw [if_pos hend] at hscan ⊢
      exact Scanned.settled.inj hscan
    rw [if_neg hend] at hscan ⊢
    by_cases hunread : known ≤ j
    · rw [if_pos hunread] at hscan
      cases hscan
    rw [if_neg hunread] at hscan
    rw [← hsame j (by omega)]
    by_cases h0 : buf j = 0
    · rw [if_pos h0] at hscan ⊢
      exact Scanned.settled.inj hscan
    rw [if_neg h0] at hscan ⊢
    by_cases h1 : buf j = 1
    · rw [if_pos h1] at hscan ⊢
      exact ih hscan
    rw [if_neg h1] at hscan ⊢
    by_cases hsize : known ≤ j + 1
    · rw [if_pos hsize] at hscan
      cases hscan
    rw [if_neg hsize] at hscan
    rw [← hsame (j + 1) (by omega)]
    dsimp only at hscan ⊢
    by_cases hlong : (j : Int) + (buf (j + 1)).toNat > len
    · rw [if_pos hlong] at hscan ⊢
      exact Scanned.settled.inj hscan
    rw [if_neg hlong] at hscan ⊢
    by_cases hkind : ((buf j).toNat : Int) = kind
    · rw [if_pos hkind] at hscan ⊢
      -- an answer leaves no byte of the value unknown
      by_cases hword : (buf (j + 1)).toNat = 4
      · rw [if_pos hword] at hscan ⊢
        split_ifs at hscan with hvalue
        rw [← hsame (j + 2) (by omega), ← hsame (j + 3) (by omega)]
        exact Scanned.settled.inj hscan
      rw [if_neg hword] at hscan ⊢
      by_cases hbyte : (buf (j + 1)).toNat = 3
      · rw [if_pos hbyte] at hscan ⊢
        split_ifs at hscan with hvalue
        rw [← hsame (j + 2) (by omega)]
        exact Scanned.settled.inj hscan
      · rw [if_neg hbyte] at hscan ⊢
        exact Scanned.settled.inj hscan
    · rw [if_neg hkind] at hscan ⊢
      exact ih hscan

/-- At a cut the scanner has got to the option that is cut, whatever comes behind. -/
theorem scanKnownFrom_cut (hscan : scanKnownFrom buf known len kind fuel j = .cut i) :
    j ≤ i ∧ CutAt buf known len kind i ∧ ∃ rest, ∀ buf', SameUpTo known buf buf' →
      scanOptionsFrom buf' len kind fuel j = scanOptionsFrom buf' len kind (rest + 1) i := by
  induction fuel generalizing j with
  | zero => cases hscan
  | succ fuel ih =>
    rw [scanKnownFrom] at hscan
    by_cases hend : ¬ (j : Int) < len - 1
    · rw [if_pos hend] at hscan
      cases hscan
    rw [if_neg hend] at hscan
    have hlt := not_not.mp hend
    by_cases hunread : known ≤ j
    · rw [if_pos hunread] at hscan
      obtain rfl := Scanned.cut.inj hscan
      exact ⟨le_rfl, .unread hlt hunread, fuel, fun _ _ => rfl⟩
    rw [if_neg hunread] at hscan
    by_cases h0 : buf j = 0
    · rw [if_pos h0] at hscan
      cases hscan
    rw [if_neg h0] at hscan
    by_cases h1 : buf j = 1
    · rw [if_pos h1] at hscan
      obtain ⟨hle, hcut, rest, hrest⟩ := ih hscan
      refine ⟨by omega, hcut, rest, fun buf' hsame => ?_⟩
      rw [← hrest buf' hsame]
      apply scanOptionsFrom_nop fuel hlt
      rw [← hsame j (by omega), h1]
    rw [if_neg h1] at hscan
    by_cases hsize : known ≤ j + 1
    · rw [if_pos hsize] at hscan
      obtain rfl := Scanned.cut.inj hscan
      exact ⟨le_rfl, .size hlt (by omega) h0 h1, fuel, fun _ _ => rfl⟩
    rw [if_neg hsize] at hscan
    dsimp only at hscan
    by_cases hlong : (j : Int) + (buf (j + 1)).toNat > len
    · rw [if_pos hlong] at hscan
      cases hscan
    rw [if_neg hlong] at hscan
    by_cases hkind : ((buf j).toNat : Int) = kind
    · rw [if_pos hkind] at hscan
      by_cases hword : (buf (j + 1)).toNat = 4
      · rw [if_pos hword] at hscan
        split_ifs at hscan with hvalue
        obtain rfl := Scanned.cut.inj hscan
        exact ⟨le_rfl, .word hlt (by omega) h0 h1 hkind hword (by omega), fuel, fun _ _ => rfl⟩
      rw [if_neg hword] at hscan
      split_ifs at hscan with hbyte hvalue
      obtain rfl := Scanned.cut.inj hscan
      exact ⟨le_rfl, .byte hlt (by omega) h0 h1 hkind hbyte (by omega), fuel, fun _ _ => rfl⟩
    · rw [if_neg hkind] at hscan
      obtain ⟨hle, hcut, rest, hrest⟩ := ih hscan
      refine ⟨by omega, hcut, rest, fun buf' hsame => ?_⟩
      have hon : OnOption buf' len j := (OnOption.mk hlt h0 h1).same hsame (by omega)
      rw [hsame (j + 1) (by omega)] at hlong hrest
      rw [hsame j (by omega)] at hkind
      rw [← hrest buf' hsame, hon.scan_other fuel (by omega) hkind]

/-- Two kinds cannot both be cut in their values: the scan for the other kind walks past an
option with a known size, and gets to one of which nothing is known. -/
theorem scanKnownFrom_cut_cut {kind' : Int} {i' : ℕ} (hne : kind ≠ kind')
    (hscan : scanKnownFrom buf known len kind fuel j = .cut i)
    (hscan' : scanKnownFrom buf known len kind' fuel j = .cut i') :
    known ≤ i ∨ known ≤ i' ∨ i' = i ∧ known = i + 1 := by
  induction fuel generalizing j with
  | zero => cases hscan
  | succ fuel ih =>
    rw [scanKnownFrom] at hscan hscan'
    by_cases hend : ¬ (j : Int) < len - 1
    · rw [if_pos hend] at hscan
      cases hscan
    rw [if_neg hend] at hscan hscan'
    by_cases hunread : known ≤ j
    · rw [if_pos hunread] at hscan
      obtain rfl := Scanned.cut.inj hscan
      exact Or.inl hunread
    rw [if_neg hunread] at hscan hscan'
    by_cases h0 : buf j = 0
    · rw [if_pos h0] at hscan
      cases hscan
    rw [if_neg h0] at hscan hscan'
    by_cases h1 : buf j = 1
    · rw [if_pos h1] at hscan hscan'
      exact ih hscan hscan'
    rw [if_neg h1] at hscan hscan'
    by_cases hsize : known ≤ j + 1
    · rw [if_pos hsize] at hscan hscan'
      obtain rfl := Scanned.cut.inj hscan
      obtain rfl := Scanned.cut.inj hscan'
      omega
    rw [if_neg hsize] at hscan hscan'
    dsimp only at hscan hscan'
    by_cases hlong : (j : Int) + (buf (j + 1)).toNat > len
    · rw [if_pos hlong] at hscan
      cases hscan
    rw [if_neg hlong] at hscan hscan'
    by_cases hkind : ((buf j).toNat : Int) = kind
    · rw [if_pos hkind] at hscan
      rw [if_neg (hkind ▸ hne)] at hscan'
      have hle := (scanKnownFrom_cut hscan').1
      split_ifs at hscan
      · omega
      · omega
    rw [if_neg hkind] at hscan
    by_cases hkind' : ((buf j).toNat : Int) = kind'
    · rw [if_pos hkind'] at hscan'
      have hle := (scanKnownFrom_cut hscan).1
      split_ifs at hscan'
      · omega
      · omega
    · rw [if_neg hkind'] at hscan'
      exact ih hscan hscan'

/-! ## What may come behind -/

theorem CutAt.onOption (hcut : CutAt buf known len kind i) (hi : i < known) :
    OnOption buf len i := by
  cases hcut with
  | unread _ hknown => omega
  | size hlt _ h0 h1 => exact ⟨hlt, h0, h1⟩
  | byte hlt _ h0 h1 => exact ⟨hlt, h0, h1⟩
  | word hlt _ h0 h1 => exact ⟨hlt, h0, h1⟩

/-- Only a word is cut behind its first byte. -/
theorem CutAt.size_of_known (hcut : CutAt buf known len kind i) (hknown : known = i + 3)
    (hsame : SameUpTo known buf buf') :
    (buf' (i + 1)).toNat = 4 ∧ (i : Int) + 4 ≤ len := by
  cases hcut with
  | unread _ hle => omega
  | size _ hk => omega
  | byte _ hk => omega
  | word _ hk _ _ _ hsize hfits =>
    rw [← hsame (i + 1) (by omega)]
    exact ⟨hsize, hfits⟩

/-- The scanner at an option of the kind that it looks for does not run on.  Without room
for a value it finds none, and the high byte of a word bounds the word. -/
theorem CutAt.exists_value (hcut : CutAt buf known len kind i) (hi : i < known)
    (hkind : (buf i).toNat = kind) (hsame : SameUpTo known buf buf') (rest : ℕ) :
    ∃ v, scanOptionsFrom buf' len kind (rest + 1) i = some v ∧ (i + 2 = len → v = -1) ∧
      (known = i + 3 → 256 * ((buf (i + 2)).toNat : Int) ≤ v) := by
  have hon := (hcut.onOption hi).same hsame hi
  rw [hsame i hi] at hkind
  by_cases hlong : len < (i : Int) + (buf' (i + 1)).toNat
  · refine ⟨-1, hon.scan_long rest hlong, fun _ => rfl, fun hknown => ?_⟩
    have hsize := hcut.size_of_known hknown hsame
    omega
  · refine ⟨_, hon.scan_kind rest (by omega) hkind, fun hroom => ?_, fun hknown => ?_⟩
    · rw [optionValue, if_neg (by omega), if_neg (by omega)]
    · have hsize := hcut.size_of_known hknown hsame
      rw [optionValue, if_pos hsize.1, ← hsame (i + 2) (by omega)]
      omega

/-- At any other option an option of length 0 can come behind, where the scanner stays. -/
theorem CutAt.hangs (hcut : CutAt buf known len kind i)
    (hother : ¬ (i < known ∧ (buf i).toNat = kind)) (hkind : kind ≠ 5)
    (hsame : SameUpTo known buf buf')
    (hbehind : ∀ j, known ≤ j → buf' j = if j = i then 5 else 0) :
    scanOptionsFrom buf' len kind fuel i = none := by
  cases hcut with
  | unread hi hknown =>
    have hfive : buf' i = 5 := by rw [hbehind i hknown, if_pos rfl]
    have hzero : buf' (i + 1) = 0 := by rw [hbehind (i + 1) (by omega), if_neg (by omega)]
    refine scanOptionsFrom_stuck hi ?_ ?_ ?_ ?_ fuel
    · rw [hfive]
      decide
    · rw [hfive]
      decide
    · rw [hzero]
      rfl
    · rw [hfive]
      exact fun heq => hkind heq.symm
  | size hi hknown h0 h1 =>
    have hzero : buf' (i + 1) = 0 := by rw [hbehind (i + 1) (by omega), if_neg (by omega)]
    rw [hsame i (by omega)] at h0 h1 hother
    refine scanOptionsFrom_stuck hi h0 h1 ?_ (fun heq => hother ⟨by omega, heq⟩) fuel
    rw [hzero]
    rfl
  | byte _ hknown _ _ heq => exact absurd ⟨by omega, heq⟩ hother
  | word _ hknown _ _ heq => exact absurd ⟨by omega, heq⟩ hother

/-- An option that is longer than the rest can come behind, where the scanner ends. -/
theorem CutAt.ends (hcut : CutAt buf known len kind i) (hlen : len < 255)
    (hsame : SameUpTo known buf buf') (hbehind : ∀ j, known ≤ j → buf' j = 255) (rest : ℕ) :
    ∃ v, scanOptionsFrom buf' len kind (rest + 1) i = some v := by
  have hends (hon : OnOption buf' len i) (hsize : buf' (i + 1) = 255) :
      scanOptionsFrom buf' len kind (rest + 1) i = some (-1) := by
    apply hon.scan_long
    rw [hsize]
    change len < (i : Int) + (255 : ℕ)
    omega
  cases hcut with
  | unread hi hknown =>
    have hkind : buf' i = 255 := hbehind i hknown
    refine ⟨-1, hends ⟨hi, ?_, ?_⟩ (hbehind (i + 1) (by omega))⟩
    · rw [hkind]
      decide
    · rw [hkind]
      decide
  | size hi hknown h0 h1 =>
    have hon : OnOption buf' len i := (OnOption.mk hi h0 h1).same hsame (by omega)
    exact ⟨-1, hends hon (hbehind (i + 1) (by omega))⟩
  | byte hi hknown h0 h1 hkind hsize hfits =>
    obtain ⟨v, hv, -⟩ := (CutAt.byte hi hknown h0 h1 hkind hsize hfits).exists_value
      (by omega) hkind hsame rest
    exact ⟨v, hv⟩
  | word hi hknown h0 h1 hkind hsize hfits =>
    obtain ⟨v, hv, -⟩ := (CutAt.word hi hknown h0 h1 hkind hsize hfits).exists_value
      (by omega) hkind hsame rest
    exact ⟨v, hv⟩

/-- At an option of the kind that is looked for, with room for a value, a value can come
behind. -/
theorem CutAt.value_fill (hcut : CutAt buf known len kind i) (hi : i < known)
    (hkind : (buf i).toNat = kind) (hroom : (i : Int) + 3 ≤ len) (x : UInt8)
    (hsame : SameUpTo known buf buf')
    (hbehind : ∀ j, known ≤ j → buf' j = if j = i + 1 then 3 else x) (rest : ℕ) :
    ∃ v : ℕ, scanOptionsFrom buf' len kind (rest + 1) i = some (v : Int) ∧
      (v = x.toNat ∨ v = 257 * x.toNat ∨
        known = i + 3 ∧ v = 256 * (buf (i + 2)).toNat + x.toNat) := by
  have hvalue : known ≤ i + 2 → buf' (i + 2) = x := by
    intro hknown
    rw [hbehind (i + 2) hknown, if_neg (by omega)]
  have hlow : known ≤ i + 3 → buf' (i + 3) = x := by
    intro hknown
    rw [hbehind (i + 3) hknown, if_neg (by omega)]
  have hon := (hcut.onOption hi).same hsame hi
  rw [hsame i hi] at hkind
  -- an option of three bytes has its value in the third one
  have hbyte : (buf' (i + 1)).toNat = 3 → known ≤ i + 2 →
      scanOptionsFrom buf' len kind (rest + 1) i = some (x.toNat : Int) := by
    intro hsize hknown
    rw [hon.scan_kind rest (by omega) hkind, optionValue, if_neg (by omega), if_pos hsize,
      hvalue hknown]
  cases hcut with
  | unread _ hknown => omega
  | size _ hknown =>
    have hsize : buf' (i + 1) = 3 := by rw [hbehind (i + 1) (by omega), if_pos rfl]
    exact ⟨x.toNat, hbyte (by rw [hsize]; rfl) (by omega), Or.inl rfl⟩
  | byte _ hknown _ _ _ hsize =>
    rw [hsame (i + 1) (by omega)] at hsize
    exact ⟨x.toNat, hbyte hsize (by omega), Or.inl rfl⟩
  | word _ hknown _ _ _ hsize hfits =>
    rw [hsame (i + 1) (by omega)] at hsize
    refine ⟨256 * (buf' (i + 2)).toNat + x.toNat, ?_, ?_⟩
    · rw [hon.scan_kind rest (by omega) hkind, optionValue, if_pos hsize, hlow (by omega)]
      rfl
    rcases hknown with hknown | hknown
    · rw [hvalue (by omega)]
      omega
    · rw [← hsame (i + 2) (by omega)]
      exact Or.inr (Or.inr ⟨hknown, rfl⟩)

end Scan

/-! ## The outcome -/

/-- What `handle_tcp_packet` does with the answers for the kinds 2 and 3. -/
def acceptOptions (s : Stack) (packet : TcpPacket) (rand : Rand)
    (maxSegment windowScale : Option Int) : Option Stack := do
  let maxSegment ← maxSegment
  let windowScale ← windowScale
  let windowScale := if windowScale < 0 then 0 else windowScale
  if windowScale > 14 then some s
  else if maxSegment = 0 then some s
  else
    let maxSegment :=
      if maxSegment < 0 ∨ maxSegment > MAX_SEGMENT then MAX_SEGMENT else maxSegment
    some { s with
      connectionCounter := s.connectionCounter + 1
      tcpConn := openConnection s.tcpConn packet s.connectionCounter rand
        windowScale.toNat maxSegment }

theorem acceptSyn_eq_acceptOptions (s : Stack) (packet : TcpPacket) (rand : Rand)
    (hflags : (packet.tcp.has TCP_SYN && !packet.tcp.has TCP_ACK) = true) :
    acceptSyn s packet rand =
      acceptOptions s packet rand
        (scanOptions (fun i => packet.tcp.bytes (20 + i)) (packet.tcp.dataOffset - 20) 2)
        (scanOptions (fun i => packet.tcp.bytes (20 + i)) (packet.tcp.dataOffset - 20) 3) :=
  if_pos hflags

section Outcome

variable {s : Stack} {packet : TcpPacket} {rand : Rand} {maxSegment windowScale : Int}

theorem acceptOptions_none {answer answer' : Option Int} (h : answer = none ∨ answer' = none) :
    acceptOptions s packet rand answer answer' = none := by
  rcases h with rfl | rfl
  · rfl
  · cases answer <;> rfl

theorem acceptOptions_dropped (h : windowScale > 14 ∨ maxSegment = 0) :
    acceptOptions s packet rand (some maxSegment) (some windowScale) = some s := by
  unfold acceptOptions
  simp only [Option.bind_eq_bind, Option.bind_some]
  split_ifs <;> first | rfl | omega

theorem acceptOptions_opens (hscale : windowScale ≤ 14) (hmax : maxSegment ≠ 0) :
    acceptOptions s packet rand (some maxSegment) (some windowScale) =
      some { s with
        connectionCounter := s.connectionCounter + 1
        tcpConn := openConnection s.tcpConn packet s.connectionCounter rand
          (if windowScale < 0 then 0 else windowScale).toNat
          (if maxSegment < 0 ∨ maxSegment > MAX_SEGMENT then MAX_SEGMENT else maxSegment) } := by
  have hle : ¬ (if windowScale < 0 then 0 else windowScale) > 14 := by omega
  unfold acceptOptions
  simp only [Option.bind_eq_bind, Option.bind_some]
  rw [if_neg hle, if_neg hmax]

theorem acceptOptions_ne_none (maxSegment windowScale : Int) :
    acceptOptions s packet rand (some maxSegment) (some windowScale) ≠ none := by
  by_cases h : windowScale > 14 ∨ maxSegment = 0
  · rw [acceptOptions_dropped h]
    simp
  · rw [acceptOptions_opens (by omega) (by omega)]
    simp

/-- A segment size above `MAX_SEGMENT` counts as `MAX_SEGMENT`. -/
theorem acceptOptions_large (hlarge : MAX_SEGMENT < maxSegment) :
    acceptOptions s packet rand (some maxSegment) (some windowScale) =
      acceptOptions s packet rand (some MAX_SEGMENT) (some windowScale) := by
  unfold MAX_SEGMENT at hlarge ⊢
  by_cases hscale : windowScale ≤ 14
  · rw [acceptOptions_opens hscale (by omega), acceptOptions_opens hscale (by omega)]
    unfold MAX_SEGMENT
    rw [if_pos (show maxSegment < 0 ∨ maxSegment > 1400 by omega),
      if_neg (show ¬ ((1400 : Int) < 0 ∨ (1400 : Int) > 1400) by omega)]
  · rw [acceptOptions_dropped (by omega), acceptOptions_dropped (by omega)]

/-- A SYN is dropped or opens the connection. -/
theorem acceptOptions_dropped_ne (hlisten : s.tcpConn.state = .listen)
    (hscale : windowScale ≤ 14) (hmax : maxSegment ≠ 0) :
    acceptOptions s packet rand (some maxSegment) (some windowScale) ≠ some s := by
  rw [acceptOptions_opens hscale hmax]
  intro heq
  have hstate := congrArg (fun s : Stack => s.tcpConn.state) (Option.some.inj heq)
  rw [hlisten] at hstate
  cases hstate

/-- Two segment sizes that are in range have two outcomes. -/
theorem acceptOptions_inj (hlisten : s.tcpConn.state = .listen) (hscale : windowScale ≤ 14)
    {a b : ℕ} (ha : (a : Int) ≤ MAX_SEGMENT) (hb : (b : Int) ≤ MAX_SEGMENT) (hne : a ≠ b) :
    acceptOptions s packet rand (some (a : Int)) (some windowScale) ≠
      acceptOptions s packet rand (some (b : Int)) (some windowScale) := by
  unfold MAX_SEGMENT at ha hb
  by_cases hzero : (a : Int) = 0
  · rw [acceptOptions_dropped (Or.inr hzero)]
    exact (acceptOptions_dropped_ne hlisten hscale (by omega)).symm
  by_cases hzero' : (b : Int) = 0
  · have hdropped : acceptOptions s packet rand (some (b : Int)) (some windowScale) = some s :=
      acceptOptions_dropped (Or.inr hzero')
    rw [hdropped]
    exact acceptOptions_dropped_ne hlisten hscale hzero
  rw [acceptOptions_opens hscale hzero, acceptOptions_opens hscale hzero']
  intro heq
  have hsize := congrArg (fun s : Stack => s.tcpConn.remoteMaxSegment) (Option.some.inj heq)
  unfold MAX_SEGMENT at hsize
  dsimp only [openConnection] at hsize
  rw [if_neg (by omega), if_neg (by omega), Word.ofInt_natCast, Word.ofInt_natCast,
    ← UInt32.toNat_inj, UInt32.toNat_ofNat_of_lt' (by change a < 2 ^ 32; omega),
    UInt32.toNat_ofNat_of_lt' (by change b < 2 ^ 32; omega)] at hsize
  exact hne hsize

/-- A SYN without options takes over the window. -/
theorem acceptOptions_windowSize {packet' : TcpPacket}
    (heq : acceptOptions s packet rand (some (-1)) (some (-1)) =
      acceptOptions s packet' rand (some (-1)) (some (-1))) :
    packet.tcp.windowSize = packet'.tcp.windowSize := by
  rw [acceptOptions_opens (by omega) (by omega), acceptOptions_opens (by omega) (by omega)] at heq
  have hwindow := congrArg (fun s : Stack => s.tcpConn.remoteWindow) (Option.some.inj heq)
  change packet.tcp.windowSize.toUInt32 <<< 0 = packet'.tcp.windowSize.toUInt32 <<< 0 at hwindow
  rw [UInt32.shiftLeft_zero, UInt32.shiftLeft_zero] at hwindow
  rw [← UInt16.toNat_inj, ← UInt16.toNat_toUInt32, hwindow, UInt16.toNat_toUInt32]

end Outcome

/-- The options that settle what happens to a SYN, of which the first `known` bytes are in
the frame.  Where an option is cut, the rest of its value does not matter: the other option
drops the SYN, there is no room for a value, or the high byte is enough. -/
inductive OptionsSettled (buf : Bytes) (known : ℕ) (len : Int) : Prop where
  | hangs (h : scanKnown buf known len 2 = .settled none ∨
      scanKnown buf known len 3 = .settled none)
  | answered {maxSegment windowScale : Int}
      (hmax : scanKnown buf known len 2 = .settled (some maxSegment))
      (hscale : scanKnown buf known len 3 = .settled (some windowScale))
  | maxSegment {i : ℕ} {windowScale : Int} (hmax : scanKnown buf known len 2 = .cut i)
      (hscale : scanKnown buf known len 3 = .settled (some windowScale)) (hi : i < known)
      (hkind : buf i = 2)
      (hvalue : windowScale > 14 ∨ i + 2 = len ∨ known = i + 3 ∧ 6 ≤ (buf (i + 2)).toNat)
  | windowScale {i : ℕ} {maxSegment : Int}
      (hmax : scanKnown buf known len 2 = .settled (some maxSegment))
      (hscale : scanKnown buf known len 3 = .cut i) (hi : i < known) (hkind : buf i = 3)
      (hvalue : maxSegment = 0 ∨ i + 2 = len ∨ known = i + 3 ∧ 1 ≤ (buf (i + 2)).toNat)

section Settled

variable {s : Stack} {packet : TcpPacket} {rand : Rand} {buf : Bytes} {known : ℕ} {len : Int}

theorem scanKnown_settled {buf' : Bytes} {kind : Int} {answer : Option Int}
    (hscan : scanKnown buf known len kind = .settled answer) (hsame : SameUpTo known buf buf') :
    scanOptions buf' len kind = answer :=
  scanKnownFrom_settled hsame hscan

theorem scanKnown_cut {kind : Int} {i : ℕ} (hscan : scanKnown buf known len kind = .cut i) :
    CutAt buf known len kind i ∧ ∃ rest, ∀ buf', SameUpTo known buf buf' →
      scanOptions buf' len kind = scanOptionsFrom buf' len kind (rest + 1) i :=
  (scanKnownFrom_cut hscan).2

theorem scanOptions_of_zero (hzero : buf 0 = 0) (len kind : Int) :
    scanOptions buf len kind = some (-1) := by
  unfold scanOptions
  rw [scanOptionsFrom]
  by_cases hend : ¬ ((0 : ℕ) : Int) < len - 1
  · rw [if_pos hend]
  · rw [if_neg hend, if_pos hzero]

/-- The answer for an option that is cut in its value. -/
theorem scanKnown_value {kind : Int} {i : ℕ} (hscan : scanKnown buf known len kind = .cut i)
    (hi : i < known) (hkind : (buf i).toNat = kind) (buf' : Bytes)
    (hsame : SameUpTo known buf buf') :
    ∃ v, scanOptions buf' len kind = some v ∧ (i + 2 = len → v = -1) ∧
      (known = i + 3 → 256 * ((buf (i + 2)).toNat : Int) ≤ v) := by
  obtain ⟨hcut, rest, hrest⟩ := scanKnown_cut hscan
  rw [hrest buf' hsame]
  exact hcut.exists_value hi hkind hsame rest

/-- Settled options have one outcome, whatever comes behind the frame. -/
theorem OptionsSettled.outcome (h : OptionsSettled buf known len) (s : Stack)
    (packet : TcpPacket) (rand : Rand) :
    ∃ outcome, ∀ buf', SameUpTo known buf buf' →
      acceptOptions s packet rand (scanOptions buf' len 2) (scanOptions buf' len 3) =
        outcome := by
  cases h with
  | hangs h =>
    refine ⟨none, fun buf' hsame => acceptOptions_none ?_⟩
    exact h.imp (scanKnown_settled · hsame) (scanKnown_settled · hsame)
  | @answered maxSegment windowScale hmax hscale =>
    refine ⟨acceptOptions s packet rand (some maxSegment) (some windowScale),
      fun buf' hsame => ?_⟩
    rw [scanKnown_settled hmax hsame, scanKnown_settled hscale hsame]
  | @maxSegment i windowScale hmax hscale hi hkind hvalue =>
    have hanswer := scanKnown_value hmax hi (by rw [hkind]; rfl)
    rcases hvalue with hdrops | hroom | ⟨hknown, hhigh⟩
    · refine ⟨some s, fun buf' hsame => ?_⟩
      obtain ⟨v, hv, -⟩ := hanswer buf' hsame
      rw [hv, scanKnown_settled hscale hsame, acceptOptions_dropped (Or.inl hdrops)]
    · refine ⟨acceptOptions s packet rand (some (-1)) (some windowScale), fun buf' hsame => ?_⟩
      obtain ⟨v, hv, hnone, -⟩ := hanswer buf' hsame
      rw [hv, hnone hroom, scanKnown_settled hscale hsame]
    · refine ⟨acceptOptions s packet rand (some MAX_SEGMENT) (some windowScale),
        fun buf' hsame => ?_⟩
      obtain ⟨v, hv, -, hle⟩ := hanswer buf' hsame
      have hlarge := hle hknown
      rw [hv, scanKnown_settled hscale hsame, acceptOptions_large]
      unfold MAX_SEGMENT
      omega
  | @windowScale i maxSegment hmax hscale hi hkind hvalue =>
    have hanswer := scanKnown_value hscale hi (by rw [hkind]; rfl)
    rcases hvalue with hdrops | hroom | ⟨hknown, hhigh⟩
    · refine ⟨some s, fun buf' hsame => ?_⟩
      obtain ⟨v, hv, -⟩ := hanswer buf' hsame
      rw [hv, scanKnown_settled hmax hsame, acceptOptions_dropped (Or.inr hdrops)]
    · refine ⟨acceptOptions s packet rand (some maxSegment) (some (-1)), fun buf' hsame => ?_⟩
      obtain ⟨v, hv, hnone, -⟩ := hanswer buf' hsame
      rw [hv, hnone hroom, scanKnown_settled hmax hsame]
    · refine ⟨some s, fun buf' hsame => ?_⟩
      obtain ⟨v, hv, -, hle⟩ := hanswer buf' hsame
      have hlarge := hle hknown
      rw [hv, scanKnown_settled hmax hsame, acceptOptions_dropped (Or.inl (by omega))]

/-- Behind an option of another kind, or of which nothing is known, the scanner can hang. -/
theorem scanKnown_hangs {kind : Int} {i : ℕ} (hscan : scanKnown buf known len kind = .cut i)
    (hother : ¬ (i < known ∧ (buf i).toNat = kind)) (hkind : kind ≠ 5) :
    scanOptions (splice known buf fun j => if j = i then 5 else 0) len kind = none := by
  obtain ⟨hcut, rest, hrest⟩ := scanKnown_cut hscan
  rw [hrest _ (splice_same known buf _)]
  exact hcut.hangs hother hkind (splice_same known buf _) fun j => splice_of_le buf _

theorem scanKnown_ends {kind : Int} {i : ℕ} (hscan : scanKnown buf known len kind = .cut i)
    (hlen : len < 255) :
    ∃ v, scanOptions (splice known buf fun _ => 255) len kind = some v := by
  obtain ⟨hcut, rest, hrest⟩ := scanKnown_cut hscan
  rw [hrest _ (splice_same known buf _)]
  exact hcut.ends hlen (splice_same known buf _) (fun j => splice_of_le buf _) rest

theorem scanKnown_fill {kind : Int} {i : ℕ} (hscan : scanKnown buf known len kind = .cut i)
    (hi : i < known) (hkind : (buf i).toNat = kind) (hroom : i + 2 ≠ len) (x : UInt8) :
    ∃ v : ℕ, scanOptions (splice known buf fun j => if j = i + 1 then 3 else x) len kind =
        some (v : Int) ∧
      (v = x.toNat ∨ v = 257 * x.toNat ∨
        known = i + 3 ∧ v = 256 * (buf (i + 2)).toNat + x.toNat) := by
  obtain ⟨hcut, rest, hrest⟩ := scanKnown_cut hscan
  have hend : (i : Int) < len - 1 := by
    cases hcut <;> assumption
  rw [hrest _ (splice_same known buf _)]
  exact hcut.value_fill hi hkind (by omega) x (splice_same known buf _)
    (fun j => splice_of_le buf _) rest

/-- What comes behind the frame makes a difference. -/
def OutcomeVaries (s : Stack) (packet : TcpPacket) (rand : Rand) (buf : Bytes) (known : ℕ)
    (len : Int) : Prop :=
  ∃ behind behind', acceptOptions s packet rand
      (scanOptions (splice known buf behind) len 2)
      (scanOptions (splice known buf behind) len 3) ≠
    acceptOptions s packet rand (scanOptions (splice known buf behind') len 2)
      (scanOptions (splice known buf behind') len 3)

/-- A segment size that is cut can be one of two that are in range. -/
theorem exists_maxSegment {i : ℕ} {windowScale : Int} (hlisten : s.tcpConn.state = .listen)
    (hmax : scanKnown buf known len 2 = .cut i)
    (hscale : scanKnown buf known len 3 = .settled (some windowScale))
    (hnot : ¬ OptionsSettled buf known len) (hi : i < known) (hkind : buf i = 2) :
    OutcomeVaries s packet rand buf known len := by
  have hvalue := mt (OptionsSettled.maxSegment hmax hscale hi hkind) hnot
  obtain ⟨a, ha, hcase⟩ := scanKnown_fill hmax hi (by rw [hkind]; rfl) (by omega) 0
  obtain ⟨b, hb, hcase'⟩ := scanKnown_fill hmax hi (by rw [hkind]; rfl) (by omega) 1
  refine ⟨fun j => if j = i + 1 then 3 else 0, fun j => if j = i + 1 then 3 else 1, ?_⟩
  rw [ha, hb, scanKnown_settled hscale (splice_same known buf _),
    scanKnown_settled hscale (splice_same known buf _)]
  change a = 0 ∨ a = 0 ∨ known = i + 3 ∧ a = 256 * (buf (i + 2)).toNat + 0 at hcase
  change b = 1 ∨ b = 257 ∨ known = i + 3 ∧ b = 256 * (buf (i + 2)).toNat + 1 at hcase'
  apply acceptOptions_inj hlisten
  · omega
  · unfold MAX_SEGMENT
    omega
  · unfold MAX_SEGMENT
    omega
  · omega

/-- A window scale that is cut can be one that drops the SYN, and one that does not. -/
theorem exists_windowScale {i : ℕ} {maxSegment : Int} (hlisten : s.tcpConn.state = .listen)
    (hmax : scanKnown buf known len 2 = .settled (some maxSegment))
    (hscale : scanKnown buf known len 3 = .cut i)
    (hnot : ¬ OptionsSettled buf known len) (hi : i < known) (hkind : buf i = 3) :
    OutcomeVaries s packet rand buf known len := by
  have hvalue := mt (OptionsSettled.windowScale hmax hscale hi hkind) hnot
  obtain ⟨a, ha, hcase⟩ := scanKnown_fill hscale hi (by rw [hkind]; rfl) (by omega) 0
  obtain ⟨b, hb, hcase'⟩ := scanKnown_fill hscale hi (by rw [hkind]; rfl) (by omega) 15
  refine ⟨fun j => if j = i + 1 then 3 else 0, fun j => if j = i + 1 then 3 else 15, ?_⟩
  rw [ha, hb, scanKnown_settled hmax (splice_same known buf _),
    scanKnown_settled hmax (splice_same known buf _)]
  change a = 0 ∨ a = 0 ∨ known = i + 3 ∧ a = 256 * (buf (i + 2)).toNat + 0 at hcase
  change b = 15 ∨ b = 257 * 15 ∨ known = i + 3 ∧ b = 256 * (buf (i + 2)).toNat + 15 at hcase'
  have hdropped : acceptOptions s packet rand (some maxSegment) (some (b : Int)) = some s :=
    acceptOptions_dropped (by omega)
  rw [hdropped]
  apply acceptOptions_dropped_ne hlisten
  · omega
  · omega

/-- Other options have two outcomes. -/
theorem exists_outcomes_ne (packet : TcpPacket) (rand : Rand)
    (hlisten : s.tcpConn.state = .listen) (hlen : len < 255)
    (hnot : ¬ OptionsSettled buf known len) :
    OutcomeVaries s packet rand buf known len := by
  -- one scan hangs on what may come behind, and with other bytes both end
  have hdiffer : ∀ i v w,
      (scanOptions (splice known buf fun j => if j = i then 5 else 0) len 2 = none ∨
        scanOptions (splice known buf fun j => if j = i then 5 else 0) len 3 = none) →
      scanOptions (splice known buf fun _ => 255) len 2 = some v →
      scanOptions (splice known buf fun _ => 255) len 3 = some w →
      OutcomeVaries s packet rand buf known len := by
    intro i v w hhangs hv hw
    refine ⟨fun j => if j = i then 5 else 0, fun _ => 255, ?_⟩
    rw [acceptOptions_none hhangs, hv, hw]
    exact (acceptOptions_ne_none v w).symm
  cases hmax : scanKnown buf known len 2 with
  | settled maxSegment =>
    cases maxSegment with
    | none => exact absurd (.hangs (Or.inl hmax)) hnot
    | some maxSegment =>
      cases hscale : scanKnown buf known len 3 with
      | settled windowScale =>
        cases windowScale with
        | none => exact absurd (.hangs (Or.inr hscale)) hnot
        | some windowScale => exact absurd (.answered hmax hscale) hnot
      | cut i =>
        by_cases hvalue : i < known ∧ buf i = 3
        · exact exists_windowScale hlisten hmax hscale hnot hvalue.1 hvalue.2
        · obtain ⟨w, hw⟩ := scanKnown_ends hscale hlen
          refine hdiffer i maxSegment w (Or.inr (scanKnown_hangs hscale ?_ (by omega)))
            (scanKnown_settled hmax (splice_same known buf _)) hw
          exact fun ⟨hi, hkind⟩ => hvalue ⟨hi, UInt8.toNat_inj.mp (Int.ofNat_inj.mp hkind)⟩
  | cut i =>
    obtain ⟨v, hv⟩ := scanKnown_ends hmax hlen
    cases hscale : scanKnown buf known len 3 with
    | settled windowScale =>
      cases windowScale with
      | none => exact absurd (.hangs (Or.inr hscale)) hnot
      | some windowScale =>
        by_cases hvalue : i < known ∧ buf i = 2
        · exact exists_maxSegment hlisten hmax hscale hnot hvalue.1 hvalue.2
        · refine hdiffer i v windowScale (Or.inl (scanKnown_hangs hmax ?_ (by omega))) hv
            (scanKnown_settled hscale (splice_same known buf _))
          exact fun ⟨hi, hkind⟩ => hvalue ⟨hi, UInt8.toNat_inj.mp (Int.ofNat_inj.mp hkind)⟩
    | cut i' =>
      obtain ⟨w, hw⟩ := scanKnown_ends hscale hlen
      rcases scanKnownFrom_cut_cut (by omega) hmax hscale with hunread | hunread | ⟨rfl, hsize⟩
      · exact hdiffer i v w (Or.inl (scanKnown_hangs hmax (by omega) (by omega))) hv hw
      · exact hdiffer i' v w (Or.inr (scanKnown_hangs hscale (by omega) (by omega))) hv hw
      · by_cases hkind : ((buf i').toNat : Int) = 2
        · exact hdiffer i' v w (Or.inr (scanKnown_hangs hscale (by omega) (by omega))) hv hw
        · exact hdiffer i' v w (Or.inl (scanKnown_hangs hmax (by omega) (by omega))) hv hw

end Settled

end EthTransfer
