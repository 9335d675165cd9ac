import EthTransfer.Http.Server

/-!
# What lies behind the request

`read_buffer` holds garbage behind the bytes of the request: what `malloc` left there,
bytes of earlier connections, or bytes that came after the request.  `AgreeTo n` relates
two blocks with the same bytes up to a zero at place `n`, and the lemmas say that
everything the server does below that zero is the same for both.

* `AgreeTo.readHeader`: the decision of `main`.
* `AgreeTo.parseHttpContent`: the outcome of `parse_http_content`.
-/

namespace EthTransfer

open Search

/-- Two blocks with the same bytes up to a zero at place `n`. -/
def AgreeTo (n : ℕ) (block block' : Block) : Prop :=
  ∃ init rest rest' : Block, init.length = n ∧ block = init ++ 0 :: rest ∧
    block' = init ++ 0 :: rest'

variable {n : ℕ} {block block' : Block}

theorem AgreeTo.symm (h : AgreeTo n block block') : AgreeTo n block' block := by
  obtain ⟨init, rest, rest', hlength, hblock, hblock'⟩ := h
  exact ⟨init, rest', rest, hlength, hblock', hblock⟩

/-- From a place up to the zero on, they agree, too. -/
theorem AgreeTo.drop (h : AgreeTo n block block') {p : ℕ} (hp : p ≤ n) :
    AgreeTo (n - p) (block.drop p) (block'.drop p) := by
  obtain ⟨init, rest, rest', rfl, rfl, rfl⟩ := h
  refine ⟨init.drop p, rest, rest', by simp, ?_, ?_⟩ <;>
    rw [List.drop_append_of_le_length hp]

/-! ## Reading -/

theorem readAt_natCast (block : Block) (i : ℕ) : readAt block i = block[i]? := by
  unfold readAt
  rw [if_neg (by omega), Int.toNat_natCast]

theorem AgreeTo.getElem? (h : AgreeTo n block block') {i : ℕ} (hi : i ≤ n) :
    block[i]? = block'[i]? := by
  obtain ⟨init, rest, rest', rfl, rfl, rfl⟩ := h
  rcases Nat.lt_or_eq_of_le hi with hlt | rfl
  · rw [List.getElem?_append_left hlt, List.getElem?_append_left hlt]
  · simp

theorem AgreeTo.getD (h : AgreeTo n block block') {i : ℕ} (hi : i ≤ n) :
    block.getD i 0 = block'.getD i 0 := by
  rw [List.getD_eq_getElem?_getD, List.getD_eq_getElem?_getD, h.getElem? hi]

/-- The zero. -/
theorem AgreeTo.getD_end (h : AgreeTo n block block') : block.getD n 0 = 0 := by
  obtain ⟨init, rest, rest', rfl, rfl, rfl⟩ := h
  simp [List.getD_eq_getElem?_getD]

theorem AgreeTo.readAt (h : AgreeTo n block block') {i : Int} (hi : i ≤ n) :
    readAt block i = readAt block' i := by
  unfold EthTransfer.readAt
  split_ifs with hneg
  · rfl
  · exact h.getElem? (by omega)

theorem AgreeTo.take_drop (h : AgreeTo n block block') {p len : ℕ} (hlen : p + len ≤ n) :
    (block.drop p).take len = (block'.drop p).take len := by
  obtain ⟨init, rest, rest', rfl, rfl, rfl⟩ := h
  rw [List.drop_append_of_le_length (by omega), List.drop_append_of_le_length (by omega),
    List.take_append_of_le_length (by simp; omega), List.take_append_of_le_length (by simp; omega)]

/-- A string without a zero starts at a place of the one block if and only if it does so
in the other. -/
theorem AgreeTo.isPrefixOf (h : AgreeTo n block block') {key : List UInt8}
    (hkey : (0 : UInt8) ∉ key) {p : ℕ} (hp : p ≤ n) :
    key.isPrefixOf (block.drop p) = key.isPrefixOf (block'.drop p) := by
  obtain ⟨init, rest, rest', rfl, rfl, rfl⟩ := h
  rw [Bool.eq_iff_iff, List.isPrefixOf_iff_prefix, List.isPrefixOf_iff_prefix,
    List.drop_append_of_le_length hp, List.drop_append_of_le_length hp,
    prefix_append_cons_iff hkey, prefix_append_cons_iff hkey]

theorem AgreeTo.stringAt (h : AgreeTo n block block') {p : ℕ} (hp : p ≤ n) :
    stringAt block p = stringAt block' p := by
  obtain ⟨init, rest, rest', rfl, rfl, rfl⟩ := h
  have hzero : (0 : UInt8) ∈ (init ++ [0]).drop p := by
    rw [List.drop_append_of_le_length hp]
    simp
  have hsplit (r : List UInt8) : init ++ 0 :: r = (init ++ [0]) ++ r := by simp
  unfold EthTransfer.stringAt
  rw [hsplit rest, hsplit rest', cString_append_right hzero, cString_append_right hzero]

/-- A string ends at the zero at the latest. -/
theorem AgreeTo.stringAt_length (h : AgreeTo n block block') {p : ℕ} (hp : p ≤ n)
    {s : List UInt8} (hs : EthTransfer.stringAt block p = some s) : p + s.length ≤ n := by
  obtain ⟨init, rest, rest', rfl, rfl, rfl⟩ := h
  unfold EthTransfer.stringAt cString at hs
  split_ifs at hs
  obtain rfl := Option.some.inj hs
  rw [List.drop_append_of_le_length hp, takeWhile_append_cons_eq]
  have hle := (List.takeWhile_prefix (p := (· ≠ (0 : UInt8))) (l := init.drop p)).length_le
  rw [List.length_drop] at hle
  omega

/-! ## Scanning -/

/-- The scan looks at the bytes below the length. -/
theorem headerScan_congr {buffer buffer' : List UInt8} {len : Int}
    (hagree : ∀ i : ℕ, i < len → buffer.getD i 0 = buffer'.getD i 0) :
    headerScan buffer len = headerScan buffer' len := by
  have hend (i : ℕ) (hi : i < min len.toNat HEADER_MAX) :
      headerEnd buffer (min len.toNat HEADER_MAX) i =
        headerEnd buffer' (min len.toNat HEADER_MAX) i := by
    unfold headerEnd
    rw [hagree i (by omega)]
    by_cases h₁ : i + 1 < min len.toNat HEADER_MAX
    · rw [hagree (i + 1) (by omega)]
      by_cases h₂ : i + 2 < min len.toNat HEADER_MAX
      · rw [hagree (i + 2) (by omega)]
      · simp [h₂]
    · simp [h₁, show ¬ i + 2 < min len.toNat HEADER_MAX by omega]
  unfold headerScan
  dsimp only
  rw [first_congr hend]

theorem AgreeTo.headerScan (h : AgreeTo n block block') {len : Int} (hlen : len ≤ n) :
    EthTransfer.headerScan block len = EthTransfer.headerScan block' len :=
  headerScan_congr fun i hi => h.getD (by omega)

/-- Where `header_scan` can end. -/
theorem headerScan_bounds {buffer : List UInt8} {len e : Int} (h : headerScan buffer len = e)
    (hne : e ≠ -1) : 2 ≤ e ∧ e ≤ len := by
  unfold headerScan at h
  split_ifs at h with hneg
  · exact absurd h.symm hne
  · dsimp only at h
    split at h
    · rename_i i hi
      obtain ⟨j, hj, hend, -⟩ := first_eq_some_iff.mp hi
      unfold headerEnd at hend
      split_ifs at hend with _ hlf hcr
      · obtain rfl := Option.some.inj hend
        omega
      · obtain rfl := Option.some.inj hend
        omega
    · exact absurd h.symm hne

theorem findNeedle_bounds {haystack needle : List UInt8} {len i : Int}
    (h : findNeedle haystack len needle = i) (hne : i ≠ -1) : 0 ≤ i ∧ i < len - needle.length := by
  unfold findNeedle at h
  split at h
  · rename_i j hj
    obtain ⟨k, hk, hat, -⟩ := first_eq_some_iff.mp hj
    split_ifs at hat
    obtain rfl := Option.some.inj hat
    omega
  · exact absurd h.symm hne

theorem AgreeTo.findNeedle (h : AgreeTo n block block') {len : Int} (hlen : len ≤ n)
    (needle : List UInt8) :
    EthTransfer.findNeedle block len needle = EthTransfer.findNeedle block' len needle := by
  have hat (i : ℕ) (hi : i < (len - needle.length).toNat) :
      needleAt block needle i = needleAt block' needle i := by
    have htake := h.take_drop (show i + needle.length ≤ n by omega)
    have hstarts : needle.isPrefixOf (block.drop i) = needle.isPrefixOf (block'.drop i) := by
      rw [Bool.eq_iff_iff, List.isPrefixOf_iff_prefix, List.isPrefixOf_iff_prefix,
        List.prefix_iff_eq_take, List.prefix_iff_eq_take, htake]
    unfold needleAt
    rw [h.getD (show i ≤ n by omega), hstarts]
  unfold EthTransfer.findNeedle
  rw [first_congr fun i hi => by rw [hat i hi]]

theorem AgreeTo.skipLine (h : AgreeTo n block block') {limit lineIndex : ℕ}
    (hle : lineIndex ≤ n) :
    EthTransfer.skipLine block limit lineIndex = EthTransfer.skipLine block' limit lineIndex := by
  obtain ⟨init, rest, rest', rfl, rfl, rfl⟩ := h
  unfold EthTransfer.skipLine
  rw [List.drop_append_of_le_length hle, List.drop_append_of_le_length hle,
    takeWhile_append_cons_eq, takeWhile_append_cons_eq]

theorem AgreeTo.headerValueLoop (h : AgreeTo n block block') {key : List UInt8}
    (hkey : (0 : UInt8) ∉ key) {limit : ℕ} (hlimit : limit ≤ n + 1) (fuel lineIndex : ℕ) :
    EthTransfer.headerValueLoop block key limit fuel lineIndex =
      EthTransfer.headerValueLoop block' key limit fuel lineIndex := by
  induction fuel generalizing lineIndex with
  | zero => rfl
  | succ fuel ih =>
    unfold EthTransfer.headerValueLoop
    by_cases hlt : lineIndex < limit
    · rw [if_pos hlt, if_pos hlt, h.isPrefixOf hkey (by omega), h.skipLine (by omega), ih]
    · rw [if_neg hlt, if_neg hlt]

theorem AgreeTo.headerValue (h : AgreeTo n block block') {key : List UInt8}
    (hkey : (0 : UInt8) ∉ key) {len : Int} (hlen : len ≤ n + 1) :
    EthTransfer.headerValue block len key = EthTransfer.headerValue block' len key :=
  h.headerValueLoop hkey (by omega) _ _

theorem headerValueLoop_bounds {buffer key : List UInt8} {limit fuel lineIndex : ℕ} {i : Int}
    (h : headerValueLoop buffer key limit fuel lineIndex = i) (hne : i ≠ -1) :
    0 ≤ i ∧ i < limit + key.length := by
  induction fuel generalizing lineIndex with
  | zero => exact absurd h.symm hne
  | succ fuel ih =>
    unfold headerValueLoop at h
    split_ifs at h with hlt hstarts
    · omega
    · exact ih h
    · exact absurd h.symm hne

/-- Where `header_value` can find a value: inside the header. -/
theorem headerValue_bounds {buffer key : List UInt8} {len i : Int}
    (h : headerValue buffer len key = i) (hne : i ≠ -1) : 0 ≤ i ∧ i < len := by
  have hbounds := headerValueLoop_bounds h hne
  rcases Nat.eq_zero_or_pos (len - key.length).toNat with hzero | hpos
  · rw [headerValue, hzero] at h
    exact absurd h.symm hne
  · omega

/-! ## Writing -/

/-- Related computations after related ones. -/
theorem rel_bind {α β γ δ : Type} {r : α → β → Prop} {t : γ → δ → Prop} {x : Option α}
    {y : Option β} {f : α → Option γ} {g : β → Option δ} (hxy : Option.Rel r x y)
    (hfg : ∀ a b, r a b → Option.Rel t (f a) (g b)) : Option.Rel t (x.bind f) (y.bind g) := by
  cases hxy with
  | none => exact .none
  | some hab => exact hfg _ _ hab

/-- A zero is written to both blocks or to none. -/
theorem AgreeTo.writeAt_zero (h : AgreeTo n block block') {i : Int} (hi : i ≤ n) :
    Option.Rel (AgreeTo n) (writeAt block i 0) (writeAt block' i 0) := by
  obtain ⟨init, rest, rest', rfl, rfl, rfl⟩ := h
  unfold writeAt
  by_cases hneg : i < 0
  · rw [if_neg (by omega), if_neg (by omega)]
    exact .none
  · rw [if_pos ⟨by omega, by simp; omega⟩, if_pos ⟨by omega, by simp; omega⟩]
    refine .some ?_
    rcases Nat.lt_or_eq_of_le (show i.toNat ≤ init.length by omega) with hlt | heq
    · refine ⟨init.set i.toNat 0, rest, rest', by simp, ?_, ?_⟩ <;>
        rw [List.set_append_left _ _ hlt]
    · refine ⟨init, rest, rest', rfl, ?_, ?_⟩ <;> simp [heq]

theorem AgreeTo.splitHeader (h : AgreeTo n block block') (p len : ℕ) (hlen : p + len ≤ n + 1) :
    AgreeTo n (splitHeader block p len) (splitHeader block' p len) := by
  obtain ⟨init, rest, rest', rfl, rfl, rfl⟩ := h
  have hsplit (r : List UInt8) : EthTransfer.splitHeader (init ++ 0 :: r) p len =
      EthTransfer.splitHeader init p len ++ 0 :: r := by
    unfold EthTransfer.splitHeader
    rw [List.mapIdx_append, List.mapIdx_cons]
    congr 2
    · split_ifs <;> rfl
    · refine List.ext_getElem (by simp) fun i _ hi => ?_
      rw [List.getElem_mapIdx, if_neg (by omega)]
  exact ⟨EthTransfer.splitHeader init p len, rest, rest', by simp [EthTransfer.splitHeader],
    hsplit rest, hsplit rest'⟩

/-! ## The header -/

theorem strstr_le {s needle : List UInt8} {i : ℕ} (h : strstr s needle = some i) :
    i + needle.length ≤ s.length := by
  obtain ⟨j, hj, hat, -⟩ := first_eq_some_iff.mp h
  split_ifs at hat with hstarts
  obtain rfl := Option.some.inj hat
  rw [List.isPrefixOf_iff_prefix] at hstarts
  have hlength := hstarts.length_le
  rw [List.length_drop] at hlength
  omega

/-- A `POST` header that passes every check before `main` adds the two lengths. -/
structure AsksFor (cfg : Config) (buffer : Block) (httpHeader contentLength : Int)
    (boundary : ℕ) : Prop where
  length : ∃ text, headerValue buffer httpHeader (ascii "Content-Length: ") ≠ -1 ∧
    stringAt buffer (headerValue buffer httpHeader (ascii "Content-Length: ")).toNat = some text ∧
    scanInt text = some contentLength
  nonneg : 0 ≤ contentLength
  le_max : contentLength ≤ cfg.maxSize
  type : ∃ field i, headerValue buffer httpHeader (ascii "Content-Type: ") ≠ -1 ∧
    stringAt buffer (headerValue buffer httpHeader (ascii "Content-Type: ")).toNat = some field ∧
    strstr field (ascii "boundary=") = some i ∧
    boundary = (headerValue buffer httpHeader (ascii "Content-Type: ")).toNat + i +
      (ascii "boundary=").length

/-- The sum of two lengths, when an `int` holds it. -/
theorem wrapInt_add {a b : Int} (ha : 0 ≤ a) (hb : 0 ≤ b) (hlt : a + b < 4294967296) :
    a + b < 2147483648 ∧ wrapInt (a + b) = a + b ∨
      2147483648 ≤ a + b ∧ wrapInt (a + b) < 0 := by
  unfold wrapInt
  rw [Int.bmod_def]
  split_ifs <;> omega

/-- A string without a zero ends before the zero. -/
theorem AgreeTo.length_le (h : AgreeTo n block block') {key : List UInt8}
    (hkey : (0 : UInt8) ∉ key) {p : ℕ} (hp : p ≤ n) (hstarts : key.isPrefixOf (block.drop p)) :
    p + key.length ≤ n := by
  obtain ⟨init, rest, rest', rfl, rfl, rfl⟩ := h
  rw [List.isPrefixOf_iff_prefix, List.drop_append_of_le_length hp,
    prefix_append_cons_iff hkey] at hstarts
  have hle := hstarts.length_le
  rw [List.length_drop] at hle
  omega

theorem AgreeTo.readGet (h : AgreeTo n block block') (cfg : Config)
    (hget : (ascii "GET ").isPrefixOf block) :
    EthTransfer.readGet cfg block = EthTransfer.readGet cfg block' := by
  have hn : 4 ≤ n := by
    have hle := h.length_le (show (0 : UInt8) ∉ ascii "GET " by decide) (Nat.zero_le n) hget
    have hfour : (ascii "GET ").length = 4 := by decide
    omega
  have hname : (0 : UInt8) ∉ cfg.filename.getD [] := by
    cases hfilename : cfg.filename with
    | none => simp
    | some f => exact cfg.filename_text f hfilename
  have hfile : (block.getD 4 0 = 47 ∧ (cfg.filename.getD []).isPrefixOf (block.drop 5) ∧
      block.getD (5 + (cfg.filename.getD []).length) 0 = 32) ↔
      (block'.getD 4 0 = 47 ∧ (cfg.filename.getD []).isPrefixOf (block'.drop 5) ∧
        block'.getD (5 + (cfg.filename.getD []).length) 0 = 32) := by
    rw [h.getD hn]
    refine and_congr_right fun hslash => ?_
    have hlt : 5 ≤ n := by
      by_contra hge
      obtain rfl : n = 4 := by omega
      rw [h.symm.getD_end] at hslash
      exact absurd hslash (by decide)
    rw [h.isPrefixOf hname hlt]
    refine and_congr_right fun hstarts => ?_
    rw [h.getD (h.symm.length_le hname hlt hstarts)]
  unfold EthTransfer.readGet
  rw [h.isPrefixOf (by decide) hn]
  simp only [hfile]

theorem AgreeTo.readPost (h : AgreeTo n block block') (cfg : Config) :
    EthTransfer.readPost cfg block (n + 1) = EthTransfer.readPost cfg block' (n + 1) := by
  have hlength := h.headerValue (show (0 : UInt8) ∉ ascii "Content-Length: " by decide)
    (show ((n : Int) + 1) ≤ n + 1 by omega)
  have htype := h.headerValue (show (0 : UInt8) ∉ ascii "Content-Type: " by decide)
    (show ((n : Int) + 1) ≤ n + 1 by omega)
  have hstring (key : List UInt8)
      (hne : EthTransfer.headerValue block' (n + 1) key ≠ -1) :
      EthTransfer.stringAt block (EthTransfer.headerValue block' (n + 1) key).toNat =
        EthTransfer.stringAt block' (EthTransfer.headerValue block' (n + 1) key).toNat := by
    have hbounds := headerValue_bounds rfl hne
    exact h.stringAt (by omega)
  unfold EthTransfer.readPost
  rw [hlength, htype]
  dsimp only
  by_cases h₁ : EthTransfer.headerValue block' (n + 1) (ascii "Content-Length: ") = -1
  · rw [if_pos h₁, if_pos h₁]
  · rw [if_neg h₁, if_neg h₁, hstring _ h₁]
    by_cases h₂ : EthTransfer.headerValue block' (n + 1) (ascii "Content-Type: ") = -1
    · simp only [if_pos h₂]
    · simp only [if_neg h₂, hstring _ h₂]

/-- What `main` makes of such a header. -/
theorem readPost_of_asksFor {cfg : Config} {buffer : Block} {httpHeader c : Int} {boundary : ℕ}
    (hasks : AsksFor cfg buffer httpHeader c boundary) :
    readPost cfg buffer httpHeader =
      if wrapInt (c + httpHeader) > cfg.maxSize - 1 then
        .respond (.message "Total length exceeds max size parameter")
      else .post c (wrapInt (c + httpHeader)) boundary := by
  obtain ⟨text, hlength, htext, hscan⟩ := hasks.length
  obtain ⟨field, i, htype, hfield, hfind, rfl⟩ := hasks.type
  have hneg : ¬ c < 0 := Int.not_lt.mpr hasks.nonneg
  have hmax : ¬ c > (cfg.maxSize : Int) := Int.not_lt.mpr hasks.le_max
  simp only [readPost, if_neg hlength, htext, hscan, if_neg hneg, if_neg hmax,
    if_neg htype, hfield, hfind]

/-- What an accepted `POST` request is like. -/
theorem readPost_post {cfg : Config} {buffer : Block} {httpHeader c r : Int} {boundary : ℕ}
    (hread : EthTransfer.readPost cfg buffer httpHeader = .post c r boundary) :
    AsksFor cfg buffer httpHeader c boundary ∧ r = wrapInt (c + httpHeader) ∧
      r ≤ cfg.maxSize - 1 := by
  unfold EthTransfer.readPost at hread
  by_cases hlength :
      EthTransfer.headerValue buffer httpHeader (ascii "Content-Length: ") = -1
  · rw [if_pos hlength] at hread
    cases hread
  rw [if_neg hlength] at hread
  by_cases htype : EthTransfer.headerValue buffer httpHeader (ascii "Content-Type: ") = -1
  · simp only [if_pos htype] at hread
    split at hread
    · cases hread
    · split at hread
      · cases hread
      · split_ifs at hread
  simp only [if_neg htype] at hread
  split at hread
  · cases hread
  · rename_i text htext
    split at hread
    · cases hread
    · rename_i length hscan
      by_cases hneg : length < 0
      · rw [if_pos hneg] at hread
        cases hread
      rw [if_neg hneg] at hread
      by_cases hmax : length > (cfg.maxSize : Int)
      · rw [if_pos hmax] at hread
        cases hread
      rw [if_neg hmax] at hread
      split at hread
      · cases hread
      · rename_i field hfield
        split at hread
        · cases hread
        · rename_i i hfind
          split_ifs at hread with hfits
          injection hread with hc hr hboundary
          subst hc hr
          exact ⟨⟨⟨text, hlength, htext, hscan⟩, by omega, by omega,
            ⟨field, i, htype, hfield, hfind, hboundary.symm⟩⟩, rfl, by omega⟩

/-- The boundary stands in the header. -/
theorem AgreeTo.boundary_le (h : AgreeTo n block block') {cfg : Config} {c r : Int}
    {boundary : ℕ} (hread : EthTransfer.readPost cfg block (n + 1) = .post c r boundary) :
    boundary ≤ n := by
  obtain ⟨field, i, htype, hfield, hfind, rfl⟩ := (readPost_post hread).1.type
  have hbounds := headerValue_bounds rfl htype
  have hlength := h.stringAt_length (by omega) hfield
  have hi := strstr_le hfind
  omega

theorem readHeader_post {cfg : Config} {buffer : Block} {httpHeader c r : Int} {boundary : ℕ}
    (hread : EthTransfer.readHeader cfg buffer httpHeader = .post c r boundary) :
    EthTransfer.readPost cfg buffer httpHeader = .post c r boundary := by
  unfold EthTransfer.readHeader at hread
  split_ifs at hread
  exact hread

/-- The decision of `main` depends on the header alone. -/
theorem AgreeTo.readHeader (h : AgreeTo n block block') (cfg : Config) :
    EthTransfer.readHeader cfg block (n + 1) = EthTransfer.readHeader cfg block' (n + 1) := by
  have hget := h.isPrefixOf (show (0 : UInt8) ∉ ascii "GET " by decide) (Nat.zero_le n)
  have hpost := h.isPrefixOf (show (0 : UInt8) ∉ ascii "POST " by decide) (Nat.zero_le n)
  rw [List.drop_zero, List.drop_zero] at hget hpost
  unfold EthTransfer.readHeader
  rw [hpost, h.readPost]
  by_cases hcase : (ascii "GET ").isPrefixOf block
  · have hcase' : (ascii "GET ").isPrefixOf block' = true := hget ▸ hcase
    rw [if_pos hcase, if_pos hcase', h.readGet cfg hcase]
  · have hcase' : ¬ (ascii "GET ").isPrefixOf block' = true := by rwa [← hget]
    rw [if_neg hcase, if_neg hcase']

/-! ## The content -/

theorem AgreeTo.storeFile (h : AgreeTo n block block') (user : User) (filename : List UInt8)
    {p length : ℕ} (hlen : p + length ≤ n) :
    EthTransfer.storeFile user block filename p length =
      EthTransfer.storeFile user block' filename p length := by
  unfold EthTransfer.storeFile
  rw [h.take_drop hlen]

/-- `cutFilename` finds the same name, and leaves blocks that still agree. -/
theorem AgreeTo.cutFilename (h : AgreeTo n block block') {p : ℕ} (hp : p ≤ n) :
    Option.Rel (fun x y => AgreeTo n x.1 y.1 ∧ x.2 = y.2) (EthTransfer.cutFilename block p)
      (EthTransfer.cutFilename block' p) := by
  unfold EthTransfer.cutFilename
  rw [← h.stringAt hp]
  cases hs : EthTransfer.stringAt block p with
  | none => exact .none
  | some field =>
    have hlength := h.stringAt_length hp hs
    have htake := (List.takeWhile_prefix (p := (· ≠ (59 : UInt8))) (l := field)).length_le
    simp only [Option.bind_eq_bind, Option.bind_some]
    refine rel_bind (h.writeAt_zero (show ((p + (field.takeWhile (· ≠ 59)).length : ℕ) : Int) ≤ n
      by omega)) fun c c' hc => ?_
    rw [← hc.readAt (show (p : Int) ≤ n by omega)]
    cases hquote : EthTransfer.readAt c p with
    | none => exact .none
    | some quote =>
      -- the zero is no quote, so there is room behind a quote
      have hp' : (if quote = 34 then p + 1 else p) ≤ n := by
        split_ifs with heq
        · by_contra hlt
          obtain rfl : p = n := by omega
          have hzero := hc.getD_end
          rw [readAt_natCast] at hquote
          rw [List.getD_eq_getElem?_getD, hquote, heq] at hzero
          exact absurd hzero (by decide)
        · exact hp
      simp only [Option.bind_some]
      generalize (if quote = 34 then p + 1 else p) = q at hp'
      rw [← hc.stringAt hp']
      cases hs' : EthTransfer.stringAt c q with
      | none => exact .none
      | some name =>
        have hlength' := hc.stringAt_length hp' hs'
        have hlast : (q : Int) + name.length - 1 ≤ n := by omega
        simp only [Option.bind_some]
        rw [← hc.readAt hlast]
        cases EthTransfer.readAt c (q + name.length - 1) with
        | none => exact .none
        | some last =>
          simp only [Option.bind_some]
          by_cases heq : last = 34
          · rw [if_pos heq, if_pos heq]
            refine rel_bind (hc.writeAt_zero hlast) fun d d' hd => ?_
            rw [← hd.stringAt hp']
            cases EthTransfer.stringAt d q with
            | none => exact .none
            | some filename => exact .some ⟨hd, rfl⟩
          · rw [if_neg heq, if_neg heq]
            exact .some ⟨hc, rfl⟩

/-- The part between the delimiters has the same outcome. -/
theorem AgreeTo.parsePart (h : AgreeTo n block block') (user : User) {header : ℕ}
    {contentLength : Int} (hle : header ≤ n) (hlen : header + contentLength ≤ n) :
    Option.Rel (fun x y => x.2 = y.2) (EthTransfer.parsePart user block header contentLength)
      (EthTransfer.parsePart user block' header contentLength) := by
  unfold EthTransfer.parsePart
  rw [← (h.drop hle).headerScan (show contentLength ≤ (n - header : ℕ) by omega)]
  dsimp only
  by_cases hneg : EthTransfer.headerScan (block.drop header) contentLength < 0
  · rw [if_pos hneg, if_pos hneg]
    exact .some rfl
  · obtain ⟨hlow, hhigh⟩ := headerScan_bounds
      (show EthTransfer.headerScan (block.drop header) contentLength = _ from rfl) (by omega)
    generalize EthTransfer.headerScan (block.drop header) contentLength = contentHeader at *
    have hsplit := h.splitHeader header contentHeader.toNat (by omega)
    rw [if_neg hneg, if_neg hneg, ← (hsplit.drop hle).headerValue (by decide)
      (show contentHeader ≤ (n - header : ℕ) + 1 by omega)]
    generalize EthTransfer.splitHeader block header contentHeader.toNat = c at *
    generalize EthTransfer.splitHeader block' header contentHeader.toNat = c' at *
    by_cases hnone : EthTransfer.headerValue (c.drop header) contentHeader
        (ascii "Content-Disposition: ") < 0
    · rw [if_pos hnone, if_pos hnone]
      exact .some rfl
    · obtain ⟨hlow', hhigh'⟩ := headerValue_bounds
        (show EthTransfer.headerValue (c.drop header) contentHeader
          (ascii "Content-Disposition: ") = _ from rfl) (by omega)
      rw [if_neg hnone, if_neg hnone]
      generalize EthTransfer.headerValue (c.drop header) contentHeader
        (ascii "Content-Disposition: ") = value at *
      have hvalue : header + value.toNat ≤ n := by omega
      rw [← hsplit.stringAt hvalue]
      cases hs : EthTransfer.stringAt c (header + value.toNat) with
      | none => exact .none
      | some field =>
        have hlength := hsplit.stringAt_length hvalue hs
        simp only [Option.bind_eq_bind, Option.bind_some]
        cases hfind : strstr field (ascii "filename=") with
        | none => exact .some rfl
        | some i =>
          have hi := strstr_le hfind
          refine rel_bind (hsplit.cutFilename (by omega)) ?_
          rintro ⟨d, filename⟩ ⟨d', filename'⟩ ⟨hd, rfl⟩
          refine .some ?_
          exact hd.storeFile user filename (by omega)

/-- The outcome of `parse_http_content` depends on its bytes, and on those before them. -/
theorem AgreeTo.parseHttpContent (h : AgreeTo n block block') (user : User) {buffer : ℕ}
    {len : Int} (hle : buffer ≤ n) (hlen : buffer + len ≤ n) (boundary : List UInt8) :
    Option.Rel (fun x y => x.2 = y.2)
      (EthTransfer.parseHttpContent user block buffer len boundary)
      (EthTransfer.parseHttpContent user block' buffer len boundary) := by
  unfold EthTransfer.parseHttpContent
  rw [← (h.drop hle).findNeedle (show len ≤ (n - buffer : ℕ) by omega)]
  dsimp only
  by_cases hfirst : EthTransfer.findNeedle (block.drop buffer) len boundary = -1
  · rw [if_pos hfirst, if_pos hfirst]
    exact .some rfl
  · obtain ⟨hlow, hhigh⟩ := findNeedle_bounds
      (show EthTransfer.findNeedle (block.drop buffer) len boundary = _ from rfl) hfirst
    generalize EthTransfer.findNeedle (block.drop buffer) len boundary = begin at *
    rw [if_neg hfirst, if_neg hfirst]
    generalize hsecond : begin.toNat + boundary.length = second
    have hle' : buffer + second ≤ n := by omega
    rw [← (h.drop hle').findNeedle (show len - second ≤ (n - (buffer + second) : ℕ) by omega)]
    by_cases hclosing : EthTransfer.findNeedle (block.drop (buffer + second)) (len - second)
        boundary = -1
    · rw [if_pos hclosing, if_pos hclosing]
      exact .some rfl
    · obtain ⟨hlow', hhigh'⟩ := findNeedle_bounds
        (show EthTransfer.findNeedle (block.drop (buffer + second)) (len - second) boundary = _
          from rfl) hclosing
      generalize EthTransfer.findNeedle (block.drop (buffer + second)) (len - second)
        boundary = stop at *
      have hread : (buffer : Int) + (stop + second) - 4 ≤ n := by omega
      rw [if_neg hclosing, if_neg hclosing, ← h.readAt hread]
      cases EthTransfer.readAt block (buffer + (stop + second) - 4) with
      | none => exact .none
      | some c =>
        simp only [Option.bind_eq_bind, Option.bind_some]
        have hstop : (if c = CR then stop + second - 4 else stop + second - 3) ≤
            stop + second - 3 := by
          split_ifs <;> omega
        generalize (if c = CR then stop + second - 4 else stop + second - 3) = stop' at *
        refine rel_bind (h.writeAt_zero (by omega)) fun d d' hd => ?_
        exact hd.parsePart user hle' (by omega)

end EthTransfer
