import EthTransfer.Http.Content
import EthTransfer.Lib.Traced

/-!
# The bytes that the parser touches

`parse_http_content` and the functions under it, loop by loop, in the order in which they
look at memory.  A pointer is a place in the block, and each access is in the trace, also one
outside the block, with which the program stops.

`EthTransfer.Http.Content` has the same functions as functions of a list of bytes.  The
lemmas here say that a function returns what is said there, and that it stays `Inside` the
bytes that it is given: `findNeedle_returns`, `headerScan_returns`, `splitHeader_returns` and
`headerValue_returns`.
-/

namespace EthTransfer

open Search Traced

/-- An access to memory: to one byte, or to the bytes that `fwrite` gets. -/
inductive Access where
  | byte (place : Int)
  | fwrite (place length : Int)
  deriving DecidableEq, Repr

/-- A function that works on a block of memory. -/
abbrev Memory (α : Type) := Traced Block Access α

namespace Memory

/-! ## Bytes and strings -/

/-- `*p`. -/
def read (p : Int) : Memory UInt8 := fun block =>
  ([.byte p], (readAt block p).map fun byte => (byte, block))

/-- `*p = byte`. -/
def write (p : Int) (byte : UInt8) : Memory Unit := fun block =>
  ([.byte p], (writeAt block p byte).map fun block' => ((), block'))

/-- The number of bytes of the block. -/
def blockSize : Memory ℕ := fun block => ([], some (block.length, block))

/-- A loop that moves a pointer on from `p` until a byte stops it: the way to this byte.  A
loop that nothing stops leaves the block. -/
def seek (stops : UInt8 → Bool) (p : Int) : Memory ℕ := do
  let found ← firstFrom (fun i => do
    return if stops (← read (p + i)) then some i else none) ((← blockSize) + 1) 0
  match found with
  | some i => return i
  | none => stop

/-- `strlen`. -/
def strlen (p : Int) : Memory ℕ := seek (· = 0) p

/-- The string at `p`, as `printf` and `fopen` read it. -/
def stringFrom (p : Int) : Memory (List UInt8) := do
  let n ← strlen p
  fun block => ([], some ((block.drop p.toNat).take n, block))

/-- Whether the bytes at `p` are those of `s`, up to the first difference.  This is the inner
loop of `find_needle`, and it is `strncmp` for a string `s` without a zero. -/
def sameAt (p : Int) (s : List UInt8) : Memory Bool := do
  let difference ← firstFrom (fun j => do
    return if (← read (p + j)) = s.getD j 0 then none else some ()) s.length 0
  return difference.isNone

/-- `strstr`, for a `needle` without a zero. -/
def strstr (p : Int) (needle : List UInt8) : Memory (Option ℕ) := do
  let n ← strlen p
  firstFrom (fun i => do
    if n < i + needle.length then return none
    else return if ← sameAt (p + i) needle then some i else none) (n + 1) 0

/-! ## Scanning -/

/-- `inside && *p == byte`. -/
def byteIs (inside : Bool) (p : Int) (byte : UInt8) : Memory Bool := do
  if inside then return (← read p) = byte else return false

/-- `header_scan` at the place `i`. -/
def headerEnd (buffer : Int) (len i : ℕ) : Memory (Option ℕ) := do
  if (← read (buffer + i)) = LF then
    if ← byteIs (i + 1 < len) (buffer + i + 1) LF then return some (i + 2)
    else if ← byteIs (i + 2 < len) (buffer + i + 1) CR then
      return if (← read (buffer + i + 2)) = LF then some (i + 3) else none
    else return none
  else return none

/-- `header_scan`. -/
def headerScan (buffer len : Int) : Memory Int := do
  if len < 0 then return -1
  else
    let len := min len.toNat HEADER_MAX
    match ← firstFrom (headerEnd buffer len) len 0 with
    | some i => return i
    | none => return -1

/-- `find_needle`. -/
def findNeedle (haystack haystackLength : Int) (needle : List UInt8) : Memory Int := do
  let found ← firstFrom (fun i => do
    if (← read (haystack + i)) = needle.headD 0 then
      return if ← sameAt (haystack + i) needle then some i else none
    else return none) (haystackLength - needle.length).toNat 0
  match found with
  | some i => return i
  | none => return -1

/-- `split_header`. -/
def splitHeader (buffer : Int) (len : ℕ) : Memory Unit :=
  forFrom (fun i => do
    let byte ← read (buffer + i)
    if byte = LF ∨ byte = CR then write (buffer + i) 0 else return ()) len 0

/-- The inner loop of `header_value`. -/
def skipLine (buffer : Int) (limit lineIndex : ℕ) : Memory ℕ := do
  let found ← firstFrom (fun i => do
    return if (← read (buffer + lineIndex + i)) = 0 then some i else none) (limit - lineIndex) 0
  match found with
  | some i => return lineIndex + i
  | none => return limit

/-- Whether the line at `p` starts with the key. -/
def startsWith (p : Int) (key : List UInt8) : Memory Bool := do
  if (← strlen p) ≥ key.length then sameAt p key else return false

/-- The outer loop of `header_value`, with `fuel` turns left. -/
def headerValueLoop (buffer : Int) (key : List UInt8) (limit : ℕ) :
    (fuel lineIndex : ℕ) → Memory Int
  | 0, _ => return -1
  | fuel + 1, lineIndex => do
    if lineIndex < limit then
      if ← startsWith (buffer + lineIndex) key then return lineIndex + key.length
      else headerValueLoop buffer key limit fuel ((← skipLine buffer limit lineIndex) + 1)
    else return -1

/-- `header_value`.  Every turn moves on, so there are at most `len - key_len`. -/
def headerValue (buffer len : Int) (key : List UInt8) : Memory Int :=
  let limit := (len - key.length).toNat
  headerValueLoop buffer key limit limit 0

/-! ## The upload -/

/-- The quotes around the name go away: the place of the name without them. -/
def trimQuotes (filenameField : Int) : Memory Int := do
  let filenameField :=
    if (← read filenameField) = 34 then filenameField + 1 else filenameField
  if (← read (filenameField + (← strlen filenameField) - 1)) = 34 then
    write (filenameField + (← strlen filenameField) - 1) 0
    return filenameField
  else return filenameField

/-- `*t = 0` behind the name, and the name without its quotes. -/
def cutFilename (filenameField : Int) : Memory Int := do
  let t ← seek (fun byte => byte = 0 || byte = 59) filenameField
  write (filenameField + t) 0
  trimQuotes filenameField

/-- `fwrite`: the bytes that go to the file. -/
def fwrite (p length : Int) : Memory (List UInt8) := fun block =>
  ([.fwrite p length],
    if 0 ≤ p ∧ 0 ≤ length ∧ p + length ≤ block.length then
      some ((block.drop p.toNat).take length.toNat, block)
    else none)

/-- The end of `parse_http_content`: the name is printed, and with the consent of the user
the `length` bytes from `p` on go to a file. -/
def storeFile (user : User) (filenameField p length : Int) : Memory Outcome := do
  let _ ← stringFrom filenameField
  match confirm 0 user.answers with
  | some message => return { message := some message }
  | none =>
    let filename ← stringFrom filenameField
    if user.canOpen filename then
      return { message := none, saved := some (filename, ← fwrite p length) }
    else return { message := some "Unable to open file for writing" }

/-- `parse_http_content` from `strstr` on, with the field at `value`. -/
def storeField (user : User) (value p length : Int) : Memory Outcome := do
  match ← strstr value (ascii "filename=") with
  | none => return { message := some "No filename field found in Content-Disposition field" }
  | some i =>
    let filenameField ← cutFilename (value + i + (ascii "filename=").length)
    storeFile user filenameField p length

/-- `parse_http_content` from `header_scan` on. -/
def parsePart (user : User) (header contentLength : Int) : Memory Outcome := do
  let contentHeader ← headerScan header contentLength
  if contentHeader < 0 then return { message := some "No header found in content" }
  else
    splitHeader header contentHeader.toNat
    let contentDisposition ← headerValue header contentHeader (ascii "Content-Disposition: ")
    if contentDisposition < 0 then
      return { message := some "No Content-Disposition found in content header" }
    else
      storeField user (header + contentDisposition) (header + contentHeader)
        (contentLength - contentHeader)

/-- `parse_http_content`. -/
def parseHttpContent (user : User) (buffer len : Int) (boundary : List UInt8) :
    Memory Outcome := do
  let begin ← findNeedle buffer len boundary
  if begin = -1 then
    return { message := some "Unable to find first boundary marker in header" }
  else
    let stop ← findNeedle (buffer + begin + boundary.length) (len - begin - boundary.length)
      boundary
    if stop = -1 then
      return { message := some "Unable to find second boundary market in header" }
    else
      let begin := begin + boundary.length
      let stop := stop + begin
      let stop := if (← read (buffer + stop - 4)) = CR then stop - 4 else stop - 3
      write (buffer + stop) 0
      parsePart user (buffer + begin) (stop - begin)

/-! ## Staying inside -/

/-- The access is to the `len` bytes from `p` on. -/
def Inside (p len : ℕ) : Access → Prop
  | .byte place => p ≤ place ∧ place < p + len
  | .fwrite place length => p ≤ place ∧ 0 ≤ length ∧ place + length ≤ p + len

theorem Inside.mono {p len p' len' : ℕ} (hle : p' ≤ p) (hend : p + len ≤ p' + len') (e : Access)
    (h : Inside p len e) : Inside p' len' e := by
  cases e <;> simp only [Inside] at h ⊢ <;> omega

section Returns

variable {block : Block} {p len : ℕ}

theorem readAt_eq {q : Int} {i : ℕ} (hq : q = p + i) (hi : i < len)
    (hfits : p + len ≤ block.length) : readAt block q = some ((block.drop p).getD i 0) := by
  rw [readAt, if_neg (by omega), show q.toNat = p + i by omega, List.getD_eq_getElem?_getD,
    List.getElem?_drop, List.getElem?_eq_getElem (by omega)]
  rfl

theorem writeAt_eq {q : Int} {i : ℕ} (hq : q = p + i) (hi : i < len)
    (hfits : p + len ≤ block.length) (byte : UInt8) :
    writeAt block q byte = some (block.set (p + i) byte) := by
  rw [writeAt, if_pos ⟨by omega, by omega⟩, show q.toNat = p + i by omega]

theorem read_returns {q : Int} {i : ℕ} (hq : q = p + i) (hi : i < len)
    (hfits : p + len ≤ block.length) :
    Returns (Inside p len) (read q) block ((block.drop p).getD i 0) block where
  result := by
    show (readAt block q).map _ = _
    rw [readAt_eq hq hi hfits]
    rfl
  events := by
    rintro e (_ | ⟨_, ⟨⟩⟩)
    exact ⟨by omega, by omega⟩

theorem write_returns {q : Int} {i : ℕ} (hq : q = p + i) (hi : i < len)
    (hfits : p + len ≤ block.length) (byte : UInt8) :
    Returns (Inside p len) (write q byte) block () (block.set (p + i) byte) where
  result := by
    show (writeAt block q byte).map _ = _
    rw [writeAt_eq hq hi hfits]
    rfl
  events := by
    rintro e (_ | ⟨_, ⟨⟩⟩)
    exact ⟨by omega, by omega⟩

theorem getD_drop (block : Block) (i j : ℕ) : (block.drop i).getD j 0 = block.getD (i + j) 0 := by
  simp [List.getD_eq_getElem?_getD]

/-- Bytes that stand in the memory, and bytes that are compared with them one by one. -/
theorem isPrefixOf_drop_iff {s : List UInt8} {q : ℕ} (hfits : q + s.length ≤ block.length) :
    s.isPrefixOf (block.drop q) = true ↔ ∀ j < s.length, block.getD (q + j) 0 = s.getD j 0 := by
  rw [List.isPrefixOf_iff_prefix, List.prefix_iff_getElem?]
  constructor
  · intro hall j hj
    have hbyte := hall j hj
    rw [List.getElem?_drop] at hbyte
    rw [List.getD_eq_getElem?_getD, hbyte, List.getD_eq_getElem _ _ hj]
    rfl
  · intro hall j hj
    have hbyte := hall j hj
    rw [List.getElem?_drop, List.getElem?_eq_getElem (by omega)]
    rw [List.getD_eq_getElem _ _ (by omega), List.getD_eq_getElem _ _ hj] at hbyte
    rw [hbyte]

theorem sameAt_returns {s : List UInt8} {q : Int} {i : ℕ} (hq : q = p + i)
    (hi : i + s.length ≤ len) (hfits : p + len ≤ block.length) :
    Returns (Inside p len) (sameAt q s) block (s.isPrefixOf (block.drop (p + i))) block := by
  have hloop : Returns (Inside p len) (firstFrom (fun j => do
      return if (← read (q + j)) = s.getD j 0 then none else some ()) s.length 0) block
      (first s.length fun j =>
        if (block.drop p).getD (i + j) 0 = s.getD j 0 then none else some ()) block := by
    apply Returns.firstFrom
    intro j hj _
    exact (read_returns (by omega) (show i + j < len by omega) hfits).bind (.pure _ _ _)
  have hsame : (first s.length fun j =>
      if (block.drop p).getD (i + j) 0 = s.getD j 0 then none else some ()).isNone =
        s.isPrefixOf (block.drop (p + i)) := by
    rw [Bool.eq_iff_iff, Option.isNone_iff_eq_none, first_eq_none_iff,
      isPrefixOf_drop_iff (by omega)]
    simp only [getD_drop, Nat.add_assoc, ite_eq_left_iff, reduceCtorEq, imp_false, not_not]
  rw [← hsame]
  exact hloop.bind (.pure _ _ _)

/-- `find_needle` looks at the haystack only. -/
theorem findNeedle_returns (needle : List UInt8) (hfits : p + len ≤ block.length) :
    Returns (Inside p len) (findNeedle p len needle) block
      (EthTransfer.findNeedle (block.drop p) len needle) block := by
  have hloop : Returns (Inside p len) (firstFrom (fun i => do
      if (← read ((p : Int) + i)) = needle.headD 0 then
        return if ← sameAt ((p : Int) + i) needle then some i else none
      else return none) ((len : Int) - needle.length).toNat 0) block
      (first ((len : Int) - needle.length).toNat fun i =>
        if needleAt (block.drop p) needle i then some i else none) block := by
    apply Returns.firstFrom
    intro i hi _
    refine (read_returns rfl (show i < len by omega) hfits).bind ?_
    by_cases hhead : (block.drop p).getD i 0 = needle.headD 0
    · rw [if_pos hhead]
      have hat : needleAt (block.drop p) needle i = needle.isPrefixOf (block.drop (p + i)) := by
        rw [needleAt, hhead, beq_self_eq_true, Bool.true_and, List.drop_drop]
      rw [hat]
      exact (sameAt_returns rfl (by omega) hfits).bind (.pure _ _ _)
    · have hat : needleAt (block.drop p) needle i = false := by
        rw [needleAt, beq_eq_false_iff_ne.mpr hhead, Bool.false_and]
      rw [if_neg hhead, hat]
      exact .pure _ _ _
  refine hloop.bind ?_
  unfold EthTransfer.findNeedle
  generalize (first ((len : Int) - needle.length).toNat fun i =>
    if needleAt (block.drop p) needle i then some i else none) = found
  cases found <;> exact .pure _ _ _

/-! ## Blank lines -/

theorem byteIs_returns {inside : Bool} {q : Int} {i : ℕ} (byte : UInt8) (hq : q = p + i)
    (hi : inside = true → i < len) (hfits : p + len ≤ block.length) :
    Returns (Inside p len) (byteIs inside q byte) block
      (inside && decide ((block.drop p).getD i 0 = byte)) block := by
  cases inside with
  | true => exact (read_returns hq (hi rfl) hfits).bind (.pure _ _ _)
  | false => exact .pure _ _ _

theorem headerEnd_returns {limit i : ℕ} (hi : i < limit) (hlimit : limit ≤ len)
    (hfits : p + len ≤ block.length) :
    Returns (Inside p len) (headerEnd p limit i) block
      (EthTransfer.headerEnd (block.drop p) limit i) block := by
  unfold headerEnd EthTransfer.headerEnd
  refine (read_returns rfl (show i < len by omega) hfits).bind ?_
  by_cases hlf : (block.drop p).getD i 0 = LF
  · rw [if_pos hlf, if_pos hlf]
    refine (byteIs_returns (i := i + 1) LF (by omega) (by simp; omega) hfits).bind ?_
    by_cases hfirst : i + 1 < limit ∧ (block.drop p).getD (i + 1) 0 = LF
    · rw [if_pos hfirst, if_pos (by simpa using hfirst)]
      exact .pure _ _ _
    · rw [if_neg hfirst, if_neg (by simpa using hfirst)]
      refine (byteIs_returns (i := i + 1) CR (by omega) (by simp; omega) hfits).bind ?_
      by_cases hsecond : i + 2 < limit ∧ (block.drop p).getD (i + 1) 0 = CR
      · rw [if_pos (by simpa using hsecond)]
        refine (read_returns (i := i + 2) (by omega) (by omega) hfits).bind ?_
        simp only [hsecond, true_and]
        exact .pure _ _ _
      · rw [if_neg (by simpa using hsecond), if_neg fun h => hsecond ⟨h.1, h.2.1⟩]
        exact .pure _ _ _
  · rw [if_neg hlf, if_neg hlf]
    exact .pure _ _ _

/-- `header_scan` looks at its bytes only. -/
theorem headerScan_returns {len : Int} (hfits : p + len.toNat ≤ block.length) :
    Returns (Inside p len.toNat) (headerScan p len) block
      (EthTransfer.headerScan (block.drop p) len) block := by
  unfold headerScan EthTransfer.headerScan
  by_cases hneg : len < 0
  · rw [if_pos hneg, if_pos hneg]
    exact .pure _ _ _
  · rw [if_neg hneg, if_neg hneg]
    have hloop : Returns (Inside p len.toNat)
        (firstFrom (headerEnd p (min len.toNat HEADER_MAX)) (min len.toNat HEADER_MAX) 0) block
        (first (min len.toNat HEADER_MAX)
          (EthTransfer.headerEnd (block.drop p) (min len.toNat HEADER_MAX))) block :=
      Returns.firstFrom fun i hi _ => headerEnd_returns hi (Nat.min_le_left _ _) hfits
    refine hloop.bind ?_
    dsimp only
    generalize first (min len.toNat HEADER_MAX)
      (EthTransfer.headerEnd (block.drop p) (min len.toNat HEADER_MAX)) = found
    cases found <;> exact .pure _ _ _

/-! ## Lines -/

theorem getD_splitHeader (block : Block) (p len i : ℕ) :
    (EthTransfer.splitHeader block p len).getD i 0 =
      if p ≤ i ∧ i < p + len then splitByte (block.getD i 0) else block.getD i 0 := by
  simp only [List.getD_eq_getElem?_getD, EthTransfer.splitHeader, List.getElem?_mapIdx, splitByte]
  cases block[i]? with
  | none => simp [LF, CR]
  | some b =>
    by_cases hrange : p ≤ i ∧ i < p + len
    · simp [hrange]
    · rw [if_neg hrange]
      exact if_neg fun h => hrange ⟨h.1, h.2.1⟩

/-- One more byte is split. -/
theorem splitHeader_succ (block : Block) (p i : ℕ) :
    EthTransfer.splitHeader block p (i + 1) =
      if block.getD (p + i) 0 = LF ∨ block.getD (p + i) 0 = CR then
        (EthTransfer.splitHeader block p i).set (p + i) 0
      else EthTransfer.splitHeader block p i := by
  have hrange {j : ℕ} (hne : p + i ≠ j) : j < p + (i + 1) ↔ j < p + i := by omega
  split_ifs with hend
  · refine List.ext_getElem (by simp) fun j hj hj' => ?_
    simp only [EthTransfer.splitHeader, List.getElem_set, List.getElem_mapIdx]
    rw [splitHeader_length] at hj
    rcases eq_or_ne (p + i) j with rfl | hne
    · rw [List.getD_eq_getElem _ _ hj] at hend
      rw [if_pos ⟨by omega, by omega, hend⟩, if_pos rfl]
    · rw [if_neg hne]
      exact if_congr (by rw [hrange hne]) rfl rfl
  · refine List.ext_getElem (by simp) fun j hj hj' => ?_
    simp only [EthTransfer.splitHeader, List.getElem_mapIdx]
    rw [splitHeader_length] at hj
    rcases eq_or_ne (p + i) j with rfl | hne
    · rw [List.getD_eq_getElem _ _ hj] at hend
      rw [if_neg fun h => hend h.2.2, if_neg fun h => hend h.2.2]
    · exact if_congr (by rw [hrange hne]) rfl rfl

/-- `split_header` looks at its bytes only. -/
theorem splitHeader_returns (hfits : p + len ≤ block.length) :
    Returns (Inside p len) (splitHeader p len) block () (EthTransfer.splitHeader block p len) := by
  have hstart : EthTransfer.splitHeader block p 0 = block := by
    refine List.ext_getElem (by simp) fun i _ _ => ?_
    simp only [EthTransfer.splitHeader, List.getElem_mapIdx]
    exact if_neg (by omega)
  have hloop : Returns (Inside p len) (splitHeader p len) (EthTransfer.splitHeader block p 0) ()
      (EthTransfer.splitHeader block p len) := by
    refine Returns.forFrom fun i hi => ?_
    have hbyte : ((EthTransfer.splitHeader block p i).drop p).getD i 0 = block.getD (p + i) 0 := by
      rw [getD_drop, getD_splitHeader, if_neg (by omega)]
    have hread : Returns (Inside p len) (read ((p : Int) + i)) (EthTransfer.splitHeader block p i)
        (((EthTransfer.splitHeader block p i).drop p).getD i 0)
        (EthTransfer.splitHeader block p i) :=
      read_returns rfl hi (by rwa [splitHeader_length])
    rw [hbyte] at hread
    refine hread.bind ?_
    rw [splitHeader_succ]
    split_ifs with hend
    · exact write_returns rfl hi (by rwa [splitHeader_length]) 0
    · exact .pure _ _ _
  rwa [hstart] at hloop

/-! ## Strings -/

/-- A loop that a byte stops. -/
theorem seek_returns {stops : UInt8 → Bool} {q : Int} {i : ℕ} (hq : q = p + i)
    (hstops : i + reach stops (block.drop (p + i)) < len) (hfits : p + len ≤ block.length) :
    Returns (Inside p len) (seek stops q) block (reach stops (block.drop (p + i))) block := by
  set n := reach stops (block.drop (p + i)) with hn
  have hlt : n < (block.drop (p + i)).length := by
    rw [List.length_drop]
    omega
  have hloop : Returns (Inside p len) (firstFrom (fun k => do
      return if stops (← read (q + k)) then some k else none) (block.length + 1) 0) block
      (first (block.length + 1) fun k =>
        if stops ((block.drop (p + i)).getD k 0) then some k else none) block := by
    apply Returns.firstFrom
    intro k _ hnone
    have hk : k ≤ n := by
      by_contra hgt
      have hat := hnone n (by omega)
      rw [if_pos (stops_reach hlt)] at hat
      cases hat
    have hread := read_returns (q := q + k) (i := i + k) (by omega) (by omega) hfits
    rw [getD_drop, ← Nat.add_assoc, ← getD_drop block] at hread
    exact hread.bind (.pure _ _ _)
  have hfound : (first (block.length + 1) fun k =>
      if stops ((block.drop (p + i)).getD k 0) then some k else none) = some n := by
    rw [List.length_drop] at hlt
    refine first_eq_some_iff.mpr ⟨n, by omega, if_pos (stops_reach (by rwa [List.length_drop])), ?_⟩
    exact fun j hj => if_neg (ne_true_of_eq_false (not_stops_of_lt_reach hj))
  rw [hfound] at hloop
  have hsize : Returns (Inside p len) blockSize block block.length block :=
    ⟨rfl, fun _ h => nomatch h⟩
  exact hsize.bind (hloop.bind (.pure _ _ _))

/-- The length of the string at `i`. -/
def stringLength (block : Block) (i : ℕ) : ℕ := reach (fun b => decide (b = 0)) (block.drop i)

/-- A zero at `k` ends the string in front of it. -/
theorem stringLength_le {i k : ℕ} (hik : i ≤ k) (hzero : block.getD k 0 = 0) :
    i + stringLength block i ≤ k := by
  by_contra hgt
  have hlt : k - i < reach (fun b => decide (b = 0)) (block.drop i) := by
    unfold stringLength at hgt
    omega
  have hbyte : decide ((block.drop i).getD (k - i) 0 = 0) = false := not_stops_of_lt_reach hlt
  rw [getD_drop, show i + (k - i) = k by omega, hzero] at hbyte
  cases hbyte

/-- A key that stands in the memory ends in front of the first zero. -/
theorem le_stringLength {key : List UInt8} (hkey : 0 ∉ key) {i : ℕ}
    (hstarts : key <+: block.drop i) : key.length ≤ stringLength block i := by
  obtain ⟨rest, hrest⟩ := hstarts
  have hall : ∀ b ∈ key, (!decide (b = 0)) = true := by
    intro b hb
    simpa using ne_of_mem_of_not_mem hb hkey
  rw [stringLength, reach, ← hrest, List.takeWhile_append_of_pos hall, List.length_append]
  exact Nat.le_add_right _ _

theorem strlen_returns {q : Int} {i : ℕ} (hq : q = p + i)
    (hstops : i + stringLength block (p + i) < len) (hfits : p + len ≤ block.length) :
    Returns (Inside p len) (strlen q) block (stringLength block (p + i)) block :=
  seek_returns hq hstops hfits

/-! ## Keys -/

/-- How far the inner loop of `header_value` gets. -/
theorem skipLine_eq (buffer : List UInt8) (limit lineIndex : ℕ) :
    EthTransfer.skipLine buffer limit lineIndex =
      min limit (lineIndex + stringLength buffer lineIndex) := by
  have hstops : (fun b : UInt8 => !decide (b = 0)) = fun b => decide (b ≠ 0) := by
    funext b
    exact decide_not.symm
  unfold EthTransfer.skipLine stringLength reach
  rw [hstops]

/-- The inner loop of `header_value` stays below its limit. -/
theorem skipLine_returns {limit lineIndex : ℕ} (hlimit : limit ≤ len)
    (hfits : p + len ≤ block.length) (hlt : lineIndex < limit) :
    Returns (Inside p len) (skipLine p limit lineIndex) block
      (EthTransfer.skipLine (block.drop p) limit lineIndex) block := by
  have hloop : Returns (Inside p len) (firstFrom (fun i => do
      return if (← read ((p : Int) + lineIndex + i)) = 0 then some i else none)
        (limit - lineIndex) 0) block
      (first (limit - lineIndex) fun i =>
        if decide (((block.drop p).drop lineIndex).getD i 0 = 0) then some i else none) block := by
    apply Returns.firstFrom
    intro i hi _
    have hread := read_returns (q := (p : Int) + lineIndex + i) (i := lineIndex + i) (by omega)
      (show lineIndex + i < len by omega) hfits
    rw [getD_drop (block.drop p)]
    simp only [decide_eq_true_eq]
    exact hread.bind (.pure _ _ _)
  rw [first_getD (fun b => decide (b = 0)) 0 (by simp; omega)] at hloop
  refine hloop.bind ?_
  rw [skipLine_eq]
  unfold stringLength
  generalize reach (fun b : UInt8 => decide (b = 0)) ((block.drop p).drop lineIndex) = n
  by_cases hn : n < limit - lineIndex
  · rw [if_pos hn, Nat.min_eq_right (by omega)]
    exact .pure _ _ _
  · rw [if_neg hn, Nat.min_eq_left (by omega)]
    exact .pure _ _ _

/-- A line is compared with a key inside its bytes, if a zero ends it there. -/
theorem startsWith_returns {key : List UInt8} (hkey : 0 ∉ key) {q : Int} {i : ℕ} (hq : q = p + i)
    (hstops : i + stringLength block (p + i) < len) (hfits : p + len ≤ block.length) :
    Returns (Inside p len) (startsWith q key) block (key.isPrefixOf (block.drop (p + i)))
      block := by
  refine (strlen_returns hq hstops hfits).bind ?_
  split_ifs with hlong
  · exact sameAt_returns hq (by omega) hfits
  · have hshort : key.isPrefixOf (block.drop (p + i)) = false := by
      rw [Bool.eq_false_iff, ne_eq, List.isPrefixOf_iff_prefix]
      exact fun hstarts => hlong (le_stringLength hkey hstarts)
    rw [hshort]
    exact .pure _ _ _

/-- `header_value` looks at its bytes only, if the last one is a zero. -/
theorem headerValue_returns {key : List UInt8} (hkey : 0 ∉ key) (hpos : 0 < len)
    (hlast : block.getD (p + len - 1) 0 = 0) (hfits : p + len ≤ block.length) :
    Returns (Inside p len) (headerValue p len key) block
      (EthTransfer.headerValue (block.drop p) len key) block := by
  unfold headerValue EthTransfer.headerValue
  dsimp only
  have hlimit : ((len : Int) - key.length).toNat ≤ len := by omega
  generalize ((len : Int) - key.length).toNat = limit at hlimit
  suffices h : ∀ fuel lineIndex, Returns (Inside p len)
      (headerValueLoop p key limit fuel lineIndex) block
      (EthTransfer.headerValueLoop (block.drop p) key limit fuel lineIndex) block from h limit 0
  intro fuel
  induction fuel with
  | zero => exact fun _ => .pure _ _ _
  | succ fuel ih =>
    intro lineIndex
    unfold headerValueLoop EthTransfer.headerValueLoop
    by_cases hlt : lineIndex < limit
    · rw [if_pos hlt, if_pos hlt]
      have hends := stringLength_le (show p + lineIndex ≤ p + len - 1 by omega) hlast
      refine (startsWith_returns hkey rfl (by omega) hfits).bind ?_
      rw [List.drop_drop]
      split_ifs
      · exact .pure _ _ _
      · exact (skipLine_returns hlimit hfits hlt).bind (ih _)
    · rw [if_neg hlt, if_neg hlt]
      exact .pure _ _ _

end Returns

end Memory

end EthTransfer
