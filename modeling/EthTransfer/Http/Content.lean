import EthTransfer.Lib.Search

/-!
# The content of an upload

`parse_http_content` and the functions under it.  The memory is one block, the
`read_buffer` of `main`, and a pointer is a place in it.  A function that gets a pointer
to bytes gets the block from there on.

A read or a write outside the block has no meaning in C, and `none` is the result.
`headerScan`, `findNeedle`, `splitHeader` and `headerValue` do not look behind the
length they are given.
-/

namespace EthTransfer

open Search

/-! ## Bytes and strings -/

def CR : UInt8 := 13
def LF : UInt8 := 10

/-- The bytes of a string literal. -/
def ascii (s : String) : List UInt8 := s.toList.map fun c => UInt8.ofNat c.toNat

/-- A literal is turned into its characters by this lemma, not by decoding it. -/
theorem ascii_ofList (chars : List Char) :
    ascii (String.ofList chars) = chars.map fun c => UInt8.ofNat c.toNat := by
  rw [ascii, String.toList_ofList]

/-- A block of memory that `malloc` has returned. -/
abbrev Block := List UInt8

/-- `block[i]`. -/
def readAt (block : Block) (i : Int) : Option UInt8 := if i < 0 then none else block[i.toNat]?

/-- `block[i] = byte`. -/
def writeAt (block : Block) (i : Int) (byte : UInt8) : Option Block :=
  if 0 ≤ i ∧ i < block.length then some (block.set i.toNat byte) else none

/-- The string at a place of the block. -/
def stringAt (block : Block) (p : ℕ) : Option (List UInt8) := cString 0 block p

/-- `strstr`: where `needle` starts in `s`. -/
def strstr (s needle : List UInt8) : Option ℕ :=
  first (s.length + 1) fun i => if needle.isPrefixOf (s.drop i) then some i else none

/-! ## Scanning -/

/-- Where the header ends, when the end of a line at `i` ends it. -/
def headerEnd (buffer : List UInt8) (len i : ℕ) : Option ℕ :=
  if buffer.getD i 0 = LF then
    if i + 1 < len ∧ buffer.getD (i + 1) 0 = LF then some (i + 2)
    else if i + 2 < len ∧ buffer.getD (i + 1) 0 = CR ∧ buffer.getD (i + 2) 0 = LF then
      some (i + 3)
    else none
  else none

/-- How far `header_scan` looks. -/
def HEADER_MAX : ℕ := 1024 * 1024

/-- `header_scan`. -/
def headerScan (buffer : List UInt8) (len : Int) : Int :=
  if len < 0 then -1
  else
    let len := min len.toNat HEADER_MAX
    match first len (headerEnd buffer len) with
    | some i => i
    | none => -1

/-- Whether `find_needle` stops at `i`.  It looks at `needle[0]` first, which is the
terminating zero of an empty needle. -/
def needleAt (haystack needle : List UInt8) (i : ℕ) : Bool :=
  haystack.getD i 0 == needle.headD 0 && needle.isPrefixOf (haystack.drop i)

/-- `find_needle`. -/
def findNeedle (haystack : List UInt8) (haystackLength : Int) (needle : List UInt8) : Int :=
  match first (haystackLength - needle.length).toNat fun i =>
    if needleAt haystack needle i then some i else none with
  | some i => i
  | none => -1

/-- `split_header`, on the `len` bytes from `p` on. -/
def splitHeader (block : Block) (p len : ℕ) : Block :=
  block.mapIdx fun i b => if p ≤ i ∧ i < p + len ∧ (b = LF ∨ b = CR) then 0 else b

/-- The inner loop of `header_value`: the end of a line, or `limit`. -/
def skipLine (buffer : List UInt8) (limit lineIndex : ℕ) : ℕ :=
  min limit (lineIndex + ((buffer.drop lineIndex).takeWhile (· ≠ 0)).length)

/-- The outer loop of `header_value`, with `fuel` turns left. -/
def headerValueLoop (buffer key : List UInt8) (limit : ℕ) : (fuel lineIndex : ℕ) → Int
  | 0, _ => -1
  | fuel + 1, lineIndex =>
    if lineIndex < limit then
      if key.isPrefixOf (buffer.drop lineIndex) then lineIndex + key.length
      else headerValueLoop buffer key limit fuel (skipLine buffer limit lineIndex + 1)
    else -1

/-- `header_value`.  Every turn moves on, so there are at most `len - key_len`. -/
def headerValue (buffer : List UInt8) (len : Int) (key : List UInt8) : Int :=
  let limit := (len - key.length).toNat
  headerValueLoop buffer key limit limit 0

/-! ## The upload -/

/-- What the user and the file system answer: what each call of `fgets` reads, and the
names that `fopen` opens for writing. -/
structure User where
  answers : List (List UInt8)
  canOpen : List UInt8 → Bool

/-- What `parse_http_content` does: the message that it returns, if it is not `NULL`,
and the name and the bytes of the file that it writes. -/
structure Outcome where
  message : Option String
  saved : Option (List UInt8 × List UInt8) := none
  deriving DecidableEq

/-- The message of the loop that asks the user, or `none` when the user has
confirmed. -/
def confirm : (failed : ℕ) → (answers : List (List UInt8)) → Option String
  | failed, [] =>
    if failed > 5 then some "Fail count exceed for user confirmation"
    else some "Failed to query user for confirmation"
  | failed, answer :: rest =>
    if failed > 5 then some "Fail count exceed for user confirmation"
    else if (ascii "no").isPrefixOf answer then some "Transfer rejected by user"
    else if (ascii "yes").isPrefixOf answer then none
    else confirm (failed + 1) rest

/-- `*t = 0` behind the name, and the name without its quotes. -/
def cutFilename (block : Block) (filenameField : ℕ) : Option (Block × List UInt8) := do
  let field ← stringAt block filenameField
  let t := filenameField + (field.takeWhile (· ≠ 59)).length
  let block ← writeAt block t 0
  let quote ← readAt block filenameField
  let filenameField := if quote = 34 then filenameField + 1 else filenameField
  let field ← stringAt block filenameField
  let last : Int := filenameField + field.length - 1
  let quote ← readAt block last
  let block ← if quote = 34 then writeAt block last 0 else some block
  let field ← stringAt block filenameField
  some (block, field)

/-- The end of `parse_http_content`: `filename` and the `length` bytes from `p` on go to
a file. -/
def storeFile (user : User) (block : Block) (filename : List UInt8) (p length : ℕ) : Outcome :=
  match confirm 0 user.answers with
  | some message => { message := some message }
  | none =>
    if user.canOpen filename then
      { message := none, saved := some (filename, (block.drop p).take length) }
    else { message := some "Unable to open file for writing" }

/-- `parse_http_content` from `header_scan` on: the part between the delimiters starts at
`header`. -/
def parsePart (user : User) (block : Block) (header : ℕ) (contentLength : Int) :
    Option (Block × Outcome) := do
  let contentHeader := headerScan (block.drop header) contentLength
  if contentHeader < 0 then
    some (block, { message := some "No header found in content" })
  else
    let block := splitHeader block header contentHeader.toNat
    let contentDisposition :=
      headerValue (block.drop header) contentHeader (ascii "Content-Disposition: ")
    if contentDisposition < 0 then
      some (block, { message := some "No Content-Disposition found in content header" })
    else
      let value := header + contentDisposition.toNat
      let field ← stringAt block value
      match strstr field (ascii "filename=") with
      | none =>
        some (block, { message := some "No filename field found in Content-Disposition field" })
      | some i =>
        let (block, filename) ← cutFilename block (value + i + (ascii "filename=").length)
        some (block, storeFile user block filename (header + contentHeader.toNat)
          (contentLength - contentHeader).toNat)

/-- `parse_http_content`, on the `len` bytes from `buffer` on, with the string at
`boundary`. -/
def parseHttpContent (user : User) (block : Block) (buffer : ℕ) (len : Int)
    (boundary : List UInt8) : Option (Block × Outcome) := do
  let begin := findNeedle (block.drop buffer) len boundary
  if begin = -1 then
    some (block, { message := some "Unable to find first boundary marker in header" })
  else
    let second := begin.toNat + boundary.length
    let stop := findNeedle (block.drop (buffer + second)) (len - second) boundary
    if stop = -1 then
      some (block, { message := some "Unable to find second boundary market in header" })
    else
      let begin := second
      let stop := stop + begin
      let c ← readAt block (buffer + stop - 4)
      let stop := if c = CR then stop - 4 else stop - 3
      let block ← writeAt block (buffer + stop) 0
      parsePart user block (buffer + begin) (stop - begin)

/-! ## What the functions find -/

theorem readAt_append {front rest : Block} {i : Int} (b : UInt8) (hi : i = front.length) :
    readAt (front ++ b :: rest) i = some b := by
  subst hi
  simp [readAt]

theorem writeAt_append {front rest : Block} {i : Int} (b byte : UInt8) (hi : i = front.length) :
    writeAt (front ++ b :: rest) i byte = some (front ++ byte :: rest) := by
  subst hi
  have hlt : (front.length : Int) < (front ++ b :: rest).length := by
    rw [List.length_append, List.length_cons]
    omega
  rw [writeAt, if_pos ⟨by omega, hlt⟩]
  simp

theorem needleAt_iff {haystack needle : List UInt8} (hne : needle ≠ []) (i : ℕ) :
    needleAt haystack needle i = true ↔ needle <+: haystack.drop i := by
  unfold needleAt
  rw [Bool.and_eq_true, List.isPrefixOf_iff_prefix]
  constructor
  · exact fun h => h.2
  · intro hstarts
    refine ⟨?_, hstarts⟩
    obtain ⟨b, needle, rfl⟩ := List.exists_cons_of_ne_nil hne
    obtain ⟨rest, hrest⟩ := hstarts
    have hhead : haystack[i]? = some b := by
      rw [← List.head?_drop, ← hrest]
      rfl
    simp [List.getD_eq_getElem?_getD, hhead]

/-- `find_needle` finds the first occurrence, if there is room behind it. -/
theorem findNeedle_eq {haystack needle : List UInt8} (hne : needle ≠ []) {i : ℕ} {len : Int}
    (hlt : (i : Int) < len - needle.length) (hat : needle <+: haystack.drop i)
    (hbefore : ∀ j < i, ¬ needle <+: haystack.drop j) :
    findNeedle haystack len needle = i := by
  have hfirst : (first (len - needle.length).toNat fun i =>
      if needleAt haystack needle i then some i else none) = some i := by
    refine first_eq_some_iff.mpr ⟨i, by omega, if_pos ((needleAt_iff hne i).mpr hat), ?_⟩
    intro j hj
    exact if_neg fun h => hbefore j hj ((needleAt_iff hne j).mp h)
  unfold findNeedle
  rw [hfirst]

/-- `header_scan` finds the first blank line that ends below the length and its own
bound. -/
theorem headerScan_eq {buffer : List UInt8} {len : Int} {i e : ℕ} (hlen : (i : Int) < len)
    (hmax : i < HEADER_MAX)
    (hend : headerEnd buffer (min len.toNat HEADER_MAX) i = some e)
    (hbefore : ∀ j < i, headerEnd buffer (min len.toNat HEADER_MAX) j = none) :
    headerScan buffer len = e := by
  have hfirst := first_eq_some_iff.mpr
    ⟨i, show i < min len.toNat HEADER_MAX by omega, hend, hbefore⟩
  unfold headerScan
  rw [if_neg (by omega)]
  dsimp only
  rw [hfirst]

theorem headerEnd_of_ne {buffer : List UInt8} {len i : ℕ} (h : buffer.getD i 0 ≠ LF) :
    headerEnd buffer len i = none := if_neg h

/-- A byte after `split_header`. -/
def splitByte (b : UInt8) : UInt8 := if b = LF ∨ b = CR then 0 else b

/-- `split_header` works on the bytes it is given. -/
theorem splitHeader_append (front header rest : Block) :
    splitHeader (front ++ (header ++ rest)) front.length header.length =
      front ++ (header.map splitByte ++ rest) := by
  have hfront : front.mapIdx (fun i b => if front.length ≤ i ∧ i < front.length + header.length ∧
      (b = LF ∨ b = CR) then 0 else b) = front := by
    refine List.ext_getElem (by simp) fun i _ hi => ?_
    rw [List.getElem_mapIdx, if_neg (by omega)]
  have hheader : header.mapIdx (fun i b => if front.length ≤ i + front.length ∧
      i + front.length < front.length + header.length ∧ (b = LF ∨ b = CR) then 0 else b) =
      header.map splitByte := by
    refine List.ext_getElem (by simp) fun i _ hi => ?_
    rw [List.length_map] at hi
    rw [List.getElem_mapIdx, List.getElem_map, splitByte]
    exact if_congr (by simp; omega) rfl rfl
  have hrest : rest.mapIdx (fun i b => if front.length ≤ i + header.length + front.length ∧
      i + header.length + front.length < front.length + header.length ∧ (b = LF ∨ b = CR)
      then 0 else b) = rest := by
    refine List.ext_getElem (by simp) fun i _ hi => ?_
    rw [List.getElem_mapIdx, if_neg (by omega)]
  rw [splitHeader, List.mapIdx_append, List.mapIdx_append, hfront, hheader, hrest]

/-! ## The block keeps its length -/

theorem writeAt_length {block block' : Block} {i : Int} {byte : UInt8}
    (h : writeAt block i byte = some block') : block'.length = block.length := by
  unfold writeAt at h
  split_ifs at h
  obtain rfl := Option.some.inj h
  exact List.length_set

@[simp] theorem splitHeader_length (block : Block) (p len : ℕ) :
    (splitHeader block p len).length = block.length := by
  simp [splitHeader]

theorem cutFilename_length {block block' : Block} {p : ℕ} {filename : List UInt8}
    (h : cutFilename block p = some (block', filename)) : block'.length = block.length := by
  simp only [cutFilename, Option.bind_eq_bind, Option.bind_eq_some_iff] at h
  obtain ⟨_, -, cut, hcut, _, -, _, -, last, -, h⟩ := h
  have hlength := writeAt_length hcut
  by_cases hquote : last = 34
  · rw [if_pos hquote] at h
    obtain ⟨_, hwrite, h⟩ := Option.bind_eq_some_iff.mp h
    obtain ⟨_, -, h⟩ := Option.bind_eq_some_iff.mp h
    cases h
    exact (writeAt_length hwrite).trans hlength
  · rw [if_neg hquote, Option.bind_some] at h
    obtain ⟨_, -, h⟩ := Option.bind_eq_some_iff.mp h
    cases h
    exact hlength

theorem parsePart_length {user : User} {block block' : Block} {header : ℕ} {contentLength : Int}
    {outcome : Outcome} (h : parsePart user block header contentLength = some (block', outcome)) :
    block'.length = block.length := by
  unfold parsePart at h
  dsimp only at h
  split_ifs at h with hscan hvalue
  · cases h
    rfl
  · cases h
    exact splitHeader_length _ _ _
  · simp only [Option.bind_eq_bind, Option.bind_eq_some_iff] at h
    obtain ⟨field, -, h⟩ := h
    split at h
    · cases h
      exact splitHeader_length _ _ _
    · obtain ⟨⟨cut, filename⟩, hcut, h⟩ := Option.bind_eq_some_iff.mp h
      cases h
      rw [cutFilename_length hcut, splitHeader_length]

theorem parseHttpContent_length {user : User} {block block' : Block} {buffer : ℕ} {len : Int}
    {boundary : List UInt8} {outcome : Outcome}
    (h : parseHttpContent user block buffer len boundary = some (block', outcome)) :
    block'.length = block.length := by
  unfold parseHttpContent at h
  dsimp only at h
  split_ifs at h with hfirst hsecond
  · cases h
    rfl
  · cases h
    rfl
  · simp only [Option.bind_eq_bind, Option.bind_eq_some_iff] at h
    obtain ⟨_, -, cut, hcut, hpart⟩ := h
    rw [parsePart_length hpart, writeAt_length hcut]

end EthTransfer
