import EthTransfer.Http.BlankLine
import EthTransfer.Http.Lookup

/-!
# The bytes of the body

`parse_http_content` looks for the two delimiters inside the body.  It then goes back three or
four bytes from the second one to the end of the content, and it does not compare the result
with the start of the body.

* `parsePart_returns`: from there on it stays inside what it has cut out, whatever this is.
* `parseHttpContent_returns`: it stays inside the body and does what
  `EthTransfer.parseHttpContent` says, unless the second delimiter starts in front of the
  fourth byte.
* `parseHttpContent_inBody_iff`: in this case it does not.
-/

namespace EthTransfer

open Search Traced

namespace Memory

/-! ## The name of the file -/

section Name

variable {block : Block} {p len k i : ℕ} {q : Int}

theorem length_string (hlt : i + stringLength block i ≤ block.length) :
    ((block.drop i).take (stringLength block i)).length = stringLength block i := by
  rw [List.length_take, List.length_drop]
  omega

/-- The string in front of a zero. -/
theorem stringAt_eq (hik : i ≤ k) (hlt : k < block.length) (hzero : block.getD k 0 = 0) :
    stringAt block i = some ((block.drop i).take (stringLength block i)) := by
  have hmem : (0 : UInt8) ∈ block.drop i := by
    rw [List.getD_eq_getElem _ _ hlt] at hzero
    refine List.mem_iff_getElem.mpr ⟨k - i, by rw [List.length_drop]; omega, ?_⟩
    rw [List.getElem_drop, ← hzero]
    congr 1
    omega
  have hstops : (fun b : UInt8 => !decide (b = 0)) = fun b => decide (b ≠ 0) := by
    funext b
    exact decide_not.symm
  rw [stringAt, cString, if_pos hmem, stringLength, reach, hstops]
  congr 1
  exact List.prefix_iff_eq_take.mp (List.takeWhile_prefix _)

theorem stringFrom_returns (hq : q = p + i) (hstops : i + stringLength block (p + i) < len)
    (hfits : p + len ≤ block.length) :
    Returns (Inside p len) (stringFrom q) block
      ((block.drop (p + i)).take (stringLength block (p + i))) block := by
  refine (strlen_returns hq hstops hfits).bind ⟨?_, fun _ h => nomatch h⟩
  rw [show q.toNat = p + i by omega]

/-- `strstr` looks at the string and its zero only. -/
theorem strstr_returns (needle : List UInt8) (hq : q = p + i)
    (hstops : i + stringLength block (p + i) < len) (hfits : p + len ≤ block.length) :
    Returns (Inside p len) (strstr q needle) block
      (EthTransfer.strstr ((block.drop (p + i)).take (stringLength block (p + i))) needle)
      block := by
  refine (strlen_returns hq hstops hfits).bind ?_
  rw [EthTransfer.strstr, length_string (by omega)]
  apply Returns.firstFrom
  intro j hj _
  have hat : needle.isPrefixOf (((block.drop (p + i)).take (stringLength block (p + i))).drop j) =
      true ↔ needle.isPrefixOf (block.drop (p + (i + j))) = true ∧
        j + needle.length ≤ stringLength block (p + i) := by
    rw [List.isPrefixOf_iff_prefix, List.isPrefixOf_iff_prefix, List.drop_take, List.drop_drop,
      List.prefix_take_iff, Nat.add_assoc]
    refine and_congr_right fun hstarts => ?_
    omega
  by_cases hlong : stringLength block (p + i) < j + needle.length
  · rw [if_pos hlong, if_neg fun h => absurd (hat.mp h).2 (by omega)]
    exact .pure _ _ _
  · rw [if_neg hlong]
    refine (sameAt_returns (i := i + j) (by omega) (by omega) hfits).bind ?_
    simp only [hat, show j + needle.length ≤ stringLength block (p + i) by omega, and_true]
    exact .pure _ _ _

theorem getD_set_zero (j : ℕ) (hzero : block.getD k 0 = 0) : (block.set j 0).getD k 0 = 0 := by
  rw [List.getD_eq_getElem?_getD] at hzero ⊢
  rw [List.getElem?_set]
  split_ifs
  · rfl
  · rfl
  · exact hzero

/-- The place where the name ends. -/
theorem reach_name (block : Block) (i : ℕ) :
    reach (fun byte => byte = 0 || byte = 59) (block.drop i) =
      (((block.drop i).take (stringLength block i)).takeWhile (· ≠ 59)).length := by
  have hstops : (fun b : UInt8 => !decide (b = 0)) = fun b => decide (b ≠ 0) := by
    funext b
    exact decide_not.symm
  have hstring : (block.drop i).take (stringLength block i) =
      (block.drop i).takeWhile fun b => decide (b ≠ 0) := by
    rw [stringLength, reach, hstops]
    exact (List.prefix_iff_eq_take.mp (List.takeWhile_prefix _)).symm
  rw [hstring, List.takeWhile_takeWhile, reach]
  congr 2
  funext b
  by_cases hb : b = 0 <;> by_cases hb' : b = 59 <;> simp [hb, hb']

/-- The name without its quotes, when the semicolon behind it has been overwritten. -/
def trimQuotesAt (block : Block) (filenameField : ℕ) : Option (Block × List UInt8) := do
  let quote ← readAt block filenameField
  let filenameField := if quote = 34 then filenameField + 1 else filenameField
  let field ← stringAt block filenameField
  let last : Int := filenameField + field.length - 1
  let quote ← readAt block last
  let block ← if quote = 34 then writeAt block last 0 else some block
  let field ← stringAt block filenameField
  some (block, field)

/-- The name without its quotes stays in front of the zero at `k`. -/
theorem trimQuotes_returns (hq : q = p + i) (hpos : 0 < i) (hik : i ≤ k) (hk : k < len)
    (hzero : block.getD (p + k) 0 = 0) (hfits : p + len ≤ block.length) :
    ∃ (j : ℕ) (block' : Block), Returns (Inside p len) (trimQuotes q) block (p + j : ℕ) block' ∧
      trimQuotesAt block (p + i) =
        some (block', (block'.drop (p + j)).take (stringLength block' (p + j))) ∧
      j ≤ k ∧ block'.getD (p + k) 0 = 0 ∧ block'.length = block.length := by
  have hread := read_returns hq (show i < len by omega) hfits
  set j := if (block.drop p).getD i 0 = 34 then i + 1 else i with hj
  have hjk : j ≤ k := by
    rw [hj]
    split_ifs with hquote
    · have hne : i ≠ k := by
        rintro rfl
        rw [getD_drop, hzero] at hquote
        exact absurd hquote (by decide)
      omega
    · exact hik
  have hjpos : 0 < j := by
    rw [hj]
    split_ifs <;> omega
  have hjq : (if (block.drop p).getD i 0 = 34 then q + 1 else q) = ((p + j : ℕ) : Int) := by
    rw [hj]
    split_ifs <;> omega
  have hjp : (if (block.drop p).getD i 0 = 34 then p + i + 1 else p + i) = p + j := by
    rw [hj]
    split_ifs <;> omega
  -- the last byte of the name
  have hend := stringLength_le (show p + j ≤ p + k by omega) hzero
  have hlength := strlen_returns (show ((p + j : ℕ) : Int) = p + j by omega)
    (show j + stringLength block (p + j) < len by omega) hfits
  have hstring := stringAt_eq (show p + j ≤ p + k by omega) (by omega) hzero
  have hname := length_string (show p + j + stringLength block (p + j) ≤ block.length by omega)
  generalize stringLength block (p + j) = n at hend hlength hstring hname
  have hlastq : ((p + j : ℕ) : Int) + n - 1 = p + (j + n - 1 : ℕ) := by omega
  have hlast := read_returns hlastq (show j + n - 1 < len by omega) hfits
  have hwrite := write_returns hlastq (show j + n - 1 < len by omega) hfits 0
  have hreadAt := readAt_eq (show ((p + i : ℕ) : Int) = p + i by omega)
    (show i < len by omega) hfits
  have hlastAt := readAt_eq hlastq (show j + n - 1 < len by omega) hfits
  have hwriteAt := writeAt_eq hlastq (show j + n - 1 < len by omega) hfits 0
  unfold trimQuotesAt
  simp only [Option.bind_eq_bind, hreadAt, Option.bind_some, hjp, hstring, hname, hlastAt]
  by_cases hquote : (block.drop p).getD (j + n - 1) 0 = 34
  · have hcutzero : (block.set (p + (j + n - 1)) 0).getD (p + k) 0 = 0 := getD_set_zero _ hzero
    have hcutstring := stringAt_eq (show p + j ≤ p + k by omega)
      (by rw [List.length_set]; omega) hcutzero
    refine ⟨j, block.set (p + (j + n - 1)) 0, ?_, ?_, hjk, hcutzero, List.length_set⟩
    · refine hread.bind ?_
      simp only [hjq]
      refine hlength.bind (hlast.bind ?_)
      rw [if_pos hquote]
      exact hlength.bind (hwrite.bind (.pure _ _ _))
    · rw [if_pos hquote, hwriteAt, Option.bind_some, hcutstring]
      rfl
  · refine ⟨j, block, ?_, ?_, hjk, hzero, rfl⟩
    · refine hread.bind ?_
      simp only [hjq]
      refine hlength.bind (hlast.bind ?_)
      rw [if_neg hquote]
      exact .pure _ _ _
    · have hsame := hstring.symm.trans (stringAt_eq (show p + j ≤ p + k by omega) (by omega) hzero)
      rw [if_neg hquote, Option.some.inj hsame]

/-- The name stays in front of the zero at `k`, also where it is cut. -/
theorem cutFilename_returns (hq : q = p + i) (hpos : 0 < i) (hik : i ≤ k) (hk : k < len)
    (hzero : block.getD (p + k) 0 = 0) (hfits : p + len ≤ block.length) :
    ∃ (j : ℕ) (block' : Block), Returns (Inside p len) (cutFilename q) block (p + j : ℕ) block' ∧
      EthTransfer.cutFilename block (p + i) =
        some (block', (block'.drop (p + j)).take (stringLength block' (p + j))) ∧
      j ≤ k ∧ block'.getD (p + k) 0 = 0 ∧ block'.length = block.length := by
  have hname := reach_name block (p + i)
  have hend := stringLength_le (show p + i ≤ p + k by omega) hzero
  set t := reach (fun byte => byte = 0 || byte = 59) (block.drop (p + i)) with ht
  have hle : t ≤ stringLength block (p + i) := by
    rw [hname]
    refine (List.takeWhile_prefix _).length_le.trans ?_
    rw [length_string (by omega)]
  have hseek : Returns (Inside p len) (seek (fun byte => byte = 0 || byte = 59) q) block t block :=
    seek_returns hq (show i + t < len by omega) hfits
  have hwrite := write_returns (q := q + t) (show q + t = p + (i + t : ℕ) by omega)
    (show i + t < len by omega) hfits 0
  have hstring := stringAt_eq (show p + i ≤ p + k by omega) (by omega) hzero
  have hwriteAt := writeAt_eq (show ((p + i + t : ℕ) : Int) = p + (i + t : ℕ) by omega)
    (show i + t < len by omega) hfits 0
  have hcutlength : (block.set (p + (i + t)) 0).length = block.length := List.length_set
  obtain ⟨j, block', hreturns, hsame, hjk, hzero', hlength⟩ :=
    trimQuotes_returns hq hpos hik hk (getD_set_zero (p + (i + t)) hzero) (by rwa [hcutlength])
  refine ⟨j, block', hseek.bind (hwrite.bind hreturns), ?_, hjk, hzero', hlength.trans hcutlength⟩
  have hsplit : EthTransfer.cutFilename block (p + i) = (do
      let field ← stringAt block (p + i)
      let block ← writeAt block (p + i + (field.takeWhile (· ≠ 59)).length : ℕ) 0
      trimQuotesAt block (p + i)) := rfl
  rw [hsplit]
  simp only [Option.bind_eq_bind, hstring, Option.bind_some, ← hname, hwriteAt, hsame]

/-- The consent of the user and the file. -/
theorem storeFile_returns (user : User) {j s : ℕ} {length : Int} (hjk : j ≤ k) (hk : k < len)
    (hzero : block.getD (p + k) 0 = 0) (hlength : 0 ≤ length) (hs : s + length ≤ len)
    (hfits : p + len ≤ block.length) :
    Returns (Inside p len) (storeFile user (p + j : ℕ) (p + s) length) block
      (EthTransfer.storeFile user block
        ((block.drop (p + j)).take (stringLength block (p + j))) (p + s) length.toNat) block := by
  have hend := stringLength_le (show p + j ≤ p + k by omega) hzero
  have hname := stringFrom_returns (show ((p + j : ℕ) : Int) = p + j by omega)
    (show j + stringLength block (p + j) < len by omega) hfits
  refine hname.bind ?_
  unfold EthTransfer.storeFile
  cases confirm 0 user.answers with
  | some message => exact .pure _ _ _
  | none =>
    refine hname.bind ?_
    dsimp only
    split_ifs with hopen
    · have hwrite : Returns (Inside p len) (fwrite (p + s) length) block
          ((block.drop (p + s)).take length.toNat) block := by
        constructor
        · show (if _ then _ else _) = _
          rw [if_pos ⟨by omega, hlength, by omega⟩, show ((p : Int) + s).toNat = p + s by omega]
        · rintro e (_ | ⟨_, ⟨⟩⟩)
          exact ⟨by omega, hlength, by omega⟩
      exact hwrite.bind (.pure _ _ _)
    · exact .pure _ _ _

end Name

/-! ## The upload -/

/-- `parse_http_content` from the value of the field on. -/
def storeFieldAt (user : User) (block : Block) (value p length : ℕ) : Option (Block × Outcome) := do
  let field ← stringAt block value
  match EthTransfer.strstr field (ascii "filename=") with
  | none => some (block, { message := some "No filename field found in Content-Disposition field" })
  | some i =>
    let (block, filename) ←
      EthTransfer.cutFilename block (value + i + (ascii "filename=").length)
    some (block, EthTransfer.storeFile user block filename p length)

theorem storeField_returns (user : User) {block : Block} {p len k v s : ℕ} {length : Int}
    (hvk : v ≤ k) (hk : k < len) (hzero : block.getD (p + k) 0 = 0) (hlength : 0 ≤ length)
    (hs : s + length ≤ len) (hfits : p + len ≤ block.length) :
    ∃ outcome block', Returns (Inside p len) (storeField user (p + v) (p + s) length) block
        outcome block' ∧
      storeFieldAt user block (p + v) (p + s) length.toNat = some (block', outcome) := by
  have hend := stringLength_le (show p + v ≤ p + k by omega) hzero
  have hfield := strstr_returns (ascii "filename=") (show (p + v : Int) = p + v from rfl)
    (show v + stringLength block (p + v) < len by omega) hfits
  have hstring := stringAt_eq (show p + v ≤ p + k by omega) (by omega) hzero
  have hsize := length_string (show p + v + stringLength block (p + v) ≤ block.length by omega)
  unfold storeFieldAt
  rw [hstring, Option.bind_eq_bind, Option.bind_some]
  cases hfound : EthTransfer.strstr ((block.drop (p + v)).take (stringLength block (p + v)))
      (ascii "filename=") with
  | none =>
    rw [hfound] at hfield
    exact ⟨_, _, hfield.bind (.pure _ _ _), rfl⟩
  | some i =>
    have hle := strstr_le hfound
    have hnine : (ascii "filename=").length = 9 := by decide
    rw [hsize, hnine] at hle
    rw [hfound] at hfield
    obtain ⟨j, block', hcut, hsame, hjk, hzero', hlength'⟩ :=
      cutFilename_returns (q := p + v + i + (ascii "filename=").length) (i := v + i + 9)
        (by omega) (by omega) (show v + i + 9 ≤ k by omega) hk hzero hfits
    have hstore := storeFile_returns user hjk hk hzero' hlength hs (by omega)
    refine ⟨_, block', hfield.bind (hcut.bind hstore), ?_⟩
    dsimp only
    rw [hnine, show p + v + i + 9 = p + (v + i + 9) by omega, hsame]
    rfl

/-- The blank line ends with a `LF`, so `split_header` puts a zero in front of the content. -/
theorem headerScan_last {buffer : List UInt8} {len : Int} {e : ℕ}
    (h : EthTransfer.headerScan buffer len = e) :
    2 ≤ e ∧ (e : Int) ≤ len ∧ buffer[e - 1]? = some LF := by
  obtain ⟨i, hline, -⟩ := headerScan_eq_iff.mp h
  have hend := hline.end_bounds
  refine ⟨by omega, by omega, ?_⟩
  cases hline with
  | lf _ hlf => exact hlf
  | crlf _ _ hlf => exact hlf

/-- What lies between the delimiters is parsed in its own bytes. -/
theorem parsePart_returns (user : User) {block : Block} {p : ℕ} {contentLength : Int}
    (hfits : p + contentLength.toNat ≤ block.length) :
    ∃ outcome block', Returns (Inside p contentLength.toNat) (parsePart user p contentLength) block
        outcome block' ∧
      EthTransfer.parsePart user block p contentLength = some (block', outcome) := by
  have hscan := headerScan_returns hfits
  unfold EthTransfer.parsePart
  dsimp only
  by_cases hnone : EthTransfer.headerScan (block.drop p) contentLength < 0
  · rw [if_pos hnone]
    refine ⟨_, _, hscan.bind ?_, rfl⟩
    rw [if_pos hnone]
    exact .pure _ _ _
  · rw [if_neg hnone]
    obtain ⟨e, he⟩ := Int.eq_ofNat_of_zero_le (not_lt.mp hnone)
    rw [he] at hscan hnone ⊢
    obtain ⟨hlow, hhigh, hlast⟩ := headerScan_last he
    have hwide {α : Type} {m : Memory α} {a : α} {s s' : Block}
        (h : Returns (Inside p e) m s a s') : Returns (Inside p contentLength.toNat) m s a s' :=
      h.mono (Inside.mono le_rfl (by omega))
    -- `split_header`
    have hsplit := hwide (splitHeader_returns (show p + e ≤ block.length by omega))
    have hzero : (EthTransfer.splitHeader block p e).getD (p + (e - 1)) 0 = 0 := by
      have hbyte : block.getD (p + (e - 1)) 0 = LF := by
        rw [← getD_drop, List.getD_eq_getElem?_getD, hlast]
        rfl
      rw [getD_splitHeader, if_pos ⟨by omega, by omega⟩, hbyte]
      rfl
    have hfits' : p + e ≤ (EthTransfer.splitHeader block p e).length := by
      rw [splitHeader_length]
      omega
    have hsplitlength := splitHeader_length block p e
    rw [Int.toNat_natCast]
    generalize EthTransfer.splitHeader block p e = split at hsplit hzero hfits' hsplitlength ⊢
    -- `header_value`
    have hkey : (0 : UInt8) ∉ ascii "Content-Disposition: " := by decide
    have hvalue := hwide (headerValue_returns hkey (by omega) (show split.getD (p + e - 1) 0 = 0 by
      rwa [Nat.add_sub_assoc (by omega)]) hfits')
    by_cases hmissing : EthTransfer.headerValue (split.drop p) e (ascii "Content-Disposition: ") < 0
    · refine ⟨_, _, hscan.bind ?_, if_pos hmissing⟩
      rw [if_neg hnone]
      refine hsplit.bind (hvalue.bind ?_)
      rw [if_pos hmissing]
      exact .pure _ _ _
    · obtain ⟨v, hv⟩ := Int.eq_ofNat_of_zero_le (not_lt.mp hmissing)
      have hlt := headerValue_lt (show e ≤ (split.drop p).length by
        rw [List.length_drop]; omega) hv
      obtain ⟨outcome, block', hstore, hsame⟩ := storeField_returns user
        (show v ≤ e - 1 by omega) (show e - 1 < contentLength.toNat by omega) hzero
        (show 0 ≤ contentLength - e by omega) (show e + (contentLength - e) ≤ _ by omega)
        (by rw [hsplitlength]; exact hfits)
      refine ⟨outcome, block', hscan.bind ?_, ?_⟩
      · rw [if_neg hnone]
        refine hsplit.bind (hvalue.bind ?_)
        rw [if_neg hmissing, hv]
        exact hstore
      · rw [if_neg hmissing, hv]
        exact hsame

end Memory

/-! ## The body -/

/-- The access is to the body of `len` bytes at `buffer`, or to the byte behind it. -/
def InBody (buffer len : ℕ) : Access → Prop
  | .byte place => buffer ≤ place ∧ place ≤ buffer + len
  | .fwrite place length => 0 ≤ length ∧ buffer ≤ place ∧ place + length ≤ buffer + len

/-- The first place of the delimiter with a byte behind it.  An empty delimiter stands at the
first zero. -/
def FirstDelimiter (body delimiter : List UInt8) (i : ℕ) : Prop :=
  IsLeast {i | i + delimiter.length < body.length ∧ needleAt body delimiter i} i

theorem InBody.of_inside {buffer len p n : ℕ} (hle : buffer ≤ p) (hend : p + n ≤ buffer + len)
    (e : Access) (h : Memory.Inside p n e) : InBody buffer len e := by
  cases e <;> simp only [Memory.Inside, InBody] at h ⊢ <;> omega

theorem needleAt_append {body delimiter : List UInt8} (rest : List UInt8) {i : ℕ}
    (hlt : i + delimiter.length < body.length) :
    needleAt (body ++ rest) delimiter i = needleAt body delimiter i := by
  have hstarts : delimiter.isPrefixOf ((body ++ rest).drop i) =
      delimiter.isPrefixOf (body.drop i) := by
    rw [Bool.eq_iff_iff, Memory.isPrefixOf_drop_iff (by simp; omega),
      Memory.isPrefixOf_drop_iff (by omega)]
    refine forall₂_congr fun j hj => ?_
    rw [List.getD_append _ _ _ _ (by omega)]
  rw [needleAt, needleAt, hstarts, List.getD_append _ _ _ _ (by omega)]

/-- What `find_needle` answers, whatever lies behind the body. -/
theorem findNeedle_body (body rest delimiter : List UInt8) :
    Locates {i | i + delimiter.length < body.length ∧ needleAt body delimiter i} 0
      (findNeedle (body ++ rest) body.length delimiter) := by
  have hplaces : {i | i + delimiter.length < body.length ∧ needleAt (body ++ rest) delimiter i} =
      {i | i + delimiter.length < body.length ∧ needleAt body delimiter i} := by
    ext i
    refine and_congr_right fun hlt => ?_
    rw [needleAt_append rest hlt]
  rw [← hplaces]
  exact findNeedle_locates (body ++ rest) delimiter body.length

theorem FirstDelimiter.found {body delimiter : List UInt8} {i : ℕ}
    (h : FirstDelimiter body delimiter i) (rest : List UInt8) :
    findNeedle (body ++ rest) body.length delimiter = i :=
  ((findNeedle_body body rest delimiter).found i).mpr h

theorem findNeedle_missing {body delimiter : List UInt8}
    (h : ∀ i, ¬ FirstDelimiter body delimiter i) (rest : List UInt8) :
    findNeedle (body ++ rest) body.length delimiter = -1 := by
  rw [(findNeedle_body body rest delimiter).missing]
  exact (exists_isLeast_or _).resolve_left fun ⟨i, hi⟩ => h i hi

section Body

variable (user : User) (front body rest boundary : List UInt8)

/-- The two searches. -/
theorem searches_return {s : ℕ} (hs : s ≤ body.length) :
    Returns (InBody front.length body.length)
      (Memory.findNeedle (front.length + s : ℕ) ((body.drop s).length : ℕ) boundary)
      (front ++ (body ++ rest)) (findNeedle (body.drop s ++ rest) (body.drop s).length boundary)
      (front ++ (body ++ rest)) := by
  have hfits : front.length + s + (body.drop s).length ≤ (front ++ (body ++ rest)).length := by
    simp
    omega
  have hsearch := Memory.findNeedle_returns boundary hfits
  rw [← List.drop_drop, List.drop_left, List.drop_append_of_le_length hs] at hsearch
  refine hsearch.mono (InBody.of_inside (by omega) ?_)
  rw [List.length_drop]
  omega

/-- The arguments of the second search. -/
theorem second_args {i : ℕ} (hlt : i + boundary.length < body.length) :
    (body.length : Int) - i - boundary.length = ((body.drop (i + boundary.length)).length : ℕ) ∧
      (body.length : Int) - (i + boundary.length : ℕ) =
        ((body.drop (i + boundary.length)).length : ℕ) ∧
      (front.length : Int) + i + boundary.length = (front.length + (i + boundary.length) : ℕ) := by
  rw [List.length_drop]
  omega

/-- Without two delimiters nothing is written. -/
theorem parseHttpContent_of_missing
    (hmissing : ∀ i, FirstDelimiter body boundary i →
      ∀ j, ¬ FirstDelimiter (body.drop (i + boundary.length)) boundary j) :
    ∃ outcome, Returns (InBody front.length body.length)
        (Memory.parseHttpContent user front.length body.length boundary)
        (front ++ (body ++ rest)) outcome (front ++ (body ++ rest)) ∧
      parseHttpContent user (front ++ (body ++ rest)) front.length body.length boundary =
        some (front ++ (body ++ rest), outcome) := by
  have hfirst := searches_return front body rest boundary (Nat.zero_le _)
  rw [List.drop_zero, Nat.add_zero] at hfirst
  unfold parseHttpContent
  dsimp only
  rw [List.drop_left]
  by_cases hfound : ∃ i, FirstDelimiter body boundary i
  · obtain ⟨i, hi⟩ := hfound
    have hlt := hi.1.1
    obtain ⟨hcode, hspec, hplace⟩ := second_args front body boundary hlt
    have hsecond := searches_return front body rest boundary hlt.le
    have hnone := findNeedle_missing (hmissing i hi) rest
    rw [hnone] at hsecond
    rw [hi.found rest] at hfirst ⊢
    refine ⟨{ message := some "Unable to find second boundary market in header" },
      hfirst.bind ?_, ?_⟩
    · rw [if_neg (by omega), hcode, hplace]
      exact hsecond.bind (.pure _ _ _)
    · rw [if_neg (by omega), Int.toNat_natCast, ← List.drop_drop, List.drop_left,
        List.drop_append_of_le_length hlt.le, hspec, if_pos hnone]
  · rw [findNeedle_missing (not_exists.mp hfound) rest] at hfirst ⊢
    exact ⟨_, hfirst.bind (.pure _ _ _), rfl⟩

section Delimiters

variable {i j : ℕ} (hi : FirstDelimiter body boundary i)
  (hj : FirstDelimiter (body.drop (i + boundary.length)) boundary j)

include hi hj

omit hi hj in
theorem length_memory : (front ++ (body ++ rest)).length =
    front.length + body.length + rest.length := by
  simp [Nat.add_assoc]

/-- Both searches stay inside the body. -/
theorem searches_of_delimiters :
    Returns (InBody front.length body.length)
        (Memory.findNeedle front.length body.length boundary) (front ++ (body ++ rest)) i
        (front ++ (body ++ rest)) ∧
      Returns (InBody front.length body.length)
        (Memory.findNeedle (front.length + i + boundary.length)
          (body.length - i - boundary.length) boundary) (front ++ (body ++ rest)) j
        (front ++ (body ++ rest)) ∧
      i + boundary.length + j + boundary.length < body.length := by
  have hlt := hi.1.1
  have hlt' := hj.1.1
  rw [List.length_drop] at hlt'
  obtain ⟨hcode, -, hplace⟩ := second_args front body boundary hlt
  have hfirst := searches_return front body rest boundary (Nat.zero_le _)
  have hsecond := searches_return front body rest boundary hlt.le
  rw [List.drop_zero, Nat.add_zero, hi.found rest] at hfirst
  rw [hj.found rest] at hsecond
  rw [hcode, hplace]
  exact ⟨hfirst, hsecond, by omega⟩

/-- From the fourth byte on there is room for the way back. -/
theorem parseHttpContent_of_room (hroom : 4 ≤ i + boundary.length + j) :
    ∃ outcome block', Returns (InBody front.length body.length)
        (Memory.parseHttpContent user front.length body.length boundary)
        (front ++ (body ++ rest)) outcome block' ∧
      parseHttpContent user (front ++ (body ++ rest)) front.length body.length boundary =
        some (block', outcome) := by
  obtain ⟨hfirst, hsecond, hlt⟩ := searches_of_delimiters front body rest boundary hi hj
  obtain ⟨-, hspec, -⟩ := second_args front body boundary hi.1.1
  have hlength := length_memory front body rest
  set block := front ++ (body ++ rest) with hblock
  have hfits : front.length + body.length ≤ block.length := by omega
  -- the byte in front of the second delimiter
  have hq : (front.length : Int) + (j + (i + boundary.length)) - 4 =
      front.length + (i + boundary.length + j - 4 : ℕ) := by omega
  have hread := Memory.read_returns hq
    (show i + boundary.length + j - 4 < body.length by omega) hfits
  have hreadAt := Memory.readAt_eq hq
    (show i + boundary.length + j - 4 < body.length by omega) hfits
  set c := (block.drop front.length).getD (i + boundary.length + j - 4) 0 with hc
  -- the end of the content
  set stop := if c = CR then i + boundary.length + j - 4 else i + boundary.length + j - 3 with hstop
  have hstoplt : stop < body.length := by
    rw [hstop]
    split_ifs <;> omega
  have hstopInt : (if c = CR then (j : Int) + (i + boundary.length) - 4
      else (j : Int) + (i + boundary.length) - 3) = stop := by
    rw [hstop]
    split_ifs <;> omega
  have hwrite := Memory.write_returns
    (show (front.length : Int) + stop = front.length + stop from rfl) hstoplt hfits 0
  have hwriteAt := Memory.writeAt_eq
    (show (front.length : Int) + stop = front.length + stop from rfl) hstoplt hfits 0
  have hcutlength : (block.set (front.length + stop) 0).length = block.length := List.length_set
  obtain ⟨outcome, block', hpart, hsame⟩ := Memory.parsePart_returns user
    (show front.length + (i + boundary.length) +
      ((stop : Int) - (i + boundary.length : ℕ)).toNat ≤
        (block.set (front.length + stop) 0).length by omega)
  have hwide (e : Access) (h : Memory.Inside (front.length + (i + boundary.length))
      ((stop : Int) - (i + boundary.length : ℕ)).toNat e) : InBody front.length body.length e :=
    InBody.of_inside (by omega) (by omega) e h
  have hinside (e : Access) (h : Memory.Inside front.length body.length e) :
      InBody front.length body.length e := InBody.of_inside le_rfl le_rfl e h
  refine ⟨outcome, block', ?_, ?_⟩
  · refine hfirst.bind ?_
    rw [if_neg (by omega)]
    refine hsecond.bind ?_
    rw [if_neg (by omega)]
    refine (hread.mono hinside).bind ?_
    rw [hstopInt]
    refine (hwrite.mono hinside).bind ?_
    have hplace : (front.length : Int) + (i + boundary.length) =
        (front.length + (i + boundary.length) : ℕ) := by omega
    have hcontent : (stop : Int) - (i + boundary.length) =
        stop - (i + boundary.length : ℕ) := by omega
    rw [hplace, hcontent]
    exact hpart.mono hwide
  · have hsecondSearch : findNeedle (block.drop (front.length + (i + boundary.length)))
        (body.length - (i + boundary.length : ℕ)) boundary = j := by
      rw [hspec, hblock, ← List.drop_drop, List.drop_left,
        List.drop_append_of_le_length hi.1.1.le, hj.found rest]
    unfold parseHttpContent
    dsimp only
    rw [show block.drop front.length = body ++ rest from List.drop_left, hi.found rest,
      if_neg (by omega), Int.toNat_natCast, hsecondSearch, if_neg (by omega)]
    rw [show (front.length : Int) + (j + (i + boundary.length : ℕ)) - 4 =
      front.length + (j + (i + boundary.length)) - 4 by omega, hreadAt, Option.bind_eq_bind,
      Option.bind_some]
    rw [show (if c = CR then (j : Int) + (i + boundary.length : ℕ) - 4
      else (j : Int) + (i + boundary.length : ℕ) - 3) = stop from hstopInt, hwriteAt]
    exact hsame

/-- The byte that is four places in front of the second delimiter is read in any case. -/
theorem parseHttpContent_looks_back :
    Emits (Memory.parseHttpContent user front.length body.length boundary)
      (front ++ (body ++ rest))
      (.byte ((front.length : Int) + (j + (i + boundary.length)) - 4)) := by
  obtain ⟨hfirst, hsecond, -⟩ := searches_of_delimiters front body rest boundary hi hj
  refine Emits.bind_right hfirst.result ?_
  rw [if_neg (by omega)]
  refine Emits.bind_right hsecond.result ?_
  rw [if_neg (by omega)]
  exact Emits.bind_left (List.mem_singleton.mpr rfl) _

end Delimiters

/-- With room in front of the second delimiter, the functions on lists say what the loops do,
and the loops stay inside the body. -/
theorem parseHttpContent_returns
    (hroom : ∀ i j, FirstDelimiter body boundary i →
      FirstDelimiter (body.drop (i + boundary.length)) boundary j →
      4 ≤ i + boundary.length + j) :
    ∃ outcome block', Returns (InBody front.length body.length)
        (Memory.parseHttpContent user front.length body.length boundary)
        (front ++ (body ++ rest)) outcome block' ∧
      parseHttpContent user (front ++ (body ++ rest)) front.length body.length boundary =
        some (block', outcome) := by
  by_cases hboth : ∃ i j, FirstDelimiter body boundary i ∧
      FirstDelimiter (body.drop (i + boundary.length)) boundary j
  · obtain ⟨i, j, hi, hj⟩ := hboth
    exact parseHttpContent_of_room user front body rest boundary hi hj (hroom i j hi hj)
  · obtain ⟨outcome, hreturns⟩ := parseHttpContent_of_missing user front body rest boundary
      fun i hi j hj => hboth ⟨i, j, hi, hj⟩
    exact ⟨outcome, _, hreturns⟩

/-- `parse_http_content` touches nothing outside the body exactly if the second delimiter, when
there are two, does not start in front of the fourth byte of the body. -/
theorem parseHttpContent_inBody_iff :
    (∀ e ∈ (Memory.parseHttpContent user front.length body.length boundary
        (front ++ (body ++ rest))).1, InBody front.length body.length e) ↔
    ∀ i j, FirstDelimiter body boundary i →
      FirstDelimiter (body.drop (i + boundary.length)) boundary j →
      4 ≤ i + boundary.length + j := by
  constructor
  · intro hall i j hi hj
    have hbyte := hall _ (parseHttpContent_looks_back user front body rest boundary hi hj)
    have hlow : (front.length : Int) ≤ front.length + (j + (i + boundary.length)) - 4 := hbyte.1
    omega
  · intro hroom
    obtain ⟨outcome, block', hreturns, -⟩ :=
      parseHttpContent_returns user front body rest boundary hroom
    exact hreturns.events

end Body

/-- A body that starts with two delimiters of one byte, behind the end of a header. -/
theorem parseHttpContent_leaves_body :
    ¬ ∀ (user : User) (front body rest boundary : List UInt8),
      ∀ e ∈ (Memory.parseHttpContent user front.length body.length boundary
        (front ++ (body ++ rest))).1, InBody front.length body.length e := by
  intro hall
  have hbyte := hall ⟨[], fun _ => false⟩ [0, 0, 0, 0] [120, 120, 120] [0] [120] (.byte 1)
    (by decide)
  exact absurd hbyte.1 (by decide)

end EthTransfer
