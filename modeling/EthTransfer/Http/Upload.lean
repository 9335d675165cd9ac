import EthTransfer.Http.Content

/-!
# The upload round trip

`multipart` is the body that a browser sends for one file: delimiter, part headers, a
blank line, the file and the closing delimiter.  `Upload` is such a body with what makes
it well formed, and `parseHttpContent_upload` says that `parse_http_content` undoes it.

The proof follows the function.  The two searches find the delimiters, the byte before
the closing one is the CR of the last line end, the scan stops at the blank line, and
after `split_header` the lines of the header are strings.
-/

namespace EthTransfer

open Search

/-! ## Well-formed uploads -/

def crlf : List UInt8 := [CR, LF]

/-- The part headers: every line with its line end. -/
def headerBlock (lines : List (List UInt8)) : List UInt8 := (lines.map (· ++ crlf)).flatten

/-- What begins a `Content-Disposition` line. -/
def dispositionKey : List UInt8 := ascii "Content-Disposition: "

/-- The value of a `Content-Disposition` line, before the name of the file. -/
def dispositionValue : List UInt8 := ascii "form-data; name=\"uploadfile\"; filename=\""

/-- The line that names the file. -/
def disposition (filename : List UInt8) : List UInt8 :=
  dispositionKey ++ (dispositionValue ++ (filename ++ [34]))

/-- The body of the request. -/
def multipart (boundary : List UInt8) (lines : List (List UInt8)) (content : List UInt8) :
    List UInt8 :=
  ascii "--" ++ boundary ++ crlf ++ headerBlock lines ++ crlf ++ content ++ crlf ++
    ascii "--" ++ boundary ++ ascii "--" ++ crlf

/-- Where the boundary stands in the opening and in the closing delimiter. -/
def openingAt : ℕ := 2

def closingAt (boundary : List UInt8) (lines : List (List UInt8)) (content : List UInt8) : ℕ :=
  openingAt + boundary.length + 2 + (headerBlock lines).length + 2 + content.length + 4

/-- A file and the body that carries it. -/
structure Upload where
  content : List UInt8
  boundary : List UInt8
  filename : List UInt8
  lines : List (List UInt8)
  boundary_ne : boundary ≠ []
  boundary_text : ∀ b ∈ boundary, b ≠ CR ∧ b ≠ LF ∧ b ≠ 0
  filename_ne : filename ≠ []
  filename_text : ∀ b ∈ filename, b ≠ 34 ∧ b ≠ 59 ∧ b ≠ CR ∧ b ≠ LF ∧ b ≠ 0
  line_ne : ∀ line ∈ lines, line ≠ []
  line_text : ∀ line ∈ lines, ∀ b ∈ line, b ≠ CR ∧ b ≠ LF ∧ b ≠ 0
  /-- One line says where the content goes, and this is how it reads. -/
  named : lines.filter (dispositionKey.isPrefixOf ·) = [disposition filename]
  /-- The boundary stands in the body first in the opening delimiter, and behind that
  first in the closing one. -/
  opening : ∀ i < openingAt, ¬ boundary <+: (multipart boundary lines content).drop i
  closing : ∀ i, openingAt + boundary.length ≤ i → i < closingAt boundary lines content →
    ¬ boundary <+: (multipart boundary lines content).drop i

def Upload.headers (u : Upload) : List UInt8 := headerBlock u.lines

def Upload.body (u : Upload) : List UInt8 := multipart u.boundary u.lines u.content

/-- Up to five answers that are neither yes nor no, and then yes. -/
def User.Confirms (user : User) : Prop :=
  ∃ before yes rest, user.answers = before ++ yes :: rest ∧ before.length ≤ 5 ∧
    (∀ answer ∈ before, ¬ ascii "no" <+: answer ∧ ¬ ascii "yes" <+: answer) ∧
    ascii "yes" <+: yes

/-! ## The delimiters -/

/-- An occurrence in a longer list, whose end the shorter one contains. -/
theorem prefix_drop_append {needle l rest : List UInt8} {i : ℕ}
    (hle : i + needle.length ≤ l.length) (h : needle <+: (l ++ rest).drop i) :
    needle <+: l.drop i := by
  rw [List.drop_append_of_le_length (by omega)] at h
  exact List.prefix_of_prefix_length_le h (List.prefix_append _ _) (by simp; omega)

theorem length_multipart (boundary content : List UInt8) (lines : List (List UInt8)) :
    (multipart boundary lines content).length =
      closingAt boundary lines content + boundary.length + 4 := by
  simp [multipart, closingAt, openingAt, crlf, ascii]
  omega

/-- The first search finds the opening delimiter. -/
theorem Upload.findOpening (u : Upload) (rest : List UInt8) :
    findNeedle (u.body ++ rest) u.body.length u.boundary = openingAt := by
  have hlength := length_multipart u.boundary u.content u.lines
  refine findNeedle_eq u.boundary_ne ?_ ?_ ?_
  · unfold Upload.body
    rw [hlength]
    unfold closingAt
    omega
  · simp [Upload.body, multipart, openingAt, ascii]
  · intro j hj hstarts
    refine u.opening j hj (prefix_drop_append ?_ hstarts)
    rw [hlength]
    unfold closingAt
    omega

/-- The body up to the second boundary, and from there on. -/
theorem multipart_closing (boundary content : List UInt8) (lines : List (List UInt8)) :
    ∃ front, front.length = closingAt boundary lines content ∧
      multipart boundary lines content = front ++ (boundary ++ (ascii "--" ++ crlf)) := by
  refine ⟨ascii "--" ++ boundary ++ crlf ++ headerBlock lines ++ crlf ++ content ++ crlf ++
    ascii "--", ?_, by simp [multipart]⟩
  simp [closingAt, openingAt, crlf, ascii]
  omega

/-- The second search finds the closing delimiter. -/
theorem Upload.findClosing (u : Upload) (rest : List UInt8) :
    findNeedle ((u.body ++ rest).drop (openingAt + u.boundary.length))
        (u.body.length - (openingAt + u.boundary.length : ℕ)) u.boundary =
      (closingAt u.boundary u.lines u.content - (openingAt + u.boundary.length) : ℕ) := by
  have hlength := length_multipart u.boundary u.content u.lines
  have hbody : u.body.length = _ := hlength
  have hle : openingAt + u.boundary.length ≤ closingAt u.boundary u.lines u.content := by
    unfold closingAt
    omega
  refine findNeedle_eq u.boundary_ne (by omega) ?_ ?_
  · obtain ⟨front, hfront, hsplit⟩ := multipart_closing u.boundary u.content u.lines
    rw [List.drop_drop, Nat.add_sub_cancel' hle, ← hfront, Upload.body, hsplit,
      List.append_assoc, List.drop_left, List.append_assoc]
    exact List.prefix_append _ _
  · intro j hj hstarts
    rw [List.drop_drop] at hstarts
    refine u.closing _ (by omega) (by omega) (prefix_drop_append ?_ hstarts)
    rw [hlength]
    omega

/-! ## The header -/

/-- Bytes in front of a buffer move what a scan finds in it. -/
theorem headerEnd_append (front rest : List UInt8) (len j : ℕ) :
    headerEnd (front ++ rest) len (front.length + j) =
      (headerEnd rest (len - front.length) j).map (front.length + ·) := by
  have hbyte (k : ℕ) : (front ++ rest).getD (front.length + k) 0 = rest.getD k 0 := by
    rw [List.getD_eq_getElem?_getD, List.getD_eq_getElem?_getD,
      List.getElem?_append_right (Nat.le_add_right _ _), Nat.add_sub_cancel_left]
  have hroom (k : ℕ) : front.length + j + k < len ↔ j + k < len - front.length := by omega
  unfold headerEnd
  rw [Nat.add_assoc, Nat.add_assoc, hbyte, hbyte, hbyte, ← Nat.add_assoc, ← Nat.add_assoc]
  simp only [hroom]
  split_ifs <;> simp [Nat.add_assoc]

/-- A line that is not empty, with the LF before it and the CR behind it, does not end a
header. -/
theorem headerEnd_line {line : List UInt8} (hne : line ≠ [])
    (htext : ∀ b ∈ line, b ≠ CR ∧ b ≠ LF ∧ b ≠ 0) (rest : List UInt8) (len : ℕ) {j : ℕ}
    (hj : j < line.length + 2) : headerEnd (LF :: (line ++ [CR]) ++ rest) len j = none := by
  obtain ⟨b, line, rfl⟩ := List.exists_cons_of_ne_nil hne
  obtain ⟨hcr, hlf, -⟩ := htext b (by simp)
  cases j with
  | zero => simp [headerEnd, hcr, hlf]
  | succ j =>
    refine headerEnd_of_ne ?_
    have hlt : j < (b :: line ++ [CR]).length := by
      rw [List.length_append]
      exact Nat.lt_of_succ_lt_succ hj
    have hbyte : (LF :: (b :: line ++ [CR]) ++ rest).getD (j + 1) 0 = (b :: line ++ [CR])[j] := by
      rw [List.cons_append, List.getD_cons_succ, List.getD_eq_getElem?_getD,
        List.getElem?_append_left hlt, List.getElem?_eq_getElem hlt]
      rfl
    rw [hbyte]
    have hmem : (b :: line ++ [CR])[j] ∈ b :: line ++ [CR] := List.getElem_mem hlt
    rcases List.mem_append.mp hmem with hline | hlast
    · exact (htext _ hline).2.1
    · rw [List.mem_singleton.mp hlast]
      decide

theorem headerBlock_cons (line : List UInt8) (lines : List (List UInt8)) :
    headerBlock (line :: lines) = line ++ crlf ++ headerBlock lines := by
  simp [headerBlock]

/-- From the line end before them on, part headers end at the blank line behind them and
nowhere else before. -/
theorem headerEnd_headerBlock {lines : List (List UInt8)} (hne : ∀ line ∈ lines, line ≠ [])
    (htext : ∀ line ∈ lines, ∀ b ∈ line, b ≠ CR ∧ b ≠ LF ∧ b ≠ 0) (rest : List UInt8) :
    (∀ len, ∀ j < (headerBlock lines).length,
      headerEnd (LF :: (headerBlock lines ++ (crlf ++ rest))) len j = none) ∧
    ∀ len,
      headerEnd (LF :: (headerBlock lines ++ (crlf ++ rest))) len (headerBlock lines).length =
        (if (headerBlock lines).length + 2 < len then some ((headerBlock lines).length + 3)
          else none) ∧
      headerEnd (LF :: (headerBlock lines ++ (crlf ++ rest))) len
        ((headerBlock lines).length + 1) = none := by
  induction lines with
  | nil =>
    refine ⟨fun len j hj => absurd hj (Nat.not_lt_zero _), fun len => ?_⟩
    simp [headerBlock, headerEnd, crlf, CR, LF]
  | cons line lines ih =>
    obtain ⟨hbefore, hend⟩ := ih (fun l hl => hne l (List.mem_cons_of_mem _ hl))
      fun l hl => htext l (List.mem_cons_of_mem _ hl)
    have hsplit : LF :: (headerBlock (line :: lines) ++ (crlf ++ rest)) =
        LF :: (line ++ [CR]) ++ LF :: (headerBlock lines ++ (crlf ++ rest)) := by
      simp [headerBlock_cons, crlf]
    have hlength : (headerBlock (line :: lines)).length =
        (LF :: (line ++ [CR])).length + (headerBlock lines).length := by
      simp [headerBlock_cons, crlf]
      omega
    rw [hsplit, hlength]
    constructor
    · intro len j hj
      by_cases hlt : j < line.length + 2
      · exact headerEnd_line (hne line (by simp)) (htext line (by simp)) _ len hlt
      · have hfront : (LF :: (line ++ [CR])).length = line.length + 2 := by simp
        rw [show j = (LF :: (line ++ [CR])).length + (j - (line.length + 2)) by omega,
          headerEnd_append, hbefore _ _ (by omega), Option.map_none]
    · intro len
      obtain ⟨hblank, hafter⟩ := hend (len - (LF :: (line ++ [CR])).length)
      rw [Nat.add_assoc (LF :: (line ++ [CR])).length _ 1, headerEnd_append, headerEnd_append,
        hblank, hafter]
      refine ⟨?_, rfl⟩
      split_ifs <;> first | rfl | omega

/-- The part of the body that the header scan gets, from the line end behind the opening
delimiter on. -/
def Upload.part (u : Upload) : List UInt8 := crlf ++ (u.headers ++ (crlf ++ u.content))

theorem Upload.length_part (u : Upload) :
    u.part.length = u.headers.length + 4 + u.content.length := by
  simp [Upload.part, crlf]
  omega

/-- What the scan finds at each place of the part, up to the blank line. -/
theorem Upload.headerEnd_part (u : Upload) (rest : List UInt8) (len : ℕ) :
    (∀ j < u.headers.length + 1, headerEnd (u.part ++ rest) len j = none) ∧
    headerEnd (u.part ++ rest) len (u.headers.length + 1) =
      (if u.headers.length + 3 < len then some (u.headers.length + 4) else none) ∧
    headerEnd (u.part ++ rest) len (u.headers.length + 2) = none := by
  obtain ⟨hbefore, hend⟩ := headerEnd_headerBlock u.line_ne u.line_text (u.content ++ rest)
  obtain ⟨hblank, hafter⟩ := hend (len - 1)
  have hsplit : u.part ++ rest =
      [CR] ++ LF :: (headerBlock u.lines ++ (crlf ++ (u.content ++ rest))) := by
    simp [Upload.part, Upload.headers, crlf]
  -- the CR moves everything by one
  have hmove (j : ℕ) : headerEnd (u.part ++ rest) len (j + 1) =
      (headerEnd (LF :: (headerBlock u.lines ++ (crlf ++ (u.content ++ rest)))) (len - 1) j).map
        (1 + ·) := by
    rw [hsplit, Nat.add_comm j 1]
    exact headerEnd_append [CR] _ len j
  refine ⟨fun j hj => ?_, ?_, ?_⟩
  · cases j with
    | zero =>
      refine headerEnd_of_ne ?_
      rw [hsplit, List.cons_append, List.getD_cons_zero]
      decide
    | succ j =>
      have hlt : j < (headerBlock u.lines).length := Nat.lt_of_succ_lt_succ hj
      rw [hmove, hbefore _ j hlt, Option.map_none]
  · rw [hmove]
    unfold Upload.headers
    rw [hblank]
    split_ifs <;> first | rfl | omega | (rw [Option.map_some, Nat.add_comm 1])
  · rw [hmove (u.headers.length + 1)]
    unfold Upload.headers
    rw [hafter, Option.map_none]

/-- The scan stops behind the blank line, when that is within its bound. -/
theorem Upload.headerScan_part (u : Upload) (rest : List UInt8)
    (hmax : u.headers.length + 3 < HEADER_MAX) :
    headerScan (u.part ++ rest) u.part.length = (u.headers.length + 4 : ℕ) := by
  have hlength := u.length_part
  obtain ⟨hbefore, hend, -⟩ :=
    u.headerEnd_part rest (min (u.part.length : Int).toNat HEADER_MAX)
  rw [if_pos (by omega)] at hend
  exact headerScan_eq (by omega) (by omega) hend hbefore

/-- The scan finds nothing when the blank line is behind its bound. -/
theorem Upload.headerScan_part_of_le (u : Upload) (rest : List UInt8)
    (hmax : HEADER_MAX ≤ u.headers.length + 3) :
    headerScan (u.part ++ rest) u.part.length = -1 := by
  obtain ⟨hbefore, hend, hafter⟩ :=
    u.headerEnd_part rest (min (u.part.length : Int).toNat HEADER_MAX)
  rw [if_neg (by omega)] at hend
  have hnone : first (min (u.part.length : Int).toNat HEADER_MAX)
      (headerEnd (u.part ++ rest) (min (u.part.length : Int).toNat HEADER_MAX)) = none := by
    refine first_eq_none_iff.mpr fun j hj => ?_
    rcases Nat.lt_trichotomy j (u.headers.length + 1) with hlt | rfl | hgt
    · exact hbefore j hlt
    · exact hend
    · rw [show j = u.headers.length + 2 by omega]
      exact hafter
  unfold headerScan
  rw [if_neg (by omega)]
  dsimp only
  rw [hnone]

/-! ## The lines as strings -/

/-- The part headers after `split_header`. -/
def splitBlock (lines : List (List UInt8)) : List UInt8 := (lines.map (· ++ [0, 0])).flatten

theorem map_splitByte_line {line : List UInt8} (htext : ∀ b ∈ line, b ≠ CR ∧ b ≠ LF ∧ b ≠ 0) :
    line.map splitByte = line := by
  refine (List.map_congr_left fun b hb => ?_).trans (List.map_id line)
  obtain ⟨hcr, hlf, -⟩ := htext b hb
  simp [splitByte, hcr, hlf]

theorem map_splitByte_headerBlock {lines : List (List UInt8)}
    (htext : ∀ line ∈ lines, ∀ b ∈ line, b ≠ CR ∧ b ≠ LF ∧ b ≠ 0) :
    (headerBlock lines).map splitByte = splitBlock lines := by
  induction lines with
  | nil => rfl
  | cons line lines ih =>
    have hrest := ih fun l hl => htext l (List.mem_cons_of_mem _ hl)
    have hline := map_splitByte_line (htext line (by simp))
    have hend : crlf.map splitByte = [0, 0] := by decide
    rw [headerBlock_cons, List.map_append, List.map_append, hline, hend, hrest]
    simp [splitBlock]

/-- One turn of the loop of `header_value`, past a string that does not start with the
key. -/
theorem headerValueLoop_skip {buffer key line rest : List UInt8} {limit fuel lineIndex : ℕ}
    (hkey : (0 : UInt8) ∉ key) (hline : (0 : UInt8) ∉ line) (hnot : ¬ key <+: line)
    (hat : buffer.drop lineIndex = line ++ 0 :: rest) (hlt : lineIndex + line.length < limit) :
    headerValueLoop buffer key limit (fuel + 1) lineIndex =
      headerValueLoop buffer key limit fuel (lineIndex + line.length + 1) := by
  have hskip : skipLine buffer limit lineIndex = lineIndex + line.length := by
    rw [skipLine, hat, takeWhile_append_cons hline]
    omega
  have hmiss : ¬ key.isPrefixOf (buffer.drop lineIndex) := by
    rwa [List.isPrefixOf_iff_prefix, hat, prefix_append_cons_iff hkey]
  rw [headerValueLoop, if_pos (by omega), if_neg hmiss, hskip]

theorem splitBlock_cons (line : List UInt8) (lines : List (List UInt8)) :
    splitBlock (line :: lines) = line ++ 0 :: ([] ++ 0 :: splitBlock lines) := by
  simp [splitBlock]

theorem splitBlock_append (before after : List (List UInt8)) :
    splitBlock (before ++ after) = splitBlock before ++ splitBlock after := by
  simp [splitBlock]

/-- The loop of `header_value` gets past lines that do not start with the key, in two
turns each. -/
theorem headerValueLoop_lines {buffer key rest : List UInt8} {limit : ℕ}
    (hne : key ≠ []) (hkey : (0 : UInt8) ∉ key) {lines : List (List UInt8)}
    (htext : ∀ line ∈ lines, (0 : UInt8) ∉ line) (hnot : ∀ line ∈ lines, ¬ key <+: line)
    (fuel : ℕ) {lineIndex : ℕ} (hat : buffer.drop lineIndex = splitBlock lines ++ rest)
    (hlt : lineIndex + (splitBlock lines).length ≤ limit) :
    headerValueLoop buffer key limit (2 * lines.length + fuel) lineIndex =
      headerValueLoop buffer key limit fuel (lineIndex + (splitBlock lines).length) := by
  induction lines generalizing lineIndex with
  | nil => simp [splitBlock]
  | cons line lines ih =>
    have hempty : ¬ key <+: [] := fun h => hne (List.prefix_nil.mp h)
    have hlength : (splitBlock (line :: lines)).length =
        line.length + 1 + 1 + (splitBlock lines).length := by
      simp [splitBlock_cons]
      omega
    rw [splitBlock_cons, List.append_assoc, List.cons_append, List.append_assoc,
      List.cons_append] at hat
    -- behind the line stands the second zero of its line end
    have hsecond : buffer.drop (lineIndex + line.length + 1) =
        [] ++ 0 :: (splitBlock lines ++ rest) := by
      rw [Nat.add_assoc, ← List.drop_drop, hat, ← List.drop_drop, List.drop_left]
      rfl
    have hnext : buffer.drop (lineIndex + line.length + 1 + 1) = splitBlock lines ++ rest := by
      rw [← List.drop_drop, hsecond]
      rfl
    rw [show 2 * (line :: lines).length + fuel = 2 * lines.length + fuel + 1 + 1 by simp; omega,
      headerValueLoop_skip hkey (htext line (by simp)) (hnot line (by simp)) hat (by omega),
      headerValueLoop_skip hkey (by simp) hempty hsecond (by simp; omega), List.length_nil,
      Nat.add_zero, ih (fun l hl => htext l (List.mem_cons_of_mem _ hl))
        (fun l hl => hnot l (List.mem_cons_of_mem _ hl)) hnext (by omega), hlength]
    congr 1
    omega

theorem two_mul_le_splitBlock (lines : List (List UInt8)) :
    2 * lines.length ≤ (splitBlock lines).length := by
  induction lines with
  | nil => simp
  | cons line lines ih =>
    simp [splitBlock_cons]
    omega

/-- `header_value` finds the first line that starts with the key. -/
theorem headerValue_lines {key line rest : List UInt8} (hkey : (0 : UInt8) ∉ key)
    (hne : key ≠ []) {before : List (List UInt8)} (htext : ∀ line ∈ before, (0 : UInt8) ∉ line)
    (hnot : ∀ line ∈ before, ¬ key <+: line) (hline : key <+: line) {len : ℕ}
    (hlen : (splitBlock before).length + line.length < len) :
    headerValue (splitBlock before ++ (line ++ rest)) len key =
      ((splitBlock before).length + key.length : ℕ) := by
  have hle := hline.length_le
  have hcount := two_mul_le_splitBlock before
  have hlimit : ((len : Int) - key.length).toNat = len - key.length := by omega
  obtain ⟨fuel, hfuel⟩ : ∃ fuel, len - key.length = 2 * before.length + (fuel + 1) :=
    ⟨len - key.length - 2 * before.length - 1, by omega⟩
  have hhit : key.isPrefixOf
      ((splitBlock before ++ (line ++ rest)).drop (splitBlock before).length) = true := by
    rw [List.isPrefixOf_iff_prefix, List.drop_left]
    exact hline.trans (List.prefix_append _ _)
  have hloop := headerValueLoop_lines hne hkey htext hnot (fuel + 1)
    (show (splitBlock before ++ (line ++ rest)).drop 0 = _ from rfl)
    (show 0 + (splitBlock before).length ≤ len - key.length by omega)
  rw [Nat.zero_add, ← hfuel] at hloop
  unfold headerValue
  rw [hlimit]
  dsimp only
  rw [hloop, headerValueLoop, if_pos (by omega), if_pos hhit]
  exact (Int.natCast_add _ _).symm

/-! ## The name of the file -/

/-- `strstr` finds `filename=` behind the name of the form field. -/
theorem strstr_disposition (rest : List UInt8) :
    strstr (dispositionValue ++ rest) (ascii "filename=") = some 30 := by
  have hnot : ∀ i < 30, ¬ ascii "filename=" <+: dispositionValue.drop i := by decide
  have hat : ascii "filename=" <+: dispositionValue.drop 30 := by decide
  have hlength : dispositionValue.length = 40 := by decide
  have hkey : (ascii "filename=").length = 9 := by decide
  refine first_eq_some_iff.mpr ⟨30, by simp [hlength]; omega, if_pos ?_, fun j hj => if_neg ?_⟩
  · rw [List.isPrefixOf_iff_prefix, List.drop_append_of_le_length (by omega)]
    exact hat.trans (List.prefix_append _ _)
  · rw [List.isPrefixOf_iff_prefix]
    exact fun h => hnot j hj (prefix_drop_append (by omega) h)

/-- The name loses its quotes. -/
theorem cutFilename_quoted (front rest : List UInt8) {filename : List UInt8}
    (htext : ∀ b ∈ filename, b ≠ 34 ∧ b ≠ 59 ∧ b ≠ CR ∧ b ≠ LF ∧ b ≠ 0) :
    cutFilename (front ++ 34 :: (filename ++ 34 :: 0 :: rest)) front.length =
      some (front ++ 34 :: (filename ++ 0 :: 0 :: rest), filename) := by
  have hzero : (0 : UInt8) ∉ filename := fun h => (htext 0 h).2.2.2.2 rfl
  -- the field with its quotes, which no semicolon cuts
  have hfield : stringAt (front ++ 34 :: (filename ++ 34 :: 0 :: rest)) front.length =
      some (34 :: filename ++ [34]) := by
    rw [show (34 : UInt8) :: (filename ++ 34 :: 0 :: rest) =
      (34 :: filename ++ [34]) ++ 0 :: rest by simp]
    exact cString_append (by simp [hzero]) rfl
  have hwhole : (34 :: filename ++ [34]).takeWhile (· ≠ 59) = 34 :: filename ++ [34] := by
    refine List.takeWhile_eq_self_iff.mpr fun b hb => ?_
    rcases List.mem_append.mp hb with hb | hb
    · rcases List.mem_cons.mp hb with rfl | hb
      · decide
      · exact decide_eq_true (htext b hb).2.1
    · rw [List.mem_singleton.mp hb]
      decide
  have hcut : writeAt (front ++ 34 :: (filename ++ 34 :: 0 :: rest))
      (front.length + (34 :: filename ++ [34]).length : ℕ) 0 =
      some (front ++ 34 :: (filename ++ 34 :: 0 :: rest)) := by
    rw [show front ++ 34 :: (filename ++ 34 :: 0 :: rest) =
      (front ++ (34 :: filename ++ [34])) ++ 0 :: rest by simp]
    exact writeAt_append 0 0 (by simp)
  have hopen : readAt (front ++ 34 :: (filename ++ 34 :: 0 :: rest)) front.length = some 34 :=
    readAt_append 34 rfl
  -- behind the opening quote
  have hopened : stringAt (front ++ 34 :: (filename ++ 34 :: 0 :: rest)) (front.length + 1) =
      some (filename ++ [34]) := by
    rw [show front ++ 34 :: (filename ++ 34 :: 0 :: rest) =
      (front ++ [34]) ++ ((filename ++ [34]) ++ 0 :: rest) by simp]
    exact cString_append (by simp [hzero]) (by simp)
  have hlast : ((front.length + 1 : ℕ) : Int) + (filename ++ [34]).length - 1 =
      (front ++ 34 :: filename).length := by
    simp
    omega
  have hsplit : front ++ 34 :: (filename ++ 34 :: 0 :: rest) =
      (front ++ 34 :: filename) ++ 34 :: 0 :: rest := by simp
  have hclose : readAt (front ++ 34 :: (filename ++ 34 :: 0 :: rest))
      (front ++ 34 :: filename).length = some 34 := by
    rw [hsplit]
    exact readAt_append 34 rfl
  have hclosed : writeAt (front ++ 34 :: (filename ++ 34 :: 0 :: rest))
      (front ++ 34 :: filename).length 0 = some (front ++ 34 :: (filename ++ 0 :: 0 :: rest)) := by
    rw [hsplit, writeAt_append 34 0 rfl]
    simp
  have hname : stringAt (front ++ 34 :: (filename ++ 0 :: 0 :: rest)) (front.length + 1) =
      some filename := by
    rw [show front ++ 34 :: (filename ++ 0 :: 0 :: rest) =
      (front ++ [34]) ++ (filename ++ 0 :: 0 :: rest) by simp]
    exact cString_append hzero (by simp)
  simp only [cutFilename, hfield, hwhole, hcut, hopen, hopened, hlast, hclose, hclosed, hname,
    Option.bind_eq_bind, Option.bind_some, ↓reduceIte]

/-- A user who confirms ends the loop. -/
theorem confirm_of_confirms {before : List (List UInt8)} {yes : List UInt8}
    (rest : List (List UInt8)) {failed : ℕ} (hle : failed + before.length ≤ 5)
    (hbefore : ∀ answer ∈ before, ¬ ascii "no" <+: answer ∧ ¬ ascii "yes" <+: answer)
    (hyes : ascii "yes" <+: yes) : confirm failed (before ++ yes :: rest) = none := by
  induction before generalizing failed with
  | nil =>
    have hno : ¬ ascii "no" <+: yes := by
      rintro ⟨t, rfl⟩
      obtain ⟨t', ht'⟩ := hyes
      simp [ascii] at ht'
    rw [List.nil_append, confirm, if_neg (by simpa using hle), if_neg, if_pos]
    · rwa [List.isPrefixOf_iff_prefix]
    · rwa [List.isPrefixOf_iff_prefix]
  | cons answer before ih =>
    obtain ⟨hno, hnotYes⟩ := hbefore answer (by simp)
    rw [List.length_cons] at hle
    rw [List.cons_append, confirm, if_neg (by omega), if_neg, if_neg]
    · exact ih (by omega) fun a ha => hbefore a (List.mem_cons_of_mem _ ha)
    · rwa [List.isPrefixOf_iff_prefix]
    · rwa [List.isPrefixOf_iff_prefix]

/-! ## The round trip -/

/-- The line that names the file, and the lines before and behind it. -/
theorem Upload.lines_eq (u : Upload) :
    ∃ before after, u.lines = before ++ disposition u.filename :: after ∧
      ∀ line ∈ before, ¬ dispositionKey <+: line := by
  obtain ⟨before, after, hlines, hbefore, -, -⟩ := List.filter_eq_cons_iff.mp u.named
  refine ⟨before, after, hlines, fun line hline => ?_⟩
  rw [← List.isPrefixOf_iff_prefix]
  exact hbefore line hline

/-- The body around the part that the header scan gets. -/
theorem Upload.body_eq (u : Upload) :
    ∃ tail, u.body = ascii "--" ++ u.boundary ++ (u.part ++ CR :: tail) :=
  ⟨LF :: (ascii "--" ++ u.boundary ++ ascii "--" ++ crlf), by
    simp [Upload.body, multipart, Upload.part, Upload.headers, crlf]⟩

theorem length_headerBlock (lines : List (List UInt8)) :
    (headerBlock lines).length = (splitBlock lines).length := by
  induction lines with
  | nil => rfl
  | cons line lines ih =>
    simp [headerBlock_cons, splitBlock_cons, crlf, ih]

/-- The memory behind the opening delimiter once `split_header` has run. -/
theorem Upload.splitHeader_part (u : Upload) (front rest : List UInt8) :
    splitHeader (front ++ (u.part ++ rest)) front.length (u.headers.length + 4) =
      front ++ (splitBlock ([] :: u.lines) ++ (0 :: 0 :: (u.content ++ rest))) := by
  have hend : crlf.map splitByte = [0, 0] := by decide
  have hlength : u.headers.length + 4 = (crlf ++ (u.headers ++ crlf)).length := by
    simp [crlf]
  have hsplit : u.part ++ rest = crlf ++ (u.headers ++ crlf) ++ (u.content ++ rest) := by
    simp [Upload.part]
  rw [hsplit, hlength, splitHeader_append, List.map_append, List.map_append, hend, Upload.headers,
    map_splitByte_headerBlock u.line_text]
  simp [splitBlock]

/-- After `split_header`, `parse_http_content` finds the name of the file and stores the
content under it. -/
theorem Upload.nameAndStore (u : Upload) (user : User) (hconfirms : user.Confirms)
    (hopen : user.canOpen u.filename) (front rest : List UInt8) :
    let block := front ++ (splitBlock ([] :: u.lines) ++ (0 :: 0 :: (u.content ++ 0 :: rest)))
    ∃ value block',
      headerValue (block.drop front.length) (u.headers.length + 4 : ℕ) dispositionKey =
        (value : ℕ) ∧
      stringAt block (front.length + value) = some (dispositionValue ++ (u.filename ++ [34])) ∧
      cutFilename block (front.length + value + 30 + 9) = some (block', u.filename) ∧
      storeFile user block' u.filename (front.length + (u.headers.length + 4))
        u.content.length = { message := none, saved := some (u.filename, u.content) } := by
  obtain ⟨before, after, hlines, hbefore⟩ := u.lines_eq
  obtain ⟨q, hq, hvalue⟩ : ∃ q, dispositionValue = q ++ [34] ∧ q.length = 39 :=
    ⟨dispositionValue.take 39, by decide, by decide⟩
  have hzero : ∀ line ∈ u.lines, (0 : UInt8) ∉ line := fun line hline h =>
    (u.line_text line hline 0 h).2.2 rfl
  -- the memory around the name of the file
  set S := splitBlock ([] :: before) with hS
  set T := 0 :: (splitBlock after ++ 0 :: 0 :: (u.content ++ 0 :: rest)) with hT
  have hmemory : splitBlock ([] :: u.lines) ++ (0 :: 0 :: (u.content ++ 0 :: rest)) =
      S ++ (disposition u.filename ++ 0 :: T) := by
    rw [hlines, hS, hT, ← List.cons_append, splitBlock_append, splitBlock_cons (disposition _)]
    simp
  have hlength : u.headers.length + 4 =
      S.length + (disposition u.filename).length + 2 + (splitBlock after).length + 2 := by
    rw [Upload.headers, length_headerBlock, hlines, hS, splitBlock_append,
      splitBlock_cons (disposition _), splitBlock_cons []]
    simp
    omega
  dsimp only
  rw [hmemory]
  refine ⟨S.length + dispositionKey.length,
    front ++ (S ++ (dispositionKey ++ q)) ++
      34 :: (u.filename ++ 0 :: 0 :: T), ?_, ?_, ?_, ?_⟩
  · rw [List.drop_left]
    have hstarts : dispositionKey <+: disposition u.filename := List.prefix_append _ _
    have hfits : (splitBlock ([] :: before)).length + (disposition u.filename).length <
        u.headers.length + 4 := by
      rw [← hS]
      omega
    refine headerValue_lines (by decide) (by decide) ?_ ?_ hstarts hfits
    · intro line hline
      rcases List.mem_cons.mp hline with rfl | hline
      · simp
      · exact hzero line (by simp [hlines, hline])
    · intro line hline
      rcases List.mem_cons.mp hline with rfl | hline
      · decide
      · exact hbefore line hline
  · have hnot : (0 : UInt8) ∉ dispositionValue ++ (u.filename ++ [34]) := fun h =>
      hzero (disposition u.filename) (by simp [hlines]) (by simp [disposition, h])
    rw [show front ++ (S ++ (disposition u.filename ++ 0 :: T)) =
      (front ++ (S ++ dispositionKey)) ++ ((dispositionValue ++ (u.filename ++ [34])) ++ 0 :: T)
      by simp [disposition]]
    exact cString_append hnot (by simp)
  · rw [show front ++ (S ++ (disposition u.filename ++ 0 :: T)) =
      (front ++ (S ++ (dispositionKey ++ q))) ++
        34 :: (u.filename ++ 34 :: 0 :: T) by
        unfold disposition
        rw [hq]
        simp]
    have hat : front.length + (S.length + dispositionKey.length) + 30 + 9 =
        (front ++ (S ++ (dispositionKey ++ q))).length := by
      simp [hvalue]
      omega
    rw [hat]
    exact cutFilename_quoted _ T u.filename_text
  · obtain ⟨before', yes, rest', hanswers, hle, hnot, hyes⟩ := hconfirms
    have hconfirm : confirm 0 user.answers = none := by
      rw [hanswers]
      exact confirm_of_confirms rest' (by omega) hnot hyes
    have hstored : front ++ (S ++ (dispositionKey ++ q)) ++
        34 :: (u.filename ++ 0 :: 0 :: T) =
        (front ++ (S ++ (dispositionKey ++ q)) ++
          34 :: (u.filename ++ 0 :: 0 :: 0 :: (splitBlock after ++ [0, 0]))) ++
          (u.content ++ 0 :: rest) := by
      simp [hT]
    have hat : front.length + (u.headers.length + 4) =
        (front ++ (S ++ (dispositionKey ++ q)) ++
          34 :: (u.filename ++ 0 :: 0 :: 0 :: (splitBlock after ++ [0, 0]))).length := by
      rw [hlength]
      simp [disposition, hq, hvalue]
      omega
    rw [storeFile, hconfirm]
    dsimp only
    rw [if_pos hopen, hstored, hat, List.drop_left, List.take_left]

/-- The delimiters of the body, and the part between them. -/
theorem Upload.delimiters (u : Upload) (user : User) (front back : List UInt8) :
    ∃ front' rest, parseHttpContent user (front ++ (u.body ++ back)) front.length u.body.length
        u.boundary =
      parsePart user (front' ++ (u.part ++ 0 :: rest)) front'.length u.part.length := by
  obtain ⟨tail, hbody⟩ := u.body_eq
  have hpart := u.length_part
  have hclosing : closingAt u.boundary u.lines u.content =
      openingAt + u.boundary.length + u.part.length + 4 := by
    rw [hpart]
    unfold closingAt Upload.headers
    omega
  have hfirst := u.findOpening back
  have hsecond := u.findClosing back
  rw [hclosing] at hsecond
  set front' := front ++ (ascii "--" ++ u.boundary) with hfront'
  have hlength : front'.length = front.length + (openingAt + u.boundary.length) := by
    simp [hfront', openingAt, ascii]
    omega
  have hblock : front ++ (u.body ++ back) = (front' ++ u.part) ++ CR :: (tail ++ back) := by
    rw [hbody, hfront']
    simp
  refine ⟨front', tail ++ back, ?_⟩
  have hfound : findNeedle ((front ++ (u.body ++ back)).drop front.length) u.body.length
      u.boundary = openingAt := by
    rw [List.drop_left, hfirst]
  have hclose : findNeedle ((front ++ (u.body ++ back)).drop
      (front.length + (openingAt + u.boundary.length)))
      (u.body.length - (openingAt + u.boundary.length : ℕ)) u.boundary =
      (u.part.length + 4 : ℕ) := by
    rw [← List.drop_drop, List.drop_left, hsecond]
    congr 1
    omega
  have hat : (front.length : Int) + ((u.part.length + 4 : ℕ) +
      (openingAt + u.boundary.length : ℕ)) - 4 = (front' ++ u.part).length := by
    rw [List.length_append, hlength]
    omega
  have hread : readAt (front ++ (u.body ++ back)) (front' ++ u.part).length = some CR := by
    rw [hblock]
    exact readAt_append CR rfl
  have hcut : writeAt (front ++ (u.body ++ back)) (front' ++ u.part).length 0 =
      some (front' ++ (u.part ++ 0 :: (tail ++ back))) := by
    rw [hblock, writeAt_append CR 0 rfl, List.append_assoc]
  have hstop : (front.length : Int) + ((u.part.length + 4 : ℕ) +
      (openingAt + u.boundary.length : ℕ) - 4) = (front' ++ u.part).length := by
    rw [← hat]
    omega
  have hpartLength : ((u.part.length + 4 : ℕ) : Int) + (openingAt + u.boundary.length : ℕ) - 4 -
      (openingAt + u.boundary.length : ℕ) = u.part.length := by
    omega
  have hopening : ¬ ((openingAt : ℕ) : Int) = -1 := by omega
  have hclosing' : ¬ ((u.part.length + 4 : ℕ) : Int) = -1 := by omega
  simp only [parseHttpContent, hfound, if_neg hopening, Int.toNat_natCast, hclose,
    if_neg hclosing', hat, hread, Option.bind_eq_bind, Option.bind_some, ↓reduceIte, hstop, hcut,
    hpartLength, hlength]

/-- An upload whose part headers end within the bound of `header_scan` is undone:
`parse_http_content` opens the named file, writes the content to it, and returns
`NULL`. -/
theorem parseHttpContent_upload (u : Upload) (hmax : u.headers.length + 3 < HEADER_MAX)
    (user : User) (hconfirms : user.Confirms) (hopen : user.canOpen u.filename)
    (front back : List UInt8) :
    ∃ block', parseHttpContent user (front ++ (u.body ++ back)) front.length u.body.length
        u.boundary = some (block', { message := none, saved := some (u.filename, u.content) }) := by
  obtain ⟨front', rest, hparse⟩ := u.delimiters user front back
  have hscan : headerScan ((front' ++ (u.part ++ 0 :: rest)).drop front'.length) u.part.length =
      (u.headers.length + 4 : ℕ) := by
    rw [List.drop_left, u.headerScan_part _ hmax]
  have hsplit := u.splitHeader_part front' (0 :: rest)
  obtain ⟨value, block', hvalue, hfield, hcut, hstore⟩ :=
    u.nameAndStore user hconfirms hopen front' rest
  have hlength : ((u.part.length : Int) - (u.headers.length + 4 : ℕ)).toNat = u.content.length := by
    have hpart := u.length_part
    omega
  have hkey : (ascii "filename=").length = 9 := by decide
  have hnonneg (n : ℕ) : ¬ (n : Int) < 0 := by omega
  refine ⟨block', ?_⟩
  rw [hparse]
  unfold dispositionKey at hvalue
  simp only [parsePart, hscan, if_neg (hnonneg _), Int.toNat_natCast, hsplit, hvalue, hfield,
    Option.bind_eq_bind, Option.bind_some, strstr_disposition, hkey, hcut, hlength, hstore]

/-- With longer part headers it does not find their end. -/
theorem parseHttpContent_of_long (u : Upload) (hmax : HEADER_MAX ≤ u.headers.length + 3)
    (user : User) (front back : List UInt8) :
    ∃ block', parseHttpContent user (front ++ (u.body ++ back)) front.length u.body.length
        u.boundary = some (block', { message := some "No header found in content" }) := by
  obtain ⟨front', rest, hparse⟩ := u.delimiters user front back
  have hscan : headerScan ((front' ++ (u.part ++ 0 :: rest)).drop front'.length) u.part.length =
      -1 := by
    rw [List.drop_left, u.headerScan_part_of_le _ hmax]
  refine ⟨front' ++ (u.part ++ 0 :: rest), ?_⟩
  rw [hparse]
  simp only [parsePart, hscan]
  rfl

/-! ## Uploads with a header of any length -/

/-- One byte of a list. -/
theorem singleton_prefix_drop {b : UInt8} {l : List UInt8} {i : ℕ} (h : [b] <+: l.drop i) :
    l[i]? = some b := by
  obtain ⟨rest, hrest⟩ := h
  rw [← List.head?_drop, ← hrest]
  rfl

/-- The part headers of `fillerUpload`. -/
def fillerLines (k : ℕ) : List (List UInt8) := [disposition [97], List.replicate (k + 1) 120]

/-- The content of `fillerUpload`: an empty line and a zero. -/
def fillerContent : List UInt8 := [CR, LF, CR, LF, 0]

theorem not_mem_fillerLines (k : ℕ) : (66 : UInt8) ∉ headerBlock (fillerLines k) := by
  have hname : (66 : UInt8) ∉ disposition [97] := by decide
  have hend : (66 : UInt8) ∉ crlf := by decide
  intro h
  simp [fillerLines, headerBlock, hname, hend] at h

/-- The boundary is not in what stands between the two delimiters. -/
theorem filler_closing (k i : ℕ) (hle : openingAt + [(66 : UInt8)].length ≤ i)
    (hlt : i < closingAt [66] (fillerLines k) fillerContent) :
    ¬ [66] <+: (multipart [66] (fillerLines k) fillerContent).drop i := by
  intro h
  have hbyte := singleton_prefix_drop h
  -- the bytes between the two boundaries
  set middle := crlf ++ headerBlock (fillerLines k) ++ crlf ++ fillerContent ++ crlf ++
    ascii "--" with hmiddle
  have hnot : (66 : UInt8) ∉ middle := by
    have hheaders := not_mem_fillerLines k
    simp [hmiddle, crlf, CR, LF, fillerContent, ascii, hheaders]
  have hsplit : multipart [66] (fillerLines k) fillerContent =
      ascii "--" ++ [66] ++ (middle ++ ([66] ++ ascii "--" ++ crlf)) := by
    simp [multipart, hmiddle]
  have hlength : closingAt [66] (fillerLines k) fillerContent = 3 + middle.length := by
    simp [closingAt, openingAt, hmiddle, crlf, ascii]
    omega
  have hfront : (ascii "--" ++ [(66 : UInt8)]).length = 3 := by decide
  have hlow : 3 ≤ i := hle
  rw [hsplit, List.getElem?_append_right (by omega), hfront,
    List.getElem?_append_left (by omega)] at hbyte
  exact hnot (List.mem_of_getElem? hbyte)

/-- An upload of a file `a` with boundary `B`, and `k + 1` letters `x` in its headers. -/
def fillerUpload (k : ℕ) : Upload where
  content := fillerContent
  boundary := [66]
  filename := [97]
  lines := fillerLines k
  boundary_ne := by decide
  boundary_text := by
    intro b hb
    rw [List.mem_singleton.mp hb]
    decide
  filename_ne := by decide
  filename_text := by
    intro b hb
    rw [List.mem_singleton.mp hb]
    decide
  line_ne := by
    intro line hline
    rcases List.mem_cons.mp hline with rfl | hline
    · decide
    · simp [List.mem_singleton.mp hline]
  line_text := by
    intro line hline
    rcases List.mem_cons.mp hline with rfl | hline
    · have hall : (disposition [97]).all (fun b => b ≠ CR ∧ b ≠ LF ∧ b ≠ 0) = true := by decide
      simpa using hall
    · intro b hb
      rw [List.mem_singleton.mp hline] at hb
      rw [List.eq_of_mem_replicate hb]
      decide
  named := by
    have hname : dispositionKey.isPrefixOf (disposition [97]) = true := by decide
    have hfiller : dispositionKey.isPrefixOf (List.replicate (k + 1) (120 : UInt8)) = false := by
      rw [List.replicate_succ]
      rfl
    simp [fillerLines, hname, hfiller]
  opening := by
    intro i hi h
    have hbyte := singleton_prefix_drop h
    have hsmall : i = 0 ∨ i = 1 := by
      unfold openingAt at hi
      omega
    rcases hsmall with rfl | rfl <;> simp [multipart, ascii] at hbyte
  closing := filler_closing k

theorem length_fillerUpload (k : ℕ) : (fillerUpload k).headers.length = k + 68 := by
  have hname : (disposition [97]).length = 63 := by decide
  simp [Upload.headers, fillerUpload, fillerLines, headerBlock, crlf, hname]
  omega

/-- A user who says yes, and a file system that opens every file. -/
def willingUser : User := ⟨[ascii "yes\n"], fun _ => true⟩

theorem willingUser_confirms : willingUser.Confirms :=
  ⟨[], ascii "yes\n", [], rfl, by decide, by simp, by decide⟩

theorem parseHttpContent_upload_filler :
    ∃ block', parseHttpContent willingUser ([] ++ ((fillerUpload 0).body ++ [])) 0
      (fillerUpload 0).body.length [66] =
        some (block', { message := none, saved := some ([97], fillerContent) }) :=
  parseHttpContent_upload (fillerUpload 0)
    (by
      rw [length_fillerUpload]
      decide)
    willingUser willingUser_confirms rfl [] []

/-- The scan sees the blank line only when it ends before the bound, so part headers that
are a little shorter than the bound are not found. -/
theorem upload_long_headers :
    ¬ ∀ (u : Upload) (user : User) (front back : List UInt8), u.headers.length < HEADER_MAX →
      user.Confirms → user.canOpen u.filename →
      ∃ block', parseHttpContent user (front ++ (u.body ++ back)) front.length u.body.length
        u.boundary =
          some (block', { message := none, saved := some (u.filename, u.content) }) := by
  intro hall
  have hlength := length_fillerUpload 1048507
  have hbound : HEADER_MAX = 1048576 := rfl
  obtain ⟨block, hparse⟩ := hall (fillerUpload 1048507) willingUser [] [] (by omega)
    willingUser_confirms rfl
  obtain ⟨block', hlong⟩ :=
    parseHttpContent_of_long (fillerUpload 1048507) (by omega) willingUser [] []
  rw [hparse] at hlong
  simp at hlong

end EthTransfer
