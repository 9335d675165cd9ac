import EthTransfer.Http.Server
import Mathlib.Data.List.Basic

/-!
# The answers of the server

`send_http_message`, `send_http_upload_form`, `send_http_download_link` and
`send_http_file`, with what they hand to `write_tcp`, and the length that their header
states.

* `Truthful` says what a response should be: a header that ends in one blank line, with the
  number of the bytes behind it in its `Content-Length` field.
* `scanInt_intText`: `%d` is read back as it was printed.
* `truthful_page_iff`: the pages are truthful when the format gets their length.
* `sendChunks_written` and `sendChunks_ends`: the loop over the file writes what `fread`
  returns, until that is no less than `length`.
* `response_truthful_iff`: which responses are truthful.
-/

namespace EthTransfer

open Search

/-! ## Formats -/

/-- `%d` for a number that is not negative. -/
def decimal (n : ℕ) : List UInt8 := (Nat.toDigits 10 n).map fun c => UInt8.ofNat c.toNat

/-- `%d`. -/
def intText : Int → List UInt8
  | .ofNat n => decimal n
  | .negSucc n => 45 :: decimal (n + 1)

/-- Why a response is not sent to its end. -/
inductive Halt where
  /-- `sprintf` writes past the end of its buffer. -/
  | overflow
  /-- The loop over the file is still running. -/
  | runsOn
  deriving DecidableEq

/-- `sprintf` into a buffer of 1024 bytes. -/
def sprintf (text : List UInt8) : Except Halt (List UInt8) :=
  if text.length < 1024 then .ok text else .error .overflow

/-! ## Responses -/

/-- What is called on the connection of a response. -/
inductive Call where
  | writeTcp (data : List UInt8)
  | shutdownClose
  | fclose
  | ipStackPoll
  deriving DecidableEq

def sendResponse (response : List UInt8) : List Call := [.writeTcp response, .shutdownClose]

/-- The format of the pages, with the length that it gets. -/
def htmlResponse (length : Int) (content : List UInt8) : List UInt8 :=
  ascii "HTTP/1.1 200 OK\r\nContent-Length: " ++ intText length ++
    ascii "\r\nContent-Type: text/html\r\nConnection: closed\r\n\r\n" ++ content

def sendHttpMessage (message : List UInt8) : Except Halt (List Call) := do
  let content ← sprintf
    (ascii "<html><head></head><body>" ++ ascii "\n" ++ message ++ ascii "\n" ++
      ascii "</body></html>" ++ ascii "\n")
  let response ← sprintf (htmlResponse (content.length - 1) content)
  return sendResponse response

/-- The page with the form. -/
def formContent : List UInt8 :=
  ascii "<html><head></head><body>" ++ ascii "\n" ++
    ascii "<form enctype=\"multipart/form-data\" action=\"upload.html\" method=\"POST\">" ++
    ascii "\n" ++ ascii "Select file to upload<br>" ++ ascii "\n" ++
    ascii "<input type=\"submit\" value=\"Upload\" />" ++ ascii "\n" ++
    ascii "<input name=\"uploadfile\" type=\"file\"/><br/>" ++ ascii "\n" ++
    ascii "</form>" ++ ascii "\n" ++ ascii "</body></html>" ++ ascii "\n"

def sendHttpUploadForm : Except Halt (List Call) := do
  let content ← sprintf formContent
  let response ← sprintf (htmlResponse content.length content)
  return sendResponse response

def sendHttpDownloadLink (filename : List UInt8) : Except Halt (List Call) := do
  let message ← sprintf
    (ascii "<a href=\"" ++ filename ++ ascii "\">" ++ filename ++ ascii "</a>")
  sendHttpMessage message

/-- A file that `fopen` has opened: what `ftell` returns at its end, and what each call of
`fread` returns for a buffer of 4095 bytes. -/
structure File where
  length : Int
  length_ge : -1 ≤ length
  reads : ℕ → List UInt8
  reads_length : ∀ i, (reads i).length ≤ 4095

/-- The header of a file. -/
def fileHeader (length : Int) (filename : List UInt8) : List UInt8 :=
  ascii "HTTP/1.1 200 OK\r\nContent-Length: " ++ intText length ++
    ascii "\r\nContent-Type: application/octet-stream\r\n" ++
    ascii "Content-Disposition: attachment; filename=\"" ++ filename ++
    ascii "\"\r\nConnection: closed\r\n\r\n"

/-- The loop of `send_http_file` from call `i` of `fread` on.  `count` stays below 2^31, as
`length` is no more than 2^29. -/
def sendChunks (file : File) : (turns i : ℕ) → (count read : Int) → Except Halt (List Call)
  | turns, i, count, read =>
    if read ≥ 0 ∧ count < file.length then
      match turns with
      | 0 => .error .runsOn
      | turns + 1 => do
        let data := file.reads i
        let read : Int := data.length
        if read > 0 then
          let calls ← sendChunks file turns (i + 1) (count + read) read
          return .writeTcp data :: .ipStackPoll :: calls
        else
          let calls ← sendChunks file turns (i + 1) count read
          return .ipStackPoll :: calls
    else .ok []

/-- `send_http_file`, when its loop takes no more than `turns` turns.  `file` is what `fopen`
returns. -/
def sendHttpFile (turns : ℕ) (filename : List UInt8) (file : Option File) :
    Except Halt (List Call) :=
  match file with
  | none => sendHttpMessage (ascii "Unable to find file")
  | some file =>
    if file.length > 512 * 1024 * 1024 then do
      let calls ← sendHttpMessage (ascii "File is more than 512MB\n")
      return calls ++ [.fclose]
    else do
      let response ← sprintf (fileHeader file.length filename)
      let calls ← sendChunks file turns 0 0 0
      return .writeTcp response :: (calls ++ [.shutdownClose])

/-- A response of the server. -/
inductive Response where
  | message (text : List UInt8)
  | uploadForm
  | downloadLink (filename : List UInt8)
  | file (filename : List UInt8) (opened : Option File)

def Response.send (turns : ℕ) : Response → Except Halt (List Call)
  | .message text => sendHttpMessage text
  | .uploadForm => sendHttpUploadForm
  | .downloadLink filename => sendHttpDownloadLink filename
  | .file filename opened => sendHttpFile turns filename opened

/-- The buffers are large enough.  They are filled before the loop over the file, so the
number of turns does not count. -/
def Response.Fits (response : Response) : Prop := response.send 0 ≠ .error .overflow

instance (response : Response) : Decidable response.Fits :=
  inferInstanceAs (Decidable (response.send 0 ≠ .error .overflow))

/-- The bytes that are handed to `write_tcp`. -/
def sentBytes (calls : List Call) : List UInt8 :=
  calls.flatMap fun
    | .writeTcp data => data
    | _ => []

/-! ## The length in the header -/

def blankLine : List UInt8 := ascii "\r\n\r\n"

/-- The value of the first `Content-Length` field of a header. -/
def contentLength (header : List UInt8) : Option Int :=
  match strstr header (ascii "\r\nContent-Length: ") with
  | none => none
  | some i => scanInt (header.drop (i + 18))

/-- A header ends in its only blank line and states the number of the bytes behind it. -/
def Truthful (response : List UInt8) : Prop :=
  ∃ header body, response = header ++ body ∧ blankLine <:+ header ∧
    ¬ blankLine <:+: header.dropLast ∧ contentLength header = some (body.length : Int)

/-! ## Printed numbers -/

theorem isDigit_of_mem_toDigits {n : ℕ} {c : Char} (hc : c ∈ Nat.toDigits 10 n) :
    48 ≤ c.toNat ∧ c.toNat ≤ 57 := by
  have hdigit := Nat.isDigit_of_mem_toDigits (by decide) (by decide) hc
  simpa [Char.isDigit, UInt32.le_iff_toNat_le] using hdigit

theorem isDigit_of_mem_decimal {n : ℕ} {b : UInt8} (hb : b ∈ decimal n) : isDigit b = true := by
  obtain ⟨c, hc, rfl⟩ := List.mem_map.mp hb
  have hdigit := isDigit_of_mem_toDigits hc
  simp [isDigit, UInt8.le_iff_toNat_le]
  omega

theorem digitsValue_decimal (n : ℕ) : digitsValue (decimal n) = n := by
  have hcongr := List.foldl_ext (l := Nat.toDigits 10 n)
    (fun m c => 10 * m + ((UInt8.ofNat c.toNat).toNat - 48))
    (fun m c => 10 * m + (c.toNat - '0'.toNat)) 0 fun m c hc => by
      have hdigit := isDigit_of_mem_toDigits hc
      have hmod : c.toNat % 256 = c.toNat := Nat.mod_eq_of_lt (by omega)
      simp [hmod]
  rw [digitsValue, decimal, List.foldl_map, hcongr]
  exact Nat.ofDigitChars_ten_toDigits

/-- The digits of a number are all that is read of a line. -/
theorem takeWhile_decimal (n : ℕ) (rest : List UInt8) :
    (decimal n ++ CR :: rest).takeWhile isDigit = decimal n := by
  rw [List.takeWhile_append_of_pos fun b hb => isDigit_of_mem_decimal hb,
    List.takeWhile_cons_of_neg (by decide), List.append_nil]

/-- A digit is neither white space nor a sign. -/
theorem ne_of_isDigit {b : UInt8} (hb : isDigit b = true) :
    isSpace b = false ∧ b ≠ 45 ∧ b ≠ 43 := by
  refine ⟨?_, ?_, ?_⟩
  · simp [isDigit, isSpace, UInt8.le_iff_toNat_le, ← UInt8.toNat_inj] at hb ⊢
    omega
  · rintro rfl
    simp [isDigit] at hb
  · rintro rfl
    simp [isDigit] at hb

/-- A sign or none, and digits. -/
theorem scanInt_digits {sign : List UInt8} (hsign : sign = [] ∨ sign = [45]) (n : ℕ)
    (rest : List UInt8) :
    scanInt (sign ++ (decimal n ++ CR :: rest)) =
      some (max (-2147483648) (min 2147483647 (if sign = [] then (n : Int) else -n))) := by
  have hne : decimal n ≠ [] := by simp [decimal]
  obtain ⟨d, ds, hcons⟩ := List.exists_cons_of_ne_nil hne
  obtain ⟨hspace, hminus, hplus⟩ :=
    ne_of_isDigit (isDigit_of_mem_decimal (n := n) (b := d) (by simp [hcons]))
  have hdrop : (decimal n ++ CR :: rest).dropWhile isSpace = decimal n ++ CR :: rest := by
    rw [hcons, List.cons_append, List.dropWhile_cons_of_neg (by simp [hspace])]
  have hhead : (decimal n ++ CR :: rest).head? = some d := by simp [hcons]
  rcases hsign with rfl | rfl
  · simp only [List.nil_append, scanInt, hdrop, hhead, Option.some.injEq, hminus, hplus, or_self,
      if_false, takeWhile_decimal, hne, digitsValue_decimal, if_true]
  · have hdash : ([45] ++ (decimal n ++ CR :: rest)).dropWhile isSpace =
        45 :: (decimal n ++ CR :: rest) := List.dropWhile_cons_of_neg (by decide)
    simp only [scanInt, hdash, List.head?_cons, List.tail_cons, true_or, if_true,
      takeWhile_decimal, hne, digitsValue_decimal, if_false, List.cons_ne_nil]

/-- What `%d` prints is read back. -/
theorem scanInt_intText {n : Int} (hlow : -2147483648 ≤ n) (hhigh : n ≤ 2147483647)
    (rest : List UInt8) : scanInt (intText n ++ CR :: rest) = some n := by
  have hclip : max (-2147483648) (min 2147483647 n) = n := by omega
  cases n with
  | ofNat n =>
    have hread := scanInt_digits (.inl rfl) n rest
    simp only [if_true] at hread
    exact hread.trans (congrArg some hclip)
  | negSucc n =>
    have hread := scanInt_digits (.inr rfl) (n + 1) rest
    simp only [List.cons_ne_nil, if_false] at hread
    exact hread.trans (congrArg some hclip)

theorem isDigit_or_of_mem_intText {n : Int} {b : UInt8} (hb : b ∈ intText n) :
    isDigit b = true ∨ b = 45 := by
  cases n with
  | ofNat n => exact .inl (isDigit_of_mem_decimal hb)
  | negSucc n =>
    rcases List.mem_cons.mp hb with rfl | hb
    · exact .inr rfl
    · exact .inl (isDigit_of_mem_decimal hb)

/-! ## Headers -/

/-- A string is found at the same place when bytes are added behind. -/
theorem strstr_append {s needle : List UInt8} {i : ℕ} (h : strstr s needle = some i)
    (rest : List UInt8) : strstr (s ++ rest) needle = some i := by
  have hoccurs {j : ℕ} (hj : j + needle.length ≤ s.length) :
      needle.isPrefixOf ((s ++ rest).drop j) = needle.isPrefixOf (s.drop j) := by
    rw [List.drop_append_of_le_length (by omega), Bool.eq_iff_iff, List.isPrefixOf_iff_prefix,
      List.isPrefixOf_iff_prefix]
    constructor
    · intro hstarts
      exact List.prefix_of_prefix_length_le hstarts (List.prefix_append _ _)
        (by rw [List.length_drop]; omega)
    · exact fun hstarts => hstarts.trans (List.prefix_append _ _)
  obtain ⟨j, hj, hfound, hbefore⟩ := first_eq_some_iff.mp h
  have hat : needle.isPrefixOf (s.drop j) = true := by
    by_contra hnot
    simp [hnot] at hfound
  rw [if_pos hat] at hfound
  obtain rfl := Option.some.inj hfound
  have hlength := (List.isPrefixOf_iff_prefix.mp hat).length_le
  rw [List.length_drop] at hlength
  refine first_eq_some_iff.mpr ⟨j, by rw [List.length_append]; omega, ?_, fun k hk => ?_⟩
  · rw [hoccurs (by omega), if_pos hat]
  · rw [hoccurs (by omega)]
    exact hbefore k hk

theorem not_infix_of_strstr {s needle : List UInt8} (h : strstr s needle = none) :
    ¬ needle <:+: s := by
  rintro ⟨front, back, rfl⟩
  have hnone := first_eq_none_iff.mp h front.length (by simp only [List.length_append]; omega)
  simp [List.append_assoc] at hnone

/-- The start of every header, with the value of `Content-Length` behind it. -/
theorem contentLength_intText {n : Int} (hlow : -2147483648 ≤ n) (hhigh : n ≤ 2147483647)
    (rest : List UInt8) :
    contentLength (ascii "HTTP/1.1 200 OK\r\nContent-Length: " ++ (intText n ++ CR :: rest)) =
      some n := by
  have hline : strstr (ascii "HTTP/1.1 200 OK\r\nContent-Length: ")
      (ascii "\r\nContent-Length: ") = some 15 := by
    rw [ascii_ofList, ascii_ofList]
    decide
  have hlength : (ascii "HTTP/1.1 200 OK\r\nContent-Length: ").length = 15 + 18 := by
    rw [ascii_ofList]
    decide
  have hfield := strstr_append hline (intText n ++ CR :: rest)
  have hdrop : ((ascii "HTTP/1.1 200 OK\r\nContent-Length: ") ++ (intText n ++ CR :: rest)).drop
      (15 + 18) = intText n ++ CR :: rest := List.drop_left' hlength
  simp only [contentLength, hfield, hdrop, scanInt_intText hlow hhigh]

/-- No blank line starts before the end of the value. -/
theorem blankLine_infix_iff (n : Int) (rest : List UInt8) :
    blankLine <:+: ascii "HTTP/1.1 200 OK\r\nContent-Length: " ++ (intText n ++ rest) ↔
      blankLine <:+: rest := by
  have hsplit : ascii "HTTP/1.1 200 OK\r\nContent-Length: " =
      ascii "HTTP/1.1 200 OK\r\nContent-Length:" ++ [32] := by
    rw [ascii_ofList, ascii_ofList]
    decide
  have hfront : ¬ blankLine <:+: ascii "HTTP/1.1 200 OK\r\nContent-Length:" := by
    refine not_infix_of_strstr ?_
    rw [ascii_ofList]
    decide
  rw [hsplit, List.append_assoc, List.singleton_append, infix_append_cons_iff (by decide),
    or_iff_right hfront, infix_append_of_disjoint (by decide)]
  intro b hb
  rcases isDigit_or_of_mem_intText hb with hdigit | rfl
  · have hbounds : 48 ≤ b ∧ b ≤ 57 := by simpa [isDigit] using hdigit
    intro hmem
    have hcases : b = 13 ∨ b = 10 ∨ b = 13 ∨ b = 10 := by simpa [blankLine, ascii] using hmem
    rcases hcases with rfl | rfl | rfl | rfl <;> simp at hbounds
  · decide

/-- A response is split at its first blank line. -/
theorem truthful_append_iff {header body : List UInt8} (hends : blankLine <:+ header)
    (hfirst : ¬ blankLine <:+: header.dropLast) :
    Truthful (header ++ body) ↔ contentLength header = some (body.length : Int) := by
  constructor
  · rintro ⟨header', body', heq, hends', hfirst', hlength⟩
    have hle := length_le_of_first heq hends hfirst'
    have hge := length_le_of_first heq.symm hends' hfirst
    obtain ⟨rfl, rfl⟩ := List.append_inj heq (by omega)
    exact hlength
  · exact fun hlength => ⟨header, body, rfl, hends, hfirst, hlength⟩

/-- What lies behind a blank line of a truthful response is counted. -/
theorem length_le_of_truthful {n : Int} (hlow : -2147483648 ≤ n) (hhigh : n ≤ 2147483647)
    {front back : List UInt8} (hfront : blankLine <:+ front)
    (h : Truthful (ascii "HTTP/1.1 200 OK\r\nContent-Length: " ++
      (intText n ++ CR :: (front ++ back)))) : (back.length : Int) ≤ n := by
  obtain ⟨header, body, heq, hends, hfirst, hlength⟩ := h
  set value := ascii "HTTP/1.1 200 OK\r\nContent-Length: " ++ (intText n ++ [CR]) with hvalue
  have hsplit : (value ++ front) ++ back = header ++ body := by
    rw [← heq, hvalue]
    simp only [List.append_assoc, List.cons_append, List.nil_append]
  have hle := length_le_of_first hsplit (hfront.trans (List.suffix_append _ _)) hfirst
  have hvalues : value <+: header ++ body := by
    rw [← hsplit, List.append_assoc]
    exact List.prefix_append _ _
  -- the header goes on behind the value, which has no blank line
  have hgt : value.length ≤ header.length := by
    by_contra hlt
    have hstarts : header <+: value :=
      List.prefix_of_prefix_length_le (List.prefix_append _ _) hvalues (by omega)
    have hblank := hends.isInfix.trans hstarts.isInfix
    rw [hvalue, blankLine_infix_iff] at hblank
    exact not_infix_of_strstr (by decide) hblank
  obtain ⟨rest, hrest⟩ : value <+: header :=
    List.prefix_of_prefix_length_le hvalues (List.prefix_append _ _) hgt
  rw [← hrest, hvalue, List.append_assoc, List.append_assoc, List.singleton_append,
    contentLength_intText hlow hhigh, Option.some.injEq] at hlength
  have hlengths := congrArg List.length hsplit
  simp only [List.length_append] at hlengths hle
  omega

/-- A header whose fields have no blank line. -/
theorem truthful_header_iff {n : Int} (hlow : -2147483648 ≤ n) (hhigh : n ≤ 2147483647)
    {fields : List UInt8} (hfields : ¬ blankLine <:+: CR :: (fields ++ blankLine.dropLast))
    (body : List UInt8) :
    Truthful (ascii "HTTP/1.1 200 OK\r\nContent-Length: " ++
      (intText n ++ CR :: (fields ++ (blankLine ++ body)))) ↔ n = body.length := by
  set value := ascii "HTTP/1.1 200 OK\r\nContent-Length: " with hvalue
  have hsplit : value ++ (intText n ++ CR :: (fields ++ (blankLine ++ body))) =
      value ++ (intText n ++ CR :: (fields ++ blankLine)) ++ body := by
    simp only [List.append_assoc, List.cons_append]
  have hends : blankLine <:+ value ++ (intText n ++ CR :: (fields ++ blankLine)) :=
    ⟨value ++ (intText n ++ CR :: fields), by simp only [List.append_assoc, List.cons_append]⟩
  have hlast : (value ++ (intText n ++ CR :: (fields ++ blankLine))).dropLast =
      value ++ (intText n ++ CR :: (fields ++ blankLine.dropLast)) := by
    have hne : blankLine ≠ [] := by decide
    rw [List.dropLast_append_of_ne_nil (by simp), List.dropLast_append_of_ne_nil (by simp),
      List.dropLast_cons_of_ne_nil (by simp [hne]), List.dropLast_append_of_ne_nil hne]
  rw [hsplit, truthful_append_iff hends (by rwa [hlast, blankLine_infix_iff]),
    contentLength_intText hlow hhigh, Option.some.injEq]

/-- A page is truthful when the format gets its length. -/
theorem truthful_page_iff {n : Int} (hlow : -2147483648 ≤ n) (hhigh : n ≤ 2147483647)
    (content : List UInt8) : Truthful (htmlResponse n content) ↔ n = content.length := by
  have hheader : ascii "\r\nContent-Type: text/html\r\nConnection: closed\r\n\r\n" =
      CR :: (ascii "\nContent-Type: text/html\r\nConnection: closed" ++ blankLine) := by
    rw [blankLine, ascii_ofList, ascii_ofList, ascii_ofList]
    decide
  have hfields : ¬ blankLine <:+:
      CR :: (ascii "\nContent-Type: text/html\r\nConnection: closed" ++ blankLine.dropLast) := by
    refine not_infix_of_strstr ?_
    rw [blankLine, ascii_ofList, ascii_ofList]
    decide
  rw [htmlResponse, hheader, List.append_assoc, List.append_assoc, List.cons_append,
    List.append_assoc]
  exact truthful_header_iff hlow hhigh hfields content

/-- What stands before and behind the name in the header of a file. -/
theorem fileHeader_append (n : Int) (filename body : List UInt8) :
    fileHeader n filename ++ body =
      ascii "HTTP/1.1 200 OK\r\nContent-Length: " ++ (intText n ++ CR ::
        (ascii "\nContent-Type: application/octet-stream\r\n" ++
          (ascii "Content-Disposition: attachment; filename=" ++ 34 :: (filename ++ 34 ::
            (ascii "\r\nConnection: closed" ++ (blankLine ++ body)))))) := by
  have htype : ascii "\r\nContent-Type: application/octet-stream\r\n" =
      CR :: ascii "\nContent-Type: application/octet-stream\r\n" := by
    rw [ascii_ofList, ascii_ofList]
    decide
  have hname : ascii "Content-Disposition: attachment; filename=\"" =
      ascii "Content-Disposition: attachment; filename=" ++ [34] := by
    rw [ascii_ofList, ascii_ofList]
    decide
  have hclosing : ascii "\"\r\nConnection: closed\r\n\r\n" =
      34 :: (ascii "\r\nConnection: closed" ++ blankLine) := by
    rw [blankLine, ascii_ofList, ascii_ofList, ascii_ofList]
    decide
  rw [fileHeader, htype, hname, hclosing]
  simp only [List.append_assoc, List.cons_append, List.nil_append]

/-- A file is truthful when its name does not end the header and what is read of it has the
length that it had. -/
theorem truthful_file_iff {n : Int} (hlow : -2147483648 ≤ n) (hhigh : n ≤ 2147483647)
    (filename : List UInt8) {body : List UInt8} (hbody : n ≤ body.length) :
    Truthful (fileHeader n filename ++ body) ↔ ¬ blankLine <:+: filename ∧ n = body.length := by
  rw [fileHeader_append]
  set front := ascii "\nContent-Type: application/octet-stream\r\n" with hfront
  set disposition := ascii "Content-Disposition: attachment; filename=" with hdisposition
  set closing := ascii "\r\nConnection: closed" with hclosing
  by_cases hblank : blankLine <:+: filename
  · -- the header ends in the name, so the rest of the name belongs to the body
    rw [iff_false_right fun h => h.1 hblank]
    intro htruthful
    obtain ⟨u, v, rfl⟩ := hblank
    have hends : blankLine <:+ front ++ (disposition ++ 34 :: (u ++ blankLine)) :=
      ⟨front ++ (disposition ++ 34 :: u), by simp only [List.append_assoc, List.cons_append]⟩
    have hle := length_le_of_truthful hlow hhigh hends
      (show Truthful (_ ++ (intText n ++ CR ::
        (_ ++ (v ++ 34 :: (closing ++ (blankLine ++ body)))))) by
          simpa only [List.append_assoc, List.cons_append] using htruthful)
    simp only [List.length_append, List.length_cons] at hle
    omega
  · have hquote : (34 : UInt8) ∉ blankLine := by decide
    have hfields : ¬ blankLine <:+: CR :: (front ++ (disposition ++ 34 :: (filename ++ 34 ::
        closing)) ++ blankLine.dropLast) := by
      have hsplit : CR :: (front ++ (disposition ++ 34 :: (filename ++ 34 :: closing)) ++
          blankLine.dropLast) = CR :: (front ++ disposition) ++ 34 :: (filename ++ 34 ::
            (closing ++ blankLine.dropLast)) := by
        simp only [List.append_assoc, List.cons_append]
      rw [hsplit, infix_append_cons_iff hquote, infix_append_cons_iff hquote]
      rintro (hstart | hname | hend)
      · refine not_infix_of_strstr ?_ hstart
        rw [blankLine, hfront, hdisposition, ascii_ofList, ascii_ofList, ascii_ofList]
        decide
      · exact hblank hname
      · refine not_infix_of_strstr ?_ hend
        rw [blankLine, hclosing, ascii_ofList, ascii_ofList]
        decide
    have hiff := truthful_header_iff hlow hhigh hfields body
    simp only [List.append_assoc, List.cons_append] at hiff
    rw [hiff, and_iff_right hblank]

/-! ## The loop over a file -/

/-- What the first `n` calls of `fread` return. -/
def File.contents (file : File) (n : ℕ) : List UInt8 := (List.range n).flatMap file.reads

theorem File.contents_succ (file : File) (n : ℕ) :
    file.contents (n + 1) = file.contents n ++ file.reads n := by
  simp [contents, List.range_succ]

theorem File.contents_mono (file : File) {m n : ℕ} (h : m ≤ n) :
    (file.contents m).length ≤ (file.contents n).length := by
  induction n, h using Nat.le_induction with
  | base => exact le_rfl
  | succ n _ ih =>
    rw [file.contents_succ, List.length_append]
    omega

theorem sentBytes_append (calls calls' : List Call) :
    sentBytes (calls ++ calls') = sentBytes calls ++ sentBytes calls' := List.flatMap_append

section Chunks

variable {file : File} {turns i : ℕ} {count read : Int}

theorem sendChunks_stop (hcount : file.length ≤ count) :
    sendChunks file turns i count read = .ok [] := by
  unfold sendChunks
  rw [if_neg fun h => absurd h.2 (Int.not_lt.mpr hcount)]

theorem sendChunks_zero (hread : 0 ≤ read) (hcount : count < file.length) :
    sendChunks file 0 i count read = .error .runsOn := by
  unfold sendChunks
  rw [if_pos ⟨hread, hcount⟩]

/-- One turn of the loop writes what `fread` returns and counts it. -/
theorem sendChunks_succ (turns : ℕ) (hread : 0 ≤ read)
    (hcount : ((file.contents i).length : Int) < file.length) :
    ∃ calls, sentBytes calls = file.reads i ∧
      sendChunks file (turns + 1) i (file.contents i).length read =
        (calls ++ ·) <$> sendChunks file turns (i + 1) (file.contents (i + 1)).length
          (file.reads i).length := by
  have hlength : ((file.contents (i + 1)).length : Int) =
      (file.contents i).length + (file.reads i).length := by
    rw [file.contents_succ, List.length_append, Int.natCast_add]
  conv in sendChunks file (turns + 1) i _ read => unfold sendChunks
  rw [if_pos ⟨hread, hcount⟩, hlength]
  dsimp only
  by_cases hdata : ((file.reads i).length : Int) > 0
  · exact ⟨[.writeTcp (file.reads i), .ipStackPoll], by simp [sentBytes], if_pos hdata⟩
  · have hnil : file.reads i = [] := List.eq_nil_of_length_eq_zero (by omega)
    refine ⟨[.ipStackPoll], by simp [sentBytes, hnil], ?_⟩
    rw [if_neg hdata, hnil, List.length_nil, Int.natCast_zero, Int.add_zero]
    rfl

/-- When the loop ends it has written what has been read, which is no less than `length`
for the first time. -/
theorem sendChunks_written {calls : List Call} (hread : 0 ≤ read)
    (h : sendChunks file turns i (file.contents i).length read = .ok calls) :
    ∃ n, i ≤ n ∧ file.length ≤ (file.contents n).length ∧
      (∀ j, i ≤ j → j < n → ((file.contents j).length : Int) < file.length) ∧
      file.contents i ++ sentBytes calls = file.contents n := by
  induction turns generalizing i read calls with
  | zero =>
    by_cases hcount : ((file.contents i).length : Int) < file.length
    · rw [sendChunks_zero hread hcount] at h
      cases h
    · rw [sendChunks_stop (Int.not_lt.mp hcount)] at h
      cases h
      exact ⟨i, le_rfl, Int.not_lt.mp hcount, fun j hle hlt => by omega, by simp [sentBytes]⟩
  | succ turns ih =>
    by_cases hcount : ((file.contents i).length : Int) < file.length
    · obtain ⟨chunk, hchunk, hturn⟩ := sendChunks_succ turns hread hcount
      rw [hturn] at h
      cases hrest : sendChunks file turns (i + 1) (file.contents (i + 1)).length
          (file.reads i).length with
      | error e =>
        rw [hrest] at h
        cases h
      | ok rest =>
        rw [hrest] at h
        cases h
        obtain ⟨n, hle, hend, hbefore, hwritten⟩ := ih (by omega) hrest
        refine ⟨n, by omega, hend, fun j hj hlt => ?_, ?_⟩
        · rcases hj.eq_or_lt with rfl | hj
          · exact hcount
          · exact hbefore j hj hlt
        · rw [sentBytes_append, hchunk, ← List.append_assoc, ← file.contents_succ, hwritten]
    · rw [sendChunks_stop (Int.not_lt.mp hcount)] at h
      cases h
      exact ⟨i, le_rfl, Int.not_lt.mp hcount, fun j hle hlt => by omega, by simp [sentBytes]⟩

/-- The loop ends when `fread` returns enough. -/
theorem sendChunks_ends {n : ℕ} (hread : 0 ≤ read) (hle : i ≤ n)
    (hend : file.length ≤ (file.contents n).length) (hturns : n - i ≤ turns) :
    ∃ calls, sendChunks file turns i (file.contents i).length read = .ok calls := by
  induction turns generalizing i read with
  | zero =>
    obtain rfl : i = n := by omega
    exact ⟨[], sendChunks_stop hend⟩
  | succ turns ih =>
    by_cases hcount : ((file.contents i).length : Int) < file.length
    · obtain ⟨chunk, -, hturn⟩ := sendChunks_succ turns hread hcount
      have hlt : i < n := by
        by_contra hge
        obtain rfl : i = n := by omega
        omega
      have hcalled : (0 : Int) ≤ (file.reads i).length := by omega
      obtain ⟨rest, hrest⟩ := ih (i := i + 1) hcalled hlt (by omega)
      rw [hturn, hrest]
      exact ⟨chunk ++ rest, rfl⟩
    · exact ⟨[], sendChunks_stop (Int.not_lt.mp hcount)⟩

end Chunks

/-! ## Truthful responses -/

/-- The responses whose length is right: the form, and a file that is found, that is not too
long, whose name does not end the header, and of which some number of calls of `fread`
return as many bytes as `ftell` has said. -/
def Response.Exact : Response → Prop
  | .message _ => False
  | .uploadForm => True
  | .downloadLink _ => False
  | .file filename opened =>
    ∃ file ∈ opened, file.length ≤ 512 * 1024 * 1024 ∧ ¬ blankLine <:+: filename ∧
      ∃ n, ((file.contents n).length : Int) = file.length

/-- A program that returns has returned from its first part. -/
theorem bind_eq_ok {ε α β : Type} {x : Except ε α} {f : α → Except ε β} {b : β} :
    (x >>= f) = .ok b ↔ ∃ a, x = .ok a ∧ f a = .ok b := by
  cases x with
  | error e => simp [bind, Except.bind]
  | ok a => simp [bind, Except.bind]

theorem sprintf_eq_ok {text result : List UInt8} :
    sprintf text = .ok result ↔ text.length < 1024 ∧ text = result := by
  unfold sprintf
  split_ifs with hfits <;> simp [hfits]

theorem sentBytes_sendResponse (response : List UInt8) :
    sentBytes (sendResponse response) = response := by
  simp [sentBytes, sendResponse]

/-- The length of a message is one too small. -/
theorem sendHttpMessage_not_truthful {message : List UInt8} {calls : List Call}
    (h : sendHttpMessage message = .ok calls) : ¬ Truthful (sentBytes calls) := by
  obtain ⟨content, hcontent, h⟩ := bind_eq_ok.mp h
  obtain ⟨response, hresponse, h⟩ := bind_eq_ok.mp h
  obtain ⟨hlength, hcontent⟩ := sprintf_eq_ok.mp hcontent
  obtain ⟨-, rfl⟩ := sprintf_eq_ok.mp hresponse
  cases h
  rw [hcontent] at hlength
  rw [sentBytes_sendResponse, truthful_page_iff (by omega) (by omega)]
  omega

theorem sendHttpUploadForm_truthful :
    ∃ calls, sendHttpUploadForm = .ok calls ∧ Truthful (sentBytes calls) := by
  have hcontent : formContent.length < 1024 := by
    unfold formContent
    repeat rw [ascii_ofList]
    decide +kernel
  have hresponse : (htmlResponse formContent.length formContent).length < 1024 := by
    unfold htmlResponse formContent
    repeat rw [ascii_ofList]
    decide +kernel
  refine ⟨sendResponse (htmlResponse formContent.length formContent), ?_, ?_⟩
  · exact bind_eq_ok.mpr ⟨_, sprintf_eq_ok.mpr ⟨hcontent, rfl⟩,
      bind_eq_ok.mpr ⟨_, sprintf_eq_ok.mpr ⟨hresponse, rfl⟩, rfl⟩⟩
  · rw [sentBytes_sendResponse, truthful_page_iff (by omega) (by omega)]

/-- A file that is sent to its end. -/
theorem sendHttpFile_eq_ok {turns : ℕ} {filename : List UInt8} {file : File} {calls : List Call}
    (hlength : file.length ≤ 512 * 1024 * 1024)
    (h : sendHttpFile turns filename (some file) = .ok calls) :
    ∃ chunks, sendChunks file turns 0 0 0 = .ok chunks ∧
      sentBytes calls = fileHeader file.length filename ++ sentBytes chunks := by
  rw [sendHttpFile, if_neg (Int.not_lt.mpr hlength)] at h
  obtain ⟨response, hresponse, h⟩ := bind_eq_ok.mp h
  obtain ⟨chunks, hchunks, h⟩ := bind_eq_ok.mp h
  obtain ⟨-, rfl⟩ := sprintf_eq_ok.mp hresponse
  cases h
  exact ⟨chunks, hchunks, by simp [sentBytes]⟩

/-- The first number of calls of `fread` that return enough is the one that returns exactly
`length` bytes, when there is one. -/
theorem length_eq_of_first {file : File} {m n : ℕ}
    (hend : file.length ≤ (file.contents n).length)
    (hbefore : ∀ j, 0 ≤ j → j < n → ((file.contents j).length : Int) < file.length)
    (hexact : ((file.contents m).length : Int) = file.length) :
    ((file.contents n).length : Int) = file.length := by
  have hle : n ≤ m := by
    by_contra hlt
    have hless := hbefore m (Nat.zero_le _) (by omega)
    omega
  have hmono := file.contents_mono hle
  omega

theorem sendHttpFile_truthful_iff {filename : List UInt8} {file : File}
    (hlength : file.length ≤ 512 * 1024 * 1024)
    (hfits : (fileHeader file.length filename).length < 1024) :
    (∃ turns calls, sendHttpFile turns filename (some file) = .ok calls ∧
        Truthful (sentBytes calls)) ↔
      ¬ blankLine <:+: filename ∧ ∃ n, ((file.contents n).length : Int) = file.length := by
  have hlow := file.length_ge
  constructor
  · rintro ⟨turns, calls, h, htruthful⟩
    obtain ⟨chunks, hchunks, hwritten⟩ := sendHttpFile_eq_ok hlength h
    obtain ⟨n, -, hend, -, hcontents⟩ := sendChunks_written (i := 0) (Int.le_refl 0) hchunks
    have hbody : sentBytes chunks = file.contents n := hcontents
    rw [hwritten, hbody, truthful_file_iff (by omega) (by omega) _ hend] at htruthful
    exact ⟨htruthful.1, n, htruthful.2.symm⟩
  · rintro ⟨hname, m, hexact⟩
    obtain ⟨chunks, hchunks⟩ := sendChunks_ends (i := 0) (Int.le_refl 0) (Nat.zero_le m)
      (Int.le_of_eq hexact.symm) (Nat.sub_le m 0)
    obtain ⟨n, -, hend, hbefore, hcontents⟩ := sendChunks_written (i := 0) (Int.le_refl 0) hchunks
    have hbody : sentBytes chunks = file.contents n := hcontents
    have hcalls : sendHttpFile m filename (some file) = .ok
        (.writeTcp (fileHeader file.length filename) :: (chunks ++ [.shutdownClose])) := by
      rw [sendHttpFile, if_neg (Int.not_lt.mpr hlength)]
      exact bind_eq_ok.mpr ⟨_, sprintf_eq_ok.mpr ⟨hfits, rfl⟩,
        bind_eq_ok.mpr ⟨chunks, hchunks, rfl⟩⟩
    have hwritten : sentBytes (.writeTcp (fileHeader file.length filename) ::
        (chunks ++ [.shutdownClose])) = fileHeader file.length filename ++ sentBytes chunks := by
      simp [sentBytes]
    refine ⟨m, _, hcalls, ?_⟩
    rw [hwritten, hbody, truthful_file_iff (by omega) (by omega) _ hend]
    exact ⟨hname, (length_eq_of_first hend hbefore hexact).symm⟩

/-- A response that fits its buffers is sent to its end with a truthful header exactly when it
is the form or a file of which as much is read as its header says. -/
theorem response_truthful_iff (response : Response) (hfits : response.Fits) :
    (∃ turns calls, response.send turns = .ok calls ∧ Truthful (sentBytes calls)) ↔
      response.Exact := by
  cases response with
  | message text =>
    rw [Response.Exact, iff_false]
    rintro ⟨turns, calls, h, htruthful⟩
    exact sendHttpMessage_not_truthful h htruthful
  | uploadForm =>
    rw [Response.Exact, iff_true]
    exact ⟨0, sendHttpUploadForm_truthful⟩
  | downloadLink filename =>
    rw [Response.Exact, iff_false]
    rintro ⟨turns, calls, h, htruthful⟩
    obtain ⟨message, -, h⟩ := bind_eq_ok.mp h
    exact sendHttpMessage_not_truthful h htruthful
  | file filename opened =>
    cases opened with
    | none =>
      simp only [Response.Exact, Option.not_mem_none, false_and, exists_false, iff_false]
      rintro ⟨turns, calls, h, htruthful⟩
      exact sendHttpMessage_not_truthful h htruthful
    | some file =>
      simp only [Response.Exact, Option.mem_some_iff, exists_eq_left']
      by_cases hlength : file.length ≤ 512 * 1024 * 1024
      · rw [and_iff_right hlength]
        refine sendHttpFile_truthful_iff hlength ?_
        by_contra hlong
        refine hfits ?_
        rw [Response.send, sendHttpFile, if_neg (Int.not_lt.mpr hlength), sprintf, if_neg hlong]
        rfl
      · rw [iff_false_right fun h => hlength h.1]
        rintro ⟨turns, calls, h, htruthful⟩
        rw [Response.send, sendHttpFile, if_pos (Int.not_le.mp hlength)] at h
        obtain ⟨page, hpage, h⟩ := bind_eq_ok.mp h
        cases h
        rw [sentBytes_append] at htruthful
        refine sendHttpMessage_not_truthful hpage ?_
        simpa [sentBytes] using htruthful

/-- A file of five bytes that `fread` returns in two pieces. -/
def shortFile : File where
  length := 5
  length_ge := by decide
  reads i := if i = 0 then [104, 101, 108] else if i = 1 then [108, 111] else []
  reads_length i := by split_ifs <;> simp

theorem response_truthful_iff_file :
    (Response.file (ascii "a.txt") (some shortFile)).Fits ∧
      ((∃ turns calls, (Response.file (ascii "a.txt") (some shortFile)).send turns = .ok calls ∧
        Truthful (sentBytes calls)) ↔ (Response.file (ascii "a.txt") (some shortFile)).Exact) :=
  ⟨by decide +kernel, response_truthful_iff _ (by decide +kernel)⟩

/-- `send_http_message(id, "Upload complete")` states 56 for 57 bytes. -/
theorem message_not_truthful :
    ¬ ∀ response : Response, response.Fits →
      ∃ turns calls, response.send turns = .ok calls ∧ Truthful (sentBytes calls) := by
  intro hall
  obtain ⟨turns, calls, h, htruthful⟩ :=
    hall (.message (ascii "Upload complete")) (by decide +kernel)
  exact sendHttpMessage_not_truthful h htruthful

end EthTransfer
