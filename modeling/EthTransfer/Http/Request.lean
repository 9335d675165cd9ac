import EthTransfer.Http.BlankLine
import EthTransfer.Http.Response
import EthTransfer.Http.Segmentation
import EthTransfer.Http.Upload

/-!
# Whole requests

What the server makes of a request as a browser sends it, from its first byte to the action
of `main`, in whatever pieces `read_tcp` returns it.

* `Request` is a request line, header fields and a body.  `Request.headerScan_head` and
  `Request.headerBytes_head` give the end of its header and what `split_header` leaves of it.
* `get_served`: which file or page a `GET` request gets.
* `UploadRequest` is a `POST` request with an upload in its body.  `upload_served` puts the
  way from the segments to the file together, and `upload_refused` says what happens to an
  upload that is too long.
-/

namespace EthTransfer

open Search

/-! ## Requests -/

/-- A request: lines with their line ends, a blank line and a body. -/
structure Request where
  lines : List (List UInt8)
  body : List UInt8
  lines_ne : lines ≠ []
  line_ne : ∀ line ∈ lines, line ≠ []
  line_text : ∀ line ∈ lines, ∀ b ∈ line, b ≠ CR ∧ b ≠ LF ∧ b ≠ 0

namespace Request

/-- The request up to the blank line. -/
def head (r : Request) : List UInt8 := headerBlock r.lines ++ crlf

def bytes (r : Request) : List UInt8 := r.head ++ r.body

variable (r : Request)

theorem length_head : r.head.length = (headerBlock r.lines).length + 2 := by
  simp [head, crlf]

theorem length_bytes : r.bytes.length = r.head.length + r.body.length := by
  simp [bytes]

/-- A line with its line end is longer than its line end. -/
theorem two_lt_head : 4 < r.head.length := by
  obtain ⟨line, lines, hlines⟩ := List.exists_cons_of_ne_nil r.lines_ne
  have hpos : 0 < line.length := List.length_pos_iff.mpr (r.line_ne line (by simp [hlines]))
  rw [length_head, hlines, headerBlock_cons]
  simp [crlf]
  omega

/-- The lines end at the blank line behind them, and nowhere before. -/
theorem headerEnd_head (rest : List UInt8) (len : ℕ) :
    (∀ j, j + 3 < r.head.length → headerEnd (r.head ++ rest) len j = none) ∧
      (r.head.length ≤ len →
        headerEnd (r.head ++ rest) len (r.head.length - 3) = some r.head.length) := by
  obtain ⟨hbefore, hend⟩ := headerEnd_headerBlock r.line_ne r.line_text rest
  have hlength := r.length_head
  have hlong := r.two_lt_head
  have hsplit : LF :: (headerBlock r.lines ++ (crlf ++ rest)) = [LF] ++ (r.head ++ rest) := by
    simp [head]
  -- a LF in front of the header moves everything by one
  have hmove (j : ℕ) : headerEnd ([LF] ++ (r.head ++ rest)) (len + 1) (j + 1) =
      (headerEnd (r.head ++ rest) len j).map (1 + ·) := by
    have happend := headerEnd_append [LF] (r.head ++ rest) (len + 1) j
    simpa only [List.length_singleton, Nat.add_comm 1 j, Nat.add_sub_cancel] using happend
  rw [hsplit] at hend hbefore
  constructor
  · intro j hj
    have hnone := hmove j
    rw [hbefore (len + 1) (j + 1) (by omega)] at hnone
    exact Option.map_eq_none_iff.mp hnone.symm
  · intro hle
    have hsome := hmove (r.head.length - 3)
    rw [show r.head.length - 3 + 1 = (headerBlock r.lines).length by omega, (hend (len + 1)).1,
      if_pos (by omega)] at hsome
    obtain ⟨e, he, hadd⟩ := Option.map_eq_some_iff.mp hsome.symm
    rw [he]
    congr 1
    omega

/-- `header_scan` finds the end of the header, whatever comes behind it. -/
theorem headerScan_head (hmax : r.head.length ≤ HEADER_MAX) (rest : List UInt8) :
    headerScan (r.head ++ rest) (r.head ++ rest).length = r.head.length := by
  have hlong := r.two_lt_head
  have hlength : (r.head ++ rest).length = r.head.length + rest.length := List.length_append
  obtain ⟨hbefore, hend⟩ := r.headerEnd_head rest (min (r.head ++ rest).length HEADER_MAX)
  have hend := hend (by omega)
  have hmin : min ((r.head ++ rest).length : Int).toNat HEADER_MAX =
      min (r.head ++ rest).length HEADER_MAX := rfl
  refine headerScan_eq (i := r.head.length - 3) (by omega) (by omega) ?_ ?_
  · rw [hmin]
    exact hend
  · intro j hj
    rw [hmin]
    exact hbefore j (by omega)

/-- The lines of the header as strings. -/
theorem headerBytes_head (rest : List UInt8) :
    headerBytes (r.head ++ rest) r.head.length = splitBlock r.lines ++ [0, 0] := by
  have hlength := r.length_head
  have htake : (r.head ++ rest).take (r.head.length - 1) ++ [0] =
      headerBlock r.lines ++ [CR, 0] := by
    have hbytes : r.head ++ rest = (headerBlock r.lines ++ [CR]) ++ (LF :: rest) := by
      simp [head, crlf]
    rw [hbytes, List.take_left' (by simp [hlength])]
    simp
  have hsplit := splitHeader_append [] (headerBlock r.lines ++ [CR, 0]) []
  have hcut : (headerBlock r.lines ++ [CR, 0]).length = r.head.length := by simp [hlength]
  have hend : [CR, 0].map splitByte = [0, 0] := by decide
  rw [hcut, List.length_nil, List.nil_append, List.append_nil, List.nil_append, List.append_nil,
    List.map_append, map_splitByte_headerBlock r.line_text, hend] at hsplit
  rw [headerBytes, htake, hsplit]

theorem length_split : (splitBlock r.lines).length + 2 = r.head.length := by
  rw [length_head, length_headerBlock]

/-- What `main` makes of the header decides. -/
theorem verdict_head (cfg : Config) (user : User) (hmax : r.head.length ≤ HEADER_MAX)
    (rest : List UInt8) :
    verdict cfg user (r.head ++ rest) =
      match readHeader cfg (splitBlock r.lines ++ [0, 0]) r.head.length with
      | .respond action => some (.action action)
      | .post _ required boundary =>
        if ((r.head ++ rest).length : Int) ≥ required then
          some (completeRequest user (splitBlock r.lines ++ [0, 0]) rest required boundary)
        else none
      | .other => some .faulted
      | .fault => some .faulted := by
  have hverdict := verdict_of_scan cfg user (r.headerScan_head hmax rest) (by omega)
  have hdrop : (r.head ++ rest).drop r.head.length = rest := List.drop_left
  rw [Int.toNat_natCast, r.headerBytes_head, hdrop] at hverdict
  exact hverdict

/-- A request whose header alone decides. -/
theorem verdict_of_respond {cfg : Config} {action : Action} (user : User)
    (hmax : r.head.length ≤ HEADER_MAX)
    (hread : readHeader cfg (splitBlock r.lines ++ [0, 0]) r.head.length = .respond action) :
    verdict cfg user r.head = some (.action action) := by
  have hverdict := r.verdict_head cfg user hmax []
  rw [List.append_nil, hread] at hverdict
  exact hverdict

/-- There is no verdict before the header is complete. -/
theorem verdict_short (cfg : Config) (user : User) (hmax : r.head.length ≤ HEADER_MAX)
    {q : List UInt8} (hq : q <+: r.bytes) (hlt : q.length < r.head.length) :
    verdict cfg user q = none := by
  have hnone : headerScan q q.length = -1 := by
    by_contra hfound
    obtain ⟨rest, hrest⟩ := hq
    have hscan := headerScan_append rest hfound
    rw [hrest, bytes, r.headerScan_head hmax] at hscan
    have hbounds := headerScan_bounds rfl hfound
    omega
  simp [verdict, hnone]

/-- A string of the header. -/
theorem stringAt_line {before after : List (List UInt8)} {front line : List UInt8}
    (hlines : r.lines = before ++ (front ++ line) :: after) :
    stringAt (splitBlock r.lines ++ [0, 0]) ((splitBlock before).length + front.length) =
      some line := by
  have hzero : (0 : UInt8) ∉ line := fun h =>
    (r.line_text (front ++ line) (by simp [hlines]) 0 (by simp [h])).2.2 rfl
  have hsplit : splitBlock r.lines ++ [0, 0] =
      (splitBlock before ++ front) ++ (line ++ 0 :: (0 :: (splitBlock after ++ [0, 0]))) := by
    rw [hlines, splitBlock_append, splitBlock_cons]
    simp
  rw [hsplit]
  exact cString_append hzero (by simp)

/-- The first field with a key, and what stands behind the key. -/
theorem headerValue_field {key value : List UInt8} (hkey : (0 : UInt8) ∉ key) (hne : key ≠ [])
    (hfind : r.lines.find? (key.isPrefixOf ·) = some (key ++ value)) :
    ∃ v : ℕ, headerValue (splitBlock r.lines ++ [0, 0]) r.head.length key = v ∧
      stringAt (splitBlock r.lines ++ [0, 0]) v = some value := by
  obtain ⟨-, before, after, hlines, hbefore⟩ := List.find?_eq_some_iff_append.mp hfind
  have hzero : ∀ line ∈ r.lines, (0 : UInt8) ∉ line := fun line hline h =>
    (r.line_text line hline 0 h).2.2 rfl
  have hlength := r.length_split
  have hsplit : splitBlock r.lines ++ [0, 0] =
      splitBlock before ++ ((key ++ value) ++ (0 :: 0 :: (splitBlock after ++ [0, 0]))) := by
    rw [hlines, splitBlock_append, splitBlock_cons]
    simp
  refine ⟨(splitBlock before).length + key.length, ?_, r.stringAt_line hlines⟩
  rw [hsplit]
  refine headerValue_lines hkey hne (fun line hline => hzero line (by simp [hlines, hline])) ?_
    (List.prefix_append _ _) ?_
  · intro line hline
    have hmiss := hbefore line hline
    rw [Bool.not_eq_true'] at hmiss
    rw [← List.isPrefixOf_iff_prefix, hmiss]
    exact Bool.false_ne_true
  · rw [← hlength, hlines, splitBlock_append, splitBlock_cons]
    simp
    omega

/-- The bytes of the first line. -/
theorem split_eq {line : List UInt8} {fields : List (List UInt8)}
    (hlines : r.lines = line :: fields) :
    splitBlock r.lines ++ [0, 0] = line ++ 0 :: (0 :: (splitBlock fields ++ [0, 0])) := by
  rw [hlines, splitBlock_cons]
  simp

end Request

/-! ## `GET` -/

/-- The answer of `main` to a request for a target. -/
def route (cfg : Config) (target : List UInt8) : Action :=
  match cfg.filename with
  | none => if target = ascii "/" then .uploadForm else .message "File not found\n"
  | some filename =>
    if target = ascii "/" then .downloadLink filename
    else if target = 47 :: filename then .file filename
    else .message "File not found\n"

/-- A word stands in front of a line when it is the first one. -/
theorem word_prefix_iff {word target rest : List UInt8} (hword : (32 : UInt8) ∉ word)
    (htarget : (32 : UInt8) ∉ target) :
    word ++ [32] <+: target ++ 32 :: rest ↔ target = word := by
  induction word generalizing target with
  | nil =>
    cases target with
    | nil => simp
    | cons b target =>
      have hne : ¬ (32 : UInt8) = b := fun h => htarget (by simp [h])
      simp [hne]
  | cons a word ih =>
    cases target with
    | nil =>
      have hne : ¬ a = 32 := fun h => hword (by simp [h])
      simp [hne]
    | cons b target =>
      have hrest : word ++ [32] <+: target ++ 32 :: rest ↔ target = word :=
        ih (fun h => hword (by simp [h])) fun h => htarget (by simp [h])
      rw [List.cons_append, List.cons_append, List.cons_prefix_cons, hrest, List.cons_eq_cons,
        eq_comm (a := a)]

/-- A word and the byte behind it. -/
theorem concat_prefix_iff {word text : List UInt8} {b : UInt8} :
    word ++ [b] <+: text ↔ word <+: text ∧ text[word.length]? = some b := by
  constructor
  · rintro ⟨rest, rfl⟩
    exact ⟨⟨b :: rest, by simp⟩, by simp⟩
  · rintro ⟨⟨rest, rfl⟩, hat⟩
    rw [List.getElem?_append_right le_rfl, Nat.sub_self] at hat
    obtain ⟨c, rest, rfl⟩ := List.exists_cons_of_ne_nil (l := rest) (by rintro rfl; cases hat)
    obtain rfl := Option.some.inj hat
    exact ⟨rest, by simp⟩

/-- A word that ends with a space ends inside a line that has one, or goes past its end. -/
theorem not_concat_prefix {word version rest : List UInt8} (hword : (0 : UInt8) ∉ word)
    (hversion : (32 : UInt8) ∉ version) : ¬ word ++ [32] <+: version ++ 0 :: rest := by
  intro h
  have hline : version ++ [0] <+: version ++ 0 :: rest := ⟨rest, by simp⟩
  rcases List.prefix_or_prefix_of_prefix h hline with hinside | hpast
  · have hmem : (32 : UInt8) ∈ version ++ [0] := hinside.subset (by simp)
    exact hversion (by simpa using hmem)
  · have hmem : (0 : UInt8) ∈ word ++ [32] := hpast.subset (by simp)
    exact hword (by simpa using hmem)

/-- A name stands in front of a line of two words when it is the first one, a name with
spaces too. -/
theorem name_prefix_iff {name target version rest : List UInt8} (hname : (0 : UInt8) ∉ name)
    (htarget : (32 : UInt8) ∉ target) (hversion : (32 : UInt8) ∉ version) :
    name ++ [32] <+: target ++ 32 :: (version ++ 0 :: rest) ↔ target = name := by
  by_cases hspace : (32 : UInt8) ∈ name
  · -- the name goes on behind its first space, and no second one follows there
    obtain ⟨front, back, rfl, hfront⟩ := List.eq_append_cons_of_mem hspace
    refine iff_of_false (fun hprefix => ?_) fun heq => htarget (heq ▸ hspace)
    have hfirst : front ++ [32] <+: target ++ 32 :: (version ++ 0 :: rest) :=
      List.IsPrefix.trans ⟨back ++ [32], by simp⟩ hprefix
    obtain rfl := (word_prefix_iff hfront htarget).mp hfirst
    have hbehind : back ++ [32] <+: version ++ 0 :: rest := by
      rw [List.append_assoc, List.prefix_append_right_inj, List.cons_append,
        List.cons_prefix_cons] at hprefix
      exact hprefix.2
    exact not_concat_prefix (fun hmem => hname (by simp [hmem])) hversion hbehind
  · exact word_prefix_iff hspace htarget

/-- The three tests of `main` look for the name between a slash and a space. -/
theorem names_iff (text filename : List UInt8) :
    (text.getD 4 0 = 47 ∧ filename.isPrefixOf (text.drop 5) ∧
        text.getD (5 + filename.length) 0 = 32) ↔
      47 :: filename ++ [32] <+: text.drop 4 := by
  rw [getD_eq_iff (by decide), getD_eq_iff (by decide), List.isPrefixOf_iff_prefix,
    show (5 : ℕ) = 4 + 1 by rfl, ← List.drop_drop, Nat.add_assoc,
    show text[4]? = (text.drop 4)[0]? by rw [List.getElem?_drop],
    show text[4 + (1 + filename.length)]? = (text.drop 4)[1 + filename.length]? by
      rw [List.getElem?_drop]]
  cases text.drop 4 with
  | nil => simp
  | cons b rest =>
    rw [List.cons_append, List.cons_prefix_cons, Nat.add_comm 1, List.getElem?_cons_succ,
      List.getElem?_cons_zero, Option.some.injEq, List.drop_succ_cons, List.drop_zero,
      eq_comm (a := b), concat_prefix_iff]

namespace Request

variable {r : Request}

/-- The `GET` branch looks at the target. -/
theorem readGet_eq (cfg : Config) {target version rest : List UInt8}
    (htarget : (32 : UInt8) ∉ target) (hversion : (32 : UInt8) ∉ version) :
    readGet cfg (ascii "GET " ++ (target ++ 32 :: (version ++ 0 :: rest))) =
      route cfg target := by
  have hfour : (ascii "GET ").length = 4 := by decide
  have hdrop : (ascii "GET " ++ (target ++ 32 :: (version ++ 0 :: rest))).drop 4 =
      target ++ 32 :: (version ++ 0 :: rest) :=
    List.drop_left' hfour
  have hroot : (ascii "/ ").isPrefixOf (target ++ 32 :: (version ++ 0 :: rest)) = true ↔
      target = ascii "/" := by
    rw [List.isPrefixOf_iff_prefix]
    have hword : (32 : UInt8) ∉ ascii "/" := by decide
    exact word_prefix_iff hword htarget
  unfold readGet route
  simp only [hdrop, hroot, names_iff]
  cases hfile : cfg.filename with
  | none =>
    split_ifs with h₁ h₂
    · rfl
    · exact absurd ((word_prefix_iff (by decide) htarget).mp h₂) h₁
    · rfl
  | some filename =>
    have hname : (0 : UInt8) ∉ 47 :: filename := by
      simp [cfg.filename_text filename hfile]
    simp only [Option.getD_some, name_prefix_iff hname htarget hversion]

/-- A header that decides, however it arrives and whatever comes behind it. -/
theorem serveAll_of_respond {cfg : Config} {user : User} {s : Server} {action : Action}
    {chunks : List (List UInt8)} {rest : List UInt8}
    (hmax : r.head.length ≤ HEADER_MAX) (hroom : r.head.length ≤ cfg.maxSize)
    (hread : readHeader cfg (splitBlock r.lines ++ [0, 0]) r.head.length = .respond action)
    (hopening : Opening cfg s) (hbytes : chunks.flatten = r.head ++ rest)
    (hfits : Fits cfg user s chunks) : serveAll cfg user s chunks = .action action := by
  rw [serveAll_eq hopening.opened hfits, List.nil_append, hbytes]
  exact outcome_of_verdict _ hroom (r.verdict_of_respond user hmax hread)

end Request

/-- The decision on a `GET` request. -/
theorem Request.readHeader_get {cfg : Config} {target version : List UInt8} (r : Request)
    (hline : r.lines.head? = some (ascii "GET " ++ (target ++ 32 :: version)))
    (htarget : (32 : UInt8) ∉ target) (hversion : (32 : UInt8) ∉ version) :
    readHeader cfg (splitBlock r.lines ++ [0, 0]) r.head.length =
      .respond (route cfg target) := by
  obtain ⟨fields, hlines⟩ := List.head?_eq_some_iff.mp hline
  have hsplit : splitBlock r.lines ++ [0, 0] = ascii "GET " ++
      (target ++ 32 :: (version ++ 0 :: (0 :: (splitBlock fields ++ [0, 0])))) := by
    rw [r.split_eq hlines]
    simp
  have hget : (ascii "GET ").isPrefixOf (splitBlock r.lines ++ [0, 0]) := by
    rw [List.isPrefixOf_iff_prefix, hsplit]
    exact List.prefix_append _ _
  rw [readHeader, if_pos hget, hsplit, Request.readGet_eq cfg htarget hversion]

/-- A `GET` request gets the form, the link, the file or a message, as its target says, in
whatever pieces it arrives and whatever comes behind it. -/
theorem get_served {cfg : Config} {user : User} {s : Server} {chunks : List (List UInt8)}
    {target version rest : List UInt8} (r : Request)
    (hline : r.lines.head? = some (ascii "GET " ++ (target ++ 32 :: version)))
    (htarget : (32 : UInt8) ∉ target) (hversion : (32 : UInt8) ∉ version)
    (hmax : r.head.length ≤ HEADER_MAX) (hroom : r.head.length ≤ cfg.maxSize)
    (hopening : Opening cfg s) (hbytes : chunks.flatten = r.head ++ rest)
    (hfits : Fits cfg user s chunks) :
    serveAll cfg user s chunks = .action (route cfg target) :=
  r.serveAll_of_respond hmax hroom (r.readHeader_get hline htarget hversion) hopening hbytes hfits

/-! ## Uploads -/

/-- The string at a place is followed by the strings inside it. -/
theorem stringAt_inside {block : Block} {p : ℕ} {front text : List UInt8}
    (h : stringAt block p = some (front ++ text)) (rest : List UInt8) :
    stringAt (block ++ rest) (p + front.length) = some text := by
  unfold stringAt at h ⊢
  have hmem : (0 : UInt8) ∈ block.drop p := by
    by_contra hnone
    rw [cString, if_neg hnone] at h
    cases h
  -- the block from there on, up to the zero behind the string
  obtain ⟨init, tail, hblock, hzero⟩ := List.eq_append_cons_of_mem hmem
  rw [cString, if_pos hmem, hblock, takeWhile_append_cons hzero] at h
  obtain rfl := Option.some.inj h
  have hle : p ≤ block.length := by
    by_contra hlt
    rw [List.drop_eq_nil_of_le (by omega)] at hmem
    cases hmem
  have hwhole : block ++ rest = (block.take p ++ front) ++ (text ++ 0 :: (tail ++ rest)) := by
    conv_lhs => rw [← List.take_append_drop p block, hblock]
    simp
  rw [hwhole]
  exact cString_append (fun hin => hzero (by simp [hin])) (by simp [hle])

/-- `%d` reads a number that ends the string, or the largest `int`. -/
theorem scanInt_decimal (n : ℕ) : scanInt (decimal n) = some ((min n 2147483647 : ℕ) : Int) := by
  have hne : decimal n ≠ [] := by simp [decimal]
  obtain ⟨d, ds, hcons⟩ := List.exists_cons_of_ne_nil hne
  obtain ⟨hspace, hminus, hplus⟩ :=
    ne_of_isDigit (isDigit_of_mem_decimal (n := n) (b := d) (by simp [hcons]))
  have hdrop : (decimal n).dropWhile isSpace = decimal n := by
    rw [hcons, List.dropWhile_cons_of_neg (by simp [hspace])]
  have hhead : (decimal n).head? = some d := by rw [hcons, List.head?_cons]
  have hdigits : (decimal n).takeWhile isDigit = decimal n :=
    List.takeWhile_eq_self_iff.mpr fun b hb => isDigit_of_mem_decimal hb
  simp only [scanInt, hdrop, hhead, Option.some.injEq, hminus, hplus, or_self, if_false, hdigits,
    hne, digitsValue_decimal]
  omega

/-- A `POST` request that uploads a file: the fields that `main` looks for come once, or come
first. -/
structure UploadRequest where
  upload : Upload
  target : List UInt8
  mediaType : List UInt8
  fields : List (List UInt8)
  target_text : ∀ b ∈ target, b ≠ CR ∧ b ≠ LF ∧ b ≠ 0
  field_ne : ∀ field ∈ fields, field ≠ []
  field_text : ∀ field ∈ fields, ∀ b ∈ field, b ≠ CR ∧ b ≠ LF ∧ b ≠ 0
  length_field : fields.find? ((ascii "Content-Length: ").isPrefixOf ·) =
    some (ascii "Content-Length: " ++ decimal upload.body.length)
  type_field : fields.find? ((ascii "Content-Type: ").isPrefixOf ·) =
    some (ascii "Content-Type: " ++ (mediaType ++ (ascii "boundary=" ++ upload.boundary)))
  mediaType_text : ¬ ascii "boundary=" <:+: mediaType

namespace UploadRequest

/-- The request line and the fields. -/
def request (u : UploadRequest) : Request where
  lines := (ascii "POST " ++ u.target) :: u.fields
  body := u.upload.body
  lines_ne := by simp
  line_ne := by
    intro line hline
    rcases List.mem_cons.mp hline with rfl | hline
    · simp [ascii]
    · exact u.field_ne line hline
  line_text := by
    intro line hline b hb
    rcases List.mem_cons.mp hline with rfl | hline
    · rcases List.mem_append.mp hb with hb | hb
      · have hall : (ascii "POST ").all (fun b => b ≠ CR ∧ b ≠ LF ∧ b ≠ 0) = true := by decide
        simpa using List.all_eq_true.mp hall b hb
      · exact u.target_text b hb
    · exact u.field_text line hline b hb

variable (u : UploadRequest)

/-- A field is not the request line. -/
theorem find_field {key : List UInt8} {field : List UInt8}
    (hline : ¬ key <+: ascii "POST " ++ u.target)
    (hfind : u.fields.find? (key.isPrefixOf ·) = some field) :
    u.request.lines.find? (key.isPrefixOf ·) = some field := by
  rw [request, List.find?_cons_of_neg]
  · exact hfind
  · rwa [List.isPrefixOf_iff_prefix]

/-- The boundary stands behind the first `boundary=`: no other one overlaps with it. -/
theorem strstr_boundary :
    strstr (u.mediaType ++ (ascii "boundary=" ++ u.upload.boundary)) (ascii "boundary=") =
      some u.mediaType.length := by
  have hlength : (ascii "boundary=").length = 9 := by decide
  have hlt : u.mediaType.length <
      (u.mediaType ++ (ascii "boundary=" ++ u.upload.boundary)).length + 1 := by
    rw [List.length_append]
    omega
  refine first_eq_some_iff.mpr ⟨u.mediaType.length, hlt, if_pos ?_, ?_⟩
  · rw [List.isPrefixOf_iff_prefix, List.drop_left]
    exact List.prefix_append _ _
  · intro j hj
    rw [if_neg]
    rw [List.isPrefixOf_iff_prefix]
    intro hstarts
    by_cases hinside : j + 9 ≤ u.mediaType.length
    · have hfront := prefix_drop_append (by rwa [hlength]) hstarts
      exact u.mediaType_text (hfront.isInfix.trans (List.drop_suffix _ _).isInfix)
    · -- the `b` of the other one would stand inside this one
      have hne : ∀ i < 9, 0 < i → (ascii "boundary=")[i]? ≠ some 98 := by decide
      have hfirst : (ascii "boundary=")[0]? = some 98 := by decide
      refine hne (u.mediaType.length - j) (by omega) (by omega) ?_
      have hat := List.prefix_iff_getElem?.mp hstarts (u.mediaType.length - j) (by omega)
      rw [← List.getElem?_eq_getElem, List.getElem?_drop,
        Nat.add_sub_cancel' hj.le, List.getElem?_append_right le_rfl, Nat.sub_self,
        List.getElem?_append_left (by omega), hfirst] at hat
      exact hat.symm

/-- The value of `Content-Length`, and the place of the boundary. -/
theorem fields_found :
    ∃ length type : ℕ,
      headerValue (splitBlock u.request.lines ++ [0, 0]) u.request.head.length
        (ascii "Content-Length: ") = length ∧
      stringAt (splitBlock u.request.lines ++ [0, 0]) length =
        some (decimal u.upload.body.length) ∧
      headerValue (splitBlock u.request.lines ++ [0, 0]) u.request.head.length
        (ascii "Content-Type: ") = type ∧
      stringAt (splitBlock u.request.lines ++ [0, 0]) type =
        some (u.mediaType ++ (ascii "boundary=" ++ u.upload.boundary)) := by
  have hlength := u.find_field (by simp [ascii]) u.length_field
  have htype := u.find_field (by simp [ascii]) u.type_field
  obtain ⟨length, hvalue, hstring⟩ := u.request.headerValue_field (by decide) (by decide) hlength
  obtain ⟨type, hvalue', hstring'⟩ := u.request.headerValue_field (by decide) (by decide) htype
  exact ⟨length, type, hvalue, hstring, hvalue', hstring'⟩

theorem readHeader_eq (cfg : Config) :
    readHeader cfg (splitBlock u.request.lines ++ [0, 0]) u.request.head.length =
      readPost cfg (splitBlock u.request.lines ++ [0, 0]) u.request.head.length := by
  have hsplit := u.request.split_eq (show u.request.lines = _ from rfl)
  have hget : ¬ (ascii "GET ").isPrefixOf (splitBlock u.request.lines ++ [0, 0]) := by
    rw [hsplit]
    simp [ascii]
  have hpost : (ascii "POST ").isPrefixOf (splitBlock u.request.lines ++ [0, 0]) := by
    rw [List.isPrefixOf_iff_prefix, hsplit, List.append_assoc]
    exact List.prefix_append _ _
  rw [readHeader, if_neg hget, if_pos hpost]

/-- The header asks for the body, and names the boundary. -/
theorem asksFor (cfg : Config) (hbody : u.upload.body.length ≤ cfg.maxSize) :
    ∃ boundary, AsksFor cfg (splitBlock u.request.lines ++ [0, 0]) u.request.head.length
        u.upload.body.length boundary ∧
      ∀ rest, stringAt (splitBlock u.request.lines ++ [0, 0] ++ rest) boundary =
        some u.upload.boundary := by
  have hmax := cfg.maxSize_lt
  obtain ⟨length, type, hlength, hdigits, htype, hfield⟩ := u.fields_found
  refine ⟨type + u.mediaType.length + (ascii "boundary=").length, ⟨?_, by omega, by omega, ?_⟩, ?_⟩
  · refine ⟨decimal u.upload.body.length, by rw [hlength]; omega, by rwa [hlength], ?_⟩
    rw [scanInt_decimal, Nat.min_eq_left (by omega)]
  · refine ⟨_, u.mediaType.length, by rw [htype]; omega, by rwa [htype], u.strstr_boundary, ?_⟩
    rw [htype, Int.toNat_natCast]
  · intro rest
    rw [← List.append_assoc] at hfield
    have hinside := stringAt_inside hfield rest
    rwa [List.length_append, ← Nat.add_assoc] at hinside

variable {u}

/-- The decision on the header of an upload that fits into the buffer. -/
theorem readHeader_post {cfg : Config} (hroom : u.request.bytes.length < cfg.maxSize) :
    ∃ boundary, readHeader cfg (splitBlock u.request.lines ++ [0, 0]) u.request.head.length =
        .post u.upload.body.length u.request.bytes.length boundary ∧
      ∀ rest, stringAt (splitBlock u.request.lines ++ [0, 0] ++ rest) boundary =
        some u.upload.boundary := by
  have hlength : u.request.bytes.length = u.request.head.length + u.upload.body.length :=
    u.request.length_bytes
  have hint := cfg.maxSize_lt
  obtain ⟨boundary, hasks, hstring⟩ := u.asksFor cfg (by omega)
  have hsum : wrapInt (u.upload.body.length + u.request.head.length) =
      u.request.bytes.length := by
    rcases wrapInt_add (a := u.upload.body.length) (b := u.request.head.length) (by omega)
      (by omega) (by omega) with h | h
    · omega
    · omega
  refine ⟨boundary, ?_, hstring⟩
  rw [u.readHeader_eq, readPost_of_asksFor hasks, hsum, if_neg (by omega)]

/-- The verdict on the whole request. -/
theorem verdict_eq {cfg : Config} {user : User} (hmax : u.request.head.length ≤ HEADER_MAX)
    (hpart : u.upload.headers.length + 3 < HEADER_MAX)
    (hroom : u.request.bytes.length < cfg.maxSize) (hconfirms : user.Confirms)
    (hopen : user.canOpen u.upload.filename) :
    verdict cfg user u.request.bytes = some (.action (.upload u.upload.body u.upload.boundary
      { message := none, saved := some (u.upload.filename, u.upload.content) })) := by
  have hlength : u.request.bytes.length = u.request.head.length + u.upload.body.length :=
    u.request.length_bytes
  have hsplit := u.request.length_split
  obtain ⟨boundary, hread, hstring⟩ := readHeader_post hroom
  have hverdict := u.request.verdict_head cfg user hmax u.upload.body
  rw [hread] at hverdict
  refine hverdict.trans ?_
  have hall : ((u.request.head ++ u.upload.body).length : Int) = u.request.bytes.length := rfl
  dsimp only
  rw [if_pos (Int.le_of_eq hall.symm), completeRequest, if_neg (by omega)]
  set header := splitBlock u.request.lines ++ [0, 0] with hheader
  have hhead : header.length = u.request.head.length := by
    rw [hheader, ← hsplit]
    simp
  have hrest : (u.request.bytes.length - header.length : Int) = u.upload.body.length := by
    omega
  obtain ⟨block', hparse⟩ :=
    parseHttpContent_upload u.upload hpart user hconfirms hopen header [0]
  rw [hrest, Int.toNat_natCast, List.take_length, List.append_assoc, hstring]
  dsimp only
  rw [hparse]

/-- There is no verdict before the body is complete. -/
theorem verdict_short {cfg : Config} (user : User) (hmax : u.request.head.length ≤ HEADER_MAX)
    (hroom : u.request.bytes.length < cfg.maxSize) {q : List UInt8} (hq : q <+: u.request.bytes)
    (hlt : q.length < u.request.bytes.length) : verdict cfg user q = none := by
  by_cases hhead : q.length < u.request.head.length
  · exact u.request.verdict_short cfg user hmax hq hhead
  obtain ⟨rest, rfl⟩ : u.request.head <+: q :=
    List.prefix_of_prefix_length_le (List.prefix_append _ _) hq (not_lt.mp hhead)
  obtain ⟨boundary, hread, -⟩ := readHeader_post hroom
  have hverdict := u.request.verdict_head cfg user hmax rest
  rw [hread] at hverdict
  dsimp only at hverdict
  rwa [if_neg (by omega)] at hverdict

end UploadRequest

/-- What a browser sends for the form of the server. -/
def Upload.post (u : Upload) : UploadRequest where
  upload := u
  target := ascii "/upload.html HTTP/1.1"
  mediaType := ascii "multipart/form-data; "
  fields := [ascii "Content-Length: " ++ decimal u.body.length,
    ascii "Content-Type: " ++
      (ascii "multipart/form-data; " ++ (ascii "boundary=" ++ u.boundary))]
  target_text := by
    have hall : (ascii "/upload.html HTTP/1.1").all (fun b => b ≠ CR ∧ b ≠ LF ∧ b ≠ 0) = true := by
      decide
    simpa using hall
  field_ne := by simp [ascii]
  field_text := by
    have hlength : (ascii "Content-Length: ").all (fun b => b ≠ CR ∧ b ≠ LF ∧ b ≠ 0) = true := by
      decide
    have htype : (ascii "Content-Type: " ++ (ascii "multipart/form-data; " ++
        ascii "boundary=")).all (fun b => b ≠ CR ∧ b ≠ LF ∧ b ≠ 0) = true := by
      decide
    intro field hfield b hb
    rw [List.mem_cons, List.mem_singleton] at hfield
    rcases hfield with rfl | rfl
    · rcases List.mem_append.mp hb with hb | hb
      · simpa using List.all_eq_true.mp hlength b hb
      · have hdigit := isDigit_of_mem_decimal hb
        refine ⟨?_, ?_, ?_⟩ <;> rintro rfl <;> exact absurd hdigit (by decide)
    · rw [← List.append_assoc, ← List.append_assoc,
        List.append_assoc (ascii "Content-Type: ")] at hb
      rcases List.mem_append.mp hb with hb | hb
      · simpa using List.all_eq_true.mp htype b hb
      · exact u.boundary_text b hb
  length_field := by
    rw [List.find?_cons_of_pos]
    rw [List.isPrefixOf_iff_prefix]
    exact List.prefix_append _ _
  type_field := by
    rw [List.find?_cons_of_neg, List.find?_cons_of_pos]
    · rw [List.isPrefixOf_iff_prefix]
      exact List.prefix_append _ _
    · simp [ascii]
  mediaType_text := by
    refine not_infix_of_strstr ?_
    rw [ascii_ofList, ascii_ofList]
    decide

/-- A kilobyte for a request and a file to serve. -/
def kiloConfig : Config where
  maxSize := 1024
  maxSize_lt := by decide
  filename := some [97]
  filename_text := by simp

/-- The state of the loop on a new connection. -/
def kiloServer : Server where
  readBuffer := List.replicate 1024 0
  readCount := 0
  httpHeader := -1
  contentLength := -1
  requiredLength := -1
  connectionId := 1
  complete := false
  boundary := none

theorem kiloServer_opening : Opening kiloConfig kiloServer :=
  ⟨List.length_replicate, rfl, rfl, rfl⟩

/-- The client asks for the file that the server sends. -/
def fileRequest : Request where
  lines := [ascii "GET /a HTTP/1.1"]
  body := []
  lines_ne := by simp
  line_ne := by simp [ascii]
  line_text := by
    have hall : (ascii "GET /a HTTP/1.1").all (fun b => b ≠ CR ∧ b ≠ LF ∧ b ≠ 0) = true := by
      decide
    simpa using hall

theorem get_served_file :
    serveAll kiloConfig willingUser kiloServer [ascii "GET /a HT", ascii "TP/1.1\r\n\r\n"] =
      .action (.file [97]) := by
  have hline : fileRequest.lines.head? =
      some (ascii "GET " ++ (ascii "/a" ++ 32 :: ascii "HTTP/1.1")) := by
    decide
  have hflat : [ascii "GET /a HT", ascii "TP/1.1\r\n\r\n"].flatten = fileRequest.head ++ [] := by
    decide
  exact get_served fileRequest hline (by decide) (by decide) (by decide) (by decide)
    kiloServer_opening hflat (kiloServer_opening.opened.fits (by decide))

end EthTransfer
