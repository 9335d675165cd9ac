import EthTransfer.Http.Agreement

/-!
# TCP segmentation

The server reads a request in the pieces that `read_tcp` returns, and looks for the end
of the header after each of them.  `verdict` is what the server makes of the bytes that
it has read, as a function of these bytes alone, and `Opened` says that a state of the
loop is one after these bytes.

* `arrive_opened`: where a pass stands after the header.
* `serve_opened`: a pass gives the verdict, or waits in a state after the longer bytes.
* `verdict_append`: a verdict stays when bytes arrive behind it.
* `serveAll_eq`: the result of the loop is a function of the whole request.
-/

namespace EthTransfer

open Search

/-! ## The loop over one connection -/

/-- What the loop does with a connection. -/
inductive Result where
  | action (action : Action)
  | waiting
  | exhausted
  | faulted
  deriving DecidableEq

/-- The passes of the loop over what `read_tcp` returns: `[]` is a result of zero.  When
nothing more arrives, the next pass exits or the connection stays open. -/
def serveAll (cfg : Config) (user : User) : Server → List (List UInt8) → Result
  | s, [] => if (cfg.maxSize : Int) - s.readCount ≤ 0 then .exhausted else .waiting
  | s, chunk :: rest =>
    match serve cfg user s (some chunk) with
    | .waits s => serveAll cfg user s rest
    | .responds _ action => .action action
    | .exits => .exhausted
    | .faults => .faulted

/-- No call of `read_tcp` returns more than `max_data`. -/
def Fits (cfg : Config) (user : User) : Server → List (List UInt8) → Prop
  | _, [] => True
  | s, chunk :: rest =>
    (cfg.maxSize : Int) - s.readCount ≤ 0 ∨
      (chunk.length : Int) ≤ cfg.maxSize - s.readCount ∧
        ∀ s', serve cfg user s (some chunk) = .waits s' → Fits cfg user s' rest

/-- The state when `open_tcp` has returned a connection. -/
structure Opening (cfg : Config) (s : Server) : Prop where
  readBuffer : s.readBuffer.length = cfg.maxSize
  readCount : s.readCount = 0
  httpHeader : s.httpHeader = -1
  requiredLength : s.requiredLength = -1

/-! ## The header scan on a growing buffer -/

theorem headerEnd_stable {buffer buffer' : List UInt8} {len len' i : ℕ} (hle : len ≤ len')
    (hagree : ∀ j < len, buffer.getD j 0 = buffer'.getD j 0) (hi : i + 2 < len) :
    headerEnd buffer len i = headerEnd buffer' len' i := by
  unfold headerEnd
  rw [hagree i (by omega), hagree (i + 1) (by omega), hagree (i + 2) hi]
  simp [show i + 1 < len by omega, show i + 1 < len' by omega, hi, show i + 2 < len' by omega]

/-- A blank line that was found is found in a longer buffer. -/
theorem headerEnd_mono {buffer buffer' : List UInt8} {len len' i e : ℕ} (hle : len ≤ len')
    (hagree : ∀ j < len, buffer.getD j 0 = buffer'.getD j 0)
    (hend : headerEnd buffer len i = some e) : headerEnd buffer' len' i = some e ∧ i + 1 < len := by
  unfold headerEnd at hend ⊢
  split_ifs at hend with hlf hfirst hsecond
  · rw [← hagree i (by omega), ← hagree (i + 1) (by omega), if_pos hlf,
      if_pos ⟨by omega, hfirst.2⟩]
    exact ⟨hend, by omega⟩
  · obtain ⟨hlt, hcr, hlf'⟩ := hsecond
    have hne : ¬ (i + 1 < len' ∧ buffer.getD (i + 1) 0 = LF) := by
      rintro ⟨-, h⟩
      rw [h] at hcr
      exact absurd hcr (by decide)
    rw [← hagree i (by omega), ← hagree (i + 1) (by omega), ← hagree (i + 2) hlt, if_pos hlf,
      if_neg hne, if_pos ⟨by omega, hcr, hlf'⟩]
    exact ⟨hend, by omega⟩

theorem getD_append_left (p rest : List UInt8) {i : ℕ} (hi : i < p.length) :
    (p ++ rest).getD i 0 = p.getD i 0 := by
  rw [List.getD_eq_getElem?_getD, List.getD_eq_getElem?_getD, List.getElem?_append_left hi]

/-- What lies behind the length does not count. -/
theorem headerScan_append_right (p rest : List UInt8) :
    headerScan (p ++ rest) p.length = headerScan p p.length :=
  headerScan_congr fun _ hi => getD_append_left p rest (by omega)

/-- The header that was found is found when more has been read. -/
theorem headerScan_append {p : List UInt8} (rest : List UInt8)
    (hfound : headerScan p p.length ≠ -1) :
    headerScan (p ++ rest) (p ++ rest).length = headerScan p p.length := by
  have hle : min (p.length : Int).toNat HEADER_MAX ≤
      min ((p ++ rest).length : Int).toNat HEADER_MAX := by
    rw [List.length_append]
    omega
  have hagree (j : ℕ) (hj : j < min (p.length : Int).toNat HEADER_MAX) :
      p.getD j 0 = (p ++ rest).getD j 0 := (getD_append_left p rest (by omega)).symm
  generalize hscan : headerScan p p.length = e at hfound
  unfold headerScan at hscan
  rw [if_neg (by omega)] at hscan
  dsimp only at hscan
  split at hscan
  · rename_i e' hfirst
    obtain ⟨i, hi, hend, hbefore⟩ := first_eq_some_iff.mp hfirst
    obtain ⟨hend', hlt⟩ := headerEnd_mono hle hagree hend
    rw [headerScan_eq (by omega) (by omega) hend', hscan]
    intro j hj
    rw [← headerEnd_stable hle hagree (by omega), hbefore j hj]
  · exact absurd hscan.symm hfound

/-! ## What the bytes decide -/

/-- The header as `main` reads it: split into strings, with a zero at its end. -/
def headerBytes (p : List UInt8) (h : ℕ) : Block := splitHeader (p.take (h - 1) ++ [0]) 0 h

/-- What a complete `POST` request ends with; `rest` are the bytes behind the header. -/
def completeRequest (user : User) (header rest : List UInt8) (required : Int) (boundary : ℕ) :
    Result :=
  let content := rest.take (required - header.length).toNat
  let buffer := header ++ content ++ [0]
  if required < 0 then .faulted
  else
    match stringAt buffer boundary with
    | none => .faulted
    | some boundary =>
      match parseHttpContent user buffer header.length (required - header.length) boundary with
      | none => .faulted
      | some (_, outcome) => .action (.upload content boundary outcome)

/-- What the loop does with a connection that has sent `p`; `none` when it waits for
more. -/
def verdict (cfg : Config) (user : User) (p : List UInt8) : Option Result :=
  let h := headerScan p p.length
  if h = -1 then none
  else
    let header := headerBytes p h.toNat
    match readHeader cfg header h with
    | .respond action => some (.action action)
    | .post _ required boundary =>
      if (p.length : Int) ≥ required then
        some (completeRequest user header (p.drop h.toNat) required boundary)
      else none
    | .other => some .faulted
    | .fault => some .faulted

theorem length_headerBytes {p : List UInt8} {h : ℕ} (hpos : 0 < h) (hle : h ≤ p.length) :
    (headerBytes p h).length = h := by
  simp [headerBytes, splitHeader]
  omega

theorem headerBytes_append {p : List UInt8} (rest : List UInt8) {h : ℕ} (hle : h ≤ p.length) :
    headerBytes (p ++ rest) h = headerBytes p h := by
  rw [headerBytes, headerBytes, List.take_append_of_le_length (by omega)]

/-- The header ends with a zero, and what lies behind it in two blocks does not count. -/
theorem agreeTo_headerBytes {p : List UInt8} {h : ℕ} (hpos : 0 < h) (hle : h ≤ p.length)
    (rest rest' : List UInt8) :
    AgreeTo (h - 1) (headerBytes p h ++ rest) (headerBytes p h ++ rest') := by
  have hsplit : headerBytes p h = (p.take (h - 1)).map splitByte ++ [0] := by
    have hlength : (p.take (h - 1) ++ [0]).length = h := by
      simp
      omega
    have happ := splitHeader_append [] (p.take (h - 1) ++ [0]) []
    rw [hlength, List.nil_append, List.append_nil, List.nil_append, List.append_nil,
      List.map_append] at happ
    exact happ
  refine ⟨(p.take (h - 1)).map splitByte, rest, rest', by simp; omega, ?_, ?_⟩ <;> simp [hsplit]

theorem verdict_of_scan (cfg : Config) (user : User) {p : List UInt8} {h : Int}
    (hscan : headerScan p p.length = h) (hfound : h ≠ -1) :
    verdict cfg user p =
      match readHeader cfg (headerBytes p h.toNat) h with
      | .respond action => some (.action action)
      | .post _ required boundary =>
        if (p.length : Int) ≥ required then
          some (completeRequest user (headerBytes p h.toNat) (p.drop h.toNat) required boundary)
        else none
      | .other => some .faulted
      | .fault => some .faulted := by
  subst hscan
  unfold verdict
  dsimp only
  rw [if_neg hfound]

/-- A verdict stays when more arrives. -/
theorem verdict_append {cfg : Config} {user : User} {p : List UInt8} (rest : List UInt8)
    {result : Result} (hverdict : verdict cfg user p = some result) :
    verdict cfg user (p ++ rest) = some result := by
  by_cases hnone : headerScan p p.length = -1
  · simp [verdict, hnone] at hverdict
  · obtain ⟨hlow, hhigh⟩ := headerScan_bounds rfl hnone
    rw [verdict_of_scan cfg user rfl hnone] at hverdict
    rw [verdict_of_scan cfg user (headerScan_append rest hnone) hnone,
      headerBytes_append rest (by omega)]
    cases hread : readHeader cfg (headerBytes p (headerScan p p.length).toNat)
      (headerScan p p.length) with
    | respond action => rwa [hread] at hverdict
    | other => rwa [hread] at hverdict
    | fault => rwa [hread] at hverdict
    | post n required boundary =>
      rw [hread] at hverdict
      dsimp only at hverdict ⊢
      split_ifs at hverdict with hdone
      have hlength := length_headerBytes (p := p) (h := (headerScan p p.length).toNat) (by omega)
        (by omega)
      have hmore : ((p ++ rest).length : Int) ≥ required := by
        rw [List.length_append]
        omega
      rw [if_pos hmore, ← hverdict, completeRequest, completeRequest,
        List.drop_append_of_le_length (by omega), List.take_append_of_le_length]
      rw [List.length_drop, hlength]
      omega

/-! ## States of the loop -/

/-- The result of a pass that ends the loop over a connection. -/
def Turn.result : Turn → Option Result
  | .waits _ => none
  | .responds _ action => some (.action action)
  | .exits => some .exhausted
  | .faults => some .faulted

/-- `read_buffer` and `read_count` after the bytes `p`. -/
structure Stored (cfg : Config) (p : List UInt8) (s : Server) : Prop where
  readBuffer : s.readBuffer.length = cfg.maxSize
  readCount : s.readCount = p.length
  le_max : p.length ≤ cfg.maxSize

/-- The header is not complete. -/
structure Scanning (p : List UInt8) (s : Server) : Prop where
  scan : headerScan p p.length = -1
  httpHeader : s.httpHeader = -1
  requiredLength : s.requiredLength = -1
  bytes : p <+: s.readBuffer

/-- The header of a `POST` request is complete. -/
structure Reading (cfg : Config) (p : List UInt8) (h c required : Int) (boundary : ℕ)
    (s : Server) : Prop where
  scan : headerScan p p.length = h
  found : h ≠ -1
  decision : readHeader cfg (headerBytes p h.toNat) h = .post c required boundary
  httpHeader : s.httpHeader = h
  requiredLength : s.requiredLength = required
  boundary : s.boundary = some boundary
  bytes : headerBytes p h.toNat ++ p.drop h.toNat <+: s.readBuffer

/-- The loop has read `p` and waits for more. -/
structure Opened (cfg : Config) (p : List UInt8) (s : Server) : Prop where
  stored : Stored cfg p s
  progress : Scanning p s ∨
    ∃ h c required boundary, Reading cfg p h c required boundary s ∧ (p.length : Int) < required

/-- A pass after which the loop has read `p`. -/
structure Follows (cfg : Config) (user : User) (p : List UInt8) (turn : Turn) : Prop where
  result : turn.result = verdict cfg user p
  waits : ∀ s, turn = .waits s → Opened cfg p s

variable {cfg : Config} {user : User} {p chunk : List UInt8} {s : Server}

theorem Opening.opened (h : Opening cfg s) : Opened cfg [] s where
  stored := ⟨h.readBuffer, by simp [h.readCount], by simp⟩
  progress := .inl ⟨rfl, h.httpHeader, h.requiredLength, List.nil_prefix⟩

/-- There is no verdict on the bytes after which the loop waits. -/
theorem Opened.verdict_eq_none (h : Opened cfg p s) (user : User) :
    verdict cfg user p = none := by
  unfold verdict
  rcases h.progress with hscan | ⟨e, c, required, boundary, hreading, hlt⟩
  · simp [hscan.scan]
  · simp [hreading.scan, hreading.found, hreading.decision, show ¬ required ≤ p.length by omega]

/-! ## A pass -/

/-- `main` writes a zero behind the bytes of the request. -/
theorem agreeTo_set {front rest : List UInt8} {buffer : Block} (required : ℕ)
    (hstarts : front ++ rest <+: buffer) (hle : front.length ≤ required)
    (hrest : required ≤ (front ++ rest).length) (hlt : required < buffer.length) :
    AgreeTo required (buffer.set required 0)
      (front ++ rest.take (required - front.length) ++ [0]) := by
  obtain ⟨tail, rfl⟩ := hstarts
  have htake : (front ++ rest ++ tail).take required =
      front ++ rest.take (required - front.length) := by
    rw [List.take_append_of_le_length hrest, List.take_append, List.take_of_length_le hle]
  refine ⟨front ++ rest.take (required - front.length),
    (front ++ rest ++ tail).drop (required + 1), [], ?_, ?_, rfl⟩
  · rw [← htake, List.length_take]
    omega
  · rw [List.set_eq_take_append_cons_drop, if_pos hlt, htake]

theorem Reading.bounds {h c required : Int} {boundary : ℕ}
    (hreading : Reading cfg p h c required boundary s) : 2 ≤ h ∧ h ≤ p.length :=
  headerScan_bounds hreading.scan hreading.found

/-- What an accepted request is like. -/
theorem Reading.post {h c required : Int} {boundary : ℕ}
    (hreading : Reading cfg p h c required boundary s) :
    AsksFor cfg (headerBytes p h.toNat) h c boundary ∧ required = wrapInt (c + h) ∧
      required ≤ cfg.maxSize - 1 ∧ boundary ≤ h.toNat - 1 := by
  obtain ⟨hlow, hhigh⟩ := hreading.bounds
  have hread := readHeader_post hreading.decision
  have hagree := agreeTo_headerBytes (p := p) (h := h.toNat) (by omega) (by omega) [] []
  rw [List.append_nil] at hagree
  have hread' : readPost cfg (headerBytes p h.toNat) ((h.toNat - 1 : ℕ) + 1) =
      .post c required boundary := by
    rwa [show ((h.toNat - 1 : ℕ) : Int) + 1 = h by omega]
  obtain ⟨hasks, hrequired, hfits⟩ := readPost_post hread
  exact ⟨hasks, hrequired, hfits, hagree.boundary_le hread'⟩

/-- The length that an accepted request asks for: the sum of the two lengths, unless an
`int` cannot hold it. -/
theorem Reading.required_eq {h c required : Int} {boundary : ℕ}
    (hreading : Reading cfg p h c required boundary s) (hmax : p.length ≤ cfg.maxSize) :
    0 ≤ c ∧ (c + h < 2147483648 ∧ required = c + h ∨ 2147483648 ≤ c + h ∧ required < 0) := by
  obtain ⟨hasks, hrequired, -, -⟩ := hreading.post
  obtain ⟨hlow, hhigh⟩ := hreading.bounds
  have hbound := cfg.maxSize_lt
  have hle := hasks.le_max
  rw [hrequired]
  exact ⟨hasks.nonneg, wrapInt_add hasks.nonneg (by omega) (by omega)⟩

/-- The end of a pass whose request is complete. -/
theorem Reading.result (user : User) {h c required : Int} {boundary : ℕ} (hstored : Stored cfg p s)
    (hreading : Reading cfg p h c required boundary s) (hready : required ≤ p.length) :
    (finish user s).result =
      some (completeRequest user (headerBytes p h.toNat) (p.drop h.toNat) required boundary) := by
  obtain ⟨hlow, hhigh⟩ := hreading.bounds
  obtain ⟨-, -, hfits, hboundary⟩ := hreading.post
  have hlength := length_headerBytes (p := p) (h := h.toNat) (by omega) (by omega)
  unfold finish completeRequest
  rw [hreading.requiredLength, hreading.httpHeader, hreading.boundary, hstored.readCount,
    if_pos hready]
  by_cases hneg : required < 0
  · rw [if_pos hneg, writeAt, if_neg (by omega)]
    rfl
  · have hmax := hstored.le_max
    obtain ⟨hc, hrequired⟩ := hreading.required_eq hmax
    have hagree := agreeTo_set required.toNat hreading.bytes (by omega)
      (by rw [List.length_append, List.length_drop]; omega)
      (by have hbuffer := hstored.readBuffer; omega)
    rw [if_neg hneg, writeAt, if_pos ⟨by omega, by rw [hstored.readBuffer]; omega⟩]
    dsimp only [Option.bind_some]
    rw [show (required - (headerBytes p h.toNat).length).toNat =
      required.toNat - (headerBytes p h.toNat).length by omega,
      ← hagree.stringAt (show boundary ≤ required.toNat by omega), hlength]
    rw [hlength] at hagree
    cases stringAt (s.readBuffer.set required.toNat 0) boundary with
    | none => rfl
    | some text =>
      have hcontent : ((s.readBuffer.set required.toNat 0).drop h.toNat).take
          (required - h).toNat = (p.drop h.toNat).take (required.toNat - h.toNat) := by
        rw [hagree.take_drop (by omega), List.append_assoc, List.drop_left' hlength,
          List.take_append_of_le_length (by simp; omega),
          List.take_of_length_le (by simp; omega)]
      have hparse := hagree.parseHttpContent user (show h.toNat ≤ required.toNat by omega)
        (show (h.toNat : Int) + (required - h) ≤ required.toNat by omega) text
      dsimp only
      rw [show required - (h.toNat : Int) = required - h by omega, hcontent]
      generalize parseHttpContent user (s.readBuffer.set required.toNat 0) h.toNat
        (required - h) text = x at hparse
      generalize parseHttpContent user (headerBytes p h.toNat ++
        (p.drop h.toNat).take (required.toNat - h.toNat) ++ [0]) h.toNat (required - h) text = y
        at hparse
      cases hparse with
      | none => rfl
      | some houtcome =>
        dsimp only
        rw [houtcome]
        rfl

theorem Reading.follows {h c required : Int} {boundary : ℕ} (hstored : Stored cfg p s)
    (hreading : Reading cfg p h c required boundary s) : Follows cfg user p (finish user s) := by
  have hverdict : verdict cfg user p = if (p.length : Int) ≥ required then
      some (completeRequest user (headerBytes p h.toNat) (p.drop h.toNat) required boundary)
      else none := by
    rw [verdict_of_scan cfg user hreading.scan hreading.found, hreading.decision]
  by_cases hready : required ≤ p.length
  · have hresult := hreading.result user hstored hready
    rw [if_pos hready] at hverdict
    refine ⟨by rw [hresult, hverdict], fun s' hwaits => ?_⟩
    rw [hwaits] at hresult
    cases hresult
  · have hwaits : finish user s = .waits s := by
      rw [finish, hreading.requiredLength, hstored.readCount, if_neg hready]
    rw [if_neg hready] at hverdict
    rw [hwaits]
    refine ⟨hverdict.symm, fun s' hs => ?_⟩
    cases hs
    exact ⟨hstored, .inr ⟨h, c, required, boundary, hreading, by omega⟩⟩

/-- The header is cut into strings where it stands. -/
theorem splitHeader_set {rest : List UInt8} {h : ℕ} (hpos : 0 < h) (hle : h ≤ p.length) :
    splitHeader ((p ++ rest).set (h - 1) 0) 0 h = headerBytes p h ++ (p.drop h ++ rest) := by
  have hset : (p ++ rest).set (h - 1) 0 = (p.take (h - 1) ++ [0]) ++ (p.drop h ++ rest) := by
    rw [List.set_eq_take_append_cons_drop, if_pos (by rw [List.length_append]; omega),
      List.take_append_of_le_length (by omega), show h - 1 + 1 = h by omega,
      List.drop_append_of_le_length hle]
    simp
  have hlength : (p.take (h - 1) ++ [0]).length = h := by
    simp
    omega
  have hsplit (tail : List UInt8) := splitHeader_append [] (p.take (h - 1) ++ [0]) tail
  have hnil := hsplit []
  have hcut := hsplit (p.drop h ++ rest)
  rw [hlength, List.length_nil, List.nil_append, List.nil_append] at hcut hnil
  rw [List.append_nil, List.append_nil] at hnil
  rw [hset, hcut, headerBytes, hnil]

/-- Where a pass that has read `p` stands after the header. -/
inductive Arrives (cfg : Config) (p : List UInt8) : Passing → Prop where
  | scanning {s : Server} (hopened : Opened cfg p s) (hscan : headerScan p p.length = -1) :
      Arrives cfg p (.over (.waits s))
  | answered {h : Int} {action : Action} {s : Server} (hscan : headerScan p p.length = h)
      (hfound : h ≠ -1) (hdecision : readHeader cfg (headerBytes p h.toNat) h = .respond action)
      (hlength : s.readBuffer.length = cfg.maxSize) :
      Arrives cfg p (.over (s.respond action))
  | fault {h : Int} (hscan : headerScan p p.length = h) (hfound : h ≠ -1)
      (hdecision : readHeader cfg (headerBytes p h.toNat) h = .fault) :
      Arrives cfg p (.over .faults)
  | other {h : Int} {s : Server} (hscan : headerScan p p.length = h) (hfound : h ≠ -1)
      (hdecision : readHeader cfg (headerBytes p h.toNat) h = .other) (hstored : Stored cfg p s)
      (hrequired : s.requiredLength = -1) (hboundary : s.boundary = none) :
      Arrives cfg p (.asks s)
  | reading {h c required : Int} {boundary : ℕ} {s : Server} (hstored : Stored cfg p s)
      (hreading : Reading cfg p h c required boundary s) : Arrives cfg p (.asks s)

/-- The branch that looks for the header. -/
theorem scanRequest_arrives (hstored : Stored cfg p s) (hrequired : s.requiredLength = -1)
    (hbytes : p <+: s.readBuffer) : Arrives cfg p (scanRequest cfg s) := by
  obtain ⟨rest, hrest⟩ := hbytes
  have hscan : headerScan s.readBuffer s.readCount = headerScan p p.length := by
    rw [← hrest, hstored.readCount, headerScan_append_right]
  unfold scanRequest
  dsimp only
  rw [hscan]
  by_cases hnone : headerScan p p.length = -1
  · rw [if_pos hnone]
    exact .scanning ⟨⟨hstored.readBuffer, hstored.readCount, hstored.le_max⟩,
      .inl ⟨hnone, hnone, hrequired, ⟨rest, hrest⟩⟩⟩ hnone
  · obtain ⟨hlow, hhigh⟩ := headerScan_bounds rfl hnone
    generalize hh : headerScan p p.length = h at *
    have hmax := hstored.le_max
    rw [if_neg hnone, writeAt, if_pos ⟨by omega, by rw [hstored.readBuffer]; omega⟩]
    dsimp only
    rw [show (h - 1).toNat = h.toNat - 1 by omega, ← hrest,
      splitHeader_set (by omega) (by omega)]
    have hdecision : readHeader cfg (headerBytes p h.toNat ++ (p.drop h.toNat ++ rest)) h =
        readHeader cfg (headerBytes p h.toNat) h := by
      have hagree := agreeTo_headerBytes (p := p) (h := h.toNat) (by omega) (by omega)
        (p.drop h.toNat ++ rest) []
      have hread := hagree.readHeader cfg
      rwa [List.append_nil, show ((h.toNat - 1 : ℕ) : Int) + 1 = h by omega] at hread
    have hlength : (headerBytes p h.toNat ++ (p.drop h.toNat ++ rest)).length = cfg.maxSize := by
      have hcut := length_headerBytes (p := p) (h := h.toNat) (by omega) (by omega)
      have hbuffer := hstored.readBuffer
      rw [← hrest, List.length_append] at hbuffer
      simp only [List.length_append, List.length_drop, hcut]
      omega
    rw [hdecision]
    cases hread : readHeader cfg (headerBytes p h.toNat) h with
    | respond action => exact .answered hh hnone hread hlength
    | fault => exact .fault hh hnone hread
    | other => exact .other hh hnone hread ⟨hlength, hstored.readCount, hmax⟩ hrequired rfl
    | post c required boundary =>
      exact .reading (c := c) ⟨hlength, hstored.readCount, hmax⟩
        ⟨hh, hnone, hread, rfl, rfl, rfl, rest, by simp⟩

/-- A pass over an open connection, up to the line that asks whether the request is
complete. -/
theorem arrive_opened (chunk : List UInt8) (hopened : Opened cfg p s)
    (hroom : p.length < cfg.maxSize) (hfits : p.length + chunk.length ≤ cfg.maxSize) :
    Arrives cfg (p ++ chunk) (arrive cfg s (some chunk)) := by
  have hstored := hopened.stored
  have hbuffer := hstored.readBuffer
  have hcount : s.readCount.toNat = p.length := by
    have h := hstored.readCount
    omega
  have hstored' : Stored cfg (p ++ chunk) (s.store (some chunk)) := by
    refine ⟨?_, ?_, by rw [List.length_append]; omega⟩
    · simp [Server.store, hcount]
      omega
    · simp [Server.store, hstored.readCount]
  -- the bytes that are kept stand in front of the new ones
  have hbytes {q : List UInt8} (hq : q <+: s.readBuffer) (hlength : q.length = p.length) :
      q ++ chunk <+: (s.store (some chunk)).readBuffer := by
    have htake : s.readBuffer.take p.length = q := by
      rw [← hlength]
      exact (List.prefix_iff_eq_take.mp hq).symm
    simp only [Server.store, hcount, htake]
    exact List.prefix_append _ _
  unfold arrive
  rw [if_neg (by have h := hstored.readCount; omega)]
  rcases hopened.progress with hscan | ⟨h, c, required, boundary, hreading, hlt⟩
  · dsimp only
    rw [if_pos (show (s.store (some chunk)).httpHeader = -1 from hscan.httpHeader)]
    exact scanRequest_arrives hstored' hscan.requiredLength (hbytes hscan.bytes rfl)
  · obtain ⟨hlow, hhigh⟩ := hreading.bounds
    have hlength := length_headerBytes (p := p) (h := h.toNat) (by omega) (by omega)
    dsimp only
    rw [if_neg (show ¬ (s.store (some chunk)).httpHeader = -1 by
      rw [show (s.store (some chunk)).httpHeader = h from hreading.httpHeader]
      exact hreading.found)]
    refine .reading (c := c) hstored'
      ⟨?_, hreading.found, ?_, hreading.httpHeader, hreading.requiredLength, hreading.boundary, ?_⟩
    · rw [headerScan_append _ (by rw [hreading.scan]; exact hreading.found), hreading.scan]
    · rw [headerBytes_append _ (by omega)]
      exact hreading.decision
    · have hmore := hbytes hreading.bytes (by rw [List.length_append, List.length_drop]; omega)
      rw [headerBytes_append _ (by omega), List.drop_append_of_le_length (by omega),
        ← List.append_assoc]
      exact hmore

/-- The rest of the pass. -/
def Passing.turn (user : User) : Passing → Turn
  | .over turn => turn
  | .asks s => finish user s

theorem serve_eq (cfg : Config) (user : User) (s : Server) (read : Option (List UInt8)) :
    serve cfg user s read = (arrive cfg s read).turn user := by
  unfold serve
  cases arrive cfg s read <;> rfl

theorem Arrives.follows {passing : Passing} (harrives : Arrives cfg p passing) (user : User) :
    Follows cfg user p (passing.turn user) := by
  cases harrives with
  | scanning hopened hscan =>
    refine ⟨(hopened.verdict_eq_none user).symm, fun s' hs => ?_⟩
    cases hs
    exact hopened
  | answered hscan hfound hdecision =>
    refine ⟨?_, fun s' hs => by cases hs⟩
    rw [verdict_of_scan cfg user hscan hfound, hdecision]
    rfl
  | fault hscan hfound hdecision =>
    refine ⟨?_, fun s' hs => by cases hs⟩
    rw [verdict_of_scan cfg user hscan hfound, hdecision]
    rfl
  | @other _ s hscan hfound hdecision hstored hrequired =>
    have hfaults : finish user s = .faults := by
      rw [finish, hrequired, hstored.readCount, if_pos (by omega), writeAt, if_neg (by simp)]
    rw [Passing.turn, hfaults]
    refine ⟨?_, fun s' hs => by cases hs⟩
    rw [verdict_of_scan cfg user hscan hfound, hdecision]
    rfl
  | reading hstored hreading => exact hreading.follows hstored

/-- A pass over an open connection gives the verdict on the longer bytes, or waits in a
state after them. -/
theorem serve_opened (user : User) (chunk : List UInt8) (hopened : Opened cfg p s)
    (hroom : p.length < cfg.maxSize) (hfits : p.length + chunk.length ≤ cfg.maxSize) :
    Follows cfg user (p ++ chunk) (serve cfg user s (some chunk)) := by
  rw [serve_eq]
  exact (arrive_opened chunk hopened hroom hfits).follows user

/-! ## Every way of splitting a request -/

/-- What the loop does with a connection that sends `r` and nothing more. -/
def outcome (cfg : Config) (user : User) (r : List UInt8) : Result :=
  (verdict cfg user (r.take cfg.maxSize)).getD
    (if cfg.maxSize ≤ r.length then .exhausted else .waiting)

theorem outcome_of_verdict {result : Result} (rest : List UInt8) (hle : p.length ≤ cfg.maxSize)
    (hverdict : verdict cfg user p = some result) :
    outcome cfg user (p ++ rest) = result := by
  rw [outcome, List.take_append, List.take_of_length_le hle, verdict_append _ hverdict]
  rfl

/-- The loop does what the bytes decide, however they arrive. -/
theorem serveAll_eq {chunks : List (List UInt8)} (hopened : Opened cfg p s)
    (hfits : Fits cfg user s chunks) :
    serveAll cfg user s chunks = outcome cfg user (p ++ chunks.flatten) := by
  induction chunks generalizing p s with
  | nil =>
    have hcount := hopened.stored.readCount
    have hle := hopened.stored.le_max
    rw [serveAll, List.flatten_nil, List.append_nil, outcome, List.take_of_length_le hle,
      hopened.verdict_eq_none user, Option.getD_none]
    exact if_congr (by omega) rfl rfl
  | cons chunk rest ih =>
    have hcount := hopened.stored.readCount
    have hle := hopened.stored.le_max
    by_cases hfull : p.length = cfg.maxSize
    · have hserve : serve cfg user s (some chunk) = .exits := by
        rw [serve, arrive, if_pos (by omega)]
      rw [serveAll, hserve, outcome, List.take_append, hfull, Nat.sub_self, List.take_zero,
        List.append_nil, List.take_of_length_le (by omega), hopened.verdict_eq_none user,
        Option.getD_none, if_pos (by rw [List.length_append]; omega)]
    · rcases hfits with hfull' | ⟨hchunk, hfits⟩
      · omega
      · have hfollows := serve_opened user chunk hopened (by omega)
          (by omega)
        rw [List.flatten_cons, ← List.append_assoc, serveAll]
        have hresult := hfollows.result
        cases hserve : serve cfg user s (some chunk) with
        | waits s' => exact ih (hfollows.waits s' hserve) (hfits s' hserve)
        | responds s' action =>
          rw [hserve] at hresult
          rw [outcome_of_verdict _ (by rw [List.length_append]; omega) hresult.symm]
        | exits =>
          rw [hserve] at hresult
          rw [outcome_of_verdict _ (by rw [List.length_append]; omega) hresult.symm]
        | faults =>
          rw [hserve] at hresult
          rw [outcome_of_verdict _ (by rw [List.length_append]; omega) hresult.symm]

/-- `read_tcp` may return a request that fits into the buffer in any pieces. -/
theorem Opened.fits {chunks : List (List UInt8)} (hopened : Opened cfg p s)
    (hlength : p.length + chunks.flatten.length ≤ cfg.maxSize) : Fits cfg user s chunks := by
  induction chunks generalizing p s with
  | nil => trivial
  | cons chunk rest ih =>
    have hcount := hopened.stored.readCount
    rw [List.flatten_cons, List.length_append] at hlength
    by_cases hfull : p.length = cfg.maxSize
    · exact .inl (by omega)
    · refine .inr ⟨by omega, fun s' hserve => ?_⟩
      have hfollows := serve_opened user chunk hopened
        (by have hle := hopened.stored.le_max; omega) (by omega)
      exact ih (hfollows.waits s' hserve) (by rw [List.length_append]; omega)

/-- The action for a request does not depend on how TCP cuts it into segments. -/
theorem serveAll_segmentation {s s' : Server} {chunks chunks' : List (List UInt8)}
    (hs : Opening cfg s) (hs' : Opening cfg s') (hsame : chunks.flatten = chunks'.flatten)
    (hfits : Fits cfg user s chunks) (hfits' : Fits cfg user s' chunks') :
    serveAll cfg user s chunks = serveAll cfg user s' chunks' := by
  rw [serveAll_eq hs.opened hfits, serveAll_eq hs'.opened hfits', hsame]

/-- Sixty-four bytes for a request and no file to serve. -/
def smallConfig : Config where
  maxSize := 64
  maxSize_lt := by decide
  filename := none
  filename_text := by simp

/-- The state of the loop on a new connection, with the same byte all over the buffer. -/
def freshServer (b : UInt8) : Server where
  readBuffer := List.replicate 64 b
  readCount := 0
  httpHeader := -1
  contentLength := -1
  requiredLength := -1
  connectionId := 1
  complete := false
  boundary := none

theorem freshServer_opening (b : UInt8) : Opening smallConfig (freshServer b) :=
  ⟨List.length_replicate, rfl, rfl, rfl⟩

theorem serveAll_segmentation_get :
    serveAll smallConfig ⟨[], fun _ => true⟩ (freshServer 0) [ascii "GET / HTTP/1.0\r\n\r\n"] =
      serveAll smallConfig ⟨[], fun _ => true⟩ (freshServer 10)
        [ascii "GET / HTTP/1.0\r", [], ascii "\n\r", ascii "\n"] :=
  serveAll_segmentation (freshServer_opening 0) (freshServer_opening 10) (by decide)
    ((freshServer_opening 0).opened.fits (by decide))
    ((freshServer_opening 10).opened.fits (by decide))

end EthTransfer
