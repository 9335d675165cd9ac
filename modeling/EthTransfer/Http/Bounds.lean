import EthTransfer.Http.Loop

/-!
# Where the upload is read

A complete request makes `main` write a zero at `required_length` and pass what lies
behind the header to `parse_http_content`.  `InRequest` says that this stays inside
`read_buffer` and that there is a boundary to look for.

`main` checks neither that a request is a `GET` or a `POST`, nor that an `int` holds the
sum of the two lengths.  `request_in_bounds_iff` says that these are the only two ways in
which a run gets there with bad values.  It speaks about the number that `sscanf` stores, so
nothing here depends on what that is for digits that no `int` holds.
-/

namespace EthTransfer

open Search GuardedRun

/-- The values that `main` uses when it takes a request for complete. -/
structure InRequest (cfg : Config) (s : Server) : Prop where
  header_nonneg : 0 ≤ s.httpHeader
  header_le : s.httpHeader ≤ s.requiredLength
  required_le : s.requiredLength ≤ cfg.maxSize - 1
  boundary : s.boundary ≠ none
  method : (ascii "GET ").isPrefixOf s.readBuffer ∨ (ascii "POST ").isPrefixOf s.readBuffer

/-- If the turn takes a request for complete, it does so with such values. -/
def CompletesInRequest (cfg : Config) : LoopGuard := fun _ s pass =>
  ∀ s', s.connectionId ≠ -1 → arrive cfg s pass.read = .asks s' →
    s'.readCount ≥ s'.requiredLength → InRequest cfg s'

/-- A request that `main` can handle: a `GET`, or a `POST` that asks for a length that an
`int` holds. -/
def Handled (cfg : Config) (header : Block) : Prop :=
  (ascii "GET ").isPrefixOf header ∨
    (ascii "POST ").isPrefixOf header ∧
      ∀ n boundary, AsksFor cfg header header.length n boundary →
        n + header.length < 2147483648

/-- The header that a turn finds, if it is the one that finds it. -/
def foundHeader (cfg : Config) (s : Server) (read : Option (List UInt8)) : Option Block :=
  let request := s.readBuffer.take s.readCount.toNat ++ read.getD []
  let h := headerScan request request.length
  if s.connectionId ≠ -1 ∧ s.readCount < cfg.maxSize ∧ s.httpHeader = -1 ∧ h ≠ -1 then
    some (headerBytes request h.toNat)
  else none

/-- The request whose header the turn finds can be handled. -/
def FindsHandled (cfg : Config) : LoopGuard := fun _ s pass =>
  ∀ header ∈ foundHeader cfg s pass.read, Handled cfg header

/-! ## Decisions -/

variable {cfg : Config} {s s₀ : Server} {pass : Pass} {h : History Pass Turn} {p : List UInt8}

theorem readPost_ne_other (cfg : Config) (buffer : Block) (httpHeader : Int) :
    readPost cfg buffer httpHeader ≠ .other := by
  unfold readPost
  dsimp only
  repeat' split
  all_goals simp

/-- What `main` decides for requests that are not `GET`. -/
theorem readHeader_of_not_get {buffer : Block} {httpHeader : Int}
    (hget : ¬ (ascii "GET ").isPrefixOf buffer) :
    readHeader cfg buffer httpHeader =
      if (ascii "POST ").isPrefixOf buffer then readPost cfg buffer httpHeader else .other :=
  if_neg hget

section Decisions

variable {header : Block}

/-- A length that an `int` does not hold is accepted. -/
theorem AsksFor.overflows {n : Int} {boundary : ℕ} (hmax : header.length ≤ cfg.maxSize)
    (hasks : AsksFor cfg header header.length n boundary)
    (hover : ¬ n + header.length < 2147483648) :
    ∃ required, required < 0 ∧
      readPost cfg header header.length = .post n required boundary := by
  have hbound := cfg.maxSize_lt
  have hle := hasks.le_max
  rcases wrapInt_add hasks.nonneg (show (0 : Int) ≤ header.length by omega) (by omega) with
    ⟨hlt, -⟩ | ⟨-, hneg⟩
  · exact absurd hlt hover
  · refine ⟨_, hneg, ?_⟩
    rw [readPost_of_asksFor hasks, if_neg (by omega)]

/-- `main` answers only requests that it can handle. -/
theorem handled_of_decided (hmax : header.length ≤ cfg.maxSize)
    (hother : readHeader cfg header header.length ≠ .other)
    (hpost : ∀ n required boundary,
      readHeader cfg header header.length ≠ .post n required boundary) : Handled cfg header := by
  by_cases hget : (ascii "GET ").isPrefixOf header
  · exact .inl hget
  · rw [readHeader_of_not_get hget] at hother hpost
    by_cases hmethod : (ascii "POST ").isPrefixOf header
    · rw [if_pos hmethod] at hpost
      refine .inr ⟨hmethod, fun n boundary hasks => ?_⟩
      by_contra hover
      obtain ⟨required, -, hread⟩ := hasks.overflows hmax hover
      exact hpost n required boundary hread
    · rw [if_neg hmethod] at hother
      exact absurd rfl hother

theorem not_handled_of_other (hother : readHeader cfg header header.length = .other) :
    ¬ Handled cfg header := by
  by_cases hget : (ascii "GET ").isPrefixOf header
  · rw [readHeader, if_pos hget] at hother
    cases hother
  · rw [readHeader_of_not_get hget] at hother
    split_ifs at hother with hmethod
    · exact absurd hother (readPost_ne_other cfg header _)
    · rintro (hgets | ⟨hposts, -⟩)
      · exact hget hgets
      · exact hmethod hposts

/-- A `POST` that is accepted can be handled exactly if an `int` holds the sum. -/
theorem handled_iff_of_post {c required : Int} {boundary : ℕ} (hmax : header.length ≤ cfg.maxSize)
    (hread : readHeader cfg header header.length = .post c required boundary) :
    Handled cfg header ↔ c + header.length < 2147483648 := by
  have hpost := readHeader_post hread
  obtain ⟨hasks, -, -⟩ := readPost_post hpost
  unfold readHeader at hread
  split_ifs at hread with hget hmethod
  constructor
  · rintro (hgets | ⟨-, hall⟩)
    · exact absurd hgets hget
    · exact hall c boundary hasks
  · intro hlt
    refine .inr ⟨hmethod, fun n boundary' hasks' => ?_⟩
    by_contra hover
    obtain ⟨required', -, hread'⟩ := hasks'.overflows hmax hover
    rw [hpost] at hread'
    cases hread'
    exact hover hlt

end Decisions

/-! ## Turns -/

/-- A header that stands in front of the bytes of the request. -/
theorem foundHeader_eq (hopened : Opened cfg p s) (hopen : s.connectionId ≠ -1)
    (hroom : p.length < cfg.maxSize) (read : Option (List UInt8)) :
    foundHeader cfg s read =
      if s.httpHeader = -1 ∧ headerScan (p ++ read.getD []) (p ++ read.getD []).length ≠ -1 then
        some (headerBytes (p ++ read.getD [])
          (headerScan (p ++ read.getD []) (p ++ read.getD []).length).toNat)
      else none := by
  have hcount := hopened.stored.readCount
  by_cases hheader : s.httpHeader = -1
  · have htake : s.readBuffer.take s.readCount.toNat = p := by
      rcases hopened.progress with hscan | ⟨e, c, required, boundary, hreading, -⟩
      · rw [hcount, Int.toNat_natCast]
        exact (List.prefix_iff_eq_take.mp hscan.bytes).symm
      · exact absurd (hreading.httpHeader.symm.trans hheader) hreading.found
    unfold foundHeader
    rw [htake]
    simp [hopen, hheader, show s.readCount < cfg.maxSize by omega]
  · simp [foundHeader, hheader]

/-- An accepted `POST` stays in bounds exactly if an `int` holds the sum. -/
theorem Reading.inRequest_iff {e c required : Int} {boundary : ℕ} (hstored : Stored cfg p s)
    (hreading : Reading cfg p e c required boundary s) :
    InRequest cfg s ↔ c + e < 2147483648 := by
  obtain ⟨hlow, hhigh⟩ := hreading.bounds
  obtain ⟨-, -, hfits, -⟩ := hreading.post
  obtain ⟨hc, hrequired⟩ := hreading.required_eq hstored.le_max
  have hheader := hreading.httpHeader
  have hlength := hreading.requiredLength
  constructor
  · intro hin
    have hle := hin.header_le
    omega
  · intro hsum
    refine ⟨by omega, by omega, by omega, by simp [hreading.boundary], .inr ?_⟩
    have hdecision := hreading.decision
    unfold readHeader at hdecision
    split_ifs at hdecision with hget hpost
    rw [List.isPrefixOf_iff_prefix] at hpost ⊢
    exact (hpost.trans (List.prefix_append _ _)).trans hreading.bytes

/-- A turn that finds a header completes requests in bounds exactly if it can handle the
request of that header. -/
theorem Arrives.inRequest_iff {e : Int} {passing : Passing} (harrives : Arrives cfg p passing)
    (hmax : p.length ≤ cfg.maxSize) (hscan : headerScan p p.length = e) (hfound : e ≠ -1) :
    (∀ s', passing = .asks s' → s'.readCount ≥ s'.requiredLength → InRequest cfg s') ↔
      Handled cfg (headerBytes p e.toNat) := by
  obtain ⟨hlow, hhigh⟩ := headerScan_bounds hscan hfound
  have hlength := length_headerBytes (p := p) (h := e.toNat) (by omega) (by omega)
  have hcast : ((headerBytes p e.toNat).length : Int) = e := by omega
  have hread : readHeader cfg (headerBytes p e.toNat) (headerBytes p e.toNat).length =
      readHeader cfg (headerBytes p e.toNat) e := by
    rw [hcast]
  cases harrives with
  | scanning _ hnone => exact absurd (hscan.symm.trans hnone) hfound
  | answered hscan' _ hdecision =>
    obtain rfl := hscan.symm.trans hscan'
    exact iff_of_true (fun s' hs => by cases hs)
      (handled_of_decided (by omega) (by simp [hread, hdecision]) (by simp [hread, hdecision]))
  | fault hscan' _ hdecision =>
    obtain rfl := hscan.symm.trans hscan'
    exact iff_of_true (fun s' hs => by cases hs)
      (handled_of_decided (by omega) (by simp [hread, hdecision]) (by simp [hread, hdecision]))
  | @other _ s' hscan' _ hdecision hstored hrequired hboundary =>
    obtain rfl := hscan.symm.trans hscan'
    refine iff_of_false (fun hall => ?_) (not_handled_of_other (hread.trans hdecision))
    have hcount := hstored.readCount
    exact (hall s' rfl (by omega)).boundary hboundary
  | @reading _ c required boundary s' hstored hreading =>
    obtain rfl := hscan.symm.trans hreading.scan
    obtain ⟨-, hrequired⟩ := hreading.required_eq hmax
    have hcount := hstored.readCount
    have hlength' := hreading.requiredLength
    rw [handled_iff_of_post (by omega) (hread.trans hreading.decision), hcast,
      ← hreading.inRequest_iff hstored]
    constructor
    · intro hall
      by_contra hout
      have hneg : required < 0 := by
        rw [hreading.inRequest_iff hstored] at hout
        omega
      exact hout (hall s' rfl (by omega))
    · intro hin s'' hs _
      cases hs
      exact hin

/-- A request whose header was complete before stays in bounds. -/
theorem Reading.arrives {e c required : Int} {boundary : ℕ} {chunk : List UInt8} {s' : Server}
    (hreading : Reading cfg p e c required boundary s) (hmax : p.length ≤ cfg.maxSize)
    (hlt : (p.length : Int) < required) (harrives : Arrives cfg (p ++ chunk) (.asks s')) :
    InRequest cfg s' := by
  obtain ⟨hlow, hhigh⟩ := hreading.bounds
  obtain ⟨-, hrequired⟩ := hreading.required_eq hmax
  have hscan : headerScan (p ++ chunk) (p ++ chunk).length = e := by
    rw [headerScan_append _ (by rw [hreading.scan]; exact hreading.found), hreading.scan]
  have hheader : headerBytes (p ++ chunk) e.toNat = headerBytes p e.toNat :=
    headerBytes_append _ (by omega)
  have hdecision := hreading.decision
  rw [← hheader] at hdecision
  cases harrives with
  | other hscan' _ hdecision' =>
    obtain rfl := hscan.symm.trans hscan'
    simp [hdecision] at hdecision'
  | reading hstored hreading' =>
    obtain rfl := hscan.symm.trans hreading'.scan
    have hsame := hreading'.decision
    rw [hdecision] at hsame
    cases hsame
    exact (hreading'.inRequest_iff hstored).mpr (by omega)

theorem Arrives.found (harrives : Arrives cfg p (.asks s)) : headerScan p p.length ≠ -1 := by
  cases harrives with
  | other hscan hfound => rwa [hscan]
  | reading _ hreading =>
    rw [hreading.scan]
    exact hreading.found

/-- One turn. -/
theorem completesInRequest_iff (hbetween : BetweenTurns cfg s) (henabled : Enabled cfg h s pass) :
    CompletesInRequest cfg h s pass ↔ FindsHandled cfg h s pass := by
  unfold CompletesInRequest FindsHandled
  by_cases hopen : s.connectionId = -1
  · simp [foundHeader, hopen]
  by_cases hfull : (cfg.maxSize : Int) - s.readCount ≤ 0
  · simp [foundHeader, arrive, hfull, show ¬ s.readCount < cfg.maxSize by omega]
  obtain ⟨p, hopened⟩ := hbetween.opened hopen
  have hcount := hopened.stored.readCount
  have hfits := henabled.fits (by omega)
  have harrives := arrive_opened (pass.read.getD []) hopened (by omega) (by omega)
  rw [foundHeader_eq hopened hopen (by omega), arrive_getD]
  generalize pass.read.getD [] = chunk at *
  simp only [ne_eq, hopen, not_false_eq_true, true_implies]
  rcases hopened.progress with hscanning | ⟨e, c, required, boundary, hreading, hlt⟩
  · by_cases hnone : headerScan (p ++ chunk) (p ++ chunk).length = -1
    · rw [if_neg (fun hboth => hboth.2 hnone)]
      refine iff_of_true (fun s' hs _ => ?_) (by simp)
      rw [hs] at harrives
      exact absurd hnone harrives.found
    · rw [if_pos ⟨hscanning.httpHeader, hnone⟩,
        harrives.inRequest_iff (by rw [List.length_append]; omega) rfl hnone]
      simp
  · have hheader : s.httpHeader ≠ -1 := by
      rw [hreading.httpHeader]
      exact hreading.found
    rw [if_neg (fun hboth => hheader hboth.1)]
    refine iff_of_true (fun s' hs _ => ?_) (by simp)
    rw [hs] at harrives
    exact hreading.arrives hopened.stored.le_max hlt harrives

/-- Every turn of a run completes requests in bounds exactly if every turn finds requests
that can be handled. -/
theorem request_in_bounds_iff (hinit : Initial cfg s₀) (hrun : LoopRun cfg anyPass s₀ h s) :
    Throughout (loopStep cfg) s₀ (CompletesInRequest cfg) h ↔
      LoopRun cfg (FindsHandled cfg) s₀ h s := by
  refine hrun.throughout_iff hinit fun h s pass hbetween henabled => ?_
  exact completesInRequest_iff hbetween henabled

/-- A client connects and sends a request in one segment. -/
def clientRun (request : List UInt8) : History Pass Turn × Server :=
  exec (loopStep smallConfig) [] idleServer
    [⟨1, none, ⟨[], fun _ => true⟩⟩, ⟨1, some request, ⟨[], fun _ => true⟩⟩]

theorem clientRun_run {request : List UInt8} (hfits : request.length ≤ 64) :
    LoopRun smallConfig anyPass idleServer (clientRun request).1 (clientRun request).2 := by
  refine Run.start.exec ⟨⟨⟨rfl, by simp, fun _ => by decide⟩, trivial⟩,
    ⟨⟨rfl, fun x hx => ?_, fun _ => ?_⟩, trivial⟩, trivial⟩
  · obtain rfl := List.mem_singleton.mp hx
    rfl
  · show (request.length : Int) ≤ 64 - 0
    omega

/-- A request with a body of one byte. -/
def shortPost : List UInt8 :=
  ascii "POST /\nContent-Length: 1\nContent-Type: boundary=B\n\nx"

/-- A request that is completed: its body goes to `parse_http_content`. -/
theorem request_in_bounds_iff_post :
    (Throughout (loopStep smallConfig) idleServer (CompletesInRequest smallConfig)
        (clientRun shortPost).1 ↔
      LoopRun smallConfig (FindsHandled smallConfig) idleServer (clientRun shortPost).1
        (clientRun shortPost).2) ∧
      (clientRun shortPost).1.map (fun x => x.2.result) =
        [none, some (.action (.upload (ascii "x") (ascii "B")
          ⟨some "Unable to find first boundary marker in header", none⟩))] :=
  ⟨request_in_bounds_iff idleServer_initial (clientRun_run (by decide)), by decide +kernel⟩

/-- A request with another method is taken for complete at once, with no length and no
boundary. -/
theorem put_completes :
    LoopRun smallConfig anyPass idleServer (clientRun (ascii "PUT / HTTP/1.0\r\n\r\n")).1
        (clientRun (ascii "PUT / HTTP/1.0\r\n\r\n")).2 ∧
      ¬ Throughout (loopStep smallConfig) idleServer (CompletesInRequest smallConfig)
        (clientRun (ascii "PUT / HTTP/1.0\r\n\r\n")).1 := by
  refine ⟨clientRun_run (by decide), fun hall => ?_⟩
  have hcompletes := hall [_] _ _ [] rfl
  have hin := hcompletes _ (by decide) rfl (by decide)
  exact hin.boundary rfl

end EthTransfer
