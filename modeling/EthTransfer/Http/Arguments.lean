import EthTransfer.Http.Response
import EthTransfer.Lib.Word

/-!
# The arguments of the program

`main` up to its loop: the options, `sscanf` on their values, and the checks before the loop.

* `ArgumentList` is the grammar of the arguments, and `arguments_accepted` says that `main`
  gets to its loop for those in the grammar and for no others.  `-m` is not in it.
* `scanAddress_unpackIpAddr`: an address that is printed can be given to `-i`, and
  `arguments_read_back`: there are arguments for every address and every file.
* `answers_fit`: after these checks no answer overflows its buffers.
-/

namespace EthTransfer

/-! ## Addresses -/

/-- `pack_ip_addr`. -/
def packIpAddr (a b c d : Int) : UInt32 :=
  let a := UInt32.ofInt a &&& 0xFF
  let b := UInt32.ofInt b &&& 0xFF
  let c := UInt32.ofInt c &&& 0xFF
  let d := UInt32.ofInt d &&& 0xFF
  (a <<< 24) ||| (b <<< 16) ||| (c <<< 8) ||| d

/-- `unpack_ip_addr`. -/
def unpackIpAddr (ipAddr : UInt32) : List UInt8 :=
  let a := (ipAddr >>> 24) &&& 0xFF
  let b := (ipAddr >>> 16) &&& 0xFF
  let c := (ipAddr >>> 8) &&& 0xFF
  let d := ipAddr &&& 0xFF
  decimal a.toNat ++ 46 :: (decimal b.toNat ++ 46 :: (decimal c.toNat ++ 46 :: decimal d.toNat))

/-- What `%d` leaves of a string that it can read. -/
def afterInt (s : List UInt8) : List UInt8 :=
  let s := s.dropWhile isSpace
  let s := if s.head? = some 45 ∨ s.head? = some 43 then s.tail else s
  s.dropWhile isDigit

/-- `%d` in the middle of a format. -/
def scanNext (s : List UInt8) : Option (Int × List UInt8) :=
  (scanInt s).map fun n => (n, afterInt s)

/-- A dot in a format. -/
def scanDot : List UInt8 → Option (List UInt8)
  | 46 :: rest => some rest
  | _ => none

/-- `sscanf` with `%d.%d.%d.%d`, and `pack_ip_addr` when it reads four numbers. -/
def scanAddress (text : List UInt8) : Option UInt32 := do
  let (a, text) ← scanNext text
  let (b, text) ← scanNext (← scanDot text)
  let (c, text) ← scanNext (← scanDot text)
  let (d, _) ← scanNext (← scanDot text)
  return packIpAddr a b c d

/-! ## Options -/

/-- Why `main` ends before its loop, with the strings that it prints. -/
inductive Exit where
  | usage
  | address (text : List UInt8)
  | size (text : List UInt8)
  | tooLarge
  | filenames
  | stack
  | readBuffer
  | filenameLength
  | missing (filename : List UInt8)
  deriving DecidableEq

/-- The variables that the arguments set. -/
structure Settings where
  maxSize : Int
  ipAddr : UInt32
  filename : Option (List UInt8)
  deriving DecidableEq

def Settings.initial : Settings := ⟨1 * 1024 * 1024, 0xA9FE1234, none⟩

/-- The end of a turn, when the argument is no option with a value. -/
def Settings.take (s : Settings) (arg : List UInt8) : Except Exit Settings :=
  if s.filename ≠ none then .error .filenames else .ok { s with filename := some arg }

/-- The loop over the arguments.  `-m` does not go on to the next turn, so it is taken for a
filename, too, and so is the size behind it. -/
def readArguments : List (List UInt8) → Settings → Except Exit Settings
  | [], s => .ok s
  | [arg], s => if arg = ascii "-h" then .error .usage else s.take arg
  | arg :: value :: rest, s =>
    if arg = ascii "-h" then .error .usage
    else if arg = ascii "-i" then
      match scanAddress value with
      | none => .error (.address value)
      | some ipAddr => readArguments rest { s with ipAddr := ipAddr }
    else if arg = ascii "-m" then
      match scanInt value with
      | none => .error (.size value)
      | some size =>
        if s.maxSize > 128 * 1024 * 1024 then .error .tooLarge
        else do
          let s ← { s with maxSize := size }.take arg
          readArguments (value :: rest) s
    else do
      let s ← s.take arg
      readArguments (value :: rest) s

/-- What `main` finds when it starts: whether `init_ip` and `malloc` succeed, and the files
that `fopen` opens. -/
structure Surroundings where
  initIp : UInt32 → Bool
  malloc : Int → Bool
  fopen : List UInt8 → Bool

/-- `main` between its arguments and its loop. -/
def Surroundings.check (outside : Surroundings) (s : Settings) : Except Exit Settings :=
  if outside.initIp s.ipAddr = false then .error .stack
  else if outside.malloc s.maxSize = false then .error .readBuffer
  else if (s.filename.getD []).length > 100 then .error .filenameLength
  else
    match s.filename with
    | none => .ok s
    | some filename =>
      if outside.fopen filename = false then .error (.missing filename) else .ok s

/-- `main` up to its loop, with the arguments behind the name of the program. -/
def startMain (outside : Surroundings) (arguments : List (List UInt8)) : Except Exit Settings :=
  readArguments arguments .initial >>= outside.check

/-! ## The grammar -/

/-- Addresses behind `-i`, and at most one filename.  An option is a filename when it is the
last argument. -/
inductive ArgumentList : List (List UInt8) → List UInt32 → Option (List UInt8) → Prop where
  | nil : ArgumentList [] [] none
  | address {value : List UInt8} {rest : List (List UInt8)} {ipAddr : UInt32}
      {addresses : List UInt32} {filename : Option (List UInt8)}
      (hvalue : scanAddress value = some ipAddr) (hrest : ArgumentList rest addresses filename) :
      ArgumentList (ascii "-i" :: value :: rest) (ipAddr :: addresses) filename
  | filename {arg : List UInt8} {rest : List (List UInt8)} {addresses : List UInt32}
      (hhelp : arg ≠ ascii "-h") (hlast : rest = [] ∨ arg ≠ ascii "-i" ∧ arg ≠ ascii "-m")
      (hrest : ArgumentList rest addresses none) :
      ArgumentList (arg :: rest) addresses (some arg)

/-- The settings after arguments that are in the grammar. -/
def Settings.after (s : Settings) (addresses : List UInt32) (filename : Option (List UInt8)) :
    Settings where
  maxSize := s.maxSize
  ipAddr := addresses.getLastD s.ipAddr
  filename := filename.or s.filename

theorem take_eq_ok {s s' : Settings} {arg : List UInt8} :
    s.take arg = .ok s' ↔ s.filename = none ∧ s' = { s with filename := some arg } := by
  unfold Settings.take
  split_ifs with hname
  · simp [hname]
  · simp [not_not.mp hname, eq_comm]

theorem ArgumentList.nil_iff {addresses : List UInt32} {filename : Option (List UInt8)} :
    ArgumentList [] addresses filename ↔ addresses = [] ∧ filename = none := by
  constructor
  · intro h
    cases h
    exact ⟨rfl, rfl⟩
  · rintro ⟨rfl, rfl⟩
    exact .nil

theorem ArgumentList.filename_ne {arguments : List (List UInt8)} {addresses : List UInt32}
    {filename : List UInt8} (h : ArgumentList arguments addresses (some filename)) :
    filename ≠ ascii "-h" := by
  generalize hname : some filename = name at h
  induction h with
  | nil => cases hname
  | address _ _ ih => exact ih hname
  | filename hhelp _ _ => exact Option.some.inj hname ▸ hhelp

/-- An argument that is not `-i` is taken for a filename, and there is one already. -/
theorem readArguments_named {value : List UInt8} {rest : List (List UInt8)} {s : Settings}
    (hnamed : s.filename ≠ none) (hvalue : value ≠ ascii "-i") (s' : Settings) :
    readArguments (value :: rest) s ≠ .ok s' := by
  have htake (size : Int) : { s with maxSize := size }.take value = .error .filenames :=
    if_pos hnamed
  have hsame : s.take value = .error .filenames := if_pos hnamed
  cases rest with
  | nil =>
    unfold readArguments
    split_ifs <;> simp [hsame]
  | cons next rest =>
    by_cases hhelp : value = ascii "-h"
    · simp [readArguments, hhelp]
    by_cases hsize : value = ascii "-m"
    · rw [readArguments, if_neg hhelp, if_neg hvalue, if_pos hsize]
      cases scanInt next with
      | none => simp
      | some size =>
        dsimp only
        rw [htake]
        split_ifs <;> simp [bind, Except.bind]
    · rw [readArguments, if_neg hhelp, if_neg hvalue, if_neg hsize, hsame]
      simp [bind, Except.bind]

theorem ArgumentList.readArguments {arguments : List (List UInt8)} {addresses : List UInt32}
    {filename : Option (List UInt8)} (h : ArgumentList arguments addresses filename) (s : Settings)
    (hname : filename = none ∨ s.filename = none) :
    EthTransfer.readArguments arguments s = .ok (s.after addresses filename) := by
  induction h generalizing s with
  | nil => rfl
  | @address value rest ipAddr addresses filename hvalue _ ih =>
    have hhelp : ascii "-i" ≠ ascii "-h" := by decide
    rw [EthTransfer.readArguments, if_neg hhelp, if_pos rfl, hvalue]
    refine (ih { s with ipAddr := ipAddr } hname).trans ?_
    rw [Settings.after, Settings.after, List.getLastD_cons]
  | @filename arg rest addresses hhelp hlast hrest ih =>
    have htake : s.take arg = .ok { s with filename := some arg } :=
      take_eq_ok.mpr ⟨hname.resolve_left (by simp), rfl⟩
    cases rest with
    | nil =>
      obtain ⟨rfl, -⟩ := ArgumentList.nil_iff.mp hrest
      rw [EthTransfer.readArguments, if_neg hhelp]
      exact htake
    | cons value rest =>
      obtain ⟨haddress, hsize⟩ := hlast.resolve_left (by simp)
      rw [EthTransfer.readArguments, if_neg hhelp, if_neg haddress, if_neg hsize, htake]
      exact ih _ (Or.inl rfl)

theorem argumentList_of_readArguments {arguments : List (List UInt8)} {s s' : Settings}
    (h : readArguments arguments s = .ok s') : ∃ addresses filename,
      ArgumentList arguments addresses filename ∧ (filename = none ∨ s.filename = none) ∧
        s' = s.after addresses filename := by
  induction arguments, s using readArguments.induct with
  | case1 s =>
    cases h
    exact ⟨[], none, .nil, Or.inl rfl, rfl⟩
  | case2 s => simp [readArguments] at h
  | case3 arg s hhelp =>
    rw [readArguments, if_neg hhelp] at h
    obtain ⟨hname, rfl⟩ := take_eq_ok.mp h
    exact ⟨[], some arg, .filename hhelp (Or.inl rfl) .nil, Or.inr hname, rfl⟩
  | case4 value rest s => simp [readArguments] at h
  | case5 value rest s hvalue hhelp => simp [readArguments, hvalue, hhelp] at h
  | case6 value rest s ipAddr hvalue hhelp ih =>
    rw [readArguments, if_neg hhelp, if_pos rfl, hvalue] at h
    obtain ⟨addresses, filename, hrest, hname, rfl⟩ := ih h
    refine ⟨ipAddr :: addresses, filename, .address hvalue hrest, hname, ?_⟩
    rw [Settings.after, Settings.after, List.getLastD_cons]
  | case7 value rest s hvalue hhelp haddress => simp [readArguments, hvalue, hhelp, haddress] at h
  | case8 value rest s size hvalue hlarge hhelp haddress =>
    rw [readArguments, if_neg hhelp, if_neg haddress, if_pos rfl, hvalue] at h
    dsimp only at h
    rw [if_pos hlarge] at h
    cases h
  | case9 value rest s size hvalue hlarge hhelp haddress ih =>
    rw [readArguments, if_neg hhelp, if_neg haddress, if_pos rfl, hvalue] at h
    dsimp only at h
    rw [if_neg hlarge] at h
    -- the size is a second filename
    obtain ⟨s₁, htake, h⟩ := bind_eq_ok.mp h
    obtain ⟨-, rfl⟩ := take_eq_ok.mp htake
    have hsize : value ≠ ascii "-i" := by
      rintro rfl
      have hnone : scanInt (ascii "-i") = none := by decide
      cases hnone.symm.trans hvalue
    exact absurd h (readArguments_named (by simp) hsize s')
  | case10 arg value rest s hhelp haddress hsize ih =>
    rw [readArguments, if_neg hhelp, if_neg haddress, if_neg hsize] at h
    obtain ⟨s₁, htake, h⟩ := bind_eq_ok.mp h
    obtain ⟨hname, rfl⟩ := take_eq_ok.mp htake
    obtain ⟨addresses, filename, hrest, hnamed, rfl⟩ := ih _ h
    obtain rfl : filename = none := hnamed.resolve_right (by simp)
    exact ⟨addresses, some arg, .filename hhelp (Or.inr ⟨haddress, hsize⟩) hrest, Or.inr hname, rfl⟩

theorem readArguments_eq_ok {arguments : List (List UInt8)} {s s' : Settings} :
    readArguments arguments s = .ok s' ↔ ∃ addresses filename,
      ArgumentList arguments addresses filename ∧ (filename = none ∨ s.filename = none) ∧
        s' = s.after addresses filename := by
  constructor
  · exact argumentList_of_readArguments
  · rintro ⟨addresses, filename, harguments, hname, rfl⟩
    exact harguments.readArguments s hname

/-- The checks behind the arguments. -/
structure Surroundings.Allow (outside : Surroundings) (s : Settings) : Prop where
  initIp : outside.initIp s.ipAddr = true
  malloc : outside.malloc s.maxSize = true
  length : (s.filename.getD []).length ≤ 100
  fopen : ∀ filename ∈ s.filename, outside.fopen filename = true

theorem check_eq_ok {outside : Surroundings} {s s' : Settings} :
    outside.check s = .ok s' ↔ outside.Allow s ∧ s = s' := by
  constructor
  · intro h
    unfold Surroundings.check at h
    split_ifs at h with hstack hmalloc hlength
    cases hname : s.filename with
    | none =>
      rw [hname] at h
      refine ⟨⟨by simpa using hstack, by simpa using hmalloc, not_lt.mp hlength, ?_⟩, ?_⟩
      · simp [hname]
      · exact Except.ok.inj h
    | some filename =>
      rw [hname] at h
      dsimp only at h
      split_ifs at h with hopen
      refine ⟨⟨by simpa using hstack, by simpa using hmalloc, not_lt.mp hlength, ?_⟩, ?_⟩
      · simpa [hname] using hopen
      · exact Except.ok.inj h
  · rintro ⟨⟨hstack, hmalloc, hlength, hopen⟩, rfl⟩
    unfold Surroundings.check
    rw [if_neg (by simp [hstack]), if_neg (by simp [hmalloc]), if_neg (not_lt.mpr hlength)]
    cases hname : s.filename with
    | none => rfl
    | some filename => exact if_neg (by simp [hopen filename hname])

theorem startMain_eq_ok {outside : Surroundings} {arguments : List (List UInt8)} {s : Settings} :
    startMain outside arguments = .ok s ↔
      outside.Allow s ∧ readArguments arguments .initial = .ok s := by
  unfold startMain
  rw [bind_eq_ok]
  constructor
  · rintro ⟨s₁, hread, hcheck⟩
    obtain ⟨hallow, rfl⟩ := check_eq_ok.mp hcheck
    exact ⟨hallow, hread⟩
  · rintro ⟨hallow, hread⟩
    exact ⟨s, hread, check_eq_ok.mpr ⟨hallow, rfl⟩⟩

/-- `main` gets to its loop for the arguments in the grammar, when the checks succeed, and for
no others.  The address is that of the last `-i`, and `max_size` is what it was at first. -/
theorem arguments_accepted (outside : Surroundings) (arguments : List (List UInt8))
    (s : Settings) :
    startMain outside arguments = .ok s ↔ outside.Allow s ∧ s.maxSize = 1 * 1024 * 1024 ∧
      ∃ addresses, ArgumentList arguments addresses s.filename ∧
        s.ipAddr = addresses.getLastD 0xA9FE1234 := by
  rw [startMain_eq_ok, readArguments_eq_ok]
  refine and_congr_right fun _ => ?_
  constructor
  · rintro ⟨addresses, filename, harguments, -, rfl⟩
    refine ⟨rfl, addresses, ?_, rfl⟩
    rwa [Settings.after, Settings.initial, Option.or_none]
  · rintro ⟨hsize, addresses, harguments, haddress⟩
    refine ⟨addresses, s.filename, harguments, Or.inr rfl, ?_⟩
    cases s
    simp_all [Settings.after, Settings.initial]

/-! ## Addresses read back -/

theorem getLsbD_ff (i : ℕ) : (255#32).getLsbD i = decide (i < 8) := by
  have hff : 255#32 = BitVec.ofNat 32 (2 ^ 8 - 1) := rfl
  rw [hff, BitVec.getLsbD_ofNat, Nat.testBit_two_pow_sub_one]
  by_cases hi : i < 8
  · simp [hi, show i < 32 by omega]
  · simp [hi]

theorem packIpAddr_parts (x : UInt32) :
    packIpAddr ((x >>> 24) &&& 0xFF).toNat ((x >>> 16) &&& 0xFF).toNat ((x >>> 8) &&& 0xFF).toNat
      (x &&& 0xFF).toNat = x := by
  have hpart (y : UInt32) : UInt32.ofInt ((y &&& 0xFF).toNat : Int) &&& 0xFF = y &&& 0xFF := by
    rw [Word.ofInt_natCast, UInt32.ofNat_toNat, UInt32.and_assoc, UInt32.and_self]
  unfold packIpAddr
  simp only [hpart]
  apply UInt32.toBitVec_inj.mp
  apply BitVec.eq_of_getLsbD_eq
  intro i hi
  simp only [UInt32.toBitVec_or, UInt32.toBitVec_shiftLeft, UInt32.toBitVec_and,
    UInt32.toBitVec_shiftRight, UInt32.toBitVec_ofNat, BitVec.ofNat_eq_ofNat, BitVec.reduceMod,
    BitVec.ushiftRight_eq', BitVec.toNat_ofNat, Nat.reducePow, Nat.reduceMod,
    BitVec.shiftLeft_eq', BitVec.getLsbD_or, BitVec.getLsbD_shiftLeft, BitVec.getLsbD_and,
    BitVec.getLsbD_ushiftRight, getLsbD_ff]
  -- each bit is in one of the four bytes
  rcases lt_or_ge i 8 with h8 | h8
  · simp [h8, show i < 16 by omega, show i < 24 by omega]
  rcases lt_or_ge i 16 with h16 | h16
  · simp [hi, not_lt.mpr h8, h16, show i < 24 by omega,
      show 8 + (i - 8) = i by omega, show i - 8 < 8 by omega]
  rcases lt_or_ge i 24 with h24 | h24
  · simp [hi, not_lt.mpr h8, not_lt.mpr h16, h24, show 16 + (i - 16) = i by omega,
      show i - 16 < 8 by omega, show ¬ i - 8 < 8 by omega]
  · simp [hi, not_lt.mpr h8, not_lt.mpr h16, not_lt.mpr h24,
      show 24 + (i - 24) = i by omega, show i - 24 < 8 by omega, show ¬ i - 16 < 8 by omega,
      show ¬ i - 8 < 8 by omega]

/-- A number is read up to the first byte that is no digit. -/
theorem scanNext_decimal {n : ℕ} (hn : n < 2147483648) {rest : List UInt8}
    (hrest : ∀ b ∈ rest.head?, isDigit b = false) :
    scanNext (decimal n ++ rest) = some ((n : Int), rest) := by
  have hne : decimal n ≠ [] := by simp [decimal]
  obtain ⟨d, ds, hcons⟩ := List.exists_cons_of_ne_nil hne
  obtain ⟨hspace, hminus, hplus⟩ :=
    ne_of_isDigit (isDigit_of_mem_decimal (n := n) (b := d) (by simp [hcons]))
  have hdrop : (decimal n ++ rest).dropWhile isSpace = decimal n ++ rest := by
    rw [hcons, List.cons_append, List.dropWhile_cons_of_neg (by simp [hspace])]
  have hhead : (decimal n ++ rest).head? = some d := by simp [hcons]
  have hall : ∀ b ∈ decimal n, isDigit b = true := fun b hb => isDigit_of_mem_decimal hb
  have htake : (decimal n ++ rest).takeWhile isDigit = decimal n := by
    rw [List.takeWhile_append_of_pos hall]
    cases rest with
    | nil => simp
    | cons b rest => simp [hrest b (by simp)]
  have hafter : (decimal n ++ rest).dropWhile isDigit = rest := by
    rw [List.dropWhile_append_of_pos hall]
    cases rest with
    | nil => simp
    | cons b rest => simp [hrest b (by simp)]
  have hscan : scanInt (decimal n ++ rest) = some (n : Int) := by
    simp only [scanInt, hdrop, hhead, Option.some.injEq, hminus, hplus, or_self, if_false, htake,
      hne, digitsValue_decimal]
    omega
  simp only [scanNext, hscan, Option.map_some, afterInt, hdrop, hhead, Option.some.injEq, hminus,
    hplus, or_self, if_false, hafter]

/-- The address that is printed is read back. -/
theorem scanAddress_unpackIpAddr (ipAddr : UInt32) :
    scanAddress (unpackIpAddr ipAddr) = some ipAddr := by
  have hlt (x : UInt32) : (x &&& 0xFF).toNat < 2147483648 := by
    have hle : (x &&& 0xFF).toNat ≤ 255 := Nat.and_le_right
    omega
  have hdot (rest : List UInt8) : ∀ b ∈ (46 :: rest).head?, isDigit b = false := by
    simp [isDigit]
  have hend : ∀ b ∈ ([] : List UInt8).head?, isDigit b = false := by simp
  have hlast := scanNext_decimal (hlt ipAddr) hend
  rw [List.append_nil] at hlast
  simp only [scanAddress, unpackIpAddr, scanNext_decimal (hlt _) (hdot _), hlast, scanDot,
    Option.bind_eq_bind, Option.bind_some, Option.pure_def, packIpAddr_parts]

/-- The address and the filename that `main` prints when it starts are the arguments for it to
start the same way again. -/
theorem arguments_read_back {outside : Surroundings} {arguments : List (List UInt8)}
    {s : Settings} (h : startMain outside arguments = .ok s) :
    startMain outside (ascii "-i" :: unpackIpAddr s.ipAddr :: s.filename.toList) = .ok s := by
  obtain ⟨hallow, hread⟩ := startMain_eq_ok.mp h
  obtain ⟨addresses, filename, harguments, -, rfl⟩ := readArguments_eq_ok.mp hread
  have hname : ArgumentList filename.toList [] filename := by
    cases filename with
    | none => exact .nil
    | some filename => exact .filename (harguments.filename_ne) (Or.inl rfl) .nil
  refine startMain_eq_ok.mpr ⟨hallow, readArguments_eq_ok.mpr ?_⟩
  simp only [Settings.after, Settings.initial, Option.or_none]
  exact ⟨[_], filename, .address (scanAddress_unpackIpAddr _) hname, Or.inr trivial, rfl⟩

/-- An address, a file, and the address again. -/
def someArguments : List (List UInt8) :=
  [ascii "-i", ascii "10.0.0.1", ascii "a.txt", ascii "-i", ascii " 10. 0.0.258"]

/-- Everything is there. -/
def allThere : Surroundings := ⟨fun _ => true, fun _ => true, fun _ => true⟩

def someSettings : Settings := ⟨1048576, 0x0A000002, some (ascii "a.txt")⟩

theorem startMain_someArguments : startMain allThere someArguments = .ok someSettings := by
  decide +kernel

theorem arguments_read_back_someArguments :
    startMain allThere (ascii "-i" :: unpackIpAddr someSettings.ipAddr ::
      someSettings.filename.toList) = .ok someSettings :=
  arguments_read_back startMain_someArguments

/-! ## Answers -/

/-- What is sent for an action.  `opened` is what `fopen` returns for a file. -/
def Action.response (opened : Option File) : Action → Response
  | .uploadForm => .uploadForm
  | .downloadLink filename => .downloadLink filename
  | .file filename => .file filename opened
  | .message text => .message (ascii text)
  | .upload _ _ outcome => .message (ascii (outcome.message.getD "Upload complete"))

/-- The texts of an action are short. -/
def Action.Short : Action → Prop
  | .uploadForm => True
  | .downloadLink filename => filename.length ≤ 100
  | .file filename => filename.length ≤ 100
  | .message text => text.length ≤ 100
  | .upload _ _ outcome => ∀ text ∈ outcome.message, text.length ≤ 100

theorem confirm_short (failed : ℕ) (answers : List (List UInt8)) :
    ∀ text ∈ confirm failed answers, text.length ≤ 100 := by
  induction answers generalizing failed with
  | nil =>
    unfold confirm
    split_ifs <;> simp <;> decide
  | cons answer answers ih =>
    unfold confirm
    split_ifs
    · simp
      decide
    · simp
      decide
    · simp
    · exact ih _

theorem storeFile_short (user : User) (block : Block) (filename : List UInt8) (p length : ℕ) :
    ∀ text ∈ (storeFile user block filename p length).message, text.length ≤ 100 := by
  have hconfirm := confirm_short 0 user.answers
  unfold storeFile
  cases hmessage : confirm 0 user.answers with
  | some message => simpa [hmessage] using hconfirm
  | none =>
    dsimp only
    split_ifs <;> simp
    decide

theorem parsePart_short {user : User} {block block' : Block} {header : ℕ} {contentLength : Int}
    {outcome : Outcome} (h : parsePart user block header contentLength = some (block', outcome)) :
    ∀ text ∈ outcome.message, text.length ≤ 100 := by
  unfold parsePart at h
  dsimp only at h
  split at h
  · cases h
    simp
    decide
  split at h
  · cases h
    simp
    decide
  obtain ⟨field, -, h⟩ := Option.bind_eq_some_iff.mp h
  split at h
  · cases h
    simp
    decide
  obtain ⟨_, -, h⟩ := Option.bind_eq_some_iff.mp h
  cases h
  exact storeFile_short _ _ _ _ _

theorem parseHttpContent_short {user : User} {block block' : Block} {buffer : ℕ} {len : Int}
    {boundary : List UInt8} {outcome : Outcome}
    (h : parseHttpContent user block buffer len boundary = some (block', outcome)) :
    ∀ text ∈ outcome.message, text.length ≤ 100 := by
  unfold parseHttpContent at h
  dsimp only at h
  split at h
  · cases h
    simp
    decide
  split at h
  · cases h
    simp
    decide
  obtain ⟨c, -, h⟩ := Option.bind_eq_some_iff.mp h
  obtain ⟨block₁, -, h⟩ := Option.bind_eq_some_iff.mp h
  exact parsePart_short h

section Answers

variable {cfg : Config}

theorem message_short {text : String} (h : text.length ≤ 100) : (Action.message text).Short := h

theorem readGet_short (hname : ∀ f ∈ cfg.filename, f.length ≤ 100) (buffer : Block) :
    (readGet cfg buffer).Short := by
  have hfile : (cfg.filename.getD []).length ≤ 100 := by
    cases hfile : cfg.filename with
    | none => exact Nat.zero_le _
    | some filename => exact hname filename hfile
  unfold readGet
  dsimp only
  split
  · split
    · trivial
    · rename_i filename hfile
      exact hname filename hfile
  · split
    · exact hfile
    · exact message_short (by decide)

theorem readPost_short {buffer : Block} {httpHeader : Int} {action : Action}
    (h : readPost cfg buffer httpHeader = .respond action) : action.Short := by
  unfold readPost at h
  dsimp only at h
  repeat' split at h
  all_goals cases h
  all_goals exact message_short (by decide)

theorem scanRequest_short (hname : ∀ f ∈ cfg.filename, f.length ≤ 100) {s s' : Server}
    {action : Action} (h : scanRequest cfg s = .over (.responds s' action)) : action.Short := by
  unfold scanRequest at h
  dsimp only at h
  split at h
  · cases h
  split at h
  · cases h
  rename_i buffer _
  split at h
  · rename_i hheader
    cases h
    unfold readHeader at hheader
    split_ifs at hheader
    · cases hheader
      exact readGet_short hname _
    · exact readPost_short hheader
  all_goals cases h

theorem finish_short {user : User} {s s' : Server} {action : Action}
    (h : finish user s = .responds s' action) : action.Short := by
  unfold finish at h
  split at h
  · split at h
    · cases h
    split at h
    · cases h
    dsimp only at h
    split at h
    · cases h
    rename_i hparse
    cases h
    exact parseHttpContent_short hparse
  · cases h

/-- Every answer of the loop is short. -/
theorem loopTurn_short (hname : ∀ f ∈ cfg.filename, f.length ≤ 100) {s s' : Server} {pass : Pass}
    {action : Action} (h : loopTurn cfg s pass = .responds s' action) : action.Short := by
  unfold loopTurn serve at h
  split at h
  · cases h
  split at h
  · rename_i harrive
    subst h
    unfold arrive at harrive
    split at harrive
    · cases harrive
    dsimp only at harrive
    split at harrive
    · exact scanRequest_short hname harrive
    · cases harrive
  · exact finish_short h

end Answers

theorem length_intText_le {n : Int} (hlow : -10000000000 < n) (hhigh : n < 10000000000) :
    (intText n).length ≤ 11 := by
  have hdecimal {m : ℕ} (hm : m < 10000000000) : (decimal m).length ≤ 10 := by
    rw [decimal, List.length_map, Nat.length_toDigits_le_iff (by decide) (by decide)]
    exact hm
  cases n with
  | ofNat m =>
    have hm : (m : Int) < 10000000000 := hhigh
    exact Nat.le_succ_of_le (hdecimal (by omega))
  | negSucc m =>
    exact Nat.succ_le_succ (hdecimal (by omega))

theorem length_ascii (s : String) : (ascii s).length = s.length := by
  rw [ascii, List.length_map, String.length_toList]

theorem sprintf_ok {text : List UInt8} (h : text.length < 1024) : sprintf text = .ok text :=
  if_pos h

theorem length_htmlResponse_le {n : Int} (hlow : -10000000000 < n) (hhigh : n < 10000000000)
    (content : List UInt8) : (htmlResponse n content).length ≤ 100 + content.length := by
  have hint := length_intText_le hlow hhigh
  have hfront : ("HTTP/1.1 200 OK\r\nContent-Length: ").length = 33 := by decide
  have hback : ("\r\nContent-Type: text/html\r\nConnection: closed\r\n\r\n").length = 49 := by
    decide
  simp only [htmlResponse, List.length_append, length_ascii, hfront, hback]
  omega

theorem length_fileHeader_le {n : Int} (hlow : -10000000000 < n) (hhigh : n < 10000000000)
    (filename : List UInt8) : (fileHeader n filename).length ≤ 160 + filename.length := by
  have hint := length_intText_le hlow hhigh
  have hfront : ("HTTP/1.1 200 OK\r\nContent-Length: ").length = 33 := by decide
  have htype : ("\r\nContent-Type: application/octet-stream\r\n").length = 42 := by decide
  have hname : ("Content-Disposition: attachment; filename=\"").length = 43 := by decide
  have hback : ("\"\r\nConnection: closed\r\n\r\n").length = 25 := by decide
  simp only [fileHeader, List.length_append, length_ascii, hfront, htype, hname, hback]
  omega

theorem sendHttpMessage_ok (message : List UInt8) (h : message.length ≤ 300) :
    ∃ calls, sendHttpMessage message = .ok calls := by
  have hhead : ("<html><head></head><body>").length = 25 := by decide
  have htail : ("</body></html>").length = 14 := by decide
  have hnewline : ("\n").length = 1 := by decide
  set content := ascii "<html><head></head><body>" ++ ascii "\n" ++ message ++ ascii "\n" ++
    ascii "</body></html>" ++ ascii "\n" with hcontent
  have hlength : content.length = message.length + 42 := by
    simp only [hcontent, List.length_append, length_ascii, hhead, htail, hnewline]
    omega
  have hresponse := length_htmlResponse_le (n := content.length - 1) (by omega) (by omega) content
  refine ⟨_, bind_eq_ok.mpr ⟨content, ?_, bind_eq_ok.mpr ⟨_, sprintf_ok ?_, rfl⟩⟩⟩
  · rw [← hcontent]
    exact sprintf_ok (by omega)
  · omega

theorem message_fits (message : List UInt8) (h : message.length ≤ 300) :
    (Response.message message).Fits := by
  obtain ⟨calls, hcalls⟩ := sendHttpMessage_ok message h
  simp [Response.Fits, Response.send, hcalls]

theorem downloadLink_fits {filename : List UInt8} (h : filename.length ≤ 100) :
    (Response.downloadLink filename).Fits := by
  have hfront : ("<a href=\"").length = 9 := by decide
  have hmiddle : ("\">").length = 2 := by decide
  have hback : ("</a>").length = 4 := by decide
  have hlength : (ascii "<a href=\"" ++ filename ++ ascii "\">" ++ filename ++
      ascii "</a>").length ≤ 300 := by
    simp only [List.length_append, length_ascii, hfront, hmiddle, hback]
    omega
  obtain ⟨calls, hcalls⟩ := sendHttpMessage_ok _ hlength
  have hsend : sendHttpDownloadLink filename = .ok calls :=
    bind_eq_ok.mpr ⟨_, sprintf_ok (by omega), hcalls⟩
  simp [Response.Fits, Response.send, hsend]

/-- The loop over the file does not use the buffers of the texts. -/
theorem file_fits {filename : List UInt8} (h : filename.length ≤ 100) (opened : Option File) :
    (Response.file filename opened).Fits := by
  cases opened with
  | none =>
    refine message_fits (ascii "Unable to find file") ?_
    rw [length_ascii]
    decide
  | some file =>
    unfold Response.Fits Response.send sendHttpFile
    dsimp only
    split
    · obtain ⟨calls, hcalls⟩ := sendHttpMessage_ok (ascii "File is more than 512MB\n")
        (by rw [length_ascii]; decide)
      simp [hcalls, bind, Except.bind, pure, Except.pure]
    · rename_i hlarge
      have hlow := file.length_ge
      have hheader := length_fileHeader_le (n := file.length) (by omega) (by omega) filename
      rw [sprintf_ok (by omega)]
      unfold sendChunks
      split_ifs <;> simp [bind, Except.bind, pure, Except.pure]

theorem Action.Short.fits {action : Action} (h : action.Short) (opened : Option File) :
    (action.response opened).Fits := by
  cases action with
  | uploadForm =>
    obtain ⟨calls, hcalls, -⟩ := sendHttpUploadForm_truthful
    simp [Action.response, Response.Fits, Response.send, hcalls]
  | downloadLink filename => exact downloadLink_fits h
  | file filename => exact file_fits h opened
  | message text =>
    refine message_fits _ ?_
    rw [length_ascii]
    exact h.trans (by decide)
  | upload content boundary outcome =>
    refine message_fits _ ?_
    rw [length_ascii]
    cases hmessage : outcome.message with
    | none => decide
    | some text => exact (h text hmessage).trans (by decide)

/-- Whatever `main` is started with, and whatever a turn of its loop gets, the answer fits into
the buffers that it is written to. -/
theorem answers_fit {outside : Surroundings} {arguments : List (List UInt8)} {settings : Settings}
    (hstart : startMain outside arguments = .ok settings) {cfg : Config}
    (hname : cfg.filename = settings.filename) {s s' : Server} {pass : Pass} {action : Action}
    (hstep : loopStep cfg s pass = (s', .responds s' action)) (opened : Option File) :
    (action.response opened).Fits := by
  have hlength := (startMain_eq_ok.mp hstart).1.length
  have hshort : ∀ f ∈ cfg.filename, f.length ≤ 100 := by
    intro f hf
    rw [hname] at hf
    rwa [hf] at hlength
  exact (loopTurn_short hshort (congrArg Prod.snd hstep)).fits opened

/-- The configuration of `someSettings`. -/
def someConfig : Config := ⟨1048576, by decide, some (ascii "a.txt"), by decide⟩

/-- A connection is open, and nothing has arrived on it. -/
def openServer : Server := ⟨.replicate 32 0, 0, -1, -1, -1, 1, false, none⟩

/-- The request for the file arrives. -/
def filePass : Pass := ⟨1, some (ascii "GET /a.txt \n\n"), ⟨[], fun _ => true⟩⟩

theorem answers_fit_file :
    (Action.response (some shortFile) (.file (ascii "a.txt"))).Fits := by
  have hstep : loopStep someConfig openServer filePass =
      ((loopStep someConfig openServer filePass).1,
        .responds (loopStep someConfig openServer filePass).1 (.file (ascii "a.txt"))) := by
    rfl
  exact answers_fit startMain_someArguments rfl hstep (some shortFile)

end EthTransfer
