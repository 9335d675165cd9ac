import EthTransfer.Http.Content
import Mathlib.Data.Int.DivMod

/-!
# The server loop

One pass of the loop of `main` over a connection.  `Server` holds the local variables of
`main`, `arrive` is the pass up to the line that asks whether the request is complete,
and `serve` is the whole pass, given what `read_tcp` answers.

`readHeader` is what `main` decides from a header, which depends on the header alone.
`loopStep` is one turn of the loop: a pass, or the opening of a connection.
-/

namespace EthTransfer

open Search

/-- What the arguments of the program set: `max_size` and `filename`. -/
structure Config where
  maxSize : ℕ
  maxSize_lt : maxSize < 2147483648
  filename : Option (List UInt8)
  filename_text : ∀ f ∈ filename, (0 : UInt8) ∉ f

/-- The local variables of `main`.  `boundary` is a place in `readBuffer`, or `NULL`. -/
structure Server where
  readBuffer : Block
  readCount : Int
  httpHeader : Int
  contentLength : Int
  requiredLength : Int
  connectionId : Int
  complete : Bool
  boundary : Option ℕ

/-- How `main` answers a request.  An upload comes with the bytes and the string that it
gives to `parse_http_content`. -/
inductive Action where
  | uploadForm
  | downloadLink (filename : List UInt8)
  | file (filename : List UInt8)
  | message (text : String)
  | upload (content boundary : List UInt8) (outcome : Outcome)
  deriving DecidableEq

/-! ## Requests -/

/-- The value of an `int` after an addition. -/
def wrapInt (x : Int) : Int := x.bmod 4294967296

/-- `isspace`. -/
def isSpace (b : UInt8) : Bool := b = 32 || (9 ≤ b && b ≤ 13)

/-- `isdigit`. -/
def isDigit (b : UInt8) : Bool := 48 ≤ b && b ≤ 57

/-- The value of decimal digits. -/
def digitsValue (digits : List UInt8) : ℕ :=
  digits.foldl (fun n d => 10 * n + (d.toNat - 48)) 0

/-- `sscanf` with `%d`, as `strtol` reads a number: white space, a sign and digits.  A `long`
has the 32 bits of an `int`, as on the Raspberry Pi that the program is for, so a number out
of range becomes the nearest `int`. -/
def scanInt (s : List UInt8) : Option Int :=
  let s := s.dropWhile isSpace
  let negative := s.head? = some 45
  let s := if negative ∨ s.head? = some 43 then s.tail else s
  let digits := s.takeWhile isDigit
  if digits = [] then none
  else
    let n : Int := digitsValue digits
    some (max (-2147483648) (min 2147483647 (if negative then -n else n)))

/-- What `main` makes of a header. -/
inductive Decision where
  /-- The pass ends with an answer. -/
  | respond (action : Action)
  /-- A `POST` request, with `content_length`, `required_length` and `boundary`. -/
  | post (contentLength requiredLength : Int) (boundary : ℕ)
  /-- Neither `GET` nor `POST`. -/
  | other
  | fault

/-- The `GET` branch. -/
def readGet (cfg : Config) (buffer : Block) : Action :=
  if (ascii "/ ").isPrefixOf (buffer.drop 4) then
    match cfg.filename with
    | none => .uploadForm
    | some filename => .downloadLink filename
  else
    let filename := cfg.filename.getD []
    if buffer.getD 4 0 = 47 ∧ filename.isPrefixOf (buffer.drop 5) ∧
        buffer.getD (5 + filename.length) 0 = 32 then .file filename
    else .message "File not found\n"

/-- The `POST` branch. -/
def readPost (cfg : Config) (buffer : Block) (httpHeader : Int) : Decision :=
  let contentIndex := headerValue buffer httpHeader (ascii "Content-Length: ")
  if contentIndex = -1 then
    .respond (.message "No content length field found in html post header")
  else
    match stringAt buffer contentIndex.toNat with
    | none => .fault
    | some text =>
      match scanInt text with
      | none => .respond (.message "Unable to parse content length field")
      | some contentLength =>
        if contentLength < 0 then .respond (.message "Negative content length")
        else if contentLength > cfg.maxSize then
          .respond (.message "Content length exceeds max size parameter")
        else
          let contentType := headerValue buffer httpHeader (ascii "Content-Type: ")
          if contentType = -1 then
            .respond (.message "No content type field found in html post header")
          else
            match stringAt buffer contentType.toNat with
            | none => .fault
            | some field =>
              match strstr field (ascii "boundary=") with
              | none => .respond (.message "No boundary field in content type field")
              | some i =>
                let boundary := contentType.toNat + i + (ascii "boundary=").length
                let requiredLength := wrapInt (contentLength + httpHeader)
                if requiredLength > cfg.maxSize - 1 then
                  .respond (.message "Total length exceeds max size parameter")
                else .post contentLength requiredLength boundary

/-- What `main` decides once `split_header` has run. -/
def readHeader (cfg : Config) (buffer : Block) (httpHeader : Int) : Decision :=
  if (ascii "GET ").isPrefixOf buffer then .respond (readGet cfg buffer)
  else if (ascii "POST ").isPrefixOf buffer then readPost cfg buffer httpHeader
  else .other

/-! ## A pass over a connection -/

/-- How a pass ends: the connection stays open, or it is answered and `connection_id` is
`-1` again, or the program exits, or it accesses memory outside its buffer. -/
inductive Turn where
  | waits (s : Server)
  | responds (s : Server) (action : Action)
  | exits
  | faults

/-- Whether an answer makes the request complete. -/
def Action.completes : Action → Bool
  | .file _ => true
  | .upload _ _ outcome => outcome.message.isNone
  | _ => false

/-- The answer is sent and the connection is given up. -/
def Server.respond (s : Server) (action : Action) : Turn :=
  .responds
    { s with connectionId := -1, complete := s.complete || action.completes } action

/-- What `read_tcp` writes: `none` when it answers `-1`. -/
def Server.store (s : Server) : Option (List UInt8) → Server
  | none => s
  | some data =>
    { s with
        readBuffer := s.readBuffer.take s.readCount.toNat ++ data ++
          s.readBuffer.drop (s.readCount.toNat + data.length)
        readCount := s.readCount + data.length }

/-- Where a pass stands after the header: it is over, or it asks whether the request is
complete. -/
inductive Passing where
  | over (turn : Turn)
  | asks (s : Server)

/-- The branch of `main` that looks for the header. -/
def scanRequest (cfg : Config) (s : Server) : Passing :=
  let s := { s with boundary := none, httpHeader := headerScan s.readBuffer s.readCount }
  if s.httpHeader = -1 then .over (.waits s)
  else
    match writeAt s.readBuffer (s.httpHeader - 1) 0 with
    | none => .over .faults
    | some buffer =>
      let s := { s with readBuffer := splitHeader buffer 0 s.httpHeader.toNat }
      match readHeader cfg s.readBuffer s.httpHeader with
      | .respond action => .over (s.respond action)
      | .post contentLength requiredLength boundary =>
        .asks
          { s with
              contentLength := contentLength
              requiredLength := requiredLength
              boundary := some boundary }
      | .other => .asks s
      | .fault => .over .faults

/-- A pass up to `if (read_count >= required_length)`. -/
def arrive (cfg : Config) (s : Server) (read : Option (List UInt8)) : Passing :=
  if (cfg.maxSize : Int) - s.readCount ≤ 0 then .over .exits
  else
    let s := s.store read
    if s.httpHeader = -1 then scanRequest cfg s else .asks s

/-- The rest of the pass. -/
def finish (user : User) (s : Server) : Turn :=
  if s.readCount ≥ s.requiredLength then
    match writeAt s.readBuffer s.requiredLength 0 with
    | none => .faults
    | some buffer =>
      match s.boundary.bind (stringAt buffer) with
      | none => .faults
      | some boundary =>
        let length := s.requiredLength - s.httpHeader
        match parseHttpContent user buffer s.httpHeader.toNat length boundary with
        | none => .faults
        | some (buffer', outcome) =>
          Server.respond { s with readBuffer := buffer' }
            (.upload ((buffer.drop s.httpHeader.toNat).take length.toNat) boundary outcome)
  else .waits s

/-- A pass of the loop of `main` over an open connection. -/
def serve (cfg : Config) (user : User) (s : Server) (read : Option (List UInt8)) : Turn :=
  match arrive cfg s read with
  | .over turn => turn
  | .asks s => finish user s

/-! ## The loop -/

/-- What one turn of the loop gets from outside: what `open_tcp` returns, or what
`read_tcp` writes, and what the user answers. -/
structure Pass where
  opened : Int
  read : Option (List UInt8)
  user : User

/-- One turn of the loop of `main`. -/
def loopTurn (cfg : Config) (s : Server) (pass : Pass) : Turn :=
  if s.connectionId = -1 then
    .waits
      { s with
          httpHeader := -1
          readCount := 0
          contentLength := -1
          requiredLength := -1
          connectionId := pass.opened }
  else serve cfg pass.user s pass.read

/-- The variables after a turn.  A turn that ends the program leaves them. -/
def Turn.next (s : Server) : Turn → Server
  | .waits s' => s'
  | .responds s' _ => s'
  | .exits => s
  | .faults => s

def loopStep (cfg : Config) (s : Server) (pass : Pass) : Server × Turn :=
  ((loopTurn cfg s pass).next s, loopTurn cfg s pass)

end EthTransfer
