import AwsIotSdk.Ascii
import AwsIotSdk.NetworkConnection

/-! The reader of the discovery response, which takes the header byte by byte. The clock is
counted in reads: the deadline has passed once more than `timeLeft` further reads are made. -/

namespace AwsIotSdk

/-- The first place where the pattern stands. -/
def find (pattern : Bytes) : Bytes → Option Nat
  | [] => if pattern = [] then some 0 else none
  | c :: s => if pattern.isPrefixOf (c :: s) then some 0 else (find pattern s).map (· + 1)

def isSpace (c : UInt8) : Bool := c = 0x20 || (0x09 ≤ c && c ≤ 0x0d)

def decimal (digits : Bytes) : Nat := digits.foldl (fun n c => 10 * n + (c.toNat - 0x30)) 0

/-- `none` where `std::stoul` throws: there is no digit, or the number is out of range. -/
def stoul (str : Bytes) : Option Nat :=
  let t := str.dropWhile isSpace
  let negative := t.head? = some 0x2d
  let t := if t.head? = some 0x2d ∨ t.head? = some 0x2b then t.tail else t
  let digits := t.takeWhile Ascii.isDigit
  if digits = [] ∨ 2 ^ 64 ≤ decimal digits then none
  else some (if negative then (2 ^ 64 - decimal digits) % 2 ^ 64 else decimal digits)

namespace DiscoverAction

def expectedSuccessResponse : Bytes := text "HTTP/1.1 200 OK"
def failInfoNotPresent : Bytes := text "HTTP/1.1 404"
def failUnauthorized : Bytes := text "HTTP/1.1 401"
def failTooManyRequests : Bytes := text "HTTP/1.1 429"
def contentLengthString : Bytes := text "content-length: "

def crlf : Bytes := [0x0d, 0x0a]

/-- The connection and the two buffers. -/
structure Reader (σ : Type) where
  connection : σ
  tempBuf : Bytes
  readBuf : Bytes

variable {σ : Type} [NetworkConnection σ]

/-- A read of one byte, which is appended to the buffer. -/
def Reader.readByte (threadContinue : Bool) (s : Reader σ) : ResponseCode × Reader σ :=
  let r := Action.readFromNetworkBuffer threadContinue s.connection s.tempBuf 1
  (r.rc, { connection := r.connection
           tempBuf := r.buf
           readBuf := if r.rc = .success then s.readBuf ++ r.buf.take 1 else s.readBuf })

structure LoopResult (σ : Type) where
  rc : ResponseCode
  timeLeft : Nat
  reader : Reader σ

/-- The status line; a read that fails is repeated. -/
def statusLoop (threadContinue : Bool) : (timeLeft : Nat) → Reader σ → LoopResult σ
  | 0, s => ⟨.discoverActionRequestTimedOutError, 0, (s.readByte threadContinue).2⟩
  | timeLeft + 1, s =>
    let r := s.readByte threadContinue
    if r.1 = .success ∧ crlf.isSuffixOf r.2.readBuf then ⟨.success, timeLeft, r.2⟩
    else statusLoop threadContinue timeLeft r.2

/-- Line after line, up to the one with the content length, and where that was found. A
line without it goes on without a look at the clock. -/
def contentLengthLoop (threadContinue : Bool) :
    (fuel timeLeft : Nat) → Reader σ → Option Nat × LoopResult σ
  | 0, timeLeft, s => (none, ⟨.failure, timeLeft, s⟩)
  | fuel + 1, timeLeft, s =>
    let r := s.readByte threadContinue
    if r.1 ≠ .success then (none, ⟨r.1, timeLeft - 1, r.2⟩)
    else if crlf.isSuffixOf r.2.readBuf then
      match find contentLengthString r.2.readBuf with
      | none =>
        contentLengthLoop threadContinue fuel (timeLeft - 1) { r.2 with readBuf := [] }
      | some index =>
        (some index, ⟨if timeLeft = 0 then .discoverActionRequestTimedOutError else .success,
          timeLeft - 1, r.2⟩)
    else if timeLeft = 0 then (none, ⟨.discoverActionRequestTimedOutError, 0, r.2⟩)
    else contentLengthLoop threadContinue fuel (timeLeft - 1) r.2

/-- The rest of the header, up to the blank line. -/
def skipLoop (threadContinue : Bool) : (fuel timeLeft : Nat) → Reader σ → LoopResult σ
  | 0, timeLeft, s => ⟨.failure, timeLeft, s⟩
  | fuel + 1, timeLeft, s =>
    let r := s.readByte threadContinue
    if r.1 ≠ .success then ⟨r.1, timeLeft - 1, r.2⟩
    else if timeLeft = 0 then ⟨.discoverActionRequestTimedOutError, 0, r.2⟩
    else if (crlf ++ crlf).isSuffixOf r.2.readBuf then ⟨.success, timeLeft - 1, r.2⟩
    else skipLoop threadContinue fuel (timeLeft - 1) r.2

/-- The error for a status line other than the expected one. -/
def statusError (responseHeader : Bytes) : ResponseCode :=
  if find failInfoNotPresent responseHeader ≠ none then .discoverActionNoInformationPresent
  else if find failTooManyRequests responseHeader ≠ none then .discoverActionRequestOverload
  else if find failUnauthorized responseHeader ≠ none then .discoverActionUnauthorized
  else .discoverActionServerError

/-- The text between the colon and the end of the line. -/
def contentLengthText (readBuf : Bytes) (index : Nat) : Bytes :=
  (readBuf.drop (index + contentLengthString.length)).takeWhile (· ≠ 0x0d)

def readBody (threadContinue : Bool) (contentLength : Nat) (c : σ) (readPayload : Bytes) :
    ResponseCode × Bytes × σ :=
  if 0 < contentLength then
    let r := Action.readFromNetworkBuffer threadContinue c [] contentLength
    (r.rc, if r.rc = .success then readPayload ++ r.buf else readPayload, r.connection)
  else (.discoverActionRequestFailedError, readPayload, c)

/-- What follows the search for the content length; `none` where an exception of
`std::stoul` leaves the function. Neither the result of the skip nor the one of the line with
the content length is looked at. -/
def readRest (threadContinue : Bool) (line : Option Nat × LoopResult σ) (readPayload : Bytes) :
    Option (ResponseCode × Bytes × σ) :=
  match line.1 with
  | none =>
    some (if line.2.rc ≠ .success then line.2.rc else .discoverActionNoInformationPresent,
      readPayload, line.2.reader.connection)
  | some index =>
    match stoul (contentLengthText line.2.reader.readBuf index) with
    | none => none
    | some contentLength =>
      let skip := skipLoop threadContinue
        (NetworkConnection.pending line.2.reader.connection + 1) line.2.timeLeft line.2.reader
      some (readBody threadContinue contentLength skip.reader.connection readPayload)

def readResponseFromNetwork (threadContinue : Bool) (timeLeft : Nat) (c : σ)
    (readPayload : Bytes) : Option (ResponseCode × Bytes × σ) :=
  let status := statusLoop threadContinue timeLeft ⟨c, [], []⟩
  if status.rc ≠ .success then some (status.rc, readPayload, status.reader.connection)
  else if find expectedSuccessResponse status.reader.readBuf = none then
    some (statusError status.reader.readBuf, readPayload, status.reader.connection)
  else
    readRest threadContinue (contentLengthLoop threadContinue
      (NetworkConnection.pending status.reader.connection + 1) status.timeLeft
      { status.reader with readBuf := [] }) readPayload

end DiscoverAction

end AwsIotSdk
