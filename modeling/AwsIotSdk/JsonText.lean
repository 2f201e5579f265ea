import AwsIotSdk.Ascii
import AwsIotSdk.JsonValue
import AwsIotSdk.Utf8Validity

/-! JSON texts and the values they stand for. The reader goes from left to right, and each
function returns what it leaves of the text. -/

namespace AwsIotSdk

namespace JsonText

open Ascii

def quote : UInt8 := 0x22
def comma : UInt8 := 0x2c
def minus : UInt8 := 0x2d
def point : UInt8 := 0x2e
def colon : UInt8 := 0x3a
def openBracket : UInt8 := 0x5b
def backslash : UInt8 := 0x5c
def closeBracket : UInt8 := 0x5d
def openBrace : UInt8 := 0x7b
def closeBrace : UInt8 := 0x7d

def isWhitespace (c : UInt8) : Bool := c == 0x20 || c == 0x09 || c == 0x0a || c == 0x0d

def skipWhitespace (t : Bytes) : Bytes := t.dropWhile isWhitespace

def expect (c : UInt8) : Bytes → Option Bytes
  | [] => none
  | d :: rest => if d = c then some rest else none

def expectAll : (word : Bytes) → Bytes → Option Bytes
  | [], t => some t
  | c :: word, t => (expect c t).bind (expectAll word)

/-! ### Strings -/

/-- The character that a backslash and one more character stand for. -/
def simpleEscape (c : UInt8) : Option UInt8 :=
  if c == quote || c == backslash || c == 0x2f then some c
  else if c == 0x62 then some 0x08
  else if c == 0x66 then some 0x0c
  else if c == 0x6e then some 0x0a
  else if c == 0x72 then some 0x0d
  else if c == 0x74 then some 0x09
  else none

def hex4 : Bytes → Option (Nat × Bytes)
  | a :: b :: c :: d :: rest => do
    let a ← hexValue a
    let b ← hexValue b
    let c ← hexValue c
    let d ← hexValue d
    some (((a * 16 + b) * 16 + c) * 16 + d, rest)
  | _ => none

/-- The UTF-8 form of a code point. -/
def utf8 (cp : Nat) : Bytes :=
  if cp < 0x80 then [UInt8.ofNat cp]
  else if cp < 0x800 then [UInt8.ofNat (0xc0 + cp / 64), UInt8.ofNat (0x80 + cp % 64)]
  else if cp < 0x10000 then
    [UInt8.ofNat (0xe0 + cp / 4096), UInt8.ofNat (0x80 + cp / 64 % 64),
      UInt8.ofNat (0x80 + cp % 64)]
  else
    [UInt8.ofNat (0xf0 + cp / 262144), UInt8.ofNat (0x80 + cp / 4096 % 64),
      UInt8.ofNat (0x80 + cp / 64 % 64), UInt8.ofNat (0x80 + cp % 64)]

/-- The four digits behind `\u`, with those of the low surrogate where they are a high one.
A surrogate without its other half stands for no character. -/
def unicodeEscape (t : Bytes) : Option (Bytes × Bytes) := do
  let (high, rest) ← hex4 t
  if 0xd800 ≤ high ∧ high ≤ 0xdbff then
    let rest ← expectAll [backslash, 0x75] rest
    let (low, rest) ← hex4 rest
    if 0xdc00 ≤ low ∧ low ≤ 0xdfff then
      some (utf8 (0x10000 + (high - 0xd800) * 0x400 + (low - 0xdc00)), rest)
    else none
  else if 0xdc00 ≤ high ∧ high ≤ 0xdfff then none
  else some (utf8 high, rest)

def escapeSequence : Bytes → Option (Bytes × Bytes)
  | [] => none
  | c :: rest =>
    if c = 0x75 then unicodeEscape rest else (simpleEscape c).map (fun d => ([d], rest))

/-- The characters of a string up to its closing quote, no more of them than `fuel`. -/
def chars : (fuel : Nat) → Bytes → Option (Bytes × Bytes)
  | 0, _ => none
  | _ + 1, [] => none
  | fuel + 1, c :: rest =>
    if c = quote then some ([], rest)
    else if c = backslash then do
      let (d, rest) ← escapeSequence rest
      let (str, rest) ← chars fuel rest
      some (d ++ str, rest)
    else if c < 0x20 then none
    else do
      let (str, rest) ← chars fuel rest
      some (c :: str, rest)

/-! ### Numbers -/

/-- `mantissa * 10 ^ exponent`, as it is written. -/
structure Decimal where
  mantissa : Int
  exponent : Int
  deriving DecidableEq, Repr

def digits (t : Bytes) : Option (Bytes × Bytes) :=
  if t.takeWhile isDigit = [] then none else some (t.takeWhile isDigit, t.dropWhile isDigit)

def ofDigits (ds : Bytes) : Nat := ds.foldl (fun n d => n * 10 + (d.toNat - 0x30)) 0

/-- No digit follows a zero in front. -/
def integerPart (t : Bytes) : Option (Bytes × Bytes) := do
  let (ds, rest) ← digits t
  if ds.head? = some 0x30 ∧ ds.length ≠ 1 then none else some (ds, rest)

def fraction (t : Bytes) : Option (Bytes × Bytes) :=
  match expect point t with
  | none => some ([], t)
  | some rest => digits rest

def sign (t : Bytes) : Int × Bytes :=
  match expect minus t with
  | some rest => (-1, rest)
  | none => (1, (expect 0x2b t).getD t)

def exponentPart (t : Bytes) : Option (Int × Bytes) :=
  match (expect 0x65 t).or (expect 0x45 t) with
  | none => some (0, t)
  | some rest => do
    let (s, rest) := sign rest
    let (ds, rest) ← digits rest
    some (s * ofDigits ds, rest)

def number (t : Bytes) : Option (Decimal × Bytes) := do
  let negative := (expect minus t).isSome
  let (ds, rest) ← integerPart ((expect minus t).getD t)
  let (fs, rest) ← fraction rest
  let (e, rest) ← exponentPart rest
  let mantissa : Int := ofDigits (ds ++ fs)
  some (⟨if negative then -mantissa else mantissa, e - fs.length⟩, rest)

/-! ### Values -/

def literal (t : Bytes) : Option (JsonValue Decimal × Bytes) :=
  ((expectAll (text "null") t).map (fun rest => (.null, rest))).or
    (((expectAll (text "true") t).map (fun rest => (.bool true, rest))).or
      ((expectAll (text "false") t).map (fun rest => (.bool false, rest))))

mutual

/-- A value at the start of the text, nested no deeper than `fuel`. -/
def value : (fuel : Nat) → Bytes → Option (JsonValue Decimal × Bytes)
  | 0, _ => none
  | _ + 1, [] => none
  | fuel + 1, c :: rest =>
    if c = quote then (chars rest.length rest).map (fun r => (.string r.1, r.2))
    else if c = openBrace then
      match expect closeBrace (skipWhitespace rest) with
      | some rest => some (.object [], rest)
      | none => (members fuel (skipWhitespace rest)).map (fun r => (.object r.1, r.2))
    else if c = openBracket then
      match expect closeBracket (skipWhitespace rest) with
      | some rest => some (.array [], rest)
      | none => (elements fuel (skipWhitespace rest)).map (fun r => (.array r.1, r.2))
    else (literal (c :: rest)).or ((number (c :: rest)).map (fun r => (.number r.1, r.2)))

def members : (fuel : Nat) → Bytes → Option (List (Bytes × JsonValue Decimal) × Bytes)
  | 0, _ => none
  | fuel + 1, t => do
    let t ← expect quote t
    let (name, t) ← chars t.length t
    let t ← expect colon (skipWhitespace t)
    let (v, t) ← value fuel (skipWhitespace t)
    match expect comma (skipWhitespace t) with
    | some t =>
      let (ms, t) ← members fuel (skipWhitespace t)
      some ((name, v) :: ms, t)
    | none =>
      let t ← expect closeBrace (skipWhitespace t)
      some ([(name, v)], t)

def elements : (fuel : Nat) → Bytes → Option (List (JsonValue Decimal) × Bytes)
  | 0, _ => none
  | fuel + 1, t => do
    let (v, t) ← value fuel t
    match expect comma (skipWhitespace t) with
    | some t =>
      let (vs, t) ← elements fuel (skipWhitespace t)
      some (v :: vs, t)
    | none =>
      let t ← expect closeBracket (skipWhitespace t)
      some ([v], t)

end

/-- The value of a whole text. Every call of a reader uses up a character at least, so the
length of the text bounds how deep they go. -/
def parse (t : Bytes) : Option (JsonValue Decimal) := do
  let (v, rest) ← value (t.length + 1) (skipWhitespace t)
  if skipWhitespace rest = [] then some v else none

/-- The text is JSON, in UTF-8, with the value. -/
def Denotes (t : Bytes) (v : JsonValue Decimal) : Prop := WellFormedUtf8 t ∧ parse t = some v

end JsonText

end AwsIotSdk
