import AwsIotSdk.ResponseCode

/-! UTF-8 validation. An iterator is the rest of the string up to `end`, so
reaching `end` is the empty list and no read can go past it. -/

namespace AwsIotSdk

inductive UtfError where
  | notEnoughRoom
  | invalidLead
  | incompleteSequence
  | overlongSequence
  | invalidCodePoint
  deriving DecidableEq, Repr

def isTrail (oc : UInt8) : Bool := oc >>> 6 == 2

def isSurrogate (cp : Nat) : Bool := 0xd800 ≤ cp && cp ≤ 0xdfff

def isCodePointValid (cp : Nat) : Bool := cp ≤ 0x10ffff && !isSurrogate cp

def sequenceLength (lead : UInt8) : Nat :=
  if lead < 0x80 then 1
  else if lead >>> 5 == 0x6 then 2
  else if lead >>> 4 == 0xe then 3
  else if lead >>> 3 == 0x1e then 4
  else 0

def isOverlongSequence (cp length : Nat) : Bool :=
  if cp < 0x80 then length ≠ 1
  else if cp < 0x800 then length ≠ 2
  else if cp < 0x10000 then length ≠ 3
  else false

def increaseSafely : Bytes → Except UtfError (UInt8 × Bytes)
  | _ :: oc :: rest => if isTrail oc then .ok (oc, oc :: rest) else .error .incompleteSequence
  | _ => .error .notEnoughRoom

/- The `getSequence` functions return the code point and an iterator to the
last octet of the sequence. -/

def getSequence1 : Bytes → Except UtfError (Nat × Bytes)
  | [] => .error .notEnoughRoom
  | oc :: rest => .ok (oc.toNat, oc :: rest)

def getSequence2 : Bytes → Except UtfError (Nat × Bytes)
  | [] => .error .notEnoughRoom
  | oc :: rest => do
    let (oc₁, it) ← increaseSafely (oc :: rest)
    return (((oc.toNat <<< 6) &&& 0x7ff) + (oc₁.toNat &&& 0x3f), it)

def getSequence3 : Bytes → Except UtfError (Nat × Bytes)
  | [] => .error .notEnoughRoom
  | oc :: rest => do
    let (oc₁, it) ← increaseSafely (oc :: rest)
    let cp := ((oc.toNat <<< 12) &&& 0xffff) + ((oc₁.toNat <<< 6) &&& 0xfff)
    let (oc₂, it) ← increaseSafely it
    return (cp + (oc₂.toNat &&& 0x3f), it)

def getSequence4 : Bytes → Except UtfError (Nat × Bytes)
  | [] => .error .notEnoughRoom
  | oc :: rest => do
    let (oc₁, it) ← increaseSafely (oc :: rest)
    let cp := ((oc.toNat <<< 18) &&& 0x1fffff) + ((oc₁.toNat <<< 12) &&& 0x3ffff)
    let (oc₂, it) ← increaseSafely it
    let cp := cp + ((oc₂.toNat <<< 6) &&& 0xfff)
    let (oc₃, it) ← increaseSafely it
    return (cp + (oc₃.toNat &&& 0x3f), it)

def validateNext (it : Bytes) : Except UtfError Bytes :=
  match it with
  | [] => .error .notEnoughRoom
  | lead :: _ => do
    let length := sequenceLength lead
    let (cp, it) ←
      match length with
      | 0 => .error .invalidLead
      | 1 => getSequence1 it
      | 2 => getSequence2 it
      | 3 => getSequence3 it
      | _ => getSequence4 it
    if isCodePointValid cp then
      if !isOverlongSequence cp length then return it.tail
      else .error .overlongSequence
    else .error .invalidCodePoint

/-- Each accepted code point takes at least one octet, so the length of the
string bounds the iterations of the scan. -/
def findInvalidFrom : Nat → Bytes → Bytes
  | 0, it => it
  | _ + 1, [] => []
  | fuel + 1, it =>
    match validateNext it with
    | .ok rest => findInvalidFrom fuel rest
    | .error _ => it

def findInvalid (str : Bytes) : Bytes := findInvalidFrom str.length str

def isValidInput (str : Bytes) : Bool := findInvalid str == []

structure Utf8String where
  data : Bytes
  valid : isValidInput data = true

namespace Utf8String

def create (str : Bytes) : Option Utf8String :=
  if h : isValidInput str = true then some ⟨str, h⟩ else none

def length (s : Utf8String) : Nat := s.data.length

def toStdString (s : Utf8String) : Bytes := s.data

theorem data_of_create {str : Bytes} {s : Utf8String} (h : create str = some s) :
    s.data = str := by
  unfold create at h
  split_ifs at h with hv
  exact congrArg Utf8String.data (Option.some.inj h).symm

theorem create_data (s : Utf8String) : create s.data = some s := by
  rw [create, dif_pos s.valid]

end Utf8String

end AwsIotSdk
