import AwsIotSdk.Ascii

/-! Percent-encoding through an output stream. The width of a field holds for the next output
only, the base and the case until they are set again, and a short field is filled with
blanks. -/

namespace AwsIotSdk

/-- The stream with the format flags that the encoder sets. -/
structure OStringStream where
  str : Bytes
  isHex : Bool
  isUppercase : Bool
  width : Nat
  fill : UInt8
  deriving DecidableEq, Repr

namespace OStringStream

def init : OStringStream := ⟨[], false, false, 0, 0x20⟩

/-- Formatted output, filled on the left. -/
def put (s : OStringStream) (field : Bytes) : OStringStream :=
  { s with str := s.str ++ List.replicate (s.width - field.length) s.fill ++ field, width := 0 }

def putInt (s : OStringStream) (n : Nat) : OStringStream :=
  s.put ((Nat.toDigits (if s.isHex then 16 else 10) n).map (fun digit =>
    UInt8.ofNat (if s.isUppercase then digit.toUpper else digit).toNat))

def hex (s : OStringStream) : OStringStream := { s with isHex := true }

def uppercase (s : OStringStream) : OStringStream := { s with isUppercase := true }

def nouppercase (s : OStringStream) : OStringStream := { s with isUppercase := false }

def setw (s : OStringStream) (n : Nat) : OStringStream := { s with width := n }

end OStringStream

open Ascii

namespace WebSocketConnection

def percent : UInt8 := 0x25

/-- `/` -/
def notEncodedChars : Bytes := [0x2f]

def urlEncodeChar (ignoreChars : Bytes) (escapedString : OStringStream) (currentChar : UInt8) :
    OStringStream :=
  if isAlnum currentChar || ignoreChars.contains currentChar then escapedString.put [currentChar]
  else
    (((escapedString.uppercase.put [percent]).setw 2).putInt currentChar.toNat).nouppercase

def urlEncode (string ignoreChars : Bytes) : Bytes :=
  if string ≠ [] then (string.foldl (urlEncodeChar ignoreChars) OStringStream.init.hex).str
  else string

/-! ### What an encoding is to be -/

inductive PercentEncoded : Bytes → Prop
  | nil : PercentEncoded []
  | plain {c : UInt8} {rest : Bytes} : isAlnum c = true ∨ c = 0x2f → PercentEncoded rest →
      PercentEncoded (c :: rest)
  | escape {high low : UInt8} {rest : Bytes} : (hexValue high).isSome → (hexValue low).isSome →
      PercentEncoded rest → PercentEncoded (percent :: high :: low :: rest)

/-- An escape without two digits has no decoding. -/
def percentDecode : Bytes → Option Bytes
  | [] => some []
  | c :: rest =>
    if c = percent then
      match rest with
      | high :: low :: rest => do
        let h ← hexValue high
        let l ← hexValue low
        let decoded ← percentDecode rest
        some (UInt8.ofNat (16 * h + l) :: decoded)
      | _ => none
    else (percentDecode rest).map (c :: ·)

/-- The output is well formed, and the input can be had back from it. -/
structure Reversible (string : Bytes) : Prop where
  encoded : PercentEncoded (urlEncode string notEncodedChars)
  decodes : percentDecode (urlEncode string notEncodedChars) = some string

/-! ### One character -/

/-- Values below 16 have one digit, and a blank in front of it. -/
def encodeByte (c : UInt8) : Bytes :=
  if isAlnum c || notEncodedChars.contains c then [c]
  else [percent, if c < 0x10 then 0x20 else hexDigit (c.toNat / 16), hexDigit (c.toNat % 16)]

theorem digits_eq (c : UInt8) :
    List.replicate (2 - ((Nat.toDigits 16 c.toNat).map (fun digit =>
        UInt8.ofNat digit.toUpper.toNat)).length) 0x20 ++
      (Nat.toDigits 16 c.toNat).map (fun digit => UInt8.ofNat digit.toUpper.toNat) =
      [if c < 0x10 then 0x20 else hexDigit (c.toNat / 16), hexDigit (c.toNat % 16)] := by
  apply byte_cases (P := fun c => List.replicate (2 - ((Nat.toDigits 16 c.toNat).map (fun digit =>
        UInt8.ofNat digit.toUpper.toNat)).length) 0x20 ++
      (Nat.toDigits 16 c.toNat).map (fun digit => UInt8.ofNat digit.toUpper.toNat) =
      [if c < 0x10 then 0x20 else hexDigit (c.toNat / 16), hexDigit (c.toNat % 16)])
  decide +kernel

/-- The flags between two characters. -/
def Ready (s : OStringStream) : Prop :=
  s.isHex = true ∧ s.isUppercase = false ∧ s.width = 0 ∧ s.fill = 0x20

theorem urlEncodeChar_spec {s : OStringStream} (h : Ready s) (c : UInt8) :
    Ready (urlEncodeChar notEncodedChars s c) ∧
      (urlEncodeChar notEncodedChars s c).str = s.str ++ encodeByte c := by
  obtain ⟨hhex, hupper, hwidth, hfill⟩ := h
  by_cases hplain : (isAlnum c || notEncodedChars.contains c) = true
  · rw [urlEncodeChar, encodeByte, if_pos hplain, if_pos hplain]
    refine ⟨⟨hhex, hupper, rfl, hfill⟩, ?_⟩
    simp [OStringStream.put, hwidth]
  · rw [urlEncodeChar, encodeByte, if_neg hplain, if_neg hplain]
    refine ⟨⟨hhex, rfl, rfl, hfill⟩, ?_⟩
    have hdigits := digits_eq c
    simp only [OStringStream.nouppercase, OStringStream.putInt, OStringStream.setw,
      OStringStream.put, OStringStream.uppercase, hhex, hwidth, hfill, if_true]
    rw [List.append_assoc, hdigits]
    simp

theorem foldl_urlEncodeChar {s : OStringStream} (h : Ready s) (string : Bytes) :
    (string.foldl (urlEncodeChar notEncodedChars) s).str = s.str ++ string.flatMap encodeByte := by
  induction string generalizing s with
  | nil => simp
  | cons c string ih =>
    obtain ⟨hready, hstr⟩ := urlEncodeChar_spec h c
    rw [List.foldl_cons, ih hready, hstr, List.flatMap_cons, List.append_assoc]

theorem urlEncode_eq (string : Bytes) :
    urlEncode string notEncodedChars = string.flatMap encodeByte := by
  rw [urlEncode]
  split_ifs with h
  · exact foldl_urlEncodeChar ⟨rfl, rfl, rfl, rfl⟩ string
  · rw [not_not] at h
    rw [h]
    rfl

theorem plain_iff (c : UInt8) :
    (isAlnum c || notEncodedChars.contains c) = true ↔ isAlnum c = true ∨ c = 0x2f := by
  simp [notEncodedChars]

theorem ge_of_plain {c : UInt8} (h : (isAlnum c || notEncodedChars.contains c) = true) :
    0x10 ≤ c ∧ c ≠ percent := by
  revert h
  apply byte_cases (P := fun c => (isAlnum c || notEncodedChars.contains c) = true →
    0x10 ≤ c ∧ c ≠ percent)
  decide +kernel

theorem encodeByte_of_plain {c : UInt8} (h : (isAlnum c || notEncodedChars.contains c) = true) :
    encodeByte c = [c] := if_pos h

theorem encodeByte_of_not_plain {c : UInt8}
    (h : ¬(isAlnum c || notEncodedChars.contains c) = true) :
    encodeByte c =
      [percent, if c < 0x10 then 0x20 else hexDigit (c.toNat / 16), hexDigit (c.toNat % 16)] :=
  if_neg h

theorem encodeByte_ne_nil (c : UInt8) : encodeByte c ≠ [] := by
  by_cases h : (isAlnum c || notEncodedChars.contains c) = true
  · simp [encodeByte_of_plain h]
  · simp [encodeByte_of_not_plain h]

theorem high_lt (c : UInt8) : c.toNat / 16 < 16 := by
  have := c.toNat_lt
  omega

theorem hexValue_high (c : UInt8) :
    hexValue (if c < 0x10 then 0x20 else hexDigit (c.toNat / 16)) =
      if c < 0x10 then none else some (c.toNat / 16) := by
  split_ifs
  · rfl
  · exact hexValue_hexDigit (high_lt c)

theorem hexValue_low (c : UInt8) : hexValue (hexDigit (c.toNat % 16)) = some (c.toNat % 16) :=
  hexValue_hexDigit (Nat.mod_lt _ (by omega))

theorem ofNat_digits (c : UInt8) : UInt8.ofNat (16 * (c.toNat / 16) + c.toNat % 16) = c := by
  rw [Nat.div_add_mod, UInt8.ofNat_toNat]

/-! ### The whole string -/

theorem percentEncoded_append {c : UInt8} {rest : Bytes} :
    PercentEncoded (encodeByte c ++ rest) ↔ 0x10 ≤ c ∧ PercentEncoded rest := by
  by_cases hplain : (isAlnum c || notEncodedChars.contains c) = true
  · have ⟨hge, hne⟩ := ge_of_plain hplain
    rw [encodeByte_of_plain hplain, List.singleton_append]
    refine ⟨fun h => ⟨hge, ?_⟩, fun h => .plain ((plain_iff c).1 hplain) h.2⟩
    cases h with
    | plain _ hrest => exact hrest
    | escape => exact absurd rfl hne
  · rw [encodeByte_of_not_plain hplain]
    have hlow : (hexValue (hexDigit (c.toNat % 16))).isSome := by
      rw [hexValue_low]
      rfl
    have hhigh : (hexValue (if c < 0x10 then 0x20 else hexDigit (c.toNat / 16))).isSome ↔
        0x10 ≤ c := by
      rw [hexValue_high]
      by_cases hlt : c < 0x10
      · simp [hlt]
      · simp [hlt, UInt8.not_lt.1 hlt]
    refine ⟨fun h => ?_, fun h => .escape (hhigh.2 h.1) hlow h.2⟩
    cases h with
    | plain hplain' _ => simp [percent, isAlnum, isDigit] at hplain'
    | escape hh _ hrest => exact ⟨hhigh.1 hh, hrest⟩

theorem percentDecode_append {c : UInt8} (h : 0x10 ≤ c) (rest : Bytes) :
    percentDecode (encodeByte c ++ rest) = (percentDecode rest).map (c :: ·) := by
  by_cases hplain : (isAlnum c || notEncodedChars.contains c) = true
  · rw [encodeByte_of_plain hplain, List.singleton_append, percentDecode.eq_def]
    simp [(ge_of_plain hplain).2]
  · have hhigh := hexValue_high c
    have hlt : ¬c < 0x10 := UInt8.not_lt.2 h
    rw [if_neg hlt, if_neg hlt] at hhigh
    rw [encodeByte_of_not_plain hplain, if_neg hlt]
    simp only [List.cons_append, List.nil_append]
    rw [percentDecode.eq_def]
    simp only [if_true, hhigh, hexValue_low, Option.bind_eq_bind, Option.bind_some, ofNat_digits]
    cases percentDecode rest <;> rfl

theorem encodeByte_append_inj {c d : UInt8} {rest rest' : Bytes}
    (h : encodeByte c ++ rest = encodeByte d ++ rest') : c = d ∧ rest = rest' := by
  by_cases hc : (isAlnum c || notEncodedChars.contains c) = true <;>
    by_cases hd : (isAlnum d || notEncodedChars.contains d) = true
  · rw [encodeByte_of_plain hc, encodeByte_of_plain hd] at h
    simpa using h
  · rw [encodeByte_of_plain hc, encodeByte_of_not_plain hd] at h
    simp only [List.cons_append, List.cons.injEq] at h
    exact absurd h.1 (ge_of_plain hc).2
  · rw [encodeByte_of_not_plain hc, encodeByte_of_plain hd] at h
    simp only [List.cons_append, List.cons.injEq] at h
    exact absurd h.1.symm (ge_of_plain hd).2
  · rw [encodeByte_of_not_plain hc, encodeByte_of_not_plain hd] at h
    simp only [List.cons_append, List.nil_append, List.cons.injEq, true_and] at h
    obtain ⟨hhigh, hlow, hrest⟩ := h
    have hlow := congrArg hexValue hlow
    have hhigh := congrArg hexValue hhigh
    rw [hexValue_low, hexValue_low, Option.some.injEq] at hlow
    rw [hexValue_high, hexValue_high] at hhigh
    refine ⟨UInt8.toNat_inj.1 ?_, hrest⟩
    simp only [UInt8.lt_iff_toNat_lt] at hhigh
    split_ifs at hhigh with h1 h2 h2
    · simp only [UInt8.toNat_ofNat] at h1 h2
      omega
    · simp only [Option.some.injEq] at hhigh
      omega

theorem percentEncoded_iff (string : Bytes) :
    PercentEncoded (urlEncode string notEncodedChars) ↔ ∀ c ∈ string, 0x10 ≤ c := by
  rw [urlEncode_eq]
  induction string with
  | nil => simp [PercentEncoded.nil]
  | cons c string ih => rw [List.flatMap_cons, percentEncoded_append, ih, List.forall_mem_cons]

theorem percentDecode_urlEncode {string : Bytes} (h : ∀ c ∈ string, 0x10 ≤ c) :
    percentDecode (urlEncode string notEncodedChars) = some string := by
  rw [urlEncode_eq]
  induction string with
  | nil => rfl
  | cons c string ih =>
    rw [List.forall_mem_cons] at h
    rw [List.flatMap_cons, percentDecode_append h.1, ih h.2]
    rfl

theorem urlEncode_inj {string string' : Bytes}
    (h : urlEncode string notEncodedChars = urlEncode string' notEncodedChars) :
    string = string' := by
  rw [urlEncode_eq, urlEncode_eq] at h
  induction string generalizing string' with
  | nil =>
    cases string' with
    | nil => rfl
    | cons d string' => simp [encodeByte_ne_nil] at h
  | cons c string ih =>
    cases string' with
    | nil => simp [encodeByte_ne_nil] at h
    | cons d string' =>
      rw [List.flatMap_cons, List.flatMap_cons] at h
      obtain ⟨rfl, hrest⟩ := encodeByte_append_inj h
      rw [ih hrest]

/-- Bytes below 16 alone lose their escape: the field of width two is filled with a blank.
Distinct inputs keep distinct encodings all the same. -/
theorem urlEncode_reversible_iff (string : Bytes) :
    (Reversible string ↔ ∀ c ∈ string, 0x10 ≤ c) ∧
      ∀ string', urlEncode string notEncodedChars = urlEncode string' notEncodedChars →
        string = string' := by
  refine ⟨⟨fun h => (percentEncoded_iff string).1 h.encoded, fun h => ?_⟩,
    fun string' => urlEncode_inj⟩
  exact ⟨(percentEncoded_iff string).2 h, percentDecode_urlEncode h⟩

theorem urlEncode_line_feed : urlEncode [0x0a] notEncodedChars = [percent, 0x20, 0x41] ∧
    ¬Reversible [0x0a] := by
  have hblank : urlEncode [0x0a] notEncodedChars = [percent, 0x20, 0x41] := by decide
  refine ⟨hblank, fun h => ?_⟩
  have hencoded := h.encoded
  rw [hblank] at hencoded
  cases hencoded with
  | plain hplain _ => simp [percent, isAlnum, isDigit] at hplain
  | escape hhigh _ _ => simp [hexValue, isDigit] at hhigh

end WebSocketConnection

end AwsIotSdk
