import Mathlib.Data.List.Basic
import Mathlib.Data.UInt

/-! Bytes as text, three of them in four characters. A last group of one or two bytes is filled
up with a sign that is no character. -/

namespace Base64

/-- The character of six bits. -/
def digit (n : Nat) : UInt8 :=
  UInt8.ofNat (if n < 26 then 0x41 + n
    else if n < 52 then 0x61 + (n - 26)
    else if n < 62 then 0x30 + (n - 52)
    else if n = 62 then 0x2b
    else 0x2f)

def value (c : UInt8) : Option Nat :=
  if 0x41 ≤ c ∧ c ≤ 0x5a then some (c.toNat - 0x41)
  else if 0x61 ≤ c ∧ c ≤ 0x7a then some (c.toNat - 0x61 + 26)
  else if 0x30 ≤ c ∧ c ≤ 0x39 then some (c.toNat - 0x30 + 52)
  else if c = 0x2b then some 62
  else if c = 0x2f then some 63
  else none

def pad : UInt8 := 0x3d

def encode : List UInt8 → List UInt8
  | [] => []
  | [a] => [digit (a.toNat / 4), digit (a.toNat % 4 * 16), pad, pad]
  | [a, b] =>
    [digit (a.toNat / 4), digit (a.toNat % 4 * 16 + b.toNat / 16), digit (b.toNat % 16 * 4), pad]
  | a :: b :: c :: rest =>
    digit (a.toNat / 4) :: digit (a.toNat % 4 * 16 + b.toNat / 16) ::
      digit (b.toNat % 16 * 4 + c.toNat / 64) :: digit (c.toNat % 64) :: encode rest

def firstByte (v₀ v₁ : Nat) : UInt8 := UInt8.ofNat (v₀ * 4 + v₁ / 16)

def secondByte (v₁ v₂ : Nat) : UInt8 := UInt8.ofNat (v₁ % 16 * 16 + v₂ / 4)

def thirdByte (v₂ v₃ : Nat) : UInt8 := UInt8.ofNat (v₂ % 4 * 64 + v₃)

/-- The bytes of one group. The bits that a padded group leaves over are not looked at. -/
def decodeGroup (c₀ c₁ c₂ c₃ : UInt8) : Option (List UInt8) := do
  let v₀ ← value c₀
  let v₁ ← value c₁
  if c₂ = pad then
    if c₃ = pad then some [firstByte v₀ v₁] else none
  else
    let v₂ ← value c₂
    if c₃ = pad then some [firstByte v₀ v₁, secondByte v₁ v₂]
    else
      let v₃ ← value c₃
      some [firstByte v₀ v₁, secondByte v₁ v₂, thirdByte v₂ v₃]

/-- Only the last group may be padded. -/
def decode : List UInt8 → Option (List UInt8)
  | [] => some []
  | c₀ :: c₁ :: c₂ :: c₃ :: rest => do
    let group ← decodeGroup c₀ c₁ c₂ c₃
    if c₃ = pad ∧ rest ≠ [] then none
    else
      let decoded ← decode rest
      some (group ++ decoded)
  | _ => none

theorem value_digit {n : Nat} (h : n < 64) : value (digit n) = some n := by
  have hall : ∀ n : Fin 64, value (digit n) = some n.val := by decide
  exact hall ⟨n, h⟩

theorem digit_ne_pad {n : Nat} (h : n < 64) : digit n ≠ pad := by
  intro heq
  have hvalue := value_digit h
  rw [heq] at hvalue
  cases hvalue

theorem firstByte_eq (a : UInt8) {n : Nat} (h : n < 16) :
    firstByte (a.toNat / 4) (a.toNat % 4 * 16 + n) = a := by
  have hsum : a.toNat / 4 * 4 + (a.toNat % 4 * 16 + n) / 16 = a.toNat := by omega
  rw [firstByte, hsum, UInt8.ofNat_toNat]

theorem secondByte_eq (m : Nat) (b : UInt8) {n : Nat} (h : n < 4) :
    secondByte (m * 16 + b.toNat / 16) (b.toNat % 16 * 4 + n) = b := by
  have hb : b.toNat < 256 := b.toNat_lt
  have hsum : (m * 16 + b.toNat / 16) % 16 * 16 + (b.toNat % 16 * 4 + n) / 4 = b.toNat := by omega
  rw [secondByte, hsum, UInt8.ofNat_toNat]

theorem thirdByte_eq (m : Nat) (c : UInt8) : thirdByte (m * 4 + c.toNat / 64) (c.toNat % 64) = c := by
  have hc : c.toNat < 256 := c.toNat_lt
  have hsum : (m * 4 + c.toNat / 64) % 4 * 64 + c.toNat % 64 = c.toNat := by omega
  rw [thirdByte, hsum, UInt8.ofNat_toNat]

theorem decodeGroup_one (a : UInt8) :
    decodeGroup (digit (a.toNat / 4)) (digit (a.toNat % 4 * 16)) pad pad = some [a] := by
  have ha : a.toNat < 256 := a.toNat_lt
  have hfirst : firstByte (a.toNat / 4) (a.toNat % 4 * 16) = a := firstByte_eq a (n := 0) (by decide)
  simp [decodeGroup, value_digit (show a.toNat / 4 < 64 by omega),
    value_digit (show a.toNat % 4 * 16 < 64 by omega), hfirst]

theorem decodeGroup_two (a b : UInt8) :
    decodeGroup (digit (a.toNat / 4)) (digit (a.toNat % 4 * 16 + b.toNat / 16))
      (digit (b.toNat % 16 * 4)) pad = some [a, b] := by
  have ha : a.toNat < 256 := a.toNat_lt
  have hb : b.toNat < 256 := b.toNat_lt
  have hthird : b.toNat % 16 * 4 < 64 := by omega
  have hsecond : secondByte (a.toNat % 4 * 16 + b.toNat / 16) (b.toNat % 16 * 4) = b :=
    secondByte_eq _ b (n := 0) (by decide)
  simp [decodeGroup, value_digit (show a.toNat / 4 < 64 by omega),
    value_digit (show a.toNat % 4 * 16 + b.toNat / 16 < 64 by omega), value_digit hthird,
    digit_ne_pad hthird, firstByte_eq a (show b.toNat / 16 < 16 by omega), hsecond]

theorem decodeGroup_three (a b c : UInt8) :
    decodeGroup (digit (a.toNat / 4)) (digit (a.toNat % 4 * 16 + b.toNat / 16))
      (digit (b.toNat % 16 * 4 + c.toNat / 64)) (digit (c.toNat % 64)) = some [a, b, c] := by
  have ha : a.toNat < 256 := a.toNat_lt
  have hb : b.toNat < 256 := b.toNat_lt
  have hc : c.toNat < 256 := c.toNat_lt
  have hthird : b.toNat % 16 * 4 + c.toNat / 64 < 64 := by omega
  have hfourth : c.toNat % 64 < 64 := by omega
  simp [decodeGroup, value_digit (show a.toNat / 4 < 64 by omega),
    value_digit (show a.toNat % 4 * 16 + b.toNat / 16 < 64 by omega), value_digit hthird,
    value_digit hfourth, digit_ne_pad hthird, digit_ne_pad hfourth,
    firstByte_eq a (show b.toNat / 16 < 16 by omega), secondByte_eq _ b (show c.toNat / 64 < 4 by omega),
    thirdByte_eq]

theorem decode_encode (bytes : List UInt8) : decode (encode bytes) = some bytes := by
  induction bytes using encode.induct with
  | case1 => rfl
  | case2 a => simp [encode, decode, decodeGroup_one]
  | case3 a b => simp [encode, decode, decodeGroup_two]
  | case4 a b c rest ih =>
    have hfourth : digit (c.toNat % 64) ≠ pad := digit_ne_pad (Nat.mod_lt _ (by decide))
    simp [encode, decode, decodeGroup_three, hfourth, ih]

theorem length_encode (bytes : List UInt8) : (encode bytes).length = (bytes.length + 2) / 3 * 4 := by
  induction bytes using encode.induct with
  | case1 | case2 a | case3 a b => simp [encode]
  | case4 a b c rest ih =>
    simp only [encode, List.length_cons, ih]
    omega

theorem forall_mem_encode {P : UInt8 → Prop} (hdigit : ∀ n < 64, P (digit n)) (hpad : P pad)
    (bytes : List UInt8) : ∀ c ∈ encode bytes, P c := by
  induction bytes using encode.induct with
  | case1 => simp [encode]
  | case2 a =>
    have ha : a.toNat < 256 := a.toNat_lt
    simp only [encode, List.forall_mem_cons]
    exact ⟨hdigit _ (by omega), hdigit _ (by omega), hpad, hpad, by simp⟩
  | case3 a b =>
    have ha : a.toNat < 256 := a.toNat_lt
    have hb : b.toNat < 256 := b.toNat_lt
    simp only [encode, List.forall_mem_cons]
    exact ⟨hdigit _ (by omega), hdigit _ (by omega), hdigit _ (by omega), hpad, by simp⟩
  | case4 a b c rest ih =>
    have ha : a.toNat < 256 := a.toNat_lt
    have hb : b.toNat < 256 := b.toNat_lt
    have hc : c.toNat < 256 := c.toNat_lt
    simp only [encode, List.forall_mem_cons]
    exact ⟨hdigit _ (by omega), hdigit _ (by omega), hdigit _ (by omega), hdigit _ (by omega), ih⟩

/-- A function that writes bytes as text: how long the text is, what is in it, and that the bytes
can be read from it. -/
structure Encoder where
  encode : List UInt8 → List UInt8
  length_encode (bytes : List UInt8) : (encode bytes).length = (bytes.length + 2) / 3 * 4
  alphabet (bytes : List UInt8) : ∀ c ∈ encode bytes, c = pad ∨ ∃ n < 64, c = digit n
  decode_encode (bytes : List UInt8) : decode (encode bytes) = some bytes

/-- The one that fills a padded group up with zeros. -/
def standard : Encoder where
  encode := encode
  length_encode := length_encode
  alphabet := forall_mem_encode (fun n hn => .inr ⟨n, hn, rfl⟩) (.inl rfl)
  decode_encode := decode_encode

theorem Encoder.forall_mem (e : Encoder) {P : UInt8 → Prop} (hdigit : ∀ n < 64, P (digit n))
    (hpad : P pad) (bytes : List UInt8) : ∀ c ∈ e.encode bytes, P c := by
  intro c hc
  rcases e.alphabet bytes c hc with rfl | ⟨n, hn, rfl⟩
  · exact hpad
  · exact hdigit n hn

end Base64
