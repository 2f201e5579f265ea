import AwsIotSdk.Packet

/-! Well-formed UTF-8 by the table of the standard, and the decoding functions as
checks of its rows. -/

namespace AwsIotSdk

def InRange (low high : Nat) (b : UInt8) : Prop := low ≤ b.toNat ∧ b.toNat ≤ high

/-- The byte sequences of one code point: no longer form than needed, no surrogate
and nothing above U+10FFFF. -/
inductive Utf8Sequence : Bytes → Prop
  | one {a : UInt8} : InRange 0x00 0x7f a → Utf8Sequence [a]
  | two {a b : UInt8} : InRange 0xc2 0xdf a → InRange 0x80 0xbf b → Utf8Sequence [a, b]
  | threeE0 {a b c : UInt8} : InRange 0xe0 0xe0 a → InRange 0xa0 0xbf b → InRange 0x80 0xbf c →
      Utf8Sequence [a, b, c]
  | threeE1 {a b c : UInt8} : InRange 0xe1 0xec a → InRange 0x80 0xbf b → InRange 0x80 0xbf c →
      Utf8Sequence [a, b, c]
  | threeED {a b c : UInt8} : InRange 0xed 0xed a → InRange 0x80 0x9f b → InRange 0x80 0xbf c →
      Utf8Sequence [a, b, c]
  | threeEE {a b c : UInt8} : InRange 0xee 0xef a → InRange 0x80 0xbf b → InRange 0x80 0xbf c →
      Utf8Sequence [a, b, c]
  | fourF0 {a b c d : UInt8} : InRange 0xf0 0xf0 a → InRange 0x90 0xbf b → InRange 0x80 0xbf c →
      InRange 0x80 0xbf d → Utf8Sequence [a, b, c, d]
  | fourF1 {a b c d : UInt8} : InRange 0xf1 0xf3 a → InRange 0x80 0xbf b → InRange 0x80 0xbf c →
      InRange 0x80 0xbf d → Utf8Sequence [a, b, c, d]
  | fourF4 {a b c d : UInt8} : InRange 0xf4 0xf4 a → InRange 0x80 0x8f b → InRange 0x80 0xbf c →
      InRange 0x80 0xbf d → Utf8Sequence [a, b, c, d]

inductive WellFormedUtf8 : Bytes → Prop
  | nil : WellFormedUtf8 []
  | cons {w rest : Bytes} : Utf8Sequence w → WellFormedUtf8 rest → WellFormedUtf8 (w ++ rest)

/-! ### The bits of the code -/

theorem isTrail_iff (b : UInt8) : isTrail b = true ↔ InRange 0x80 0xbf b := by
  apply byte_cases (P := fun b => isTrail b = true ↔ 0x80 ≤ b.toNat ∧ b.toNat ≤ 0xbf)
  decide +kernel

theorem sequenceLength_eq (lead : UInt8) :
    sequenceLength lead = if lead.toNat < 0x80 then 1 else if lead.toNat < 0xc0 then 0
      else if lead.toNat < 0xe0 then 2 else if lead.toNat < 0xf0 then 3
      else if lead.toNat < 0xf8 then 4 else 0 := by
  apply byte_cases (P := fun lead => sequenceLength lead = if lead.toNat < 0x80 then 1
    else if lead.toNat < 0xc0 then 0 else if lead.toNat < 0xe0 then 2
    else if lead.toNat < 0xf0 then 3 else if lead.toNat < 0xf8 then 4 else 0)
  decide +kernel

def codePoint2 (a b : UInt8) : Nat := ((a.toNat <<< 6) &&& 0x7ff) + (b.toNat &&& 0x3f)

def codePoint3 (a b c : UInt8) : Nat :=
  ((a.toNat <<< 12) &&& 0xffff) + ((b.toNat <<< 6) &&& 0xfff) + (c.toNat &&& 0x3f)

def codePoint4 (a b c d : UInt8) : Nat :=
  ((a.toNat <<< 18) &&& 0x1fffff) + ((b.toNat <<< 12) &&& 0x3ffff) +
    ((c.toNat <<< 6) &&& 0xfff) + (d.toNat &&& 0x3f)

theorem shift_and (n i k : Nat) : (n <<< i) &&& (2 ^ k - 1) = n * 2 ^ i % 2 ^ k := by
  rw [Nat.shiftLeft_eq, Nat.and_two_pow_sub_one_eq_mod]

theorem codePoint2_eq (a b : UInt8) :
    codePoint2 a b = a.toNat * 2 ^ 6 % 2 ^ 11 + b.toNat % 2 ^ 6 :=
  congrArg₂ (· + ·) (shift_and _ 6 11) (Nat.and_two_pow_sub_one_eq_mod _ 6)

theorem codePoint3_eq (a b c : UInt8) :
    codePoint3 a b c =
      a.toNat * 2 ^ 12 % 2 ^ 16 + b.toNat * 2 ^ 6 % 2 ^ 12 + c.toNat % 2 ^ 6 :=
  congrArg₂ (· + ·) (congrArg₂ (· + ·) (shift_and _ 12 16) (shift_and _ 6 12))
    (Nat.and_two_pow_sub_one_eq_mod _ 6)

theorem codePoint4_eq (a b c d : UInt8) :
    codePoint4 a b c d = a.toNat * 2 ^ 18 % 2 ^ 21 + b.toNat * 2 ^ 12 % 2 ^ 18 +
      c.toNat * 2 ^ 6 % 2 ^ 12 + d.toNat % 2 ^ 6 :=
  congrArg₂ (· + ·) (congrArg₂ (· + ·) (congrArg₂ (· + ·) (shift_and _ 18 21) (shift_and _ 12 18))
    (shift_and _ 6 12)) (Nat.and_two_pow_sub_one_eq_mod _ 6)

/-- A decoded value that the two checks let through. -/
def Accepted (cp length : Nat) : Prop :=
  isCodePointValid cp = true ∧ isOverlongSequence cp length = false

theorem accepted_iff (cp length : Nat) :
    Accepted cp length ↔ cp ≤ 0x10ffff ∧ ¬ (0xd800 ≤ cp ∧ cp ≤ 0xdfff) ∧
      (cp < 0x80 → length = 1) ∧ (0x80 ≤ cp → cp < 0x800 → length = 2) ∧
      (0x800 ≤ cp → cp < 0x10000 → length = 3) := by
  simp only [Accepted, isCodePointValid, isSurrogate, isOverlongSequence, Bool.and_eq_true,
    decide_eq_true_eq, Bool.not_eq_true', Bool.and_eq_false_iff, decide_eq_false_iff_not]
  split_ifs <;> simp <;> omega

theorem sequenceLength_eq_iff (a : UInt8) :
    (sequenceLength a = 1 ↔ a.toNat < 0x80) ∧
      (sequenceLength a = 2 ↔ 0xc0 ≤ a.toNat ∧ a.toNat < 0xe0) ∧
      (sequenceLength a = 3 ↔ 0xe0 ≤ a.toNat ∧ a.toNat < 0xf0) ∧
      (sequenceLength a = 4 ↔ 0xf0 ≤ a.toNat ∧ a.toNat < 0xf8) := by
  rw [sequenceLength_eq]
  refine ⟨?_, ?_, ?_, ?_⟩
  all_goals split_ifs <;> simp <;> omega

theorem utf8Sequence_one_iff {a : UInt8} (ha : sequenceLength a = 1) :
    Utf8Sequence [a] ↔ Accepted a.toNat 1 := by
  have hlead := (sequenceLength_eq_iff a).1.mp ha
  rw [accepted_iff]
  exact ⟨fun _ => by omega, fun _ => .one ⟨by omega, by omega⟩⟩

theorem utf8Sequence_two_iff {a b : UInt8} (ha : sequenceLength a = 2) (hb : isTrail b = true) :
    Utf8Sequence [a, b] ↔ Accepted (codePoint2 a b) 2 := by
  have hlead := (sequenceLength_eq_iff a).2.1.mp ha
  rw [isTrail_iff] at hb
  have hvalue : codePoint2 a b = (a.toNat - 0xc0) * 64 + (b.toNat - 0x80) := by
    obtain ⟨hlow, hhigh⟩ := hb
    rw [codePoint2_eq]
    omega
  rw [accepted_iff, hvalue]
  constructor
  · intro h
    obtain ⟨ha', hb'⟩ : InRange 0xc2 0xdf a ∧ InRange 0x80 0xbf b := by
      cases h with
      | two ha hb => exact ⟨ha, hb⟩
    unfold InRange at ha' hb'
    omega
  · intro h
    have hb' := hb
    unfold InRange at hb'
    exact .two ⟨by omega, by omega⟩ hb

theorem utf8Sequence_three_iff {a b c : UInt8} (ha : sequenceLength a = 3)
    (hb : isTrail b = true) (hc : isTrail c = true) :
    Utf8Sequence [a, b, c] ↔ Accepted (codePoint3 a b c) 3 := by
  have hlead := (sequenceLength_eq_iff a).2.2.1.mp ha
  rw [isTrail_iff] at hb hc
  have hb' := hb
  have hc' := hc
  unfold InRange at hb' hc'
  have hvalue : codePoint3 a b c =
      (a.toNat - 0xe0) * 4096 + (b.toNat - 0x80) * 64 + (c.toNat - 0x80) := by
    rw [codePoint3_eq]
    omega
  rw [accepted_iff, hvalue]
  constructor
  · intro h
    cases h with
    | threeE0 ha hb hc | threeE1 ha hb hc | threeED ha hb hc | threeEE ha hb hc =>
      unfold InRange at ha hb hc
      omega
  · intro h
    by_cases he0 : a.toNat = 0xe0
    · exact .threeE0 ⟨by omega, by omega⟩ ⟨by omega, by omega⟩ hc
    · by_cases hed : a.toNat = 0xed
      · exact .threeED ⟨by omega, by omega⟩ ⟨by omega, by omega⟩ hc
      · by_cases hlow : a.toNat < 0xed
        · exact .threeE1 ⟨by omega, by omega⟩ hb hc
        · exact .threeEE ⟨by omega, by omega⟩ hb hc

theorem utf8Sequence_four_iff {a b c d : UInt8} (ha : sequenceLength a = 4)
    (hb : isTrail b = true) (hc : isTrail c = true) (hd : isTrail d = true) :
    Utf8Sequence [a, b, c, d] ↔ Accepted (codePoint4 a b c d) 4 := by
  have hlead := (sequenceLength_eq_iff a).2.2.2.mp ha
  rw [isTrail_iff] at hb hc hd
  have hb' := hb
  have hc' := hc
  have hd' := hd
  unfold InRange at hb' hc' hd'
  have hvalue : codePoint4 a b c d = (a.toNat - 0xf0) * 262144 + (b.toNat - 0x80) * 4096 +
      (c.toNat - 0x80) * 64 + (d.toNat - 0x80) := by
    rw [codePoint4_eq]
    omega
  rw [accepted_iff, hvalue]
  constructor
  · intro h
    cases h with
    | fourF0 ha hb hc hd | fourF1 ha hb hc hd | fourF4 ha hb hc hd =>
      unfold InRange at ha hb hc hd
      omega
  · intro h
    by_cases hf0 : a.toNat = 0xf0
    · exact .fourF0 ⟨by omega, by omega⟩ ⟨by omega, by omega⟩ hc hd
    · by_cases hf4 : a.toNat = 0xf4
      · exact .fourF4 ⟨by omega, by omega⟩ ⟨by omega, by omega⟩ hc hd
      · exact .fourF1 ⟨by omega, by omega⟩ hb hc hd

/-- The lead octet tells how long a sequence is, and the others are trail octets. -/
theorem Utf8Sequence.shape {w : Bytes} (h : Utf8Sequence w) :
    ∃ a r, w = a :: r ∧ sequenceLength a = w.length ∧ ∀ b ∈ r, isTrail b = true := by
  have htrail {b : UInt8} {low high : Nat} (hb : InRange low high b) (hlow : 0x80 ≤ low)
      (hhigh : high ≤ 0xbf) : isTrail b = true :=
    (isTrail_iff b).mpr ⟨hlow.trans hb.1, hb.2.trans hhigh⟩
  cases h with
  | @one a ha =>
    obtain ⟨hlow, hhigh⟩ := ha
    exact ⟨a, [], rfl, (sequenceLength_eq_iff a).1.mpr (by omega), by simp⟩
  | @two a b ha hb =>
    obtain ⟨hlow, hhigh⟩ := ha
    refine ⟨a, [b], rfl, (sequenceLength_eq_iff a).2.1.mpr (by omega), ?_⟩
    simpa using htrail hb (by omega) (by omega)
  | @threeE0 a b c ha hb hc | @threeE1 a b c ha hb hc | @threeED a b c ha hb hc
  | @threeEE a b c ha hb hc =>
    obtain ⟨hlow, hhigh⟩ := ha
    refine ⟨a, [b, c], rfl, (sequenceLength_eq_iff a).2.2.1.mpr (by omega), ?_⟩
    simpa using ⟨htrail hb (by omega) (by omega), htrail hc (by omega) (by omega)⟩
  | @fourF0 a b c d ha hb hc hd | @fourF1 a b c d ha hb hc hd | @fourF4 a b c d ha hb hc hd =>
    obtain ⟨hlow, hhigh⟩ := ha
    refine ⟨a, [b, c, d], rfl, (sequenceLength_eq_iff a).2.2.2.mpr (by omega), ?_⟩
    simpa using ⟨htrail hb (by omega) (by omega), htrail hc (by omega) (by omega),
      htrail hd (by omega) (by omega)⟩

/-! ### Decoding one code point -/

theorem increaseSafely_trail {a b : UInt8} (hb : isTrail b = true) (t : Bytes) :
    increaseSafely (a :: b :: t) = .ok (b, b :: t) := if_pos hb

theorem increaseSafely_other {a b : UInt8} (hb : ¬ isTrail b = true) (t : Bytes) :
    increaseSafely (a :: b :: t) = .error .incompleteSequence := if_neg hb

theorem increaseSafely_eq_ok {a b : UInt8} {r it : Bytes} :
    increaseSafely (a :: r) = .ok (b, it) ↔ ∃ t, r = b :: t ∧ isTrail b = true ∧ b :: t = it := by
  cases r with
  | nil =>
    refine ⟨fun h => ?_, fun h => ?_⟩
    · cases h
    · obtain ⟨t, ht, -⟩ := h
      cases ht
  | cons c t =>
    by_cases hc : isTrail c = true
    · rw [increaseSafely_trail hc]
      constructor
      · intro h
        cases h
        exact ⟨t, rfl, hc, rfl⟩
      · intro h
        obtain ⟨t', ht, -, rfl⟩ := h
        cases ht
        rfl
    · rw [increaseSafely_other hc]
      constructor
      · intro h
        cases h
      · intro h
        obtain ⟨t', ht, hb, -⟩ := h
        cases ht
        exact absurd hb hc

theorem getSequence2_eq_ok {a : UInt8} {r it : Bytes} {cp : Nat} :
    getSequence2 (a :: r) = .ok (cp, it) ↔
      ∃ b t, r = b :: t ∧ isTrail b = true ∧ codePoint2 a b = cp ∧ b :: t = it := by
  rw [getSequence2, bind_eq_ok]
  constructor
  · intro h
    obtain ⟨⟨b, u⟩, hb, hrest⟩ := h
    obtain ⟨t, hr, htrail, rfl⟩ := increaseSafely_eq_ok.mp hb
    cases hrest
    exact ⟨b, t, hr, htrail, rfl, rfl⟩
  · intro h
    obtain ⟨b, t, rfl, htrail, rfl, rfl⟩ := h
    exact ⟨(b, b :: t), increaseSafely_trail htrail _, rfl⟩

theorem getSequence3_eq_ok {a : UInt8} {r it : Bytes} {cp : Nat} :
    getSequence3 (a :: r) = .ok (cp, it) ↔
      ∃ b c t, r = b :: c :: t ∧ isTrail b = true ∧ isTrail c = true ∧ codePoint3 a b c = cp ∧
        c :: t = it := by
  rw [getSequence3, bind_eq_ok]
  constructor
  · intro h
    obtain ⟨⟨b, u⟩, hb, h⟩ := h
    obtain ⟨_, rfl, hbt, rfl⟩ := increaseSafely_eq_ok.mp hb
    obtain ⟨⟨c, v⟩, hc, h⟩ := bind_eq_ok.mp h
    obtain ⟨t, rfl, hct, rfl⟩ := increaseSafely_eq_ok.mp hc
    cases h
    exact ⟨b, c, t, rfl, hbt, hct, rfl, rfl⟩
  · intro h
    obtain ⟨b, c, t, rfl, hbt, hct, rfl, rfl⟩ := h
    refine ⟨(b, b :: c :: t), increaseSafely_trail hbt _, bind_eq_ok.mpr ?_⟩
    exact ⟨(c, c :: t), increaseSafely_trail hct _, rfl⟩

theorem getSequence4_eq_ok {a : UInt8} {r it : Bytes} {cp : Nat} :
    getSequence4 (a :: r) = .ok (cp, it) ↔
      ∃ b c d t, r = b :: c :: d :: t ∧ isTrail b = true ∧ isTrail c = true ∧ isTrail d = true ∧
        codePoint4 a b c d = cp ∧ d :: t = it := by
  rw [getSequence4, bind_eq_ok]
  constructor
  · intro h
    obtain ⟨⟨b, u⟩, hb, h⟩ := h
    obtain ⟨_, rfl, hbt, rfl⟩ := increaseSafely_eq_ok.mp hb
    obtain ⟨⟨c, v⟩, hc, h⟩ := bind_eq_ok.mp h
    obtain ⟨_, rfl, hct, rfl⟩ := increaseSafely_eq_ok.mp hc
    obtain ⟨⟨d, w⟩, hd, h⟩ := bind_eq_ok.mp h
    obtain ⟨t, rfl, hdt, rfl⟩ := increaseSafely_eq_ok.mp hd
    cases h
    exact ⟨b, c, d, t, rfl, hbt, hct, hdt, rfl, rfl⟩
  · intro h
    obtain ⟨b, c, d, t, rfl, hbt, hct, hdt, rfl, rfl⟩ := h
    refine ⟨(b, b :: c :: d :: t), increaseSafely_trail hbt _, bind_eq_ok.mpr ?_⟩
    refine ⟨(c, c :: d :: t), increaseSafely_trail hct _, bind_eq_ok.mpr ?_⟩
    exact ⟨(d, d :: t), increaseSafely_trail hdt _, rfl⟩

/-- The choice of `validateNext`. -/
def getSequence (length : Nat) (it : Bytes) : Except UtfError (Nat × Bytes) :=
  match length with
  | 0 => .error .invalidLead
  | 1 => getSequence1 it
  | 2 => getSequence2 it
  | 3 => getSequence3 it
  | _ => getSequence4 it

theorem validateNext_cons (a : UInt8) (r : Bytes) :
    validateNext (a :: r) = (getSequence (sequenceLength a) (a :: r)).bind fun p =>
      if isCodePointValid p.1 then
        if !isOverlongSequence p.1 (sequenceLength a) then .ok p.2.tail
        else .error .overlongSequence
      else .error .invalidCodePoint := by
  rw [validateNext]
  generalize sequenceLength a = length
  rcases length with _ | _ | _ | _ | length <;> rfl

theorem validateNext_cons_eq_ok {a : UInt8} {r rest : Bytes} :
    validateNext (a :: r) = .ok rest ↔
      ∃ cp it, getSequence (sequenceLength a) (a :: r) = .ok (cp, it) ∧
        Accepted cp (sequenceLength a) ∧ it.tail = rest := by
  rw [validateNext_cons]
  cases getSequence (sequenceLength a) (a :: r) with
  | error e => simp [Except.bind]
  | ok p =>
    obtain ⟨cp, it⟩ := p
    rw [Except.bind]
    by_cases hvalid : isCodePointValid cp = true
    · by_cases hover : isOverlongSequence cp (sequenceLength a) = true
      · simp [hvalid, hover, Accepted]
      · simp [hvalid, hover, Accepted]
    · simp [hvalid, Accepted]

/-- One step of the scan passes over one row of the table, and fails when none is
there. -/
theorem validateNext_eq_ok {it rest : Bytes} :
    validateNext it = .ok rest ↔ ∃ w, Utf8Sequence w ∧ it = w ++ rest := by
  cases it with
  | nil =>
    refine ⟨nofun, fun h => ?_⟩
    obtain ⟨w, hw, hnil⟩ := h
    obtain ⟨a, r, rfl, -⟩ := hw.shape
    cases hnil
  | cons a r =>
    rw [validateNext_cons_eq_ok]
    constructor
    · intro h
      obtain ⟨cp, it, hseq, haccepted, rfl⟩ := h
      generalize hlength : sequenceLength a = length at hseq haccepted
      rcases length with _ | _ | _ | _ | length
      · cases hseq
      · cases hseq
        exact ⟨[a], (utf8Sequence_one_iff hlength).mpr haccepted, rfl⟩
      · obtain ⟨b, t, rfl, hb, rfl, rfl⟩ := getSequence2_eq_ok.mp hseq
        exact ⟨[a, b], (utf8Sequence_two_iff hlength hb).mpr haccepted, rfl⟩
      · obtain ⟨b, c, t, rfl, hb, hc, rfl, rfl⟩ := getSequence3_eq_ok.mp hseq
        exact ⟨[a, b, c], (utf8Sequence_three_iff hlength hb hc).mpr haccepted, rfl⟩
      · obtain ⟨b, c, d, t, rfl, hb, hc, hd, rfl, rfl⟩ := getSequence4_eq_ok.mp hseq
        obtain rfl : length = 0 := by
          rw [sequenceLength_eq] at hlength
          split_ifs at hlength <;> omega
        exact ⟨[a, b, c, d], (utf8Sequence_four_iff hlength hb hc hd).mpr haccepted, rfl⟩
    · intro h
      obtain ⟨w, hw, heq⟩ := h
      obtain ⟨a', r', rfl, hlength, htrail⟩ := hw.shape
      obtain ⟨rfl, rfl⟩ := List.cons.inj heq
      rcases r' with _ | ⟨b, _ | ⟨c, _ | ⟨d, _ | ⟨e, r'⟩⟩⟩⟩
      · refine ⟨a.toNat, a :: rest, ?_, ?_, rfl⟩
        · rw [hlength]
          rfl
        · rw [hlength]
          exact (utf8Sequence_one_iff hlength).mp hw
      · have hb := htrail b (by simp)
        refine ⟨codePoint2 a b, b :: rest, ?_, ?_, rfl⟩
        · rw [hlength]
          exact getSequence2_eq_ok.mpr ⟨b, rest, rfl, hb, rfl, rfl⟩
        · rw [hlength]
          exact (utf8Sequence_two_iff hlength hb).mp hw
      · have hb := htrail b (by simp)
        have hc := htrail c (by simp)
        refine ⟨codePoint3 a b c, c :: rest, ?_, ?_, rfl⟩
        · rw [hlength]
          exact getSequence3_eq_ok.mpr ⟨b, c, rest, rfl, hb, hc, rfl, rfl⟩
        · rw [hlength]
          exact (utf8Sequence_three_iff hlength hb hc).mp hw
      · have hb := htrail b (by simp)
        have hc := htrail c (by simp)
        have hd := htrail d (by simp)
        refine ⟨codePoint4 a b c d, d :: rest, ?_, ?_, rfl⟩
        · rw [hlength]
          exact getSequence4_eq_ok.mpr ⟨b, c, d, rest, rfl, hb, hc, hd, rfl, rfl⟩
        · rw [hlength]
          exact (utf8Sequence_four_iff hlength hb hc hd).mp hw
      · rw [sequenceLength_eq, List.length_cons, List.length_cons, List.length_cons,
          List.length_cons, List.length_cons] at hlength
        split_ifs at hlength <;> omega

/-! ### The scan -/

/-- No sequence of the table stands at the front. -/
def IllFormedHere (it : Bytes) : Prop := ∀ w rest, Utf8Sequence w → it ≠ w ++ rest

theorem Utf8Sequence.length_pos {w : Bytes} (h : Utf8Sequence w) : 0 < w.length := by
  obtain ⟨a, r, rfl, -⟩ := h.shape
  simp

theorem findInvalidFrom_spec (fuel : Nat) (it : Bytes) (h : it.length ≤ fuel) :
    ∃ pre, it = pre ++ findInvalidFrom fuel it ∧ WellFormedUtf8 pre ∧
      (findInvalidFrom fuel it = [] ∨ IllFormedHere (findInvalidFrom fuel it)) := by
  induction fuel generalizing it with
  | zero =>
    obtain rfl : it = [] := List.length_eq_zero_iff.mp (by omega)
    exact ⟨[], rfl, .nil, .inl rfl⟩
  | succ fuel ih =>
    cases it with
    | nil => exact ⟨[], rfl, .nil, .inl rfl⟩
    | cons a r =>
      rw [findInvalidFrom]
      · cases hnext : validateNext (a :: r) with
        | error e =>
          refine ⟨[], rfl, .nil, .inr ?_⟩
          intro w rest hw heq
          rw [validateNext_eq_ok.mpr ⟨w, hw, heq⟩] at hnext
          cases hnext
        | ok rest =>
          obtain ⟨w, hw, heq⟩ := validateNext_eq_ok.mp hnext
          have hlen := congrArg List.length heq
          have hpos := hw.length_pos
          rw [List.length_append] at hlen
          obtain ⟨pre, hrest, hpre, hend⟩ := ih rest (by omega)
          refine ⟨w ++ pre, ?_, .cons hw hpre, hend⟩
          rw [heq, List.append_assoc, ← hrest]
      · simp

theorem findInvalidFrom_of_wellFormed {it : Bytes} (h : WellFormedUtf8 it) (fuel : Nat)
    (hfuel : it.length ≤ fuel) : findInvalidFrom fuel it = [] := by
  induction h generalizing fuel with
  | nil => cases fuel <;> rfl
  | @cons w rest hw hrest ih =>
    have hpos := hw.length_pos
    rw [List.length_append] at hfuel
    obtain ⟨fuel, rfl⟩ : ∃ n, fuel = n + 1 := ⟨fuel - 1, by omega⟩
    have hnext : validateNext (w ++ rest) = .ok rest := validateNext_eq_ok.mpr ⟨w, hw, rfl⟩
    obtain ⟨a, r, rfl, -⟩ := hw.shape
    rw [List.cons_append] at hnext ⊢
    rw [findInvalidFrom, hnext]
    · exact ih fuel (by omega)
    · simp

theorem isValidInput_iff (str : Bytes) : isValidInput str = true ↔ WellFormedUtf8 str := by
  rw [isValidInput, findInvalid, beq_iff_eq]
  constructor
  · intro h
    obtain ⟨pre, hstr, hpre, -⟩ := findInvalidFrom_spec str.length str (Nat.le_refl _)
    rw [h, List.append_nil] at hstr
    rwa [hstr]
  · intro h
    exact findInvalidFrom_of_wellFormed h str.length (Nat.le_refl _)

theorem Utf8String.isSome_create (str : Bytes) :
    (Utf8String.create str).isSome = isValidInput str := by
  rw [Utf8String.create]
  split_ifs with h
  · exact h.symm
  · exact (Bool.eq_false_iff.mpr h).symm

end AwsIotSdk
