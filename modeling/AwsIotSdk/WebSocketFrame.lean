import AwsIotSdk.BigEndian
import AwsIotSdk.Keystream

/-! The frames of the WebSocket protocol: what a frame is on the wire, and a reader that
takes the wire one byte at a time. What it reports does not depend on how the bytes come in. -/

namespace WebSocketFrame

/-! ### Frames -/

structure Key where
  bytes : List UInt8
  length_eq : bytes.length = 4

def Key.byte (k : Key) (i : Nat) : UInt8 := k.bytes.getD (i % 4) 0

/-- The flags are the first byte: the final bit, the reserved bits and the opcode. -/
structure Header where
  flags : UInt8
  length : Nat
  key : Option Key

def fin (flags : UInt8) : UInt8 := (flags >>> 7) &&& 1

def rsv (flags : UInt8) : UInt8 := (flags >>> 4) &&& 7

def opcode (flags : UInt8) : UInt8 := flags &&& 0xf

def isControl (flags : UInt8) : Bool := (opcode flags >>> 3) &&& 1 != 0

structure LengthValid (flags : UInt8) (length : Nat) : Prop where
  lt : length < 2 ^ 63
  control : isControl flags = true → length ≤ 125 ∧ fin flags ≠ 0

structure WireFrame where
  header : Header
  payload : List UInt8
  length_eq : payload.length = header.length
  valid : LengthValid header.flags header.length

def Header.keyByte (h : Header) (i : Nat) : UInt8 :=
  match h.key with
  | none => 0
  | some k => k.byte i

def Header.mask (h : Header) (start : Nat) (bytes : List UInt8) : List UInt8 :=
  Keystream.combine (· ^^^ ·) h.keyByte start bytes

def second (masked : Bool) (field : Nat) : UInt8 :=
  UInt8.ofNat ((if masked then 128 else 0) + field)

/-- The shortest of the three forms of a length. -/
def lengthBytes (masked : Bool) (length : Nat) : List UInt8 :=
  if length < 126 then [second masked length]
  else if length < 2 ^ 16 then second masked 126 :: BigEndian.encode 2 length
  else second masked 127 :: BigEndian.encode 8 length

def keyBytes : Option Key → List UInt8
  | none => []
  | some k => k.bytes

def Header.encode (h : Header) : List UInt8 :=
  h.flags :: lengthBytes h.key.isSome h.length ++ keyBytes h.key

def WireFrame.encode (f : WireFrame) : List UInt8 := f.header.encode ++ f.header.mask 0 f.payload

theorem Header.mask_mask (h : Header) (start : Nat) (bytes : List UInt8) :
    h.mask start (h.mask start bytes) = bytes := by
  apply Keystream.combine_combine
  intro a k
  rw [UInt8.xor_assoc, UInt8.xor_self, UInt8.xor_zero]

@[simp] theorem Header.length_mask (h : Header) (start : Nat) (bytes : List UInt8) :
    (h.mask start bytes).length = bytes.length := Keystream.length_combine _ _ _ _

theorem Header.mask_append (h : Header) (start : Nat) (as bs : List UInt8) :
    h.mask start (as ++ bs) = h.mask start as ++ h.mask (start + as.length) bs :=
  Keystream.combine_append _ _ _ _ _

theorem Header.mask_of_no_key {h : Header} (hkey : h.key = none) (start : Nat) (bytes : List UInt8) :
    h.mask start bytes = bytes := by
  have hzero : h.keyByte = fun _ => 0 := by
    funext i
    rw [keyByte, hkey]
  rw [mask, hzero]
  induction bytes generalizing start with
  | nil => rfl
  | cons b bs ih => simp [Keystream.combine, ih]

/-! ### The reader -/

/-- What a receiver is told with each byte of a payload, and of an empty frame. -/
structure Info where
  flags : UInt8
  length : Nat
  masked : Bool
  deriving DecidableEq, Repr

def Header.info (h : Header) : Info := ⟨h.flags, h.length, h.key.isSome⟩

inductive Item where
  | empty (info : Info)
  | byte (info : Info) (b : UInt8)
  deriving DecidableEq, Repr

def Item.info : Item → Info
  | .empty info | .byte info _ => info

inductive Reader where
  | start
  | flagged (flags : UInt8)
  | extended (flags : UInt8) (masked : Bool) (width : Nat) (got : List UInt8)
  | keyed (flags : UInt8) (length : Nat) (got : List UInt8)
  | payload (h : Header) (off : Nat)
  | failed

namespace Reader

def headerRead (h : Header) : Reader × List Item :=
  if h.length = 0 then (start, [.empty h.info]) else (payload h 0, [])

def lengthRead (flags : UInt8) (masked : Bool) (length : Nat) : Reader × List Item :=
  if masked then (keyed flags length [], []) else headerRead ⟨flags, length, none⟩

/-- A length is in the shortest form, and the longest form has no sign. -/
def badLength (width length : Nat) : Bool :=
  if width = 8 then decide (length < 2 ^ 16) || decide (2 ^ 63 ≤ length) else decide (length < 126)

def extendedRead (flags : UInt8) (masked : Bool) (width length : Nat) : Reader × List Item :=
  if badLength width length then (failed, []) else lengthRead flags masked length

def secondRead (flags b : UInt8) : Reader × List Item :=
  let masked := decide (128 ≤ b.toNat)
  let field := b.toNat % 128
  if isControl flags ∧ (125 < field ∨ fin flags = 0) then (failed, [])
  else if field = 126 then (extended flags masked 2 [], [])
  else if field = 127 then (extended flags masked 8 [], [])
  else lengthRead flags masked field

def step : Reader → UInt8 → Reader × List Item
  | start, b => (flagged b, [])
  | flagged flags, b => secondRead flags b
  | extended flags masked width got, b =>
    if got.length + 1 < width then (extended flags masked width (got ++ [b]), [])
    else extendedRead flags masked width (BigEndian.decode (got ++ [b]))
  | keyed flags length got, b =>
    if h : (got ++ [b]).length = 4 then headerRead ⟨flags, length, some ⟨got ++ [b], h⟩⟩
    else (keyed flags length (got ++ [b]), [])
  | payload h off, b =>
    (if off + 1 = h.length then start else payload h (off + 1), [.byte h.info (b ^^^ h.keyByte off)])
  | failed, _ => (failed, [])

def run : Reader → List UInt8 → Reader × List Item
  | r, [] => (r, [])
  | r, b :: bs =>
    let s := step r b
    let t := run s.1 bs
    (t.1, s.2 ++ t.2)

@[simp] theorem run_nil (r : Reader) : run r [] = (r, []) := rfl

theorem run_cons (r : Reader) (b : UInt8) (bs : List UInt8) :
    run r (b :: bs) = ((run (step r b).1 bs).1, (step r b).2 ++ (run (step r b).1 bs).2) := rfl

theorem run_append (r : Reader) (as bs : List UInt8) :
    run r (as ++ bs) =
      ((run (run r as).1 bs).1, (run r as).2 ++ (run (run r as).1 bs).2) := by
  induction as generalizing r with
  | nil => simp
  | cons a as ih => simp [run_cons, ih]

theorem run_failed (bs : List UInt8) : run failed bs = (failed, []) := by
  induction bs with
  | nil => rfl
  | cons b bs ih => simp [run_cons, step, ih]

theorem badLength_two (length : Nat) : badLength 2 length = true ↔ length < 126 := by
  simp [badLength]

theorem badLength_eight (length : Nat) :
    badLength 8 length = true ↔ length < 2 ^ 16 ∨ 2 ^ 63 ≤ length := by
  simp [badLength]

/-! ### The parts of a frame -/

theorem run_extended_got (flags : UInt8) (masked : Bool) (width : Nat) (got bs : List UInt8)
    (h : got.length + bs.length < width) :
    run (extended flags masked width got) bs = (extended flags masked width (got ++ bs), []) := by
  induction bs generalizing got with
  | nil => simp
  | cons b bs ih =>
    simp only [List.length_cons] at h
    have hmore : got.length + 1 < width := by omega
    have hrest := ih (got ++ [b]) (by simp only [List.length_append, List.length_singleton]; omega)
    simp [run_cons, step, hmore, hrest]

theorem run_extended (flags : UInt8) (masked : Bool) {width : Nat} (hwidth : 0 < width)
    {bs : List UInt8} (h : bs.length = width) :
    run (extended flags masked width []) bs =
      extendedRead flags masked width (BigEndian.decode bs) := by
  have hne : bs ≠ [] := by
    rintro rfl
    simp at h
    omega
  have hsplit := List.dropLast_append_getLast hne
  have hlen : bs.dropLast.length + 1 = width := by
    rw [List.length_dropLast]
    omega
  have hgot := run_extended_got flags masked width [] bs.dropLast (by simp only [List.length_nil]; omega)
  have hlast : ¬ bs.dropLast.length + 1 < width := by omega
  rw [← hsplit, run_append, hgot]
  simp only [List.nil_append, run_cons, run_nil, step, hlast, if_false, hsplit, List.append_nil]

theorem run_keyed_got (flags : UInt8) (length : Nat) (got bs : List UInt8)
    (h : got.length + bs.length < 4) :
    run (keyed flags length got) bs = (keyed flags length (got ++ bs), []) := by
  induction bs generalizing got with
  | nil => simp
  | cons b bs ih =>
    simp only [List.length_cons] at h
    have hmore : ¬ (got ++ [b]).length = 4 := by
      simp only [List.length_append, List.length_singleton]
      omega
    have hrest := ih (got ++ [b]) (by simp only [List.length_append, List.length_singleton]; omega)
    rw [run_cons, step, dif_neg hmore, hrest]
    simp

theorem run_keyed (flags : UInt8) (length : Nat) (k : Key) :
    run (keyed flags length []) k.bytes = headerRead ⟨flags, length, some k⟩ := by
  obtain ⟨bs, hbs⟩ := k
  have hne : bs ≠ [] := by
    rintro rfl
    simp at hbs
  have hsplit := List.dropLast_append_getLast hne
  have hlen : bs.dropLast.length + 1 = 4 := by
    rw [List.length_dropLast]
    omega
  have hgot := run_keyed_got flags length [] bs.dropLast (by simp only [List.length_nil]; omega)
  show run (keyed flags length []) bs = _
  conv => lhs; rw [← hsplit]
  rw [run_append, hgot]
  simp only [List.nil_append, run_cons, run_nil, step, hsplit, dif_pos hbs, List.append_nil]

theorem run_payload (h : Header) (off : Nat) {bs : List UInt8} (hne : bs ≠ [])
    (hle : off + bs.length ≤ h.length) :
    run (payload h off) bs =
      (if off + bs.length = h.length then start else payload h (off + bs.length),
        (h.mask off bs).map (.byte h.info)) := by
  induction bs generalizing off with
  | nil => exact absurd rfl hne
  | cons b bs ih =>
    simp only [List.length_cons] at hle
    cases bs with
    | nil => simp [run_cons, step, Header.mask, Keystream.combine]
    | cons c bs =>
      have hmore : ¬ off + 1 = h.length := by
        simp only [List.length_cons] at hle
        omega
      have hrest := ih (off + 1) (List.cons_ne_nil c bs) (by omega)
      have hsum : off + 1 + (c :: bs).length = off + (b :: c :: bs).length := by
        simp only [List.length_cons]
        omega
      rw [run_cons, step, if_neg hmore, hrest, hsum]
      simp [Header.mask, Keystream.combine]

theorem secondRead_second {flags : UInt8} (masked : Bool) {field : Nat} (h : field < 128) :
    secondRead flags (second masked field) =
      if isControl flags ∧ (125 < field ∨ fin flags = 0) then (failed, [])
      else if field = 126 then (extended flags masked 2 [], [])
      else if field = 127 then (extended flags masked 8 [], [])
      else lengthRead flags masked field := by
  have hnat : (second masked field).toNat = (if masked then 128 else 0) + field := by
    rw [second, UInt8.toNat_ofNat']
    cases masked
    · simp
      omega
    · simp
      omega
  have hmod : (second masked field).toNat % 128 = field := by
    rw [hnat]
    cases masked
    · simp
      omega
    · simp
      omega
  have hmasked : decide (128 ≤ (second masked field).toNat) = masked := by
    rw [hnat]
    cases masked
    · simp
      omega
    · simp
  simp only [secondRead, hmod, hmasked]

theorem run_lengthBytes {flags : UInt8} {length : Nat} (masked : Bool)
    (h : LengthValid flags length) :
    run (flagged flags) (lengthBytes masked length) = lengthRead flags masked length := by
  have hctrl : ∀ field, (length ≤ 125 → field ≤ 125) →
      ¬ (isControl flags = true ∧ (125 < field ∨ fin flags = 0)) := by
    rintro field hsmall ⟨hc, hbad⟩
    obtain ⟨hlen, hfin⟩ := h.control hc
    rcases hbad with hbad | hbad
    · have := hsmall hlen
      omega
    · exact hfin hbad
  have hlt := h.lt
  rw [lengthBytes]
  split_ifs with hshort hmedium
  · have hno := hctrl length (by omega)
    have h126 : ¬ length = 126 := by omega
    have h127 : ¬ length = 127 := by omega
    rw [run_cons, step, secondRead_second masked (by omega), if_neg hno, if_neg h126, if_neg h127]
    simp
  · have hno := hctrl 126 (by omega)
    have hdecode := BigEndian.decode_encode_of_lt (show length < 256 ^ 2 by omega)
    have hread : extendedRead flags masked 2 length = lengthRead flags masked length := by
      rw [extendedRead, if_neg (by rw [badLength_two]; omega)]
    rw [run_cons, step, secondRead_second masked (by omega), if_neg hno, if_pos rfl]
    rw [run_extended flags masked (by omega) (BigEndian.length_encode 2 length), hdecode, hread]
    simp
  · have hno := hctrl 127 (by omega)
    have hdecode := BigEndian.decode_encode_of_lt (show length < 256 ^ 8 by omega)
    have hread : extendedRead flags masked 8 length = lengthRead flags masked length := by
      rw [extendedRead, if_neg (by rw [badLength_eight]; omega)]
    rw [run_cons, step, secondRead_second masked (by omega), if_neg hno, if_neg (by omega),
      if_pos rfl]
    rw [run_extended flags masked (by omega) (BigEndian.length_encode 8 length), hdecode, hread]
    simp

theorem run_header (h : Header) (hv : LengthValid h.flags h.length) :
    run start h.encode = headerRead h := by
  obtain ⟨flags, length, key⟩ := h
  rw [Header.encode, List.cons_append, run_cons, step, run_append, run_lengthBytes _ hv]
  cases key with
  | none => simp [lengthRead, keyBytes]
  | some k => simp [lengthRead, keyBytes, run_keyed]

end Reader

/-! ### What is written is what is read -/

def WireFrame.items (f : WireFrame) : List Item :=
  if f.payload = [] then [.empty f.header.info] else f.payload.map (.byte f.header.info)

open Reader

theorem run_encode (f : WireFrame) : run start f.encode = (start, f.items) := by
  rw [WireFrame.encode, run_append, run_header f.header f.valid]
  by_cases hempty : f.payload = []
  · have hlen : f.header.length = 0 := by
      rw [← f.length_eq, hempty]
      rfl
    simp [headerRead, hlen, hempty, Header.mask, Keystream.combine, WireFrame.items]
  · have hpos : f.header.length ≠ 0 := by
      rw [← f.length_eq]
      simpa using hempty
    have hmasked : f.header.mask 0 f.payload ≠ [] := by
      rw [← List.length_pos_iff, Header.length_mask, List.length_pos_iff]
      exact hempty
    have hlen : (f.header.mask 0 f.payload).length = f.header.length := by
      rw [Header.length_mask, f.length_eq]
    rw [headerRead, if_neg hpos, run_payload f.header 0 hmasked (by omega), Header.mask_mask]
    simp [hlen, WireFrame.items, hempty]

theorem run_flatMap_encode (fs : List WireFrame) :
    run start (fs.flatMap WireFrame.encode) = (start, fs.flatMap WireFrame.items) := by
  induction fs with
  | nil => rfl
  | cons f fs ih => simp [run_append, run_encode, ih]

/-! ### What is read was written -/

/-- The bytes since the last frame that was complete, and what was reported of them. -/
inductive Partial : Reader → List UInt8 → List Item → Prop
  | start : Partial start [] []
  | flagged (flags : UInt8) : Partial (flagged flags) [flags] []
  | extended {flags : UInt8} {field width : Nat} {got : List UInt8} (masked : Bool)
      (hfield : field = 126 ∧ width = 2 ∨ field = 127 ∧ width = 8) (hgot : got.length < width)
      (hdata : isControl flags = false) :
      Partial (extended flags masked width got) (flags :: second masked field :: got) []
  | keyed {flags : UInt8} {length : Nat} {got : List UInt8} (hv : LengthValid flags length)
      (hgot : got.length < 4) :
      Partial (keyed flags length got) (flags :: lengthBytes true length ++ got) []
  | payload {h : Header} {bytes : List UInt8} (hv : LengthValid h.flags h.length)
      (hlt : bytes.length < h.length) :
      Partial (payload h bytes.length) (h.encode ++ h.mask 0 bytes) (bytes.map (.byte h.info))

/-- Where a byte leads to: out of the protocol, on inside the frame, or to its end. -/
def Accounted (r : Reader) (part : List UInt8) (items : List Item) : Prop :=
  r = failed ∨ Partial r part items ∨
    (r = start ∧ ∃ f : WireFrame, f.encode = part ∧ f.items = items)

theorem accounted_headerRead {h : Header} (hv : LengthValid h.flags h.length) :
    Accounted (headerRead h).1 h.encode (headerRead h).2 := by
  rw [headerRead]
  split_ifs with hzero
  · refine .inr (.inr ⟨rfl, ⟨h, [], by rw [hzero]; rfl, hv⟩, ?_, rfl⟩)
    simp [WireFrame.encode, Header.mask, Keystream.combine]
  · have hpartial : Partial (payload h ([] : List UInt8).length) (h.encode ++ h.mask 0 [])
        (([] : List UInt8).map (.byte h.info)) := .payload hv (Nat.pos_of_ne_zero hzero)
    rw [Header.mask, Keystream.combine, List.append_nil] at hpartial
    exact .inr (.inl hpartial)

theorem accounted_lengthRead {flags : UInt8} {length : Nat} (masked : Bool)
    (hv : LengthValid flags length) :
    Accounted (lengthRead flags masked length).1 (flags :: lengthBytes masked length)
      (lengthRead flags masked length).2 := by
  cases masked with
  | true =>
    have hpartial : Partial (keyed flags length []) (flags :: lengthBytes true length ++ []) [] :=
      .keyed hv (by simp)
    rw [List.append_nil] at hpartial
    exact .inr (.inl hpartial)
  | false =>
    have h := accounted_headerRead (h := ⟨flags, length, none⟩) hv
    simpa [Header.encode, keyBytes, lengthRead] using h

theorem second_eq (b : UInt8) : second (decide (128 ≤ b.toNat)) (b.toNat % 128) = b := by
  have hlt := b.toNat_lt
  apply UInt8.toNat_inj.mp
  rw [second, UInt8.toNat_ofNat']
  by_cases h : 128 ≤ b.toNat
  · simp only [h, decide_true, if_true]
    omega
  · simp only [h, decide_false, Bool.false_eq_true, if_false]
    omega

theorem accounted_secondRead (flags b : UInt8) :
    Accounted (secondRead flags b).1 [flags, b] (secondRead flags b).2 := by
  have hb := second_eq b
  rw [secondRead]
  by_cases hbad : isControl flags = true ∧ (125 < b.toNat % 128 ∨ fin flags = 0)
  · exact .inl (by simp only [hbad, if_true, and_self])
  have hdata : 125 < b.toNat % 128 → isControl flags = false := by
    intro hlong
    by_contra hc
    exact hbad ⟨by simpa using hc, .inl hlong⟩
  simp only [hbad, if_false]
  split_ifs with h126 h127
  · have hpartial : Partial (extended flags (decide (128 ≤ b.toNat)) 2 [])
        [flags, second (decide (128 ≤ b.toNat)) (b.toNat % 128)] [] :=
      .extended _ (.inl ⟨h126, rfl⟩) (by simp) (hdata (by omega))
    rw [hb] at hpartial
    exact .inr (.inl hpartial)
  · have hpartial : Partial (extended flags (decide (128 ≤ b.toNat)) 8 [])
        [flags, second (decide (128 ≤ b.toNat)) (b.toNat % 128)] [] :=
      .extended _ (.inr ⟨h127, rfl⟩) (by simp) (hdata (by omega))
    rw [hb] at hpartial
    exact .inr (.inl hpartial)
  · have hshort : b.toNat % 128 < 126 := by omega
    have hv : LengthValid flags (b.toNat % 128) := by
      refine ⟨by omega, fun hc => ⟨by omega, fun hfin => hbad ⟨hc, .inr hfin⟩⟩⟩
    have h := accounted_lengthRead (decide (128 ≤ b.toNat)) hv
    rwa [lengthBytes, if_pos hshort, hb] at h

theorem accounted_extendedRead {flags : UInt8} {field width : Nat} {got : List UInt8} (masked : Bool)
    (hfield : field = 126 ∧ width = 2 ∨ field = 127 ∧ width = 8) (hgot : got.length = width)
    (hdata : isControl flags = false) :
    Accounted (extendedRead flags masked width (BigEndian.decode got)).1
      (flags :: second masked field :: got)
      (extendedRead flags masked width (BigEndian.decode got)).2 := by
  have hencode := BigEndian.encode_decode got
  have hlt := BigEndian.decode_lt got
  have hv : BigEndian.decode got < 2 ^ 63 → LengthValid flags (BigEndian.decode got) := by
    intro h
    refine ⟨h, fun hc => ?_⟩
    rw [hdata] at hc
    cases hc
  rw [hgot] at hencode hlt
  rw [extendedRead]
  split_ifs with hbad
  · exact .inl rfl
  rcases hfield with ⟨rfl, rfl⟩ | ⟨rfl, rfl⟩
  · rw [badLength_two] at hbad
    have h := accounted_lengthRead masked (hv (by omega))
    rwa [lengthBytes, if_neg hbad, if_pos (by omega), hencode] at h
  · rw [badLength_eight] at hbad
    have h := accounted_lengthRead masked (hv (by omega))
    rwa [lengthBytes, if_neg (by omega), if_neg (by omega), hencode] at h

theorem Partial.accounted {r : Reader} {part : List UInt8} {items : List Item}
    (h : Partial r part items) (b : UInt8) :
    Accounted (step r b).1 (part ++ [b]) (items ++ (step r b).2) := by
  cases h with
  | start => exact .inr (.inl (.flagged b))
  | flagged flags => exact accounted_secondRead flags b
  | @extended flags field width got masked hfield hgot hdata =>
    rw [step]
    split_ifs with hmore
    · have hlen : (got ++ [b]).length < width := by
        rw [List.length_append, List.length_singleton]
        exact hmore
      exact .inr (.inl (.extended masked hfield hlen hdata))
    · have hlen : (got ++ [b]).length = width := by
        rw [List.length_append, List.length_singleton]
        omega
      exact accounted_extendedRead masked hfield hlen hdata
  | @keyed flags length got hv hgot =>
    rw [step]
    split_ifs with hlen
    · have h := accounted_headerRead (h := ⟨flags, length, some ⟨got ++ [b], hlen⟩⟩) hv
      simpa [Header.encode, keyBytes] using h
    · have hlt : (got ++ [b]).length < 4 := by
        rw [List.length_append, List.length_singleton] at hlen ⊢
        omega
      have hpartial := Partial.keyed hv hlt
      rw [← List.append_assoc] at hpartial
      exact .inr (.inl hpartial)
  | @payload h bytes hv hlt =>
    -- the byte of the payload is the one that the key turns into `b`
    have hmask : h.mask 0 (bytes ++ [b ^^^ h.keyByte bytes.length]) = h.mask 0 bytes ++ [b] := by
      have hself : b ^^^ h.keyByte bytes.length ^^^ h.keyByte bytes.length = b := by
        rw [UInt8.xor_assoc, UInt8.xor_self, UInt8.xor_zero]
      rw [Header.mask_append]
      simp [Header.mask, Keystream.combine, hself]
    rw [step]
    split_ifs with hlast
    · refine .inr (.inr ⟨rfl, ⟨h, bytes ++ [b ^^^ h.keyByte bytes.length], ?_, hv⟩, ?_, ?_⟩)
      · rw [List.length_append, List.length_singleton, hlast]
      · simp [WireFrame.encode, hmask]
      · simp [WireFrame.items]
    · have hlen : (bytes ++ [b ^^^ h.keyByte bytes.length]).length < h.length := by
        rw [List.length_append, List.length_singleton]
        omega
      have hpartial := Partial.payload hv hlen
      rw [hmask, List.length_append, List.length_singleton, List.map_append] at hpartial
      rw [List.append_assoc]
      exact .inr (.inl hpartial)

/-- The bytes of whole frames, and of one that is not complete. -/
structure Read (r : Reader) (w : List UInt8) (items : List Item) (fs : List WireFrame)
    (part : List UInt8) (more : List Item) : Prop where
  bytes : w = fs.flatMap WireFrame.encode ++ part
  items : items = fs.flatMap WireFrame.items ++ more
  rest : Partial r part more

/-- What a reader takes without an objection are frames, and what it reports is theirs. -/
theorem read_of_run (w : List UInt8) :
    (run start w).1 = failed ∨
      ∃ fs part more, Read (run start w).1 w (run start w).2 fs part more := by
  induction w using List.reverseRecOn with
  | nil => exact .inr ⟨[], [], [], rfl, rfl, .start⟩
  | append_singleton w b ih =>
    rw [run_append, run_cons, run_nil]
    simp only [List.append_nil]
    rcases ih with hfailed | ⟨fs, part, more, hread⟩
    · rw [hfailed]
      exact .inl rfl
    · have hw := hread.bytes
      have hitems := hread.items
      rcases hread.rest.accounted b with h | h | ⟨hstart, f, hf, hfi⟩
      · exact .inl h
      · refine .inr ⟨fs, part ++ [b], _, ?_, ?_, h⟩
        · rw [hw, List.append_assoc]
        · rw [hitems, List.append_assoc]
      · refine .inr ⟨fs ++ [f], [], [], ?_, ?_, ?_⟩
        · rw [hw]
          simp [hf]
        · rw [hitems]
          simp [hfi]
        · rw [hstart]
          exact .start

end WebSocketFrame
