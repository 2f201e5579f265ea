import AwsIotSdk.JsonText
import AwsIotSdk.Packet

/-! Objects that are put together member by member, and what the reader makes of them. -/

namespace AwsIotSdk

namespace JsonText

/-! ### Strings -/

/-- A character that stands for itself between quotes. -/
def Plain (c : UInt8) : Prop := 0x20 ≤ c ∧ c ≠ quote ∧ c ≠ backslash

instance decidablePlain (c : UInt8) : Decidable (Plain c) := by
  unfold Plain
  infer_instance

/-- What may stand between the quotes of a string, with short escapes only. -/
inductive Body : Bytes → Bytes → Prop
  | nil : Body [] []
  | plain {c : UInt8} {raw str : Bytes} : Plain c → Body raw str → Body (c :: raw) (c :: str)
  | escape {c d : UInt8} {raw str : Bytes} : c ≠ 0x75 → simpleEscape c = some d → Body raw str →
      Body (backslash :: c :: raw) (d :: str)

theorem chars_quote (fuel : Nat) (rest : Bytes) :
    chars (fuel + 1) (quote :: rest) = some ([], rest) := by
  rw [chars, if_pos rfl]

theorem chars_plain {c : UInt8} (h : Plain c) (fuel : Nat) (t : Bytes) :
    chars (fuel + 1) (c :: t) = (chars fuel t).map (fun r => (c :: r.1, r.2)) := by
  obtain ⟨hcontrol, hquote, hbackslash⟩ := h
  rw [chars, if_neg hquote, if_neg hbackslash, if_neg (UInt8.not_lt.2 hcontrol)]
  cases chars fuel t <;> rfl

theorem chars_escape {c d : UInt8} (hc : c ≠ 0x75) (h : simpleEscape c = some d) (fuel : Nat)
    (t : Bytes) :
    chars (fuel + 1) (backslash :: c :: t) = (chars fuel t).map (fun r => (d :: r.1, r.2)) := by
  have hseq : escapeSequence (c :: t) = some ([d], t) := by
    rw [escapeSequence, if_neg hc, h]
    rfl
  rw [chars, if_neg (by decide), if_pos rfl, hseq]
  cases hchars : chars fuel t <;> simp [hchars]

theorem chars_control {c : UInt8} (h : c < 0x20) (fuel : Nat) (t : Bytes) :
    chars fuel (c :: t) = none := by
  cases fuel with
  | zero => rfl
  | succ fuel =>
    have hquote : c ≠ quote := by
      rintro rfl
      exact absurd h (by decide)
    have hbackslash : c ≠ backslash := by
      rintro rfl
      exact absurd h (by decide)
    rw [chars, if_neg hquote, if_neg hbackslash, if_pos h]

theorem chars_body {raw str : Bytes} (h : Body raw str) {fuel : Nat} (hfuel : raw.length < fuel)
    (rest : Bytes) : chars fuel (raw ++ quote :: rest) = some (str, rest) := by
  induction h generalizing fuel with
  | nil =>
    obtain ⟨fuel, rfl⟩ : ∃ n, fuel = n + 1 := ⟨fuel - 1, by simp at hfuel; omega⟩
    exact chars_quote fuel rest
  | plain hc _ ih =>
    rw [List.length_cons] at hfuel
    obtain ⟨fuel, rfl⟩ : ∃ n, fuel = n + 1 := ⟨fuel - 1, by omega⟩
    rw [List.cons_append, chars_plain hc, ih (by omega)]
    rfl
  | escape hc hd _ ih =>
    rw [List.length_cons, List.length_cons] at hfuel
    obtain ⟨fuel, rfl⟩ : ∃ n, fuel = n + 1 := ⟨fuel - 1, by omega⟩
    rw [List.cons_append, List.cons_append, chars_escape hc hd, ih (by omega)]
    rfl

theorem body_of_plain {str : Bytes} (h : ∀ c ∈ str, Plain c) : Body str str := by
  induction str with
  | nil => exact .nil
  | cons c str ih =>
    rw [List.forall_mem_cons] at h
    exact .plain h.1 (ih h.2)

theorem utf8_length_le (cp : Nat) : (utf8 cp).length ≤ 4 := by
  rw [utf8]
  split_ifs <;> simp

theorem hex4_eq_some {t rest : Bytes} {u : Nat} (h : hex4 t = some (u, rest)) :
    ∃ a b c d, t = a :: b :: c :: d :: rest := by
  match t, h with
  | a :: b :: c :: d :: rest', h =>
    simp only [hex4, Option.bind_eq_bind, Option.bind_eq_some_iff, Option.some.injEq,
      Prod.mk.injEq] at h
    obtain ⟨_, -, _, -, _, -, _, -, -, rfl⟩ := h
    exact ⟨a, b, c, d, rfl⟩
  | [], h => simp [hex4] at h
  | [_], h => simp [hex4] at h
  | [_, _], h => simp [hex4] at h
  | [_, _, _], h => simp [hex4] at h

theorem expectAll_eq_some {word t rest : Bytes} (h : expectAll word t = some rest) :
    t = word ++ rest := by
  induction word generalizing t with
  | nil => simpa [expectAll] using h
  | cons c word ih =>
    rw [expectAll, Option.bind_eq_some_iff] at h
    obtain ⟨u, hu, hrest⟩ := h
    cases t with
    | nil => cases hu
    | cons d t =>
      rw [expect] at hu
      split_ifs at hu with hd
      cases hu
      rw [hd, List.cons_append, ih hrest]

theorem unicodeEscape_eq_some {t str rest : Bytes} (h : unicodeEscape t = some (str, rest)) :
    ∃ w, t = w ++ rest ∧ str.length ≤ w.length := by
  rw [unicodeEscape, Option.bind_eq_bind, Option.bind_eq_some_iff] at h
  obtain ⟨⟨high, u⟩, hhigh, h⟩ := h
  obtain ⟨a, b, c, d, rfl⟩ := hex4_eq_some hhigh
  dsimp only at h
  split_ifs at h with hpair hlone
  · simp only [Option.bind_eq_bind, Option.bind_eq_some_iff] at h
    obtain ⟨v, hv, ⟨low, x⟩, hlow, h⟩ := h
    obtain ⟨a', b', c', d', rfl⟩ := hex4_eq_some hlow
    dsimp only at h
    split_ifs at h
    simp only [Option.some.injEq, Prod.mk.injEq] at h
    obtain ⟨rfl, rfl⟩ := h
    refine ⟨a :: b :: c :: d :: backslash :: 0x75 :: a' :: b' :: c' :: [d'], ?_, ?_⟩
    · rw [expectAll_eq_some hv]
      rfl
    · exact (utf8_length_le _).trans (by simp)
  · simp only [Option.some.injEq, Prod.mk.injEq] at h
    obtain ⟨rfl, rfl⟩ := h
    exact ⟨[a, b, c, d], rfl, utf8_length_le high⟩

theorem escapeSequence_eq_some {t str rest : Bytes} (h : escapeSequence t = some (str, rest)) :
    ∃ w, t = w ++ rest ∧ str.length ≤ w.length := by
  cases t with
  | nil => cases h
  | cons c t =>
    rw [escapeSequence] at h
    split_ifs at h
    · obtain ⟨w, rfl, hle⟩ := unicodeEscape_eq_some h
      exact ⟨c :: w, rfl, hle.trans (by simp)⟩
    · rw [Option.map_eq_some_iff] at h
      obtain ⟨d, -, h⟩ := h
      cases h
      exact ⟨[c], rfl, Nat.le_refl 1⟩

/-- A string that is read is no longer than what stands between its quotes, and as long
only where every character stands for itself. -/
theorem chars_eq_some {fuel : Nat} {t str rest : Bytes} (h : chars fuel t = some (str, rest)) :
    ∃ raw, t = raw ++ quote :: rest ∧ str.length ≤ raw.length ∧
      (raw.length ≤ str.length → str = raw ∧ ∀ c ∈ raw, Plain c) := by
  induction fuel generalizing t str with
  | zero => cases h
  | succ fuel ih =>
    cases t with
    | nil => cases h
    | cons c t =>
      rw [chars] at h
      split_ifs at h with hquote hbackslash hcontrol
      · simp only [Option.some.injEq, Prod.mk.injEq] at h
        obtain ⟨rfl, rfl⟩ := h
        exact ⟨[], by rw [hquote]; rfl, Nat.le_refl 0, fun _ => ⟨rfl, by simp⟩⟩
      · simp only [Option.bind_eq_bind, Option.bind_eq_some_iff, Option.some.injEq,
          Prod.mk.injEq] at h
        obtain ⟨⟨d, u⟩, hd, ⟨str', rest'⟩, hstr, rfl, rfl⟩ := h
        obtain ⟨w, rfl, hw⟩ := escapeSequence_eq_some hd
        obtain ⟨raw, rfl, hle, -⟩ := ih hstr
        refine ⟨c :: w ++ raw, by simp, ?_, fun hge => ?_⟩
        · simp only [List.cons_append, List.length_cons, List.length_append]
          omega
        · simp only [List.cons_append, List.length_cons, List.length_append] at hge
          omega
      · simp only [Option.bind_eq_bind, Option.bind_eq_some_iff, Option.some.injEq,
          Prod.mk.injEq] at h
        obtain ⟨⟨str', rest'⟩, hstr, rfl, rfl⟩ := h
        obtain ⟨raw, rfl, hle, hplain⟩ := ih hstr
        refine ⟨c :: raw, rfl, by simpa using hle, fun hge => ?_⟩
        obtain ⟨rfl, hraw⟩ := hplain (by simpa using hge)
        refine ⟨rfl, fun e he => ?_⟩
        rcases List.mem_cons.1 he with rfl | he
        · exact ⟨UInt8.not_lt.1 hcontrol, hquote, hbackslash⟩
        · exact hraw e he

/-! ### Members -/

theorem skipWhitespace_cons {c : UInt8} (h : isWhitespace c = false) (t : Bytes) :
    skipWhitespace (c :: t) = c :: t :=
  List.dropWhile_cons_of_neg (by simp [h])

theorem expect_self (c : UInt8) (t : Bytes) : expect c (c :: t) = some t := if_pos rfl

theorem expect_of_ne {c d : UInt8} (h : d ≠ c) (t : Bytes) : expect c (d :: t) = none := if_neg h

/-- A text that is read as a value, whatever comes behind it. -/
structure Reads (t : Bytes) (v : JsonValue Decimal) : Prop where
  noBlank : ∀ rest, skipWhitespace (t ++ rest) = t ++ rest
  value : ∀ fuel rest, t.length ≤ fuel → value fuel (t ++ rest) = some (v, rest)

theorem value_quote (fuel : Nat) (t : Bytes) :
    value (fuel + 1) (quote :: t) = (chars t.length t).map (fun r => (.string r.1, r.2)) := by
  rw [value, if_pos rfl]

theorem reads_string {raw str : Bytes} (h : Body raw str) :
    Reads (quote :: raw ++ [quote]) (.string str) := by
  refine ⟨fun rest => skipWhitespace_cons rfl _, fun fuel rest hfuel => ?_⟩
  obtain ⟨fuel, rfl⟩ : ∃ n, fuel = n + 1 := ⟨fuel - 1, by simp at hfuel; omega⟩
  have htext : quote :: raw ++ [quote] ++ rest = quote :: (raw ++ quote :: rest) := by simp
  rw [htext, value_quote, chars_body h (by simp)]
  rfl

/-- The text of a member, from the raw name and the text of its value. -/
def memberText (rawName valueText : Bytes) : Bytes :=
  quote :: (rawName ++ quote :: colon :: valueText)

/-- What follows a member that has been read. -/
def afterMember (fuel : Nat) (m : Bytes × JsonValue Decimal) (t : Bytes) :
    Option (List (Bytes × JsonValue Decimal) × Bytes) :=
  match expect comma (skipWhitespace t) with
  | some t => (members fuel (skipWhitespace t)).map (fun r => (m :: r.1, r.2))
  | none => (expect closeBrace (skipWhitespace t)).map (fun t => ([m], t))

theorem members_memberText {rawName name : Bytes} (h : Body rawName name) (fuel : Nat)
    (valueText rest : Bytes) :
    members (fuel + 1) (memberText rawName valueText ++ rest) =
      (value fuel (skipWhitespace (valueText ++ rest))).bind (fun r =>
        afterMember fuel (name, r.1) r.2) := by
  have htext : memberText rawName valueText ++ rest =
      quote :: (rawName ++ quote :: (colon :: (valueText ++ rest))) := by simp [memberText]
  rw [htext, members, expect_self]
  simp only [Option.bind_eq_bind, Option.bind_some]
  rw [chars_body h (by simp)]
  simp only [Option.bind_some]
  rw [skipWhitespace_cons rfl, expect_self]
  simp only [Option.bind_some]
  congr 1
  funext r
  rw [afterMember]
  cases expect comma (skipWhitespace r.2) with
  | none => exact Option.map_eq_bind.symm
  | some t => exact Option.map_eq_bind.symm

/-- A member as it is written, and the name and the value that are meant. -/
structure Piece where
  rawName : Bytes
  rawValue : Bytes
  name : Bytes
  value : JsonValue Decimal

namespace Piece

def text (p : Piece) : Bytes := memberText p.rawName p.rawValue

def member (p : Piece) : Bytes × JsonValue Decimal := (p.name, p.value)

/-- The name and the value are read as they are meant. -/
structure Good (p : Piece) : Prop where
  name : Body p.rawName p.name
  value : Reads p.rawValue p.value

theorem length_text (p : Piece) :
    p.text.length = p.rawName.length + p.rawValue.length + 3 := by
  simp only [text, memberText, List.length_cons, List.length_append]
  omega

variable {p : Piece} {fuel : Nat}

theorem Good.members (h : p.Good) (hfuel : p.rawValue.length ≤ fuel) (rest : Bytes) :
    JsonText.members (fuel + 1) (p.text ++ rest) = afterMember fuel p.member rest := by
  rw [text, members_memberText h.name, h.value.noBlank, h.value.value fuel rest hfuel]
  rfl

/-- Another member follows. -/
theorem Good.members_comma (h : p.Good) (hfuel : p.rawValue.length ≤ fuel) {t : Bytes}
    (ht : skipWhitespace t = t) :
    JsonText.members (fuel + 1) (p.text ++ comma :: t) =
      (JsonText.members fuel t).map (fun r => (p.member :: r.1, r.2)) := by
  rw [h.members hfuel, afterMember, skipWhitespace_cons rfl, expect_self]
  dsimp only
  rw [ht]

/-- It is the last one. -/
theorem Good.members_closeBrace (h : p.Good) (hfuel : p.rawValue.length ≤ fuel) (rest : Bytes) :
    JsonText.members (fuel + 1) (p.text ++ closeBrace :: rest) = some ([p.member], rest) := by
  rw [h.members hfuel, afterMember, skipWhitespace_cons rfl, expect_of_ne (by decide)]
  dsimp only
  rw [expect_self]
  rfl

/-- Neither is the case. -/
theorem Good.members_quote (h : p.Good) (hfuel : p.rawValue.length ≤ fuel) (rest : Bytes) :
    JsonText.members (fuel + 1) (p.text ++ quote :: rest) = none := by
  rw [h.members hfuel, afterMember, skipWhitespace_cons rfl, expect_of_ne (by decide)]
  dsimp only
  rw [expect_of_ne (by decide)]
  rfl

theorem skipWhitespace_text (p : Piece) (t : Bytes) :
    skipWhitespace (p.text ++ t) = p.text ++ t :=
  skipWhitespace_cons rfl _

end Piece

/-- Members with commas between them. -/
def joined : List Piece → Bytes
  | [] => []
  | [p] => p.text
  | p :: q :: ps => p.text ++ comma :: joined (q :: ps)

theorem joined_cons (p : Piece) (ps : List Piece) :
    joined (p :: ps) = p.text ++ ps.flatMap (fun q => comma :: q.text) := by
  induction ps generalizing p with
  | nil => simp [joined]
  | cons q ps ih =>
    rw [joined, ih q]
    rfl

def objectText (ps : List Piece) : Bytes := openBrace :: joined ps ++ [closeBrace]

theorem skipWhitespace_joined {ps : List Piece} (h : ps ≠ []) (t : Bytes) :
    skipWhitespace (joined ps ++ t) = joined ps ++ t := by
  match ps, h with
  | [p], _ => exact p.skipWhitespace_text t
  | p :: q :: ps, _ =>
    rw [joined, List.append_assoc]
    exact p.skipWhitespace_text _

/-- All pieces but the last are read, and the rest is up to that one. -/
theorem members_joined_concat {ps : List Piece} (h : ∀ p ∈ ps, p.Good) (last : Piece)
    (more : List Piece) {fuel : Nat} (hfuel : (joined (ps ++ last :: more)).length ≤ fuel)
    (t : Bytes) :
    ∃ fuel', (joined (last :: more)).length ≤ fuel' ∧
      members fuel (joined (ps ++ last :: more) ++ t) =
        (members fuel' (joined (last :: more) ++ t)).map (fun r =>
          (ps.map Piece.member ++ r.1, r.2)) := by
  induction ps generalizing fuel with
  | nil =>
    refine ⟨fuel, hfuel, ?_⟩
    cases hmembers : members fuel (joined (last :: more) ++ t) <;> simp [hmembers]
  | cons p ps ih =>
    rw [List.forall_mem_cons] at h
    have hne : ps ++ last :: more ≠ [] := by simp
    have hjoined : joined (p :: ps ++ last :: more) =
        p.text ++ comma :: joined (ps ++ last :: more) := by
      cases ps <;> rfl
    rw [hjoined, List.length_append, List.length_cons, p.length_text] at hfuel
    obtain ⟨fuel, rfl⟩ : ∃ n, fuel = n + 1 := ⟨fuel - 1, by omega⟩
    have hmore : (joined (ps ++ last :: more)).length ≤ fuel := by omega
    obtain ⟨fuel', hfuel', hrest⟩ := ih h.2 hmore
    refine ⟨fuel', hfuel', ?_⟩
    rw [hjoined, List.append_assoc, List.cons_append,
      h.1.members_comma (by omega) (skipWhitespace_joined hne t), hrest]
    cases members fuel' (joined (last :: more) ++ t) <;> rfl

theorem members_joined {ps : List Piece} (hne : ps ≠ []) (h : ∀ p ∈ ps, p.Good) {fuel : Nat}
    (hfuel : (joined ps).length ≤ fuel) (rest : Bytes) :
    members fuel (joined ps ++ closeBrace :: rest) = some (ps.map Piece.member, rest) := by
  obtain ⟨init, last, rfl⟩ : ∃ init last, ps = init ++ [last] :=
    ⟨ps.dropLast, ps.getLast hne, (List.dropLast_append_getLast hne).symm⟩
  obtain ⟨fuel', hfuel', hmembers⟩ := members_joined_concat
    (fun p hp => h p (List.mem_append_left _ hp)) last [] hfuel (closeBrace :: rest)
  have hlast := h last (by simp)
  rw [hmembers]
  have hlength : last.text.length ≤ fuel' := hfuel'
  rw [last.length_text] at hlength
  obtain ⟨fuel', rfl⟩ : ∃ n, fuel' = n + 1 := ⟨fuel' - 1, by omega⟩
  have hvalue : last.rawValue.length ≤ fuel' := by omega
  have hread := hlast.members_closeBrace hvalue rest
  rw [joined, hread]
  simp

theorem value_openBrace (fuel : Nat) {ps : List Piece} (hne : ps ≠ []) (t : Bytes) :
    value (fuel + 1) (openBrace :: (joined ps ++ t)) =
      (members fuel (joined ps ++ t)).map (fun r => (.object r.1, r.2)) := by
  have hfirst : expect closeBrace (joined ps ++ t) = none := by
    match ps, hne with
    | [p], _ => rfl
    | p :: q :: ps, _ => rfl
  rw [value, if_neg (by decide), if_pos rfl, skipWhitespace_joined hne, hfirst]

theorem reads_objectText {ps : List Piece} (h : ∀ p ∈ ps, p.Good) :
    Reads (objectText ps) (.object (ps.map Piece.member)) := by
  refine ⟨fun rest => skipWhitespace_cons rfl _, fun fuel rest hfuel => ?_⟩
  have htext : objectText ps ++ rest = openBrace :: (joined ps ++ closeBrace :: rest) := by
    simp [objectText]
  simp only [objectText, List.length_append, List.length_cons] at hfuel
  obtain ⟨fuel, rfl⟩ : ∃ n, fuel = n + 1 := ⟨fuel - 1, by omega⟩
  rw [htext]
  by_cases hne : ps = []
  · subst hne
    rw [joined, List.nil_append, value, if_neg (by decide), if_pos rfl, skipWhitespace_cons rfl,
      expect_self]
    rfl
  · rw [value_openBrace fuel hne, members_joined hne h (by omega)]
    rfl

/-- A text that is an object has the value of its members. -/
theorem parse_of_reads {t : Bytes} {v : JsonValue Decimal} (h : Reads t v) : parse t = some v := by
  have hblank := h.noBlank []
  have hvalue := h.value (t.length + 1) [] (by omega)
  rw [List.append_nil] at hblank hvalue
  rw [parse, hblank, hvalue]
  rfl

theorem parse_objectText {ps : List Piece} (hne : ps ≠ []) :
    parse (objectText ps) =
      (members (objectText ps).length (joined ps ++ [closeBrace])).bind (fun r =>
        if skipWhitespace r.2 = [] then some (.object r.1) else none) := by
  rw [parse]
  generalize (objectText ps).length = fuel
  rw [objectText, List.cons_append, skipWhitespace_cons rfl, value_openBrace fuel hne]
  cases members fuel (joined ps ++ [closeBrace]) <;> rfl

/-! ### Pieces that are not read as they are meant -/

/-- No name or no value is read. -/
def Piece.Bad (p : Piece) : Prop :=
  ∀ fuel t, p.text.length ≤ fuel → members fuel (p.text ++ t) = none

theorem Piece.bad_of_value {p : Piece} (hname : Body p.rawName p.name)
    (hvalue : ∀ fuel t, p.rawValue.length ≤ fuel →
      JsonText.value fuel (skipWhitespace (p.rawValue ++ t)) = none) : p.Bad := by
  intro fuel t hfuel
  rw [p.length_text] at hfuel
  obtain ⟨fuel, rfl⟩ : ∃ n, fuel = n + 1 := ⟨fuel - 1, by omega⟩
  rw [text, members_memberText hname, hvalue fuel t (by omega)]
  rfl

theorem length_joined_cons (p : Piece) (ps : List Piece) :
    p.text.length ≤ (joined (p :: ps)).length := by
  cases ps with
  | nil => exact Nat.le_refl _
  | cons q ps =>
    rw [joined, List.length_append]
    omega

theorem members_joined_bad {ps : List Piece} (h : ∀ p ∈ ps, p.Good) {bad : Piece} (hbad : bad.Bad)
    (more : List Piece) {fuel : Nat} (hfuel : (joined (ps ++ bad :: more)).length ≤ fuel)
    (t : Bytes) : members fuel (joined (ps ++ bad :: more) ++ t) = none := by
  obtain ⟨fuel', hfuel', hmembers⟩ := members_joined_concat h bad more hfuel t
  have hlength := length_joined_cons bad more
  have hnone : members fuel' (joined (bad :: more) ++ t) = none := by
    cases more with
    | nil => exact hbad fuel' t (by omega)
    | cons q more =>
      rw [joined, List.append_assoc]
      exact hbad fuel' _ (by omega)
  rw [hmembers, hnone]
  rfl

theorem parse_bad {ps : List Piece} (h : ∀ p ∈ ps, p.Good) {bad : Piece} (hbad : bad.Bad)
    (more : List Piece) : parse (objectText (ps ++ bad :: more)) = none := by
  have hfuel : (joined (ps ++ bad :: more)).length ≤ (objectText (ps ++ bad :: more)).length := by
    rw [objectText, List.cons_append, List.length_cons, List.length_append]
    omega
  rw [parse_objectText (by simp), members_joined_bad h hbad more hfuel]
  rfl

theorem value_objectText_bad {ps : List Piece} (h : ∀ p ∈ ps, p.Good) {bad : Piece}
    (hbad : bad.Bad) (more : List Piece) (fuel : Nat) (t : Bytes)
    (hfuel : (objectText (ps ++ bad :: more)).length ≤ fuel) :
    value fuel (skipWhitespace (objectText (ps ++ bad :: more) ++ t)) = none := by
  have htext : objectText (ps ++ bad :: more) ++ t =
      openBrace :: (joined (ps ++ bad :: more) ++ closeBrace :: t) := by simp [objectText]
  simp only [objectText, List.length_append, List.length_cons] at hfuel
  obtain ⟨fuel, rfl⟩ : ∃ n, fuel = n + 1 := ⟨fuel - 1, by omega⟩
  rw [htext, skipWhitespace_cons rfl, value_openBrace fuel (by simp),
    members_joined_bad h hbad more (by omega)]
  rfl

/-- Two members with nothing between them. -/
theorem parse_missing_comma {ps : List Piece} (hne : ps ≠ []) (h : ∀ p ∈ ps, p.Good)
    (t : Bytes) : parse (openBrace :: (joined ps ++ quote :: t)) = none := by
  obtain ⟨init, last, rfl⟩ : ∃ init last, ps = init ++ [last] :=
    ⟨ps.dropLast, ps.getLast hne, (List.dropLast_append_getLast hne).symm⟩
  have hfuel : (joined (init ++ [last])).length ≤
      (openBrace :: (joined (init ++ [last]) ++ quote :: t)).length := by
    rw [List.length_cons, List.length_append]
    omega
  obtain ⟨fuel, hlength, hmembers⟩ := members_joined_concat
    (fun p hp => h p (List.mem_append_left _ hp)) last [] hfuel (quote :: t)
  rw [parse, skipWhitespace_cons rfl, value_openBrace _ hne, hmembers]
  have hlast : last.text.length ≤ fuel := hlength
  rw [last.length_text] at hlast
  obtain ⟨fuel, rfl⟩ : ∃ n, fuel = n + 1 := ⟨fuel - 1, by omega⟩
  have hvalue : last.rawValue.length ≤ fuel := by omega
  have hnone := (h last (by simp)).members_quote hvalue t
  rw [joined, hnone]
  rfl

/-- A string member whose value stands between its quotes as it is. -/
def Piece.verbatim (name str : Bytes) : Piece := ⟨name, quote :: str ++ [quote], name, .string str⟩

theorem Piece.good_verbatim {name str : Bytes} (hname : ∀ c ∈ name, Plain c)
    (hstr : ∀ c ∈ str, Plain c) : (Piece.verbatim name str).Good :=
  ⟨body_of_plain hname, reads_string (body_of_plain hstr)⟩

theorem afterMember_eq_some {fuel : Nat} {m : Bytes × JsonValue Decimal} {t rest : Bytes}
    {ms : List (Bytes × JsonValue Decimal)} (h : afterMember fuel m t = some (ms, rest)) :
    ∃ more, ms = m :: more := by
  rw [afterMember] at h
  split at h
  · obtain ⟨r, -, hr⟩ := Option.map_eq_some_iff.1 h
    cases hr
    exact ⟨_, rfl⟩
  · obtain ⟨r, -, hr⟩ := Option.map_eq_some_iff.1 h
    cases hr
    exact ⟨_, rfl⟩

/-- The last member of an object has its own text as its value only where that is plain:
no quote is left for a longer one, and an escape makes a shorter one. -/
theorem plain_of_chars {fuel : Nat} {str rest : Bytes}
    (h : chars fuel (str ++ [quote, closeBrace]) = some (str, rest)) : ∀ c ∈ str, Plain c := by
  obtain ⟨raw, htext, hle, hplain⟩ := chars_eq_some h
  have hlength := congrArg List.length htext
  simp only [List.length_append, List.length_cons, List.length_nil] at hlength
  have hraw : raw.length ≤ str.length := by
    by_contra hlong
    obtain rfl : rest = [] := List.length_eq_zero_iff.1 (by omega)
    have hlast : (str ++ [quote]) ++ [closeBrace] = raw ++ [quote] := by
      rw [← htext]
      simp
    have hends := (List.append_inj' hlast rfl).2
    exact absurd hends (by decide)
  obtain ⟨rfl, hall⟩ := hplain hraw
  exact hall

theorem members_verbatim_eq_some {name str rest : Bytes} (hname : ∀ c ∈ name, Plain c)
    {fuel : Nat} {ms : List (Bytes × JsonValue Decimal)}
    (h : members fuel ((Piece.verbatim name str).text ++ [closeBrace]) = some (ms, rest)) :
    ∃ read more, ms = (name, .string read) :: more ∧ (read = str → ∀ c ∈ str, Plain c) := by
  cases fuel with
  | zero => cases h
  | succ fuel =>
    have hvalue : skipWhitespace ((Piece.verbatim name str).rawValue ++ [closeBrace]) =
        quote :: (str ++ [quote, closeBrace]) := by
      simp [Piece.verbatim, skipWhitespace, isWhitespace, quote]
    have hstart := members_memberText (body_of_plain hname) fuel
      (Piece.verbatim name str).rawValue [closeBrace]
    rw [Piece.text] at h
    change members (fuel + 1) (memberText name (Piece.verbatim name str).rawValue ++ [closeBrace]) =
      some (ms, rest) at h
    rw [hstart, hvalue, Option.bind_eq_some_iff] at h
    obtain ⟨⟨v, u⟩, hv, hafter⟩ := h
    cases fuel with
    | zero => cases hv
    | succ fuel =>
      rw [value_quote, Option.map_eq_some_iff] at hv
      obtain ⟨⟨read, u'⟩, hchars, heq⟩ := hv
      cases heq
      obtain ⟨more, rfl⟩ := afterMember_eq_some hafter
      refine ⟨read, more, rfl, fun hread => ?_⟩
      subst hread
      exact plain_of_chars hchars

/-- An object that ends with a verbatim member has that member only where it is plain. -/
theorem plain_of_parse {ps : List Piece} (h : ∀ p ∈ ps, p.Good) {name str : Bytes}
    (hname : ∀ c ∈ name, Plain c) {ms : List (Bytes × JsonValue Decimal)}
    (hparse : parse (objectText (ps ++ [Piece.verbatim name str])) = some (.object ms))
    (hperm : ms.Perm ((ps ++ [Piece.verbatim name str]).map Piece.member)) :
    ∀ c ∈ str, Plain c := by
  have hfuel : (joined (ps ++ [Piece.verbatim name str])).length ≤
      (objectText (ps ++ [Piece.verbatim name str])).length := by
    rw [objectText, List.cons_append, List.length_cons, List.length_append]
    omega
  obtain ⟨fuel', -, hmembers⟩ := members_joined_concat h (Piece.verbatim name str) [] hfuel
    [closeBrace]
  rw [parse_objectText (by simp), hmembers, Option.bind_eq_some_iff] at hparse
  obtain ⟨⟨all, rest⟩, hall, hobject⟩ := hparse
  obtain ⟨⟨ms', rest'⟩, hms', heq⟩ := Option.map_eq_some_iff.1 hall
  obtain ⟨read, more, rfl, hread⟩ := members_verbatim_eq_some hname hms'
  simp only [Prod.mk.injEq] at heq
  obtain ⟨rfl, rfl⟩ := heq
  split_ifs at hobject
  simp only [Option.some.injEq, JsonValue.object.injEq] at hobject
  subst hobject
  rw [List.map_append, List.perm_append_left_iff, List.map_singleton] at hperm
  have hsingle := List.perm_singleton.1 hperm
  simp only [List.cons.injEq, Piece.member, Piece.verbatim, Prod.mk.injEq, JsonValue.string.injEq,
    true_and] at hsingle
  exact hread hsingle.1

/-! ### UTF-8 -/

theorem wellFormedUtf8_append {t u : Bytes} (ht : WellFormedUtf8 t) (hu : WellFormedUtf8 u) :
    WellFormedUtf8 (t ++ u) := by
  induction ht with
  | nil => exact hu
  | cons hw _ ih =>
    rw [List.append_assoc]
    exact .cons hw ih

theorem wellFormedUtf8_cons {c : UInt8} (hc : c < 0x80) {t : Bytes} (ht : WellFormedUtf8 t) :
    WellFormedUtf8 (c :: t) := by
  have hle : c.toNat < 0x80 := UInt8.lt_iff_toNat_lt.1 hc
  exact .cons (.one ⟨Nat.zero_le _, by omega⟩) ht

def IsAscii (t : Bytes) : Prop := ∀ c ∈ t, c < 0x80

instance decidableIsAscii (t : Bytes) : Decidable (IsAscii t) := List.decidableBAll _ t

theorem wellFormedUtf8_of_ascii {t : Bytes} (h : IsAscii t) : WellFormedUtf8 t := by
  induction t with
  | nil => exact .nil
  | cons c t ih =>
    rw [IsAscii, List.forall_mem_cons] at h
    exact wellFormedUtf8_cons h.1 (ih h.2)

theorem wellFormedUtf8_quoted {t : Bytes} (ht : WellFormedUtf8 t) :
    WellFormedUtf8 (quote :: t ++ [quote]) :=
  wellFormedUtf8_cons (by decide) (wellFormedUtf8_append ht (wellFormedUtf8_of_ascii (by decide)))

def Piece.WellFormed (p : Piece) : Prop := WellFormedUtf8 p.rawName ∧ WellFormedUtf8 p.rawValue

theorem Piece.WellFormed.text {p : Piece} (h : p.WellFormed) : WellFormedUtf8 p.text :=
  wellFormedUtf8_cons (by decide) (wellFormedUtf8_append h.1
    (wellFormedUtf8_cons (by decide) (wellFormedUtf8_cons (by decide) h.2)))

theorem wellFormedUtf8_joined {ps : List Piece} (h : ∀ p ∈ ps, p.WellFormed) :
    WellFormedUtf8 (joined ps) := by
  match ps with
  | [] => exact .nil
  | [p] => exact (h p (by simp)).text
  | p :: q :: ps =>
    exact wellFormedUtf8_append (h p (by simp)).text (wellFormedUtf8_cons (by decide)
      (wellFormedUtf8_joined (fun r hr => h r (by simp [hr]))))

theorem wellFormedUtf8_objectText {ps : List Piece} (h : ∀ p ∈ ps, p.WellFormed) :
    WellFormedUtf8 (objectText ps) :=
  wellFormedUtf8_cons (by decide)
    (wellFormedUtf8_append (wellFormedUtf8_joined h) (wellFormedUtf8_of_ascii (by decide)))

end JsonText

end AwsIotSdk
