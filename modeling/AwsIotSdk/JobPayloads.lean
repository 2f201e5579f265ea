import AwsIotSdk.Jobs
import AwsIotSdk.JsonObjects

/-! The payloads of the job requests as JSON texts. The escaper leaves most of the control
characters as they are, and the client token is not escaped at all. -/

namespace AwsIotSdk

open JsonText

namespace Jobs

/-! ### The escaper -/

/-- A character that the escaper makes fit for a JSON string. -/
def Escapable (c : UInt8) : Prop := 0x20 ≤ c ∨ c = 0x09 ∨ c = 0x0a ∨ c = 0x0d

instance decidableEscapable (c : UInt8) : Decidable (Escapable c) := by
  unfold Escapable
  infer_instance

theorem escapeChar_cases {c : UInt8} (h : Escapable c) :
    escapeChar c = [c] ∧ Plain c ∨
      ∃ e, escapeChar c = [JsonText.backslash, e] ∧ e ≠ 0x75 ∧ simpleEscape e = some c := by
  rw [escapeChar]
  split_ifs with hn hr ht hq hb
  · exact .inr ⟨0x6e, rfl, by decide, by rw [hn]; rfl⟩
  · exact .inr ⟨0x72, rfl, by decide, by rw [hr]; rfl⟩
  · exact .inr ⟨0x74, rfl, by decide, by rw [ht]; rfl⟩
  · exact .inr ⟨0x22, rfl, by decide, by rw [hq]; rfl⟩
  · exact .inr ⟨0x5c, rfl, by decide, by rw [hb]; rfl⟩
  · have hge : 0x20 ≤ c := by
      rcases h with h | h | h | h
      · exact h
      · exact absurd h ht
      · exact absurd h hn
      · exact absurd h hr
    exact .inl ⟨rfl, hge, hq, hb⟩

theorem body_escapeChar {c : UInt8} (h : Escapable c) {raw str : Bytes} (hraw : Body raw str) :
    Body (escapeChar c ++ raw) (c :: str) := by
  rcases escapeChar_cases h with ⟨heq, hplain⟩ | ⟨e, heq, he, hsimple⟩
  · rw [heq]
    exact .plain hplain hraw
  · rw [heq]
    exact .escape he hsimple hraw

theorem chars_escapeChar {c : UInt8} (h : Escapable c) (fuel : Nat) (t : Bytes) :
    chars (fuel + 1) (escapeChar c ++ t) =
      (chars fuel t).map (fun r => (c :: r.1, r.2)) := by
  rcases escapeChar_cases h with ⟨heq, hplain⟩ | ⟨e, heq, he, hsimple⟩
  · rw [heq]
    exact chars_plain hplain fuel t
  · rw [heq]
    exact chars_escape he hsimple fuel t

theorem body_escape {str : Bytes} (h : ∀ c ∈ str, Escapable c) : Body (escape str) str := by
  induction str with
  | nil => exact .nil
  | cons c str ih =>
    rw [List.forall_mem_cons] at h
    exact body_escapeChar h.1 (ih h.2)

theorem escapeChar_of_not_escapable {c : UInt8} (h : ¬Escapable c) :
    escapeChar c = [c] ∧ c < 0x20 := by
  simp only [Escapable, not_or] at h
  obtain ⟨hge, ht, hn, hr⟩ := h
  have hlt : c < 0x20 := UInt8.not_le.1 hge
  have hq : c ≠ Jobs.quote := by
    rintro rfl
    exact absurd hlt (by decide)
  have hb : c ≠ Jobs.backslash := by
    rintro rfl
    exact absurd hlt (by decide)
  exact ⟨by rw [escapeChar, if_neg hn, if_neg hr, if_neg ht, if_neg hq, if_neg hb], hlt⟩

/-- A string with another control character is none. -/
theorem chars_escape_none {str : Bytes} (h : ¬∀ c ∈ str, Escapable c) (fuel : Nat) (t : Bytes) :
    chars fuel (escape str ++ t) = none := by
  induction str generalizing fuel with
  | nil => exact absurd (by simp) h
  | cons c str ih =>
    have hescape : escape (c :: str) ++ t = escapeChar c ++ (escape str ++ t) := by
      rw [escape, List.flatMap_cons, ← escape, List.append_assoc]
    rw [hescape]
    by_cases hc : Escapable c
    · have hstr : ¬∀ c ∈ str, Escapable c := fun hall => h (List.forall_mem_cons.2 ⟨hc, hall⟩)
      cases fuel with
      | zero => rfl
      | succ fuel => rw [chars_escapeChar hc, ih hstr fuel]; rfl
    · obtain ⟨hsame, hlt⟩ := escapeChar_of_not_escapable hc
      rw [hsame]
      exact chars_control hlt fuel _

/-! ### Status details -/

def Escapes (e : Bytes × Bytes) : Prop :=
  (∀ c ∈ e.1, Escapable c) ∧ ∀ c ∈ e.2, Escapable c

def entryPiece (e : Bytes × Bytes) : Piece :=
  ⟨escape e.1, JsonText.quote :: escape e.2 ++ [JsonText.quote], e.1, .string e.2⟩

instance decidableEscapes (e : Bytes × Bytes) : Decidable (Escapes e) :=
  @instDecidableAnd _ _ (List.decidableBAll Escapable e.1) (List.decidableBAll Escapable e.2)

theorem good_entryPiece {e : Bytes × Bytes} (h : Escapes e) : (entryPiece e).Good :=
  ⟨body_escape h.1, reads_string (body_escape h.2)⟩

theorem members_escape_none {name : Bytes} (h : ¬∀ c ∈ name, Escapable c) (fuel : Nat)
    (valueText t : Bytes) : members fuel (memberText (escape name) valueText ++ t) = none := by
  cases fuel with
  | zero => rfl
  | succ fuel =>
    have htext : memberText (escape name) valueText ++ t =
        JsonText.quote :: (escape name ++
          JsonText.quote :: JsonText.colon :: (valueText ++ t)) := by simp [memberText]
    rw [htext, members, expect_self]
    simp only [Option.bind_eq_bind, Option.bind_some]
    rw [chars_escape_none h]
    rfl

theorem bad_entryPiece {e : Bytes × Bytes} (h : ¬Escapes e) : (entryPiece e).Bad := by
  intro fuel t hfuel
  by_cases hname : ∀ c ∈ e.1, Escapable c
  · have hvalue : ¬∀ c ∈ e.2, Escapable c := fun hall => h ⟨hname, hall⟩
    refine Piece.bad_of_value (body_escape hname) (fun fuel t hfuel => ?_) fuel t hfuel
    have htext : (entryPiece e).rawValue ++ t =
        JsonText.quote :: (escape e.2 ++ JsonText.quote :: t) := by simp [entryPiece]
    obtain ⟨fuel, rfl⟩ : ∃ n, fuel = n + 1 := ⟨fuel - 1, by simp [entryPiece] at hfuel; omega⟩
    rw [htext, skipWhitespace_cons rfl, value_quote, chars_escape_none hvalue]
    rfl
  · exact members_escape_none hname fuel _ t

theorem serializeEntries_false (es : List (Bytes × Bytes)) :
    serializeEntries false es =
      es.flatMap (fun e => JsonText.comma :: (entryPiece e).text) := by
  induction es with
  | nil => rfl
  | cons e es ih =>
    rw [serializeEntries, ih, List.flatMap_cons]
    simp [entryPiece, Piece.text, memberText, Jobs.quote, Jobs.comma, Jobs.colon, JsonText.quote,
      JsonText.comma, JsonText.colon]

theorem serializeStatusDetails_eq (m : SortedMap Bytes Bytes) :
    serializeStatusDetails m = objectText (m.entries.map entryPiece) := by
  rw [serializeStatusDetails, objectText]
  cases m.entries with
  | nil => rfl
  | cons e es =>
    rw [serializeEntries, serializeEntries_false, List.map_cons, joined_cons, List.flatMap_map]
    simp [entryPiece, Piece.text, memberText, Jobs.quote, Jobs.colon, Jobs.openBrace,
      Jobs.closeBrace, JsonText.quote, JsonText.colon, JsonText.openBrace, JsonText.closeBrace]

theorem ascii_escapeChar {c : UInt8} (h : c < 0x80) : IsAscii (escapeChar c) := by
  rw [escapeChar]
  split_ifs
  all_goals first | decide | exact List.forall_mem_singleton.2 h

theorem escapeChar_of_high {c : UInt8} (h : 0x80 ≤ c) : escapeChar c = [c] := by
  have hne : ∀ d : UInt8, d < 0x80 → c ≠ d := by
    rintro d hd rfl
    exact absurd hd (UInt8.not_lt.2 h)
  rw [escapeChar, if_neg (hne _ (by decide)), if_neg (hne _ (by decide)),
    if_neg (hne _ (by decide)), if_neg (hne _ (by decide)), if_neg (hne _ (by decide))]

theorem escape_of_high {w : Bytes} (h : ∀ c ∈ w, 0x80 ≤ c) : escape w = w := by
  induction w with
  | nil => rfl
  | cons c w ih =>
    rw [List.forall_mem_cons] at h
    rw [escape, List.flatMap_cons, ← escape, escapeChar_of_high h.1, ih h.2]
    rfl

theorem utf8Sequence_cases {w : Bytes} (h : Utf8Sequence w) :
    (∃ a, w = [a] ∧ a < 0x80) ∨ ∀ c ∈ w, 0x80 ≤ c := by
  have hge : ∀ {low high : Nat} {c : UInt8}, 0x80 ≤ low → InRange low high c → 0x80 ≤ c :=
    fun hlow hc => UInt8.le_iff_toNat_le.2 (le_trans hlow hc.1)
  cases h with
  | one ha => exact .inl ⟨_, rfl, UInt8.lt_iff_toNat_lt.2 (Nat.lt_succ_of_le ha.2)⟩
  | two ha hb => exact .inr (by simp [hge (by decide) ha, hge (by decide) hb])
  | threeE0 ha hb hc | threeE1 ha hb hc | threeED ha hb hc | threeEE ha hb hc =>
    exact .inr (by simp [hge (by decide) ha, hge (by decide) hb, hge (by decide) hc])
  | fourF0 ha hb hc hd | fourF1 ha hb hc hd | fourF4 ha hb hc hd =>
    exact .inr (by
      simp [hge (by decide) ha, hge (by decide) hb, hge (by decide) hc, hge (by decide) hd])

theorem wellFormedUtf8_escape {str : Bytes} (h : WellFormedUtf8 str) :
    WellFormedUtf8 (escape str) := by
  induction h with
  | nil => exact .nil
  | @cons w rest hw _ ih =>
    have happend : escape (w ++ rest) = escape w ++ escape rest := List.flatMap_append
    rw [happend]
    rcases utf8Sequence_cases hw with ⟨a, rfl, ha⟩ | hhigh
    · have hsingle : escape [a] = escapeChar a := List.flatMap_singleton escapeChar a
      rw [hsingle]
      exact wellFormedUtf8_append (wellFormedUtf8_of_ascii (ascii_escapeChar ha)) ih
    · rw [escape_of_high hhigh]
      exact .cons hw ih

def EntriesWellFormed (m : SortedMap Bytes Bytes) : Prop :=
  ∀ e ∈ m.entries, WellFormedUtf8 e.1 ∧ WellFormedUtf8 e.2

theorem wellFormed_entryPiece {e : Bytes × Bytes} (h : WellFormedUtf8 e.1 ∧ WellFormedUtf8 e.2) :
    (entryPiece e).WellFormed :=
  ⟨wellFormedUtf8_escape h.1, wellFormedUtf8_quoted (wellFormedUtf8_escape h.2)⟩

theorem wellFormedUtf8_serializeStatusDetails {m : SortedMap Bytes Bytes}
    (h : EntriesWellFormed m) : WellFormedUtf8 (serializeStatusDetails m) := by
  rw [serializeStatusDetails_eq]
  refine wellFormedUtf8_objectText fun p hp => ?_
  obtain ⟨e, he, rfl⟩ := List.mem_map.1 hp
  exact wellFormed_entryPiece (h e he)

def detailsMembers (m : SortedMap Bytes Bytes) : List (Bytes × JsonValue Decimal) :=
  m.entries.map (fun e => (e.1, .string e.2))

theorem reads_serializeStatusDetails {m : SortedMap Bytes Bytes}
    (h : ∀ e ∈ m.entries, Escapes e) :
    Reads (serializeStatusDetails m) (.object (detailsMembers m)) := by
  have hgood : ∀ p ∈ m.entries.map entryPiece, p.Good := by
    intro p hp
    obtain ⟨e, he, rfl⟩ := List.mem_map.1 hp
    exact good_entryPiece (h e he)
  have hreads := reads_objectText hgood
  rw [List.map_map] at hreads
  rw [serializeStatusDetails_eq]
  exact hreads

/-- The entries up to the first one that is not escaped as it should be. -/
theorem exists_bad_entry {es : List (Bytes × Bytes)} (h : ¬∀ e ∈ es, Escapes e) :
    ∃ before bad more, es.map entryPiece = before ++ bad :: more ∧ (∀ p ∈ before, p.Good) ∧
      bad.Bad := by
  induction es with
  | nil => exact absurd (by simp) h
  | cons e es ih =>
    by_cases he : Escapes e
    · have hes : ¬∀ e ∈ es, Escapes e := fun hall => h (List.forall_mem_cons.2 ⟨he, hall⟩)
      obtain ⟨before, bad, more, heq, hgood, hbad⟩ := ih hes
      refine ⟨entryPiece e :: before, bad, more, by rw [List.map_cons, heq]; rfl, ?_, hbad⟩
      exact List.forall_mem_cons.2 ⟨good_entryPiece he, hgood⟩
    · exact ⟨[], entryPiece e, es.map entryPiece, rfl, by simp, bad_entryPiece he⟩

/-- The details are JSON, and are read as the same map. -/
def RoundTrips (m : SortedMap Bytes Bytes) : Prop :=
  ∃ ms, Denotes (serializeStatusDetails m) (.object ms) ∧ ms.Perm (detailsMembers m)

theorem roundTrips_iff (m : SortedMap Bytes Bytes) (hutf8 : EntriesWellFormed m) :
    RoundTrips m ↔ ∀ e ∈ m.entries, Escapes e := by
  constructor
  · rintro ⟨ms, ⟨-, hparse⟩, -⟩
    by_contra h
    obtain ⟨before, bad, more, heq, hgood, hbad⟩ := exists_bad_entry h
    rw [serializeStatusDetails_eq, heq, parse_bad hgood hbad more] at hparse
    cases hparse
  · intro h
    exact ⟨detailsMembers m, ⟨wellFormedUtf8_serializeStatusDetails hutf8,
      parse_of_reads (reads_serializeStatusDetails h)⟩, .refl _⟩

def oneDetail (key value : Bytes) : SortedMap Bytes Bytes :=
  ⟨[(key, value)], List.pairwise_singleton _ _⟩

theorem entriesWellFormed_oneDetail {key value : Bytes} (hkey : IsAscii key)
    (hvalue : IsAscii value) : EntriesWellFormed (oneDetail key value) := by
  intro e he
  obtain rfl := List.mem_singleton.1 he
  exact ⟨wellFormedUtf8_of_ascii hkey, wellFormedUtf8_of_ascii hvalue⟩

/-- A value with a quote, a backslash and a newline, an empty one and a quoted key. -/
def quotedDetails : SortedMap Bytes Bytes :=
  ((oneDetail (text "k") [0x22, 0x5c, 0x0a]).insert (text "empty") []).insert [0x22] (text "v")

theorem roundTrips_iff_quoted :
    RoundTrips quotedDetails ↔ ∀ e ∈ quotedDetails.entries, Escapes e := by
  refine roundTrips_iff quotedDetails ?_
  intro e he
  have hmem : e ∈ [([0x22], text "v"), (text "empty", []),
    (text "k", [0x22, 0x5c, 0x0a])] := he
  simp only [List.mem_cons, List.not_mem_nil, or_false] at hmem
  rcases hmem with rfl | rfl | rfl <;>
    exact ⟨wellFormedUtf8_of_ascii (by decide), wellFormedUtf8_of_ascii (by decide)⟩

theorem not_roundTrips_startOfHeading :
    EntriesWellFormed (oneDetail (text "k") [0x01]) ∧
      ¬RoundTrips (oneDetail (text "k") [0x01]) := by
  refine ⟨entriesWellFormed_oneDetail (by decide) (by decide), ?_⟩
  rintro ⟨ms, ⟨-, hparse⟩, -⟩
  have hbad : (entryPiece (text "k", [0x01])).Bad := bad_entryPiece (by decide)
  have hnone := parse_bad (List.forall_mem_nil _) hbad []
  have htext : serializeStatusDetails (oneDetail (text "k") [0x01]) =
      objectText ([] ++ [entryPiece (text "k", [0x01])]) := serializeStatusDetails_eq _
  rw [htext, hnone] at hparse
  cases hparse

end Jobs

end AwsIotSdk
