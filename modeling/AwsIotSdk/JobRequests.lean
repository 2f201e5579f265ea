import AwsIotSdk.JobPayloads

/-! The four request payloads as objects: the members each of them is asked for, and the
requests for which exactly these are read back. -/

namespace AwsIotSdk

open JsonText

/-- A status that a request can set has a text. -/
abbrev SettableStatus : Type := { st : JobExecutionStatus // Jobs.getExecutionStatus st ≠ [] }

inductive JobRequest where
  | update (status : SettableStatus) (statusDetailsMap : SortedMap Bytes Bytes)
      (expectedVersion executionNumber : Int) (includeJobExecutionState includeJobDocument : Bool)
  | describe (executionNumber : Int) (includeJobDocument : Bool)
  | startNext (statusDetailsMap : SortedMap Bytes Bytes)
  | clientToken

namespace JobRequest

def payload (s : Jobs) : JobRequest → Bytes
  | update status m version number state document =>
    s.serializeJobExecutionUpdatePayload status m version number state document
  | describe number document => s.serializeDescribeJobExecutionPayload number document
  | startNext m => s.serializeStartNextPendingJobExecutionPayload m
  | clientToken => s.serializeClientTokenPayload

/-! ### The members asked for -/

def stringAsked (name value : Bytes) : Bytes × JsonValue Decimal := (name, .string value)

def detailsAsked (m : SortedMap Bytes Bytes) : List (Bytes × JsonValue Decimal) :=
  if m.entries ≠ [] then [(text "statusDetails", .object (Jobs.detailsMembers m))] else []

def numberAsked (name : Bytes) (n : Int) : List (Bytes × JsonValue Decimal) :=
  if 0 < n then [stringAsked name (Jobs.toDecimal n)] else []

def flagAsked (name : Bytes) (b : Bool) : List (Bytes × JsonValue Decimal) :=
  if b then [stringAsked name (text "true")] else []

def tokenAsked (s : Jobs) : List (Bytes × JsonValue Decimal) :=
  if s.clientToken ≠ [] then [stringAsked (text "clientToken") s.clientToken] else []

def asked (s : Jobs) : JobRequest → List (Bytes × JsonValue Decimal)
  | update status m version number state document =>
    stringAsked (text "status") (Jobs.getExecutionStatus status) :: detailsAsked m ++
      numberAsked (text "expectedVersion") version ++ numberAsked (text "executionNumber") number ++
      flagAsked (text "includeJobExecutionState") state ++
      flagAsked (text "includeJobDocument") document ++ tokenAsked s
  | describe number document =>
    stringAsked (text "includeJobDocument") (Jobs.boolText document) ::
      numberAsked (text "executionNumber") number ++ tokenAsked s
  | startNext m => detailsAsked m ++ tokenAsked s
  | clientToken => tokenAsked s

/-- The payload is a JSON object that has exactly the members asked for. -/
def Meets (s : Jobs) (r : JobRequest) : Prop :=
  ∃ ms, Denotes (r.payload s) (.object ms) ∧ ms.Perm (r.asked s)

/-! ### The payloads as pieces -/

def detailsPiece (m : SortedMap Bytes Bytes) : Piece :=
  ⟨text "statusDetails", Jobs.serializeStatusDetails m, text "statusDetails",
    .object (Jobs.detailsMembers m)⟩

def detailsPieces (m : SortedMap Bytes Bytes) : List Piece :=
  if m.entries ≠ [] then [detailsPiece m] else []

def numberPieces (name : Bytes) (n : Int) : List Piece :=
  if 0 < n then [Piece.verbatim name (Jobs.toDecimal n)] else []

def flagPieces (name : Bytes) (b : Bool) : List Piece :=
  if b then [Piece.verbatim name (text "true")] else []

def tokenPiece (s : Jobs) : Piece := Piece.verbatim (text "clientToken") s.clientToken

def tokenPieces (s : Jobs) : List Piece := if s.clientToken ≠ [] then [tokenPiece s] else []

/-- The pieces before the client token. -/
def pieces : JobRequest → List Piece
  | update status m version number state document =>
    Piece.verbatim (text "status") (Jobs.getExecutionStatus status) :: (detailsPieces m ++
      numberPieces (text "expectedVersion") version ++
      numberPieces (text "executionNumber") number ++
      flagPieces (text "includeJobExecutionState") state ++
      flagPieces (text "includeJobDocument") document)
  | describe number document =>
    Piece.verbatim (text "includeJobDocument") (Jobs.boolText document) ::
      numberPieces (text "executionNumber") number
  | startNext m => detailsPieces m
  | clientToken => []

theorem map_member_ite (c : Prop) [Decidable c] (p : Piece) :
    (if c then [p] else []).map Piece.member = if c then [p.member] else [] := by
  split <;> rfl

theorem asked_eq (s : Jobs) (r : JobRequest) :
    r.asked s = (r.pieces ++ tokenPieces s).map Piece.member := by
  cases r <;>
    simp only [asked, pieces, detailsAsked, numberAsked, flagAsked, tokenAsked, detailsPieces,
      numberPieces, flagPieces, tokenPieces, List.map_append, List.map_cons, map_member_ite,
      List.cons_append, List.append_assoc, List.nil_append] <;> rfl

theorem text_verbatim (name value : Bytes) :
    (Piece.verbatim name value).text = Jobs.stringMember name value := by
  simp [Piece.verbatim, Piece.text, memberText, Jobs.stringMember, Jobs.memberName, Jobs.quote,
    Jobs.colon, JsonText.quote, JsonText.colon]

theorem text_detailsPiece (m : SortedMap Bytes Bytes) :
    (detailsPiece m).text =
      Jobs.memberName (text "statusDetails") ++ Jobs.serializeStatusDetails m := by
  simp [detailsPiece, Piece.text, memberText, Jobs.memberName, Jobs.quote, Jobs.colon,
    JsonText.quote, JsonText.colon]

theorem flatMap_ite (c : Prop) [Decidable c] (p : Piece) :
    (if c then [p] else []).flatMap (fun q => JsonText.comma :: q.text) =
      if c then JsonText.comma :: p.text else [] := by
  split <;> simp

theorem payload_update (s : Jobs) (status : SettableStatus) (m : SortedMap Bytes Bytes)
    (version number : Int) (state document : Bool) :
    (update status m version number state document).payload s =
      objectText ((update status m version number state document).pieces ++ tokenPieces s) := by
  rw [payload, Jobs.serializeJobExecutionUpdatePayload]
  simp only [if_neg status.2]
  simp only [objectText, pieces, List.cons_append, joined_cons, detailsPieces, numberPieces,
    flagPieces, tokenPieces, tokenPiece, List.flatMap_append, flatMap_ite, text_verbatim,
    text_detailsPiece]
  simp [Jobs.openBrace, Jobs.closeBrace, Jobs.comma, JsonText.openBrace, JsonText.closeBrace,
    JsonText.comma]

theorem payload_startNext (s : Jobs) (m : SortedMap Bytes Bytes) :
    (startNext m).payload s = objectText ((startNext m).pieces ++ tokenPieces s) := by
  rw [payload, Jobs.serializeStartNextPendingJobExecutionPayload, pieces, detailsPieces,
    tokenPieces, tokenPiece, objectText]
  split_ifs <;>
    simp [joined, text_verbatim, text_detailsPiece, Jobs.openBrace, Jobs.closeBrace, Jobs.comma,
      JsonText.openBrace, JsonText.closeBrace, JsonText.comma]

theorem payload_clientToken (s : Jobs) :
    clientToken.payload s = objectText (clientToken.pieces ++ tokenPieces s) := by
  rw [payload, Jobs.serializeClientTokenPayload, pieces, tokenPieces, tokenPiece, objectText]
  split_ifs <;>
    simp [joined, text_verbatim, Jobs.openBrace, Jobs.closeBrace, JsonText.openBrace,
      JsonText.closeBrace]

/-- The client token follows without a comma. -/
theorem payload_describe (s : Jobs) (number : Int) (document : Bool) :
    (describe number document).payload s =
      JsonText.openBrace :: (joined (describe number document).pieces ++
        ((if s.clientToken ≠ [] then (tokenPiece s).text else []) ++ [JsonText.closeBrace])) := by
  rw [payload, Jobs.serializeDescribeJobExecutionPayload, pieces, joined_cons, numberPieces,
    flatMap_ite, tokenPiece, text_verbatim, text_verbatim, text_verbatim]
  simp [Jobs.openBrace, Jobs.closeBrace, Jobs.comma, JsonText.openBrace, JsonText.closeBrace,
    JsonText.comma]

/-! ### What the pieces are read as -/

def PlainAscii (str : Bytes) : Prop := ∀ c ∈ str, Plain c ∧ c < 0x80

instance decidablePlainAscii (str : Bytes) : Decidable (PlainAscii str) := List.decidableBAll _ str

theorem PlainAscii.plain {str : Bytes} (h : PlainAscii str) : ∀ c ∈ str, Plain c :=
  fun c hc => (h c hc).1

theorem PlainAscii.ascii {str : Bytes} (h : PlainAscii str) : IsAscii str :=
  fun c hc => (h c hc).2

/-- Read as it is meant, and in UTF-8. -/
def Sound (ps : List Piece) : Prop := ∀ p ∈ ps, p.Good ∧ p.WellFormed

theorem sound_append {ps qs : List Piece} (hps : Sound ps) (hqs : Sound qs) : Sound (ps ++ qs) :=
  List.forall_mem_append.2 ⟨hps, hqs⟩

theorem forall_mem_ite {P : Piece → Prop} {c : Prop} [Decidable c] {p : Piece} (h : c → P p) :
    ∀ q ∈ if c then [p] else [], P q := by
  intro q hq
  split at hq
  next hc =>
    obtain rfl := List.mem_singleton.1 hq
    exact h hc
  · cases hq

theorem wellFormed_verbatim {name value : Bytes} (hname : PlainAscii name)
    (hvalue : WellFormedUtf8 value) : (Piece.verbatim name value).WellFormed :=
  ⟨wellFormedUtf8_of_ascii hname.ascii, wellFormedUtf8_quoted hvalue⟩

theorem sound_verbatim {name value : Bytes} (hname : PlainAscii name) (hvalue : PlainAscii value) :
    (Piece.verbatim name value).Good ∧ (Piece.verbatim name value).WellFormed :=
  ⟨Piece.good_verbatim hname.plain hvalue.plain,
    wellFormed_verbatim hname (wellFormedUtf8_of_ascii hvalue.ascii)⟩

theorem plainAscii_digit {c : Char} (h : c.isDigit = true) :
    Plain (UInt8.ofNat c.toNat) ∧ UInt8.ofNat c.toNat < 0x80 := by
  have hall : ∀ n, n < 58 → 48 ≤ n → Plain (UInt8.ofNat n) ∧ UInt8.ofNat n < 0x80 := by decide
  rw [Char.isDigit_iff_toNat] at h
  exact hall c.toNat (Nat.lt_succ_of_le h.2) h.1

theorem plainAscii_toDecimal {n : Int} (h : 0 < n) : PlainAscii (Jobs.toDecimal n) := by
  obtain ⟨n, rfl⟩ := Int.eq_ofNat_of_zero_le h.le
  intro c hc
  have hdigits : Jobs.toDecimal n = (Nat.toDigits 10 n).map (fun c => UInt8.ofNat c.toNat) := by
    rw [Jobs.toDecimal, text, ← Nat.toList_repr]
    rfl
  rw [hdigits] at hc
  obtain ⟨d, hd, rfl⟩ := List.mem_map.1 hc
  exact plainAscii_digit (Nat.isDigit_of_mem_toDigits (by decide) (by decide) hd)

theorem sound_numberPieces {name : Bytes} (hname : PlainAscii name) (n : Int) :
    Sound (numberPieces name n) :=
  forall_mem_ite fun h => sound_verbatim hname (plainAscii_toDecimal h)

theorem sound_flagPieces {name : Bytes} (hname : PlainAscii name) (b : Bool) :
    Sound (flagPieces name b) :=
  forall_mem_ite fun _ => sound_verbatim hname (by decide)

theorem plainAscii_getExecutionStatus (st : JobExecutionStatus) :
    PlainAscii (Jobs.getExecutionStatus st) := by
  cases st <;> decide

theorem plainAscii_boolText (b : Bool) : PlainAscii (Jobs.boolText b) := by
  cases b <;> decide

theorem plainAscii_statusDetails : PlainAscii (text "statusDetails") := by decide

theorem plainAscii_clientToken : PlainAscii (text "clientToken") := by decide

theorem body_statusDetails : Body (text "statusDetails") (text "statusDetails") :=
  body_of_plain plainAscii_statusDetails.plain

theorem good_detailsPiece {m : SortedMap Bytes Bytes} (h : ∀ e ∈ m.entries, Jobs.Escapes e) :
    (detailsPiece m).Good :=
  ⟨body_statusDetails, Jobs.reads_serializeStatusDetails h⟩

theorem bad_detailsPiece {m : SortedMap Bytes Bytes} (h : ¬∀ e ∈ m.entries, Jobs.Escapes e) :
    (detailsPiece m).Bad := by
  obtain ⟨before, bad, more, heq, hgood, hbad⟩ := Jobs.exists_bad_entry h
  refine Piece.bad_of_value body_statusDetails fun fuel t hfuel => ?_
  have hraw : (detailsPiece m).rawValue = objectText (before ++ bad :: more) := by
    rw [← heq]
    exact Jobs.serializeStatusDetails_eq m
  rw [hraw] at hfuel ⊢
  exact value_objectText_bad hgood hbad more fuel t hfuel

/-- The details of a request that takes none are empty. -/
def statusDetails : JobRequest → SortedMap Bytes Bytes
  | update _ m _ _ _ _ => m
  | startNext m => m
  | describe _ _ | clientToken => .empty

/-- Only the details can be read as something else. -/
theorem pieces_eq (r : JobRequest) :
    ∃ before after, r.pieces = before ++ detailsPieces r.statusDetails ++ after ∧
      Sound before ∧ Sound after := by
  cases r with
  | update status m version number state document =>
    refine ⟨[Piece.verbatim (text "status") (Jobs.getExecutionStatus status)],
      numberPieces (text "expectedVersion") version ++
      (numberPieces (text "executionNumber") number ++
      (flagPieces (text "includeJobExecutionState") state ++
      flagPieces (text "includeJobDocument") document)), by simp [pieces, statusDetails], ?_, ?_⟩
    · exact List.forall_mem_singleton.2
        (sound_verbatim (by decide) (plainAscii_getExecutionStatus status))
    · exact sound_append (sound_numberPieces (by decide) version)
        (sound_append (sound_numberPieces (by decide) number)
        (sound_append (sound_flagPieces (by decide) state) (sound_flagPieces (by decide) document)))
  | describe number document =>
    refine ⟨(describe number document).pieces, [],
      by simp [statusDetails, detailsPieces, SortedMap.empty], ?_, by simp [Sound]⟩
    exact List.forall_mem_cons.2 ⟨sound_verbatim (by decide) (plainAscii_boolText document),
      sound_numberPieces (by decide) number⟩
  | startNext m => exact ⟨[], [], by simp [pieces, statusDetails], by simp [Sound], by simp [Sound]⟩
  | clientToken =>
    exact ⟨[], [], by simp [pieces, statusDetails, detailsPieces, SortedMap.empty],
      by simp [Sound], by simp [Sound]⟩

theorem good_pieces {r : JobRequest} (h : ∀ e ∈ r.statusDetails.entries, Jobs.Escapes e) :
    ∀ p ∈ r.pieces, p.Good := by
  obtain ⟨before, after, heq, hbefore, hafter⟩ := r.pieces_eq
  rw [heq, List.forall_mem_append, List.forall_mem_append]
  have hdetails : ∀ p ∈ detailsPieces r.statusDetails, p.Good :=
    forall_mem_ite fun _ => good_detailsPiece h
  exact ⟨⟨fun p hp => (hbefore p hp).1, hdetails⟩, fun p hp => (hafter p hp).1⟩

theorem wellFormed_pieces {r : JobRequest} (h : Jobs.EntriesWellFormed r.statusDetails) :
    ∀ p ∈ r.pieces, p.WellFormed := by
  obtain ⟨before, after, heq, hbefore, hafter⟩ := r.pieces_eq
  rw [heq, List.forall_mem_append, List.forall_mem_append]
  have hdetails : ∀ p ∈ detailsPieces r.statusDetails, p.WellFormed :=
    forall_mem_ite fun _ => ⟨wellFormedUtf8_of_ascii plainAscii_statusDetails.ascii,
      Jobs.wellFormedUtf8_serializeStatusDetails h⟩
  exact ⟨⟨fun p hp => (hbefore p hp).2, hdetails⟩, fun p hp => (hafter p hp).2⟩

theorem bad_pieces {r : JobRequest} (h : ¬∀ e ∈ r.statusDetails.entries, Jobs.Escapes e) :
    ∃ before bad more, r.pieces = before ++ bad :: more ∧ (∀ p ∈ before, p.Good) ∧ bad.Bad := by
  obtain ⟨before, after, heq, hbefore, -⟩ := r.pieces_eq
  have hne : r.statusDetails.entries ≠ [] := by
    intro hnil
    rw [hnil] at h
    exact h (List.forall_mem_nil _)
  rw [detailsPieces, if_pos hne, List.append_assoc] at heq
  exact ⟨before, detailsPiece r.statusDetails, after, heq, fun p hp => (hbefore p hp).1,
    bad_detailsPiece h⟩

/-! ### The requests whose payloads are what they should be -/

/-- The client token and the details are UTF-8. -/
def WellFormed (s : Jobs) (r : JobRequest) : Prop :=
  WellFormedUtf8 s.clientToken ∧ Jobs.EntriesWellFormed r.statusDetails

def Fits (s : Jobs) : JobRequest → Prop
  | describe _ _ => s.clientToken = []
  | r => (∀ e ∈ r.statusDetails.entries, Jobs.Escapes e) ∧ ∀ c ∈ s.clientToken, Plain c

theorem wellFormed_tokenPieces {s : Jobs} (h : WellFormedUtf8 s.clientToken) :
    ∀ p ∈ tokenPieces s, p.WellFormed :=
  forall_mem_ite fun _ => wellFormed_verbatim plainAscii_clientToken h

theorem good_tokenPieces {s : Jobs} (h : ∀ c ∈ s.clientToken, Plain c) :
    ∀ p ∈ tokenPieces s, p.Good :=
  forall_mem_ite fun _ => Piece.good_verbatim plainAscii_clientToken.plain h

theorem meets_of_payload {s : Jobs} {r : JobRequest}
    (hpayload : r.payload s = objectText (r.pieces ++ tokenPieces s)) (h : WellFormed s r)
    (hdetails : ∀ e ∈ r.statusDetails.entries, Jobs.Escapes e)
    (htoken : ∀ c ∈ s.clientToken, Plain c) : Meets s r := by
  have hgood : ∀ p ∈ r.pieces ++ tokenPieces s, p.Good :=
    List.forall_mem_append.2 ⟨good_pieces hdetails, good_tokenPieces htoken⟩
  have hwell : ∀ p ∈ r.pieces ++ tokenPieces s, p.WellFormed :=
    List.forall_mem_append.2 ⟨wellFormed_pieces h.2, wellFormed_tokenPieces h.1⟩
  refine ⟨(r.pieces ++ tokenPieces s).map Piece.member, ⟨?_, ?_⟩, ?_⟩
  · rw [hpayload]
    exact wellFormedUtf8_objectText hwell
  · rw [hpayload]
    exact parse_of_reads (reads_objectText hgood)
  · rw [asked_eq]

theorem fits_of_payload {s : Jobs} {r : JobRequest}
    (hpayload : r.payload s = objectText (r.pieces ++ tokenPieces s)) (h : Meets s r) :
    (∀ e ∈ r.statusDetails.entries, Jobs.Escapes e) ∧ ∀ c ∈ s.clientToken, Plain c := by
  obtain ⟨ms, ⟨-, hparse⟩, hperm⟩ := h
  rw [hpayload] at hparse
  rw [asked_eq] at hperm
  have hdetails : ∀ e ∈ r.statusDetails.entries, Jobs.Escapes e := by
    by_contra hbad
    obtain ⟨before, bad, more, heq, hgood, hbad⟩ := bad_pieces hbad
    rw [heq, List.append_assoc, List.cons_append, parse_bad hgood hbad] at hparse
    cases hparse
  refine ⟨hdetails, ?_⟩
  by_cases hempty : s.clientToken = []
  · rw [hempty]
    exact List.forall_mem_nil _
  · rw [tokenPieces, if_pos hempty] at hparse hperm
    exact plain_of_parse (good_pieces hdetails) plainAscii_clientToken.plain hparse hperm

theorem meets_describe_iff {s : Jobs} {number : Int} {document : Bool}
    (h : WellFormed s (describe number document)) :
    Meets s (describe number document) ↔ s.clientToken = [] := by
  have hnoDetails : ∀ e ∈ (describe number document).statusDetails.entries, Jobs.Escapes e :=
    List.forall_mem_nil _
  have hdescribe := payload_describe s number document
  constructor
  · rintro ⟨ms, ⟨-, hparse⟩, -⟩
    by_contra hempty
    rw [hdescribe, if_pos hempty] at hparse
    have hnone := parse_missing_comma (by simp [pieces]) (good_pieces hnoDetails)
      (text "clientToken" ++ JsonText.quote :: JsonText.colon :: (tokenPiece s).rawValue ++
        [JsonText.closeBrace])
    have htext : (tokenPiece s).text ++ [JsonText.closeBrace] =
        JsonText.quote :: (text "clientToken" ++ JsonText.quote :: JsonText.colon ::
          (tokenPiece s).rawValue ++ [JsonText.closeBrace]) := rfl
    rw [htext, hnone] at hparse
    cases hparse
  · intro hempty
    refine meets_of_payload ?_ h hnoDetails ?_
    · rw [hdescribe, tokenPieces, if_neg (not_not_intro hempty), if_neg (not_not_intro hempty)]
      simp [objectText]
    · rw [hempty]
      exact List.forall_mem_nil _

theorem meets_iff (s : Jobs) (r : JobRequest) (h : WellFormed s r) : Meets s r ↔ Fits s r := by
  cases r with
  | update status m version number state document =>
    have hpayload := payload_update s status m version number state document
    exact ⟨fits_of_payload hpayload, fun hfits => meets_of_payload hpayload h hfits.1 hfits.2⟩
  | describe number document => exact meets_describe_iff h
  | startNext m =>
    have hpayload := payload_startNext s m
    exact ⟨fits_of_payload hpayload, fun hfits => meets_of_payload hpayload h hfits.1 hfits.2⟩
  | clientToken =>
    have hpayload := payload_clientToken s
    exact ⟨fits_of_payload hpayload, fun hfits => meets_of_payload hpayload h hfits.1 hfits.2⟩

def tokenJobs : Jobs := ⟨text "thing", text "token"⟩

/-- An update with all that it can have, and a described job. -/
def fullUpdate : JobRequest :=
  update ⟨.jobExecutionInProgress, by decide⟩ (Jobs.oneDetail (text "k") (text "v")) 3 7 true true

theorem meets_iff_token :
    (Meets tokenJobs fullUpdate ↔ Fits tokenJobs fullUpdate) ∧
      (Meets tokenJobs (describe 7 true) ↔ Fits tokenJobs (describe 7 true)) :=
  ⟨meets_iff tokenJobs fullUpdate ⟨wellFormedUtf8_of_ascii (by decide),
      Jobs.entriesWellFormed_oneDetail (by decide) (by decide)⟩,
    meets_iff tokenJobs (describe 7 true)
      ⟨wellFormedUtf8_of_ascii (by decide), List.forall_mem_nil _⟩⟩

theorem not_meets_describe :
    WellFormed tokenJobs (describe 0 true) ∧ ¬Meets tokenJobs (describe 0 true) := by
  have h : WellFormed tokenJobs (describe 0 true) :=
    ⟨wellFormedUtf8_of_ascii (by decide), List.forall_mem_nil _⟩
  exact ⟨h, fun hmeets => absurd ((meets_describe_iff h).1 hmeets) (by decide)⟩

end JobRequest

end AwsIotSdk
