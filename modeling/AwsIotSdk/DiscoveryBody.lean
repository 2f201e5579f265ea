import AwsIotSdk.DiscoveryReads

/-! The responses of a discovery server, and when the reader returns the body of one. The
skipping of the header ends at any read that brings nothing, and the body is then taken from
the rest of the header. -/

namespace AwsIotSdk

def lower (c : UInt8) : UInt8 := if 0x41 ≤ c ∧ c ≤ 0x5a then c + 0x20 else c

/-- A header line with the field, in any case of its letters. -/
def HasField (name line : Bytes) : Prop :=
  ∃ field value, line = field ++ 0x3a :: value ∧ field.map lower = name

/-- The value of the field is a number between blanks. -/
def GivesNumber (name line : Bytes) (n : Nat) : Prop :=
  ∃ field before digits after, line = field ++ 0x3a :: (before ++ digits ++ after) ∧
    field.map lower = name ∧ (∀ c ∈ before ++ after, c = 0x20 ∨ c = 0x09) ∧ digits ≠ [] ∧
    (∀ c ∈ digits, Ascii.isDigit c = true) ∧ decimal digits = n

/-- A response with the status 200, and the header lines before and after the one that gives
the length of the body. -/
structure HttpResponse where
  statusLine : Bytes
  before : List Bytes
  contentLength : Bytes
  after : List Bytes
  body : Bytes
  ok : ∃ version reason, statusLine = text "HTTP/" ++ version ++ text " 200 " ++ reason
  lines : ∀ l ∈ statusLine :: contentLength :: (before ++ after), l ≠ [] ∧ 0x0d ∉ l
  gives : GivesNumber (text "content-length") contentLength body.length
  only : ∀ l ∈ before ++ after, ¬HasField (text "content-length") l
  nonempty : body ≠ []

open DiscoverAction

namespace HttpResponse

def linesText (ls : List Bytes) : Bytes := ls.flatMap (· ++ crlf)

/-- What stands between the line with the content length and the body. -/
def restOfHeader (r : HttpResponse) : Bytes := linesText r.after ++ crlf

def text (r : HttpResponse) : Bytes :=
  r.statusLine ++ crlf ++ (linesText r.before ++
    (r.contentLength ++ crlf ++ (r.restOfHeader ++ r.body)))

/-- A call that succeeds has read the body. -/
def ReturnsBody (r : HttpResponse) (threadContinue : Bool) (timeLeft : Nat)
    (tape : List Delivery) : Prop :=
  ∀ payload c, readResponseFromNetwork threadContinue timeLeft
    (⟨true, tape⟩ : StreamConnection) [] = some (.success, payload, c) → payload = r.body

end HttpResponse

/-! ### Lines -/

theorem append_cr_eq {L z s r : Bytes} (hL : 0x0d ∉ L)
    (h : z ++ 0x0d :: s = L ++ 0x0d :: r) :
    (z = L ∧ s = r) ∨ ∃ z', z = L ++ 0x0d :: z' ∧ z' ++ 0x0d :: s = r := by
  rcases List.append_eq_append_iff.1 h with ⟨a, rfl, ha⟩ | ⟨c, rfl, hc⟩
  · cases a with
    | nil =>
      rw [List.nil_append, List.cons.injEq] at ha
      exact .inl ⟨(List.append_nil z).symm, ha.2⟩
    | cons d a =>
      rw [List.cons_append, List.cons.injEq] at ha
      exact absurd (by simp [← ha.1]) hL
  · cases c with
    | nil =>
      rw [List.nil_append, List.cons.injEq] at hc
      exact .inl ⟨List.append_nil L, hc.2.symm⟩
    | cons d c =>
      rw [List.cons_append, List.cons.injEq] at hc
      obtain ⟨rfl, rfl⟩ := hc
      exact .inr ⟨c, rfl, rfl⟩

/-- A line ends at its first line break. -/
theorem crlf_suffix_iff {L p : Bytes} (hL : 0x0d ∉ L) (hp : p <+: L ++ crlf) :
    crlf <:+ p ↔ p = L ++ crlf := by
  constructor
  · rintro ⟨z, rfl⟩
    obtain ⟨q, hq⟩ := hp
    have heq : z ++ 0x0d :: (0x0a :: q) = L ++ 0x0d :: [0x0a] := by
      simpa [crlf] using hq
    rcases append_cr_eq hL heq with ⟨rfl, -⟩ | ⟨z', -, hz'⟩
    · rfl
    · have hlen := congrArg List.length hz'
      simp at hlen
      omega
  · rintro rfl
    exact List.suffix_append L crlf

theorem blankLine_suffix {L : Bytes} (hL : 0x0d ∉ L) {ls : List Bytes}
    (hls : ∀ l ∈ ls, l ≠ [] ∧ 0x0d ∉ l) {z q : Bytes}
    (h : z ++ (crlf ++ crlf) ++ q = L ++ crlf ++ (HttpResponse.linesText ls ++ crlf)) :
    q = [] := by
  induction ls generalizing L z with
  | nil =>
    have heq : z ++ 0x0d :: (0x0a :: (crlf ++ q)) = L ++ 0x0d :: (0x0a :: crlf) := by
      simpa [crlf, HttpResponse.linesText] using h
    rcases append_cr_eq hL heq with ⟨-, hs⟩ | ⟨z', -, hz'⟩
    · simpa [crlf] using hs
    · have hlen := congrArg List.length hz'
      simp [crlf] at hlen
      omega
  | cons l ls ih =>
    rw [List.forall_mem_cons] at hls
    have hrest : HttpResponse.linesText (l :: ls) ++ crlf =
        l ++ crlf ++ (HttpResponse.linesText ls ++ crlf) := by
      simp [HttpResponse.linesText]
    rw [hrest] at h
    have heq : z ++ 0x0d :: (0x0a :: (crlf ++ q)) =
        L ++ 0x0d :: (0x0a :: (l ++ crlf ++ (HttpResponse.linesText ls ++ crlf))) := by
      simpa [crlf] using h
    rcases append_cr_eq hL heq with ⟨-, hs⟩ | ⟨z', -, hz'⟩
    · obtain ⟨c, l', rfl⟩ := List.exists_cons_of_ne_nil hls.1.1
      have hc : c = 0x0d := by
        have := congrArg (fun t => t.drop 1 |>.head?) hs
        simpa [crlf] using this.symm
      exact absurd (by simp [hc]) hls.1.2
    · cases z' with
      | nil => simp at hz'
      | cons d z' =>
        rw [List.cons_append, List.cons.injEq] at hz'
        refine ih hls.1.2 hls.2 (z := z') ?_
        simpa [crlf] using hz'.2

theorem infix_append_iff {p l q : Bytes} (h : ∀ c ∈ p, c ∉ q) : p <:+: l ++ q ↔ p <:+: l := by
  constructor
  · rintro ⟨s, t, hst⟩
    rcases List.append_eq_append_iff.1 hst with ⟨a, ha, -⟩ | ⟨c, hc, hq⟩
    · exact ⟨s, a, ha.symm⟩
    · have hdisjoint : ∀ d, d ∈ p → d ∈ c → False := fun d hd hdc =>
        h d hd (hq ▸ List.mem_append_left t hdc)
      rcases List.append_eq_append_iff.1 hc with ⟨a, rfl, rfl⟩ | ⟨d, rfl, rfl⟩
      · cases c with
        | nil => exact ⟨s, [], by simp⟩
        | cons d c => exact (hdisjoint d (by simp) (by simp)).elim
      · cases p with
        | nil => exact List.nil_infix
        | cons d p => exact (hdisjoint d (by simp) (by simp)).elim
  · rintro ⟨s, t, rfl⟩
    exact ⟨s, t ++ q, by simp⟩

/-! ### What is read of a response -/

namespace DiscoverAction

variable {tc : Bool}

/-- The next byte of a line: the last one of its break, or one before that. -/
theorem lineByte_cases {buf rem L y : Bytes} {t u : List Delivery} {b : UInt8} (hL : 0x0d ∉ L)
    (hrem : buf ++ rem = L ++ crlf) (hne : rem ≠ []) (ht : tapeBytes t = rem ++ y)
    (hnext : nextByte tc t = (some b, u)) :
    (crlf <:+ buf ++ [b] ∧ buf ++ [b] = L ++ crlf ∧ tapeBytes u = y) ∨
    ¬crlf <:+ buf ++ [b] ∧ ∃ rem', rem' ≠ [] ∧ buf ++ [b] ++ rem' = L ++ crlf ∧
      tapeBytes u = rem' ++ y := by
  obtain ⟨b', rem, rfl⟩ := List.exists_cons_of_ne_nil hne
  rw [(nextByte_some hnext).1, List.cons_append, List.cons.injEq] at ht
  obtain ⟨rfl, hu⟩ := ht
  have hrest : buf ++ [b] ++ rem = L ++ crlf := by
    rw [← hrem]
    simp
  by_cases hnil : rem = []
  · subst hnil
    rw [List.append_nil] at hrest
    exact .inl ⟨hrest ▸ List.suffix_append L crlf, hrest, hu⟩
  · refine .inr ⟨fun hends => hnil ?_, rem, hnil, hrest, hu⟩
    have hall := (crlf_suffix_iff hL ⟨rem, hrest⟩).1 hends
    rw [← hall] at hrest
    simpa using hrest

theorem ReadsStatus.line {k k' : Nat} {buf line rem L y : Bytes} {t u : List Delivery}
    (h : ReadsStatus tc k buf t line k' u) (hL : 0x0d ∉ L) (hrem : buf ++ rem = L ++ crlf)
    (hne : rem ≠ []) (ht : tapeBytes t = rem ++ y) : line = L ++ crlf ∧ tapeBytes u = y := by
  induction h generalizing rem with
  | ends hnext hends =>
    rcases lineByte_cases hL hrem hne ht hnext with ⟨-, hall, hu⟩ | ⟨hopen, -⟩
    · exact ⟨hall, hu⟩
    · exact absurd hends hopen
  | byte hnext hends _ ih =>
    rcases lineByte_cases hL hrem hne ht hnext with ⟨hcrlf, -⟩ | ⟨-, rem', hne', hrem', hu⟩
    · exact absurd hcrlf hends
    · exact ih hrem' hne' hu
  | again hnext _ ih =>
    rw [nextByte_none hnext] at ht
    exact ih hrem hne ht

/-- The search takes a marked line, and goes on behind any other. -/
theorem ReadsLength.line {k k' : Nat} {buf line rem L y : Bytes} {t u : List Delivery}
    (h : ReadsLength tc k buf t line k' u) (hL : 0x0d ∉ L) (hrem : buf ++ rem = L ++ crlf)
    (hne : rem ≠ []) (ht : tapeBytes t = rem ++ y) :
    if contentLengthString <:+: L ++ crlf then line = L ++ crlf ∧ tapeBytes u = y
    else ∃ k1 t1, tapeBytes t1 = y ∧ ReadsLength tc k1 [] t1 line k' u := by
  induction h generalizing rem with
  | found hnext hends hmarked =>
    rcases lineByte_cases hL hrem hne ht hnext with ⟨-, hall, hu⟩ | ⟨hopen, -⟩
    · rw [← hall, if_pos hmarked]
      exact ⟨rfl, hu⟩
    · exact absurd hends hopen
  | other hnext hends hmarked hrest _ =>
    rcases lineByte_cases hL hrem hne ht hnext with ⟨-, hall, hu⟩ | ⟨hopen, -⟩
    · rw [← hall, if_neg hmarked]
      exact ⟨_, _, hu, hrest⟩
    · exact absurd hends hopen
  | byte hnext hends _ ih =>
    rcases lineByte_cases hL hrem hne ht hnext with ⟨hcrlf, -⟩ | ⟨-, rem', hne', hrem', hu⟩
    · exact absurd hcrlf hends
    · exact ih hrem' hne' hu

/-- The bytes come one read after the other. -/
inductive ByteByByte (tc : Bool) : List Delivery → Bytes → List Delivery → Prop
  | nil (t : List Delivery) : ByteByByte tc t [] t
  | cons {t u v : List Delivery} {b : UInt8} {w : Bytes} : nextByte tc t = (some b, u) →
      ByteByByte tc u w v → ByteByByte tc t (b :: w) v

theorem ByteByByte.uncons {t u v : List Delivery} {w : Bytes} {o : Option UInt8}
    (h : ByteByByte tc t w v) (hne : w ≠ []) (hnext : nextByte tc t = (o, u)) :
    ∃ b w', o = some b ∧ w = b :: w' ∧ ByteByByte tc u w' v := by
  cases h with
  | nil => exact absurd rfl hne
  | @cons _ _ _ b w' hfirst hrest =>
    rw [hnext] at hfirst
    cases hfirst
    exact ⟨b, w', rfl, rfl, hrest⟩

/-- Where nothing comes in between, the skipping ends behind the blank line. -/
theorem Skips.eq_of_byteByByte {k : Nat} {buf w : Bytes} {t v t' : List Delivery}
    (h : Skips tc k buf t v) (hbytes : ByteByByte tc t w t') (hne : w ≠ [])
    (hk : w.length ≤ k + 1)
    (hblank : ∀ p, p <+: w → p ≠ [] → (crlf ++ crlf <:+ buf ++ p ↔ p = w)) : v = t' := by
  induction h generalizing w with
  | dry hnext =>
    obtain ⟨b, w, hnone, -⟩ := hbytes.uncons hne hnext
    cases hnone
  | late hnext =>
    obtain ⟨b, w, hsome, rfl, hrest⟩ := hbytes.uncons hne hnext
    obtain rfl : w = [] := List.length_eq_zero_iff.1 (by simpa using hk)
    cases hrest
    rfl
  | @blank k buf t u b hnext hends =>
    obtain ⟨c, w, hsome, rfl, hrest⟩ := hbytes.uncons hne hnext
    obtain rfl := Option.some.inj hsome
    have hall := (hblank [b] (by simp) (by simp)).1 hends
    rw [List.cons.injEq] at hall
    obtain ⟨-, rfl⟩ := hall
    cases hrest
    rfl
  | @byte k buf t u v b hnext hends _ ih =>
    obtain ⟨c, w, hsome, rfl, hrest⟩ := hbytes.uncons hne hnext
    obtain rfl := Option.some.inj hsome
    have hw : w ≠ [] := by
      rintro rfl
      exact hends ((hblank [b] (by simp) (by simp)).2 rfl)
    refine ih hrest hw (by simpa using hk) fun p hp hpne => ?_
    have hlonger := hblank (b :: p) (List.cons_prefix_cons.2 ⟨rfl, hp⟩) (by simp)
    rw [List.append_assoc, List.singleton_append, hlonger, List.cons.injEq]
    simp

end DiscoverAction

/-! ### The number of the header -/

theorem isSpace_of_blank {c : UInt8} (h : c = 0x20 ∨ c = 0x09) : isSpace c = true := by
  rcases h with rfl | rfl <;> rfl

theorem isDigit_of_blank {c : UInt8} (h : c = 0x20 ∨ c = 0x09) : Ascii.isDigit c = false := by
  rcases h with rfl | rfl <;> rfl

theorem isDigit_ne_sign {c : UInt8} (h : Ascii.isDigit c = true) :
    c ≠ 0x2d ∧ c ≠ 0x2b ∧ isSpace c = false := by
  rw [Ascii.isDigit, Bool.and_eq_true, decide_eq_true_eq, decide_eq_true_eq] at h
  refine ⟨?_, ?_, ?_⟩
  · rintro rfl
    exact absurd h.1 (by decide)
  · rintro rfl
    exact absurd h.1 (by decide)
  · rw [isSpace, Bool.or_eq_false_iff, Bool.and_eq_false_iff, decide_eq_false_iff_not,
      decide_eq_false_iff_not, decide_eq_false_iff_not]
    refine ⟨?_, .inr fun hle => absurd (UInt8.le_trans h.1 hle) (by decide)⟩
    rintro rfl
    exact absurd h.1 (by decide)

theorem takeWhile_digits {digits after : Bytes} (hdigits : ∀ c ∈ digits, Ascii.isDigit c = true)
    (hafter : ∀ c ∈ after, c = 0x20 ∨ c = 0x09) :
    (digits ++ after).takeWhile Ascii.isDigit = digits := by
  rw [List.takeWhile_append_of_pos hdigits]
  cases after with
  | nil => simp
  | cons c after =>
    rw [List.takeWhile_cons_of_neg (by simp [isDigit_of_blank (hafter c (by simp))])]
    exact List.append_nil digits

/-- A number between blanks is read as it is, unless it is out of range. -/
theorem stoul_digits {before digits after : Bytes} {m : Nat}
    (hbefore : ∀ c ∈ before, c = 0x20 ∨ c = 0x09) (hdigits : ∀ c ∈ digits, Ascii.isDigit c = true)
    (hne : digits ≠ []) (hafter : ∀ c ∈ after, c = 0x20 ∨ c = 0x09)
    (h : stoul (before ++ digits ++ after) = some m) : m = decimal digits := by
  obtain ⟨d, ds, rfl⟩ := List.exists_cons_of_ne_nil hne
  obtain ⟨hminus, hplus, hspace⟩ := isDigit_ne_sign (hdigits d (by simp))
  have hdrop : (before ++ d :: ds ++ after).dropWhile isSpace = d :: ds ++ after := by
    rw [List.append_assoc,
      List.dropWhile_append_of_pos (fun c hc => isSpace_of_blank (hbefore c hc))]
    exact List.dropWhile_cons_of_neg (by simp [hspace])
  have htake := takeWhile_digits hdigits hafter
  rw [stoul, hdrop] at h
  simp only [List.cons_append, List.head?_cons, Option.some.injEq, hminus, hplus, or_self,
    if_false] at h
  rw [List.cons_append] at htake
  rw [htake] at h
  split at h
  · cases h
  · exact (Option.some.inj h).symm

theorem find_prefix {p s : Bytes} (h : p <+: s) : find p s = some 0 := by
  cases s with
  | nil => rw [find, if_pos (List.prefix_nil.1 h)]
  | cons c s => rw [find, if_pos (List.isPrefixOf_iff_prefix.2 h)]

theorem contentLengthText_append {tail : Bytes} (h : 0x0d ∉ tail) :
    contentLengthText (contentLengthString ++ tail ++ crlf) 0 = tail := by
  rw [contentLengthText, Nat.zero_add, List.append_assoc, List.drop_left,
    List.takeWhile_append_of_pos (by simpa using fun c hc (heq : c = 0x0d) => h (heq ▸ hc))]
  exact List.append_nil tail

theorem announced_eq {line : Bytes} {n m : Nat} (hcr : 0x0d ∉ line)
    (hgives : GivesNumber (text "content-length") line n) (hform : contentLengthString <+: line)
    (h : announced (line ++ crlf) = some m) : m = n := by
  obtain ⟨field, before, digits, after, rfl, hfield, hblank, hne, hdigits, rfl⟩ := hgives
  obtain ⟨tail, htail⟩ := hform
  have hlength : field.length = (text "content-length").length := by
    rw [← hfield, List.length_map]
  have hmarker : contentLengthString = text "content-length" ++ [0x3a, 0x20] := by decide
  have hcrTail : 0x0d ∉ tail := by
    rw [← htail] at hcr
    exact fun hmem => hcr (List.mem_append_right _ hmem)
  rw [← htail, announced, find_prefix (List.append_assoc contentLengthString tail crlf ▸
    List.prefix_append _ _), Option.bind_some, contentLengthText_append hcrTail] at h
  rw [hmarker, List.append_assoc] at htail
  obtain ⟨-, hvalue⟩ := List.append_inj htail hlength.symm
  rw [List.cons_append, List.cons.injEq] at hvalue
  have hspace : 0x20 :: tail = before ++ digits ++ after := hvalue.2
  rw [List.forall_mem_append] at hblank
  cases before with
  | nil =>
    obtain ⟨d, ds, rfl⟩ := List.exists_cons_of_ne_nil hne
    rw [List.nil_append, List.cons_append, List.cons.injEq] at hspace
    exact absurd (hdigits d (by simp)) (by rw [← hspace.1]; decide)
  | cons b before =>
    rw [List.cons_append, List.cons_append, List.cons.injEq] at hspace
    rw [hspace.2] at h
    exact stoul_digits (fun c hc => hblank.1 c (List.mem_cons_of_mem b hc)) hdigits hne hblank.2 h

/-! ### The body -/

namespace HttpResponse

variable {r : HttpResponse} {tc : Bool} {timeLeft : Nat} {tape : List Delivery}

theorem crlf_suffix_lines (L : Bytes) (ls : List Bytes) :
    crlf <:+ L ++ crlf ++ linesText ls := by
  induction ls generalizing L with
  | nil => exact ⟨L, by simp [linesText]⟩
  | cons l ls ih =>
    have heq : L ++ crlf ++ linesText (l :: ls) = L ++ crlf ++ l ++ crlf ++ linesText ls := by
      simp [linesText]
    rw [heq]
    exact ih (L ++ crlf ++ l)

theorem blankLine_iff (r : HttpResponse) {p : Bytes} (hp : p <+: r.restOfHeader) :
    crlf ++ crlf <:+ r.contentLength ++ crlf ++ p ↔ p = r.restOfHeader := by
  constructor
  · rintro ⟨z, hz⟩
    obtain ⟨q, hq⟩ := hp
    have hlines : ∀ l ∈ r.after, l ≠ [] ∧ 0x0d ∉ l := fun l hl => r.lines l (by simp [hl])
    have heq : z ++ (crlf ++ crlf) ++ q =
        r.contentLength ++ crlf ++ (linesText r.after ++ crlf) := by
      rw [hz, List.append_assoc, hq]
      rfl
    have hnil := blankLine_suffix (r.lines r.contentLength (by simp)).2 hlines heq
    rw [← hq, hnil, List.append_nil]
  · rintro rfl
    obtain ⟨z, hz⟩ := crlf_suffix_lines r.contentLength r.after
    exact ⟨z, by rw [restOfHeader, ← List.append_assoc, ← List.append_assoc, hz]⟩

theorem readsLength_before {before : List Bytes} (hbefore : ∀ l ∈ before,
    0x0d ∉ l ∧ ¬contentLengthString <:+: l ++ crlf) {L y : Bytes} (hL : 0x0d ∉ L)
    (hmarked : contentLengthString <:+: L ++ crlf) {k k' : Nat} {line : Bytes}
    {t u : List Delivery} (h : ReadsLength tc k [] t line k' u)
    (ht : tapeBytes t = linesText before ++ (L ++ crlf ++ y)) :
    line = L ++ crlf ∧ tapeBytes u = y := by
  induction before generalizing k t with
  | nil =>
    have hline := h.line hL rfl (by simp [crlf]) ht
    rw [if_pos hmarked] at hline
    exact hline
  | cons l before ih =>
    rw [List.forall_mem_cons] at hbefore
    have htext : tapeBytes t = l ++ crlf ++ (linesText before ++ (L ++ crlf ++ y)) := by
      rw [ht]
      simp [linesText]
    have hline := h.line hbefore.1.1 rfl (by simp [crlf]) htext
    rw [if_neg hbefore.1.2] at hline
    obtain ⟨k1, t1, ht1, hrest⟩ := hline
    exact ih hbefore.2 hrest ht1

/-- The content length is the first line with the text of the search. -/
def Marked (r : HttpResponse) : Prop :=
  contentLengthString <+: r.contentLength ∧ ∀ l ∈ r.before, ¬contentLengthString <:+: l

/-- Behind the line that is found, the bytes up to the body come one read after the other,
before the deadline. -/
def Undisturbed (r : HttpResponse) (tc : Bool) (timeLeft : Nat) (tape : List Delivery) : Prop :=
  ∀ line k rest, HeaderRead tc timeLeft tape line k rest →
    r.restOfHeader.length ≤ k + 1 ∧ ∃ rest', ByteByByte tc rest r.restOfHeader rest'

theorem marker_infix_iff (l : Bytes) :
    contentLengthString <:+: l ++ crlf ↔ contentLengthString <:+: l := by
  have hall : contentLengthString.all (fun c => decide (c ∉ crlf)) = true := by decide
  exact infix_append_iff (fun c hc => of_decide_eq_true (List.all_eq_true.1 hall c hc))

theorem Marked.headerRead (hmarked : r.Marked) (htape : tapeBytes tape = r.text) {line : Bytes}
    {k : Nat} {rest : List Delivery} (h : HeaderRead tc timeLeft tape line k rest) :
    line = r.contentLength ++ crlf ∧ tapeBytes rest = r.restOfHeader ++ r.body := by
  obtain ⟨status, k1, t, hstatus, -, hlength⟩ := h
  have hbefore : ∀ l ∈ r.before, 0x0d ∉ l ∧ ¬contentLengthString <:+: l ++ crlf := fun l hl =>
    ⟨(r.lines l (by simp [hl])).2, mt (marker_infix_iff l).1 (hmarked.2 l hl)⟩
  have hfirst := hstatus.line (r.lines r.statusLine (by simp)).2 rfl (by simp [crlf]) htape
  exact readsLength_before hbefore (r.lines r.contentLength (by simp)).2
    ((marker_infix_iff _).2 hmarked.1.isInfix) hlength hfirst.2

theorem tapeBytes_byteByByte {t u : List Delivery} {w : Bytes} (h : ByteByByte tc t w u) :
    tapeBytes t = w ++ tapeBytes u := by
  induction h with
  | nil => rfl
  | cons hnext _ ih => rw [(nextByte_some hnext).1, ih, List.cons_append]

theorem Marked.asksFor (hmarked : r.Marked) (htape : tapeBytes tape = r.text)
    (hundisturbed : r.Undisturbed tc timeLeft tape) {m : Nat} {rest : List Delivery}
    (h : AsksFor tc timeLeft tape m rest) : m = r.body.length ∧ tapeBytes rest = r.body := by
  obtain ⟨line, k, t, hheader, hannounced, -, hskips⟩ := h
  obtain ⟨hk, rest', hbytes⟩ := hundisturbed line k t hheader
  obtain ⟨rfl, ht⟩ := hmarked.headerRead htape hheader
  have hrest : rest = rest' :=
    hskips.eq_of_byteByByte hbytes (by simp [restOfHeader, crlf]) hk
      (fun p hp _ => r.blankLine_iff hp)
  rw [tapeBytes_byteByByte hbytes, List.append_cancel_left_eq] at ht
  exact ⟨announced_eq (r.lines r.contentLength (by simp)).2 r.gives hmarked.1 hannounced,
    hrest ▸ ht⟩

theorem length_take_of_fills {t : List Delivery} {m : Nat} (h : Fills tc t m) :
    ((tapeBytes t).take m).length = m := by
  obtain ⟨w, rfl, hw⟩ := h
  cases tc with
  | true =>
    obtain ⟨rest, hdel⟩ := hw
    rw [Delivers.tapeBytes_take hdel]
  | false =>
    obtain ⟨rest, rfl⟩ := hw
    rw [tapeBytes_append, tapeBytes_map_byte, List.take_left]

/-- The number asked for is the length of the body, and what is left begins with the body. -/
theorem returnsBody_iff_asksFor (r : HttpResponse) (tc : Bool) (timeLeft : Nat)
    (tape : List Delivery) :
    r.ReturnsBody tc timeLeft tape ↔ ∀ m rest, AsksFor tc timeLeft tape m rest →
      Fills tc rest m → m = r.body.length ∧ r.body <+: tapeBytes rest := by
  constructor
  · intro h m rest hasks hfills
    obtain ⟨c, hcall⟩ := (readResponseFromNetwork_success_iff timeLeft tape _).2
      ⟨m, rest, hasks, hfills, rfl⟩
    have hbody := h _ c hcall
    have hlength := length_take_of_fills hfills
    rw [hbody] at hlength
    exact ⟨hlength.symm, hbody ▸ List.take_prefix m (tapeBytes rest)⟩
  · intro h payload c hcall
    obtain ⟨m, rest, hasks, hfills, rfl⟩ :=
      (readResponseFromNetwork_success_iff timeLeft tape payload).1 ⟨c, hcall⟩
    obtain ⟨rfl, hprefix⟩ := h m rest hasks hfills
    exact (List.prefix_iff_eq_take.1 hprefix).symm

theorem body_suffix_text (r : HttpResponse) : r.body <:+ r.text :=
  ((List.suffix_append r.restOfHeader r.body).trans (List.suffix_append _ _)).trans
    ((List.suffix_append _ _).trans (List.suffix_append _ _))

/-- The body is read when the content length is the line that is found and nothing comes
between it and the body; and exactly when the number asked for is the length of the body,
and what is left unread of the header, with the body behind it, begins with the body. -/
theorem returnsBody_iff (r : HttpResponse) (tc : Bool) (timeLeft : Nat) (tape : List Delivery)
    (htape : tapeBytes tape = r.text) :
    (r.Marked → r.Undisturbed tc timeLeft tape → r.ReturnsBody tc timeLeft tape) ∧
    (r.ReturnsBody tc timeLeft tape ↔ ∀ m rest, AsksFor tc timeLeft tape m rest →
      Fills tc rest m → m = r.body.length ∧
        ∃ unread, tapeBytes rest = unread ++ r.body ∧ r.body <+: unread ++ r.body) := by
  rw [returnsBody_iff_asksFor]
  refine ⟨fun hmarked hundisturbed m rest hasks _ => ?_,
    fun h m rest hasks hfills => ?_, fun h m rest hasks hfills => ?_⟩
  · obtain ⟨hm, hrest⟩ := hmarked.asksFor htape hundisturbed hasks
    exact ⟨hm, hrest ▸ List.prefix_rfl⟩
  · obtain ⟨hm, hbegins⟩ := h m rest hasks hfills
    have hsuffix := hasks.suffix
    rw [htape] at hsuffix
    obtain ⟨unread, hunread⟩ :=
      List.suffix_of_suffix_length_le r.body_suffix_text hsuffix hbegins.length_le
    exact ⟨hm, unread, hunread.symm, hunread ▸ hbegins⟩
  · obtain ⟨hm, unread, hunread, hbegins⟩ := h m rest hasks hfills
    exact ⟨hm, hunread ▸ hbegins⟩

/-- A response with the content length as its only header line. -/
def twoBytes : HttpResponse where
  statusLine := AwsIotSdk.text "HTTP/1.1 200 OK"
  before := []
  contentLength := AwsIotSdk.text "content-length: 2"
  after := []
  body := AwsIotSdk.text "hi"
  ok := ⟨AwsIotSdk.text "1.1", AwsIotSdk.text "OK", by decide⟩
  lines := by decide
  gives := ⟨AwsIotSdk.text "content-length", [0x20], [0x32], [], by decide, by decide,
    by simp, by decide, List.forall_mem_singleton.2 (by decide), by decide⟩
  only := List.forall_mem_nil _
  nonempty := by decide

def paused : List Delivery :=
  (AwsIotSdk.text "HTTP/1.1 200 OK\r\ncontent-length: 2\r\n").map .byte ++
    .pause :: (crlf ++ AwsIotSdk.text "hi").map .byte

/-- A read of the status line and one of the body find nothing once. -/
def pausedInLines : List Delivery :=
  (AwsIotSdk.text "HTTP/1.1").map .byte ++
    .pause :: (AwsIotSdk.text " 200 OK\r\ncontent-length: 2\r\n").map .byte ++
      (crlf ++ AwsIotSdk.text "h").map .byte ++ .pause :: (AwsIotSdk.text "i").map .byte

theorem returnsBody_iff_twoBytes :
    (twoBytes.Marked → twoBytes.Undisturbed false 100 pausedInLines →
      twoBytes.ReturnsBody false 100 pausedInLines) ∧
    (twoBytes.ReturnsBody false 100 pausedInLines ↔ ∀ m rest,
      AsksFor false 100 pausedInLines m rest → Fills false rest m →
        m = twoBytes.body.length ∧ ∃ unread, tapeBytes rest = unread ++ twoBytes.body ∧
          twoBytes.body <+: unread ++ twoBytes.body) :=
  returnsBody_iff twoBytes false 100 pausedInLines (by decide)

theorem not_returnsBody_paused :
    tapeBytes paused = twoBytes.text ∧ ¬twoBytes.ReturnsBody false 100 paused := by
  refine ⟨by decide, fun h => ?_⟩
  have hcall : readResponseFromNetwork false 100 (⟨true, paused⟩ : StreamConnection) [] =
      some (.success, crlf, ⟨true, (AwsIotSdk.text "hi").map .byte⟩) := by decide +kernel
  exact absurd (h _ _ hcall) (by decide)

end HttpResponse

end AwsIotSdk
