import AwsIotSdk.EcmaPattern
import AwsIotSdk.PendingAcks
import AwsIotSdk.SubscriptionSearch
import AwsIotSdk.TopicLevels
import Mathlib.Data.List.TakeWhile

/-! Matching by the regular expression of a filter against the matching relation
of the protocol. -/

namespace AwsIotSdk

open EcmaRegex

def isExcluded (b : UInt8) : Bool := [0xec, 0x86, 0xbf].contains b

def SpecialFree (filter : Bytes) : Prop :=
  ∀ c ∈ filter, isSyntax c = true → c = singleLevelWildcard ∨ c = reservedTopic

def levelWords : Language UInt8 := {u | levelSeparator ∉ u}

def tailWords : Language UInt8 := {u | ∀ b ∈ u, isExcluded b = false}

def pieceLanguage (c : UInt8) : Language UInt8 :=
  if c = singleLevelWildcard then levelWords
  else if c = multiLevelWildcard then tailWords
  else {[c]}

theorem pieceLanguage_of_literal {c : UInt8} (hs : c ≠ singleLevelWildcard)
    (hm : c ≠ multiLevelWildcard) : pieceLanguage c = {[c]} := by
  rw [pieceLanguage, if_neg hs, if_neg hm]

theorem mem_single (u : Bytes) : u ∈ pieceLanguage singleLevelWildcard ↔ levelSeparator ∉ u :=
  Iff.rfl

theorem mem_multi (u : Bytes) :
    u ∈ pieceLanguage multiLevelWildcard ↔ ∀ b ∈ u, isExcluded b = false :=
  Iff.rfl

def filterLanguage : Bytes → Language UInt8
  | [] => 1
  | c :: f => pieceLanguage c * filterLanguage f

theorem denotes_negatedStar {cs : Text} {s : UInt8 → Bool} (hs : ∀ b, s b = !cs.contains b)
    {l : Language UInt8} (hl : ∀ u, u ∈ l ↔ ∀ b ∈ u, cs.contains b = false) :
    Denotes (.loop (.set s) 0 none true) l := by
  have heq : l = KStar.kstar (letters s) := by
    ext u
    rw [hl, mem_kstar_letters]
    simp only [hs, Bool.not_eq_true']
  exact heq ▸ .star true (.set s)

theorem denotes_letter (c : UInt8) : Denotes (.set (· == c)) {[c]} := by
  have heq : ({[c]} : Language UInt8) = letters (· == c) := by
    ext u
    constructor
    · intro hu
      exact ⟨c, beq_self_eq_true c, hu⟩
    · rintro ⟨b, hb, rfl⟩
      rw [beq_iff_eq.mp hb]
      rfl
  exact heq ▸ .set _

theorem term_regexPiece {c : UInt8}
    (hc : isSyntax c = true → c = singleLevelWildcard ∨ c = reservedTopic) {w : Text}
    (hw : StartsPlain w) (fuel n : Nat) :
    ∃ d rest r, Subscription.regexPiece c ++ w = d :: rest ∧ StartsPlain (d :: rest) ∧
      d ≠ bar ∧ d ≠ rparen ∧ term (fuel + 1) d rest n = some (r, w, n) ∧
      Denotes r (pieceLanguage c) ∧ maxBackref r = 0 := by
  have hplain : ∀ {d : UInt8} (rest : Text), isSyntax d = false ∨ d = lbrack ∨ d = backslash →
      StartsPlain (d :: rest) ∧ d ≠ bar ∧ d ≠ rparen := by
    intro d rest hd
    have hne : ∀ e, isSyntax e = true → e ≠ lbrack → e ≠ backslash → d ≠ e := by
      rintro e he hl hb rfl
      rcases hd with hd | hd | hd
      · simp [hd] at he
      · exact hl hd
      · exact hb hd
    refine ⟨?_, hne bar rfl (by decide) (by decide), hne rparen rfl (by decide) (by decide)⟩
    rintro e he
    cases he
    exact ⟨hne star rfl (by decide) (by decide), hne plus rfl (by decide) (by decide),
      hne question rfl (by decide) (by decide), hne lbrace rfl (by decide) (by decide)⟩
  unfold Subscription.regexPiece
  split_ifs with hs hm hr
  · obtain ⟨s, hterm, hset⟩ := term_negatedStar [levelSeparator] (List.all_eq_true.mp rfl) hw fuel n
    obtain ⟨h1, h2, h3⟩ := hplain (caret :: levelSeparator :: rbrack :: star :: w) (.inr (.inl rfl))
    subst hs
    refine ⟨lbrack, _, _, rfl, h1, h2, h3, hterm, denotes_negatedStar hset (fun u => ?_), rfl⟩
    rw [mem_single]
    constructor
    · rintro hu b hb
      simpa using fun he : b = levelSeparator => hu (he ▸ hb)
    · intro hu hb
      simpa using hu levelSeparator hb
  · obtain ⟨s, hterm, hset⟩ :=
      term_negatedStar [0xec, 0x86, 0xbf] (List.all_eq_true.mp rfl) hw fuel n
    obtain ⟨h1, h2, h3⟩ := hplain (caret :: 0xec :: 0x86 :: 0xbf :: rbrack :: star :: w)
      (.inr (.inl rfl))
    subst hm
    exact ⟨lbrack, _, _, rfl, h1, h2, h3, hterm, denotes_negatedStar hset mem_multi, rfl⟩
  · subst hr
    obtain ⟨h1, h2, h3⟩ := hplain (dollar :: w) (.inr (.inr rfl))
    exact ⟨backslash, dollar :: w, _, rfl, h1, h2, h3, term_escapedDollar hw fuel n,
      denotes_letter dollar, rfl⟩
  · have hsyntax : isSyntax c = false := by
      by_contra h
      rcases hc (by simpa using h) with h | h
      · exact hs h
      · exact hr h
    obtain ⟨h1, h2, h3⟩ := hplain w (.inl hsyntax)
    rw [pieceLanguage_of_literal hs hm]
    exact ⟨c, w, _, rfl, h1, h2, h3, term_patternCharacter hsyntax hw fuel n,
      denotes_letter c, rfl⟩

theorem alternative_flatMap_regexPiece {f : Bytes} (hf : SpecialFree f) (fuel : Nat)
    (hfuel : f.length + 1 < fuel) (n : Nat) :
    StartsPlain (f.flatMap Subscription.regexPiece) ∧
      ∃ r, alternative fuel (f.flatMap Subscription.regexPiece) n = some (r, [], n) ∧
        Denotes r (filterLanguage f) ∧ maxBackref r = 0 := by
  induction f generalizing fuel with
  | nil =>
    obtain ⟨fuel, rfl⟩ : ∃ k, fuel = k + 1 := ⟨fuel - 1, by omega⟩
    refine ⟨nofun, .empty, ?_, .empty, rfl⟩
    unfold alternative
    rfl
  | cons c f ih =>
    simp only [List.length_cons] at hfuel
    obtain ⟨fuel, rfl⟩ : ∃ k, fuel = k + 2 := ⟨fuel - 2, by omega⟩
    obtain ⟨hw, b, halt, hb, hbackb⟩ := ih (fun d hd => hf d (by simp [hd])) (fuel + 1)
      (by omega)
    obtain ⟨d, rest, a, heq, hstart, hbar, hparen, hterm, ha, hbacka⟩ :=
      term_regexPiece (hf c (by simp)) hw fuel n
    rw [List.flatMap_cons, heq]
    refine ⟨hstart, .seq a b, ?_, .seq ha hb, by simp [maxBackref, hbacka, hbackb]⟩
    have hunfold : alternative (fuel + 2) (d :: rest) n =
        if d == bar || d == rparen then some (.empty, d :: rest, n)
        else (term (fuel + 1) d rest n).bind fun t =>
          (alternative (fuel + 1) t.2.1 t.2.2).bind fun u =>
            some (.seq t.1 u.1, u.2.1, u.2.2) := by
      conv_lhs => unfold alternative
      rfl
    rw [hunfold, beq_false_of_ne hbar, beq_false_of_ne hparen, hterm]
    simp only [Bool.or_self, Bool.false_eq_true, if_false, Option.bind_some, halt]

theorem length_le_flatMap_regexPiece (f : Bytes) :
    f.length ≤ (f.flatMap Subscription.regexPiece).length := by
  induction f with
  | nil => rfl
  | cons c f ih =>
    have hpos : 1 ≤ (Subscription.regexPiece c).length := by
      unfold Subscription.regexPiece
      split_ifs <;> simp [singleLevelRegexString, multiLevelRegexString]
    rw [List.flatMap_cons, List.length_append, List.length_cons]
    omega

theorem parse_flatMap_regexPiece {f : Bytes} (hf : SpecialFree f) :
    ∃ r, parse (f.flatMap Subscription.regexPiece) = some r ∧ Denotes r (filterLanguage f) := by
  have hlen := length_le_flatMap_regexPiece f
  obtain ⟨_, r, halt, hr, hback⟩ := alternative_flatMap_regexPiece hf
    (4 * (f.flatMap Subscription.regexPiece).length + 3) (by omega) 0
  refine ⟨r, ?_, hr⟩
  have hdisj : disjunction (4 * (f.flatMap Subscription.regexPiece).length + 4)
      (f.flatMap Subscription.regexPiece) 0 = some (r, [], 0) := by
    unfold disjunction
    rw [halt]
    rfl
  rw [parse, hdisj]
  simp [hback]

/-! ### The words of a filter -/

theorem filterLanguage_append (f g : Bytes) :
    filterLanguage (f ++ g) = filterLanguage f * filterLanguage g := by
  induction f with
  | nil => exact (one_mul _).symm
  | cons c f ih => rw [List.cons_append, filterLanguage, ih, filterLanguage, mul_assoc]

theorem mem_filterLanguage_of_literal {l : Bytes} (hl : Literal l) (u : Bytes) :
    u ∈ filterLanguage l ↔ u = l := by
  induction l generalizing u with
  | nil => exact Iff.rfl
  | cons c l ih =>
    obtain ⟨hs, hm⟩ := hl
    simp only [List.mem_cons, not_or] at hs hm
    rw [filterLanguage, pieceLanguage_of_literal (Ne.symm hs.1) (Ne.symm hm.1),
      Language.mem_mul]
    constructor
    · rintro ⟨a, rfl, b, hb, rfl⟩
      rw [(ih ⟨hs.2, hm.2⟩ b).mp hb]
      rfl
    · rintro rfl
      exact ⟨[c], rfl, l, (ih ⟨hs.2, hm.2⟩ l).mpr rfl, rfl⟩

theorem filterLanguage_singleton (c : UInt8) : filterLanguage [c] = pieceLanguage c :=
  mul_one _

/-- The levels of the topic that the wildcard for many levels stands for, are
none at all, or hold a byte that its class leaves out. -/
def TailLost (fs ts : List Bytes) : Prop :=
  fs.getLast? = some [multiLevelWildcard] ∧
    (ts.length < fs.length ∨
      ∃ l ∈ ts.drop (fs.length - 1), ∃ b ∈ l, isExcluded b = true)

theorem levelsMatch_cons_iff {l : Bytes} (hl : l = [singleLevelWildcard] ∨ Literal l)
    {fs : List Bytes} (hfs : fs ≠ []) (u : Bytes) (ts : List Bytes) :
    LevelsMatch (l :: fs) (u :: ts) ↔ (l = [singleLevelWildcard] ∨ u = l) ∧ LevelsMatch fs ts := by
  constructor
  · intro h
    cases h with
    | multi => exact absurd rfl hfs
    | single _ h => exact ⟨.inl rfl, h⟩
    | level _ h => exact ⟨.inr rfl, h⟩
  · rintro ⟨rfl | rfl, h⟩
    · exact .single u h
    · exact .level u h

theorem eq_multi_of_levelsMatch_nil {fs : List Bytes} (hfs : fs ≠ [])
    (h : LevelsMatch fs []) : fs = [[multiLevelWildcard]] := by
  cases h with
  | nil => exact absurd rfl hfs
  | multi => rfl

theorem levelsMatch_singleton_iff {l : Bytes} (hl : l = [singleLevelWildcard] ∨ Literal l)
    {ts : List Bytes} :
    LevelsMatch [l] ts ↔ ∃ u, ts = [u] ∧ (l = [singleLevelWildcard] ∨ u = l) := by
  constructor
  · intro h
    cases h with
    | multi =>
      rcases hl with hl | hl
      · exact absurd hl (by decide)
      · exact absurd (List.mem_singleton_self _) hl.2
    | single u h =>
      cases h
      exact ⟨u, rfl, .inl rfl⟩
    | level _ h =>
      cases h
      exact ⟨l, rfl, .inr rfl⟩
  · rintro ⟨u, rfl, rfl | rfl⟩
    · exact .single u .nil
    · exact .level u .nil

theorem wellFormed_cons {l : Bytes} {fs : List Bytes} (hfs : fs ≠ [])
    (h : WellFormed (l :: fs)) : (l = [singleLevelWildcard] ∨ Literal l) ∧ WellFormed fs := by
  cases h with
  | last => exact absurd rfl hfs
  | cons hl hwf => exact ⟨hl, hwf⟩

theorem tailLost_cons {l u : Bytes} {fs ts : List Bytes} (hfs : fs ≠ []) :
    TailLost (l :: fs) (u :: ts) ↔ TailLost fs ts := by
  obtain ⟨f, fs, rfl⟩ := List.exists_cons_of_ne_nil hfs
  simp [TailLost]

theorem mem_filterLanguage_level {l : Bytes} (hl : l = [singleLevelWildcard] ∨ Literal l)
    {u : Bytes} (hu : levelSeparator ∉ u) :
    u ∈ filterLanguage l ↔ l = [singleLevelWildcard] ∨ u = l := by
  rcases hl with rfl | hl
  · rw [filterLanguage_singleton, mem_single]
    simp [hu]
  · rw [mem_filterLanguage_of_literal hl]
    refine ⟨.inr, fun h => h.resolve_left ?_⟩
    rintro rfl
    exact hl.1 (by simp)

theorem not_mem_of_mem_filterLanguage_level {l : Bytes}
    (hl : l = [singleLevelWildcard] ∨ Literal l) (hsep : levelSeparator ∉ l) {u : Bytes}
    (hu : u ∈ filterLanguage l) : levelSeparator ∉ u := by
  rcases hl with rfl | hl
  · rw [filterLanguage_singleton, mem_single] at hu
    exact hu
  · rw [(mem_filterLanguage_of_literal hl u).mp hu]
    exact hsep

theorem mem_filterLanguage_cons (l f u : Bytes) :
    u ∈ filterLanguage (l ++ levelSeparator :: f) ↔
      ∃ a b, u = a ++ levelSeparator :: b ∧ a ∈ filterLanguage l ∧ b ∈ filterLanguage f := by
  have hsep : pieceLanguage levelSeparator = {[levelSeparator]} :=
    pieceLanguage_of_literal (by decide) (by decide)
  rw [filterLanguage_append, filterLanguage, hsep, Language.mem_mul]
  constructor
  · rintro ⟨a, ha, v, hv, rfl⟩
    obtain ⟨s, rfl, b, hb, rfl⟩ := Language.mem_mul.mp hv
    exact ⟨a, b, rfl, ha, hb⟩
  · rintro ⟨a, b, rfl, ha, hb⟩
    exact ⟨a, ha, levelSeparator :: b, Language.mem_mul.mpr ⟨_, rfl, b, hb, rfl⟩, rfl⟩

theorem level_of_wellFormed {l : Bytes} (h : WellFormed [l]) :
    l = [multiLevelWildcard] ∨ l = [singleLevelWildcard] ∨ Literal l := by
  cases h with
  | last hl => exact hl
  | cons _ hwf => cases hwf

theorem mem_filterLanguage_multi (t : Bytes) :
    t ∈ filterLanguage [multiLevelWildcard] ↔
      LevelsMatch [[multiLevelWildcard]] (levels t) ∧
        ¬ TailLost [[multiLevelWildcard]] (levels t) := by
  have hlen : 0 < (levels t).length := List.length_pos_iff.mpr (levels_ne_nil t)
  have hsep : ∀ b, isExcluded b = true → b ≠ levelSeparator := by
    rintro b hb rfl
    revert hb
    decide
  have hlost : TailLost [[multiLevelWildcard]] (levels t) ↔ ∃ b ∈ t, isExcluded b = true := by
    simp only [TailLost, List.getLast?_singleton, List.length_singleton, Nat.sub_self,
      List.drop_zero, true_and, (show ¬ (levels t).length < 1 by omega), false_or]
    constructor
    · rintro ⟨l, hl, b, hb, he⟩
      exact ⟨b, (mem_levels (hsep b he) t).mp ⟨l, hl, hb⟩, he⟩
    · rintro ⟨b, hb, he⟩
      obtain ⟨l, hl, hbl⟩ := (mem_levels (hsep b he) t).mpr hb
      exact ⟨l, hl, b, hbl, he⟩
  rw [filterLanguage_singleton, mem_multi, hlost]
  simp [LevelsMatch.multi]

theorem mem_filterLanguage_last {l : Bytes} (hlevel : l = [singleLevelWildcard] ∨ Literal l)
    (hl : levelSeparator ∉ l) (t : Bytes) :
    t ∈ filterLanguage l ↔ LevelsMatch [l] (levels t) ∧ ¬ TailLost [l] (levels t) := by
  have hlost : ¬ TailLost [l] (levels t) := by
    rintro ⟨h, _⟩
    cases Option.some.inj h
    rcases hlevel with h | h
    · exact absurd h (by decide)
    · exact absurd (List.mem_singleton_self _) h.2
  rw [levelsMatch_singleton_iff hlevel]
  simp only [hlost, not_false_eq_true, and_true]
  constructor
  · intro ht
    have hu := not_mem_of_mem_filterLanguage_level hlevel hl ht
    exact ⟨t, levels_of_not_mem hu, (mem_filterLanguage_level hlevel hu).mp ht⟩
  · rintro ⟨u, hu, h⟩
    have hsep : levelSeparator ∉ t := by
      intro hmem
      obtain ⟨a, b, rfl, ha⟩ := List.eq_append_cons_of_mem hmem
      rw [levels_append ha] at hu
      exact levels_ne_nil b (List.cons.inj hu).2
    rw [levels_of_not_mem hsep] at hu
    cases hu
    exact (mem_filterLanguage_level hlevel hsep).mpr h

/-- Words of a filter are the topics that match level by level, except where the
wildcard for many levels loses its tail. -/
theorem mem_filterLanguage_iff (f : Bytes) (hf : WellFormed (levels f)) (t : Bytes) :
    t ∈ filterLanguage f ↔
      LevelsMatch (levels f) (levels t) ∧ ¬ TailLost (levels f) (levels t) := by
  induction f using levels_induction generalizing t with
  | single l hl =>
    rw [levels_of_not_mem hl] at hf ⊢
    rcases level_of_wellFormed hf with rfl | hlevel
    · exact mem_filterLanguage_multi t
    · exact mem_filterLanguage_last hlevel hl t
  | cons l f hl ih =>
    rw [levels_append hl] at hf ⊢
    obtain ⟨hlevel, hwf⟩ := wellFormed_cons (levels_ne_nil f) hf
    rw [mem_filterLanguage_cons]
    by_cases ht : levelSeparator ∈ t
    · obtain ⟨u, t, rfl, hu⟩ := List.eq_append_cons_of_mem ht
      rw [levels_append hu, levelsMatch_cons_iff hlevel (levels_ne_nil f),
        tailLost_cons (levels_ne_nil f), and_assoc, ← ih hwf,
        ← mem_filterLanguage_level hlevel hu]
      constructor
      · rintro ⟨a, b, heq, ha, hb⟩
        have ha' := not_mem_of_mem_filterLanguage_level hlevel hl ha
        have hlevels := congrArg levels heq
        rw [levels_append hu, levels_append ha'] at hlevels
        obtain ⟨rfl, ht⟩ := List.cons.inj hlevels
        exact ⟨ha, levels_injective ht ▸ hb⟩
      · rintro ⟨ha, hb⟩
        exact ⟨u, t, rfl, ha, hb⟩
    · rw [levels_of_not_mem ht]
      refine iff_of_false ?_ ?_
      · rintro ⟨a, b, rfl, _⟩
        exact ht (by simp)
      · rintro ⟨hm, hlost⟩
        have hnil := ((levelsMatch_cons_iff hlevel (levels_ne_nil f) t []).mp hm).2
        rw [eq_multi_of_levelsMatch_nil (levels_ne_nil f) hnil] at hlost
        exact hlost ⟨rfl, .inl (by simp)⟩

/-! ### Filters in the subscription map -/

theorem literal_of_mem_levels {f l : Bytes} (hf : Literal f) (hl : l ∈ levels f) : Literal l :=
  ⟨fun h => hf.1 ((mem_levels (by decide) f).mp ⟨l, hl, h⟩),
    fun h => hf.2 ((mem_levels (by decide) f).mp ⟨l, hl, h⟩)⟩

theorem levelsMatch_refl (ls : List Bytes) : LevelsMatch ls ls := by
  induction ls with
  | nil => exact .nil
  | cons l ls ih => exact .level l ih

theorem eq_of_levelsMatch {fs ts : List Bytes} (hfs : ∀ l ∈ fs, Literal l)
    (h : LevelsMatch fs ts) : fs = ts := by
  induction h with
  | nil => rfl
  | multi => exact absurd (List.mem_singleton_self _) (hfs _ (by simp)).2
  | single => exact absurd (List.mem_singleton_self _) (hfs _ (by simp)).1
  | level l _ ih => rw [ih (fun k hk => hfs k (by simp [hk]))]

theorem topicMatch_of_literal {f : Bytes} (hf : Literal f) (t : Bytes) :
    TopicMatch f t ↔ f = t := by
  constructor
  · rintro ⟨h, _⟩
    exact levels_injective (eq_of_levelsMatch (fun l hl => literal_of_mem_levels hf hl) h)
  · rintro rfl
    refine ⟨levelsMatch_refl _, ?_⟩
    rintro ⟨h | h, _⟩
    · exact absurd (List.mem_singleton_self _) (literal_of_mem_levels hf (List.mem_of_head? h)).1
    · exact absurd (List.mem_singleton_self _) (literal_of_mem_levels hf (List.mem_of_head? h)).2

theorem topicRegex_of_literal {f : Bytes} (hf : Literal f) : Subscription.topicRegex f = [] := by
  simp [Subscription.topicRegex, hf.1, hf.2]

theorem topicRegex_of_not_literal {f : Bytes} (hf : ¬ Literal f) :
    Subscription.topicRegex f = f.flatMap Subscription.regexPiece := by
  unfold Literal at hf
  rw [Subscription.topicRegex, if_pos]
  simp only [Bool.or_eq_true, List.contains_iff_mem]
  tauto

def NulFree (t : Bytes) : Prop := (0 : UInt8) ∉ t

theorem cStr_of_nulFree {t : Bytes} (ht : NulFree t) : ClientState.cStr t = t := by
  rw [ClientState.cStr, List.takeWhile_eq_self_iff]
  intro b hb
  simpa using fun h : b = 0 => ht (h ▸ hb)

/-- The search for a topic comes to the subscription of a filter, which has the
expression of the filter and is in the map once. -/
structure Reaches (s : ClientState) (t : Bytes) (p : SubscriptionPtr) (f : Bytes)
    (pre post : List (Bytes × SubscriptionPtr)) : Prop where
  entries : s.subscriptionMap.entries = pre ++ (f, p) :: post
  passed : ∀ e ∈ pre, ClientState.matchesEntry s.heap t e = .ok false
  once : ∀ e ∈ post, e.2 ≠ p
  regex : (s.heap p).pTopicRegex = Subscription.topicRegex f

variable {s : ClientState} {p : SubscriptionPtr} {f t : Bytes}
  {pre post : List (Bytes × SubscriptionPtr)}

theorem getSubscription_of_reaches (hs : Reaches s t p f pre post) :
    s.getSubscription t = .ok (some p) ↔ ClientState.matchesEntry s.heap t (f, p) = .ok true := by
  simp only [ClientState.getSubscription, hs.entries, findEntry_append hs.passed,
    ClientState.findEntry, bind_eq_ok]
  constructor
  · rintro ⟨found, hfound, h⟩
    cases found with
    | true => exact hfound
    | false =>
      obtain ⟨pre', e, post', hpost, -, -, hp⟩ := findEntry_eq_some h
      have he : e ∈ post := by simp [hpost]
      exact absurd hp (hs.once e he)
  · intro h
    exact ⟨true, h, rfl⟩

theorem getSubscription_of_literal (hs : Reaches s t p f pre post) (hf : Literal f) :
    s.getSubscription t = .ok (some p) ↔ f = t := by
  rw [getSubscription_of_reaches hs, ClientState.matchesEntry, hs.regex,
    topicRegex_of_literal hf]
  by_cases h : f = t <;> simp [h]

theorem getSubscription_of_specialFree (hs : Reaches s t p f pre post) (hf : ¬ Literal f) (hwf : WellFormed (levels f))
    (hspecial : SpecialFree f) (ht : Literal t) (hnul : NulFree t) :
    s.getSubscription t = .ok (some p) ↔
      LevelsMatch (levels f) (levels t) ∧ ¬ TailLost (levels f) (levels t) := by
  obtain ⟨r, hparse, hr⟩ := parse_flatMap_regexPiece hspecial
  have hne : f ≠ t := by
    rintro rfl
    exact hf ht
  have hpos : 0 < (f.flatMap Subscription.regexPiece).length := by
    have hle := length_le_flatMap_regexPiece f
    have hf0 : f ≠ [] := by
      rintro rfl
      exact hf ⟨List.not_mem_nil, List.not_mem_nil⟩
    have := List.length_pos_iff.mpr hf0
    omega
  rw [getSubscription_of_reaches hs, ClientState.matchesEntry, hs.regex,
    topicRegex_of_not_literal hf, if_neg hne, if_pos hpos, hparse, cStr_of_nulFree hnul,
    ← mem_filterLanguage_iff f hwf t, ← hr.regexMatch_iff]
  simp

theorem isValidTopicName_of_create {f : Utf8String} {maxQos : QoS} {handler : Option Nat}
    {handlerData : Nat} {sub : Subscription}
    (h : Subscription.create (some f) maxQos handler handlerData = some sub) :
    Subscription.isValidTopicName f.data = true ∧
      sub.pTopicRegex = Subscription.topicRegex f.data := by
  unfold Subscription.create at h
  cases handler with
  | none => cases h
  | some handler =>
    dsimp only at h
    split_ifs at h with hv
    cases h
    exact ⟨hv, rfl⟩

/-- A filter without wildcards, or one without special characters where a
shielded topic is exactly one with a lost tail. -/
def MatchedFaithfully (f t : Bytes) : Prop :=
  Literal f ∨ SpecialFree f ∧ NulFree t ∧
    (LevelsMatch (levels f) (levels t) →
      (Shielded f t ↔ TailLost (levels f) (levels t)))

theorem getSubscription_iff_topicMatch (f : Utf8String) (maxQos : QoS) (handler : Option Nat)
    (handlerData : Nat) (sub : Subscription)
    (hsub : Subscription.create (some f) maxQos handler handlerData = some sub)
    (s : ClientState) (p : SubscriptionPtr) (hregex : (s.heap p).pTopicRegex = sub.pTopicRegex)
    (t : Utf8String) (ht : Literal t.data) (pre post : List (Bytes × SubscriptionPtr))
    (hentries : s.subscriptionMap.entries = pre ++ (f.data, p) :: post)
    (hpassed : ∀ e ∈ pre, ClientState.matchesEntry s.heap t.data e = .ok false)
    (honce : ∀ e ∈ post, e.2 ≠ p) :
    (MatchedFaithfully f.data t.data →
        (s.getSubscription t.data = .ok (some p) ↔ TopicMatch f.data t.data)) ∧
      (SpecialFree f.data → NulFree t.data →
        ((s.getSubscription t.data = .ok (some p) ↔ TopicMatch f.data t.data) ↔
          MatchedFaithfully f.data t.data)) := by
  obtain ⟨hvalid, hexpr⟩ := isValidTopicName_of_create hsub
  have hs : Reaches s t.data p f.data pre post :=
    ⟨hentries, hpassed, honce, hregex.trans hexpr⟩
  have hwf := wellFormed_of_isValidTopicName hvalid
  by_cases hf : Literal f.data
  · have hagree : s.getSubscription t.data = .ok (some p) ↔ TopicMatch f.data t.data := by
      rw [getSubscription_of_literal hs hf, topicMatch_of_literal hf]
    exact ⟨fun _ => hagree, fun _ _ => iff_of_true hagree (.inl hf)⟩
  · have hexact : SpecialFree f.data → NulFree t.data →
        ((s.getSubscription t.data = .ok (some p) ↔ TopicMatch f.data t.data) ↔
          MatchedFaithfully f.data t.data) := by
      intro hspecial hnul
      rw [getSubscription_of_specialFree hs hf hwf hspecial ht hnul, TopicMatch,
        MatchedFaithfully]
      tauto
    refine ⟨fun h => ?_, hexact⟩
    obtain ⟨hspecial, hnul, _⟩ := h.resolve_left hf
    exact (hexact hspecial hnul).mpr h

def oneFilter (f : Utf8String) : ClientState :=
  { freshClient.insertTopic f.data 0 with heap := fun _ => .init f .qos1 (some 0) 0 }

def oneLevelFilter : Utf8String := ⟨[0x61, 0x2f, 0x2b], by decide⟩

def twoLevelTopic : Utf8String := ⟨[0x61, 0x2f, 0x62], by decide⟩

theorem getSubscription_iff_topicMatch_oneLevel :
    (MatchedFaithfully oneLevelFilter.data twoLevelTopic.data →
        ((oneFilter oneLevelFilter).getSubscription twoLevelTopic.data = .ok (some 0) ↔
          TopicMatch oneLevelFilter.data twoLevelTopic.data)) ∧
      (SpecialFree oneLevelFilter.data → NulFree twoLevelTopic.data →
        (((oneFilter oneLevelFilter).getSubscription twoLevelTopic.data = .ok (some 0) ↔
          TopicMatch oneLevelFilter.data twoLevelTopic.data) ↔
          MatchedFaithfully oneLevelFilter.data twoLevelTopic.data)) :=
  getSubscription_iff_topicMatch oneLevelFilter .qos1 (some 0) 0
    (.init oneLevelFilter .qos1 (some 0) 0) rfl (oneFilter oneLevelFilter) 0 rfl twoLevelTopic
    ⟨by decide, by decide⟩ [] [] rfl (by simp) (by simp)

def subtreeFilter : Utf8String := ⟨[0x61, 0x2f, 0x23], by decide⟩

def dottedFilter : Utf8String := ⟨[0x61, 0x2e, 0x62, 0x2f, 0x2b], by decide⟩

def undottedTopic : Utf8String := ⟨[0x61, 0x78, 0x62, 0x2f, 0x63], by decide⟩

/-- The filter `a/#` does not match `a`, and `a.b/+` matches `axb/c`. -/
theorem not_getSubscription_iff_topicMatch :
    ¬ ((oneFilter subtreeFilter).getSubscription freshTopic.data = .ok (some 0) ↔
        TopicMatch subtreeFilter.data freshTopic.data) ∧
      ¬ ((oneFilter dottedFilter).getSubscription undottedTopic.data = .ok (some 0) ↔
        TopicMatch dottedFilter.data undottedTopic.data) := by
  have hparent : (oneFilter subtreeFilter).getSubscription freshTopic.data = .ok none := by
    decide +kernel
  have hdotted : (oneFilter dottedFilter).getSubscription undottedTopic.data = .ok (some 0) := by
    decide +kernel
  have hmatch : TopicMatch subtreeFilter.data freshTopic.data := by
    refine ⟨?_, ?_⟩
    · change LevelsMatch [[0x61], [multiLevelWildcard]] [[0x61]]
      exact .level _ (.multi [])
    · rintro ⟨_, h⟩
      revert h
      decide
  have hmismatch : ¬ TopicMatch dottedFilter.data undottedTopic.data := by
    rintro ⟨h, _⟩
    have hl : LevelsMatch [[0x61, 0x2e, 0x62], [0x2b]] [[0x61, 0x78, 0x62], [0x63]] := h
    cases hl
  constructor
  · intro h
    simpa [hparent] using h.mpr hmatch
  · intro h
    exact hmismatch (h.mp hdotted)

end AwsIotSdk
