import AwsIotSdk.Subscription

/-! Topic filters and topic names level by level: the matching relation of the
protocol, and what the scan of a filter guarantees for its levels. -/

namespace AwsIotSdk

def levels (topic : Bytes) : List Bytes := topic.splitOn levelSeparator

theorem levels_of_not_mem {l : Bytes} (h : levelSeparator ∉ l) : levels l = [l] :=
  List.splitOnP_eq_singleton (fun x hx => by
    rw [beq_eq_false_iff_ne]
    rintro rfl
    exact h hx)

theorem levels_append {l : Bytes} (h : levelSeparator ∉ l) (t : Bytes) :
    levels (l ++ levelSeparator :: t) = l :: levels t := by
  have hs : levels (l ++ levelSeparator :: t) = levels l ++ levels t :=
    List.splitOnP_append_cons l t (beq_self_eq_true _)
  rw [hs, levels_of_not_mem h]
  rfl

theorem levels_ne_nil (t : Bytes) : levels t ≠ [] := List.splitOnP_ne_nil _ t

theorem levels_separator_cons (t : Bytes) : levels (levelSeparator :: t) = [] :: levels t :=
  levels_append (List.not_mem_nil) t

theorem levels_cons {c : UInt8} (hc : c ≠ levelSeparator) (t : Bytes) :
    levels (c :: t) = (levels t).modifyHead (c :: ·) := by
  have h := List.splitOnP_cons_eq_if_modifyHead (p := (· == levelSeparator)) c t
  rw [if_neg (by simpa using hc)] at h
  exact h

theorem levels_induction {P : Bytes → Prop} (single : ∀ l, levelSeparator ∉ l → P l)
    (cons : ∀ l t, levelSeparator ∉ l → P t → P (l ++ levelSeparator :: t)) (t : Bytes) :
    P t := by
  induction hn : t.length using Nat.strong_induction_on generalizing t with
  | _ n ih =>
    by_cases h : levelSeparator ∈ t
    · obtain ⟨l, t', rfl, hl⟩ := List.eq_append_cons_of_mem h
      simp only [List.length_append, List.length_cons] at hn
      exact cons l t' hl (ih t'.length (by omega) t' rfl)
    · exact single t h

theorem levels_injective {f t : Bytes} (h : levels f = levels t) : f = t := by
  have hf : [levelSeparator].intercalate (levels f) = f := List.intercalate_splitOn levelSeparator
  have ht : [levelSeparator].intercalate (levels t) = t := List.intercalate_splitOn levelSeparator
  rw [← hf, ← ht, h]

theorem mem_levels {b : UInt8} (hb : b ≠ levelSeparator) (t : Bytes) :
    (∃ l ∈ levels t, b ∈ l) ↔ b ∈ t := by
  induction t using levels_induction with
  | single l hl => simp [levels_of_not_mem hl]
  | cons l t hl ih => simp [levels_append hl, ih, hb]

inductive LevelsMatch : List Bytes → List Bytes → Prop
  | nil : LevelsMatch [] []
  | multi (ts : List Bytes) : LevelsMatch [[multiLevelWildcard]] ts
  | single (t : Bytes) {fs ts : List Bytes} :
      LevelsMatch fs ts → LevelsMatch ([singleLevelWildcard] :: fs) (t :: ts)
  | level (l : Bytes) {fs ts : List Bytes} : LevelsMatch fs ts → LevelsMatch (l :: fs) (l :: ts)

def StartsWithWildcard (filter : Bytes) : Prop :=
  (levels filter).head? = some [singleLevelWildcard] ∨
    (levels filter).head? = some [multiLevelWildcard]

/-- A wildcard at the first level does not match a reserved topic. -/
def Shielded (filter topic : Bytes) : Prop :=
  StartsWithWildcard filter ∧ topic.head? = some reservedTopic

def TopicMatch (filter topic : Bytes) : Prop :=
  LevelsMatch (levels filter) (levels topic) ∧ ¬ Shielded filter topic

def Literal (l : Bytes) : Prop := singleLevelWildcard ∉ l ∧ multiLevelWildcard ∉ l

inductive WellFormed : List Bytes → Prop
  | last {l : Bytes} : l = [multiLevelWildcard] ∨ l = [singleLevelWildcard] ∨ Literal l →
      WellFormed [l]
  | cons {l : Bytes} {fs : List Bytes} : l = [singleLevelWildcard] ∨ Literal l →
      WellFormed fs → WellFormed (l :: fs)

def TailFormed (fs : List Bytes) : Prop :=
  ∃ l rest, fs = l :: rest ∧ Literal l ∧ (rest = [] ∨ WellFormed rest)

theorem TailFormed.prepend {c : UInt8} (hp : c ≠ singleLevelWildcard)
    (hm : c ≠ multiLevelWildcard) {fs : List Bytes} (h : TailFormed fs) :
    TailFormed (fs.modifyHead (c :: ·)) := by
  obtain ⟨l, rest, rfl, hl, hr⟩ := h
  exact ⟨c :: l, rest, rfl, by simpa [Literal, hp.symm, hm.symm] using hl, hr⟩

theorem TailFormed.wellFormed {fs : List Bytes} (h : TailFormed fs) : WellFormed fs := by
  obtain ⟨l, rest, rfl, hl, rfl | hr⟩ := h
  · exact .last (.inr (.inr hl))
  · exact .cons (.inr hl) hr

def AtStart (prev : Option UInt8) : Prop := prev = none ∨ prev = some levelSeparator

theorem isValidFrom_cons_iff (prev : Option UInt8) (c : UInt8) (rest : Bytes) :
    Subscription.isValidFrom prev (c :: rest) = true ↔
      (c = singleLevelWildcard → AtStart prev ∧ (rest = [] ∨ rest.head? = some levelSeparator)) ∧
      (c = multiLevelWildcard → AtStart prev ∧ rest = []) ∧
      Subscription.isValidFrom (some c) rest = true := by
  have hne : singleLevelWildcard ≠ multiLevelWildcard := by decide
  by_cases hs : c = singleLevelWildcard
  · rw [Subscription.isValidFrom, if_pos hs, hs]
    cases prev <;> by_cases hr : rest = [] <;> simp [AtStart, hr, hne]
  · by_cases hm : c = multiLevelWildcard
    · rw [Subscription.isValidFrom, if_neg hs, if_pos hm, hm]
      cases prev <;> by_cases hr : rest = [] <;> simp [AtStart, hr, hne.symm]
    · rw [Subscription.isValidFrom, if_neg hs, if_neg hm]
      simp [hs, hm]

/-- What the scan guarantees for the levels ahead, by the character behind. -/
theorem formed_of_isValidFrom (filter : Bytes) (prev : Option UInt8)
    (h : Subscription.isValidFrom prev filter = true) :
    (AtStart prev → WellFormed (levels filter)) ∧
      (¬ AtStart prev → TailFormed (levels filter)) := by
  induction filter generalizing prev with
  | nil =>
    have hl : Literal [] := ⟨List.not_mem_nil, List.not_mem_nil⟩
    exact ⟨fun _ => .last (.inr (.inr hl)), fun _ => ⟨[], [], rfl, hl, .inl rfl⟩⟩
  | cons c rest ih =>
    obtain ⟨hsingle, hmulti, hrest⟩ := (isValidFrom_cons_iff prev c rest).mp h
    obtain ⟨ihstart, ihtail⟩ := ih (some c) hrest
    have hl : Literal [] := ⟨List.not_mem_nil, List.not_mem_nil⟩
    by_cases hsep : c = levelSeparator
    · subst hsep
      have hwf := ihstart (.inr rfl)
      rw [levels_separator_cons]
      exact ⟨fun _ => .cons (.inr hl) hwf, fun _ => ⟨[], _, rfl, hl, .inr hwf⟩⟩
    · have htail := ihtail (by simp [AtStart, hsep])
      rw [levels_cons hsep]
      by_cases hs : c = singleLevelWildcard
      · obtain ⟨hstart, hnext⟩ := hsingle hs
        refine ⟨fun _ => ?_, fun hn => absurd hstart hn⟩
        subst hs
        rcases hnext with rfl | hnext
        · exact .last (.inr (.inl rfl))
        · obtain ⟨t, rfl⟩ : ∃ t, rest = levelSeparator :: t := by
            cases rest with
            | nil => simp at hnext
            | cons d t => exact ⟨t, by simpa using hnext⟩
          rw [levels_separator_cons] at htail ⊢
          obtain ⟨l, r, heq, _, hr⟩ := htail
          obtain ⟨rfl, rfl⟩ := List.cons.inj heq
          exact .cons (.inl rfl) (hr.resolve_left (levels_ne_nil t))
      · by_cases hm : c = multiLevelWildcard
        · obtain ⟨hstart, rfl⟩ := hmulti hm
          subst hm
          exact ⟨fun _ => .last (.inl rfl), fun hn => absurd hstart hn⟩
        · have hp := htail.prepend hs hm
          exact ⟨fun _ => hp.wellFormed, fun _ => hp⟩

theorem wellFormed_cons_iff {l : Bytes} {fs : List Bytes} :
    WellFormed (l :: fs) ↔ (fs = [] ∧ l = [multiLevelWildcard]) ∨
      ((l = [singleLevelWildcard] ∨ Literal l) ∧ (fs = [] ∨ WellFormed fs)) := by
  constructor
  · intro h
    cases h with
    | last hl =>
      rcases hl with hm | hl
      · exact .inl ⟨rfl, hm⟩
      · exact .inr ⟨hl, .inl rfl⟩
    | cons hl hfs => exact .inr ⟨hl, .inr hfs⟩
  · rintro (⟨rfl, hm⟩ | ⟨hl, rfl | hfs⟩)
    · exact .last (.inl hm)
    · exact .last (.inr hl)
    · exact .cons hl hfs

theorem head_of_levels {rest : Bytes} {fs : List Bytes} (h : levels rest = [] :: fs) :
    rest = [] ∨ rest.head? = some levelSeparator := by
  cases rest with
  | nil => exact .inl rfl
  | cons c t =>
    by_cases hsep : c = levelSeparator
    · exact .inr (congrArg some hsep)
    · obtain ⟨l, fs', hl⟩ := List.exists_cons_of_ne_nil (levels_ne_nil t)
      rw [levels_cons hsep, hl] at h
      cases (List.cons.inj h).1

/-- The scan accepts what has the form, level by level. -/
theorem isValidFrom_of_formed (filter : Bytes) (prev : Option UInt8)
    (hstart : AtStart prev → WellFormed (levels filter))
    (htail : ¬ AtStart prev → TailFormed (levels filter)) :
    Subscription.isValidFrom prev filter = true := by
  induction filter generalizing prev with
  | nil => rfl
  | cons c rest ih =>
    rw [isValidFrom_cons_iff]
    by_cases hsep : c = levelSeparator
    · subst hsep
      rw [levels_separator_cons] at hstart htail
      have hrest : WellFormed (levels rest) := by
        by_cases hp : AtStart prev
        · rcases wellFormed_cons_iff.mp (hstart hp) with ⟨hnil, -⟩ | ⟨-, hnil | hwf⟩
          · exact absurd hnil (levels_ne_nil rest)
          · exact absurd hnil (levels_ne_nil rest)
          · exact hwf
        · obtain ⟨l, fs, heq, -, hfs⟩ := htail hp
          obtain ⟨-, rfl⟩ := List.cons.inj heq
          exact hfs.resolve_left (levels_ne_nil rest)
      exact ⟨fun hc => absurd hc (by decide), fun hc => absurd hc (by decide),
        ih _ (fun _ => hrest) (fun hn => absurd (.inr rfl) hn)⟩
    · obtain ⟨l, fs, hl⟩ := List.exists_cons_of_ne_nil (levels_ne_nil rest)
      rw [levels_cons hsep, hl, List.modifyHead_cons] at hstart htail
      have hnot : ¬ AtStart (some c) := by simp [AtStart, hsep]
      by_cases hlit : Literal (c :: l)
      · have hplain : Literal l := ⟨fun h => hlit.1 (by simp [h]), fun h => hlit.2 (by simp [h])⟩
        have hc : c ≠ singleLevelWildcard ∧ c ≠ multiLevelWildcard :=
          ⟨fun h => hlit.1 (by simp [h]), fun h => hlit.2 (by simp [h])⟩
        have hfs : fs = [] ∨ WellFormed fs := by
          by_cases hp : AtStart prev
          · rcases wellFormed_cons_iff.mp (hstart hp) with ⟨hnil, -⟩ | ⟨-, hfs⟩
            · exact .inl hnil
            · exact hfs
          · obtain ⟨_, _, heq, -, hfs⟩ := htail hp
            rw [(List.cons.inj heq).2]
            exact hfs
        exact ⟨fun h => absurd h hc.1, fun h => absurd h hc.2, ih _ (fun h => absurd h hnot)
          (fun _ => ⟨l, fs, hl, hplain, hfs⟩)⟩
      · -- a level that holds a wildcard begins here
        have hp : AtStart prev := by
          by_contra hp
          obtain ⟨_, _, heq, hl', -⟩ := htail hp
          rw [← (List.cons.inj heq).1] at hl'
          exact hlit hl'
        have hempty : Literal [] := ⟨List.not_mem_nil, List.not_mem_nil⟩
        rcases wellFormed_cons_iff.mp (hstart hp) with ⟨rfl, hm⟩ | ⟨hs, hfs⟩
        · obtain ⟨rfl, rfl⟩ := List.cons.inj hm
          obtain rfl : rest = [] := levels_injective hl
          exact ⟨fun h => absurd h (by decide), fun _ => ⟨hp, rfl⟩, rfl⟩
        · obtain ⟨rfl, rfl⟩ := List.cons.inj (hs.resolve_right hlit)
          exact ⟨fun _ => ⟨hp, head_of_levels hl⟩, fun h => absurd h (by decide),
            ih _ (fun h => absurd h hnot) (fun _ => ⟨[], fs, hl, hempty, hfs⟩)⟩

theorem isValidFrom_none_iff (filter : Bytes) :
    Subscription.isValidFrom none filter = true ↔ WellFormed (levels filter) :=
  ⟨fun h => (formed_of_isValidFrom filter none h).1 (.inl rfl),
    fun h => isValidFrom_of_formed filter none (fun _ => h) (fun hn => absurd (.inl rfl) hn)⟩

theorem isValidTopicName_eq (filter : Bytes) :
    Subscription.isValidTopicName filter =
      (filter ≠ [reservedTopic] && Subscription.isValidFrom none filter) := by
  rw [Subscription.isValidTopicName]
  split_ifs with h1 hr
  · obtain ⟨c, rfl⟩ := List.length_eq_one_iff.mp h1
    obtain rfl : c = reservedTopic := by simpa using hr
    rfl
  · obtain ⟨c, rfl⟩ := List.length_eq_one_iff.mp h1
    have hc : c ≠ reservedTopic := by simpa using hr
    simp [Subscription.isValidFrom, hc]
  · have hne : filter ≠ [reservedTopic] := by
      rintro rfl
      exact h1 rfl
    simp [hne]

theorem wellFormed_of_isValidTopicName {filter : Bytes}
    (h : Subscription.isValidTopicName filter = true) : WellFormed (levels filter) := by
  rw [isValidTopicName_eq, Bool.and_eq_true] at h
  exact (isValidFrom_none_iff filter).mp h.2

/-- Every level that contains a wildcard is that wildcard, and one for many levels
stands last. -/
def WildcardsAlone (fs : List Bytes) : Prop :=
  ∀ i l, fs[i]? = some l →
    (singleLevelWildcard ∈ l → l = [singleLevelWildcard]) ∧
    (multiLevelWildcard ∈ l → l = [multiLevelWildcard] ∧ i + 1 = fs.length)

theorem wildcardsAlone_cons_iff {l : Bytes} {fs : List Bytes} :
    WildcardsAlone (l :: fs) ↔
      ((singleLevelWildcard ∈ l → l = [singleLevelWildcard]) ∧
        (multiLevelWildcard ∈ l → l = [multiLevelWildcard] ∧ fs = [])) ∧ WildcardsAlone fs := by
  constructor
  · intro h
    refine ⟨by simpa using h 0 l rfl, ?_⟩
    intro i k hk
    simpa using h (i + 1) k (by simpa using hk)
  · intro ⟨hl, hfs⟩ i k hk
    cases i with
    | zero =>
      obtain rfl : l = k := by simpa using hk
      simpa using hl
    | succ i => simpa using hfs i k (by simpa using hk)

theorem wellFormed_iff_wildcardsAlone {fs : List Bytes} (h : fs ≠ []) :
    WellFormed fs ↔ WildcardsAlone fs := by
  induction fs with
  | nil => exact absurd rfl h
  | cons l fs ih =>
    have hne : singleLevelWildcard ≠ multiLevelWildcard := by decide
    have hrest : (fs = [] ∨ WellFormed fs) ↔ WildcardsAlone fs := by
      cases fs with
      | nil => simp [WildcardsAlone]
      | cons k ks => simpa using ih (List.cons_ne_nil k ks)
    rw [wellFormed_cons_iff, wildcardsAlone_cons_iff, hrest]
    constructor
    · rintro (⟨rfl, rfl⟩ | ⟨rfl | hlit, hfs⟩)
      · exact ⟨⟨by simp [hne], fun _ => ⟨rfl, rfl⟩⟩, by simp [WildcardsAlone]⟩
      · exact ⟨⟨fun _ => rfl, by simp [hne.symm]⟩, hfs⟩
      · exact ⟨⟨fun hs => absurd hs hlit.1, fun hm => absurd hm hlit.2⟩, hfs⟩
    · intro ⟨⟨hsingle, hmulti⟩, hfs⟩
      by_cases hm : multiLevelWildcard ∈ l
      · exact .inl ⟨(hmulti hm).2, (hmulti hm).1⟩
      · by_cases hs : singleLevelWildcard ∈ l
        · exact .inr ⟨.inl (hsingle hs), hfs⟩
        · exact .inr ⟨.inr ⟨hs, hm⟩, hfs⟩

/-- The scan accepts exactly the topic filters of the protocol, but for the reserved
character alone. -/
theorem isValidTopicName_iff (topic : Bytes) :
    Subscription.isValidTopicName topic = true ↔
      topic ≠ [reservedTopic] ∧ WildcardsAlone (levels topic) := by
  rw [isValidTopicName_eq, Bool.and_eq_true, decide_eq_true_iff, isValidFrom_none_iff,
    wellFormed_iff_wildcardsAlone (levels_ne_nil topic)]

end AwsIotSdk
