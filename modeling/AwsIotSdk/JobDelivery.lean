import AwsIotSdk.Delivery
import AwsIotSdk.InboundPackets
import AwsIotSdk.JobTopics
import AwsIotSdk.TopicMatching

/-! Which messages of the Jobs service come to which subscription made for it. The search by
expressions finds what a look at the arguments of the subscriptions finds. -/

namespace AwsIotSdk

open EcmaRegex

/-! ### Matching level by level -/

/-- What the expression of a filter matches. -/
def Matches (fs ts : List Bytes) : Prop := LevelsMatch fs ts ∧ ¬ TailLost fs ts

theorem matches_cons_iff {l : Bytes} (hl : l = [singleLevelWildcard] ∨ Literal l) {fs : List Bytes}
    (hfs : fs ≠ []) (u : Bytes) (ts : List Bytes) :
    Matches (l :: fs) (u :: ts) ↔ (l = [singleLevelWildcard] ∨ u = l) ∧ Matches fs ts := by
  rw [Matches, levelsMatch_cons_iff hl hfs, tailLost_cons hfs, and_assoc]
  rfl

theorem not_matches_nil {l : Bytes} {fs : List Bytes} (hfs : fs ≠ []) : ¬ Matches (l :: fs) [] := by
  intro h
  have hmulti := eq_multi_of_levelsMatch_nil (List.cons_ne_nil l fs) h.1
  exact hfs (List.cons.inj hmulti).2

theorem matches_append_iff {pre fs ts : List Bytes} (hpre : ∀ l ∈ pre, Literal l) (hfs : fs ≠ []) :
    Matches (pre ++ fs) (pre ++ ts) ↔ Matches fs ts := by
  induction pre with
  | nil => rfl
  | cons l pre ih =>
    obtain ⟨hl, hpre⟩ := List.forall_mem_cons.mp hpre
    have hne : pre ++ fs ≠ [] := by simp [hfs]
    rw [List.cons_append, List.cons_append, matches_cons_iff (.inr hl) hne, ih hpre]
    simp

theorem matches_singleton_iff {l : Bytes} (hl : Literal l) (ts : List Bytes) :
    Matches [l] ts ↔ ts = [l] := by
  have hsingle : l ≠ [singleLevelWildcard] := by
    rintro rfl
    exact hl.1 (List.mem_singleton_self _)
  have hlost : ¬ TailLost [l] ts := by
    rintro ⟨h, -⟩
    cases Option.some.inj h
    exact hl.2 (List.mem_singleton_self _)
  rw [Matches, levelsMatch_singleton_iff (.inr hl)]
  simp [hsingle, hlost]

/-- No level holds a byte that the class for many levels leaves out. -/
def Clean (ts : List Bytes) : Prop := ∀ l ∈ ts, ∀ b ∈ l, isExcluded b = false

theorem forall_mem_of_all {P : UInt8 → Prop} [DecidablePred P] {l : Bytes}
    (h : (l.all fun b => decide (P b)) = true) : ∀ b ∈ l, P b :=
  fun b hb => of_decide_eq_true (List.all_eq_true.mp h b hb)

theorem forall_mem_levels_of_all {P : UInt8 → Prop} [DecidablePred P] {ls : List Bytes}
    (h : (ls.all fun l => l.all fun b => decide (P b)) = true) : ∀ l ∈ ls, ∀ b ∈ l, P b :=
  fun l hl => forall_mem_of_all (List.all_eq_true.mp h l hl)

theorem matches_multi_iff {ts : List Bytes} (hts : Clean ts) :
    Matches [[multiLevelWildcard]] ts ↔ ts ≠ [] := by
  have hlost : TailLost [[multiLevelWildcard]] ts ↔ ts = [] := by
    constructor
    · rintro ⟨-, hshort | ⟨l, hl, b, hb, hexcluded⟩⟩
      · simpa using hshort
      · rw [hts l (List.mem_of_mem_drop hl) b hb] at hexcluded
        cases hexcluded
    · rintro rfl
      exact ⟨rfl, .inl (by simp)⟩
  rw [Matches, hlost]
  simp [LevelsMatch.multi]

/-- The entry of a filter matches a topic as its levels do. -/
theorem matchesEntry_iff {heap : SubscriptionHeap} {p : SubscriptionPtr} {f t : Bytes}
    (hregex : (heap p).pTopicRegex = Subscription.topicRegex f) (hwf : WellFormed (levels f))
    (hspecial : SpecialFree f) (ht : Literal t) (hnul : NulFree t) :
    ∃ found, ClientState.matchesEntry heap t (f, p) = .ok found ∧
      (found = true ↔ Matches (levels f) (levels t)) := by
  by_cases hf : Literal f
  · refine ⟨decide (f = t), ?_, ?_⟩
    · rw [ClientState.matchesEntry, hregex, topicRegex_of_literal hf]
      by_cases h : f = t <;> simp [h]
    · have hlost : ¬ TailLost (levels f) (levels t) := by
        rintro ⟨hlast, -⟩
        exact (literal_of_mem_levels hf (List.mem_of_getLast? hlast)).2 (List.mem_singleton_self _)
      rw [decide_eq_true_iff, Matches, and_iff_left hlost]
      constructor
      · rintro rfl
        exact levelsMatch_refl _
      · intro h
        exact levels_injective (eq_of_levelsMatch (fun l hl => literal_of_mem_levels hf hl) h)
  · obtain ⟨r, hparse, hr⟩ := parse_flatMap_regexPiece hspecial
    have hne : f ≠ t := by
      rintro rfl
      exact hf ht
    have hpos : 0 < (f.flatMap Subscription.regexPiece).length := by
      have hle := length_le_flatMap_regexPiece f
      have hf0 : f ≠ [] := by
        rintro rfl
        exact hf ⟨List.not_mem_nil, List.not_mem_nil⟩
      have hlen := List.length_pos_iff.mpr hf0
      omega
    refine ⟨regexMatch r t, ?_, ?_⟩
    · rw [ClientState.matchesEntry, hregex, topicRegex_of_not_literal hf]
      simp only [if_neg hne, if_pos hpos, hparse, cStr_of_nulFree hnul]
    · rw [hr.regexMatch_iff, mem_filterLanguage_iff f hwf t]
      rfl

namespace Jobs

/-! ### The topics of the arguments -/

/-- The arguments that a topic is made of. -/
structure JobTopicArgs where
  topicType : JobExecutionTopicType
  replyType : JobExecutionTopicReplyType
  jobId : Bytes
  deriving DecidableEq, Repr

/-- A name without the characters that mean something in a topic, a filter or an expression. -/
def PlainName (name : Bytes) : Prop :=
  ∀ b ∈ name, b ≠ levelSeparator ∧ b ≠ multiLevelWildcard ∧ (isSyntax b = true → b = reservedTopic) ∧
    b ≠ 0 ∧ isExcluded b = false

/-- The arguments of a topic that a message comes on. -/
structure NamesTopic (m : JobTopicArgs) : Prop where
  topicType : m.topicType ≠ .jobWildcardTopic
  replyType : m.replyType ≠ .jobWildcardReplyType ∧ m.replyType ≠ .jobUnrecognizedTopicType
  jobId : PlainName m.jobId

/-- The arguments of a filter. The job id may be the wildcard for one level. -/
structure NamesFilter (f : JobTopicArgs) : Prop where
  replyType : f.replyType ≠ .jobUnrecognizedTopicType
  jobId : PlainName f.jobId ∨ f.jobId = text "+"

/-- The filter is for the topic: one for all topics, one for the same request and reply, or one
for all replies that a job with the name of its operation comes in the way of. -/
def Covers (f m : JobTopicArgs) : Prop :=
  f.topicType = .jobWildcardTopic ∨
    f.topicType = m.topicType ∧ (f.jobId = text "+" ∨ m.jobId = f.jobId) ∧
      (f.replyType = m.replyType ∨ f.replyType = .jobWildcardReplyType ∧ m.replyType ≠ .jobRequestType) ∨
    f.replyType = .jobWildcardReplyType ∧ baseTopicRequiresJobId f.topicType = false ∧
      baseTopicRequiresJobId m.topicType = true ∧ m.jobId = getOperationForBaseTopic f.topicType

instance decidableCovers (f m : JobTopicArgs) : Decidable (Covers f m) :=
  inferInstanceAs (Decidable (_ ∨ _ ∧ _ ∧ _ ∨ _ ∧ _ ∧ _ ∧ _))

theorem literal_of_plainName {name : Bytes} (h : PlainName name) : Literal name := by
  constructor
  · intro hmem
    have hreserved := (h _ hmem).2.2.1 rfl
    exact absurd hreserved (by decide)
  · intro hmem
    exact (h _ hmem).2.1 rfl

theorem levels_of_plainName {name : Bytes} (h : PlainName name) : levels name = [name] :=
  levels_of_not_mem fun hmem => (h _ hmem).1 rfl

/-- The levels behind the one for the jobs of the thing. -/
def pathLevels (a : JobTopicArgs) : List Bytes :=
  if a.topicType = .jobWildcardTopic then [[multiLevelWildcard]]
  else jobIdLevels a.topicType a.jobId ++
    getOperationForBaseTopic a.topicType :: replyLevels a.replyType

def rootLevels (s : Jobs) : List Bytes := levels (baseThingsTopic ++ s.thingName ++ text "/jobs")

theorem levels_getJobTopic {s : Jobs} {a : JobTopicArgs} {topic : Utf8String}
    (h : s.getJobTopic a.topicType a.replyType a.jobId = some topic) :
    levels topic.data = s.rootLevels ++ pathLevels a := by
  have hroot : ∀ path, levels (baseThingsTopic ++ s.thingName ++ text "/jobs/" ++ path) =
      s.rootLevels ++ levels path := by
    intro path
    rw [rootLevels, ← levels_append_separator]
    simp [text, levelSeparator]
  by_cases hwildcard : a.topicType = .jobWildcardTopic
  · have hdata : topic.data = baseThingsTopic ++ s.thingName ++ text "/jobs/" ++ text "#" := by
      rw [hwildcard, getJobTopic] at h
      simp only [baseTopicRequiresJobId, getOperationForBaseTopic] at h
      split_ifs at h <;> simp_all [Utf8String.data_of_create h, text]
    rw [hdata, hroot, pathLevels, if_pos hwildcard]
    rfl
  · obtain ⟨hdata, -, -⟩ := getJobTopic_eq_some hwildcard h
    rw [hdata, hroot, levels_jobPath, pathLevels, if_neg hwildcard]

theorem literal_operation {t : JobExecutionTopicType} (h : t ≠ .jobWildcardTopic) :
    Literal (getOperationForBaseTopic t) := by
  cases t with
  | jobWildcardTopic => exact absurd rfl h
  | _ => exact ⟨by decide, by decide⟩

/-- The levels behind the operation. -/
def RepliesMatch (r : JobExecutionTopicReplyType) (ts : List Bytes) : Prop :=
  if r = .jobWildcardReplyType then ts ≠ [] else ts = replyLevels r

theorem matches_operation_iff {t : JobExecutionTopicType} (ht : t ≠ .jobWildcardTopic)
    (r : JobExecutionTopicReplyType) {ts : List Bytes} (hts : Clean ts) :
    Matches (getOperationForBaseTopic t :: replyLevels r) ts ↔
      ∃ rest, ts = getOperationForBaseTopic t :: rest ∧ RepliesMatch r rest := by
  have hop := literal_operation ht
  have hcons {reply : Bytes} (hreply : ∀ ts, Clean ts → (Matches [reply] ts ↔ RepliesMatch r ts)) :
      Matches [getOperationForBaseTopic t, reply] ts ↔
        ∃ rest, ts = getOperationForBaseTopic t :: rest ∧ RepliesMatch r rest := by
    cases ts with
    | nil => exact iff_of_false (not_matches_nil (List.cons_ne_nil _ _)) (by simp)
    | cons u ts =>
      have hclean : Clean ts := fun l hl => hts l (List.mem_cons_of_mem u hl)
      have hne : getOperationForBaseTopic t ≠ [singleLevelWildcard] := by
        intro hsingle
        exact hop.1 (by rw [hsingle]; exact List.mem_singleton_self _)
      rw [matches_cons_iff (.inr hop) (List.cons_ne_nil _ _), hreply ts hclean]
      simp [hne]
  cases r with
  | jobRequestType | jobUnrecognizedTopicType =>
    rw [replyLevels, matches_singleton_iff hop]
    simp [RepliesMatch, replyLevels]
  | jobAcceptedReplyType | jobRejectedReplyType =>
    refine hcons fun ts _ => ?_
    rw [matches_singleton_iff ⟨by decide, by decide⟩]
    simp [RepliesMatch, replyLevels]
  | jobWildcardReplyType =>
    refine hcons fun ts hclean => ?_
    rw [show text "#" = [multiLevelWildcard] from rfl, matches_multi_iff hclean]
    simp [RepliesMatch]

theorem repliesMatch_replyLevels {r r' : JobExecutionTopicReplyType}
    (hr : r ≠ .jobUnrecognizedTopicType)
    (hr' : r' ≠ .jobWildcardReplyType ∧ r' ≠ .jobUnrecognizedTopicType) :
    RepliesMatch r (replyLevels r') ↔
      r = r' ∨ r = .jobWildcardReplyType ∧ r' ≠ .jobRequestType := by
  cases r <;> cases r' <;> simp_all [RepliesMatch, replyLevels] <;> decide

/-- An operation with a job is no word of a reply. -/
theorem replyLevels_ne_cons (r : JobExecutionTopicReplyType) {t : JobExecutionTopicType}
    (ht : baseTopicRequiresJobId t = true) (rest : List Bytes) :
    replyLevels r ≠ getOperationForBaseTopic t :: rest := by
  intro h
  have hhead : (replyLevels r).head? = some (getOperationForBaseTopic t) := by rw [h, List.head?_cons]
  cases t with
  | jobUpdateTopic | jobDescribeTopic => cases r <;> exact absurd hhead (by decide)
  | _ => cases ht

/-- The arguments are such that there is a topic for them. -/
structure HasTopic (a : JobTopicArgs) : Prop where
  jobId : JobIdFits a.topicType a.jobId
  topicType : a.topicType ≠ .jobUnrecognizedTopic

theorem operation_injective {t t' : JobExecutionTopicType}
    (ht : t ≠ .jobWildcardTopic ∧ t ≠ .jobUnrecognizedTopic)
    (ht' : t' ≠ .jobWildcardTopic ∧ t' ≠ .jobUnrecognizedTopic)
    (hrequire : baseTopicRequiresJobId t = baseTopicRequiresJobId t') :
    getOperationForBaseTopic t' = getOperationForBaseTopic t ↔ t = t' := by
  constructor
  · intro h
    rw [← topicTypeOf_operation ht.1 ht.2, ← topicTypeOf_operation ht'.1 ht'.2, hrequire, h]
  · rintro rfl
    rfl

theorem clean_replyLevels (r : JobExecutionTopicReplyType) : Clean (replyLevels r) := by
  cases r <;> exact forall_mem_levels_of_all (by decide)

theorem clean_pathLevels {m : JobTopicArgs} (hm : NamesTopic m) : Clean (pathLevels m) := by
  rw [pathLevels, if_neg hm.topicType]
  intro l hl
  rcases List.mem_append.mp hl with hid | hrest
  · rw [jobIdLevels, levels_of_plainName hm.jobId] at hid
    split_ifs at hid
    · rw [List.mem_singleton.mp hid]
      exact fun b hb => (hm.jobId b hb).2.2.2.2
    · cases hid
  · rcases List.mem_cons.mp hrest with rfl | hreply
    · cases m.topicType <;> exact forall_mem_of_all (by decide)
    · exact clean_replyLevels m.replyType l hreply

theorem pathLevels_of_requires {a : JobTopicArgs} (hwildcard : a.topicType ≠ .jobWildcardTopic)
    (hrequire : baseTopicRequiresJobId a.topicType = true) (hid : levels a.jobId = [a.jobId]) :
    pathLevels a = a.jobId :: getOperationForBaseTopic a.topicType :: replyLevels a.replyType := by
  rw [pathLevels, if_neg hwildcard, jobIdLevels, if_pos hrequire, hid]
  rfl

theorem pathLevels_of_not_requires {a : JobTopicArgs} (hwildcard : a.topicType ≠ .jobWildcardTopic)
    (hrequire : baseTopicRequiresJobId a.topicType = false) :
    pathLevels a = getOperationForBaseTopic a.topicType :: replyLevels a.replyType := by
  rw [pathLevels, if_neg hwildcard, jobIdLevels, if_neg (by simp [hrequire])]
  rfl

theorem NamesFilter.level {f : JobTopicArgs} (hf : NamesFilter f) :
    levels f.jobId = [f.jobId] ∧ (f.jobId = [singleLevelWildcard] ∨ Literal f.jobId) := by
  rcases hf.jobId with hplain | hplus
  · exact ⟨levels_of_plainName hplain, .inr (literal_of_plainName hplain)⟩
  · rw [hplus]
    exact ⟨levels_of_not_mem (by decide), .inl rfl⟩

/-- A filter matches the topics that it is for. -/
theorem matches_pathLevels_iff {f m : JobTopicArgs} (hf : NamesFilter f) (hm : NamesTopic m)
    (hffits : f.topicType ≠ .jobWildcardTopic → HasTopic f) (hmfits : HasTopic m) :
    Matches (pathLevels f) (pathLevels m) ↔ Covers f m := by
  have hclean := clean_pathLevels hm
  by_cases hwildcard : f.topicType = .jobWildcardTopic
  · rw [show pathLevels f = [[multiLevelWildcard]] from if_pos hwildcard, matches_multi_iff hclean,
      pathLevels, if_neg hm.topicType]
    simp [Covers, hwildcard]
  have hfhas := hffits hwildcard
  have hreplies := repliesMatch_replyLevels hf.replyType hm.replyType
  have hops := operation_injective ⟨hwildcard, hfhas.topicType⟩ ⟨hm.topicType, hmfits.topicType⟩
  have hmid := levels_of_plainName hm.jobId
  obtain ⟨hfid, hlevel⟩ := hf.level
  have hplus : text "+" = [singleLevelWildcard] := rfl
  cases hrequire : baseTopicRequiresJobId f.topicType with
  | true =>
    have hsame : f.topicType = m.topicType → baseTopicRequiresJobId m.topicType = true :=
      fun ht => ht ▸ hrequire
    rw [pathLevels_of_requires hwildcard hrequire hfid, Covers, hplus]
    cases hrequire' : baseTopicRequiresJobId m.topicType with
    | true =>
      rw [pathLevels_of_requires hm.topicType hrequire' hmid] at hclean ⊢
      have hrest : Clean (getOperationForBaseTopic m.topicType :: replyLevels m.replyType) :=
        fun l hl => hclean l (List.mem_cons_of_mem _ hl)
      rw [matches_cons_iff hlevel (List.cons_ne_nil _ _), matches_operation_iff hwildcard _ hrest]
      constructor
      · rintro ⟨hid, rest, hcons, hreply⟩
        obtain ⟨hop, rfl⟩ := List.cons.inj hcons
        exact .inr (.inl ⟨(hops (hrequire.trans hrequire'.symm)).mp hop, hid, hreplies.mp hreply⟩)
      · rintro (hall | ⟨ht, hid, hreply⟩ | ⟨-, hnone, -⟩)
        · exact absurd hall hwildcard
        · exact ⟨hid, _, by rw [ht], hreplies.mpr hreply⟩
        · rw [hrequire] at hnone
          cases hnone
    | false =>
      rw [pathLevels_of_not_requires hm.topicType hrequire'] at hclean ⊢
      have hrest : Clean (replyLevels m.replyType) := clean_replyLevels _
      rw [matches_cons_iff hlevel (List.cons_ne_nil _ _), matches_operation_iff hwildcard _ hrest]
      refine iff_of_false ?_ ?_
      · rintro ⟨-, rest, hcons, -⟩
        exact replyLevels_ne_cons _ hrequire _ hcons
      · rintro (hall | ⟨ht, -⟩ | ⟨-, hnone, -⟩)
        · exact hwildcard hall
        · rw [hsame ht] at hrequire'
          cases hrequire'
        · rw [hrequire] at hnone
          cases hnone
  | false =>
    have hnoid : f.jobId = [] := hfhas.jobId.mpr hrequire
    rw [pathLevels_of_not_requires hwildcard hrequire, matches_operation_iff hwildcard _ hclean,
      Covers, hplus]
    cases hrequire' : baseTopicRequiresJobId m.topicType with
    | true =>
      rw [pathLevels_of_requires hm.topicType hrequire' hmid]
      constructor
      · rintro ⟨rest, hcons, hreply⟩
        obtain ⟨hid, rfl⟩ := List.cons.inj hcons
        rw [RepliesMatch] at hreply
        split_ifs at hreply with hall
        · exact .inr (.inr ⟨hall, hrequire, rfl, hid⟩)
        · exact absurd hreply.symm (replyLevels_ne_cons _ hrequire' _)
      · rintro (hall | ⟨ht, -⟩ | ⟨hall, -, -, hid⟩)
        · exact absurd hall hwildcard
        · rw [ht, hrequire'] at hrequire
          cases hrequire
        · exact ⟨_, by rw [hid], by rw [RepliesMatch, if_pos hall]; exact List.cons_ne_nil _ _⟩
    | false =>
      have hnoid' : m.jobId = [] := hmfits.jobId.mpr hrequire'
      rw [pathLevels_of_not_requires hm.topicType hrequire']
      constructor
      · rintro ⟨rest, hcons, hreply⟩
        obtain ⟨hop, rfl⟩ := List.cons.inj hcons
        exact .inr (.inl ⟨(hops (hrequire.trans hrequire'.symm)).mp hop,
          .inr (hnoid'.trans hnoid.symm), hreplies.mp hreply⟩)
      · rintro (hall | ⟨ht, -, hreply⟩ | ⟨-, -, hno, -⟩)
        · exact absurd hall hwildcard
        · exact ⟨_, by rw [ht], hreplies.mpr hreply⟩
        · cases hno

/-! ### The bytes of a topic -/

theorem forall_mem_getJobTopic {P : UInt8 → Prop} {s : Jobs} {a : JobTopicArgs} {topic : Utf8String}
    (h : s.getJobTopic a.topicType a.replyType a.jobId = some topic) (hsep : P levelSeparator)
    (hroot : ∀ b ∈ baseThingsTopic ++ s.thingName ++ text "/jobs", P b)
    (hpath : ∀ l ∈ pathLevels a, ∀ b ∈ l, P b) (b : UInt8) (hb : b ∈ topic.data) : P b := by
  by_cases hb' : b = levelSeparator
  · exact hb' ▸ hsep
  · obtain ⟨l, hl, hbl⟩ := (mem_levels hb' topic.data).mpr hb
    rw [levels_getJobTopic h] at hl
    rcases List.mem_append.mp hl with hl | hl
    · exact hroot b ((mem_levels hb' _).mp ⟨l, hl, hbl⟩)
    · exact hpath l hl b hbl

theorem forall_mem_root {P : UInt8 → Prop} {s : Jobs} (hbase : ∀ b ∈ baseThingsTopic, P b)
    (hthing : ∀ b ∈ s.thingName, P b) (hjobs : ∀ b ∈ text "/jobs", P b) :
    ∀ b ∈ baseThingsTopic ++ s.thingName ++ text "/jobs", P b := by
  intro b hb
  rw [List.mem_append, List.mem_append] at hb
  rcases hb with (hb | hb) | hb
  · exact hbase b hb
  · exact hthing b hb
  · exact hjobs b hb

theorem literal_rootLevels {s : Jobs} (hthing : PlainName s.thingName) :
    ∀ l ∈ s.rootLevels, Literal l := by
  have hroot : ∀ b ∈ baseThingsTopic ++ s.thingName ++ text "/jobs",
      b ≠ singleLevelWildcard ∧ b ≠ multiLevelWildcard := by
    refine forall_mem_root (forall_mem_of_all (by decide)) (fun b hb => ⟨?_, (hthing b hb).2.1⟩)
      (forall_mem_of_all (by decide))
    rintro rfl
    exact (literal_of_plainName hthing).1 hb
  intro l hl
  have hmem : ∀ b, b ≠ levelSeparator → b ∈ l → b ∈ baseThingsTopic ++ s.thingName ++ text "/jobs" :=
    fun b hsep hb => (mem_levels hsep _).mp ⟨l, hl, hb⟩
  exact ⟨fun hb => (hroot _ (hmem _ (by decide) hb)).1 rfl,
    fun hb => (hroot _ (hmem _ (by decide) hb)).2 rfl⟩

theorem forall_mem_pathLevels {P : UInt8 → Prop} {a : JobTopicArgs} (hid : levels a.jobId = [a.jobId])
    (hall : a.topicType = .jobWildcardTopic → P multiLevelWildcard) (hjob : ∀ b ∈ a.jobId, P b)
    (hop : ∀ b ∈ getOperationForBaseTopic a.topicType, P b)
    (hreply : ∀ l ∈ replyLevels a.replyType, ∀ b ∈ l, P b) : ∀ l ∈ pathLevels a, ∀ b ∈ l, P b := by
  intro l hl
  rw [pathLevels] at hl
  split_ifs at hl with hwildcard
  · rw [List.mem_singleton.mp hl]
    exact fun b hb => List.mem_singleton.mp hb ▸ hall hwildcard
  · rw [List.mem_append, List.mem_cons, jobIdLevels, hid] at hl
    rcases hl with hl | rfl | hl
    · split_ifs at hl
      · exact List.mem_singleton.mp hl ▸ hjob
      · cases hl
    · exact hop
    · exact hreply l hl

/-- The expression of a filter for jobs is one whose language is known. -/
theorem specialFree_getJobTopic {s : Jobs} {f : JobTopicArgs} {topic : Utf8String}
    (hthing : PlainName s.thingName) (hf : NamesFilter f)
    (h : s.getJobTopic f.topicType f.replyType f.jobId = some topic) : SpecialFree topic.data := by
  refine forall_mem_getJobTopic h (by decide)
    (forall_mem_root (forall_mem_of_all (by decide)) ?_ (forall_mem_of_all (by decide)))
    (forall_mem_pathLevels hf.level.1 (fun _ => by decide) ?_ ?_ ?_)
  · exact fun b hb hsyntax => .inr ((hthing b hb).2.2.1 hsyntax)
  · rcases hf.jobId with hplain | hplus
    · exact fun b hb hsyntax => .inr ((hplain b hb).2.2.1 hsyntax)
    · rw [hplus]
      exact forall_mem_of_all (by decide)
  · cases f.topicType <;> exact forall_mem_of_all (by decide)
  · cases f.replyType <;> exact forall_mem_levels_of_all (by decide)

/-- A topic of a message has no wildcards, and no character that ends a string. -/
theorem literal_getJobTopic {s : Jobs} {m : JobTopicArgs} {topic : Utf8String}
    (hthing : PlainName s.thingName) (hm : NamesTopic m)
    (h : s.getJobTopic m.topicType m.replyType m.jobId = some topic) :
    Literal topic.data ∧ NulFree topic.data := by
  have hplain : ∀ b ∈ topic.data, b ≠ singleLevelWildcard ∧ b ≠ multiLevelWildcard ∧ b ≠ 0 := by
    have hname : ∀ {name : Bytes}, PlainName name →
        ∀ b ∈ name, b ≠ singleLevelWildcard ∧ b ≠ multiLevelWildcard ∧ b ≠ 0 := by
      intro name hname b hb
      refine ⟨?_, (hname b hb).2.1, (hname b hb).2.2.2.1⟩
      rintro rfl
      exact (literal_of_plainName hname).1 hb
    refine forall_mem_getJobTopic h (by decide)
      (forall_mem_root (forall_mem_of_all (by decide)) (hname hthing) (forall_mem_of_all (by decide)))
      (forall_mem_pathLevels (levels_of_plainName hm.jobId) (fun hall => absurd hall hm.topicType)
        (hname hm.jobId) ?_ ?_)
    · have htype := hm.topicType
      revert htype
      cases m.topicType <;> intro htype <;>
        first | exact absurd rfl htype | exact forall_mem_of_all (by decide)
    · have hreply := hm.replyType
      revert hreply
      cases m.replyType <;> intro hreply <;>
        first | exact forall_mem_levels_of_all (by decide) | exact absurd hreply (by decide)
  exact ⟨⟨fun hb => (hplain _ hb).1 rfl, fun hb => (hplain _ hb).2.1 rfl⟩,
    fun hb => (hplain _ hb).2.2 rfl⟩

/-! ### The search -/

def createJobsSubscription (s : Jobs) (qos : QoS) (pAppHandler : Option Nat) (pAppHandlerData : Nat)
    (topicType : JobExecutionTopicType) (replyType : JobExecutionTopicReplyType) (jobId : Bytes) :
    Option Subscription :=
  Subscription.create (s.getJobTopic topicType replyType jobId) qos pAppHandler pAppHandlerData

/-- The entry holds a subscription that was made with the arguments. -/
structure MadeFor (s : Jobs) (c : ClientState) (e : Bytes × SubscriptionPtr) (a : JobTopicArgs) :
    Prop where
  names : NamesFilter a
  made : ∃ qos handler handlerData sub,
    s.createJobsSubscription qos handler handlerData a.topicType a.replyType a.jobId = some sub ∧
      e.1 = sub.pTopicName.data ∧ (c.heap e.2).pTopicRegex = sub.pTopicRegex ∧
      (c.heap e.2).pAppHandler = sub.pAppHandler

theorem createJobsSubscription_eq_some {s : Jobs} {qos : QoS} {handler : Option Nat}
    {handlerData : Nat} {a : JobTopicArgs} {sub : Subscription}
    (h : s.createJobsSubscription qos handler handlerData a.topicType a.replyType a.jobId = some sub) :
    ∃ f g, s.getJobTopic a.topicType a.replyType a.jobId = some f ∧ sub.pTopicName = f ∧
      sub.pAppHandler = some g ∧ Subscription.isValidTopicName f.data = true ∧
      sub.pTopicRegex = Subscription.topicRegex f.data := by
  rw [createJobsSubscription] at h
  cases htopic : s.getJobTopic a.topicType a.replyType a.jobId with
  | none =>
    rw [htopic] at h
    cases h
  | some f =>
    rw [htopic] at h
    obtain ⟨hvalid, hregex⟩ := isValidTopicName_of_create h
    cases handler with
    | none => cases h
    | some g =>
      rw [Subscription.create, if_pos hvalid] at h
      cases h
      exact ⟨f, g, rfl, rfl, rfl, hvalid, hregex⟩

variable {s : Jobs} {c : ClientState} {args : Bytes × SubscriptionPtr → JobTopicArgs}
  {m : JobTopicArgs} {topic : Utf8String}

theorem matchesEntry_of_madeFor (hthing : PlainName s.thingName) (hm : NamesTopic m)
    (htopic : s.getJobTopic m.topicType m.replyType m.jobId = some topic)
    {e : Bytes × SubscriptionPtr} {a : JobTopicArgs} (he : MadeFor s c e a) :
    ClientState.matchesEntry c.heap topic.data e = .ok (decide (Covers a m)) := by
  obtain ⟨qos, handler, handlerData, sub, hsub, hkey, hregex, -⟩ := he.made
  obtain ⟨f, g, hf, hname, -, hvalid, hexpr⟩ := createJobsSubscription_eq_some hsub
  obtain ⟨hliteral, hnul⟩ := literal_getJobTopic hthing hm htopic
  have hwf := wellFormed_of_isValidTopicName hvalid
  have hspecial := specialFree_getJobTopic hthing he.names hf
  obtain ⟨found, hfound, hiff⟩ := matchesEntry_iff (hregex.trans hexpr) hwf hspecial hliteral hnul
  have hffits : a.topicType ≠ .jobWildcardTopic → HasTopic a := by
    intro hwildcard
    obtain ⟨-, hid, htype⟩ := getJobTopic_eq_some hwildcard hf
    exact ⟨hid, htype⟩
  have hmfits : HasTopic m := by
    obtain ⟨-, hid, htype⟩ := getJobTopic_eq_some hm.topicType htopic
    exact ⟨hid, htype⟩
  have hpath : pathLevels a ≠ [] := by
    rw [pathLevels]
    split_ifs <;> simp
  rw [levels_getJobTopic hf, levels_getJobTopic htopic, matches_append_iff (literal_rootLevels hthing) hpath,
    matches_pathLevels_iff he.names hm hffits hmfits] at hiff
  have hentry : e = (f.data, e.2) := Prod.ext (by rw [hkey, hname]) rfl
  rw [hentry, hfound]
  exact congrArg Except.ok (Bool.eq_iff_iff.mpr (hiff.trans decide_eq_true_iff.symm))

/-- The search takes the first subscription that covers the topic. -/
theorem getSubscription_eq_find (hthing : PlainName s.thingName)
    (hmap : ∀ e ∈ c.subscriptionMap.entries, MadeFor s c e (args e)) (hm : NamesTopic m)
    (htopic : s.getJobTopic m.topicType m.replyType m.jobId = some topic) :
    c.getSubscription topic.data =
      .ok ((c.subscriptionMap.entries.find? fun e => decide (Covers (args e) m)).map Prod.snd) := by
  rw [ClientState.getSubscription]
  generalize c.subscriptionMap.entries = es at hmap
  induction es with
  | nil => rfl
  | cons e es ih =>
    obtain ⟨he, hes⟩ := List.forall_mem_cons.mp hmap
    have hmatch := matchesEntry_of_madeFor hthing hm htopic he
    by_cases hcovers : Covers (args e) m
    · rw [findEntry_cons_of_match (by rw [hmatch, decide_eq_true hcovers]),
        List.find?_cons_of_pos (by simpa using hcovers)]
      rfl
    · have hpass : ∀ x ∈ [e], ClientState.matchesEntry c.heap topic.data x = .ok false := by
        intro x hx
        rw [List.mem_singleton.mp hx, hmatch, decide_eq_false hcovers]
      rw [← List.singleton_append, findEntry_append hpass, List.singleton_append,
        List.find?_cons_of_neg (by simpa using hcovers)]
      exact ih hes

/-- What the client does with a message of the service: it goes to the first subscription that
covers its topic, if that one is active, and to no other. -/
theorem handlePublish_of_covers (hthing : PlainName s.thingName)
    (hmap : ∀ e ∈ c.subscriptionMap.entries, MadeFor s c e (args e)) (hm : NamesTopic m)
    (htopic : s.getJobTopic m.topicType m.replyType m.jobId = some topic) {buf : Bytes}
    {isRetained isDuplicate : Bool} {qos : QoS} {p : PublishPacket}
    (hp : PublishPacket.create buf isRetained isDuplicate qos = .ok (some p))
    (hname : p.pTopicName.toStdString = topic.data) :
    match c.subscriptionMap.entries.find? fun e => decide (Covers (args e) m) with
    | none => NetworkRead.handlePublish c buf isRetained isDuplicate qos =
        .ok (.mqttNoSubscriptionFound, c)
    | some e => ∃ g, (c.heap e.2).pAppHandler = some g ∧
        NetworkRead.handlePublish c buf isRetained isDuplicate qos =
          .ok (if (c.heap e.2).isActive then afterPuback (afterCall c (c.heap e.2) g p) p qos
            else (.mqttSubscriptionNotActive, c)) := by
  have hsearch := getSubscription_eq_find hthing hmap hm htopic
  rw [← hname] at hsearch
  rw [handlePublish_of_create hp]
  cases hfind : c.subscriptionMap.entries.find? fun e => decide (Covers (args e) m) with
  | none =>
    rw [hfind] at hsearch
    show NetworkRead.deliverPublish c p qos = _
    rw [NetworkRead.deliverPublish, hsearch]
    rfl
  | some e =>
    rw [hfind] at hsearch
    obtain ⟨_, _, _, sub, hsub, -, -, hhandler⟩ := (hmap e (List.mem_of_find?_eq_some hfind)).made
    obtain ⟨_, g, -, -, hg, -, -⟩ := createJobsSubscription_eq_some hsub
    refine ⟨g, hhandler.trans hg, ?_⟩
    by_cases hactive : (c.heap e.2).isActive = true
    · rw [if_pos hactive]
      exact deliverPublish_of_active qos hsearch hactive (hhandler.trans hg)
    · rw [if_neg hactive, NetworkRead.deliverPublish, hsearch]
      exact if_neg hactive

def jobsOfA : Jobs := ⟨text "a", []⟩

/-- The filter for all replies to the requests for the pending jobs. -/
def pendingReplies : Utf8String := ⟨text "$aws/things/a/jobs/get/#", by decide +kernel⟩

def pendingArgs : JobTopicArgs := ⟨.jobGetPendingTopic, .jobWildcardReplyType, []⟩

/-- A reply to a request for the job that is called `get`. -/
def describedGet : Utf8String := ⟨text "$aws/things/a/jobs/get/get/accepted", by decide +kernel⟩

def describedArgs : JobTopicArgs := ⟨.jobDescribeTopic, .jobAcceptedReplyType, text "get"⟩

def pendingClient : ClientState :=
  { freshClient.insertTopic pendingReplies.data 0 with
    heap := fun _ => (Subscription.init pendingReplies .qos1 (some 7) 0).setActive true }

/-- A handler for the replies to one request is called with the reply to another. -/
theorem handlePublish_of_covers_get : ∃ p : PublishPacket, p.pTopicName = describedGet ∧
    NetworkRead.handlePublish pendingClient (0 :: 35 :: describedGet.data) false false .qos0 =
      .ok (afterPuback (afterCall pendingClient (pendingClient.heap 0) 7 p) p .qos0) := by
  have hpending : jobsOfA.getJobTopic .jobGetPendingTopic .jobWildcardReplyType [] =
      some pendingReplies := Utf8String.create_data pendingReplies
  have hdescribed : jobsOfA.getJobTopic .jobDescribeTopic .jobAcceptedReplyType (text "get") =
      some describedGet := Utf8String.create_data describedGet
  have hmade : MadeFor jobsOfA pendingClient (pendingReplies.data, 0) pendingArgs := by
    refine ⟨⟨by decide, .inl nofun⟩, .qos1, some 7, 0,
      Subscription.init pendingReplies .qos1 (some 7) 0, ?_, rfl, rfl, rfl⟩
    rw [pendingArgs, createJobsSubscription, hpending, Subscription.create]
    exact if_pos (by decide +kernel)
  have hplain : PlainName (text "a") ∧ PlainName (text "get") :=
    ⟨forall_mem_of_all (by decide), forall_mem_of_all (by decide)⟩
  have hmap : ∀ e ∈ pendingClient.subscriptionMap.entries, MadeFor jobsOfA pendingClient e pendingArgs :=
    fun e he => List.mem_singleton.mp he ▸ hmade
  have hfield : topicField (0 :: 35 :: describedGet.data) = some describedGet :=
    Utf8String.create_data describedGet
  obtain ⟨p, hp, hname⟩ := (publishPacket_create_eq_some (0 :: 35 :: describedGet.data) false false .qos0
    describedGet).mpr ⟨hfield, fun hqos => absurd rfl hqos⟩
  obtain ⟨g, hg, hresult⟩ := handlePublish_of_covers hplain.1 hmap
    (m := describedArgs) ⟨by decide, by decide, hplain.2⟩ hdescribed hp (congrArg Utf8String.data hname)
  cases hg
  exact ⟨p, hname, hresult⟩

end Jobs

end AwsIotSdk
