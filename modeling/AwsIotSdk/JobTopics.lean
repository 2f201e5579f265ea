import AwsIotSdk.Jobs
import AwsIotSdk.TopicLevels

/-! The topics of the Jobs service read backwards. The last level tells a reply, the level
before it the operation, and what is left is the job id, if there is one. -/

namespace AwsIotSdk

namespace Jobs

theorem levels_append_separator (a b : Bytes) :
    levels (a ++ levelSeparator :: b) = levels a ++ levels b :=
  List.splitOnP_append_cons a b (beq_self_eq_true _)

/-- The part of a topic behind `/jobs/`. -/
def jobPath (topicType : JobExecutionTopicType) (replyType : JobExecutionTopicReplyType)
    (jobId : Bytes) : Bytes :=
  (if baseTopicRequiresJobId topicType then jobId ++ text "/" else []) ++
    getOperationForBaseTopic topicType ++ getSuffixForTopicType replyType

/-- A job id is given exactly when the topic has one in it. -/
def JobIdFits (topicType : JobExecutionTopicType) (jobId : Bytes) : Prop :=
  jobId = [] ↔ baseTopicRequiresJobId topicType = false

theorem getJobTopic_eq_some {s : Jobs} {t : JobExecutionTopicType}
    {r : JobExecutionTopicReplyType} {j : Bytes} {topic : Utf8String}
    (ht : t ≠ .jobWildcardTopic) (h : s.getJobTopic t r j = some topic) :
    topic.data = baseThingsTopic ++ s.thingName ++ text "/jobs/" ++ jobPath t r j ∧
      JobIdFits t j ∧ t ≠ .jobUnrecognizedTopic := by
  rw [getJobTopic] at h
  dsimp only at h
  split_ifs at h with hthing hnotify hgiven hmissing hoperation hrequire
  · have hdata := Utf8String.data_of_create h
    have hne : j ≠ [] := fun hj => hmissing ⟨hj, hrequire⟩
    refine ⟨?_, ?_, ?_⟩
    · rw [hdata, jobPath, if_pos hrequire]
      simp
    · simp [JobIdFits, hne, hrequire]
    · rintro rfl
      exact hoperation rfl
  · have hdata := Utf8String.data_of_create h
    refine ⟨?_, ?_, ?_⟩
    · rw [hdata, jobPath, if_neg hrequire]
      simp
    · have hnone : baseTopicRequiresJobId t = false := Bool.eq_false_iff.mpr hrequire
      refine iff_of_true ?_ hnone
      by_contra hj
      cases t <;> simp_all [baseTopicRequiresJobId, getOperationForBaseTopic]
    · rintro rfl
      exact hoperation rfl

/-! ### The levels of a path -/

def replyLevels : JobExecutionTopicReplyType → List Bytes
  | .jobAcceptedReplyType => [text "accepted"]
  | .jobRejectedReplyType => [text "rejected"]
  | .jobWildcardReplyType => [text "#"]
  | .jobRequestType | .jobUnrecognizedTopicType => []

def jobIdLevels (topicType : JobExecutionTopicType) (jobId : Bytes) : List Bytes :=
  if baseTopicRequiresJobId topicType then levels jobId else []

theorem levels_operation (t : JobExecutionTopicType) (r : JobExecutionTopicReplyType) :
    levels (getOperationForBaseTopic t ++ getSuffixForTopicType r) =
      getOperationForBaseTopic t :: replyLevels r := by
  have hoperation : levelSeparator ∉ getOperationForBaseTopic t := by
    cases t <;> decide
  have hreply {reply : Bytes} (h : levelSeparator ∉ reply) :
      levels (getOperationForBaseTopic t ++ levelSeparator :: reply) =
        [getOperationForBaseTopic t, reply] := by
    rw [levels_append hoperation, levels_of_not_mem h]
  cases r with
  | jobAcceptedReplyType | jobRejectedReplyType | jobWildcardReplyType => exact hreply (by decide)
  | jobRequestType | jobUnrecognizedTopicType =>
    rw [getSuffixForTopicType, List.append_nil, levels_of_not_mem hoperation]
    rfl

theorem levels_jobPath (t : JobExecutionTopicType) (r : JobExecutionTopicReplyType) (j : Bytes) :
    levels (jobPath t r j) = jobIdLevels t j ++ getOperationForBaseTopic t :: replyLevels r := by
  rw [jobPath, jobIdLevels, List.append_assoc]
  split_ifs with hrequire
  · have hslash : j ++ text "/" ++ (getOperationForBaseTopic t ++ getSuffixForTopicType r) =
        j ++ levelSeparator :: (getOperationForBaseTopic t ++ getSuffixForTopicType r) := by
      rw [List.append_assoc]
      rfl
    rw [hslash, levels_append_separator, levels_operation]
  · exact levels_operation t r

theorem jobIdLevels_eq_nil_iff (t : JobExecutionTopicType) (j : Bytes) :
    jobIdLevels t j = [] ↔ baseTopicRequiresJobId t = false := by
  rw [jobIdLevels]
  split_ifs with hrequire
  · simp [hrequire, levels_ne_nil]
  · simp [hrequire]

/-- The last level of a topic. -/
def lastLevel (topicType : JobExecutionTopicType) (replyType : JobExecutionTopicReplyType) :
    Bytes :=
  (replyLevels replyType).getLast?.getD (getOperationForBaseTopic topicType)

theorem getLast?_levels_jobPath (t : JobExecutionTopicType) (r : JobExecutionTopicReplyType)
    (j : Bytes) : (levels (jobPath t r j)).getLast? = some (lastLevel t r) := by
  rw [levels_jobPath, lastLevel]
  cases r <;> simp [replyLevels]

def replyTypeOf (level : Bytes) : JobExecutionTopicReplyType :=
  if level = text "accepted" then .jobAcceptedReplyType
  else if level = text "rejected" then .jobRejectedReplyType
  else if level = text "#" then .jobWildcardReplyType
  else .jobRequestType

def topicTypeOf (requireJobId : Bool) (operation : Bytes) : JobExecutionTopicType :=
  if requireJobId then
    if operation = text "update" then .jobUpdateTopic else .jobDescribeTopic
  else if operation = text "get" then .jobGetPendingTopic
  else if operation = text "start-next" then .jobStartNextTopic
  else if operation = text "notify" then .jobNotifyTopic
  else .jobNotifyNextTopic

theorem replyTypeOf_lastLevel (t : JobExecutionTopicType) {r : JobExecutionTopicReplyType}
    (h : r ≠ .jobUnrecognizedTopicType) : replyTypeOf (lastLevel t r) = r := by
  cases r with
  | jobUnrecognizedTopicType => exact absurd rfl h
  | jobRequestType => cases t <;> decide
  | _ => rfl

theorem topicTypeOf_operation {t : JobExecutionTopicType} (hwildcard : t ≠ .jobWildcardTopic)
    (hunrecognized : t ≠ .jobUnrecognizedTopic) :
    topicTypeOf (baseTopicRequiresJobId t) (getOperationForBaseTopic t) = t := by
  cases t with
  | jobWildcardTopic => exact absurd rfl hwildcard
  | jobUnrecognizedTopic => exact absurd rfl hunrecognized
  | _ => decide

theorem jobPath_injective {t t' : JobExecutionTopicType} {r r' : JobExecutionTopicReplyType}
    {j j' : Bytes} (ht : t ≠ .jobWildcardTopic ∧ t ≠ .jobUnrecognizedTopic)
    (ht' : t' ≠ .jobWildcardTopic ∧ t' ≠ .jobUnrecognizedTopic)
    (hr : r ≠ .jobUnrecognizedTopicType) (hr' : r' ≠ .jobUnrecognizedTopicType)
    (hj : JobIdFits t j) (hj' : JobIdFits t' j') (h : jobPath t r j = jobPath t' r' j') :
    t = t' ∧ r = r' ∧ j = j' := by
  have hlast : lastLevel t r = lastLevel t' r' := by
    have hlevels := congrArg (fun path => (levels path).getLast?) h
    rw [getLast?_levels_jobPath, getLast?_levels_jobPath] at hlevels
    exact Option.some.inj hlevels
  have hreply : r = r' := by
    rw [← replyTypeOf_lastLevel t hr, ← replyTypeOf_lastLevel t' hr', hlast]
  subst hreply
  have hlevels := congrArg levels h
  rw [levels_jobPath, levels_jobPath, List.append_cons _ _ (replyLevels r),
    List.append_cons _ _ (replyLevels r)] at hlevels
  obtain ⟨hids, hoperation⟩ := List.append_inj' (List.append_cancel_right hlevels) rfl
  have hrequire : baseTopicRequiresJobId t = baseTopicRequiresJobId t' := by
    have hnil := (jobIdLevels_eq_nil_iff t j).symm.trans (hids ▸ jobIdLevels_eq_nil_iff t' j')
    cases hb : baseTopicRequiresJobId t <;> cases hb' : baseTopicRequiresJobId t' <;> simp_all
  have htopic : t = t' := by
    rw [← topicTypeOf_operation ht.1 ht.2, ← topicTypeOf_operation ht'.1 ht'.2, hrequire,
      List.singleton_inj.mp hoperation]
  subst htopic
  refine ⟨rfl, rfl, ?_⟩
  cases hb : baseTopicRequiresJobId t with
  | true =>
    rw [jobIdLevels, jobIdLevels, if_pos hb, if_pos hb] at hids
    exact levels_injective hids
  | false => rw [hj.mpr hb, hj'.mpr hb]

/-- Two calls that return the same topic have the same arguments. -/
theorem getJobTopic_injective {s : Jobs} {t t' : JobExecutionTopicType}
    {r r' : JobExecutionTopicReplyType} {j j' : Bytes}
    (ht : t ≠ .jobWildcardTopic ∧ t ≠ .jobUnrecognizedTopic)
    (ht' : t' ≠ .jobWildcardTopic ∧ t' ≠ .jobUnrecognizedTopic)
    (hr : r ≠ .jobUnrecognizedTopicType) (hr' : r' ≠ .jobUnrecognizedTopicType)
    {topic topic' : Utf8String} (h : s.getJobTopic t r j = some topic)
    (h' : s.getJobTopic t' r' j' = some topic') (heq : topic.data = topic'.data) :
    t = t' ∧ r = r' ∧ j = j' := by
  obtain ⟨hdata, hj, -⟩ := getJobTopic_eq_some ht.1 h
  obtain ⟨hdata', hj', -⟩ := getJobTopic_eq_some ht'.1 h'
  rw [hdata, hdata'] at heq
  exact jobPath_injective ht ht' hr hr' hj hj' (List.append_cancel_left heq)

/-- A job that is called `get`. -/
theorem getJobTopic_injective_get :
    ∃ topic, (⟨text "a", []⟩ : Jobs).getJobTopic .jobDescribeTopic .jobAcceptedReplyType
        (text "get") = some topic ∧ topic.data = text "$aws/things/a/jobs/get/get/accepted" ∧
      JobExecutionTopicType.jobDescribeTopic = .jobDescribeTopic ∧
      JobExecutionTopicReplyType.jobAcceptedReplyType = .jobAcceptedReplyType ∧
      text "get" = text "get" := by
  have hcall : (⟨text "a", []⟩ : Jobs).getJobTopic .jobDescribeTopic .jobAcceptedReplyType
      (text "get") = some ⟨text "$aws/things/a/jobs/get/get/accepted", by decide +kernel⟩ :=
    Utf8String.create_data ⟨text "$aws/things/a/jobs/get/get/accepted", by decide +kernel⟩
  exact ⟨_, hcall, rfl, getJobTopic_injective (by decide) (by decide) (by decide) (by decide)
    hcall hcall rfl⟩

end Jobs

end AwsIotSdk
