import AwsIotSdk.Packets
import AwsIotSdk.ShadowSession
import AwsIotSdk.Transition
import Mathlib.Data.List.Flatten

/-! What a shadow has subscribed to: the flags against the requests it made of the client,
over all its calls, and what the destructor gives up. -/

namespace AwsIotSdk

open Shadow DeviceShadow

variable {ν ρ : Type}

namespace DeviceShadow

/-- The topics of the responses to a request. -/
def topicsOf (s : DeviceShadow ν) (t : ShadowRequestType) : List Bytes :=
  if t = .delta then [s.shadowTopicDelta] else topicsAccepted (s.topicNameStr t)

end DeviceShadow

def RequestTypes.has (types : RequestTypes) : ShadowRequestType → Bool
  | .get => types.hasGet
  | .update => types.hasUpdate
  | .delete => types.hasDelete
  | .delta => types.hasDelta

theorem RequestTypes.has_note (types : RequestTypes) (t u : ShadowRequestType) :
    (types.note t).has u = (types.has u || decide (u = t)) := by
  cases t <;> cases u <;> simp [note, has]

namespace ShadowSession

def isActive (s : ShadowSession ν ρ) : ShadowRequestType → Bool
  | .get => s.isGetSubscriptionActive
  | .update => s.isUpdateSubscriptionActive
  | .delete => s.isDeleteSubscriptionActive
  | .delta => s.isDeltaSubscriptionActive

theorem not_delta_lt (t : ShadowRequestType) : ¬ ShadowRequestType.delta < t := by
  cases t <;> decide

/-- The map is in the order of its keys and the delta is the last of them, so that no other
entry is taken for one. -/
theorem collectTopics_eq (s : DeviceShadow ν) {ts : List ShadowRequestType}
    (hts : ts.Pairwise (· < ·)) (types : RequestTypes) (htypes : types.hasDelta = false)
    (topics : List Bytes) :
    (collectTopics s ts types topics).2 = topics ++ ts.flatMap s.topicsOf ∧
      ∀ u, (collectTopics s ts types topics).1.has u = (types.has u || decide (u ∈ ts)) := by
  induction ts generalizing types topics with
  | nil => simp [collectTopics]
  | cons t ts ih =>
    obtain ⟨hfirst, hrest⟩ := List.pairwise_cons.mp hts
    by_cases ht : t = .delta
    · have hnil : ts = [] := by
        refine List.eq_nil_iff_forall_not_mem.mpr ?_
        intro u hu
        exact not_delta_lt u (ht ▸ hfirst u hu)
      subst ht hnil
      refine ⟨by simp [collectTopics, RequestTypes.note, topicsOf], ?_⟩
      intro u
      have hnote := types.has_note .delta u
      simpa [collectTopics, RequestTypes.note] using hnote
    · have hnote : (types.note t).hasDelta = false := by
        cases t <;> first | exact htypes | exact absurd rfl ht
      obtain ⟨htopics, htypes'⟩ := ih hrest (types.note t) hnote
        (topics ++ topicsAccepted (s.topicNameStr t))
      simp only [collectTopics, hnote, Bool.false_eq_true, if_false]
      refine ⟨?_, ?_⟩
      · rw [htopics]
        simp [topicsOf, ht]
      · intro u
        rw [htypes', types.has_note]
        by_cases hu : u = t <;> simp [hu]

theorem find_setHandlers {entries : List (ShadowRequestType × Option ρ)}
    (h : entries.Pairwise (fun a b => a.1 < b.1))
    (mapping : SortedMap ShadowRequestType (Option ρ)) (t : ShadowRequestType) :
    (setHandlers mapping entries).find t = (SortedMap.lookup t entries).or (mapping.find t) := by
  induction entries generalizing mapping with
  | nil => rfl
  | cons e rest ih =>
    obtain ⟨hfirst, hrest⟩ := List.pairwise_cons.mp h
    rw [setHandlers, ih hrest, SortedMap.lookup]
    by_cases ht : e.1 = t
    · subst ht
      have hnone : SortedMap.lookup e.1 rest = none :=
        SortedMap.lookup_eq_none fun a ha => (hfirst a ha).ne'
      rw [hnone, if_pos rfl, SortedMap.find_insert_self, SortedMap.find_erase_self]
      rfl
    · have hne : t ≠ e.1 := fun heq => ht heq.symm
      rw [if_neg ht, SortedMap.find_insert_of_ne _ hne, SortedMap.find_erase_of_ne _ hne]

/-! ### What a subscription does -/

def keys (mapping : SortedMap ShadowRequestType (Option ρ)) : List ShadowRequestType :=
  mapping.entries.map Prod.fst

theorem isSome_find_iff (mapping : SortedMap ShadowRequestType (Option ρ))
    (t : ShadowRequestType) : (mapping.find t).isSome = true ↔ t ∈ keys mapping := by
  rw [keys, List.mem_map]
  constructor
  · intro h
    obtain ⟨v, hv⟩ := Option.isSome_iff_exists.mp h
    exact ⟨(t, v), mapping.mem_entries_iff.mpr hv, rfl⟩
  · intro h
    obtain ⟨e, he, rfl⟩ := h
    rw [mapping.mem_entries_iff.mp he]
    rfl

/-- The requests name the topic in a subscription that the client has granted. -/
def Subscribed (requests : List (MqttRequest ν)) (topic : Bytes) : Prop :=
  ∃ topics, .subscribe topics .success ∈ requests ∧ topic ∈ topics

/-- A subscription was refused, with what was asked of the client for it. -/
structure Refused (requests : List (MqttRequest ν)) : Prop where
  noPublish : ∀ topic payload, .publish topic payload ∉ requests
  noneGranted : ∀ topics, .subscribe topics .success ∉ requests

/-- A subscription was granted for the entries of the map. -/
structure Granted (s : ShadowSession ν ρ) (mapping : SortedMap ShadowRequestType (Option ρ))
    (t : ShadowSession ν ρ) (requests : List (MqttRequest ν)) : Prop where
  requests : requests = [.subscribe ((keys mapping).flatMap s.topicsOf) .success]
  active : ∀ u, t.isActive u = (s.isActive u || decide (u ∈ keys mapping))
  handlers : ∀ u, t.requestMapping.find u = (mapping.find u).or (s.requestMapping.find u)
  thingName : t.thingName = s.thingName
  client : t.hasMqttClient = s.hasMqttClient

theorem isActive_activate (s : ShadowSession ν ρ) (types : RequestTypes) (u : ShadowRequestType) :
    (s.activate types).isActive u = (types.has u || s.isActive u) := by
  cases u <;> rfl

theorem addShadowSubscription_cases (s : ShadowSession ν ρ) (answers : MqttAnswers)
    (mapping : SortedMap ShadowRequestType (Option ρ)) :
    ∃ rc t requests, s.addShadowSubscription answers mapping = (rc, t, requests) ∧
      (rc = .code .success ∧ Granted s mapping t requests ∨
        rc ≠ .code .success ∧ t = s ∧ Refused requests) := by
  have hkeys : (keys mapping).Pairwise (· < ·) := List.pairwise_map.mpr mapping.sorted
  obtain ⟨htopics, htypes⟩ := collectTopics_eq s.toDeviceShadow hkeys ⟨false, false, false, false⟩
    rfl []
  have hnone : Refused ([] : List (MqttRequest ν)) := ⟨by simp, by simp⟩
  rw [addShadowSubscription]
  split_ifs with hclient hempty hconnected hrc
  · exact ⟨_, _, _, rfl, .inr ⟨by simp, rfl, hnone⟩⟩
  · exact ⟨_, _, _, rfl, .inr ⟨by simp, rfl, hnone⟩⟩
  · exact ⟨_, _, _, rfl, .inr ⟨by simp, rfl, hnone⟩⟩
  · refine ⟨_, _, _, rfl, .inl ⟨rfl, ?_, ?_, ?_, rfl, rfl⟩⟩
    · rw [List.nil_append] at htopics
      rw [hrc]
      exact congrArg (fun topics => [MqttRequest.subscribe topics .success]) htopics
    · intro u
      have hactive := isActive_activate s (collectTopics s.toDeviceShadow (keys mapping)
        ⟨false, false, false, false⟩ []).1 u
      rw [htypes, Bool.or_comm] at hactive
      have hfalse : RequestTypes.has ⟨false, false, false, false⟩ u = false := by cases u <;> rfl
      rw [hfalse, Bool.false_or] at hactive
      exact hactive
    · exact find_setHandlers mapping.sorted s.requestMapping
  · refine ⟨_, _, _, rfl, .inr ⟨by simpa using hrc, rfl, by simp, ?_⟩⟩
    intro topics hmem
    obtain ⟨-, hsuccess⟩ := MqttRequest.subscribe.inj (List.mem_singleton.mp hmem)
    exact hrc hsuccess.symm

/-! ### The flags and the requests -/

/-- The flags stand for the map of the handlers and for the topics that were granted, and
nothing is published before the topics of its responses were. -/
structure Kept (s : ShadowSession ν ρ) (requests : List (MqttRequest ν)) : Prop where
  client : s.hasMqttClient = true
  mapped : ∀ t, s.isActive t = true ↔ (s.requestMapping.find t).isSome = true
  subscribed : ∀ topic, Subscribed requests topic ↔
    ∃ t, s.isActive t = true ∧ topic ∈ s.topicsOf t
  published : ∀ before topic payload, before ++ [.publish topic payload] <+: requests →
    ∃ t, t ≠ .delta ∧ topic = s.topicNameStr t ∧ ∀ x ∈ s.topicsOf t, Subscribed before x

theorem topicsOf_congr {s t : DeviceShadow ν} (h : t.thingName = s.thingName) :
    t.topicsOf = s.topicsOf := by
  funext u
  cases u <;>
    simp [topicsOf, topicNameStr, shadowTopicGet, shadowTopicUpdate, shadowTopicDelete,
      shadowTopicDelta, shadowTopicActionPrefix, h]

theorem topicNameStr_congr {s t : DeviceShadow ν} (h : t.thingName = s.thingName) :
    t.topicNameStr = s.topicNameStr := by
  funext u
  cases u <;>
    simp [topicNameStr, shadowTopicGet, shadowTopicUpdate, shadowTopicDelete,
      shadowTopicDelta, shadowTopicActionPrefix, h]

theorem subscribed_append {a b : List (MqttRequest ν)} {topic : Bytes} :
    Subscribed (a ++ b) topic ↔ Subscribed a topic ∨ Subscribed b topic := by
  simp only [Subscribed, List.mem_append, or_and_right, exists_or]

theorem Refused.not_subscribed {requests : List (MqttRequest ν)} (h : Refused requests)
    (topic : Bytes) : ¬ Subscribed requests topic := by
  intro hsub
  obtain ⟨topics, hmem, -⟩ := hsub
  exact h.noneGranted topics hmem

/-- A publish in what was asked for later is one of the later requests. -/
theorem publish_of_append {a b before : List (MqttRequest ν)} {topic : Bytes}
    {payload : Option (JsonValue ν)}
    (h : before ++ [.publish topic payload] <+: a ++ b)
    (hb : ∀ topic payload, .publish topic payload ∉ b) :
    before ++ [.publish topic payload] <+: a := by
  rcases List.prefix_or_prefix_of_prefix h (List.prefix_append a b) with hshort | hlong
  · exact hshort
  · obtain ⟨more, hmore⟩ := hlong
    rw [← hmore] at h
    have hmoreb := (List.prefix_append_right_inj a).mp h
    cases more using List.reverseRecOn with
    | nil =>
      rw [List.append_nil] at hmore
      exact hmore ▸ List.prefix_refl _
    | append_singleton more x =>
      have hlast : x = .publish topic payload := by
        have heq := congrArg List.getLast? hmore
        simpa [← List.append_assoc] using heq
      subst hlast
      exact absurd (hmoreb.subset (by simp)) (hb topic payload)

theorem Kept.refused {s : ShadowSession ν ρ} {requests more : List (MqttRequest ν)}
    (h : Kept s requests) (hmore : Refused more) : Kept s (requests ++ more) := by
  refine ⟨h.client, h.mapped, ?_, ?_⟩
  · intro topic
    rw [subscribed_append, h.subscribed, or_iff_left (hmore.not_subscribed topic)]
  · intro before topic payload hbefore
    exact h.published before topic payload (publish_of_append hbefore hmore.noPublish)

theorem Kept.granted {s t : ShadowSession ν ρ} {requests more : List (MqttRequest ν)}
    {mapping : SortedMap ShadowRequestType (Option ρ)} (h : Kept s requests)
    (hmore : Granted s mapping t more) : Kept t (requests ++ more) := by
  have htopics := topicsOf_congr hmore.thingName
  have hnames := topicNameStr_congr hmore.thingName
  refine ⟨hmore.client.trans h.client, ?_, ?_, ?_⟩
  · intro u
    have hmapping := isSome_find_iff mapping u
    rw [hmore.active, hmore.handlers, Option.isSome_or, Bool.or_eq_true, Bool.or_eq_true,
      h.mapped, hmapping, decide_eq_true_eq, or_comm]
  · intro topic
    have hnew : Subscribed more topic ↔ ∃ u ∈ keys mapping, topic ∈ s.topicsOf u := by
      rw [hmore.requests]
      simp [Subscribed]
    rw [subscribed_append, h.subscribed, hnew, htopics]
    simp only [hmore.active, Bool.or_eq_true, decide_eq_true_eq, or_and_right, exists_or]
  · intro before topic payload hbefore
    rw [htopics, hnames]
    refine h.published before topic payload (publish_of_append hbefore ?_)
    intro topic payload
    rw [hmore.requests]
    simp

/-- A publish on the topic of a request that is subscribed to. -/
theorem Kept.publish {s : ShadowSession ν ρ} {requests : List (MqttRequest ν)}
    (h : Kept s requests) {t : ShadowRequestType} (ht : t ≠ .delta) (hactive : s.isActive t = true)
    (payload : Option (JsonValue ν)) :
    Kept s (requests ++ [.publish (s.topicNameStr t) payload]) := by
  have hnone : ∀ topic, ¬ Subscribed [.publish (s.topicNameStr t) payload] topic := by
    intro topic hsub
    obtain ⟨topics, hmem, -⟩ := hsub
    simp at hmem
  refine ⟨h.client, h.mapped, ?_, ?_⟩
  · intro topic
    rw [subscribed_append, h.subscribed, or_iff_left (hnone topic)]
  · intro before topic payload' hbefore
    rcases List.prefix_concat_iff.mp hbefore with heq | hold
    · obtain ⟨rfl, hlast⟩ := List.append_inj' heq rfl
      cases List.head_eq_of_cons_eq hlast
      exact ⟨t, ht, rfl, fun x hx => (h.subscribed x).mpr ⟨t, hactive, hx⟩⟩
    · exact h.published before topic payload' hold

/-! ### The requests of the user -/

theorem keys_insert_empty (t : ShadowRequestType) (handler : Option ρ) :
    keys (SortedMap.empty.insert t handler) = [t] := rfl

/-- What a call leaves behind, when it only asks for a subscription. -/
theorem Kept.addShadowSubscription {s : ShadowSession ν ρ} {requests : List (MqttRequest ν)}
    (h : Kept s requests) (answers : MqttAnswers)
    (mapping : SortedMap ShadowRequestType (Option ρ)) :
    Kept (s.addShadowSubscription answers mapping).2.1
      (requests ++ (s.addShadowSubscription answers mapping).2.2) := by
  obtain ⟨rc, t, more, heq, ⟨-, hgranted⟩ | ⟨-, rfl, hrefused⟩⟩ :=
    s.addShadowSubscription_cases answers mapping
  · rw [heq]
    exact h.granted hgranted
  · rw [heq]
    exact h.refused hrefused

theorem Kept.addOwnSubscription {s : ShadowSession ν ρ} {requests : List (MqttRequest ν)}
    (h : Kept s requests) (answers : MqttAnswers) (t : ShadowRequestType) :
    ∃ rc s' more, s.addOwnSubscription answers (s.isActive t) t = (rc, s', more) ∧
      Kept s' (requests ++ more) ∧ (rc = .code .success → s'.isActive t = true) ∧
      s'.thingName = s.thingName := by
  by_cases hactive : s.isActive t = true
  · exact ⟨.code .success, s, [], by rw [ShadowSession.addOwnSubscription, if_pos hactive],
      by simpa using h, fun _ => hactive, rfl⟩
  · obtain ⟨rc, s', more, heq, ⟨-, hgranted⟩ | ⟨hrc, rfl, hrefused⟩⟩ :=
      s.addShadowSubscription_cases answers (SortedMap.empty.insert t none)
    · refine ⟨rc, s', more, by rw [ShadowSession.addOwnSubscription, if_neg hactive, heq],
        h.granted hgranted, fun _ => ?_, hgranted.thingName⟩
      rw [hgranted.active, keys_insert_empty]
      simp
    · exact ⟨rc, s', more, by rw [ShadowSession.addOwnSubscription, if_neg hactive, heq],
        h.refused hrefused, fun hsuccess => absurd hsuccess hrc, rfl⟩

theorem Kept.performAsync {s : ShadowSession ν ρ} {requests : List (MqttRequest ν)}
    (h : Kept s requests) (answers : MqttAnswers) {t : ShadowRequestType} (ht : t ≠ .delta) :
    Kept (s.performAsync answers (s.isActive t) t).2.1
      (requests ++ (s.performAsync answers (s.isActive t) t).2.2) := by
  obtain ⟨rc, s', more, heq, hkept, hactive, hname⟩ := h.addOwnSubscription answers t
  rw [ShadowSession.performAsync, heq]
  dsimp only
  split_ifs with hclient hconnected hrc
  · simpa using h
  · simpa using h
  · exact hkept
  · have hpublish := hkept.publish ht (hactive (not_not.mp hrc)) none
    rw [topicNameStr_congr hname] at hpublish
    rw [← List.append_assoc]
    exact hpublish

theorem Kept.performUpdateAsync [JsonNumber ν] {s s' : ShadowSession ν ρ}
    {requests more : List (MqttRequest ν)} {rc : ShadowCode} (h : Kept s requests)
    {answers : MqttAnswers} (hperform : s.performUpdateAsync answers = .ok (rc, s', more)) :
    Kept s' (requests ++ more) := by
  have hnothing : ∀ {rc' : ShadowCode}, Except.ok (rc', s, ([] : List (MqttRequest ν))) =
      Except.ok (ε := Fault) (rc, s', more) → Kept s' (requests ++ more) := by
    intro rc' heq
    cases heq
    simpa using h
  obtain ⟨rcAdd, t, added, heq, hkept, hactive, hname⟩ := h.addOwnSubscription answers .update
  have hadd : s.addOwnSubscription answers s.isUpdateSubscriptionActive .update =
      (rcAdd, t, added) := heq
  rw [ShadowSession.performUpdateAsync, hadd] at hperform
  split_ifs at hperform
  · exact hnothing hperform
  · exact hnothing hperform
  · exact hnothing hperform
  · obtain ⟨equal, -, hperform⟩ := bind_eq_ok.mp hperform
    split_ifs at hperform with hequal
    · exact hnothing hperform
    · dsimp only at hperform
      split_ifs at hperform with hrc
      · cases hperform
        exact hkept
      · obtain ⟨diff, -, hperform⟩ := bind_eq_ok.mp hperform
        obtain ⟨found, -, hperform⟩ := bind_eq_ok.mp hperform
        split_ifs at hperform
        · cases hperform
          rw [← List.append_assoc]
          exact hkept.publish (t := .update) nofun (hactive (not_not.mp hrc)) (some diff)
        · cases hperform
          exact hkept

/-- Changes of the documents and of the client token are none of the subscriptions. -/
theorem Kept.congr {s : ShadowSession ν ρ} {requests : List (MqttRequest ν)} (h : Kept s requests)
    {d : DeviceShadow ν} (hclient : d.hasMqttClient = s.hasMqttClient)
    (hname : d.thingName = s.thingName)
    (hactive : d.isUpdateSubscriptionActive = s.isUpdateSubscriptionActive) :
    Kept { s with toDeviceShadow := d } requests := by
  have hsame : ∀ u, isActive { s with toDeviceShadow := d } u = s.isActive u := by
    intro u
    cases u <;> first | rfl | exact hactive
  refine ⟨hclient.trans h.client, ?_, ?_, ?_⟩
  · intro u
    rw [hsame]
    exact h.mapped u
  · intro topic
    simp only [hsame]
    rw [topicsOf_congr hname]
    exact h.subscribed topic
  · intro before topic payload hbefore
    change ∃ t, t ≠ .delta ∧ topic = d.topicNameStr t ∧ ∀ x ∈ d.topicsOf t, Subscribed before x
    rw [topicsOf_congr hname, topicNameStr_congr hname]
    exact h.published before topic payload hbefore

theorem follow_keeps [JsonNumber ν] {s t : DeviceShadow ν} {indeterminate : UInt32}
    {document : JsonValue ν} {d : Dispatch} {rc : ResponseCode}
    (h : s.follow indeterminate document d = .ok (rc, t)) :
    t.hasMqttClient = s.hasMqttClient ∧ t.thingName = s.thingName ∧
      t.isUpdateSubscriptionActive = s.isUpdateSubscriptionActive := by
  have hmap : ∀ {x : Except Fault (ResponseCode × Shadow ν)},
      x.map s.withShadow = .ok (rc, t) → t.hasMqttClient = s.hasMqttClient ∧
        t.thingName = s.thingName ∧
        t.isUpdateSubscriptionActive = s.isUpdateSubscriptionActive := by
    intro x hx
    cases x with
    | error f => cases hx
    | ok r =>
      cases hx
      exact ⟨rfl, rfl, rfl⟩
  cases d with
  | unexpectedResponseType | unexpectedResponseTopic =>
    cases h
    exact ⟨rfl, rfl, rfl⟩
  | run handler responseType =>
    cases handler with
    | get | update => exact hmap h
    | delete =>
      cases h
      exact ⟨rfl, rfl, rfl⟩

/-! ### The destructor -/

def suffixes (t : ShadowRequestType) : List Bytes :=
  match t with
  | .get => topicsAccepted requestTypeGetString
  | .update => topicsAccepted requestTypeUpdateString
  | .delete => topicsAccepted requestTypeDeleteString
  | .delta => [requestTypeUpdateString ++ 0x2f :: responseTypeDeltaText]

def requestTypes : List ShadowRequestType := [.get, .update, .delete, .delta]

theorem nodup_suffixes : (requestTypes.flatMap suffixes).Nodup := by decide

theorem topicsOf_eq_map (d : DeviceShadow ν) (t : ShadowRequestType) :
    d.topicsOf t = (suffixes t).map (d.shadowTopicActionPrefix ++ ·) := by
  cases t <;>
    simp [topicsOf, suffixes, topicsAccepted, topicNameStr, shadowTopicGet, shadowTopicUpdate,
      shadowTopicDelete, shadowTopicDelta]

theorem topicList_eq (s : ShadowSession ν ρ) :
    s.topicList = (requestTypes.filter s.isActive).flatMap s.topicsOf := by
  cases hget : s.isGetSubscriptionActive <;> cases hupdate : s.isUpdateSubscriptionActive <;>
    cases hdelete : s.isDeleteSubscriptionActive <;> cases hdelta : s.isDeltaSubscriptionActive <;>
    simp [topicList, requestTypes, isActive, hget, hupdate, hdelete, hdelta, topicsOf,
      topicNameStr]

theorem topicList_sublist (s : ShadowSession ν ρ) :
    s.topicList.Sublist ((requestTypes.flatMap suffixes).map (s.shadowTopicActionPrefix ++ ·)) := by
  have hall : (requestTypes.flatMap suffixes).map (s.shadowTopicActionPrefix ++ ·) =
      requestTypes.flatMap s.topicsOf := by
    rw [List.map_flatMap]
    congr 1
    funext t
    exact (topicsOf_eq_map s.toDeviceShadow t).symm
  rw [hall, topicList_eq]
  exact List.Sublist.flatMap List.filter_sublist _

/-- The topics of the destructor are those that the client has granted, each once and not
more than one packet can hold. -/
structure GivenUp (requests : List (MqttRequest ν)) (topics : List Bytes) : Prop where
  nodup : topics.Nodup
  fits : topics.length ≤ maxTopicsInOneSubscribePacket
  exact : ∀ topic, topic ∈ topics ↔ Subscribed requests topic

theorem Kept.givenUp {s : ShadowSession ν ρ} {requests : List (MqttRequest ν)}
    (h : Kept s requests) : GivenUp requests s.topicList := by
  have hsub := topicList_sublist s
  have hinjective : Function.Injective (s.shadowTopicActionPrefix ++ ·) :=
    fun a b hab => List.append_cancel_left hab
  refine ⟨(nodup_suffixes.map hinjective).sublist hsub, ?_, ?_⟩
  · have hle := hsub.length_le
    rw [List.length_map] at hle
    have hcount : (requestTypes.flatMap suffixes).length ≤ maxTopicsInOneSubscribePacket := by decide
    exact hle.trans hcount
  · intro topic
    rw [h.subscribed, topicList_eq, List.mem_flatMap]
    simp only [List.mem_filter]
    constructor
    · intro hmem
      obtain ⟨t, ⟨-, ht⟩, htopic⟩ := hmem
      exact ⟨t, ht, htopic⟩
    · intro hactive
      obtain ⟨t, ht, htopic⟩ := hactive
      exact ⟨t, ⟨by cases t <;> simp [requestTypes], ht⟩, htopic⟩

end ShadowSession

/-! ### Runs -/

/-- The calls of the user and the messages. The getters leave everything as it is. -/
inductive ShadowSessionCall (ν ρ : Type) where
  | addShadowSubscription (answers : MqttAnswers)
      (requestMapping : SortedMap ShadowRequestType (Option ρ))
  | performGetAsync (answers : MqttAnswers)
  | performUpdateAsync (answers : MqttAnswers)
  | performDeleteAsync (answers : MqttAnswers)
  | updateDeviceShadow (document : JsonValue ν)
  | resetClientTokenSuffix (suffix : Bytes)
  | subscriptionHandler (indeterminate : UInt32) (topicName : Bytes)
      (payload : Except ResponseCode (JsonValue ν))

/-- The session with all that it asked of the client, the responses that it handled and what
it told the handlers. -/
structure ShadowSessionRun (ν ρ : Type) where
  session : ShadowSession ν ρ
  requests : List (MqttRequest ν)
  responses : List Dispatch
  told : List (ρ × ShadowRequestType × ShadowResponseType)

/-- The response that a message is taken for. -/
def ShadowSession.responsesOf (s : ShadowSession ν ρ) (topicName : Bytes)
    (payload : Except ResponseCode (JsonValue ν)) : List Dispatch :=
  match payload with
  | .error _ => []
  | .ok _ => (s.dispatch topicName).toOption.toList

namespace ShadowSessionRun

variable [JsonNumber ν]

def asked (r : ShadowSessionRun ν ρ) (x : ShadowCode × ShadowSession ν ρ × List (MqttRequest ν)) :
    ShadowSessionRun ν ρ := { r with session := x.2.1, requests := r.requests ++ x.2.2 }

def step (r : ShadowSessionRun ν ρ) : ShadowSessionCall ν ρ → Option (ShadowSessionRun ν ρ)
  | .addShadowSubscription answers mapping =>
    some (r.asked (r.session.addShadowSubscription answers mapping))
  | .performGetAsync answers => some (r.asked (r.session.performGetAsync answers))
  | .performUpdateAsync answers => (r.session.performUpdateAsync answers).toOption.map r.asked
  | .performDeleteAsync answers => some (r.asked (r.session.performDeleteAsync answers))
  | .updateDeviceShadow document =>
    let d := (r.session.toDeviceShadow.updateDeviceShadow document).2
    some { r with session := { r.session with toDeviceShadow := d } }
  | .resetClientTokenSuffix suffix =>
    (r.session.toDeviceShadow.resetClientTokenSuffix suffix).toOption.map fun d =>
      { r with session := { r.session with toDeviceShadow := d } }
  | .subscriptionHandler indeterminate topicName payload =>
    (r.session.subscriptionHandler indeterminate topicName payload).toOption.map fun x =>
      { r with
        session := x.2.1
        responses := r.responses ++ r.session.responsesOf topicName payload
        told := r.told ++ x.2.2.toList }

open ShadowSession

omit [JsonNumber ν] in
theorem map_toOption_eq_some {α : Type} {x : Except Fault α} {f : α → ShadowSessionRun ν ρ}
    {t : ShadowSessionRun ν ρ} (h : x.toOption.map f = some t) : ∃ a, x = .ok a ∧ f a = t := by
  cases x with
  | error fault => cases h
  | ok a => exact ⟨a, rfl, Option.some.inj h⟩

theorem kept_step {r t : ShadowSessionRun ν ρ} {call : ShadowSessionCall ν ρ}
    (h : Kept r.session r.requests) (hstep : r.step call = some t) :
    Kept t.session t.requests := by
  cases call with
  | addShadowSubscription answers mapping =>
    cases hstep
    exact h.addShadowSubscription answers mapping
  | performGetAsync answers =>
    cases hstep
    exact h.performAsync answers (t := .get) nofun
  | performDeleteAsync answers =>
    cases hstep
    exact h.performAsync answers (t := .delete) nofun
  | performUpdateAsync answers =>
    obtain ⟨a, hperform, rfl⟩ := map_toOption_eq_some hstep
    exact h.performUpdateAsync hperform
  | updateDeviceShadow document =>
    cases hstep
    refine h.congr ?_ ?_ ?_ <;> cases document <;> rfl
  | resetClientTokenSuffix suffix =>
    obtain ⟨d, hreset, rfl⟩ := map_toOption_eq_some hstep
    obtain ⟨document, -, hd⟩ := bind_eq_ok.mp hreset
    cases hd
    exact h.congr rfl rfl rfl
  | subscriptionHandler indeterminate topicName payload =>
    obtain ⟨a, hhandler, rfl⟩ := map_toOption_eq_some hstep
    cases payload with
    | error rc =>
      cases hhandler
      exact h
    | ok document =>
      obtain ⟨d, -, hhandler⟩ := bind_eq_ok.mp hhandler
      obtain ⟨x, hfollow, hx⟩ := bind_eq_ok.mp hhandler
      cases hx
      obtain ⟨hclient, hname, hactive⟩ := follow_keeps hfollow
      exact h.congr hclient hname hactive

theorem kept_create {hasMqttClient : Bool} {thingName clientTokenPrefix suffix : Bytes}
    {s : ShadowSession ν ρ}
    (h : ShadowSession.create hasMqttClient thingName clientTokenPrefix suffix = some s) : Kept s [] := by
  obtain ⟨d, hd, rfl⟩ := Option.map_eq_some_iff.mp h
  rw [DeviceShadow.create] at hd
  by_cases hrefused : hasMqttClient = false ∨ thingName.length = 0
  · rw [if_pos hrefused] at hd
    cases hd
  rw [if_neg hrefused] at hd
  cases hd
  rw [not_or, Bool.not_eq_false] at hrefused
  refine ⟨hrefused.1, ?_, ?_, ?_⟩
  · intro t
    cases t <;> simp [isActive]
  · intro topic
    refine iff_of_false (by simp [Subscribed]) ?_
    intro hactive
    obtain ⟨t, ht, -⟩ := hactive
    cases t <;> simp [isActive] at ht
  · intro before topic payload hbefore
    simp at hbefore

/-- In every run a shadow publishes a request only after the topics of its responses were
granted, and its destructor gives up exactly the topics that were. -/
theorem givenUp_of_reachable {hasMqttClient : Bool} {thingName clientTokenPrefix suffix : Bytes}
    {s : ShadowSession ν ρ}
    (hs : ShadowSession.create hasMqttClient thingName clientTokenPrefix suffix = some s)
    {r : ShadowSessionRun ν ρ}
    (h : Transition.Reachable step Transition.anyMove ⟨s, [], [], []⟩ r) :
    (∀ before topic payload, before ++ [.publish topic payload] <+: r.requests →
      ∃ t, t ≠ .delta ∧ topic = r.session.topicNameStr t ∧
        ∀ x ∈ r.session.topicsOf t, Subscribed before x) ∧
    ∃ topics, r.session.destroy true = [.unsubscribe topics] ∧ GivenUp r.requests topics := by
  have hkept : Kept r.session r.requests :=
    h.invariant (P := fun r : ShadowSessionRun ν ρ => Kept r.session r.requests)
      (kept_create hs) (fun _ _ _ hi _ hstep => kept_step hi hstep)
  refine ⟨hkept.published, r.session.topicList, ?_, hkept.givenUp⟩
  simp [destroy, hkept.client]

def sessionOfA : ShadowSession UInt32 Nat where
  toDeviceShadow := shadowOfA
  isGetSubscriptionActive := false
  isDeleteSubscriptionActive := false
  isDeltaSubscriptionActive := false
  requestMapping := .empty

theorem givenUp_of_reachable_get : ∃ r : ShadowSessionRun UInt32 Nat,
    step ⟨sessionOfA, [], [], []⟩ (.performGetAsync ⟨true, true, .success, .success⟩) = some r ∧
      r.requests = [.subscribe (topicsAccepted shadowOfA.shadowTopicGet) .success,
        .publish shadowOfA.shadowTopicGet none] ∧
      ∃ topics, r.session.destroy true = [.unsubscribe topics] ∧ GivenUp r.requests topics :=
  ⟨_, rfl, rfl, (givenUp_of_reachable
    (show ShadowSession.create true [0x61] [] [] = some sessionOfA from rfl)
    (.tail (m := .performGetAsync ⟨true, true, .success, .success⟩) .refl trivial rfl)).2⟩

end ShadowSessionRun

end AwsIotSdk
