import AwsIotSdk.DeviceShadow

/-! Which handler a topic is given to. The texts of the response types are compared
with the end of the topic and the topics of the requests with its beginning, one apart
from the other and with no regard to the length of the topic. They are compared in the
order of their lengths, so a text that fits is found before one that is too long. -/

namespace AwsIotSdk

/-! ### Comparing the first characters -/

theorem equalRange_eq (text topic : Bytes) :
    equalRange text topic = if text <+: topic then .ok true
      else if topic.length < text.length then .error .outOfBounds else .ok false := by
  rw [equalRange]
  by_cases hprefix : text <+: topic
  · rw [if_pos hprefix, if_neg (Nat.not_lt.mpr hprefix.length_le),
      List.isPrefixOf_iff_prefix.mpr hprefix]
  · rw [if_neg hprefix, Bool.eq_false_iff.mpr (mt List.isPrefixOf_iff_prefix.mp hprefix)]

section Scan

variable {κ : Type} {k : κ} {text topic : Bytes} {cs : List (κ × Bytes)}

/-- The candidates in turn, until one is what the topic begins with. -/
def firstPrefix : List (κ × Bytes) → Bytes → Except Fault (Option κ)
  | [], _ => .ok none
  | (k, text) :: cs, topic => do
    if ← equalRange text topic then .ok (some k) else firstPrefix cs topic

/-- No candidate begins with another. -/
def PrefixFree (cs : List (κ × Bytes)) : Prop :=
  cs.Pairwise (fun c d => ¬ c.2 <+: d.2 ∧ ¬ d.2 <+: c.2)

def AscendingLengths (cs : List (κ × Bytes)) : Prop :=
  cs.Pairwise (fun c d => c.2.length ≤ d.2.length)

theorem firstPrefix_cons (k : κ) (text : Bytes) (cs : List (κ × Bytes)) (topic : Bytes) :
    firstPrefix ((k, text) :: cs) topic = if text <+: topic then .ok (some k)
      else if topic.length < text.length then .error .outOfBounds
      else firstPrefix cs topic := by
  rw [firstPrefix, equalRange_eq]
  split_ifs <;> rfl

theorem firstPrefix_of_prefix (hfree : PrefixFree cs) (hlengths : AscendingLengths cs)
    (hmem : (k, text) ∈ cs) (h : text <+: topic) : firstPrefix cs topic = .ok (some k) := by
  induction cs with
  | nil => cases hmem
  | cons c cs ih =>
    obtain ⟨hfirst, hrest⟩ := List.pairwise_cons.mp hfree
    obtain ⟨hshorter, hlengths⟩ := List.pairwise_cons.mp hlengths
    rw [firstPrefix_cons]
    rcases List.mem_cons.mp hmem with rfl | hmem
    · rw [if_pos h]
    · obtain ⟨hleft, hright⟩ := hfirst _ hmem
      have hnot : ¬ c.2 <+: topic := by
        intro hc
        rcases List.prefix_or_prefix_of_prefix hc h with hprefix | hprefix
        · exact hleft hprefix
        · exact hright hprefix
      have hlong : ¬ topic.length < c.2.length :=
        Nat.not_lt.mpr ((hshorter _ hmem).trans h.length_le)
      rw [if_neg hnot, if_neg hlong, ih hrest hlengths hmem]

/-- A topic that no candidate fits is compared with all of them, also with one that is
longer. -/
theorem firstPrefix_of_short (h : ∀ c ∈ cs, ¬ c.2 <+: topic) (hmem : (k, text) ∈ cs)
    (hlt : topic.length < text.length) : firstPrefix cs topic = .error .outOfBounds := by
  induction cs with
  | nil => cases hmem
  | cons c cs ih =>
    obtain ⟨hfirst, hrest⟩ := List.forall_mem_cons.mp h
    rw [firstPrefix_cons, if_neg hfirst]
    rcases List.mem_cons.mp hmem with rfl | hmem
    · rw [if_pos hlt]
    · rw [ih hrest hmem, ite_self]

theorem firstPrefix_of_none (h : ∀ c ∈ cs, ¬ c.2 <+: topic ∧ ¬ topic.length < c.2.length) :
    firstPrefix cs topic = .ok none := by
  induction cs with
  | nil => rfl
  | cons c cs ih =>
    obtain ⟨⟨hnot, hlong⟩, hrest⟩ := List.forall_mem_cons.mp h
    rw [firstPrefix_cons, if_neg hnot, if_neg hlong, ih hrest]

end Scan

namespace DeviceShadow

variable {ν : Type}

/-! ### The dispatch -/

inductive ShadowHandler where
  | get
  | update
  | delete
  deriving DecidableEq, Repr

/-- What the topic of a response is taken for. -/
inductive Dispatch where
  | unexpectedResponseType
  | unexpectedResponseTopic
  | run (handler : ShadowHandler) (responseType : ShadowResponseType)
  deriving DecidableEq, Repr

def dispatch (s : DeviceShadow ν) (topicName : Bytes) : Except Fault Dispatch := do
  match ← responseTypeOf topicName with
  | none => .ok .unexpectedResponseType
  | some responseType =>
    if ← equalRange s.shadowTopicGet topicName then .ok (.run .get responseType)
    else if ← equalRange s.shadowTopicUpdate topicName then .ok (.run .update responseType)
    else if ← equalRange s.shadowTopicDelete topicName then .ok (.run .delete responseType)
    else .ok .unexpectedResponseTopic

def follow [JsonNumber ν] (s : DeviceShadow ν) (indeterminate : UInt32) (payload : JsonValue ν) :
    Dispatch → Except Fault (ResponseCode × DeviceShadow ν)
  | .unexpectedResponseType => .ok (.shadowUnexpectedResponseType, s)
  | .unexpectedResponseTopic => .ok (.shadowUnexpectedResponseTopic, s)
  | .run .get responseType => (s.handleGetResponse responseType payload).map s.withShadow
  | .run .update responseType =>
    (s.handleUpdateResponse indeterminate responseType payload).map s.withShadow
  | .run .delete responseType => .ok (s.withShadow (s.handleDeleteResponse responseType payload))

/-! ### Texts and topics -/

def responseText : ShadowResponseType → Bytes
  | .delta => responseTypeDeltaText
  | .rejected => responseTypeRejectedText
  | .accepted => responseTypeAcceptedText

def baseTopic (s : DeviceShadow ν) : ShadowHandler → Bytes
  | .get => s.shadowTopicGet
  | .update => s.shadowTopicUpdate
  | .delete => s.shadowTopicDelete

def responseCandidates : List (ShadowResponseType × Bytes) :=
  [.delta, .rejected, .accepted].map (fun r => (r, (responseText r).reverse))

def requestCandidates (s : DeviceShadow ν) : List (ShadowHandler × Bytes) :=
  [.get, .update, .delete].map (fun h => (h, s.baseTopic h))

theorem prefixFree_responseCandidates : PrefixFree responseCandidates := by
  unfold PrefixFree
  decide

theorem prefixFree_requestCandidates (s : DeviceShadow ν) : PrefixFree s.requestCandidates := by
  have htext {q q' : Bytes} (h : ¬ q <+: q') :
      ¬ s.shadowTopicActionPrefix ++ q <+: s.shadowTopicActionPrefix ++ q' :=
    fun hprefix => h ((List.prefix_append_right_inj _).mp hprefix)
  refine .cons ?_ (.cons ?_ (.cons (fun _ h => nomatch h) .nil))
  · intro c hc
    rcases List.mem_cons.mp hc with rfl | hc
    · exact ⟨htext (by decide), htext (by decide)⟩
    · cases List.mem_singleton.mp hc
      exact ⟨htext (by decide), htext (by decide)⟩
  · intro c hc
    cases List.mem_singleton.mp hc
    exact ⟨htext (by decide), htext (by decide)⟩

theorem ascendingLengths_responseCandidates : AscendingLengths responseCandidates := by
  unfold AscendingLengths
  decide

theorem length_baseTopic (s : DeviceShadow ν) (h : ShadowHandler) :
    (s.baseTopic h).length = s.shadowTopicActionPrefix.length +
      (match h with | .get => 3 | .update => 6 | .delete => 6) := by
  cases h <;> exact List.length_append

theorem ascendingLengths_requestCandidates (s : DeviceShadow ν) :
    AscendingLengths s.requestCandidates := by
  simp [AscendingLengths, requestCandidates, length_baseTopic]

theorem mem_responseCandidates (r : ShadowResponseType) :
    (r, (responseText r).reverse) ∈ responseCandidates := by
  cases r <;> simp [responseCandidates]

theorem mem_requestCandidates (s : DeviceShadow ν) (h : ShadowHandler) :
    (h, s.baseTopic h) ∈ s.requestCandidates := by
  cases h <;> simp [requestCandidates]

theorem responseTypeOf_eq (topicName : Bytes) :
    responseTypeOf topicName = firstPrefix responseCandidates topicName.reverse := rfl

/-- The requests in the order in which their topics are compared. -/
theorem scanRequests {α : Type} (s : DeviceShadow ν) (topicName : Bytes)
    (run : ShadowHandler → Except Fault α) (other : Except Fault α) :
    (do
      if ← equalRange s.shadowTopicGet topicName then run .get
      else if ← equalRange s.shadowTopicUpdate topicName then run .update
      else if ← equalRange s.shadowTopicDelete topicName then run .delete
      else other) =
    firstPrefix s.requestCandidates topicName >>= fun found => found.elim other run := by
  simp only [requestCandidates, List.map_cons, List.map_nil, firstPrefix, baseTopic]
  dsimp only [bind, Except.bind]
  cases equalRange s.shadowTopicGet topicName with
  | error fault => rfl
  | ok get =>
    cases get with
    | true => rfl
    | false =>
      dsimp only
      cases equalRange s.shadowTopicUpdate topicName with
      | error fault => rfl
      | ok update =>
        cases update with
        | true => rfl
        | false =>
          dsimp only
          cases equalRange s.shadowTopicDelete topicName with
          | error fault => rfl
          | ok delete => cases delete <;> rfl

theorem dispatch_of_responseType {s : DeviceShadow ν} {topicName : Bytes}
    {r : ShadowResponseType} (h : responseTypeOf topicName = .ok (some r)) :
    s.dispatch topicName = firstPrefix s.requestCandidates topicName >>= fun found =>
      found.elim (.ok .unexpectedResponseTopic) (fun handler => .ok (Dispatch.run handler r)) := by
  rw [dispatch, h]
  exact scanRequests s topicName (fun handler => .ok (Dispatch.run handler r)) _

theorem subscriptionHandler_eq_follow [JsonNumber ν] (s : DeviceShadow ν) (indeterminate : UInt32)
    (topicName : Bytes) (payload : JsonValue ν) :
    s.subscriptionHandler indeterminate topicName (.ok payload) =
      s.dispatch topicName >>= s.follow indeterminate payload := by
  cases htype : responseTypeOf topicName with
  | error fault =>
    rw [subscriptionHandler, dispatch, htype]
    rfl
  | ok found =>
    cases found with
    | none =>
      rw [subscriptionHandler, dispatch, htype]
      rfl
    | some r =>
      have hhandler : s.subscriptionHandler indeterminate topicName (.ok payload) =
          firstPrefix s.requestCandidates topicName >>= fun found =>
            found.elim (s.follow indeterminate payload .unexpectedResponseTopic)
              (fun handler => s.follow indeterminate payload (.run handler r)) := by
        rw [subscriptionHandler, htype]
        exact scanRequests s topicName
          (fun handler => s.follow indeterminate payload (.run handler r)) _
      rw [hhandler, dispatch_of_responseType htype]
      cases firstPrefix s.requestCandidates topicName with
      | error fault => rfl
      | ok found => cases found <;> rfl

/-- The topic of the responses of a type to a request. -/
def responseTopic (s : DeviceShadow ν) (h : ShadowHandler) (r : ShadowResponseType) : Bytes :=
  s.baseTopic h ++ 0x2f :: responseText r

/-- The topic ends with no response text and is shorter than one, or it ends with one,
begins with no topic of a request and is shorter than one. -/
def TooShort (s : DeviceShadow ν) (topicName : Bytes) : Prop :=
  ((∀ r, ¬ responseText r <:+ topicName) ∧ ∃ r, topicName.length < (responseText r).length) ∨
    ((∃ r, responseText r <:+ topicName) ∧ (∀ h, ¬ s.baseTopic h <+: topicName) ∧
      ∃ h, topicName.length < (s.baseTopic h).length)

/-- The topic begins like a request and ends like a response. -/
def LooksAddressed (s : DeviceShadow ν) (topicName : Bytes) : Prop :=
  (∃ r, responseText r <:+ topicName) ∧ ∃ h, s.baseTopic h <+: topicName

variable {s : DeviceShadow ν} {topicName : Bytes}

theorem responseTypeOf_of_suffix {r : ShadowResponseType} (h : responseText r <:+ topicName) :
    responseTypeOf topicName = .ok (some r) := by
  rw [responseTypeOf_eq]
  exact firstPrefix_of_prefix prefixFree_responseCandidates ascendingLengths_responseCandidates
    (mem_responseCandidates r) (List.reverse_prefix.mpr h)

theorem dispatch_run {h : ShadowHandler} {r : ShadowResponseType}
    (hr : responseText r <:+ topicName) (hh : s.baseTopic h <+: topicName) :
    s.dispatch topicName = .ok (.run h r) := by
  rw [dispatch_of_responseType (responseTypeOf_of_suffix hr),
    firstPrefix_of_prefix s.prefixFree_requestCandidates s.ascendingLengths_requestCandidates
      (s.mem_requestCandidates h) hh]
  rfl

theorem not_prefix_responseCandidates (h : ∀ r, ¬ responseText r <:+ topicName) :
    ∀ c ∈ responseCandidates, ¬ c.2 <+: topicName.reverse := by
  intro c hc hprefix
  obtain ⟨r, -, rfl⟩ := List.mem_map.mp hc
  exact h r (List.reverse_prefix.mp hprefix)

theorem not_prefix_requestCandidates (h : ∀ handler, ¬ s.baseTopic handler <+: topicName) :
    ∀ c ∈ s.requestCandidates, ¬ c.2 <+: topicName := by
  intro c hc
  obtain ⟨handler, -, rfl⟩ := List.mem_map.mp hc
  exact h handler

theorem dispatch_of_tooShort (h : s.TooShort topicName) :
    s.dispatch topicName = .error .outOfBounds := by
  rcases h with ⟨hnone, r, hlt⟩ | ⟨⟨r, hr⟩, hnone, handler, hlt⟩
  · have htype : responseTypeOf topicName = .error .outOfBounds := by
      rw [responseTypeOf_eq]
      exact firstPrefix_of_short (not_prefix_responseCandidates hnone) (mem_responseCandidates r)
        (by rw [List.length_reverse, List.length_reverse]; exact hlt)
    rw [dispatch, htype]
    rfl
  · rw [dispatch_of_responseType (responseTypeOf_of_suffix hr),
      firstPrefix_of_short (not_prefix_requestCandidates hnone) (s.mem_requestCandidates handler)
        hlt]
    rfl

theorem dispatch_unexpected (hlong : ¬ s.TooShort topicName)
    (hlooks : ¬ s.LooksAddressed topicName) :
    s.dispatch topicName = .ok .unexpectedResponseType ∨
      s.dispatch topicName = .ok .unexpectedResponseTopic := by
  by_cases hr : ∃ r, responseText r <:+ topicName
  · refine .inr ?_
    have hbase : ∀ handler, ¬ s.baseTopic handler <+: topicName :=
      fun handler hh => hlooks ⟨hr, handler, hh⟩
    have hnone : firstPrefix s.requestCandidates topicName = .ok none := by
      refine firstPrefix_of_none (fun c hc => ⟨not_prefix_requestCandidates hbase c hc, ?_⟩)
      obtain ⟨handler, -, rfl⟩ := List.mem_map.mp hc
      exact fun hlt => hlong (.inr ⟨hr, hbase, handler, hlt⟩)
    obtain ⟨r, hr⟩ := hr
    rw [dispatch_of_responseType (responseTypeOf_of_suffix hr), hnone]
    rfl
  · refine .inl ?_
    have htext : ∀ r, ¬ responseText r <:+ topicName := not_exists.mp hr
    have hnone : responseTypeOf topicName = .ok none := by
      rw [responseTypeOf_eq]
      refine firstPrefix_of_none (fun c hc => ⟨not_prefix_responseCandidates htext c hc, ?_⟩)
      obtain ⟨r, -, rfl⟩ := List.mem_map.mp hc
      rw [List.length_reverse, List.length_reverse]
      exact fun hlt => hlong (.inl ⟨htext, r, hlt⟩)
    rw [dispatch, hnone]
    rfl

theorem baseTopic_prefix (s : DeviceShadow ν) (h : ShadowHandler) (r : ShadowResponseType) :
    s.baseTopic h <+: s.responseTopic h r := List.prefix_append _ _

theorem responseText_suffix (s : DeviceShadow ν) (h : ShadowHandler) (r : ShadowResponseType) :
    responseText r <:+ s.responseTopic h r :=
  (List.suffix_cons _ _).trans (List.suffix_append _ _)

theorem dispatch_responseTopic (s : DeviceShadow ν) (h : ShadowHandler) (r : ShadowResponseType) :
    s.dispatch (s.responseTopic h r) = .ok (.run h r) :=
  dispatch_run (s.responseText_suffix h r) (s.baseTopic_prefix h r)

/-- The topic decides the handler and the response type, and the handler of a response
is run for its own topic only. -/
structure DispatchExact [JsonNumber ν] (s : DeviceShadow ν) (indeterminate : UInt32)
    (topicName : Bytes) (payload : JsonValue ν) : Prop where
  inBounds : ∃ d, s.dispatch topicName = .ok d ∧
    s.subscriptionHandler indeterminate topicName (.ok payload) = s.follow indeterminate payload d
  runs : ∀ h r, s.dispatch topicName = .ok (.run h r) ↔ topicName = s.responseTopic h r
  refuses : (∀ h r, topicName ≠ s.responseTopic h r) →
    ∃ rc, (rc = .shadowUnexpectedResponseType ∨ rc = .shadowUnexpectedResponseTopic) ∧
      s.subscriptionHandler indeterminate topicName (.ok payload) = .ok (rc, s)

variable [JsonNumber ν]

theorem subscriptionHandler_of_dispatch {d : Dispatch} (h : s.dispatch topicName = .ok d)
    (indeterminate : UInt32) (payload : JsonValue ν) :
    s.subscriptionHandler indeterminate topicName (.ok payload) =
      s.follow indeterminate payload d := by
  rw [subscriptionHandler_eq_follow, h]
  rfl

/-- A topic is dispatched rightly when it is one of the shadow's own, and otherwise
when it is long enough and does not look like one of them at both ends. -/
theorem dispatchExact_iff (s : DeviceShadow ν) (indeterminate : UInt32) (topicName : Bytes)
    (payload : JsonValue ν) :
    s.DispatchExact indeterminate topicName payload ↔
      (∃ h r, topicName = s.responseTopic h r) ∨
        (¬ s.TooShort topicName ∧ ¬ s.LooksAddressed topicName) := by
  constructor
  · intro hexact
    by_cases hown : ∃ h r, topicName = s.responseTopic h r
    · exact .inl hown
    · refine .inr ⟨?_, ?_⟩
      · intro hshort
        obtain ⟨d, hd, -⟩ := hexact.inBounds
        rw [dispatch_of_tooShort hshort] at hd
        cases hd
      · intro hlooks
        obtain ⟨⟨r, hr⟩, h, hh⟩ := hlooks
        exact hown ⟨h, r, (hexact.runs h r).mp (dispatch_run hr hh)⟩
  · rintro (⟨h, r, rfl⟩ | ⟨hlong, hlooks⟩)
    · have hdispatch := s.dispatch_responseTopic h r
      refine ⟨⟨_, hdispatch, subscriptionHandler_of_dispatch hdispatch indeterminate payload⟩,
        ?_, fun hother => absurd rfl (hother h r)⟩
      intro h' r'
      constructor
      · intro hrun
        rw [hdispatch] at hrun
        cases hrun
        rfl
      · intro htopic
        rw [htopic]
        exact s.dispatch_responseTopic h' r'
    · have hown : ∀ h r, topicName ≠ s.responseTopic h r := by
        rintro h r rfl
        exact hlooks ⟨⟨r, s.responseText_suffix h r⟩, h, s.baseTopic_prefix h r⟩
      rcases dispatch_unexpected hlong hlooks with hdispatch | hdispatch
      · have hresult := subscriptionHandler_of_dispatch hdispatch indeterminate payload
        refine ⟨⟨_, hdispatch, hresult⟩, ?_, fun _ => ⟨_, .inl rfl, hresult⟩⟩
        intro h r
        rw [hdispatch]
        exact ⟨nofun, fun htopic => absurd htopic (hown h r)⟩
      · have hresult := subscriptionHandler_of_dispatch hdispatch indeterminate payload
        refine ⟨⟨_, hdispatch, hresult⟩, ?_, fun _ => ⟨_, .inr rfl, hresult⟩⟩
        intro h r
        rw [hdispatch]
        exact ⟨nofun, fun htopic => absurd htopic (hown h r)⟩

/-- The shadow of the thing `a` before its first response. -/
def newShadowOfA : DeviceShadow UInt32 where
  curShadowVersion := 0
  clientToken := [0x61]
  curServerStateDocument := .object []
  hasMqttClient := true
  thingName := [0x61]
  clientTokenPrefix := [0x61]
  isUpdateSubscriptionActive := false
  curDeviceStateDocument := .object []

/-- `/x/accepted` behind the topic of a get. -/
def deeperTopic : Bytes :=
  newShadowOfA.shadowTopicGet ++ [0x2f, 0x78, 0x2f] ++ responseTypeAcceptedText

/-- The empty topic is read before its beginning, `accepted` past its end, and a topic
with one level more runs the handler of the get. -/
theorem not_dispatchExact :
    ¬ newShadowOfA.DispatchExact 0 [] .null ∧
      ¬ newShadowOfA.DispatchExact 0 responseTypeAcceptedText .null ∧
      ¬ newShadowOfA.DispatchExact 0 deeperTopic .null := by
  refine ⟨?_, ?_, ?_⟩
  · intro h
    obtain ⟨d, hd, -⟩ := h.inBounds
    cases hd
  · intro h
    obtain ⟨d, hd, -⟩ := h.inBounds
    cases hd
  · intro h
    exact absurd ((h.runs .get .accepted).mp (by decide)) (by decide)

end DeviceShadow

end AwsIotSdk
