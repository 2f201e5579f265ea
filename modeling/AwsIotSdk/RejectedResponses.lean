import AwsIotSdk.ShadowDocument

/-! Responses that are not taken. Every handler leaves the shadow as it was then, but
for a get whose payload is copied before its version is read. -/

namespace AwsIotSdk

open JsonValue

variable {ν : Type} [JsonNumber ν]

namespace Shadow

/-- The code of the handler as well as the shadow it leaves. -/
def answerResponse (indeterminate : UInt32) (s : Shadow ν) :
    ShadowResponse ν → Except Fault (ResponseCode × Shadow ν)
  | .get responseType payload => s.handleGetResponse responseType payload
  | .update r => s.handleUpdateResponse indeterminate r.responseType r.payload
  | .delete responseType payload => .ok (s.handleDeleteResponse responseType payload)

theorem handleResponse_eq_answerResponse (indeterminate : UInt32) (s : Shadow ν)
    (r : ShadowResponse ν) :
    s.handleResponse indeterminate r = (s.answerResponse indeterminate r).map Prod.snd := by
  cases r <;> rfl

/-- A code other than those of an accepted request and of a delta comes with the
document and the version as they were. -/
def UntouchedUnlessTaken (s : Shadow ν) (result : Except Fault (ResponseCode × Shadow ν)) : Prop :=
  ∀ rc t, result = .ok (rc, t) → rc ≠ .shadowRequestAccepted → rc ≠ .shadowReceivedDelta →
    t.curServerStateDocument = s.curServerStateDocument ∧ t.curShadowVersion = s.curShadowVersion

/-- An accepted get that replaces the document has a version to go with it, or is the
document already. -/
def ReplacesWithVersion (s : Shadow ν) : ShadowResponse ν → Prop
  | .get responseType payload => responseType = .accepted →
      (payload.findMember documentStateKey).isSome = true →
      s.curServerStateDocument.isObject = true →
      (documentVersion payload).isSome = true ∨ payload = s.curServerStateDocument
  | _ => True

variable {s : Shadow ν}

omit [JsonNumber ν] in
theorem untouched_same (rc : ResponseCode) : s.UntouchedUnlessTaken (.ok (rc, s)) := by
  intro rc' t h _ _
  cases h
  exact ⟨rfl, rfl⟩

omit [JsonNumber ν] in
theorem untouched_error (fault : Fault) : s.UntouchedUnlessTaken (.error fault) := by
  intro rc t h _ _
  cases h

omit [JsonNumber ν] in
theorem untouched_taken {rc : ResponseCode}
    (h : rc = .shadowRequestAccepted ∨ rc = .shadowReceivedDelta) (t : Shadow ν) :
    s.UntouchedUnlessTaken (.ok (rc, t)) := by
  intro rc' t' heq haccepted hdelta
  cases heq
  rcases h with h | h
  · exact absurd h haccepted
  · exact absurd h hdelta

theorem untouched_applyUpdate (responseType : ShadowResponseType) (payload state : JsonValue ν)
    (payloadVersion : UInt32) :
    s.UntouchedUnlessTaken (s.applyUpdate responseType payload state payloadVersion) := by
  rw [applyUpdate]
  split_ifs with hold hdelta hown
  · exact untouched_same _
  · exact untouched_same _
  · cases mergeDelta s.curServerStateDocument state with
    | error fault => exact untouched_error fault
    | ok document => exact untouched_taken (.inr rfl) _
  · exact untouched_taken (.inl rfl) _

theorem untouched_handleUpdateResponse (indeterminate : UInt32)
    (responseType : ShadowResponseType) (payload : JsonValue ν) :
    s.UntouchedUnlessTaken (s.handleUpdateResponse indeterminate responseType payload) := by
  rw [handleUpdateResponse]
  by_cases hrejected : responseType = .rejected
  · rw [if_pos hrejected]
    exact untouched_same _
  rw [if_neg hrejected]
  cases payload.findMember documentStateKey with
  | none => exact untouched_same _
  | some state =>
    dsimp only
    split_ifs
    · exact untouched_same _
    · exact untouched_applyUpdate _ _ _ _

omit [JsonNumber ν] in
theorem untouched_handleDeleteResponse (responseType : ShadowResponseType)
    (payload : JsonValue ν) :
    s.UntouchedUnlessTaken (.ok (s.handleDeleteResponse responseType payload)) := by
  rw [handleDeleteResponse]
  split_ifs
  · exact untouched_same _
  · exact untouched_same _
  · exact untouched_taken (.inl rfl) _

/-- A version that cannot be read is an error, and the variable keeps its value. -/
theorem getUint32Value_of_documentVersion_none {payload : JsonValue ν}
    (h : documentVersion payload = none) (value : UInt32) :
    ∃ rc, rc ≠ .success ∧ rc ≠ .shadowRequestAccepted ∧ rc ≠ .shadowReceivedDelta ∧
      JsonParser.getUint32Value payload documentVersionKey value = (rc, value) := by
  cases hfind : payload.findMember documentVersionKey with
  | none =>
    exact ⟨.jsonParseKeyNotFoundError, ResponseCode.noConfusion, ResponseCode.noConfusion,
      ResponseCode.noConfusion,
      UpdateResponse.getUint32Value_of_none (r := ⟨.accepted, payload⟩) hfind value⟩
  | some x =>
    have hsome : payload.findMember documentVersionKey ≠ none := by
      rw [hfind]
      exact Option.some_ne_none x
    exact ⟨.jsonParseKeyUnexpectedTypeError, ResponseCode.noConfusion, ResponseCode.noConfusion,
      ResponseCode.noConfusion,
      UpdateResponse.getUint32Value_of_version_none (r := ⟨.accepted, payload⟩) h hsome value⟩

/-- An accepted get with a state: the document is replaced before the version is read. -/
theorem handleGetResponse_accepted_cases {payload : JsonValue ν}
    (hstate : (payload.findMember documentStateKey).isSome = true)
    (hobject : s.curServerStateDocument.isObject = true) :
    (∃ t, s.handleGetResponse .accepted payload = .ok (.shadowRequestAccepted, t) ∧
      (documentVersion payload).isSome = true) ∨
    ∃ rc, rc ≠ .shadowRequestAccepted ∧ rc ≠ .shadowReceivedDelta ∧
      s.handleGetResponse .accepted payload =
        .ok (rc, { s with curServerStateDocument := payload }) ∧
      documentVersion payload = none := by
  obtain ⟨state, hstate⟩ := Option.isSome_iff_exists.mp hstate
  obtain ⟨ds, hds⟩ := isObject_iff.mp hobject
  rw [handleGetResponse, if_neg ShadowResponseType.noConfusion,
    if_neg ShadowResponseType.noConfusion, hstate, hds]
  dsimp only [bind, Except.bind, removeAllMembers]
  cases hversion : documentVersion payload with
  | some v =>
    rw [UpdateResponse.getUint32Value_of_version (r := ⟨.accepted, payload⟩) hversion]
    exact .inl ⟨_, rfl, rfl⟩
  | none =>
    obtain ⟨rc, hfailed, haccepted, hdelta, hread⟩ :=
      getUint32Value_of_documentVersion_none hversion s.curShadowVersion
    rw [hread]
    dsimp only
    rw [if_pos hfailed]
    exact .inr ⟨rc, haccepted, hdelta, rfl, rfl⟩

theorem untouched_handleGetResponse_iff (responseType : ShadowResponseType)
    (payload : JsonValue ν) :
    s.UntouchedUnlessTaken (s.handleGetResponse responseType payload) ↔
      s.ReplacesWithVersion (.get responseType payload) := by
  cases responseType with
  | delta => exact ⟨fun _ => ShadowResponseType.noConfusion, fun _ => untouched_same _⟩
  | rejected => exact ⟨fun _ => ShadowResponseType.noConfusion, fun _ => untouched_same _⟩
  | accepted =>
    by_cases hstate : (payload.findMember documentStateKey).isSome = true
    · by_cases hobject : s.curServerStateDocument.isObject = true
      · rcases handleGetResponse_accepted_cases hstate hobject with
          ⟨t, hresult, hversion⟩ | ⟨rc, haccepted, hdelta, hresult, hversion⟩
        · rw [hresult]
          exact ⟨fun _ _ _ _ => .inl hversion, fun _ => untouched_taken (.inl rfl) t⟩
        · rw [hresult]
          constructor
          · intro huntouched _ _ _
            exact .inr (huntouched rc _ rfl haccepted hdelta).1
          · intro hcond
            have hsame : payload = s.curServerStateDocument := by
              rcases hcond rfl hstate hobject with hsome | hsame
              · rw [hversion] at hsome
                cases hsome
              · exact hsame
            intro rc' t heq _ _
            cases heq
            exact ⟨hsame, rfl⟩
      · have hfault : s.handleGetResponse .accepted payload = .error .assertionFailed := by
          obtain ⟨state, hstate⟩ := Option.isSome_iff_exists.mp hstate
          rw [handleGetResponse, if_neg ShadowResponseType.noConfusion,
            if_neg ShadowResponseType.noConfusion, hstate]
          cases hdoc : s.curServerStateDocument with
          | object ds => exact absurd (by rw [hdoc]; rfl) hobject
          | _ => rfl
        rw [hfault]
        exact ⟨fun _ _ _ h => absurd h hobject, fun _ => untouched_error _⟩
    · have hnone : payload.findMember documentStateKey = none := by
        rwa [Option.isSome_iff_ne_none, not_not] at hstate
      rw [handleGetResponse, if_neg ShadowResponseType.noConfusion,
        if_neg ShadowResponseType.noConfusion, hnone]
      exact ⟨fun _ _ h => absurd h hstate, fun _ => untouched_same _⟩

/-- A response that is not taken leaves the shadow as it was exactly when it is no
accepted get that replaces the document without a version. -/
theorem untouchedUnlessTaken_iff (s : Shadow ν) (indeterminate : UInt32) (r : ShadowResponse ν) :
    s.UntouchedUnlessTaken (s.answerResponse indeterminate r) ↔ s.ReplacesWithVersion r := by
  cases r with
  | get responseType payload => exact untouched_handleGetResponse_iff responseType payload
  | update r => exact ⟨fun _ => trivial, fun _ => untouched_handleUpdateResponse _ _ _⟩
  | delete responseType payload =>
    exact ⟨fun _ => trivial, fun _ => untouched_handleDeleteResponse _ _⟩

/-- `{"state":{}}` replaces the document of a new shadow though it is refused. -/
theorem not_untouched_unversioned :
    ¬ (Shadow.init [0x61] : Shadow UInt32).UntouchedUnlessTaken
      ((Shadow.init [0x61]).answerResponse 0
        (.get .accepted (.object [(documentStateKey, .object [])]))) := by
  intro h
  have hsame := (h .jsonParseKeyNotFoundError _ rfl ResponseCode.noConfusion
    ResponseCode.noConfusion).1
  cases hsame

end Shadow

end AwsIotSdk
