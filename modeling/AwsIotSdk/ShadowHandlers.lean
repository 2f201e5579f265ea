import AwsIotSdk.ShadowSubscriptions

/-! The shadow with its subscriptions against the one without, and what the handlers of the
user are told over a run. -/

namespace AwsIotSdk

open JsonValue Shadow DeviceShadow ShadowSession

variable {ν ρ : Type}

/-! ### The calls of the shadow without its subscriptions -/

/-- The document that was published, if any. -/
def publishedOf (requests : List (MqttRequest ν)) : Option (JsonValue ν) :=
  requests.findSome? fun
    | .publish _ payload => payload
    | _ => none

structure NothingPublished (requests : List (MqttRequest ν)) : Prop where
  nothing : publishedOf requests = none
  next : ∀ topic payload, publishedOf (requests ++ [.publish topic payload]) = payload

theorem nothingPublished_nil : NothingPublished ([] : List (MqttRequest ν)) where
  nothing := rfl
  next topic payload := by cases payload <;> rfl

theorem nothingPublished_subscribe (topics : List Bytes) (rc : ResponseCode) :
    NothingPublished [(MqttRequest.subscribe topics rc : MqttRequest ν)] where
  nothing := rfl
  next topic payload := by cases payload <;> rfl

/-- The client is connected, and grants the subscription. -/
def MqttAnswers.Grant (answers : MqttAnswers) : Prop :=
  answers.isConnectedForSubscribe = true ∧ answers.subscribe = .success

namespace ShadowSession

theorem addOwnSubscription_update (s : ShadowSession ν ρ) (answers : MqttAnswers)
    {r : ResponseCode × DeviceShadow ν}
    (hr : (if s.isUpdateSubscriptionActive then (ResponseCode.success, s.toDeviceShadow)
      else s.toDeviceShadow.addUpdateSubscription answers) = r) :
    ∃ s' more, s.addOwnSubscription answers s.isUpdateSubscriptionActive .update =
        (.code r.1, s', more) ∧ s'.toDeviceShadow = r.2 ∧ NothingPublished more := by
  rw [addOwnSubscription]
  split_ifs at hr ⊢ with hactive
  · exact hr ▸ ⟨s, [], rfl, rfl, nothingPublished_nil⟩
  · rw [addUpdateSubscription] at hr
    have hentries : (SortedMap.empty.insert ShadowRequestType.update
      (none : Option ρ)).entries.isEmpty = false := rfl
    simp only [addShadowSubscription, hentries, Bool.false_eq_true, if_false]
    split_ifs at hr ⊢
    · exact hr ▸ ⟨s, [], rfl, rfl, nothingPublished_nil⟩
    · exact hr ▸ ⟨s, [], rfl, rfl, nothingPublished_nil⟩
    · exact hr ▸ ⟨_, _, rfl, rfl, nothingPublished_subscribe _ _⟩
    · exact hr ▸ ⟨s, _, rfl, rfl, nothingPublished_subscribe _ _⟩

/-- The request for an update does what it does without the other subscriptions. -/
theorem performUpdateAsync_toDeviceShadow [JsonNumber ν] (s : ShadowSession ν ρ)
    (answers : MqttAnswers) :
    (s.performUpdateAsync answers).map
        (fun r => (r.1, r.2.1.toDeviceShadow, publishedOf r.2.2)) =
      (s.toDeviceShadow.performUpdateAsync answers).map
        (fun o => (ShadowCode.code o.rc, o.shadow, o.published)) := by
  generalize hr : (if s.isUpdateSubscriptionActive then (ResponseCode.success, s.toDeviceShadow)
    else s.toDeviceShadow.addUpdateSubscription answers) = r
  obtain ⟨s', more, hadd, hshadow, hmore⟩ := s.addOwnSubscription_update answers hr
  rw [performUpdateAsync, DeviceShadow.performUpdateAsync, hadd, hr]
  split_ifs
  · rfl
  · rfl
  · rfl
  · cases s.toDeviceShadow.statesEqual with
    | error f => rfl
    | ok equal =>
      simp only [ok_bind]
      by_cases hequal : equal = true
      · rw [if_pos hequal, if_pos hequal]
        rfl
      · rw [if_neg hequal, if_neg hequal]
        by_cases hrc : r.1 = .success
        · rw [if_neg (by simpa using hrc), if_neg (by simpa using hrc), hshadow]
          cases r.2.updatePayload with
          | error f => rfl
          | ok diff =>
            simp only [ok_bind]
            cases diff.hasMember documentStateKey with
            | error f => rfl
            | ok found =>
              cases found with
              | true => simp [ok_bind, Except.map, hshadow, hmore.next]
              | false => simp [ok_bind, Except.map, hshadow, hmore.nothing]
        · rw [if_pos (by simpa using hrc), if_pos hrc]
          simp [Except.map, hshadow, hmore.nothing]

/-- The message does to the shadow what it does without the handlers. -/
theorem subscriptionHandler_toDeviceShadow [JsonNumber ν] (s : ShadowSession ν ρ)
    (indeterminate : UInt32) (topicName : Bytes) (payload : Except ResponseCode (JsonValue ν)) :
    (s.subscriptionHandler indeterminate topicName payload).map
        (fun r => (r.1, r.2.1.toDeviceShadow)) =
      s.toDeviceShadow.subscriptionHandler indeterminate topicName payload := by
  cases payload with
  | error rc => rfl
  | ok document =>
    rw [subscriptionHandler_eq_follow, subscriptionHandler]
    cases s.toDeviceShadow.dispatch topicName with
    | error f => rfl
    | ok d =>
      simp only [ok_bind]
      cases s.toDeviceShadow.follow indeterminate document d <;> rfl

/-! ### The handlers -/

theorem find_addShadowSubscription {s : ShadowSession ν ρ} {answers : MqttAnswers}
    {mapping : SortedMap ShadowRequestType (Option ρ)} {t : ShadowRequestType}
    (h : mapping.find t = none) :
    (s.addShadowSubscription answers mapping).2.1.requestMapping.find t =
      s.requestMapping.find t := by
  obtain ⟨rc, s', requests, heq, ⟨-, hgranted⟩ | ⟨-, rfl, -⟩⟩ :=
    s.addShadowSubscription_cases answers mapping
  · rw [heq, hgranted.handlers, h]
    rfl
  · rw [heq]

theorem addShadowSubscription_refused {s : ShadowSession ν ρ} {answers : MqttAnswers}
    {mapping : SortedMap ShadowRequestType (Option ρ)} (h : ¬ answers.Grant) :
    (s.addShadowSubscription answers mapping).2.1 = s := by
  rw [addShadowSubscription]
  split_ifs with hclient hempty hconnected hrc
  · rfl
  · rfl
  · rfl
  · exact absurd ⟨by simpa using hconnected, hrc⟩ h
  · rfl

/-- A request leaves the handlers alone that are there: it subscribes only when there is
none. -/
theorem Kept.find_addOwnSubscription {s : ShadowSession ν ρ} {requests : List (MqttRequest ν)}
    (h : Kept s requests) {answers : MqttAnswers} {t u : ShadowRequestType}
    (ht : (s.requestMapping.find t).isSome = true) :
    (s.addOwnSubscription answers (s.isActive u) u).2.1.requestMapping.find t =
      s.requestMapping.find t := by
  rw [ShadowSession.addOwnSubscription]
  split_ifs with hactive
  · rfl
  · have hne : t ≠ u := by
      rintro rfl
      exact hactive ((h.mapped t).mpr ht)
    refine find_addShadowSubscription ?_
    rw [SortedMap.find_insert_of_ne _ hne, SortedMap.find_empty]

theorem Kept.find_performAsync {s : ShadowSession ν ρ} {requests : List (MqttRequest ν)}
    (h : Kept s requests) {answers : MqttAnswers} {t u : ShadowRequestType}
    (ht : (s.requestMapping.find t).isSome = true) :
    (s.performAsync answers (s.isActive u) u).2.1.requestMapping.find t =
      s.requestMapping.find t := by
  have hadd : (s.addOwnSubscription answers (s.isActive u) u).2.1.requestMapping.find t =
      s.requestMapping.find t := h.find_addOwnSubscription ht
  rw [ShadowSession.performAsync]
  split_ifs
  · rfl
  · rfl
  · generalize s.addOwnSubscription answers (s.isActive u) u = r at hadd ⊢
    dsimp only
    split_ifs <;> exact hadd

theorem Kept.find_performUpdateAsync [JsonNumber ν] {s : ShadowSession ν ρ}
    {requests : List (MqttRequest ν)} (h : Kept s requests) {answers : MqttAnswers}
    {r : ShadowCode × ShadowSession ν ρ × List (MqttRequest ν)} {t : ShadowRequestType}
    (ht : (s.requestMapping.find t).isSome = true)
    (hperform : s.performUpdateAsync answers = .ok r) :
    r.2.1.requestMapping.find t = s.requestMapping.find t := by
  have hadd : (s.addOwnSubscription answers s.isUpdateSubscriptionActive
      .update).2.1.requestMapping.find t = s.requestMapping.find t :=
    h.find_addOwnSubscription (u := .update) ht
  rw [ShadowSession.performUpdateAsync] at hperform
  split_ifs at hperform
  · cases hperform
    rfl
  · cases hperform
    rfl
  · cases hperform
    rfl
  · obtain ⟨equal, -, hperform⟩ := bind_eq_ok.mp hperform
    generalize s.addOwnSubscription answers s.isUpdateSubscriptionActive .update = added
      at hadd hperform
    split_ifs at hperform
    · cases hperform
      rfl
    · dsimp only at hperform
      split_ifs at hperform
      · cases hperform
        exact hadd
      · obtain ⟨diff, -, hperform⟩ := bind_eq_ok.mp hperform
        obtain ⟨found, -, hperform⟩ := bind_eq_ok.mp hperform
        split_ifs at hperform
        · cases hperform
          exact hadd
        · cases hperform
          exact hadd

end ShadowSession

namespace ShadowSessionRun

/-- The call gives the request type another handler. One that is refused gives it none. -/
def Replaces (t : ShadowRequestType) : ShadowSessionCall ν ρ → Prop
  | .addShadowSubscription answers mapping => mapping.find t ≠ none ∧ answers.Grant
  | _ => False

def toldOf (t : ShadowRequestType) (told : List (ρ × ShadowRequestType × ShadowResponseType)) :
    List (ρ × ShadowResponseType) :=
  (told.filter fun n => n.2.1 = t).map fun n => (n.1, n.2.2)

/-- The types of the responses that a handler of the request type is to be told of. -/
def responsesFor (t : ShadowRequestType) (responses : List Dispatch) : List ShadowResponseType :=
  ((responses.filterMap notification).filter fun n => n.1 = t).map Prod.snd

theorem toldOf_append (t : ShadowRequestType)
    (a b : List (ρ × ShadowRequestType × ShadowResponseType)) :
    toldOf t (a ++ b) = toldOf t a ++ toldOf t b := by
  simp [toldOf]

theorem responsesFor_append (t : ShadowRequestType) (a b : List Dispatch) :
    responsesFor t (a ++ b) = responsesFor t a ++ responsesFor t b := by
  simp [responsesFor]

/-- The handler of the request type is told of its responses, each once and in order. -/
theorem toldOf_requestHandler {s : ShadowSession ν ρ} {t : ShadowRequestType} {handler : ρ}
    (h : s.requestMapping.find t = some (some handler)) (ds : List Dispatch) :
    toldOf t (ds.filterMap s.requestHandler) = (responsesFor t ds).map (handler, ·) := by
  induction ds with
  | nil => rfl
  | cons d ds ih =>
    rw [show d :: ds = [d] ++ ds from rfl, List.filterMap_append, toldOf_append, ih,
      responsesFor_append, List.map_append]
    congr 1
    cases hn : notification d with
    | none => simp [responsesFor, toldOf, requestHandler, hn]
    | some n =>
      by_cases hnt : n.1 = t
      · subst hnt
        simp [responsesFor, toldOf, requestHandler, hn, h]
      · cases hhandler : (s.requestMapping.find n.1).join with
        | none => simp [responsesFor, toldOf, requestHandler, hn, hnt, hhandler]
        | some other => simp [responsesFor, toldOf, requestHandler, hn, hnt, hhandler]

variable [JsonNumber ν]

theorem subscriptionHandler_told {s : ShadowSession ν ρ} {indeterminate : UInt32}
    {topicName : Bytes} {payload : Except ResponseCode (JsonValue ν)}
    {x : ResponseCode × ShadowSession ν ρ × Option (ρ × ShadowRequestType × ShadowResponseType)}
    (h : s.subscriptionHandler indeterminate topicName payload = .ok x) :
    x.2.1.requestMapping = s.requestMapping ∧
      x.2.2.toList = (s.responsesOf topicName payload).filterMap s.requestHandler := by
  cases payload with
  | error rc =>
    cases h
    exact ⟨rfl, rfl⟩
  | ok document =>
    obtain ⟨d, hd, h⟩ := bind_eq_ok.mp h
    obtain ⟨r, -, hr⟩ := bind_eq_ok.mp h
    cases hr
    refine ⟨rfl, ?_⟩
    rw [responsesOf, hd]
    cases hhandler : s.requestHandler d <;> simp [Except.toOption, hhandler]

theorem find_step {r r' : ShadowSessionRun ν ρ} {call : ShadowSessionCall ν ρ}
    {t : ShadowRequestType} (h : Kept r.session r.requests)
    (ht : (r.session.requestMapping.find t).isSome = true) (hcall : ¬ Replaces t call)
    (hstep : r.step call = some r') :
    r'.session.requestMapping.find t = r.session.requestMapping.find t := by
  cases call with
  | addShadowSubscription answers mapping =>
    cases hstep
    by_cases hnone : mapping.find t = none
    · exact find_addShadowSubscription hnone
    · have hrefused : ¬ answers.Grant := fun hgrant => hcall ⟨hnone, hgrant⟩
      rw [asked, addShadowSubscription_refused hrefused]
  | performGetAsync answers =>
    cases hstep
    exact h.find_performAsync (u := .get) ht
  | performDeleteAsync answers =>
    cases hstep
    exact h.find_performAsync (u := .delete) ht
  | performUpdateAsync answers =>
    obtain ⟨a, hperform, rfl⟩ := map_toOption_eq_some hstep
    exact h.find_performUpdateAsync ht hperform
  | updateDeviceShadow document =>
    cases hstep
    rfl
  | resetClientTokenSuffix suffix =>
    obtain ⟨d, -, rfl⟩ := map_toOption_eq_some hstep
    rfl
  | subscriptionHandler indeterminate topicName payload =>
    obtain ⟨x, hhandler, rfl⟩ := map_toOption_eq_some hstep
    exact congrArg (SortedMap.find · t) (subscriptionHandler_told hhandler).1

/-- What one call adds to the responses, and what the handlers are told of it. -/
theorem told_step {r r' : ShadowSessionRun ν ρ} {call : ShadowSessionCall ν ρ}
    (hstep : r.step call = some r') :
    ∃ ds, r'.responses = r.responses ++ ds ∧
      r'.told = r.told ++ ds.filterMap r.session.requestHandler := by
  cases call with
  | addShadowSubscription answers mapping =>
    cases hstep
    exact ⟨[], by simp [asked]⟩
  | performGetAsync answers | performDeleteAsync answers =>
    cases hstep
    exact ⟨[], by simp [asked]⟩
  | performUpdateAsync answers =>
    obtain ⟨a, -, rfl⟩ := map_toOption_eq_some hstep
    exact ⟨[], by simp [asked]⟩
  | updateDeviceShadow document =>
    cases hstep
    exact ⟨[], by simp⟩
  | resetClientTokenSuffix suffix =>
    obtain ⟨d, -, rfl⟩ := map_toOption_eq_some hstep
    exact ⟨[], by simp⟩
  | subscriptionHandler indeterminate topicName payload =>
    obtain ⟨x, hhandler, rfl⟩ := map_toOption_eq_some hstep
    exact ⟨_, rfl, congrArg (r.told ++ ·) (subscriptionHandler_told hhandler).2⟩

/-- From any point of a run a handler is told of every later response to its request, once
and in order, until the user gives the request another handler. -/
theorem told_of_reachable {hasMqttClient : Bool} {thingName clientTokenPrefix suffix : Bytes}
    {s : ShadowSession ν ρ}
    (hs : ShadowSession.create hasMqttClient thingName clientTokenPrefix suffix = some s)
    {r : ShadowSessionRun ν ρ}
    (hr : Transition.Reachable step Transition.anyMove ⟨s, [], [], []⟩ r)
    {t : ShadowRequestType} {handler : ρ}
    (ht : r.session.requestMapping.find t = some (some handler)) {r' : ShadowSessionRun ν ρ}
    (hr' : Transition.Reachable step (fun _ call => ¬ Replaces t call) r r') :
    ∃ ds, r'.responses = r.responses ++ ds ∧
      toldOf t r'.told = toldOf t r.told ++ (responsesFor t ds).map (handler, ·) := by
  have hkept : Kept r.session r.requests :=
    hr.invariant (P := fun r : ShadowSessionRun ν ρ => Kept r.session r.requests)
      (kept_create hs) (fun _ _ _ hi _ hstep => kept_step hi hstep)
  have hinv := hr'.invariant
    (P := fun u : ShadowSessionRun ν ρ => Kept u.session u.requests ∧
      u.session.requestMapping.find t = some (some handler) ∧
      ∃ ds, u.responses = r.responses ++ ds ∧
        toldOf t u.told = toldOf t r.told ++ (responsesFor t ds).map (handler, ·))
    ⟨hkept, ht, [], by simp [responsesFor]⟩ ?_
  · exact hinv.2.2
  · intro u call v hi hcall hstep
    obtain ⟨hkeptu, hfind, ds, hresponses, htold⟩ := hi
    obtain ⟨more, hmore, htoldMore⟩ := told_step hstep
    refine ⟨kept_step hkeptu hstep, ?_, ds ++ more, ?_, ?_⟩
    · rw [find_step hkeptu (by rw [hfind]; rfl) hcall hstep, hfind]
    · rw [hmore, hresponses, List.append_assoc]
    · rw [htoldMore, toldOf_append, htold, toldOf_requestHandler hfind, responsesFor_append,
        List.map_append, List.append_assoc]

/-- The handler numbered 7 for the responses to a get. -/
def handlerOfGet : ShadowSessionCall UInt32 Nat :=
  .addShadowSubscription ⟨true, true, .success, .success⟩
    (SortedMap.empty.insert .get (some 7))

/-- Another one, that the client refuses. -/
def refusedHandlerOfGet : ShadowSessionCall UInt32 Nat :=
  .addShadowSubscription ⟨true, true, .failure, .success⟩
    (SortedMap.empty.insert .get (some 8))

def rejectedGet : ShadowSessionCall UInt32 Nat :=
  .subscriptionHandler 0 (shadowOfA.shadowTopicGet ++ 0x2f :: responseTypeRejectedText)
    (.ok (.object []))

theorem told_of_reachable_get : ∃ r r' r'' : ShadowSessionRun UInt32 Nat,
    step ⟨sessionOfA, [], [], []⟩ handlerOfGet = some r ∧ step r refusedHandlerOfGet = some r' ∧
      step r' rejectedGet = some r'' ∧ r''.told = [(7, .get, .rejected)] ∧
      ∃ ds, r''.responses = r.responses ++ ds ∧
        toldOf .get r''.told = toldOf .get r.told ++ (responsesFor .get ds).map (7, ·) := by
  refine ⟨_, _, _, rfl, rfl, rfl, rfl, ?_⟩
  apply told_of_reachable (show ShadowSession.create true [0x61] [] [] = some sessionOfA from rfl)
    (.tail (m := handlerOfGet) .refl trivial rfl) (t := .get) rfl
  have hrefused : ¬ Replaces .get refusedHandlerOfGet := by
    rintro ⟨-, -, hsuccess⟩
    cases hsuccess
  exact .tail (m := rejectedGet) (.tail (m := refusedHandlerOfGet) .refl hrefused rfl) id rfl

end ShadowSessionRun

end AwsIotSdk
