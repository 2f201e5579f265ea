import AwsIotSdk.ShadowShapes
import AwsIotSdk.SortedMap
import AwsIotSdk.TopicDispatch

/-! The shadow object with its subscriptions: the requests it hands to the client, the
handlers of its user and what its destructor gives up. -/

namespace AwsIotSdk

open JsonValue Shadow

inductive ShadowRequestType where
  | get
  | update
  | delete
  | delta
  deriving DecidableEq, Repr

namespace ShadowRequestType

def value : ShadowRequestType → Nat
  | get => 1
  | update => 2
  | delete => 4
  | delta => 8

theorem value_injective : Function.Injective value := by
  intro a b h
  cases a <;> cases b <;> simp [value] at h ⊢

instance : LinearOrder ShadowRequestType := LinearOrder.lift' value value_injective

end ShadowRequestType

/-- The code for an empty map is the only one of its own. -/
inductive ShadowCode where
  | code (rc : ResponseCode)
  | shadowRequestMapEmpty
  deriving DecidableEq, Repr

/-- What a shadow asks of the client. A publish without a document has no payload. -/
inductive MqttRequest (ν : Type) where
  | subscribe (topics : List Bytes) (rc : ResponseCode)
  | publish (topic : Bytes) (payload : Option (JsonValue ν))
  | unsubscribe (topics : List Bytes)

/-- The handlers of the user are only told apart. -/
structure ShadowSession (ν ρ : Type) extends DeviceShadow ν where
  isGetSubscriptionActive : Bool
  isDeleteSubscriptionActive : Bool
  isDeltaSubscriptionActive : Bool
  requestMapping : SortedMap ShadowRequestType (Option ρ)

namespace DeviceShadow

variable {ν : Type} (s : DeviceShadow ν)

def shadowTopicDelta : Bytes := s.shadowTopicUpdate ++ 0x2f :: responseTypeDeltaText

/-- The topic that the loop of a subscription starts from. -/
def topicNameStr : ShadowRequestType → Bytes
  | .get => s.shadowTopicGet
  | .update => s.shadowTopicUpdate
  | .delete => s.shadowTopicDelete
  | .delta => s.shadowTopicDelta

def topicsAccepted (topicName : Bytes) : List Bytes :=
  [topicName ++ 0x2f :: responseTypeAcceptedText, topicName ++ 0x2f :: responseTypeRejectedText]

end DeviceShadow

open DeviceShadow

structure RequestTypes where
  hasGet : Bool
  hasUpdate : Bool
  hasDelete : Bool
  hasDelta : Bool
  deriving DecidableEq, Repr

def RequestTypes.note (types : RequestTypes) : ShadowRequestType → RequestTypes
  | .get => { types with hasGet := true }
  | .update => { types with hasUpdate := true }
  | .delete => { types with hasDelete := true }
  | .delta => { types with hasDelta := true }

namespace ShadowSession

variable {ν ρ : Type}

def create [JsonNumber ν] (hasMqttClient : Bool) (thingName clientTokenPrefix suffix : Bytes) :
    Option (ShadowSession ν ρ) :=
  (DeviceShadow.create hasMqttClient thingName clientTokenPrefix suffix).map fun d =>
    { d with
      isGetSubscriptionActive := false
      isDeleteSubscriptionActive := false
      isDeltaSubscriptionActive := false
      requestMapping := .empty }

/-- Once a delta was seen, every later entry of the map is taken for one. -/
def collectTopics (s : DeviceShadow ν) :
    List ShadowRequestType → RequestTypes → List Bytes → RequestTypes × List Bytes
  | [], types, topics => (types, topics)
  | t :: rest, types, topics =>
    let types := types.note t
    if types.hasDelta then collectTopics s rest types (topics ++ [s.shadowTopicDelta])
    else collectTopics s rest types (topics ++ topicsAccepted (s.topicNameStr t))

variable (s : ShadowSession ν ρ)

def activate (types : RequestTypes) : ShadowSession ν ρ :=
  { s with
    isGetSubscriptionActive := types.hasGet || s.isGetSubscriptionActive
    isUpdateSubscriptionActive := types.hasUpdate || s.isUpdateSubscriptionActive
    isDeleteSubscriptionActive := types.hasDelete || s.isDeleteSubscriptionActive
    isDeltaSubscriptionActive := types.hasDelta || s.isDeltaSubscriptionActive }

/-- Each entry takes the place of the one that its request type had. -/
def setHandlers (mapping : SortedMap ShadowRequestType (Option ρ)) :
    List (ShadowRequestType × Option ρ) → SortedMap ShadowRequestType (Option ρ)
  | [] => mapping
  | e :: rest => setHandlers ((mapping.erase e.1).insert e.1 e.2) rest

def addShadowSubscription (answers : MqttAnswers)
    (requestMapping : SortedMap ShadowRequestType (Option ρ)) :
    ShadowCode × ShadowSession ν ρ × List (MqttRequest ν) :=
  if !s.hasMqttClient then (.code .shadowMqttClientNotSetError, s, [])
  else if requestMapping.entries.isEmpty then (.shadowRequestMapEmpty, s, [])
  else if !answers.isConnectedForSubscribe then (.code .shadowMqttDisconnectedError, s, [])
  else
    let (types, topics) := collectTopics s.toDeviceShadow (requestMapping.entries.map Prod.fst)
      ⟨false, false, false, false⟩ []
    let requests := [.subscribe topics answers.subscribe]
    if answers.subscribe = .success then
      (.code .success,
        { s.activate types with
          requestMapping := setHandlers s.requestMapping requestMapping.entries }, requests)
    else (.code answers.subscribe, s, requests)

/-- The subscription that a request makes for its own responses, without a handler. -/
def addOwnSubscription (answers : MqttAnswers) (isActive : Bool) (t : ShadowRequestType) :
    ShadowCode × ShadowSession ν ρ × List (MqttRequest ν) :=
  if isActive then (.code .success, s, [])
  else s.addShadowSubscription answers (SortedMap.empty.insert t none)

/-- A request whose payload is empty. -/
def performAsync (answers : MqttAnswers) (isActive : Bool) (t : ShadowRequestType) :
    ShadowCode × ShadowSession ν ρ × List (MqttRequest ν) :=
  if !s.hasMqttClient then (.code .shadowMqttClientNotSetError, s, [])
  else if !answers.isConnected then (.code .shadowMqttDisconnectedError, s, [])
  else
    let (rc, t', requests) := s.addOwnSubscription answers isActive t
    if rc ≠ .code .success then (rc, t', requests)
    else (.code answers.publish, t', requests ++ [.publish (s.topicNameStr t) none])

def performGetAsync (answers : MqttAnswers) :
    ShadowCode × ShadowSession ν ρ × List (MqttRequest ν) :=
  s.performAsync answers s.isGetSubscriptionActive .get

def performDeleteAsync (answers : MqttAnswers) :
    ShadowCode × ShadowSession ν ρ × List (MqttRequest ν) :=
  s.performAsync answers s.isDeleteSubscriptionActive .delete

def performUpdateAsync [JsonNumber ν] (answers : MqttAnswers) :
    Except Fault (ShadowCode × ShadowSession ν ρ × List (MqttRequest ν)) :=
  if !s.hasMqttClient then .ok (.code .shadowMqttClientNotSetError, s, [])
  else if !answers.isConnected then .ok (.code .shadowMqttDisconnectedError, s, [])
  else if !s.curServerStateDocument.isObject || !s.curDeviceStateDocument.isObject then
    .ok (.code .failure, s, [])
  else do
    if ← s.statesEqual then .ok (.code .shadowNothingToUpdate, s, [])
    else
      let (rc, s, requests) := s.addOwnSubscription answers s.isUpdateSubscriptionActive .update
      if rc ≠ .code .success then .ok (rc, s, requests)
      else
        let diff ← s.updatePayload
        if ← diff.hasMember documentStateKey then
          .ok (.code answers.publish, s, requests ++ [.publish s.shadowTopicUpdate (some diff)])
        else .ok (.code .shadowNothingToUpdate, s, requests)

/-- What the handlers are told of a response. A delta to a get or a delete is refused before
they are looked for. -/
def notification : Dispatch → Option (ShadowRequestType × ShadowResponseType)
  | .run .get .delta | .run .delete .delta => none
  | .run .get r => some (.get, r)
  | .run .delete r => some (.delete, r)
  | .run .update .delta => some (.delta, .delta)
  | .run .update r => some (.update, r)
  | _ => none

def requestHandler (d : Dispatch) : Option (ρ × ShadowRequestType × ShadowResponseType) :=
  (notification d).bind fun n => (s.requestMapping.find n.1).join.map (·, n)

def subscriptionHandler [JsonNumber ν] (indeterminate : UInt32) (topicName : Bytes)
    (payload : Except ResponseCode (JsonValue ν)) : Except Fault
      (ResponseCode × ShadowSession ν ρ × Option (ρ × ShadowRequestType × ShadowResponseType)) :=
  match payload with
  | .error rc => .ok (rc, s, none)
  | .ok document => do
    let d ← s.dispatch topicName
    let r ← s.follow indeterminate document d
    .ok (r.1, { s with toDeviceShadow := r.2 }, s.requestHandler d)

/-- The topics in the order in which the destructor lists them. -/
def topicList : List Bytes :=
  (if s.isGetSubscriptionActive then topicsAccepted s.shadowTopicGet else []) ++
    (if s.isUpdateSubscriptionActive then topicsAccepted s.shadowTopicUpdate else []) ++
    (if s.isDeleteSubscriptionActive then topicsAccepted s.shadowTopicDelete else []) ++
    (if s.isDeltaSubscriptionActive then [s.shadowTopicDelta] else [])

def destroy (isConnected : Bool) : List (MqttRequest ν) :=
  if !s.hasMqttClient then []
  else if isConnected then [.unsubscribe s.topicList] else []

end ShadowSession

end AwsIotSdk
