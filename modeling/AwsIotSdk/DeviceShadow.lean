import AwsIotSdk.Shadow

/-! The shadow object as its user and the subscriptions see it: the topics, the document of
the device, the readers and the request for an update. -/

namespace AwsIotSdk

open JsonValue

variable {ν : Type}

namespace JsonValue

/-- The value of a member that is asserted to exist. -/
def member (v : JsonValue ν) (name : Bytes) : Except Fault (JsonValue ν) :=
  match v.findMember name with
  | none => .error .assertionFailed
  | some x => .ok x

/-- Erases the member of the name if there is one. -/
def eraseIfMember (v : JsonValue ν) (name : Bytes) : Except Fault (JsonValue ν) :=
  match v with
  | .object ms => .ok (.object (eraseMember name ms))
  | _ => .error .assertionFailed

end JsonValue

/-- Compares a range with as many characters of another, which has to have that many:
nothing says that the comparison stops at the first difference. -/
def equalRange (range other : Bytes) : Except Fault Bool :=
  if other.length < range.length then .error .outOfBounds else .ok (range.isPrefixOf other)

/-- What the client answers while an update is requested. -/
structure MqttAnswers where
  isConnected : Bool
  isConnectedForSubscribe : Bool
  subscribe : ResponseCode
  publish : ResponseCode
  deriving DecidableEq, Repr

structure DeviceShadow (ν : Type) extends Shadow ν where
  hasMqttClient : Bool
  thingName : Bytes
  clientTokenPrefix : Bytes
  isUpdateSubscriptionActive : Bool
  curDeviceStateDocument : JsonValue ν

namespace DeviceShadow

open Shadow

/-- `$aws/things/` -/
def shadowTopicPrefix : Bytes :=
  [0x24, 0x61, 0x77, 0x73, 0x2f, 0x74, 0x68, 0x69, 0x6e, 0x67, 0x73, 0x2f]

/-- `/shadow/` -/
def shadowTopicMiddle : Bytes := [0x2f, 0x73, 0x68, 0x61, 0x64, 0x6f, 0x77, 0x2f]

/-- `get` -/
def requestTypeGetString : Bytes := [0x67, 0x65, 0x74]

/-- `update` -/
def requestTypeUpdateString : Bytes := [0x75, 0x70, 0x64, 0x61, 0x74, 0x65]

/-- `delete` -/
def requestTypeDeleteString : Bytes := [0x64, 0x65, 0x6c, 0x65, 0x74, 0x65]

/-- `accepted` -/
def responseTypeAcceptedText : Bytes := [0x61, 0x63, 0x63, 0x65, 0x70, 0x74, 0x65, 0x64]

/-- `rejected` -/
def responseTypeRejectedText : Bytes := [0x72, 0x65, 0x6a, 0x65, 0x63, 0x74, 0x65, 0x64]

/-- `delta` -/
def responseTypeDeltaText : Bytes := [0x64, 0x65, 0x6c, 0x74, 0x61]

def clientTokenOf (clientTokenPrefix suffix : Bytes) : Bytes := clientTokenPrefix ++ 0x5f :: suffix

/-- The suffix is the text of the time. -/
def create [JsonNumber ν] (hasMqttClient : Bool) (thingName clientTokenPrefix suffix : Bytes) :
    Option (DeviceShadow ν) :=
  if hasMqttClient = false ∨ thingName.length = 0 then none
  else
    let clientTokenPrefix := if clientTokenPrefix.length = 0 then thingName else clientTokenPrefix
    let clientToken := clientTokenOf clientTokenPrefix suffix
    some { Shadow.init clientToken with
      hasMqttClient
      thingName
      clientTokenPrefix
      isUpdateSubscriptionActive := false
      curDeviceStateDocument := .object [(documentStateKey, documentEmptyState),
        (documentVersionKey, .number (JsonNumber.ofUint 0)),
        (documentClientTokenKey, .string clientToken),
        (documentTimestampKey, .number (JsonNumber.ofUint 0))] }

variable (s : DeviceShadow ν)

def shadowTopicActionPrefix : Bytes := shadowTopicPrefix ++ s.thingName ++ shadowTopicMiddle

def shadowTopicGet : Bytes := s.shadowTopicActionPrefix ++ requestTypeGetString

def shadowTopicUpdate : Bytes := s.shadowTopicActionPrefix ++ requestTypeUpdateString

def shadowTopicDelete : Bytes := s.shadowTopicActionPrefix ++ requestTypeDeleteString

/-! ### Responses -/

/-- The texts are compared from the end of the topic, the delta first. -/
def responseTypeOf (topicName : Bytes) : Except Fault (Option ShadowResponseType) := do
  if ← equalRange responseTypeDeltaText.reverse topicName.reverse then .ok (some .delta)
  else if ← equalRange responseTypeRejectedText.reverse topicName.reverse then
    .ok (some .rejected)
  else if ← equalRange responseTypeAcceptedText.reverse topicName.reverse then
    .ok (some .accepted)
  else .ok none

section Handlers

variable [JsonNumber ν]

/-- Puts the shadow that a handler leaves back into the object. -/
def withShadow (r : ResponseCode × Shadow ν) : ResponseCode × DeviceShadow ν :=
  (r.1, { s with toShadow := r.2 })

/-- `payload` is what the JSON library makes of the text of the message. -/
def subscriptionHandler (indeterminate : UInt32) (topicName : Bytes)
    (payload : Except ResponseCode (JsonValue ν)) : Except Fault (ResponseCode × DeviceShadow ν) :=
  match payload with
  | .error rc => .ok (rc, s)
  | .ok payload => do
    match ← responseTypeOf topicName with
    | none => .ok (.shadowUnexpectedResponseType, s)
    | some responseType =>
      if ← equalRange s.shadowTopicGet topicName then
        (s.handleGetResponse responseType payload).map s.withShadow
      else if ← equalRange s.shadowTopicUpdate topicName then
        (s.handleUpdateResponse indeterminate responseType payload).map s.withShadow
      else if ← equalRange s.shadowTopicDelete topicName then
        .ok (s.withShadow (s.handleDeleteResponse responseType payload))
      else .ok (.shadowUnexpectedResponseTopic, s)

end Handlers

/-! ### The documents -/

def updateDeviceShadow (document : JsonValue ν) : ResponseCode × DeviceShadow ν :=
  match document with
  | .null => (.shadowJsonEmptyError, s)
  | document =>
    let r := JsonParser.mergeValues s.curDeviceStateDocument document
    (r.1, { s with curDeviceStateDocument := r.2 })

/-- A section of the state of the device. -/
def deviceSection (name : Bytes) : Except Fault (JsonValue ν) := do
  (← s.curDeviceStateDocument.member documentStateKey).member name

def getDeviceReported : Except Fault (JsonValue ν) := s.deviceSection documentReportedKey

def getDeviceDesired : Except Fault (JsonValue ν) := s.deviceSection documentDesiredKey

def getDeviceDocument : JsonValue ν := s.curDeviceStateDocument

/-- A section of the state of the server, null where there is none. -/
def serverSection (name : Bytes) : Except Fault (JsonValue ν) := do
  if ← s.curServerStateDocument.hasMember documentStateKey then
    let state ← s.curServerStateDocument.member documentStateKey
    if ← state.hasMember name then state.member name else .ok .null
  else .ok .null

def getServerReported : Except Fault (JsonValue ν) := s.serverSection documentReportedKey

def getServerDesired : Except Fault (JsonValue ν) := s.serverSection documentDesiredKey

def getServerDocument : JsonValue ν := s.curServerStateDocument

def resetClientTokenSuffix (suffix : Bytes) : Except Fault (DeviceShadow ν) := do
  let clientToken := clientTokenOf s.clientTokenPrefix suffix
  let document ← s.curDeviceStateDocument.updateMember documentClientTokenKey
    (fun _ => .ok (.string clientToken))
  .ok { s with clientToken, curDeviceStateDocument := document }

variable [JsonNumber ν]

def isInSync : Except Fault Bool :=
  if !s.curServerStateDocument.isObject then .ok false
  else do
    if ← s.curServerStateDocument.hasMember documentStateKey then
      let state ← s.curServerStateDocument.member documentStateKey
      let hasReported ← state.hasMember documentReportedKey
      let hasDesired ← state.hasMember documentDesiredKey
      if hasReported && hasDesired then
        .ok ((← state.member documentDesiredKey).eq (← state.member documentReportedKey))
      else .ok false
    else .ok false

/-! ### The request for an update -/

/-- The subscription of the update topics, with no handler for the responses. -/
def addUpdateSubscription (answers : MqttAnswers) : ResponseCode × DeviceShadow ν :=
  if !s.hasMqttClient then (.shadowMqttClientNotSetError, s)
  else if !answers.isConnectedForSubscribe then (.shadowMqttDisconnectedError, s)
  else if answers.subscribe = .success then
    (.success, { s with isUpdateSubscriptionActive := true })
  else (answers.subscribe, s)

structure UpdateOutcome (ν : Type) where
  rc : ResponseCode
  published : Option (JsonValue ν)
  shadow : DeviceShadow ν

/-- Both documents have a state, and the states are equal. -/
def statesEqual : Except Fault Bool := do
  if ← s.curServerStateDocument.hasMember documentStateKey then
    if ← s.curDeviceStateDocument.hasMember documentStateKey then
      .ok ((← s.curDeviceStateDocument.member documentStateKey).eq
        (← s.curServerStateDocument.member documentStateKey))
    else .ok false
  else .ok false

/-- The difference that is published. -/
def updatePayload : Except Fault (JsonValue ν) := do
  let diff := (JsonParser.diffValues .null s.curServerStateDocument s.curDeviceStateDocument).2
  let diff ← diff.eraseIfMember documentTimestampKey
  diff.eraseIfMember documentVersionKey

def performUpdateAsync (answers : MqttAnswers) : Except Fault (UpdateOutcome ν) :=
  if !s.hasMqttClient then .ok ⟨.shadowMqttClientNotSetError, none, s⟩
  else if !answers.isConnected then .ok ⟨.shadowMqttDisconnectedError, none, s⟩
  else if !s.curServerStateDocument.isObject || !s.curDeviceStateDocument.isObject then
    .ok ⟨.failure, none, s⟩
  else do
    if ← s.statesEqual then .ok ⟨.shadowNothingToUpdate, none, s⟩
    else
      let (rc, s) := if s.isUpdateSubscriptionActive then (.success, s)
        else s.addUpdateSubscription answers
      if rc ≠ .success then .ok ⟨rc, none, s⟩
      else
        let diff ← s.updatePayload
        if ← diff.hasMember documentStateKey then .ok ⟨answers.publish, some diff, s⟩
        else .ok ⟨.shadowNothingToUpdate, none, s⟩

end DeviceShadow

end AwsIotSdk
