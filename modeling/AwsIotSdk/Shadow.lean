import AwsIotSdk.JsonParser
import AwsIotSdk.Packet

/-! The responses and the deltas a shadow handles. The library asserts that a member is
looked up in an object and, where its value is used, that it exists. -/

namespace AwsIotSdk

variable {ν : Type}

namespace JsonValue

def hasMember (v : JsonValue ν) (name : Bytes) : Except Fault Bool :=
  match v with
  | .object ms => .ok (ms.lookup name).isSome
  | _ => .error .assertionFailed

def removeAllMembers (v : JsonValue ν) : Except Fault (JsonValue ν) :=
  match v with
  | .object _ => .ok (.object [])
  | _ => .error .assertionFailed

/-- Changes the value of a member in place. -/
def updateMember (v : JsonValue ν) (name : Bytes)
    (f : JsonValue ν → Except Fault (JsonValue ν)) : Except Fault (JsonValue ν) :=
  match v with
  | .object ms =>
    match ms.lookup name with
    | none => .error .assertionFailed
    | some x => do .ok (.object (setMember name (← f x) ms))
  | _ => .error .assertionFailed

end JsonValue

open JsonValue

namespace JsonParser

/-- The code and the variable after the call. -/
def getUint32Value [JsonNumber ν] (document : JsonValue ν) (key : Bytes) (value : UInt32) :
    ResponseCode × UInt32 :=
  match document.findMember key with
  | none => (.jsonParseKeyNotFoundError, value)
  | some (.number n) =>
    match JsonNumber.getUint n with
    | none => (.jsonParseKeyUnexpectedTypeError, value)
    | some n => (.success, n)
  | some _ => (.jsonParseKeyUnexpectedTypeError, value)

/-- The string is copied up to its first zero byte. -/
def getStringValue (document : JsonValue ν) (key value : Bytes) : ResponseCode × Bytes :=
  match document.findMember key with
  | none => (.jsonParseKeyNotFoundError, value)
  | some (.string str) => (.success, str.takeWhile (· ≠ 0))
  | some _ => (.jsonParseKeyUnexpectedTypeError, value)

end JsonParser

inductive ShadowResponseType where
  | rejected
  | accepted
  | delta
  deriving DecidableEq, Repr

structure Shadow (ν : Type) where
  curShadowVersion : UInt32
  clientToken : Bytes
  curServerStateDocument : JsonValue ν

namespace Shadow

/-- `state` -/
def documentStateKey : Bytes := [0x73, 0x74, 0x61, 0x74, 0x65]

/-- `reported` -/
def documentReportedKey : Bytes := [0x72, 0x65, 0x70, 0x6f, 0x72, 0x74, 0x65, 0x64]

/-- `desired` -/
def documentDesiredKey : Bytes := [0x64, 0x65, 0x73, 0x69, 0x72, 0x65, 0x64]

/-- `clientToken` -/
def documentClientTokenKey : Bytes :=
  [0x63, 0x6c, 0x69, 0x65, 0x6e, 0x74, 0x54, 0x6f, 0x6b, 0x65, 0x6e]

/-- `version` -/
def documentVersionKey : Bytes := [0x76, 0x65, 0x72, 0x73, 0x69, 0x6f, 0x6e]

/-- `timestamp` -/
def documentTimestampKey : Bytes := [0x74, 0x69, 0x6d, 0x65, 0x73, 0x74, 0x61, 0x6d, 0x70]

def documentEmptyState : JsonValue ν :=
  .object [(documentDesiredKey, .object []), (documentReportedKey, .object [])]

/-- The client token is `empty`. -/
def documentEmpty [JsonNumber ν] : JsonValue ν :=
  .object [(documentStateKey, documentEmptyState),
    (documentVersionKey, .number (JsonNumber.ofUint 0)),
    (documentClientTokenKey, .string [0x65, 0x6d, 0x70, 0x74, 0x79]),
    (documentTimestampKey, .number (JsonNumber.ofUint 0))]

/-- A shadow as its constructor leaves it. -/
def init (clientToken : Bytes) : Shadow ν := ⟨0, clientToken, .object []⟩

def ownRequest (s : Shadow ν) (payload : JsonValue ν) : Bool :=
  match payload.findMember documentClientTokenKey with
  | none => false
  | some _ => s.clientToken == (JsonParser.getStringValue payload documentClientTokenKey []).2

variable [JsonNumber ν]

def handleGetResponse (s : Shadow ν) (responseType : ShadowResponseType)
    (payload : JsonValue ν) : Except Fault (ResponseCode × Shadow ν) :=
  if responseType = .delta then .ok (.shadowUnexpectedResponseType, s)
  else if responseType = .rejected then .ok (.shadowRequestRejected, s)
  else
    match payload.findMember documentStateKey with
    | none => .ok (.shadowUnexpectedResponsePayload, s)
    | some _ => do
      let _ ← s.curServerStateDocument.removeAllMembers
      let (rc, version) := JsonParser.getUint32Value payload documentVersionKey s.curShadowVersion
      .ok (if rc ≠ .success then rc else .shadowRequestAccepted,
        { s with curServerStateDocument := payload, curShadowVersion := version })

/-- Merges the state of a delta into the desired state of the document. -/
def mergeDelta (document state : JsonValue ν) : Except Fault (JsonValue ν) := do
  let document := if ← document.hasMember documentStateKey then document else documentEmpty
  document.updateMember documentStateKey (fun current => do
    let current := if ← current.hasMember documentDesiredKey then current
      else (JsonParser.mergeValues current documentEmptyState).2
    current.updateMember documentDesiredKey (fun desired =>
      .ok (JsonParser.mergeValues desired state).2))

/-- An accepted update or a delta with the version read from it. -/
def applyUpdate (s : Shadow ν) (responseType : ShadowResponseType) (payload state : JsonValue ν)
    (payloadVersion : UInt32) : Except Fault (ResponseCode × Shadow ν) :=
  if payloadVersion ≤ s.curShadowVersion then .ok (.shadowReceivedOldVersionUpdate, s)
  else if responseType = .delta then
    if s.ownRequest payload then .ok (.shadowReceivedDelta, s)
    else do
      let document ← mergeDelta s.curServerStateDocument state
      .ok (.shadowReceivedDelta,
        { s with curServerStateDocument := document, curShadowVersion := payloadVersion })
  else
    let document := (JsonParser.mergeValues s.curServerStateDocument payload).2
    .ok (.shadowRequestAccepted,
      { s with curServerStateDocument := document, curShadowVersion := payloadVersion })

/-- `indeterminate` is what the uninitialized version of the payload holds. -/
def handleUpdateResponse (indeterminate : UInt32) (s : Shadow ν)
    (responseType : ShadowResponseType) (payload : JsonValue ν) :
    Except Fault (ResponseCode × Shadow ν) :=
  if responseType = .rejected then .ok (.shadowRequestRejected, s)
  else
    match payload.findMember documentStateKey with
    | none => .ok (.shadowUnexpectedResponsePayload, s)
    | some state =>
      let (rc, payloadVersion) :=
        JsonParser.getUint32Value payload documentVersionKey indeterminate
      if rc ≠ .success ∧ rc ≠ .jsonParseKeyNotFoundError then .ok (rc, s)
      else s.applyUpdate responseType payload state payloadVersion

def handleDeleteResponse (s : Shadow ν) (responseType : ShadowResponseType)
    (_payload : JsonValue ν) : ResponseCode × Shadow ν :=
  if responseType = .delta then (.shadowUnexpectedResponseType, s)
  else if responseType = .rejected then (.shadowRequestRejected, s)
  else
    (.shadowRequestAccepted,
      { s with curServerStateDocument := .object [], curShadowVersion := 0 })

end Shadow

end AwsIotSdk
