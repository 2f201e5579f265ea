import AwsIotSdk.Actions

/-! The runner of the read thread: reading one packet, the handlers of the packet
types and the loop around them. -/

namespace AwsIotSdk

def maxNoOfRemainingLengthBytes : Nat := 4

variable {σ : Type} [NetworkConnection σ]

namespace NetworkRead

structure LengthResult (σ : Type) where
  rc : ResponseCode
  remLen : Nat
  connection : σ

def decodeLoop (threadContinue : Bool) : Nat → σ → (multiplier remLen : Nat) → LengthResult σ
  | 0, c, _, remLen => ⟨.failure, remLen, c⟩
  | attempts + 1, c, multiplier, remLen =>
    let r := Action.readFromNetworkBuffer threadContinue c [] 1
    if r.rc ≠ .success then ⟨r.rc, remLen, r.connection⟩
    else
      let b := r.buf.headD 0
      let remLen := remLen + (b &&& 127).toNat * multiplier
      if b &&& 128 ≠ 0 then
        decodeLoop threadContinue attempts r.connection (multiplier * 128) remLen
      else ⟨.success, remLen, r.connection⟩

def decodeRemainingLength (threadContinue : Bool) (c : σ) : LengthResult σ :=
  decodeLoop threadContinue maxNoOfRemainingLengthBytes c 1 0

structure PacketResult (σ : Type) where
  rc : ResponseCode
  fixedHeaderByte : UInt8
  readBuf : Bytes
  connection : σ
  deriving DecidableEq

def readPacketFromNetwork (threadContinue : Bool) (c : σ) : PacketResult σ :=
  let h := Action.readFromNetworkBuffer threadContinue c [] 1
  if h.rc ≠ .success then ⟨h.rc, 0, h.buf, h.connection⟩
  else
    let fixedHeaderByte := h.buf.headD 0
    let l := decodeRemainingLength threadContinue h.connection
    if l.rc ≠ .success then ⟨l.rc, fixedHeaderByte, [], l.connection⟩
    else if 0 < l.remLen then
      let r := Action.readFromNetworkBuffer threadContinue l.connection [] l.remLen
      ⟨r.rc, fixedHeaderByte, r.buf, r.connection⟩
    else ⟨l.rc, fixedHeaderByte, [], l.connection⟩

/-! ### The handlers -/

def connackReturnCode (b : UInt8) : Option ResponseCode :=
  match b.toNat with
  | 0 => some .success
  | 1 => some .mqttConnackUnacceptableProtocolVersionError
  | 2 => some .mqttConnackIdentifierRejectedError
  | 3 => some .mqttConnackServerUnavailableError
  | 4 => some .mqttConnackBadUserdataError
  | 5 => some .mqttConnackNotAuthorizedError
  | _ => none

def handleConnack (s : ClientState) (readBuf : Bytes) : ResponseCode × ClientState :=
  match readBuf with
  | [flags, code] =>
    let s := s.setSessionPresent (flags = 1)
    match connackReturnCode code with
    | none => (.mqttUnexpectedPacketFormatError, s)
    | some .success =>
      (.success, (s.setConnected true).mapCore (·.forwardReceivedAck
        ConnectActionAsync.connackReservedPacketId .mqttConnackConnectionAccepted))
    | some rc => (rc, s)
  | _ => (.mqttDecodeRemainingLengthError, s)

def callAppHandler (s : ClientState) (sub : Subscription) (topicName payload : Bytes) :
    Except Fault ClientState :=
  match sub.pAppHandler with
  | none => .error .badFunctionCall
  | some h =>
    .ok { s with appCalls := s.appCalls ++ [⟨h, topicName, payload, sub.pAppHandlerData⟩] }

def deliverPublish (s : ClientState) (p : PublishPacket) (qos : QoS) :
    Except Fault (ResponseCode × ClientState) := do
  let topicName := p.pTopicName.toStdString
  match ← s.getSubscription topicName with
  | none => return (.mqttNoSubscriptionFound, s)
  | some ptr =>
    if (s.heap ptr).isActive then
      let s ← callAppHandler s (s.heap ptr) topicName p.payload
      if qos ≠ .qos0 then
        return s.enqueueOutboundAction .puback (.puback (PubackPacket.create p.packetId))
      else return (.success, s)
    else return (.mqttSubscriptionNotActive, s)

def handlePublish (s : ClientState) (readBuf : Bytes) (isRetained isDuplicate : Bool)
    (qos : QoS) : Except Fault (ResponseCode × ClientState) := do
  match ← PublishPacket.create readBuf isRetained isDuplicate qos with
  | none => throw .nullDereference
  | some p => deliverPublish s p qos

def handlePuback (s : ClientState) (readBuf : Bytes) :
    Except Fault (ResponseCode × ClientState) := do
  let (packetId, _) ← Packet.readUInt16FromBuffer readBuf 0
  return (.success, s.mapCore (·.forwardReceivedAck packetId .success))

def handleSubackCodes (packetId : UInt16) :
    Bytes → (itr : UInt8) → (success failure : Bool) → ClientState → Bool × Bool × ClientState
  | [], _, success, failure, s => (success, failure, s)
  | qos :: rest, itr, success, failure, s =>
    if qos = 128 then
      handleSubackCodes packetId rest (itr + 1) success true
        (s.removeSubscription packetId (itr + 1)).2
    else if qos = 0 then
      handleSubackCodes packetId rest (itr + 1) true failure
        (s.setSubscriptionActive packetId (itr + 1) .qos0).2
    else if qos = 1 then
      handleSubackCodes packetId rest (itr + 1) true failure
        (s.setSubscriptionActive packetId (itr + 1) .qos1).2
    else handleSubackCodes packetId rest (itr + 1) success failure s

def handleSuback (s : ClientState) (readBuf : Bytes) :
    Except Fault (ResponseCode × ClientState) := do
  match ← SubackPacket.create readBuf with
  | none => throw .nullDereference
  | some p =>
    let (success, failure, s) := handleSubackCodes p.packetId p.subackList 0 false false s
    let rc : ResponseCode :=
      if success && failure then .mqttSubscribePartiallyFailed
      else if success then .success
      else .mqttSubscribeFailed
    return (rc, s.mapCore (·.forwardReceivedAck p.packetId rc))

def handleUnsuback (s : ClientState) (readBuf : Bytes) :
    Except Fault (ResponseCode × ClientState) := do
  match ← UnsubackPacket.create readBuf with
  | none => throw .nullDereference
  | some p =>
    let s := (s.removeAllSubscriptionsForPacketId p.packetId).2
    return (.success, s.mapCore (·.forwardReceivedAck p.packetId .success))

def messageType (fixedHeaderByte : UInt8) : MessageTypes :=
  .ofByte ((fixedHeaderByte >>> 4) &&& 0x0f)

def publishQos (fixedHeaderByte : UInt8) : QoS :=
  if fixedHeaderByte &&& 0x02 = 0x02 then .qos1 else .qos0

/-- The switch of the loop. The call passes the duplicate flag where the handler
takes the retain flag, and the other way round. -/
def dispatch (s : ClientState) (fixedHeaderByte : UInt8) (readBuf : Bytes) :
    Except Fault (ResponseCode × ClientState) :=
  match messageType fixedHeaderByte with
  | .connack => .ok (handleConnack s readBuf)
  | .publish =>
    let isRetained := fixedHeaderByte &&& 0x01 = 0x01
    let isDuplicate := fixedHeaderByte &&& 0x08 = 0x08
    handlePublish s readBuf isDuplicate isRetained (publishQos fixedHeaderByte)
  | .puback => handlePuback s readBuf
  | .suback => handleSuback s readBuf
  | .unsuback => handleUnsuback s readBuf
  | .pingresp => .ok (.success, s.setPingreqPending false)
  | _ => .ok (.success, s)

end NetworkRead

/-- The runner and what it shares with the other threads. The last two members
record what the loop has done; they are no part of the source. -/
structure NetworkReadActionRunner (σ : Type) where
  client : ClientState
  connection : σ
  isWaitingForConnack : Bool
  dispatched : List (UInt8 × Bytes)
  performed : List ActionType

/-- What happens around one iteration: the steps of other threads before it and
during a blocking call in it, and the value of the flag that keeps it running. -/
structure Turn (σ : Type) where
  others : ClientState × σ → ClientState × σ
  awaitAck : ClientState → ClientState
  threadContinue : Bool

namespace NetworkReadActionRunner

open NetworkRead

def start (client : ClientState) (c : σ) : NetworkReadActionRunner σ :=
  ⟨client, c, !client.isConnected, [], []⟩

/-- One iteration, for any way to handle a packet. -/
def iteration {m : Type → Type} [Monad m]
    (dispatch : ClientState → UInt8 → Bytes → m (ResponseCode × ClientState))
    (t : Turn σ) (r : NetworkReadActionRunner σ) :
    m (ResponseCode × NetworkReadActionRunner σ) := do
  let (client, c) := t.others (r.client, r.connection)
  let p := readPacketFromNetwork t.threadContinue c
  let r := { r with client := client, connection := p.connection }
  if p.rc = .networkSslNothingToRead then return (p.rc, r)
  else if p.rc = .success then
    let (rc, client) ← dispatch client p.fixedHeaderByte p.readBuf
    return (rc, { r with
      client := client
      dispatched := r.dispatched ++ [(p.fixedHeaderByte, p.readBuf)] })
  else if !r.isWaitingForConnack then
    let r := { r with isWaitingForConnack := true }
    if t.threadContinue && client.isConnected then
      let (rc, client, c) := client.performAction p.connection t.awaitAck .disconnect
        (.disconnect DisconnectPacket.create)
      return (rc, { r with
        client := client.setAutoReconnectRequired true
        connection := c
        performed := r.performed ++ [.disconnect] })
    else return (p.rc, r)
  else return (p.rc, r)

def performAction {m : Type → Type} [Monad m]
    (dispatch : ClientState → UInt8 → Bytes → m (ResponseCode × ClientState)) :
    List (Turn σ) → NetworkReadActionRunner σ → m (NetworkReadActionRunner σ)
  | [], r => return r
  | t :: ts, r => do
    let (_, r) ← iteration dispatch t r
    performAction dispatch ts r

end NetworkReadActionRunner

end AwsIotSdk
