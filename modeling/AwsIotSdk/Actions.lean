import AwsIotSdk.ClientState
import AwsIotSdk.NetworkConnection

/-! The actions a client performs for one request each, and the two places that
run them: a blocking call and one step of the outbound queue. The instances of
these actions have a `threadContinue` flag that is false. -/

namespace AwsIotSdk

structure ActionResult (σ : Type) where
  rc : ResponseCode
  state : ClientState
  connection : σ
  data : ActionData

variable {σ : Type} [NetworkConnection σ]

namespace Action

def registerAck (s : ClientState) (actionId : UInt16) (h : Option AsyncAckHandler) :
    ResponseCode × Bool × ClientState :=
  match h with
  | none => (.success, false, s)
  | some h =>
    let r := s.registerPendingAck actionId (some h)
    (r.1, r.1 = .success, s.mapCore (fun _ => r.2))

def deleteAck (s : ClientState) (isAckRegistered : Bool) (actionId : UInt16) : ClientState :=
  if isAckRegistered then s.mapCore (·.deletePendingAck actionId) else s

end Action

open AwsIotSdk.Action

namespace ConnectActionAsync

def connackReservedPacketId : UInt16 := 0

def performPacket (s : ClientState) (c : σ) (p : ConnectPacket) :
    ResponseCode × ClientState × σ :=
  let (_, isAckRegistered, s) := registerAck s connackReservedPacketId p.pAsyncAckHandler
  let s := s.setKeepAliveTimeout p.keepAliveTimeout
  let (rc, c) := NetworkConnection.connect c
  if rc ≠ .success then (rc, s, c)
  else
    let (rc, c) := writeToNetworkBuffer false c p.toString
    if rc ≠ .success then
      (rc, deleteAck s isAckRegistered connackReservedPacketId, (NetworkConnection.disconnect c).2)
    else (rc, s.setDisconnectCallbackPending true, c)

/-- The packet is shared with the stored reconnect data, so the data left in the
state has the reserved id as well. -/
def performAction (s : ClientState) (c : σ) (data : ActionData) : ActionResult σ :=
  let stored : Option ConnectPacket × (ConnectPacket → ActionData) :=
    match data with
    | .connect p => (some p, .connect)
    | _ => (s.pConnectData, fun _ => data)
  match stored.1 with
  | none => ⟨.nullValueError, s, c, data⟩
  | some p =>
    let p := { p with toPacket := p.toPacket.setPacketId connackReservedPacketId }
    let (rc, s, c) := performPacket (s.setAutoReconnectData p) c p
    ⟨rc, s, c, stored.2 p⟩

end ConnectActionAsync

namespace DisconnectActionAsync

def deactivate (s : ClientState) : ClientState :=
  s.subscriptionMap.entries.foldl (fun s e => s.modify e.2 (·.setActive false)) s

def performAction (s : ClientState) (c : σ) (data : ActionData) : ActionResult σ :=
  if !s.isConnected then ⟨.networkDisconnectedError, s, c, data⟩
  else
    let s := s.setConnected false
    let c :=
      if NetworkConnection.isConnected c then
        match data with
        | .disconnect p => (writeToNetworkBuffer false c p.toString).2
        | _ => c
      else c
    ⟨.success, deactivate s, (NetworkConnection.disconnect c).2, data⟩

end DisconnectActionAsync

namespace PublishActionAsync

def performAction (s : ClientState) (c : σ) (data : ActionData) : ActionResult σ :=
  match data with
  | .publish p =>
    let (_, isAckRegistered, s) :=
      if p.qos ≠ .qos0 then registerAck s p.packetId p.pAsyncAckHandler else (.success, false, s)
    let (rc, c) := writeToNetworkBuffer false c p.toString
    let s := if rc ≠ .success then deleteAck s isAckRegistered p.packetId else s
    ⟨rc, s, c, data⟩
  | _ => ⟨.nullValueError, s, c, data⟩

end PublishActionAsync

namespace PubackActionAsync

def performAction (s : ClientState) (c : σ) (data : ActionData) : ActionResult σ :=
  match data with
  | .puback p =>
    let (rc, c) := writeToNetworkBuffer false c p.toString
    ⟨rc, s, c, data⟩
  | _ => ⟨.nullValueError, s, c, data⟩

end PubackActionAsync

namespace SubscribeActionAsync

/-- The loop over the subscriptions of the packet. The list that is left lacks
the topics that are active already, and each of those deletes the ack. -/
def insertTopics (packetId : UInt16) (isAckRegistered : Bool) :
    List SubscriptionPtr → ClientState → List SubscriptionPtr × ClientState
  | [], s => ([], s)
  | p :: rest, s =>
    let topicName := (s.heap p).pTopicName.toStdString
    match s.subscriptionMap.find topicName with
    | some existing =>
      if (s.heap existing).isActive then
        insertTopics packetId isAckRegistered rest (deleteAck s isAckRegistered packetId)
      else
        let r := insertTopics packetId isAckRegistered rest
          ((s.eraseTopic topicName).insertTopic topicName p)
        (p :: r.1, r.2)
    | none =>
      let r := insertTopics packetId isAckRegistered rest (s.insertTopic topicName p)
      (p :: r.1, r.2)

def eraseTopics (s : ClientState) (ps : List SubscriptionPtr) : ClientState :=
  ps.foldl (fun s p => s.eraseTopic (s.heap p).pTopicName.toStdString) s

def performAction (s : ClientState) (c : σ) (data : ActionData) : ActionResult σ :=
  match data with
  | .subscribe p =>
    let (rc, isAckRegistered, s) := registerAck s p.packetId p.pAsyncAckHandler
    let (kept, s) := insertTopics p.packetId isAckRegistered p.subscriptionList s
    let p := { p with subscriptionList := kept }
    let (packetData, heap) := p.toString s.heap
    let s := { s with heap := heap }
    let (rc, c) := if 0 < kept.length then writeToNetworkBuffer false c packetData else (rc, c)
    if rc ≠ .success then
      ⟨rc, deleteAck (eraseTopics s kept) isAckRegistered p.packetId, c, .subscribe p⟩
    else ⟨.success, s, c, .subscribe p⟩
  | _ => ⟨.nullValueError, s, c, data⟩

end SubscribeActionAsync

namespace UnsubscribeActionAsync

def performAction (s : ClientState) (c : σ) (data : ActionData) : ActionResult σ :=
  match data with
  | .unsubscribe p =>
    let (_, isAckRegistered, s) := registerAck s p.packetId p.pAsyncAckHandler
    let s := p.topicList.foldl
      (fun s t => s.setSubscriptionPacketInfo t.toStdString p.packetId 0) s
    let (rc, c) := writeToNetworkBuffer false c p.toString
    let s := if rc ≠ .success then deleteAck s isAckRegistered p.packetId else s
    ⟨rc, s, c, data⟩
  | _ => ⟨.nullValueError, s, c, data⟩

end UnsubscribeActionAsync

def ActionKind.performAction (kind : ActionKind) (s : ClientState) (c : σ) (data : ActionData) :
    ActionResult σ :=
  match kind with
  | .connect => ConnectActionAsync.performAction s c data
  | .disconnect => DisconnectActionAsync.performAction s c data
  | .publish => PublishActionAsync.performAction s c data
  | .puback => PubackActionAsync.performAction s c data
  | .subscribe => SubscribeActionAsync.performAction s c data
  | .unsubscribe => UnsubscribeActionAsync.performAction s c data

namespace ClientState

/-- A blocking call. `awaitAck` is what the other threads do to the state while
the caller waits for the response. -/
def performAction (s : ClientState) (c : σ) (awaitAck : ClientState → ClientState)
    (actionType : ActionType) (data : ActionData) : ResponseCode × ClientState × σ :=
  match s.actionMap actionType with
  | none => (.actionNotRegisteredError, s, c)
  | some action =>
    let s := s.mapCore ({ · with syncActionResponse := .mqttRequestTimeoutError })
    let data := data.setAsyncAckHandler .syncActionHandler
    let (id, s) := s.getNextActionId
    let r := action.performAction s c (data.setActionId id)
    if r.rc = .success ∧ r.state.pendingAckMap.contains r.data.getActionId then
      let s := awaitAck r.state
      (s.syncActionResponse, s, r.connection)
    else (r.rc, r.state, r.connection)

def processAction (s : ClientState) (c : σ) (actionType : ActionType) (data : ActionData) :
    ResponseCode × ClientState × σ :=
  let call (s : ClientState) (d : ActionData) (h : AsyncAckHandler) (rc : ResponseCode) :=
    s.mapCore (·.callAckHandler h d.getActionId rc)
  match s.actionMap actionType with
  | none => (.actionNotRegisteredError, s, c)
  | some action =>
    let (rc, s) : ResponseCode × ClientState :=
      match data.pAsyncAckHandler with
      | none => (.success, s)
      | some h =>
        let r := s.registerPendingAck data.getActionId (some h)
        let s := s.mapCore (fun _ => r.2)
        if r.1 ≠ .success then (r.1, call s data h r.1) else (r.1, s)
    if rc = .success then
      let r := action.performAction s c data
      if r.rc ≠ .success then
        match data.pAsyncAckHandler with
        | none => (r.rc, r.state, r.connection)
        | some h =>
          let s := r.state.mapCore (·.deletePendingAck r.data.getActionId)
          (r.rc, call s r.data h r.rc, r.connection)
      else (r.rc, r.state, r.connection)
    else (rc, s, c)

def processOutboundActionQueue (s : ClientState) (c : σ) : ResponseCode × ClientState × σ :=
  match s.outboundActionQueue with
  | [] => (.success, s, c)
  | (actionType, data) :: rest =>
    processAction { s with outboundActionQueue := rest } c actionType data

end ClientState

end AwsIotSdk
