import AwsIotSdk.Packets
import AwsIotSdk.SortedMap

/-! The state the threads of a client share: the core part with the action queue
and the pending acks, and the MQTT part with the connection flags and the
subscription map. -/

namespace AwsIotSdk

structure PendingAckData where
  timeOfRequest : Nat
  pAsyncAckHandler : AsyncAckHandler
  deriving DecidableEq, Repr

/-- The actions that run once for each request. The runners of the read and the
keepalive thread are started on their own and are not queued. -/
inductive ActionKind where
  | connect
  | disconnect
  | publish
  | puback
  | subscribe
  | unsubscribe
  deriving DecidableEq, Repr

structure AckCall where
  handler : AsyncAckHandler
  actionId : UInt16
  rc : ResponseCode
  deriving DecidableEq, Repr

structure AppCall where
  handler : Nat
  topicName : Bytes
  payload : Bytes
  handlerData : Nat
  deriving DecidableEq, Repr

/-- `ackCalls` records the handler calls, oldest first; it is no part of the
source. -/
structure ClientCoreState where
  maxQueueSize : Nat
  clock : Nat
  processQueuedActions : Bool
  syncActionResponse : ResponseCode
  actionMap : ActionType → Option ActionKind
  pendingAckMap : SortedMap UInt16 PendingAckData
  outboundActionQueue : List (ActionType × ActionData)
  ackCalls : List AckCall

namespace ClientCoreState

def syncActionHandler (s : ClientCoreState) (_actionId : UInt16) (rc : ResponseCode) :
    ClientCoreState :=
  { s with syncActionResponse := rc }

def callAckHandler (s : ClientCoreState) (h : AsyncAckHandler) (actionId : UInt16)
    (rc : ResponseCode) : ClientCoreState :=
  let s := { s with ackCalls := s.ackCalls ++ [⟨h, actionId, rc⟩] }
  match h with
  | .syncActionHandler => s.syncActionHandler actionId rc
  | .application _ => s

def registerPendingAck (s : ClientCoreState) (actionId : UInt16)
    (pAsyncAckHandler : Option AsyncAckHandler) : ResponseCode × ClientCoreState :=
  match pAsyncAckHandler with
  | none => (.nullValueError, s)
  | some h =>
    (.success, { s with pendingAckMap := s.pendingAckMap.insert actionId ⟨s.clock, h⟩ })

def deletePendingAck (s : ClientCoreState) (actionId : UInt16) : ClientCoreState :=
  { s with pendingAckMap := s.pendingAckMap.erase actionId }

def forwardReceivedAck (s : ClientCoreState) (actionId : UInt16) (rc : ResponseCode) :
    ClientCoreState :=
  match s.pendingAckMap.find actionId with
  | none => s
  | some d =>
    let s := s.callAckHandler d.pAsyncAckHandler actionId rc
    { s with pendingAckMap := s.pendingAckMap.erase actionId }

def setProcessQueuedActions (s : ClientCoreState) (value : Bool) : ClientCoreState :=
  { s with processQueuedActions := value }

def pendingHandler (s : ClientCoreState) (actionId : UInt16) : Option AsyncAckHandler :=
  (s.pendingAckMap.find actionId).map PendingAckData.pAsyncAckHandler

section Handlers

variable (s : ClientCoreState) (h : AsyncAckHandler) (i : UInt16) (rc : ResponseCode)

@[simp] theorem callAckHandler_pendingAckMap :
    (s.callAckHandler h i rc).pendingAckMap = s.pendingAckMap := by
  cases h <;> rfl

@[simp] theorem callAckHandler_ackCalls :
    (s.callAckHandler h i rc).ackCalls = s.ackCalls ++ [⟨h, i, rc⟩] := by
  cases h <;> rfl

@[simp] theorem pendingHandler_callAckHandler (j : UInt16) :
    (s.callAckHandler h i rc).pendingHandler j = s.pendingHandler j := by
  simp [pendingHandler]

theorem pendingHandler_register (j : UInt16) :
    (s.registerPendingAck i (some h)).2.pendingHandler j =
      if j = i then some ((s.pendingHandler i).getD h) else s.pendingHandler j := by
  unfold pendingHandler registerPendingAck
  split_ifs with hj
  · subst hj
    rw [SortedMap.find_insert_self]
    cases s.pendingAckMap.find j <;> rfl
  · rw [SortedMap.find_insert_of_ne _ hj]

theorem pendingHandler_delete (j : UInt16) :
    (s.deletePendingAck i).pendingHandler j = if j = i then none else s.pendingHandler j := by
  unfold pendingHandler deletePendingAck
  split_ifs with hj
  · subst hj
    rw [SortedMap.find_erase_self]
    rfl
  · rw [SortedMap.find_erase_of_ne _ hj]

theorem forwardReceivedAck_of_pending (hp : s.pendingHandler i = some h) :
    s.forwardReceivedAck i rc = (s.callAckHandler h i rc).deletePendingAck i := by
  unfold pendingHandler at hp
  unfold forwardReceivedAck deletePendingAck
  cases hf : s.pendingAckMap.find i with
  | none => simp [hf] at hp
  | some d =>
    have hd : d.pAsyncAckHandler = h := by simpa [hf] using hp
    simp [hd]

theorem forwardReceivedAck_of_none (hp : s.pendingHandler i = none) :
    s.forwardReceivedAck i rc = s := by
  unfold pendingHandler at hp
  rw [Option.map_eq_none_iff] at hp
  simp [forwardReceivedAck, hp]

theorem pendingHandler_forward (j : UInt16) :
    (s.forwardReceivedAck i rc).pendingHandler j =
      if j = i then none else s.pendingHandler j := by
  cases hp : s.pendingHandler i with
  | none =>
    rw [forwardReceivedAck_of_none s i rc hp]
    split_ifs with hj
    · exact hj ▸ hp
    · rfl
  | some h =>
    rw [forwardReceivedAck_of_pending s h i rc hp, pendingHandler_delete]
    simp

end Handlers

end ClientCoreState

structure ClientState extends ClientCoreState where
  isSessionPresent : Bool
  isConnected : Bool
  isAutoReconnectEnabled : Bool
  isAutoReconnectRequired : Bool
  isPingreqPending : Bool
  triggerDisconnectCallback : Bool
  lastSentPacketId : UInt16
  keepAliveTimeout : Int
  pConnectData : Option ConnectPacket
  subscriptionMap : SortedMap Bytes SubscriptionPtr
  heap : SubscriptionHeap
  appCalls : List AppCall

namespace ClientState

def defaultMaxQueueSize : Nat := 16

def registeredActions : ActionType → Option ActionKind
  | .connect => some .connect
  | .publish => some .publish
  | .puback => some .puback
  | .subscribe => some .subscribe
  | .unsubscribe => some .unsubscribe
  | .disconnect => some .disconnect
  | _ => none

/-- The state of a new client. The members that no constructor sets are
arguments. -/
def create (clock : Nat) (heap : SubscriptionHeap) (syncActionResponse : ResponseCode)
    (triggerDisconnectCallback : Bool) (keepAliveTimeout : Int) : ClientState where
  maxQueueSize := defaultMaxQueueSize
  clock := clock
  processQueuedActions := false
  syncActionResponse := syncActionResponse
  actionMap := registeredActions
  pendingAckMap := .empty
  outboundActionQueue := []
  ackCalls := []
  isSessionPresent := false
  isConnected := false
  isAutoReconnectEnabled := true
  isAutoReconnectRequired := false
  isPingreqPending := false
  triggerDisconnectCallback := triggerDisconnectCallback
  lastSentPacketId := 0
  keepAliveTimeout := keepAliveTimeout
  pConnectData := none
  subscriptionMap := .empty
  heap := heap
  appCalls := []

def mapCore (s : ClientState) (f : ClientCoreState → ClientCoreState) : ClientState :=
  { s with toClientCoreState := f s.toClientCoreState }

@[simp] theorem mapCore_core (s : ClientState) (f : ClientCoreState → ClientCoreState) :
    (s.mapCore f).toClientCoreState = f s.toClientCoreState := rfl

def setSessionPresent (s : ClientState) (value : Bool) : ClientState :=
  { s with isSessionPresent := value }

def setConnected (s : ClientState) (value : Bool) : ClientState :=
  let s := { s with isConnected := value }
  let s := if value then { s with isAutoReconnectRequired := false } else s
  s.mapCore (·.setProcessQueuedActions value)

def setAutoReconnectRequired (s : ClientState) (value : Bool) : ClientState :=
  { s with isAutoReconnectRequired := value }

def setPingreqPending (s : ClientState) (value : Bool) : ClientState :=
  { s with isPingreqPending := value }

def setDisconnectCallbackPending (s : ClientState) (value : Bool) : ClientState :=
  { s with triggerDisconnectCallback := value }

def setKeepAliveTimeout (s : ClientState) (value : Int) : ClientState :=
  { s with keepAliveTimeout := value }

def setAutoReconnectData (s : ClientState) (p : ConnectPacket) : ClientState :=
  { s with pConnectData := some p }

def nextPacketId (last : UInt16) : UInt16 := if last = 65535 then 1 else last + 1

def getNextPacketId (s : ClientState) : UInt16 × ClientState :=
  let id := nextPacketId s.lastSentPacketId
  (id, { s with lastSentPacketId := id })

def getNextActionId (s : ClientState) : UInt16 × ClientState := s.getNextPacketId

def enqueueOutboundAction (s : ClientState) (actionType : ActionType) (data : ActionData) :
    ResponseCode × ClientState :=
  if s.maxQueueSize ≤ s.outboundActionQueue.length then (.actionQueueFull, s)
  else
    let (id, s) := s.getNextActionId
    (.success, { s with
      outboundActionQueue := s.outboundActionQueue ++ [(actionType, data.setActionId id)] })

def cStr (str : Bytes) : Bytes := str.takeWhile (· ≠ 0)

def matchesEntry (heap : SubscriptionHeap) (topicName : Bytes)
    (entry : Bytes × SubscriptionPtr) : Except Fault Bool :=
  if entry.1 = topicName then .ok true
  else if 0 < (heap entry.2).pTopicRegex.length then
    match EcmaRegex.parse (heap entry.2).pTopicRegex with
    | none => .error .regexError
    | some wildcardRegex => .ok (EcmaRegex.regexMatch wildcardRegex (cStr topicName))
  else .ok false

def findEntry (heap : SubscriptionHeap) (topicName : Bytes) :
    List (Bytes × SubscriptionPtr) → Except Fault (Option SubscriptionPtr)
  | [] => .ok none
  | e :: es => do
    if ← matchesEntry heap topicName e then return some e.2
    else findEntry heap topicName es

def getSubscription (s : ClientState) (topicName : Bytes) :
    Except Fault (Option SubscriptionPtr) :=
  findEntry s.heap topicName s.subscriptionMap.entries

def modify (s : ClientState) (p : SubscriptionPtr) (f : Subscription → Subscription) :
    ClientState :=
  { s with heap := Function.update s.heap p (f (s.heap p)) }

/-- The pointer the source returns is always null. -/
def setSubscriptionPacketInfo (s : ClientState) (topicName : Bytes) (packetId : UInt16)
    (indexInPacket : UInt8) : ClientState :=
  match s.subscriptionMap.find topicName with
  | none => s
  | some p => s.modify p (·.setAckIndex packetId indexInPacket)

def setSubscriptionActive (s : ClientState) (packetId : UInt16) (indexInSubPacket : UInt8)
    (maxQos : QoS) : ResponseCode × ClientState :=
  match s.subscriptionMap.entries.find?
      (fun e => (s.heap e.2).isInSuback packetId indexInSubPacket) with
  | none => (.failure, s)
  | some e =>
    (.success, s.modify e.2 (fun sub => ((sub.setActive true).setMaxQos maxQos).setAckIndex 0 0))

def eraseTopic (s : ClientState) (topicName : Bytes) : ClientState :=
  { s with subscriptionMap := s.subscriptionMap.erase topicName }

def insertTopic (s : ClientState) (topicName : Bytes) (p : SubscriptionPtr) : ClientState :=
  { s with subscriptionMap := s.subscriptionMap.insert topicName p }

/-- Removes the first entry of the packet at the index. The code stays `FAILURE`
when one is removed. -/
def removeSubscription (s : ClientState) (packetId : UInt16) (indexInSubPacket : UInt8) :
    ResponseCode × ClientState :=
  match s.subscriptionMap.entries.find?
      (fun e => (s.heap e.2).isInSuback packetId indexInSubPacket) with
  | none => (.failure, s)
  | some e => (.failure, s.eraseTopic e.1)

def removeAllSubscriptionsForPacketId (s : ClientState) (packetId : UInt16) :
    ResponseCode × ClientState :=
  (.failure, { s with
    subscriptionMap := s.subscriptionMap.eraseIf (fun _ p => (s.heap p).packetId = packetId) })

end ClientState

end AwsIotSdk
