import AwsIotSdk.Subscription

/-! The packet classes: construction, serialization and, for packets a server
sends, parsing. -/

namespace AwsIotSdk

def maxTopicsInOneSubscribePacket : Nat := 8

/-- A shared pointer to a subscription; the objects live in a heap, so that a
packet and the subscription map can share one. -/
abbrev SubscriptionPtr := Nat

abbrev SubscriptionHeap := SubscriptionPtr → Subscription

/-! ### Connect -/

structure WillOptions where
  isRetained : Bool
  qos : QoS
  pTopicName : Utf8String
  message : Bytes

namespace WillOptions

def length (w : WillOptions) : Nat := w.pTopicName.length + w.message.length

def writeToBuffer (w : WillOptions) (buf : Bytes) : Bytes :=
  Packet.appendStringToBuffer (Packet.appendStringToBuffer buf w.pTopicName.data) w.message

def setConnectFlags (w : WillOptions) (flag : UInt8) : UInt8 :=
  let flag := if w.isRetained then flag ||| 0x20 else flag
  let flag :=
    match w.qos with
    | .qos0 => flag
    | .qos1 => flag ||| 0x08
  flag ||| 0x04

end WillOptions

structure ConnectPacket extends Packet where
  isCleanSession : Bool
  connectFlags : UInt8
  keepAliveTimeout : Int
  mqttVersion : UInt8
  pProtocolId : Utf8String
  pClientId : Option Utf8String
  pWillMsg : Option WillOptions
  pUsername : Option Utf8String

namespace ConnectPacket

def mqttConnectProtocolId : Utf8String := ⟨[0x4d, 0x51, 0x54, 0x54], by decide⟩

/-- `?SDK=CPP&Version=1.4.0` -/
def usageMetrics : Utf8String :=
  ⟨[0x3f, 0x53, 0x44, 0x4b, 0x3d, 0x43, 0x50, 0x50, 0x26, 0x56, 0x65, 0x72, 0x73, 0x69, 0x6f,
    0x6e, 0x3d, 0x31, 0x2e, 0x34, 0x2e, 0x30], by decide⟩

def mqtt311 : UInt8 := 4

/-- The constructor. The user name and password arguments of the source are not
read. -/
def init (isCleanSession : Bool) (mqttVersion : UInt8) (keepAliveTimeout : Int)
    (pClientId : Option Utf8String) (pWillMsg : Option WillOptions) (isMetricsEnabled : Bool) :
    ConnectPacket :=
  let flags : UInt8 := if isCleanSession then 0x02 else 0
  let size := 10 + (pClientId.map Utf8String.length).getD 0 + 2
  let username := if isMetricsEnabled then some usageMetrics else none
  let size := size + (username.map (fun u => u.length + 2)).getD 0
  let flags := if isMetricsEnabled then flags ||| 0x80 else flags
  let size := size + (pWillMsg.map (fun w => w.length + 4)).getD 0
  let flags := (pWillMsg.map (fun w => w.setConnectFlags flags)).getD flags
  { Packet.init .connect false .qos0 false size with
    isCleanSession := isCleanSession || pClientId.isNone
    connectFlags := flags
    keepAliveTimeout := keepAliveTimeout
    mqttVersion := mqttVersion
    pProtocolId := mqttConnectProtocolId
    pClientId := pClientId
    pWillMsg := pWillMsg
    pUsername := username }

def create (isCleanSession : Bool) (mqttVersion : UInt8) (keepAliveTimeout : Int)
    (pClientId : Option Utf8String) (pWillMsg : Option WillOptions) (isMetricsEnabled : Bool) :
    Option ConnectPacket :=
  if 65535 < keepAliveTimeout then none
  else if pClientId.isNone ∧ isCleanSession = false then none
  else some (init isCleanSession mqttVersion keepAliveTimeout pClientId pWillMsg isMetricsEnabled)

def toString (p : ConnectPacket) : Bytes :=
  let buf := p.fixedHeader.appendToBuffer []
  let buf := Packet.appendUtf8StringToBuffer buf p.pProtocolId
  let buf := buf ++ [p.mqttVersion] ++ [p.connectFlags]
  let buf :=
    if 65535 < p.keepAliveTimeout then Packet.appendUInt16ToBuffer buf 65535
    else Packet.appendUInt16ToBuffer buf (UInt16.ofInt p.keepAliveTimeout)
  let buf :=
    match p.pClientId with
    | none => Packet.appendUInt16ToBuffer buf 0
    | some id => Packet.appendUtf8StringToBuffer buf id
  let buf :=
    match p.pWillMsg with
    | none => buf
    | some will => will.writeToBuffer buf
  match p.pUsername with
  | none => buf
  | some name => Packet.appendUtf8StringToBuffer buf name

end ConnectPacket

/-! ### Packets without a variable part -/

structure DisconnectPacket extends Packet

def DisconnectPacket.create : DisconnectPacket := ⟨Packet.init .disconnect false .qos0 false 0⟩

def DisconnectPacket.toString (p : DisconnectPacket) : Bytes := p.fixedHeader.appendToBuffer []

structure PingreqPacket extends Packet

def PingreqPacket.create : PingreqPacket := ⟨Packet.init .pingreq false .qos0 false 0⟩

def PingreqPacket.toString (p : PingreqPacket) : Bytes := p.fixedHeader.appendToBuffer []

/-! ### Publish -/

structure PublishPacket extends Packet where
  pTopicName : Utf8String
  isRetained : Bool
  isDuplicate : Bool
  qos : QoS
  payload : Bytes

namespace PublishPacket

def init (pTopicName : Utf8String) (isRetained isDuplicate : Bool) (qos : QoS)
    (payload : Bytes) : PublishPacket :=
  let size := pTopicName.length + 2 + payload.length
  let size := if qos = .qos0 then size else size + 2
  { Packet.init .publish isDuplicate qos isRetained size with
    pTopicName := pTopicName
    isRetained := isRetained
    isDuplicate := if qos = .qos0 then false else isDuplicate
    qos := qos
    payload := payload }

def createFromFields (pTopicName : Option Utf8String) (isRetained isDuplicate : Bool) (qos : QoS)
    (payload : Bytes) : Option PublishPacket :=
  pTopicName.map (fun t => init t isRetained isDuplicate qos payload)

def readPacketId (qos : QoS) (buf : Bytes) (extractIndex : Nat) :
    Except Fault (UInt16 × Nat) :=
  if qos = .qos0 then .ok (0, extractIndex) else Packet.readUInt16FromBuffer buf extractIndex

def readPayload (buf : Bytes) (extractIndex : Nat) : Except Fault Bytes :=
  if extractIndex ≤ buf.length then .ok (buf.drop extractIndex) else .error .outOfBounds

/-- The constructor from a received buffer. The string is dereferenced whether
or not it could be read. -/
def ofBuffer (buf : Bytes) (isRetained isDuplicate : Bool) (qos : QoS) :
    Except Fault PublishPacket := do
  let (topic, extractIndex) ← Packet.readUtf8StringFromBuffer buf 0
  let (packetId, extractIndex) ← readPacketId qos buf extractIndex
  let payload ← readPayload buf extractIndex
  match topic with
  | none => throw .nullDereference
  | some topic =>
    return { Packet.init .publish isDuplicate qos isRetained
        (topic.length + 2 + payload.length) with
      packetId := packetId
      pTopicName := topic
      isRetained := isRetained
      isDuplicate := isDuplicate
      qos := qos
      payload := payload }

def create (buf : Bytes) (isRetained isDuplicate : Bool) (qos : QoS) :
    Except Fault (Option PublishPacket) :=
  if buf.length < 3 then .ok none
  else (ofBuffer buf isRetained isDuplicate qos).map some

def toString (p : PublishPacket) : Bytes :=
  let buf := p.fixedHeader.appendToBuffer []
  let buf := Packet.appendUtf8StringToBuffer buf p.pTopicName
  let buf := if p.qos = .qos0 then buf else Packet.appendUInt16ToBuffer buf p.packetId
  buf ++ p.payload

end PublishPacket

structure PubackPacket extends Packet where
  publishPacketId : UInt16

namespace PubackPacket

def create (publishPacketId : UInt16) : PubackPacket :=
  { Packet.init .puback false .qos0 false 2 with publishPacketId := publishPacketId }

def toString (p : PubackPacket) : Bytes :=
  Packet.appendUInt16ToBuffer (p.fixedHeader.appendToBuffer []) p.publishPacketId

end PubackPacket

/-! ### Subscribe and unsubscribe -/

structure SubscribePacket extends Packet where
  subscriptionList : List SubscriptionPtr

namespace SubscribePacket

def init (heap : SubscriptionHeap) (subscriptionList : List SubscriptionPtr) : SubscribePacket :=
  let size := subscriptionList.foldl (fun n s => n + (heap s).pTopicName.length + 2 + 1) 2
  { Packet.init .subscribe false .qos0 false size with subscriptionList := subscriptionList }

def create (heap : SubscriptionHeap) (subscriptionList : List SubscriptionPtr) :
    Option SubscribePacket :=
  if subscriptionList = [] ∨ maxTopicsInOneSubscribePacket < subscriptionList.length then none
  else some (init heap subscriptionList)

def qosByte : QoS → UInt8
  | .qos0 => 0x00
  | .qos1 => 0x01

/-- The topics of the packet from an index on. Writing one records its position
in the subscription object. -/
def appendTopics (packetId : UInt16) :
    List SubscriptionPtr → UInt8 → SubscriptionHeap → Bytes → Bytes × SubscriptionHeap
  | [], _, heap, buf => (buf, heap)
  | s :: rest, index, heap, buf =>
    let buf := Packet.appendUtf8StringToBuffer buf (heap s).pTopicName ++
      [qosByte (heap s).maxQos]
    appendTopics packetId rest (index + 1)
      (Function.update heap s ((heap s).setAckIndex packetId index)) buf

def toString (p : SubscribePacket) (heap : SubscriptionHeap) : Bytes × SubscriptionHeap :=
  let buf := Packet.appendUInt16ToBuffer (p.fixedHeader.appendToBuffer []) p.packetId
  appendTopics p.packetId p.subscriptionList 1 heap buf

end SubscribePacket

structure SubackPacket extends Packet where
  subackList : Bytes

namespace SubackPacket

def ofBuffer (buf : Bytes) : Except Fault SubackPacket := do
  let (packetId, extractIndex) ← Packet.readUInt16FromBuffer buf 0
  return { Packet.init .suback false .qos0 false buf.length with
    packetId := packetId
    subackList := buf.drop extractIndex }

def create (buf : Bytes) : Except Fault (Option SubackPacket) :=
  if buf.length = 0 then .ok none else (ofBuffer buf).map some

end SubackPacket

structure UnsubscribePacket extends Packet where
  topicList : List Utf8String

namespace UnsubscribePacket

def init (topicList : List Utf8String) : UnsubscribePacket :=
  { Packet.init .unsubscribe false .qos0 false
      (topicList.foldl (fun n t => n + t.length + 2) 2) with topicList := topicList }

def create (topicList : List Utf8String) : Option UnsubscribePacket :=
  if topicList = [] ∨ maxTopicsInOneSubscribePacket < topicList.length then none
  else some (init topicList)

def toString (p : UnsubscribePacket) : Bytes :=
  p.topicList.foldl Packet.appendUtf8StringToBuffer
    (Packet.appendUInt16ToBuffer (p.fixedHeader.appendToBuffer []) p.packetId)

end UnsubscribePacket

structure UnsubackPacket extends Packet

namespace UnsubackPacket

def ofBuffer (buf : Bytes) : Except Fault UnsubackPacket := do
  let (packetId, _) ← Packet.readUInt16FromBuffer buf 0
  return { Packet.init .unsuback false .qos0 false buf.length with packetId := packetId }

def create (buf : Bytes) : Except Fault (Option UnsubackPacket) :=
  if buf.length = 0 then .ok none else (ofBuffer buf).map some

end UnsubackPacket

inductive ActionData where
  | connect (p : ConnectPacket)
  | disconnect (p : DisconnectPacket)
  | publish (p : PublishPacket)
  | puback (p : PubackPacket)
  | subscribe (p : SubscribePacket)
  | unsubscribe (p : UnsubscribePacket)

namespace ActionData

def toPacket : ActionData → Packet
  | .connect p => p.toPacket
  | .disconnect p => p.toPacket
  | .publish p => p.toPacket
  | .puback p => p.toPacket
  | .subscribe p => p.toPacket
  | .unsubscribe p => p.toPacket

def mapPacket (f : Packet → Packet) : ActionData → ActionData
  | .connect p => .connect { p with toPacket := f p.toPacket }
  | .disconnect p => .disconnect { p with toPacket := f p.toPacket }
  | .publish p => .publish { p with toPacket := f p.toPacket }
  | .puback p => .puback { p with toPacket := f p.toPacket }
  | .subscribe p => .subscribe { p with toPacket := f p.toPacket }
  | .unsubscribe p => .unsubscribe { p with toPacket := f p.toPacket }

def getActionId (d : ActionData) : UInt16 := d.toPacket.packetId

def setActionId (d : ActionData) (id : UInt16) : ActionData := d.mapPacket (·.setPacketId id)

def pAsyncAckHandler (d : ActionData) : Option AsyncAckHandler := d.toPacket.pAsyncAckHandler

def setAsyncAckHandler (d : ActionData) (h : AsyncAckHandler) : ActionData :=
  d.mapPacket (fun p => { p with pAsyncAckHandler := some h })

@[simp] theorem toPacket_mapPacket (f : Packet → Packet) (d : ActionData) :
    (d.mapPacket f).toPacket = f d.toPacket := by
  cases d <;> rfl

end ActionData

end AwsIotSdk
