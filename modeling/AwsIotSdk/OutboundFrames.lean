import AwsIotSdk.Framing
import AwsIotSdk.PendingAcks

/-! The frames of the packets a client sends. The size of a packet is computed when
it is built, the bytes are appended later, and the two agree only for strings that
the helpers write with their length. -/

namespace AwsIotSdk

inductive BodyPart where
  | string (str : Bytes)
  | data (bytes : Bytes)

namespace BodyPart

/-- A string stands behind its length in two bytes. -/
def Encodes : BodyPart → Bytes → Prop
  | .string str, w => ∃ first second, w = first :: second :: str ∧
      (Packet.toUInt16 first second).toNat = str.length
  | .data bytes, w => w = bytes

def EncodeAll : List BodyPart → Bytes → Prop
  | [], w => w = []
  | part :: parts, w => ∃ u v, w = u ++ v ∧ part.Encodes u ∧ EncodeAll parts v

def written : BodyPart → Bytes
  | .string str => Packet.appendStringToBuffer [] str
  | .data bytes => bytes

def size : BodyPart → Nat
  | .string str => str.length + 2
  | .data bytes => bytes.length

def Fits : BodyPart → Prop
  | .string str => 0 < str.length ∧ str.length ≤ 65535
  | .data _ => True

theorem written_string {str : Bytes} (h : 0 < str.length) :
    (string str).written =
      UInt8.ofNat (str.length / 256) :: UInt8.ofNat (str.length % 256) :: str := if_pos h

theorem length_written_le (part : BodyPart) : part.written.length ≤ part.size := by
  cases part with
  | data bytes => exact Nat.le_refl _
  | string str =>
    by_cases h : 0 < str.length
    · rw [written_string h]
      exact Nat.le_refl _
    · rw [written, Packet.appendStringToBuffer, if_neg h]
      exact Nat.zero_le _

theorem encodes_written {part : BodyPart} (h : part.Fits) : part.Encodes part.written := by
  cases part with
  | data bytes => rfl
  | string str =>
    obtain ⟨hpos, hle⟩ := h
    rw [written_string hpos]
    exact ⟨_, _, rfl, Packet.toNat_toUInt16 hle⟩

theorem Encodes.length {part : BodyPart} {w : Bytes} (h : part.Encodes w) :
    w.length = part.size := by
  cases part with
  | data bytes => rw [h, size]
  | string str =>
    obtain ⟨first, second, rfl, -⟩ := h
    rfl

theorem Encodes.fits {part : BodyPart} {w : Bytes} (h : part.Encodes w)
    (hlen : part.written.length = part.size) : part.Fits := by
  cases part with
  | data bytes => trivial
  | string str =>
    obtain ⟨first, second, -, hvalue⟩ := h
    have hlt := (Packet.toUInt16 first second).toNat_lt
    refine ⟨?_, by omega⟩
    by_contra hzero
    rw [written, Packet.appendStringToBuffer, if_neg hzero, size] at hlen
    simp at hlen

theorem encodeAll_written {parts : List BodyPart} (h : ∀ part ∈ parts, part.Fits) :
    EncodeAll parts (parts.flatMap written) := by
  induction parts with
  | nil => rfl
  | cons part parts ih =>
    obtain ⟨hpart, hparts⟩ := List.forall_mem_cons.mp h
    exact ⟨part.written, parts.flatMap written, rfl, encodes_written hpart, ih hparts⟩

theorem EncodeAll.length {parts : List BodyPart} {w : Bytes} (h : EncodeAll parts w) :
    w.length = (parts.map size).sum := by
  induction parts generalizing w with
  | nil => simp [show w = [] from h]
  | cons part parts ih =>
    obtain ⟨u, v, rfl, hu, hv⟩ := h
    rw [List.length_append, hu.length, ih hv, List.map_cons, List.sum_cons]

theorem length_flatMap_written_le (parts : List BodyPart) :
    (parts.flatMap written).length ≤ (parts.map size).sum := by
  induction parts with
  | nil => exact Nat.le_refl 0
  | cons part parts ih =>
    have hpart := length_written_le part
    rw [List.flatMap_cons, List.length_append, List.map_cons, List.sum_cons]
    omega

theorem EncodeAll.fits {parts : List BodyPart} {w : Bytes} (h : EncodeAll parts w)
    (hlen : (parts.flatMap written).length = (parts.map size).sum) :
    ∀ part ∈ parts, part.Fits := by
  induction parts generalizing w with
  | nil => simp
  | cons part parts ih =>
    obtain ⟨u, v, -, hu, hv⟩ := h
    have hpart := length_written_le part
    have hrest := length_flatMap_written_le parts
    rw [List.flatMap_cons, List.length_append, List.map_cons, List.sum_cons] at hlen
    exact List.forall_mem_cons.mpr ⟨hu.fits (by omega), ih hv (by omega)⟩

end BodyPart

open BodyPart NetworkRead

/-- One frame of the type whose body has the parts, of the size the packet gives. -/
def WellFramed (messageType : MessageTypes) (parts : List BodyPart) (size : Nat) (buf : Bytes) :
    Prop :=
  ∃ f : Frame, f.bytes = buf ∧ NetworkRead.messageType f.fixedHeaderByte = messageType ∧
    EncodeAll parts f.body ∧ buf.length = size

def PartsFit (parts : List BodyPart) : Prop :=
  (∀ part ∈ parts, part.Fits) ∧
    (parts.map size).sum ≤ PacketFixedHeader.maxMqttPacketRemLenBytes

/-! ### The header -/

theorem Packet.init_fixedHeader {messageType : MessageTypes} (isDuplicate : Bool) (qos : QoS)
    (isRetained : Bool) {n : Nat} (hi : messageType ≠ .invalid) (hr : messageType ≠ .reserved)
    (hn : n ≤ PacketFixedHeader.maxMqttPacketRemLenBytes) :
    ∃ b, (Packet.init messageType isDuplicate qos isRetained n).fixedHeader =
        ⟨messageType, b, n, true⟩ ∧ NetworkRead.messageType b = messageType := by
  have hlt : ¬ PacketFixedHeader.maxMqttPacketRemLenBytes < n := by omega
  simp only [Packet.init, PacketFixedHeader.initializeHeader, if_neg hlt]
  cases messageType with
  | invalid => exact absurd rfl hi
  | reserved => exact absurd rfl hr
  | publish =>
    refine ⟨_, rfl, ?_⟩
    cases isDuplicate <;> cases qos <;> cases isRetained <;> rfl
  | _ => exact ⟨_, rfl, rfl⟩

theorem Frame.body_length_le (f : Frame) :
    f.body.length ≤ PacketFixedHeader.maxMqttPacketRemLenBytes := by
  have hlt := lengthValue_lt f.lengthBytes
  have hpow : 128 ^ f.lengthBytes.length ≤ 128 ^ maxNoOfRemainingLengthBytes :=
    Nat.pow_le_pow_right (by omega) f.length_le
  have hmax : 128 ^ maxNoOfRemainingLengthBytes =
    PacketFixedHeader.maxMqttPacketRemLenBytes + 1 := rfl
  have hvalue := f.value_eq
  omega

/-- The frame a header and the parts make up, when the length of the parts fits. -/
def frameOf (b : UInt8) (body : Bytes)
    (h : body.length ≤ PacketFixedHeader.maxMqttPacketRemLenBytes) : Frame where
  fixedHeaderByte := b
  lengthBytes := PacketFixedHeader.lengthBytes body.length
  body := body
  terminated := PacketFixedHeader.terminated_lengthBytes body.length
  length_le := by
    rw [PacketFixedHeader.length_lengthBytes h]
    exact PacketFixedHeader.remainingLengthByteCount_le_four body.length
  value_eq := PacketFixedHeader.lengthValue_lengthBytes body.length

theorem wellFramed_iff_partsFit {messageType : MessageTypes} (isDuplicate : Bool) (qos : QoS)
    (isRetained : Bool) (hi : messageType ≠ .invalid) (hr : messageType ≠ .reserved)
    (parts : List BodyPart) {h : PacketFixedHeader}
    (hh : h = (Packet.init messageType isDuplicate qos isRetained (parts.map size).sum).fixedHeader) :
    WellFramed messageType parts ((parts.map size).sum + h.length)
        (h.appendToBuffer [] ++ parts.flatMap written) ↔ PartsFit parts := by
  rw [PacketFixedHeader.appendToBuffer_eq, PacketFixedHeader.length,
    PacketFixedHeader.getRemainingLengthByteCount, List.nil_append]
  constructor
  · intro hframed
    obtain ⟨f, -, -, hencode, hlen⟩ := hframed
    have hbody := hencode.length
    have hmax := f.body_length_le
    rw [hbody] at hmax
    obtain ⟨b, hheader, -⟩ := Packet.init_fixedHeader isDuplicate qos isRetained hi hr hmax
    rw [hh, hheader, List.length_append, List.length_cons,
      PacketFixedHeader.length_lengthBytes hmax] at hlen
    dsimp only at hlen
    exact ⟨hencode.fits (by omega), hmax⟩
  · intro hfit
    obtain ⟨hfits, hmax⟩ := hfit
    have hencode := encodeAll_written hfits
    have hbody := hencode.length
    obtain ⟨b, hheader, htype⟩ := Packet.init_fixedHeader isDuplicate qos isRetained hi hr hmax
    refine ⟨frameOf b (parts.flatMap written) (by omega), ?_, htype, hencode, ?_⟩
    · rw [hh, hheader, ← hbody]
      rfl
    · rw [hh, hheader, List.length_append, List.length_cons,
        PacketFixedHeader.length_lengthBytes hmax, hbody]
      dsimp only
      omega

/-! ### The packets -/

theorem appendStringToBuffer_eq (buf str : Bytes) :
    Packet.appendStringToBuffer buf str = buf ++ (string str).written := by
  by_cases h : 0 < str.length
  · rw [written_string h, Packet.appendStringToBuffer, if_pos h, List.append_assoc]
    rfl
  · rw [written, Packet.appendStringToBuffer, Packet.appendStringToBuffer, if_neg h, if_neg h,
      List.append_nil]

def idPart (packetId : UInt16) : BodyPart := .data (Packet.appendUInt16ToBuffer [] packetId)

def publishParts (p : PublishPacket) : List BodyPart :=
  .string p.pTopicName.data ::
    (if p.qos = .qos0 then [.data p.payload] else [idPart p.packetId, .data p.payload])

def topicParts (s : Subscription) : List BodyPart :=
  [.string s.pTopicName.data, .data [SubscribePacket.qosByte s.maxQos]]

def subscribeParts (heap : SubscriptionHeap) (p : SubscribePacket) : List BodyPart :=
  idPart p.packetId :: p.subscriptionList.flatMap (fun s => topicParts (heap s))

def unsubscribeParts (p : UnsubscribePacket) : List BodyPart :=
  idPart p.packetId :: p.topicList.map (fun t => .string t.data)

theorem toString_publishPacket (p : PublishPacket) :
    p.toString = p.fixedHeader.appendToBuffer [] ++ (publishParts p).flatMap written := by
  rw [PublishPacket.toString, publishParts]
  by_cases hq : p.qos = .qos0
  · simp only [if_pos hq, Packet.appendUtf8StringToBuffer, appendStringToBuffer_eq,
      List.flatMap_cons, List.flatMap_nil, List.append_nil, List.append_assoc]
    rfl
  · simp only [if_neg hq, Packet.appendUtf8StringToBuffer, appendStringToBuffer_eq,
      Packet.appendUInt16ToBuffer, idPart, List.flatMap_cons, List.flatMap_nil, List.append_nil,
      List.append_assoc]
    rfl

theorem size_publishParts (p : PublishPacket) :
    ((publishParts p).map size).sum =
      p.pTopicName.length + 2 + (if p.qos = .qos0 then 0 else 2) + p.payload.length := by
  rw [publishParts]
  by_cases hq : p.qos = .qos0
  · simp [hq, size, Utf8String.length]
  · simp only [hq, if_false, List.map_cons, List.map_nil, List.sum_cons, List.sum_nil, size, idPart,
      Packet.appendUInt16ToBuffer, List.nil_append, List.length_cons, List.length_nil,
      Utf8String.length]
    omega

/-- Writing a topic changes only the position of its subscription. -/
theorem appendTopics_bytes (packetId : UInt16) (list : List SubscriptionPtr) (index : UInt8)
    (heap : SubscriptionHeap) (buf : Bytes) :
    (SubscribePacket.appendTopics packetId list index heap buf).1 =
      buf ++ (list.flatMap (fun s => topicParts (heap s))).flatMap written := by
  induction list generalizing index heap buf with
  | nil => simp [SubscribePacket.appendTopics]
  | cons s rest ih =>
    have hsame : ∀ q, topicParts (Function.update heap s ((heap s).setAckIndex packetId index) q) =
        topicParts (heap q) := by
      intro q
      by_cases hq : q = s
      · subst hq
        rw [Function.update_self]
        rfl
      · rw [Function.update_of_ne hq]
    have hparts : (topicParts (heap s)).flatMap written =
        (string (heap s).pTopicName.data).written ++ [SubscribePacket.qosByte (heap s).maxQos] :=
      congrArg (_ ++ ·) (List.append_nil _)
    rw [SubscribePacket.appendTopics, ih]
    simp only [hsame, Packet.appendUtf8StringToBuffer, appendStringToBuffer_eq, List.flatMap_cons,
      List.flatMap_append, hparts, List.append_assoc]

theorem toString_subscribePacket (heap : SubscriptionHeap) (p : SubscribePacket) :
    (p.toString heap).1 =
      p.fixedHeader.appendToBuffer [] ++ (subscribeParts heap p).flatMap written := by
  rw [SubscribePacket.toString, appendTopics_bytes, subscribeParts, List.flatMap_cons,
    ← List.append_assoc]
  rfl

theorem sum_size_topicParts (heap : SubscriptionHeap) (list : List SubscriptionPtr) (n : Nat) :
    list.foldl (fun n s => n + (heap s).pTopicName.length + 2 + 1) n =
      n + ((list.flatMap (fun s => topicParts (heap s))).map size).sum := by
  induction list generalizing n with
  | nil => rfl
  | cons s rest ih =>
    rw [List.foldl_cons, ih, List.flatMap_cons, List.map_append, List.sum_append]
    simp only [topicParts, List.map_cons, List.map_nil, List.sum_cons, List.sum_nil, size,
      Utf8String.length, List.length_cons, List.length_nil]
    omega

theorem foldl_appendUtf8StringToBuffer (topics : List Utf8String) (buf : Bytes) :
    topics.foldl Packet.appendUtf8StringToBuffer buf =
      buf ++ (topics.map (fun t => string t.data)).flatMap written := by
  induction topics generalizing buf with
  | nil => simp
  | cons t topics ih =>
    rw [List.foldl_cons, ih, Packet.appendUtf8StringToBuffer, appendStringToBuffer_eq,
      List.map_cons, List.flatMap_cons, List.append_assoc]

theorem toString_unsubscribePacket (p : UnsubscribePacket) :
    p.toString = p.fixedHeader.appendToBuffer [] ++ (unsubscribeParts p).flatMap written := by
  rw [UnsubscribePacket.toString, foldl_appendUtf8StringToBuffer, unsubscribeParts,
    List.flatMap_cons, ← List.append_assoc]
  rfl

theorem sum_size_strings (topics : List Utf8String) (n : Nat) :
    topics.foldl (fun n t => n + t.length + 2) n =
      n + ((topics.map (fun t => string t.data)).map size).sum := by
  induction topics generalizing n with
  | nil => rfl
  | cons t topics ih =>
    rw [List.foldl_cons, ih, List.map_cons, List.map_cons, List.sum_cons, size, Utf8String.length]
    omega

/-! ### The factories -/

/-- The calls that make the packets. A packet gets its id before it is sent. -/
inductive FactoryCall where
  | publish (pTopicName : Option Utf8String) (isRetained isDuplicate : Bool) (qos : QoS)
    (payload : Bytes)
  | subscribe (subscriptionList : List SubscriptionPtr)
  | unsubscribe (topicList : List Utf8String)
  | puback (packetId : UInt16)
  | pingreq
  | disconnect

structure OutboundPacket where
  messageType : MessageTypes
  parts : List BodyPart
  size : Nat
  buf : Bytes

def FactoryCall.create (heap : SubscriptionHeap) (id : UInt16) : FactoryCall → Option OutboundPacket
  | .publish pTopicName isRetained isDuplicate qos payload =>
    (PublishPacket.createFromFields pTopicName isRetained isDuplicate qos payload).map fun p =>
      let p := { p with packetId := id }
      ⟨.publish, publishParts p, p.serializedPacketLength, p.toString⟩
  | .subscribe subscriptionList =>
    (SubscribePacket.create heap subscriptionList).map fun p =>
      let p := { p with packetId := id }
      ⟨.subscribe, subscribeParts heap p, p.serializedPacketLength, (p.toString heap).1⟩
  | .unsubscribe topicList =>
    (UnsubscribePacket.create topicList).map fun p =>
      let p := { p with packetId := id }
      ⟨.unsubscribe, unsubscribeParts p, p.serializedPacketLength, p.toString⟩
  | .puback packetId =>
    let p := { PubackPacket.create packetId with packetId := id }
    some ⟨.puback, [idPart packetId], p.serializedPacketLength, p.toString⟩
  | .pingreq =>
    let p := PingreqPacket.create
    some ⟨.pingreq, [], p.serializedPacketLength, p.toString⟩
  | .disconnect =>
    let p := DisconnectPacket.create
    some ⟨.disconnect, [], p.serializedPacketLength, p.toString⟩

/-- How a packet was put together: its size is the sum of its parts and the header,
its bytes are the header and what the helpers append for each part. -/
def Assembled (p : OutboundPacket) : Prop :=
  ∃ h isDuplicate qos isRetained, p.messageType ≠ .invalid ∧ p.messageType ≠ .reserved ∧
    h = (Packet.init p.messageType isDuplicate qos isRetained (p.parts.map size).sum).fixedHeader ∧
    p.size = (p.parts.map BodyPart.size).sum + h.length ∧
    p.buf = h.appendToBuffer [] ++ p.parts.flatMap written

theorem assembled_publish (p : PublishPacket) (pTopicName : Utf8String)
    (isRetained isDuplicate : Bool) (qos : QoS) (payload : Bytes) (id : UInt16)
    (hp : p = { PublishPacket.init pTopicName isRetained isDuplicate qos payload with
      packetId := id }) :
    Assembled ⟨.publish, publishParts p, p.serializedPacketLength, p.toString⟩ := by
  have hsize : ((publishParts p).map size).sum = p.packetSize := by
    rw [size_publishParts, hp]
    change pTopicName.length + 2 + (if qos = .qos0 then 0 else 2) + payload.length =
      if qos = .qos0 then pTopicName.length + 2 + payload.length
      else pTopicName.length + 2 + payload.length + 2
    split_ifs
    · omega
    · omega
  refine ⟨p.fixedHeader, isDuplicate, qos, isRetained, nofun, nofun, ?_, ?_,
    toString_publishPacket p⟩
  · rw [hsize, hp]
    rfl
  · rw [hsize, hp]
    rfl

theorem assembled_subscribe (p : SubscribePacket) (heap : SubscriptionHeap)
    (subscriptionList : List SubscriptionPtr) (id : UInt16)
    (hp : p = { SubscribePacket.init heap subscriptionList with packetId := id }) :
    Assembled ⟨.subscribe, subscribeParts heap p, p.serializedPacketLength, (p.toString heap).1⟩ := by
  have hsize : ((subscribeParts heap p).map size).sum = p.packetSize := by
    rw [hp]
    exact (sum_size_topicParts heap subscriptionList 2).symm
  refine ⟨p.fixedHeader, false, .qos0, false, nofun, nofun, ?_, ?_,
    toString_subscribePacket heap p⟩
  · rw [hsize, hp]
    rfl
  · rw [hsize, hp]
    rfl

theorem assembled_unsubscribe (p : UnsubscribePacket) (topicList : List Utf8String) (id : UInt16)
    (hp : p = { UnsubscribePacket.init topicList with packetId := id }) :
    Assembled ⟨.unsubscribe, unsubscribeParts p, p.serializedPacketLength, p.toString⟩ := by
  have hsize : ((unsubscribeParts p).map size).sum = p.packetSize := by
    rw [hp]
    exact (sum_size_strings topicList 2).symm
  refine ⟨p.fixedHeader, false, .qos0, false, nofun, nofun, ?_, ?_, toString_unsubscribePacket p⟩
  · rw [hsize, hp]
    rfl
  · rw [hsize, hp]
    rfl

theorem FactoryCall.assembled {heap : SubscriptionHeap} {id : UInt16} {call : FactoryCall}
    {p : OutboundPacket} (h : call.create heap id = some p) : Assembled p := by
  cases call with
  | publish pTopicName isRetained isDuplicate qos payload =>
    obtain ⟨q, hq, rfl⟩ := Option.map_eq_some_iff.mp h
    obtain ⟨t, -, rfl⟩ := Option.map_eq_some_iff.mp hq
    exact assembled_publish _ t isRetained isDuplicate qos payload id rfl
  | subscribe subscriptionList =>
    obtain ⟨q, hq, rfl⟩ := Option.map_eq_some_iff.mp h
    rw [SubscribePacket.create] at hq
    split_ifs at hq
    cases hq
    exact assembled_subscribe _ heap subscriptionList id rfl
  | unsubscribe topicList =>
    obtain ⟨q, hq, rfl⟩ := Option.map_eq_some_iff.mp h
    rw [UnsubscribePacket.create] at hq
    split_ifs at hq
    cases hq
    exact assembled_unsubscribe _ topicList id rfl
  | puback packetId =>
    cases h
    exact ⟨_, false, .qos0, false, nofun, nofun, rfl, rfl, rfl⟩
  | pingreq =>
    cases h
    exact ⟨_, false, .qos0, false, nofun, nofun, rfl, rfl, rfl⟩
  | disconnect =>
    cases h
    exact ⟨_, false, .qos0, false, nofun, nofun, rfl, rfl, rfl⟩

/-- What a factory makes is one frame of its size exactly when no string is empty or
longer than its two bytes can say and the parts fit in the remaining length. -/
theorem wellFramed_create_iff (heap : SubscriptionHeap) (id : UInt16) (call : FactoryCall)
    (p : OutboundPacket) (h : call.create heap id = some p) :
    WellFramed p.messageType p.parts p.size p.buf ↔ PartsFit p.parts := by
  obtain ⟨header, isDuplicate, qos, isRetained, hi, hr, hheader, hsize, hbuf⟩ :=
    FactoryCall.assembled h
  rw [hsize, hbuf]
  exact wellFramed_iff_partsFit isDuplicate qos isRetained hi hr p.parts hheader

def helloCall : FactoryCall := .publish (some freshTopic) false false .qos0 [0x68, 0x69]

theorem wellFramed_create_hello :
    WellFramed .publish [.string [0x61], .data [0x68, 0x69]] 7
        [0x30, 0x05, 0x00, 0x01, 0x61, 0x68, 0x69] ↔
      PartsFit [.string [0x61], .data [0x68, 0x69]] :=
  wellFramed_create_iff freshClient.heap 0 helloCall
    ⟨.publish, [.string [0x61], .data [0x68, 0x69]], 7,
      [0x30, 0x05, 0x00, 0x01, 0x61, 0x68, 0x69]⟩ rfl

/-- A topic without characters is written without its length. -/
def emptyTopicCall : FactoryCall := .publish (some ⟨[], rfl⟩) false false .qos0 [0x68, 0x69]

theorem not_wellFramed_emptyTopic :
    ∃ p, emptyTopicCall.create freshClient.heap 0 = some p ∧ p.buf = [0x30, 0x04, 0x68, 0x69] ∧
      ¬ WellFramed p.messageType p.parts p.size p.buf := by
  refine ⟨⟨.publish, [.string [], .data [0x68, 0x69]], 6, [0x30, 0x04, 0x68, 0x69]⟩, rfl, rfl, ?_⟩
  intro h
  obtain ⟨f, -, -, -, hlen⟩ := h
  exact absurd hlen (by decide)

end AwsIotSdk
