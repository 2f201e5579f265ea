import AwsIotSdk.ConnectRoundTrip
import AwsIotSdk.PublishRoundTrip
import AwsIotSdk.SelfDelimiting
import AwsIotSdk.SubscribeFrames

/-! The grammar of the packets that a server reads from a client, and what it makes of
the packets that the factories build. -/

namespace AwsIotSdk

open BodyPart SelfDelimiting

/-- A packet as the server understands it. -/
inductive ControlPacket where
  | connect (fields : ConnectFields)
  | publish (isDuplicate : Bool) (qos : Nat) (isRetained : Bool) (topic : Utf8String)
      (packetId : Option UInt16) (payload : Bytes)
  | puback (packetId : UInt16)
  | subscribe (packetId : UInt16) (topics : List (Utf8String × Nat))
  | unsubscribe (packetId : UInt16) (topics : List Utf8String)
  | pingreq
  | disconnect

/-! ### The grammar -/

def takeFrame (buf : Bytes) : Option ((UInt8 × Bytes) × Bytes) := do
  let first ← takeByte buf
  let len ← takeLength maxNoOfRemainingLengthBytes first.2
  if len.1 ≤ len.2.length then some ((first.1, len.2.take len.1), len.2.drop len.1) else none

def takeFilter (buf : Bytes) : Option ((Utf8String × Nat) × Bytes) := do
  let topic ← takeUtf8 buf
  let qos ← takeByte topic.2
  if qos.1.toNat ≤ 2 then some ((topic.1, qos.1.toNat), qos.2) else none

/-- The items of a list that fills the buffer and is not empty. -/
def takeList {α : Type} (take : Bytes → Option (α × Bytes)) (buf : Bytes) : Option (List α) :=
  match takeAll take buf.length buf with
  | (a :: items, []) => some (a :: items)
  | _ => none

/-- A message of quality of service 0 has no id, and it is not sent a second time. -/
def parsePublish (flags : UInt8) (buf : Bytes) : Option ControlPacket := do
  let qos := ((flags >>> 1) &&& 3).toNat
  let topic ← takeUtf8 buf
  let packetId ← takeIf (0 < qos) takeUInt16 topic.2
  if qos ≤ 2 ∧ (qos = 0 → flags &&& 0x08 = 0) then
    some (.publish (flags &&& 0x08 ≠ 0) qos (flags &&& 0x01 ≠ 0) topic.1 packetId.1 packetId.2)
  else none

def parsePacket (first : UInt8) (body : Bytes) : Option ControlPacket :=
  if first = 0x10 then (parseBody body).map .connect
  else if first &&& 0xf0 = 0x30 then parsePublish first body
  else if first = 0x40 then do
    let id ← takeUInt16 body
    if id.2 = [] then some (.puback id.1) else none
  else if first = 0x82 then do
    let id ← takeUInt16 body
    (takeList takeFilter id.2).map (.subscribe id.1)
  else if first = 0xa2 then do
    let id ← takeUInt16 body
    (takeList takeUtf8 id.2).map (.unsubscribe id.1)
  else if first = 0xc0 then if body = [] then some .pingreq else none
  else if first = 0xe0 then if body = [] then some .disconnect else none
  else none

def takePacket (buf : Bytes) : Option (ControlPacket × Bytes) :=
  (takeFrame buf).bind fun f => (parsePacket f.1.1 f.1.2).map (·, f.2)

/-! ### Frames -/

theorem takeFrame_bytes (f : Frame) (rest : Bytes) :
    takeFrame (f.bytes ++ rest) = some (f.packet, rest) := by
  have hlength := takeLength_of_terminated f.terminated maxNoOfRemainingLengthBytes f.length_le
    (f.body ++ rest)
  have hbytes : f.bytes ++ rest = f.fixedHeaderByte :: (f.lengthBytes ++ (f.body ++ rest)) := by
    simp [Frame.bytes]
  rw [f.value_eq] at hlength
  rw [takeFrame, hbytes]
  change (takeLength maxNoOfRemainingLengthBytes (f.lengthBytes ++ (f.body ++ rest))).bind _ = _
  rw [hlength, Option.bind_some]
  simp [Frame.packet]

/-- The bytes are one frame that the grammar takes for the packet. -/
def Says (packet : ControlPacket) (buf : Bytes) : Prop :=
  ∃ f : Frame, f.bytes = buf ∧ parsePacket f.fixedHeaderByte f.body = some packet

theorem Says.taken {packet : ControlPacket} {buf : Bytes} (h : Says packet buf) :
    Taken takePacket (buf, packet) := by
  obtain ⟨f, rfl, hparse⟩ := h
  refine ⟨f.bytes_ne_nil, ?_⟩
  intro rest
  rw [takePacket, takeFrame_bytes, Option.bind_some, Frame.packet, hparse]
  rfl

/-- The frame of a header and of the parts it was made for. -/
theorem frame_of_partsFit {messageType : MessageTypes} (isDuplicate : Bool) (qos : QoS)
    (isRetained : Bool) (hi : messageType ≠ .invalid) (hr : messageType ≠ .reserved)
    {parts : List BodyPart} (hfit : PartsFit parts) {h : PacketFixedHeader}
    (hh : h = (Packet.init messageType isDuplicate qos isRetained (parts.map size).sum).fixedHeader) :
    ∃ f : Frame, f.bytes = h.appendToBuffer [] ++ parts.flatMap written ∧
      f.fixedHeaderByte = h.fixedHeaderByte ∧ f.body = parts.flatMap written := by
  obtain ⟨f, hbytes, -⟩ :=
    (wellFramed_iff_partsFit isDuplicate qos isRetained hi hr parts hh).mpr hfit
  obtain ⟨hbyte, hbody, -⟩ := f.of_appendToBuffer hbytes
  exact ⟨f, hbytes, hbyte, hbody⟩

theorem fixedHeaderByte_init {messageType : MessageTypes} {isDuplicate : Bool} {qos : QoS}
    {isRetained : Bool} {n : Nat} (hn : n ≤ PacketFixedHeader.maxMqttPacketRemLenBytes) :
    (Packet.init messageType isDuplicate qos isRetained n).fixedHeader.fixedHeaderByte =
      (PacketFixedHeader.empty.initializeHeader messageType isDuplicate qos isRetained
        0).2.fixedHeaderByte := by
  have hlt : ¬ PacketFixedHeader.maxMqttPacketRemLenBytes < n := by omega
  rw [Packet.init, PacketFixedHeader.initializeHeader, PacketFixedHeader.initializeHeader,
    if_neg hlt, if_neg (by decide)]
  cases messageType <;> rfl

theorem takeUInt16_written (id : UInt16) (rest : Bytes) :
    takeUInt16 ((idPart id).written ++ rest) = some (id, rest) := by
  have hid := Packet.toUInt16_bytes id
  simp [idPart, written, Packet.appendUInt16ToBuffer, takeUInt16, hid]

theorem takeList_joined {α : Type} {take : Bytes → Option (α × Bytes)} (hnil : take [] = none)
    {xs : List (Bytes × α)} (h : ∀ x ∈ xs, Taken take x) (hne : xs ≠ []) :
    takeList take (joined xs) = some (xs.map Prod.snd) := by
  have hread := takeAll_joined h hnil (length_le_joined h)
  rw [List.append_nil] at hread
  rw [takeList, hread]
  cases xs with
  | nil => exact absurd rfl hne
  | cons x xs => rfl

/-- What the packet of a call is to say. -/
def FactoryCall.packet (heap : SubscriptionHeap) (id : UInt16) : FactoryCall → Option ControlPacket
  | .publish pTopicName isRetained isDuplicate qos payload => pTopicName.map fun topic =>
    .publish isDuplicate (SubscribePacket.qosByte qos).toNat isRetained topic
      (if qos = .qos0 then none else some id) payload
  | .subscribe subscriptionList => some (.subscribe id (subscriptionList.map fun s =>
    ((heap s).pTopicName, (SubscribePacket.qosByte (heap s).maxQos).toNat)))
  | .unsubscribe topicList => some (.unsubscribe id topicList)
  | .puback packetId => some (.puback packetId)
  | .pingreq => some .pingreq
  | .disconnect => some .disconnect

/-- The duplicate flag of a message of quality of service 0 has to be clear. -/
def FactoryCall.FlagsProper : FactoryCall → Prop
  | .publish _ _ isDuplicate qos _ => qos = .qos0 → isDuplicate = false
  | _ => True

theorem publishByte_flags (isDuplicate : Bool) (qos : QoS) (isRetained : Bool) :
    let b := publishByte isDuplicate qos isRetained
    b ≠ 0x10 ∧ b &&& 0xf0 = 0x30 ∧ ((b >>> 1) &&& 3).toNat = (SubscribePacket.qosByte qos).toNat ∧
      decide (b &&& 0x08 ≠ 0) = isDuplicate ∧ decide (b &&& 0x01 ≠ 0) = isRetained := by
  cases isDuplicate <;> cases qos <;> cases isRetained <;> decide

theorem parsePacket_publish {p : PublishPacket} {isDuplicate isRetained : Bool}
    (hle : p.pTopicName.length ≤ 65535) (hflags : p.qos = .qos0 → isDuplicate = false) :
    parsePacket (publishByte isDuplicate p.qos isRetained) (publishBody p) =
      some (.publish isDuplicate (SubscribePacket.qosByte p.qos).toNat isRetained p.pTopicName
        (if p.qos = .qos0 then none else some p.packetId) p.payload) := by
  obtain ⟨hconnect, htype, hqos, hdup, hret⟩ := publishByte_flags isDuplicate p.qos isRetained
  have htopic : takeUtf8 (publishBody p) = some (p.pTopicName,
      (if p.qos = .qos0 then [] else uint16Bytes p.packetId) ++ p.payload) := takeUtf8_field hle _
  have hid : takeIf (decide (0 < (SubscribePacket.qosByte p.qos).toNat)) takeUInt16
      ((if p.qos = .qos0 then [] else uint16Bytes p.packetId) ++ p.payload) =
      some (if p.qos = .qos0 then none else some p.packetId, p.payload) := by
    have hbytes := Packet.toUInt16_bytes p.packetId
    cases p.qos with
    | qos0 => rfl
    | qos1 => simp [takeIf, takeUInt16, uint16Bytes, SubscribePacket.qosByte, hbytes]
  have hallowed : (SubscribePacket.qosByte p.qos).toNat ≤ 2 ∧
      ((SubscribePacket.qosByte p.qos).toNat = 0 →
        publishByte isDuplicate p.qos isRetained &&& 0x08 = 0) := by
    constructor
    · cases p.qos <;> decide
    · intro hzero
      have hqos0 : p.qos = .qos0 := by
        cases hq : p.qos with
        | qos0 => rfl
        | qos1 => simp [hq, SubscribePacket.qosByte] at hzero
      simpa [hflags hqos0] using hdup
  rw [parsePacket, if_neg hconnect, if_pos htype, parsePublish, hqos, htopic]
  simp only [Option.bind_eq_bind, Option.bind_some, hid, hdup, hret]
  rw [if_pos hallowed]

theorem parsePacket_40 (body : Bytes) : parsePacket 0x40 body =
    (takeUInt16 body).bind fun id => if id.2 = [] then some (.puback id.1) else none := rfl

theorem parsePacket_82 (body : Bytes) : parsePacket 0x82 body =
    (takeUInt16 body).bind fun id => (takeList takeFilter id.2).map (.subscribe id.1) := rfl

theorem parsePacket_a2 (body : Bytes) : parsePacket 0xa2 body =
    (takeUInt16 body).bind fun id => (takeList takeUtf8 id.2).map (.unsubscribe id.1) := rfl

theorem parsePacket_subscribe (id : UInt16) {topics : List (Utf8String × QoS)} (hne : topics ≠ [])
    (hfits : ∀ t ∈ topics, (string t.1.data).Fits) :
    parsePacket 0x82 ((idPart id).written ++ topics.flatMap (fun t =>
        (string t.1.data).written ++ [SubscribePacket.qosByte t.2])) =
      some (.subscribe id (topics.map fun t => (t.1, (SubscribePacket.qosByte t.2).toNat))) := by
  let xs := topics.map fun t => ((string t.1.data).written ++ [SubscribePacket.qosByte t.2],
    (t.1, (SubscribePacket.qosByte t.2).toNat))
  have htaken : ∀ x ∈ xs, Taken takeFilter x := by
    intro x hx
    obtain ⟨t, ht, rfl⟩ := List.mem_map.mp hx
    refine ⟨by simp, ?_⟩
    intro rest
    have htopic := ConnectRequest.takeUtf8_written (hfits t ht)
      ([SubscribePacket.qosByte t.2] ++ rest)
    have hqos : (SubscribePacket.qosByte t.2).toNat ≤ 2 := by cases t.2 <;> decide
    rw [List.append_assoc, takeFilter, htopic]
    simp only [Option.bind_eq_bind, Option.bind_some, takeByte, List.singleton_append, hqos, if_true]
  have htext : topics.flatMap (fun t =>
      (string t.1.data).written ++ [SubscribePacket.qosByte t.2]) = joined xs := by
    simp [xs, joined, List.flatMap_map]
  have hlist := takeList_joined rfl htaken (by simpa [xs] using hne)
  rw [htext, parsePacket_82, takeUInt16_written, Option.bind_some, hlist]
  simp [xs]

theorem parsePacket_unsubscribe (id : UInt16) {topics : List Utf8String} (hne : topics ≠ [])
    (hfits : ∀ t ∈ topics, (string t.data).Fits) :
    parsePacket 0xa2 ((idPart id).written ++ topics.flatMap (fun t => (string t.data).written)) =
      some (.unsubscribe id topics) := by
  let xs := topics.map fun t => ((string t.data).written, t)
  have htaken : ∀ x ∈ xs, Taken takeUtf8 x := by
    intro x hx
    obtain ⟨t, ht, rfl⟩ := List.mem_map.mp hx
    have hfit := hfits t ht
    exact ⟨by simp [written_string hfit.1], ConnectRequest.takeUtf8_written hfit⟩
  have htext : topics.flatMap (fun t => (string t.data).written) = joined xs := by
    simp [xs, joined, List.flatMap_map]
  have hlist := takeList_joined rfl htaken (by simpa [xs] using hne)
  rw [htext, parsePacket_a2, takeUInt16_written, Option.bind_some, hlist]
  simp [xs, Function.comp_def]

theorem says_of_parts (messageType : MessageTypes) (isDuplicate : Bool) (qos : QoS)
    (isRetained : Bool) (hi : messageType ≠ .invalid) (hr : messageType ≠ .reserved)
    {parts : List BodyPart} (hfit : PartsFit parts) {packet : ControlPacket}
    (hparse : parsePacket (PacketFixedHeader.empty.initializeHeader messageType isDuplicate qos
      isRetained 0).2.fixedHeaderByte (parts.flatMap written) = some packet)
    {n : Nat} (hn : (parts.map size).sum = n) :
    Says packet ((Packet.init messageType isDuplicate qos isRetained n).fixedHeader.appendToBuffer
      [] ++ parts.flatMap written) := by
  obtain ⟨f, hbytes, hbyte, hbody⟩ := frame_of_partsFit isDuplicate qos isRetained hi hr hfit rfl
  rw [fixedHeaderByte_init hfit.2] at hbyte
  rw [hn] at hbytes
  exact ⟨f, hbytes, by rw [hbyte, hbody, hparse]⟩

/-- What a factory makes says what its call asks for. -/
theorem says_create {heap : SubscriptionHeap} {id : UInt16} {call : FactoryCall}
    {p : OutboundPacket} (h : call.create heap id = some p) (hfit : PartsFit p.parts)
    (hflags : call.FlagsProper) :
    ∃ packet, call.packet heap id = some packet ∧ Says packet p.buf := by
  cases call with
  | publish pTopicName isRetained isDuplicate qos payload =>
    obtain ⟨q, hq, rfl⟩ := Option.map_eq_some_iff.mp h
    obtain ⟨topic, rfl, rfl⟩ := Option.map_eq_some_iff.mp hq
    obtain ⟨hpos, hle⟩ := hfit.1 (string topic.data) List.mem_cons_self
    let p := { PublishPacket.init topic isRetained isDuplicate qos payload with packetId := id }
    have hbody : (publishParts p).flatMap written = publishBody p := flatMap_publishParts hpos
    have hsize : ((publishParts p).map size).sum = p.packetSize := by
      rw [size_publishParts, ← length_publishBody]
      exact (packetSize_init topic isRetained isDuplicate qos payload id).symm
    have hparse : parsePacket (publishByte isDuplicate p.qos isRetained) (publishBody p) = _ :=
      parsePacket_publish hle hflags
    rw [← hbody] at hparse
    refine ⟨_, rfl, ?_⟩
    dsimp only
    rw [toString_publishPacket]
    exact says_of_parts .publish isDuplicate qos isRetained (by decide) (by decide) hfit hparse hsize
  | subscribe subscriptionList =>
    obtain ⟨q, hq, rfl⟩ := Option.map_eq_some_iff.mp h
    rw [SubscribePacket.create] at hq
    split_ifs at hq with hlist
    cases hq
    let topics := subscriptionList.map fun s => ((heap s).pTopicName, (heap s).maxQos)
    let p := { SubscribePacket.init heap subscriptionList with packetId := id }
    have hne : topics ≠ [] := by simpa [topics] using fun hnil => hlist (.inl hnil)
    have hfits : ∀ t ∈ topics, (string t.1.data).Fits := by
      intro t ht
      obtain ⟨s, hs, rfl⟩ := List.mem_map.mp ht
      refine hfit.1 _ (List.mem_cons_of_mem _ (List.mem_flatMap.mpr ⟨s, hs, ?_⟩))
      exact List.mem_cons_self
    have hparse := parsePacket_subscribe id hne hfits
    have hbody : (subscribeParts heap p).flatMap written = (idPart id).written ++
        topics.flatMap (fun t => (string t.1.data).written ++ [SubscribePacket.qosByte t.2]) := by
      simp [subscribeParts, topics, p, SubscribePacket.init, topicParts, List.flatMap_map,
        List.flatMap_assoc, written]
    have hmap : topics.map (fun t => (t.1, (SubscribePacket.qosByte t.2).toNat)) =
        subscriptionList.map fun s =>
          ((heap s).pTopicName, (SubscribePacket.qosByte (heap s).maxQos).toNat) := by
      simp [topics]
    rw [← hbody, hmap] at hparse
    refine ⟨_, rfl, ?_⟩
    dsimp only
    rw [toString_subscribePacket]
    exact says_of_parts .subscribe false .qos0 false (by decide) (by decide) hfit hparse
      (sum_size_topicParts heap subscriptionList 2).symm
  | unsubscribe topicList =>
    obtain ⟨q, hq, rfl⟩ := Option.map_eq_some_iff.mp h
    rw [UnsubscribePacket.create] at hq
    split_ifs at hq with hlist
    cases hq
    let p := { UnsubscribePacket.init topicList with packetId := id }
    have hfits : ∀ t ∈ topicList, (string t.data).Fits := by
      intro t ht
      exact hfit.1 _ (List.mem_cons_of_mem _ (List.mem_map.mpr ⟨t, ht, rfl⟩))
    have hparse := parsePacket_unsubscribe id (fun hnil => hlist (.inl hnil)) hfits
    have hbody : (unsubscribeParts p).flatMap written = (idPart id).written ++
        topicList.flatMap (fun t => (string t.data).written) := by
      simp [unsubscribeParts, p, UnsubscribePacket.init, List.flatMap_map]
    rw [← hbody] at hparse
    refine ⟨_, rfl, ?_⟩
    dsimp only
    rw [toString_unsubscribePacket]
    exact says_of_parts .unsubscribe false .qos0 false (by decide) (by decide) hfit hparse
      (sum_size_strings topicList 2).symm
  | puback packetId =>
    cases h
    have hid := takeUInt16_written packetId []
    rw [List.append_nil] at hid
    have hparse : parsePacket 0x40 ([idPart packetId].flatMap written) =
        some (.puback packetId) := by
      rw [List.flatMap_singleton, parsePacket_40, hid]
      rfl
    exact ⟨_, rfl, says_of_parts .puback false .qos0 false (by decide) (by decide) hfit hparse rfl⟩
  | pingreq =>
    cases h
    exact ⟨_, rfl, says_of_parts .pingreq false .qos0 false (by decide) (by decide) hfit rfl rfl⟩
  | disconnect =>
    cases h
    exact ⟨_, rfl, says_of_parts .disconnect false .qos0 false (by decide) (by decide) hfit rfl rfl⟩

end AwsIotSdk
