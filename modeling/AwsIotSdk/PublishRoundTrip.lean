import AwsIotSdk.InboundPackets
import AwsIotSdk.OutboundFrames

/-! A PUBLISH from the sender to the receiver. Every field comes back but the two
flags, which the read loop hands to its handler in the other order. -/

namespace AwsIotSdk

open NetworkRead BodyPart

/-- The packet that the loop makes of a PUBLISH frame. -/
def receivedPacket (fixedHeaderByte : UInt8) (readBuf : Bytes) :
    Except Fault (Option PublishPacket) :=
  PublishPacket.create readBuf (fixedHeaderByte &&& 0x08 = 0x08) (fixedHeaderByte &&& 0x01 = 0x01)
    (publishQos fixedHeaderByte)

theorem dispatch_of_receivedPacket {fixedHeaderByte : UInt8} {readBuf : Bytes} {p : PublishPacket}
    (hbyte : messageType fixedHeaderByte = .publish)
    (hp : receivedPacket fixedHeaderByte readBuf = .ok (some p)) (s : ClientState) :
    dispatch s fixedHeaderByte readBuf = deliverPublish s p (publishQos fixedHeaderByte) := by
  rw [dispatch, hbyte]
  change handlePublish s readBuf _ _ _ = _
  rw [receivedPacket] at hp
  rw [handlePublish, hp]
  rfl

def uint16Bytes (value : UInt16) : Bytes :=
  [UInt8.ofNat (value.toNat / 256), UInt8.ofNat (value.toNat % 256)]

def publishBody (p : PublishPacket) : Bytes :=
  UInt8.ofNat (p.pTopicName.length / 256) :: UInt8.ofNat (p.pTopicName.length % 256) ::
    (p.pTopicName.data ++ ((if p.qos = .qos0 then [] else uint16Bytes p.packetId) ++ p.payload))

theorem flatMap_publishParts {p : PublishPacket} (h : 0 < p.pTopicName.length) :
    (publishParts p).flatMap written = publishBody p := by
  rw [publishParts, List.flatMap_cons, written_string h, publishBody]
  by_cases hq : p.qos = .qos0
  · simp [hq, written, Utf8String.length]
  · simp [hq, written, idPart, Packet.appendUInt16ToBuffer, uint16Bytes, Utf8String.length]

/-! ### Reading the body -/

section Reading

variable {p : PublishPacket}

theorem length_publishBody (p : PublishPacket) :
    (publishBody p).length =
      p.pTopicName.length + 2 + (if p.qos = .qos0 then 0 else 2) + p.payload.length := by
  rw [publishBody]
  by_cases hq : p.qos = .qos0
  · simp only [hq, if_true, List.length_cons, List.length_append, List.length_nil,
      Utf8String.length]
    omega
  · simp only [hq, if_false, uint16Bytes, List.length_cons, List.length_append, List.length_nil,
      Utf8String.length]
    omega

theorem topicField_publishBody (hpos : 0 < p.pTopicName.length)
    (hle : p.pTopicName.length ≤ 65535) : topicField (publishBody p) = some p.pTopicName := by
  have hlength : topicLength (publishBody p) = p.pTopicName.length := Packet.toNat_toUInt16 hle
  have hbody := length_publishBody p
  have hfits : 1 ≤ p.pTopicName.length ∧ p.pTopicName.length + 2 ≤ (publishBody p).length := by
    omega
  have htake : ((publishBody p).drop 2).take p.pTopicName.length = p.pTopicName.data :=
    List.take_left' rfl
  rw [topicField, hlength, if_pos hfits, htake, Utf8String.create_data]

theorem drop_publishBody (p : PublishPacket) :
    (publishBody p).drop (2 + p.pTopicName.length) =
      (if p.qos = .qos0 then [] else uint16Bytes p.packetId) ++ p.payload := by
  rw [← List.drop_drop]
  exact List.drop_left' rfl

theorem readPacketId_publishBody (p : PublishPacket) :
    PublishPacket.readPacketId p.qos (publishBody p) (2 + p.pTopicName.length) =
      .ok (if p.qos = .qos0 then 0 else p.packetId,
        2 + p.pTopicName.length + (if p.qos = .qos0 then 0 else 2)) := by
  have hdrop := drop_publishBody p
  rw [PublishPacket.readPacketId]
  by_cases hq : p.qos = .qos0
  · rw [if_pos hq, if_pos hq, if_pos hq]
    rfl
  · rw [if_neg hq, uint16Bytes] at hdrop
    rw [if_neg hq, if_neg hq, if_neg hq]
    have hfirst := congrArg (fun l => l[0]?) hdrop
    have hsecond := congrArg (fun l => l[1]?) hdrop
    simp only [List.getElem?_drop, Nat.add_zero, List.cons_append, List.getElem?_cons_zero,
      List.getElem?_cons_succ] at hfirst hsecond
    exact readUInt16FromBuffer_eq_ok.mpr ⟨_, _, hfirst, hsecond, by rw [Packet.toUInt16_bytes]⟩

theorem readPayload_publishBody (p : PublishPacket) :
    PublishPacket.readPayload (publishBody p)
      (2 + p.pTopicName.length + (if p.qos = .qos0 then 0 else 2)) = .ok p.payload := by
  have hbody := length_publishBody p
  have hle : 2 + p.pTopicName.length + (if p.qos = .qos0 then 0 else 2) ≤
      (publishBody p).length := by
    omega
  rw [PublishPacket.readPayload, if_pos hle, ← List.drop_drop, drop_publishBody]
  by_cases hq : p.qos = .qos0
  · rw [if_pos hq, if_pos hq]
    rfl
  · rw [if_neg hq, if_neg hq]
    rfl

theorem create_publishBody (hpos : 0 < p.pTopicName.length) (hle : p.pTopicName.length ≤ 65535)
    (isRetained isDuplicate : Bool) :
    PublishPacket.create (publishBody p) isRetained isDuplicate p.qos = .ok (some
      { Packet.init .publish isDuplicate p.qos isRetained
          (p.pTopicName.length + 2 + p.payload.length) with
        packetId := if p.qos = .qos0 then 0 else p.packetId
        pTopicName := p.pTopicName
        isRetained := isRetained
        isDuplicate := isDuplicate
        qos := p.qos
        payload := p.payload }) := by
  have hbody := length_publishBody p
  have hlong : ¬ (publishBody p).length < 3 := by omega
  have htopic := readUtf8StringFromBuffer_eq_some.mpr
    ⟨topicField_publishBody hpos hle, rfl⟩
  rw [PublishPacket.create, if_neg hlong, PublishPacket.ofBuffer, htopic]
  change Except.map some (PublishPacket.readPacketId p.qos (publishBody p)
    (2 + p.pTopicName.length) >>= _) = _
  rw [readPacketId_publishBody]
  change Except.map some (PublishPacket.readPayload (publishBody p)
    (2 + p.pTopicName.length + (if p.qos = .qos0 then 0 else 2)) >>= _) = _
  rw [readPayload_publishBody]
  rfl

end Reading

/-! ### From the bytes of the sender to the packet of the receiver -/

structure SameMessage (p q : PublishPacket) : Prop where
  pTopicName : q.pTopicName = p.pTopicName
  payload : q.payload = p.payload
  qos : q.qos = p.qos
  packetId : p.qos ≠ .qos0 → q.packetId = p.packetId
  isRetained : q.isRetained = p.isRetained
  isDuplicate : q.isDuplicate = p.isDuplicate

/-- The loop reads one frame from the stream and delivers the message that was
sent. -/
def Received (t : List Delivery) (p : PublishPacket) : Prop :=
  ∃ b readBuf u q, readPacketFromNetwork true (⟨true, t⟩ : StreamConnection) =
      ⟨.success, b, readBuf, ⟨true, u⟩⟩ ∧ receivedPacket b readBuf = .ok (some q) ∧
    (∀ s, dispatch s b readBuf = deliverPublish s q (publishQos b)) ∧ SameMessage p q

def publishByte (isDuplicate : Bool) (qos : QoS) (isRetained : Bool) : UInt8 :=
  0x30 ||| PacketFixedHeader.publishFlags isDuplicate qos isRetained

theorem publishByte_bits (isDuplicate : Bool) (qos : QoS) (isRetained : Bool) :
    messageType (publishByte isDuplicate qos isRetained) = .publish ∧
      publishQos (publishByte isDuplicate qos isRetained) = qos ∧
      decide (publishByte isDuplicate qos isRetained &&& 0x08 = 0x08) = isDuplicate ∧
      decide (publishByte isDuplicate qos isRetained &&& 0x01 = 0x01) = isRetained := by
  cases isDuplicate <;> cases qos <;> cases isRetained <;> decide

/-- What the sender's packet comes back as, with the two flags exchanged. -/
theorem receivedPacket_publishByte {p : PublishPacket} (hpos : 0 < p.pTopicName.length)
    (hle : p.pTopicName.length ≤ 65535) (isRetained isDuplicate : Bool) :
    ∃ q, receivedPacket (publishByte isDuplicate p.qos isRetained) (publishBody p) = .ok (some q) ∧
      q.pTopicName = p.pTopicName ∧ q.payload = p.payload ∧ q.qos = p.qos ∧
      (p.qos ≠ .qos0 → q.packetId = p.packetId) ∧ q.isRetained = isDuplicate ∧
      q.isDuplicate = isRetained := by
  obtain ⟨-, hqos, hdup, hret⟩ := publishByte_bits isDuplicate p.qos isRetained
  rw [receivedPacket, hqos, hdup, hret, create_publishBody hpos hle]
  exact ⟨_, rfl, rfl, rfl, rfl, fun hq => if_neg hq, rfl, rfl⟩

theorem frame_publishPacket {p : PublishPacket} {isDuplicate isRetained : Bool}
    (hheader : p.fixedHeader = (Packet.init .publish isDuplicate p.qos isRetained
      p.packetSize).fixedHeader)
    (hsize : p.packetSize = (publishBody p).length) (hpos : 0 < p.pTopicName.length)
    (hmax : p.packetSize ≤ PacketFixedHeader.maxMqttPacketRemLenBytes) :
    ∃ f : Frame, f.bytes = p.toString ∧
      f.packet = (publishByte isDuplicate p.qos isRetained, publishBody p) := by
  have hlt : ¬ PacketFixedHeader.maxMqttPacketRemLenBytes < p.packetSize := by omega
  have hinit : p.fixedHeader =
      ⟨.publish, publishByte isDuplicate p.qos isRetained, p.packetSize, true⟩ := by
    rw [hheader, Packet.init, PacketFixedHeader.initializeHeader, if_neg hlt]
    rfl
  refine ⟨frameOf (publishByte isDuplicate p.qos isRetained) (publishBody p) (by omega), ?_, rfl⟩
  rw [toString_publishPacket, flatMap_publishParts hpos, hinit, hsize]
  rfl

theorem packetSize_init (pTopicName : Utf8String) (isRetained isDuplicate : Bool) (qos : QoS)
    (payload : Bytes) (id : UInt16) :
    (PublishPacket.init pTopicName isRetained isDuplicate qos payload).packetSize =
      (publishBody { PublishPacket.init pTopicName isRetained isDuplicate qos payload with
        packetId := id }).length := by
  rw [length_publishBody]
  change (if qos = .qos0 then pTopicName.length + 2 + payload.length
    else pTopicName.length + 2 + payload.length + 2) =
    pTopicName.length + 2 + (if qos = .qos0 then 0 else 2) + payload.length
  split_ifs
  · omega
  · omega

/-- The constructor keeps the duplicate flag unless the packet has QoS 0. -/
theorem isDuplicate_init {isDuplicate : Bool} {qos : QoS}
    (hdup : qos = .qos0 → isDuplicate = false) (pTopicName : Utf8String) (isRetained : Bool)
    (payload : Bytes) :
    (PublishPacket.init pTopicName isRetained isDuplicate qos payload).isDuplicate =
      isDuplicate := by
  change (if qos = .qos0 then false else isDuplicate) = isDuplicate
  split_ifs with hq
  · exact (hdup hq).symm
  · rfl

/-- A PUBLISH arrives as it was sent exactly when its retain flag is its duplicate
flag. -/
theorem received_iff_flags_eq (pTopicName : Utf8String) (isRetained isDuplicate : Bool) (qos : QoS)
    (payload : Bytes) (id : UInt16) (p : PublishPacket)
    (hp : p = { PublishPacket.init pTopicName isRetained isDuplicate qos payload with
      packetId := id })
    (hpos : 0 < pTopicName.length) (hle : pTopicName.length ≤ 65535)
    (hmax : p.packetSize ≤ PacketFixedHeader.maxMqttPacketRemLenBytes)
    (hdup : qos = .qos0 → isDuplicate = false)
    (t rest : List Delivery) (ht : Delivers t p.toString rest) :
    Received t p ↔ isRetained = isDuplicate := by
  have hpdup : p.isDuplicate = isDuplicate := by
    rw [hp]
    exact isDuplicate_init hdup pTopicName isRetained payload
  have hpret : p.isRetained = isRetained := by rw [hp]; rfl
  have hptopic : p.pTopicName = pTopicName := by rw [hp]; rfl
  have hsize : p.packetSize = (publishBody p).length := by
    rw [hp]
    exact packetSize_init pTopicName isRetained isDuplicate qos payload id
  have hheader : p.fixedHeader = (Packet.init .publish isDuplicate p.qos isRetained
      p.packetSize).fixedHeader := by
    rw [hp]
    rfl
  rw [← hptopic] at hpos hle
  obtain ⟨f, hbytes, hpacket⟩ := frame_publishPacket hheader hsize hpos hmax
  obtain ⟨hbyte, hbody⟩ := Prod.mk.inj hpacket
  rw [← hbytes, ← List.append_nil f.bytes] at ht
  obtain ⟨u, hread, -⟩ := readPacketFromNetwork_of_delivers ht
  obtain ⟨q, hq, htopic, hpayload, hqos, hid, hret, hduplicate⟩ :=
    receivedPacket_publishByte hpos hle isRetained isDuplicate
  rw [hbyte, hbody] at hread
  constructor
  · intro h
    obtain ⟨b, readBuf, u', q', hread', hq', -, hsame⟩ := h
    rw [hread] at hread'
    cases hread'
    rw [hq] at hq'
    cases hq'
    have := hsame.isRetained
    rw [hret, hpret] at this
    exact this.symm
  · intro h
    have htype := (publishByte_bits isDuplicate p.qos isRetained).1
    refine ⟨_, _, u, q, hread, hq, dispatch_of_receivedPacket htype hq, htopic, hpayload, hqos,
      hid, ?_, ?_⟩
    · rw [hret, hpret, h]
    · rw [hduplicate, hpdup, h]

def retainedMessage : PublishPacket :=
  PublishPacket.init freshTopic true false .qos0 [0x68, 0x69]

def retainedTape : List Delivery := retainedMessage.toString.map .byte

theorem received_iff_flags_eq_retained :
    Received retainedTape { retainedMessage with packetId := 0 } ↔ true = false :=
  received_iff_flags_eq freshTopic true false .qos0 [0x68, 0x69] 0 _ rfl (by decide) (by decide)
    (by decide) (fun _ => rfl) retainedTape []
    ⟨retainedTape, by simp, by decide, by decide⟩

/-- A retained message comes back as a duplicate one. -/
theorem not_received_retained :
    Delivers retainedTape retainedMessage.toString [] ∧ ¬ Received retainedTape retainedMessage := by
  refine ⟨⟨retainedTape, by simp, by decide, by decide⟩, ?_⟩
  intro h
  obtain ⟨b, readBuf, u, q, hread, hq, -, hsame⟩ := h
  have hbytes : readPacketFromNetwork true (⟨true, retainedTape⟩ : StreamConnection) =
      ⟨.success, 0x31, [0x00, 0x01, 0x61, 0x68, 0x69], ⟨true, []⟩⟩ := by
    decide +kernel
  rw [hbytes] at hread
  cases hread
  cases hq
  cases hsame.isRetained

end AwsIotSdk
