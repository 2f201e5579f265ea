import AwsIotSdk.PublishRoundTrip

/-! A PUBLISH read from a buffer and written again. The constructor from a buffer
leaves the two bytes of the packet id out of the size. -/

namespace AwsIotSdk

open PacketFixedHeader

def Packet.size (p : Packet) : Nat := p.serializedPacketLength

/-- The variable part of a PUBLISH: a topic behind its length, the packet id
unless the QoS is 0, and any payload. -/
def IsPublishBody (qos : QoS) (buf : Bytes) : Prop :=
  ∃ (topic : Utf8String) (packetId : UInt16) (payload : Bytes),
    1 ≤ topic.length ∧ topic.length ≤ 65535 ∧
    buf = uint16Bytes (UInt16.ofNat topic.length) ++ topic.data ++
      (if qos = .qos0 then [] else uint16Bytes packetId) ++ payload

/-- Reading the buffer and writing the packet gives a frame with the same flags and
the same body. -/
def Reencodes (buf : Bytes) (isRetained isDuplicate : Bool) (qos : QoS) : Prop :=
  ∃ p, PublishPacket.create buf isRetained isDuplicate qos = .ok (some p) ∧
    p.toString = publishByte isDuplicate qos isRetained :: (lengthBytes buf.length ++ buf) ∧
    p.size = p.toString.length

theorem IsPublishBody.eq_publishBody {qos : QoS} {buf : Bytes} (h : IsPublishBody qos buf) :
    ∃ p : PublishPacket, p.qos = qos ∧ 0 < p.pTopicName.length ∧ p.pTopicName.length ≤ 65535 ∧
      publishBody p = buf := by
  obtain ⟨topic, packetId, payload, hpos, hle, rfl⟩ := h
  refine ⟨{ PublishPacket.init topic false false qos payload with packetId := packetId }, rfl,
    hpos, hle, ?_⟩
  have hnat : (UInt16.ofNat topic.length).toNat = topic.length := by
    rw [UInt16.toNat_ofNat']
    omega
  rw [uint16Bytes, hnat, List.append_assoc]
  rfl

/-- The length that the constructor from a buffer computes. -/
def recomputedSize (p : PublishPacket) : Nat := p.pTopicName.length + 2 + p.payload.length

theorem length_publishBody_eq (p : PublishPacket) :
    (publishBody p).length = recomputedSize p + (if p.qos = .qos0 then 0 else 2) := by
  rw [length_publishBody, recomputedSize]
  omega

theorem toString_eq_publishBody (p : PublishPacket) (h : 0 < p.pTopicName.length) :
    p.toString = p.fixedHeader.fixedHeaderByte ::
      (lengthBytes p.fixedHeader.remainingLength ++ publishBody p) := by
  rw [toString_publishPacket, flatMap_publishParts h, appendToBuffer_eq]
  rfl

/-- What the constructor makes of the body of a packet. -/
def reread (p : PublishPacket) (isRetained isDuplicate : Bool) : PublishPacket :=
  { Packet.init .publish isDuplicate p.qos isRetained (recomputedSize p) with
    packetId := if p.qos = .qos0 then 0 else p.packetId
    pTopicName := p.pTopicName
    isRetained := isRetained
    isDuplicate := isDuplicate
    qos := p.qos
    payload := p.payload }

theorem publishBody_reread (p : PublishPacket) (isRetained isDuplicate : Bool) :
    publishBody (reread p isRetained isDuplicate) = publishBody p := by
  by_cases h : p.qos = .qos0
  · simp [publishBody, reread, h]
  · simp [publishBody, reread, h]

theorem toString_reread {p : PublishPacket} (hpos : 0 < p.pTopicName.length)
    (isRetained isDuplicate : Bool) {header : PacketFixedHeader}
    (hheader : (reread p isRetained isDuplicate).fixedHeader = header) :
    (reread p isRetained isDuplicate).toString =
      header.fixedHeaderByte :: (lengthBytes header.remainingLength ++ publishBody p) := by
  have hstring := toString_eq_publishBody (reread p isRetained isDuplicate) hpos
  rwa [publishBody_reread, hheader] at hstring

theorem lengthBytes_inj {m n : Nat} (h : lengthBytes m = lengthBytes n) : m = n := by
  have := congrArg lengthValue h
  rwa [lengthValue_lengthBytes, lengthValue_lengthBytes] at this

theorem init_publish_fixedHeader (isDuplicate : Bool) (qos : QoS) (isRetained : Bool) (n : Nat) :
    (Packet.init .publish isDuplicate qos isRetained n).fixedHeader =
      if maxMqttPacketRemLenBytes < n then PacketFixedHeader.empty
      else ⟨.publish, publishByte isDuplicate qos isRetained, n, true⟩ := by
  rw [Packet.init, initializeHeader]
  split_ifs
  · rfl
  · rfl

theorem publishByte_ne_zero (isDuplicate : Bool) (qos : QoS) (isRetained : Bool) :
    publishByte isDuplicate qos isRetained ≠ 0 := by
  cases isDuplicate <;> cases qos <;> cases isRetained <;> decide

/-- A PUBLISH is written as it was read exactly when it has no packet id and fits a
frame. -/
theorem reencodes_iff (qos : QoS) (buf : Bytes) (h : IsPublishBody qos buf)
    (isRetained isDuplicate : Bool) :
    Reencodes buf isRetained isDuplicate qos ↔
      qos = .qos0 ∧ buf.length ≤ maxMqttPacketRemLenBytes := by
  obtain ⟨p, rfl, hpos, hle, rfl⟩ := h.eq_publishBody
  have hcreate : PublishPacket.create (publishBody p) isRetained isDuplicate p.qos =
      .ok (some (reread p isRetained isDuplicate)) :=
    create_publishBody hpos hle isRetained isDuplicate
  have hheader := init_publish_fixedHeader isDuplicate p.qos isRetained (recomputedSize p)
  have hlength := length_publishBody_eq p
  constructor
  · intro hre
    obtain ⟨q, hcreate', hstring, -⟩ := hre
    rw [hcreate] at hcreate'
    cases hcreate'
    by_cases hmax : maxMqttPacketRemLenBytes < recomputedSize p
    · rw [if_pos hmax] at hheader
      rw [toString_reread hpos isRetained isDuplicate hheader] at hstring
      have hbyte := (List.cons.inj hstring).1
      exact absurd hbyte.symm (publishByte_ne_zero isDuplicate p.qos isRetained)
    · rw [if_neg hmax] at hheader
      rw [toString_reread hpos isRetained isDuplicate hheader] at hstring
      have hsame : recomputedSize p = (publishBody p).length :=
        lengthBytes_inj (List.append_cancel_right (List.cons.inj hstring).2)
      by_cases hq : p.qos = .qos0
      · exact ⟨hq, by omega⟩
      · rw [if_neg hq] at hlength
        omega
  · intro ⟨hq, hmax⟩
    rw [if_pos hq, Nat.add_zero] at hlength
    have hfits : ¬ maxMqttPacketRemLenBytes < recomputedSize p := by omega
    rw [if_neg hfits] at hheader
    have hstring := toString_reread hpos isRetained isDuplicate hheader
    have hsize : (reread p isRetained isDuplicate).size =
        recomputedSize p + (remainingLengthByteCount (recomputedSize p) + 1) :=
      congrArg (fun h => recomputedSize p + PacketFixedHeader.length h) hheader
    have hcount : (lengthBytes (recomputedSize p)).length = _ := length_lengthBytes (by omega)
    refine ⟨_, hcreate, ?_, ?_⟩
    · rw [hstring, hlength]
    · rw [hstring, hsize, List.length_cons, List.length_append, hcount, hlength]
      omega

theorem reencodes_iff_qos0 :
    Reencodes [0x00, 0x01, 0x61, 0x68] true false .qos0 ↔
      QoS.qos0 = .qos0 ∧ [0x00, 0x01, 0x61, 0x68].length ≤ maxMqttPacketRemLenBytes :=
  reencodes_iff .qos0 [0x00, 0x01, 0x61, 0x68]
    ⟨freshTopic, 0, [0x68], by decide, by decide, by decide⟩ true false

/-- Written again, a PUBLISH with a packet id says that it is two bytes shorter than
it is. -/
theorem not_reencodes_qos1 :
    IsPublishBody .qos1 [0x00, 0x01, 0x61, 0x00, 0x05, 0x68] ∧
      ¬ Reencodes [0x00, 0x01, 0x61, 0x00, 0x05, 0x68] false false .qos1 := by
  refine ⟨⟨freshTopic, 5, [0x68], by decide, by decide, by decide⟩, ?_⟩
  intro h
  obtain ⟨p, hcreate, hstring, -⟩ := h
  cases hcreate
  exact absurd hstring (by decide +kernel)

end AwsIotSdk
