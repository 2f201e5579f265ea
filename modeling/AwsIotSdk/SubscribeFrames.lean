import AwsIotSdk.FailedSubscriptions
import AwsIotSdk.OutboundFrames
import AwsIotSdk.UnsubscribeAcks

/-! What a SUBSCRIBE puts on the wire. The header of the packet is made from the whole
list, the topics behind it are those the action left in it. -/

namespace AwsIotSdk

open ClientState SubscribeActionAsync BodyPart AwsIotSdk.Action

/-! ### The topics that are left -/

section Kept

variable {s : ClientState} {ps : List SubscriptionPtr}

end Kept

/-! ### A header and what follows it -/

theorem Terminated.append_inj {a b u v : Bytes} (ha : Terminated a) (hb : Terminated b)
    (h : a ++ u = b ++ v) : a = b ∧ u = v := by
  induction a generalizing b with
  | nil => exact ha.elim
  | cons x a ih =>
    cases b with
    | nil => exact hb.elim
    | cons y b =>
      obtain ⟨rfl, hrest⟩ := List.cons.inj h
      cases a with
      | nil =>
        cases b with
        | nil => exact ⟨rfl, hrest⟩
        | cons z b => exact absurd ha hb.1
      | cons w a =>
        cases b with
        | nil => exact absurd hb ha.1
        | cons z b =>
          obtain ⟨htail, huv⟩ := ih ha.2 hb.2 hrest
          exact ⟨congrArg (x :: ·) htail, huv⟩

/-- A header in front of other bytes than it was made for is no frame. -/
theorem Frame.of_appendToBuffer {f : Frame} {h : PacketFixedHeader} {w : Bytes}
    (hf : f.bytes = h.appendToBuffer [] ++ w) :
    f.fixedHeaderByte = h.fixedHeaderByte ∧ f.body = w ∧ h.remainingLength = w.length := by
  rw [PacketFixedHeader.appendToBuffer_eq, List.nil_append, List.cons_append] at hf
  obtain ⟨hbyte, hrest⟩ := List.cons.inj hf
  obtain ⟨hlength, hbody⟩ := f.terminated.append_inj
    (PacketFixedHeader.terminated_lengthBytes h.remainingLength) hrest
  have hvalue := f.value_eq
  rw [hlength, PacketFixedHeader.lengthValue_lengthBytes, hbody] at hvalue
  exact ⟨hbyte, hbody, hvalue⟩

def topicsSize (heap : SubscriptionHeap) (ps : List SubscriptionPtr) : Nat :=
  ((ps.flatMap (fun q => topicParts (heap q))).map size).sum

theorem topicsSize_cons (heap : SubscriptionHeap) (q : SubscriptionPtr)
    (ps : List SubscriptionPtr) :
    topicsSize heap (q :: ps) = (heap q).pTopicName.length + 3 + topicsSize heap ps := by
  simp [topicsSize, topicParts, size, Utf8String.length]
  omega

theorem topicsSize_le {heap : SubscriptionHeap} {ps : List SubscriptionPtr}
    (h : ∀ q ∈ ps, (heap q).pTopicName.length ≤ 65535) :
    topicsSize heap ps ≤ 65538 * ps.length := by
  induction ps with
  | nil => exact Nat.le_refl _
  | cons q ps ih =>
    obtain ⟨hq, hps⟩ := List.forall_mem_cons.mp h
    have hrest := ih hps
    rw [topicsSize_cons, List.length_cons]
    omega

theorem size_subscribeParts (heap : SubscriptionHeap) (p : SubscribePacket) :
    ((subscribeParts heap p).map size).sum = 2 + topicsSize heap p.subscriptionList := by
  rw [subscribeParts, List.map_cons, List.sum_cons]
  rfl

/-- The packet of a subscribe call: a factory made it from its list, and it may have
been given an id and a handler. -/
structure SubscribeRequest (s : ClientState) (p : SubscribePacket) : Prop where
  length_pos : 0 < p.subscriptionList.length
  length_le : p.subscriptionList.length ≤ maxTopicsInOneSubscribePacket
  fixedHeader : p.fixedHeader = (Packet.init .subscribe false .qos0 false
    (2 + topicsSize s.heap p.subscriptionList)).fixedHeader

/-- A connection with a record of the buffers that were written to it. -/
structure RecordedConnection (σ : Type) where
  connection : σ
  writes : List Bytes

instance instRecordedConnection {σ : Type} [NetworkConnection σ] :
    NetworkConnection (RecordedConnection σ) where
  isConnected c := NetworkConnection.isConnected c.connection
  connectInternal c :=
    let r := NetworkConnection.connectInternal c.connection
    (r.1, { c with connection := r.2 })
  writeInternal c buf out :=
    let r := NetworkConnection.writeInternal c.connection buf out
    ⟨r.rc, r.sizeWrittenBytesOut, ⟨r.connection, c.writes ++ [buf]⟩⟩
  readInternal c buf offset size out :=
    let r := NetworkConnection.readInternal c.connection buf offset size out
    ⟨r.rc, r.buf, r.sizeReadBytesOut, { c with connection := r.connection }⟩
  disconnectInternal c :=
    let r := NetworkConnection.disconnectInternal c.connection
    (r.1, { c with connection := r.2 })
  pending c := NetworkConnection.pending c.connection
  pending_lt c := NetworkConnection.pending_lt c.connection

variable {σ : Type} [NetworkConnection σ]

section Written

variable {s : ClientState} {c : RecordedConnection σ} {p : SubscribePacket}

def TopicsFit (s : ClientState) (ps : List SubscriptionPtr) : Prop :=
  ∀ q ∈ ps, 0 < (s.heap q).pTopicName.length ∧ (s.heap q).pTopicName.length ≤ 65535

theorem partsFit_subscribe_iff :
    (∀ part ∈ subscribeParts s.heap p, part.Fits) ↔ TopicsFit s p.subscriptionList := by
  constructor
  · intro h q hq
    exact h (.string (s.heap q).pTopicName.data) (List.mem_cons_of_mem _
      (List.mem_flatMap.mpr ⟨q, hq, List.mem_cons_self⟩))
  · intro h part hpart
    rcases List.mem_cons.mp hpart with rfl | hpart
    · trivial
    · obtain ⟨q, hq, hpart⟩ := List.mem_flatMap.mp hpart
      rcases List.mem_cons.mp hpart with rfl | hpart
      · exact h q hq
      · rw [List.mem_singleton.mp hpart]
        trivial

theorem SubscribeRequest.fixedHeader_eq (h : SubscribeRequest s p)
    (hfit : 2 + topicsSize s.heap p.subscriptionList ≤
      PacketFixedHeader.maxMqttPacketRemLenBytes) :
    p.fixedHeader = ⟨.subscribe, 0x82, 2 + topicsSize s.heap p.subscriptionList, true⟩ := by
  rw [h.fixedHeader, Packet.init, PacketFixedHeader.initializeHeader,
    if_neg (Nat.not_lt.mpr hfit)]

theorem SubscribeRequest.frame (h : SubscribeRequest s p)
    (hfit : TopicsFit s p.subscriptionList) :
    ∃ f : Frame, f.bytes = p.fixedHeader.appendToBuffer [] ++
        (subscribeParts s.heap p).flatMap written ∧ f.fixedHeaderByte = 0x82 ∧
      EncodeAll (subscribeParts s.heap p) f.body := by
  have hencode := encodeAll_written (partsFit_subscribe_iff.mpr hfit)
  have hbody := hencode.length
  rw [size_subscribeParts] at hbody
  have hsize := topicsSize_le (fun q hq => (hfit q hq).2)
  have hlen := h.length_le
  have hmax : 2 + topicsSize s.heap p.subscriptionList ≤
      PacketFixedHeader.maxMqttPacketRemLenBytes := by
    rw [maxTopicsInOneSubscribePacket] at hlen
    rw [PacketFixedHeader.maxMqttPacketRemLenBytes]
    omega
  refine ⟨frameOf 0x82 ((subscribeParts s.heap p).flatMap written) (by omega), ?_, rfl, hencode⟩
  rw [h.fixedHeader_eq hmax, ← hbody]
  rfl

end Written

def openConnection : RecordedConnection StreamConnection := ⟨⟨true, []⟩, []⟩

end AwsIotSdk
