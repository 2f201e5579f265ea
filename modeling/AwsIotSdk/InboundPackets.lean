import AwsIotSdk.NetworkRead
import AwsIotSdk.PendingAcks

/-! Which packets the read loop survives. The bodies come from the network as they
are, and each handler makes its own assumptions on their length. -/

namespace AwsIotSdk

open NetworkRead

def Ends {α : Type} (x : Except Fault α) : Prop := ∃ r, x = .ok r

@[simp] theorem ends_ok {α : Type} (a : α) : Ends (.ok a : Except Fault α) := ⟨a, rfl⟩

@[simp] theorem ends_pure {α : Type} (a : α) : Ends (pure a : Except Fault α) := ⟨a, rfl⟩

@[simp] theorem not_ends_error {α : Type} (e : Fault) : ¬ Ends (.error e : Except Fault α) :=
  nofun

@[simp] theorem not_ends_throw {α : Type} (e : Fault) : ¬ Ends (throw e : Except Fault α) :=
  nofun

theorem ends_bind {α β : Type} {x : Except Fault α} {f : α → Except Fault β} :
    Ends (x >>= f) ↔ ∃ a, x = .ok a ∧ Ends (f a) := by
  constructor
  · rintro ⟨r, hr⟩
    obtain ⟨a, ha, hf⟩ := bind_eq_ok.mp hr
    exact ⟨a, ha, r, hf⟩
  · rintro ⟨a, ha, r, hf⟩
    exact ⟨r, bind_eq_ok.mpr ⟨a, ha, hf⟩⟩

/-! ### Reading the fields -/

theorem byteAt_eq_ok {buf : Bytes} {i : Nat} {b : UInt8} :
    Packet.byteAt buf i = .ok b ↔ buf[i]? = some b := by
  unfold Packet.byteAt
  cases buf[i]? <;> simp

theorem readUInt16FromBuffer_eq_ok {buf : Bytes} {i : Nat} {r : UInt16 × Nat} :
    Packet.readUInt16FromBuffer buf i = .ok r ↔
      ∃ a b, buf[i]? = some a ∧ buf[i + 1]? = some b ∧ r = (Packet.toUInt16 a b, i + 2) := by
  simp only [Packet.readUInt16FromBuffer, bind_eq_ok, byteAt_eq_ok]
  constructor
  · rintro ⟨a, ha, b, hb, hr⟩
    cases hr
    exact ⟨a, b, ha, hb, rfl⟩
  · rintro ⟨a, b, ha, hb, rfl⟩
    exact ⟨a, ha, b, hb, rfl⟩

theorem ends_readUInt16FromBuffer {buf : Bytes} {i : Nat} :
    Ends (Packet.readUInt16FromBuffer buf i) ↔ i + 2 ≤ buf.length := by
  constructor
  · rintro ⟨r, hr⟩
    obtain ⟨_, b, _, hb, _⟩ := readUInt16FromBuffer_eq_ok.mp hr
    obtain ⟨hlt, _⟩ := List.getElem?_eq_some_iff.mp hb
    omega
  · intro h
    exact ⟨_, readUInt16FromBuffer_eq_ok.mpr ⟨_, _, List.getElem?_eq_getElem (by omega),
      List.getElem?_eq_getElem (by omega), rfl⟩⟩

def topicLength : Bytes → Nat
  | a :: b :: _ => (Packet.toUInt16 a b).toNat
  | _ => 0

def topicField (buf : Bytes) : Option Utf8String :=
  if 1 ≤ topicLength buf ∧ topicLength buf + 2 ≤ buf.length then
    Utf8String.create ((buf.drop 2).take (topicLength buf))
  else none

theorem length_of_topicField {buf : Bytes} {t : Utf8String} (h : topicField buf = some t) :
    3 ≤ buf.length ∧ t.length = topicLength buf ∧ t.length + 2 ≤ buf.length := by
  unfold topicField at h
  split_ifs at h with hl
  have hlen : t.length = topicLength buf := by
    rw [Utf8String.length, Utf8String.data_of_create h]
    simp only [List.length_take, List.length_drop]
    omega
  omega

theorem readUtf8StringFromBuffer_eq (buf : Bytes) (h : 2 ≤ buf.length) :
    Packet.readUtf8StringFromBuffer buf 0 = .ok (topicField buf,
      if 1 ≤ topicLength buf ∧ topicLength buf + 2 ≤ buf.length then 2 + topicLength buf
      else 2) := by
  match buf, h with
  | a :: b :: rest, h =>
    have hiff : (1 ≤ (Packet.toUInt16 a b).toNat ∧
        (Packet.toUInt16 a b).toNat ≤ (a :: b :: rest).length - (0 + 2)) ↔
        1 ≤ topicLength (a :: b :: rest) ∧
          topicLength (a :: b :: rest) + 2 ≤ (a :: b :: rest).length := by
      simp only [topicLength, List.length_cons]
      omega
    change (if 1 ≤ (Packet.toUInt16 a b).toNat ∧
      (Packet.toUInt16 a b).toNat ≤ (a :: b :: rest).length - (0 + 2) then _ else _) = _
    simp only [hiff, topicField]
    split_ifs <;> rfl

theorem one_le_topicLength {buf : Bytes} {t : Utf8String} (h : topicField buf = some t) :
    1 ≤ topicLength buf := by
  by_contra hzero
  simp [topicField, hzero] at h

theorem readUtf8StringFromBuffer_eq_some {buf : Bytes} {t : Utf8String} {i : Nat} :
    Packet.readUtf8StringFromBuffer buf 0 = .ok (some t, i) ↔
      topicField buf = some t ∧ i = 2 + t.length := by
  by_cases h2 : 2 ≤ buf.length
  · rw [readUtf8StringFromBuffer_eq buf h2, Except.ok.injEq, Prod.mk.injEq]
    refine and_congr_right (fun ht => ?_)
    obtain ⟨_, hlen, hle⟩ := length_of_topicField ht
    rw [if_pos ⟨one_le_topicLength ht, by omega⟩, hlen, eq_comm]
  · refine iff_of_false (fun h => ?_) (fun h => ?_)
    · match buf, h2 with
      | [], _ => cases h
      | [_], _ => cases h
      | _ :: _ :: _, h2 => simp at h2
    · have := length_of_topicField h.1
      omega

theorem ends_readPacketId {qos : QoS} {buf : Bytes} {i : Nat} :
    Ends (PublishPacket.readPacketId qos buf i) ↔ (qos ≠ .qos0 → i + 2 ≤ buf.length) := by
  unfold PublishPacket.readPacketId
  split_ifs with hq
  · simp [hq]
  · simp [hq, ends_readUInt16FromBuffer]

theorem readPacketId_index {qos : QoS} {buf : Bytes} {i j : Nat} {packetId : UInt16}
    (h : PublishPacket.readPacketId qos buf i = .ok (packetId, j)) (hi : i ≤ buf.length) :
    j ≤ buf.length := by
  have he := ends_readPacketId.mp ⟨_, h⟩
  unfold PublishPacket.readPacketId at h
  split_ifs at h with hq
  · cases h
    exact hi
  · obtain ⟨_, _, _, _, hr⟩ := readUInt16FromBuffer_eq_ok.mp h
    cases hr
    exact he hq

theorem ofBuffer_eq_ok (buf : Bytes) (isRetained isDuplicate : Bool) (qos : QoS)
    (t : Utf8String) :
    (∃ p, PublishPacket.ofBuffer buf isRetained isDuplicate qos = .ok p ∧ p.pTopicName = t) ↔
      topicField buf = some t ∧ (qos ≠ .qos0 → t.length + 4 ≤ buf.length) := by
  simp only [PublishPacket.ofBuffer, bind_eq_ok, Prod.exists]
  constructor
  · rintro ⟨p, ⟨topic, i, hread, packetId, j, hid, payload, _, hp⟩, htopic⟩
    cases topic with
    | none => cases hp
    | some t' =>
      obtain ⟨ht, rfl⟩ := readUtf8StringFromBuffer_eq_some.mp hread
      have he := ends_readPacketId.mp ⟨_, hid⟩
      cases hp
      subst htopic
      exact ⟨ht, fun hq => by have := he hq; dsimp only; omega⟩
  · rintro ⟨ht, hle⟩
    obtain ⟨_, _, h2⟩ := length_of_topicField ht
    have hends : Ends (PublishPacket.readPacketId qos buf (2 + t.length)) :=
      ends_readPacketId.mpr (fun hq => by have := hle hq; omega)
    obtain ⟨⟨packetId, j⟩, hid⟩ := hends
    have hj : j ≤ buf.length := readPacketId_index hid (by omega)
    exact ⟨_, ⟨some t, _, readUtf8StringFromBuffer_eq_some.mpr ⟨ht, rfl⟩, packetId, j, hid,
      buf.drop j, by simp [PublishPacket.readPayload, hj], rfl⟩, rfl⟩

theorem publishPacket_create_eq_some (buf : Bytes) (isRetained isDuplicate : Bool) (qos : QoS)
    (t : Utf8String) :
    (∃ p, PublishPacket.create buf isRetained isDuplicate qos = .ok (some p) ∧ p.pTopicName = t) ↔
      topicField buf = some t ∧ (qos ≠ .qos0 → t.length + 4 ≤ buf.length) := by
  unfold PublishPacket.create
  split_ifs with h3
  · refine iff_of_false (fun h => by simp at h) (fun h => ?_)
    have := length_of_topicField h.1
    omega
  · rw [← ofBuffer_eq_ok buf isRetained isDuplicate qos t]
    cases PublishPacket.ofBuffer buf isRetained isDuplicate qos <;> simp [Except.map]

/-! ### Finding the subscription -/

def RegexCompiles (sub : Subscription) : Prop :=
  sub.pTopicRegex = [] ∨ (EcmaRegex.parse sub.pTopicRegex).isSome = true

def SearchCompiles (s : ClientState) (topicName : Bytes) : Prop :=
  ∀ pre e post, s.subscriptionMap.entries = pre ++ e :: post →
    (∀ x ∈ pre, ClientState.matchesEntry s.heap topicName x = .ok false) →
    e.1 = topicName ∨ RegexCompiles (s.heap e.2)

theorem ends_matchesEntry (heap : SubscriptionHeap) (topicName : Bytes)
    (e : Bytes × SubscriptionPtr) :
    Ends (ClientState.matchesEntry heap topicName e) ↔
      e.1 = topicName ∨ RegexCompiles (heap e.2) := by
  unfold ClientState.matchesEntry RegexCompiles
  split_ifs with hk hr
  · simp [hk]
  · rw [List.length_pos_iff] at hr
    cases EcmaRegex.parse (heap e.2).pTopicRegex <;> simp [hk, hr]
  · rw [List.length_pos_iff, not_not] at hr
    simp [hr]

theorem ends_findEntry (heap : SubscriptionHeap) (topicName : Bytes)
    (es : List (Bytes × SubscriptionPtr)) :
    Ends (ClientState.findEntry heap topicName es) ↔
      ∀ pre e post, es = pre ++ e :: post →
        (∀ x ∈ pre, ClientState.matchesEntry heap topicName x = .ok false) →
        e.1 = topicName ∨ RegexCompiles (heap e.2) := by
  induction es with
  | nil => simp [ClientState.findEntry]
  | cons e es ih =>
    rw [ClientState.findEntry, ends_bind]
    constructor
    · rintro ⟨found, hfound, hrest⟩ pre e' post hes hpre
      cases pre with
      | nil =>
        obtain ⟨rfl, rfl⟩ := List.cons.inj hes
        exact (ends_matchesEntry heap topicName e).mp ⟨found, hfound⟩
      | cons p pre =>
        obtain ⟨rfl, rfl⟩ := List.cons.inj hes
        rw [hpre e (by simp)] at hfound
        cases hfound
        exact ih.mp hrest pre e' post rfl (fun x hx => hpre x (by simp [hx]))
    · intro h
      obtain ⟨found, hfound⟩ :=
        (ends_matchesEntry heap topicName e).mpr (h [] e es rfl (by simp))
      refine ⟨found, hfound, ?_⟩
      cases found with
      | true => exact ends_pure _
      | false =>
        refine ih.mpr (fun pre e' post hes hpre => h (e :: pre) e' post (by simp [hes]) ?_)
        intro x hx
        rcases List.mem_cons.mp hx with rfl | hx
        · exact hfound
        · exact hpre x hx

def HandlerPresent (s : ClientState) (topicName : Bytes) : Prop :=
  ∀ p, s.getSubscription topicName = .ok (some p) → (s.heap p).isActive = true →
    (s.heap p).pAppHandler ≠ none

/-! ### The handlers -/

theorem ends_callAppHandler (s : ClientState) (sub : Subscription) (topicName payload : Bytes) :
    Ends (callAppHandler s sub topicName payload) ↔ sub.pAppHandler ≠ none := by
  unfold callAppHandler
  cases sub.pAppHandler <;> simp

theorem ends_deliverPublish (s : ClientState) (p : PublishPacket) (qos : QoS) :
    Ends (deliverPublish s p qos) ↔
      SearchCompiles s p.pTopicName.data ∧ HandlerPresent s p.pTopicName.data := by
  have hsearch : Ends (s.getSubscription p.pTopicName.data) ↔
      SearchCompiles s p.pTopicName.data :=
    ends_findEntry s.heap p.pTopicName.data s.subscriptionMap.entries
  rw [deliverPublish, ends_bind, ← hsearch]
  change (∃ found, s.getSubscription p.pTopicName.data = .ok found ∧ _) ↔ _
  constructor
  · rintro ⟨found, hfound, hrest⟩
    refine ⟨⟨found, hfound⟩, fun q hq hactive => ?_⟩
    rw [hq] at hfound
    cases hfound
    simp only [hactive, if_true] at hrest
    obtain ⟨t, ht, _⟩ := ends_bind.mp hrest
    exact (ends_callAppHandler _ _ _ _).mp ⟨t, ht⟩
  · rintro ⟨⟨found, hfound⟩, hhandler⟩
    refine ⟨found, hfound, ?_⟩
    cases found with
    | none => exact ends_pure _
    | some q =>
      by_cases hactive : (s.heap q).isActive = true
      · obtain ⟨t, ht⟩ := (ends_callAppHandler s (s.heap q) p.pTopicName.data p.payload).mpr
          (hhandler q hfound hactive)
        simp only [hactive, if_true]
        refine ends_bind.mpr ⟨t, ht, ?_⟩
        split_ifs <;> exact ends_pure _
      · simp only [hactive, Bool.false_eq_true, if_false]
        exact ends_pure _

def PublishHandled (s : ClientState) (buf : Bytes) (qos : QoS) : Prop :=
  ∃ t, topicField buf = some t ∧ (qos ≠ .qos0 → t.length + 4 ≤ buf.length) ∧
    SearchCompiles s t.data ∧ HandlerPresent s t.data

theorem ends_handlePublish (s : ClientState) (buf : Bytes) (isRetained isDuplicate : Bool)
    (qos : QoS) :
    Ends (handlePublish s buf isRetained isDuplicate qos) ↔ PublishHandled s buf qos := by
  have hcreate := publishPacket_create_eq_some buf isRetained isDuplicate qos
  rw [handlePublish, ends_bind]
  constructor
  · rintro ⟨found, hfound, hrest⟩
    cases found with
    | none => exact absurd hrest (not_ends_throw _)
    | some p =>
      obtain ⟨ht, hlen⟩ := (hcreate p.pTopicName).mp ⟨p, hfound, rfl⟩
      exact ⟨p.pTopicName, ht, hlen, (ends_deliverPublish s p qos).mp hrest⟩
  · rintro ⟨t, ht, hlen, hfound⟩
    obtain ⟨p, hp, rfl⟩ := (hcreate t).mpr ⟨ht, hlen⟩
    exact ⟨some p, hp, (ends_deliverPublish s p qos).mpr hfound⟩

theorem ends_handlePuback (s : ClientState) (buf : Bytes) :
    Ends (handlePuback s buf) ↔ 2 ≤ buf.length := by
  rw [handlePuback, ends_bind, ← Nat.zero_add 2, ← ends_readUInt16FromBuffer]
  exact ⟨fun ⟨a, ha, _⟩ => ⟨a, ha⟩, fun ⟨a, ha⟩ => ⟨a, ha, ends_pure _⟩⟩

theorem create_eq_some {α : Type} (buf : Bytes) {ofBuffer : Except Fault α}
    (h : Ends ofBuffer ↔ 2 ≤ buf.length) :
    (∃ p, (if buf.length = 0 then .ok none else ofBuffer.map some : Except Fault (Option α)) =
      .ok (some p)) ↔ 2 ≤ buf.length := by
  rw [← h]
  split_ifs with h0
  · exact iff_of_false nofun (fun hends => by have := h.mp hends; omega)
  · cases ofBuffer <;> simp [Except.map, Ends]

theorem subackPacket_create_eq_some (buf : Bytes) :
    (∃ p, SubackPacket.create buf = .ok (some p)) ↔ 2 ≤ buf.length := by
  refine create_eq_some buf ?_
  rw [SubackPacket.ofBuffer, ends_bind, ← Nat.zero_add 2, ← ends_readUInt16FromBuffer]
  exact ⟨fun ⟨a, ha, _⟩ => ⟨a, ha⟩, fun ⟨a, ha⟩ => ⟨a, ha, ends_pure _⟩⟩

theorem unsubackPacket_create_eq_some (buf : Bytes) :
    (∃ p, UnsubackPacket.create buf = .ok (some p)) ↔ 2 ≤ buf.length := by
  refine create_eq_some buf ?_
  rw [UnsubackPacket.ofBuffer, ends_bind, ← Nat.zero_add 2, ← ends_readUInt16FromBuffer]
  exact ⟨fun ⟨a, ha, _⟩ => ⟨a, ha⟩, fun ⟨a, ha⟩ => ⟨a, ha, ends_pure _⟩⟩

theorem ends_handleSuback (s : ClientState) (buf : Bytes) :
    Ends (handleSuback s buf) ↔ 2 ≤ buf.length := by
  rw [handleSuback, ends_bind, ← subackPacket_create_eq_some]
  constructor
  · rintro ⟨found, hfound, hrest⟩
    cases found with
    | none => exact absurd hrest (not_ends_throw _)
    | some p => exact ⟨p, hfound⟩
  · rintro ⟨p, hp⟩
    exact ⟨some p, hp, ends_pure _⟩

theorem ends_handleUnsuback (s : ClientState) (buf : Bytes) :
    Ends (handleUnsuback s buf) ↔ 2 ≤ buf.length := by
  rw [handleUnsuback, ends_bind, ← unsubackPacket_create_eq_some]
  constructor
  · rintro ⟨found, hfound, hrest⟩
    cases found with
    | none => exact absurd hrest (not_ends_throw _)
    | some p => exact ⟨p, hfound⟩
  · rintro ⟨p, hp⟩
    exact ⟨some p, hp, ends_pure _⟩

/-- What a packet has to bring for its handler to end. -/
def PacketHandled (s : ClientState) (fixedHeaderByte : UInt8) (readBuf : Bytes) : Prop :=
  match messageType fixedHeaderByte with
  | .publish => PublishHandled s readBuf (publishQos fixedHeaderByte)
  | .puback | .suback | .unsuback => 2 ≤ readBuf.length
  | _ => True

/-- The dispatch of a packet returns a code exactly when the packet is handled;
otherwise it reads outside the body, dereferences null or throws. -/
theorem dispatch_ends_iff (s : ClientState) (fixedHeaderByte : UInt8) (readBuf : Bytes) :
    (∃ rc t, dispatch s fixedHeaderByte readBuf = .ok (rc, t)) ↔
      PacketHandled s fixedHeaderByte readBuf := by
  refine (Prod.exists (p := fun r => dispatch s fixedHeaderByte readBuf = .ok r)).symm.trans ?_
  change Ends _ ↔ _
  unfold dispatch PacketHandled
  cases messageType fixedHeaderByte with
  | publish => exact ends_handlePublish s readBuf _ _ _
  | puback => exact ends_handlePuback s readBuf
  | suback => exact ends_handleSuback s readBuf
  | unsuback => exact ends_handleUnsuback s readBuf
  | _ => simp

theorem not_dispatch_ends_short :
    dispatch freshClient 0x30 [] = .error .nullDereference ∧
      dispatch freshClient 0x40 [0x00] = .error .outOfBounds :=
  ⟨rfl, rfl⟩

end AwsIotSdk
