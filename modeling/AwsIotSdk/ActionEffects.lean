import AwsIotSdk.Actions

/-! What the parts of an action leave of the state: the pending acks, the record
of handler calls and the subscription map. -/

namespace AwsIotSdk

open AwsIotSdk.Action

section CoreEffects

variable (s : ClientState)

theorem deactivate_eq : ∃ heap, DisconnectActionAsync.deactivate s = { s with heap := heap } := by
  unfold DisconnectActionAsync.deactivate
  generalize s.subscriptionMap.entries = es
  induction es generalizing s with
  | nil => exact ⟨s.heap, rfl⟩
  | cons e es ih =>
    obtain ⟨heap, h⟩ := ih (s.modify e.2 (·.setActive false))
    exact ⟨heap, h⟩

theorem deactivate_core : (DisconnectActionAsync.deactivate s).toClientCoreState =
    s.toClientCoreState := by
  obtain ⟨heap, h⟩ := deactivate_eq s
  rw [h]

theorem deactivate_subscriptionMap :
    (DisconnectActionAsync.deactivate s).subscriptionMap = s.subscriptionMap := by
  obtain ⟨heap, h⟩ := deactivate_eq s
  rw [h]

theorem eraseTopics_core (ps : List SubscriptionPtr) :
    (SubscribeActionAsync.eraseTopics s ps).toClientCoreState = s.toClientCoreState := by
  induction ps generalizing s with
  | nil => rfl
  | cons p ps ih => exact ih (s.eraseTopic (s.heap p).pTopicName.toStdString)

theorem setSubscriptionPacketInfo_core (topicName : Bytes) (id : UInt16) (index : UInt8) :
    (s.setSubscriptionPacketInfo topicName id index).toClientCoreState =
      s.toClientCoreState := by
  unfold ClientState.setSubscriptionPacketInfo
  cases s.subscriptionMap.find topicName <;> rfl

theorem foldl_setSubscriptionPacketInfo_core (ts : List Utf8String) (id : UInt16) :
    (ts.foldl (fun s t => s.setSubscriptionPacketInfo t.toStdString id 0) s).toClientCoreState =
      s.toClientCoreState := by
  induction ts generalizing s with
  | nil => rfl
  | cons t ts ih =>
    rw [List.foldl_cons, ih, setSubscriptionPacketInfo_core]

end CoreEffects

/-! ### The topics of a subscribe packet -/

section Topics

variable (s : ClientState) (id : UInt16)

/-- No topic of the list has an active subscription, neither in the map nor
earlier in the list. -/
def NoTopicActive (s : ClientState) (ps : List SubscriptionPtr) : Prop :=
  (∀ p ∈ ps, ∀ e, s.subscriptionMap.find (s.heap p).pTopicName.toStdString = some e →
    (s.heap e).isActive = false) ∧
  ps.Pairwise (fun p q => (s.heap p).pTopicName.toStdString =
    (s.heap q).pTopicName.toStdString → (s.heap p).isActive = false)

structure Replaced (s : ClientState) (p : SubscriptionPtr) (t : ClientState) : Prop where
  heap : t.heap = s.heap
  core : t.toClientCoreState = s.toClientCoreState
  self : t.subscriptionMap.find (s.heap p).pTopicName.toStdString = some p
  others : ∀ k, k ≠ (s.heap p).pTopicName.toStdString →
    t.subscriptionMap.find k = s.subscriptionMap.find k
  inactive : ∀ e, s.subscriptionMap.find (s.heap p).pTopicName.toStdString = some e →
    (s.heap e).isActive = false

theorem Replaced.noTopicActive_cons {s t : ClientState} {p : SubscriptionPtr}
    (ht : Replaced s p t) (ps : List SubscriptionPtr) :
    NoTopicActive s (p :: ps) ↔ NoTopicActive t ps := by
  unfold NoTopicActive
  rw [ht.heap, List.pairwise_cons]
  constructor
  · rintro ⟨hmap, hfirst, hpair⟩
    refine ⟨fun q hq e he => ?_, hpair⟩
    by_cases hk : (s.heap q).pTopicName.toStdString = (s.heap p).pTopicName.toStdString
    · rw [hk, ht.self, Option.some.injEq] at he
      exact he ▸ hfirst q hq hk.symm
    · rw [ht.others _ hk] at he
      exact hmap q (by simp [hq]) e he
  · rintro ⟨hmap, hpair⟩
    refine ⟨fun q hq e he => ?_, fun q hq hk => hmap q hq p (by rw [← hk, ht.self]), hpair⟩
    rcases List.mem_cons.mp hq with rfl | hq
    · exact ht.inactive e he
    · by_cases hk : (s.heap q).pTopicName.toStdString = (s.heap p).pTopicName.toStdString
      · exact ht.inactive e (hk ▸ he)
      · exact hmap q hq e (by rw [ht.others _ hk, he])

open SubscribeActionAsync

theorem insertTopics_cons (b : Bool) (p : SubscriptionPtr) (ps : List SubscriptionPtr) :
    (∃ e, s.subscriptionMap.find (s.heap p).pTopicName.toStdString = some e ∧
      (s.heap e).isActive = true ∧
      insertTopics id b (p :: ps) s = insertTopics id b ps (deleteAck s b id)) ∨
    ∃ t, Replaced s p t ∧
      insertTopics id b (p :: ps) s =
        (p :: (insertTopics id b ps t).1, (insertTopics id b ps t).2) := by
  cases hfind : s.subscriptionMap.find (s.heap p).pTopicName.toStdString with
  | none =>
    refine .inr ⟨s.insertTopic (s.heap p).pTopicName.toStdString p,
      ⟨rfl, rfl, ?_, fun k hk => SortedMap.find_insert_of_ne _ hk p, by simp [hfind]⟩, ?_⟩
    · simp [ClientState.insertTopic, SortedMap.find_insert_self, hfind]
    · simp [insertTopics, hfind]
  | some e =>
    by_cases he : (s.heap e).isActive = true
    · exact .inl ⟨e, rfl, he, by simp [insertTopics, hfind, he]⟩
    · refine .inr ⟨(s.eraseTopic (s.heap p).pTopicName.toStdString).insertTopic
        (s.heap p).pTopicName.toStdString p,
        ⟨rfl, rfl, ?_, fun k hk => ?_, by simpa [hfind] using he⟩, ?_⟩
      · simp [ClientState.insertTopic, ClientState.eraseTopic, SortedMap.find_insert_self]
      · simp [ClientState.insertTopic, ClientState.eraseTopic,
          SortedMap.find_insert_of_ne _ hk, SortedMap.find_erase_of_ne _ hk]
      · simp [insertTopics, hfind, he]

theorem insertTopics_heap (b : Bool) (ps : List SubscriptionPtr) :
    (insertTopics id b ps s).2.heap = s.heap := by
  induction ps generalizing s with
  | nil => rfl
  | cons p ps ih =>
    rcases insertTopics_cons s id b p ps with ⟨e, _, _, h⟩ | ⟨t, ht, h⟩
    · rw [h, ih]
      cases b <;> rfl
    · rw [h, ih, ht.heap]

theorem insertTopics_fst_congr {s t : ClientState} (hheap : s.heap = t.heap)
    (hmap : s.subscriptionMap = t.subscriptionMap) (id' : UInt16) (b b' : Bool)
    (ps : List SubscriptionPtr) :
    (insertTopics id b ps s).1 = (insertTopics id' b' ps t).1 := by
  induction ps generalizing s t with
  | nil => rfl
  | cons p ps ih =>
    have hdelete : ∀ (u : ClientState) (b : Bool) (id : UInt16),
        (deleteAck u b id).heap = u.heap ∧
          (deleteAck u b id).subscriptionMap = u.subscriptionMap := by
      intro u b id
      cases b <;> exact ⟨rfl, rfl⟩
    unfold insertTopics
    simp only [hheap, hmap]
    split
    · split_ifs
      · exact ih (by rw [(hdelete s b id).1, (hdelete t b' id').1, hheap])
          (by rw [(hdelete s b id).2, (hdelete t b' id').2, hmap])
      · simp only [List.cons.injEq, true_and]
        exact ih hheap (by simp [ClientState.insertTopic, ClientState.eraseTopic, hmap])
    · simp only [List.cons.injEq, true_and]
      exact ih hheap (by simp [ClientState.insertTopic, hmap])

end Topics

/-! ### What an action writes of the core -/

/-- The pending ack of one id is all of the core that may change. -/
structure WritesAck (i : UInt16) (s t : ClientState) : Prop where
  core : t.toClientCoreState = { s.toClientCoreState with pendingAckMap := t.pendingAckMap }
  others : ∀ j, j ≠ i → t.pendingAckMap.find j = s.pendingAckMap.find j

section WritesAck

variable {s t u : ClientState} {i : UInt16}

theorem writesAck_of_core (h : t.toClientCoreState = s.toClientCoreState) : WritesAck i s t := by
  refine ⟨?_, fun j _ => ?_⟩
  · rw [h]
  · rw [h]

theorem WritesAck.trans (h : WritesAck i s t) (h' : WritesAck i t u) : WritesAck i s u := by
  refine ⟨?_, fun j hj => ?_⟩
  · rw [h'.core, h.core]
  · rw [h'.others j hj, h.others j hj]

theorem WritesAck.ackCalls (h : WritesAck i s t) : t.ackCalls = s.ackCalls := by
  rw [h.core]

theorem writesAck_registerAck (s : ClientState) (i : UInt16) (h : Option AsyncAckHandler) :
    WritesAck i s (registerAck s i h).2.2 := by
  cases h with
  | none => exact writesAck_of_core rfl
  | some h => exact ⟨rfl, fun j hj => SortedMap.find_insert_of_ne s.pendingAckMap hj _⟩

theorem writesAck_deleteAck (s : ClientState) (b : Bool) (i : UInt16) :
    WritesAck i s (deleteAck s b i) := by
  cases b with
  | false => exact writesAck_of_core rfl
  | true => exact ⟨rfl, fun j hj => SortedMap.find_erase_of_ne s.pendingAckMap hj⟩

theorem writesAck_insertTopics (i : UInt16) (b : Bool) (ps : List SubscriptionPtr)
    (s : ClientState) : WritesAck i s (SubscribeActionAsync.insertTopics i b ps s).2 := by
  induction ps generalizing s with
  | nil => exact writesAck_of_core rfl
  | cons p ps ih =>
    rcases insertTopics_cons s i b p ps with ⟨e, -, -, hskip⟩ | ⟨t, ht, hinsert⟩
    · rw [hskip]
      exact (writesAck_deleteAck s b i).trans (ih _)
    · rw [hinsert]
      exact (writesAck_of_core ht.core).trans (ih t)

theorem WritesAck.deleteAck_of_failed (h : WritesAck i s t) (rc : ResponseCode) (b : Bool) :
    WritesAck i s (if rc ≠ .success then deleteAck t b i else t) := by
  split_ifs
  · exact h.trans (writesAck_deleteAck t b i)
  · exact h

variable {σ : Type} [NetworkConnection σ]

/-- The three ways out of a CONNECT: the network connect fails, the write fails, or the packet
is sent. -/
theorem performPacket_cases (s : ClientState) (c : σ) (p : ConnectPacket) :
    let a := registerAck s ConnectActionAsync.connackReservedPacketId p.pAsyncAckHandler
    let t := a.2.2.setKeepAliveTimeout p.keepAliveTimeout
    let k := NetworkConnection.connect c
    let w := writeToNetworkBuffer false k.2 p.toString
    (k.1 ≠ .success ∧ ConnectActionAsync.performPacket s c p = (k.1, t, k.2)) ∨
      (k.1 = .success ∧ w.1 ≠ .success ∧ ConnectActionAsync.performPacket s c p =
        (w.1, deleteAck t a.2.1 ConnectActionAsync.connackReservedPacketId,
          (NetworkConnection.disconnect w.2).2)) ∨
      (k.1 = .success ∧ w.1 = .success ∧ ConnectActionAsync.performPacket s c p =
        (.success, t.setDisconnectCallbackPending true, w.2)) := by
  intro a t k w
  have hperform : ConnectActionAsync.performPacket s c p =
      if k.1 ≠ .success then (k.1, t, k.2)
      else if w.1 ≠ .success then
        (w.1, deleteAck t a.2.1 ConnectActionAsync.connackReservedPacketId,
          (NetworkConnection.disconnect w.2).2)
      else (w.1, t.setDisconnectCallbackPending true, w.2) := rfl
  rw [hperform]
  by_cases hk : k.1 = .success
  · rw [if_neg (not_not.mpr hk)]
    by_cases hw : w.1 = .success
    · rw [if_neg (not_not.mpr hw), hw]
      exact .inr (.inr ⟨hk, rfl, rfl⟩)
    · rw [if_pos hw]
      exact .inr (.inl ⟨hk, hw, rfl⟩)
  · rw [if_pos hk]
    exact .inl ⟨hk, rfl⟩

theorem writesAck_performPacket (s : ClientState) (c : σ) (p : ConnectPacket) :
    WritesAck ConnectActionAsync.connackReservedPacketId s
      (ConnectActionAsync.performPacket s c p).2.1 := by
  have hregister := writesAck_registerAck s ConnectActionAsync.connackReservedPacketId
    p.pAsyncAckHandler
  have htimeout : WritesAck ConnectActionAsync.connackReservedPacketId s
      ((registerAck s ConnectActionAsync.connackReservedPacketId
        p.pAsyncAckHandler).2.2.setKeepAliveTimeout p.keepAliveTimeout) :=
    hregister.trans (writesAck_of_core rfl)
  rcases performPacket_cases s c p with ⟨-, h⟩ | ⟨-, -, h⟩ | ⟨-, -, h⟩
  · rw [h]
    exact htimeout
  · rw [h]
    exact htimeout.trans (writesAck_deleteAck _ _ _)
  · rw [h]
    exact htimeout.trans (writesAck_of_core rfl)

theorem writesAck_connect (s : ClientState) (c : σ) (data : ActionData) :
    WritesAck ConnectActionAsync.connackReservedPacketId s
      (ConnectActionAsync.performAction s c data).state := by
  have hpacket : ∀ p : ConnectPacket, WritesAck ConnectActionAsync.connackReservedPacketId s
      (ConnectActionAsync.performPacket (s.setAutoReconnectData p) c p).2.1 := by
    intro p
    have hset : WritesAck ConnectActionAsync.connackReservedPacketId s
        (s.setAutoReconnectData p) := writesAck_of_core rfl
    exact hset.trans (writesAck_performPacket (s.setAutoReconnectData p) c p)
  unfold ConnectActionAsync.performAction
  dsimp only
  split
  · exact writesAck_of_core rfl
  · exact hpacket _

/-- A disconnect only stops the processing of the queue. -/
theorem disconnect_core (s : ClientState) (c : σ) (data : ActionData) :
    (DisconnectActionAsync.performAction s c data).state.toClientCoreState =
      if s.isConnected then s.setProcessQueuedActions false else s.toClientCoreState := by
  unfold DisconnectActionAsync.performAction
  by_cases hc : s.isConnected = true
  · simp only [hc, Bool.not_true, Bool.false_eq_true, if_false, if_true]
    exact deactivate_core (s.setConnected false)
  · simp only [hc, Bool.not_false, if_true, Bool.false_eq_true, if_false]

theorem writesAck_publish (s : ClientState) (c : σ) (data : ActionData) :
    WritesAck data.getActionId s (PublishActionAsync.performAction s c data).state := by
  cases data with
  | publish p =>
    have hregister : WritesAck p.packetId s (if p.qos ≠ .qos0 then
        registerAck s p.packetId p.pAsyncAckHandler else (.success, false, s)).2.2 := by
      split_ifs
      · exact writesAck_registerAck s p.packetId p.pAsyncAckHandler
      · exact writesAck_of_core rfl
    exact hregister.deleteAck_of_failed _ _
  | connect p | disconnect p | puback p | subscribe p | unsubscribe p =>
    exact writesAck_of_core rfl

/-- The two ways out of a SUBSCRIBE: the write fails and the topics that were stored go
again, or the packet with the topics that are left is sent. -/
theorem subscribe_cases (s : ClientState) (c : σ) (p : SubscribePacket) :
    let a := registerAck s p.packetId p.pAsyncAckHandler
    let i := SubscribeActionAsync.insertTopics p.packetId a.2.1 p.subscriptionList a.2.2
    let q := { p with subscriptionList := i.1 }
    let u := { i.2 with heap := (q.toString i.2.heap).2 }
    let w := if 0 < i.1.length then writeToNetworkBuffer false c (q.toString i.2.heap).1
      else (a.1, c)
    (w.1 ≠ .success ∧ SubscribeActionAsync.performAction s c (.subscribe p) =
        ⟨w.1, deleteAck (SubscribeActionAsync.eraseTopics u i.1) a.2.1 p.packetId, w.2,
          .subscribe q⟩) ∨
      (w.1 = .success ∧ SubscribeActionAsync.performAction s c (.subscribe p) =
        ⟨.success, u, w.2, .subscribe q⟩) := by
  intro a i q u w
  have hperform : SubscribeActionAsync.performAction s c (.subscribe p) =
      if w.1 ≠ .success then
        ⟨w.1, deleteAck (SubscribeActionAsync.eraseTopics u i.1) a.2.1 p.packetId, w.2,
          .subscribe q⟩
      else ⟨.success, u, w.2, .subscribe q⟩ := rfl
  rw [hperform]
  by_cases hw : w.1 = .success
  · rw [if_neg (not_not.mpr hw)]
    exact .inr ⟨hw, rfl⟩
  · rw [if_pos hw]
    exact .inl ⟨hw, rfl⟩

theorem writesAck_subscribe (s : ClientState) (c : σ) (data : ActionData) :
    WritesAck data.getActionId s (SubscribeActionAsync.performAction s c data).state := by
  cases data with
  | subscribe p =>
    let r := registerAck s p.packetId p.pAsyncAckHandler
    let i := SubscribeActionAsync.insertTopics p.packetId r.2.1 p.subscriptionList r.2.2
    have hinsert : WritesAck p.packetId s i.2 :=
      (writesAck_registerAck s p.packetId p.pAsyncAckHandler).trans
        (writesAck_insertTopics p.packetId r.2.1 p.subscriptionList r.2.2)
    have hheap : ∀ heap, WritesAck p.packetId s { i.2 with heap := heap } := fun heap =>
      hinsert.trans (writesAck_of_core rfl)
    have herase : ∀ t : ClientState,
        WritesAck p.packetId t (SubscribeActionAsync.eraseTopics t i.1) := fun t =>
      writesAck_of_core (eraseTopics_core t i.1)
    rcases subscribe_cases s c p with ⟨-, h⟩ | ⟨-, h⟩
    · rw [h]
      exact (hheap _).trans ((herase _).trans (writesAck_deleteAck _ _ _))
    · rw [h]
      exact hheap _
  | connect p | disconnect p | publish p | puback p | unsubscribe p =>
    exact writesAck_of_core rfl

theorem writesAck_unsubscribe (s : ClientState) (c : σ) (data : ActionData) :
    WritesAck data.getActionId s (UnsubscribeActionAsync.performAction s c data).state := by
  cases data with
  | unsubscribe p =>
    have hregister := writesAck_registerAck s p.packetId p.pAsyncAckHandler
    have htagged := hregister.trans (writesAck_of_core (foldl_setSubscriptionPacketInfo_core
      (registerAck s p.packetId p.pAsyncAckHandler).2.2 p.topicList p.packetId))
    exact htagged.deleteAck_of_failed _ _
  | connect p | disconnect p | publish p | puback p | subscribe p =>
    exact writesAck_of_core rfl

end WritesAck

end AwsIotSdk
