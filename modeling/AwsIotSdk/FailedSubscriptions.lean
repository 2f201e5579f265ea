import AwsIotSdk.FailedRequests
import AwsIotSdk.SubscriptionTags

/-! The subscription map after a SUBSCRIBE or an UNSUBSCRIBE that failed. Both write
to the map ahead of the network, and only some of it is undone. -/

namespace AwsIotSdk

open ClientState SubscribeActionAsync AwsIotSdk.Action

structure SameSubscriptions (s t : ClientState) : Prop where
  find : ∀ k, t.subscriptionMap.find k = s.subscriptionMap.find k
  heap : ∀ k e, s.subscriptionMap.find k = some e → t.heap e = s.heap e

theorem setAckIndex_eq_self_iff {u : Subscription} {packetId : UInt16} {index : UInt8} :
    u.setAckIndex packetId index = u ↔ u.packetId = packetId ∧ u.indexInPacket = index := by
  constructor
  · intro h
    exact ⟨(congrArg Subscription.packetId h).symm, (congrArg Subscription.indexInPacket h).symm⟩
  · intro h
    obtain ⟨rfl, rfl⟩ := h
    rfl

/-! ### SUBSCRIBE -/

section Subscribe

variable {s t : ClientState} {p : SubscribePacket}

theorem exists_kept_of_stores (packetId : UInt16) (b : Bool) {ps : List SubscriptionPtr}
    {k : Bytes} (h : Stores s ps k) :
    ∃ q ∈ (insertTopics packetId b ps s).1, topicOf s.heap q = k := by
  induction ps generalizing s with
  | nil =>
    obtain ⟨⟨q, hq, -⟩, -⟩ := h
    cases hq
  | cons p ps ih =>
    obtain ⟨⟨q, hq, hk⟩, hinactive⟩ := h
    rcases insertTopics_cons s packetId b p ps with ⟨e, hfind, he, hskip⟩ | ⟨t, ht, hinsert⟩
    · have hne : topicOf s.heap p ≠ k := by
        intro hp
        have hfalse := hinactive (s.heap e) (subscriptionAt_eq_some.mpr ⟨e, hp ▸ hfind, rfl⟩)
        rw [he] at hfalse
        cases hfalse
      have hrest : q ∈ ps := (List.mem_cons.mp hq).resolve_left (fun hqp => hne (hqp ▸ hk))
      rw [hskip]
      cases b with
      | false => exact ih ⟨⟨q, hrest, hk⟩, hinactive⟩
      | true => exact ih (s := deleteAck s true packetId) ⟨⟨q, hrest, hk⟩, hinactive⟩
    · rw [hinsert]
      by_cases hp : topicOf s.heap p = k
      · exact ⟨p, List.mem_cons_self, hp⟩
      · have hrest : q ∈ ps := (List.mem_cons.mp hq).resolve_left (fun hqp => hp (hqp ▸ hk))
        have hstores : Stores t ps k := by
          refine ⟨⟨q, hrest, by rw [ht.heap, hk]⟩, ?_⟩
          intro u hu
          rw [subscriptionAt, ht.others k (Ne.symm hp), ht.heap] at hu
          exact hinactive u hu
        obtain ⟨q', hq', hk'⟩ := ih hstores
        exact ⟨q', List.mem_cons_of_mem p hq', by rw [← ht.heap]; exact hk'⟩

/-- What the erasing undoes: no listed topic has an inactive entry, and no entry stands
for an object of the packet under a name that is not the object's. -/
structure SubscribeUndone (s : ClientState) (p : SubscribePacket) : Prop where
  entries : ∀ q ∈ p.subscriptionList, ∀ u,
    s.subscriptionAt (topicOf s.heap q) = some u → u.isActive = true
  objects : ∀ k e j, s.subscriptionMap.find k = some e →
    lastIndex e (keptTopics s p.subscriptionList) 1 = some j →
      (s.heap e).packetId = p.packetId ∧ (s.heap e).indexInPacket = j

theorem NotSent.sameSubscriptions_iff
    (ht : NotSent s p.packetId (keptTopics s p.subscriptionList) t) :
    SameSubscriptions s t ↔ SubscribeUndone s p := by
  constructor
  · intro h
    refine ⟨?_, ?_⟩
    · intro q hq u hu
      by_contra hinactive
      obtain ⟨e, he, -⟩ := subscriptionAt_eq_some.mp hu
      have hstores : Stores s p.subscriptionList (topicOf s.heap q) := by
        refine ⟨⟨q, hq, rfl⟩, ?_⟩
        intro v hv
        have huv : u = v := Option.some.inj (hu.symm.trans hv)
        rw [← huv]
        exact Bool.eq_false_of_not_eq_true hinactive
      have hkept : ∃ q' ∈ keptTopics s p.subscriptionList, topicOf s.heap q' = topicOf s.heap q :=
        exists_kept_of_stores 0 false hstores
      have hnone := ht.find (topicOf s.heap q)
      rw [if_pos hkept, h.find, he] at hnone
      cases hnone
    · intro k e j he hj
      have hsame := h.heap k e he
      rw [ht.heap, hj] at hsame
      exact setAckIndex_eq_self_iff.mp hsame
  · intro h
    refine ⟨?_, ?_⟩
    · intro k
      rw [ht.find]
      split_ifs with hk
      · obtain ⟨q, hq, rfl⟩ := hk
        obtain ⟨⟨q', hq', htopic⟩, hinactive⟩ := stores_of_mem_insertTopics hq
        cases hfind : s.subscriptionMap.find (topicOf s.heap q) with
        | none => rfl
        | some e =>
          have hu : s.subscriptionAt (topicOf s.heap q) = some (s.heap e) :=
            subscriptionAt_eq_some.mpr ⟨e, hfind, rfl⟩
          have hactive := h.entries q' hq' (s.heap e) (htopic ▸ hu)
          rw [hinactive (s.heap e) hu] at hactive
          cases hactive
      · rfl
    · intro k e he
      rw [ht.heap]
      cases hj : lastIndex e (keptTopics s p.subscriptionList) 1 with
      | none => rfl
      | some j => exact setAckIndex_eq_self_iff.mpr (h.objects k e j he hj)

/-- Where every entry stands under its object's name, the entries decide. -/
theorem ClientState.Keyed.subscribeUndone_iff (hs : s.Keyed) :
    SubscribeUndone s p ↔ ∀ q ∈ p.subscriptionList, ∀ u,
      s.subscriptionAt (topicOf s.heap q) = some u → u.isActive = true := by
  refine ⟨fun h => h.entries, fun h => ⟨h, ?_⟩⟩
  intro k e j he hj
  have hmem : e ∈ keptTopics s p.subscriptionList := by
    by_contra hnot
    rw [lastIndex_eq_none.mpr hnot] at hj
    cases hj
  obtain ⟨⟨q, hq, htopic⟩, hinactive⟩ := stores_of_mem_insertTopics hmem
  have hu : s.subscriptionAt (topicOf s.heap e) = some (s.heap e) :=
    subscriptionAt_eq_some.mpr ⟨e, by rw [topicOf, hs k e he]; exact he, rfl⟩
  have hactive := h q hq (s.heap e) (htopic ▸ hu)
  rw [hinactive (s.heap e) hu] at hactive
  cases hactive

end Subscribe

/-! ### UNSUBSCRIBE -/

section Unsubscribe

variable {s : ClientState}

theorem setSubscriptionPacketInfo_map (s : ClientState) (k : Bytes) (packetId : UInt16)
    (index : UInt8) :
    (s.setSubscriptionPacketInfo k packetId index).subscriptionMap = s.subscriptionMap := by
  rw [setSubscriptionPacketInfo]
  cases s.subscriptionMap.find k <;> rfl

theorem setSubscriptionPacketInfo_heap (s : ClientState) (k : Bytes) (packetId : UInt16)
    (index : UInt8) (e : SubscriptionPtr) :
    (s.setSubscriptionPacketInfo k packetId index).heap e =
      if s.subscriptionMap.find k = some e then (s.heap e).setAckIndex packetId index
      else s.heap e := by
  rw [setSubscriptionPacketInfo]
  cases hfind : s.subscriptionMap.find k with
  | none => rfl
  | some q =>
    by_cases hq : q = e
    · subst hq
      rw [if_pos rfl]
      exact Function.update_self _ _ _
    · rw [if_neg (fun h => hq (Option.some.inj h))]
      exact Function.update_of_ne (Ne.symm hq) _ _

theorem foldl_setSubscriptionPacketInfo (s : ClientState) (topics : List Utf8String)
    (packetId : UInt16) :
    let t := topics.foldl (fun s t => s.setSubscriptionPacketInfo t.toStdString packetId 0) s
    t.subscriptionMap = s.subscriptionMap ∧ ∀ e, t.heap e =
      if ∃ k ∈ topics.map Utf8String.toStdString, s.subscriptionMap.find k = some e then
        (s.heap e).setAckIndex packetId 0
      else s.heap e := by
  induction topics generalizing s with
  | nil => exact ⟨rfl, fun e => by simp⟩
  | cons t topics ih =>
    obtain ⟨hmap, hheap⟩ := ih (s.setSubscriptionPacketInfo t.toStdString packetId 0)
    refine ⟨hmap.trans (setSubscriptionPacketInfo_map s _ packetId 0), fun e => ?_⟩
    rw [List.foldl_cons, hheap, setSubscriptionPacketInfo_map, setSubscriptionPacketInfo_heap]
    by_cases ht : s.subscriptionMap.find t.toStdString = some e
    · simp [ht, Subscription.setAckIndex]
    · simp [ht]

/-- No tag is taken back, so the entries of the listed topics have it already. -/
def UnsubscribeUndone (s : ClientState) (p : UnsubscribePacket) : Prop :=
  ∀ k ∈ listed p, ∀ u, s.subscriptionAt k = some u →
    u.packetId = p.packetId ∧ u.indexInPacket = 0

theorem sameSubscriptions_unsubscribe_iff {t : ClientState} {p : UnsubscribePacket}
    (hmap : t.subscriptionMap = s.subscriptionMap)
    (hheap : ∀ e, t.heap e =
      if ∃ k ∈ listed p, s.subscriptionMap.find k = some e then
        (s.heap e).setAckIndex p.packetId 0
      else s.heap e) :
    SameSubscriptions s t ↔ UnsubscribeUndone s p := by
  constructor
  · intro h k hk u hu
    obtain ⟨e, he, rfl⟩ := subscriptionAt_eq_some.mp hu
    have hsame := h.heap k e he
    rw [hheap, if_pos ⟨k, hk, he⟩] at hsame
    exact setAckIndex_eq_self_iff.mp hsame
  · intro h
    refine ⟨fun k => by rw [hmap], fun k e _ => ?_⟩
    rw [hheap]
    split_ifs with hk
    · obtain ⟨k', hk', he⟩ := hk
      exact setAckIndex_eq_self_iff.mpr
        (h k' hk' (s.heap e) (subscriptionAt_eq_some.mpr ⟨e, he, rfl⟩))
    · rfl

end Unsubscribe

/-! ### Both -/

variable {σ : Type} [NetworkConnection σ]

def LeavesSubscriptions (kind : ActionKind) (s : ClientState) (c : σ) (data : ActionData) :
    Prop :=
  (kind.performAction s c data).rc ≠ .success →
    SameSubscriptions s (kind.performAction s c data).state

def Undone (kind : ActionKind) (s : ClientState) (data : ActionData) : Prop :=
  match kind, data with
  | .subscribe, .subscribe p => SubscribeUndone s p
  | .unsubscribe, .unsubscribe p => UnsubscribeUndone s p
  | _, _ => True

/-- What a SUBSCRIBE sends: the topics that are left, and nothing when none is. -/
theorem subscribe_sends (s : ClientState) (c : σ) (p : SubscribePacket) :
    let kept := keptTopics s p.subscriptionList
    let packetData := (SubscribePacket.toString { p with subscriptionList := kept } s.heap).1
    let w := if 0 < kept.length then writeToNetworkBuffer false c packetData else (.success, c)
    (SubscribeActionAsync.performAction s c (.subscribe p)).rc = w.1 ∧
      (SubscribeActionAsync.performAction s c (.subscribe p)).connection = w.2 := by
  obtain ⟨hmap, hheap⟩ := registerAck_subscriptions s p.packetId p.pAsyncAckHandler
  let r := registerAck s p.packetId p.pAsyncAckHandler
  have hrc : r.1 = .success := by
    show (registerAck s p.packetId p.pAsyncAckHandler).1 = .success
    cases p.pAsyncAckHandler <;> rfl
  have hkept : (insertTopics p.packetId r.2.1 p.subscriptionList r.2.2).1 =
      keptTopics s p.subscriptionList :=
    insertTopics_fst_congr p.packetId hheap hmap 0 r.2.1 false p.subscriptionList
  have hsame : (insertTopics p.packetId r.2.1 p.subscriptionList r.2.2).2.heap = s.heap :=
    (insertTopics_heap r.2.2 p.packetId r.2.1 p.subscriptionList).trans hheap
  have hcases := subscribe_cases s c p
  dsimp only at hcases
  rw [hkept, hsame, hrc] at hcases
  rcases hcases with ⟨-, h⟩ | ⟨hw, h⟩
  · rw [h]
    exact ⟨rfl, rfl⟩
  · rw [h]
    exact ⟨hw.symm, rfl⟩

theorem subscribe_rc_iff (s : ClientState) (c : σ) (p : SubscribePacket) :
    (SubscribeActionAsync.performAction s c (.subscribe p)).rc ≠ .success ↔
      Refused .subscribe s c (.subscribe p) := by
  rw [(subscribe_sends s c p).1]
  exact subscribe_refused_iff (keptTopics s p.subscriptionList) _

theorem unsubscribe_rc_iff (s : ClientState) (c : σ) (p : UnsubscribePacket) :
    (UnsubscribeActionAsync.performAction s c (.unsubscribe p)).rc ≠ .success ↔
      Refused .unsubscribe s c (.unsubscribe p) := Iff.rfl

theorem subscriptions_of_subscribe (s : ClientState) (c : σ) (p : SubscribePacket)
    (hrc : (SubscribeActionAsync.performAction s c (.subscribe p)).rc ≠ .success) :
    SameSubscriptions s (SubscribeActionAsync.performAction s c (.subscribe p)).state ↔
      SubscribeUndone s p := by
  obtain ⟨kept, rfl, -, -, -, hnot⟩ := performAction_subscribe s c p
  exact NotSent.sameSubscriptions_iff (hnot hrc)

theorem subscriptions_of_unsubscribe (s : ClientState) (c : σ) (p : UnsubscribePacket) :
    SameSubscriptions s (UnsubscribeActionAsync.performAction s c (.unsubscribe p)).state ↔
      UnsubscribeUndone s p := by
  obtain ⟨hregmap, hregheap⟩ := registerAck_subscriptions s p.packetId p.pAsyncAckHandler
  rw [UnsubscribeActionAsync.performAction]
  generalize registerAck s p.packetId p.pAsyncAckHandler = r at hregmap hregheap
  dsimp only
  obtain ⟨hmap, hheap⟩ := foldl_setSubscriptionPacketInfo r.2.2 p.topicList p.packetId
  rw [hregmap, hregheap] at hheap
  rw [hregmap] at hmap
  generalize p.topicList.foldl _ r.2.2 = t at hmap hheap
  split_ifs
  · obtain ⟨hdelmap, hdelheap⟩ := deleteAck_subscriptions t r.2.1 p.packetId
    exact sameSubscriptions_unsubscribe_iff (hdelmap.trans hmap)
      (fun e => by rw [hdelheap]; exact hheap e)
  · exact sameSubscriptions_unsubscribe_iff hmap hheap

theorem leavesSubscriptions_iff (kind : ActionKind) (s : ClientState) (c : σ)
    (data : ActionData) (hk : kind = .subscribe ∨ kind = .unsubscribe) :
    LeavesSubscriptions kind s c data ↔ (Refused kind s c data → Undone kind s data) := by
  have hsame : SameSubscriptions s s := ⟨fun _ => rfl, fun _ _ _ => rfl⟩
  rcases hk with rfl | rfl
  · cases data with
    | subscribe p =>
      show (_ → _) ↔ (_ → SubscribeUndone s p)
      rw [← subscribe_rc_iff]
      exact forall_congr' (subscriptions_of_subscribe s c p)
    | connect p | disconnect p | publish p | puback p | unsubscribe p =>
      exact iff_of_true (fun _ => hsame) (fun _ => True.intro)
  · cases data with
    | unsubscribe p =>
      show (_ → _) ↔ (_ → UnsubscribeUndone s p)
      rw [← unsubscribe_rc_iff]
      exact forall_congr' (fun _ => subscriptions_of_unsubscribe s c p)
    | connect p | disconnect p | publish p | puback p | subscribe p =>
      exact iff_of_true (fun _ => hsame) (fun _ => True.intro)

theorem leavesSubscriptions_iff_subscribe :
    LeavesSubscriptions .subscribe freshClient (⟨false, []⟩ : StreamConnection)
        requestedSubscribe ↔
      (Refused .subscribe freshClient (⟨false, []⟩ : StreamConnection) requestedSubscribe →
        Undone .subscribe freshClient requestedSubscribe) :=
  leavesSubscriptions_iff .subscribe freshClient (⟨false, []⟩ : StreamConnection)
    requestedSubscribe (.inl rfl)

def inactiveClient : ClientState := freshClient.insertTopic [0x61] 0

/-- An entry from an earlier connection: the failed SUBSCRIBE takes it out of the map,
the failed UNSUBSCRIBE leaves its id on it. -/
theorem not_leavesSubscriptions_inactive :
    ¬ LeavesSubscriptions .subscribe inactiveClient (⟨false, []⟩ : StreamConnection)
        (.subscribe (SubscribePacket.init inactiveClient.heap [1])) ∧
      ¬ LeavesSubscriptions .unsubscribe inactiveClient (⟨false, []⟩ : StreamConnection)
        ((ActionData.unsubscribe (UnsubscribePacket.init [freshTopic])).setActionId 7) := by
  refine ⟨fun h => ?_, fun h => ?_⟩
  · have hrc : (SubscribeActionAsync.performAction inactiveClient
        (⟨false, []⟩ : StreamConnection)
        (.subscribe (SubscribePacket.init inactiveClient.heap [1]))).rc ≠ .success := by decide
    have hundone := (subscriptions_of_subscribe _ _ _ hrc).mp (h hrc)
    have hactive := hundone.entries 1 List.mem_cons_self (inactiveClient.heap 0) rfl
    cases hactive
  · have hrc : (UnsubscribeActionAsync.performAction inactiveClient
        (⟨false, []⟩ : StreamConnection) ((ActionData.unsubscribe
          (UnsubscribePacket.init [freshTopic])).setActionId 7)).rc ≠ .success := by decide
    have hundone := (subscriptions_of_unsubscribe _ _ _).mp (h hrc)
    have htag := hundone [0x61] List.mem_cons_self (inactiveClient.heap 0) rfl
    cases htag.1

end AwsIotSdk
