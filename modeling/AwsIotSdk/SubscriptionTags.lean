import AwsIotSdk.ResubscribeLoop

/-! What the operations on the subscription map do to the tags of its entries, the
packet ids by which the acks find them. -/

namespace AwsIotSdk

open ClientState AwsIotSdk.Action

/-- Each entry has the tag it had, or is one of those that got the packet id. -/
structure Tagging (s t : ClientState) (packetId : UInt16) (tagged : Bytes → Prop) : Prop where
  keyed : t.Keyed
  entries : ∀ k u, t.subscriptionAt k = some u →
    (∃ v, s.subscriptionAt k = some v ∧ v.packetId = u.packetId ∧
      v.indexInPacket = u.indexInPacket) ∨ (tagged k ∧ u.packetId = packetId)

section Tags

variable {s t : ClientState} {packetId : UInt16}

theorem Tagging.of_heap {tagged : Bytes → Prop} (hs : s.Keyed)
    (hmap : t.subscriptionMap = s.subscriptionMap)
    (hheap : ∀ q, (t.heap q).pTopicName = (s.heap q).pTopicName ∧
      (t.heap q).packetId = (s.heap q).packetId ∧
      (t.heap q).indexInPacket = (s.heap q).indexInPacket) :
    Tagging s t packetId tagged := by
  refine ⟨?_, ?_⟩
  · intro k q hq
    rw [(hheap q).1]
    exact hs k q (hmap ▸ hq)
  · intro k u hu
    obtain ⟨q, hq, rfl⟩ := subscriptionAt_eq_some.mp hu
    obtain ⟨-, hid, hindex⟩ := hheap q
    exact .inl ⟨s.heap q, subscriptionAt_eq_some.mpr ⟨q, hmap ▸ hq, rfl⟩, hid.symm, hindex.symm⟩

theorem Sent.tagging {ps : List SubscriptionPtr} (ht : Sent s packetId ps t) (hs : s.Keyed) :
    Tagging s t packetId (fun k => ∃ q ∈ ps, topicOf s.heap q = k) := by
  refine ⟨ht.keyed hs, ?_⟩
  intro k u hu
  obtain ⟨q, hq, rfl⟩ := subscriptionAt_eq_some.mp hu
  cases hindex : lastIndex q ps 1 with
  | none =>
    have hnot := lastIndex_eq_none.mp hindex
    rw [ht.find] at hq
    rcases Option.or_eq_some_iff.mp hq with hlast | ⟨-, hfind⟩
    · exact absurd (lastWithTopic_eq_some hlast).1 hnot
    · refine .inl ⟨s.heap q, subscriptionAt_eq_some.mpr ⟨q, hfind, rfl⟩, ?_⟩
      rw [ht.heap, hindex]
      exact ⟨rfl, rfl⟩
  | some j =>
    have hmem : q ∈ ps := by
      by_contra hnot
      rw [lastIndex_eq_none.mpr hnot] at hindex
      cases hindex
    have hkey := ht.keyed hs k q hq
    refine .inr ⟨⟨q, hmem, (ht.topicOf_eq q).symm.trans hkey⟩, ?_⟩
    rw [ht.heap, hindex]
    rfl

theorem NotSent.tagging {ps : List SubscriptionPtr} (ht : NotSent s packetId ps t)
    (hs : s.Keyed) : Tagging s t packetId (fun _ => False) := by
  have hkept : ∀ k q, t.subscriptionMap.find k = some q →
      s.subscriptionMap.find k = some q ∧ t.heap q = s.heap q := by
    intro k q hq
    rw [ht.find] at hq
    split_ifs at hq with hk
    have hnot : q ∉ ps := fun hmem => hk ⟨q, hmem, hs k q hq⟩
    refine ⟨hq, ?_⟩
    rw [ht.heap, lastIndex_eq_none.mpr hnot]
    rfl
  refine ⟨?_, ?_⟩
  · intro k q hq
    obtain ⟨hfind, hheap⟩ := hkept k q hq
    rw [hheap]
    exact hs k q hfind
  · intro k u hu
    obtain ⟨q, hq, rfl⟩ := subscriptionAt_eq_some.mp hu
    obtain ⟨hfind, hheap⟩ := hkept k q hq
    exact .inl ⟨s.heap q, subscriptionAt_eq_some.mpr ⟨q, hfind, rfl⟩, by rw [hheap],
      by rw [hheap]⟩

/-- Only a SUBSCRIBE that was sent leaves its id, on the topics it stored. -/
theorem tagging_subscribe {σ : Type} [NetworkConnection σ] (hs : s.Keyed) (c : σ)
    (p : SubscribePacket) :
    Tagging s (SubscribeActionAsync.performAction s c (.subscribe p)).state p.packetId
      (fun k => (SubscribeActionAsync.performAction s c (.subscribe p)).rc = .success ∧
        Stores s p.subscriptionList k) := by
  obtain ⟨kept, -, hstores, -, hsent, hnot⟩ := performAction_subscribe s c p
  by_cases hrc : (SubscribeActionAsync.performAction s c (.subscribe p)).rc = .success
  · have ht := (hsent hrc).tagging hs
    refine ⟨ht.keyed, fun k u hu => (ht.entries k u hu).imp_right (fun hnew => ?_)⟩
    obtain ⟨⟨q, hq, hk⟩, hid⟩ := hnew
    exact ⟨⟨hrc, hk ▸ hstores q hq⟩, hid⟩
  · have ht := (hnot hrc).tagging hs
    exact ⟨ht.keyed, fun k u hu => (ht.entries k u hu).imp_right (fun h => h.1.elim)⟩

theorem subscriptionAt_setSubscriptionPacketInfo (hs : s.Keyed) (k : Bytes)
    (packetId : UInt16) (index : UInt8) (k' : Bytes) :
    (s.setSubscriptionPacketInfo k packetId index).subscriptionAt k' =
      (s.subscriptionAt k').map (fun u => if k' = k then u.setAckIndex packetId index else u) := by
  rw [setSubscriptionPacketInfo]
  cases hfind : s.subscriptionMap.find k with
  | none =>
    dsimp only
    cases hu : s.subscriptionAt k' with
    | none => rfl
    | some u =>
      have hne : k' ≠ k := by
        intro hk
        rw [hk, subscriptionAt, hfind] at hu
        cases hu
      rw [Option.map_some, if_neg hne]
  | some p =>
    dsimp only
    rw [subscriptionAt_modify hs hfind]
    by_cases hk : k' = k
    · subst hk
      rw [if_pos rfl, subscriptionAt, hfind, Option.map_some, Option.map_some, if_pos rfl]
    · rw [if_neg hk]
      simp [hk]

theorem ClientState.Keyed.setSubscriptionPacketInfo (hs : s.Keyed) (k : Bytes) (packetId : UInt16)
    (index : UInt8) : (s.setSubscriptionPacketInfo k packetId index).Keyed := by
  rw [ClientState.setSubscriptionPacketInfo]
  split
  · exact hs
  · exact hs.modify _ (fun u => rfl)

theorem subscriptionAt_foldl_setSubscriptionPacketInfo (hs : s.Keyed) (topics : List Utf8String)
    (packetId : UInt16) :
    (topics.foldl (fun s t => s.setSubscriptionPacketInfo t.toStdString packetId 0) s).Keyed ∧
      ∀ k, (topics.foldl (fun s t => s.setSubscriptionPacketInfo t.toStdString packetId 0)
          s).subscriptionAt k =
        (s.subscriptionAt k).map (fun u =>
          if k ∈ topics.map Utf8String.toStdString then u.setAckIndex packetId 0 else u) := by
  induction topics generalizing s with
  | nil => exact ⟨hs, fun k => by simp⟩
  | cons t topics ih =>
    obtain ⟨hkeyed, hrest⟩ := ih (hs.setSubscriptionPacketInfo t.toStdString packetId 0)
    refine ⟨hkeyed, ?_⟩
    intro k
    rw [List.foldl_cons, hrest, subscriptionAt_setSubscriptionPacketInfo hs, Option.map_map]
    refine congrArg (Option.map · (s.subscriptionAt k)) (funext fun u => ?_)
    by_cases hk : k = t.toStdString
    · simp [hk, Subscription.setAckIndex]
    · simp [hk]

def listed (p : UnsubscribePacket) : List Bytes := p.topicList.map Utf8String.toStdString

/-- An UNSUBSCRIBE leaves its id on the entries it lists, whether it was sent or not. -/
theorem subscriptionAt_unsubscribe {σ : Type} [NetworkConnection σ] (hs : s.Keyed) (c : σ)
    (p : UnsubscribePacket) :
    (UnsubscribeActionAsync.performAction s c (.unsubscribe p)).state.Keyed ∧
      ∀ k, (UnsubscribeActionAsync.performAction s c (.unsubscribe p)).state.subscriptionAt k =
        (s.subscriptionAt k).map (fun u =>
          if k ∈ listed p then u.setAckIndex p.packetId 0 else u) := by
  obtain ⟨hmap, hheap⟩ := registerAck_subscriptions s p.packetId p.pAsyncAckHandler
  rw [UnsubscribeActionAsync.performAction]
  generalize registerAck s p.packetId p.pAsyncAckHandler = r at hmap hheap
  have hkeyed : r.2.2.Keyed := by
    rw [Keyed, hmap, hheap]
    exact hs
  have hview : ∀ k, r.2.2.subscriptionAt k = s.subscriptionAt k := by
    intro k
    rw [subscriptionAt, subscriptionAt, hmap, hheap]
  obtain ⟨hfold, hentries⟩ :=
    subscriptionAt_foldl_setSubscriptionPacketInfo hkeyed p.topicList p.packetId
  dsimp only
  generalize (p.topicList.foldl (fun s t =>
    s.setSubscriptionPacketInfo t.toStdString p.packetId 0) r.2.2) = u at hfold hentries
  obtain ⟨hdelmap, hdelheap⟩ := deleteAck_subscriptions u r.2.1 p.packetId
  split_ifs
  · refine ⟨?_, ?_⟩
    · rw [Keyed, hdelmap, hdelheap]
      exact hfold
    · intro k
      rw [subscriptionAt, hdelmap, hdelheap, ← hview k]
      exact hentries k
  · exact ⟨hfold, fun k => (hentries k).trans (by rw [hview k, listed])⟩

theorem tagging_unsubscribe {σ : Type} [NetworkConnection σ] (hs : s.Keyed) (c : σ)
    (p : UnsubscribePacket) :
    Tagging s (UnsubscribeActionAsync.performAction s c (.unsubscribe p)).state p.packetId
      (fun k => k ∈ listed p ∧ s.subscriptionMap.contains k = true) := by
  obtain ⟨hkeyed, hview⟩ := subscriptionAt_unsubscribe hs c p
  refine ⟨hkeyed, ?_⟩
  intro k u hu
  rw [hview] at hu
  obtain ⟨v, hv, rfl⟩ := Option.map_eq_some_iff.mp hu
  by_cases hk : k ∈ listed p
  · obtain ⟨q, hq, -⟩ := subscriptionAt_eq_some.mp hv
    rw [if_pos hk]
    refine .inr ⟨⟨hk, ?_⟩, rfl⟩
    rw [SortedMap.contains, hq]
    rfl
  · rw [if_neg hk]
    exact .inl ⟨v, hv, rfl, rfl⟩

/-- The entry has one of the places the codes of a SUBACK go to. -/
def AnsweredPlace (s : ClientState) (packetId : UInt16) (codes : Bytes) (itr : UInt8)
    (k : Bytes) : Prop :=
  ∃ u, s.subscriptionAt k = some u ∧ u.packetId = packetId ∧
    ∃ n < codes.length, u.indexInPacket = itr + 1 + UInt8.ofNat n

theorem tagging_answerTopic (hs : s.Keyed) (packetId : UInt16) (index code : UInt8) :
    Tagging s (s.answerTopic packetId index code) 0
      (fun k => ∃ u, s.subscriptionAt k = some u ∧ u.isInSuback packetId index = true) := by
  refine ⟨hs.answerTopic packetId index code, ?_⟩
  intro k u hu
  cases hfind : s.subscriptionMap.entries.find?
    (fun e => (s.heap e.2).isInSuback packetId index) with
  | none =>
    rw [answerTopic_of_none code hfind] at hu
    exact .inl ⟨u, hu, rfl, rfl⟩
  | some e =>
    obtain ⟨k', p⟩ := e
    have hp := (s.subscriptionMap.mem_entries_iff).mp (List.mem_of_find?_eq_some hfind)
    have hin : (s.heap p).isInSuback packetId index = true :=
      List.find?_some (p := fun e : Bytes × SubscriptionPtr =>
        (s.heap e.2).isInSuback packetId index) hfind
    have hgranted : ∀ q, (s.modify p (·.granted q)).subscriptionAt k = some u →
        (∃ v, s.subscriptionAt k = some v ∧ v.packetId = u.packetId ∧
          v.indexInPacket = u.indexInPacket) ∨
        ((∃ v, s.subscriptionAt k = some v ∧ v.isInSuback packetId index = true) ∧
          u.packetId = 0) := by
      intro q hq
      rw [subscriptionAt_modify hs hp] at hq
      split_ifs at hq with hk
      · cases hq
        exact .inr ⟨⟨s.heap p, hk ▸ subscriptionAt_eq_some.mpr ⟨p, hp, rfl⟩, hin⟩, rfl⟩
      · exact .inl ⟨u, hq, rfl, rfl⟩
    rw [answerTopic, removeSubscription_state hfind, setSubscriptionActive_state _ hfind,
      setSubscriptionActive_state _ hfind] at hu
    split_ifs at hu
    · rw [subscriptionAt_eraseTopic] at hu
      split_ifs at hu
      exact .inl ⟨u, hu, rfl, rfl⟩
    · exact hgranted .qos0 hu
    · exact hgranted .qos1 hu
    · exact .inl ⟨u, hu, rfl, rfl⟩

theorem tagging_answerTopics (hs : s.Keyed) (packetId : UInt16) (codes : Bytes) (itr : UInt8) :
    Tagging s (answerTopics packetId codes itr s) 0 (AnsweredPlace s packetId codes itr) := by
  induction codes generalizing s itr with
  | nil => exact ⟨hs, fun k u hu => .inl ⟨u, hu, rfl, rfl⟩⟩
  | cons code codes ih =>
    have hstep := tagging_answerTopic hs packetId (itr + 1) code
    have hrest := ih hstep.keyed (itr + 1)
    have hfirst : ∀ k v, s.subscriptionAt k = some v →
        v.isInSuback packetId (itr + 1) = true →
        AnsweredPlace s packetId (code :: codes) itr k := by
      intro k v hv hin
      obtain ⟨hid, hindex⟩ := Subscription.isInSuback_iff.mp hin
      exact ⟨v, hv, hid, 0, Nat.succ_pos _, hindex.trans (UInt8.add_zero _).symm⟩
    refine ⟨hrest.keyed, ?_⟩
    intro k u hu
    rcases hrest.entries k u hu with ⟨v, hv, hid, hindex⟩ | ⟨⟨v, hv, hid, n, hn, hindex⟩, hzero⟩
    · rcases hstep.entries k v hv with ⟨w, hw, hwid, hwindex⟩ | ⟨⟨w, hw, hin⟩, hvzero⟩
      · exact .inl ⟨w, hw, hwid.trans hid, hwindex.trans hindex⟩
      · exact .inr ⟨hfirst k w hw hin, hid.symm.trans hvzero⟩
    · refine .inr ⟨?_, hzero⟩
      rcases hstep.entries k v hv with ⟨w, hw, hwid, hwindex⟩ | ⟨⟨w, hw, hin⟩, -⟩
      · refine ⟨w, hw, hwid.trans hid, n + 1, Nat.succ_lt_succ hn, ?_⟩
        rw [hwindex, hindex, UInt8.ofNat_add, UInt8.add_assoc, UInt8.add_comm (UInt8.ofNat n)]
        rfl
      · exact hfirst k w hw hin

theorem subscriptionAt_removeAll (s : ClientState) (packetId : UInt16) (k : Bytes) :
    (s.removeAllSubscriptionsForPacketId packetId).2.subscriptionAt k =
      (s.subscriptionAt k).filter (fun u => u.packetId ≠ packetId) := by
  rw [removeAllSubscriptionsForPacketId, subscriptionAt, SortedMap.find_eraseIf, subscriptionAt]
  cases s.subscriptionMap.find k with
  | none => rfl
  | some q => by_cases hq : (s.heap q).packetId = packetId <;> simp [Option.filter, hq]

theorem tagging_removeAll (hs : s.Keyed) (packetId : UInt16) :
    Tagging s (s.removeAllSubscriptionsForPacketId packetId).2 0 (fun _ => False) := by
  refine ⟨?_, ?_⟩
  · intro k q hq
    rw [removeAllSubscriptionsForPacketId, SortedMap.find_eraseIf] at hq
    exact hs k q (Option.filter_eq_some_iff.mp hq).1
  · intro k u hu
    rw [subscriptionAt_removeAll] at hu
    exact .inl ⟨u, (Option.filter_eq_some_iff.mp hu).1, rfl, rfl⟩

theorem deactivate_heap (s : ClientState) (q : SubscriptionPtr) :
    ∃ b, (DisconnectActionAsync.deactivate s).heap q = (s.heap q).setActive b := by
  rw [DisconnectActionAsync.deactivate]
  generalize s.subscriptionMap.entries = es
  induction es generalizing s with
  | nil => exact ⟨(s.heap q).isActive, rfl⟩
  | cons e es ih =>
    obtain ⟨b, hb⟩ := ih (s.modify e.2 (·.setActive false))
    rw [List.foldl_cons, hb, ClientState.modify]
    dsimp only
    by_cases hq : q = e.2
    · subst hq
      rw [Function.update_self]
      exact ⟨b, rfl⟩
    · rw [Function.update_of_ne hq]
      exact ⟨b, rfl⟩

theorem performAction_disconnect {σ : Type} [NetworkConnection σ] (s : ClientState) (c : σ)
    (data : ActionData) : (DisconnectActionAsync.performAction s c data).state =
      if s.isConnected then DisconnectActionAsync.deactivate (s.setConnected false) else s := by
  cases hcon : s.isConnected <;> simp [DisconnectActionAsync.performAction, hcon]

theorem tagging_disconnect {σ : Type} [NetworkConnection σ] (hs : s.Keyed) (c : σ)
    (data : ActionData) :
    Tagging s (DisconnectActionAsync.performAction s c data).state 0 (fun _ => False) := by
  rw [performAction_disconnect]
  split_ifs
  · refine Tagging.of_heap hs (deactivate_subscriptionMap _) (fun q => ?_)
    obtain ⟨b, hb⟩ := deactivate_heap (s.setConnected false) q
    rw [hb]
    exact ⟨rfl, rfl, rfl⟩
  · exact Tagging.of_heap hs rfl (fun q => ⟨rfl, rfl, rfl⟩)

/-- Writing a SUBSCRIBE of a resubscribe leaves its id on its topics. -/
theorem tagging_writePacket {σ : Type} [NetworkConnection σ] (hs : s.Keyed)
    (threadContinue : Bool) (p : SubscribePacket) {r : ResubscribeState σ} (hr : r.state = s) :
    Tagging s (KeepaliveActionRunner.writePacket threadContinue p r).state
      (nextPacketId s.lastSentPacketId)
      (fun k => ∃ q ∈ p.subscriptionList, topicOf s.heap q = k) := by
  subst hr
  have hmap : (KeepaliveActionRunner.writePacket threadContinue p r).state.subscriptionMap =
      r.state.subscriptionMap := rfl
  have hheap : ∀ q, (KeepaliveActionRunner.writePacket threadContinue p r).state.heap q =
      ((lastIndex q p.subscriptionList 1).map ((r.state.heap q).setAckIndex
        (nextPacketId r.state.lastSentPacketId))).getD (r.state.heap q) :=
    fun q => appendTopics_heap _ _ _ _ q
  have htopic : ∀ q, topicOf (KeepaliveActionRunner.writePacket threadContinue p r).state.heap q =
      topicOf r.state.heap q := by
    intro q
    rw [topicOf, hheap]
    cases lastIndex q p.subscriptionList 1 <;> rfl
  refine ⟨?_, ?_⟩
  · intro k q hq
    exact (htopic q).trans (hs k q hq)
  · intro k u hu
    obtain ⟨q, hq, rfl⟩ := subscriptionAt_eq_some.mp hu
    rw [hmap] at hq
    rw [hheap]
    cases hindex : lastIndex q p.subscriptionList 1 with
    | none => exact .inl ⟨r.state.heap q, subscriptionAt_eq_some.mpr ⟨q, hq, rfl⟩, rfl, rfl⟩
    | some j =>
      refine .inr ⟨⟨q, ?_, hs k q hq⟩, rfl⟩
      by_contra hnot
      rw [lastIndex_eq_none.mpr hnot] at hindex
      cases hindex

end Tags

end AwsIotSdk
