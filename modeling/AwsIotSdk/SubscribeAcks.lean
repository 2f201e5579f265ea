import AwsIotSdk.PendingAcks
import AwsIotSdk.StreamConnection
import AwsIotSdk.SubscriptionView

/-! From a SUBSCRIBE to its SUBACK. Sending writes the place of every topic into its
subscription, and a code of the SUBACK finds the one that has its place. -/

namespace AwsIotSdk

open ClientState SubscribeActionAsync AwsIotSdk.Action

abbrev topicOf (heap : SubscriptionHeap) (p : SubscriptionPtr) : Bytes :=
  (heap p).pTopicName.toStdString

/-- The last subscription of a list for a topic. -/
def lastWithTopic (heap : SubscriptionHeap) (k : Bytes) :
    List SubscriptionPtr → Option SubscriptionPtr
  | [] => none
  | p :: ps => (lastWithTopic heap k ps).or (if topicOf heap p = k then some p else none)

def lastIndex (p : SubscriptionPtr) : List SubscriptionPtr → UInt8 → Option UInt8
  | [], _ => none
  | q :: qs, index => (lastIndex p qs (index + 1)).or (if q = p then some index else none)

/-! ### Places in the list -/

section Places

variable {heap : SubscriptionHeap} {k : Bytes} {p q : SubscriptionPtr}
  {ps : List SubscriptionPtr}

theorem lastWithTopic_eq_some (h : lastWithTopic heap k ps = some p) :
    p ∈ ps ∧ topicOf heap p = k := by
  induction ps with
  | nil => cases h
  | cons q ps ih =>
    rw [lastWithTopic] at h
    rcases Option.or_eq_some_iff.mp h with h | ⟨-, h⟩
    · obtain ⟨hmem, htopic⟩ := ih h
      exact ⟨List.mem_cons_of_mem q hmem, htopic⟩
    · split_ifs at h with hq
      cases h
      exact ⟨List.mem_cons_self, hq⟩

theorem lastWithTopic_eq_none (h : ∀ q ∈ ps, topicOf heap q ≠ k) :
    lastWithTopic heap k ps = none := by
  induction ps with
  | nil => rfl
  | cons q ps ih =>
    obtain ⟨hq, hps⟩ := List.forall_mem_cons.mp h
    rw [lastWithTopic, ih hps, if_neg hq]
    rfl

theorem lastWithTopic_of_getElem? {n : Nat} (h : ps[n]? = some q)
    (hlast : ∀ m q', n < m → ps[m]? = some q' → topicOf heap q' ≠ topicOf heap q) :
    lastWithTopic heap (topicOf heap q) ps = some q := by
  induction ps generalizing n with
  | nil => simp at h
  | cons p ps ih =>
    cases n with
    | zero =>
      rw [List.getElem?_cons_zero, Option.some.injEq] at h
      subst h
      have hrest : ∀ q' ∈ ps, topicOf heap q' ≠ topicOf heap p := by
        intro q' hq'
        obtain ⟨m, hm⟩ := List.mem_iff_getElem?.mp hq'
        exact hlast (m + 1) q' (Nat.succ_pos m) hm
      rw [lastWithTopic, lastWithTopic_eq_none hrest, if_pos rfl]
      rfl
    | succ n =>
      have hrest := ih h (fun m q' hm hq' => hlast (m + 1) q' (Nat.succ_lt_succ hm) hq')
      rw [lastWithTopic, hrest]
      rfl

theorem lastIndex_eq_none {index : UInt8} : lastIndex p ps index = none ↔ p ∉ ps := by
  induction ps generalizing index with
  | nil => simp [lastIndex]
  | cons q ps ih =>
    rw [lastIndex, Option.or_eq_none_iff, ih, List.mem_cons, not_or]
    by_cases hq : q = p
    · simp [hq]
    · simp [hq, Ne.symm hq]

theorem toNat_add_one {index : UInt8} (h : index.toNat < 255) :
    (index + 1).toNat = index.toNat + 1 := by
  rw [UInt8.toNat_add]
  exact Nat.mod_eq_of_lt (show index.toNat + 1 < 256 by omega)

theorem lastIndex_eq_some {index j : UInt8} (hlen : index.toNat + ps.length ≤ 256)
    (h : lastIndex p ps index = some j) :
    ∃ n, ps[n]? = some p ∧ j.toNat = index.toNat + n := by
  induction ps generalizing index with
  | nil => cases h
  | cons q ps ih =>
    rw [List.length_cons] at hlen
    rw [lastIndex] at h
    rcases Option.or_eq_some_iff.mp h with h | ⟨-, h⟩
    · cases ps with
      | nil => cases h
      | cons q' ps =>
        rw [List.length_cons] at hlen
        have hnext : (index + 1).toNat = index.toNat + 1 := toNat_add_one (by omega)
        obtain ⟨n, hn, hj⟩ := ih (by rw [List.length_cons]; omega) h
        exact ⟨n + 1, hn, by omega⟩
    · split_ifs at h with hq
      cases h
      exact ⟨0, by rw [hq]; rfl, rfl⟩

theorem lastIndex_of_getElem? {n : Nat} {index : UInt8} (hlen : index.toNat + ps.length ≤ 256)
    (h : ps[n]? = some p) (hlast : ∀ m, n < m → ps[m]? ≠ some p) :
    ∃ j, lastIndex p ps index = some j ∧ j.toNat = index.toNat + n := by
  induction ps generalizing n index with
  | nil => simp at h
  | cons q ps ih =>
    rw [List.length_cons] at hlen
    cases n with
    | zero =>
      rw [List.getElem?_cons_zero, Option.some.injEq] at h
      have hnot : p ∉ ps := by
        intro hmem
        obtain ⟨m, hm⟩ := List.mem_iff_getElem?.mp hmem
        exact hlast (m + 1) (Nat.succ_pos m) hm
      rw [lastIndex, lastIndex_eq_none.mpr hnot, if_pos h]
      exact ⟨index, rfl, rfl⟩
    | succ n =>
      have hpos : 0 < ps.length := by
        obtain ⟨hlt, -⟩ := List.getElem?_eq_some_iff.mp h
        rw [List.length_cons] at hlt
        omega
      have hnext : (index + 1).toNat = index.toNat + 1 := toNat_add_one (by omega)
      have hrest : (index + 1).toNat + ps.length ≤ 256 := by omega
      obtain ⟨j, hj, hvalue⟩ := ih hrest h
        (fun m hm => hlast (m + 1) (Nat.succ_lt_succ hm))
      rw [lastIndex, hj]
      exact ⟨j, rfl, by omega⟩

end Places

/-! ### Sending -/

section Sending

variable {s : ClientState} {ps : List SubscriptionPtr}

/-- The map after the loop holds the last of the subscriptions it kept for a topic. -/
theorem find_insertTopics (s : ClientState) (packetId : UInt16) (b : Bool)
    (ps : List SubscriptionPtr) (k : Bytes) :
    (insertTopics packetId b ps s).2.subscriptionMap.find k =
      (lastWithTopic s.heap k (insertTopics packetId b ps s).1).or
        (s.subscriptionMap.find k) := by
  induction ps generalizing s with
  | nil => rfl
  | cons p ps ih =>
    rcases insertTopics_cons s packetId b p ps with ⟨e, -, -, hskip⟩ | ⟨t, ht, hinsert⟩
    · rw [hskip, ih]
      cases b <;> rfl
    · rw [hinsert]
      dsimp only
      rw [ih, ht.heap, lastWithTopic, Option.or_assoc]
      by_cases hk : topicOf s.heap p = k
      · subst hk
        rw [if_pos rfl, ht.self]
        rfl
      · rw [if_neg hk, ht.others k (Ne.symm hk)]
        rfl

theorem insertTopics_of_noTopicActive (packetId : UInt16) (b : Bool) (h : NoTopicActive s ps) :
    (insertTopics packetId b ps s).1 = ps := by
  induction ps generalizing s with
  | nil => rfl
  | cons p ps ih =>
    rcases insertTopics_cons s packetId b p ps with ⟨e, hfind, he, -⟩ | ⟨t, ht, hinsert⟩
    · have hinactive := h.1 p List.mem_cons_self e hfind
      rw [he] at hinactive
      cases hinactive
    · rw [hinsert]
      exact congrArg (p :: ·) (ih ((ht.noTopicActive_cons ps).mp h))

/-- The topic is in the list and has no active entry, so the loop stores it. -/
def Stores (s : ClientState) (ps : List SubscriptionPtr) (k : Bytes) : Prop :=
  (∃ p ∈ ps, topicOf s.heap p = k) ∧
    ∀ u, s.subscriptionAt k = some u → u.isActive = false

theorem stores_of_mem_insertTopics {packetId : UInt16} {b : Bool} {p : SubscriptionPtr}
    (h : p ∈ (insertTopics packetId b ps s).1) : Stores s ps (topicOf s.heap p) := by
  induction ps generalizing s with
  | nil => cases h
  | cons q ps ih =>
    have hlist : ∀ {ps' : List SubscriptionPtr} {k : Bytes}, (∃ p ∈ ps', topicOf s.heap p = k) →
        ∃ p ∈ q :: ps', topicOf s.heap p = k :=
      fun ⟨p, hp, hk⟩ => ⟨p, List.mem_cons_of_mem q hp, hk⟩
    rcases insertTopics_cons s packetId b q ps with ⟨e, -, -, hskip⟩ | ⟨t, ht, hinsert⟩
    · rw [hskip] at h
      have hrest := ih h
      cases b <;> exact ⟨hlist hrest.1, hrest.2⟩
    · rw [hinsert] at h
      have hinactive : ∀ u, s.subscriptionAt (topicOf s.heap q) = some u → u.isActive = false := by
        intro u hu
        obtain ⟨e, he, rfl⟩ := subscriptionAt_eq_some.mp hu
        exact ht.inactive e he
      rcases List.mem_cons.mp h with rfl | hp
      · exact ⟨⟨p, List.mem_cons_self, rfl⟩, hinactive⟩
      · obtain ⟨hmem, hrest⟩ := ih hp
        rw [ht.heap] at hmem hrest
        refine ⟨hlist hmem, ?_⟩
        by_cases hk : topicOf s.heap p = topicOf s.heap q
        · rw [hk]
          exact hinactive
        · intro u hu
          refine hrest u ?_
          rw [subscriptionAt, ht.others _ hk, ht.heap]
          exact hu

theorem appendTopics_heap (packetId : UInt16) (index : UInt8) (heap : SubscriptionHeap)
    (buf : Bytes) (q : SubscriptionPtr) :
    (SubscribePacket.appendTopics packetId ps index heap buf).2 q =
      ((lastIndex q ps index).map ((heap q).setAckIndex packetId)).getD (heap q) := by
  induction ps generalizing index heap buf with
  | nil => rfl
  | cons p ps ih =>
    rw [SubscribePacket.appendTopics, ih, lastIndex]
    by_cases hq : p = q
    · subst hq
      rw [Function.update_self, if_pos rfl]
      cases lastIndex p ps (index + 1) <;> rfl
    · rw [Function.update_of_ne (Ne.symm hq), if_neg hq, Option.or_none]

theorem registerAck_subscriptions (s : ClientState) (i : UInt16) (h : Option AsyncAckHandler) :
    (registerAck s i h).2.2.subscriptionMap = s.subscriptionMap ∧
      (registerAck s i h).2.2.heap = s.heap := by
  cases h <;> exact ⟨rfl, rfl⟩

theorem deleteAck_subscriptions (s : ClientState) (b : Bool) (i : UInt16) :
    (deleteAck s b i).subscriptionMap = s.subscriptionMap ∧ (deleteAck s b i).heap = s.heap := by
  cases b <;> exact ⟨rfl, rfl⟩

/-- The map and the objects after a list was sent. -/
structure Sent (s : ClientState) (packetId : UInt16) (ps : List SubscriptionPtr)
    (t : ClientState) : Prop where
  find : ∀ k, t.subscriptionMap.find k =
    (lastWithTopic s.heap k ps).or (s.subscriptionMap.find k)
  heap : ∀ q, t.heap q =
    ((lastIndex q ps 1).map ((s.heap q).setAckIndex packetId)).getD (s.heap q)

/-- The map and the objects after a list was not sent. -/
structure NotSent (s : ClientState) (packetId : UInt16) (ps : List SubscriptionPtr)
    (t : ClientState) : Prop where
  find : ∀ k, t.subscriptionMap.find k =
    if ∃ p ∈ ps, topicOf s.heap p = k then none else s.subscriptionMap.find k
  heap : ∀ q, t.heap q =
    ((lastIndex q ps 1).map ((s.heap q).setAckIndex packetId)).getD (s.heap q)

theorem find_eraseTopics (s : ClientState) (ps : List SubscriptionPtr) (k : Bytes) :
    (eraseTopics s ps).subscriptionMap.find k =
      if ∃ p ∈ ps, topicOf s.heap p = k then none else s.subscriptionMap.find k := by
  induction ps generalizing s with
  | nil => simp [eraseTopics]
  | cons p ps ih =>
    have hnext : (eraseTopics s (p :: ps)) = eraseTopics (s.eraseTopic (topicOf s.heap p)) ps := rfl
    have hheap : (s.eraseTopic (topicOf s.heap p)).heap = s.heap := rfl
    rw [hnext, ih, hheap]
    by_cases hps : ∃ q ∈ ps, topicOf s.heap q = k
    · obtain ⟨q, hq, hk⟩ := hps
      rw [if_pos ⟨q, hq, hk⟩, if_pos ⟨q, List.mem_cons_of_mem p hq, hk⟩]
    · rw [if_neg hps]
      by_cases hk : topicOf s.heap p = k
      · rw [if_pos ⟨p, List.mem_cons_self, hk⟩, eraseTopic, hk, SortedMap.find_erase_self]
      · rw [if_neg, eraseTopic, SortedMap.find_erase_of_ne _ (Ne.symm hk)]
        simp only [List.mem_cons, exists_eq_or_imp, hk, false_or]
        exact hps

theorem eraseTopics_heap (s : ClientState) (ps : List SubscriptionPtr) :
    (eraseTopics s ps).heap = s.heap := by
  induction ps generalizing s with
  | nil => rfl
  | cons p ps ih => exact ih (s.eraseTopic (topicOf s.heap p))

theorem Sent.topicOf_eq {t : ClientState} {packetId : UInt16} (ht : Sent s packetId ps t)
    (q : SubscriptionPtr) : topicOf t.heap q = topicOf s.heap q := by
  rw [topicOf, ht.heap]
  cases lastIndex q ps 1 <;> rfl

theorem Sent.eraseTopics {t u : ClientState} {packetId : UInt16} (ht : Sent s packetId ps t)
    (hmap : u.subscriptionMap = (eraseTopics t ps).subscriptionMap) (hheap : u.heap = t.heap) :
    NotSent s packetId ps u := by
  refine ⟨?_, ?_⟩
  · intro k
    rw [hmap, find_eraseTopics]
    simp only [ht.topicOf_eq]
    split_ifs with hk
    · rfl
    · rw [ht.find, lastWithTopic_eq_none (fun q hq htopic => hk ⟨q, hq, htopic⟩)]
      rfl
  · intro q
    rw [hheap]
    exact ht.heap q

/-- A SUBSCRIBE stores the topics without an active entry, and a failed write takes them
out again. -/
theorem performAction_subscribe {σ : Type} [NetworkConnection σ] (s : ClientState) (c : σ)
    (p : SubscribePacket) :
    ∃ kept, kept = (insertTopics 0 false p.subscriptionList s).1 ∧
      (∀ q ∈ kept, Stores s p.subscriptionList (topicOf s.heap q)) ∧
      (NoTopicActive s p.subscriptionList → kept = p.subscriptionList) ∧
      ((SubscribeActionAsync.performAction s c (.subscribe p)).rc = .success →
        Sent s p.packetId kept (SubscribeActionAsync.performAction s c (.subscribe p)).state) ∧
      ((SubscribeActionAsync.performAction s c (.subscribe p)).rc ≠ .success →
        NotSent s p.packetId kept
          (SubscribeActionAsync.performAction s c (.subscribe p)).state) := by
  obtain ⟨hmap, hheap⟩ := registerAck_subscriptions s p.packetId p.pAsyncAckHandler
  have hcases := subscribe_cases s c p
  generalize registerAck s p.packetId p.pAsyncAckHandler = r at hmap hheap hcases
  dsimp only at hcases
  have hfind := find_insertTopics r.2.2 p.packetId r.2.1 p.subscriptionList
  have hsame := insertTopics_heap r.2.2 p.packetId r.2.1 p.subscriptionList
  have hstores : ∀ q ∈ (insertTopics p.packetId r.2.1 p.subscriptionList r.2.2).1,
      Stores s p.subscriptionList (topicOf s.heap q) := by
    intro q hq
    have hq := stores_of_mem_insertTopics hq
    rw [Stores, subscriptionAt, hmap, hheap] at hq
    exact hq
  have hkept : NoTopicActive s p.subscriptionList →
      (insertTopics p.packetId r.2.1 p.subscriptionList r.2.2).1 = p.subscriptionList := by
    intro hactive
    refine insertTopics_of_noTopicActive p.packetId r.2.1 ?_
    rw [NoTopicActive, hmap, hheap]
    exact hactive
  have hlist : (insertTopics p.packetId r.2.1 p.subscriptionList r.2.2).1 =
      (insertTopics 0 false p.subscriptionList s).1 :=
    insertTopics_fst_congr p.packetId hheap hmap 0 r.2.1 false p.subscriptionList
  generalize insertTopics p.packetId r.2.1 p.subscriptionList r.2.2 = i
    at hfind hsame hstores hkept hlist hcases
  refine ⟨i.1, hlist, hstores, hkept, ?_⟩
  let u : ClientState := { i.2 with
    heap := (SubscribePacket.toString { p with subscriptionList := i.1 } i.2.heap).2 }
  have hsent : Sent s p.packetId i.1 u := by
    refine ⟨fun k => ?_, fun q => ?_⟩
    · exact (hfind k).trans (by rw [hmap, hheap])
    · show (SubscribePacket.toString { p with subscriptionList := i.1 } i.2.heap).2 q = _
      rw [SubscribePacket.toString, appendTopics_heap, hsame, hheap]
  obtain ⟨hdelmap, hdelheap⟩ := deleteAck_subscriptions (eraseTopics u i.1) r.2.1 p.packetId
  rcases hcases with ⟨hw, h⟩ | ⟨-, h⟩
  · rw [h]
    refine ⟨fun hrc => absurd hrc hw, fun _ => ?_⟩
    exact hsent.eraseTopics hdelmap (hdelheap.trans (eraseTopics_heap u i.1))
  · rw [h]
    exact ⟨fun _ => hsent, fun hrc => absurd rfl hrc⟩

variable {t : ClientState} {packetId : UInt16}

theorem Sent.keyed (ht : Sent s packetId ps t) (hs : s.Keyed) : t.Keyed := by
  intro k p hp
  have htopic := ht.topicOf_eq p
  rw [ht.find] at hp
  rcases Option.or_eq_some_iff.mp hp with hlast | ⟨-, hfind⟩
  · exact htopic.trans (lastWithTopic_eq_some hlast).2
  · exact htopic.trans (hs k p hfind)

/-- A subscription with the id of the packet stands for a place in the list. -/
theorem Sent.place (ht : Sent s packetId ps t) (hs : s.Keyed) (hlen : ps.length ≤ 255)
    (hnew : ∀ k u, s.subscriptionAt k = some u → u.packetId ≠ packetId) {k : Bytes}
    {u : Subscription} (hu : t.subscriptionAt k = some u) (hid : u.packetId = packetId) :
    ∃ n q, ps[n]? = some q ∧ topicOf s.heap q = k ∧ u.indexInPacket.toNat = n + 1 := by
  obtain ⟨p, hp, rfl⟩ := subscriptionAt_eq_some.mp hu
  have htopic : topicOf s.heap p = k := by
    rw [← ht.topicOf_eq]
    exact ht.keyed hs k p hp
  rw [ht.heap] at hid ⊢
  cases hindex : lastIndex p ps 1 with
  | none =>
    rw [hindex] at hid
    have hnot := lastIndex_eq_none.mp hindex
    rw [ht.find] at hp
    rcases Option.or_eq_some_iff.mp hp with hlast | ⟨-, hfind⟩
    · exact absurd (lastWithTopic_eq_some hlast).1 hnot
    · exact absurd hid (hnew k (s.heap p) (subscriptionAt_eq_some.mpr ⟨p, hfind, rfl⟩))
  | some j =>
    obtain ⟨n, hn, hj⟩ := lastIndex_eq_some (show (1 : UInt8).toNat + ps.length ≤ 256 by
      change 1 + ps.length ≤ 256
      omega) hindex
    refine ⟨n, p, hn, htopic, ?_⟩
    change j.toNat = n + 1
    change j.toNat = 1 + n at hj
    omega

theorem Sent.tagsUnique (ht : Sent s packetId ps t) (hs : s.Keyed) (hlen : ps.length ≤ 255)
    (hnew : ∀ k u, s.subscriptionAt k = some u → u.packetId ≠ packetId) :
    t.TagsUnique packetId := by
  intro index k k' u u' hu hu' hin hin'
  obtain ⟨hid, hindex⟩ := Subscription.isInSuback_iff.mp hin
  obtain ⟨hid', hindex'⟩ := Subscription.isInSuback_iff.mp hin'
  obtain ⟨n, q, hq, htopic, hn⟩ := ht.place hs hlen hnew hu hid
  obtain ⟨n', q', hq', htopic', hn'⟩ := ht.place hs hlen hnew hu' hid'
  obtain rfl : n = n' := by
    rw [hindex] at hn
    rw [hindex'] at hn'
    omega
  obtain rfl : q = q' := Option.some.inj (hq.symm.trans hq')
  exact htopic.symm.trans htopic'

/-- The subscription for a topic of the list has its last place. -/
theorem Sent.subscriptionAt_last (ht : Sent s packetId ps t) (hlen : ps.length ≤ 255) {n : Nat}
    {q : SubscriptionPtr} (hq : ps[n]? = some q)
    (hlast : ∀ m q', n < m → ps[m]? = some q' → topicOf s.heap q' ≠ topicOf s.heap q) :
    ∃ j, t.subscriptionAt (topicOf s.heap q) = some ((s.heap q).setAckIndex packetId j) ∧
      j.toNat = n + 1 := by
  have hone : (1 : UInt8).toNat = 1 := rfl
  have hpointer : ∀ m, n < m → ps[m]? ≠ some q := fun m hm hq' => hlast m q hm hq' rfl
  have hfits : (1 : UInt8).toNat + ps.length ≤ 256 := by omega
  obtain ⟨j, hj, hvalue⟩ := lastIndex_of_getElem? hfits hq hpointer
  have hfind : t.subscriptionMap.find (topicOf s.heap q) = some q := by
    rw [ht.find, lastWithTopic_of_getElem? hq hlast]
    rfl
  refine ⟨j, subscriptionAt_eq_some.mpr ⟨q, hfind, ?_⟩, by omega⟩
  rw [ht.heap, hj]
  rfl

theorem Sent.subscriptionAt_other (ht : Sent s packetId ps t) (hs : s.Keyed) {k : Bytes}
    (hk : ∀ q ∈ ps, topicOf s.heap q ≠ k) : t.subscriptionAt k = s.subscriptionAt k := by
  have hfind : t.subscriptionMap.find k = s.subscriptionMap.find k := by
    rw [ht.find, lastWithTopic_eq_none hk]
    rfl
  rw [subscriptionAt, subscriptionAt, hfind]
  cases hp : s.subscriptionMap.find k with
  | none => rfl
  | some p =>
    have hnot : p ∉ ps := fun hmem => hk p hmem (hs k p hp)
    rw [Option.map_some, Option.map_some, ht.heap, lastIndex_eq_none.mpr hnot]
    rfl

end Sending

/-! ### The SUBACK -/

/-- The code handed on for the packet, from the codes of its topics. -/
def subackResult (codes : Bytes) : ResponseCode :=
  if codes.any grants then
    if codes.any (· = 128) then .mqttSubscribePartiallyFailed else .success
  else .mqttSubscribeFailed

theorem handleSuback_eq (s : ClientState) (packetId : UInt16) (codes : Bytes) :
    NetworkRead.handleSuback s (Packet.appendUInt16ToBuffer [] packetId ++ codes) =
      .ok (subackResult codes, (answerTopics packetId codes 0 s).mapCore
        (·.forwardReceivedAck packetId (subackResult codes))) := by
  have hread : Packet.readUInt16FromBuffer (Packet.appendUInt16ToBuffer [] packetId ++ codes) 0 =
      .ok (packetId, 2) := by
    change Except.ok (Packet.toUInt16 _ _, 2) = _
    rw [Packet.toUInt16_bytes]
  have hcreate : SubackPacket.create (Packet.appendUInt16ToBuffer [] packetId ++ codes) =
      .ok (some { Packet.init .suback false .qos0 false
          (Packet.appendUInt16ToBuffer [] packetId ++ codes).length with
        packetId := packetId
        subackList := codes }) := by
    rw [SubackPacket.create, if_neg (by simp [Packet.appendUInt16ToBuffer]), SubackPacket.ofBuffer,
      hread]
    rfl
  rw [NetworkRead.handleSuback, hcreate]
  change Except.ok (_, _) = _
  simp only [handleSubackCodes_eq, Bool.false_or]
  cases hs : codes.any grants <;> cases hf : codes.any (· = 128) <;> simp [subackResult, hs, hf]

end AwsIotSdk
