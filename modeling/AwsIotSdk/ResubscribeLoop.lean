import AwsIotSdk.OutboundFrames
import AwsIotSdk.SubscribeAcks

/-! The SUBSCRIBE packets the keepalive loop writes after an accepted reconnect. Each
carries the next entries of the map, and the places of the entries are those of the
packets written so far. -/

namespace AwsIotSdk

open ClientState AwsIotSdk.Action

/-- A SUBSCRIBE as the loop gave it to the connection. -/
structure ResubscribeWrite where
  packet : SubscribePacket
  packetData : Bytes
  rc : ResponseCode

/-- `written` records the writes, oldest first; it is no part of the source. -/
structure ResubscribeState (σ : Type) where
  rc : ResponseCode
  state : ClientState
  connection : σ
  written : List ResubscribeWrite

namespace KeepaliveActionRunner

variable {σ : Type} [NetworkConnection σ]

def writePacket (threadContinue : Bool) (p : SubscribePacket) (r : ResubscribeState σ) :
    ResubscribeState σ :=
  let (id, s) := r.state.getNextPacketId
  let p := { p with toPacket := p.toPacket.setPacketId id }
  let (packetData, heap) := p.toString s.heap
  let (rc, c) := writeToNetworkBuffer threadContinue r.connection packetData
  ⟨rc, { s with heap := heap }, c, r.written ++ [⟨p, packetData, rc⟩]⟩

/-- The pointer the factory returns is used without a test. -/
def writeTopics (threadContinue : Bool) (topicVector : List SubscriptionPtr)
    (r : ResubscribeState σ) : Except Fault (ResubscribeState σ) :=
  match SubscribePacket.create r.state.heap topicVector with
  | none => .error .nullDereference
  | some p => .ok (writePacket threadContinue p r)

/-- The loop over the map, with the topics it has gathered for the next packet. -/
def resubscribeLoop (threadContinue : Bool) :
    List (Bytes × SubscriptionPtr) → List SubscriptionPtr → ResubscribeState σ →
      Except Fault (List SubscriptionPtr × ResubscribeState σ)
  | [], topicVector, r => .ok (topicVector, r)
  | e :: es, topicVector, r =>
    let topicVector := topicVector ++ [e.2]
    if topicVector.length = maxTopicsInOneSubscribePacket then
      match writeTopics threadContinue topicVector r with
      | .error f => .error f
      | .ok r =>
        if r.rc ≠ .success then .ok (topicVector, r) else resubscribeLoop threadContinue es [] r
    else resubscribeLoop threadContinue es topicVector r

def resubscribe (threadContinue : Bool) (s : ClientState) (c : σ) :
    Except Fault (ResubscribeState σ) :=
  let r : ResubscribeState σ := ⟨.mqttConnackConnectionAccepted, s, c, []⟩
  match resubscribeLoop threadContinue s.subscriptionMap.entries [] r with
  | .error f => .error f
  | .ok (topicVector, r) =>
    if (r.rc = .success ∨ r.rc = .mqttConnackConnectionAccepted) ∧ topicVector ≠ [] then
      writeTopics threadContinue topicVector r
    else .ok r

theorem writeTopics_eq {topicVector : List SubscriptionPtr} (hne : topicVector ≠ [])
    (hlen : topicVector.length ≤ maxTopicsInOneSubscribePacket) (threadContinue : Bool)
    (r : ResubscribeState σ) : writeTopics threadContinue topicVector r =
      .ok (writePacket threadContinue (SubscribePacket.init r.state.heap topicVector) r) := by
  rw [writeTopics, SubscribePacket.create, if_neg (not_or.mpr ⟨hne, Nat.not_lt.mpr hlen⟩)]

end KeepaliveActionRunner

/-! ### The ids a client draws -/

namespace ClientState

theorem toNat_nextPacketId (last : UInt16) :
    (nextPacketId last).toNat = last.toNat % 65535 + 1 := by
  have hlt := last.toNat_lt
  rw [nextPacketId]
  split_ifs with hlast
  · rw [hlast]
    rfl
  · have hne : last.toNat ≠ 65535 := fun h => hlast (UInt16.toNat_inj.mp h)
    rw [UInt16.toNat_add, UInt16.toNat_one]
    omega

theorem nextPacketId_ne_zero (last : UInt16) : nextPacketId last ≠ 0 := by
  intro h
  have hzero := congrArg UInt16.toNat h
  rw [toNat_nextPacketId, UInt16.toNat_zero] at hzero
  omega

/-- The next ids after the last one that was sent. -/
def drawnIds : UInt16 → Nat → List UInt16
  | _, 0 => []
  | last, n + 1 => nextPacketId last :: drawnIds (nextPacketId last) n

theorem drawnIds_succ (last : UInt16) (n : Nat) :
    drawnIds last (n + 1) = drawnIds last n ++ [nextPacketId (nextPacketId^[n] last)] := by
  induction n generalizing last with
  | zero => rfl
  | succ n ih =>
    rw [drawnIds, ih, drawnIds, Function.iterate_succ_apply]
    rfl

theorem mem_drawnIds {last id : UInt16} {n : Nat} (h : id ∈ drawnIds last n) :
    ∃ i < n, id.toNat = (last.toNat + i) % 65535 + 1 := by
  induction n generalizing last with
  | zero => cases h
  | succ n ih =>
    rcases List.mem_cons.mp h with hid | hid
    · exact ⟨0, Nat.succ_pos n, by rw [hid, toNat_nextPacketId, last.toNat.add_zero]⟩
    · obtain ⟨i, hi, hvalue⟩ := ih hid
      refine ⟨i + 1, Nat.succ_lt_succ hi, ?_⟩
      rw [hvalue, toNat_nextPacketId]
      omega

theorem nodup_drawnIds {last : UInt16} {n : Nat} (h : n ≤ 65535) : (drawnIds last n).Nodup := by
  induction n generalizing last with
  | zero => exact List.nodup_nil
  | succ n ih =>
    refine List.nodup_cons.mpr ⟨?_, ih (by omega)⟩
    intro hmem
    obtain ⟨i, hi, hvalue⟩ := mem_drawnIds hmem
    have hpos := toNat_nextPacketId last
    omega

theorem ne_zero_of_mem_drawnIds {last id : UInt16} {n : Nat} (h : id ∈ drawnIds last n) :
    id ≠ 0 := by
  obtain ⟨i, -, hvalue⟩ := mem_drawnIds h
  intro hzero
  rw [hzero, UInt16.toNat_zero] at hvalue
  omega

end ClientState

/-! ### The places of a packet -/

abbrev tagOf (heap : SubscriptionHeap) (p : SubscriptionPtr) : UInt16 × UInt8 :=
  ((heap p).packetId, (heap p).indexInPacket)

def places {α : Type} (packetId : UInt16) : List α → UInt8 → List (UInt16 × UInt8)
  | [], _ => []
  | _ :: xs, index => (packetId, index) :: places packetId xs (index + 1)

theorem appendTopics_tags (packetId : UInt16) {ps : List SubscriptionPtr} (hps : ps.Nodup)
    (index : UInt8) (heap : SubscriptionHeap) (buf : Bytes) :
    ps.map (tagOf (SubscribePacket.appendTopics packetId ps index heap buf).2) =
      places packetId ps index := by
  induction ps generalizing index heap buf with
  | nil => rfl
  | cons p ps ih =>
    obtain ⟨hp, hrest⟩ := List.nodup_cons.mp hps
    have hfirst : ∀ heap' buf', (SubscribePacket.appendTopics packetId ps (index + 1)
        heap' buf').2 p = heap' p := by
      intro heap' buf'
      rw [appendTopics_heap, lastIndex_eq_none.mpr hp]
      rfl
    rw [SubscribePacket.appendTopics, List.map_cons, ih hrest, tagOf, hfirst, Function.update_self]
    rfl

/-- The subscriptions are the same up to their places. -/
def SameButPlaces (heap heap' : SubscriptionHeap) : Prop :=
  ∀ q, ∃ i j, heap' q = (heap q).setAckIndex i j

namespace SameButPlaces

variable {heap heap' : SubscriptionHeap}

theorem refl (heap : SubscriptionHeap) : SameButPlaces heap heap :=
  fun q => ⟨(heap q).packetId, (heap q).indexInPacket, rfl⟩

theorem appendTopics (h : SameButPlaces heap heap') (packetId : UInt16)
    (ps : List SubscriptionPtr) (index : UInt8) (buf : Bytes) :
    SameButPlaces heap (SubscribePacket.appendTopics packetId ps index heap' buf).2 := by
  intro q
  obtain ⟨i, j, hq⟩ := h q
  rw [appendTopics_heap, hq]
  cases lastIndex q ps index with
  | none => exact ⟨i, j, rfl⟩
  | some index => exact ⟨packetId, index, rfl⟩

theorem topicParts (h : SameButPlaces heap heap') (q : SubscriptionPtr) :
    AwsIotSdk.topicParts (heap' q) = AwsIotSdk.topicParts (heap q) := by
  obtain ⟨i, j, hq⟩ := h q
  rw [hq]
  rfl

theorem init (h : SameButPlaces heap heap') (ps : List SubscriptionPtr) :
    SubscribePacket.init heap' ps = SubscribePacket.init heap ps := by
  have hlength : ∀ q, (heap' q).pTopicName.length = (heap q).pTopicName.length := by
    intro q
    obtain ⟨i, j, hq⟩ := h q
    rw [hq]
    rfl
  simp only [SubscribePacket.init, hlength]

end SameButPlaces

/-! ### What a packet carries -/

def ResubscribeWrite.pointers (w : ResubscribeWrite) : List SubscriptionPtr :=
  w.packet.subscriptionList

def ResubscribeWrite.places (w : ResubscribeWrite) : List (UInt16 × UInt8) :=
  AwsIotSdk.places w.packet.packetId w.pointers 1

/-- The packet is a SUBSCRIBE for its subscriptions, and these are its bytes. -/
structure ResubscribeWrite.Frames (heap : SubscriptionHeap) (w : ResubscribeWrite) : Prop where
  packet : w.packet =
    { SubscribePacket.init heap w.pointers with packetId := w.packet.packetId }
  packetData : w.packetData = w.packet.fixedHeader.appendToBuffer [] ++
    (subscribeParts heap w.packet).flatMap BodyPart.written

/-- The state of the loop behind some writes, with the topics gathered and those left. -/
structure Progress {σ : Type} (s : ClientState) (topicVector rest : List SubscriptionPtr)
    (r : ResubscribeState σ) : Prop where
  pointers : r.written.flatMap (·.pointers) ++ (topicVector ++ rest) =
    s.subscriptionMap.entries.map Prod.snd
  sizes : ∀ w ∈ r.written, 1 ≤ w.pointers.length ∧
    w.pointers.length ≤ maxTopicsInOneSubscribePacket
  ids : r.written.map (·.packet.packetId) = drawnIds s.lastSentPacketId r.written.length
  last : r.state.lastSentPacketId = nextPacketId^[r.written.length] s.lastSentPacketId
  map : r.state.subscriptionMap = s.subscriptionMap
  heap : SameButPlaces s.heap r.state.heap
  tags : ∀ w ∈ r.written, w.pointers.map (tagOf r.state.heap) = w.places
  frames : ∀ w ∈ r.written, w.Frames s.heap

namespace Progress

variable {σ : Type} {s : ClientState} {v rest : List SubscriptionPtr} {r : ResubscribeState σ}

theorem start (s : ClientState) (c : σ) :
    Progress s [] (s.subscriptionMap.entries.map Prod.snd)
      (⟨.mqttConnackConnectionAccepted, s, c, []⟩ : ResubscribeState σ) where
  pointers := rfl
  sizes _ h := nomatch h
  ids := rfl
  last := rfl
  map := rfl
  heap := SameButPlaces.refl s.heap
  tags _ h := nomatch h
  frames _ h := nomatch h

theorem gather {p : SubscriptionPtr} (h : Progress s v (p :: rest) r) :
    Progress s (v ++ [p]) rest r :=
  { h with
    pointers := by
      rw [← h.pointers, List.append_assoc v]
      rfl }

/-- Writing the gathered topics draws the next id for them. -/
theorem write {q : SubscribePacket} {t : ClientState} (hs : s.Keyed) (h : Progress s v rest r)
    (hv : v ≠ []) (hlen : v.length ≤ maxTopicsInOneSubscribePacket)
    (hq : q = { SubscribePacket.init r.state.heap v with
      packetId := nextPacketId r.state.lastSentPacketId })
    (ht : t = { r.state with
      lastSentPacketId := q.packetId
      heap := (q.toString r.state.heap).2 }) (rc : ResponseCode) (c : σ) :
    Progress s [] rest ⟨rc, t, c, r.written ++ [⟨q, (q.toString r.state.heap).1, rc⟩]⟩ := by
  have hnodup : (r.written.flatMap (·.pointers) ++ (v ++ rest)).Nodup :=
    h.pointers ▸ hs.nodup_pointers
  obtain ⟨-, hvrest, hdisjoint⟩ := List.nodup_append.mp hnodup
  have hlist : q.subscriptionList = v := by rw [hq]; rfl
  have hid : q.packetId = nextPacketId (nextPacketId^[r.written.length] s.lastSentPacketId) := by
    rw [hq, ← h.last]
  have hwritten : List.flatMap ResubscribeWrite.pointers
      (r.written ++ [⟨q, (q.toString r.state.heap).1, rc⟩]) =
      r.written.flatMap (·.pointers) ++ v := by
    rw [List.flatMap_append, ← hlist]
    exact congrArg (_ ++ ·) (List.append_nil _)
  have hold : ∀ p ∈ r.written.flatMap (·.pointers), t.heap p = r.state.heap p := by
    intro p hp
    have hnot : p ∉ v := fun hmem => hdisjoint p hp p (List.mem_append_left rest hmem) rfl
    rw [ht]
    change (SubscribePacket.appendTopics q.packetId q.subscriptionList 1 _ _).2 p = _
    rw [hlist, appendTopics_heap, lastIndex_eq_none.mpr hnot]
    rfl
  refine ⟨?_, ?_, ?_, ?_, ?_, ?_, ?_, ?_⟩
  · rw [hwritten, ← h.pointers, List.append_assoc]
    rfl
  · intro w hw
    rcases List.mem_append.mp hw with hw | hw
    · exact h.sizes w hw
    · rw [List.mem_singleton.mp hw, ResubscribeWrite.pointers, hlist]
      exact ⟨List.length_pos_iff.mpr hv, hlen⟩
  · rw [List.map_append, h.ids, List.length_append, List.map_singleton, hid]
    exact (drawnIds_succ _ _).symm
  · rw [List.length_append, ht]
    exact hid.trans (Function.iterate_succ_apply' _ _ _).symm
  · rw [ht]
    exact h.map
  · rw [ht]
    exact h.heap.appendTopics _ _ _ _
  · intro w hw
    rcases List.mem_append.mp hw with hw | hw
    · rw [← h.tags w hw]
      refine List.map_congr_left (fun p hp => ?_)
      rw [tagOf, hold p (List.mem_flatMap.mpr ⟨w, hw, hp⟩)]
    · rw [List.mem_singleton.mp hw, ResubscribeWrite.places, ResubscribeWrite.pointers, ht]
      change q.subscriptionList.map (tagOf
        (SubscribePacket.appendTopics q.packetId q.subscriptionList 1 _ _).2) = _
      rw [hlist, appendTopics_tags _ (List.nodup_append.mp hvrest).1]
  · intro w hw
    rcases List.mem_append.mp hw with hw | hw
    · exact h.frames w hw
    · rw [List.mem_singleton.mp hw]
      refine ⟨?_, ?_⟩
      · rw [ResubscribeWrite.pointers, hlist, ← h.heap.init, hq]
      · rw [toString_subscribePacket, subscribeParts, subscribeParts]
        simp only [h.heap.topicParts]

theorem writeTopics [NetworkConnection σ] (hs : s.Keyed) (h : Progress s v rest r) (hv : v ≠ [])
    (hlen : v.length ≤ maxTopicsInOneSubscribePacket) (threadContinue : Bool) :
    ∃ r' w, KeepaliveActionRunner.writeTopics threadContinue v r = .ok r' ∧
      Progress s [] rest r' ∧ r'.written = r.written ++ [w] ∧ w.rc = r'.rc ∧ w.pointers = v :=
  ⟨_, _, KeepaliveActionRunner.writeTopics_eq hv hlen threadContinue r,
    h.write hs hv hlen rfl rfl _ _, rfl, rfl, rfl⟩

/-- The loop over the map stops at a failed write or behind the last entry. -/
theorem resubscribeLoop [NetworkConnection σ] (hs : s.Keyed)
    {es : List (Bytes × SubscriptionPtr)} (h : Progress s v (es.map Prod.snd) r)
    (hv : v.length < maxTopicsInOneSubscribePacket)
    (hfull : ∀ w ∈ r.written, w.pointers.length = maxTopicsInOneSubscribePacket)
    (hrc : r.rc = .success ∨ r.rc = .mqttConnackConnectionAccepted) (threadContinue : Bool) :
    ∃ v' r', KeepaliveActionRunner.resubscribeLoop threadContinue es v r = .ok (v', r') ∧
      ((v' ≠ [] ∧ v'.length ≤ maxTopicsInOneSubscribePacket ∧
          ∃ w ∈ r'.written, w.rc ≠ .success) ∨
        Progress s v' [] r' ∧ v'.length < maxTopicsInOneSubscribePacket ∧
          (∀ w ∈ r'.written, w.pointers.length = maxTopicsInOneSubscribePacket) ∧
          (r'.rc = .success ∨ r'.rc = .mqttConnackConnectionAccepted)) := by
  induction es generalizing v r with
  | nil => exact ⟨v, r, rfl, .inr ⟨h, hv, hfull, hrc⟩⟩
  | cons e es ih =>
    have hnext : (v ++ [e.2]).length = v.length + 1 := List.length_append
    rw [KeepaliveActionRunner.resubscribeLoop]
    split_ifs with hlen
    · obtain ⟨r', w, hwrite, hprogress, hwritten, hwrc, hpointers⟩ :=
        h.gather.writeTopics hs (by simp) (by omega) threadContinue
      have hmem : w ∈ r'.written := by
        rw [hwritten]
        exact List.mem_append_right _ List.mem_cons_self
      rw [hwrite]
      by_cases hok : r'.rc = .success
      · have hfull' : ∀ w ∈ r'.written, w.pointers.length = maxTopicsInOneSubscribePacket := by
          intro u hu
          rw [hwritten] at hu
          rcases List.mem_append.mp hu with hu | hu
          · exact hfull u hu
          · rw [List.mem_singleton.mp hu, hpointers, hlen]
        simp only [hok, ne_eq, not_true_eq_false, if_false]
        exact ih hprogress (by decide) hfull' (.inl hok)
      · simp only [hok, ne_eq, not_false_eq_true, if_true]
        exact ⟨_, r', rfl, .inl ⟨by simp, Nat.le_of_eq hlen, w, hmem, by rwa [hwrc]⟩⟩
    · exact ih h.gather (by omega) hfull hrc

end Progress

/-! ### The packets of one resubscribe -/

def ResubscribeWrite.topics (heap : SubscriptionHeap) (w : ResubscribeWrite) :
    List (Bytes × QoS) :=
  w.pointers.map (fun q => (topicOf heap q, (heap q).maxQos))

/-- The packets split the map into eights and a rest, under ids of their own. -/
structure CoversOnce (s : ClientState) (written : List ResubscribeWrite) : Prop where
  sizes : ∀ w ∈ written, 1 ≤ w.pointers.length ∧
    w.pointers.length ≤ maxTopicsInOneSubscribePacket
  full : ∀ w ∈ written.dropLast, w.pointers.length = maxTopicsInOneSubscribePacket
  ids : (∀ w ∈ written, w.packet.packetId ≠ 0) ∧
    (written.length ≤ 65535 → (written.map (·.packet.packetId)).Nodup)
  topics : written.flatMap (·.topics s.heap) =
    s.subscriptionMap.entries.map (fun e => (e.1, (s.heap e.2).maxQos))
  once : ∀ k u, s.subscriptionAt k = some u →
    ∃! i : Nat, ∃ w, written[i]? = some w ∧ (k, u.maxQos) ∈ w.topics s.heap
  frames : ∀ w ∈ written, w.Frames s.heap

theorem existsUnique_of_mem_flatMap {α β : Type} {f : α → List β} {xs : List α} {b : β}
    (hnodup : (xs.flatMap f).Nodup) (hb : b ∈ xs.flatMap f) :
    ∃! i : Nat, ∃ x, xs[i]? = some x ∧ b ∈ f x := by
  obtain ⟨x, hx, hbx⟩ := List.mem_flatMap.mp hb
  obtain ⟨i, hi⟩ := List.mem_iff_getElem?.mp hx
  refine ⟨i, ⟨x, hi, hbx⟩, ?_⟩
  intro j hj
  obtain ⟨y, hy, hby⟩ := hj
  obtain ⟨-, hdisjoint⟩ := List.nodup_flatMap.mp hnodup
  obtain ⟨hilt, hi⟩ := List.getElem?_eq_some_iff.mp hi
  obtain ⟨hjlt, hy⟩ := List.getElem?_eq_some_iff.mp hy
  rcases Nat.lt_trichotomy j i with hlt | heq | hlt
  · have hpair := List.pairwise_iff_getElem.mp hdisjoint j i hjlt hilt hlt
    rw [hy, hi] at hpair
    exact absurd hbx (hpair hby)
  · exact heq
  · have hpair := List.pairwise_iff_getElem.mp hdisjoint i j hilt hjlt hlt
    rw [hy, hi] at hpair
    exact absurd hby (hpair hbx)

theorem Progress.pointers_eq {σ : Type} {s : ClientState} {r : ResubscribeState σ}
    (h : Progress s [] [] r) :
    r.written.flatMap (·.pointers) = s.subscriptionMap.entries.map Prod.snd := by
  rw [← h.pointers]
  exact (List.append_nil _).symm

theorem Progress.packetId_ne_zero {σ : Type} {s : ClientState} {v rest : List SubscriptionPtr}
    {r : ResubscribeState σ} (h : Progress s v rest r) {w : ResubscribeWrite}
    (hw : w ∈ r.written) : w.packet.packetId ≠ 0 := by
  have hdrawn := List.mem_map_of_mem (f := (·.packet.packetId)) hw
  rw [h.ids] at hdrawn
  exact ne_zero_of_mem_drawnIds hdrawn

theorem Progress.nodup_ids {σ : Type} {s : ClientState} {v rest : List SubscriptionPtr}
    {r : ResubscribeState σ} (h : Progress s v rest r) (hlen : r.written.length ≤ 65535) :
    (r.written.map (·.packet.packetId)).Nodup := by
  rw [h.ids]
  exact nodup_drawnIds hlen

theorem Progress.coversOnce {σ : Type} {s : ClientState} {r : ResubscribeState σ} (hs : s.Keyed)
    (h : Progress s [] [] r)
    (hfull : ∀ w ∈ r.written.dropLast, w.pointers.length = maxTopicsInOneSubscribePacket) :
    CoversOnce s r.written := by
  have htopics : r.written.flatMap (·.topics s.heap) =
      s.subscriptionMap.entries.map (fun e => (e.1, (s.heap e.2).maxQos)) := by
    have hmap := congrArg (List.map (fun q => (topicOf s.heap q, (s.heap q).maxQos)))
      h.pointers_eq
    rw [List.map_flatMap, List.map_map] at hmap
    refine hmap.trans (List.map_congr_left ?_)
    intro e he
    have hkey := hs e.1 e.2 ((s.subscriptionMap.mem_entries_iff).mp he)
    exact congrArg (·, (s.heap e.2).maxQos) hkey
  have hnodup : (r.written.flatMap (·.topics s.heap)).Nodup := by
    have hkeys : (s.subscriptionMap.entries.map Prod.fst).Nodup :=
      List.pairwise_map.mpr (s.subscriptionMap.sorted.imp (fun h => ne_of_lt h))
    rw [htopics]
    refine List.Nodup.of_map Prod.fst ?_
    rw [List.map_map]
    exact hkeys
  refine ⟨h.sizes, hfull, ⟨fun _ hw => h.packetId_ne_zero hw, h.nodup_ids⟩, htopics, ?_, h.frames⟩
  intro k u hu
  obtain ⟨p, hp, rfl⟩ := subscriptionAt_eq_some.mp hu
  refine existsUnique_of_mem_flatMap hnodup ?_
  rw [htopics]
  exact List.mem_map.mpr ⟨(k, p), (s.subscriptionMap.mem_entries_iff).mpr hp, rfl⟩

theorem progress_resubscribe {σ : Type} [NetworkConnection σ] {s : ClientState} (hs : s.Keyed)
    (c : σ) (threadContinue : Bool) :
    ∃ r, KeepaliveActionRunner.resubscribe threadContinue s c = .ok r ∧
      ((∀ w ∈ r.written, w.rc = .success) → Progress s [] [] r ∧
        ∀ w ∈ r.written.dropLast, w.pointers.length = maxTopicsInOneSubscribePacket) := by
  obtain ⟨v, r, hloop, hend⟩ := (Progress.start s c).resubscribeLoop hs (by decide)
    (fun _ h => nomatch h) (.inr rfl) threadContinue
  rw [KeepaliveActionRunner.resubscribe, hloop]
  dsimp only
  rcases hend with ⟨hv, hlen, w, hw, hfail⟩ | ⟨hprogress, hlen, hfull, hrc⟩
  · split_ifs
    · rw [KeepaliveActionRunner.writeTopics_eq hv hlen]
      refine ⟨_, rfl, fun hok => absurd (hok w ?_) hfail⟩
      exact List.mem_append_left _ hw
    · exact ⟨r, rfl, fun hok => absurd (hok w hw) hfail⟩
  · by_cases hv : v = []
    · rw [if_neg (fun h => h.2 hv)]
      refine ⟨r, rfl, fun _ => ⟨hv ▸ hprogress, ?_⟩⟩
      exact fun w hw => hfull w (List.mem_of_mem_dropLast hw)
    · rw [if_pos ⟨hrc, hv⟩]
      obtain ⟨r', w, hwrite, hprogress', hwritten, -, -⟩ :=
        hprogress.writeTopics hs hv (Nat.le_of_lt hlen) threadContinue
      refine ⟨r', hwrite, fun _ => ⟨hprogress', ?_⟩⟩
      rw [hwritten, List.dropLast_concat]
      exact hfull

end AwsIotSdk
