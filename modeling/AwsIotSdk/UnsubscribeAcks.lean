import AwsIotSdk.SubscriptionTags
import AwsIotSdk.Transition

/-! Runs of requests and acks on the subscription map. An UNSUBACK removes the entries
that carry its id, which are those of the UNSUBSCRIBE as long as no other request and no
leftover of an earlier one uses the id or the topics. -/

namespace AwsIotSdk

open ClientState

/-- The client, the ids drawn for requests to come, and the UNSUBSCRIBEs that were sent
and have no ack yet, with their topics. -/
structure SubscriptionRun where
  client : ClientState
  drawn : List UInt16
  outstanding : List (UInt16 × List Bytes)

inductive SubscriptionMove (σ : Type) where
  | draw
  | subscribe (p : SubscribePacket) (c : σ)
  | unsubscribe (p : UnsubscribePacket) (c : σ)
  | suback (packetId : UInt16) (codes : Bytes)
  | unsuback (packetId : UInt16)
  | disconnect (c : σ) (data : ActionData)
  | resubscribe (threadContinue : Bool) (topicVector : List SubscriptionPtr) (c : σ)

namespace SubscriptionRun

def start (client : ClientState) : SubscriptionRun := ⟨client, [], []⟩

def inMap (r : SubscriptionRun) (topicVector : List SubscriptionPtr) : Bool :=
  topicVector.all (fun q => (r.client.subscriptionMap.entries.map Prod.snd).contains q)

section Steps

variable {σ : Type} [NetworkConnection σ]

/-- A request takes an id that was drawn for it. The SUBSCRIBEs of a resubscribe are
steps of their own; each draws its id itself. -/
def step (r : SubscriptionRun) : SubscriptionMove σ → Option SubscriptionRun
  | .draw =>
    let (id, s) := r.client.getNextPacketId
    some { r with client := s, drawn := r.drawn ++ [id] }
  | .subscribe p c =>
    if p.packetId ∈ r.drawn then
      some { r with
        client := (SubscribeActionAsync.performAction r.client c (.subscribe p)).state
        drawn := r.drawn.erase p.packetId }
    else none
  | .unsubscribe p c =>
    if p.packetId ∈ r.drawn then
      let a := UnsubscribeActionAsync.performAction r.client c (.unsubscribe p)
      some {
        client := a.state
        drawn := r.drawn.erase p.packetId
        outstanding :=
          if a.rc = .success then (p.packetId, listed p) :: r.outstanding else r.outstanding }
    else none
  | .suback packetId codes =>
    match NetworkRead.handleSuback r.client (Packet.appendUInt16ToBuffer [] packetId ++ codes) with
    | .error _ => none
    | .ok a => some { r with client := a.2 }
  | .unsuback packetId =>
    match NetworkRead.handleUnsuback r.client (Packet.appendUInt16ToBuffer [] packetId) with
    | .error _ => none
    | .ok a => some { r with
        client := a.2
        outstanding := r.outstanding.filter (fun o => o.1 ≠ packetId) }
  | .disconnect c data =>
    some { r with client := (DisconnectActionAsync.performAction r.client c data).state }
  | .resubscribe threadContinue topicVector c =>
    if r.inMap topicVector then
      match KeepaliveActionRunner.writeTopics threadContinue topicVector
        ⟨.success, r.client, c, []⟩ with
      | .error _ => none
      | .ok t => some { r with client := t.state }
    else none

/-- No request gets the id of an UNSUBSCRIBE that is outstanding or writes to its topics,
and an UNSUBSCRIBE that is sent finds its id on no other topic. -/
def KeepsTags (r : SubscriptionRun) : SubscriptionMove σ → Prop
  | .subscribe p c =>
    (SubscribeActionAsync.performAction r.client c (.subscribe p)).rc = .success →
      ∀ o ∈ r.outstanding, ∀ k, Stores r.client p.subscriptionList k →
        p.packetId ≠ o.1 ∧ k ∉ o.2
  | .unsubscribe p c =>
    (∀ o ∈ r.outstanding, ∀ k ∈ listed p, r.client.subscriptionMap.contains k = true →
      p.packetId ≠ o.1 ∧ k ∉ o.2) ∧
    ((UnsubscribeActionAsync.performAction r.client c (.unsubscribe p)).rc = .success →
      ∀ k u, r.client.subscriptionAt k = some u → k ∉ listed p → u.packetId ≠ p.packetId)
  | .suback packetId codes => ∀ o ∈ r.outstanding, o.1 = packetId → codes.length ≤ 255
  | .resubscribe _ topicVector _ =>
    ∀ o ∈ r.outstanding, ∀ q ∈ topicVector,
      nextPacketId r.client.lastSentPacketId ≠ o.1 ∧ topicOf r.client.heap q ∉ o.2
  | .draw | .unsuback _ | .disconnect _ _ => True

end Steps

end SubscriptionRun

/-- The UNSUBACK for the id removes the topics and leaves all other entries. -/
def RemovesExactly (s : ClientState) (packetId : UInt16) (topics : List Bytes) : Prop :=
  ∃ rc u, NetworkRead.handleUnsuback s (Packet.appendUInt16ToBuffer [] packetId) = .ok (rc, u) ∧
    ∀ k, u.subscriptionAt k = if k ∈ topics then none else s.subscriptionAt k

theorem handleUnsuback_eq (s : ClientState) (packetId : UInt16) :
    NetworkRead.handleUnsuback s (Packet.appendUInt16ToBuffer [] packetId) =
      .ok (.success, (s.removeAllSubscriptionsForPacketId packetId).2.mapCore
        (·.forwardReceivedAck packetId .success)) := by
  have hread : Packet.readUInt16FromBuffer (Packet.appendUInt16ToBuffer [] packetId) 0 =
      .ok (packetId, 2) := by
    change Except.ok (Packet.toUInt16 _ _, 2) = _
    rw [Packet.toUInt16_bytes]
  have hcreate : UnsubackPacket.create (Packet.appendUInt16ToBuffer [] packetId) =
      .ok (some { Packet.init .unsuback false .qos0 false 2 with packetId := packetId }) := by
    rw [UnsubackPacket.create, if_neg (by simp [Packet.appendUInt16ToBuffer]),
      UnsubackPacket.ofBuffer, hread]
    rfl
  rw [NetworkRead.handleUnsuback, hcreate]
  rfl

theorem removesExactly_iff {s : ClientState} {packetId : UInt16} {topics : List Bytes} :
    RemovesExactly s packetId topics ↔
      ∀ k u, s.subscriptionAt k = some u → (u.packetId = packetId ↔ k ∈ topics) := by
  have hview : ∀ k, ((s.removeAllSubscriptionsForPacketId packetId).2.mapCore
      (·.forwardReceivedAck packetId .success)).subscriptionAt k =
        (s.subscriptionAt k).filter (fun u => u.packetId ≠ packetId) :=
    fun k => subscriptionAt_removeAll s packetId k
  constructor
  · intro h k u hu
    obtain ⟨rc, t, ht, hremoved⟩ := h
    rw [handleUnsuback_eq] at ht
    cases ht
    have hk := hremoved k
    rw [hview, hu] at hk
    by_cases hid : u.packetId = packetId <;> by_cases hmem : k ∈ topics <;>
      simp [Option.filter, hid, hmem] at hk ⊢
  · intro h
    refine ⟨_, _, handleUnsuback_eq s packetId, ?_⟩
    intro k
    rw [hview]
    cases hu : s.subscriptionAt k with
    | none => simp
    | some u =>
      have hiff := h k u hu
      by_cases hid : u.packetId = packetId
      · simp [Option.filter, hid, hiff.mp hid]
      · have hnot : k ∉ topics := fun hmem => hid (hiff.mpr hmem)
        simp [Option.filter, hid, hnot]

namespace SubscriptionRun

/-- What every run keeps that meets the condition. -/
structure Tagged (r : SubscriptionRun) : Prop where
  keyed : r.client.Keyed
  drawn : ∀ id ∈ r.drawn, id ≠ 0
  ids : ∀ o ∈ r.outstanding, o.1 ≠ 0
  tags : ∀ o ∈ r.outstanding, ∀ k u, r.client.subscriptionAt k = some u →
    (u.packetId = o.1 ↔ k ∈ o.2) ∧ (u.packetId = o.1 → u.indexInPacket = 0)

namespace Tagged

variable {r : SubscriptionRun}

/-- Entries may change whose new tag and whose topic no outstanding UNSUBSCRIBE has. -/
theorem of_tagging (h : Tagged r) {t : ClientState} {packetId : UInt16} {tagged : Bytes → Prop}
    {drawn : List UInt16} (ht : Tagging r.client t packetId tagged)
    (hdrawn : ∀ id ∈ drawn, id ≠ 0)
    (htagged : ∀ o ∈ r.outstanding, ∀ k, tagged k → packetId ≠ o.1 ∧ k ∉ o.2) :
    Tagged ⟨t, drawn, r.outstanding⟩ := by
  refine ⟨ht.keyed, hdrawn, h.ids, ?_⟩
  intro o ho k u hu
  rcases ht.entries k u hu with ⟨v, hv, hid, hindex⟩ | ⟨hk, hid⟩
  · rw [← hid, ← hindex]
    exact h.tags o ho k v hv
  · obtain ⟨hne, hmem⟩ := htagged o ho k hk
    have hnot : u.packetId ≠ o.1 := hid ▸ hne
    exact ⟨iff_of_false hnot hmem, fun heq => absurd heq hnot⟩

theorem start {client : ClientState} (h : client.Keyed) : Tagged (start client) :=
  ⟨h, (fun _ h => nomatch h), (fun _ h => nomatch h), (fun _ h => nomatch h)⟩

/-- The new UNSUBSCRIBE is on the entries it lists and on no other. -/
theorem send (h : Tagged r) {t : ClientState} {drawn : List UInt16} {packetId : UInt16}
    {topics : List Bytes} (hold : Tagged ⟨t, drawn, r.outstanding⟩) (hid : packetId ≠ 0)
    (hview : ∀ k, t.subscriptionAt k = (r.client.subscriptionAt k).map (fun u =>
      if k ∈ topics then u.setAckIndex packetId 0 else u))
    (hfresh : ∀ k u, r.client.subscriptionAt k = some u → k ∉ topics → u.packetId ≠ packetId) :
    Tagged ⟨t, drawn, (packetId, topics) :: r.outstanding⟩ := by
  refine ⟨hold.keyed, hold.drawn, List.forall_mem_cons.mpr ⟨hid, h.ids⟩, ?_⟩
  refine List.forall_mem_cons.mpr ⟨?_, hold.tags⟩
  intro k u hu
  rw [hview] at hu
  obtain ⟨v, hv, rfl⟩ := Option.map_eq_some_iff.mp hu
  by_cases hk : k ∈ topics
  · rw [if_pos hk]
    exact ⟨iff_of_true rfl hk, fun _ => rfl⟩
  · rw [if_neg hk]
    have hne := hfresh k v hv hk
    exact ⟨iff_of_false hne hk, fun heq => absurd heq hne⟩

theorem of_subset {s : SubscriptionRun} (h : Tagged r) (hclient : s.client = r.client)
    (hdrawn : s.drawn = r.drawn) (hout : s.outstanding ⊆ r.outstanding) : Tagged s := by
  obtain ⟨t, drawn, outstanding⟩ := s
  cases hclient
  cases hdrawn
  exact ⟨h.keyed, h.drawn, fun o ho => h.ids o (hout ho), fun o ho => h.tags o (hout ho)⟩

/-- A place that codes are for is not that of an entry an UNSUBSCRIBE lists. -/
theorem not_answered (h : Tagged r) {packetId : UInt16} {codes : Bytes}
    (hc : ∀ o ∈ r.outstanding, o.1 = packetId → codes.length ≤ 255) :
    ∀ o ∈ r.outstanding, ∀ k, AnsweredPlace r.client packetId codes 0 k → 0 ≠ o.1 ∧ k ∉ o.2 := by
  intro o ho k hk
  obtain ⟨u, hu, hid, n, hn, hindex⟩ := hk
  obtain ⟨hiff, hzero⟩ := h.tags o ho k u hu
  refine ⟨(h.ids o ho).symm, ?_⟩
  intro hmem
  have hsame := hiff.mpr hmem
  have hlen := hc o ho (hsame.symm.trans hid)
  have hvalue := congrArg UInt8.toNat (hindex.symm.trans (hzero hsame))
  rw [UInt8.toNat_add, UInt8.toNat_ofNat'] at hvalue
  change (1 + n % 256) % 256 = 0 at hvalue
  omega

end Tagged

variable {σ : Type} [NetworkConnection σ]

/-- What a step does. The entries it changes get one id; under the condition neither the
id nor their topics are those of an outstanding UNSUBSCRIBE. -/
structure Effect (r : SubscriptionRun) (m : SubscriptionMove σ) (r' : SubscriptionRun)
    (packetId : UInt16) (tagged : Bytes → Prop) : Prop where
  tagging : Tagging r.client r'.client packetId tagged
  apart : Tagged r → KeepsTags r m → ∀ o ∈ r.outstanding, ∀ k, tagged k →
    packetId ≠ o.1 ∧ k ∉ o.2
  drawn : ∀ id ∈ r'.drawn, id ∈ r.drawn ∨ id ≠ 0
  outstanding : r'.outstanding ⊆ r.outstanding ∨ ∃ p c, m = .unsubscribe p c ∧
    p.packetId ∈ r.drawn ∧ (UnsubscribeActionAsync.performAction r.client c (.unsubscribe p)).rc =
      .success ∧
    r'.client = (UnsubscribeActionAsync.performAction r.client c (.unsubscribe p)).state ∧
    r'.outstanding = (p.packetId, listed p) :: r.outstanding

theorem effect_of_step {r r' : SubscriptionRun} {m : SubscriptionMove σ} (hr : r.client.Keyed)
    (hm : step r m = some r') : ∃ packetId tagged, Effect r m r' packetId tagged := by
  have hsame : ∀ id ∈ r.drawn, id ∈ r.drawn ∨ id ≠ 0 := fun _ hid => .inl hid
  have herase : ∀ packetId, ∀ id ∈ r.drawn.erase packetId, id ∈ r.drawn ∨ id ≠ 0 :=
    fun _ _ hid => .inl (List.mem_of_mem_erase hid)
  cases m with
  | draw =>
    cases hm
    refine ⟨0, fun _ => False, .of_heap hr rfl (fun _ => ⟨rfl, rfl, rfl⟩),
      fun _ _ _ _ _ hk => hk.elim, ?_, .inl (List.Subset.refl _)⟩
    intro id hid
    refine (List.mem_append.mp hid).imp_right (fun hnew => ?_)
    rw [List.mem_singleton.mp hnew]
    exact nextPacketId_ne_zero _
  | subscribe p c =>
    rw [step] at hm
    split_ifs at hm
    cases hm
    exact ⟨_, _, tagging_subscribe hr c p, fun _ hc o ho k hk => hc hk.1 o ho k hk.2,
      herase p.packetId, .inl (List.Subset.refl _)⟩
  | unsubscribe p c =>
    rw [step] at hm
    split_ifs at hm with hid
    cases hm
    refine ⟨_, _, tagging_unsubscribe hr c p, fun _ hc o ho k hk => hc.1 o ho k hk.1 hk.2,
      herase p.packetId, ?_⟩
    dsimp only
    split_ifs with hrc
    · exact .inr ⟨p, c, rfl, hid, hrc, rfl, rfl⟩
    · exact .inl (List.Subset.refl _)
  | suback packetId codes =>
    rw [step, handleSuback_eq] at hm
    cases hm
    have ht := tagging_answerTopics hr packetId codes 0
    exact ⟨_, _, ⟨ht.keyed, ht.entries⟩, fun h hc => h.not_answered hc, hsame,
      .inl (List.Subset.refl _)⟩
  | unsuback packetId =>
    rw [step, handleUnsuback_eq] at hm
    cases hm
    have ht := tagging_removeAll hr packetId
    exact ⟨_, _, ⟨ht.keyed, ht.entries⟩, fun _ _ _ _ _ hk => hk.elim, hsame,
      .inl List.filter_sublist.subset⟩
  | disconnect c data =>
    cases hm
    exact ⟨_, _, tagging_disconnect hr c data, fun _ _ _ _ _ hk => hk.elim, hsame,
      .inl (List.Subset.refl _)⟩
  | resubscribe threadContinue topicVector c =>
    rw [step] at hm
    split_ifs at hm
    rw [KeepaliveActionRunner.writeTopics] at hm
    cases hcreate : SubscribePacket.create r.client.heap topicVector with
    | none => simp [hcreate] at hm
    | some p =>
      simp only [hcreate, Option.some.injEq] at hm
      subst hm
      refine ⟨_, _, tagging_writePacket hr threadContinue p rfl, ?_, hsame,
        .inl (List.Subset.refl _)⟩
      intro _ hc o ho k hk
      obtain ⟨q, hq, rfl⟩ := hk
      refine hc o ho q ?_
      rw [SubscribePacket.create] at hcreate
      split_ifs at hcreate
      cases hcreate
      exact hq

theorem Tagged.step {r r' : SubscriptionRun} (h : Tagged r) {m : SubscriptionMove σ}
    (hc : KeepsTags r m) (hm : SubscriptionRun.step r m = some r') : Tagged r' := by
  obtain ⟨packetId, tagged, heffect⟩ := effect_of_step h.keyed hm
  have hdrawn : ∀ id ∈ r'.drawn, id ≠ 0 :=
    fun id hid => (heffect.drawn id hid).elim (h.drawn id) (fun hne => hne)
  have hold := h.of_tagging heffect.tagging hdrawn (heffect.apart h hc)
  rcases heffect.outstanding with hsub | ⟨p, c, rfl, hid, hrc, hclient, hout⟩
  · exact hold.of_subset rfl rfl hsub
  · obtain ⟨-, hview⟩ := subscriptionAt_unsubscribe h.keyed c p
    rw [← hclient] at hview
    have hsend := h.send hold (h.drawn p.packetId hid) hview (hc.2 hrc)
    exact hsend.of_subset rfl rfl (hout ▸ List.Subset.refl _)

/-- In every run each entry stands under the topic name of its object. -/
theorem keyed_of_reachable {client : ClientState} {r : SubscriptionRun} (hs : client.Keyed)
    (h : Transition.Reachable (step (σ := σ)) Transition.anyMove (start client) r) :
    r.client.Keyed := by
  refine h.invariant (P := fun r => r.client.Keyed) hs ?_
  intro r m r' hr _ hm
  obtain ⟨packetId, tagged, heffect⟩ := effect_of_step hr hm
  exact heffect.tagging.keyed

theorem tagged_of_reachable {client : ClientState}
    {r : SubscriptionRun} (hs : client.Keyed)
    (h : Transition.Reachable (step (σ := σ)) KeepsTags (start client) r) : Tagged r :=
  h.invariant (Tagged.start hs) (fun _ _ _ htag hc hstep => htag.step hc hstep)

end SubscriptionRun

/-! ### The resubscribe as a run -/

namespace SubscriptionRun

variable {σ : Type} [NetworkConnection σ]

/-- A SUBSCRIBE of a resubscribe, with the UNSUBSCRIBEs there were when it began. -/
def Resubscribes (outstanding : List (UInt16 × List Bytes)) (r : SubscriptionRun) :
    SubscriptionMove σ → Prop
  | .resubscribe _ _ _ => r.outstanding = outstanding
  | _ => False

theorem step_writeTopics (r : SubscriptionRun) {threadContinue : Bool}
    {topicVector : List SubscriptionPtr} {q q' : ResubscribeState σ}
    (hin : inMap { r with client := q.state } topicVector = true)
    (h : KeepaliveActionRunner.writeTopics threadContinue topicVector q = .ok q') :
    step { r with client := q.state } (.resubscribe threadContinue topicVector q.connection) =
        some { r with client := q'.state } ∧
      q'.state.subscriptionMap = q.state.subscriptionMap := by
  rw [step, if_pos hin]
  rw [KeepaliveActionRunner.writeTopics] at h ⊢
  cases hcreate : SubscribePacket.create q.state.heap topicVector with
  | none => simp [hcreate] at h
  | some p =>
    simp only [hcreate, Except.ok.injEq] at h ⊢
    subst h
    exact ⟨rfl, rfl⟩

theorem reachable_resubscribeLoop (r : SubscriptionRun) {threadContinue : Bool}
    {es : List (Bytes × SubscriptionPtr)} {v v' : List SubscriptionPtr}
    {q q' : ResubscribeState σ} (hes : es ⊆ q.state.subscriptionMap.entries)
    (hv : v ⊆ q.state.subscriptionMap.entries.map Prod.snd)
    (h : KeepaliveActionRunner.resubscribeLoop threadContinue es v q = .ok (v', q')) :
    Transition.Reachable (step (σ := σ)) (Resubscribes r.outstanding)
        { r with client := q.state } { r with client := q'.state } ∧
      v' ⊆ q'.state.subscriptionMap.entries.map Prod.snd := by
  induction es generalizing v q with
  | nil =>
    cases h
    exact ⟨.refl, hv⟩
  | cons e es ih =>
    obtain ⟨he, hrest⟩ := List.cons_subset.mp hes
    have hnext : v ++ [e.2] ⊆ q.state.subscriptionMap.entries.map Prod.snd :=
      List.append_subset.mpr ⟨hv, List.cons_subset.mpr ⟨List.mem_map_of_mem he, List.nil_subset _⟩⟩
    rw [KeepaliveActionRunner.resubscribeLoop] at h
    split_ifs at h
    · cases hwrite : KeepaliveActionRunner.writeTopics threadContinue (v ++ [e.2]) q with
      | error f => simp [hwrite] at h
      | ok t =>
        have hin : inMap { r with client := q.state } (v ++ [e.2]) = true :=
          List.all_eq_true.mpr (fun p hp => List.contains_iff_mem.mpr (hnext hp))
        obtain ⟨hstep, hmap⟩ := step_writeTopics r hin hwrite
        have hfirst : Transition.Reachable (step (σ := σ)) (Resubscribes r.outstanding)
            { r with client := q.state } { r with client := t.state } :=
          .tail (m := .resubscribe threadContinue (v ++ [e.2]) q.connection) .refl rfl hstep
        rw [hwrite] at h
        dsimp only at h
        split_ifs at h
        · cases h
          exact ⟨hfirst, hmap ▸ hnext⟩
        · obtain ⟨hrun, hlist⟩ := ih (hmap ▸ hrest) (List.nil_subset _) h
          exact ⟨hfirst.trans hrun, hlist⟩
    · exact ih hrest hnext h

/-- A resubscribe is a run of its SUBSCRIBEs. -/
theorem reachable_resubscribe (r : SubscriptionRun) (c : σ) {threadContinue : Bool}
    {q : ResubscribeState σ}
    (h : KeepaliveActionRunner.resubscribe threadContinue r.client c = .ok q) :
    Transition.Reachable (step (σ := σ)) (Resubscribes r.outstanding) r
      { r with client := q.state } := by
  rw [KeepaliveActionRunner.resubscribe] at h
  cases hloop : KeepaliveActionRunner.resubscribeLoop threadContinue
    r.client.subscriptionMap.entries []
    (⟨.mqttConnackConnectionAccepted, r.client, c, []⟩ : ResubscribeState σ) with
  | error f => simp [hloop] at h
  | ok a =>
    obtain ⟨v, t⟩ := a
    obtain ⟨hrun, hv⟩ := reachable_resubscribeLoop r
      (q := ⟨.mqttConnackConnectionAccepted, r.client, c, []⟩) (List.Subset.refl _)
      (List.nil_subset _) hloop
    rw [hloop] at h
    dsimp only at h
    split_ifs at h
    · have hin : inMap { r with client := t.state } v = true :=
        List.all_eq_true.mpr (fun p hp => List.contains_iff_mem.mpr (hv hp))
      exact hrun.tail (m := .resubscribe threadContinue v t.connection) rfl
        (step_writeTopics r hin h).1
    · cases h
      exact hrun

end SubscriptionRun

/-- When no request takes the id or the topics of an outstanding UNSUBSCRIBE, and none is
sent under an id other entries still have, each UNSUBACK removes what was listed. -/
theorem removesExactly_of_keepsTags {σ : Type} [NetworkConnection σ] {clock : Nat}
    {heap : SubscriptionHeap} {syncActionResponse : ResponseCode}
    {triggerDisconnectCallback : Bool} {keepAliveTimeout : Int} {r : SubscriptionRun}
    (h : Transition.Reachable (SubscriptionRun.step (σ := σ)) SubscriptionRun.KeepsTags
      (SubscriptionRun.start (.create clock heap syncActionResponse triggerDisconnectCallback
        keepAliveTimeout)) r) :
    ∀ o ∈ r.outstanding, RemovesExactly r.client o.1 o.2 := by
  have hempty : (ClientState.create clock heap syncActionResponse triggerDisconnectCallback
      keepAliveTimeout).Keyed := by
    intro k p hp
    simp [ClientState.create] at hp
  have htag := SubscriptionRun.tagged_of_reachable hempty h
  intro o ho
  exact removesExactly_iff.mpr (fun k u hu => (htag.tags o ho k u hu).1)

def noneOutstanding (r : SubscriptionRun) : SubscriptionMove StreamConnection → Bool
  | .unsubscribe p _ => r.outstanding.isEmpty &&
      r.client.subscriptionMap.entries.all (fun e => (listed p).contains e.1)
  | _ => r.outstanding.isEmpty

theorem keepsTags_of_noneOutstanding {r : SubscriptionRun}
    {m : SubscriptionMove StreamConnection} (h : noneOutstanding r m = true) :
    r.KeepsTags m := by
  cases m with
  | unsubscribe p c =>
    obtain ⟨hnone, hall⟩ := (Bool.and_eq_true _ _).mp h
    refine ⟨?_, ?_⟩
    · rw [List.isEmpty_iff.mp hnone]
      exact fun _ h => nomatch h
    · intro _ k u hu hk
      obtain ⟨q, hq, -⟩ := subscriptionAt_eq_some.mp hu
      have hmem := List.all_eq_true.mp hall (k, q) ((r.client.subscriptionMap.mem_entries_iff).mpr hq)
      exact absurd (List.contains_iff_mem.mp hmem) hk
  | subscribe p c =>
    intro _ o ho
    rw [List.isEmpty_iff.mp h] at ho
    cases ho
  | suback packetId codes =>
    intro o ho
    rw [List.isEmpty_iff.mp h] at ho
    cases ho
  | resubscribe threadContinue topicVector c =>
    intro o ho
    rw [List.isEmpty_iff.mp h] at ho
    cases ho
  | _ => trivial

def topicSubscribe : SubscribePacket :=
  { SubscribePacket.init freshClient.heap [0] with packetId := 1 }

def topicUnsubscribe : UnsubscribePacket :=
  { UnsubscribePacket.init [freshTopic] with packetId := 2 }

def subscribedMoves : List (SubscriptionMove StreamConnection) :=
  [.draw, .subscribe topicSubscribe ⟨true, []⟩, .suback 1 [1], .draw]

theorem removesExactly_of_keepsTags_subscribed :
    ∃ r, Transition.Reachable (SubscriptionRun.step (σ := StreamConnection))
        SubscriptionRun.KeepsTags (SubscriptionRun.start freshClient) r ∧
      r.outstanding = [(2, [[0x61]])] ∧ (r.client.subscriptionAt [0x61]).isSome = true ∧
      RemovesExactly r.client 2 [[0x61]] := by
  have hrun : ∃ r, Transition.runWhile SubscriptionRun.step noneOutstanding
      (SubscriptionRun.start freshClient)
      (subscribedMoves ++ [.unsubscribe topicUnsubscribe ⟨true, []⟩]) = some r ∧
      r.outstanding = [(2, [[0x61]])] ∧ (r.client.subscriptionAt [0x61]).isSome = true :=
    ⟨_, rfl, rfl, rfl⟩
  obtain ⟨r, hr, hout, hsome⟩ := hrun
  have hreach := Transition.reachable_of_runWhile (P := fun _ => True)
    (fun _ _ _ _ _ _ => trivial) (fun _ _ _ => keepsTags_of_noneOutstanding) trivial hr
  have hall := removesExactly_of_keepsTags hreach
  rw [hout] at hall
  exact ⟨r, hreach, hout, hsome, hall (2, [[0x61]]) List.mem_cons_self⟩

/-! ### An id that is used again -/

namespace ClientState

theorem toNat_iterate_nextPacketId (last : UInt16) (n : Nat) :
    (nextPacketId^[n + 1] last).toNat = (last.toNat + n) % 65535 + 1 := by
  induction n with
  | zero => exact toNat_nextPacketId last
  | succ n ih =>
    rw [Function.iterate_succ_apply', toNat_nextPacketId, ih]
    omega

end ClientState

namespace SubscriptionRun

theorem run_draw {σ : Type} [NetworkConnection σ] (r : SubscriptionRun) (n : Nat) :
    Transition.run (step (σ := σ)) r (List.replicate n .draw) =
      some { r with
        client := { r.client with
          lastSentPacketId := nextPacketId^[n] r.client.lastSentPacketId }
        drawn := r.drawn ++ drawnIds r.client.lastSentPacketId n } := by
  induction n generalizing r with
  | zero =>
    rw [drawnIds, List.append_nil]
    rfl
  | succ n ih =>
    rw [List.replicate_succ, Transition.run, step]
    simp only [getNextPacketId, Option.bind_some, ih, drawnIds, List.append_assoc,
      List.singleton_append, Function.iterate_succ_apply]

end SubscriptionRun

def otherTopic : Utf8String := ⟨[0x62], by decide⟩

def otherUnsubscribe : UnsubscribePacket :=
  { UnsubscribePacket.init [otherTopic] with packetId := 2 }

def failedUnsubscribeMoves : List (SubscriptionMove StreamConnection) :=
  subscribedMoves ++ [.unsubscribe topicUnsubscribe ⟨false, []⟩]

/-- A failed UNSUBSCRIBE leaves its id on the topic, and the next one under that id takes
the topic with it. -/
theorem not_removesExactly_reused :
    ∃ r, Transition.Reachable (SubscriptionRun.step (σ := StreamConnection))
        Transition.anyMove (SubscriptionRun.start freshClient) r ∧
      r.outstanding = [(2, [[0x62]])] ∧ ¬ RemovesExactly r.client 2 [[0x62]] := by
  have hfailed : ∃ r, Transition.run SubscriptionRun.step (SubscriptionRun.start freshClient)
      failedUnsubscribeMoves = some r ∧ r.client.lastSentPacketId = 2 ∧ r.outstanding = [] ∧
      (UnsubscribeActionAsync.performAction r.client (⟨true, []⟩ : StreamConnection)
        (.unsubscribe otherUnsubscribe)).rc = .success ∧
      ∃ u, (UnsubscribeActionAsync.performAction r.client (⟨true, []⟩ : StreamConnection)
        (.unsubscribe otherUnsubscribe)).state.subscriptionAt [0x61] = some u ∧ u.packetId = 2 :=
    ⟨_, rfl, rfl, rfl, rfl, _, rfl, rfl⟩
  obtain ⟨r, hr, hlast, hout, hrc, u, hu, hid⟩ := hfailed
  have hround : nextPacketId^[65535] (2 : UInt16) = 2 :=
    UInt16.toNat_inj.mp (toNat_iterate_nextPacketId 2 65534)
  have hdraws : Transition.run (SubscriptionRun.step (σ := StreamConnection)) r
      (List.replicate 65535 .draw) =
        some { r with drawn := r.drawn ++ drawnIds 2 65535 } := by
    rw [SubscriptionRun.run_draw, hlast, hround, ← hlast]
  have hdrawn : (2 : UInt16) ∈ r.drawn ++ drawnIds 2 65535 := by
    refine List.mem_append_right _ ?_
    have hsplit := drawnIds_succ 2 65534
    rw [← Function.iterate_succ_apply' nextPacketId, hround] at hsplit
    rw [hsplit]
    exact List.mem_append_right _ List.mem_cons_self
  have hstep : SubscriptionRun.step { r with drawn := r.drawn ++ drawnIds 2 65535 }
      (.unsubscribe otherUnsubscribe (⟨true, []⟩ : StreamConnection)) = some
        ⟨(UnsubscribeActionAsync.performAction r.client (⟨true, []⟩ : StreamConnection)
            (.unsubscribe otherUnsubscribe)).state,
          (r.drawn ++ drawnIds 2 65535).erase 2, [(2, [[0x62]])]⟩ := by
    have hid : otherUnsubscribe.packetId ∈ r.drawn ++ drawnIds 2 65535 := hdrawn
    rw [SubscriptionRun.step, if_pos hid]
    dsimp only
    rw [if_pos hrc, hout]
    rfl
  refine ⟨_, ((Transition.reachable_of_run hr).trans (Transition.reachable_of_run hdraws)).tail
    trivial hstep, rfl, ?_⟩
  intro hexact
  have hiff := removesExactly_iff.mp hexact [0x61] u hu
  exact absurd (hiff.mp hid) (by decide)

end AwsIotSdk
