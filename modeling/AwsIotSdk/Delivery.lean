import AwsIotSdk.NetworkRead
import AwsIotSdk.QueuedActions
import AwsIotSdk.SubscriptionSearch

/-! What a PUBLISH does to the client: the call of the application and the PUBACK
that is queued. Both wait for an active subscription, and the search takes the
first one that matches. -/

namespace AwsIotSdk

open ClientState NetworkRead

/-- The search comes to an active subscription with a handler. -/
def FindsActive (s : ClientState) (t : Bytes) : Prop :=
  ∃ e, FirstMatch s t e ∧ (s.heap e.2).isActive = true ∧ (s.heap e.2).pAppHandler ≠ none

def afterCall (s : ClientState) (sub : Subscription) (h : Nat) (p : PublishPacket) : ClientState :=
  { s with appCalls := s.appCalls ++ [⟨h, p.pTopicName.toStdString, p.payload, sub.pAppHandlerData⟩] }

/-- The code and the state after the call of the application. -/
def afterPuback (s : ClientState) (p : PublishPacket) (qos : QoS) : ResponseCode × ClientState :=
  if qos ≠ .qos0 then s.enqueueOutboundAction .puback (.puback (PubackPacket.create p.packetId))
  else (.success, s)

theorem handlePublish_of_create {s : ClientState} {buf : Bytes} {isRetained isDuplicate : Bool}
    {qos : QoS} {p : PublishPacket}
    (hp : PublishPacket.create buf isRetained isDuplicate qos = .ok (some p)) :
    handlePublish s buf isRetained isDuplicate qos = deliverPublish s p qos := by
  rw [handlePublish, hp]
  rfl

theorem deliverPublish_of_active {s : ClientState} {p : PublishPacket} (qos : QoS)
    {ptr : SubscriptionPtr} {h : Nat}
    (hfound : s.getSubscription p.pTopicName.toStdString = .ok (some ptr))
    (hactive : (s.heap ptr).isActive = true) (hh : (s.heap ptr).pAppHandler = some h) :
    deliverPublish s p qos = .ok (afterPuback (afterCall s (s.heap ptr) h p) p qos) := by
  have hcall : callAppHandler s (s.heap ptr) p.pTopicName.toStdString p.payload =
      .ok (afterCall s (s.heap ptr) h p) := by
    rw [callAppHandler, hh]
    rfl
  rw [deliverPublish, hfound]
  change (if (s.heap ptr).isActive = true then _ else _) = _
  rw [if_pos hactive, hcall, afterPuback]
  change (if qos ≠ .qos0 then _ else _) = _
  split_ifs <;> rfl

theorem deliverPublish_cases {s t : ClientState} {p : PublishPacket} {qos : QoS}
    {rc : ResponseCode} (h : deliverPublish s p qos = .ok (rc, t)) :
    (∃ ptr g, s.getSubscription p.pTopicName.toStdString = .ok (some ptr) ∧
      (s.heap ptr).isActive = true ∧ (s.heap ptr).pAppHandler = some g ∧
      (rc, t) = afterPuback (afterCall s (s.heap ptr) g p) p qos) ∨
    t = s ∧ (rc = .mqttNoSubscriptionFound ∨ rc = .mqttSubscriptionNotActive) := by
  obtain ⟨found, hfound, hrest⟩ := bind_eq_ok.mp h
  cases found with
  | none =>
    cases hrest
    exact .inr ⟨rfl, .inl rfl⟩
  | some ptr =>
    by_cases hactive : (s.heap ptr).isActive = true
    · cases hg : (s.heap ptr).pAppHandler with
      | none =>
        have hcall : callAppHandler s (s.heap ptr) p.pTopicName.toStdString p.payload =
            .error .badFunctionCall := by
          rw [callAppHandler, hg]
        simp only [hactive, if_true, hcall] at hrest
        cases hrest
      | some g =>
        have hdone := deliverPublish_of_active qos hfound hactive hg
        rw [h, Except.ok.injEq] at hdone
        exact .inl ⟨ptr, g, hfound, hactive, hg, hdone⟩
    · simp only [hactive, Bool.false_eq_true, if_false] at hrest
      cases hrest
      exact .inr ⟨rfl, .inr rfl⟩

theorem enqueueOutboundAction_appCalls (s : ClientState) (actionType : ActionType)
    (data : ActionData) : (s.enqueueOutboundAction actionType data).2.appCalls = s.appCalls := by
  rw [enqueueOutboundAction]
  split_ifs <;> rfl

theorem enqueueOutboundAction_cases (s : ClientState) (actionType : ActionType)
    (data : ActionData) :
    s.enqueueOutboundAction actionType data = (.actionQueueFull, s) ∨
      ∃ id, (s.enqueueOutboundAction actionType data).1 = .success ∧
        (s.enqueueOutboundAction actionType data).2.outboundActionQueue =
          s.outboundActionQueue ++ [(actionType, data.setActionId id)] := by
  by_cases hfull : s.maxQueueSize ≤ s.outboundActionQueue.length
  · exact .inl (if_pos hfull)
  · rw [enqueueOutboundAction, if_neg hfull]
    exact .inr ⟨_, rfl, rfl⟩

theorem afterPuback_appCalls (s : ClientState) (p : PublishPacket) (qos : QoS) :
    (afterPuback s p qos).2.appCalls = s.appCalls := by
  rw [afterPuback]
  split_ifs
  · exact enqueueOutboundAction_appCalls s _ _
  · rfl

/-! ### The call of the application -/

/-- The handler of an active entry that matches is called once with the packet. -/
def Delivered (s : ClientState) (r : Except Fault (ResponseCode × ClientState))
    (p : PublishPacket) : Prop :=
  ∃ rc t e h, r = .ok (rc, t) ∧ e ∈ s.subscriptionMap.entries ∧
    matchesEntry s.heap p.pTopicName.toStdString e = .ok true ∧
    (s.heap e.2).isActive = true ∧ (s.heap e.2).pAppHandler = some h ∧
    t.appCalls = s.appCalls ++
      [⟨h, p.pTopicName.toStdString, p.payload, (s.heap e.2).pAppHandlerData⟩]

def MatchesActive (s : ClientState) (t : Bytes) : Prop :=
  ∃ e ∈ s.subscriptionMap.entries, matchesEntry s.heap t e = .ok true ∧
    (s.heap e.2).isActive = true

theorem delivered_of_findsActive {s : ClientState} {p : PublishPacket} (qos : QoS)
    (h : FindsActive s p.pTopicName.toStdString) : Delivered s (deliverPublish s p qos) p := by
  obtain ⟨⟨k, ptr⟩, hfirst, hactive, hhandler⟩ := h
  obtain ⟨g, hg⟩ := Option.ne_none_iff_exists'.mp hhandler
  have hdone := deliverPublish_of_active qos (getSubscription_eq_some.mpr ⟨k, hfirst⟩) hactive hg
  obtain ⟨pre, post, hes, -, hmatch⟩ := hfirst
  have hmem : (k, ptr) ∈ s.subscriptionMap.entries := by simp [hes]
  have hcalls := afterPuback_appCalls (afterCall s (s.heap ptr) g p) p qos
  exact ⟨_, _, (k, ptr), g, hdone, hmem, hmatch, hactive, hg, hcalls⟩

theorem findsActive_of_delivered {s : ClientState} {p : PublishPacket} {qos : QoS}
    (h : Delivered s (deliverPublish s p qos) p) : FindsActive s p.pTopicName.toStdString := by
  obtain ⟨rc, t, e, g, hdone, -, -, -, -, hcalls⟩ := h
  rcases deliverPublish_cases hdone with ⟨ptr, g', hfound, hactive, hg', -⟩ | ⟨rfl, -⟩
  · obtain ⟨k, hfirst⟩ := getSubscription_eq_some.mp hfound
    exact ⟨(k, ptr), hfirst, hactive, by simp [hg']⟩
  · have hlen := congrArg List.length hcalls
    simp at hlen

/-- A message with an active match is delivered exactly when the first match in
the order of the map is an active one. -/
theorem delivered_iff_findsActive (s : ClientState) (buf : Bytes) (isRetained isDuplicate : Bool)
    (qos : QoS) (p : PublishPacket)
    (hp : PublishPacket.create buf isRetained isDuplicate qos = .ok (some p)) :
    (MatchesActive s p.pTopicName.toStdString →
        Delivered s (handlePublish s buf isRetained isDuplicate qos) p) ↔
      (MatchesActive s p.pTopicName.toStdString → FindsActive s p.pTopicName.toStdString) := by
  rw [handlePublish_of_create hp]
  constructor
  · intro h hm
    exact findsActive_of_delivered (h hm)
  · intro h hm
    exact delivered_of_findsActive qos (h hm)

/-- The body of a message `hi` for the topic `a`. -/
def helloBody : Bytes := [0x00, 0x01, 0x61, 0x68, 0x69]

def helloMessage : PublishPacket :=
  { Packet.init .publish false .qos0 false 5 with
    pTopicName := freshTopic
    isRetained := false
    isDuplicate := false
    qos := .qos0
    payload := [0x68, 0x69] }

theorem delivered_iff_findsActive_hello :
    (MatchesActive activeClient helloMessage.pTopicName.toStdString →
        Delivered activeClient (handlePublish activeClient helloBody false false .qos0)
          helloMessage) ↔
      (MatchesActive activeClient helloMessage.pTopicName.toStdString →
        FindsActive activeClient helloMessage.pTopicName.toStdString) :=
  delivered_iff_findsActive activeClient helloBody false false .qos0 helloMessage rfl

/-- The filter `+`, whose subscription is not active, in front of the active one. -/
def shadowedClient : ClientState :=
  { activeClient.insertTopic [0x2b] 1 with
    heap := Function.update activeClient.heap 1
      (.init ⟨[0x2b], by decide⟩ .qos1 (some 0) 0) }

theorem not_findsActive_shadowed :
    ¬ FindsActive shadowedClient helloMessage.pTopicName.toStdString := by
  have hfound : shadowedClient.getSubscription helloMessage.pTopicName.toStdString =
      .ok (some 1) := by
    decide +kernel
  intro h
  obtain ⟨⟨k, ptr⟩, hfirst, hactive, -⟩ := h
  have hptr := getSubscription_eq_some.mpr ⟨k, hfirst⟩
  rw [hfound] at hptr
  cases hptr
  have hinactive : (shadowedClient.heap 1).isActive = false := rfl
  rw [hinactive] at hactive
  cases hactive

/-- A message for an active subscription is not delivered behind an inactive one. -/
theorem not_delivered_shadowed :
    PublishPacket.create helloBody false false .qos0 = .ok (some helloMessage) ∧
      MatchesActive shadowedClient helloMessage.pTopicName.toStdString ∧
      ¬ Delivered shadowedClient (handlePublish shadowedClient helloBody false false .qos0)
        helloMessage := by
  have hmem : (([0x61], 0) : Bytes × SubscriptionPtr) ∈ shadowedClient.subscriptionMap.entries := by
    decide
  refine ⟨rfl, ⟨_, hmem, rfl, rfl⟩, ?_⟩
  intro h
  rw [handlePublish_of_create (p := helloMessage) rfl] at h
  exact not_findsActive_shadowed (findsActive_of_delivered h)

/-! ### The PUBACK -/

def pubackBytes (packetId : UInt16) : Bytes :=
  [0x40, 0x02, UInt8.ofNat (packetId.toNat / 256), UInt8.ofNat (packetId.toNat % 256)]

/-- The step that takes the action from the queue writes the PUBACK for the id. -/
def WritesPuback (data : ActionData) (packetId : UInt16) : Prop :=
  ∀ (σ : Type) [NetworkConnection σ] (c : σ) (u : ClientState)
    (rest : List (ActionType × ActionData)),
    u.outboundActionQueue = (.puback, data) :: rest → u.actionMap .puback = some .puback →
    (u.processOutboundActionQueue c).1 =
        (Action.writeToNetworkBuffer false c (pubackBytes packetId)).1 ∧
      (u.processOutboundActionQueue c).2.2 =
        (Action.writeToNetworkBuffer false c (pubackBytes packetId)).2

theorem toString_pubackPacket {p : PubackPacket} {packetId : UInt16}
    (hheader : p.fixedHeader = (PubackPacket.create packetId).fixedHeader)
    (hid : p.publishPacketId = packetId) : p.toString = pubackBytes packetId := by
  have hbytes : (PubackPacket.create 0).fixedHeader.appendToBuffer [] = [0x40, 0x02] := by
    decide +kernel
  have hsame : p.fixedHeader = (PubackPacket.create 0).fixedHeader := hheader
  rw [PubackPacket.toString, hsame, hid, hbytes]
  rfl

theorem processAction_puback {σ : Type} [NetworkConnection σ] {u : ClientState} (c : σ)
    {p : PubackPacket} (hreg : u.actionMap .puback = some .puback)
    (hhandler : p.pAsyncAckHandler = none) :
    (u.processAction c .puback (.puback p)).1 =
        (Action.writeToNetworkBuffer false c p.toString).1 ∧
      (u.processAction c .puback (.puback p)).2.2 =
        (Action.writeToNetworkBuffer false c p.toString).2 := by
  have hnone : (ActionData.puback p).pAsyncAckHandler = none := hhandler
  have hperform : ActionKind.puback.performAction u c (.puback p) =
      ⟨(Action.writeToNetworkBuffer false c p.toString).1, u,
        (Action.writeToNetworkBuffer false c p.toString).2, .puback p⟩ := rfl
  simp only [processAction, hreg, hnone, hperform, if_true]
  by_cases hrc : (Action.writeToNetworkBuffer false c p.toString).1 = .success
  · simp only [hrc, ne_eq, not_true_eq_false, if_false, and_self]
  · simp only [hrc, ne_eq, not_false_eq_true, if_true, and_self]

theorem writesPuback_setActionId (packetId actionId : UInt16) :
    WritesPuback ((ActionData.puback (PubackPacket.create packetId)).setActionId actionId)
      packetId := by
  intro σ _ c u rest hq hreg
  have hstep : u.processOutboundActionQueue c =
      ClientState.processAction { u with outboundActionQueue := rest } c .puback
        ((ActionData.puback (PubackPacket.create packetId)).setActionId actionId) := by
    rw [processOutboundActionQueue, hq]
  have hbytes : PubackPacket.toString { PubackPacket.create packetId with
      toPacket := (PubackPacket.create packetId).toPacket.setPacketId actionId } =
        pubackBytes packetId := toString_pubackPacket rfl rfl
  rw [hstep, ← hbytes]
  exact processAction_puback c hreg rfl

/-- A message of quality of service 1 queues one PUBACK with its own packet id or
finds the queue full; the other ones queue nothing. -/
def Acknowledged (s : ClientState) (r : Except Fault (ResponseCode × ClientState))
    (p : PublishPacket) : QoS → Prop
  | .qos0 => ∀ rc t, r = .ok (rc, t) → t.outboundActionQueue = s.outboundActionQueue
  | .qos1 => ∃ rc t, r = .ok (rc, t) ∧
      ((∃ data, t.outboundActionQueue = s.outboundActionQueue ++ [(.puback, data)] ∧
        WritesPuback data p.packetId) ∨
      rc = .actionQueueFull ∧ t.outboundActionQueue = s.outboundActionQueue)

theorem acknowledged_qos0 (s : ClientState) (p : PublishPacket) :
    Acknowledged s (deliverPublish s p .qos0) p .qos0 := by
  intro rc t h
  rcases deliverPublish_cases h with ⟨ptr, g, -, -, -, hdone⟩ | ⟨rfl, -⟩
  · cases hdone
    rfl
  · rfl

theorem acknowledged_of_findsActive {s : ClientState} {p : PublishPacket}
    (h : FindsActive s p.pTopicName.toStdString) :
    Acknowledged s (deliverPublish s p .qos1) p .qos1 := by
  obtain ⟨⟨k, ptr⟩, hfirst, hactive, hhandler⟩ := h
  obtain ⟨g, hg⟩ := Option.ne_none_iff_exists'.mp hhandler
  have hdone := deliverPublish_of_active .qos1 (getSubscription_eq_some.mpr ⟨k, hfirst⟩) hactive hg
  have hcases := enqueueOutboundAction_cases (afterCall s (s.heap ptr) g p) .puback
    (.puback (PubackPacket.create p.packetId))
  have hpuback : afterPuback (afterCall s (s.heap ptr) g p) p .qos1 =
      (afterCall s (s.heap ptr) g p).enqueueOutboundAction .puback
        (.puback (PubackPacket.create p.packetId)) := rfl
  rw [hpuback] at hdone
  generalize (afterCall s (s.heap ptr) g p).enqueueOutboundAction .puback
    (.puback (PubackPacket.create p.packetId)) = r at hdone hcases
  obtain ⟨rc, t⟩ := r
  refine ⟨rc, t, hdone, ?_⟩
  rcases hcases with hfull | ⟨id, -, hqueue⟩
  · cases hfull
    exact .inr ⟨rfl, rfl⟩
  · exact .inl ⟨_, hqueue, writesPuback_setActionId _ _⟩

theorem findsActive_of_acknowledged {s : ClientState} {p : PublishPacket}
    (h : Acknowledged s (deliverPublish s p .qos1) p .qos1) :
    FindsActive s p.pTopicName.toStdString := by
  obtain ⟨rc, t, hdone, hqueue⟩ := h
  rcases deliverPublish_cases hdone with ⟨ptr, g, hfound, hactive, hg, -⟩ | ⟨rfl, hrc⟩
  · obtain ⟨k, hfirst⟩ := getSubscription_eq_some.mp hfound
    exact ⟨(k, ptr), hfirst, hactive, by simp [hg]⟩
  · rcases hqueue with ⟨data, happend, -⟩ | ⟨hfull, -⟩
    · have hlen := congrArg List.length happend
      simp at hlen
    · rcases hrc with rfl | rfl <;> cases hfull

/-- The read loop acknowledges a message exactly when it delivers it. -/
theorem acknowledged_iff_findsActive (s : ClientState) (buf : Bytes)
    (isRetained isDuplicate : Bool) (qos : QoS) (p : PublishPacket)
    (hp : PublishPacket.create buf isRetained isDuplicate qos = .ok (some p)) :
    Acknowledged s (handlePublish s buf isRetained isDuplicate qos) p qos ↔
      (qos = .qos1 → FindsActive s p.pTopicName.toStdString) := by
  rw [handlePublish_of_create hp]
  cases qos with
  | qos0 => exact iff_of_true (acknowledged_qos0 s p) nofun
  | qos1 =>
    constructor
    · intro h _
      exact findsActive_of_acknowledged h
    · intro h
      exact acknowledged_of_findsActive (h rfl)

/-- The body of a message without a payload for the topic `a`, with packet id 7. -/
def idBody : Bytes := [0x00, 0x01, 0x61, 0x00, 0x07]

def idMessage : PublishPacket :=
  { Packet.init .publish false .qos1 false 3 with
    packetId := 7
    pTopicName := freshTopic
    isRetained := false
    isDuplicate := false
    qos := .qos1
    payload := [] }

theorem acknowledged_iff_findsActive_id :
    Acknowledged activeClient (handlePublish activeClient idBody false false .qos1) idMessage
        .qos1 ↔
      (QoS.qos1 = .qos1 → FindsActive activeClient idMessage.pTopicName.toStdString) :=
  acknowledged_iff_findsActive activeClient idBody false false .qos1 idMessage rfl

/-- A client without subscriptions leaves a message without a PUBACK. -/
theorem not_acknowledged_unsubscribed :
    PublishPacket.create idBody false false .qos1 = .ok (some idMessage) ∧
      ¬ Acknowledged freshClient (handlePublish freshClient idBody false false .qos1) idMessage
        .qos1 := by
  refine ⟨rfl, ?_⟩
  intro h
  rw [handlePublish_of_create (p := idMessage) rfl] at h
  obtain ⟨e, ⟨pre, post, hes, -, -⟩, -⟩ := findsActive_of_acknowledged h
  have hlen := congrArg List.length hes
  simp [freshClient, ClientState.create, SortedMap.empty] at hlen

end AwsIotSdk
