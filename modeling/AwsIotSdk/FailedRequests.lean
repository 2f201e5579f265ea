import AwsIotSdk.ConnackResults

/-! The pending acks after a request that failed. Every way out of an action behind
the registration is to take the entry back. -/

namespace AwsIotSdk

open AwsIotSdk.Action

/-- Only the entry of one id may differ. -/
def AcksKept (i : UInt16) (s t : ClientState) : Prop :=
  ∀ j, j ≠ i → t.pendingAckMap.find j = s.pendingAckMap.find j

def AckCleared (i : UInt16) (s t : ClientState) : Prop :=
  t.pendingAckMap.find i = none ∧ AcksKept i s t

/-! ### The four actions -/

variable {σ : Type} [NetworkConnection σ]

/-- The action registers the ack handler of this data. -/
def RegistersAck (kind : ActionKind) (data : ActionData) : Prop :=
  data.pAsyncAckHandler ≠ none ∧
    match kind, data with
    | .connect, .connect _ => True
    | .publish, .publish p => p.qos ≠ .qos0
    | .subscribe, .subscribe _ => True
    | .unsubscribe, .unsubscribe _ => True
    | _, _ => False

def ackId (data : ActionData) : UInt16 :=
  match data with
  | .connect _ => ConnectActionAsync.connackReservedPacketId
  | _ => data.getActionId

def NoAckLeft (kind : ActionKind) (s : ClientState) (c : σ) (data : ActionData) : Prop :=
  (kind.performAction s c data).rc ≠ .success →
    AckCleared (ackId data) s (kind.performAction s c data).state

def NetworkConnectFails (kind : ActionKind) (c : σ) : Prop :=
  kind = .connect ∧ (NetworkConnection.connect c).1 ≠ .success

section Outcomes

variable {s : ClientState} {c : σ}

/-- The entries of other ids are kept whatever comes of the request. -/
theorem acksKept_performAction {kind : ActionKind} {data : ActionData}
    (h : RegistersAck kind data) :
    AcksKept (ackId data) s (kind.performAction s c data).state := by
  obtain ⟨-, hkind⟩ := h
  cases kind <;> cases data <;> simp only at hkind
  case connect.connect p => exact (writesAck_connect s c (.connect p)).others
  case publish.publish p => exact (writesAck_publish s c (.publish p)).others
  case subscribe.subscribe p => exact (writesAck_subscribe s c (.subscribe p)).others
  case unsubscribe.unsubscribe p => exact (writesAck_unsubscribe s c (.unsubscribe p)).others

theorem find_deleteAck (t : ClientState) (i : UInt16) :
    (deleteAck t true i).pendingAckMap.find i = none :=
  SortedMap.find_erase_self t.pendingAckMap i

/-- The entry that the action registered is gone when it fails. -/
def EntryGone (kind : ActionKind) (s : ClientState) (c : σ) (data : ActionData) : Prop :=
  (kind.performAction s c data).rc ≠ .success →
    (kind.performAction s c data).state.pendingAckMap.find (ackId data) = none

theorem noAckLeft_iff_entryGone {kind : ActionKind} {data : ActionData}
    (h : RegistersAck kind data) : NoAckLeft kind s c data ↔ EntryGone kind s c data := by
  constructor
  · intro hleft hrc
    exact (hleft hrc).1
  · intro hgone hrc
    exact ⟨hgone hrc, acksKept_performAction h⟩

theorem entryGone_connect_iff {p : ConnectPacket} (hp : p.pAsyncAckHandler ≠ none) :
    EntryGone .connect s c (.connect p) ↔ (NetworkConnection.connect c).1 = .success := by
  obtain ⟨h, hh⟩ := Option.ne_none_iff_exists'.mp hp
  let q := { p with toPacket := p.toPacket.setPacketId ConnectActionAsync.connackReservedPacketId }
  let t := (registerAck (s.setAutoReconnectData q) ConnectActionAsync.connackReservedPacketId
    (some h)).2.2.setKeepAliveTimeout q.keepAliveTimeout
  have hq : q.pAsyncAckHandler = some h := hh
  have hgone : EntryGone .connect s c (.connect p) ↔
      ((ConnectActionAsync.performPacket (s.setAutoReconnectData q) c q).1 ≠ .success →
        (ConnectActionAsync.performPacket (s.setAutoReconnectData q) c q).2.1.pendingAckMap.find
          ConnectActionAsync.connackReservedPacketId = none) := Iff.rfl
  have hcases := performPacket_cases (s.setAutoReconnectData q) c q
  rw [hq] at hcases
  rw [hgone]
  rcases hcases with ⟨hc, hpacket⟩ | ⟨hc, -, hpacket⟩ | ⟨hc, -, hpacket⟩
  · refine iff_of_false (fun hn => ?_) hc
    rw [hpacket] at hn
    have hnone := hn hc
    have hsome : t.pendingAckMap.find ConnectActionAsync.connackReservedPacketId =
        some ((s.pendingAckMap.find ConnectActionAsync.connackReservedPacketId).getD
          ⟨s.clock, h⟩) := SortedMap.find_insert_self s.pendingAckMap _ _
    cases hsome.symm.trans hnone
  · refine iff_of_true (fun _ => ?_) hc
    rw [hpacket]
    exact find_deleteAck t _
  · refine iff_of_true (fun hrc => ?_) hc
    rw [hpacket] at hrc
    exact absurd rfl hrc

theorem write_entryGone (t : ClientState) (i : UInt16) (packetData : Bytes) :
    let r := writeToNetworkBuffer false c packetData
    r.1 ≠ .success →
      (if r.1 ≠ .success then deleteAck t true i else t).pendingAckMap.find i = none := by
  intro r hr
  rw [if_pos hr]
  exact find_deleteAck t i

theorem entryGone_publish {p : PublishPacket} (hp : p.pAsyncAckHandler ≠ none)
    (hq : p.qos ≠ .qos0) : EntryGone .publish s c (.publish p) := by
  obtain ⟨h, hh⟩ := Option.ne_none_iff_exists'.mp hp
  have hwrite := write_entryGone (c := c) (registerAck s p.packetId (some h)).2.2 p.packetId
    p.toString
  intro hrc
  simp only [ActionKind.performAction, PublishActionAsync.performAction, if_pos hq, hh] at hrc ⊢
  exact hwrite hrc

theorem entryGone_unsubscribe {p : UnsubscribePacket} (hp : p.pAsyncAckHandler ≠ none) :
    EntryGone .unsubscribe s c (.unsubscribe p) := by
  obtain ⟨h, hh⟩ := Option.ne_none_iff_exists'.mp hp
  have hwrite := write_entryGone (c := c) (p.topicList.foldl
    (fun s t => s.setSubscriptionPacketInfo t.toStdString p.packetId 0)
    (registerAck s p.packetId (some h)).2.2) p.packetId p.toString
  intro hrc
  simp only [ActionKind.performAction, UnsubscribeActionAsync.performAction, hh] at hrc ⊢
  exact hwrite hrc

theorem entryGone_subscribe {p : SubscribePacket} (hp : p.pAsyncAckHandler ≠ none) :
    EntryGone .subscribe s c (.subscribe p) := by
  obtain ⟨h, hh⟩ := Option.ne_none_iff_exists'.mp hp
  have hregistered : (registerAck s p.packetId p.pAsyncAckHandler).2.1 = true := by
    rw [hh]
    rfl
  intro hrc
  rw [ActionKind.performAction] at hrc ⊢
  rcases subscribe_cases s c p with ⟨-, hfailed⟩ | ⟨-, hsent⟩
  · rw [hfailed, hregistered]
    exact find_deleteAck _ p.packetId
  · rw [hsent] at hrc
    exact absurd rfl hrc

/-- The exception is a CONNECT whose network connect fails: it leaves the entry that
it registered. -/
theorem noAckLeft_iff (kind : ActionKind) (s : ClientState) (c : σ) (data : ActionData)
    (h : RegistersAck kind data) :
    NoAckLeft kind s c data ↔ ¬ NetworkConnectFails kind c := by
  rw [noAckLeft_iff_entryGone h]
  obtain ⟨hh, hkind⟩ := h
  have hother : ∀ {k}, k ≠ .connect → ¬ NetworkConnectFails (σ := σ) k c := fun hk hf => hk hf.1
  cases kind <;> cases data <;> simp only at hkind
  case connect.connect p =>
    rw [entryGone_connect_iff hh]
    simp [NetworkConnectFails]
  case publish.publish p => exact iff_of_true (entryGone_publish hh hkind) (hother (by simp))
  case subscribe.subscribe p => exact iff_of_true (entryGone_subscribe hh) (hother (by simp))
  case unsubscribe.unsubscribe p => exact iff_of_true (entryGone_unsubscribe hh) (hother (by simp))

end Outcomes

def requestedSubscribe : ActionData :=
  (ActionData.subscribe (SubscribePacket.init freshClient.heap [0])).setAsyncAckHandler
    (.application 1)

theorem registersAck_requestedSubscribe : RegistersAck .subscribe requestedSubscribe := by
  have hh : requestedSubscribe.pAsyncAckHandler = some (.application 1) := rfl
  refine ⟨?_, True.intro⟩
  rw [hh]
  exact Option.some_ne_none _

theorem noAckLeft_iff_subscribe :
    NoAckLeft .subscribe freshClient (⟨false, []⟩ : StreamConnection) requestedSubscribe ↔
      ¬ NetworkConnectFails .subscribe (⟨false, []⟩ : StreamConnection) :=
  noAckLeft_iff .subscribe freshClient (⟨false, []⟩ : StreamConnection) requestedSubscribe
    registersAck_requestedSubscribe

/-- A network that no host answers on. -/
structure UnreachableNetwork

instance : NetworkConnection UnreachableNetwork where
  isConnected _ := false
  connectInternal c := (.networkTcpConnectError, c)
  writeInternal c _ out := ⟨.networkDisconnectedError, out, c⟩
  readInternal c buf _ _ out := ⟨.networkDisconnectedError, buf, out, c⟩
  disconnectInternal c := (.success, c)
  pending _ := 0
  pending_lt := fun _ _ _ _ _ _ h => (nomatch h)

theorem not_noAckLeft_unreachable :
    ¬ NoAckLeft .connect freshClient (⟨⟩ : UnreachableNetwork)
      ((ActionData.connect connectPacket).setAsyncAckHandler (.application 1)) := by
  intro h
  have hfailed : (ActionKind.performAction .connect freshClient (⟨⟩ : UnreachableNetwork)
      ((ActionData.connect connectPacket).setAsyncAckHandler (.application 1))).rc ≠ .success := by
    decide
  have hnone := (h hfailed).1
  cases hnone

end AwsIotSdk
