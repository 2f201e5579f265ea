import AwsIotSdk.NetworkRead
import AwsIotSdk.QueuedActions

/-! From a CONNACK back to the caller of a CONNECT: the handler that is pending
under the reserved id, and the code a blocking call returns. -/

namespace AwsIotSdk

open AwsIotSdk.Action NetworkRead

inductive ConnackReturnCode where
  | connectionAccepted
  | unacceptableProtocolVersionError
  | identifierRejectedError
  | serverUnavailableError
  | badUserdataError
  | notAuthorizedError
  deriving DecidableEq, Repr

namespace ConnackReturnCode

def toByte : ConnackReturnCode → UInt8
  | connectionAccepted => 0
  | unacceptableProtocolVersionError => 1
  | identifierRejectedError => 2
  | serverUnavailableError => 3
  | badUserdataError => 4
  | notAuthorizedError => 5

def response : ConnackReturnCode → ResponseCode
  | connectionAccepted => .mqttConnackConnectionAccepted
  | unacceptableProtocolVersionError => .mqttConnackUnacceptableProtocolVersionError
  | identifierRejectedError => .mqttConnackIdentifierRejectedError
  | serverUnavailableError => .mqttConnackServerUnavailableError
  | badUserdataError => .mqttConnackBadUserdataError
  | notAuthorizedError => .mqttConnackNotAuthorizedError

end ConnackReturnCode

def connackBody (flags : UInt8) (code : ConnackReturnCode) : Bytes := [flags, code.toByte]

def afterConnack (flags : UInt8) (code : ConnackReturnCode) (s : ClientState) : ClientState :=
  (handleConnack s (connackBody flags code)).2

/-! ### The handler -/

section Handler

variable (s : ClientState) (flags : UInt8)

theorem afterConnack_accepted : afterConnack flags .connectionAccepted s =
    ((s.setSessionPresent (flags = 1)).setConnected true).mapCore (·.forwardReceivedAck
      ConnectActionAsync.connackReservedPacketId .mqttConnackConnectionAccepted) := rfl

theorem afterConnack_refused {code : ConnackReturnCode} (h : code ≠ .connectionAccepted) :
    afterConnack flags code s = s.setSessionPresent (flags = 1) := by
  cases code with
  | connectionAccepted => exact absurd rfl h
  | unacceptableProtocolVersionError | identifierRejectedError | serverUnavailableError
    | badUserdataError | notAuthorizedError => rfl

/-- The handler is called once, with the code of the CONNACK, and its entry is the
one entry that goes. -/
def ResolvesConnect (s : ClientState) (h : AsyncAckHandler) (flags : UInt8)
    (code : ConnackReturnCode) : Prop :=
  let t := afterConnack flags code s
  t.ackCalls = s.ackCalls ++ [⟨h, ConnectActionAsync.connackReservedPacketId, code.response⟩] ∧
    t.pendingHandler ConnectActionAsync.connackReservedPacketId = none ∧
    ∀ j, j ≠ ConnectActionAsync.connackReservedPacketId →
      t.pendingAckMap.find j = s.pendingAckMap.find j

theorem resolvesConnect_iff {h : AsyncAckHandler}
    (hp : s.pendingHandler ConnectActionAsync.connackReservedPacketId = some h)
    (code : ConnackReturnCode) :
    ResolvesConnect s h flags code ↔ code = .connectionAccepted := by
  by_cases hc : code = .connectionAccepted
  · subst hc
    let t := (s.setSessionPresent (flags = 1)).setConnected true
    have ht : t.toClientCoreState.DeliversTo h ConnectActionAsync.connackReservedPacketId
        .mqttConnackConnectionAccepted :=
      (ClientCoreState.deliversTo_iff _ _ _ _).mpr hp
    exact iff_of_true ht rfl
  · have hcalls : (afterConnack flags code s).ackCalls = s.ackCalls := by
      rw [afterConnack_refused s flags hc]
      rfl
    refine iff_of_false (fun hr => ?_) hc
    have hlen := congrArg List.length (hcalls.symm.trans hr.1)
    simp at hlen

end Handler

/-! ### The blocking call -/

variable {σ : Type} [NetworkConnection σ]

/-- What a blocking CONNECT returns when this CONNACK is all that happens while it
waits. -/
def connectReturns (s : ClientState) (c : σ) (p : ConnectPacket) (flags : UInt8)
    (code : ConnackReturnCode) : ResponseCode :=
  (s.performAction c (afterConnack flags code) .connect (.connect p)).1

/-- The CONNECT goes out, and its handler is the one under the reserved id. -/
structure ConnectWaits (s : ClientState) (c : σ) (p : ConnectPacket) : Prop where
  registered : s.actionMap .connect = some .connect
  sent : ¬ connectRefused c p
  unshared : ∀ g, s.pendingHandler ConnectActionAsync.connackReservedPacketId = some g →
    g = .syncActionHandler

theorem performPacket_of_sent (s : ClientState) {c : σ} {p : ConnectPacket}
    (h : ¬ connectRefused c p) :
    ∃ c', ConnectActionAsync.performPacket s c p = (.success,
      (((registerAck s ConnectActionAsync.connackReservedPacketId p.pAsyncAckHandler).2.2
        ).setKeepAliveTimeout p.keepAliveTimeout).setDisconnectCallbackPending true, c') := by
  rcases performPacket_cases s c p with ⟨hc, -⟩ | ⟨-, hw, -⟩ | ⟨-, -, hsent⟩
  · exact absurd (.inl hc) h
  · exact absurd (.inr hw) h
  · exact ⟨_, hsent⟩

/-- The packet as a blocking call queues it, and the client before the action runs. -/
theorem performAction_connect {s : ClientState} (hregistered : s.actionMap .connect = some .connect)
    (c : σ) (awaitAck : ClientState → ClientState) (p : ConnectPacket) :
    let q := { p with toPacket := { p.toPacket with
      packetId := ConnectActionAsync.connackReservedPacketId
      pAsyncAckHandler := some .syncActionHandler } }
    let r := ConnectActionAsync.performPacket (((s.mapCore ({ · with
      syncActionResponse := .mqttRequestTimeoutError })).getNextActionId.2).setAutoReconnectData q)
      c q
    s.performAction c awaitAck .connect (.connect p) =
      if r.1 = .success ∧ r.2.1.pendingAckMap.contains
          ConnectActionAsync.connackReservedPacketId then
        ((awaitAck r.2.1).syncActionResponse, awaitAck r.2.1, r.2.2)
      else (r.1, r.2.1, r.2.2) := by
  simp only [ClientState.performAction, hregistered]
  rfl

theorem exists_performAction_connect {s : ClientState} {c : σ} {p : ConnectPacket}
    (h : ConnectWaits s c p) : ∃ t : ClientState,
      t.pendingHandler ConnectActionAsync.connackReservedPacketId = some .syncActionHandler ∧
      t.syncActionResponse = .mqttRequestTimeoutError ∧
      ∀ awaitAck, (s.performAction c awaitAck .connect (.connect p)).1 =
        (awaitAck t).syncActionResponse := by
  let q := { p with toPacket := { p.toPacket with
    packetId := ConnectActionAsync.connackReservedPacketId
    pAsyncAckHandler := some .syncActionHandler } }
  let u := ((s.mapCore ({ · with syncActionResponse := .mqttRequestTimeoutError
    })).getNextActionId.2).setAutoReconnectData q
  obtain ⟨c', hperform⟩ := performPacket_of_sent u (c := c) (p := q) h.sent
  let t := (ConnectActionAsync.performPacket u c q).2.1
  have hregister : t.pendingHandler ConnectActionAsync.connackReservedPacketId =
      some ((s.pendingHandler ConnectActionAsync.connackReservedPacketId).getD
        .syncActionHandler) := by
    have hr := ClientCoreState.pendingHandler_register u.toClientCoreState .syncActionHandler
      ConnectActionAsync.connackReservedPacketId ConnectActionAsync.connackReservedPacketId
    rw [if_pos rfl] at hr
    show (ConnectActionAsync.performPacket u c q).2.1.pendingHandler _ = _
    rw [hperform]
    exact hr
  have hpending : t.pendingHandler ConnectActionAsync.connackReservedPacketId =
      some .syncActionHandler := by
    rw [hregister]
    cases hg : s.pendingHandler ConnectActionAsync.connackReservedPacketId with
    | none => rfl
    | some g => rw [h.unshared g hg]; rfl
  have hcontains : t.pendingAckMap.contains ConnectActionAsync.connackReservedPacketId = true := by
    have hsome := Option.isSome_of_mem hpending
    simpa [ClientCoreState.pendingHandler, SortedMap.contains] using hsome
  refine ⟨t, hpending, ?_, fun awaitAck => ?_⟩
  · show (ConnectActionAsync.performPacket u c q).2.1.syncActionResponse = _
    rw [hperform]
    rfl
  · have hrc : (ConnectActionAsync.performPacket u c q).1 = .success := by rw [hperform]
    rw [performAction_connect h.registered c awaitAck p]
    exact congrArg Prod.fst (if_pos ⟨hrc, hcontains⟩)

theorem connectReturns_iff {s : ClientState} {c : σ} {p : ConnectPacket}
    (h : ConnectWaits s c p) (flags : UInt8) (code : ConnackReturnCode) :
    connectReturns s c p flags code = code.response ↔ code = .connectionAccepted := by
  obtain ⟨t, hpending, htimeout, hreturns⟩ := exists_performAction_connect h
  rw [connectReturns, hreturns]
  by_cases hc : code = .connectionAccepted
  · subst hc
    let u := (t.setSessionPresent (flags = 1)).setConnected true
    have hforward := ClientCoreState.forwardReceivedAck_of_pending u.toClientCoreState
      .syncActionHandler ConnectActionAsync.connackReservedPacketId
      .mqttConnackConnectionAccepted hpending
    refine iff_of_true ?_ rfl
    rw [afterConnack_accepted]
    exact congrArg ClientCoreState.syncActionResponse hforward
  · refine iff_of_false (fun hr => ?_) hc
    rw [afterConnack_refused t flags hc] at hr
    have hresponse : code.response = .mqttRequestTimeoutError := hr.symm.trans htimeout
    cases code <;> cases hresponse

/-- Both halves of what a CONNACK is to do. -/
theorem connack_resolves_iff (s : ClientState) (h : AsyncAckHandler) (flags : UInt8)
    (code : ConnackReturnCode)
    (hp : s.pendingHandler ConnectActionAsync.connackReservedPacketId = some h) :
    (ResolvesConnect s h flags code ↔ code = .connectionAccepted) ∧
      ∀ (caller : ClientState) (c : σ) (p : ConnectPacket), ConnectWaits caller c p →
        (connectReturns caller c p flags code = code.response ↔ code = .connectionAccepted) :=
  ⟨resolvesConnect_iff s flags hp code, fun _ _ _ hw => connectReturns_iff hw flags code⟩

def connectPacket : ConnectPacket := .init true ConnectPacket.mqtt311 60 none none false

def waitingClient : ClientState :=
  (registerAck freshClient ConnectActionAsync.connackReservedPacketId
    (some .syncActionHandler)).2.2

theorem connectWaits_freshClient :
    ConnectWaits freshClient (⟨false, []⟩ : StreamConnection) connectPacket where
  registered := rfl
  sent := by
    have hconnect : (NetworkConnection.connect (⟨false, []⟩ : StreamConnection)).1 = .success := rfl
    have hwrite : (writeToNetworkBuffer false
        (NetworkConnection.connect (⟨false, []⟩ : StreamConnection)).2
        connectPacket.toString).1 = .success := by rfl
    exact not_or.mpr ⟨not_not.mpr hconnect, not_not.mpr hwrite⟩
  unshared := fun g hg => by cases hg

theorem connack_resolves_iff_waiting :
    (ResolvesConnect waitingClient .syncActionHandler 1 .connectionAccepted ↔
      ConnackReturnCode.connectionAccepted = .connectionAccepted) ∧
      (connectReturns freshClient (⟨false, []⟩ : StreamConnection) connectPacket 1
          .connectionAccepted = ConnackReturnCode.connectionAccepted.response ↔
        ConnackReturnCode.connectionAccepted = .connectionAccepted) :=
  have hpending : waitingClient.pendingHandler ConnectActionAsync.connackReservedPacketId =
      some .syncActionHandler := by rfl
  have h := connack_resolves_iff (σ := StreamConnection) waitingClient .syncActionHandler 1
    .connectionAccepted hpending
  ⟨h.1, h.2 freshClient ⟨false, []⟩ connectPacket connectWaits_freshClient⟩

/-- Return code 5: no handler is called, and the blocking call times out. -/
theorem not_resolvesConnect_refused :
    ¬ ResolvesConnect waitingClient .syncActionHandler 0 .notAuthorizedError ∧
      connectReturns freshClient (⟨false, []⟩ : StreamConnection) connectPacket 0
        .notAuthorizedError = .mqttRequestTimeoutError := by
  refine ⟨fun h => ?_, ?_⟩
  · have hcalls := congrArg List.length h.1
    cases hcalls
  · obtain ⟨t, -, htimeout, hreturns⟩ := exists_performAction_connect connectWaits_freshClient
    rw [connectReturns, hreturns]
    exact htimeout

end AwsIotSdk
