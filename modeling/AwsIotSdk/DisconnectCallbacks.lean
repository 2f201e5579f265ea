import AwsIotSdk.ConnackResults
import AwsIotSdk.KeepaliveLoop
import AwsIotSdk.QueueRuns

/-! The callbacks of the losses the keepalive loop sees. A CONNECT that is written arms the
flag of the callback, and a failed attempt clears it. -/

namespace AwsIotSdk

open ClientState AwsIotSdk.Action

/-! ### What keeps the flag of the callback -/

structure CallbackKept (s t : ClientState) : Prop where
  trigger : t.triggerDisconnectCallback = s.triggerDisconnectCallback
  actionMap : t.actionMap = s.actionMap

section Kept

variable {s t u : ClientState}

theorem CallbackKept.refl (s : ClientState) : CallbackKept s s := ⟨rfl, rfl⟩

theorem CallbackKept.trans (h : CallbackKept s t) (h' : CallbackKept t u) : CallbackKept s u where
  trigger := h'.trigger.trans h.trigger
  actionMap := h'.actionMap.trans h.actionMap

theorem callbackKept_deactivate (s : ClientState) :
    CallbackKept s (DisconnectActionAsync.deactivate s) := by
  obtain ⟨heap, h⟩ := deactivate_eq s
  rw [h]
  exact ⟨rfl, rfl⟩

end Kept

variable {σ : Type} [NetworkConnection σ]

theorem callbackKept_disconnect (s : ClientState) (c : σ) (data : ActionData) :
    CallbackKept s (DisconnectActionAsync.performAction s c data).state := by
  have hset : CallbackKept s (s.setConnected false) := ⟨rfl, rfl⟩
  unfold DisconnectActionAsync.performAction
  by_cases hc : s.isConnected = true
  · simp only [hc, Bool.not_true, Bool.false_eq_true, if_false]
    exact hset.trans (callbackKept_deactivate _)
  · simp only [hc, Bool.not_false, if_true]
    exact CallbackKept.refl s

/-- A blocking call, for an action of which something is known. -/
theorem performAction_rule {R : ResponseCode → ClientState → Prop} {s : ClientState} {c : σ}
    {awaitAck : ClientState → ClientState} {actionType : ActionType} {kind : ActionKind}
    {data : ActionData} (hkind : s.actionMap actionType = some kind)
    (hdone : ∀ t i, CallbackKept s t →
      let r := kind.performAction t c ((data.setAsyncAckHandler .syncActionHandler).setActionId i)
      R r.rc r.state ∧ (r.rc = .success →
        R (awaitAck r.state).syncActionResponse (awaitAck r.state))) :
    R (s.performAction c awaitAck actionType data).1
      (s.performAction c awaitAck actionType data).2.1 := by
  unfold performAction
  rw [hkind]
  obtain ⟨hnow, hlater⟩ := hdone ((s.mapCore ({ · with
    syncActionResponse := .mqttRequestTimeoutError })).getNextActionId).2
    ((s.mapCore ({ · with syncActionResponse := .mqttRequestTimeoutError })).getNextActionId).1
    ⟨rfl, rfl⟩
  dsimp only at hnow hlater ⊢
  split_ifs with hwait
  · exact hlater hwait.1
  · exact hnow

/-- No code of the network layer is that of an accepted CONNECT. -/
structure NetworkCodes (σ : Type) [NetworkConnection σ] : Prop where
  connect : ∀ c : σ, (NetworkConnection.connectInternal c).1 ≠ .mqttConnackConnectionAccepted
  write : ∀ (c : σ) (buf : Bytes) (out : Nat),
    (NetworkConnection.writeInternal c buf out).rc ≠ .mqttConnackConnectionAccepted

theorem NetworkCodes.writeLoop (h : NetworkCodes σ) (b : Bool) (buf : Bytes) (fuel : Nat) (c : σ)
    (tempBuf : Bytes) (total cur : Nat) :
    (Action.writeLoop b buf fuel c tempBuf total cur).rc ≠ .mqttConnackConnectionAccepted := by
  induction fuel generalizing c tempBuf total cur with
  | zero => exact ResponseCode.noConfusion
  | succ fuel ih =>
    have hrc : (NetworkConnection.write c tempBuf cur).rc ≠ .mqttConnackConnectionAccepted := by
      rw [NetworkConnection.write]
      split_ifs
      · exact h.write _ _ _
      · exact ResponseCode.noConfusion
    rw [Action.writeLoop]
    split
    · exact ih _ _ _ _
    · exact hrc

theorem NetworkCodes.writeToNetworkBuffer (h : NetworkCodes σ) (b : Bool) (c : σ) (buf : Bytes) :
    (Action.writeToNetworkBuffer b c buf).1 ≠ .mqttConnackConnectionAccepted := by
  rw [Action.writeToNetworkBuffer]
  have hloop := h.writeLoop b buf (buf.length + 1) c buf 0 0
  generalize Action.writeLoop b buf (buf.length + 1) c buf 0 0 = r at hloop ⊢
  by_cases hempty : buf.length = 0
  · rw [if_pos hempty]
    exact ResponseCode.noConfusion
  rw [if_neg hempty]
  dsimp only
  by_cases hshort : r.rc = .success ∧ r.sizeWrittenBytesOut ≠ buf.length
  · rw [if_pos hshort]
    cases b <;> exact ResponseCode.noConfusion
  · rw [if_neg hshort]
    exact hloop

theorem networkCodes_streamConnection : NetworkCodes StreamConnection where
  connect := fun _ => ResponseCode.noConfusion
  write := fun _ _ _ => ResponseCode.noConfusion

/-- A CONNECT that ends with success has armed the callback. -/
theorem performPacket_trigger (hcodes : NetworkCodes σ) (s : ClientState) (c : σ)
    (p : ConnectPacket) :
    (ConnectActionAsync.performPacket s c p).1 ≠ .mqttConnackConnectionAccepted ∧
      (ConnectActionAsync.performPacket s c p).2.1.actionMap = s.actionMap ∧
      ((ConnectActionAsync.performPacket s c p).1 = .success →
        (ConnectActionAsync.performPacket s c p).2.1.triggerDisconnectCallback = true) := by
  have hmap := (QueueKept.of_writesAck (writesAck_performPacket s c p)).actionMap
  rcases performPacket_cases s c p with ⟨hconnect, h⟩ | ⟨-, hwrite, h⟩ | ⟨-, -, h⟩
  · rw [h] at hmap ⊢
    exact ⟨hcodes.connect c, hmap, fun hrc => absurd hrc hconnect⟩
  · rw [h] at hmap ⊢
    exact ⟨hcodes.writeToNetworkBuffer false _ _, hmap, fun hrc => absurd hrc hwrite⟩
  · rw [h] at hmap ⊢
    exact ⟨ResponseCode.noConfusion, hmap, fun _ => rfl⟩

/-- What the other threads do while a call waits leaves the flag alone. -/
def KeepsCallback (f : ClientState → ClientState) : Prop := ∀ s, CallbackKept s (f s)

theorem callbackKept_afterConnack (flags : UInt8) (code : ConnackReturnCode) :
    KeepsCallback (afterConnack flags code) := by
  intro s
  by_cases hc : code = .connectionAccepted
  · subst hc
    rw [afterConnack_accepted]
    exact ⟨rfl, (queueKept_forwardReceivedAck _ _ _).actionMap⟩
  · rw [afterConnack_refused s flags hc]
    exact ⟨rfl, rfl⟩

section Calls

variable {s : ClientState} {c : σ} {awaitAck : ClientState → ClientState}

theorem performAction_connect_armed (hcodes : NetworkCodes σ) (hawait : KeepsCallback awaitAck)
    (hregistered : s.actionMap .connect = some .connect) (p : ConnectPacket) :
    (s.performAction c awaitAck .connect (.connect p)).2.1.actionMap = s.actionMap ∧
      ((s.performAction c awaitAck .connect (.connect p)).1 = .mqttConnackConnectionAccepted →
        (s.performAction c awaitAck .connect (.connect p)).2.1.triggerDisconnectCallback =
          true) := by
  refine performAction_rule (R := fun rc t => t.actionMap = s.actionMap ∧
    (rc = .mqttConnackConnectionAccepted → t.triggerDisconnectCallback = true)) hregistered ?_
  intro t i ht
  let q : ConnectPacket := { p with toPacket := { p.toPacket with
    packetId := ConnectActionAsync.connackReservedPacketId
    pAsyncAckHandler := some .syncActionHandler } }
  obtain ⟨hcode, hmap, harmed⟩ := performPacket_trigger hcodes (t.setAutoReconnectData q) c q
  have hstate := hawait (ConnectActionAsync.performPacket (t.setAutoReconnectData q) c q).2.1
  refine ⟨⟨hmap.trans ht.actionMap, fun h => absurd h hcode⟩, ?_⟩
  intro hsent
  refine ⟨hstate.actionMap.trans (hmap.trans ht.actionMap), fun _ => ?_⟩
  exact hstate.trigger.trans (harmed hsent)

theorem callbackKept_disconnectCall (hawait : KeepsCallback awaitAck)
    (hregistered : s.actionMap .disconnect = some .disconnect) (data : ActionData) :
    CallbackKept s (s.performAction c awaitAck .disconnect data).2.1 := by
  refine performAction_rule (R := fun _ t => CallbackKept s t) hregistered ?_
  intro t i ht
  have hstate := ht.trans (callbackKept_disconnect t c
    ((data.setAsyncAckHandler .syncActionHandler).setActionId i))
  exact ⟨hstate, fun _ => hstate.trans (hawait _)⟩

end Calls

namespace KeepaliveActionRunner

theorem callbackKept_writeTopics {b : Bool} {topicVector : List SubscriptionPtr}
    {r w : ResubscribeState σ} (h : writeTopics b topicVector r = .ok w) :
    CallbackKept r.state w.state := by
  rw [writeTopics] at h
  split at h
  · cases h
  · cases h
    exact ⟨rfl, rfl⟩

theorem callbackKept_resubscribeLoop {b : Bool} {es : List (Bytes × SubscriptionPtr)}
    {topicVector rest : List SubscriptionPtr} {r w : ResubscribeState σ}
    (h : resubscribeLoop b es topicVector r = .ok (rest, w)) : CallbackKept r.state w.state := by
  induction es generalizing topicVector r with
  | nil =>
    cases h
    exact CallbackKept.refl _
  | cons e es ih =>
    rw [resubscribeLoop] at h
    by_cases hfull : (topicVector ++ [e.2]).length = maxTopicsInOneSubscribePacket
    · rw [if_pos hfull] at h
      cases hw : writeTopics b (topicVector ++ [e.2]) r with
      | error f =>
        rw [hw] at h
        cases h
      | ok u =>
        have hkept := callbackKept_writeTopics hw
        rw [hw] at h
        dsimp only at h
        by_cases hrc : u.rc ≠ .success
        · rw [if_pos hrc] at h
          cases h
          exact hkept
        · rw [if_neg hrc] at h
          exact hkept.trans (ih h)
    · rw [if_neg hfull] at h
      exact ih h

theorem callbackKept_resubscribe {b : Bool} {s : ClientState} {c : σ} {w : ResubscribeState σ}
    (h : resubscribe b s c = .ok w) : CallbackKept s w.state := by
  rw [resubscribe] at h
  cases hloop : resubscribeLoop b s.subscriptionMap.entries []
      ⟨.mqttConnackConnectionAccepted, s, c, []⟩ with
  | error f =>
    rw [hloop] at h
    cases h
  | ok x =>
    have hkept := callbackKept_resubscribeLoop hloop
    rw [hloop] at h
    dsimp only at h
    split_ifs at h
    · exact hkept.trans (callbackKept_writeTopics h)
    · cases h
      exact hkept

/-! ### The calls of one iteration -/

def isDisconnected : KeepaliveCallback → Bool
  | .disconnected _ => true
  | _ => false

def disconnectCalls (r : KeepaliveActionRunner σ) : Nat := r.callbacks.countP isDisconnected

/-- The flag of the callback, as the loop reads it. -/
def armed (r : KeepaliveActionRunner σ) : Bool := r.client.triggerDisconnectCallback

section Iteration

variable {t : KeepaliveTurn σ} {r r' : KeepaliveActionRunner σ}

omit [NetworkConnection σ] in
theorem disconnectCalls_callBack (r : KeepaliveActionRunner σ) (hasHandler : Bool)
    (callback : KeepaliveCallback) (h : isDisconnected callback = false) :
    (r.callBack hasHandler callback).disconnectCalls = r.disconnectCalls := by
  rw [callBack]
  split_ifs
  · simp [disconnectCalls, h]
  · rfl

omit [NetworkConnection σ] in
theorem callBack_rest (r : KeepaliveActionRunner σ) (hasHandler : Bool)
    (callback : KeepaliveCallback) :
    (r.callBack hasHandler callback).client = r.client ∧
      (r.callBack hasHandler callback).attempts = r.attempts := by
  rw [callBack]
  split_ifs <;> exact ⟨rfl, rfl⟩

omit [NetworkConnection σ] in
theorem announceLoss_calls {p : ConnectPacket} (hdata : r.client.pConnectData = some p)
    (hhandler : t.handlers.disconnect = true) :
    (announceLoss t r).disconnectCalls = r.disconnectCalls + r.armed.toNat := by
  rw [announceLoss, armed]
  by_cases harmed : r.client.triggerDisconnectCallback = true
  · have hcall : callDisconnectHandler t r =
        { r with callbacks := r.callbacks ++ [.disconnected p.getClientId] } := by
      rw [callDisconnectHandler, hdata]
      dsimp only
      rw [callBack, if_pos hhandler]
    rw [if_pos harmed, hcall, harmed]
    simp [disconnectCalls, isDisconnected]
  · rw [if_neg harmed, Bool.eq_false_iff.mpr harmed]
    rfl

theorem performDisconnect_spec (hawait : KeepsCallback t.awaitDisconnect)
    (hregistered : r.client.actionMap .disconnect = some .disconnect) :
    (performDisconnect t r).2.armed = r.armed ∧
      (performDisconnect t r).2.attempts = r.attempts ∧
      (performDisconnect t r).2.disconnectCalls = r.disconnectCalls :=
  ⟨(callbackKept_disconnectCall hawait hregistered _).trigger, rfl, rfl⟩

theorem resume_spec {p : ConnectPacket} (hawait : KeepsCallback t.awaitDisconnect)
    (hregistered : r.client.actionMap .disconnect = some .disconnect)
    (h : resume t p r = .ok r') :
    r'.armed = r.armed ∧ r'.attempts = r.attempts ∧ r'.disconnectCalls = r.disconnectCalls := by
  rw [resume] at h
  dsimp only at h
  split_ifs at h
  · cases h
    exact ⟨rfl, rfl, rfl⟩
  cases hw : resubscribe t.threadContinue (r.setRequired false).client
      (r.setRequired false).connection with
  | error f =>
    rw [hw] at h
    cases h
  | ok w =>
    have hkept := callbackKept_resubscribe hw
    rw [hw] at h
    let u : KeepaliveActionRunner σ :=
      { r.setRequired false with client := w.state, connection := w.connection }
    obtain ⟨hclient, hattempts⟩ :=
      callBack_rest u t.handlers.resubscribe (.resubscribed p.getClientId w.rc)
    have hcalls := disconnectCalls_callBack u t.handlers.resubscribe
      (.resubscribed p.getClientId w.rc) rfl
    have harmed : (u.callBack t.handlers.resubscribe
        (.resubscribed p.getClientId w.rc)).armed = r.armed := by
      rw [armed, hclient]
      exact hkept.trigger
    have hmap : (u.callBack t.handlers.resubscribe
        (.resubscribed p.getClientId w.rc)).client.actionMap .disconnect =
          some .disconnect := by
      rw [hclient]
      exact (congrFun hkept.actionMap _).trans hregistered
    dsimp only at h
    split_ifs at h
    · cases h
      exact ⟨harmed, hattempts, hcalls⟩
    · cases h
      obtain ⟨harmed', hattempts', hcalls'⟩ := performDisconnect_spec hawait hmap
      exact ⟨harmed'.trans harmed, hattempts'.trans hattempts, hcalls'.trans hcalls⟩

theorem attemptReconnect_spec (hcodes : NetworkCodes σ) (hconnack : KeepsCallback t.awaitConnack)
    (hregistered : r.client.actionMap .connect = some .connect) {p : ConnectPacket}
    (hdata : r.client.pConnectData = some p) :
    ∃ rc u, attemptReconnect t r = .ok (rc, p, u) ∧ u.client.actionMap = r.client.actionMap ∧
      u.attempts = r.attempts ++ [rc] ∧ u.disconnectCalls = r.disconnectCalls ∧
      (rc = .mqttConnackConnectionAccepted → u.armed = true) := by
  obtain ⟨hmap, harmed⟩ :=
    performAction_connect_armed (c := r.connection) hcodes hconnack hregistered p
  rw [attemptReconnect, hdata]
  dsimp only
  generalize r.client.performAction r.connection t.awaitConnack .connect (.connect p) = x
    at hmap harmed ⊢
  let u : KeepaliveActionRunner σ :=
    { r with client := x.2.1, connection := x.2.2, attempts := r.attempts ++ [x.1] }
  obtain ⟨hclient, hattempts⟩ :=
    callBack_rest u t.handlers.reconnect (.reconnected p.getClientId x.1)
  refine ⟨x.1, u.callBack t.handlers.reconnect (.reconnected p.getClientId x.1), rfl, ?_,
    hattempts, disconnectCalls_callBack u t.handlers.reconnect _ rfl, ?_⟩
  · rw [hclient]
    exact hmap
  · intro haccepted
    rw [armed, hclient]
    exact harmed haccepted

omit [NetworkConnection σ] in
theorem announceLoss_rest (t : KeepaliveTurn σ) (r : KeepaliveActionRunner σ) :
    (announceLoss t r).client = r.client ∧ (announceLoss t r).attempts = r.attempts := by
  have hcall : (callDisconnectHandler t r).client = r.client ∧
      (callDisconnectHandler t r).attempts = r.attempts := by
    rw [callDisconnectHandler]
    split
    · exact ⟨rfl, rfl⟩
    · exact callBack_rest _ _ _
  rw [announceLoss]
  split_ifs
  · exact hcall
  · exact ⟨rfl, rfl⟩

theorem reconnect_cases (h : reconnect t r = .ok r') :
    ∃ rc p u, r.client.pConnectData = some p ∧
      attemptReconnect t (announceLoss t { r with client := r.client.setPingreqPending false }) =
        .ok (rc, p, u) ∧
      (rc = .mqttConnackConnectionAccepted ∧ resume t p u = .ok r' ∨
        rc ≠ .mqttConnackConnectionAccepted ∧ u.backOff = r') := by
  let s : KeepaliveActionRunner σ := { r with client := r.client.setPingreqPending false }
  have hclient := (announceLoss_rest t s).1
  rw [reconnect] at h
  cases hattempt : attemptReconnect t (announceLoss t s) with
  | error f =>
    rw [hattempt] at h
    cases h
  | ok x =>
    obtain ⟨rc, p, u⟩ := x
    have hdata : r.client.pConnectData = some p := by
      have hsome := hattempt
      rw [attemptReconnect, hclient] at hsome
      cases hp : r.client.pConnectData with
      | none =>
        rw [show s.client.pConnectData = none from hp] at hsome
        cases hsome
      | some q =>
        rw [show s.client.pConnectData = some q from hp] at hsome
        cases hsome
        rfl
    rw [hattempt] at h
    refine ⟨rc, p, u, hdata, rfl, ?_⟩
    dsimp only at h
    by_cases haccepted : rc = .mqttConnackConnectionAccepted
    · rw [if_pos haccepted] at h
      exact .inl ⟨haccepted, h⟩
    · rw [if_neg haccepted] at h
      exact .inr ⟨haccepted, Except.ok.inj h⟩

/-- The callback is armed after an attempt exactly when the attempt was accepted. -/
theorem reconnect_armed (hcodes : NetworkCodes σ) (hconnack : KeepsCallback t.awaitConnack)
    (hdisconnect : KeepsCallback t.awaitDisconnect)
    (hregistered : r.client.actionMap = registeredActions) (h : reconnect t r = .ok r') :
    ∃ rc, r'.attempts = r.attempts ++ [rc] ∧
      r'.armed = decide (rc = .mqttConnackConnectionAccepted) := by
  obtain ⟨rc, p, u, hdata, hattempt, hend⟩ := reconnect_cases h
  let s : KeepaliveActionRunner σ := { r with client := r.client.setPingreqPending false }
  obtain ⟨hclient, hsame⟩ := announceLoss_rest t s
  have hmap : (announceLoss t s).client.actionMap = registeredActions :=
    hclient.symm ▸ hregistered
  obtain ⟨rc', u', hattempt', humap, hattempts, -, harmed⟩ := attemptReconnect_spec
    (t := t) (r := announceLoss t s) hcodes hconnack (congrFun hmap .connect)
    (show (announceLoss t s).client.pConnectData = some p from hclient.symm ▸ hdata)
  cases hattempt.symm.trans hattempt'
  have hall : u.attempts = r.attempts ++ [rc] := hattempts.trans (congrArg (· ++ [rc]) hsame)
  rcases hend with ⟨haccepted, hresume⟩ | ⟨hrefused, hback⟩
  · obtain ⟨harmed', hattempts', -⟩ := resume_spec hdisconnect
      (congrFun (humap.trans hmap) .disconnect) hresume
    refine ⟨rc, hattempts'.trans hall, ?_⟩
    rw [harmed', harmed haccepted, decide_eq_true haccepted]
  · subst hback
    refine ⟨rc, hall, ?_⟩
    rw [decide_eq_false hrefused]
    rfl

/-- One attempt calls the handler when the callback is armed. -/
theorem reconnect_calls (hcodes : NetworkCodes σ) (hconnack : KeepsCallback t.awaitConnack)
    (hdisconnect : KeepsCallback t.awaitDisconnect) (hhandler : t.handlers.disconnect = true)
    (hregistered : r.client.actionMap = registeredActions) (h : reconnect t r = .ok r') :
    r'.disconnectCalls = r.disconnectCalls + r.armed.toNat := by
  obtain ⟨rc, p, u, hdata, hattempt, hend⟩ := reconnect_cases h
  let s : KeepaliveActionRunner σ := { r with client := r.client.setPingreqPending false }
  have hclient := (announceLoss_rest t s).1
  have hcalls := announceLoss_calls (t := t) (r := s) hdata hhandler
  have hmap : (announceLoss t s).client.actionMap = registeredActions :=
    hclient.symm ▸ hregistered
  obtain ⟨rc', u', hattempt', humap, -, hucalls, -⟩ := attemptReconnect_spec
    (t := t) (r := announceLoss t s) hcodes hconnack (congrFun hmap .connect)
    (show (announceLoss t s).client.pConnectData = some p from hclient.symm ▸ hdata)
  cases hattempt.symm.trans hattempt'
  have htotal : u.disconnectCalls = r.disconnectCalls + r.armed.toNat := hucalls.trans hcalls
  rcases hend with ⟨-, hresume⟩ | ⟨-, hback⟩
  · obtain ⟨-, -, hcalls'⟩ := resume_spec hdisconnect
      (congrFun (humap.trans hmap) .disconnect) hresume
    exact hcalls'.trans htotal
  · exact hback ▸ htotal

/-- An iteration that sees no loss calls no handler for one. -/
theorem ping_spec (hdisconnect : KeepsCallback t.awaitDisconnect)
    (hregistered : r.client.actionMap .disconnect = some .disconnect) :
    (ping t r).armed = r.armed ∧ (ping t r).disconnectCalls = r.disconnectCalls := by
  have hclose : ∀ u : KeepaliveActionRunner σ, u.client = r.client → u.callbacks = r.callbacks →
      ((performDisconnect t u).2.setRequired true).armed = r.armed ∧
        ((performDisconnect t u).2.setRequired true).disconnectCalls = r.disconnectCalls := by
    intro u hclient hcallbacks
    obtain ⟨harmed, -, hcalls⟩ :=
      performDisconnect_spec (t := t) (r := u) hdisconnect (hclient ▸ hregistered)
    have hu : u.armed = r.armed ∧ u.disconnectCalls = r.disconnectCalls := by
      rw [armed, disconnectCalls, hclient, hcallbacks]
      exact ⟨rfl, rfl⟩
    exact ⟨harmed.trans hu.1, hcalls.trans hu.2⟩
  rw [ping]
  split_ifs
  · exact ⟨rfl, rfl⟩
  · exact hclose r rfl rfl
  · exact ⟨rfl, rfl⟩
  · dsimp only
    split_ifs
    · exact hclose _ rfl rfl
    · exact ⟨rfl, rfl⟩
  · exact ⟨rfl, rfl⟩

/-- The runner as the turn finds it. -/
def met (t : KeepaliveTurn σ) (r : KeepaliveActionRunner σ) : KeepaliveActionRunner σ :=
  { r with
    client := (t.others (r.client, r.connection)).1
    connection := (t.others (r.client, r.connection)).2 }

theorem iteration_of_required (henabled : (met t r).client.isAutoReconnectEnabled = true)
    (hrequired : (met t r).client.isAutoReconnectRequired = true) :
    iteration t r = reconnect t (met t r) := by
  have hiteration : iteration t r =
      if (met t r).client.isAutoReconnectEnabled && (met t r).client.isAutoReconnectRequired then
        reconnect t (met t r)
      else .ok (ping t (giveUp t (met t r))) := rfl
  rw [hiteration, henabled, hrequired]
  rfl

/-- No reconnect is attempted, and there is nothing to give up. -/
theorem iteration_of_idle (hidle : (met t r).client.isAutoReconnectRequired = false ∨
      (met t r).client.isAutoReconnectEnabled = false ∧ (met t r).armed = false) :
    iteration t r = .ok (ping t (met t r)) := by
  have hiteration : iteration t r =
      if (met t r).client.isAutoReconnectEnabled && (met t r).client.isAutoReconnectRequired then
        reconnect t (met t r)
      else .ok (ping t (giveUp t (met t r))) := rfl
  have hgiveUp : giveUp t (met t r) = if (met t r).client.isAutoReconnectRequired &&
      (met t r).armed then { callDisconnectHandler t (met t r) with
        client := (callDisconnectHandler t (met t r)).client.setDisconnectCallbackPending false }
      else met t r := rfl
  rw [hiteration, hgiveUp]
  rcases hidle with hcalm | ⟨hdisabled, hunarmed⟩
  · simp [hcalm]
  · simp [hdisabled, hunarmed]

end Iteration

end KeepaliveActionRunner

/-! ### Runs -/

/-- `inLoss`: the loop has seen a loss, and no attempt was accepted since. -/
structure LossRun (σ : Type) where
  loop : KeepaliveActionRunner σ
  inLoss : Bool
  losses : Nat

namespace LossRun

def start (client : ClientState) (c : σ) (minReconnectBackoffTimeout
    maxReconnectBackoffTimeout : Int) : LossRun σ :=
  ⟨.start client c minReconnectBackoffTimeout maxReconnectBackoffTimeout, false, 0⟩

/-- The client as the turn finds it. -/
def met (r : LossRun σ) (t : KeepaliveTurn σ) : ClientState :=
  (t.others (r.loop.client, r.loop.connection)).1

def seesNewLoss (r : LossRun σ) (t : KeepaliveTurn σ) : Bool :=
  (r.met t).isAutoReconnectRequired && !r.inLoss

def step (r : LossRun σ) (t : KeepaliveTurn σ) : Option (LossRun σ) :=
  match KeepaliveActionRunner.iteration t r.loop with
  | .error _ => none
  | .ok loop => some ⟨loop,
      if (r.met t).isAutoReconnectRequired then
        loop.attempts.getLast? ≠ some .mqttConnackConnectionAccepted
      else r.inLoss,
      r.losses + (r.seesNewLoss t).toNat⟩

/-- The turn of a client that reconnects by itself and has a handler for its losses. -/
structure SeesLosses (r : LossRun σ) (t : KeepaliveTurn σ) : Prop where
  handler : t.handlers.disconnect = true
  enabled : (r.met t).isAutoReconnectEnabled = true
  data : (r.met t).pConnectData.isSome = true
  registered : (r.met t).actionMap = registeredActions
  trigger : (r.met t).triggerDisconnectCallback = r.loop.client.triggerDisconnectCallback
  awaitConnack : KeepsCallback t.awaitConnack
  awaitDisconnect : KeepsCallback t.awaitDisconnect

/-- The callback is armed whenever the loop is not in a loss. -/
structure Inv (r : LossRun σ) : Prop where
  calls : r.loop.disconnectCalls = r.losses
  armed : r.loop.armed = !r.inLoss

variable {r r' : LossRun σ} {t : KeepaliveTurn σ}

theorem inv_step (hcodes : NetworkCodes σ) (hi : Inv r) (ht : SeesLosses r t)
    (h : step r t = some r') : Inv r' := by
  let u : KeepaliveActionRunner σ := KeepaliveActionRunner.met t r.loop
  have hcalls : u.disconnectCalls = r.losses := hi.calls
  have harmed : u.armed = !r.inLoss := ht.trigger.trans hi.armed
  rw [step] at h
  cases hlost : (r.met t).isAutoReconnectRequired with
  | true =>
    rw [KeepaliveActionRunner.iteration_of_required ht.enabled hlost] at h
    cases hx : KeepaliveActionRunner.reconnect t u with
    | error f =>
      rw [hx] at h
      cases h
    | ok loop =>
      have hcalls' := KeepaliveActionRunner.reconnect_calls hcodes ht.awaitConnack
        ht.awaitDisconnect ht.handler ht.registered hx
      obtain ⟨rc, hattempts, harmed'⟩ := KeepaliveActionRunner.reconnect_armed hcodes
        ht.awaitConnack ht.awaitDisconnect ht.registered hx
      rw [hx] at h
      cases h
      refine ⟨?_, ?_⟩
      · dsimp only
        rw [hcalls', hcalls, harmed, seesNewLoss, hlost, Bool.true_and]
      · dsimp only
        rw [harmed', hattempts, List.getLast?_concat, if_pos hlost]
        by_cases haccepted : rc = .mqttConnackConnectionAccepted <;> simp [haccepted]
  | false =>
    have hcalm : ¬ (r.met t).isAutoReconnectRequired = true := by
      rw [hlost]
      exact Bool.false_ne_true
    obtain ⟨harmed', hcalls'⟩ := KeepaliveActionRunner.ping_spec (t := t) (r := u)
      ht.awaitDisconnect (congrFun ht.registered .disconnect)
    rw [KeepaliveActionRunner.iteration_of_idle (.inl hlost)] at h
    cases h
    refine ⟨?_, ?_⟩
    · dsimp only
      rw [hcalls', hcalls, seesNewLoss, hlost]
      rfl
    · dsimp only
      rw [harmed', harmed, if_neg hcalm]

/-- However many attempts fail, the handler was called once for each loss, and a turn calls it
when it is the first to see a loss. -/
theorem disconnectCalls_eq_losses (hcodes : NetworkCodes σ) (client : ClientState) (c : σ)
    (minReconnectBackoffTimeout maxReconnectBackoffTimeout : Int)
    (h : Transition.Reachable step SeesLosses
      (start client c minReconnectBackoffTimeout maxReconnectBackoffTimeout) r) :
    r.loop.disconnectCalls = r.losses ∧
      ∀ t r', SeesLosses r t → step r t = some r' →
        r'.loop.disconnectCalls = r.loop.disconnectCalls + (r.seesNewLoss t).toNat := by
  have hi : Inv r := h.invariant ⟨rfl, rfl⟩ (fun _ _ _ hi ht hs => inv_step hcodes hi ht hs)
  refine ⟨hi.calls, ?_⟩
  intro t r' ht hs
  have hi' := inv_step hcodes hi ht hs
  rw [hi'.calls, hi.calls]
  rw [step] at hs
  split at hs
  next => cases hs
  next =>
    cases hs
    rfl

def connectedOnce : ClientState := freshClient.setAutoReconnectData connectPacket

/-- A turn that finds the connection lost. -/
def lostTurn (awaitConnack : ClientState → ClientState) : KeepaliveTurn StreamConnection where
  threadContinue := true
  handlers := ⟨true, false, false⟩
  minReconnectBackoffTimeout := 1
  maxReconnectBackoffTimeout := 128
  isElapsed := false
  others := fun x => (x.1.setAutoReconnectRequired true, x.2)
  awaitConnack := awaitConnack
  awaitDisconnect := id

/-- An attempt that times out and one that is accepted, and a second loss after it. -/
theorem disconnectCalls_eq_losses_twice :
    ∃ r : LossRun StreamConnection, Transition.run step
      (start connectedOnce (⟨false, []⟩ : StreamConnection) 1 128)
      [lostTurn id, lostTurn (afterConnack 0 .connectionAccepted), lostTurn id] = some r ∧
      r.losses = 2 ∧ r.loop.disconnectCalls = r.losses := by
  have hid : KeepsCallback id := fun s => CallbackKept.refl s
  have haccepted := callbackKept_afterConnack 0 .connectionAccepted
  have htimedOut : Transition.Reachable step SeesLosses
      (start connectedOnce (⟨false, []⟩ : StreamConnection) 1 128) _ :=
    .tail .refl (m := lostTurn id) ⟨rfl, rfl, rfl, rfl, rfl, hid, hid⟩ rfl
  have hreconnected := htimedOut.tail (m := lostTurn (afterConnack 0 .connectionAccepted))
    ⟨rfl, rfl, rfl, rfl, rfl, haccepted, hid⟩ rfl
  have hlostAgain := hreconnected.tail (m := lostTurn id)
    ⟨rfl, rfl, rfl, rfl, rfl, hid, hid⟩ rfl
  exact ⟨_, rfl, rfl, (disconnectCalls_eq_losses networkCodes_streamConnection connectedOnce
    (⟨false, []⟩ : StreamConnection) 1 128 hlostAgain).1⟩

end LossRun

end AwsIotSdk
