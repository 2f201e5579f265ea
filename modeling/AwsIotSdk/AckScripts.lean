import AwsIotSdk.ActionEffects

/-! What an action does to the pending acks, one operation after the other. The
operations depend on how the network calls of the action end, and that is all
the other threads see of it. -/

namespace AwsIotSdk

inductive AckMapOp where
  | register (actionId : UInt16) (h : AsyncAckHandler)
  | delete (actionId : UInt16)

def AckMapOp.apply (s : ClientCoreState) : AckMapOp → ClientCoreState
  | .register i h => (s.registerPendingAck i (some h)).2
  | .delete i => s.deletePendingAck i

/-- An action with the results of its network calls. A subscribe packet has a
number of topics that are active already; its code is the one of the write,
or a success when no other topics are left. -/
inductive Sending where
  | connect (connectRc writeRc : ResponseCode)
  | disconnect (rc : ResponseCode)
  | publish (qos : QoS) (writeRc : ResponseCode)
  | puback (writeRc : ResponseCode)
  | subscribe (active : Nat) (rc : ResponseCode)
  | unsubscribe (writeRc : ResponseCode)

namespace Sending

def kind : Sending → ActionKind
  | .connect _ _ => .connect
  | .disconnect _ => .disconnect
  | .publish _ _ => .publish
  | .puback _ => .puback
  | .subscribe _ _ => .subscribe
  | .unsubscribe _ => .unsubscribe

def rc : Sending → ResponseCode
  | .connect connectRc writeRc => if connectRc ≠ .success then connectRc else writeRc
  | .disconnect rc | .publish _ rc | .puback rc | .subscribe _ rc | .unsubscribe rc => rc

def actionId (a : Sending) (id : UInt16) : UInt16 :=
  match a with
  | .connect _ _ => ConnectActionAsync.connackReservedPacketId
  | _ => id

def rollback (id : UInt16) (rc : ResponseCode) : List AckMapOp :=
  if rc ≠ .success then [.delete id] else []

def ackOps (a : Sending) (id : UInt16) : Option AsyncAckHandler → List AckMapOp
  | none => []
  | some h =>
    match a with
    | .connect connectRc writeRc =>
      .register (a.actionId id) h ::
        (if connectRc ≠ .success then [] else rollback (a.actionId id) writeRc)
    | .publish qos writeRc => if qos ≠ .qos0 then .register id h :: rollback id writeRc else []
    | .subscribe active rc =>
      .register id h :: (List.replicate active (.delete id) ++ rollback id rc)
    | .unsubscribe writeRc => .register id h :: rollback id writeRc
    | .disconnect _ | .puback _ => []

end Sending

def ActionData.kind : ActionData → ActionKind
  | .connect _ => .connect
  | .disconnect _ => .disconnect
  | .publish _ => .publish
  | .puback _ => .puback
  | .subscribe _ => .subscribe
  | .unsubscribe _ => .unsubscribe

def applyOps (s : ClientCoreState) (ops : List AckMapOp) : ClientCoreState :=
  ops.foldl AckMapOp.apply s

theorem applyOps_append (s : ClientCoreState) (ops ops' : List AckMapOp) :
    applyOps s (ops ++ ops') = applyOps (applyOps s ops) ops' := List.foldl_append

section Actions

open AwsIotSdk.Action

variable {σ : Type} [NetworkConnection σ]

def deletes (isAckRegistered : Bool) (n : Nat) (id : UInt16) : List AckMapOp :=
  if isAckRegistered then List.replicate n (.delete id) else []

theorem deleteAck_core (s : ClientState) (id : UInt16) (isAckRegistered : Bool) :
    (deleteAck s isAckRegistered id).toClientCoreState =
      applyOps s.toClientCoreState (deletes isAckRegistered 1 id) := by
  cases isAckRegistered <;> rfl

theorem deletes_succ (isAckRegistered : Bool) (n : Nat) (id : UInt16) :
    deletes isAckRegistered (n + 1) id = deletes isAckRegistered 1 id ++ deletes isAckRegistered n id := by
  cases isAckRegistered <;> rfl

theorem insertTopics_core (id : UInt16) (isAckRegistered : Bool) (ps : List SubscriptionPtr)
    (s : ClientState) : ∃ active,
      (SubscribeActionAsync.insertTopics id isAckRegistered ps s).2.toClientCoreState =
        applyOps s.toClientCoreState (deletes isAckRegistered active id) := by
  induction ps generalizing s with
  | nil => exact ⟨0, by cases isAckRegistered <;> rfl⟩
  | cons p ps ih =>
    rcases insertTopics_cons s id isAckRegistered p ps with ⟨e, _, _, heq⟩ | ⟨t, ht, heq⟩
    · obtain ⟨active, h⟩ := ih (deleteAck s isAckRegistered id)
      exact ⟨active + 1, by rw [heq, h, deleteAck_core, ← applyOps_append, ← deletes_succ]⟩
    · rw [heq, ← ht.core]
      exact ih t

def FollowsScript (s : ClientState) (data : ActionData) (r : ActionResult σ) (a : Sending) : Prop :=
  a.kind = data.kind ∧ r.rc = a.rc ∧ r.data.getActionId = a.actionId data.getActionId ∧
    r.state.pendingAckMap =
      (applyOps s.toClientCoreState (a.ackOps data.getActionId data.pAsyncAckHandler)).pendingAckMap

theorem rollback_core (s : ClientState) (id : UInt16) (isAckRegistered : Bool) (rc : ResponseCode) :
    (if rc ≠ .success then deleteAck s isAckRegistered id else s).toClientCoreState =
      applyOps s.toClientCoreState (if isAckRegistered then Sending.rollback id rc else []) := by
  unfold Sending.rollback
  by_cases hrc : rc = .success
  · cases isAckRegistered <;> simp [hrc, applyOps]
  · rw [if_pos hrc, if_pos hrc]
    exact deleteAck_core s id isAckRegistered

theorem registerAck_applyOps (s : ClientState) (id : UInt16) (h : Option AsyncAckHandler)
    (ops : List AckMapOp) :
    applyOps (registerAck s id h).2.2.toClientCoreState
        (if (registerAck s id h).2.1 then ops else []) =
      applyOps s.toClientCoreState (h.elim [] (fun h => .register id h :: ops)) := by
  cases h <;> rfl

theorem publish_followsScript (s : ClientState) (c : σ) (p : PublishPacket) :
    FollowsScript s (.publish p) (PublishActionAsync.performAction s c (.publish p))
      (.publish p.qos (writeToNetworkBuffer false c p.toString).1) := by
  refine ⟨rfl, rfl, rfl, ?_⟩
  unfold PublishActionAsync.performAction
  by_cases hq : p.qos = .qos0
  · simp only [hq, ne_eq, not_true_eq_false, if_false, rollback_core]
    cases (ActionData.publish p).pAsyncAckHandler <;> rfl
  · simp only [if_pos (show p.qos ≠ .qos0 from hq), rollback_core, registerAck_applyOps]
    cases hh : p.pAsyncAckHandler <;>
      simp [ActionData.pAsyncAckHandler, ActionData.toPacket, ActionData.getActionId, hh,
        Sending.ackOps, hq]

theorem unsubscribe_followsScript (s : ClientState) (c : σ) (p : UnsubscribePacket) :
    FollowsScript s (.unsubscribe p) (UnsubscribeActionAsync.performAction s c (.unsubscribe p))
      (.unsubscribe (writeToNetworkBuffer false c p.toString).1) := by
  refine ⟨rfl, rfl, rfl, ?_⟩
  unfold UnsubscribeActionAsync.performAction
  simp only [rollback_core, foldl_setSubscriptionPacketInfo_core, registerAck_applyOps]
  cases hh : p.pAsyncAckHandler <;>
    simp [ActionData.pAsyncAckHandler, ActionData.toPacket, ActionData.getActionId, hh,
      Sending.ackOps]

theorem registerAck_subscribe (s : ClientState) (id : UInt16) (h : Option AsyncAckHandler)
    (active : Nat) (rc : ResponseCode) :
    applyOps (registerAck s id h).2.2.toClientCoreState
        (deletes (registerAck s id h).2.1 active id ++
          if (registerAck s id h).2.1 then Sending.rollback id rc else []) =
      applyOps s.toClientCoreState ((Sending.subscribe active rc).ackOps id h) := by
  cases h <;> rfl

theorem subscribe_followsScript (s : ClientState) (c : σ) (p : SubscribePacket) :
    ∃ active rc, FollowsScript s (.subscribe p)
      (SubscribeActionAsync.performAction s c (.subscribe p)) (.subscribe active rc) := by
  let r := registerAck s p.packetId p.pAsyncAckHandler
  let t := SubscribeActionAsync.insertTopics p.packetId r.2.1 p.subscriptionList r.2.2
  let q := { p with subscriptionList := t.1 }
  let u := { t.2 with heap := (q.toString t.2.heap).2 }
  let w := if 0 < t.1.length then writeToNetworkBuffer false c (q.toString t.2.heap).1 else (r.1, c)
  obtain ⟨active, htopics⟩ := insertTopics_core p.packetId r.2.1 p.subscriptionList r.2.2
  have hend : applyOps u.toClientCoreState (if r.2.1 then Sending.rollback p.packetId w.1 else []) =
      applyOps s.toClientCoreState
        ((Sending.subscribe active w.1).ackOps p.packetId p.pAsyncAckHandler) := by
    rw [show u.toClientCoreState = _ from htopics, ← applyOps_append]
    exact registerAck_subscribe s p.packetId p.pAsyncAckHandler active w.1
  refine ⟨active, w.1, ?_⟩
  rcases subscribe_cases s c p with ⟨hw, h⟩ | ⟨hw, h⟩
  · rw [h]
    refine ⟨rfl, rfl, rfl, ?_⟩
    refine Eq.trans ?_ (congrArg ClientCoreState.pendingAckMap hend)
    rw [deleteAck_core, eraseTopics_core, Sending.rollback, if_pos hw]
    rfl
  · rw [h]
    refine ⟨rfl, hw.symm, rfl, ?_⟩
    refine Eq.trans ?_ (congrArg ClientCoreState.pendingAckMap hend)
    rw [Sending.rollback, if_neg (not_not.mpr hw), ite_self]
    rfl

theorem performPacket_script (s : ClientState) (c : σ) (p : ConnectPacket) (id : UInt16) :
    ∃ connectRc writeRc, let r := ConnectActionAsync.performPacket s c p
      r.1 = (Sending.connect connectRc writeRc).rc ∧ r.2.1.pendingAckMap =
        (applyOps s.toClientCoreState
          ((Sending.connect connectRc writeRc).ackOps id p.pAsyncAckHandler)).pendingAckMap := by
  let k := NetworkConnection.connect c
  refine ⟨k.1, (writeToNetworkBuffer false k.2 p.toString).1, ?_⟩
  rcases performPacket_cases s c p with ⟨hk, h⟩ | ⟨hk, hw, h⟩ | ⟨hk, hw, h⟩
  · rw [h]
    cases p.pAsyncAckHandler <;> simp [Sending.rc, Sending.ackOps, k, hk] <;> rfl
  · rw [h]
    cases p.pAsyncAckHandler <;> simp [Sending.rc, Sending.ackOps, k, hk, hw, Sending.rollback] <;> rfl
  · rw [h]
    cases p.pAsyncAckHandler <;> simp [Sending.rc, Sending.ackOps, k, hk, hw, Sending.rollback] <;> rfl

theorem connect_followsScript (s : ClientState) (c : σ) (p : ConnectPacket) :
    ∃ connectRc writeRc, FollowsScript s (.connect p)
      (ConnectActionAsync.performAction s c (.connect p)) (.connect connectRc writeRc) := by
  let stored : ConnectPacket :=
    { p with toPacket := p.toPacket.setPacketId ConnectActionAsync.connackReservedPacketId }
  obtain ⟨connectRc, writeRc, hrc, hmap⟩ :=
    performPacket_script (s.setAutoReconnectData stored) c stored (ActionData.connect p).getActionId
  exact ⟨connectRc, writeRc, rfl, hrc, rfl, hmap⟩

theorem disconnect_followsScript (s : ClientState) (c : σ) (p : DisconnectPacket) :
    ∃ rc, FollowsScript s (.disconnect p)
      (DisconnectActionAsync.performAction s c (.disconnect p)) (.disconnect rc) := by
  unfold DisconnectActionAsync.performAction
  split_ifs
  · refine ⟨_, rfl, rfl, rfl, ?_⟩
    cases (ActionData.disconnect p).pAsyncAckHandler <;> rfl
  all_goals
    refine ⟨_, rfl, rfl, rfl, ?_⟩
    simp only [deactivate_core]
    cases (ActionData.disconnect p).pAsyncAckHandler <;> rfl

theorem performAction_followsScript (s : ClientState) (c : σ) (data : ActionData) :
    ∃ a : Sending, FollowsScript s data (data.kind.performAction s c data) a := by
  cases data with
  | connect p =>
    obtain ⟨connectRc, writeRc, h⟩ := connect_followsScript s c p
    exact ⟨_, h⟩
  | disconnect p =>
    obtain ⟨rc, h⟩ := disconnect_followsScript s c p
    exact ⟨_, h⟩
  | publish p => exact ⟨_, publish_followsScript s c p⟩
  | puback p =>
    refine ⟨.puback (writeToNetworkBuffer false c p.toString).1, rfl, rfl, rfl, ?_⟩
    cases (ActionData.puback p).pAsyncAckHandler <;> rfl
  | subscribe p =>
    obtain ⟨active, rc, h⟩ := subscribe_followsScript s c p
    exact ⟨_, h⟩
  | unsubscribe p => exact ⟨_, unsubscribe_followsScript s c p⟩

end Actions

end AwsIotSdk
