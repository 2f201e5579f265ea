import AwsIotSdk.QueuedActions
import AwsIotSdk.Transition

/-! The outbound queue over a run. Whatever the actions do, what was accepted is what was
performed, followed by what is in the queue. -/

namespace AwsIotSdk

open ClientState AwsIotSdk.Action

/-! ### What an action leaves of the queue -/

structure QueueKept (s t : ClientState) : Prop where
  maxQueueSize : t.maxQueueSize = s.maxQueueSize
  actionMap : t.actionMap = s.actionMap
  queue : t.outboundActionQueue = s.outboundActionQueue

section Kept

variable {s t u : ClientState}

theorem QueueKept.refl (s : ClientState) : QueueKept s s := ⟨rfl, rfl, rfl⟩

theorem QueueKept.trans (h : QueueKept s t) (h' : QueueKept t u) : QueueKept s u where
  maxQueueSize := h'.maxQueueSize.trans h.maxQueueSize
  actionMap := h'.actionMap.trans h.actionMap
  queue := h'.queue.trans h.queue

theorem queueKept_of_core (h : t.toClientCoreState = s.toClientCoreState) : QueueKept s t := by
  refine ⟨?_, ?_, ?_⟩
  · rw [h]
  · rw [h]
  · rw [h]

theorem QueueKept.of_writesAck {i : UInt16} (h : WritesAck i s t) : QueueKept s t := by
  refine ⟨?_, ?_, ?_⟩
  · rw [h.core]
  · rw [h.core]
  · rw [h.core]

theorem queueKept_callAckHandler (s : ClientState) (h : AsyncAckHandler) (i : UInt16)
    (rc : ResponseCode) : QueueKept s (s.mapCore (·.callAckHandler h i rc)) := by
  cases h <;> exact ⟨rfl, rfl, rfl⟩

theorem queueKept_forwardReceivedAck (s : ClientState) (i : UInt16) (rc : ResponseCode) :
    QueueKept s (s.mapCore (·.forwardReceivedAck i rc)) := by
  cases hp : s.pendingHandler i with
  | none =>
    rw [mapCore, ClientCoreState.forwardReceivedAck_of_none _ i rc hp]
    exact QueueKept.refl s
  | some h =>
    rw [mapCore, ClientCoreState.forwardReceivedAck_of_pending _ h i rc hp]
    exact (queueKept_callAckHandler s h i rc).trans ⟨rfl, rfl, rfl⟩

end Kept

variable {σ : Type} [NetworkConnection σ]

theorem queueKept_disconnect (s : ClientState) (c : σ) (data : ActionData) :
    QueueKept s (DisconnectActionAsync.performAction s c data).state := by
  have hcore := disconnect_core s c data
  by_cases hc : s.isConnected = true
  · rw [if_pos hc] at hcore
    have hstopped : QueueKept s (s.mapCore (·.setProcessQueuedActions false)) := ⟨rfl, rfl, rfl⟩
    exact hstopped.trans (queueKept_of_core hcore)
  · rw [if_neg hc] at hcore
    exact queueKept_of_core hcore

theorem queueKept_performAction (kind : ActionKind) (s : ClientState) (c : σ)
    (data : ActionData) : QueueKept s (kind.performAction s c data).state := by
  cases kind with
  | connect => exact .of_writesAck (writesAck_connect s c data)
  | disconnect => exact queueKept_disconnect s c data
  | publish => exact .of_writesAck (writesAck_publish s c data)
  | puback => cases data <;> exact QueueKept.refl s
  | subscribe => exact .of_writesAck (writesAck_subscribe s c data)
  | unsubscribe => exact .of_writesAck (writesAck_unsubscribe s c data)

/-! ### Both ends of the queue -/

namespace ClientState

/-- `enqueueOutboundAction` with the reference that it gives the id back in. -/
def enqueueOutboundActionOut (s : ClientState) (actionType : ActionType) (data : ActionData)
    (actionIdOut : UInt16) : ResponseCode × UInt16 × ClientState :=
  if s.maxQueueSize ≤ s.outboundActionQueue.length then (.actionQueueFull, actionIdOut, s)
  else
    let (actionIdOut, s) := s.getNextActionId
    (.success, actionIdOut, { s with
      outboundActionQueue :=
        s.outboundActionQueue ++ [(actionType, data.setActionId actionIdOut)] })

theorem enqueueOutboundActionOut_eq (s : ClientState) (actionType : ActionType)
    (data : ActionData) (actionIdOut : UInt16) :
    s.enqueueOutboundAction actionType data =
      ((s.enqueueOutboundActionOut actionType data actionIdOut).1,
        (s.enqueueOutboundActionOut actionType data actionIdOut).2.2) := by
  rw [enqueueOutboundAction, enqueueOutboundActionOut]
  split_ifs <;> rfl

theorem enqueueOutboundActionOut_cases (s : ClientState) (actionType : ActionType)
    (data : ActionData) (actionIdOut : UInt16) :
    let e := s.enqueueOutboundActionOut actionType data actionIdOut
    (e = (.actionQueueFull, actionIdOut, s) ∧ s.maxQueueSize ≤ s.outboundActionQueue.length) ∨
      (e.1 = .success ∧ s.outboundActionQueue.length < s.maxQueueSize ∧
        e.2.2.maxQueueSize = s.maxQueueSize ∧ e.2.2.actionMap = s.actionMap ∧
        e.2.2.outboundActionQueue =
          s.outboundActionQueue ++ [(actionType, data.setActionId e.2.1)]) := by
  rw [enqueueOutboundActionOut]
  split_ifs with hfull
  · exact .inl ⟨rfl, hfull⟩
  · exact .inr ⟨rfl, Nat.lt_of_not_le hfull, rfl, rfl, rfl⟩

/-- `processAction` for any way to perform an action. -/
def processActionWith {m : Type → Type} [Monad m]
    (perform : ActionKind → ClientState → σ → ActionData → m (ActionResult σ))
    (s : ClientState) (c : σ) (actionType : ActionType) (data : ActionData) :
    m (ResponseCode × ClientState × σ) :=
  let call (s : ClientState) (d : ActionData) (h : AsyncAckHandler) (rc : ResponseCode) :=
    s.mapCore (·.callAckHandler h d.getActionId rc)
  match s.actionMap actionType with
  | none => return (.actionNotRegisteredError, s, c)
  | some action =>
    let (rc, s) : ResponseCode × ClientState :=
      match data.pAsyncAckHandler with
      | none => (.success, s)
      | some h =>
        let r := s.registerPendingAck data.getActionId (some h)
        let s := s.mapCore (fun _ => r.2)
        if r.1 ≠ .success then (r.1, call s data h r.1) else (r.1, s)
    if rc = .success then do
      let r ← perform action s c data
      if r.rc ≠ .success then
        match data.pAsyncAckHandler with
        | none => return (r.rc, r.state, r.connection)
        | some h =>
          let s := r.state.mapCore (·.deletePendingAck r.data.getActionId)
          return (r.rc, call s r.data h r.rc, r.connection)
      else return (r.rc, r.state, r.connection)
    else return (rc, s, c)

def recordPerform (kind : ActionKind) (s : ClientState) (c : σ) (data : ActionData) :
    StateM (List (ActionKind × ActionData)) (ActionResult σ) :=
  fun log => (kind.performAction s c data, log ++ [(kind, data)])

theorem recordPerform_bind {α : Type} (kind : ActionKind) (s : ClientState) (c : σ)
    (data : ActionData)
    (f : ActionResult σ → StateM (List (ActionKind × ActionData)) α)
    (log : List (ActionKind × ActionData)) :
    (recordPerform kind s c data >>= f).run log =
      (f (kind.performAction s c data)).run (log ++ [(kind, data)]) := rfl

/-- The record has one call for an action that is registered. -/
theorem processActionWith_record (s : ClientState) (c : σ) (actionType : ActionType)
    (data : ActionData) (log : List (ActionKind × ActionData)) :
    (processActionWith recordPerform s c actionType data).run log =
      (s.processAction c actionType data, match s.actionMap actionType with
        | none => log
        | some kind => log ++ [(kind, data)]) := by
  unfold processActionWith processAction
  cases hk : s.actionMap actionType with
  | none => rfl
  | some kind =>
    cases hh : data.pAsyncAckHandler with
    | none =>
      simp only [if_true]
      rw [recordPerform_bind]
      by_cases hrc : (kind.performAction s c data).rc = .success
      · simp only [hrc, ne_eq, not_true_eq_false, if_false]
        rfl
      · simp only [hrc, ne_eq, not_false_eq_true, if_true]
        rfl
    | some h =>
      have hregister : (s.registerPendingAck data.getActionId (some h)).1 = .success := rfl
      simp only [hregister, ne_eq, not_true_eq_false, if_false, if_true]
      generalize s.mapCore (fun _ => (s.registerPendingAck data.getActionId (some h)).2) = t
      rw [recordPerform_bind]
      by_cases hrc : (kind.performAction t c data).rc = .success
      · simp only [hrc, not_true_eq_false, if_false]
        rfl
      · simp only [hrc, not_false_eq_true, if_true]
        rfl

/-- One step of the queue and the record of the actions it performs. -/
def processOutboundActionQueueRecorded (s : ClientState) (c : σ)
    (log : List (ActionKind × ActionData)) :
    (ResponseCode × ClientState × σ) × List (ActionKind × ActionData) :=
  match s.outboundActionQueue with
  | [] => ((.success, s, c), log)
  | (actionType, data) :: rest =>
    (processActionWith recordPerform { s with outboundActionQueue := rest } c actionType data).run
      log

theorem processOutboundActionQueueRecorded_eq (s : ClientState) (c : σ)
    (log : List (ActionKind × ActionData)) :
    (s.processOutboundActionQueueRecorded c log).1 = s.processOutboundActionQueue c := by
  rw [processOutboundActionQueueRecorded, processOutboundActionQueue]
  cases s.outboundActionQueue with
  | nil => rfl
  | cons e rest => exact congrArg Prod.fst (processActionWith_record _ c e.1 e.2 log)

theorem queueKept_processAction (s : ClientState) (c : σ) (actionType : ActionType)
    (data : ActionData) : QueueKept s (s.processAction c actionType data).2.1 := by
  unfold processAction
  cases hk : s.actionMap actionType with
  | none => exact QueueKept.refl s
  | some kind =>
    cases hh : data.pAsyncAckHandler with
    | none =>
      have hperform := queueKept_performAction kind s c data
      simp only [if_true]
      split_ifs <;> exact hperform
    | some h =>
      have hregister : (s.registerPendingAck data.getActionId (some h)).1 = .success := rfl
      simp only [hregister, ne_eq, not_true_eq_false, if_false, if_true]
      have ht : QueueKept s
          (s.mapCore (fun _ => (s.registerPendingAck data.getActionId (some h)).2)) :=
        ⟨rfl, rfl, rfl⟩
      generalize s.mapCore (fun _ => (s.registerPendingAck data.getActionId (some h)).2) = t at ht ⊢
      have hperform := ht.trans (queueKept_performAction kind t c data)
      have hdelete : ∀ (u : ClientState) (i : UInt16),
          QueueKept u (u.mapCore (·.deletePendingAck i)) := fun u i => ⟨rfl, rfl, rfl⟩
      split_ifs
      · exact hperform
      · exact (hperform.trans (hdelete _ _)).trans (queueKept_callAckHandler _ h _ _)

theorem queueKept_performAction_sync (s : ClientState) (c : σ)
    {awaitAck : ClientState → ClientState} (hawait : ∀ t, QueueKept t (awaitAck t))
    (actionType : ActionType) (data : ActionData) :
    QueueKept s (s.performAction c awaitAck actionType data).2.1 := by
  unfold performAction
  cases hk : s.actionMap actionType with
  | none => exact QueueKept.refl s
  | some kind =>
    dsimp only
    have hid : QueueKept s ((s.mapCore ({ · with
        syncActionResponse := .mqttRequestTimeoutError })).getNextActionId).2 := ⟨rfl, rfl, rfl⟩
    have hperform := hid.trans (queueKept_performAction kind _ c
      ((data.setAsyncAckHandler .syncActionHandler).setActionId ((s.mapCore ({ · with
        syncActionResponse := .mqttRequestTimeoutError })).getNextActionId).1))
    split_ifs
    · exact hperform.trans (hawait _)
    · exact hperform

end ClientState

/-! ### Runs -/

/-- The client, with the actions that were accepted, each under the id that its call gave
back, and those that were performed. -/
structure QueueRun (σ : Type) where
  client : ClientState
  connection : σ
  accepted : List (ActionType × ActionData)
  performed : List (ActionKind × ActionData)

/-- A blocking call and the acks that come in while it waits are one move. -/
inductive QueueMove where
  | enqueue (actionType : ActionType) (data : ActionData) (actionIdOut : UInt16)
  | process
  | perform (actionType : ActionType) (data : ActionData) (acks : List (UInt16 × ResponseCode))
  | forward (actionId : UInt16) (rc : ResponseCode)

def QueueMove.isProcess : QueueMove → Bool
  | .process => true
  | _ => false

namespace QueueRun

def start (client : ClientState) (c : σ) : QueueRun σ := ⟨client, c, [], []⟩

def forwardAll (acks : List (UInt16 × ResponseCode)) (s : ClientState) : ClientState :=
  acks.foldl (fun s a => s.mapCore (·.forwardReceivedAck a.1 a.2)) s

/-- Actions of a type that is not registered are not enqueued. -/
def step (r : QueueRun σ) : QueueMove → Option (QueueRun σ)
  | .enqueue actionType data actionIdOut =>
    let e := r.client.enqueueOutboundActionOut actionType data actionIdOut
    if r.client.actionMap actionType = none then none
    else if e.1 = .success then some { r with
      client := e.2.2
      accepted := r.accepted ++ [(actionType, data.setActionId e.2.1)] }
    else some { r with client := e.2.2 }
  | .process =>
    let u := r.client.processOutboundActionQueueRecorded r.connection r.performed
    some { r with client := u.1.2.1, connection := u.1.2.2, performed := u.2 }
  | .perform actionType data acks =>
    let u := r.client.performAction r.connection (forwardAll acks) actionType data
    some { r with client := u.2.1, connection := u.2.2 }
  | .forward actionId rc =>
    some { r with client := r.client.mapCore (·.forwardReceivedAck actionId rc) }

/-- What an entry of the queue asks for. -/
def asked (m : ActionType → Option ActionKind) (e : ActionType × ActionData) :
    Option ActionKind × ActionData :=
  (m e.1, e.2)

def called (e : ActionKind × ActionData) : Option ActionKind × ActionData := (some e.1, e.2)

structure Conserved (init : ClientState) (r : QueueRun σ) : Prop where
  actionMap : r.client.actionMap = init.actionMap
  maxQueueSize : r.client.maxQueueSize = init.maxQueueSize
  registered : ∀ e ∈ r.client.outboundActionQueue, init.actionMap e.1 ≠ none
  bounded : r.client.outboundActionQueue.length ≤ init.maxQueueSize
  conserved : r.accepted.map (asked init.actionMap) =
    r.performed.map called ++ r.client.outboundActionQueue.map (asked init.actionMap)

section Steps

variable {init : ClientState} {r t : QueueRun σ}

omit [NetworkConnection σ] in
theorem conserved_start {c : σ} (h : init.outboundActionQueue = []) :
    Conserved init (start init c) := by
  refine ⟨rfl, rfl, ?_, ?_, ?_⟩
  · intro e he
    change e ∈ init.outboundActionQueue at he
    rw [h] at he
    cases he
  · show init.outboundActionQueue.length ≤ init.maxQueueSize
    rw [h]
    exact Nat.zero_le _
  · show [] = [] ++ init.outboundActionQueue.map (asked init.actionMap)
    rw [h]
    rfl

omit [NetworkConnection σ] in
theorem Conserved.of_queueKept (hr : Conserved init r) (hclient : QueueKept r.client t.client)
    (haccepted : t.accepted = r.accepted) (hperformed : t.performed = r.performed) :
    Conserved init t where
  actionMap := hclient.actionMap.trans hr.actionMap
  maxQueueSize := hclient.maxQueueSize.trans hr.maxQueueSize
  registered := by
    rw [hclient.queue]
    exact hr.registered
  bounded := by
    rw [hclient.queue]
    exact hr.bounded
  conserved := by
    rw [haccepted, hperformed, hclient.queue]
    exact hr.conserved

theorem queueKept_forwardAll (acks : List (UInt16 × ResponseCode)) (s : ClientState) :
    QueueKept s (forwardAll acks s) := by
  induction acks generalizing s with
  | nil => exact QueueKept.refl s
  | cons a acks ih =>
    exact (queueKept_forwardReceivedAck s a.1 a.2).trans
      (ih (s.mapCore (·.forwardReceivedAck a.1 a.2)))

theorem Conserved.enqueue (hr : Conserved init r) {actionType : ActionType} {data : ActionData}
    {actionIdOut : UInt16} (h : step r (.enqueue actionType data actionIdOut) = some t) :
    Conserved init t ∧ r.accepted <+: t.accepted ∧ t.performed = r.performed := by
  rw [step] at h
  split_ifs at h with hreg hrc
  · cases h
    rcases enqueueOutboundActionOut_cases r.client actionType data actionIdOut with
      ⟨hfull, -⟩ | ⟨-, hlt, hmax, hmap, hqueue⟩
    · rw [hfull] at hrc
      cases hrc
    · refine ⟨⟨hmap.trans hr.actionMap, hmax.trans hr.maxQueueSize, ?_, ?_, ?_⟩,
        List.prefix_append _ _, rfl⟩
      · intro e he
        dsimp only at he
        rw [hqueue] at he
        rcases List.mem_append.mp he with he | he
        · exact hr.registered e he
        · rw [List.mem_singleton.mp he, ← hr.actionMap]
          exact hreg
      · dsimp only
        rw [hqueue, List.length_append, List.length_singleton, ← hr.maxQueueSize]
        omega
      · dsimp only
        rw [hqueue, List.map_append, List.map_append, hr.conserved, List.append_assoc]
  · cases h
    rcases enqueueOutboundActionOut_cases r.client actionType data actionIdOut with
      ⟨hfull, -⟩ | ⟨hsuccess, -⟩
    · rw [hfull]
      exact ⟨hr, List.prefix_refl _, rfl⟩
    · exact absurd hsuccess hrc

/-- A step of the queue performs its first action. -/
theorem Conserved.process (hr : Conserved init r) (h : step r .process = some t) :
    Conserved init t ∧ t.accepted = r.accepted ∧
      t.performed.length = r.performed.length + min 1 r.client.outboundActionQueue.length := by
  cases h
  have hstate := processOutboundActionQueueRecorded_eq r.client r.connection r.performed
  cases hq : r.client.outboundActionQueue with
  | nil =>
    have hsame : r.client.processOutboundActionQueueRecorded r.connection r.performed =
        ((.success, r.client, r.connection), r.performed) := by
      rw [processOutboundActionQueueRecorded, hq]
    rw [hsame]
    exact ⟨hr, rfl, rfl⟩
  | cons e rest =>
    obtain ⟨actionType, data⟩ := e
    have hmem : (actionType, data) ∈ r.client.outboundActionQueue := by
      rw [hq]
      exact List.mem_cons_self
    obtain ⟨kind, hkind⟩ := Option.ne_none_iff_exists'.mp (hr.registered _ hmem)
    let u : ClientState := { r.client with outboundActionQueue := rest }
    have hmap : u.actionMap actionType = some kind := by
      rw [← hkind, ← hr.actionMap]
    have hstep : r.client.processOutboundActionQueueRecorded r.connection r.performed =
        (u.processAction r.connection actionType data, r.performed ++ [(kind, data)]) := by
      rw [processOutboundActionQueueRecorded, hq]
      dsimp only
      rw [processActionWith_record]
      change (_, match u.actionMap actionType with
        | none => r.performed
        | some kind => r.performed ++ [(kind, data)]) = _
      rw [hmap]
    have hkept := queueKept_processAction u r.connection actionType data
    rw [hstep]
    refine ⟨⟨hkept.actionMap.trans hr.actionMap, hkept.maxQueueSize.trans hr.maxQueueSize,
      ?_, ?_, ?_⟩, rfl, ?_⟩
    · intro e he
      dsimp only at he
      rw [hkept.queue] at he
      exact hr.registered e (by rw [hq]; exact List.mem_cons_of_mem _ he)
    · have hbounded := hr.bounded
      dsimp only
      rw [hkept.queue]
      rw [hq, List.length_cons] at hbounded
      change rest.length ≤ init.maxQueueSize
      omega
    · have hconserved := hr.conserved
      rw [hq, List.map_cons] at hconserved
      dsimp only
      rw [hkept.queue, hconserved, List.map_append, List.append_assoc, asked, hkind]
      rfl
    · rw [List.length_append, List.length_cons, List.length_cons, List.length_nil]
      omega

theorem Conserved.of_step (hr : Conserved init r) {m : QueueMove} (h : step r m = some t) :
    Conserved init t ∧ r.accepted <+: t.accepted ∧ r.performed.length ≤ t.performed.length := by
  cases m with
  | enqueue actionType data actionIdOut =>
    obtain ⟨ht, haccepted, hperformed⟩ := hr.enqueue h
    exact ⟨ht, haccepted, by rw [hperformed]⟩
  | process =>
    obtain ⟨ht, haccepted, hperformed⟩ := hr.process h
    exact ⟨ht, by rw [haccepted], by omega⟩
  | perform actionType data acks =>
    cases h
    have hkept := queueKept_performAction_sync r.client r.connection (queueKept_forwardAll acks)
      actionType data
    exact ⟨hr.of_queueKept hkept rfl rfl, List.prefix_refl _, Nat.le_refl _⟩
  | forward actionId rc =>
    cases h
    have hkept := queueKept_forwardReceivedAck r.client actionId rc
    exact ⟨hr.of_queueKept hkept rfl rfl, List.prefix_refl _, Nat.le_refl _⟩

theorem conserved_of_reachable {c : σ} (hempty : init.outboundActionQueue = [])
    (h : Transition.Reachable step Transition.anyMove (start init c) r) : Conserved init r :=
  h.invariant (conserved_start hempty) (fun _ _ _ hr _ hs => (hr.of_step hs).1)

omit [NetworkConnection σ] in
theorem Conserved.length_accepted (hr : Conserved init r) :
    r.accepted.length = r.performed.length + r.client.outboundActionQueue.length := by
  have hlen := congrArg List.length hr.conserved
  simpa using hlen

/-- The first accepted actions are performed once the queue has taken as many steps. -/
theorem Conserved.take_prefix (hr : Conserved init r) {ms : List QueueMove}
    (h : Transition.run step r ms = some t) {n : Nat} (hn : n ≤ r.accepted.length)
    (hsteps : n ≤ r.performed.length + ms.countP QueueMove.isProcess) :
    (r.accepted.map (asked init.actionMap)).take n <+: t.performed.map called := by
  induction ms generalizing r with
  | nil =>
    cases h
    rw [hr.conserved, List.take_append_of_le_length (by simpa using hsteps)]
    exact List.take_prefix _ _
  | cons m ms ih =>
    obtain ⟨u, hu, hrest⟩ := Option.bind_eq_some_iff.mp h
    obtain ⟨hc, haccepted, hperformed⟩ := hr.of_step hu
    have hlen := haccepted.length_le
    have htake : (r.accepted.map (asked init.actionMap)).take n =
        (u.accepted.map (asked init.actionMap)).take n := by
      obtain ⟨more, hmore⟩ := haccepted
      rw [← hmore, List.map_append, List.take_append_of_le_length (by simpa using hn)]
    rw [htake]
    refine ih hc hrest (by omega) ?_
    rw [List.countP_cons] at hsteps
    cases m with
    | process =>
      have hone := (hr.process hu).2.2
      have haccount := hr.length_accepted
      have hcount : (if QueueMove.process.isProcess = true then 1 else 0) = 1 := rfl
      omega
    | enqueue actionType data actionIdOut =>
      have hcount : (if (QueueMove.enqueue actionType data actionIdOut).isProcess = true
        then 1 else 0) = 0 := rfl
      omega
    | perform actionType data acks =>
      have hcount : (if (QueueMove.perform actionType data acks).isProcess = true
        then 1 else 0) = 0 := rfl
      omega
    | forward actionId rc =>
      have hcount : (if (QueueMove.forward actionId rc).isProcess = true
        then 1 else 0) = 0 := rfl
      omega

end Steps

/-- What is performed is what was accepted, in its order and under its ids; the rest is in
the queue, which is no longer than its maximum, and goes with as many steps of the queue.
A call that finds the queue full changes nothing. -/
theorem queue_fifo (init : ClientState) (c : σ) (r : QueueRun σ)
    (hempty : init.outboundActionQueue = [])
    (h : Transition.Reachable step Transition.anyMove (start init c) r) :
    r.accepted.map (asked init.actionMap) =
        r.performed.map called ++ r.client.outboundActionQueue.map (asked init.actionMap) ∧
      r.client.outboundActionQueue.length ≤ init.maxQueueSize ∧
      (∀ ms t, Transition.run step r ms = some t →
        r.client.outboundActionQueue.length ≤ ms.countP QueueMove.isProcess →
        r.accepted.map (asked init.actionMap) <+: t.performed.map called) ∧
      ∀ actionType data actionIdOut,
        (r.client.enqueueOutboundActionOut actionType data actionIdOut).1 = .actionQueueFull →
        (r.client.enqueueOutboundActionOut actionType data actionIdOut).2 =
          (actionIdOut, r.client) := by
  have hr := conserved_of_reachable hempty h
  refine ⟨hr.conserved, hr.bounded, ?_, ?_⟩
  · intro ms t hrun hsteps
    have haccount := hr.length_accepted
    have htake := hr.take_prefix hrun (Nat.le_refl _) (by omega)
    rwa [List.take_of_length_le (by simp)] at htake
  · intro actionType data actionIdOut hfull
    rcases enqueueOutboundActionOut_cases r.client actionType data actionIdOut with
      ⟨hsame, -⟩ | ⟨hsuccess, -⟩
    · rw [hsame]
    · rw [hsuccess] at hfull
      cases hfull

def byePacket : ActionData :=
  .publish (PublishPacket.init freshTopic false false .qos0 [0x62, 0x79, 0x65])

def shortQueueClient : ClientState := { freshClient with maxQueueSize := 2 }

/-- The third action finds the queue full; the one behind it takes the next id. -/
def helloMoves : List QueueMove :=
  [.enqueue .publish helloPacket 0, .enqueue .publish byePacket 0,
    .enqueue .publish helloPacket 7, .process, .forward 1 .success,
    .enqueue .publish helloPacket 0, .process]

theorem queue_fifo_hello :
    ∃ r, Transition.run step (start shortQueueClient (⟨true, []⟩ : StreamConnection))
        helloMoves = some r ∧
      r.performed = [(.publish, helloPacket.setActionId 1), (.publish, byePacket.setActionId 2)] ∧
      r.client.outboundActionQueue = [(.publish, helloPacket.setActionId 3)] ∧
      r.accepted.map (asked shortQueueClient.actionMap) =
        r.performed.map called ++
          r.client.outboundActionQueue.map (asked shortQueueClient.actionMap) := by
  have hrun : ∃ r, Transition.run step
      (start shortQueueClient (⟨true, []⟩ : StreamConnection)) helloMoves = some r ∧
      r.performed = [(.publish, helloPacket.setActionId 1), (.publish, byePacket.setActionId 2)] ∧
      r.client.outboundActionQueue = [(.publish, helloPacket.setActionId 3)] :=
    ⟨_, rfl, rfl, rfl⟩
  obtain ⟨r, hr, hperformed, hqueue⟩ := hrun
  exact ⟨r, hr, hperformed, hqueue,
    (queue_fifo shortQueueClient (⟨true, []⟩ : StreamConnection) r rfl
      (Transition.reachable_of_run hr)).1⟩

end QueueRun

end AwsIotSdk
