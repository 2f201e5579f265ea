import AwsIotSdk.AckScripts
import AwsIotSdk.LockedProgram

/-! The threads that share a core state: blocking calls, the processing of queued
actions and the forwarding of acks, with the mutexes each of them takes. -/

namespace AwsIotSdk

inductive CoreLock where
  | syncActionRequest
  | syncActionResponse
  | ackMap
  deriving DecidableEq, Repr

structure SyncCall where
  actionId : UInt16
  rc : ResponseCode
  deriving DecidableEq, Repr

/-- A blocking call that returned `rc`. `own` is the code it had before it waited
for a response. -/
structure Returned where
  actionId : UInt16
  own : ResponseCode
  waited : Bool
  rc : ResponseCode
  deriving DecidableEq, Repr

structure Notice where
  handler : Nat
  actionId : UInt16
  rc : ResponseCode
  deriving DecidableEq, Repr

/-- What the threads share. The last two members record the acks that came and
the calls that returned; they are no part of the source. -/
structure CoreData where
  core : ClientCoreState
  lastSentPacketId : UInt16
  forwarded : List (UInt16 × ResponseCode)
  returned : List Returned

/-- Where a thread is. A list of operations is what is left of an action. -/
inductive CorePc where
  | idle
  | requesting (actionType : ActionType) (a : Sending)
  | looking (actionType : ActionType) (a : Sending)
  | beginning (a : Sending)
  | acting (ops : List AckMapOp) (call : SyncCall)
  | actingMap (op : AckMapOp) (ops : List AckMapOp) (call : SyncCall)
  | waiting (call : SyncCall)
  | woken (call : SyncCall)
  | resumed (call : SyncCall)
  | returning (r : Returned)
  | queueing (actionType : ActionType) (a : Sending) (id : UInt16) (h : Option Nat)
  | processing (ops : List AckMapOp) (notice : Option Notice)
  | processingMap (op : AckMapOp) (ops : List AckMapOp) (notice : Option Notice)
  | forwarding (id : UInt16) (rc : ResponseCode)
  | delivering (id : UInt16) (rc : ResponseCode)
  | handling (id : UInt16) (rc : ResponseCode)
  | storing (id : UInt16) (rc : ResponseCode)
  | stored (id : UInt16)

inductive CoreChoice where
  | call (actionType : ActionType) (a : Sending)
  | allocate
  | process (actionType : ActionType) (a : Sending) (id : UInt16) (h : Option Nat)
  | forward (id : UInt16) (rc : ResponseCode)
  | proceed

namespace CorePc

def locks : CorePc → List CoreLock
  | .idle | .requesting _ _ | .queueing _ _ _ _ | .forwarding _ _ => []
  | .looking _ _ | .beginning _ | .waiting _ | .woken _ | .returning _ | .processing _ _ =>
    [.syncActionRequest]
  | .acting _ _ | .resumed _ => [.syncActionRequest, .syncActionResponse]
  | .actingMap _ _ _ => [.syncActionRequest, .syncActionResponse, .ackMap]
  | .processingMap _ _ _ => [.syncActionRequest, .ackMap]
  | .delivering _ _ | .handling _ _ | .stored _ => [.ackMap]
  | .storing _ _ => [.ackMap, .syncActionResponse]

def wants : CorePc → Option CoreLock
  | .requesting _ _ | .queueing _ _ _ _ => some .syncActionRequest
  | .beginning _ | .woken _ | .handling _ _ => some .syncActionResponse
  | .acting (_ :: _) _ | .processing (_ :: _) _ | .forwarding _ _ => some .ackMap
  | _ => none

end CorePc

namespace CoreData

def init (core : ClientCoreState) (lastSentPacketId : UInt16) : CoreData :=
  ⟨core, lastSentPacketId, [], []⟩

def mapCore (d : CoreData) (f : ClientCoreState → ClientCoreState) : CoreData :=
  { d with core := f d.core }

def beginCall (d : CoreData) (a : Sending) : CorePc × CoreData :=
  let id := ClientState.nextPacketId d.lastSentPacketId
  (.acting (a.ackOps id (some .syncActionHandler)) ⟨a.actionId id, a.rc⟩,
    { d with
      core := { d.core with syncActionResponse := .mqttRequestTimeoutError }
      lastSentPacketId := id })

def endAction (d : CoreData) (call : SyncCall) : CorePc :=
  if call.rc = .success ∧ d.core.pendingAckMap.contains call.actionId then .waiting call
  else .returning ⟨call.actionId, call.rc, false, call.rc⟩

def beginQueued (d : CoreData) (actionType : ActionType) (a : Sending) (id : UInt16)
    (h : Option Nat) : CorePc :=
  match d.core.actionMap actionType, h with
  | none, _ => .processing [] none
  | some _, none => .processing (a.ackOps id none) none
  | some _, some n =>
    .processing (.register id (.application n) :: (a.ackOps id (some (.application n)) ++
        Sending.rollback (a.actionId id) a.rc))
      (if a.rc ≠ .success then some ⟨n, a.actionId id, a.rc⟩ else none)

def giveNotice (d : CoreData) (notice : Option Notice) : CoreData :=
  match notice with
  | none => d
  | some n => d.mapCore (·.callAckHandler (.application n.handler) n.actionId n.rc)

def deliver (d : CoreData) (id : UInt16) (rc : ResponseCode) : CorePc × CoreData :=
  match d.core.pendingHandler id with
  | some .syncActionHandler => (.handling id rc, d)
  | some (.application _) | none => (.idle, d.mapCore (·.forwardReceivedAck id rc))

end CoreData

open CoreData in
/-- One step of a thread from its place. The wait of a call can end at any time,
by a notification, by the timeout or for no reason. -/
def CorePc.next : CorePc → CoreChoice → CoreData → Option (CorePc × CoreData)
  | .idle, .call actionType a, d => some (.requesting actionType a, d)
  | .idle, .allocate, d =>
    some (.idle, { d with lastSentPacketId := ClientState.nextPacketId d.lastSentPacketId })
  | .idle, .process actionType a id h, d => some (.queueing actionType a id h, d)
  | .idle, .forward id rc, d =>
    some (.forwarding id rc, { d with forwarded := d.forwarded ++ [(id, rc)] })
  | .requesting actionType a, .proceed, d => some (.looking actionType a, d)
  | .looking actionType a, .proceed, d =>
    match d.core.actionMap actionType with
    | none => some (.returning ⟨0, .actionNotRegisteredError, false, .actionNotRegisteredError⟩, d)
    | some _ => some (.beginning a, d)
  | .beginning a, .proceed, d => some (d.beginCall a)
  | .acting (op :: ops) call, .proceed, d => some (.actingMap op ops call, d)
  | .actingMap op ops call, .proceed, d => some (.acting ops call, d.mapCore (op.apply ·))
  | .acting [] call, .proceed, d => some (d.endAction call, d)
  | .waiting call, .proceed, d => some (.woken call, d)
  | .woken call, .proceed, d => some (.resumed call, d)
  | .resumed call, .proceed, d =>
    some (.returning ⟨call.actionId, call.rc, true, d.core.syncActionResponse⟩, d)
  | .returning r, .proceed, d => some (.idle, { d with returned := d.returned ++ [r] })
  | .queueing actionType a id h, .proceed, d => some (d.beginQueued actionType a id h, d)
  | .processing (op :: ops) notice, .proceed, d => some (.processingMap op ops notice, d)
  | .processingMap op ops notice, .proceed, d =>
    some (.processing ops notice, d.mapCore (op.apply ·))
  | .processing [] notice, .proceed, d => some (.idle, d.giveNotice notice)
  | .forwarding id rc, .proceed, d => some (.delivering id rc, d)
  | .delivering id rc, .proceed, d => some (d.deliver id rc)
  | .handling id rc, .proceed, d => some (.storing id rc, d)
  | .storing id rc, .proceed, d =>
    some (.stored id, d.mapCore (·.callAckHandler .syncActionHandler id rc))
  | .stored id, .proceed, d => some (.idle, d.mapCore (·.deletePendingAck id))
  | _, _, _ => none

theorem CorePc.wants_new (p : CorePc) (l : CoreLock) (h : p.wants = some l) : l ∉ p.locks := by
  cases p with
  | acting ops call | processing ops notice =>
    cases ops with
    | nil => cases h
    | cons op ops =>
      cases h
      simp [locks]
  | _ =>
    cases h <;> simp [locks]

inductive CorePc.Step (d : CoreData) : CorePc → CorePc → CoreData → Prop
  | call {actionType a} : Step d .idle (.requesting actionType a) d
  | allocate :
    Step d .idle .idle { d with lastSentPacketId := ClientState.nextPacketId d.lastSentPacketId }
  | process {actionType a id h} : Step d .idle (.queueing actionType a id h) d
  | forward {id rc} :
    Step d .idle (.forwarding id rc) { d with forwarded := d.forwarded ++ [(id, rc)] }
  | lockRequest {actionType a} : Step d (.requesting actionType a) (.looking actionType a) d
  | unregistered {actionType a r} : r.waited = false → r.rc = r.own →
    Step d (.looking actionType a) (.returning r) d
  | registered {actionType a} : Step d (.looking actionType a) (.beginning a) d
  | lockResponse {a} : Step d (.beginning a) (d.beginCall a).1 (d.beginCall a).2
  | lockMap {op ops call} : Step d (.acting (op :: ops) call) (.actingMap op ops call) d
  | applyOp {op ops call} :
    Step d (.actingMap op ops call) (.acting ops call) (d.mapCore (op.apply ·))
  | wait {call} : Step d (.acting [] call) (.waiting call) d
  | finish {call} :
    Step d (.acting [] call) (.returning ⟨call.actionId, call.rc, false, call.rc⟩) d
  | wake {call} : Step d (.waiting call) (.woken call) d
  | resume {call} : Step d (.woken call) (.resumed call) d
  | answer {call} : Step d (.resumed call)
      (.returning ⟨call.actionId, call.rc, true, d.core.syncActionResponse⟩) d
  | leave {r} : Step d (.returning r) .idle { d with returned := d.returned ++ [r] }
  | lockQueue {actionType a id h ops notice} :
    Step d (.queueing actionType a id h) (.processing ops notice) d
  | lockQueuedMap {op ops notice} :
    Step d (.processing (op :: ops) notice) (.processingMap op ops notice) d
  | applyQueuedOp {op ops notice} :
    Step d (.processingMap op ops notice) (.processing ops notice) (d.mapCore (op.apply ·))
  | endQueued {notice} : Step d (.processing [] notice) .idle (d.giveNotice notice)
  | lockAckMap {id rc} : Step d (.forwarding id rc) (.delivering id rc) d
  | syncAck {id rc} : d.core.pendingHandler id = some .syncActionHandler →
    Step d (.delivering id rc) (.handling id rc) d
  | otherAck {id rc} : d.core.pendingHandler id ≠ some .syncActionHandler →
    Step d (.delivering id rc) .idle (d.mapCore (·.forwardReceivedAck id rc))
  | lockStore {id rc} : Step d (.handling id rc) (.storing id rc) d
  | store {id rc} : Step d (.storing id rc) (.stored id)
      (d.mapCore (·.callAckHandler .syncActionHandler id rc))
  | erase {id} : Step d (.stored id) .idle (d.mapCore (·.deletePendingAck id))

theorem CorePc.step_of_next {p p' : CorePc} {c : CoreChoice} {d d' : CoreData}
    (h : p.next c d = some (p', d')) : Step d p p' d' := by
  cases p with
  | looking actionType a =>
    cases c <;> simp only [next, reduceCtorEq] at h
    split at h <;> cases h
    · exact .unregistered rfl rfl
    · exact .registered
  | acting ops call =>
    cases ops with
    | nil =>
      cases c <;> simp only [next, CoreData.endAction, reduceCtorEq] at h
      split_ifs at h <;> cases h
      · exact .wait
      · exact .finish
    | cons op ops =>
      cases c <;> cases h
      exact .lockMap
  | queueing actionType a id g =>
    cases c <;> simp only [next, CoreData.beginQueued, reduceCtorEq] at h
    split at h <;> cases h <;> exact .lockQueue
  | processing ops notice =>
    cases ops <;> cases c <;> cases h <;> constructor
  | delivering id rc =>
    cases c <;> simp only [next, CoreData.deliver, reduceCtorEq] at h
    split at h <;> cases h
    · exact .syncAck ‹_›
    · exact .otherAck (by simp [*])
    · exact .otherAck (by simp [*])
  | _ => cases c <;> cases h <;> constructor

theorem CorePc.locks_wanted {p p' : CorePc} {c : CoreChoice} {d d' : CoreData}
    (h : p.next c d = some (p', d')) (l : CoreLock) (hl : l ∈ p'.locks) :
    l ∈ p.locks ∨ p.wants = some l := by
  -- a step keeps its locks, holds none after it, or holds others
  cases step_of_next h <;> first
    | exact .inl hl
    | exact absurd hl List.not_mem_nil
    | simp only [locks, wants, CoreData.beginCall, List.mem_cons, List.not_mem_nil, or_false,
        Option.some.injEq] at hl ⊢
      tauto

def coreProgram : LockedProgram Nat CoreLock CorePc CoreChoice CoreData where
  holds p l := decide (l ∈ p.locks)
  wants := CorePc.wants
  next _ := CorePc.next
  wants_new p l h := decide_eq_false (p.wants_new l h)
  holds_wanted h l hl := by
    simpa using CorePc.locks_wanted h l (of_decide_eq_true hl)

end AwsIotSdk
