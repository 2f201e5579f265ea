import AwsIotSdk.ClientState

/-! Histories of the pending-ack map: which handler an ack reaches when packet ids
are used again. -/

namespace AwsIotSdk

inductive AckOp where
  | allocate
  | register (actionId : UInt16) (h : Option AsyncAckHandler)
  | forward (actionId : UInt16) (rc : ResponseCode)
  | delete (actionId : UInt16)
  deriving DecidableEq, Repr

namespace AckOp

def apply (s : ClientState) : AckOp → ClientState
  | .allocate => s.getNextPacketId.2
  | .register i h => s.mapCore (fun core => (core.registerPendingAck i h).2)
  | .forward i rc => s.mapCore (·.forwardReceivedAck i rc)
  | .delete i => s.mapCore (·.deletePendingAck i)

def run (s : ClientState) (ops : List AckOp) : ClientState := ops.foldl apply s

theorem run_append (s : ClientState) (ops ops' : List AckOp) :
    run s (ops ++ ops') = run (run s ops) ops' :=
  List.foldl_append

/-- The operation leaves the entry of an id to its next ack. -/
def LeavesAlone (i : UInt16) : AckOp → Prop
  | .allocate => True
  | .register j _ | .forward j _ | .delete j => j ≠ i

theorem pendingHandler_apply {s : ClientState} {i : UInt16} {op : AckOp}
    (h : op.LeavesAlone i) : (apply s op).pendingHandler i = s.pendingHandler i := by
  cases op with
  | allocate => rfl
  | register j g =>
    have hne : i ≠ j := Ne.symm h
    cases g with
    | none => rfl
    | some g => simp [apply, ClientCoreState.pendingHandler_register, hne]
  | forward j rc =>
    have hne : i ≠ j := Ne.symm h
    simp [apply, ClientCoreState.pendingHandler_forward, hne]
  | delete j =>
    have hne : i ≠ j := Ne.symm h
    simp [apply, ClientCoreState.pendingHandler_delete, hne]

theorem pendingHandler_run {s : ClientState} {i : UInt16} {ops : List AckOp}
    (h : ∀ op ∈ ops, op.LeavesAlone i) : (run s ops).pendingHandler i = s.pendingHandler i := by
  induction ops generalizing s with
  | nil => rfl
  | cons op ops ih =>
    calc (run (apply s op) ops).pendingHandler i
        = (apply s op).pendingHandler i := ih (fun o ho => h o (by simp [ho]))
      _ = s.pendingHandler i := pendingHandler_apply (h op (by simp))

theorem lastSentPacketId_run_allocate (s : ClientState) (n : Nat)
    (h : s.lastSentPacketId.toNat + n ≤ 65535) :
    (run s (List.replicate n .allocate)).lastSentPacketId.toNat = s.lastSentPacketId.toNat + n := by
  induction n generalizing s with
  | zero => rfl
  | succ n ih =>
    have hnext : (apply s .allocate).lastSentPacketId.toNat = s.lastSentPacketId.toNat + 1 := by
      have hne : s.lastSentPacketId ≠ 65535 := by
        intro he
        simp only [he, UInt16.toNat_ofNat] at h
        omega
      simp only [apply, ClientState.getNextPacketId, ClientState.nextPacketId, if_neg hne]
      rw [UInt16.toNat_add]
      simp
      omega
    rw [List.replicate_succ, run, List.foldl_cons, ← run, ih _ (by omega), hnext]
    omega

theorem lastSentPacketId_run_allocate_wrap (s : ClientState) (n : Nat)
    (h : s.lastSentPacketId.toNat + n = 65535) :
    (run s (List.replicate (n + 1) .allocate)).lastSentPacketId = 1 := by
  have hlast : (run s (List.replicate n .allocate)).lastSentPacketId = 65535 := by
    apply UInt16.toNat_inj.mp
    rw [lastSentPacketId_run_allocate s n (by omega), h]
    rfl
  rw [List.replicate_succ', run_append]
  change ClientState.nextPacketId (run s (List.replicate n .allocate)).lastSentPacketId = 1
  rw [hlast]
  rfl

theorem pendingHandler_run_allocate (s : ClientState) (n : Nat) (i : UInt16) :
    (run s (List.replicate n .allocate)).pendingHandler i = s.pendingHandler i :=
  pendingHandler_run (fun op ho => by rw [List.eq_of_mem_replicate ho]; trivial)

theorem pendingHandler_run_register (s : ClientState) (i : UInt16) (h : AsyncAckHandler)
    {between : List AckOp} (hb : ∀ op ∈ between, op.LeavesAlone i) :
    (run (apply s (.register i (some h))) between).pendingHandler i =
      some ((s.pendingHandler i).getD h) := by
  rw [pendingHandler_run hb]
  simp [apply, ClientCoreState.pendingHandler_register]

end AckOp

/-- The ack for `i` goes to `h`, once and to no other handler, and takes the
entry with it. -/
def ClientCoreState.DeliversTo (s : ClientCoreState) (h : AsyncAckHandler) (i : UInt16)
    (rc : ResponseCode) : Prop :=
  let t := s.forwardReceivedAck i rc
  t.ackCalls = s.ackCalls ++ [⟨h, i, rc⟩] ∧ t.pendingHandler i = none ∧
    ∀ j, j ≠ i → t.pendingAckMap.find j = s.pendingAckMap.find j

theorem ClientCoreState.deliversTo_iff (s : ClientCoreState) (h : AsyncAckHandler) (i : UInt16)
    (rc : ResponseCode) : s.DeliversTo h i rc ↔ s.pendingHandler i = some h := by
  cases hp : s.pendingHandler i with
  | none => simp [DeliversTo, forwardReceivedAck_of_none s i rc hp]
  | some g =>
    have hfind : ∀ j, j ≠ i →
        (s.forwardReceivedAck i rc).pendingAckMap.find j = s.pendingAckMap.find j := by
      intro j hj
      rw [forwardReceivedAck_of_pending s g i rc hp]
      simp [deletePendingAck, SortedMap.find_erase_of_ne _ hj]
    have hnone : (s.forwardReceivedAck i rc).pendingHandler i = none := by
      rw [pendingHandler_forward, if_pos rfl]
    have hcalls : (s.forwardReceivedAck i rc).ackCalls = s.ackCalls ++ [⟨g, i, rc⟩] := by
      rw [forwardReceivedAck_of_pending s g i rc hp]
      simp [deletePendingAck]
    simp only [DeliversTo, hnone, hcalls, List.append_cancel_left_eq, List.cons.injEq,
      AckCall.mk.injEq, true_and, and_true, Option.some.injEq]
    exact ⟨fun hd => hd.1, fun hd => ⟨hd, hfind⟩⟩

def AckDelivered (init : ClientState) (history : List AckOp) (i : UInt16) (h : AsyncAckHandler)
    (between : List AckOp) (rc : ResponseCode) : Prop :=
  let s := AckOp.run init history
  (s.registerPendingAck i (some h)).1 = .success →
    (AckOp.run (AckOp.apply s (.register i (some h))) between).DeliversTo h i rc

theorem ackDelivered_iff (init : ClientState) (history : List AckOp) (i : UInt16)
    (h : AsyncAckHandler) (between : List AckOp) (rc : ResponseCode)
    (hbetween : ∀ op ∈ between, op.LeavesAlone i) :
    AckDelivered init history i h between rc ↔
      ∀ g, (AckOp.run init history).pendingHandler i = some g → g = h := by
  have hsuccess : ((AckOp.run init history).registerPendingAck i (some h)).1 = .success := rfl
  simp only [AckDelivered, hsuccess, forall_const, ClientCoreState.deliversTo_iff,
    AckOp.pendingHandler_run_register _ i h hbetween, Option.some.injEq]
  cases (AckOp.run init history).pendingHandler i <;> simp

def freshTopic : Utf8String := ⟨[0x61], by decide⟩

def freshClient : ClientState :=
  .create 0 (fun _ => .init freshTopic .qos1 (some 0) 0) .success false 0

theorem ackDelivered_iff_first :
    AckDelivered freshClient [.allocate] 1 (.application 1) [.allocate] .success ↔
      ∀ g, (AckOp.run freshClient [.allocate]).pendingHandler 1 = some g → g = .application 1 :=
  ackDelivered_iff freshClient [.allocate] 1 (.application 1) [.allocate] .success
    (by simp [AckOp.LeavesAlone])

def unacknowledged (n : Nat) : List AckOp :=
  [.allocate, .register 1 (some (.application 1))] ++ List.replicate n .allocate

theorem run_unacknowledged (n : Nat) :
    AckOp.run freshClient (unacknowledged n) =
      AckOp.run (AckOp.run freshClient (unacknowledged 0)) (List.replicate n .allocate) := by
  rw [← AckOp.run_append]
  rfl

/-- After 65535 further allocations the id is in use again, and the ack for the
second action goes to the first handler. -/
theorem not_ackDelivered_unacknowledged :
    (AckOp.run freshClient (unacknowledged 65535)).lastSentPacketId = 1 ∧
      ¬ AckDelivered freshClient (unacknowledged 65535) 1 (.application 2) [] .success := by
  have hfirst : (AckOp.run freshClient (unacknowledged 0)).pendingHandler 1 =
      some (.application 1) := by rfl
  constructor
  · rw [run_unacknowledged]
    exact AckOp.lastSentPacketId_run_allocate_wrap _ 65534 (by rfl)
  · intro h
    have hd := (ClientCoreState.deliversTo_iff _ _ _ _).mp (h rfl)
    rw [AckOp.pendingHandler_run_register _ _ _ (by simp), run_unacknowledged,
      AckOp.pendingHandler_run_allocate, hfirst] at hd
    simp at hd

end AwsIotSdk
