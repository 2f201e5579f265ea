import AwsIotSdk.ClientState

/-! The removal of expired acks. The loop moves its iterator nowhere: an entry that is
live is looked at again, and one that is expired is erased under the iterator. -/

namespace AwsIotSdk

/-- Where the iterator of the loop stands. -/
inductive AckIterator where
  | entry (actionId : UInt16)
  | past
  | erased
  deriving DecidableEq, Repr

inductive DeletionOutcome where
  | returned (s : ClientCoreState)
  | usedAfterErase (s : ClientCoreState)

namespace ClientCoreState

/-- The clock counts nanoseconds. -/
def clockPeriod : Int := 1000000000

def isExpired (s : ClientCoreState) (ackTimeout : Int) (data : PendingAckData) : Bool :=
  ackTimeout < ((s.clock : Int) - data.timeOfRequest).tdiv clockPeriod

def beginAcks (s : ClientCoreState) : AckIterator :=
  match s.pendingAckMap.entries with
  | [] => .past
  | e :: _ => .entry e.1

/-- The handler is called first, and the entry erased after it. -/
def expireAck (s : ClientCoreState) (actionId : UInt16) (data : PendingAckData) :
    ClientCoreState :=
  (s.callAckHandler data.pAsyncAckHandler actionId .mqttRequestTimeoutError).deletePendingAck
    actionId

/-- No result while the loop goes on. -/
def deleteExpiredAcksLoop (ackTimeout : Int) :
    Nat → ClientCoreState → AckIterator → Option DeletionOutcome
  | 0, _, _ => none
  | _ + 1, s, .past => some (.returned s)
  | _ + 1, s, .erased => some (.usedAfterErase s)
  | fuel + 1, s, .entry actionId =>
    match s.pendingAckMap.find actionId with
    | none => some (.usedAfterErase s)
    | some data =>
      if s.isExpired ackTimeout data then
        deleteExpiredAcksLoop ackTimeout fuel (s.expireAck actionId data) .erased
      else deleteExpiredAcksLoop ackTimeout fuel s (.entry actionId)

def deleteExpiredAcks (ackTimeout : Int) (fuel : Nat) (s : ClientCoreState) :
    Option DeletionOutcome :=
  deleteExpiredAcksLoop ackTimeout fuel s s.beginAcks

/-- The calls that are due, in the order of the map. -/
def timeoutCalls (s : ClientCoreState) (ackTimeout : Int) : List AckCall :=
  (s.pendingAckMap.entries.filter (fun e => s.isExpired ackTimeout e.2)).map
    (fun e => ⟨e.2.pAsyncAckHandler, e.1, .mqttRequestTimeoutError⟩)

/-- The call returns, has called each expired handler once and has left the live entries. -/
def RemovesExpired (s : ClientCoreState) (ackTimeout : Int) : Prop :=
  ∃ fuel t, deleteExpiredAcks ackTimeout fuel s = some (.returned t) ∧
    t.pendingAckMap.entries =
      s.pendingAckMap.entries.filter (fun e => !s.isExpired ackTimeout e.2) ∧
    ∃ calls, t.ackCalls = s.ackCalls ++ calls ∧ calls.Perm (s.timeoutCalls ackTimeout)

theorem deleteExpiredAcksLoop_live {s : ClientCoreState} {ackTimeout : Int} {i : UInt16}
    {data : PendingAckData} (hfind : s.pendingAckMap.find i = some data)
    (hlive : s.isExpired ackTimeout data = false) (fuel : Nat) :
    deleteExpiredAcksLoop ackTimeout fuel s (.entry i) = none := by
  induction fuel with
  | zero => rfl
  | succ fuel ih => simp [deleteExpiredAcksLoop, hfind, hlive, ih]

theorem deleteExpiredAcksLoop_expired {s : ClientCoreState} {ackTimeout : Int} {i : UInt16}
    {data : PendingAckData} (hfind : s.pendingAckMap.find i = some data)
    (hexpired : s.isExpired ackTimeout data = true) (fuel : Nat) :
    deleteExpiredAcksLoop ackTimeout (fuel + 1) s (.entry i) =
      deleteExpiredAcksLoop ackTimeout fuel (s.expireAck i data) .erased := by
  simp [deleteExpiredAcksLoop, hfind, hexpired]

theorem deleteExpiredAcksLoop_erased (s t : ClientCoreState) (ackTimeout : Int) (fuel : Nat) :
    deleteExpiredAcksLoop ackTimeout fuel s .erased ≠ some (.returned t) := by
  cases fuel with
  | zero => simp [deleteExpiredAcksLoop]
  | succ fuel => simp [deleteExpiredAcksLoop]

/-- The loop never leaves its first entry, or it leaves it for good. -/
theorem not_returned_of_first {s : ClientCoreState} {i : UInt16} {data : PendingAckData}
    {rest : List (UInt16 × PendingAckData)} (h : s.pendingAckMap.entries = (i, data) :: rest)
    (ackTimeout : Int) (fuel : Nat) (t : ClientCoreState) :
    deleteExpiredAcks ackTimeout fuel s ≠ some (.returned t) := by
  have hfind : s.pendingAckMap.find i = some data := by
    rw [← SortedMap.mem_entries_iff, h]
    exact List.mem_cons_self
  have hbegin : s.beginAcks = .entry i := by
    rw [beginAcks, h]
  rw [deleteExpiredAcks, hbegin]
  cases hdata : s.isExpired ackTimeout data with
  | false => simp [deleteExpiredAcksLoop_live hfind hdata fuel]
  | true =>
    cases fuel with
    | zero => simp [deleteExpiredAcksLoop]
    | succ fuel =>
      rw [deleteExpiredAcksLoop_expired hfind hdata]
      exact deleteExpiredAcksLoop_erased (s.expireAck i data) t ackTimeout fuel

theorem removesExpired_of_empty {s : ClientCoreState} (h : s.pendingAckMap.entries = [])
    (ackTimeout : Int) : s.RemovesExpired ackTimeout := by
  refine ⟨1, s, ?_, ?_, [], ?_, ?_⟩
  · simp [deleteExpiredAcks, beginAcks, h, deleteExpiredAcksLoop]
  · rw [h, List.filter_nil]
  · rw [List.append_nil]
  · rw [timeoutCalls, h]
    exact .refl _

/-- A call does its work only where there is none. -/
theorem removesExpired_iff (s : ClientCoreState) (ackTimeout : Int) :
    s.RemovesExpired ackTimeout ↔ s.pendingAckMap.entries = [] := by
  constructor
  · rintro ⟨fuel, t, hreturned, -⟩
    cases hentries : s.pendingAckMap.entries with
    | nil => rfl
    | cons e rest => exact absurd hreturned (not_returned_of_first hentries ackTimeout fuel t)
  · intro h
    exact removesExpired_of_empty h ackTimeout

/-- An idle client, but for one request of the given time. -/
def waiting (clock timeOfRequest : Nat) : ClientCoreState where
  maxQueueSize := ClientState.defaultMaxQueueSize
  clock := clock
  processQueuedActions := true
  syncActionResponse := .success
  actionMap := ClientState.registeredActions
  pendingAckMap := SortedMap.empty.insert 1 ⟨timeOfRequest, .application 0⟩
  outboundActionQueue := []
  ackCalls := []

/-- With five seconds to wait, a request just made and one that is a minute old. -/
theorem not_removesExpired_waiting :
    ¬(waiting 60000000000 60000000000).RemovesExpired 5 ∧
      ¬(waiting 60000000000 0).RemovesExpired 5 := by
  have hentries : ∀ timeOfRequest, (waiting 60000000000 timeOfRequest).pendingAckMap.entries =
      [(1, ⟨timeOfRequest, .application 0⟩)] := fun _ => rfl
  refine ⟨?_, ?_⟩
  · rintro ⟨fuel, t, hreturned, -⟩
    exact not_returned_of_first (hentries 60000000000) 5 fuel t hreturned
  · rintro ⟨fuel, t, hreturned, -⟩
    exact not_returned_of_first (hentries 0) 5 fuel t hreturned

end ClientCoreState

end AwsIotSdk
