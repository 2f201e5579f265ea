import AwsIotSdk.CoreThreads
import AwsIotSdk.PendingAcks

/-! Which response a blocking call returns. The slot for it is shared by all calls,
and an ack that comes late writes to it for the call that waits then. -/

namespace AwsIotSdk

open LockedProgram

def CorePc.openCall : CorePc → Option SyncCall
  | .acting _ call | .actingMap _ _ call | .waiting call | .woken call | .resumed call => some call
  | _ => none

def CorePc.ackUnderWay : CorePc → Option (UInt16 × ResponseCode)
  | .forwarding id rc | .delivering id rc | .handling id rc | .storing id rc => some (id, rc)
  | _ => none

def Answers (forwarded : List (UInt16 × ResponseCode)) (id : UInt16) (rc : ResponseCode) : Prop :=
  rc = .mqttRequestTimeoutError ∨ (id, rc) ∈ forwarded

/-- The call returned what its own action returned, or it waited and returned
the timeout or an ack for its own id. -/
def Returned.Correlated (forwarded : List (UInt16 × ResponseCode)) (r : Returned) : Prop :=
  if r.waited then Answers forwarded r.actionId r.rc else r.rc = r.own

theorem Answers.mono {fs gs : List (UInt16 × ResponseCode)} (hsub : fs ⊆ gs) {id : UInt16}
    {rc : ResponseCode} (h : Answers fs id rc) : Answers gs id rc :=
  h.imp_right fun hm => hsub hm

theorem Returned.Correlated.mono {fs gs : List (UInt16 × ResponseCode)} (hsub : fs ⊆ gs)
    {r : Returned} (h : r.Correlated fs) : r.Correlated gs := by
  unfold Correlated at h ⊢
  split_ifs at h ⊢
  · exact h.mono hsub
  · exact h

theorem AckMapOp.apply_syncActionResponse (s : ClientCoreState) (op : AckMapOp) :
    (op.apply s).syncActionResponse = s.syncActionResponse := by
  cases op <;> rfl

theorem CoreData.giveNotice_data (d : CoreData) (notice : Option Notice) :
    (d.giveNotice notice).core.syncActionResponse = d.core.syncActionResponse ∧
      (d.giveNotice notice).forwarded = d.forwarded ∧
      (d.giveNotice notice).returned = d.returned := by
  cases notice <;> exact ⟨rfl, rfl, rfl⟩

theorem forwardReceivedAck_slot {s : ClientCoreState} {id : UInt16} (rc : ResponseCode)
    (h : s.pendingHandler id ≠ some .syncActionHandler) :
    (s.forwardReceivedAck id rc).syncActionResponse = s.syncActionResponse := by
  cases hp : s.pendingHandler id with
  | none => rw [s.forwardReceivedAck_of_none id rc hp]
  | some g =>
    rw [s.forwardReceivedAck_of_pending g id rc hp]
    cases g with
    | syncActionHandler => exact absurd hp h
    | application n => rfl

namespace CorePc

variable {p p' : CorePc} {d d' : CoreData}

theorem Step.slot (h : Step d p p' d') :
    d'.core.syncActionResponse = d.core.syncActionResponse ∨
      d'.core.syncActionResponse = .mqttRequestTimeoutError ∨
      ∃ id, p = .storing id d'.core.syncActionResponse := by
  cases h with
  | lockResponse => exact .inr (.inl rfl)
  | applyOp | applyQueuedOp => exact .inl (AckMapOp.apply_syncActionResponse d.core _)
  | endQueued => exact .inl (d.giveNotice_data _).1
  | otherAck hp => exact .inl (forwardReceivedAck_slot _ hp)
  | @store id => exact .inr (.inr ⟨id, rfl⟩)
  | _ => exact .inl rfl

theorem Step.forwarded_subset (h : Step d p p' d') : d.forwarded ⊆ d'.forwarded := by
  cases h with
  | forward => exact List.subset_append_left _ _
  | endQueued => exact (d.giveNotice_data _).2.1 ▸ List.Subset.refl _
  | _ => exact List.Subset.refl _

theorem Step.mem_returned (h : Step d p p' d') {r : Returned} (hr : r ∈ d'.returned) :
    r ∈ d.returned ∨ p = .returning r := by
  cases h with
  | leave =>
    rcases List.mem_append.mp hr with hr | hr
    · exact .inl hr
    · exact .inr (by rw [List.mem_singleton.mp hr])
  | endQueued => exact .inl ((d.giveNotice_data _).2.2 ▸ hr)
  | _ => exact .inl hr

theorem Step.openCall (h : Step d p p' d') {call : SyncCall} (hp : p'.openCall = some call) :
    p.openCall = some call ∨ d'.core.syncActionResponse = .mqttRequestTimeoutError := by
  cases h with
  | lockResponse => exact .inr rfl
  | lockMap | applyOp | wait | wake | resume => exact .inl hp
  | _ => cases hp

theorem Step.ackUnderWay (h : Step d p p' d') {ack : UInt16 × ResponseCode}
    (hp : p'.ackUnderWay = some ack) : p.ackUnderWay = some ack ∨ ack ∈ d'.forwarded := by
  cases h with
  | forward =>
    cases hp
    exact .inr (by simp)
  | lockAckMap | syncAck | lockStore => exact .inl hp
  | _ => cases hp

theorem Step.returning {r : Returned} (h : Step d p (.returning r) d') :
    r.waited = false ∧ r.rc = r.own ∨
      r.waited = true ∧ ∃ rc, p = .resumed ⟨r.actionId, rc⟩ ∧ r.rc = d.core.syncActionResponse := by
  cases h with
  | unregistered hw hr => exact .inl ⟨hw, hr⟩
  | finish => exact .inl ⟨rfl, rfl⟩
  | answer => exact .inr ⟨rfl, _, rfl, rfl⟩

end CorePc

/-- An ack that is stored for one id finds no call waiting for another. -/
def OwnAck (s : State Nat CoreLock CorePc CoreData) (m : Nat × CoreChoice) : Prop :=
  ∀ id rc, s.pc m.1 = .storing id rc →
    ∀ u call, s.pc u = .waiting call ∨ s.pc u = .woken call → call.actionId = id

structure SlotInvariant (s : State Nat CoreLock CorePc CoreData) : Prop where
  slot : ∀ t call, (s.pc t).openCall = some call →
    Answers s.data.forwarded call.actionId s.data.core.syncActionResponse
  acks : ∀ t ack, (s.pc t).ackUnderWay = some ack → ack ∈ s.data.forwarded
  returning : ∀ t r, s.pc t = .returning r → r.Correlated s.data.forwarded
  returned : ∀ r ∈ s.data.returned, r.Correlated s.data.forwarded

theorem SlotInvariant.init (core : ClientCoreState) (last : UInt16) :
    SlotInvariant (start .idle (CoreData.init core last)) where
  slot _ _ h := nomatch h
  acks _ _ h := nomatch h
  returning _ _ h := nomatch h
  returned _ h := nomatch h

/-- A call that is open while an ack is stored waits, and its id is the one of
the ack: all other open calls hold the mutex of the slot. -/
theorem SlotInvariant.openCall_of_storing {s : State Nat CoreLock CorePc CoreData}
    (hcon : coreProgram.Consistent s) {t : Nat} {c : CoreChoice} (hc : OwnAck s (t, c))
    {id : UInt16} {rc : ResponseCode} (hstore : s.pc t = .storing id rc) {u : Nat}
    {call : SyncCall} (hopen : (s.pc u).openCall = some call) : call.actionId = id := by
  have hlock : coreProgram.holds (s.pc t) .syncActionResponse = true := by
    rw [hstore]
    rfl
  have hother : coreProgram.holds (s.pc u) .syncActionResponse ≠ true := by
    intro hu
    obtain rfl := hcon.eq_of_holds hlock hu
    rw [hstore] at hopen
    cases hopen
  cases hp : s.pc u with
  | waiting call' =>
    rw [hp] at hopen
    cases hopen
    exact hc id rc hstore u call (.inl hp)
  | woken call' =>
    rw [hp] at hopen
    cases hopen
    exact hc id rc hstore u call (.inr hp)
  | acting | actingMap | resumed =>
    rw [hp] at hother
    exact absurd rfl hother
  | _ =>
    rw [hp] at hopen
    cases hopen

theorem SlotInvariant.slot_step {s : State Nat CoreLock CorePc CoreData} (hs : SlotInvariant s)
    (hcon : coreProgram.Consistent s) {t : Nat} {c : CoreChoice} (hc : OwnAck s (t, c))
    {p : CorePc} {d : CoreData} (h : CorePc.Step s.data (s.pc t) p d) {u : Nat} {call : SyncCall}
    (hu : ((coreProgram.move s t p d).pc u).openCall = some call) :
    Answers d.forwarded call.actionId d.core.syncActionResponse := by
  have hold : (s.pc u).openCall = some call ∨
      d.core.syncActionResponse = .mqttRequestTimeoutError := by
    by_cases hut : u = t
    · subst hut
      exact h.openCall (move_pc_self s u p d ▸ hu)
    · exact .inl (move_pc_of_ne s hut p d ▸ hu)
  rcases hold with hopen | htimeout
  · rcases h.slot with hsame | htimeout | ⟨id, hstore⟩
    · rw [hsame]
      exact (hs.slot u call hopen).mono h.forwarded_subset
    · exact .inl htimeout
    · rw [openCall_of_storing hcon hc hstore hopen]
      exact .inr (h.forwarded_subset (hs.acks t _ (by rw [hstore]; rfl)))
  · exact .inl htimeout

theorem SlotInvariant.step {s : State Nat CoreLock CorePc CoreData} (hs : SlotInvariant s)
    (hcon : coreProgram.Consistent s) {t : Nat} {c : CoreChoice} (hc : OwnAck s (t, c))
    {p : CorePc} {d : CoreData} (h : CorePc.Step s.data (s.pc t) p d) :
    SlotInvariant (coreProgram.move s t p d) where
  slot u call hu := hs.slot_step hcon hc h hu
  acks u ack hu := by
    by_cases hut : u = t
    · subst hut
      rw [move_pc_self] at hu
      rcases h.ackUnderWay hu with hold | hnew
      · exact h.forwarded_subset (hs.acks u ack hold)
      · exact hnew
    · rw [move_pc_of_ne s hut] at hu
      exact h.forwarded_subset (hs.acks u ack hu)
  returning u r hu := by
    by_cases hut : u = t
    · subst hut
      rw [move_pc_self] at hu
      subst hu
      unfold Returned.Correlated
      rcases h.returning with ⟨hw, hrc⟩ | ⟨hw, own, hp, hrc⟩
      · rw [hw, if_neg Bool.false_ne_true]
        exact hrc
      · rw [hw, if_pos rfl, hrc]
        exact (hs.slot u _ (by rw [hp]; rfl)).mono h.forwarded_subset
    · rw [move_pc_of_ne s hut] at hu
      exact (hs.returning u r hu).mono h.forwarded_subset
  returned r hr := by
    rcases h.mem_returned hr with hold | hp
    · exact (hs.returned r hold).mono h.forwarded_subset
    · exact (hs.returning t r hp).mono h.forwarded_subset

/-- While no ack is stored that another call waits out, every blocking call returns
a response of its own. -/
theorem returned_correlated {core : ClientCoreState} {last : UInt16}
    {s : State Nat CoreLock CorePc CoreData}
    (h : Transition.Reachable coreProgram.step OwnAck (start .idle (CoreData.init core last)) s) :
    ∀ r ∈ s.data.returned, r.Correlated s.data.forwarded := by
  have hinv := reachable_invariant (I := SlotInvariant) (consistent_start (fun _ => rfl) _)
    (SlotInvariant.init core last)
    (fun s t c p d hcon hs hc _ hnext => hs.step hcon hc (CorePc.step_of_next hnext)) h
  exact hinv.2.returned

def ackedPublish : Sending := .publish .qos1 .success

def callAndWait (t : Nat) : List (Nat × CoreChoice) :=
  (t, .call .publish ackedPublish) :: List.replicate 6 (t, .proceed)

def wakeAndReturn (t : Nat) : List (Nat × CoreChoice) := List.replicate 4 (t, .proceed)

def forwardAck (t : Nat) (id : UInt16) (rc : ResponseCode) : List (Nat × CoreChoice) :=
  (t, .forward id rc) :: List.replicate 5 (t, .proceed)

def freshThreads : State Nat CoreLock CorePc CoreData :=
  start .idle (CoreData.init freshClient.toClientCoreState 0)

def waitsFor (id : UInt16) : CorePc → Bool
  | .waiting call | .woken call => call.actionId = id
  | _ => true

/-- One of the threads takes a step, and what it stores is for all of them that wait. -/
def storesOwn (ts : List Nat) (s : State Nat CoreLock CorePc CoreData) (m : Nat × CoreChoice) :
    Bool :=
  ts.contains m.1 && match s.pc m.1 with
    | .storing id _ => ts.all (fun u => waitsFor id (s.pc u))
    | _ => true

theorem ownAck_of_storesOwn {ts : List Nat} {s : State Nat CoreLock CorePc CoreData}
    {m : Nat × CoreChoice} (hs : OthersAt s ts .idle) (hm : storesOwn ts s m = true) :
    OwnAck s m := by
  intro id rc hp u call hu
  rw [storesOwn, hp, Bool.and_eq_true] at hm
  by_cases hut : u ∈ ts
  · have hwaits := List.all_eq_true.mp hm.2 u hut
    rcases hu with hu | hu
    · rw [hu] at hwaits
      simpa [waitsFor] using hwaits
    · rw [hu] at hwaits
      simpa [waitsFor] using hwaits
  · rw [hs u hut] at hu
    rcases hu with hu | hu <;> cases hu

/-- The ack of the first call comes when nobody waits, that of the second in time. -/
def ownAckRun : List (Nat × CoreChoice) :=
  callAndWait 0 ++ wakeAndReturn 0 ++ forwardAck 1 1 .success ++ callAndWait 0 ++
    forwardAck 1 2 .success ++ wakeAndReturn 0

theorem returned_correlated_timeout :
    ∃ s, Transition.Reachable coreProgram.step OwnAck freshThreads s ∧
      s.data.returned = [⟨1, .success, true, .mqttRequestTimeoutError⟩,
        ⟨2, .success, true, .success⟩] ∧
      ∀ r ∈ s.data.returned, r.Correlated s.data.forwarded := by
  have hrun : ∃ s, Transition.runWhile coreProgram.step (storesOwn [0, 1]) freshThreads
      ownAckRun = some s ∧
      s.data.returned = [⟨1, .success, true, .mqttRequestTimeoutError⟩,
        ⟨2, .success, true, .success⟩] := ⟨_, rfl, rfl⟩
  obtain ⟨s, hs, hreturned⟩ := hrun
  have hreach := Transition.reachable_of_runWhile (P := fun s => OthersAt s [0, 1] .idle)
    (fun _ m _ ho hm => ho.step
      (List.contains_iff_mem.mp ((Bool.and_eq_true _ _).mp hm).1))
    (fun _ _ => ownAck_of_storesOwn) (othersAt_start [0, 1] _ _) hs
  exact ⟨s, hreach, hreturned, returned_correlated hreach⟩

def lateAckRun : List (Nat × CoreChoice) :=
  callAndWait 0 ++ wakeAndReturn 0 ++ callAndWait 0 ++ forwardAck 1 1 .success ++ wakeAndReturn 0

theorem not_returned_correlated_late :
    ∃ s, Transition.Reachable coreProgram.step Transition.anyMove freshThreads s ∧
      s.data.returned = [⟨1, .success, true, .mqttRequestTimeoutError⟩,
        ⟨2, .success, true, .success⟩] ∧
      s.data.forwarded = [(1, .success)] ∧
      ¬ ∀ r ∈ s.data.returned, r.Correlated s.data.forwarded := by
  have hrun : ∃ s, Transition.run coreProgram.step freshThreads lateAckRun = some s ∧
      s.data.returned = [⟨1, .success, true, .mqttRequestTimeoutError⟩,
        ⟨2, .success, true, .success⟩] ∧ s.data.forwarded = [(1, .success)] := by
    exact ⟨_, rfl, rfl, rfl⟩
  obtain ⟨s, hs, hreturned, hforwarded⟩ := hrun
  refine ⟨s, Transition.reachable_of_run hs, hreturned, hforwarded, ?_⟩
  rw [hreturned, hforwarded]
  intro h
  have := h _ (List.mem_cons_of_mem _ List.mem_cons_self)
  simp [Returned.Correlated, Answers] at this

end AwsIotSdk
