import AwsIotSdk.DrawnValues
import AwsIotSdk.PendingAcks
import AwsIotSdk.UnsubscribeAcks

/-! The ids of packets and of actions. One counter holds the last id and the other one the
next; both hand out the ids from 1 on, over and over. -/

namespace AwsIotSdk

open ClientState DrawnValues

/-- The core state with the counter of its action ids, which a `ClientState` overrides. -/
structure ActionIdState extends ClientCoreState where
  nextActionId : UInt16

namespace ActionIdState

/-- The members that the constructor leaves as they are, are arguments. -/
def create (clock : Nat) (processQueuedActions : Bool) (syncActionResponse : ResponseCode) :
    ActionIdState where
  maxQueueSize := defaultMaxQueueSize
  clock := clock
  processQueuedActions := processQueuedActions
  syncActionResponse := syncActionResponse
  actionMap _ := none
  pendingAckMap := .empty
  outboundActionQueue := []
  ackCalls := []
  nextActionId := 1

def getNextActionId (s : ActionIdState) : UInt16 × ActionIdState :=
  if s.nextActionId = 65535 then (65535, { s with nextActionId := 1 })
  else (s.nextActionId, { s with nextActionId := s.nextActionId + 1 })

end ActionIdState

theorem counts_getNextPacketId :
    Counts getNextPacketId ClientState.lastSentPacketId nextPacketId nextPacketId :=
  ⟨fun _ => rfl, fun _ => rfl⟩

theorem counts_getNextActionId :
    Counts ActionIdState.getNextActionId ActionIdState.nextActionId id nextPacketId := by
  refine ⟨fun s => ?_, fun s => ?_⟩
  · rw [ActionIdState.getNextActionId]
    split_ifs with hlast
    · exact hlast.symm
    · rfl
  · rw [ActionIdState.getNextActionId, nextPacketId]
    split_ifs <;> rfl

/-- The ids are 1 to 65535, over and over. -/
structure IdSequence (ids : List UInt16) : Prop where
  closedForm : ∀ n (h : n < ids.length), ids[n].toNat = n % 65535 + 1
  zero_not_mem : 0 ∉ ids
  nodup : ∀ window, window <:+: ids → window.length ≤ 65535 → window.Nodup

theorem idSequence_of_closedForm {ids : List UInt16}
    (h : ∀ n (hn : n < ids.length), ids[n].toNat = n % 65535 + 1) : IdSequence ids := by
  refine ⟨h, ?_, ?_⟩
  · intro hzero
    obtain ⟨n, hn, hid⟩ := List.getElem_of_mem hzero
    have hvalue := h n hn
    rw [hid, UInt16.toNat_zero] at hvalue
    omega
  · rintro window ⟨before, after, rfl⟩ hlen
    have hvalue : ∀ i (hi : i < window.length),
        window[i].toNat = (before.length + i) % 65535 + 1 := by
      intro i hi
      have hall := h (before.length + i) (by simp only [List.length_append]; omega)
      rw [← hall]
      simp [hi]
    rw [List.nodup_iff_injective_getElem]
    rintro ⟨i, hi⟩ ⟨j, hj⟩ hij
    have hi' := hvalue i hi
    have hj' := hvalue j hj
    rw [show window[i] = window[j] from hij] at hi'
    rw [Fin.mk.injEq]
    omega

/-- A counter that is taken on in this way, and whose first value is 1, hands out the
sequence. -/
theorem idSequence_of_counts {S : Type} {next : S → UInt16 × S} {counter : S → UInt16}
    {value : UInt16 → UInt16} (hc : Counts next counter value nextPacketId) {s t : S}
    (hfirst : ∀ n, value (nextPacketId^[n] (counter s)) = nextPacketId^[n + 1] 0)
    {ids : List UInt16} (h : Draws next counter s ids t) : IdSequence ids := by
  refine idSequence_of_closedForm fun n hn => ?_
  rw [h.getElem_eq hc n hn, hfirst, toNat_iterate_nextPacketId, UInt16.toNat_zero, Nat.zero_add]

theorem idSequence_getNextPacketId {s t : ClientState} (hs : s.lastSentPacketId = 0)
    {ids : List UInt16} (h : Draws getNextPacketId ClientState.lastSentPacketId s ids t) :
    IdSequence ids := by
  refine idSequence_of_counts counts_getNextPacketId (fun n => ?_) h
  rw [hs, Function.iterate_succ_apply']

theorem idSequence_getNextActionId {s t : ActionIdState} (hs : s.nextActionId = 1)
    {ids : List UInt16}
    (h : Draws ActionIdState.getNextActionId ActionIdState.nextActionId s ids t) :
    IdSequence ids := by
  refine idSequence_of_counts counts_getNextActionId (fun n => ?_) h
  rw [hs, Function.iterate_succ_apply]
  rfl

/-- The calls on a new state hand out the sequence, whatever else happens between them. -/
theorem idSequence_of_draws :
    (∀ clock heap rc trigger keepAlive ids t,
      Draws getNextPacketId ClientState.lastSentPacketId
        (ClientState.create clock heap rc trigger keepAlive) ids t → IdSequence ids) ∧
      ∀ clock process rc ids t,
        Draws ActionIdState.getNextActionId ActionIdState.nextActionId
          (ActionIdState.create clock process rc) ids t → IdSequence ids :=
  ⟨fun _ _ _ _ _ _ _ h => idSequence_getNextPacketId rfl h,
    fun _ _ _ _ _ h => idSequence_getNextActionId rfl h⟩

theorem idSequence_of_draws_two : IdSequence [1, 2] ∧ IdSequence [1] := by
  have h := idSequence_of_draws
  constructor
  · have hdraws : Draws getNextPacketId ClientState.lastSentPacketId freshClient [1, 2] _ :=
      (Draws.start.call.between (u := freshClient.getNextPacketId.2.setConnected true) rfl).call
    exact h.1 0 _ .success false 0 [1, 2] _ hdraws
  · exact h.2 0 false .success [1] _ Draws.start.call

/-! ### The ids of a history of acks -/

theorem AckOp.lastSentPacketId_apply (s : ClientState) {op : AckOp} (h : op ≠ .allocate) :
    (AckOp.apply s op).lastSentPacketId = s.lastSentPacketId := by
  cases op with
  | allocate => exact absurd rfl h
  | register actionId handler => rfl
  | forward actionId rc => rfl
  | delete actionId => rfl

/-- A history of acks asks for an id each time it allocates one, and gets the next of the
sequence. -/
theorem AckOp.draws_run {s : ClientState} (hs : s.lastSentPacketId = 0) (ops : List AckOp) :
    ∃ ids, Draws getNextPacketId ClientState.lastSentPacketId s ids (AckOp.run s ops) ∧
      ids.length = ops.count .allocate ∧ IdSequence ids := by
  have hrun : ∃ ids, Draws getNextPacketId ClientState.lastSentPacketId s ids
      (AckOp.run s ops) ∧ ids.length = ops.count .allocate := by
    induction ops using List.reverseRecOn with
    | nil => exact ⟨[], .start, rfl⟩
    | append_singleton ops op ih =>
      obtain ⟨ids, hdraws, hlen⟩ := ih
      rw [AckOp.run_append]
      by_cases hop : op = .allocate
      · subst hop
        exact ⟨_, hdraws.call, by simp [hlen]⟩
      · exact ⟨ids, hdraws.between (AckOp.lastSentPacketId_apply _ hop), by simp [hlen, hop]⟩
  obtain ⟨ids, hdraws, hlen⟩ := hrun
  exact ⟨ids, hdraws, hlen, idSequence_getNextPacketId hs hdraws⟩

end AwsIotSdk
