import AwsIotSdk.ManualDisconnect

/-! The reconnect of the keepalive loop, and what of the subscription map it writes
on the new connection. The loop goes by the result of its call, the reader by the
packet. -/

namespace AwsIotSdk

open LockedProgram

namespace LinkPc

def inReconnect : LinkPc → Bool
  | .reconnecting | .reconnected _ | .backoff | .resubscribing _ _ | .settling _ => true
  | .connectCall auto | .connectBegin auto | .connectOpen auto | .connectWrite auto
  | .connectWait auto | .connectWoken auto | .connectResumed auto | .connectEnd auto _ => auto
  | _ => false

def awaitsAnswer : LinkPc → Bool
  | .connectWrite auto | .connectWait auto | .connectWoken auto | .connectResumed auto => auto
  | _ => false

/-- What the thread has before it covers the topics that are owed. -/
def Covers (d : LinkData) : LinkPc → Prop
  | .connectWrite auto | .connectWait auto | .connectWoken auto | .connectResumed auto
  | .connectEnd auto _ => auto = true
  | .reconnected _ => True
  | .resubscribing ts _ => d.owed ⊆ d.resubscribed ++ ts
  | _ => False

end LinkPc

/-- After a loss the answer to a reconnect comes while the call can take it, and a
reconnect without an accepted answer finds the client not connected. -/
def AnswersInTime (s : State Nat RequestLock LinkPc LinkData) (m : Nat × LinkChoice) : Prop :=
  (∀ w, s.pc m.1 = .reading w → m.2 = .connack → s.data.lost = true →
    ∃ u, (s.pc u).awaitsAnswer = true) ∧
  ∀ rc, s.pc m.1 = .reconnected rc → rc ≠ .mqttConnackConnectionAccepted →
    s.data.client.isConnected = false

/-- On a connection that follows a loss the topics of the map are subscribed once
the reconnect is over, unless a write failed. -/
def Resubscribed (s : State Nat RequestLock LinkPc LinkData) : Prop :=
  s.data.lost = true → s.data.client.isConnected = true →
    (∀ u, (s.pc u).inReconnect = false) → s.data.writeFailed = false →
    s.data.owed ⊆ s.data.resubscribed

structure Covered (s : State Nat RequestLock LinkPc LinkData) : Prop where
  owed : s.data.owed ⊆ s.data.topics
  covered : s.data.lost = true → s.data.client.isConnected = true →
    s.data.writeFailed = true ∨ s.data.owed ⊆ s.data.resubscribed ∨
      ∃ t, (s.pc t).Covers s.data

structure LinkData.Follows (d' d : LinkData) : Prop where
  owed : d'.owed = d.owed
  resubscribed : d.resubscribed ⊆ d'.resubscribed
  writeFailed : d.writeFailed = true → d'.writeFailed = true

theorem LinkData.topics_subset_insert (d : LinkData) (topicName : Bytes) (p : SubscriptionPtr) :
    d.topics ⊆ (d.mapClient (·.insertTopic topicName p)).topics :=
  List.map_subset _ (SortedMap.subset_insertEntries topicName p _)

namespace LinkPc

variable {p p' : LinkPc} {c : LinkChoice} {d d' : LinkData}

theorem Covers.follow (h : p.Covers d) (hd : d'.Follows d) : p.Covers d' := by
  cases p with
  | resubscribing ts rc =>
    intro a ha
    rw [hd.owed] at ha
    rcases List.mem_append.mp (h ha) with ha | ha
    · exact List.mem_append_left _ (hd.resubscribed ha)
    · exact List.mem_append_right _ ha
  | _ => exact h

theorem covers_of_awaitsAnswer (h : p.awaitsAnswer = true) : p.Covers d := by
  cases p <;> first | exact h | cases h

theorem inReconnect_of_covers (h : p.Covers d) : p.inReconnect = true := by
  cases p <;> first | exact h | rfl | cases h

theorem Step.topics (h : Step d p c p' d') : d.topics ⊆ d'.topics := by
  cases h with
  | close =>
    unfold LinkData.topics LinkData.mapClient
    rw [deactivate_subscriptionMap]
    exact List.Subset.refl _
  | @act topic =>
    cases topic with
    | none => exact List.Subset.refl _
    | some e => exact d.topics_subset_insert e.1 e.2
  | _ => exact List.Subset.refl _

theorem Step.owed (h : Step d p c p' d') (hd : d.owed ⊆ d.topics) : d'.owed ⊆ d'.topics := by
  have ht := h.topics
  cases h with
  | connack => exact List.Subset.refl _
  | _ => exact List.Subset.trans hd ht

/-- A step to a connection that follows a loss, other than the packet that makes
it, starts there too, unless the thread opens the connection itself. -/
theorem Step.follows (h : Step d p c p' d') (hc : ∀ w, p = .reading w → c ≠ .connack)
    (hl : d'.lost = true) (hcon : d'.client.isConnected = true) :
    p'.Covers d' ∨ d.lost = true ∧ d.client.isConnected = true ∧ d'.Follows d := by
  have hrefl : d.Follows d := ⟨rfl, List.Subset.refl _, id⟩
  cases h with
  | close =>
    rw [← (deactivate_flags d.client).1]
    exact .inr ⟨hl, hcon, rfl, List.Subset.refl _, id⟩
  | closing => cases hcon
  | @opened auto => exact .inl ((Bool.and_eq_true _ _).mp hl).2
  | connack => exact absurd rfl (hc _ rfl)
  | @act topic => cases topic <;> exact .inr ⟨hl, hcon, rfl, List.Subset.refl _, id⟩
  | subscribed => exact .inr ⟨hl, hcon, rfl, List.subset_append_left _ _, id⟩
  | notSubscribed => exact .inr ⟨hl, hcon, rfl, List.Subset.refl _, fun _ => rfl⟩
  | _ => exact .inr ⟨hl, hcon, rfl, List.Subset.refl _, id⟩

theorem Step.covers (h : Step d p c p' d') (hp : p.Covers d) (hd : d.owed ⊆ d.topics)
    (hcon : d.client.isConnected = true)
    (hc : ∀ rc, p = .reconnected rc → rc ≠ .mqttConnackConnectionAccepted →
      d.client.isConnected = false) :
    d'.writeFailed = true ∨ d'.owed ⊆ d'.resubscribed ∨ p'.Covers d' := by
  cases h with
  | written | unanswered | notWritten | wake | resume | answer => exact .inr (.inr hp)
  | leaveReconnect => exact .inr (.inr trivial)
  | accepted => exact .inr (.inr (List.Subset.trans hd (List.subset_append_right _ _)))
  | refused hrc => simp [hc _ rfl hrc] at hcon
  | resubscribed => exact .inr (.inl (by simpa [Covers] using hp))
  | @subscribed ts =>
    refine .inr (.inr ?_)
    simpa only [Covers, List.append_assoc, List.take_append_drop] using hp
  | notSubscribed => exact .inl rfl
  | _ => cases hp

end LinkPc

theorem Covered.step {s : State Nat RequestLock LinkPc LinkData} (hs : Covered s) {t : Nat}
    {c : LinkChoice} (hc : AnswersInTime s (t, c)) {p : LinkPc} {d : LinkData}
    (h : LinkPc.Step s.data (s.pc t) c p d) : Covered (linkProgram.move s t p d) := by
  refine ⟨h.owed hs.owed, fun hl hcon => ?_⟩
  rw [move_data] at hl hcon ⊢
  have hother : ∀ u, u ≠ t → (s.pc u).Covers d →
      ∃ v, ((linkProgram.move s t p d).pc v).Covers d :=
    fun u hu hcov => ⟨u, by rwa [move_pc_of_ne s hu]⟩
  by_cases hk : ∃ w, s.pc t = .reading w ∧ c = .connack
  · obtain ⟨w, hw, rfl⟩ := hk
    rw [hw] at h
    cases h
    obtain ⟨u, hu⟩ := hc.1 w hw rfl hl
    refine .inr (.inr (hother u ?_ (LinkPc.covers_of_awaitsAnswer hu)))
    rintro rfl
    rw [hw] at hu
    cases hu
  · rcases h.follows (fun w hw hck => hk ⟨w, hw, hck⟩) hl hcon with hp | ⟨hlost, hconn, hfol⟩
    · exact .inr (.inr ⟨t, by rwa [move_pc_self]⟩)
    · rcases hs.covered hlost hconn with hwf | hsub | ⟨u, hu⟩
      · exact .inl (hfol.writeFailed hwf)
      · refine .inr (.inl ?_)
        rw [hfol.owed]
        exact List.Subset.trans hsub hfol.resubscribed
      · by_cases hut : u = t
        · subst hut
          refine (h.covers hu hs.owed hconn hc.2).imp_right (Or.imp_right fun hp => ⟨u, ?_⟩)
          rwa [move_pc_self]
        · exact .inr (.inr (hother u hut (hu.follow hfol)))

/-- When the answers come in time every reconnect subscribes the topics of the map. -/
theorem resubscribed_of_answersInTime {client : ClientState} {net : Bool}
    {s : State Nat RequestLock LinkPc LinkData}
    (h : Transition.Reachable linkProgram.step AnswersInTime
      (start .idle (LinkData.init client net)) s) : Resubscribed s := by
  have hstart : Covered (start .idle (LinkData.init client net)) :=
    ⟨List.nil_subset _, nofun⟩
  obtain ⟨-, hinv⟩ := reachable_invariant (consistent_start (fun _ => rfl) _) hstart
    (fun s t c p d _ hs hc _ hnext => hs.step hc (LinkPc.step_of_next hnext)) h
  intro hl hcon hout hwf
  rcases hinv.covered hl hcon with hfail | hsub | ⟨t, ht⟩
  · simp [hwf] at hfail
  · exact hsub
  · have := LinkPc.inReconnect_of_covers ht
    simp [hout t] at this

def subscribeRun : List (Nat × LinkChoice) :=
  (0, .call (some ([116], 0))) :: List.replicate 4 (0, .proceed)

def lossRun : List (Nat × LinkChoice) :=
  [(3, .drop), (2, .proceed), (2, .proceed), (2, .proceed), (2, .elapsed), (2, .proceed),
    (2, .proceed), (2, .result .success)] ++ List.replicate 11 (2, .proceed) ++
    [(2, .result .success), (2, .result .success)]

def answerRun : List (Nat × LinkChoice) := (1, .connack) :: List.replicate 4 (1, .proceed)

def inTimeRun : List (Nat × LinkChoice) :=
  answerRun ++ List.replicate 5 (2, .proceed) ++
    [(2, .result .success), (2, .proceed), (2, .proceed)]

def lateRun : List (Nat × LinkChoice) :=
  List.replicate 5 (2, .proceed) ++ answerRun ++ [(2, .proceed)]

def keepsTime (s : State Nat RequestLock LinkPc LinkData) (m : Nat × LinkChoice) : Bool :=
  match s.pc m.1 with
  | .reading _ => !s.data.lost || (s.pc 2).awaitsAnswer
  | .reconnected rc => rc = .mqttConnackConnectionAccepted || !s.data.client.isConnected
  | _ => true

theorem answersInTime_of_keepsTime {s : State Nat RequestLock LinkPc LinkData}
    {m : Nat × LinkChoice} (hm : keepsTime s m = true) : AnswersInTime s m := by
  refine ⟨fun w hp _ hl => ⟨2, ?_⟩, fun rc hp hrc => ?_⟩
  · simpa [keepsTime, hp, hl] using hm
  · simpa [keepsTime, hp, hrc] using hm

theorem resubscribed_of_answersInTime_reconnect :
    ∃ s, Transition.Reachable linkProgram.step AnswersInTime freshLink s ∧
      s.data.lost = true ∧ s.data.client.isConnected = true ∧ (s.pc 2).inReconnect = false ∧
      s.data.writeFailed = false ∧ s.data.owed = [[116]] ∧ Resubscribed s := by
  have hrun : ∃ s, Transition.runWhile linkProgram.step keepsTime freshLink
      (connectRun ++ subscribeRun ++ lossRun ++ inTimeRun) = some s ∧ s.data.lost = true ∧
      s.data.client.isConnected = true ∧ (s.pc 2).inReconnect = false ∧
      s.data.writeFailed = false ∧ s.data.owed = [[116]] := ⟨_, rfl, rfl, rfl, rfl, rfl, rfl⟩
  obtain ⟨s, hs, hl, hcon, hout, hwf, howed⟩ := hrun
  have hreach := Transition.reachable_of_runWhile (P := fun _ => True) (fun _ _ _ _ _ _ => trivial)
    (fun _ _ _ => answersInTime_of_keepsTime) trivial hs
  exact ⟨s, hreach, hl, hcon, hout, hwf, howed, resubscribed_of_answersInTime hreach⟩

theorem not_resubscribed_late :
    ∃ s, Transition.Reachable linkProgram.step Transition.anyMove freshLink s ∧
      ¬ Resubscribed s := by
  have hrun : ∃ s, Transition.run linkProgram.step freshLink
      (connectRun ++ subscribeRun ++ lossRun ++ lateRun) = some s ∧ s.data.lost = true ∧
      s.data.client.isConnected = true ∧ s.data.writeFailed = false ∧
      ¬ s.data.owed ⊆ s.data.resubscribed ∧ ∀ u ∈ [0, 1, 2, 3], (s.pc u).inReconnect = false :=
    ⟨_, rfl, rfl, rfl, rfl, by decide, by decide⟩
  obtain ⟨s, hs, hl, hcon, hwf, howed, hout⟩ := hrun
  have hothers : OthersAt s [0, 1, 2, 3] .idle :=
    (othersAt_start [0, 1, 2, 3] _ _).run (by decide) hs
  refine ⟨s, Transition.reachable_of_run hs, fun h => howed (h hl hcon (fun u => ?_) hwf)⟩
  by_cases hu : u ∈ [0, 1, 2, 3]
  · exact hout u hu
  · rw [hothers u hu]
    rfl

end AwsIotSdk
