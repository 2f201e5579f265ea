import AwsIotSdk.ActionEffects
import AwsIotSdk.NetworkRead

/-! The subscription map as a function from topics to subscriptions, without the
pointers, and what the codes of a SUBACK do to it. -/

namespace AwsIotSdk

namespace Subscription

def granted (u : Subscription) (maxQos : QoS) : Subscription :=
  ((u.setActive true).setMaxQos maxQos).setAckIndex 0 0

/-- What one code of a SUBACK makes of a subscription. -/
def answered (packetId : UInt16) (index code : UInt8) (u : Subscription) : Option Subscription :=
  if u.isInSuback packetId index then
    if code = 128 then none
    else if code = 0 then some (u.granted .qos0)
    else if code = 1 then some (u.granted .qos1)
    else some u
  else some u

def answeredAll (packetId : UInt16) : Bytes → UInt8 → Subscription → Option Subscription
  | [], _, u => some u
  | code :: codes, itr, u =>
    (u.answered packetId (itr + 1) code).bind (answeredAll packetId codes (itr + 1))

variable {u : Subscription} {packetId : UInt16} {index code : UInt8}

theorem isInSuback_iff : u.isInSuback packetId index = true ↔
    u.packetId = packetId ∧ u.indexInPacket = index := by
  rw [isInSuback, Bool.and_eq_true, beq_iff_eq, beq_iff_eq, eq_comm, eq_comm (b := index)]

theorem answered_of_not_isInSuback (h : ¬ u.isInSuback packetId index = true) (code : UInt8) :
    u.answered packetId index code = some u := if_neg h

theorem answeredAll_of_packetId_ne (h : u.packetId ≠ packetId) (codes : Bytes) (itr : UInt8) :
    answeredAll packetId codes itr u = some u := by
  induction codes generalizing itr with
  | nil => rfl
  | cons code codes ih =>
    have hnot : ¬ u.isInSuback packetId (itr + 1) = true :=
      fun hin => h (isInSuback_iff.mp hin).1
    rw [answeredAll, answered_of_not_isInSuback hnot, Option.bind_some, ih]

theorem answeredAll_of_index_le {itr : UInt8} {codes : Bytes}
    (hlen : itr.toNat + codes.length ≤ 255) (h : u.indexInPacket.toNat ≤ itr.toNat) :
    answeredAll packetId codes itr u = some u := by
  induction codes generalizing itr with
  | nil => rfl
  | cons code codes ih =>
    rw [List.length_cons] at hlen
    have hnext : (itr + 1).toNat = itr.toNat + 1 := by
      rw [UInt8.toNat_add]
      exact Nat.mod_eq_of_lt (show itr.toNat + 1 < 256 by omega)
    have hnot : ¬ u.isInSuback packetId (itr + 1) = true := by
      intro hin
      have hindex := congrArg UInt8.toNat (isInSuback_iff.mp hin).2
      omega
    rw [answeredAll, answered_of_not_isInSuback hnot, Option.bind_some]
    exact ih (by omega) (by omega)

/-- A subscription goes by the code at its own place in the packet. -/
theorem answeredAll_at (hid : packetId ≠ 0) (hpacket : u.packetId = packetId) {itr : UInt8}
    {codes : Bytes} {n : Nat} (hlen : itr.toNat + codes.length ≤ 255)
    (hindex : u.indexInPacket.toNat = itr.toNat + n + 1) (hcode : codes[n]? = some code) :
    answeredAll packetId codes itr u = u.answered packetId u.indexInPacket code := by
  induction codes generalizing itr n with
  | nil => simp at hcode
  | cons first codes ih =>
    rw [List.length_cons] at hlen
    have hnext : (itr + 1).toNat = itr.toNat + 1 := by
      rw [UInt8.toNat_add]
      exact Nat.mod_eq_of_lt (show itr.toNat + 1 < 256 by omega)
    cases n with
    | zero =>
      rw [List.getElem?_cons_zero, Option.some.injEq] at hcode
      subst hcode
      have hplace : itr + 1 = u.indexInPacket := UInt8.toNat_inj.mp (by omega)
      rw [answeredAll, hplace]
      have hin : u.isInSuback packetId u.indexInPacket = true := isInSuback_iff.mpr ⟨hpacket, rfl⟩
      rw [answered, if_pos hin]
      have hgranted : ∀ q, (u.granted q).packetId ≠ packetId := fun q => hid.symm
      split_ifs
      · rfl
      · exact answeredAll_of_packetId_ne (hgranted .qos0) codes _
      · exact answeredAll_of_packetId_ne (hgranted .qos1) codes _
      · exact answeredAll_of_index_le (by rw [← hplace]; omega) (Nat.le_refl _)
    | succ n =>
      have hnot : ¬ u.isInSuback packetId (itr + 1) = true := by
        intro hin
        have hsame := congrArg UInt8.toNat (isInSuback_iff.mp hin).2
        omega
      rw [answeredAll, answered_of_not_isInSuback hnot, Option.bind_some]
      exact ih (by omega) (by omega) hcode

end Subscription

namespace ClientState

variable {s : ClientState}

def subscriptionAt (s : ClientState) (k : Bytes) : Option Subscription :=
  (s.subscriptionMap.find k).map s.heap

/-- Every entry stands under the topic name of its object. -/
def Keyed (s : ClientState) : Prop :=
  ∀ k p, s.subscriptionMap.find k = some p → (s.heap p).pTopicName.toStdString = k

theorem Keyed.eq_of_find (hs : s.Keyed) {k k' : Bytes} {p : SubscriptionPtr}
    (h : s.subscriptionMap.find k = some p) (h' : s.subscriptionMap.find k' = some p) : k = k' :=
  (hs k p h).symm.trans (hs k' p h')

theorem Keyed.nodup_pointers (hs : s.Keyed) :
    (s.subscriptionMap.entries.map Prod.snd).Nodup := by
  have hkeys : s.subscriptionMap.entries.Pairwise (fun a b => a.1 ≠ b.1) :=
    s.subscriptionMap.sorted.imp (fun h => ne_of_lt h)
  rw [List.Nodup, List.pairwise_map]
  refine hkeys.imp_of_mem ?_
  intro a b ha hb hne hsame
  have hfinda := (s.subscriptionMap.mem_entries_iff (k := a.1) (v := a.2)).mp ha
  have hfindb := (s.subscriptionMap.mem_entries_iff (k := b.1) (v := b.2)).mp hb
  rw [← hsame] at hfindb
  exact hne (hs.eq_of_find hfinda hfindb)

theorem subscriptionAt_eq_some {k : Bytes} {u : Subscription} :
    s.subscriptionAt k = some u ↔ ∃ p, s.subscriptionMap.find k = some p ∧ s.heap p = u :=
  Option.map_eq_some_iff

theorem Keyed.modify (hs : s.Keyed) (p : SubscriptionPtr) {f : Subscription → Subscription}
    (hf : ∀ u, (f u).pTopicName = u.pTopicName) : (s.modify p f).Keyed := by
  intro k q hq
  have hkey := hs k q hq
  by_cases h : q = p
  · subst h
    simpa [ClientState.modify, hf] using hkey
  · simpa [ClientState.modify, Function.update_of_ne h] using hkey

theorem Keyed.eraseTopic (hs : s.Keyed) (k : Bytes) : (s.eraseTopic k).Keyed := by
  intro k' q hq
  by_cases h : k' = k
  · subst h
    simp [ClientState.eraseTopic] at hq
  · rw [ClientState.eraseTopic, SortedMap.find_erase_of_ne _ h] at hq
    exact hs k' q hq

theorem Keyed.insertTopic (hs : s.Keyed) (p : SubscriptionPtr) :
    (s.insertTopic (s.heap p).pTopicName.toStdString p).Keyed := by
  intro k q hq
  by_cases h : k = (s.heap p).pTopicName.toStdString
  · subst h
    rw [ClientState.insertTopic, SortedMap.find_insert_self] at hq
    cases hfind : s.subscriptionMap.find (s.heap p).pTopicName.toStdString with
    | none =>
      rw [hfind] at hq
      cases hq
      rfl
    | some p' =>
      rw [hfind] at hq
      cases hq
      exact hs _ p' hfind
  · rw [ClientState.insertTopic, SortedMap.find_insert_of_ne _ h] at hq
    exact hs k q hq

theorem subscriptionAt_modify (hs : s.Keyed) {k : Bytes} {p : SubscriptionPtr}
    (hp : s.subscriptionMap.find k = some p) (f : Subscription → Subscription) (k' : Bytes) :
    (s.modify p f).subscriptionAt k' =
      if k' = k then some (f (s.heap p)) else s.subscriptionAt k' := by
  by_cases hk : k' = k
  · subst hk
    rw [if_pos rfl]
    exact subscriptionAt_eq_some.mpr ⟨p, hp, Function.update_self p _ _⟩
  · rw [if_neg hk, subscriptionAt, subscriptionAt]
    change Option.map (Function.update s.heap p (f (s.heap p))) (s.subscriptionMap.find k') = _
    cases hq : s.subscriptionMap.find k' with
    | none => rfl
    | some q =>
      have hne : q ≠ p := by
        intro hqp
        subst hqp
        exact hk (hs.eq_of_find hq hp)
      simp [Function.update_of_ne hne]

theorem subscriptionAt_eraseTopic (k k' : Bytes) :
    (s.eraseTopic k).subscriptionAt k' = if k' = k then none else s.subscriptionAt k' := by
  by_cases hk : k' = k
  · subst hk
    simp [subscriptionAt, eraseTopic]
  · rw [if_neg hk, subscriptionAt, eraseTopic, SortedMap.find_erase_of_ne _ hk]
    rfl

/-! ### One code of a SUBACK -/

def AtMostOne (s : ClientState) (packetId : UInt16) (index : UInt8) : Prop :=
  ∀ k k' u u', s.subscriptionAt k = some u → s.subscriptionAt k' = some u' →
    u.isInSuback packetId index = true → u'.isInSuback packetId index = true → k = k'

def TagsUnique (s : ClientState) (packetId : UInt16) : Prop :=
  ∀ index, s.AtMostOne packetId index

variable {packetId : UInt16} {index : UInt8}

theorem find?_isInSuback (hone : s.AtMostOne packetId index) :
    (s.subscriptionMap.entries.find? (fun e => (s.heap e.2).isInSuback packetId index) = none ∧
      ∀ k u, s.subscriptionAt k = some u → ¬ u.isInSuback packetId index = true) ∨
    ∃ k p, s.subscriptionMap.entries.find? (fun e => (s.heap e.2).isInSuback packetId index) =
        some (k, p) ∧ s.subscriptionMap.find k = some p ∧
      (s.heap p).isInSuback packetId index = true ∧
      ∀ k' u, k' ≠ k → s.subscriptionAt k' = some u → ¬ u.isInSuback packetId index = true := by
  cases hfind : s.subscriptionMap.entries.find?
    (fun e => (s.heap e.2).isInSuback packetId index) with
  | none =>
    refine .inl ⟨rfl, ?_⟩
    intro k u hu hin
    obtain ⟨p, hp, rfl⟩ := subscriptionAt_eq_some.mp hu
    have hmem := (s.subscriptionMap.mem_entries_iff).mpr hp
    exact List.find?_eq_none.mp hfind (k, p) hmem hin
  | some e =>
    obtain ⟨k, p⟩ := e
    have hp := (s.subscriptionMap.mem_entries_iff).mp (List.mem_of_find?_eq_some hfind)
    have hin : (s.heap p).isInSuback packetId index = true :=
      List.find?_some (p := fun e : Bytes × SubscriptionPtr =>
        (s.heap e.2).isInSuback packetId index) hfind
    refine .inr ⟨k, p, rfl, hp, hin, ?_⟩
    intro k' u hne hu hin'
    exact hne (hone k' k u (s.heap p) hu (subscriptionAt_eq_some.mpr ⟨p, hp, rfl⟩) hin' hin)

def answerTopic (s : ClientState) (packetId : UInt16) (index code : UInt8) : ClientState :=
  if code = 128 then (s.removeSubscription packetId index).2
  else if code = 0 then (s.setSubscriptionActive packetId index .qos0).2
  else if code = 1 then (s.setSubscriptionActive packetId index .qos1).2
  else s

theorem setSubscriptionActive_state {k : Bytes} {p : SubscriptionPtr} (maxQos : QoS)
    (h : s.subscriptionMap.entries.find? (fun e => (s.heap e.2).isInSuback packetId index) =
      some (k, p)) :
    (s.setSubscriptionActive packetId index maxQos).2 = s.modify p (·.granted maxQos) := by
  rw [setSubscriptionActive, h]
  rfl

theorem removeSubscription_state {k : Bytes} {p : SubscriptionPtr}
    (h : s.subscriptionMap.entries.find? (fun e => (s.heap e.2).isInSuback packetId index) =
      some (k, p)) :
    (s.removeSubscription packetId index).2 = s.eraseTopic k := by
  rw [removeSubscription, h]

theorem answerTopic_of_none (code : UInt8)
    (h : s.subscriptionMap.entries.find? (fun e => (s.heap e.2).isInSuback packetId index) =
      none) : s.answerTopic packetId index code = s := by
  simp only [answerTopic, removeSubscription, setSubscriptionActive, h, ite_self]

theorem subscriptionAt_answerTopic (hs : s.Keyed) (hone : s.AtMostOne packetId index)
    (code : UInt8) (k : Bytes) :
    (s.answerTopic packetId index code).subscriptionAt k =
      (s.subscriptionAt k).bind (Subscription.answered packetId index code) := by
  rcases find?_isInSuback hone with ⟨hnone, hnot⟩ | ⟨k', p, hfind, hp, hin, hothers⟩
  · rw [answerTopic_of_none code hnone]
    cases hu : s.subscriptionAt k with
    | none => rfl
    | some u => exact (Subscription.answered_of_not_isInSuback (hnot k u hu) code).symm
  · have hrest : k ≠ k' → s.subscriptionAt k =
        (s.subscriptionAt k).bind (Subscription.answered packetId index code) := by
      intro hk
      cases hu : s.subscriptionAt k with
      | none => rfl
      | some u => exact (Subscription.answered_of_not_isInSuback (hothers k u hk hu) code).symm
    have hself : s.subscriptionAt k' = some (s.heap p) := subscriptionAt_eq_some.mpr ⟨p, hp, rfl⟩
    by_cases hk : k = k'
    · subst hk
      rw [hself, Option.bind_some, answerTopic, Subscription.answered, if_pos hin,
        removeSubscription_state hfind, setSubscriptionActive_state _ hfind,
        setSubscriptionActive_state _ hfind]
      split_ifs
      · rw [subscriptionAt_eraseTopic, if_pos rfl]
      · rw [subscriptionAt_modify hs hp, if_pos rfl]
      · rw [subscriptionAt_modify hs hp, if_pos rfl]
      · exact hself
    · rw [← hrest hk, answerTopic, removeSubscription_state hfind,
        setSubscriptionActive_state _ hfind, setSubscriptionActive_state _ hfind]
      split_ifs
      · rw [subscriptionAt_eraseTopic, if_neg hk]
      · rw [subscriptionAt_modify hs hp, if_neg hk]
      · rw [subscriptionAt_modify hs hp, if_neg hk]
      · rfl

theorem Keyed.answerTopic (hs : s.Keyed) (packetId : UInt16) (index code : UInt8) :
    (s.answerTopic packetId index code).Keyed := by
  have hactive : ∀ q, (s.setSubscriptionActive packetId index q).2.Keyed := by
    intro q
    rw [setSubscriptionActive]
    split
    · exact hs
    · exact hs.modify _ (fun u => rfl)
  have hremove : (s.removeSubscription packetId index).2.Keyed := by
    rw [removeSubscription]
    split
    · exact hs
    · exact hs.eraseTopic _
  rw [ClientState.answerTopic]
  split_ifs
  · exact hremove
  · exact hactive .qos0
  · exact hactive .qos1
  · exact hs

theorem TagsUnique.answerTopic (hs : s.Keyed) (hu : s.TagsUnique packetId) (hid : packetId ≠ 0)
    (index code : UInt8) : (s.answerTopic packetId index code).TagsUnique packetId := by
  have hkept : ∀ k u' j, (s.answerTopic packetId index code).subscriptionAt k = some u' →
      u'.isInSuback packetId j = true → s.subscriptionAt k = some u' := by
    intro k u' j hu' hin
    rw [subscriptionAt_answerTopic hs (hu index)] at hu'
    obtain ⟨u, hsub, hanswer⟩ := Option.bind_eq_some_iff.mp hu'
    have hpacket := (Subscription.isInSuback_iff.mp hin).1
    rw [Subscription.answered] at hanswer
    split_ifs at hanswer
    · cases hanswer
      exact absurd hpacket.symm hid
    · cases hanswer
      exact absurd hpacket.symm hid
    · cases hanswer
      exact hsub
    · cases hanswer
      exact hsub
  intro j k k' u u' hk hk' hin hin'
  exact hu j k k' u u' (hkept k u j hk hin) (hkept k' u' j hk' hin') hin hin'

/-! ### All codes -/

def answerTopics (packetId : UInt16) : Bytes → UInt8 → ClientState → ClientState
  | [], _, s => s
  | code :: codes, itr, s =>
    answerTopics packetId codes (itr + 1) (s.answerTopic packetId (itr + 1) code)

theorem subscriptionAt_answerTopics (hs : s.Keyed) (hu : s.TagsUnique packetId)
    (hid : packetId ≠ 0) (codes : Bytes) (itr : UInt8) (k : Bytes) :
    (answerTopics packetId codes itr s).subscriptionAt k =
      (s.subscriptionAt k).bind (Subscription.answeredAll packetId codes itr) := by
  induction codes generalizing s itr with
  | nil =>
    rw [answerTopics]
    cases s.subscriptionAt k <;> rfl
  | cons code codes ih =>
    have hstep := subscriptionAt_answerTopic hs (hu (itr + 1)) code k
    rw [answerTopics, ih (hs.answerTopic packetId (itr + 1) code)
      (TagsUnique.answerTopic hs hu hid (itr + 1) code), hstep, Option.bind_assoc]
    rfl

theorem Keyed.answerTopics (hs : s.Keyed) (packetId : UInt16) (codes : Bytes) (itr : UInt8) :
    (ClientState.answerTopics packetId codes itr s).Keyed := by
  induction codes generalizing s itr with
  | nil => exact hs
  | cons code codes ih => exact ih (hs.answerTopic packetId (itr + 1) code) (itr + 1)

end ClientState

def grants (code : UInt8) : Bool := code = 0 || code = 1

theorem handleSubackCodes_eq (packetId : UInt16) (codes : Bytes) (itr : UInt8)
    (success failure : Bool) (s : ClientState) :
    NetworkRead.handleSubackCodes packetId codes itr success failure s =
      (success || codes.any grants, failure || codes.any (· = 128),
        ClientState.answerTopics packetId codes itr s) := by
  induction codes generalizing itr success failure s with
  | nil => simp [NetworkRead.handleSubackCodes, ClientState.answerTopics]
  | cons code codes ih =>
    rw [NetworkRead.handleSubackCodes, ClientState.answerTopics, ClientState.answerTopic]
    by_cases h128 : code = 128
    · subst h128
      simp [ih, grants]
    · by_cases h0 : code = 0
      · subst h0
        simp [ih, grants]
      · by_cases h1 : code = 1
        · subst h1
          simp [ih, grants]
        · simp [ih, grants, h128, h0, h1]

end AwsIotSdk
