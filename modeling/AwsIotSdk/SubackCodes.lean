import AwsIotSdk.SubscribeAcks
import AwsIotSdk.UnsubscribeAcks

/-! What the codes of a SUBACK do to the topics of the list that was sent. A code is for
its place in the packet, and the packet lacks what the loop took out of the list: the
topics behind a subscription that was active before it was granted. -/

namespace AwsIotSdk

open ClientState SubscribeActionAsync AwsIotSdk.Action

/-- The subscriptions the loop keeps when no entry for their topics is active, but for
those of `blocked`. An active one takes out the later ones for its topic. -/
def keptList (heap : SubscriptionHeap) (blocked : List Bytes) :
    List SubscriptionPtr → List SubscriptionPtr
  | [] => []
  | p :: ps =>
    if blocked.contains (topicOf heap p) then keptList heap blocked ps
    else
      p :: keptList heap (if (heap p).isActive then topicOf heap p :: blocked else blocked) ps

/-- The place is the last one for the topic of its subscription. -/
def LastPlace (heap : SubscriptionHeap) (ps : List SubscriptionPtr) (n : Nat)
    (q : SubscriptionPtr) : Prop :=
  ps[n]? = some q ∧
    ∀ m q', n < m → ps[m]? = some q' → topicOf heap q' ≠ topicOf heap q

section KeptList

variable {heap : SubscriptionHeap} {blocked : List Bytes} {p q : SubscriptionPtr}
  {ps : List SubscriptionPtr}

theorem keptList_cons_of_mem (h : topicOf heap p ∈ blocked) (ps : List SubscriptionPtr) :
    keptList heap blocked (p :: ps) = keptList heap blocked ps := by
  rw [keptList, if_pos (List.contains_iff_mem.mpr h)]

theorem keptList_cons_of_not_mem (h : topicOf heap p ∉ blocked) (ps : List SubscriptionPtr) :
    keptList heap blocked (p :: ps) =
      p :: keptList heap (if (heap p).isActive then topicOf heap p :: blocked else blocked)
        ps := by
  rw [keptList, if_neg (fun hmem => h (List.contains_iff_mem.mp hmem))]

theorem keptList_sublist : (keptList heap blocked ps).Sublist ps := by
  induction ps generalizing blocked with
  | nil => exact List.Sublist.slnil
  | cons p ps ih =>
    by_cases hp : topicOf heap p ∈ blocked
    · rw [keptList_cons_of_mem hp]
      exact ih.cons p
    · rw [keptList_cons_of_not_mem hp]
      exact ih.cons_cons p

theorem not_mem_blocked (h : q ∈ keptList heap blocked ps) : topicOf heap q ∉ blocked := by
  induction ps generalizing blocked with
  | nil => cases h
  | cons p ps ih =>
    by_cases hp : topicOf heap p ∈ blocked
    · rw [keptList_cons_of_mem hp] at h
      exact ih h
    · rw [keptList_cons_of_not_mem hp] at h
      rcases List.mem_cons.mp h with rfl | h
      · exact hp
      · have hnot := ih h
        split_ifs at hnot
        · exact fun hmem => hnot (List.mem_cons_of_mem _ hmem)
        · exact hnot

theorem keptList_pairwise : (keptList heap blocked ps).Pairwise
    (fun p q => topicOf heap p = topicOf heap q → (heap p).isActive = false) := by
  induction ps generalizing blocked with
  | nil => exact List.Pairwise.nil
  | cons p ps ih =>
    by_cases hp : topicOf heap p ∈ blocked
    · rw [keptList_cons_of_mem hp]
      exact ih
    · rw [keptList_cons_of_not_mem hp]
      refine List.pairwise_cons.mpr ⟨?_, ih⟩
      intro q hq hsame
      have hnot := not_mem_blocked hq
      split_ifs at hnot with hactive
      · exact absurd (hsame ▸ List.mem_cons_self) hnot
      · exact Bool.eq_false_iff.mpr hactive

/-- A topic that is not blocked has a place that is kept, for an active subscription if
there is one in the list. -/
theorem exists_mem_keptList (hp : p ∈ ps) (hnot : topicOf heap p ∉ blocked) :
    ∃ q ∈ keptList heap blocked ps, topicOf heap q = topicOf heap p ∧
      ((heap p).isActive = true → (heap q).isActive = true) := by
  induction ps generalizing blocked with
  | nil => cases hp
  | cons r ps ih =>
    by_cases hr : topicOf heap r ∈ blocked
    · rw [keptList_cons_of_mem hr]
      rcases List.mem_cons.mp hp with rfl | hp
      · exact absurd hr hnot
      · exact ih hp hnot
    · rw [keptList_cons_of_not_mem hr]
      rcases List.mem_cons.mp hp with rfl | hp
      · exact ⟨p, List.mem_cons_self, rfl, id⟩
      · by_cases hfirst : topicOf heap r = topicOf heap p ∧ (heap r).isActive = true
        · exact ⟨r, List.mem_cons_self, hfirst.1, fun _ => hfirst.2⟩
        · have hstill : topicOf heap p ∉
              (if (heap r).isActive then topicOf heap r :: blocked else blocked) := by
            split_ifs with hactive
            · intro hmem
              rcases List.mem_cons.mp hmem with hsame | hmem
              · exact hfirst ⟨hsame.symm, hactive⟩
              · exact hnot hmem
            · exact hnot
          obtain ⟨q, hq, hrest⟩ := ih hp hstill
          exact ⟨q, List.mem_cons_of_mem r hq, hrest⟩

theorem keptList_of_inactive (h : ∀ q ∈ ps, (heap q).isActive = false) :
    keptList heap [] ps = ps := by
  induction ps with
  | nil => rfl
  | cons p ps ih =>
    obtain ⟨hp, hps⟩ := List.forall_mem_cons.mp h
    rw [keptList_cons_of_not_mem List.not_mem_nil, hp, if_neg Bool.false_ne_true, ih hps]

theorem LastPlace.cons {n : Nat} (h : LastPlace heap ps n q) (p : SubscriptionPtr) :
    LastPlace heap (p :: ps) (n + 1) q := by
  refine ⟨by rw [List.getElem?_cons_succ, h.1], ?_⟩
  intro m q' hm hq'
  cases m with
  | zero => exact absurd hm (Nat.not_lt_zero _)
  | succ m => exact h.2 m q' (Nat.lt_of_succ_lt_succ hm) (by rwa [List.getElem?_cons_succ] at hq')

theorem exists_lastPlace (hp : p ∈ ps) :
    ∃ n q, LastPlace heap ps n q ∧ topicOf heap q = topicOf heap p := by
  induction ps generalizing p with
  | nil => cases hp
  | cons r ps ih =>
    by_cases hlater : ∃ p' ∈ ps, topicOf heap p' = topicOf heap p
    · obtain ⟨p', hp', htopic⟩ := hlater
      obtain ⟨n, q, hlast, hq⟩ := ih hp'
      exact ⟨n + 1, q, hlast.cons r, hq.trans htopic⟩
    · rcases List.mem_cons.mp hp with rfl | hp
      · refine ⟨0, p, ⟨rfl, ?_⟩, rfl⟩
        intro m q' hm hq' htopic
        obtain ⟨m, rfl⟩ := Nat.exists_eq_succ_of_ne_zero (Nat.ne_of_gt hm)
        rw [List.getElem?_cons_succ] at hq'
        exact hlater ⟨q', List.mem_of_getElem? hq', htopic⟩
      · exact absurd ⟨p, hp, rfl⟩ hlater

/-- The last place that is kept for the topic of an active subscription has an active one. -/
theorem LastPlace.active_of_mem {m : Nat} (h : LastPlace heap (keptList heap [] ps) m q)
    (hp : p ∈ ps) (htopic : topicOf heap q = topicOf heap p) (hactive : (heap p).isActive = true) :
    (heap q).isActive = true := by
  obtain ⟨q', hq', hsame, hactive'⟩ := exists_mem_keptList hp (List.not_mem_nil (a := topicOf heap p))
  obtain ⟨i, hi⟩ := List.mem_iff_getElem?.mp hq'
  rcases lt_trichotomy i m with hlt | rfl | hgt
  · obtain ⟨hlength, hi⟩ := List.getElem?_eq_some_iff.mp hi
    obtain ⟨hlength', hm⟩ := List.getElem?_eq_some_iff.mp h.1
    have hbefore := List.pairwise_iff_getElem.mp (@keptList_pairwise heap [] ps) i m hlength
      hlength' hlt
    rw [hi, hm] at hbefore
    rw [hbefore (hsame.trans htopic.symm)] at hactive'
    exact absurd (hactive' hactive) Bool.false_ne_true
  · rw [h.1, Option.some.injEq] at hi
    exact hi ▸ hactive' hactive
  · exact absurd (hsame.trans htopic.symm) (h.2 i q' hgt hi)

end KeptList

/-! ### Sending -/

/-- No entry of the map for a topic of the list is active. -/
def NoEntryActive (s : ClientState) (ps : List SubscriptionPtr) : Prop :=
  ∀ p ∈ ps, ∀ u, s.subscriptionAt (topicOf s.heap p) = some u → u.isActive = false

section Sending

variable {s : ClientState} {ps : List SubscriptionPtr}

theorem insertTopics_fst_eq (packetId : UInt16) (b : Bool) {blocked : List Bytes}
    (h : ∀ p ∈ ps, (∃ e, s.subscriptionMap.find (topicOf s.heap p) = some e ∧
      (s.heap e).isActive = true) ↔ topicOf s.heap p ∈ blocked) :
    (insertTopics packetId b ps s).1 = keptList s.heap blocked ps := by
  induction ps generalizing s blocked with
  | nil => rfl
  | cons p ps ih =>
    obtain ⟨hp, hps⟩ := List.forall_mem_cons.mp h
    rcases insertTopics_cons s packetId b p ps with ⟨e, hfind, he, hskip⟩ | ⟨t, ht, hinsert⟩
    · rw [hskip, keptList_cons_of_mem (hp.mp ⟨e, hfind, he⟩)]
      cases b <;> exact ih hps
    · have hnot : topicOf s.heap p ∉ blocked := by
        intro hmem
        obtain ⟨e, hfind, he⟩ := hp.mpr hmem
        exact Bool.false_ne_true ((ht.inactive e hfind).symm.trans he)
      rw [hinsert, keptList_cons_of_not_mem hnot, ← ht.heap]
      refine congrArg (p :: ·) (ih ?_)
      intro q hq
      rw [ht.heap]
      by_cases hk : topicOf s.heap q = topicOf s.heap p
      · rw [hk, ht.self]
        split_ifs with hactive <;> simp [hactive, hnot]
      · rw [ht.others _ hk, hps q hq]
        split_ifs <;> simp [hk]

theorem NoEntryActive.insertTopics_eq (h : NoEntryActive s ps) (packetId : UInt16) (b : Bool) :
    (insertTopics packetId b ps s).1 = keptList s.heap [] ps := by
  refine insertTopics_fst_eq packetId b (fun p hp => iff_of_false ?_ List.not_mem_nil)
  rintro ⟨e, he, hactive⟩
  have hinactive := h p hp (s.heap e) (subscriptionAt_eq_some.mpr ⟨e, he, rfl⟩)
  rw [hactive] at hinactive
  cases hinactive

end Sending

/-! ### The codes -/

/-- The code neither grants the topic nor refuses it. -/
def leaves (code : UInt8) : Bool := !grants code && code != 128

/-- What a code makes of a topic. -/
def Decided (code : UInt8) (v : Option Subscription) : Prop :=
  if code = 128 then v = none
  else if code = 0 ∨ code = 1 then
    ∃ u, v = some u ∧ u.isActive = true ∧ u.maxQos = (if code = 0 then .qos0 else .qos1) ∧
      u.packetId = 0 ∧ u.indexInPacket = 0
  else ∃ u, v = some u ∧ u.isActive = false

/-- A subscription that goes by the code `code'` is as `code` says. -/
def DecidesAs (isActive : Bool) (code code' : UInt8) : Prop :=
  if leaves code' then leaves code = true ∧ isActive = false else code = code'

theorem decided_answered_iff {u : Subscription} {packetId : UInt16} {index : UInt8}
    (code code' : UInt8) (hid : packetId ≠ 0) (hin : u.isInSuback packetId index = true) :
    Decided code (u.answered packetId index code') ↔ DecidesAs u.isActive code code' := by
  have hpacket : u.packetId ≠ 0 := by
    rw [(Subscription.isInSuback_iff.mp hin).1]
    exact hid
  have hgranted : ∀ q, (u.granted q).isActive = true ∧ (u.granted q).maxQos = q ∧
      (u.granted q).packetId = 0 ∧ (u.granted q).indexInPacket = 0 :=
    fun q => ⟨rfl, rfl, rfl, rfl⟩
  rw [Subscription.answered, if_pos hin, Decided, DecidesAs]
  by_cases h128 : code' = 128
  · subst h128
    by_cases hc : code = 128 <;> simp [hc, leaves]
  · by_cases h0 : code' = 0
    · subst h0
      by_cases hc : code = 0
      · simp [hc, leaves, grants, hgranted]
      · by_cases hone : code = 1 <;> simp [hc, hone, leaves, grants, hgranted]
    · by_cases h1 : code' = 1
      · subst h1
        by_cases hc : code = 1
        · simp [hc, leaves, grants, hgranted]
        · by_cases hzero : code = 0 <;> simp [hc, hzero, leaves, grants, hgranted]
      · have hleaves : leaves code' = true := by simp [leaves, grants, h128, h0, h1]
        rw [if_pos hleaves, if_neg h128, if_neg h0, if_neg h1]
        by_cases hc : code = 128
        · simp [hc, leaves]
        · have hgrants : grants code = true ↔ code = 0 ∨ code = 1 := by simp [grants]
          by_cases hg : code = 0 ∨ code = 1
          · simp [hc, hg, hgrants.mpr hg, hpacket, leaves]
          · simp [hc, hg, Bool.eq_false_iff.mpr (mt hgrants.mp hg), leaves]

/-- The codes at the last place of a topic in the list and at its last place in the packet
say the same of it, and it was inactive if they leave it as it is. -/
def CodesAgree (heap : SubscriptionHeap) (ps : List SubscriptionPtr) (codes : Bytes) : Prop :=
  ∀ n q m q' code code', LastPlace heap ps n q → LastPlace heap (keptList heap [] ps) m q' →
    topicOf heap q' = topicOf heap q → codes[n]? = some code → codes[m]? = some code' →
    DecidesAs (heap q').isActive code code'

/-- The topics of the list go by the codes at their last places, the other topics stay,
and the pending ack gets the code for the whole packet. -/
structure SubackDecides (s t u : ClientState) (packetId : UInt16) (ps : List SubscriptionPtr)
    (codes : Bytes) (rc : ResponseCode) : Prop where
  result : rc = subackResult codes
  forwarded : ∀ h, t.pendingHandler packetId = some h →
    u.ackCalls = t.ackCalls ++ [⟨h, packetId, rc⟩]
  decided : ∀ n q code, LastPlace s.heap ps n q → codes[n]? = some code →
    Decided code (u.subscriptionAt (topicOf s.heap q))
  unchanged : ∀ k, (∀ q ∈ ps, topicOf s.heap q ≠ k) → u.subscriptionAt k = s.subscriptionAt k

theorem answerTopics_core (packetId : UInt16) (codes : Bytes) (itr : UInt8) (s : ClientState) :
    (answerTopics packetId codes itr s).toClientCoreState = s.toClientCoreState := by
  have hstep : ∀ (s : ClientState) (index code : UInt8),
      (s.answerTopic packetId index code).toClientCoreState = s.toClientCoreState := by
    intro s index code
    rw [answerTopic, removeSubscription, setSubscriptionActive, setSubscriptionActive]
    split_ifs
    · split <;> rfl
    · split <;> rfl
    · split <;> rfl
    · rfl
  induction codes generalizing itr s with
  | nil => rfl
  | cons code codes ih => exact (ih (itr + 1) _).trans (hstep s (itr + 1) code)

section Codes

variable {s t : ClientState} {packetId : UInt16} {ps : List SubscriptionPtr} {codes : Bytes}

/-- A topic of the packet is as the code at its last place there makes it. -/
theorem Sent.subscriptionAt_answered (ht : Sent s packetId ps t) (hs : s.Keyed)
    (hid : packetId ≠ 0) (hnew : ∀ k u, s.subscriptionAt k = some u → u.packetId ≠ packetId)
    (hlen : ps.length ≤ 255) (hcodes : codes.length ≤ 255) {m : Nat} {q : SubscriptionPtr}
    {code : UInt8} (hq : LastPlace s.heap ps m q) (hcode : codes[m]? = some code) :
    ∃ j, (answerTopics packetId codes 0 t).subscriptionAt (topicOf s.heap q) =
      ((s.heap q).setAckIndex packetId j).answered packetId j code := by
  have hview := subscriptionAt_answerTopics (ht.keyed hs) (ht.tagsUnique hs hlen hnew) hid codes 0
  have hzero : (0 : UInt8).toNat = 0 := rfl
  obtain ⟨j, hj, hvalue⟩ := ht.subscriptionAt_last hlen hq.1 hq.2
  have hplace : ((s.heap q).setAckIndex packetId j).indexInPacket.toNat =
      (0 : UInt8).toNat + m + 1 := by
    change j.toNat = _
    omega
  refine ⟨j, ?_⟩
  rw [hview, hj, Option.bind_some,
    Subscription.answeredAll_at hid rfl (by omega) hplace hcode]
  rfl

theorem Sent.subscriptionAt_unanswered (ht : Sent s packetId ps t) (hs : s.Keyed)
    (hid : packetId ≠ 0) (hnew : ∀ k u, s.subscriptionAt k = some u → u.packetId ≠ packetId)
    (hlen : ps.length ≤ 255) {k : Bytes} (hk : ∀ q ∈ ps, topicOf s.heap q ≠ k)
    (codes : Bytes) :
    (answerTopics packetId codes 0 t).subscriptionAt k = s.subscriptionAt k := by
  have hview := subscriptionAt_answerTopics (ht.keyed hs) (ht.tagsUnique hs hlen hnew) hid codes 0
  rw [hview, ht.subscriptionAt_other hs hk]
  cases hu : s.subscriptionAt k with
  | none => rfl
  | some u => exact Subscription.answeredAll_of_packetId_ne (hnew k u hu) codes 0

theorem subackDecides_iff_agree (ht : Sent s packetId (keptList s.heap [] ps) t) (hs : s.Keyed)
    (hid : packetId ≠ 0) (hnew : ∀ k u, s.subscriptionAt k = some u → u.packetId ≠ packetId)
    (hlen : ps.length ≤ 255) (hcodes : codes.length = ps.length) :
    SubackDecides s t ((answerTopics packetId codes 0 t).mapCore
        (·.forwardReceivedAck packetId (subackResult codes))) packetId ps codes
        (subackResult codes) ↔
      CodesAgree s.heap ps codes := by
  have hkept : (keptList s.heap [] ps).length ≤ ps.length := keptList_sublist.length_le
  have hplace : ∀ m q' code', LastPlace s.heap (keptList s.heap [] ps) m q' →
      codes[m]? = some code' → ∀ code,
      (Decided code ((answerTopics packetId codes 0 t).subscriptionAt (topicOf s.heap q')) ↔
        DecidesAs (s.heap q').isActive code code') := by
    intro m q' code' hlast hcode' code
    obtain ⟨j, hj⟩ := ht.subscriptionAt_answered hs hid hnew (by omega) (by omega) hlast hcode'
    rw [hj]
    exact decided_answered_iff code code' hid (Subscription.isInSuback_iff.mpr ⟨rfl, rfl⟩)
  constructor
  · intro h n q m q' code code' hlast hlast' htopic hcode hcode'
    have hdecided := h.decided n q code hlast hcode
    rw [← htopic] at hdecided
    exact (hplace m q' code' hlast' hcode' code).mp hdecided
  · intro h
    refine ⟨rfl, ?_, ?_, ?_⟩
    · intro g hg
      rw [mapCore_core, answerTopics_core,
        ClientCoreState.forwardReceivedAck_of_pending _ g _ _ hg]
      exact ClientCoreState.callAckHandler_ackCalls _ _ _ _
    · intro n q code hlast hcode
      have hmem := List.mem_of_getElem? hlast.1
      obtain ⟨p, hp, hsame, -⟩ := exists_mem_keptList hmem (List.not_mem_nil (a := topicOf s.heap q))
      obtain ⟨m, q', hlast', htopic'⟩ := exists_lastPlace hp
      obtain ⟨hm, -⟩ := List.getElem?_eq_some_iff.mp hlast'.1
      have hcode' := List.getElem?_eq_getElem (show m < codes.length by omega)
      have htopic := htopic'.trans hsame
      rw [← htopic]
      exact (hplace m q' _ hlast' hcode' code).mpr
        (h n q m q' code _ hlast hlast' htopic hcode hcode')
    · intro k hk
      exact ht.subscriptionAt_unanswered hs hid hnew (by omega)
        (fun q hq => hk q (keptList_sublist.subset hq)) codes

theorem codesAgree_of_inactive (h : ∀ q ∈ ps, (s.heap q).isActive = false) (codes : Bytes) :
    CodesAgree s.heap ps codes := by
  intro n q m q' code code' hlast hlast' htopic hcode hcode'
  rw [keptList_of_inactive h] at hlast'
  have hplace : n = m := by
    rcases lt_trichotomy n m with hlt | heq | hgt
    · exact absurd htopic (hlast.2 m q' hlt hlast'.1)
    · exact heq
    · exact absurd htopic.symm (hlast'.2 n q hgt hlast.1)
  subst hplace
  obtain rfl : code = code' := Option.some.inj (hcode.symm.trans hcode')
  rw [DecidesAs, h q' (List.mem_of_getElem? hlast'.1)]
  by_cases hl : leaves code = true <;> simp [hl]

/-- A code that leaves the topics as they are shows an active subscription of the list. -/
theorem inactive_of_codesAgree
    (h : ∀ codes : Bytes, codes.length = ps.length → CodesAgree s.heap ps codes) :
    ∀ q ∈ ps, (s.heap q).isActive = false := by
  intro p hp
  by_contra hactive
  rw [Bool.not_eq_false] at hactive
  obtain ⟨n, q, hlast, htopic⟩ : ∃ n q, LastPlace s.heap ps n q ∧
      topicOf s.heap q = topicOf s.heap p := exists_lastPlace hp
  obtain ⟨r, hr, hsame, -⟩ := exists_mem_keptList hp (List.not_mem_nil (a := topicOf s.heap p))
  obtain ⟨m, q', hlast', htopic'⟩ := exists_lastPlace hr
  have hq' := hlast'.active_of_mem hp (htopic'.trans hsame) hactive
  have hn : n < ps.length := (List.getElem?_eq_some_iff.mp hlast.1).1
  have hm : m < ps.length :=
    lt_of_lt_of_le (List.getElem?_eq_some_iff.mp hlast'.1).1 keptList_sublist.length_le
  have hagree := h (List.replicate ps.length 2) List.length_replicate n q m q' 2 2 hlast hlast'
    ((htopic'.trans hsame).trans htopic.symm) (List.getElem?_replicate_of_lt hn)
    (List.getElem?_replicate_of_lt hm)
  have hleaves : leaves 2 = true := rfl
  rw [DecidesAs, if_pos hleaves, hq'] at hagree
  cases hagree.2

end Codes

/-- The SUBACK with the codes, once the packet is sent, decides the topics of its list. -/
def DecidesTopics {σ : Type} [NetworkConnection σ] (s : ClientState) (c : σ)
    (p : SubscribePacket) (codes : Bytes) : Prop :=
  ∃ rc u, NetworkRead.handleSuback (SubscribeActionAsync.performAction s c (.subscribe p)).state
      (Packet.appendUInt16ToBuffer [] p.packetId ++ codes) = .ok (rc, u) ∧
    SubackDecides s (SubscribeActionAsync.performAction s c (.subscribe p)).state u p.packetId
      p.subscriptionList codes rc

theorem decidesTopics_iff_agree {σ : Type} [NetworkConnection σ] {s : ClientState} {c : σ}
    {p : SubscribePacket} (hid : p.packetId ≠ 0)
    (hlen : p.subscriptionList.length ≤ maxTopicsInOneSubscribePacket)
    (hkeyed : s.Keyed) (hactive : NoEntryActive s p.subscriptionList)
    (hnew : ∀ k u, s.subscriptionAt k = some u → u.packetId ≠ p.packetId)
    (hsend : (SubscribeActionAsync.performAction s c (.subscribe p)).rc = .success)
    {codes : Bytes} (hcodes : codes.length = p.subscriptionList.length) :
    DecidesTopics s c p codes ↔ CodesAgree s.heap p.subscriptionList codes := by
  have hmax : maxTopicsInOneSubscribePacket = 8 := rfl
  obtain ⟨kept, hkept, -, -, hsent, -⟩ := performAction_subscribe s c p
  rw [hactive.insertTopics_eq] at hkept
  have ht := hkept ▸ hsent hsend
  rw [← subackDecides_iff_agree ht hkeyed hid hnew (by omega) hcodes]
  constructor
  · intro hdecides
    obtain ⟨rc, u, hsuback, hdecides⟩ := hdecides
    rw [handleSuback_eq] at hsuback
    cases hsuback
    exact hdecides
  · exact fun hdecides => ⟨_, _, handleSuback_eq _ p.packetId codes, hdecides⟩

/-- Whatever the codes, a SUBACK decides the topics of its list exactly when no
subscription of the list is active. -/
theorem decidesTopics_iff_inactive {σ : Type} [NetworkConnection σ] (s : ClientState) (c : σ)
    (p : SubscribePacket) (hid : p.packetId ≠ 0)
    (hlen : 1 ≤ p.subscriptionList.length ∧
      p.subscriptionList.length ≤ maxTopicsInOneSubscribePacket)
    (hkeyed : s.Keyed) (hactive : NoEntryActive s p.subscriptionList)
    (hnew : ∀ k u, s.subscriptionAt k = some u → u.packetId ≠ p.packetId)
    (hsend : (SubscribeActionAsync.performAction s c (.subscribe p)).rc = .success) :
    ((∀ codes : Bytes, codes.length = p.subscriptionList.length → DecidesTopics s c p codes) ↔
        ∀ q ∈ p.subscriptionList, (s.heap q).isActive = false) ∧
      ∀ codes : Bytes, codes.length = p.subscriptionList.length →
        (DecidesTopics s c p codes ↔ CodesAgree s.heap p.subscriptionList codes) := by
  have hagree : ∀ codes : Bytes, codes.length = p.subscriptionList.length →
      (DecidesTopics s c p codes ↔ CodesAgree s.heap p.subscriptionList codes) :=
    fun codes hcodes => decidesTopics_iff_agree hid hlen.2 hkeyed hactive hnew hsend hcodes
  refine ⟨?_, hagree⟩
  constructor
  · intro h
    exact inactive_of_codesAgree (fun codes hcodes => (hagree codes hcodes).mp (h codes hcodes))
  · intro h codes hcodes
    exact (hagree codes hcodes).mpr (codesAgree_of_inactive h codes)

/-- Three subscriptions, the first and the third for the same topic. -/
def threeSubscriptions : SubscriptionHeap := fun q =>
  .init (if q = 2 then otherTopic else freshTopic) .qos1 (some 0) 0

def threeTopicsClient : ClientState := { freshClient with heap := threeSubscriptions }

def threeTopicsSubscribe : SubscribePacket :=
  { SubscribePacket.init threeSubscriptions [1, 2, 3] with packetId := 1 }

theorem decidesTopics_iff_inactive_three :
    DecidesTopics threeTopicsClient (⟨true, []⟩ : StreamConnection) threeTopicsSubscribe
        [128, 0, 1] ∧
      DecidesTopics threeTopicsClient (⟨true, []⟩ : StreamConnection) threeTopicsSubscribe
        [0, 2, 128] := by
  have hall := (decidesTopics_iff_inactive threeTopicsClient (⟨true, []⟩ : StreamConnection)
    threeTopicsSubscribe (by decide) (by decide) (by rintro _ _ ⟨⟩) (by rintro _ _ _ ⟨⟩)
    (by rintro _ _ ⟨⟩) rfl).1.mpr (fun q _ => rfl)
  exact ⟨hall [128, 0, 1] rfl, hall [0, 2, 128] rfl⟩

/-- "a" was granted and unsubscribed; the subscription object has outlived its entry. -/
def unsubscribedClient : Except Fault ClientState := do
  let open_ : StreamConnection := ⟨true, []⟩
  let s := (SubscribeActionAsync.performAction threeTopicsClient open_ (.subscribe
    { SubscribePacket.init threeSubscriptions [1] with packetId := 1 })).state
  let (_, s) ← NetworkRead.handleSuback s (Packet.appendUInt16ToBuffer [] 1 ++ [0])
  let s := (UnsubscribeActionAsync.performAction s open_ (.unsubscribe
    { UnsubscribePacket.init [freshTopic] with packetId := 2 })).state
  let (_, s) ← NetworkRead.handleUnsuback s (Packet.appendUInt16ToBuffer [] 2)
  return s

def againSubscribe (ps : List SubscriptionPtr) : SubscribePacket :=
  { SubscribePacket.init threeSubscriptions ps with packetId := 3 }

theorem unsubscribedClient_spec :
    ∃ s, unsubscribedClient = .ok s ∧ (∀ k, s.subscriptionMap.find k = none) ∧
      (s.heap 1).isActive = true ∧ topicOf s.heap 3 = topicOf s.heap 1 ∧
      ∀ ps ∈ [[1], [1, 3]], (SubscribeActionAsync.performAction s (⟨true, []⟩ : StreamConnection)
        (.subscribe (againSubscribe ps))).rc = .success :=
  ⟨_, rfl, fun _ => rfl, rfl, rfl,
    List.forall_mem_cons.mpr ⟨rfl, List.forall_mem_singleton.mpr rfl⟩⟩

/-- Subscribed to again, an unknown code leaves "a" active, and a refusal for its first
place removes it though the last one is granted. -/
theorem not_decidesTopics_unsubscribed :
    ∃ s, unsubscribedClient = .ok s ∧ s.Keyed ∧ NoEntryActive s [1, 3] ∧
      (∀ k u, s.subscriptionAt k = some u → u.packetId ≠ 3) ∧
      (∀ ps ∈ [[1], [1, 3]], (SubscribeActionAsync.performAction s (⟨true, []⟩ : StreamConnection)
        (.subscribe (againSubscribe ps))).rc = .success) ∧
      ¬ DecidesTopics s (⟨true, []⟩ : StreamConnection) (againSubscribe [1]) [2] ∧
      ¬ DecidesTopics s (⟨true, []⟩ : StreamConnection) (againSubscribe [1, 3]) [128, 1] := by
  obtain ⟨s, hs, hfind, hactive, htopic, hsend⟩ := unsubscribedClient_spec
  have hnone : ∀ k, s.subscriptionAt k = none := fun k => by rw [subscriptionAt, hfind]; rfl
  have hkeyed : s.Keyed := fun k p hp => by rw [hfind] at hp; cases hp
  have hinactive : ∀ ps, NoEntryActive s ps := fun ps p _ u hu => by rw [hnone] at hu; cases hu
  have hnew : ∀ k u, s.subscriptionAt k = some u → u.packetId ≠ 3 :=
    fun k u hu => by rw [hnone] at hu; cases hu
  have hfirst : keptList s.heap [] [1] = [1] := keptList_cons_of_not_mem List.not_mem_nil []
  have hboth : keptList s.heap [] [1, 3] = [1] := by
    rw [keptList_cons_of_not_mem List.not_mem_nil, hactive, if_pos rfl,
      keptList_cons_of_mem (by rw [htopic]; exact List.mem_singleton_self _)]
    rfl
  have hplace : ∀ q, LastPlace s.heap [q] 0 q :=
    fun q => ⟨rfl, fun m q' hm hq' => by simp [Nat.ne_of_gt hm] at hq'⟩
  refine ⟨s, hs, hkeyed, hinactive _, hnew, hsend, ?_, ?_⟩
  · intro h
    have hagree := (decidesTopics_iff_agree (p := againSubscribe [1]) (by decide) (by decide)
      hkeyed (hinactive _) hnew (hsend [1] (by simp)) rfl).mp h
    have hcode := hagree 0 1 0 1 2 2 (hplace 1) (hfirst ▸ hplace 1) rfl rfl rfl
    rw [DecidesAs, hactive] at hcode
    cases hcode.2
  · intro h
    have hagree := (decidesTopics_iff_agree (p := againSubscribe [1, 3]) (by decide) (by decide)
      hkeyed (hinactive _) hnew (hsend [1, 3] (by simp)) rfl).mp h
    have hcode := hagree 1 3 0 1 1 128 ((hplace 3).cons 1) (hboth ▸ hplace 1) htopic.symm rfl rfl
    rw [DecidesAs, if_neg (by decide)] at hcode
    exact absurd hcode (by decide)

end AwsIotSdk
