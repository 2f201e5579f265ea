import AwsIotSdk.ResubscribeLoop

/-! The SUBACKs of a resubscribe. Each code finds one entry that still waits at its
place, whatever the order of the packets. -/

namespace AwsIotSdk

open ClientState

/-- A code for a place of a packet. -/
abbrev Grant := (UInt16 × UInt8) × UInt8

def grantedQos (code : UInt8) : QoS := if code = 0 then .qos0 else .qos1

def grantsOf (packetId : UInt16) (codes : Bytes) (index : UInt8) : List Grant :=
  (places packetId codes index).zip codes

theorem length_places {α : Type} (packetId : UInt16) (xs : List α) (index : UInt8) :
    (places packetId xs index).length = xs.length := by
  induction xs generalizing index with
  | nil => rfl
  | cons x xs ih => rw [places, List.length_cons, ih, List.length_cons]

theorem places_congr {α β : Type} (packetId : UInt16) {xs : List α} {ys : List β}
    (h : xs.length = ys.length) (index : UInt8) :
    places packetId xs index = places packetId ys index := by
  induction xs generalizing ys index with
  | nil =>
    cases ys with
    | nil => rfl
    | cons y ys => cases h
  | cons x xs ih =>
    cases ys with
    | nil => cases h
    | cons y ys => rw [places, places, ih (Nat.succ.inj h)]

theorem getElem?_places {α : Type} (packetId : UInt16) (xs : List α) (index : UInt8) (n : Nat) :
    (places packetId xs index)[n]? =
      xs[n]?.map (fun _ => (packetId, index + UInt8.ofNat n)) := by
  induction xs generalizing index n with
  | nil => rfl
  | cons x xs ih =>
    cases n with
    | zero => simp [places]
    | succ n =>
      have hindex : index + 1 + UInt8.ofNat n = index + UInt8.ofNat (n + 1) := by
        rw [UInt8.ofNat_add, UInt8.add_assoc, UInt8.add_comm 1]
        rfl
      rw [places, List.getElem?_cons_succ, ih, List.getElem?_cons_succ, hindex]

theorem map_fst_grantsOf (packetId : UInt16) (codes : Bytes) (index : UInt8) :
    (grantsOf packetId codes index).map Prod.fst = places packetId codes index :=
  List.map_fst_zip (Nat.le_of_eq (length_places packetId codes index))

theorem mem_grantsOf {packetId : UInt16} {codes : Bytes} {index : UInt8} {g : Grant}
    (h : g ∈ grantsOf packetId codes index) :
    ∃ n : Nat, codes[n]? = some g.2 ∧ g.1 = (packetId, index + UInt8.ofNat n) := by
  obtain ⟨n, hn⟩ := List.mem_iff_getElem?.mp h
  obtain ⟨hplace, hcode⟩ := List.getElem?_zip_eq_some.mp hn
  rw [getElem?_places, hcode] at hplace
  exact ⟨n, hcode, (Option.some.inj hplace).symm⟩

/-! ### One granting code -/

def awaited (s : ClientState) : List (UInt16 × UInt8) :=
  (s.subscriptionMap.entries.map (fun e => tagOf s.heap e.2)).filter (·.1 ≠ 0)

/-- The entries after some codes: one waits at its place for a code to come, or has
been granted the one for it. -/
structure Granting (t s : ClientState) (past future : List Grant) : Prop where
  map : s.subscriptionMap = t.subscriptionMap
  awaited : (awaited s).Perm (future.map Prod.fst)
  entries : ∀ e ∈ t.subscriptionMap.entries, s.heap e.2 = t.heap e.2 ∨
    ∃ g ∈ past, g.1 = tagOf t.heap e.2 ∧ s.heap e.2 = (t.heap e.2).granted (grantedQos g.2)

def answerGrant (s : ClientState) (g : Grant) : ClientState := s.answerTopic g.1.1 g.1.2 g.2

theorem answerTopics_eq_foldl (packetId : UInt16) (codes : Bytes) (itr : UInt8)
    (s : ClientState) : answerTopics packetId codes itr s =
      (grantsOf packetId codes (itr + 1)).foldl answerGrant s := by
  induction codes generalizing itr s with
  | nil => rfl
  | cons code codes ih => exact ih (itr + 1) (s.answerTopic packetId (itr + 1) code)

theorem isInSuback_iff_tagOf {heap : SubscriptionHeap} {p : SubscriptionPtr}
    {place : UInt16 × UInt8} :
    (heap p).isInSuback place.1 place.2 = true ↔ tagOf heap p = place := by
  rw [Subscription.isInSuback_iff, Prod.ext_iff]

theorem answerGrant_of_find? {s : ClientState} {g : Grant} {k : Bytes} {p : SubscriptionPtr}
    (hg : grants g.2 = true) (h : s.subscriptionMap.entries.find?
      (fun e => (s.heap e.2).isInSuback g.1.1 g.1.2) = some (k, p)) :
    answerGrant s g = s.modify p (·.granted (grantedQos g.2)) := by
  have hcode : g.2 = 0 ∨ g.2 = 1 := by simpa [grants] using hg
  rw [answerGrant, answerTopic, setSubscriptionActive_state _ h, setSubscriptionActive_state _ h]
  rcases hcode with hcode | hcode <;> simp [hcode, grantedQos]

/-- A place that is awaited is that of one entry, and granting it takes it off. -/
theorem awaited_modify {s : ClientState} (hs : s.Keyed) {place : UInt16 × UInt8}
    (hplace : place ∈ awaited s) :
    ∃ k p, s.subscriptionMap.entries.find?
        (fun e => (s.heap e.2).isInSuback place.1 place.2) = some (k, p) ∧
      tagOf s.heap p = place ∧
      ∀ q, ((awaited (s.modify p (·.granted q))).cons place).Perm (awaited s) := by
  obtain ⟨hmem, hid⟩ := List.mem_filter.mp hplace
  obtain ⟨e, he, htag⟩ := List.mem_map.mp hmem
  have hsome : (s.subscriptionMap.entries.find?
      (fun e => (s.heap e.2).isInSuback place.1 place.2)).isSome := by
    rw [List.find?_isSome]
    exact ⟨e, he, isInSuback_iff_tagOf.mpr htag⟩
  obtain ⟨⟨k, p⟩, hfind⟩ := Option.isSome_iff_exists.mp hsome
  obtain ⟨hin, before, after, hsplit, -⟩ := List.find?_eq_some_iff_append.mp hfind
  have hnodup := hs.nodup_pointers
  rw [hsplit, List.map_append, List.map_cons] at hnodup
  obtain ⟨-, hafter, hbefore⟩ := List.nodup_append.mp hnodup
  refine ⟨k, p, hfind, isInSuback_iff_tagOf.mp hin, fun q => ?_⟩
  have hother : ∀ e : Bytes × SubscriptionPtr, e.2 ≠ p →
      (s.modify p (·.granted q)).heap e.2 = s.heap e.2 :=
    fun e he => Function.update_of_ne he _ _
  have hfirst : ∀ e ∈ before, (s.modify p (·.granted q)).heap e.2 = s.heap e.2 :=
    fun e he => hother e (hbefore e.2 (List.mem_map_of_mem he) p List.mem_cons_self)
  have hrest : ∀ e ∈ after, (s.modify p (·.granted q)).heap e.2 = s.heap e.2 := by
    intro e he
    refine hother e (fun hp => (List.nodup_cons.mp hafter).1 ?_)
    exact List.mem_map.mpr ⟨e, he, hp⟩
  have hself : tagOf (s.modify p (·.granted q)).heap p = (0, 0) := by
    rw [tagOf, ClientState.modify]
    simp only [Function.update_self]
    rfl
  have hp : tagOf s.heap p = place := isInSuback_iff_tagOf.mp hin
  have hmap : (s.modify p (·.granted q)).subscriptionMap = s.subscriptionMap := rfl
  rw [awaited, awaited, hmap, hsplit, List.map_append, List.map_append, List.map_cons,
    List.map_cons, List.map_congr_left (g := fun e => tagOf s.heap e.2)
      (fun e he => by rw [tagOf, hfirst e he]),
    List.map_congr_left (g := fun e => tagOf s.heap e.2) (l := after)
      (fun e he => by rw [tagOf, hrest e he]), hself, hp, List.filter_append, List.filter_append,
    List.filter_cons_of_pos (p := fun x : UInt16 × UInt8 => x.1 ≠ 0) hid,
    List.filter_cons_of_neg (p := fun x : UInt16 × UInt8 => x.1 ≠ 0) (by simp)]
  exact List.perm_middle.symm

theorem Granting.step {t s : ClientState} {past future : List Grant} {g : Grant}
    (hs : s.Keyed) (h : Granting t s past (g :: future)) (hg : grants g.2 = true) :
    Granting t (answerGrant s g) (past ++ [g]) future := by
  have hmem : g.1 ∈ AwsIotSdk.awaited s := h.awaited.mem_iff.mpr List.mem_cons_self
  have hid : g.1.1 ≠ 0 := by simpa using (List.mem_filter.mp hmem).2
  obtain ⟨k, p, hfind, htag, hperm⟩ := awaited_modify hs hmem
  rw [answerGrant_of_find? hg hfind]
  refine ⟨h.map, ((hperm _).trans h.awaited).cons_inv, ?_⟩
  intro e he
  by_cases hp : e.2 = p
  · rcases h.entries e he with hsame | ⟨g', -, -, hgranted⟩
    · refine .inr ⟨g, List.mem_append_right _ List.mem_cons_self, ?_, ?_⟩
      · rw [← htag, ← hp, tagOf, hsame]
      · rw [hp] at hsame ⊢
        rw [← hsame]
        exact Function.update_self p _ _
    · rw [hp] at hgranted
      rw [tagOf, hgranted] at htag
      exact absurd (congrArg Prod.fst htag).symm hid
  · have hkept : (s.modify p (·.granted (grantedQos g.2))).heap e.2 = s.heap e.2 :=
      Function.update_of_ne hp _ _
    rw [hkept]
    refine (h.entries e he).imp_right (fun hpast => ?_)
    obtain ⟨g', hg', hrest⟩ := hpast
    exact ⟨g', List.mem_append_left _ hg', hrest⟩

theorem Granting.run {t s : ClientState} {past now future : List Grant} (hs : s.Keyed)
    (h : Granting t s past (now ++ future))
    (hg : ∀ g ∈ now, grants g.2 = true) :
    Granting t (now.foldl answerGrant s) (past ++ now) future ∧
      (now.foldl answerGrant s).Keyed := by
  induction now generalizing s past with
  | nil => exact ⟨by simpa using h, hs⟩
  | cons g now ih =>
    obtain ⟨hfirst, hrest⟩ := List.forall_mem_cons.mp hg
    have hkeyed : (answerGrant s g).Keyed := hs.answerTopic g.1.1 g.1.2 g.2
    have hstep : Granting t (answerGrant s g) (past ++ [g]) (now ++ future) := h.step hs hfirst
    have hrun := ih hkeyed hstep hrest
    rw [List.append_assoc] at hrun
    exact hrun

/-! ### All SUBACKs -/

def handleSubacks : List (UInt16 × Bytes) → ClientState → Except Fault ClientState
  | [], s => .ok s
  | a :: as, s => do
    let r ← NetworkRead.handleSuback s (Packet.appendUInt16ToBuffer [] a.1 ++ a.2)
    handleSubacks as r.2

def grantsOfAcks (acks : List (UInt16 × Bytes)) : List Grant :=
  acks.flatMap (fun a => grantsOf a.1 a.2 1)

theorem mem_of_mem_grantsOf {packetId : UInt16} {codes : Bytes} {index : UInt8} {g : Grant}
    (h : g ∈ grantsOf packetId codes index) : g.2 ∈ codes := by
  obtain ⟨n, hn, -⟩ := mem_grantsOf h
  exact List.mem_of_getElem? hn

theorem granting_handleSubacks {t s : ClientState} {past : List Grant}
    {acks : List (UInt16 × Bytes)} (hs : s.Keyed)
    (h : Granting t s past (grantsOfAcks acks))
    (hg : ∀ a ∈ acks, ∀ code ∈ a.2, grants code = true) :
    ∃ u, handleSubacks acks s = .ok u ∧ Granting t u (past ++ grantsOfAcks acks) [] := by
  induction acks generalizing s past with
  | nil => exact ⟨s, rfl, by simpa [grantsOfAcks] using h⟩
  | cons a acks ih =>
    obtain ⟨hfirst, hrest⟩ := List.forall_mem_cons.mp hg
    have hcons : grantsOfAcks (a :: acks) = grantsOf a.1 a.2 1 ++ grantsOfAcks acks :=
      List.flatMap_cons
    rw [hcons] at h
    obtain ⟨hrun, hkeyed⟩ := h.run hs (fun g hmem => hfirst g.2 (mem_of_mem_grantsOf hmem))
    have hanswer : (grantsOf a.1 a.2 1).foldl answerGrant s = answerTopics a.1 a.2 0 s :=
      (answerTopics_eq_foldl a.1 a.2 0 s).symm
    rw [hanswer] at hrun hkeyed
    rw [handleSubacks, handleSuback_eq, hcons, ← List.append_assoc]
    exact ih (s := (answerTopics a.1 a.2 0 s).mapCore
      (·.forwardReceivedAck a.1 (subackResult a.2))) hkeyed
      ⟨hrun.map, hrun.awaited, hrun.entries⟩ hrest

/-- A SUBACK with granting codes for each packet, in some order. -/
structure GrantingSubacks (written : List ResubscribeWrite)
    (acks : List (ResubscribeWrite × Bytes)) : Prop where
  order : (acks.map Prod.fst).Perm written
  length : ∀ a ∈ acks, a.2.length = a.1.pointers.length
  grants : ∀ a ∈ acks, ∀ code ∈ a.2, grants code = true

/-- The topics stay, and each is active with the code of a SUBACK that has the id of its
packet. While the ids are distinct that is the SUBACK for the packet itself. -/
structure AllGranted (s u : ClientState) (written : List ResubscribeWrite)
    (acks : List (ResubscribeWrite × Bytes)) : Prop where
  topics : ∀ k, u.subscriptionAt k = none ↔ s.subscriptionAt k = none
  granted : ∀ k p, s.subscriptionMap.find k = some p → ∃ w ∈ written, ∃ a ∈ acks,
    ∃ (n : Nat) (code : UInt8) (v : Subscription), w.pointers[n]? = some p ∧
      a.1.packet.packetId = w.packet.packetId ∧ (written.length ≤ 65535 → a.1 = w) ∧
      a.2[n]? = some code ∧ u.subscriptionAt k = some v ∧ v.isActive = true ∧
      v.maxQos = grantedQos code

def subacksOf (acks : List (ResubscribeWrite × Bytes)) : List (UInt16 × Bytes) :=
  acks.map (fun a => (a.1.packet.packetId, a.2))

section Granted

variable {σ : Type} {s : ClientState} {r : ResubscribeState σ}
  {acks : List (ResubscribeWrite × Bytes)}

theorem Progress.awaited_eq (h : Progress s [] [] r) :
    awaited r.state = r.written.flatMap (·.places) := by
  have hpointers : r.state.subscriptionMap.entries.map Prod.snd =
      r.written.flatMap (·.pointers) := by
    rw [h.map, h.pointers_eq]
  have htags : r.state.subscriptionMap.entries.map (fun e => tagOf r.state.heap e.2) =
      r.written.flatMap (·.places) := by
    have hmap := congrArg (List.map (tagOf r.state.heap)) hpointers
    rw [List.map_map, List.map_flatMap] at hmap
    exact hmap.trans (List.flatMap_congr (fun w hw => h.tags w hw))
  rw [awaited, htags, List.filter_eq_self]
  intro place hplace
  obtain ⟨w, hw, hmem⟩ := List.mem_flatMap.mp hplace
  obtain ⟨n, hn⟩ := List.mem_iff_getElem?.mp hmem
  rw [ResubscribeWrite.places, getElem?_places] at hn
  obtain ⟨p, -, rfl⟩ := Option.map_eq_some_iff.mp hn
  simpa using h.packetId_ne_zero hw

theorem GrantingSubacks.places_perm {written : List ResubscribeWrite}
    (h : GrantingSubacks written acks) :
    (written.flatMap (·.places)).Perm ((grantsOfAcks (subacksOf acks)).map Prod.fst) := by
  have hplaces : (grantsOfAcks (subacksOf acks)).map Prod.fst =
      (acks.map Prod.fst).flatMap (·.places) := by
    rw [grantsOfAcks, subacksOf, List.flatMap_map, List.map_flatMap, List.flatMap_map]
    refine List.flatMap_congr (fun a ha => ?_)
    rw [map_fst_grantsOf]
    exact places_congr _ (h.length a ha) 1
  rw [hplaces]
  exact h.order.symm.flatMap_right _

theorem Progress.granting (h : Progress s [] [] r) (ha : GrantingSubacks r.written acks) :
    Granting r.state r.state [] (grantsOfAcks (subacksOf acks)) where
  map := rfl
  awaited := h.awaited_eq ▸ ha.places_perm
  entries _ _ := .inl rfl

theorem Progress.keyed (h : Progress s [] [] r) (hs : s.Keyed) : r.state.Keyed := by
  intro k p hp
  rw [h.map] at hp
  obtain ⟨i, j, hheap⟩ := h.heap p
  rw [hheap]
  exact hs k p hp

theorem Progress.tagOf_eq (h : Progress s [] [] r) {w : ResubscribeWrite} (hw : w ∈ r.written)
    {n : Nat} {p : SubscriptionPtr} (hp : w.pointers[n]? = some p) :
    tagOf r.state.heap p = (w.packet.packetId, 1 + UInt8.ofNat n) := by
  have hplaces := congrArg (·[n]?) (h.tags w hw)
  simp only [List.getElem?_map, hp, ResubscribeWrite.places, getElem?_places] at hplaces
  exact Option.some.inj hplaces

/-- Each entry has a place in one of the packets. -/
theorem Progress.written_of_find (h : Progress s [] [] r) {k : Bytes} {p : SubscriptionPtr}
    (hp : s.subscriptionMap.find k = some p) :
    ∃ w ∈ r.written, ∃ n : Nat, w.pointers[n]? = some p := by
  have hmem : p ∈ r.written.flatMap (·.pointers) := by
    rw [h.pointers_eq]
    exact List.mem_map.mpr ⟨(k, p), (s.subscriptionMap.mem_entries_iff).mpr hp, rfl⟩
  obtain ⟨w, hw, hpw⟩ := List.mem_flatMap.mp hmem
  exact ⟨w, hw, List.mem_iff_getElem?.mp hpw⟩

/-- The places in a packet are few enough for their number to tell them apart. -/
theorem Progress.place_inj (h : Progress s [] [] r) {w w' : ResubscribeWrite}
    (hw : w ∈ r.written) (hw' : w' ∈ r.written) {n m : Nat} (hn : n < w.pointers.length)
    (hm : m < w'.pointers.length) (heq : (1 : UInt8) + UInt8.ofNat n = 1 + UInt8.ofNat m) :
    n = m := by
  have hmax : maxTopicsInOneSubscribePacket = 8 := rfl
  have hlen := (h.sizes w hw).2
  have hlen' := (h.sizes w' hw').2
  have hvalue : n % 256 = m % 256 := congrArg UInt8.toNat ((UInt8.add_right_inj 1).mp heq)
  omega

theorem tagOf_eq_zero_of_granting {t u : ClientState} {past : List Grant}
    (hu : Granting t u past []) {e : Bytes × SubscriptionPtr}
    (he : e ∈ t.subscriptionMap.entries) : (tagOf u.heap e.2).1 = 0 := by
  by_contra hne
  have hawaited : tagOf u.heap e.2 ∈ awaited u := by
    rw [awaited, hu.map]
    refine List.mem_filter.mpr ⟨List.mem_map.mpr ⟨e, he, rfl⟩, ?_⟩
    simpa using hne
  exact List.not_mem_nil (hu.awaited.mem_iff.mp hawaited)

theorem Progress.allGranted (h : Progress s [] [] r) (ha : GrantingSubacks r.written acks)
    {u : ClientState} (hu : Granting r.state u (grantsOfAcks (subacksOf acks)) []) :
    AllGranted s u r.written acks := by
  have hmap : u.subscriptionMap = s.subscriptionMap := hu.map.trans h.map
  refine ⟨?_, ?_⟩
  · intro k
    rw [subscriptionAt, subscriptionAt, hmap, Option.map_eq_none_iff, Option.map_eq_none_iff]
  · intro k p hp
    have hentry : (k, p) ∈ r.state.subscriptionMap.entries :=
      h.map ▸ (s.subscriptionMap.mem_entries_iff).mpr hp
    obtain ⟨w, hw, n, hn⟩ := h.written_of_find hp
    have htag := h.tagOf_eq hw hn
    rcases hu.entries (k, p) hentry with hsame | ⟨g, hg, hplace, hgranted⟩
    · have hzero : (tagOf u.heap p).1 = 0 := tagOf_eq_zero_of_granting hu hentry
      rw [tagOf, hsame, ← tagOf, htag] at hzero
      exact absurd hzero (h.packetId_ne_zero hw)
    · obtain ⟨b, hb, hgb⟩ := List.mem_flatMap.mp hg
      obtain ⟨a, haa, rfl⟩ := List.mem_map.mp hb
      obtain ⟨m, hm, hgm⟩ := mem_grantsOf hgb
      have haw : a.1 ∈ r.written := ha.order.mem_iff.mp (List.mem_map_of_mem haa)
      rw [hplace] at hgm
      obtain ⟨hids, hindex⟩ := Prod.ext_iff.mp (htag.symm.trans hgm)
      have hmlt : m < a.1.pointers.length :=
        ha.length a haa ▸ (List.getElem?_eq_some_iff.mp hm).1
      obtain rfl := h.place_inj hw haw (List.getElem?_eq_some_iff.mp hn).1 hmlt hindex
      refine ⟨w, hw, a, haa, n, g.2, u.heap p, hn, hids.symm, ?_, hm,
        subscriptionAt_eq_some.mpr ⟨p, hmap ▸ hp, rfl⟩, ?_, ?_⟩
      · intro hlen
        exact List.inj_on_of_nodup_map (h.nodup_ids hlen) haw hw hids.symm
      · rw [hgranted]
        rfl
      · rw [hgranted]
        rfl

end Granted

/-- A resubscribe whose writes succeed covers the map, and granting SUBACKs in any order
make every entry active. -/
theorem coversOnce_resubscribe {σ : Type} [NetworkConnection σ] (s : ClientState) (c : σ)
    (threadContinue : Bool) (hs : s.Keyed) :
    ∃ r, KeepaliveActionRunner.resubscribe threadContinue s c = .ok r ∧
      ((∀ w ∈ r.written, w.rc = .success) → CoversOnce s r.written ∧
        ∀ acks, GrantingSubacks r.written acks →
          ∃ u, handleSubacks (subacksOf acks) r.state = .ok u ∧ AllGranted s u r.written acks) := by
  obtain ⟨r, hr, hwritten⟩ := progress_resubscribe hs c threadContinue
  refine ⟨r, hr, ?_⟩
  intro hok
  obtain ⟨hprogress, hfull⟩ := hwritten hok
  refine ⟨hprogress.coversOnce hs hfull, ?_⟩
  intro acks hacks
  have hgrants : ∀ a ∈ subacksOf acks, ∀ code ∈ a.2, grants code = true := by
    intro b hb
    obtain ⟨a, ha, rfl⟩ := List.mem_map.mp hb
    exact hacks.grants a ha
  obtain ⟨u, hu, hgranting⟩ :=
    granting_handleSubacks (hprogress.keyed hs) (hprogress.granting hacks) hgrants
  exact ⟨u, hu, hprogress.allGranted hacks hgranting⟩

def nineTopics : SubscriptionHeap := fun q =>
  .init ((Utf8String.create [UInt8.ofNat (0x61 + q)]).getD freshTopic) .qos1 (some 0) 0

def insertAll (s : ClientState) (ps : List SubscriptionPtr) : ClientState :=
  ps.foldl (fun s q => s.insertTopic (topicOf s.heap q) q) s

theorem keyed_insertAll {s : ClientState} (hs : s.Keyed) (ps : List SubscriptionPtr) :
    (insertAll s ps).Keyed := by
  induction ps generalizing s with
  | nil => exact hs
  | cons q ps ih => exact ih (hs.insertTopic q)

/-- One topic more than fits into a packet. -/
def reconnectedClient : ClientState :=
  insertAll { freshClient with heap := nineTopics } (List.range 9)

def reconnectedWrite (packetId : UInt16) (ps : List SubscriptionPtr) : ResubscribeWrite :=
  let p := { SubscribePacket.init nineTopics ps with packetId := packetId }
  ⟨p, (p.toString nineTopics).1, .success⟩

def reconnectedWrites : List ResubscribeWrite :=
  [reconnectedWrite 1 (List.range 8), reconnectedWrite 2 [8]]

/-- The SUBACKs come in the other order. -/
def reconnectedAcks : List (ResubscribeWrite × Bytes) :=
  [(reconnectedWrite 2 [8], [0]),
    (reconnectedWrite 1 (List.range 8), [1, 0, 1, 1, 0, 1, 1, 1])]

theorem coversOnce_resubscribe_reconnected :
    ∃ r, KeepaliveActionRunner.resubscribe true reconnectedClient (⟨true, []⟩ : StreamConnection) =
        .ok r ∧ r.written = reconnectedWrites ∧ CoversOnce reconnectedClient r.written ∧
      ∃ u, handleSubacks [(2, [0]), (1, [1, 0, 1, 1, 0, 1, 1, 1])] r.state = .ok u ∧
        AllGranted reconnectedClient u r.written reconnectedAcks := by
  have hkeyed : reconnectedClient.Keyed := keyed_insertAll (by rintro _ _ ⟨⟩) _
  obtain ⟨r, hr, hcovers⟩ :=
    coversOnce_resubscribe reconnectedClient (⟨true, []⟩ : StreamConnection) true hkeyed
  have hwritten : r.written = reconnectedWrites := by
    have hrun : ∃ t, KeepaliveActionRunner.resubscribe true reconnectedClient
        (⟨true, []⟩ : StreamConnection) = .ok t ∧ t.written = reconnectedWrites :=
      ⟨_, rfl, rfl⟩
    obtain ⟨t, ht, hwritten⟩ := hrun
    rw [ht] at hr
    cases hr
    exact hwritten
  have hok : ∀ w ∈ r.written, w.rc = .success := by
    rw [hwritten]
    exact List.forall_mem_cons.mpr ⟨rfl, List.forall_mem_singleton.mpr rfl⟩
  obtain ⟨hcover, hacks⟩ := hcovers hok
  refine ⟨r, hr, hwritten, hcover, hacks reconnectedAcks ⟨?_, ?_, ?_⟩⟩
  · rw [hwritten]
    exact List.Perm.swap _ _ []
  · exact List.forall_mem_cons.mpr ⟨rfl, List.forall_mem_singleton.mpr rfl⟩
  · exact List.forall_mem_cons.mpr ⟨List.all_eq_true.mp (by decide),
      List.forall_mem_singleton.mpr (List.all_eq_true.mp (by decide))⟩

end AwsIotSdk
