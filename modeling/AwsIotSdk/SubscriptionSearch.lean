import AwsIotSdk.ClientState

/-! The search of the subscription map for a topic. It stops at the first entry
that matches, and at one whose expression does not compile. -/

namespace AwsIotSdk

open ClientState

theorem findEntry_append {heap : SubscriptionHeap} {t : Bytes}
    {pre : List (Bytes × SubscriptionPtr)} (hpre : ∀ e ∈ pre, matchesEntry heap t e = .ok false)
    (es : List (Bytes × SubscriptionPtr)) : findEntry heap t (pre ++ es) = findEntry heap t es := by
  induction pre with
  | nil => rfl
  | cons e pre ih =>
    obtain ⟨he, hpre⟩ := List.forall_mem_cons.mp hpre
    rw [List.cons_append, findEntry, he, ← ih hpre]
    rfl

theorem findEntry_cons_of_match {heap : SubscriptionHeap} {t : Bytes} {e : Bytes × SubscriptionPtr}
    (he : matchesEntry heap t e = .ok true) (es : List (Bytes × SubscriptionPtr)) :
    findEntry heap t (e :: es) = .ok (some e.2) := by
  rw [findEntry, he]
  rfl

theorem findEntry_eq_some {heap : SubscriptionHeap} {t : Bytes} {p : SubscriptionPtr}
    {es : List (Bytes × SubscriptionPtr)} (h : findEntry heap t es = .ok (some p)) :
    ∃ pre e post, es = pre ++ e :: post ∧ (∀ x ∈ pre, matchesEntry heap t x = .ok false) ∧
      matchesEntry heap t e = .ok true ∧ e.2 = p := by
  induction es with
  | nil => cases h
  | cons e es ih =>
    obtain ⟨found, hfound, hrest⟩ := bind_eq_ok.mp h
    cases found with
    | true =>
      cases hrest
      exact ⟨[], e, es, rfl, by simp, hfound, rfl⟩
    | false =>
      obtain ⟨pre, a, post, hes, hpre, ha, hp⟩ := ih hrest
      have hall : ∀ x ∈ e :: pre, matchesEntry heap t x = .ok false :=
        List.forall_mem_cons.mpr ⟨hfound, hpre⟩
      exact ⟨e :: pre, a, post, by rw [hes, List.cons_append], hall, ha, hp⟩

/-- The entry at which a search for the topic succeeds. -/
def FirstMatch (s : ClientState) (t : Bytes) (e : Bytes × SubscriptionPtr) : Prop :=
  ∃ pre post, s.subscriptionMap.entries = pre ++ e :: post ∧
    (∀ x ∈ pre, matchesEntry s.heap t x = .ok false) ∧ matchesEntry s.heap t e = .ok true

theorem getSubscription_eq_some {s : ClientState} {t : Bytes} {p : SubscriptionPtr} :
    s.getSubscription t = .ok (some p) ↔ ∃ k, FirstMatch s t (k, p) := by
  constructor
  · intro h
    obtain ⟨pre, ⟨k, q⟩, post, hes, hpre, he, hq⟩ := findEntry_eq_some h
    cases hq
    exact ⟨k, pre, post, hes, hpre, he⟩
  · intro h
    obtain ⟨k, pre, post, hes, hpre, he⟩ := h
    rw [getSubscription, hes, findEntry_append hpre, findEntry_cons_of_match he]

end AwsIotSdk
