import AwsIotSdk.MergeOfDiff

/-! The merge as its documentation tells it: what becomes of each name, and that a
second merge of the same document changes nothing. -/

namespace AwsIotSdk

open JsonValue

namespace JsonParser

variable {ν : Type} {ts ss ms : List (Bytes × JsonValue ν)}

def names (ms : List (Bytes × JsonValue ν)) : List Bytes := ms.map Prod.fst

/-- The members of the target after the merge, name by name. -/
structure DocumentedMerge (ts ss ms : List (Bytes × JsonValue ν)) : Prop where
  union : ∀ k, k ∈ names ms ↔ k ∈ names ts ∨ k ∈ names ss
  onlyTarget : ∀ k v, (k, v) ∈ ts → k ∉ names ss → (k, v) ∈ ms
  onlySource : ∀ k v, (k, v) ∈ ss → k ∉ names ts → (k, v) ∈ ms
  bothObjects : ∀ k t s, (k, t) ∈ ts → (k, s) ∈ ss → (t.isObject && s.isObject) = true →
    ∃ v, mergeValues t s = (.success, v) ∧ (k, v) ∈ ms
  bothOther : ∀ k t s, (k, t) ∈ ts → (k, s) ∈ ss → ¬ (t.isObject && s.isObject) = true →
    (k, s) ∈ ms

theorem merged_eq_none_iff {a b : Option (JsonValue ν)} :
    merged a b = none ↔ a = none ∧ b = none := by
  cases b with
  | none => cases a <;> simp [merged]
  | some s =>
    cases a with
    | none => simp [merged]
    | some t =>
      rw [merged]
      split_ifs <;> simp

theorem documentedMerge_of_lookup (ht : DistinctNames (.object ts))
    (hs : DistinctNames (.object ss))
    (h : ∀ k, ms.lookup k = merged (ts.lookup k) (ss.lookup k)) : DocumentedMerge ts ss ms := by
  have habsent {k : Bytes} {xs : List (Bytes × JsonValue ν)} (hk : k ∉ names xs) :
      xs.lookup k = none := lookup_eq_none_iff.mpr hk
  refine ⟨?_, ?_, ?_, ?_, ?_⟩
  · intro k
    have hiff : ms.lookup k = none ↔ ts.lookup k = none ∧ ss.lookup k = none := by
      rw [h k, merged_eq_none_iff]
    rw [lookup_eq_none_iff, lookup_eq_none_iff, lookup_eq_none_iff] at hiff
    unfold names
    tauto
  · intro k v hv hk
    have hlookup := h k
    rw [lookup_of_mem ht.names hv, habsent hk] at hlookup
    exact mem_of_lookup hlookup
  · intro k v hv hk
    have hlookup := h k
    rw [lookup_of_mem hs.names hv, habsent hk] at hlookup
    exact mem_of_lookup hlookup
  · intro k t s htk hsk hobj
    have hlookup := h k
    rw [lookup_of_mem ht.names htk, lookup_of_mem hs.names hsk, merged, if_pos hobj] at hlookup
    exact ⟨_, Prod.ext (merges s t hobj) rfl, mem_of_lookup hlookup⟩
  · intro k t s htk hsk hobj
    have hlookup := h k
    rw [lookup_of_mem ht.names htk, lookup_of_mem hs.names hsk, merged, if_neg hobj] at hlookup
    exact mem_of_lookup hlookup

variable [JsonNumber ν]

theorem rel_merged_self {v : JsonValue ν} (hv : DistinctNames v) :
    Option.Rel (fun x y => x.eq y = true) (some v) (merged (some v) (some v)) := by
  rw [merged]
  split_ifs with hobj
  · exact .some (eq_mergeValues_of_eq hv hv hobj (eq_self hv))
  · exact .some (eq_self hv)

/-- Merging a document a second time changes nothing. -/
theorem eq_mergeValues_again {t s : JsonValue ν} (ht : DistinctNames t) (hs : DistinctNames s)
    (hobj : (t.isObject && s.isObject) = true) :
    (mergeValues t s).2.eq (mergeValues (mergeValues t s).2 s).2 = true := by
  induction hs generalizing t with
  | @object ss hn hss ih =>
    cases ht with
    | @object ts hts hmembers =>
      obtain ⟨ms, hmerge, hms, hlookup⟩ := mergeValues_object (.object hn hss) hts
      obtain ⟨ms', hagain, hms', hlookup'⟩ := mergeValues_object (.object hn hss) hms
      rw [hmerge]
      dsimp only
      rw [hagain, eq_object_iff hms hms']
      intro k
      rw [hlookup', hlookup]
      cases hs : ss.lookup k with
      | none =>
        cases ht : ts.lookup k with
        | none => exact .none
        | some t => exact .some (eq_self (hmembers (k, t) (mem_of_lookup ht)))
      | some s =>
        have hsmem := mem_of_lookup hs
        cases ht : ts.lookup k with
        | none => exact rel_merged_self (hss (k, s) hsmem)
        | some t =>
          by_cases hobjs : (t.isObject && s.isObject) = true
          · obtain ⟨htObject, hsObject⟩ := (Bool.and_eq_true _ _).mp hobjs
            have hagain : ((mergeValues t s).2.isObject && s.isObject) = true := by
              rw [isObject_mergeValues htObject, hsObject]
              rfl
            rw [merged, if_pos hobjs, merged, if_pos hagain]
            exact .some (ih (k, s) hsmem (hmembers (k, t) (mem_of_lookup ht)) hobjs)
          · rw [merged, if_neg hobjs]
            exact rel_merged_self (hss (k, s) hsmem)
    | _ => cases hobj
  | _ => simp [isObject] at hobj

/-- The merge of two objects succeeds and is the documented one; a second merge gives
an equal document. -/
theorem documentedMerge_mergeValues (ts ss : List (Bytes × JsonValue ν))
    (ht : DistinctNames (.object ts)) (hs : DistinctNames (.object ss)) :
    ∃ ms, mergeValues (.object ts) (.object ss) = (.success, .object ms) ∧
      DocumentedMerge ts ss ms ∧ DistinctNames (.object ms) ∧
      ∃ ms', mergeValues (.object ms) (.object ss) = (.success, .object ms') ∧
        (JsonValue.object ms').eq (.object ms) = true := by
  obtain ⟨ms, hmerge, hms, hlookup⟩ := mergeValues_object hs ht.names
  have hdistinct := distinctNames_mergeValues ht hs rfl
  have hagain := eq_mergeValues_again ht hs rfl
  rw [hmerge] at hdistinct hagain
  dsimp only at hdistinct hagain
  have hdistinct' := distinctNames_mergeValues hdistinct hs rfl
  obtain ⟨ms', hmerge', -⟩ := mergeValues_object hs hms
  rw [hmerge'] at hdistinct' hagain
  exact ⟨ms, hmerge, documentedMerge_of_lookup ht hs hlookup, hdistinct, ms', hmerge',
    eq_symm hdistinct hdistinct' hagain⟩

theorem documentedMerge_mergeValues_nested :
    ∃ ms, mergeValues (.object oldMembers) (.object newMembers) = (.success, .object ms) ∧
      DocumentedMerge oldMembers newMembers ms ∧ DistinctNames (.object ms) ∧
      ∃ ms', mergeValues (.object ms) (.object newMembers) = (.success, .object ms') ∧
        (JsonValue.object ms').eq (.object ms) = true :=
  documentedMerge_mergeValues oldMembers newMembers distinctNames_oldMembers
    distinctNames_newMembers

end JsonParser

end AwsIotSdk
