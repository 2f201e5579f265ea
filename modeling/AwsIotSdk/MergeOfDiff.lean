import AwsIotSdk.JsonDiff

/-! Merging a difference against merging the new document itself, by induction on the
new document. -/

namespace AwsIotSdk

open JsonValue

namespace JsonParser

variable {ν : Type} [JsonNumber ν]

theorem distinctNames_diffValues {o n : JsonValue ν} (hn : DistinctNames n)
    (hobj : (o.isObject && n.isObject) = true) :
    DistinctNames (diffValues (.object []) o n).2 := by
  induction hn generalizing o with
  | @object ns hnames hns ih =>
    cases o with
    | object os =>
      obtain ⟨ds, hdiff, hds, hlookup⟩ := diffValues_object (.object hnames hns) (.object []) os
      rw [hdiff]
      refine DistinctNames.of_lookup hds ?_
      intro k d hd
      rw [hlookup] at hd
      cases ho : os.lookup k with
      | none =>
        rw [ho, differing_none] at hd
        exact hns (k, d) (mem_of_lookup hd)
      | some o =>
        rw [ho] at hd
        obtain ⟨n, hn, -, ⟨hobjs, rfl⟩ | ⟨-, rfl⟩⟩ := differing_some hd
        · exact ih (k, n) (mem_of_lookup hn) hobjs
        · exact hns (k, d) (mem_of_lookup hn)
    | _ => cases hobj
  | _ => simp [isObject] at hobj

/-- The difference of two objects is an object. -/
theorem diffValues_eq {o n : JsonValue ν} (hn : DistinctNames n)
    (hobj : (o.isObject && n.isObject) = true) (target : JsonValue ν) :
    ∃ ds, diffValues target o n = (.success, .object ds) ∧
      diffValues (.object []) o n = (.success, .object ds) := by
  obtain ⟨hoObject, hnObject⟩ := (Bool.and_eq_true _ _).mp hobj
  obtain ⟨os, rfl⟩ := isObject_iff.mp hoObject
  obtain ⟨ns, rfl⟩ := isObject_iff.mp hnObject
  obtain ⟨ds, hdiff, -⟩ := diffValues_object hn target os
  exact ⟨ds, hdiff, hdiff⟩

/-- Merging an equal object changes nothing. -/
theorem eq_mergeValues_of_eq {o n : JsonValue ν} (ho : DistinctNames o) (hn : DistinctNames n)
    (hobj : (o.isObject && n.isObject) = true) (heq : o.eq n = true) :
    o.eq (mergeValues o n).2 = true := by
  induction hn generalizing o with
  | @object ns hnames hns ih =>
    cases ho with
    | @object os hos hmembers =>
      obtain ⟨ms, hmerge, hms, hlookup⟩ := mergeValues_object (.object hnames hns) hos
      have hsame := (eq_object_iff hos hnames).mp heq
      rw [hmerge, eq_object_iff hos hms]
      intro k
      have hk := hsame k
      rw [hlookup]
      cases ho : os.lookup k with
      | none =>
        rw [(hsame.lookup_none k).mp ho]
        exact .none
      | some o =>
        cases hn : ns.lookup k with
        | none =>
          rw [(hsame.lookup_none k).mpr hn] at ho
          cases ho
        | some n =>
          rw [ho, hn, Option.rel_some_some] at hk
          rw [merged]
          split_ifs with hobjs
          · exact .some (ih (k, n) (mem_of_lookup hn) (hmembers (k, o) (mem_of_lookup ho)) hobjs hk)
          · exact .some hk
    | _ => cases hobj
  | _ => simp [isObject] at hobj

/-- Merging the difference in one member, from what holds inside the member. -/
theorem rel_merged_differing {o n : JsonValue ν} (ho : DistinctNames o) (hn : DistinctNames n)
    (hinside : (o.isObject && n.isObject) = true →
      (mergeValues o (diffValues (.object []) o n).2).2.eq (mergeValues o n).2 = true) :
    Option.Rel (fun x y => x.eq y = true)
      (merged (some o) (differing (some o) (some n))) (merged (some o) (some n)) := by
  by_cases heq : o.eq n = true
  · rw [differing, if_pos heq, merged, merged]
    split_ifs with hobjs
    · exact .some (eq_mergeValues_of_eq ho hn hobjs heq)
    · exact .some heq
  · by_cases hobjs : (o.isObject && n.isObject) = true
    · have hmerged := hinside hobjs
      obtain ⟨es, hes, -⟩ := diffValues_eq hn hobjs (.object [])
      obtain ⟨ts, rfl⟩ := isObject_iff.mp ((Bool.and_eq_true _ _).mp hobjs).1
      rw [differing, if_neg heq, if_pos hobjs]
      rw [hes] at hmerged ⊢
      split_ifs with hcount
      · rw [merged, merged, if_pos hobjs, isObject, isObject, Bool.and_self, if_pos rfl]
        exact .some hmerged
      · obtain rfl : es = [] := List.length_eq_zero_iff.mp (Nat.eq_zero_of_not_pos hcount)
        rw [merged, merged, if_pos hobjs]
        exact .some hmerged
    · rw [differing, if_neg heq, if_neg hobjs, merged, if_neg hobjs]
      exact .some (eq_self hn)

/-- Merging the difference is merging the new document. -/
theorem eq_mergeValues_diffValues {o n : JsonValue ν} (ho : DistinctNames o)
    (hn : DistinctNames n) (hobj : (o.isObject && n.isObject) = true) :
    (mergeValues o (diffValues (.object []) o n).2).2.eq (mergeValues o n).2 = true := by
  induction hn generalizing o with
  | @object ns hnames hns ih =>
    cases ho with
    | @object os hos hmembers =>
      have hdistinct := distinctNames_diffValues (o := .object os) (.object hnames hns) hobj
      obtain ⟨ds, hdiff, hds, hdlookup⟩ := diffValues_object (.object hnames hns) (.object []) os
      rw [hdiff] at hdistinct ⊢
      obtain ⟨ms, hmerge, hms, hlookup⟩ := mergeValues_object (.object hnames hns) hos
      obtain ⟨ms', hmerge', hms', hlookup'⟩ := mergeValues_object hdistinct hos
      rw [hmerge, hmerge', eq_object_iff hms' hms]
      intro k
      rw [hlookup, hlookup', hdlookup]
      cases hn : ns.lookup k with
      | none =>
        rw [differing, merged]
        cases ho : os.lookup k with
        | none => exact .none
        | some o => exact .some (eq_self (hmembers (k, o) (mem_of_lookup ho)))
      | some n =>
        have hnmem := mem_of_lookup hn
        cases ho : os.lookup k with
        | none => exact .some (eq_self (hns (k, n) hnmem))
        | some o =>
          have hodistinct := hmembers (k, o) (mem_of_lookup ho)
          exact rel_merged_differing hodistinct (hns (k, n) hnmem) (ih (k, n) hnmem hodistinct)
    | _ => cases hobj
  | _ => simp [isObject] at hobj

/-- A difference is empty when merging the new document leaves the old one equal. -/
theorem diffValues_empty_of_eq {o n : JsonValue ν} (ho : DistinctNames o)
    (hn : DistinctNames n) (hobj : (o.isObject && n.isObject) = true)
    (heq : o.eq (mergeValues o n).2 = true) :
    (diffValues (.object []) o n).2 = .object [] := by
  induction hn generalizing o with
  | @object ns hnames hns ih =>
    cases ho with
    | @object os hos hmembers =>
      obtain ⟨ds, hdiff, hds, hdlookup⟩ := diffValues_object (.object hnames hns) (.object []) os
      obtain ⟨ms, hmerge, hms, hlookup⟩ := mergeValues_object (.object hnames hns) hos
      rw [hmerge, eq_object_iff hos hms] at heq
      have hnone : ∀ k, ds.lookup k = none := by
        intro k
        have hk := heq k
        rw [hlookup] at hk
        rw [hdlookup]
        cases hn : ns.lookup k with
        | none => rfl
        | some n =>
          cases ho : os.lookup k with
          | none =>
            rw [hn, ho] at hk
            cases hk
          | some o =>
            rw [hn, ho, merged] at hk
            rw [differing]
            by_cases hon : o.eq n = true
            · exact if_pos hon
            · by_cases hobjs : (o.isObject && n.isObject) = true
              · rw [if_pos hobjs, Option.rel_some_some] at hk
                rw [if_neg hon, if_pos hobjs, ih (k, n) (mem_of_lookup hn)
                  (hmembers (k, o) (mem_of_lookup ho)) hobjs hk]
                rfl
              · rw [if_neg hobjs, Option.rel_some_some] at hk
                exact absurd hk hon
      rw [hdiff]
      cases ds with
      | nil => rfl
      | cons d ds =>
        have hfirst := hnone d.1
        rw [lookup_cons_eq_ite, if_pos rfl] at hfirst
        cases hfirst
    | _ => cases hobj
  | _ => simp [isObject] at hobj

end JsonParser

namespace JsonValue

variable {ν : Type}

def atPath : JsonValue ν → List Bytes → Option (JsonValue ν)
  | v, [] => some v
  | v, name :: path => (v.findMember name).bind (fun u => u.atPath path)

theorem isObject_of_atPath {v w : JsonValue ν} {name : Bytes} {path : List Bytes}
    (h : v.atPath (name :: path) = some w) : v.isObject = true := by
  cases v <;> first | rfl | cases h

end JsonValue

namespace JsonParser

variable {ν : Type} [JsonNumber ν]

theorem ne_of_atPath_diffValues {o n v w : JsonValue ν} (hn : DistinctNames n)
    (hobj : (o.isObject && n.isObject) = true) {path : List Bytes}
    (hv : (diffValues (.object []) o n).2.atPath path = some v) (hleaf : v.isObject = false)
    (hw : o.atPath path = some w) : w.eq v = false := by
  induction path generalizing o n with
  | nil =>
    obtain ⟨ds, hdiff, -⟩ := diffValues_eq hn hobj (.object [])
    rw [hdiff] at hv
    cases hv
    cases hleaf
  | cons name path ih =>
    obtain ⟨hoObject, hnObject⟩ := (Bool.and_eq_true _ _).mp hobj
    obtain ⟨os, rfl⟩ := isObject_iff.mp hoObject
    obtain ⟨ns, rfl⟩ := isObject_iff.mp hnObject
    obtain ⟨ds, hdiff, -, hlookup⟩ := diffValues_object hn (.object []) os
    rw [hdiff] at hv
    obtain ⟨d, hd, hv⟩ := Option.bind_eq_some_iff.mp hv
    obtain ⟨o, ho, hw⟩ := Option.bind_eq_some_iff.mp hw
    change ds.lookup name = some d at hd
    change os.lookup name = some o at ho
    rw [hlookup, ho] at hd
    obtain ⟨n, hnl, hne, ⟨hobjs, rfl⟩ | ⟨hobjs, rfl⟩⟩ := differing_some hd
    · exact ih (hn.lookup hnl) hobjs hv hw
    · cases path with
      | nil =>
        cases hv
        cases hw
        exact hne
      | cons next path =>
        have hnObject := isObject_of_atPath hv
        have hoObject := isObject_of_atPath hw
        exact absurd ((Bool.and_eq_true _ _).mpr ⟨hoObject, hnObject⟩) hobjs

end JsonParser

/-- The difference stands for the change from the old to the new document. -/
structure DiffReconstructs {ν : Type} [JsonNumber ν] (old new d : JsonValue ν) : Prop where
  mergedDiff : (JsonParser.mergeValues old d).1 = .success
  mergedNew : (JsonParser.mergeValues old new).1 = .success
  reconstructs :
    (JsonParser.mergeValues old d).2.eq (JsonParser.mergeValues old new).2 = true
  empty_iff : d.memberCount = 0 ↔ (JsonParser.mergeValues old new).2.eq old = true
  leaves : ∀ path v, d.atPath path = some v → v.isObject = false →
    ∀ w, old.atPath path = some w → w.eq v = false

theorem diffReconstructs_diffValues {ν : Type} [JsonNumber ν] (target old new : JsonValue ν)
    (hold : DistinctNames old) (hnew : DistinctNames new) (holdObject : old.isObject = true)
    (hnewObject : new.isObject = true) :
    ∃ d, JsonParser.diffValues target old new = (.success, d) ∧ d.isObject = true ∧
      DiffReconstructs old new d ∧
      JsonParser.diffValues target old old = (.success, .object []) := by
  have hobj : (old.isObject && new.isObject) = true := by rw [holdObject, hnewObject]; rfl
  have hself : (old.isObject && old.isObject) = true := by rw [holdObject]; rfl
  obtain ⟨ds, hdiff, hds⟩ := JsonParser.diffValues_eq hnew hobj target
  obtain ⟨es, hdiffSelf, hes⟩ := JsonParser.diffValues_eq hold hself target
  have hdistinct := JsonParser.distinctNames_diffValues hnew hobj
  have hreconstructs := JsonParser.eq_mergeValues_diffValues hold hnew hobj
  have hempty := JsonParser.diffValues_empty_of_eq hold hnew hobj
  have hleaves : ∀ path v, (JsonParser.diffValues (.object []) old new).2.atPath path = some v →
      v.isObject = false → ∀ w, old.atPath path = some w → w.eq v = false :=
    fun path v hv hleaf w hw => JsonParser.ne_of_atPath_diffValues hnew hobj hv hleaf hw
  rw [hds] at hdistinct hreconstructs hempty hleaves
  dsimp only at hdistinct hreconstructs hempty hleaves
  have hmerge := JsonParser.distinctNames_mergeValues hold hnew hobj
  obtain ⟨os, rfl⟩ := isObject_iff.mp holdObject
  refine ⟨.object ds, hdiff, rfl, ⟨?_, ?_, hreconstructs, ?_, hleaves⟩, ?_⟩
  · exact JsonParser.merges _ (.object os) rfl
  · exact JsonParser.merges _ (.object os) hobj
  · constructor
    · intro hcount
      obtain rfl : ds = [] := List.length_eq_zero_iff.mp hcount
      exact eq_symm hold hmerge hreconstructs
    · intro heq
      rw [hempty (eq_symm hmerge hold heq)]
      rfl
  · have hsame := JsonParser.diffValues_empty_of_eq hold hold hself
      (JsonParser.eq_mergeValues_of_eq hold hold hself (eq_self hold))
    rw [hes] at hsame
    dsimp only at hsame
    rw [hdiffSelf, hsame]

/-- `{"a":{"b":1},"c":2,"e":"x"}` -/
def oldMembers : List (Bytes × JsonValue UInt32) :=
  [([0x61], .object [([0x62], .number 1)]), ([0x63], .number 2), ([0x65], .string [0x78])]

/-- `{"c":2,"a":{"b":3,"d":true}}` -/
def newMembers : List (Bytes × JsonValue UInt32) :=
  [([0x63], .number 2), ([0x61], .object [([0x62], .number 3), ([0x64], .bool true)])]

theorem distinctNames_oldMembers : DistinctNames (.object oldMembers) := by
  refine .object (by decide) ?_
  simp only [oldMembers, List.forall_mem_cons]
  refine ⟨.object (by decide) ?_, .number 2, .string [0x78], fun _ h => nomatch h⟩
  simp only [List.forall_mem_cons]
  exact ⟨.number 1, fun _ h => nomatch h⟩

theorem distinctNames_newMembers : DistinctNames (.object newMembers) := by
  refine .object (by decide) ?_
  simp only [newMembers, List.forall_mem_cons]
  refine ⟨.number 2, .object (by decide) ?_, fun _ h => nomatch h⟩
  simp only [List.forall_mem_cons]
  exact ⟨.number 3, .bool true, fun _ h => nomatch h⟩

theorem diffReconstructs_diffValues_nested :
    ∃ d, JsonParser.diffValues .null (.object oldMembers) (.object newMembers) = (.success, d) ∧
      d.isObject = true ∧ DiffReconstructs (.object oldMembers) (.object newMembers) d ∧
      JsonParser.diffValues .null (.object oldMembers) (.object oldMembers) =
        (.success, .object []) :=
  diffReconstructs_diffValues .null (.object oldMembers) (.object newMembers)
    distinctNames_oldMembers distinctNames_newMembers rfl rfl

example : (JsonParser.diffValues .null (.object oldMembers) (.object newMembers)).2 =
    .object [([0x61], .object [([0x62], .number 3), ([0x64], .bool true)])] := rfl

end AwsIotSdk
