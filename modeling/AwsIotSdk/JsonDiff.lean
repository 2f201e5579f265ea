import AwsIotSdk.JsonParser

/-! What merge and difference make of each member, and that merging a difference is
merging the document it came from. -/

namespace AwsIotSdk

open JsonValue

variable {ν : Type}

/-! ### Changing one member -/

section Members

variable {k name : Bytes} {value : JsonValue ν} {ms : List (Bytes × JsonValue ν)}

theorem lookup_setMember (name : Bytes) (value : JsonValue ν) (ms : List (Bytes × JsonValue ν))
    (k : Bytes) : (setMember name value ms).lookup k =
      if k = name then (ms.lookup name).map (fun _ => value) else ms.lookup k := by
  induction ms with
  | nil => simp [setMember]
  | cons m ms ih =>
    rw [setMember]
    by_cases hm : m.1 = name
    · rw [if_pos hm, lookup_cons_eq_ite, lookup_cons_eq_ite, lookup_cons_eq_ite, hm, if_pos rfl]
      split_ifs <;> rfl
    · rw [if_neg hm, lookup_cons_eq_ite, ih, lookup_cons_eq_ite, lookup_cons_eq_ite,
        if_neg (Ne.symm hm)]
      by_cases hk : k = m.1
      · rw [if_pos hk, if_pos hk, if_neg (hk ▸ hm)]
      · rw [if_neg hk, if_neg hk]

theorem names_setMember (name : Bytes) (value : JsonValue ν) (ms : List (Bytes × JsonValue ν)) :
    (setMember name value ms).map Prod.fst = ms.map Prod.fst := by
  induction ms with
  | nil => rfl
  | cons m ms ih =>
    rw [setMember]
    split_ifs with hm
    · rw [List.map_cons, List.map_cons, hm]
    · rw [List.map_cons, List.map_cons, ih]

theorem names_eraseMember (name : Bytes) (ms : List (Bytes × JsonValue ν)) :
    (eraseMember name ms).map Prod.fst = (ms.map Prod.fst).erase name := by
  induction ms with
  | nil => rfl
  | cons m ms ih =>
    rw [eraseMember, List.map_cons, List.erase_cons]
    by_cases hm : m.1 = name
    · simp [hm]
    · simp [hm, ih]

theorem mem_setMember {x : Bytes × JsonValue ν} (h : x ∈ setMember name value ms) :
    x ∈ ms ∨ x = (name, value) := by
  induction ms with
  | nil => cases h
  | cons m ms ih =>
    rw [setMember] at h
    split_ifs at h with hm
    · rcases List.mem_cons.mp h with h | h
      · exact .inr h
      · exact .inl (List.mem_cons_of_mem m h)
    · rcases List.mem_cons.mp h with rfl | h
      · exact .inl List.mem_cons_self
      · exact (ih h).imp_left (List.mem_cons_of_mem m)

theorem mem_of_mem_eraseMember {x : Bytes × JsonValue ν} (h : x ∈ eraseMember name ms) :
    x ∈ ms := by
  induction ms with
  | nil => cases h
  | cons m ms ih =>
    rw [eraseMember] at h
    split_ifs at h with hm
    · exact List.mem_cons_of_mem m h
    · rcases List.mem_cons.mp h with rfl | h
      · exact List.mem_cons_self
      · exact List.mem_cons_of_mem m (ih h)

theorem lookup_eraseMember_of_ne (hk : k ≠ name) :
    (eraseMember name ms).lookup k = ms.lookup k := by
  induction ms with
  | nil => rfl
  | cons m ms ih =>
    rw [eraseMember]
    split_ifs with hm
    · rw [lookup_cons_eq_ite, if_neg (hm ▸ hk)]
    · rw [lookup_cons_eq_ite, lookup_cons_eq_ite, ih]

theorem lookup_eraseMember_self (hn : (ms.map Prod.fst).count name ≤ 1) :
    (eraseMember name ms).lookup name = none := by
  rw [lookup_eq_none_iff, names_eraseMember, ← List.count_eq_zero, List.count_erase_self]
  omega

theorem lookup_addMember (ms : List (Bytes × JsonValue ν)) (name : Bytes) (value : JsonValue ν)
    (k : Bytes) : (ms ++ [(name, value)]).lookup k =
      (ms.lookup k).or (if k = name then some value else none) := by
  rw [List.lookup_append, lookup_cons_eq_ite]
  rfl

theorem count_addMember (ms : List (Bytes × JsonValue ν)) (name : Bytes) (value : JsonValue ν)
    (k : Bytes) : ((ms ++ [(name, value)]).map Prod.fst).count k =
      (ms.map Prod.fst).count k + if k = name then 1 else 0 := by
  rw [List.map_append, List.count_append, List.map_singleton, List.count_singleton]
  by_cases hk : k = name
  · simp [hk]
  · simp [hk, Ne.symm hk]

theorem nodup_addMember (hn : (ms.map Prod.fst).Nodup) (h : ms.lookup name = none)
    (value : JsonValue ν) : ((ms ++ [(name, value)]).map Prod.fst).Nodup := by
  rw [List.map_append, List.map_singleton, ← List.concat_eq_append]
  exact hn.concat (lookup_eq_none_iff.mp h)

end Members

/-! ### Merge -/

namespace JsonParser

/-- What a merge makes of a name, from its value in the target and in the source. -/
def merged : Option (JsonValue ν) → Option (JsonValue ν) → Option (JsonValue ν)
  | t, none => t
  | none, some s => some s
  | some t, some s => if t.isObject && s.isObject then some (mergeValues t s).2 else some s

/-- Each member of a merge is one of the two or the merge of both. -/
theorem merged_some {t s : Option (JsonValue ν)} {v : JsonValue ν} (h : merged t s = some v) :
    t = some v ∨ s = some v ∨ ∃ t' s', t = some t' ∧ s = some s' ∧
      (t'.isObject && s'.isObject) = true ∧ v = (mergeValues t' s').2 := by
  cases s with
  | none => exact .inl (by rwa [merged] at h)
  | some s =>
    cases t with
    | none => exact .inr (.inl h)
    | some t =>
      rw [merged] at h
      split_ifs at h with hobj
      · cases h
        exact .inr (.inr ⟨t, s, rfl, rfl, hobj, rfl⟩)
      · exact .inr (.inl h)

/-- The value merges into every object if it is one. -/
def Merges (v : JsonValue ν) : Prop :=
  ∀ t, (t.isObject && v.isObject) = true → (mergeValues t v).1 = .success

section Merge

variable {ts ts' ss : List (Bytes × JsonValue ν)} {name : Bytes} {value : JsonValue ν}

/-- What one turn of the loop does with a member of the source. -/
inductive MergeStep (ts : List (Bytes × JsonValue ν)) (name : Bytes) (value : JsonValue ν) :
    List (Bytes × JsonValue ν) → Prop
  | added (h : ts.lookup name = none) : MergeStep ts name value (ts ++ [(name, value)])
  | merged {t : JsonValue ν} (h : ts.lookup name = some t)
      (hobj : (t.isObject && value.isObject) = true) :
      MergeStep ts name value (setMember name (mergeValues t value).2 ts)
  | replaced {t : JsonValue ν} (h : ts.lookup name = some t)
      (hobj : ¬ (t.isObject && value.isObject) = true) :
      MergeStep ts name value (eraseMember name ts ++ [(name, value)])

theorem mergeMembers_cons (hv : Merges value) (ts : List (Bytes × JsonValue ν)) (name : Bytes) :
    ∃ ts', MergeStep ts name value ts' ∧
      ∀ ss, mergeMembers ts ((name, value) :: ss) = mergeMembers ts' ss := by
  cases ht : ts.lookup name with
  | none => exact ⟨_, .added ht, fun ss => by rw [mergeMembers, ht]⟩
  | some t =>
    by_cases hobj : (t.isObject && value.isObject) = true
    · refine ⟨_, .merged ht hobj, fun ss => ?_⟩
      rw [mergeMembers, ht]
      dsimp only
      rw [if_pos hobj, if_neg (fun hne => hne (hv t hobj))]
    · refine ⟨_, .replaced ht hobj, fun ss => ?_⟩
      rw [mergeMembers, ht]
      dsimp only
      rw [if_neg hobj]

theorem MergeStep.lookup {k : Bytes} (h : MergeStep ts name value ts')
    (hn : (ts.map Prod.fst).count k ≤ 1) :
    (ts'.map Prod.fst).count k ≤ 1 ∧
      ts'.lookup k =
        if k = name then JsonParser.merged (ts.lookup name) (some value) else ts.lookup k := by
  cases h with
  | added ht =>
    have hfresh := List.count_eq_zero.mpr (lookup_eq_none_iff.mp ht)
    rw [count_addMember, lookup_addMember]
    by_cases hk : k = name
    · rw [if_pos hk, if_pos hk, if_pos hk, hk, ht, hfresh]
      exact ⟨Nat.le_refl 1, rfl⟩
    · rw [if_neg hk, if_neg hk, if_neg hk, Option.or_none]
      exact ⟨hn, rfl⟩
  | merged ht hobj =>
    refine ⟨names_setMember name _ ts ▸ hn, ?_⟩
    rw [lookup_setMember, ht, JsonParser.merged, if_pos hobj]
    rfl
  | replaced ht hobj =>
    rw [count_addMember, lookup_addMember, names_eraseMember, ht, JsonParser.merged, if_neg hobj]
    by_cases hk : k = name
    · rw [if_pos hk, if_pos hk, if_pos hk, hk, lookup_eraseMember_self (hk ▸ hn),
        List.count_erase_self]
      refine ⟨?_, rfl⟩
      rw [hk] at hn
      omega
    · rw [if_neg hk, if_neg hk, if_neg hk, lookup_eraseMember_of_ne hk, Option.or_none,
        List.count_erase_of_ne hk]
      exact ⟨hn, rfl⟩

theorem MergeStep.lookup_of_ne {k : Bytes} (h : MergeStep ts name value ts') (hk : k ≠ name) :
    ts'.lookup k = ts.lookup k := by
  cases h with
  | added _ => rw [lookup_addMember, if_neg hk, Option.or_none]
  | merged _ _ => rw [lookup_setMember, if_neg hk]
  | replaced _ _ =>
    rw [lookup_addMember, if_neg hk, Option.or_none, lookup_eraseMember_of_ne hk]

theorem MergeStep.isSome_lookup (h : MergeStep ts name value ts') :
    (ts'.lookup name).isSome = true := by
  cases h with
  | added _ | replaced _ _ => simp [lookup_addMember]
  | merged ht _ => simp [lookup_setMember, ht]

theorem mergeMembers_success (h : ∀ m ∈ ss, Merges m.2) (ts : List (Bytes × JsonValue ν)) :
    (mergeMembers ts ss).1 = .success := by
  induction ss generalizing ts with
  | nil => rfl
  | cons m ss ih =>
    obtain ⟨hm, hrest⟩ := List.forall_mem_cons.mp h
    obtain ⟨ts', -, hloop⟩ := mergeMembers_cons hm ts m.1
    rw [hloop]
    exact ih hrest ts'

theorem merges : (v : JsonValue ν) → Merges v
  | .object ss => by
    intro t ht
    cases t with
    | object ts => exact mergeMembers_success (fun m hm => merges m.2) ts
    | _ => cases ht
  | .null | .bool _ | .number _ | .string _ | .array _ => by
    intro t ht
    simp [isObject] at ht
termination_by v => sizeOf v
decreasing_by
  have hlt := List.sizeOf_lt_of_mem hm
  obtain ⟨name, value⟩ := m
  simp only [Prod.mk.sizeOf_spec, JsonValue.object.sizeOf_spec] at *
  omega

theorem mergeValues_objects (ts ss : List (Bytes × JsonValue ν)) :
    mergeValues (.object ts) (.object ss) = (.success, .object (mergeMembers ts ss).2) := by
  rw [mergeValues, mergeMembers_success (fun m _ => merges m.2)]

theorem mergeValues_of_not_object (t : JsonValue ν) {s : JsonValue ν} (hs : s.isObject = false) :
    mergeValues t s = (.jsonMergeFailed, t) := by
  cases s with
  | object ss => cases hs
  | _ => cases t <;> simp [mergeValues]

theorem isObject_mergeValues {t : JsonValue ν} (ht : t.isObject = true) (s : JsonValue ν) :
    (mergeValues t s).2.isObject = true := by
  obtain ⟨ts, rfl⟩ := isObject_iff.mp ht
  cases hs : s.isObject with
  | true =>
    obtain ⟨ss, rfl⟩ := isObject_iff.mp hs
    rw [mergeValues_objects]
    rfl
  | false =>
    rw [mergeValues_of_not_object _ hs]
    rfl

theorem lookup_mergeMembers {k : Bytes} (hs : (ss.map Prod.fst).count k ≤ 1)
    (ht : (ts.map Prod.fst).count k ≤ 1) :
    ((mergeMembers ts ss).2.map Prod.fst).count k ≤ 1 ∧
      (mergeMembers ts ss).2.lookup k = merged (ts.lookup k) (ss.lookup k) := by
  induction ss generalizing ts with
  | nil => exact ⟨ht, rfl⟩
  | cons m ss ih =>
    obtain ⟨ts', hstep, hloop⟩ := mergeMembers_cons (merges m.2) ts m.1
    obtain ⟨hcount, hlookup⟩ := hstep.lookup ht
    rw [List.map_cons, List.count_cons] at hs
    obtain ⟨hresult, hall⟩ := ih (by omega) hcount
    rw [hloop]
    refine ⟨hresult, ?_⟩
    rw [hall, hlookup, lookup_cons_eq_ite]
    by_cases hk : k = m.1
    · have hfresh : ss.lookup k = none := by
        rw [lookup_eq_none_iff, ← List.count_eq_zero]
        simp only [hk, beq_self_eq_true, if_true] at hs ⊢
        omega
      rw [if_pos hk, if_pos hk, hfresh, hk]
      rfl
    · rw [if_neg hk, if_neg hk]

/-- What holds of the members of both documents, and is kept when two objects are merged,
holds of the members of the merge. -/
theorem forall_mergeMembers {P : Bytes → JsonValue ν → Prop}
    (hmerge : ∀ k t s, P k t → P k s → (t.isObject && s.isObject) = true →
      P k (mergeValues t s).2)
    (ht : ∀ m ∈ ts, P m.1 m.2) (hs : ∀ m ∈ ss, P m.1 m.2) :
    ∀ m ∈ (mergeMembers ts ss).2, P m.1 m.2 := by
  induction ss generalizing ts with
  | nil => exact ht
  | cons m ss ih =>
    obtain ⟨hm, hrest⟩ := List.forall_mem_cons.mp hs
    obtain ⟨ts', hstep, hloop⟩ := mergeMembers_cons (merges m.2) ts m.1
    rw [hloop]
    refine ih ?_ hrest
    intro x hx
    cases hstep with
    | added _ =>
      rcases List.mem_append.mp hx with hx | hx
      · exact ht x hx
      · exact List.mem_singleton.mp hx ▸ hm
    | merged hlookup hobj =>
      rcases mem_setMember hx with hx | rfl
      · exact ht x hx
      · exact hmerge _ _ _ (ht _ (mem_of_lookup hlookup)) hm hobj
    | replaced _ _ =>
      rcases List.mem_append.mp hx with hx | hx
      · exact ht x (mem_of_mem_eraseMember hx)
      · exact List.mem_singleton.mp hx ▸ hm

theorem isSome_lookup_mergeMembers {k : Bytes} (ht : (ts.lookup k).isSome = true)
    (ss : List (Bytes × JsonValue ν)) : ((mergeMembers ts ss).2.lookup k).isSome = true := by
  induction ss generalizing ts with
  | nil => exact ht
  | cons m ss ih =>
    obtain ⟨ts', hstep, hloop⟩ := mergeMembers_cons (merges m.2) ts m.1
    rw [hloop]
    refine ih ?_
    by_cases hk : k = m.1
    · exact hk ▸ hstep.isSome_lookup
    · rwa [hstep.lookup_of_ne hk]

/-- An object stays where it is when all that is merged into it are objects. -/
theorem lookup_mergeMembers_object {k : Bytes} {cs : List (Bytes × JsonValue ν)}
    (ht : ts.lookup k = some (.object cs)) (hs : ∀ m ∈ ss, m.1 = k → m.2.isObject = true) :
    ∃ es, (mergeMembers ts ss).2.lookup k = some (.object es) ∧
      ∀ name, (cs.lookup name).isSome = true → (es.lookup name).isSome = true := by
  induction ss generalizing ts cs with
  | nil => exact ⟨cs, ht, fun _ h => h⟩
  | cons m ss ih =>
    obtain ⟨hm, hrest⟩ := List.forall_mem_cons.mp hs
    obtain ⟨ts', hstep, hloop⟩ := mergeMembers_cons (merges m.2) ts m.1
    rw [hloop]
    by_cases hk : k = m.1
    · obtain ⟨ns, hns⟩ := isObject_iff.mp (hm hk.symm)
      have hmerged : ts'.lookup k = some (.object (mergeMembers cs ns).2) := by
        cases hstep with
        | added h => simp [← hk, ht] at h
        | merged h _ =>
          rw [← hk, ht] at h
          cases h
          rw [← hk, lookup_setMember, if_pos rfl, ht, hns, mergeValues_objects]
          rfl
        | replaced h hobj =>
          rw [← hk, ht] at h
          cases h
          exact absurd (by rw [hns]; rfl) hobj
      obtain ⟨es, hes, hnames⟩ := ih hmerged hrest
      exact ⟨es, hes, fun name h => hnames name (isSome_lookup_mergeMembers h ns)⟩
    · exact ih (by rw [hstep.lookup_of_ne hk, ht]) hrest

theorem mergeValues_object (hs : DistinctNames (.object ss)) (ht : (ts.map Prod.fst).Nodup) :
    ∃ ms, mergeValues (.object ts) (.object ss) = (.success, .object ms) ∧
      (ms.map Prod.fst).Nodup ∧ ∀ k, ms.lookup k = merged (ts.lookup k) (ss.lookup k) := by
  have hlookup := fun k => lookup_mergeMembers (List.nodup_iff_count_le_one.mp hs.names k)
    (List.nodup_iff_count_le_one.mp ht k)
  refine ⟨_, mergeValues_objects ts ss, ?_, fun k => (hlookup k).2⟩
  exact List.nodup_iff_count_le_one.mpr (fun k => (hlookup k).1)

theorem distinctNames_mergeValues {t s : JsonValue ν} (ht : DistinctNames t)
    (hs : DistinctNames s) (hobj : (t.isObject && s.isObject) = true) :
    DistinctNames (mergeValues t s).2 := by
  induction hs generalizing t with
  | @object ss hn hss ih =>
    cases ht with
    | @object ts hts hmembers =>
      obtain ⟨ms, hmerge, hms, hlookup⟩ := mergeValues_object (.object hn hss) hts
      rw [hmerge]
      refine DistinctNames.of_lookup hms ?_
      intro k v hv
      rw [hlookup] at hv
      rcases merged_some hv with ht | hs | ⟨t, s, ht, hs, hobjs, rfl⟩
      · exact hmembers (k, v) (mem_of_lookup ht)
      · exact hss (k, v) (mem_of_lookup hs)
      · exact ih (k, s) (mem_of_lookup hs) (hmembers (k, t) (mem_of_lookup ht)) hobjs
    | _ => cases hobj
  | _ => simp [isObject] at hobj

end Merge

/-! ### Difference -/

section Diff

variable [JsonNumber ν]

/-- What the difference has for a name, from its value in the old and in the new
document. -/
def differing : Option (JsonValue ν) → Option (JsonValue ν) → Option (JsonValue ν)
  | _, none => none
  | none, some n => some n
  | some o, some n =>
    if o.eq n then none
    else if o.isObject && n.isObject then
      if 0 < (diffValues (.object []) o n).2.memberCount then
        some (diffValues (.object []) o n).2
      else none
    else some n

theorem differing_none (n : Option (JsonValue ν)) : differing none n = n := by
  cases n <;> rfl

/-- A member the old document has too is the new one's or the difference of both. -/
theorem differing_some {o d : JsonValue ν} {n : Option (JsonValue ν)}
    (h : differing (some o) n = some d) : ∃ m, n = some m ∧ o.eq m = false ∧
      ((o.isObject && m.isObject) = true ∧ d = (diffValues (.object []) o m).2 ∨
        ¬ (o.isObject && m.isObject) = true ∧ d = m) := by
  cases n with
  | none => cases h
  | some m =>
    rw [differing] at h
    split_ifs at h with heq hobj <;> cases h
    · exact ⟨m, rfl, Bool.eq_false_iff.mpr heq, .inl ⟨hobj, rfl⟩⟩
    · exact ⟨d, rfl, Bool.eq_false_iff.mpr heq, .inr ⟨hobj, rfl⟩⟩

/-- The value differs from every object without an error if it is one. -/
def Diffs (v : JsonValue ν) : Prop :=
  ∀ o, (o.isObject && v.isObject) = true → (diffValues (.object []) o v).1 = .success

variable {target os ns : List (Bytes × JsonValue ν)} {name : Bytes} {value : JsonValue ν}

theorem diffMembers_cons (hv : Diffs value) (target os ns : List (Bytes × JsonValue ν))
    (name : Bytes) : diffMembers target os ((name, value) :: ns) =
      match differing (os.lookup name) (some value) with
      | none => diffMembers target os ns
      | some d => diffMembers (target ++ [(name, d)]) os ns := by
  rw [diffMembers]
  cases ho : os.lookup name with
  | none => rfl
  | some o =>
    dsimp only
    rw [differing]
    by_cases heq : o.eq value = true
    · rw [if_pos heq, if_pos heq]
    · rw [if_neg heq, if_neg heq]
      by_cases hobj : (o.isObject && value.isObject) = true
      · rw [if_pos hobj, if_pos hobj, if_neg (not_not.mpr (hv o hobj))]
        split_ifs <;> rfl
      · rw [if_neg hobj, if_neg hobj]

theorem diffMembers_success (h : ∀ m ∈ ns, Diffs m.2) (target os : List (Bytes × JsonValue ν)) :
    (diffMembers target os ns).1 = .success := by
  induction ns generalizing target with
  | nil => rfl
  | cons m ns ih =>
    obtain ⟨hm, hrest⟩ := List.forall_mem_cons.mp h
    rw [diffMembers_cons hm]
    split
    · exact ih hrest _
    · exact ih hrest _

theorem lookup_diffMembers (os : List (Bytes × JsonValue ν)) (h : ∀ m ∈ ns, Diffs m.2)
    (hn : (ns.map Prod.fst).Nodup) (ht : (target.map Prod.fst).Nodup)
    (hfresh : ∀ name ∈ ns.map Prod.fst, target.lookup name = none) :
    ((diffMembers target os ns).2.map Prod.fst).Nodup ∧
      ∀ k, (diffMembers target os ns).2.lookup k =
        (target.lookup k).or (differing (os.lookup k) (ns.lookup k)) := by
  induction ns generalizing target with
  | nil =>
    refine ⟨ht, fun k => ?_⟩
    rw [List.lookup_nil, differing, Option.or_none]
    rfl
  | cons m ns ih =>
    obtain ⟨hm, hrest⟩ := List.forall_mem_cons.mp h
    obtain ⟨hnew, hns⟩ := List.nodup_cons.mp hn
    obtain ⟨hname, hnames⟩ := List.forall_mem_cons.mp hfresh
    rw [diffMembers_cons hm]
    cases hd : differing (os.lookup m.1) (some m.2) with
    | none =>
      obtain ⟨hnodup, hlookup⟩ := ih hrest hns ht hnames
      refine ⟨hnodup, fun k => ?_⟩
      rw [hlookup, lookup_cons_eq_ite]
      by_cases hk : k = m.1
      · rw [if_pos hk, hk, hd, lookup_eq_none_iff.mpr hnew, differing]
      · rw [if_neg hk]
    | some d =>
      have hadd : ((target ++ [(m.1, d)]).map Prod.fst).Nodup := nodup_addMember ht hname d
      have hothers : ∀ name ∈ ns.map Prod.fst, (target ++ [(m.1, d)]).lookup name = none := by
        intro name hmem
        have hne : name ≠ m.1 := fun heq => hnew (heq ▸ hmem)
        rw [lookup_addMember, hnames name hmem, if_neg hne]
        rfl
      obtain ⟨hnodup, hlookup⟩ := ih hrest hns hadd hothers
      refine ⟨hnodup, fun k => ?_⟩
      rw [hlookup, lookup_cons_eq_ite, lookup_addMember]
      by_cases hk : k = m.1
      · rw [if_pos hk, if_pos hk, hk, hd, hname]
        rfl
      · rw [if_neg hk, if_neg hk, Option.or_none]

theorem diffs_of_distinctNames {v : JsonValue ν} (hv : DistinctNames v) : Diffs v := by
  induction hv with
  | @object ns _ _ ih =>
    intro o ho
    cases o with
    | object os => exact diffMembers_success ih [] os
    | _ => cases ho
  | _ =>
    intro o ho
    cases o <;> cases ho

/-- The difference of two objects, member by member. -/
theorem diffValues_object (hn : DistinctNames (.object ns)) (target : JsonValue ν)
    (os : List (Bytes × JsonValue ν)) :
    ∃ ds, diffValues target (.object os) (.object ns) = (.success, .object ds) ∧
      (ds.map Prod.fst).Nodup ∧ ∀ k, ds.lookup k = differing (os.lookup k) (ns.lookup k) := by
  have hdiffs : ∀ m ∈ ns, Diffs m.2 := by
    intro m hm
    exact diffs_of_distinctNames (hn.lookup (lookup_of_mem hn.names hm))
  have hnil : (([] : List (Bytes × JsonValue ν)).map Prod.fst).Nodup := List.nodup_nil
  obtain ⟨hnodup, hlookup⟩ := lookup_diffMembers os hdiffs hn.names hnil (fun _ _ => rfl)
  refine ⟨(diffMembers [] os ns).2, ?_, hnodup, hlookup⟩
  rw [diffValues, diffMembers_success hdiffs]

end Diff

end JsonParser

end AwsIotSdk
