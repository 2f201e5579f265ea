import AwsIotSdk.ResponseCode

/-! JSON values with the equality of the library that holds them, which ignores the
order of the members of an object. -/

namespace AwsIotSdk

/-- The numbers of the library, of which no document has one that differs from itself. -/
class JsonNumber (ν : Type) where
  eq : ν → ν → Bool
  eq_self : ∀ x, eq x x = true
  eq_comm : ∀ x y, eq x y = eq y x
  getUint : ν → Option UInt32
  ofUint : UInt32 → ν
  getUint_ofUint : ∀ n, getUint (ofUint n) = some n

instance : JsonNumber UInt32 where
  eq a b := a == b
  eq_self := beq_self_eq_true
  eq_comm _ _ := BEq.comm
  getUint a := some a
  ofUint n := n
  getUint_ofUint _ := rfl

inductive JsonValue (ν : Type) where
  | null
  | bool (b : Bool)
  | number (n : ν)
  | string (str : Bytes)
  | array (elements : List (JsonValue ν))
  | object (members : List (Bytes × JsonValue ν))

namespace JsonValue

variable {ν : Type}

def isObject : JsonValue ν → Bool
  | .object _ => true
  | _ => false

def memberCount : JsonValue ν → Nat
  | .object ms => ms.length
  | _ => 0

/-- The member of the name that comes first. -/
def findMember (v : JsonValue ν) (name : Bytes) : Option (JsonValue ν) :=
  match v with
  | .object ms => ms.lookup name
  | _ => none

section Equality

variable [JsonNumber ν]

mutual

def eq : JsonValue ν → JsonValue ν → Bool
  | .null, .null => true
  | .bool a, .bool b => a == b
  | .number a, .number b => JsonNumber.eq a b
  | .string a, .string b => a == b
  | .array xs, .array ys => eqElements xs ys
  | .object xs, .object ys => xs.length == ys.length && eqMembers xs ys
  | _, _ => false

def eqElements : List (JsonValue ν) → List (JsonValue ν) → Bool
  | [], [] => true
  | x :: xs, y :: ys => x.eq y && eqElements xs ys
  | _, _ => false

def eqMembers : List (Bytes × JsonValue ν) → List (Bytes × JsonValue ν) → Bool
  | [], _ => true
  | (name, x) :: xs, ys =>
    (match ys.lookup name with
      | none => false
      | some y => x.eq y) && eqMembers xs ys

end

end Equality

/-- The names of the members are distinct, at every level. -/
inductive DistinctNames : JsonValue ν → Prop
  | null : DistinctNames .null
  | bool (b : Bool) : DistinctNames (.bool b)
  | number (n : ν) : DistinctNames (.number n)
  | string (str : Bytes) : DistinctNames (.string str)
  | array {xs : List (JsonValue ν)} (h : ∀ x ∈ xs, DistinctNames x) : DistinctNames (.array xs)
  | object {ms : List (Bytes × JsonValue ν)} (hn : (ms.map Prod.fst).Nodup)
      (h : ∀ m ∈ ms, DistinctNames m.2) : DistinctNames (.object ms)

/-! ### Members by name -/

section Members

variable {β : Type} {k name : Bytes} {b : β} {ms ms' : List (Bytes × β)}

theorem lookup_cons_eq_ite :
    ((name, b) :: ms).lookup k = if k = name then some b else ms.lookup k := by
  rw [List.lookup_cons]
  by_cases hk : k = name
  · simp [hk]
  · have hne : (k == name) = false := beq_eq_false_iff_ne.mpr hk
    rw [hne, if_neg hk]

theorem mem_of_lookup (h : ms.lookup k = some b) : (k, b) ∈ ms := by
  induction ms with
  | nil => cases h
  | cons m ms ih =>
    rw [lookup_cons_eq_ite] at h
    split_ifs at h with hk
    · cases h
      rw [hk]
      exact List.mem_cons_self
    · exact List.mem_cons_of_mem m (ih h)

theorem lookup_of_mem (hn : (ms.map Prod.fst).Nodup) (h : (k, b) ∈ ms) : ms.lookup k = some b := by
  induction ms with
  | nil => cases h
  | cons m ms ih =>
    obtain ⟨hm, hrest⟩ := List.nodup_cons.mp hn
    rw [lookup_cons_eq_ite]
    rcases List.mem_cons.mp h with h | h
    · rw [← h, if_pos rfl]
    · have hne : k ≠ m.1 := by
        intro hk
        exact hm (hk ▸ List.mem_map.mpr ⟨(k, b), h, rfl⟩)
      rw [if_neg hne, ih hrest h]

theorem lookup_eq_none_iff : ms.lookup k = none ↔ k ∉ ms.map Prod.fst := by
  induction ms with
  | nil => simp
  | cons m ms ih =>
    rw [lookup_cons_eq_ite, List.map_cons, List.mem_cons, not_or]
    by_cases hk : k = m.1
    · simp [hk]
    · rw [if_neg hk, ih]
      simp [hk]

theorem length_eq_of_names (hn : (ms.map Prod.fst).Nodup) (hn' : (ms'.map Prod.fst).Nodup)
    (h : ∀ k, ms.lookup k = none ↔ ms'.lookup k = none) : ms.length = ms'.length := by
  have hperm : (ms.map Prod.fst).Perm (ms'.map Prod.fst) := by
    rw [List.perm_ext_iff_of_nodup hn hn']
    intro k
    have hk := h k
    rw [lookup_eq_none_iff, lookup_eq_none_iff] at hk
    exact not_iff_not.mp hk
  have hlength := hperm.length_eq
  rwa [List.length_map, List.length_map] at hlength

end Members

section Distinct

variable {x : JsonValue ν} {xs : List (Bytes × JsonValue ν)}

theorem DistinctNames.names (h : DistinctNames (.object xs)) : (xs.map Prod.fst).Nodup := by
  cases h with
  | object hn _ => exact hn

theorem DistinctNames.lookup {k : Bytes} (h : DistinctNames (.object xs))
    (hk : xs.lookup k = some x) : DistinctNames x := by
  cases h with
  | object _ h => exact h (k, x) (mem_of_lookup hk)

theorem DistinctNames.of_lookup (hn : (xs.map Prod.fst).Nodup)
    (h : ∀ k v, xs.lookup k = some v → DistinctNames v) : DistinctNames (.object xs) :=
  .object hn (fun m hm => h m.1 m.2 (lookup_of_mem hn hm))

end Distinct

theorem isObject_iff {v : JsonValue ν} : v.isObject = true ↔ ∃ ms, v = .object ms := by
  cases v <;> simp [isObject]

/-! ### Equality of objects with distinct names -/

section Equality

variable [JsonNumber ν] {xs ys : List (Bytes × JsonValue ν)} {x y : JsonValue ν}

/-- The same names stand for equal values. -/
def SameMembers (xs ys : List (Bytes × JsonValue ν)) : Prop :=
  ∀ k, Option.Rel (fun x y => x.eq y = true) (xs.lookup k) (ys.lookup k)

theorem eqMembers_iff : eqMembers xs ys = true ↔
    ∀ m ∈ xs, ∃ y, ys.lookup m.1 = some y ∧ m.2.eq y = true := by
  induction xs with
  | nil => simp [eqMembers]
  | cons m xs ih =>
    rw [eqMembers, Bool.and_eq_true, ih, List.forall_mem_cons]
    cases ys.lookup m.1 <;> simp

theorem SameMembers.lookup_none (h : SameMembers xs ys) (k : Bytes) :
    xs.lookup k = none ↔ ys.lookup k = none := by
  have hk := h k
  generalize xs.lookup k = a at hk
  generalize ys.lookup k = b at hk
  cases hk <;> simp

theorem eq_object_iff (hx : (xs.map Prod.fst).Nodup) (hy : (ys.map Prod.fst).Nodup) :
    (JsonValue.object xs).eq (.object ys) = true ↔ SameMembers xs ys := by
  rw [eq, Bool.and_eq_true, beq_iff_eq, eqMembers_iff]
  constructor
  · intro ⟨hlength, hmembers⟩ k
    have hsubset : xs.map Prod.fst ⊆ ys.map Prod.fst := by
      intro name hname
      obtain ⟨m, hm, rfl⟩ := List.mem_map.mp hname
      obtain ⟨y, hy, -⟩ := hmembers m hm
      exact List.mem_map.mpr ⟨(m.1, y), mem_of_lookup hy, rfl⟩
    have hperm : (xs.map Prod.fst).Perm (ys.map Prod.fst) := by
      refine (List.subperm_of_subset hx hsubset).perm_of_length_le ?_
      rw [List.length_map, List.length_map, hlength]
    cases hk : xs.lookup k with
    | none =>
      have hnone : ys.lookup k = none := by
        rw [lookup_eq_none_iff, ← hperm.mem_iff, ← lookup_eq_none_iff]
        exact hk
      rw [hnone]
      exact .none
    | some x =>
      obtain ⟨y, hy, heq⟩ := hmembers (k, x) (mem_of_lookup hk)
      rw [hy]
      exact .some heq
  · intro h
    refine ⟨length_eq_of_names hx hy h.lookup_none, ?_⟩
    intro m hm
    have hk := h m.1
    rw [lookup_of_mem hx hm] at hk
    cases hyk : ys.lookup m.1 with
    | none =>
      rw [hyk] at hk
      cases hk
    | some y =>
      rw [hyk] at hk
      cases hk with
      | some heq => exact ⟨y, rfl, heq⟩

theorem eqElements_self {xs : List (JsonValue ν)} (h : ∀ x ∈ xs, x.eq x = true) :
    eqElements xs xs = true := by
  induction xs with
  | nil => rfl
  | cons x xs ih =>
    obtain ⟨hx, hxs⟩ := List.forall_mem_cons.mp h
    rw [eqElements, hx, ih hxs]
    rfl

theorem eqElements_symm {xs ys : List (JsonValue ν)}
    (h : ∀ x ∈ xs, ∀ y ∈ ys, x.eq y = true → y.eq x = true) (heq : eqElements xs ys = true) :
    eqElements ys xs = true := by
  induction xs generalizing ys with
  | nil =>
    cases ys with
    | nil => rfl
    | cons y ys => simp [eqElements] at heq
  | cons x xs ih =>
    cases ys with
    | nil => simp [eqElements] at heq
    | cons y ys =>
      rw [eqElements, Bool.and_eq_true] at heq ⊢
      refine ⟨h x List.mem_cons_self y List.mem_cons_self heq.1, ih ?_ heq.2⟩
      exact fun a ha b hb => h a (List.mem_cons_of_mem x ha) b (List.mem_cons_of_mem y hb)

theorem eq_self (h : DistinctNames x) : x.eq x = true := by
  induction h with
  | null => rfl
  | bool b => exact beq_self_eq_true b
  | number n => exact JsonNumber.eq_self n
  | string str => exact beq_self_eq_true str
  | array _ ih => exact eqElements_self ih
  | @object ms hn _ ih =>
    rw [eq_object_iff hn hn]
    intro k
    cases hk : ms.lookup k with
    | none => exact .none
    | some x => exact .some (ih (k, x) (mem_of_lookup hk))

theorem eq_symm (hx : DistinctNames x) (hy : DistinctNames y) (h : x.eq y = true) :
    y.eq x = true := by
  induction hx generalizing y with
  | null => cases y <;> first | rfl | cases h
  | bool b =>
    cases hy with
    | bool b' =>
      rw [eq, beq_iff_eq] at h ⊢
      exact h.symm
    | _ => simp [eq] at h
  | number n =>
    cases hy with
    | number n' => exact (JsonNumber.eq_comm n' n).trans h
    | _ => simp [eq] at h
  | string str =>
    cases hy with
    | string str' =>
      rw [eq, beq_iff_eq] at h ⊢
      exact h.symm
    | _ => simp [eq] at h
  | array _ ih =>
    cases hy with
    | array hys => exact eqElements_symm (fun x hx y hy => ih x hx (hys y hy)) h
    | _ => simp [eq] at h
  | @object xs hnx _ ih =>
    cases hy with
    | @object ys hny hys =>
      rw [eq_object_iff hnx hny] at h
      rw [eq_object_iff hny hnx]
      intro k
      have hk := h k
      cases hxk : xs.lookup k with
      | none =>
        rw [(h.lookup_none k).mp hxk]
        exact .none
      | some x =>
        cases hyk : ys.lookup k with
        | none =>
          rw [(h.lookup_none k).mpr hyk] at hxk
          cases hxk
        | some y =>
          rw [hxk, hyk, Option.rel_some_some] at hk
          exact .some (ih (k, x) (mem_of_lookup hxk) (hys (k, y) (mem_of_lookup hyk)) hk)
    | _ => simp [eq] at h

end Equality

end JsonValue

end AwsIotSdk
