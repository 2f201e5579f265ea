import Mathlib.Data.List.Lex
import Mathlib.Order.Lattice

/-! Finite maps in key order, with the operations of an ordered associative
container: `insert` keeps the value of a key that is already present, and the
entries are visited in increasing key order. -/

structure SortedMap (κ ν : Type) [LinearOrder κ] where
  entries : List (κ × ν)
  sorted : entries.Pairwise (fun a b => a.1 < b.1)

namespace SortedMap

variable {κ ν : Type} [LinearOrder κ]

def empty : SortedMap κ ν := ⟨[], .nil⟩

def lookup (k : κ) : List (κ × ν) → Option ν
  | [] => none
  | e :: es => if e.1 = k then some e.2 else lookup k es

def find (m : SortedMap κ ν) (k : κ) : Option ν := lookup k m.entries

def contains (m : SortedMap κ ν) (k : κ) : Bool := (m.find k).isSome

def insertEntries (k : κ) (v : ν) : List (κ × ν) → List (κ × ν)
  | [] => [(k, v)]
  | e :: es =>
    if k < e.1 then (k, v) :: e :: es
    else if k = e.1 then e :: es
    else e :: insertEntries k v es

theorem mem_insertEntries {k : κ} {v : ν} {a : κ × ν} {es : List (κ × ν)}
    (h : a ∈ insertEntries k v es) : a = (k, v) ∨ a ∈ es := by
  induction es with
  | nil => simpa [insertEntries] using h
  | cons e es ih =>
    unfold insertEntries at h
    split_ifs at h with hlt heq
    · simpa using h
    · exact .inr h
    · rcases List.mem_cons.mp h with rfl | h
      · simp
      · rcases ih h with h | h
        · exact .inl h
        · exact .inr (List.mem_cons_of_mem _ h)

theorem subset_insertEntries (k : κ) (v : ν) (es : List (κ × ν)) : es ⊆ insertEntries k v es := by
  intro a ha
  induction es with
  | nil => cases ha
  | cons e es ih =>
    unfold insertEntries
    split_ifs
    · exact List.mem_cons_of_mem _ ha
    · exact ha
    · rcases List.mem_cons.mp ha with rfl | ha
      · simp
      · exact List.mem_cons_of_mem _ (ih ha)

theorem insertEntries_sorted {k : κ} {v : ν} {es : List (κ × ν)}
    (h : es.Pairwise (fun a b => a.1 < b.1)) :
    (insertEntries k v es).Pairwise (fun a b => a.1 < b.1) := by
  induction es with
  | nil => simp [insertEntries]
  | cons e es ih =>
    have hc := List.pairwise_cons.mp h
    unfold insertEntries
    split_ifs with hlt heq
    · refine List.pairwise_cons.mpr ⟨fun a ha => ?_, h⟩
      rcases List.mem_cons.mp ha with rfl | ha
      · exact hlt
      · exact hlt.trans (hc.1 a ha)
    · exact h
    · refine List.pairwise_cons.mpr ⟨fun a ha => ?_, ih hc.2⟩
      rcases mem_insertEntries ha with rfl | ha
      · exact lt_of_le_of_ne (not_lt.mp hlt) (Ne.symm heq)
      · exact hc.1 a ha

/-- Adds an entry; an existing entry of the same key stays as it is. -/
def insert (m : SortedMap κ ν) (k : κ) (v : ν) : SortedMap κ ν :=
  ⟨insertEntries k v m.entries, insertEntries_sorted m.sorted⟩

def eraseIf (m : SortedMap κ ν) (p : κ → ν → Bool) : SortedMap κ ν :=
  ⟨m.entries.filter (fun e => !p e.1 e.2), m.sorted.filter _⟩

def erase (m : SortedMap κ ν) (k : κ) : SortedMap κ ν := m.eraseIf (fun k' _ => k' = k)

theorem lookup_eq_none {k : κ} {es : List (κ × ν)} (h : ∀ e ∈ es, e.1 ≠ k) :
    lookup k es = none := by
  induction es with
  | nil => rfl
  | cons e es ih =>
    rw [lookup, if_neg (h e (by simp))]
    exact ih (fun a ha => h a (by simp [ha]))

theorem lookup_insertEntries_self {k : κ} {v : ν} {es : List (κ × ν)}
    (hs : es.Pairwise (fun a b => a.1 < b.1)) :
    lookup k (insertEntries k v es) = some ((lookup k es).getD v) := by
  induction es with
  | nil => simp [insertEntries, lookup]
  | cons e es ih =>
    have hc := List.pairwise_cons.mp hs
    unfold insertEntries
    split_ifs with hlt heq
    · have hnone : lookup k (e :: es) = none := by
        apply lookup_eq_none
        intro a ha
        rcases List.mem_cons.mp ha with rfl | ha
        · exact hlt.ne'
        · exact (hlt.trans (hc.1 a ha)).ne'
      rw [hnone]
      simp [lookup]
    · simp [lookup, heq]
    · have hne : e.1 ≠ k := fun h => heq h.symm
      simp [lookup, hne, ih hc.2]

theorem lookup_insertEntries_ne {k k' : κ} (h : k' ≠ k) (v : ν) (es : List (κ × ν)) :
    lookup k' (insertEntries k v es) = lookup k' es := by
  induction es with
  | nil => simp [insertEntries, lookup, h.symm]
  | cons e es ih =>
    unfold insertEntries
    split_ifs with hlt heq
    · simp [lookup, h.symm]
    · rfl
    · simp [lookup, ih]

theorem lookup_filter {k : κ} (p : κ × ν → Bool) {es : List (κ × ν)}
    (hs : es.Pairwise (fun a b => a.1 < b.1)) :
    lookup k (es.filter p) = (lookup k es).filter (fun v => p (k, v)) := by
  induction es with
  | nil => rfl
  | cons e es ih =>
    have hc := List.pairwise_cons.mp hs
    obtain ⟨k', v⟩ := e
    by_cases hk : k' = k
    · subst hk
      have hr := ih hc.2
      rw [lookup_eq_none (fun a ha => (hc.1 a ha).ne')] at hr
      by_cases hp : p (k', v) = true <;> simp [lookup, Option.filter, hp, hr]
    · by_cases hp : p (k', v) = true <;> simp [lookup, hp, hk, ih hc.2]

@[simp] theorem find_empty (k : κ) : (empty : SortedMap κ ν).find k = none := rfl

theorem find_insert_self (m : SortedMap κ ν) (k : κ) (v : ν) :
    (m.insert k v).find k = some ((m.find k).getD v) :=
  lookup_insertEntries_self m.sorted

theorem insertEntries_insertEntries (k : κ) (v : ν) (es : List (κ × ν)) :
    insertEntries k v (insertEntries k v es) = insertEntries k v es := by
  induction es with
  | nil => simp [insertEntries]
  | cons e es ih =>
    by_cases hlt : k < e.1
    · simp [insertEntries, hlt]
    · by_cases heq : k = e.1
      · simp [insertEntries, heq]
      · simp [insertEntries, hlt, heq, ih]

theorem insert_insert_self (m : SortedMap κ ν) (k : κ) (v : ν) :
    (m.insert k v).insert k v = m.insert k v := by
  simp only [insert, mk.injEq]
  exact insertEntries_insertEntries k v m.entries

def insertAll (m : SortedMap κ ν) (es : List (κ × ν)) : SortedMap κ ν :=
  es.foldl (fun m e => m.insert e.1 e.2) m

theorem find_insert_of_ne (m : SortedMap κ ν) {k k' : κ} (h : k' ≠ k) (v : ν) :
    (m.insert k v).find k' = m.find k' :=
  lookup_insertEntries_ne h v m.entries

theorem find_insertAll (m : SortedMap κ ν) (es : List (κ × ν)) (k : κ) :
    (m.insertAll es).find k = (m.find k).or (lookup k es) := by
  induction es generalizing m with
  | nil => simp [insertAll, lookup]
  | cons e es ih =>
    rw [insertAll, List.foldl_cons, ← insertAll, ih, lookup]
    by_cases hk : e.1 = k
    · subst hk
      rw [find_insert_self, if_pos rfl]
      cases m.find e.1 <;> rfl
    · rw [find_insert_of_ne m (Ne.symm hk), if_neg hk]

theorem find_eraseIf (m : SortedMap κ ν) (p : κ → ν → Bool) (k : κ) :
    (m.eraseIf p).find k = (m.find k).filter (fun v => !p k v) :=
  lookup_filter _ m.sorted

@[simp] theorem find_erase_self (m : SortedMap κ ν) (k : κ) : (m.erase k).find k = none := by
  simp [erase, find_eraseIf]

theorem find_erase_of_ne (m : SortedMap κ ν) {k k' : κ} (h : k' ≠ k) :
    (m.erase k).find k' = m.find k' := by
  rw [erase, find_eraseIf]
  cases m.find k' <;> simp [Option.filter, h]

theorem mem_of_lookup {k : κ} {v : ν} {es : List (κ × ν)} (h : lookup k es = some v) :
    (k, v) ∈ es := by
  induction es with
  | nil => cases h
  | cons e es ih =>
    rw [lookup] at h
    split_ifs at h with hk
    · cases h
      subst hk
      exact List.mem_cons_self
    · exact List.mem_cons_of_mem e (ih h)

theorem lookup_of_mem {k : κ} {v : ν} {es : List (κ × ν)}
    (hs : es.Pairwise (fun a b => a.1 < b.1)) (h : (k, v) ∈ es) : lookup k es = some v := by
  induction es with
  | nil => cases h
  | cons e es ih =>
    obtain ⟨hfirst, hrest⟩ := List.pairwise_cons.mp hs
    rcases List.mem_cons.mp h with rfl | h
    · simp [lookup]
    · have hne : e.1 ≠ k := (hfirst (k, v) h).ne
      rw [lookup, if_neg hne]
      exact ih hrest h

theorem mem_entries_iff (m : SortedMap κ ν) {k : κ} {v : ν} :
    (k, v) ∈ m.entries ↔ m.find k = some v :=
  ⟨lookup_of_mem m.sorted, mem_of_lookup⟩

end SortedMap
