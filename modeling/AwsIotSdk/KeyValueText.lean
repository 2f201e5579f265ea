import Mathlib.Data.List.Basic

/-! Named values in a text, with one sign between the entries and another one behind each name. -/

namespace KeyValueText

variable {α : Type*}

def join (sep : α) (entry : List α × List α) : List α := entry.1 ++ sep :: entry.2

def serialize (outer inner : α) (entries : List (List α × List α)) : List α :=
  [outer].intercalate (entries.map (join inner))

theorem serialize_append {outer inner : α} {entries more : List (List α × List α)}
    (hne : entries ≠ []) (hmore : more ≠ []) :
    serialize outer inner (entries ++ more) =
      serialize outer inner entries ++ outer :: serialize outer inner more := by
  induction entries with
  | nil => exact absurd rfl hne
  | cons entry entries ih =>
    cases entries with
    | nil => simp [serialize, List.intercalate_cons_of_ne_nil, hmore]
    | cons next entries =>
      have ih := ih (List.cons_ne_nil next entries)
      simp only [serialize, List.cons_append, List.map_cons, List.intercalate_cons_cons] at ih ⊢
      rw [ih]
      simp

theorem not_mem_serialize {outer inner a : α} (hsigns : a ≠ outer ∧ a ≠ inner)
    {entries : List (List α × List α)} (h : ∀ entry ∈ entries, a ∉ entry.1 ∧ a ∉ entry.2) :
    a ∉ serialize outer inner entries := by
  induction entries with
  | nil => exact List.not_mem_nil
  | cons entry entries ih =>
    obtain ⟨hentry, hentries⟩ := List.forall_mem_cons.mp h
    have hjoin : a ∉ join inner entry := by simp [join, hentry.1, hentry.2, hsigns.2]
    have ih := ih hentries
    cases entries with
    | nil => simpa [serialize] using hjoin
    | cons next entries =>
      rw [serialize, List.map_cons, List.map_cons, List.intercalate_cons_cons]
      rw [serialize, List.map_cons] at ih
      simp [hjoin, hsigns.1, ih]

variable [DecidableEq α]

/-- The parts in front of the first sign and behind it. -/
def cut (sep : α) (l : List α) : List α × List α :=
  (l.takeWhile (· ≠ sep), (l.dropWhile (· ≠ sep)).tail)

def parse (outer inner : α) (l : List α) : List (List α × List α) := (l.splitOn outer).map (cut inner)

/-- The signs do not stand in the entry where they would be taken for the ones between. -/
structure Separable (outer inner : α) (entry : List α × List α) : Prop where
  name : outer ∉ entry.1 ∧ inner ∉ entry.1
  value : outer ∉ entry.2

theorem cut_join {sep : α} {entry : List α × List α} (h : sep ∉ entry.1) :
    cut sep (join sep entry) = entry := by
  have hne : ∀ a ∈ entry.1, decide (a ≠ sep) = true := by
    intro a ha
    rw [decide_eq_true_eq]
    rintro rfl
    exact h ha
  rw [cut, join, List.takeWhile_append_of_pos hne, List.dropWhile_append_of_pos hne]
  simp

theorem parse_serialize {outer inner : α} (hsigns : outer ≠ inner) {entries : List (List α × List α)}
    (hne : entries ≠ []) (h : ∀ entry ∈ entries, Separable outer inner entry) :
    parse outer inner (serialize outer inner entries) = entries := by
  have houter : ∀ l ∈ entries.map (join inner), outer ∉ l := by
    intro l hl
    obtain ⟨entry, hentry, rfl⟩ := List.mem_map.mp hl
    have hsep := h entry hentry
    simp [join, hsep.name.1, hsep.value, hsigns]
  rw [parse, serialize, List.splitOn_intercalate outer houter (by simpa using hne), List.map_map]
  refine (List.map_congr_left fun entry hentry => ?_).trans (List.map_id _)
  exact cut_join (h entry hentry).name.2

end KeyValueText
