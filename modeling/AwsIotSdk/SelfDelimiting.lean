import Mathlib.Data.List.Basic

/-! Items written one after the other, each of which says where it ends. A reader takes
them off again from any part of the text that has come so far. -/

namespace SelfDelimiting

variable {α β : Type}

/-- The reader takes the text of an item and nothing behind it. -/
structure Taken (take : List β → Option (α × List β)) (x : List β × α) : Prop where
  ne_nil : x.1 ≠ []
  taken : ∀ rest, take (x.1 ++ rest) = some (x.2, rest)

/-- The items at the front of a text, and what is left of it. -/
def takeAll (take : List β → Option (α × List β)) : Nat → List β → List α × List β
  | 0, buf => ([], buf)
  | fuel + 1, buf =>
    match take buf with
    | none => ([], buf)
    | some (a, rest) => (a :: (takeAll take fuel rest).1, (takeAll take fuel rest).2)

def joined (xs : List (List β × α)) : List β := xs.flatMap Prod.fst

variable {take : List β → Option (α × List β)} {xs : List (List β × α)}

@[simp] theorem joined_nil : joined ([] : List (List β × α)) = [] := rfl

@[simp] theorem joined_cons (x : List β × α) (xs : List (List β × α)) :
    joined (x :: xs) = x.1 ++ joined xs := rfl

theorem length_le_joined (h : ∀ x ∈ xs, Taken take x) : xs.length ≤ (joined xs).length := by
  induction xs with
  | nil => simp
  | cons x xs ih =>
    obtain ⟨hx, hxs⟩ := List.forall_mem_cons.mp h
    have hpos := List.length_pos_iff.mpr hx.ne_nil
    have hle := ih hxs
    simp only [joined_cons, List.length_cons, List.length_append]
    omega

/-- The reader takes all items of a text off when it has to stop behind them. -/
theorem takeAll_joined (h : ∀ x ∈ xs, Taken take x) {rest : List β} (hrest : take rest = none)
    {fuel : Nat} (hfuel : xs.length ≤ fuel) :
    takeAll take fuel (joined xs ++ rest) = (xs.map Prod.snd, rest) := by
  induction xs generalizing fuel with
  | nil =>
    cases fuel with
    | zero => rfl
    | succ fuel => simp [takeAll, hrest]
  | cons x xs ih =>
    obtain ⟨hx, hxs⟩ := List.forall_mem_cons.mp h
    obtain ⟨fuel, rfl⟩ : ∃ n, fuel = n + 1 := ⟨fuel - 1, by simp at hfuel; omega⟩
    have htaken := hx.taken (joined xs ++ rest)
    have hlater := ih hxs (by simpa using hfuel)
    simp [takeAll, htaken, hlater]

end SelfDelimiting
