import Mathlib.Data.List.Basic

/-! A list combined, element by element, with the elements of a sequence from a place on. -/

namespace Keystream

variable {α κ : Type} (f : α → κ → α) (key : Nat → κ)

def combine : (start : Nat) → List α → List α
  | _, [] => []
  | start, a :: as => f a (key start) :: combine (start + 1) as

@[simp] theorem length_combine (start : Nat) (as : List α) :
    (combine f key start as).length = as.length := by
  induction as generalizing start with
  | nil => rfl
  | cons a as ih => simp [combine, ih]

theorem combine_append (start : Nat) (as bs : List α) :
    combine f key start (as ++ bs) =
      combine f key start as ++ combine f key (start + as.length) bs := by
  induction as generalizing start with
  | nil => simp [combine]
  | cons a as ih =>
    have hstart : start + 1 + as.length = start + (as.length + 1) := by omega
    simp [combine, ih, hstart]

theorem take_combine (start n : Nat) (as : List α) :
    (combine f key start as).take n = combine f key start (as.take n) := by
  induction as generalizing start n with
  | nil => simp [combine]
  | cons a as ih =>
    cases n with
    | zero => rfl
    | succ n => simp [combine, ih]

/-- Where a key element undoes itself, the whole sequence does. -/
theorem combine_combine (hf : ∀ a k, f (f a k) k = a) (start : Nat) (as : List α) :
    combine f key start (combine f key start as) = as := by
  induction as generalizing start with
  | nil => rfl
  | cons a as ih => simp [combine, hf, ih]

end Keystream
