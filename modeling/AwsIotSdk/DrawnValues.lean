import Mathlib.Logic.Function.Iterate

/-! Values that an operation hands out one after the other from a counter. What happens
between two calls is free, as long as it leaves the counter alone. -/

namespace DrawnValues

variable {S I K : Type}

/-- The values handed out on the way from a state to another, in their order. -/
inductive Draws (next : S → I × S) (counter : S → K) (s : S) : List I → S → Prop
  | start : Draws next counter s [] s
  | between {ids : List I} {t u : S} : Draws next counter s ids t → counter u = counter t →
      Draws next counter s ids u
  | call {ids : List I} {t : S} : Draws next counter s ids t →
      Draws next counter s (ids ++ [(next t).1]) (next t).2

/-- The operation depends on the counter only, and takes it on. -/
structure Counts (next : S → I × S) (counter : S → K) (value : K → I) (advance : K → K) :
    Prop where
  value : ∀ s, (next s).1 = value (counter s)
  advance : ∀ s, counter (next s).2 = advance (counter s)

namespace Draws

variable {next : S → I × S} {counter : S → K} {value : K → I} {advance : K → K} {s t : S}
  {ids : List I}

theorem counter_eq (hc : Counts next counter value advance) (h : Draws next counter s ids t) :
    counter t = advance^[ids.length] (counter s) := by
  induction h with
  | start => rfl
  | between _ hsame ih => rw [hsame, ih]
  | call _ ih => rw [hc.advance, ih, List.length_append, List.length_singleton,
      Function.iterate_succ_apply']

theorem getElem_eq (hc : Counts next counter value advance) (h : Draws next counter s ids t)
    (n : Nat) (hn : n < ids.length) : ids[n] = value (advance^[n] (counter s)) := by
  induction h with
  | start => simp at hn
  | between _ _ ih => exact ih hn
  | @call ids t hdraws ih =>
    by_cases hlast : n < ids.length
    · rw [List.getElem_append_left hlast]
      exact ih hlast
    · have hn' : n = ids.length := by
        rw [List.length_append, List.length_singleton] at hn
        omega
      subst hn'
      rw [List.getElem_concat_length rfl, hc.value, counter_eq hc hdraws]

end Draws

end DrawnValues
