import Mathlib.Logic.Relation

/-! Runs of a partial step function whose moves are chosen by a scheduler, and
the induction rule for runs in which every step meets a condition. -/

namespace Transition

variable {S M : Type}

/-- States reached from `init` by runs in which every taken move meets `cond`
in the state before it. -/
inductive Reachable (step : S → M → Option S) (cond : S → M → Prop) (init : S) : S → Prop
  | refl : Reachable step cond init init
  | tail {s t : S} {m : M} : Reachable step cond init s → cond s m → step s m = some t →
      Reachable step cond init t

def anyMove (_ : S) (_ : M) : Prop := True

theorem Reachable.invariant {step : S → M → Option S} {cond : S → M → Prop} {init s : S}
    {P : S → Prop} (hinit : P init)
    (hstep : ∀ s m t, P s → cond s m → step s m = some t → P t)
    (h : Reachable step cond init s) : P s := by
  induction h with
  | refl => exact hinit
  | tail _ hc hs ih => exact hstep _ _ _ ih hc hs

theorem Reachable.trans {step : S → M → Option S} {cond : S → M → Prop} {a b c : S}
    (h : Reachable step cond a b) (h' : Reachable step cond b c) :
    Reachable step cond a c := by
  induction h' with
  | refl => exact h
  | tail _ hm hs ih => exact .tail ih hm hs

def run (step : S → M → Option S) : S → List M → Option S
  | s, [] => some s
  | s, m :: ms => (step s m).bind (fun t => run step t ms)

theorem reachable_of_run {step : S → M → Option S} {ms : List M} {s t : S}
    (h : run step s ms = some t) : Reachable step anyMove s t := by
  induction ms generalizing s with
  | nil =>
    simp only [run, Option.some.injEq] at h
    exact h ▸ .refl
  | cons m ms ih =>
    simp only [run, Option.bind_eq_some_iff] at h
    obtain ⟨u, hu, hrest⟩ := h
    exact (Reachable.tail .refl trivial hu).trans (ih hrest)

def runWhile (step : S → M → Option S) (test : S → M → Bool) : S → List M → Option S
  | s, [] => some s
  | s, m :: ms => if test s m then (step s m).bind (fun t => runWhile step test t ms) else none

/-- A run whose moves pass the test meets a condition that follows from the test
and from what the run keeps. -/
theorem reachable_of_runWhile {step : S → M → Option S} {test : S → M → Bool}
    {cond : S → M → Prop} {P : S → Prop}
    (hkeep : ∀ s m t, P s → test s m = true → step s m = some t → P t)
    (hc : ∀ s m, P s → test s m = true → cond s m) {ms : List M} {s t : S} (hs : P s)
    (h : runWhile step test s ms = some t) : Reachable step cond s t := by
  induction ms generalizing s with
  | nil =>
    simp only [runWhile, Option.some.injEq] at h
    exact h ▸ .refl
  | cons m ms ih =>
    rw [runWhile] at h
    split at h
    next hm =>
      obtain ⟨u, hu, hrest⟩ := Option.bind_eq_some_iff.mp h
      exact (Reachable.tail .refl (hc s m hs hm) hu).trans (ih (hkeep s m u hs hm hu) hrest)
    next => cases h

end Transition
