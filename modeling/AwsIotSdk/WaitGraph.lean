import Mathlib.Data.Set.Insert

/-! Threads that hold and wait for mutexes. A thread waits for at most one
mutex at a time and a mutex has at most one owner. -/

structure WaitGraph (T L : Type) where
  owner : L → Option T
  wants : T → Option L

namespace WaitGraph

variable {T L : Type}

def BlockedBy (g : WaitGraph T L) (t u : T) : Prop :=
  ∃ l, g.wants t = some l ∧ g.owner l = some u

/-- Some threads each wait for a mutex that another one of them holds. -/
def CircularWait (g : WaitGraph T L) : Prop :=
  ∃ ts : Set T, ts.Nonempty ∧ ∀ t ∈ ts, ∃ u ∈ ts, u ≠ t ∧ g.BlockedBy t u

/-- Every wanted mutex ranks above all mutexes its thread holds. -/
def Ordered (g : WaitGraph T L) (rank : L → Nat) : Prop :=
  ∀ t l held, g.wants t = some l → g.owner held = some t → rank held < rank l

theorem CircularWait.rank_unbounded {g : WaitGraph T L} {rank : L → Nat} {ts : Set T}
    (hne : ts.Nonempty) (hts : ∀ t ∈ ts, ∃ u ∈ ts, u ≠ t ∧ g.BlockedBy t u)
    (ho : g.Ordered rank) (k : Nat) :
    ∃ t ∈ ts, ∃ l, g.wants t = some l ∧ k ≤ rank l := by
  induction k with
  | zero =>
    obtain ⟨t, ht⟩ := hne
    obtain ⟨_, _, _, l, hl, _⟩ := hts t ht
    exact ⟨t, ht, l, hl, Nat.zero_le _⟩
  | succ k ih =>
    obtain ⟨t, ht, l, hl, hk⟩ := ih
    obtain ⟨u, hu, _, l', hl', hown⟩ := hts t ht
    obtain ⟨_, _, _, m, hm, _⟩ := hts u hu
    have he : l = l' := Option.some.inj (hl.symm.trans hl')
    subst he
    have hr := ho u m l hm hown
    exact ⟨u, hu, m, hm, by omega⟩

theorem Ordered.not_circularWait {g : WaitGraph T L} {rank : L → Nat} {bound : Nat}
    (ho : g.Ordered rank) (hb : ∀ l, rank l ≤ bound) : ¬ g.CircularWait := by
  rintro ⟨ts, hne, hts⟩
  obtain ⟨_, _, l, _, hl⟩ := CircularWait.rank_unbounded hne hts ho (bound + 1)
  have := hb l
  omega

theorem circularWait_of_pair {g : WaitGraph T L} {t u : T} (hne : t ≠ u)
    (htu : g.BlockedBy t u) (hut : g.BlockedBy u t) : g.CircularWait := by
  refine ⟨{t, u}, ⟨t, by simp⟩, ?_⟩
  intro x hx
  rcases hx with rfl | rfl
  · exact ⟨u, by simp, hne.symm, htu⟩
  · exact ⟨t, by simp, hne, hut⟩

end WaitGraph
