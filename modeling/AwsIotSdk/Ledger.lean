import Mathlib.Data.List.Nodup

/-! Resources with an identity: each is taken fresh, and is given back at most once. -/

/-- The next identity, what is taken and not given back, and how often something was given
back that was not there. -/
structure Ledger where
  next : Nat
  live : List Nat
  misused : Nat
  deriving DecidableEq, Repr

namespace Ledger

def empty : Ledger := ⟨0, [], 0⟩

def acquire (l : Ledger) : Ledger := { l with next := l.next + 1, live := l.next :: l.live }

def release (l : Ledger) (id : Nat) : Ledger :=
  if id ∈ l.live then { l with live := l.live.erase id } else { l with misused := l.misused + 1 }

/-- Exactly these are taken, and nothing was misused. -/
structure Holds (l : Ledger) (held : List Nat) : Prop where
  live : l.live = held
  misused : l.misused = 0
  fresh : ∀ id ∈ held, id < l.next

variable {l : Ledger} {held : List Nat} {id : Nat}

theorem Holds.acquire (h : Holds l held) : Holds l.acquire (l.next :: held) := by
  refine ⟨by rw [Ledger.acquire, h.live], h.misused, fun id hid => ?_⟩
  show id < l.next + 1
  rcases List.mem_cons.mp hid with rfl | hid
  · omega
  · have := h.fresh id hid
    omega

theorem Holds.release (h : Holds l (id :: held)) : Holds (l.release id) held := by
  have hmem : id ∈ l.live := by
    rw [h.live]
    exact List.mem_cons_self
  rw [Ledger.release, if_pos hmem]
  refine ⟨?_, h.misused, fun other hother => h.fresh other (List.mem_cons_of_mem id hother)⟩
  show l.live.erase id = held
  rw [h.live, List.erase_cons_head]

/-- What is taken for a moment leaves everything else as it is. -/
theorem Holds.acquire_release (h : Holds l held) : Holds (l.acquire.release l.next) held :=
  h.acquire.release

theorem mem_acquire (h : id ∈ l.live) : id ∈ l.acquire.live := List.mem_cons_of_mem l.next h

theorem mem_release {other : Nat} (h : id ∈ l.live) (hne : id ≠ other) :
    id ∈ (l.release other).live := by
  rw [release]
  split_ifs with hother
  · exact (List.mem_erase_of_ne hne).mpr h
  · exact h

@[simp] theorem next_acquire (l : Ledger) : l.acquire.next = l.next + 1 := rfl

@[simp] theorem next_release (l : Ledger) (id : Nat) : (l.release id).next = l.next := by
  rw [release]
  split_ifs <;> rfl

end Ledger
