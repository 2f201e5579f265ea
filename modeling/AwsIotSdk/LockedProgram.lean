import AwsIotSdk.Transition
import AwsIotSdk.WaitGraph
import Mathlib.Logic.Function.Basic

/-! Threads that run one program and take mutexes on the way. A program says at
each of its points which mutexes a thread holds and which one it waits for. -/

/-- A program over points `P`, mutexes `L`, scheduler choices `C` and shared data
`D`. A point is entered with one new mutex at the most, the one its predecessor
waits for. -/
structure LockedProgram (T L P C D : Type) where
  holds : P → L → Bool
  wants : P → Option L
  next : T → P → C → D → Option (P × D)
  wants_new : ∀ p l, wants p = some l → holds p l = false
  holds_wanted : ∀ {t p c d p' d'}, next t p c d = some (p', d') →
    ∀ l, holds p' l = true → holds p l = true ∨ wants p = some l

namespace LockedProgram

variable {T L P C D : Type}

structure State (T L P D : Type) where
  pc : T → P
  owner : L → Option T
  data : D

variable (prog : LockedProgram T L P C D)

def free (s : State T L P D) (t : T) : Bool :=
  match prog.wants (s.pc t) with
  | none => true
  | some l => (s.owner l).isNone

def start (p : P) (d : D) : State T L P D := ⟨fun _ => p, fun _ => none, d⟩

def waitGraph (s : State T L P D) : WaitGraph T L := ⟨s.owner, fun t => prog.wants (s.pc t)⟩

def Consistent (s : State T L P D) : Prop :=
  ∀ l t, s.owner l = some t ↔ prog.holds (s.pc t) l = true

variable {prog}

theorem consistent_start {p : P} (hp : ∀ l, prog.holds p l = false) (d : D) :
    prog.Consistent (start p d : State T L P D) := by
  intro l t
  simp [start, hp]

theorem Consistent.eq_of_holds {s : State T L P D} (hs : prog.Consistent s) {t u : T} {l : L}
    (ht : prog.holds (s.pc t) l = true) (hu : prog.holds (s.pc u) l = true) : t = u :=
  Option.some.inj (((hs l t).mpr ht).symm.trans ((hs l u).mpr hu))

variable (prog) [DecidableEq T]

/-- The thread goes to a point and keeps the mutexes of this point only. -/
def move (s : State T L P D) (t : T) (p : P) (d : D) : State T L P D where
  pc := Function.update s.pc t p
  owner l := if prog.holds p l then some t else if prog.holds (s.pc t) l then none else s.owner l
  data := d

def step (s : State T L P D) (m : T × C) : Option (State T L P D) :=
  if prog.free s m.1 then
    (prog.next m.1 (s.pc m.1) m.2 s.data).map (fun r => prog.move s m.1 r.1 r.2)
  else none

variable {prog}

theorem step_eq_some {s s' : State T L P D} {t : T} {c : C} :
    prog.step s (t, c) = some s' ↔ prog.free s t = true ∧
      ∃ p d, prog.next t (s.pc t) c s.data = some (p, d) ∧ s' = prog.move s t p d := by
  unfold step
  split_ifs with h
  · simp only [h, true_and, Option.map_eq_some_iff, Prod.exists, eq_comm (b := s')]
  · simp [h]

@[simp] theorem move_data (s : State T L P D) (t : T) (p : P) (d : D) :
    (prog.move s t p d).data = d := rfl

@[simp] theorem move_pc_self (s : State T L P D) (t : T) (p : P) (d : D) :
    (prog.move s t p d).pc t = p := by
  simp [move]

theorem move_pc_of_ne (s : State T L P D) {t u : T} (h : u ≠ t) (p : P) (d : D) :
    (prog.move s t p d).pc u = s.pc u := by
  simp [move, h]

theorem Consistent.move {s : State T L P D} (hs : prog.Consistent s) {t : T} {c : C} {p : P}
    {d : D} (hfree : prog.free s t = true)
    (hnext : prog.next t (s.pc t) c s.data = some (p, d)) :
    prog.Consistent (prog.move s t p d) := by
  intro l u
  have hnew : prog.holds p l = true → prog.holds (s.pc t) l = true ∨ s.owner l = none := by
    intro hl
    refine (prog.holds_wanted hnext l hl).imp_right fun hw => ?_
    simpa [free, hw] using hfree
  by_cases hu : u = t
  · subst hu
    rw [move_pc_self]
    simp only [LockedProgram.move]
    split_ifs with h h'
    · simp [h]
    · simp [h]
    · exact iff_of_false (fun ho => h' ((hs l u).mp ho)) h
  · rw [move_pc_of_ne s hu, ← hs l u]
    simp only [LockedProgram.move]
    split_ifs with h h'
    · refine iff_of_false (fun he => hu (Option.some.inj he).symm) fun ho => ?_
      rcases hnew h with ht | hnone
      · exact hu (Option.some.inj (ho.symm.trans ((hs l t).mpr ht)))
      · simp [hnone] at ho
    · refine iff_of_false nofun fun ho => ?_
      exact hu (Option.some.inj (ho.symm.trans ((hs l t).mpr h')))
    · rfl

theorem reachable_invariant {cond : State T L P D → T × C → Prop} {init s : State T L P D}
    {I : State T L P D → Prop} (hinit : prog.Consistent init) (hI : I init)
    (hstep : ∀ s t c p d, prog.Consistent s → I s → cond s (t, c) → prog.free s t = true →
      prog.next t (s.pc t) c s.data = some (p, d) → I (prog.move s t p d))
    (h : Transition.Reachable prog.step cond init s) : prog.Consistent s ∧ I s := by
  refine h.invariant (P := fun s => prog.Consistent s ∧ I s) ⟨hinit, hI⟩ ?_
  rintro s ⟨t, c⟩ s' ⟨hs, hIs⟩ hc hm
  obtain ⟨hfree, p, d, hnext, rfl⟩ := step_eq_some.mp hm
  exact ⟨hs.move hfree hnext, hstep s t c p d hs hIs hc hfree hnext⟩

theorem consistent_of_reachable {cond : State T L P D → T × C → Prop} {init s : State T L P D}
    (hinit : prog.Consistent init) (h : Transition.Reachable prog.step cond init s) :
    prog.Consistent s :=
  (reachable_invariant (I := fun _ => True) hinit trivial (fun _ _ _ _ _ _ _ _ _ _ => trivial) h).1

section Annotate

variable {H : Type} (note : P → C → D → P → H → H)

/-- The program with a record that its steps write and do not read. -/
def annotate (prog : LockedProgram T L P C D) : LockedProgram T L P C (D × H) where
  holds := prog.holds
  wants := prog.wants
  next t p c d := (prog.next t p c d.1).map (fun r => (r.1, r.2, note p c d.1 r.1 d.2))
  wants_new := prog.wants_new
  holds_wanted h l hl := by
    obtain ⟨r, hr, he⟩ := Option.map_eq_some_iff.mp h
    cases he
    exact prog.holds_wanted hr l hl

def State.forget (s : State T L P (D × H)) : State T L P D := ⟨s.pc, s.owner, s.data.1⟩

/-- With the record a state has the steps that it has without. -/
theorem forget_step_annotate (s : State T L P (D × H)) (m : T × C) :
    ((prog.annotate note).step s m).map State.forget = prog.step s.forget m := by
  unfold step
  by_cases h : prog.free s.forget m.1 = true
  · have h' : (prog.annotate note).free s m.1 = true := h
    rw [if_pos h, if_pos h']
    cases hn : prog.next m.1 (s.pc m.1) m.2 s.data.1 with
    | none => simp [annotate, State.forget, hn]
    | some r =>
      simp only [annotate, State.forget, hn, Option.map_some]
      rfl
  · have h' : ¬ (prog.annotate note).free s m.1 = true := h
    rw [if_neg h, if_neg h']
    rfl

variable {note}

omit [DecidableEq T] in
theorem annotate_next {t : T} {p p' : P} {c : C} {d d' : D × H}
    (h : (prog.annotate note).next t p c d = some (p', d')) :
    prog.next t p c d.1 = some (p', d'.1) ∧ d'.2 = note p c d.1 p' d.2 := by
  obtain ⟨r, hr, he⟩ := Option.map_eq_some_iff.mp h
  cases he
  exact ⟨hr, rfl⟩

end Annotate

def OthersAt (s : State T L P D) (ts : List T) (p : P) : Prop := ∀ u, u ∉ ts → s.pc u = p

omit [DecidableEq T] in
theorem othersAt_start (ts : List T) (p : P) (d : D) :
    OthersAt (start p d : State T L P D) ts p := fun _ _ => rfl

theorem OthersAt.step {s s' : State T L P D} {ts : List T} {p : P} (hs : OthersAt s ts p)
    {m : T × C} (hm : m.1 ∈ ts) (h : prog.step s m = some s') : OthersAt s' ts p := by
  obtain ⟨t, c⟩ := m
  obtain ⟨-, q, d, -, rfl⟩ := step_eq_some.mp h
  intro u hu
  have hne : u ≠ t := by
    rintro rfl
    exact hu hm
  rw [move_pc_of_ne s hne]
  exact hs u hu

theorem OthersAt.run {s s' : State T L P D} {ts : List T} {p : P} {ms : List (T × C)}
    (hs : OthersAt s ts p) (hm : ∀ m ∈ ms, m.1 ∈ ts)
    (h : Transition.run prog.step s ms = some s') : OthersAt s' ts p := by
  induction ms generalizing s with
  | nil =>
    simp only [Transition.run, Option.some.injEq] at h
    exact h ▸ hs
  | cons m ms ih =>
    obtain ⟨hhead, htail⟩ := List.forall_mem_cons.mp hm
    obtain ⟨u, hu, hrest⟩ := Option.bind_eq_some_iff.mp h
    exact ih (hs.step hhead hu) htail hrest

end LockedProgram
