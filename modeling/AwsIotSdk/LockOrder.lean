import AwsIotSdk.ResponseCorrelation

/-! The order in which the threads of a core state take its mutexes. A blocking
call takes the mutex of the response before the one of the ack map; an ack for a
blocking call takes them the other way round. -/

namespace AwsIotSdk

open LockedProgram

def CorePc.MapAhead (p : CorePc) : Prop := ∃ op ops call, p = .acting (op :: ops) call

def CorePc.StoreAhead (p : CorePc) : Prop := ∃ id rc, p = .handling id rc

/-- The thread does not go for its second mutex while another one goes for it
from the other side. -/
def InOrder (s : State Nat CoreLock CorePc CoreData) (m : Nat × CoreChoice) : Prop :=
  (∀ id rc, s.pc m.1 = .delivering id rc →
    s.data.core.pendingHandler id = some .syncActionHandler → ∀ u, ¬ (s.pc u).MapAhead) ∧
  ∀ a, s.pc m.1 = .beginning a → (s.data.beginCall a).1.MapAhead → ∀ u, ¬ (s.pc u).StoreAhead

def NoInversion (s : State Nat CoreLock CorePc CoreData) : Prop :=
  ∀ t u, (s.pc t).MapAhead → ¬ (s.pc u).StoreAhead

theorem CorePc.Step.mapAhead {p p' : CorePc} {d d' : CoreData} (h : Step d p p' d')
    (hp : p'.MapAhead) :
    .ackMap ∈ p.locks ∨ ∃ a, p = .beginning a ∧ p' = (d.beginCall a).1 := by
  obtain ⟨op, ops, call, rfl⟩ := hp
  generalize hq : CorePc.acting (op :: ops) call = q at h
  cases h with
  | @lockResponse a => exact .inr ⟨a, rfl, rfl⟩
  | applyOp => exact .inl (by simp [locks])
  | _ => cases hq

theorem CorePc.Step.storeAhead {p p' : CorePc} {d d' : CoreData} (h : Step d p p' d')
    (hp : p'.StoreAhead) :
    ∃ id rc, p = .delivering id rc ∧ d.core.pendingHandler id = some .syncActionHandler := by
  obtain ⟨id, rc, rfl⟩ := hp
  generalize hq : CorePc.handling id rc = q at h
  cases h with
  | @syncAck id' rc' h => exact ⟨id', rc', rfl, h⟩
  | lockResponse => cases hq
  | _ => cases hq

theorem CorePc.holds_of_storeAhead {p : CorePc} (h : p.StoreAhead) :
    coreProgram.holds p .ackMap = true := by
  obtain ⟨id, rc, rfl⟩ := h
  rfl

theorem NoInversion.step {s : State Nat CoreLock CorePc CoreData} (hs : NoInversion s)
    (hcon : coreProgram.Consistent s) {t : Nat} {c : CoreChoice} (hc : InOrder s (t, c))
    {p : CorePc} {d : CoreData} (h : CorePc.Step s.data (s.pc t) p d) :
    NoInversion (coreProgram.move s t p d) := by
  intro u v hu hv
  by_cases hut : u = t
  · subst hut
    rw [move_pc_self] at hu
    by_cases hvu : v = u
    · subst hvu
      rw [move_pc_self] at hv
      obtain ⟨op, ops, call, rfl⟩ := hu
      obtain ⟨id, rc, h⟩ := hv
      cases h
    · rw [move_pc_of_ne s hvu] at hv
      rcases h.mapAhead hu with hlock | ⟨a, hp, rfl⟩
      · exact hvu (hcon.eq_of_holds (CorePc.holds_of_storeAhead hv) (decide_eq_true hlock))
      · exact hc.2 a hp hu v hv
  · rw [move_pc_of_ne s hut] at hu
    by_cases hvt : v = t
    · subst hvt
      rw [move_pc_self] at hv
      obtain ⟨id, rc, hp, hpending⟩ := h.storeAhead hv
      exact hc.1 id rc hp hpending u hu
    · rw [move_pc_of_ne s hvt] at hv
      exact hs u v hu hv

/-- The order of the mutexes while an ack is about to be stored, and otherwise. -/
def CoreLock.rank (storing : Bool) : CoreLock → Nat
  | .syncActionRequest => 0
  | .syncActionResponse => if storing then 2 else 1
  | .ackMap => if storing then 1 else 2

theorem CoreLock.rank_le (storing : Bool) (l : CoreLock) : l.rank storing ≤ 2 := by
  cases storing <;> cases l <;> decide

theorem CorePc.rank_lt {p : CorePc} {storing : Bool} (hmap : storing = true → ¬ p.MapAhead)
    (hstore : p.StoreAhead → storing = true) {l held : CoreLock} (hw : p.wants = some l)
    (hheld : held ∈ p.locks) : held.rank storing < l.rank storing := by
  cases p with
  | beginning a | woken call =>
    cases hw
    obtain rfl := List.mem_singleton.mp hheld
    cases storing <;> decide
  | acting ops call =>
    cases ops with
    | nil => cases hw
    | cons op ops =>
      cases hw
      cases storing with
      | true => exact absurd ⟨op, ops, call, rfl⟩ (hmap rfl)
      | false =>
        rcases List.mem_cons.mp hheld with rfl | hheld
        · decide
        · obtain rfl := List.mem_singleton.mp hheld
          decide
  | processing ops notice =>
    cases ops with
    | nil => cases hw
    | cons op ops =>
      cases hw
      obtain rfl := List.mem_singleton.mp hheld
      cases storing <;> decide
  | handling id rc =>
    cases hw
    obtain rfl := List.mem_singleton.mp hheld
    rw [hstore ⟨id, rc, rfl⟩]
    decide
  | requesting | queueing | forwarding => exact absurd hheld List.not_mem_nil
  | _ => cases hw

open Classical in
theorem NoInversion.ordered {s : State Nat CoreLock CorePc CoreData} (hs : NoInversion s)
    (hcon : coreProgram.Consistent s) :
    (coreProgram.waitGraph s).Ordered (CoreLock.rank (decide (∃ u, (s.pc u).StoreAhead))) := by
  intro t l held hw ho
  have hheld : held ∈ (s.pc t).locks := of_decide_eq_true ((hcon held t).mp ho)
  refine CorePc.rank_lt (fun hstoring hmap => ?_) (fun hstore => ?_) hw hheld
  · obtain ⟨u, hu⟩ := of_decide_eq_true hstoring
    exact hs t u hmap hu
  · exact decide_eq_true ⟨t, hstore⟩

/-- While no thread goes for its second mutex against another one, no set of
threads waits in a circle. -/
theorem not_circularWait_of_inOrder {core : ClientCoreState} {last : UInt16}
    {s : State Nat CoreLock CorePc CoreData}
    (h : Transition.Reachable coreProgram.step InOrder (start .idle (CoreData.init core last)) s) :
    ¬ (coreProgram.waitGraph s).CircularWait := by
  have hstart : NoInversion (start .idle (CoreData.init core last)) := by
    rintro t u ⟨op, ops, call, h⟩
    cases h
  obtain ⟨hcon, hinv⟩ := reachable_invariant (consistent_start (fun _ => rfl) _) hstart
    (fun s t c p d hcon hs hc _ hnext => hs.step hcon hc (CorePc.step_of_next hnext)) h
  exact (hinv.ordered hcon).not_circularWait (CoreLock.rank_le _)

theorem circularWait_of_inversion {s : State Nat CoreLock CorePc CoreData}
    (hcon : coreProgram.Consistent s) {t u : Nat} (ht : (s.pc t).MapAhead)
    (hu : (s.pc u).StoreAhead) : (coreProgram.waitGraph s).CircularWait := by
  obtain ⟨op, ops, call, hp⟩ := ht
  obtain ⟨id, rc, hq⟩ := hu
  have hne : t ≠ u := by
    rintro rfl
    rw [hp] at hq
    cases hq
  refine WaitGraph.circularWait_of_pair hne ⟨.ackMap, ?_, ?_⟩ ⟨.syncActionResponse, ?_, ?_⟩
  · simp [waitGraph, coreProgram, hp, CorePc.wants]
  · exact (hcon .ackMap u).mpr (by simp [coreProgram, hq, CorePc.locks])
  · simp [waitGraph, coreProgram, hq, CorePc.wants]
  · exact (hcon .syncActionResponse t).mpr (by simp [coreProgram, hp, CorePc.locks])

/-- A step out of order ends in a circular wait. -/
theorem circularWait_of_not_inOrder {s s' : State Nat CoreLock CorePc CoreData}
    (hcon : coreProgram.Consistent s) {t : Nat} {c : CoreChoice} (hc : ¬ InOrder s (t, c))
    (h : coreProgram.step s (t, c) = some s') : (coreProgram.waitGraph s').CircularWait := by
  obtain ⟨hfree, p, d, hnext, rfl⟩ := step_eq_some.mp h
  have hcon' := hcon.move hfree hnext
  have hstep := CorePc.step_of_next hnext
  have hother : ∀ u, s.pc u ≠ s.pc t → (coreProgram.move s t p d).pc u = s.pc u := fun u hu =>
    move_pc_of_ne s (fun hut => hu (congrArg s.pc hut)) p d
  rw [InOrder, not_and_or] at hc
  rcases hc with hc | hc
  · push Not at hc
    obtain ⟨id, rc, hp, hpending, u, hu⟩ := hc
    obtain rfl : p = .handling id rc := by
      rw [hp] at hstep
      cases hstep with
      | syncAck => rfl
      | otherAck hne => exact absurd hpending hne
    refine circularWait_of_inversion hcon' (t := u) (u := t) ?_ ⟨id, rc, move_pc_self s t _ d⟩
    have hne : s.pc u ≠ s.pc t := by
      obtain ⟨op, ops, call, hq⟩ := hu
      rw [hq, hp]
      exact nofun
    rw [hother u hne]
    exact hu
  · push Not at hc
    obtain ⟨a, hp, hmap, u, hu⟩ := hc
    obtain rfl : p = (s.data.beginCall a).1 := by
      rw [hp] at hstep
      cases hstep
      rfl
    refine circularWait_of_inversion hcon' (t := t) (u := u) (by rwa [move_pc_self]) ?_
    have hne : s.pc u ≠ s.pc t := by
      obtain ⟨id, rc, hq⟩ := hu
      rw [hq, hp]
      exact nofun
    rw [hother u hne]
    exact hu

def CorePc.isMapAhead : CorePc → Bool
  | .acting (_ :: _) _ => true
  | _ => false

def CorePc.isStoreAhead : CorePc → Bool
  | .handling _ _ => true
  | _ => false

/-- One of the threads takes a step, and none of them goes for a mutex from the other side. -/
def stepsInOrder (ts : List Nat) (s : State Nat CoreLock CorePc CoreData)
    (m : Nat × CoreChoice) : Bool :=
  ts.contains m.1 && match s.pc m.1 with
    | .delivering _ _ => ts.all (fun u => !(s.pc u).isMapAhead)
    | .beginning _ => ts.all (fun u => !(s.pc u).isStoreAhead)
    | _ => true

theorem inOrder_of_stepsInOrder {ts : List Nat} {s : State Nat CoreLock CorePc CoreData}
    {m : Nat × CoreChoice} (hs : OthersAt s ts .idle) (hm : stepsInOrder ts s m = true) :
    InOrder s m := by
  rw [stepsInOrder, Bool.and_eq_true] at hm
  refine ⟨fun id rc hp _ u hu => ?_, fun a hp _ u hu => ?_⟩
  · rw [hp] at hm
    obtain ⟨op, ops, call, hq⟩ := hu
    by_cases hut : u ∈ ts
    · have hahead := List.all_eq_true.mp hm.2 u hut
      rw [hq] at hahead
      cases hahead
    · rw [hs u hut] at hq
      cases hq
  · rw [hp] at hm
    obtain ⟨id, rc, hq⟩ := hu
    by_cases hut : u ∈ ts
    · have hahead := List.all_eq_true.mp hm.2 u hut
      rw [hq] at hahead
      cases hahead
    · rw [hs u hut] at hq
      cases hq

/-- The call waits, the ack for it comes, and both go for the response. -/
def answeredCallRun : List (Nat × CoreChoice) :=
  callAndWait 0 ++ [(1, .forward 1 .success), (1, .proceed), (1, .proceed), (0, .proceed)]

theorem not_circularWait_of_inOrder_call :
    ∃ s, Transition.Reachable coreProgram.step InOrder freshThreads s ∧
      s.pc 0 = .woken ⟨1, .success⟩ ∧ s.pc 1 = .handling 1 .success ∧
      ¬ (coreProgram.waitGraph s).CircularWait := by
  have hrun : ∃ s, Transition.runWhile coreProgram.step (stepsInOrder [0, 1]) freshThreads
      answeredCallRun = some s ∧ s.pc 0 = .woken ⟨1, .success⟩ ∧
      s.pc 1 = .handling 1 .success := ⟨_, rfl, rfl, rfl⟩
  obtain ⟨s, hs, hcall, hack⟩ := hrun
  have hreach := Transition.reachable_of_runWhile (P := fun s => OthersAt s [0, 1] .idle)
    (fun _ m _ ho hm => ho.step
      (List.contains_iff_mem.mp ((Bool.and_eq_true _ _).mp hm).1))
    (fun _ _ => inOrder_of_stepsInOrder) (othersAt_start [0, 1] _ _) hs
  exact ⟨s, hreach, hcall, hack, not_circularWait_of_inOrder hreach⟩

/-- The first call times out; the ack for it comes when the second call is about
to register its own. -/
def inversionRun : List (Nat × CoreChoice) :=
  callAndWait 0 ++ wakeAndReturn 0 ++
    [(0, .call .publish ackedPublish), (0, .proceed), (0, .proceed), (0, .proceed),
      (1, .forward 1 .success), (1, .proceed), (1, .proceed)]

theorem circularWait_lateAck :
    ∃ s, Transition.Reachable coreProgram.step Transition.anyMove freshThreads s ∧
      (coreProgram.waitGraph s).CircularWait := by
  have hrun : ∃ s, Transition.run coreProgram.step freshThreads inversionRun = some s ∧
      (∃ ops call, s.pc 0 = .acting (.register 2 .syncActionHandler :: ops) call) ∧
      s.pc 1 = .handling 1 .success := ⟨_, rfl, ⟨_, _, rfl⟩, rfl⟩
  obtain ⟨s, hs, ⟨ops, call, h0⟩, h1⟩ := hrun
  have hreach := Transition.reachable_of_run hs
  have hcon := consistent_of_reachable (consistent_start (fun _ => rfl) _) hreach
  exact ⟨s, hreach, circularWait_of_inversion hcon ⟨_, ops, call, h0⟩ ⟨1, .success, h1⟩⟩

end AwsIotSdk
