import AwsIotSdk.ResponseCode
import Mathlib.Logic.Function.Basic
import Mathlib.Data.List.Induction

/-! The registration of actions: the create handlers and the instances they made, in two
maps. An insertion keeps what a map has. -/

namespace AwsIotSdk

/-- An instance of an action, by the handler that made it and the number of its call. -/
structure ActionInstance (H : Type) where
  createdBy : H
  serial : Nat
  deriving DecidableEq, Repr

/-- `created` counts the calls of create handlers, `performed` lists the instances that
ran; they are no part of the source. -/
structure ActionRegistry (H : Type) where
  actionCreateHandlerMap : ActionType → Option H
  actionMap : ActionType → Option (ActionInstance H)
  created : Nat
  performed : List (ActionInstance H)

/-- The arguments of a call. A null handler is `none`. -/
structure Registration (H S : Type) where
  actionType : ActionType
  pActionCreateHandler : Option H
  pActionState : S

namespace ActionRegistry

variable {H S : Type}

def empty : ActionRegistry H := ⟨fun _ => none, fun _ => none, 0, []⟩

def insertAbsent {ν : Type} (m : ActionType → Option ν) (t : ActionType) (v : ν) :
    ActionType → Option ν :=
  Function.update m t (some ((m t).getD v))

def getActionCreateHandler (s : ActionRegistry H) (actionType : ActionType)
    (pActionCreateHandler : H) : ResponseCode × H :=
  match s.actionCreateHandlerMap actionType with
  | none => (.failure, pActionCreateHandler)
  | some h => (.success, h)

/-- A call of a create handler. Whether it returns an instance may depend on the state it
is given and on when it is called. -/
def callCreateHandler (creates : H → S → Nat → Bool) (s : ActionRegistry H)
    (pActionCreateHandler : H) (pActionState : S) :
    Option (ActionInstance H) × ActionRegistry H :=
  (if creates pActionCreateHandler pActionState s.created then
      some ⟨pActionCreateHandler, s.created⟩
    else none,
    { s with created := s.created + 1 })

def registerAction (creates : H → S → Nat → Bool) (s : ActionRegistry H)
    (c : Registration H S) : ResponseCode × ActionRegistry H :=
  match c.pActionCreateHandler with
  | none => (.nullValueError, s)
  | some pActionCreateHandler =>
    let s := { s with
      actionCreateHandlerMap :=
        insertAbsent s.actionCreateHandlerMap c.actionType pActionCreateHandler }
    let (rc, pActionCreateHandler) := s.getActionCreateHandler c.actionType pActionCreateHandler
    if rc = .success then
      match s.callCreateHandler creates pActionCreateHandler c.pActionState with
      | (none, s) => (.actionCreateFailed, s)
      | (some pAction, s) =>
        (.success, { s with actionMap := insertAbsent s.actionMap c.actionType pAction })
    else (rc, s)

/-- The instance that is found runs, with a result of its own. -/
def performAction (perform : ActionInstance H → ResponseCode) (s : ActionRegistry H)
    (actionType : ActionType) : ResponseCode × ActionRegistry H :=
  match s.actionMap actionType with
  | none => (.actionNotRegisteredError, s)
  | some pAction => (perform pAction, { s with performed := s.performed ++ [pAction] })

def afterAll (creates : H → S → Nat → Bool) (calls : List (Registration H S)) :
    ActionRegistry H :=
  calls.foldl (fun s c => (registerAction creates s c).2) empty

theorem afterAll_concat (creates : H → S → Nat → Bool) (calls : List (Registration H S))
    (c : Registration H S) :
    afterAll creates (calls ++ [c]) = (registerAction creates (afterAll creates calls) c).2 := by
  rw [afterAll, List.foldl_append]
  rfl

/-! ### One registration -/

/-- The handler that a call stores and then finds. -/
def stored (s : ActionRegistry H) (t : ActionType) (h : H) : H :=
  (s.actionCreateHandlerMap t).getD h

theorem registerAction_eq (creates : H → S → Nat → Bool) (s : ActionRegistry H)
    (t : ActionType) (h : H) (st : S) :
    registerAction creates s ⟨t, some h, st⟩ =
      if creates (s.stored t h) st s.created then
        (.success,
          { s with
            actionCreateHandlerMap := insertAbsent s.actionCreateHandlerMap t h
            actionMap := insertAbsent s.actionMap t ⟨s.stored t h, s.created⟩
            created := s.created + 1 })
      else
        (.actionCreateFailed,
          { s with
            actionCreateHandlerMap := insertAbsent s.actionCreateHandlerMap t h
            created := s.created + 1 }) := by
  cases hcreates : creates (s.stored t h) st s.created with
  | true =>
    rw [stored] at hcreates
    simp [registerAction, getActionCreateHandler, insertAbsent, callCreateHandler, stored, hcreates]
  | false =>
    rw [stored] at hcreates
    simp [registerAction, getActionCreateHandler, insertAbsent, callCreateHandler, hcreates]

/-- A call that keeps to what is stored: the type is new and its handler makes an
instance, the handler is the one that is stored, or the stored one makes none. -/
def Agrees (creates : H → S → Nat → Bool) (s : ActionRegistry H) (c : Registration H S) : Prop :=
  ∀ h, c.pActionCreateHandler = some h →
    match s.actionCreateHandlerMap c.actionType with
    | none => creates h c.pActionState s.created = true
    | some h' => h' = h ∨ creates h' c.pActionState s.created = false

/-- A lookup of the type yields the handler, and a request runs an instance it made. -/
structure Serves (s : ActionRegistry H) (t : ActionType) (h : H) : Prop where
  handler : ∀ p, s.getActionCreateHandler t p = (.success, h)
  performs : ∃ pAction : ActionInstance H, pAction.createdBy = h ∧
    ∀ perform, performAction perform s t =
      (perform pAction, { s with performed := s.performed ++ [pAction] })

/-- What a history of registrations is to show, after each of its calls: the last success
for a type is what the type has, and a failure leaves every type alone. -/
structure LastWins (creates : H → S → Nat → Bool) (calls : List (Registration H S)) : Prop where
  wins : ∀ before t h st later rest, calls = before ++ ⟨t, some h, st⟩ :: later ++ rest →
    (registerAction creates (afterAll creates before) ⟨t, some h, st⟩).1 = .success →
    (∀ c ∈ later, c.actionType ≠ t) →
    Serves (afterAll creates (before ++ ⟨t, some h, st⟩ :: later)) t h
  failure : ∀ before c rest, calls = before ++ c :: rest →
    (registerAction creates (afterAll creates before) c).1 ≠ .success →
    (afterAll creates (before ++ [c])).actionCreateHandlerMap =
        (afterAll creates before).actionCreateHandlerMap ∧
      (afterAll creates (before ++ [c])).actionMap = (afterAll creates before).actionMap

/-- Every handler has an instance that it made, and there are no others. -/
def Paired (s : ActionRegistry H) : Prop :=
  ∀ t, (s.actionMap t).map ActionInstance.createdBy = s.actionCreateHandlerMap t

theorem serves_iff (s : ActionRegistry H) (t : ActionType) (h : H) :
    Serves s t h ↔ s.actionCreateHandlerMap t = some h ∧
      (s.actionMap t).map ActionInstance.createdBy = some h := by
  rw [Option.map_eq_some_iff]
  constructor
  · intro hs
    refine ⟨?_, ?_⟩
    · have hhandler := hs.handler h
      rw [getActionCreateHandler] at hhandler
      cases hmap : s.actionCreateHandlerMap t with
      | none => simp [hmap] at hhandler
      | some h' => simpa [hmap] using hhandler
    · obtain ⟨pAction, hby, hperform⟩ := hs.performs
      have hsuccess := congrArg Prod.fst (hperform (fun _ => .success))
      have hran := congrArg (fun r => r.2.performed) (hperform (fun _ => .success))
      rw [performAction] at hsuccess hran
      cases hmap : s.actionMap t with
      | none => simp [hmap] at hsuccess
      | some pAction' =>
        have heq : pAction' = pAction := by simpa [hmap] using hran
        exact ⟨pAction', rfl, heq ▸ hby⟩
  · rintro ⟨hhandler, pAction, hmap, hby⟩
    refine ⟨fun p => ?_, pAction, hby, fun perform => ?_⟩
    · rw [getActionCreateHandler, hhandler]
    · rw [performAction, hmap]

theorem Paired.serves {s : ActionRegistry H} (hs : Paired s) {t : ActionType} {h : H}
    (hhandler : s.actionCreateHandlerMap t = some h) : Serves s t h :=
  (serves_iff s t h).2 ⟨hhandler, (hs t).trans hhandler⟩

theorem insertAbsent_self {ν : Type} (m : ActionType → Option ν) (t : ActionType) (v : ν) :
    insertAbsent m t v t = some ((m t).getD v) := Function.update_self _ _ _

theorem insertAbsent_of_ne {ν : Type} (m : ActionType → Option ν) {t t' : ActionType}
    (h : t' ≠ t) (v : ν) : insertAbsent m t v t' = m t' := Function.update_of_ne h _ _

theorem insertAbsent_of_some {ν : Type} {m : ActionType → Option ν} {t : ActionType} {v : ν}
    (h : m t = some v) (v' : ν) : insertAbsent m t v' = m := by
  rw [insertAbsent, h]
  exact Function.update_eq_self_iff.2 h.symm

/-- Another type keeps its handler and its instance. -/
theorem registerAction_frame (creates : H → S → Nat → Bool) (s : ActionRegistry H)
    (c : Registration H S) {t : ActionType} (ht : t ≠ c.actionType) :
    (registerAction creates s c).2.actionCreateHandlerMap t = s.actionCreateHandlerMap t ∧
      (registerAction creates s c).2.actionMap t = s.actionMap t := by
  obtain ⟨actionType, pActionCreateHandler, st⟩ := c
  cases pActionCreateHandler with
  | none => exact ⟨rfl, rfl⟩
  | some h =>
    rw [registerAction_eq]
    split_ifs
    · exact ⟨insertAbsent_of_ne _ ht _, insertAbsent_of_ne _ ht _⟩
    · exact ⟨insertAbsent_of_ne _ ht _, rfl⟩

/-- What a call may do to the maps: nothing, or a new entry in both. -/
inductive Outcome (s : ActionRegistry H) (c : Registration H S) :
    ResponseCode × ActionRegistry H → Prop
  | same {rc : ResponseCode} {created : Nat} :
      (rc = .success → ∃ h, c.pActionCreateHandler = some h ∧
        s.actionCreateHandlerMap c.actionType = some h) →
      Outcome s c (rc, { s with created := created })
  | new {h : H} {serial created : Nat} : c.pActionCreateHandler = some h →
      s.actionCreateHandlerMap c.actionType = none →
      Outcome s c (.success,
        { s with
          actionCreateHandlerMap := insertAbsent s.actionCreateHandlerMap c.actionType h
          actionMap := insertAbsent s.actionMap c.actionType ⟨h, serial⟩
          created := created })

theorem registerAction_outcome {creates : H → S → Nat → Bool} {s : ActionRegistry H}
    {c : Registration H S} (hs : Paired s) (hc : Agrees creates s c) :
    Outcome s c (registerAction creates s c) := by
  obtain ⟨t, pActionCreateHandler, st⟩ := c
  cases pActionCreateHandler with
  | none => exact .same (by simp)
  | some h =>
    have hagrees := hc h rfl
    dsimp only at hagrees
    rw [registerAction_eq]
    cases hmap : s.actionCreateHandlerMap t with
    | none =>
      rw [hmap] at hagrees
      rw [stored, hmap, Option.getD_none, if_pos hagrees]
      exact .new rfl hmap
    | some h' =>
      rw [hmap] at hagrees
      have hpair := hs t
      rw [hmap, Option.map_eq_some_iff] at hpair
      obtain ⟨pAction, hinstance, -⟩ := hpair
      rw [stored, hmap, Option.getD_some, insertAbsent_of_some hmap,
        insertAbsent_of_some hinstance]
      split_ifs with hcreates
      · obtain rfl : h' = h := by simpa [hcreates] using hagrees
        exact .same (fun _ => ⟨h', rfl, hmap⟩)
      · exact .same (by simp)

theorem Outcome.paired {s : ActionRegistry H} {c : Registration H S}
    {r : ResponseCode × ActionRegistry H} (hs : Paired s) (h : Outcome s c r) : Paired r.2 := by
  cases h with
  | same hrc => exact hs
  | new hhandler hnone =>
    intro t
    by_cases ht : t = c.actionType
    · subst ht
      have hinstance : s.actionMap c.actionType = none := by
        rw [← Option.map_eq_none_iff, hs c.actionType, hnone]
      simp [insertAbsent_self, hnone, hinstance]
    · simpa [insertAbsent_of_ne _ ht] using hs t

theorem Outcome.stores {s : ActionRegistry H} {c : Registration H S}
    {r : ResponseCode × ActionRegistry H} (h : Outcome s c r) (hrc : r.1 = .success) {p : H}
    (hp : c.pActionCreateHandler = some p) :
    r.2.actionCreateHandlerMap c.actionType = some p := by
  cases h with
  | same hsame =>
    obtain ⟨h', hh', hmap⟩ := hsame hrc
    rw [hp] at hh'
    exact hmap.trans hh'.symm
  | new hhandler hnone =>
    rw [hp] at hhandler
    cases hhandler
    simp [insertAbsent_self, hnone]

theorem Outcome.unchanged {s : ActionRegistry H} {c : Registration H S}
    {r : ResponseCode × ActionRegistry H} (h : Outcome s c r) (hrc : r.1 ≠ .success) :
    r.2.actionCreateHandlerMap = s.actionCreateHandlerMap ∧ r.2.actionMap = s.actionMap := by
  cases h with
  | same => exact ⟨rfl, rfl⟩
  | new => exact absurd rfl hrc

/-! ### All registrations -/

def AllAgree (creates : H → S → Nat → Bool) (calls : List (Registration H S)) : Prop :=
  ∀ before c rest, calls = before ++ c :: rest → Agrees creates (afterAll creates before) c

theorem AllAgree.of_append {creates : H → S → Nat → Bool} {calls more : List (Registration H S)}
    (h : AllAgree creates (calls ++ more)) : AllAgree creates calls := by
  intro before c rest hsplit
  exact h before c (rest ++ more) (by rw [hsplit]; simp)

theorem paired_afterAll {creates : H → S → Nat → Bool} {calls : List (Registration H S)}
    (h : AllAgree creates calls) : Paired (afterAll creates calls) := by
  induction calls using List.reverseRecOn with
  | nil => exact fun t => rfl
  | append_singleton calls c ih =>
    have hpaired := ih h.of_append
    rw [afterAll_concat]
    exact (registerAction_outcome hpaired (h calls c [] rfl)).paired hpaired

theorem afterAll_frame (creates : H → S → Nat → Bool) {t : ActionType}
    (calls later : List (Registration H S)) (h : ∀ c ∈ later, c.actionType ≠ t) :
    (afterAll creates (calls ++ later)).actionCreateHandlerMap t =
      (afterAll creates calls).actionCreateHandlerMap t := by
  induction later using List.reverseRecOn with
  | nil => rw [List.append_nil]
  | append_singleton later c ih =>
    rw [← List.append_assoc, afterAll_concat,
      (registerAction_frame creates _ c (h c (by simp)).symm).1]
    exact ih (fun d hd => h d (by simp [hd]))

theorem lastWins_of_allAgree {creates : H → S → Nat → Bool} {calls : List (Registration H S)}
    (h : AllAgree creates calls) : LastWins creates calls := by
  refine ⟨fun before t p st later rest hsplit hrc hlater => ?_, fun before c rest hsplit hrc => ?_⟩
  · have hagree : AllAgree creates (before ++ ⟨t, some p, st⟩ :: later) :=
      AllAgree.of_append (hsplit ▸ h)
    have hbefore : AllAgree creates before := hagree.of_append
    have hstep := registerAction_outcome (paired_afterAll hbefore)
      (hagree before ⟨t, some p, st⟩ later rfl)
    apply (paired_afterAll hagree).serves
    have hstored := hstep.stores hrc rfl
    rw [← afterAll_concat] at hstored
    rw [List.append_cons]
    exact (afterAll_frame creates (before ++ [⟨t, some p, st⟩]) later hlater).trans hstored
  · have hbefore : AllAgree creates before := AllAgree.of_append (hsplit ▸ h)
    rw [afterAll_concat]
    exact (registerAction_outcome (paired_afterAll hbefore) (h before c rest hsplit)).unchanged hrc

theorem allAgree_of_lastWins {creates : H → S → Nat → Bool} {calls : List (Registration H S)}
    (h : LastWins creates calls) : AllAgree creates calls := by
  intro before c rest hsplit p hp
  obtain ⟨t, pActionCreateHandler, st⟩ := c
  obtain rfl : pActionCreateHandler = some p := hp
  have heq := registerAction_eq creates (afterAll creates before) t p st
  cases hmap : (afterAll creates before).actionCreateHandlerMap t with
  | none =>
    by_contra hnot
    have hfails : creates p st (afterAll creates before).created = false := by simpa using hnot
    rw [stored, hmap, Option.getD_none, hfails, if_neg (by simp)] at heq
    have hsame := (h.failure before ⟨t, some p, st⟩ rest hsplit (by rw [heq]; simp)).1
    rw [afterAll_concat, heq] at hsame
    have hentry := congrFun hsame t
    dsimp only at hentry
    rw [insertAbsent_self, hmap] at hentry
    cases hentry
  | some h' =>
    dsimp only
    cases hcreates : creates h' st (afterAll creates before).created with
    | false => exact .inr rfl
    | true =>
      rw [stored, hmap, Option.getD_some, hcreates, if_pos rfl] at heq
      have hserves := h.wins before t p st [] rest (by rw [hsplit]; simp)
        (by rw [heq]) (by simp)
      have hhandler := ((serves_iff _ _ _).1 hserves).1
      rw [afterAll_concat, heq] at hhandler
      dsimp only at hhandler
      rw [insertAbsent_self, hmap] at hhandler
      exact .inl (Option.some.inj hhandler)

/-- A history shows its last successes exactly when each of its calls keeps to what is
stored by then. -/
theorem lastWins_iff (creates : H → S → Nat → Bool) (calls : List (Registration H S)) :
    LastWins creates calls ↔ AllAgree creates calls :=
  ⟨allAgree_of_lastWins, lastWins_of_allAgree⟩

/-- Two handlers that make instances are registered for one type, or one that makes none. -/
theorem not_lastWins_publish :
    ¬LastWins (fun (_ : Bool) (_ : Unit) _ => true)
        [⟨.publish, some false, ()⟩, ⟨.publish, some true, ()⟩] ∧
      ¬LastWins (fun (_ : Bool) (_ : Unit) _ => false) [⟨.publish, some false, ()⟩] := by
  refine ⟨fun h => ?_, fun h => ?_⟩
  · have hserves := h.wins [⟨.publish, some false, ()⟩] .publish true () [] [] rfl rfl (by simp)
    exact absurd (hserves.handler true) (by decide)
  · have hsame := (h.failure [] ⟨.publish, some false, ()⟩ [] rfl (by decide)).1
    exact absurd (congrFun hsame .publish) (by decide)

end ActionRegistry

end AwsIotSdk
