import AwsIotSdk.EcmaRegex

/-! Parsing plain patterns: characters that stand for themselves, an escaped
dollar sign, and negated bracket classes under a star. -/

namespace EcmaRegex

def StartsPlain (w : Text) : Prop :=
  ∀ c ∈ w.head?, c ≠ star ∧ c ≠ plus ∧ c ≠ question ∧ c ≠ lbrace

theorem quantified_of_startsPlain (r : Regex) {w : Text} (h : StartsPlain w) :
    quantified r w = some (r, w) := by
  cases w with
  | nil => rfl
  | cons c w =>
    obtain ⟨h1, h2, h3, h4⟩ := h c rfl
    simp [quantified, bounds, h1, h2, h3, h4]

theorem quantified_star (r : Regex) {w : Text} (h : StartsPlain w) :
    quantified r (star :: w) = some (.loop r 0 none true, w) := by
  cases w with
  | nil => rfl
  | cons c w =>
    obtain ⟨_, _, h3, _⟩ := h c rfl
    simp [quantified, bounds, h3]

theorem term_patternCharacter {c : UInt8} (hc : isSyntax c = false) {w : Text}
    (hw : StartsPlain w) (fuel n : Nat) :
    term (fuel + 1) c w n = some (.set (· == c), w, n) := by
  have hne : ∀ d, isSyntax d = true → (c == d) = false := by
    intro d hd
    rw [beq_eq_false_iff_ne]
    rintro rfl
    simp [hc] at hd
  unfold term
  simp only [hne caret rfl, hne dollar rfl, hne dot rfl, hne lbrack rfl, hne lparen rfl,
    hne backslash rfl, hc, Bool.false_eq_true, if_false, quantified_of_startsPlain _ hw]
  rfl

theorem term_escapedDollar {w : Text} (hw : StartsPlain w) (fuel n : Nat) :
    term (fuel + 1) backslash (dollar :: w) n = some (.set (· == dollar), w, n) := by
  have hescape : charEscape (dollar :: w) = some (dollar, w) := rfl
  have hclass : classEscape dollar = none := rfl
  have hterm : term (fuel + 1) backslash (dollar :: w) n =
      (charEscape (dollar :: w)).bind fun e =>
        (quantified (.set (· == e.1)) e.2).bind fun q => some (q.1, q.2, n) := by
    unfold term
    rfl
  rw [hterm, hescape]
  simp only [Option.bind_some, quantified_of_startsPlain _ hw]

/-- A class member that starts neither a range, nor a nested class, nor an
escape. -/
def isMember (c : UInt8) : Bool := !([lbrack, rbrack, backslash, dash].contains c)

theorem classAtom_of_isMember {c : UInt8} (hc : isMember c = true) (w : Text) :
    classAtom (c :: w) = some (.inl c, w) := by
  have hb : (c == backslash) = false := by
    rw [beq_eq_false_iff_ne]
    rintro rfl
    simp [isMember] at hc
  have hl : (c == lbrack) = false := by
    rw [beq_eq_false_iff_ne]
    rintro rfl
    simp [isMember] at hc
  simp only [classAtom, hb, hl, Bool.false_eq_true, if_false]

theorem classMembers_cons {c : UInt8} (hc : isMember c = true) (w : Text)
    (hw : ∀ d ∈ w.head?, d ≠ dash) (fuel : Nat) (acc : UInt8 → Bool) :
    classMembers (fuel + 1) (c :: w) acc = classMembers fuel w (fun b => acc b || c == b) := by
  have hbrack : (c == rbrack) = false := by
    rw [beq_eq_false_iff_ne]
    rintro rfl
    simp [isMember] at hc
  conv_lhs => rw [classMembers]
  simp only [hbrack, Bool.false_eq_true, if_false, classAtom_of_isMember hc,
    Option.bind_eq_bind, Option.bind_some]
  match w, hw with
  | [], _ => rfl
  | [d], _ => rfl
  | d :: e :: w, hw =>
    have hd : (d == dash) = false := by
      rw [beq_eq_false_iff_ne]
      exact hw d rfl
    simp only [hd, Bool.false_and, Bool.false_eq_true, if_false]
    rfl

theorem classMembers_of_members {cs : Text} (hcs : ∀ c ∈ cs, isMember c = true) (w : Text)
    (fuel : Nat) (hf : cs.length < fuel) (acc : UInt8 → Bool) :
    ∃ s, classMembers fuel (cs ++ rbrack :: w) acc = some (s, w) ∧
      ∀ b, s b = (acc b || cs.contains b) := by
  induction cs generalizing fuel acc with
  | nil =>
    obtain ⟨fuel, rfl⟩ : ∃ k, fuel = k + 1 := ⟨fuel - 1, by simp at hf; omega⟩
    exact ⟨acc, by simp [classMembers], by simp⟩
  | cons c cs ih =>
    obtain ⟨fuel, rfl⟩ : ∃ k, fuel = k + 1 := ⟨fuel - 1, by simp at hf; omega⟩
    have hhead : ∀ d ∈ (cs ++ rbrack :: w).head?, d ≠ dash := by
      intro d hd
      cases cs with
      | nil =>
        cases hd
        decide
      | cons e cs =>
        cases hd
        rintro rfl
        simpa [isMember] using hcs dash (by simp)
    obtain ⟨s, hs, hmem⟩ := ih (fun d hd => hcs d (by simp [hd])) fuel (by simpa using hf)
      (fun b => acc b || c == b)
    refine ⟨s, ?_, fun b => ?_⟩
    · rw [List.cons_append, classMembers_cons (hcs c (by simp)) _ hhead, hs]
    · rw [hmem, List.contains_cons, Bool.or_assoc, BEq.comm]

theorem term_negatedStar (cs : Text) (hcs : ∀ c ∈ cs, isMember c = true) {w : Text}
    (hw : StartsPlain w) (fuel n : Nat) :
    ∃ s : UInt8 → Bool,
      term (fuel + 1) lbrack (caret :: cs ++ rbrack :: star :: w) n =
        some (.loop (.set s) 0 none true, w, n) ∧
      ∀ b, s b = !cs.contains b := by
  obtain ⟨s, hs, hmem⟩ := classMembers_of_members hcs (star :: w)
    ((caret :: cs ++ rbrack :: star :: w).length + 1) (by simp; omega) (fun _ => false)
  refine ⟨fun b => !s b, ?_, fun b => by simp [hmem]⟩
  have hclass : bracketClass (caret :: cs ++ rbrack :: star :: w) =
      some (.set (fun b => !s b), star :: w) := by
    simp only [bracketClass, List.cons_append, beq_self_eq_true, if_true] at hs ⊢
    rw [hs]
    rfl
  have hterm : term (fuel + 1) lbrack (caret :: cs ++ rbrack :: star :: w) n =
      (bracketClass (caret :: cs ++ rbrack :: star :: w)).bind fun e =>
        (quantified e.1 e.2).bind fun q => some (q.1, q.2, n) := by
    unfold term
    rfl
  rw [hterm, hclass]
  simp only [Option.bind_some, quantified_star _ hw]

end EcmaRegex
