import AwsIotSdk.Packet
import AwsIotSdk.Utf8Validity

/-! The scan of a string with iterators that are positions. Reading at the end of
the string, or moving past it, is a fault; the scan makes none. -/

namespace AwsIotSdk

namespace Utf8Iterators

/-- A step ends in a fault of the iterator or in an error of the encoding. -/
abbrev Outcome (α : Type) := Except (Fault ⊕ UtfError) α

def deref (str : Bytes) (it : Nat) : Outcome UInt8 :=
  match str[it]? with
  | some oc => .ok oc
  | none => .error (.inl .outOfBounds)

def increment (str : Bytes) (it : Nat) : Outcome Nat :=
  if it < str.length then .ok (it + 1) else .error (.inl .outOfBounds)

def increaseSafely (str : Bytes) (it : Nat) : Outcome Nat := do
  let it ← increment str it
  if it = str.length then .error (.inr .notEnoughRoom)
  else
    let oc ← deref str it
    if isTrail oc then return it else .error (.inr .incompleteSequence)

def getSequence1 (str : Bytes) (it : Nat) : Outcome (Nat × Nat) :=
  if it = str.length then .error (.inr .notEnoughRoom)
  else do
    let oc ← deref str it
    return (oc.toNat, it)

def getSequence2 (str : Bytes) (it : Nat) : Outcome (Nat × Nat) :=
  if it = str.length then .error (.inr .notEnoughRoom)
  else do
    let oc ← deref str it
    let it ← increaseSafely str it
    let oc₁ ← deref str it
    return (((oc.toNat <<< 6) &&& 0x7ff) + (oc₁.toNat &&& 0x3f), it)

def getSequence3 (str : Bytes) (it : Nat) : Outcome (Nat × Nat) :=
  if it = str.length then .error (.inr .notEnoughRoom)
  else do
    let oc ← deref str it
    let it ← increaseSafely str it
    let oc₁ ← deref str it
    let cp := ((oc.toNat <<< 12) &&& 0xffff) + ((oc₁.toNat <<< 6) &&& 0xfff)
    let it ← increaseSafely str it
    let oc₂ ← deref str it
    return (cp + (oc₂.toNat &&& 0x3f), it)

def getSequence4 (str : Bytes) (it : Nat) : Outcome (Nat × Nat) :=
  if it = str.length then .error (.inr .notEnoughRoom)
  else do
    let oc ← deref str it
    let it ← increaseSafely str it
    let oc₁ ← deref str it
    let cp := ((oc.toNat <<< 18) &&& 0x1fffff) + ((oc₁.toNat <<< 12) &&& 0x3ffff)
    let it ← increaseSafely str it
    let oc₂ ← deref str it
    let cp := cp + ((oc₂.toNat <<< 6) &&& 0xfff)
    let it ← increaseSafely str it
    let oc₃ ← deref str it
    return (cp + (oc₃.toNat &&& 0x3f), it)

def getSequence (length : Nat) (str : Bytes) (it : Nat) : Outcome (Nat × Nat) :=
  match length with
  | 0 => .error (.inr .invalidLead)
  | 1 => getSequence1 str it
  | 2 => getSequence2 str it
  | 3 => getSequence3 str it
  | _ => getSequence4 str it

def validateNext (str : Bytes) (it : Nat) : Outcome Nat := do
  let lead ← deref str it
  let length := sequenceLength lead
  let (cp, it) ← getSequence length str it
  if isCodePointValid cp then
    if !isOverlongSequence cp length then increment str it
    else .error (.inr .overlongSequence)
  else .error (.inr .invalidCodePoint)

/-- The loop of `findInvalid`; a failed step leaves the iterator where it was.
`none` is a loop that is still going on when the fuel is used up. -/
def findInvalidFrom (str : Bytes) : Nat → Nat → Option (Except Fault Nat)
  | 0, _ => none
  | fuel + 1, it =>
    if it = str.length then some (.ok it)
    else
      match validateNext str it with
      | .ok it => findInvalidFrom str fuel it
      | .error (.inr _) => some (.ok it)
      | .error (.inl fault) => some (.error fault)

/-! ### The positions follow the lists -/

/-- The position holds the octets that the list begins with. -/
structure At (str : Bytes) (it : Nat) (l : Bytes) : Prop where
  drop : str.drop it = l
  le : it ≤ str.length

/-- The two steps give the same value, at the same place, or the same error of the
encoding. -/
inductive Tracks {α : Type} (str : Bytes) : Outcome (α × Nat) → Except UtfError (α × Bytes) → Prop
  | ok {v : α} {it : Nat} {oc : UInt8} {l : Bytes} : At str it (oc :: l) →
      Tracks str (.ok (v, it)) (.ok (v, oc :: l))
  | error (e : UtfError) : Tracks str (.error (.inr e)) (.error e)

variable {str l : Bytes} {it : Nat} {oc : UInt8}

theorem At.deref (h : At str it (oc :: l)) : deref str it = .ok oc := by
  have hget : str[it]? = some oc := by
    have := congrArg (fun l => l[0]?) h.drop
    simpa using this
  rw [Utf8Iterators.deref, hget]

theorem At.lt (h : At str it (oc :: l)) : it < str.length := by
  have := congrArg List.length h.drop
  rw [List.length_drop, List.length_cons] at this
  omega

theorem At.next (h : At str it (oc :: l)) : At str (it + 1) l := by
  refine ⟨?_, h.lt⟩
  rw [← List.drop_drop, h.drop]
  rfl

theorem At.increment (h : At str it (oc :: l)) : increment str it = .ok (it + 1) := if_pos h.lt

theorem At.eq_length_iff (h : At str it l) : it = str.length ↔ l = [] := by
  have hlen := congrArg List.length h.drop
  have hle := h.le
  rw [List.length_drop] at hlen
  rw [← List.length_eq_zero_iff]
  omega

theorem Tracks.afterIncrease {α : Type} {f : UInt8 → Nat → Outcome (α × Nat)}
    {g : UInt8 × Bytes → Except UtfError (α × Bytes)} (h : At str it (oc :: l))
    (hfg : ∀ it oc l, At str it (oc :: l) → Tracks str (f oc it) (g (oc, oc :: l))) :
    Tracks str (do
      let it ← increaseSafely str it
      let oc ← Utf8Iterators.deref str it
      f oc it) (AwsIotSdk.increaseSafely (oc :: l) >>= g) := by
  have hnext := h.next
  rw [increaseSafely, h.increment]
  change Tracks str ((if it + 1 = str.length then _ else _) >>= _) _
  cases l with
  | nil =>
    rw [if_pos (hnext.eq_length_iff.mpr rfl)]
    exact .error _
  | cons oc₁ l =>
    rw [if_neg (fun hend => nomatch hnext.eq_length_iff.mp hend), hnext.deref]
    change Tracks str ((if isTrail oc₁ then pure (it + 1) else _) >>= _) _
    by_cases htrail : isTrail oc₁ = true
    · rw [if_pos htrail, increaseSafely_trail htrail]
      change Tracks str (Utf8Iterators.deref str (it + 1) >>= _) _
      rw [hnext.deref]
      exact hfg _ _ _ hnext
    · rw [if_neg htrail, increaseSafely_other htrail]
      exact .error _

theorem getSequence2_tracks (h : At str it (oc :: l)) :
    Tracks str (getSequence2 str it) (AwsIotSdk.getSequence2 (oc :: l)) := by
  rw [getSequence2, if_neg h.lt.ne, h.deref, AwsIotSdk.getSequence2]
  apply Tracks.afterIncrease h
  intro it oc₁ l h
  exact .ok h

theorem getSequence3_tracks (h : At str it (oc :: l)) :
    Tracks str (getSequence3 str it) (AwsIotSdk.getSequence3 (oc :: l)) := by
  rw [getSequence3, if_neg h.lt.ne, h.deref, AwsIotSdk.getSequence3]
  apply Tracks.afterIncrease h
  intro it oc₁ l h
  apply Tracks.afterIncrease h
  intro it oc₂ l h
  exact .ok h

theorem getSequence4_tracks (h : At str it (oc :: l)) :
    Tracks str (getSequence4 str it) (AwsIotSdk.getSequence4 (oc :: l)) := by
  rw [getSequence4, if_neg h.lt.ne, h.deref, AwsIotSdk.getSequence4]
  apply Tracks.afterIncrease h
  intro it oc₁ l h
  apply Tracks.afterIncrease h
  intro it oc₂ l h
  apply Tracks.afterIncrease h
  intro it oc₃ l h
  exact .ok h

theorem getSequence_tracks (length : Nat) (h : At str it (oc :: l)) :
    Tracks str (getSequence length str it) (AwsIotSdk.getSequence length (oc :: l)) := by
  rcases length with _ | _ | _ | _ | length
  · exact .error _
  · change Tracks str (getSequence1 str it) _
    rw [getSequence1, if_neg h.lt.ne, h.deref]
    exact .ok h
  · exact getSequence2_tracks h
  · exact getSequence3_tracks h
  · exact getSequence4_tracks h

theorem validateNext_follows (h : At str it (oc :: l)) :
    (∃ it' rest, validateNext str it = .ok it' ∧ AwsIotSdk.validateNext (oc :: l) = .ok rest ∧
      At str it' rest) ∨
    ∃ e, validateNext str it = .error (.inr e) ∧ AwsIotSdk.validateNext (oc :: l) = .error e := by
  have htracks := getSequence_tracks (sequenceLength oc) h
  rw [validateNext, h.deref, validateNext_cons]
  change (∃ it' rest, (getSequence (sequenceLength oc) str it >>= _) = _ ∧ _) ∨
    ∃ e, (getSequence (sequenceLength oc) str it >>= _) = _ ∧ _
  generalize getSequence (sequenceLength oc) str it = x at htracks ⊢
  generalize AwsIotSdk.getSequence (sequenceLength oc) (oc :: l) = y at htracks ⊢
  cases htracks with
  | error e => exact .inr ⟨e, rfl, rfl⟩
  | @ok cp it' oc' l' hat =>
    simp only [bind, Except.bind, hat.increment, List.tail_cons]
    by_cases hvalid : isCodePointValid cp = true
    · by_cases hover : isOverlongSequence cp (sequenceLength oc) = true
      · exact .inr ⟨.overlongSequence, by simp [hvalid, hover], by simp [hvalid, hover]⟩
      · exact .inl ⟨it' + 1, l', by simp [hvalid, hover], by simp [hvalid, hover], hat.next⟩
    · exact .inr ⟨.invalidCodePoint, by simp [hvalid], by simp [hvalid]⟩

/-- The scan faults nowhere, and it stops at the same octet for all fuel that is
enough. -/
theorem findInvalidFrom_follows (fuel fuel' : Nat) (h : At str it l) (hfuel : l.length < fuel)
    (hfuel' : l.length ≤ fuel') :
    ∃ stop, findInvalidFrom str fuel it = some (.ok stop) ∧
      At str stop (AwsIotSdk.findInvalidFrom fuel' l) := by
  induction fuel generalizing fuel' it l with
  | zero => omega
  | succ fuel ih =>
    rw [findInvalidFrom]
    cases l with
    | nil =>
      rw [if_pos (h.eq_length_iff.mpr rfl)]
      refine ⟨it, rfl, ?_⟩
      cases fuel' <;> exact h
    | cons oc l =>
      obtain ⟨fuel', rfl⟩ : ∃ n, fuel' = n + 1 := ⟨fuel' - 1, by simp at hfuel'; omega⟩
      rw [if_neg h.lt.ne]
      rcases validateNext_follows h with ⟨it', rest, hpos, hlist, hat⟩ | ⟨e, hpos, hlist⟩
      · obtain ⟨w, hw, heq⟩ := validateNext_eq_ok.mp hlist
        have hlen := congrArg List.length heq
        have hw := hw.length_pos
        rw [List.length_append] at hlen
        obtain ⟨stop, hscan, hstop⟩ := ih fuel' hat (by omega) (by omega)
        refine ⟨stop, ?_, ?_⟩
        · rw [hpos]
          exact hscan
        · rw [AwsIotSdk.findInvalidFrom, hlist]
          · exact hstop
          · simp
      · refine ⟨it, ?_, ?_⟩
        · rw [hpos]
        · rw [AwsIotSdk.findInvalidFrom, hlist]
          · exact h
          · simp

end Utf8Iterators

/-- A string is made of exactly the well-formed byte strings. The scan ends, reads
inside the string only and stops where no row of the table matches. -/
theorem utf8_validation_exact (str : Bytes) :
    ((Utf8String.create str).isSome = true ↔ WellFormedUtf8 str) ∧
    ∃ pre rest, str = pre ++ rest ∧ WellFormedUtf8 pre ∧ (rest = [] ∨ IllFormedHere rest) ∧
      (∀ fuel, str.length < fuel →
        Utf8Iterators.findInvalidFrom str fuel 0 = some (.ok pre.length)) ∧
      ((Utf8String.create str).isSome = true ↔ pre.length = str.length) := by
  rw [Utf8String.isSome_create]
  obtain ⟨pre, hstr, hpre, hend⟩ := findInvalidFrom_spec str.length str (Nat.le_refl _)
  have hlen := congrArg List.length hstr
  rw [List.length_append] at hlen
  refine ⟨isValidInput_iff str, pre, findInvalid str, hstr, hpre, hend, ?_, ?_⟩
  · intro fuel hfuel
    have hstart : Utf8Iterators.At str 0 str := ⟨rfl, Nat.zero_le _⟩
    obtain ⟨stop, hscan, hat⟩ :=
      Utf8Iterators.findInvalidFrom_follows fuel str.length hstart hfuel (Nat.le_refl _)
    have hdrop := congrArg List.length hat.drop
    have hle := hat.le
    rw [List.length_drop] at hdrop
    rw [hscan, show stop = pre.length by omega]
  · rw [isValidInput, beq_iff_eq, ← List.length_eq_zero_iff, findInvalid]
    omega

end AwsIotSdk
