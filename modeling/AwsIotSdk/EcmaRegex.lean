import Mathlib.Computability.Language

/-! ECMAScript regular expressions over bytes: the pattern grammar with the
bracket classes of the C++ standard library, and backtracking matching. A
pattern outside the grammar has no syntax tree. -/

namespace EcmaRegex

abbrev Text := List UInt8

inductive Regex where
  | empty
  | set (accepts : UInt8 → Bool)
  | seq (a b : Regex)
  | alt (a b : Regex)
  | loop (r : Regex) (min : Nat) (max : Option Nat) (greedy : Bool)
  | group (index : Nat) (r : Regex)
  | look (negated : Bool) (r : Regex)
  | backref (index : Nat)
  | lineStart
  | lineEnd
  | wordBoundary (negated : Bool)

/- The punctuation of the grammar. -/
def dollar : UInt8 := 0x24
def lparen : UInt8 := 0x28
def rparen : UInt8 := 0x29
def star : UInt8 := 0x2a
def plus : UInt8 := 0x2b
def comma : UInt8 := 0x2c
def dash : UInt8 := 0x2d
def dot : UInt8 := 0x2e
def colon : UInt8 := 0x3a
def equals : UInt8 := 0x3d
def question : UInt8 := 0x3f
def lbrack : UInt8 := 0x5b
def backslash : UInt8 := 0x5c
def rbrack : UInt8 := 0x5d
def caret : UInt8 := 0x5e
def lbrace : UInt8 := 0x7b
def bar : UInt8 := 0x7c
def rbrace : UInt8 := 0x7d

def isSyntax (c : UInt8) : Bool :=
  [caret, dollar, backslash, dot, star, plus, question, lparen, rparen, lbrack, rbrack,
    lbrace, rbrace, bar].contains c

def isDigit (c : UInt8) : Bool := 0x30 ≤ c && c ≤ 0x39
def isUpper (c : UInt8) : Bool := 0x41 ≤ c && c ≤ 0x5a
def isLower (c : UInt8) : Bool := 0x61 ≤ c && c ≤ 0x7a
def isAlpha (c : UInt8) : Bool := isUpper c || isLower c
def isWord (c : UInt8) : Bool := isAlpha c || isDigit c || c == 0x5f
def isSpace (c : UInt8) : Bool := c == 0x20 || (0x09 ≤ c && c ≤ 0x0d)
def isPrint (c : UInt8) : Bool := 0x20 ≤ c && c ≤ 0x7e

def hexValue (c : UInt8) : Option Nat :=
  if isDigit c then some (c.toNat - 0x30)
  else if 0x41 ≤ c && c ≤ 0x46 then some (c.toNat - 0x37)
  else if 0x61 ≤ c && c ≤ 0x66 then some (c.toNat - 0x57)
  else none

def letter (c : Char) : UInt8 := c.toUInt8

def classEscape (c : UInt8) : Option (UInt8 → Bool) :=
  if c == letter 'd' then some isDigit
  else if c == letter 'D' then some (fun b => !isDigit b)
  else if c == letter 's' then some isSpace
  else if c == letter 'S' then some (fun b => !isSpace b)
  else if c == letter 'w' then some isWord
  else if c == letter 'W' then some (fun b => !isWord b)
  else none

/-- A character escape, read behind its backslash. A byte stands for one
character, so `\u` escapes above 255 name no character. -/
def charEscape : Text → Option (UInt8 × Text)
  | [] => none
  | c :: w =>
    if c == letter 't' then some (0x09, w)
    else if c == letter 'n' then some (0x0a, w)
    else if c == letter 'v' then some (0x0b, w)
    else if c == letter 'f' then some (0x0c, w)
    else if c == letter 'r' then some (0x0d, w)
    else if c == letter 'c' then
      match w with
      | l :: w => if isAlpha l then some (l % 32, w) else none
      | [] => none
    else if c == letter 'x' then
      match w with
      | a :: b :: w => do
        let a ← hexValue a
        let b ← hexValue b
        return (UInt8.ofNat (16 * a + b), w)
      | _ => none
    else if c == letter 'u' then
      match w with
      | a :: b :: a' :: b' :: w => do
        let a ← hexValue a
        let b ← hexValue b
        let a' ← hexValue a'
        let b' ← hexValue b'
        if a = 0 ∧ b = 0 then return (UInt8.ofNat (16 * a' + b'), w) else none
      | _ => none
    else if c == letter '0' then
      match w with
      | d :: _ => if isDigit d then none else some (0x00, w)
      | [] => some (0x00, w)
    else if isWord c then none
    else some (c, w)

def number : Text → Nat → Text × Nat
  | c :: w, n => if isDigit c then number w (10 * n + (c.toNat - 0x30)) else (c :: w, n)
  | [], n => ([], n)

def namedClass (name : Text) : Option (UInt8 → Bool) :=
  let is (s : List Char) := name == s.map letter
  if is ['a', 'l', 'n', 'u', 'm'] then some (fun b => isAlpha b || isDigit b)
  else if is ['a', 'l', 'p', 'h', 'a'] then some isAlpha
  else if is ['b', 'l', 'a', 'n', 'k'] then some (fun b => b == 0x20 || b == 0x09)
  else if is ['c', 'n', 't', 'r', 'l'] then some (fun b => b < 0x20 || b == 0x7f)
  else if is ['d', 'i', 'g', 'i', 't'] || is ['d'] then some isDigit
  else if is ['g', 'r', 'a', 'p', 'h'] then some (fun b => isPrint b && b != 0x20)
  else if is ['l', 'o', 'w', 'e', 'r'] then some isLower
  else if is ['p', 'r', 'i', 'n', 't'] then some isPrint
  else if is ['p', 'u', 'n', 'c', 't'] then
    some (fun b => isPrint b && b != 0x20 && !isAlpha b && !isDigit b)
  else if is ['s', 'p', 'a', 'c', 'e'] || is ['s'] then some isSpace
  else if is ['u', 'p', 'p', 'e', 'r'] then some isUpper
  else if is ['w'] then some isWord
  else if is ['x', 'd', 'i', 'g', 'i', 't'] then some (fun b => (hexValue b).isSome)
  else none

def classAtom : Text → Option ((UInt8 ⊕ (UInt8 → Bool)) × Text)
  | [] => none
  | c :: w =>
    if c == backslash then
      match w with
      | [] => none
      | e :: w' =>
        if e == letter 'b' then some (.inl 0x08, w')
        else match classEscape e with
          | some s => some (.inr s, w')
          | none => (charEscape w).map (fun r => (.inl r.1, r.2))
    else if c == lbrack then
      match w with
      | [] => some (.inl c, w)
      | k :: w' =>
        if k == colon then
          let name := w'.takeWhile (fun b => b != colon)
          match w'.drop name.length with
          | a :: b :: rest =>
            if a == colon && b == rbrack then (namedClass name).map (fun s => (.inr s, rest))
            else none
          | _ => none
        else if k == equals || k == dot then
          match w' with
          | b :: a :: z :: rest => if a == k && z == rbrack then some (.inl b, rest) else none
          | _ => none
        else some (.inl c, w)
    else some (.inl c, w)

def classMembers : Nat → Text → (UInt8 → Bool) → Option ((UInt8 → Bool) × Text)
  | 0, _, _ => none
  | _ + 1, [], _ => none
  | fuel + 1, c :: w, acc =>
    if c == rbrack then some (acc, w)
    else do
      let (lo, w) ← classAtom (c :: w)
      match w with
      | d :: e :: _ =>
        if d == dash && e != rbrack then
          let (hi, w) ← classAtom w.tail
          match lo, hi with
          | .inl lo, .inl hi =>
            if lo ≤ hi then classMembers fuel w (fun b => acc b || (lo ≤ b && b ≤ hi)) else none
          | _, _ => none
        else classMembers fuel w (fun b => acc b || lo.elim (· == b) (fun s => s b))
      | _ => classMembers fuel w (fun b => acc b || lo.elim (· == b) (fun s => s b))

def bracketClass (w : Text) : Option (Regex × Text) :=
  match w with
  | [] => none
  | c :: w' =>
    if c == caret then
      (classMembers (w.length + 1) w' (fun _ => false)).map
        (fun r => (.set (fun b => !r.1 b), r.2))
    else (classMembers (w.length + 1) w (fun _ => false)).map (fun r => (.set r.1, r.2))

def bounds : Text → Option (Option (Nat × Option Nat) × Text)
  | [] => some (none, [])
  | c :: w =>
    if c == star then some (some (0, none), w)
    else if c == plus then some (some (1, none), w)
    else if c == question then some (some (0, some 1), w)
    else if c == lbrace then
      match w with
      | d :: _ =>
        if !isDigit d then none
        else
          let (w, min) := number w 0
          match w with
          | e :: w =>
            if e == rbrace then some (some (min, some min), w)
            else if e != comma then none
            else
              match w with
              | d :: w' =>
                if d == rbrace then some (some (min, none), w')
                else if !isDigit d then none
                else
                  let (w, max) := number w 0
                  match w with
                  | e :: w =>
                    if e == rbrace && min ≤ max then some (some (min, some max), w) else none
                  | [] => none
              | [] => none
          | [] => none
      | [] => none
    else some (none, c :: w)

def quantified (r : Regex) (w : Text) : Option (Regex × Text) := do
  let (b, w) ← bounds w
  match b with
  | none => return (r, w)
  | some (min, max) =>
    match w with
    | c :: w' =>
      if c == question then return (.loop r min max false, w')
      else return (.loop r min max true, w)
    | [] => return (.loop r min max true, w)

/- The parser proper. The first argument bounds the nesting, the last one
counts the capturing groups opened so far. -/
mutual

def disjunction : Nat → Text → Nat → Option (Regex × Text × Nat)
  | 0, _, _ => none
  | fuel + 1, w, n => do
    let (a, w, n) ← alternative fuel w n
    match w with
    | c :: w' =>
      if c == bar then
        let (b, w, n) ← disjunction fuel w' n
        return (.alt a b, w, n)
      else return (a, w, n)
    | [] => return (a, w, n)

def alternative : Nat → Text → Nat → Option (Regex × Text × Nat)
  | 0, _, _ => none
  | _ + 1, [], n => some (.empty, [], n)
  | fuel + 1, c :: w, n =>
    if c == bar || c == rparen then some (.empty, c :: w, n)
    else do
      let (a, w, n) ← term fuel c w n
      let (b, w, n) ← alternative fuel w n
      return (.seq a b, w, n)

def term : Nat → UInt8 → Text → Nat → Option (Regex × Text × Nat)
  | 0, _, _, _ => none
  | fuel + 1, c, w, n =>
    if c == caret then some (.lineStart, w, n)
    else if c == dollar then some (.lineEnd, w, n)
    else if c == dot then do
      let (r, w) ← quantified (.set (fun b => b != 0x0a && b != 0x0d)) w
      return (r, w, n)
    else if c == lbrack then do
      let (r, w) ← bracketClass w
      let (r, w) ← quantified r w
      return (r, w, n)
    else if c == lparen then parenthesis fuel w n
    else if c == backslash then
      match w with
      | [] => none
      | e :: w' =>
        if e == letter 'b' then some (.wordBoundary false, w', n)
        else if e == letter 'B' then some (.wordBoundary true, w', n)
        else if isDigit e && e != letter '0' then do
          let (w, k) := number w 0
          let (r, w) ← quantified (.backref k) w
          return (r, w, n)
        else match classEscape e with
          | some s => do
            let (r, w) ← quantified (.set s) w'
            return (r, w, n)
          | none => do
            let (b, w) ← charEscape w
            let (r, w) ← quantified (.set (· == b)) w
            return (r, w, n)
    else if isSyntax c then none
    else do
      let (r, w) ← quantified (.set (· == c)) w
      return (r, w, n)

def parenthesis : Nat → Text → Nat → Option (Regex × Text × Nat)
  | 0, _, _ => none
  | fuel + 1, w, n =>
    let special := w.head? == some question
    if special && w[1]? == some colon then do
      let (r, w, n) ← disjunction fuel (w.drop 2) n
      if w.head? == some rparen then
        let (r, w) ← quantified r w.tail
        return (r, w, n)
      else none
    else if special && (w[1]? == some equals || w[1]? == some 0x21) then do
      let (r, rest, n) ← disjunction fuel (w.drop 2) n
      if rest.head? == some rparen then return (.look (w[1]? == some 0x21) r, rest.tail, n)
      else none
    else if special then none
    else do
      let (r, w, m) ← disjunction fuel w (n + 1)
      if w.head? == some rparen then
        let (r, w) ← quantified (.group (n + 1) r) w.tail
        return (r, w, m)
      else none

end

def maxBackref : Regex → Nat
  | .seq a b | .alt a b => max (maxBackref a) (maxBackref b)
  | .loop r _ _ _ | .group _ r | .look _ r => maxBackref r
  | .backref k => k
  | _ => 0

/-- The syntax tree of a pattern, or none where the constructor of the regular
expression throws. -/
def parse (pattern : Text) : Option Regex := do
  let (r, w, n) ← disjunction (4 * pattern.length + 4) pattern 0
  if w = [] ∧ maxBackref r ≤ n then some r else none

structure Position where
  prev : Option UInt8
  rest : Text
  captures : List (Nat × Text)

def Position.consume (p : Position) (k : Nat) : Position :=
  { p with
    prev := if k = 0 then p.prev else p.rest[k - 1]?
    rest := p.rest.drop k }

def groups : Regex → List Nat
  | .seq a b | .alt a b => groups a ++ groups b
  | .loop r _ _ _ | .look _ r => groups r
  | .group k r => k :: groups r
  | _ => []

/-- Repeats a matcher. Once the minimum is reached an iteration has to consume
something, which bounds the iterations by the minimum and the bytes ahead. -/
def iterate (body : Position → List Position) (greedy : Bool) :
    Nat → Nat → Option Nat → Position → List Position
  | 0, _, _, _ => []
  | fuel + 1, min, max, p =>
    if max = some 0 then [p]
    else
      let again := ((body p).filter (fun q => min ≠ 0 || q.rest.length ≠ p.rest.length)).flatMap
        (iterate body greedy fuel (min - 1) (max.map (· - 1)))
      if min ≠ 0 then again
      else if greedy then again ++ [p]
      else p :: again

def matchAt : Regex → Position → List Position
  | .empty, p => [p]
  | .set s, p =>
    match p.rest with
    | b :: _ => if s b then [p.consume 1] else []
    | [] => []
  | .seq a b, p => (matchAt a p).flatMap (matchAt b)
  | .alt a b, p => matchAt a p ++ matchAt b p
  | .loop r min max greedy, p =>
    let inner := groups r
    iterate
      (fun q => matchAt r
        { q with captures := q.captures.filter (fun c => !inner.contains c.1) })
      greedy (min + p.rest.length + 1) min max p
  | .group k r, p =>
    (matchAt r p).map (fun q =>
      { q with captures := (k, p.rest.take (p.rest.length - q.rest.length)) :: q.captures })
  | .look false r, p =>
    match matchAt r p with
    | [] => []
    | q :: _ => [{ p with captures := q.captures }]
  | .look true r, p => if (matchAt r p).isEmpty then [p] else []
  | .backref k, p =>
    match p.captures.lookup k with
    | none => [p]
    | some text => if text.isPrefixOf p.rest then [p.consume text.length] else []
  | .lineStart, p => if p.prev.isNone then [p] else []
  | .lineEnd, p => if p.rest.isEmpty then [p] else []
  | .wordBoundary negated, p =>
    let before := p.prev.any isWord
    let ahead := p.rest.head?.any isWord
    if (before != ahead) != negated then [p] else []

def regexMatch (r : Regex) (subject : Text) : Bool :=
  (matchAt r ⟨none, subject, []⟩).any (fun q => q.rest.isEmpty)

def letters (s : UInt8 → Bool) : Language UInt8 := {w | ∃ b, s b = true ∧ w = [b]}

/-- The regular fragment: patterns without groups, look-ahead, back references
and anchors, with the language they denote. -/
inductive Denotes : Regex → Language UInt8 → Prop
  | empty : Denotes .empty 1
  | set (s : UInt8 → Bool) : Denotes (.set s) (letters s)
  | seq {a b : Regex} {l m : Language UInt8} :
      Denotes a l → Denotes b m → Denotes (.seq a b) (l * m)
  | alt {a b : Regex} {l m : Language UInt8} :
      Denotes a l → Denotes b m → Denotes (.alt a b) (l + m)
  | star {r : Regex} {l : Language UInt8} (greedy : Bool) :
      Denotes r l → Denotes (.loop r 0 none greedy) (KStar.kstar l)

def Consumes (body : Position → List Position) (l : Language UInt8) : Prop :=
  ∀ p t, (∃ q ∈ body p, q.rest = t) ↔ ∃ u ∈ l, p.rest = u ++ t

theorem iterate_sound {body : Position → List Position} {l : Language UInt8}
    (hb : Consumes body l) (greedy : Bool) (fuel : Nat) {p q : Position}
    (hq : q ∈ iterate body greedy fuel 0 none p) :
    ∃ u ∈ KStar.kstar l, p.rest = u ++ q.rest := by
  induction fuel generalizing p with
  | zero => simp [iterate] at hq
  | succ fuel ih =>
    have hcases : q = p ∨ ∃ q' ∈ body p, q ∈ iterate body greedy fuel 0 none q' := by
      unfold iterate at hq
      simp only [Option.map_none, reduceCtorEq, if_false, ne_eq, not_true_eq_false] at hq
      cases greedy <;> simp at hq <;> tauto
    rcases hcases with rfl | ⟨q', hq', hrest⟩
    · exact ⟨[], Language.nil_mem_kstar l, rfl⟩
    · obtain ⟨u, hu, hp⟩ := (hb p q'.rest).mp ⟨q', hq', rfl⟩
      obtain ⟨v, hv, hq⟩ := ih hrest
      refine ⟨u ++ v, ?_, by rw [hp, hq, List.append_assoc]⟩
      rw [← Language.one_add_self_mul_kstar_eq_kstar]
      exact .inr (Language.append_mem_mul hu hv)

theorem iterate_complete {body : Position → List Position} {l : Language UInt8}
    (hb : Consumes body l) (greedy : Bool) (ws : List Text)
    (hws : ∀ w ∈ ws, w ∈ l ∧ w ≠ []) {fuel : Nat} {p : Position} {t : Text}
    (hfuel : p.rest.length < fuel) (hp : p.rest = ws.flatten ++ t) :
    ∃ q ∈ iterate body greedy fuel 0 none p, q.rest = t := by
  induction ws generalizing fuel p with
  | nil =>
    obtain ⟨fuel, rfl⟩ : ∃ k, fuel = k + 1 := ⟨fuel - 1, by omega⟩
    refine ⟨p, ?_, by simpa using hp⟩
    unfold iterate
    cases greedy <;> simp
  | cons w ws ih =>
    obtain ⟨fuel, rfl⟩ : ∃ k, fuel = k + 1 := ⟨fuel - 1, by omega⟩
    have hw := hws w (by simp)
    obtain ⟨q', hq', hrest⟩ := (hb p (ws.flatten ++ t)).mpr ⟨w, hw.1, by simpa using hp⟩
    have hlen : q'.rest.length < p.rest.length := by
      have hpos := List.length_pos_iff.mpr hw.2
      simp only [hp, hrest, List.flatten_cons, List.length_append]
      omega
    have hlt : q'.rest.length < fuel := by omega
    obtain ⟨q, hq, ht⟩ := ih (fun v hv => hws v (by simp [hv])) hlt hrest
    refine ⟨q, ?_, ht⟩
    unfold iterate
    have hagain : ∃ a, (a ∈ body p ∧ ¬ a.rest.length = p.rest.length) ∧
        q ∈ iterate body greedy fuel 0 none a := ⟨q', ⟨hq', by omega⟩, hq⟩
    cases greedy <;> simp [hagain]

theorem Denotes.consumes {r : Regex} {l : Language UInt8} (h : Denotes r l) :
    Consumes (matchAt r) l := by
  induction h with
  | empty =>
    intro p t
    simp [matchAt, Language.mem_one]
  | set s =>
    intro p t
    constructor
    · rintro ⟨q, hq, rfl⟩
      cases hp : p.rest with
      | nil => simp [matchAt, hp] at hq
      | cons b w =>
        simp only [matchAt, hp] at hq
        split_ifs at hq with hs
        · rw [List.mem_singleton] at hq
          subst hq
          exact ⟨[b], ⟨b, hs, rfl⟩, by simp [Position.consume, hp]⟩
        · simp at hq
    · rintro ⟨u, ⟨b, hs, rfl⟩, hp⟩
      simp only [List.singleton_append] at hp
      exact ⟨p.consume 1, by simp [matchAt, hp, hs], by simp [Position.consume, hp]⟩
  | @seq a b l m _ _ iha ihb =>
    intro p t
    simp only [matchAt, List.mem_flatMap]
    constructor
    · rintro ⟨q, ⟨q', hq', hq⟩, ht⟩
      obtain ⟨u, hu, hp⟩ := (iha p q'.rest).mp ⟨q', hq', rfl⟩
      obtain ⟨v, hv, hq''⟩ := (ihb q' t).mp ⟨q, hq, ht⟩
      exact ⟨u ++ v, Language.append_mem_mul hu hv, by rw [hp, hq'', List.append_assoc]⟩
    · rintro ⟨w, hw, hp⟩
      obtain ⟨u, hu, v, hv, rfl⟩ := Language.mem_mul.mp hw
      obtain ⟨q', hq', hrest⟩ := (iha p (v ++ t)).mpr ⟨u, hu, by rw [hp, List.append_assoc]⟩
      obtain ⟨q, hq, ht⟩ := (ihb q' t).mpr ⟨v, hv, hrest⟩
      exact ⟨q, ⟨q', hq', hq⟩, ht⟩
  | @alt a b l m _ _ iha ihb =>
    intro p t
    simp only [matchAt, List.mem_append, or_and_right, exists_or, iha p t, ihb p t,
      Language.mem_add]
  | @star r l greedy _ ih =>
    intro p t
    have hb : Consumes (fun q => matchAt r
        { q with captures := q.captures.filter (fun c => !(groups r).contains c.1) }) l :=
      fun q t => ih _ t
    constructor
    · rintro ⟨q, hq, rfl⟩
      exact iterate_sound hb greedy _ hq
    · rintro ⟨u, hu, hp⟩
      rw [Language.kstar_def_nonempty] at hu
      obtain ⟨ws, rfl, hws⟩ := hu
      exact iterate_complete hb greedy ws hws (by omega) hp

/-- On the regular fragment the whole subject matches exactly when it is a word
of the denoted language. -/
theorem Denotes.regexMatch_iff {r : Regex} {l : Language UInt8} (h : Denotes r l)
    (subject : Text) : regexMatch r subject = true ↔ subject ∈ l := by
  have hc := h.consumes ⟨none, subject, []⟩ []
  simp only [List.append_nil] at hc
  simp only [regexMatch, List.any_eq_true, List.isEmpty_iff, hc]
  constructor
  · rintro ⟨u, hu, rfl⟩
    exact hu
  · intro hs
    exact ⟨subject, hs, rfl⟩

theorem mem_kstar_letters (s : UInt8 → Bool) (u : Text) :
    u ∈ KStar.kstar (letters s) ↔ ∀ b ∈ u, s b = true := by
  rw [Language.mem_kstar]
  constructor
  · rintro ⟨ws, rfl, hws⟩ b hb
    obtain ⟨w, hw, hbw⟩ := List.mem_flatten.mp hb
    obtain ⟨c, hc, rfl⟩ := hws w hw
    rw [List.mem_singleton] at hbw
    exact hbw ▸ hc
  · intro h
    refine ⟨u.map (fun b => [b]), by simp [← List.flatMap_def], fun w hw => ?_⟩
    obtain ⟨b, hb, rfl⟩ := List.mem_map.mp hw
    exact ⟨b, h b hb, rfl⟩

end EcmaRegex
