import AwsIotSdk.DiscoveryReader
import AwsIotSdk.StreamReads

/-! What the reader makes of a stream. Every loop takes its bytes one read at a time, so that
it ends either behind the bytes it looks for or where a read brings nothing. -/

namespace AwsIotSdk

open StreamConnection

theorem find_isSome_iff (pattern s : Bytes) : (find pattern s).isSome ↔ pattern <:+: s := by
  induction s with
  | nil =>
    rw [find, List.infix_nil]
    split_ifs with h <;> simp [h]
  | cons c s ih =>
    rw [find, List.infix_cons_iff, ← List.isPrefixOf_iff_prefix, ← ih]
    split_ifs with h <;> simp [h]

theorem find_eq_none_iff (pattern s : Bytes) : find pattern s = none ↔ ¬pattern <:+: s := by
  rw [← find_isSome_iff, Option.not_isSome_iff_eq_none]

namespace DiscoverAction

/-- What a read of one byte brings, and the stream behind it. -/
def nextByte (threadContinue : Bool) : List Delivery → Option UInt8 × List Delivery
  | [] => (none, [])
  | .pause :: t => (none, t)
  | .cut :: t => if threadContinue then nextByte threadContinue t else (none, t)
  | .byte b :: t => (some b, (takeBytes 0 t).2)

variable {tc : Bool}

theorem tapeBytes_takeBytes_zero (t : List Delivery) :
    tapeBytes (takeBytes 0 t).2 = tapeBytes t := by
  cases t with
  | nil => rfl
  | cons d t => cases d <;> rfl

theorem length_takeBytes_zero (t : List Delivery) : (takeBytes 0 t).2.length ≤ t.length := by
  have := takeBytes_length 0 t
  omega

theorem nextByte_some {t u : List Delivery} {b : UInt8} (h : nextByte tc t = (some b, u)) :
    tapeBytes t = b :: tapeBytes u ∧ u.length < t.length := by
  induction t with
  | nil => cases h
  | cons d t ih =>
    cases d with
    | byte c =>
      rw [nextByte] at h
      cases h
      rw [tapeBytes, tapeBytes_takeBytes_zero]
      exact ⟨rfl, Nat.lt_succ_of_le (length_takeBytes_zero t)⟩
    | cut =>
      rw [nextByte] at h
      split_ifs at h
      · obtain ⟨hbytes, hlen⟩ := ih h
        exact ⟨hbytes, Nat.lt_succ_of_lt hlen⟩
      · cases h
    | pause => cases h

theorem nextByte_none {t u : List Delivery} (h : nextByte tc t = (none, u)) :
    tapeBytes t = tapeBytes u := by
  induction t with
  | nil => cases h; rfl
  | cons d t ih =>
    cases d with
    | byte c => cases h
    | cut =>
      rw [nextByte] at h
      split_ifs at h
      · exact ih h
      · cases h
        rfl
    | pause => cases h; rfl

theorem takeBytes_zero_fst (t : List Delivery) : (takeBytes 0 t).1 = [] := by
  cases t with
  | nil => rfl
  | cons d t => cases d <;> rfl

theorem read_byte (t : List Delivery) (a b : UInt8) :
    NetworkConnection.read (⟨true, .byte b :: t⟩ : StreamConnection) [a] 0 (sizeSub 1 0) 0 =
      ⟨.success, [b], 1, ⟨true, (takeBytes 0 t).2⟩⟩ := by
  have hread : NetworkConnection.read (⟨true, .byte b :: t⟩ : StreamConnection) [a] 0
      (sizeSub 1 0) 0 =
        ⟨.success, b :: (takeBytes 0 t).1 ++ [a].drop (0 + ((takeBytes 0 t).1.length + 1)),
          (takeBytes 0 t).1.length + 1, ⟨true, (takeBytes 0 t).2⟩⟩ := rfl
  rw [hread, takeBytes_zero_fst]
  rfl

theorem readLoop_one (tc : Bool) {fuel : Nat} (t : List Delivery) (a : UInt8) (hfuel : t.length < fuel) :
    (∃ b u, nextByte tc t = (some b, u) ∧
      Action.readLoop tc 1 fuel (⟨true, t⟩ : StreamConnection) [a] 0 0 =
        ⟨.success, [b], 1, ⟨true, u⟩⟩) ∨
    ∃ rc u, nextByte tc t = (none, u) ∧ (rc = .success → tc = false) ∧
      Action.readLoop tc 1 fuel (⟨true, t⟩ : StreamConnection) [a] 0 0 =
        ⟨rc, [a], 0, ⟨true, u⟩⟩ := by
  induction fuel generalizing t with
  | zero => omega
  | succ fuel ih =>
    rw [Action.readLoop]
    cases t with
    | nil => exact .inr ⟨.networkSslNothingToRead, [], rfl, by simp, by cases tc <;> rfl⟩
    | cons d t =>
      cases d with
      | pause => exact .inr ⟨.networkSslNothingToRead, t, rfl, by simp, by cases tc <;> rfl⟩
      | byte b =>
        refine .inl ⟨b, (takeBytes 0 t).2, rfl, ?_⟩
        rw [read_byte]
        simp
      | cut =>
        have hread : NetworkConnection.read (⟨true, .cut :: t⟩ : StreamConnection) [a] 0
            (sizeSub 1 0) 0 = ⟨.success, [a], 0, ⟨true, t⟩⟩ := rfl
        rw [hread]
        cases tc with
        | false => exact .inr ⟨.success, t, rfl, by simp, rfl⟩
        | true => exact ih t (by simpa using hfuel)

theorem readByte_cases (tc : Bool) (t : List Delivery) (tempBuf readBuf : Bytes) :
    (∃ b u, nextByte tc t = (some b, u) ∧
      Reader.readByte tc (⟨⟨true, t⟩, tempBuf, readBuf⟩ : Reader StreamConnection) =
        (.success, ⟨⟨true, u⟩, [b], readBuf ++ [b]⟩)) ∨
    ∃ rc u tempBuf', nextByte tc t = (none, u) ∧ rc ≠ .success ∧
      Reader.readByte tc (⟨⟨true, t⟩, tempBuf, readBuf⟩ : Reader StreamConnection) =
        (rc, ⟨⟨true, u⟩, tempBuf', readBuf⟩) := by
  have hlength : (resize tempBuf 1).length = 1 := by
    rw [resize, List.length_append, List.length_take, List.length_replicate]
    omega
  obtain ⟨a, ha⟩ := List.length_eq_one_iff.1 hlength
  have hpending : NetworkConnection.pending (⟨true, t⟩ : StreamConnection) = t.length := rfl
  rw [Reader.readByte, Action.readFromNetworkBuffer, ha, hpending]
  rcases readLoop_one tc t a (Nat.lt_succ_self t.length) with
    ⟨b, u, hnext, hloop⟩ | ⟨rc, u, hnext, hrc, hloop⟩
  · rw [hloop]
    exact .inl ⟨b, u, hnext, rfl⟩
  · rw [hloop]
    by_cases hsuccess : rc = .success
    · obtain rfl := hrc hsuccess
      subst hsuccess
      exact .inr ⟨.threadExiting, u, [a], hnext, by simp, rfl⟩
    · refine .inr ⟨rc, u, [a], hnext, hsuccess, ?_⟩
      simp [hsuccess]

theorem readByte_some {t u : List Delivery} {b : UInt8} (h : nextByte tc t = (some b, u))
    (tempBuf readBuf : Bytes) :
    Reader.readByte tc (⟨⟨true, t⟩, tempBuf, readBuf⟩ : Reader StreamConnection) =
      (.success, ⟨⟨true, u⟩, [b], readBuf ++ [b]⟩) := by
  rcases readByte_cases tc t tempBuf readBuf with
    ⟨c, v, hnext, hread⟩ | ⟨rc, v, temp, hnext, -, -⟩
  · rw [hnext] at h
    cases h
    exact hread
  · rw [hnext] at h
    cases h

theorem readByte_none {t u : List Delivery} (h : nextByte tc t = (none, u))
    (tempBuf readBuf : Bytes) :
    ∃ rc tempBuf', rc ≠ .success ∧
      Reader.readByte tc (⟨⟨true, t⟩, tempBuf, readBuf⟩ : Reader StreamConnection) =
        (rc, ⟨⟨true, u⟩, tempBuf', readBuf⟩) := by
  rcases readByte_cases tc t tempBuf readBuf with
    ⟨c, v, hnext, -⟩ | ⟨rc, v, temp, hnext, hrc, hread⟩
  · rw [hnext] at h
    cases h
  · rw [hnext] at h
    cases h
    exact ⟨rc, temp, hrc, hread⟩

/-! ### The status line -/

/-- From `timeLeft`, what is read of the line and the stream to the line, and the time and
the stream that are left. -/
inductive ReadsStatus (tc : Bool) :
    Nat → Bytes → List Delivery → Bytes → Nat → List Delivery → Prop
  | ends {k : Nat} {buf : Bytes} {t u : List Delivery} {b : UInt8} :
      nextByte tc t = (some b, u) → crlf <:+ buf ++ [b] →
      ReadsStatus tc (k + 1) buf t (buf ++ [b]) k u
  | byte {k k' : Nat} {buf line : Bytes} {t u v : List Delivery} {b : UInt8} :
      nextByte tc t = (some b, u) → ¬crlf <:+ buf ++ [b] →
      ReadsStatus tc k (buf ++ [b]) u line k' v → ReadsStatus tc (k + 1) buf t line k' v
  | again {k k' : Nat} {buf line : Bytes} {t u v : List Delivery} :
      nextByte tc t = (none, u) → ReadsStatus tc k buf u line k' v →
      ReadsStatus tc (k + 1) buf t line k' v

theorem statusLoop_success (k : Nat) (t : List Delivery) (temp buf : Bytes)
    (h : (statusLoop tc k (⟨⟨true, t⟩, temp, buf⟩ : Reader StreamConnection)).rc = .success) :
    ∃ line k' u temp', ReadsStatus tc k buf t line k' u ∧
      statusLoop tc k (⟨⟨true, t⟩, temp, buf⟩ : Reader StreamConnection) =
        ⟨.success, k', ⟨⟨true, u⟩, temp', line⟩⟩ := by
  induction k generalizing t temp buf with
  | zero => cases h
  | succ k ih =>
    rw [statusLoop] at h ⊢
    rcases hnext : nextByte tc t with ⟨_ | b, u⟩
    · obtain ⟨rc, temp', hrc, hread⟩ := readByte_none hnext temp buf
      simp only [hread, hrc, false_and, if_false] at h ⊢
      obtain ⟨line, k', v, temp'', hline, heq⟩ := ih u temp' buf h
      exact ⟨line, k', v, temp'', .again hnext hline, heq⟩
    · simp only [readByte_some hnext, true_and, List.isSuffixOf_iff_suffix] at h ⊢
      by_cases hends : crlf <:+ buf ++ [b]
      · rw [if_pos hends]
        exact ⟨_, _, _, _, .ends hnext hends, rfl⟩
      · rw [if_neg hends] at h ⊢
        obtain ⟨line, k', v, temp'', hline, heq⟩ := ih u [b] (buf ++ [b]) h
        exact ⟨line, k', v, temp'', .byte hnext hends hline, heq⟩

theorem ReadsStatus.statusLoop {k k' : Nat} {buf line : Bytes} {t u : List Delivery}
    (h : ReadsStatus tc k buf t line k' u) (temp : Bytes) :
    ∃ temp', statusLoop tc k (⟨⟨true, t⟩, temp, buf⟩ : Reader StreamConnection) =
      ⟨.success, k', ⟨⟨true, u⟩, temp', line⟩⟩ := by
  induction h generalizing temp with
  | ends hnext hends =>
    rw [DiscoverAction.statusLoop]
    simp only [readByte_some hnext, true_and, List.isSuffixOf_iff_suffix]
    rw [if_pos hends]
    exact ⟨_, rfl⟩
  | byte hnext hends _ ih =>
    rw [DiscoverAction.statusLoop]
    simp only [readByte_some hnext, true_and, List.isSuffixOf_iff_suffix]
    rw [if_neg hends]
    exact ih _
  | @again k k' buf line t u v hnext _ ih =>
    rw [DiscoverAction.statusLoop]
    obtain ⟨rc, temp', hrc, hread⟩ := readByte_none hnext temp buf
    simp only [hread, hrc, false_and, if_false]
    exact ih temp'

/-! ### The line with the content length -/

inductive ReadsLength (tc : Bool) :
    Nat → Bytes → List Delivery → Bytes → Nat → List Delivery → Prop
  | found {k : Nat} {buf : Bytes} {t u : List Delivery} {b : UInt8} :
      nextByte tc t = (some b, u) → crlf <:+ buf ++ [b] → contentLengthString <:+: buf ++ [b] →
      ReadsLength tc k buf t (buf ++ [b]) (k - 1) u
  | other {k k' : Nat} {buf line : Bytes} {t u v : List Delivery} {b : UInt8} :
      nextByte tc t = (some b, u) → crlf <:+ buf ++ [b] → ¬contentLengthString <:+: buf ++ [b] →
      ReadsLength tc (k - 1) [] u line k' v → ReadsLength tc k buf t line k' v
  | byte {k k' : Nat} {buf line : Bytes} {t u v : List Delivery} {b : UInt8} :
      nextByte tc t = (some b, u) → ¬crlf <:+ buf ++ [b] →
      ReadsLength tc k (buf ++ [b]) u line k' v → ReadsLength tc (k + 1) buf t line k' v

theorem contentLengthLoop_found {fuel k : Nat} (t : List Delivery) (temp buf : Bytes)
    {index : Nat}
    (h : (contentLengthLoop tc fuel k
      (⟨⟨true, t⟩, temp, buf⟩ : Reader StreamConnection)).1 = some index) :
    ∃ line k' u temp' rc, ReadsLength tc k buf t line k' u ∧
      find contentLengthString line = some index ∧
      (contentLengthLoop tc fuel k (⟨⟨true, t⟩, temp, buf⟩ : Reader StreamConnection)).2 =
        ⟨rc, k', ⟨⟨true, u⟩, temp', line⟩⟩ := by
  induction fuel generalizing k t temp buf with
  | zero => cases h
  | succ fuel ih =>
    rw [contentLengthLoop] at h ⊢
    rcases hnext : nextByte tc t with ⟨_ | b, u⟩
    · obtain ⟨rc, temp', hrc, hread⟩ := readByte_none hnext temp buf
      simp only [hread, hrc, ne_eq, not_false_eq_true, if_true] at h
      cases h
    · simp only [readByte_some hnext, ne_eq, not_true_eq_false, if_false,
        List.isSuffixOf_iff_suffix] at h ⊢
      by_cases hends : crlf <:+ buf ++ [b]
      · simp only [hends, if_true] at h ⊢
        cases hfind : find contentLengthString (buf ++ [b]) with
        | none =>
          simp only [hfind] at h ⊢
          obtain ⟨line, k', v, temp', rc, hline, hindex, heq⟩ := ih u [b] [] h
          exact ⟨line, k', v, temp', rc,
            .other hnext hends ((find_eq_none_iff _ _).1 hfind) hline, hindex, heq⟩
        | some i =>
          simp only [hfind] at h ⊢
          have hmarked := (find_isSome_iff contentLengthString (buf ++ [b])).1 (by rw [hfind]; rfl)
          exact ⟨_, _, _, _, _, .found hnext hends hmarked, hfind.trans h, rfl⟩
      · simp only [hends, if_false] at h ⊢
        cases k with
        | zero => cases h
        | succ k =>
          simp only [Nat.succ_ne_zero, if_false, Nat.add_sub_cancel] at h ⊢
          obtain ⟨line, k', v, temp', rc, hline, hindex, heq⟩ := ih u [b] (buf ++ [b]) h
          exact ⟨line, k', v, temp', rc, .byte hnext hends hline, hindex, heq⟩

theorem ReadsLength.contentLengthLoop {k k' : Nat} {buf line : Bytes} {t u : List Delivery}
    (h : ReadsLength tc k buf t line k' u) (temp : Bytes) {fuel : Nat} (hfuel : t.length < fuel) :
    ∃ temp' rc, contentLengthLoop tc fuel k
        (⟨⟨true, t⟩, temp, buf⟩ : Reader StreamConnection) =
      (find contentLengthString line, ⟨rc, k', ⟨⟨true, u⟩, temp', line⟩⟩) := by
  induction h generalizing temp fuel with
  | @found k buf t u b hnext hends hmarked =>
    obtain ⟨fuel, rfl⟩ : ∃ n, fuel = n + 1 := ⟨fuel - 1, by omega⟩
    obtain ⟨i, hi⟩ := Option.isSome_iff_exists.1 ((find_isSome_iff _ _).2 hmarked)
    rw [DiscoverAction.contentLengthLoop]
    simp only [readByte_some hnext, ne_eq, not_true_eq_false, if_false,
      List.isSuffixOf_iff_suffix, hends, if_true, hi]
    exact ⟨_, _, rfl⟩
  | other hnext hends hmarked _ ih =>
    obtain ⟨fuel, rfl⟩ : ∃ n, fuel = n + 1 := ⟨fuel - 1, by omega⟩
    have hlt := (nextByte_some hnext).2
    rw [DiscoverAction.contentLengthLoop]
    simp only [readByte_some hnext, ne_eq, not_true_eq_false, if_false,
      List.isSuffixOf_iff_suffix, hends, if_true, (find_eq_none_iff _ _).2 hmarked]
    exact ih _ (by omega)
  | byte hnext hends _ ih =>
    obtain ⟨fuel, rfl⟩ : ∃ n, fuel = n + 1 := ⟨fuel - 1, by omega⟩
    have hlt := (nextByte_some hnext).2
    rw [DiscoverAction.contentLengthLoop]
    simp only [readByte_some hnext, ne_eq, not_true_eq_false, if_false,
      List.isSuffixOf_iff_suffix, hends, Nat.succ_ne_zero, Nat.add_sub_cancel]
    exact ih _ (by omega)

/-! ### The rest of the header -/

/-- Where the skipping ends: at a read that brings nothing, at the first byte behind the
deadline, or behind the blank line. -/
inductive Skips (tc : Bool) : Nat → Bytes → List Delivery → List Delivery → Prop
  | dry {k : Nat} {buf : Bytes} {t u : List Delivery} :
      nextByte tc t = (none, u) → Skips tc k buf t u
  | late {buf : Bytes} {t u : List Delivery} {b : UInt8} :
      nextByte tc t = (some b, u) → Skips tc 0 buf t u
  | blank {k : Nat} {buf : Bytes} {t u : List Delivery} {b : UInt8} :
      nextByte tc t = (some b, u) → crlf ++ crlf <:+ buf ++ [b] → Skips tc (k + 1) buf t u
  | byte {k : Nat} {buf : Bytes} {t u v : List Delivery} {b : UInt8} :
      nextByte tc t = (some b, u) → ¬crlf ++ crlf <:+ buf ++ [b] → Skips tc k (buf ++ [b]) u v →
      Skips tc (k + 1) buf t v

theorem Skips.skipLoop {k : Nat} {buf : Bytes} {t v : List Delivery} (h : Skips tc k buf t v)
    (temp : Bytes) {fuel : Nat} (hfuel : t.length < fuel) :
    (skipLoop tc fuel k (⟨⟨true, t⟩, temp, buf⟩ : Reader StreamConnection)).reader.connection =
      ⟨true, v⟩ := by
  induction h generalizing temp fuel with
  | @dry k buf t u hnext =>
    obtain ⟨fuel, rfl⟩ : ∃ n, fuel = n + 1 := ⟨fuel - 1, by omega⟩
    obtain ⟨rc, temp', hrc, hread⟩ := readByte_none hnext temp buf
    rw [DiscoverAction.skipLoop]
    simp only [hread, hrc, ne_eq, not_false_eq_true, if_true]
  | late hnext =>
    obtain ⟨fuel, rfl⟩ : ∃ n, fuel = n + 1 := ⟨fuel - 1, by omega⟩
    rw [DiscoverAction.skipLoop]
    simp only [readByte_some hnext, ne_eq, not_true_eq_false, if_false, if_true]
  | blank hnext hends =>
    obtain ⟨fuel, rfl⟩ : ∃ n, fuel = n + 1 := ⟨fuel - 1, by omega⟩
    rw [DiscoverAction.skipLoop]
    simp only [readByte_some hnext, ne_eq, not_true_eq_false, if_false, Nat.succ_ne_zero,
      List.isSuffixOf_iff_suffix, hends, if_true]
  | byte hnext hends _ ih =>
    obtain ⟨fuel, rfl⟩ : ∃ n, fuel = n + 1 := ⟨fuel - 1, by omega⟩
    have hlt := (nextByte_some hnext).2
    rw [DiscoverAction.skipLoop]
    simp only [readByte_some hnext, ne_eq, not_true_eq_false, if_false, Nat.succ_ne_zero,
      List.isSuffixOf_iff_suffix, hends, Nat.add_sub_cancel]
    exact ih _ (by omega)

theorem exists_skips (tc : Bool) (k : Nat) (buf : Bytes) (t : List Delivery) : ∃ v, Skips tc k buf t v := by
  induction k generalizing buf t with
  | zero =>
    rcases hnext : nextByte tc t with ⟨_ | b, u⟩
    · exact ⟨u, .dry hnext⟩
    · exact ⟨u, .late hnext⟩
  | succ k ih =>
    rcases hnext : nextByte tc t with ⟨_ | b, u⟩
    · exact ⟨u, .dry hnext⟩
    · by_cases hends : crlf ++ crlf <:+ buf ++ [b]
      · exact ⟨u, .blank hnext hends⟩
      · obtain ⟨v, hv⟩ := ih (buf ++ [b]) u
        exact ⟨v, .byte hnext hends hv⟩

/-! ### The body -/

/-- The stream has `m` bytes for one call: in one piece, or with cuts among them where the
call goes on reading. -/
def Fills (tc : Bool) (t : List Delivery) (m : Nat) : Prop :=
  ∃ w : Bytes, w.length = m ∧
    if tc then ∃ rest, Delivers t w rest else w.map .byte <+: t

theorem Delivers.tapeBytes_take {t rest : List Delivery} {w : Bytes} (h : Delivers t w rest) :
    (tapeBytes t).take w.length = w := by
  obtain ⟨used, rfl, -, rfl⟩ := h
  rw [tapeBytes_append, List.take_left]

theorem tapeBytes_map_byte (w : Bytes) : tapeBytes (w.map .byte) = w := by
  induction w with
  | nil => rfl
  | cons b w ih => rw [List.map_cons, tapeBytes, ih]

theorem takeBytes_of_starts {t : List Delivery} {w : Bytes} (h : w.map .byte <+: t) :
    (takeBytes w.length t).1 = w := by
  obtain ⟨rest, rfl⟩ := h
  induction w with
  | nil => exact takeBytes_zero_fst _
  | cons b w ih => exact congrArg (b :: ·) ih

theorem starts_of_takeBytes {n : Nat} {t : List Delivery} (h : (takeBytes n t).1.length = n) :
    (takeBytes n t).1.map .byte <+: t := by
  induction n generalizing t with
  | zero =>
    rw [List.length_eq_zero_iff.1 h]
    exact List.nil_prefix
  | succ n ih =>
    cases t with
    | nil => cases h
    | cons d t =>
      cases d with
      | byte b =>
        have hlen : (takeBytes n t).1.length = n := Nat.succ.inj h
        exact (List.cons_prefix_cons).2 ⟨rfl, ih hlen⟩
      | cut => cases h
      | pause => cases h

theorem read_success_iff (t : List Delivery) (buf : Bytes) {m : Nat} (hm : 0 < m) :
    ((NetworkConnection.read (⟨true, t⟩ : StreamConnection) buf 0 m 0).rc = .success ∧
      (NetworkConnection.read (⟨true, t⟩ : StreamConnection) buf 0 m 0).sizeReadBytesOut = m) ↔
      (takeBytes m t).1.length = m := by
  obtain ⟨n, rfl⟩ : ∃ n, m = n + 1 := ⟨m - 1, by omega⟩
  have hdry : ResponseCode.networkSslNothingToRead ≠ .success := by decide
  cases t with
  | nil => exact ⟨fun h => absurd h.1 hdry, fun h => absurd h (Nat.zero_ne_add_one n)⟩
  | cons d t =>
    cases d with
    | pause => exact ⟨fun h => absurd h.1 hdry, fun h => absurd h (Nat.zero_ne_add_one n)⟩
    | byte b => exact ⟨fun h => h.2, fun h => ⟨rfl, h⟩⟩
    | cut => exact ⟨fun h => h.2, fun h => ⟨rfl, h⟩⟩

theorem read_buf {t : List Delivery} {m : Nat} (h : (takeBytes m t).1.length = m) (hm : 0 < m) :
    (NetworkConnection.read (⟨true, t⟩ : StreamConnection) (resize [] m) 0 m 0).buf =
      (takeBytes m t).1 := by
  have hread : (NetworkConnection.read (⟨true, t⟩ : StreamConnection) (resize [] m) 0 m 0).buf =
      [] ++ (takeBytes m t).1 ++ (resize [] m).drop (0 + (takeBytes m t).1.length) := by
    obtain ⟨n, rfl⟩ : ∃ n, m = n + 1 := ⟨m - 1, by omega⟩
    cases t with
    | nil => cases h
    | cons d t =>
      cases d with
      | pause => cases h
      | byte b => rfl
      | cut => rfl
  rw [hread, h]
  simp [resize]

theorem fills_false_iff (t : List Delivery) (m : Nat) :
    Fills false t m ↔ (takeBytes m t).1.length = m := by
  constructor
  · rintro ⟨w, rfl, hprefix⟩
    rw [takeBytes_of_starts hprefix]
  · intro h
    exact ⟨(takeBytes m t).1, h, starts_of_takeBytes h⟩

theorem readFromNetworkBuffer_onward (t : List Delivery) {m : Nat} (hm : 0 < m) :
    ((Action.readFromNetworkBuffer true (⟨true, t⟩ : StreamConnection) [] m).rc = .success ↔
      Fills true t m) ∧
    ((Action.readFromNetworkBuffer true (⟨true, t⟩ : StreamConnection) [] m).rc = .success →
      (Action.readFromNetworkBuffer true (⟨true, t⟩ : StreamConnection) [] m).buf =
        (tapeBytes t).take m) := by
  have houtcome := readFromNetworkBuffer_outcome t hm
  generalize Action.readFromNetworkBuffer true (⟨true, t⟩ : StreamConnection) [] m = r
    at houtcome
  cases houtcome with
  | @filled w rest hdel hlen =>
    have hw : w.length = m := by simpa using hlen
    refine ⟨⟨fun _ => ⟨w, hw, rest, hdel⟩, fun _ => rfl⟩, fun _ => ?_⟩
    rw [← hw]
    exact (Delivers.tapeBytes_take hdel).symm
  | dry hdry =>
    refine ⟨⟨fun h => (by cases h), ?_⟩, fun h => (by cases h)⟩
    rintro ⟨w, rfl, rest, hdel⟩
    exact absurd (hdel.length_lt hdry) (by simp)

theorem readFromNetworkBuffer_once (t : List Delivery) {m : Nat} (hm : 0 < m) :
    ((Action.readFromNetworkBuffer false (⟨true, t⟩ : StreamConnection) [] m).rc = .success ↔
      Fills false t m) ∧
    ((Action.readFromNetworkBuffer false (⟨true, t⟩ : StreamConnection) [] m).rc = .success →
      (Action.readFromNetworkBuffer false (⟨true, t⟩ : StreamConnection) [] m).buf =
        (tapeBytes t).take m) := by
  have hloop : Action.readLoop false m (NetworkConnection.pending
      (⟨true, t⟩ : StreamConnection) + 1) (⟨true, t⟩ : StreamConnection) (resize [] m) 0 0 =
      (let r := NetworkConnection.read (⟨true, t⟩ : StreamConnection) (resize [] m) 0 m 0
      ⟨r.rc, r.buf, 0 + r.sizeReadBytesOut, r.connection⟩) := rfl
  have hfills := fills_false_iff t m
  rw [← read_success_iff t (resize [] m) hm] at hfills
  have hbuf := fun h => read_buf (t := t) h hm
  rw [Action.readFromNetworkBuffer, hloop]
  generalize NetworkConnection.read (⟨true, t⟩ : StreamConnection) (resize [] m) 0 m 0 = r
    at hfills hbuf
  simp only [Nat.zero_add]
  by_cases hshort : r.rc = .success ∧ r.sizeReadBytesOut ≠ m
  · rw [if_pos hshort]
    refine ⟨⟨fun h => (by cases h), fun h => absurd (hfills.1 h).2 hshort.2⟩,
      fun h => (by cases h)⟩
  · rw [if_neg hshort]
    have hall : r.rc = .success → Fills false t m := fun hrc =>
      hfills.2 ⟨hrc, not_not.1 (fun hne => hshort ⟨hrc, hne⟩)⟩
    refine ⟨⟨hall, fun h => (hfills.1 h).1⟩, fun hrc => ?_⟩
    obtain ⟨w, rfl, hprefix⟩ := hall hrc
    have htake := takeBytes_of_starts hprefix
    rw [hbuf (by rw [htake]), htake]
    obtain ⟨rest, rfl⟩ := hprefix
    rw [tapeBytes_append, tapeBytes_map_byte, List.take_left]

theorem readFromNetworkBuffer_body (tc : Bool) (t : List Delivery) {m : Nat} (hm : 0 < m) :
    ((Action.readFromNetworkBuffer tc (⟨true, t⟩ : StreamConnection) [] m).rc = .success ↔
      Fills tc t m) ∧
    ((Action.readFromNetworkBuffer tc (⟨true, t⟩ : StreamConnection) [] m).rc = .success →
      (Action.readFromNetworkBuffer tc (⟨true, t⟩ : StreamConnection) [] m).buf =
        (tapeBytes t).take m) := by
  cases tc with
  | true => exact readFromNetworkBuffer_onward t hm
  | false => exact readFromNetworkBuffer_once t hm

/-! ### The whole call -/

/-- The header is read up to the end of the line with the content length. -/
def HeaderRead (tc : Bool) (timeLeft : Nat) (tape : List Delivery) (line : Bytes)
    (timeLeft' : Nat) (rest : List Delivery) : Prop :=
  ∃ status k t, ReadsStatus tc timeLeft [] tape status k t ∧
    expectedSuccessResponse <:+: status ∧ ReadsLength tc k [] t line timeLeft' rest

def announced (line : Bytes) : Option Nat :=
  (find contentLengthString line).bind (fun index => stoul (contentLengthText line index))

/-- The call asks for a body of `m` bytes when `rest` is left of the stream. -/
def AsksFor (tc : Bool) (timeLeft : Nat) (tape : List Delivery) (m : Nat)
    (rest : List Delivery) : Prop :=
  ∃ line k t, HeaderRead tc timeLeft tape line k t ∧ announced line = some m ∧ 0 < m ∧
    Skips tc k line t rest

theorem nextByte_suffix {t u : List Delivery} {b : UInt8} (h : nextByte tc t = (some b, u)) :
    tapeBytes u <:+ tapeBytes t := by
  rw [(nextByte_some h).1]
  exact List.suffix_cons b (tapeBytes u)

theorem ReadsStatus.suffix {k k' : Nat} {buf line : Bytes} {t u : List Delivery}
    (h : ReadsStatus tc k buf t line k' u) : tapeBytes u <:+ tapeBytes t := by
  induction h with
  | ends hnext _ => exact nextByte_suffix hnext
  | byte hnext _ _ ih => exact ih.trans (nextByte_suffix hnext)
  | again hnext _ ih =>
    rw [nextByte_none hnext]
    exact ih

theorem ReadsLength.suffix {k k' : Nat} {buf line : Bytes} {t u : List Delivery}
    (h : ReadsLength tc k buf t line k' u) : tapeBytes u <:+ tapeBytes t := by
  induction h with
  | found hnext _ _ => exact nextByte_suffix hnext
  | other hnext _ _ _ ih => exact ih.trans (nextByte_suffix hnext)
  | byte hnext _ _ ih => exact ih.trans (nextByte_suffix hnext)

theorem Skips.suffix {k : Nat} {buf : Bytes} {t v : List Delivery} (h : Skips tc k buf t v) :
    tapeBytes v <:+ tapeBytes t := by
  induction h with
  | dry hnext => rw [nextByte_none hnext]
  | late hnext => exact nextByte_suffix hnext
  | blank hnext _ => exact nextByte_suffix hnext
  | byte hnext _ _ ih => exact ih.trans (nextByte_suffix hnext)

/-- No byte is passed over. -/
theorem AsksFor.suffix {k m : Nat} {tape rest : List Delivery} (h : AsksFor tc k tape m rest) :
    tapeBytes rest <:+ tapeBytes tape := by
  obtain ⟨line, k', t, ⟨status, k1, u, hstatus, -, hlength⟩, -, -, hskips⟩ := h
  exact hskips.suffix.trans (hlength.suffix.trans hstatus.suffix)

theorem statusError_ne_success (responseHeader : Bytes) :
    statusError responseHeader ≠ .success := by
  rw [statusError]
  split_ifs <;> decide

theorem readBody_success {m : Nat} {v : List Delivery} {payload : Bytes} {c : StreamConnection}
    (h : readBody tc m (⟨true, v⟩ : StreamConnection) [] = (.success, payload, c)) :
    0 < m ∧ Fills tc v m ∧ payload = (tapeBytes v).take m := by
  rw [readBody] at h
  split_ifs at h with hm
  · simp only [Prod.mk.injEq] at h
    obtain ⟨hrc, hpayload, -⟩ := h
    obtain ⟨hfills, hbuf⟩ := readFromNetworkBuffer_body tc v hm
    rw [if_pos hrc, List.nil_append, hbuf hrc] at hpayload
    exact ⟨hm, hfills.1 hrc, hpayload.symm⟩
  · cases h

theorem readRest_success {line : Option Nat × LoopResult StreamConnection} {payload : Bytes}
    {c : StreamConnection} (h : readRest tc line [] = some (.success, payload, c)) :
    ∃ index m, line.1 = some index ∧
      stoul (contentLengthText line.2.reader.readBuf index) = some m ∧
      readBody tc m (skipLoop tc (NetworkConnection.pending line.2.reader.connection + 1)
        line.2.timeLeft line.2.reader).reader.connection [] = (.success, payload, c) := by
  rw [readRest] at h
  split at h
  · have hrc := congrArg Prod.fst (Option.some.inj h)
    dsimp only at hrc
    split_ifs at hrc with hne
    exact absurd hrc hne
  · next index hindex =>
    split at h
    · cases h
    · next m hstoul => exact ⟨index, m, hindex, hstoul, Option.some.inj h⟩

theorem exists_asksFor {k : Nat} {tape : List Delivery} {payload : Bytes} {c : StreamConnection}
    (h : readResponseFromNetwork tc k (⟨true, tape⟩ : StreamConnection) [] =
      some (.success, payload, c)) :
    ∃ m v, AsksFor tc k tape m v ∧ Fills tc v m ∧ payload = (tapeBytes v).take m := by
  rw [readResponseFromNetwork] at h
  by_cases hstatus : (statusLoop tc k
      (⟨⟨true, tape⟩, [], []⟩ : Reader StreamConnection)).rc = .success
  · obtain ⟨status, k1, t, temp, hreads, heq⟩ := statusLoop_success k tape [] [] hstatus
    simp only [heq, ne_eq, not_true_eq_false, if_false] at h
    by_cases hexpected : find expectedSuccessResponse status = none
    · rw [if_pos hexpected] at h
      exact absurd (congrArg Prod.fst (Option.some.inj h)) (statusError_ne_success status)
    · rw [if_neg hexpected] at h
      obtain ⟨index, m, hindex, hstoul, hbody⟩ := readRest_success h
      obtain ⟨line, k2, u, temp2, rc, hlength, hfind, hline⟩ :=
        contentLengthLoop_found t temp [] hindex
      rw [hline] at hstoul hbody
      obtain ⟨v, hskips⟩ := exists_skips tc k2 line u
      have hconnection := hskips.skipLoop temp2 (Nat.lt_succ_self u.length)
      have hread : readBody tc m (⟨true, v⟩ : StreamConnection) [] = (.success, payload, c) := by
        rw [← hconnection]
        exact hbody
      obtain ⟨hm, hfills, hpayload⟩ := readBody_success hread
      have hannounced : announced line = some m := by
        rw [announced, hfind]
        exact hstoul
      have hheader : HeaderRead tc k tape line k2 u :=
        ⟨status, k1, t, hreads, not_not.1 (mt (find_eq_none_iff _ _).2 hexpected), hlength⟩
      exact ⟨m, v, ⟨line, k2, u, hheader, hannounced, hm, hskips⟩, hfills, hpayload⟩
  · simp only [hstatus, ne_eq, not_false_eq_true, if_true] at h
    exact absurd (congrArg Prod.fst (Option.some.inj h)) hstatus

theorem AsksFor.readResponseFromNetwork {k m : Nat} {tape v : List Delivery}
    (h : AsksFor tc k tape m v) (hfills : Fills tc v m) :
    ∃ c, readResponseFromNetwork tc k (⟨true, tape⟩ : StreamConnection) [] =
      some (.success, (tapeBytes v).take m, c) := by
  obtain ⟨line, k2, u, ⟨status, k1, t, hstatus, hexpected, hlength⟩, hm, hpos, hskips⟩ := h
  obtain ⟨temp1, hstatusLoop⟩ := hstatus.statusLoop []
  obtain ⟨temp2, rc2, hlengthLoop⟩ := hlength.contentLengthLoop temp1 (Nat.lt_succ_self t.length)
  rw [announced, Option.bind_eq_some_iff] at hm
  obtain ⟨index, hindex, hstoul⟩ := hm
  have hfound : find expectedSuccessResponse status ≠ none := fun hnone =>
    (find_eq_none_iff _ _).1 hnone hexpected
  have hline : contentLengthLoop tc (NetworkConnection.pending (⟨true, t⟩ : StreamConnection) + 1)
      k1 (⟨⟨true, t⟩, temp1, []⟩ : Reader StreamConnection) =
        (some index, ⟨rc2, k2, ⟨⟨true, u⟩, temp2, line⟩⟩) := by
    rw [← hindex]
    exact hlengthLoop
  have hskip : (skipLoop tc (NetworkConnection.pending (⟨true, u⟩ : StreamConnection) + 1) k2
      (⟨⟨true, u⟩, temp2, line⟩ : Reader StreamConnection)).reader.connection = ⟨true, v⟩ :=
    hskips.skipLoop temp2 (Nat.lt_succ_self u.length)
  obtain ⟨hrc, hbuf⟩ := readFromNetworkBuffer_body tc v hpos
  have hsuccess := hrc.2 hfills
  rw [DiscoverAction.readResponseFromNetwork, hstatusLoop]
  simp only [ne_eq, not_true_eq_false, if_false, hfound]
  rw [hline, readRest]
  simp only [hstoul, hskip]
  rw [readBody, if_pos hpos]
  simp only [hsuccess, if_true, hbuf hsuccess, List.nil_append]
  exact ⟨_, rfl⟩

theorem readResponseFromNetwork_success_iff (timeLeft : Nat) (tape : List Delivery)
    (payload : Bytes) :
    (∃ c, readResponseFromNetwork tc timeLeft (⟨true, tape⟩ : StreamConnection) [] =
        some (.success, payload, c)) ↔
      ∃ m rest, AsksFor tc timeLeft tape m rest ∧ Fills tc rest m ∧
        payload = (tapeBytes rest).take m := by
  constructor
  · rintro ⟨c, h⟩
    exact exists_asksFor h
  · rintro ⟨m, rest, hasks, hfills, rfl⟩
    exact hasks.readResponseFromNetwork hfills

end DiscoverAction

end AwsIotSdk
