import AwsIotSdk.StreamReads
import Mathlib.Tactic.Ring

/-! The remaining length on the wire: seven bits a byte, the low ones first, and
a continuation bit in every byte but the last. -/

namespace AwsIotSdk

open NetworkRead

def lengthValue : Bytes → Nat
  | [] => 0
  | b :: bs => (b &&& 127).toNat + 128 * lengthValue bs

def Terminated : Bytes → Prop
  | [] => False
  | [b] => b &&& 128 = 0
  | b :: bs => b &&& 128 ≠ 0 ∧ Terminated bs

instance decidableTerminated : (bs : Bytes) → Decidable (Terminated bs)
  | [] => inferInstanceAs (Decidable False)
  | [b] => inferInstanceAs (Decidable (b &&& 128 = 0))
  | b :: c :: bs =>
    have := decidableTerminated (c :: bs)
    inferInstanceAs (Decidable (b &&& 128 ≠ 0 ∧ Terminated (c :: bs)))

theorem lengthValue_lt (bs : Bytes) : lengthValue bs < 128 ^ bs.length := by
  induction bs with
  | nil => exact Nat.one_pos
  | cons b bs ih =>
    have : (b &&& 127).toNat < 128 := by
      rw [UInt8.toNat_and]
      exact lt_of_le_of_lt Nat.and_le_right (by decide)
    rw [lengthValue, List.length_cons, pow_succ]
    omega

theorem remainingLengthByteCount_le {bs : Bytes} (h : bs ≠ []) :
    PacketFixedHeader.remainingLengthByteCount (lengthValue bs) ≤ bs.length := by
  have hlt := lengthValue_lt bs
  have hpos := List.length_pos_iff.mpr h
  unfold PacketFixedHeader.remainingLengthByteCount
  split_ifs with h1 h2 h3
  · exact hpos
  · by_contra hlen
    obtain hone : bs.length = 1 := by omega
    rw [hone] at hlt
    omega
  · by_contra hlen
    have := Nat.pow_le_pow_right (n := 128) (by omega) (show bs.length ≤ 2 by omega)
    omega
  · by_contra hlen
    have := Nat.pow_le_pow_right (n := 128) (by omega) (show bs.length ≤ 3 by omega)
    omega

section Reading

variable {σ : Type} [NetworkConnection σ] {threadContinue : Bool}

theorem decodeLoop_succ {c u : σ} {b : UInt8} {out : Nat}
    (h : Action.readFromNetworkBuffer threadContinue c [] 1 = ⟨.success, [b], out, u⟩)
    (attempts multiplier remLen : Nat) :
    decodeLoop threadContinue (attempts + 1) c multiplier remLen =
      if b &&& 128 = 0 then ⟨.success, remLen + multiplier * (b &&& 127).toNat, u⟩
      else decodeLoop threadContinue attempts u (multiplier * 128)
        (remLen + multiplier * (b &&& 127).toNat) := by
  rw [decodeLoop, h, mul_comm multiplier (b &&& 127).toNat]
  exact ite_not (b &&& 128 = 0) _ _

/-- Reads of one byte each give these bytes and leave the last connection. -/
def Feeds (threadContinue : Bool) (c : σ) : Bytes → σ → Prop
  | [], c' => c' = c
  | b :: bs, c' => ∃ out u,
    Action.readFromNetworkBuffer threadContinue c [] 1 = ⟨.success, [b], out, u⟩ ∧
      Feeds threadContinue u bs c'

theorem decodeLoop_of_feeds {c c' : σ} {bs : Bytes} (hbs : Terminated bs)
    (h : Feeds threadContinue c bs c') (attempts : Nat) (hlen : bs.length ≤ attempts)
    (multiplier remLen : Nat) :
    decodeLoop threadContinue attempts c multiplier remLen =
      ⟨.success, remLen + multiplier * lengthValue bs, c'⟩ := by
  induction bs generalizing c attempts multiplier remLen with
  | nil => exact hbs.elim
  | cons b bs ih =>
    obtain ⟨attempts, rfl⟩ : ∃ n, attempts = n + 1 :=
      ⟨attempts - 1, by rw [List.length_cons] at hlen; omega⟩
    obtain ⟨out, u, hread, hrest⟩ := h
    rw [decodeLoop_succ hread, lengthValue]
    cases bs with
    | nil =>
      rw [if_pos (show b &&& 128 = 0 from hbs), show c' = u from hrest]
      simp [lengthValue]
    | cons d bs =>
      obtain ⟨hbit, hbs⟩ := hbs
      rw [if_neg hbit, ih hbs hrest attempts (by simpa using hlen)]
      congr 1
      ring

end Reading

theorem feeds_of_delivers {t rest : List Delivery} {bs w : Bytes} (h : Delivers t (bs ++ w) rest) :
    ∃ u rest', Feeds true (⟨true, t⟩ : StreamConnection) bs ⟨true, u⟩ ∧ Delivers t bs u ∧
      Delivers u w rest' := by
  induction bs generalizing t rest with
  | nil => exact ⟨t, rest, rfl, .refl t, h⟩
  | cons b bs ih =>
    have hfirst : Delivers t ([b] ++ (bs ++ w)) rest := h
    obtain ⟨u, rest', hread, hu, hrest⟩ :=
      readFromNetworkBuffer_of_delivers hfirst (List.cons_ne_nil b [])
    obtain ⟨v, rest'', hfeeds, hv, hw⟩ := ih hrest
    exact ⟨v, rest'', ⟨_, _, hread, hfeeds⟩, hu.trans hv, hw⟩

theorem decodeLoop_of_delivers {t rest : List Delivery} {bs w : Bytes} (hbs : Terminated bs)
    (attempts : Nat) (hlen : bs.length ≤ attempts) (multiplier remLen : Nat)
    (h : Delivers t (bs ++ w) rest) :
    ∃ u rest', decodeLoop true attempts (⟨true, t⟩ : StreamConnection) multiplier remLen =
        ⟨.success, remLen + multiplier * lengthValue bs, ⟨true, u⟩⟩ ∧
      Delivers t bs u ∧ Delivers u w rest' := by
  obtain ⟨u, rest', hfeeds, hu, hrest⟩ := feeds_of_delivers h
  exact ⟨u, rest', decodeLoop_of_feeds hbs hfeeds attempts hlen multiplier remLen, hu, hrest⟩

/-- Whatever the stream holds, a length that is found was paid for with bytes of
it, and nothing is put back. -/
theorem decodeLoop_spends (attempts : Nat) (t : List Delivery) (multiplier remLen : Nat) :
    ∃ rc value u, decodeLoop true attempts (⟨true, t⟩ : StreamConnection) multiplier remLen =
        ⟨rc, value, ⟨true, u⟩⟩ ∧ u <:+ t ∧
      (rc = .success → ∃ bs, bs ≠ [] ∧ Delivers t bs u ∧
        value = remLen + multiplier * lengthValue bs) := by
  induction attempts generalizing t multiplier remLen with
  | zero => exact ⟨_, _, t, rfl, List.suffix_refl t, nofun⟩
  | succ attempts ih =>
    have ho := readFromNetworkBuffer_outcome t Nat.one_pos
    generalize hr : Action.readFromNetworkBuffer true (⟨true, t⟩ : StreamConnection) [] 1 = r at ho
    cases ho with
    | @dry buf out rest hdry =>
      refine ⟨.networkSslNothingToRead, remLen, rest, ?_, hdry.suffix, nofun⟩
      rw [decodeLoop, hr]
      rfl
    | @filled w u hdel hlen =>
      obtain ⟨b, rfl⟩ : ∃ b, w = [b] := List.length_eq_one_iff.mp (by simpa using hlen)
      rw [decodeLoop_succ hr]
      by_cases hbit : b &&& 128 = 0
      · rw [if_pos hbit]
        refine ⟨_, _, u, rfl, hdel.suffix, fun _ => ⟨[b], List.cons_ne_nil b [], hdel, ?_⟩⟩
        simp [lengthValue]
      · rw [if_neg hbit]
        obtain ⟨rc, value, v, hloop, hv, hvalue⟩ := ih u (multiplier * 128)
          (remLen + multiplier * (b &&& 127).toNat)
        refine ⟨rc, value, v, hloop, hv.trans hdel.suffix, fun hrc => ?_⟩
        obtain ⟨bs, hbs, hdel', rfl⟩ := hvalue hrc
        refine ⟨b :: bs, List.cons_ne_nil b bs, hdel.trans hdel', ?_⟩
        rw [lengthValue]
        ring

/-! ### Writing the length -/

theorem last_byte {m : Nat} (hm : m < 128) :
    UInt8.ofNat m &&& 128 = 0 ∧ (UInt8.ofNat m &&& 127).toNat = m := by
  have hall : ∀ i : Fin 128, UInt8.ofNat i.val &&& 128 = 0 ∧
      (UInt8.ofNat i.val &&& 127).toNat = i.val := by
    decide +kernel
  exact hall ⟨m, hm⟩

theorem continued_byte {m : Nat} (hm : m < 128) :
    (UInt8.ofNat m ||| 0x80) &&& 128 ≠ 0 ∧ ((UInt8.ofNat m ||| 0x80) &&& 127).toNat = m := by
  have hall : ∀ i : Fin 128, (UInt8.ofNat i.val ||| 0x80) &&& 128 ≠ 0 ∧
      ((UInt8.ofNat i.val ||| 0x80) &&& 127).toNat = i.val := by
    decide +kernel
  exact hall ⟨m, hm⟩

theorem Terminated.cons {b : UInt8} {bs : Bytes} (hb : b &&& 128 ≠ 0) (h : Terminated bs) :
    Terminated (b :: bs) := by
  cases bs with
  | nil => exact h.elim
  | cons c bs => exact ⟨hb, h⟩

namespace PacketFixedHeader

theorem encodeLoop_last (fuel : Nat) {len : Nat} (h : len < 128) :
    encodeLoop (fuel + 1) len = [UInt8.ofNat len] := by
  have hdiv : ¬ 0 < len / 128 := by omega
  rw [encodeLoop, if_neg hdiv, Nat.mod_eq_of_lt h]

theorem encodeLoop_continued (fuel : Nat) {len : Nat} (h : ¬ len < 128) :
    encodeLoop (fuel + 1) len =
      (UInt8.ofNat (len % 128) ||| 0x80) :: encodeLoop fuel (len / 128) := by
  have hdiv : 0 < len / 128 := by omega
  rw [encodeLoop, if_pos hdiv]

theorem terminated_encodeLoop {fuel len : Nat} (h : len < fuel) :
    Terminated (encodeLoop fuel len) := by
  induction fuel generalizing len with
  | zero => omega
  | succ fuel ih =>
    by_cases hlast : len < 128
    · rw [encodeLoop_last fuel hlast]
      exact (last_byte hlast).1
    · rw [encodeLoop_continued fuel hlast]
      have hmod : len % 128 < 128 := by omega
      exact (ih (by omega)).cons (continued_byte hmod).1

theorem lengthValue_encodeLoop {fuel len : Nat} (h : len < fuel) :
    lengthValue (encodeLoop fuel len) = len := by
  induction fuel generalizing len with
  | zero => omega
  | succ fuel ih =>
    by_cases hlast : len < 128
    · rw [encodeLoop_last fuel hlast]
      simp [lengthValue, (last_byte hlast).2]
    · have hmod : len % 128 < 128 := by omega
      have hrest := ih (show len / 128 < fuel by omega)
      rw [encodeLoop_continued fuel hlast, lengthValue, (continued_byte hmod).2, hrest]
      omega

theorem remainingLengthByteCount_div {len : Nat} (h : ¬ len < 128)
    (hmax : len ≤ maxMqttPacketRemLenBytes) :
    remainingLengthByteCount len = remainingLengthByteCount (len / 128) + 1 := by
  rw [maxMqttPacketRemLenBytes] at hmax
  simp only [remainingLengthByteCount]
  split_ifs <;> omega

theorem length_encodeLoop {fuel len : Nat} (h : len < fuel)
    (hmax : len ≤ maxMqttPacketRemLenBytes) :
    (encodeLoop fuel len).length = remainingLengthByteCount len := by
  induction fuel generalizing len with
  | zero => omega
  | succ fuel ih =>
    by_cases hlast : len < 128
    · rw [encodeLoop_last fuel hlast, remainingLengthByteCount, if_pos hlast]
      rfl
    · have hrest := ih (show len / 128 < fuel by omega) (by omega)
      rw [encodeLoop_continued fuel hlast, List.length_cons, hrest,
        remainingLengthByteCount_div hlast hmax]

theorem remainingLengthByteCount_le_four (n : Nat) :
    remainingLengthByteCount n ≤ maxNoOfRemainingLengthBytes := by
  rw [remainingLengthByteCount, maxNoOfRemainingLengthBytes]
  split_ifs <;> omega

/-- The bytes of the remaining length that a header appends. -/
def lengthBytes (remainingLength : Nat) : Bytes :=
  if 0 < remainingLength then encodeLoop (remainingLength + 1) remainingLength else [0]

theorem appendToBuffer_eq (h : PacketFixedHeader) (buf : Bytes) :
    h.appendToBuffer buf = buf ++ h.fixedHeaderByte :: lengthBytes h.remainingLength := rfl

theorem lengthBytes_of_pos {len : Nat} (h : 0 < len) :
    lengthBytes len = encodeLoop (len + 1) len := if_pos h

theorem terminated_lengthBytes (len : Nat) : Terminated (lengthBytes len) := by
  by_cases h : 0 < len
  · rw [lengthBytes_of_pos h]
    exact terminated_encodeLoop (Nat.lt_succ_self len)
  · rw [lengthBytes, if_neg h]
    rfl

theorem lengthValue_lengthBytes (len : Nat) : lengthValue (lengthBytes len) = len := by
  by_cases h : 0 < len
  · rw [lengthBytes_of_pos h]
    exact lengthValue_encodeLoop (Nat.lt_succ_self len)
  · obtain rfl : len = 0 := by omega
    rfl

theorem length_lengthBytes {len : Nat} (hmax : len ≤ maxMqttPacketRemLenBytes) :
    (lengthBytes len).length = remainingLengthByteCount len := by
  by_cases h : 0 < len
  · rw [lengthBytes_of_pos h]
    exact length_encodeLoop (Nat.lt_succ_self len) hmax
  · obtain rfl : len = 0 := by omega
    rfl

end PacketFixedHeader

end AwsIotSdk
