import Mathlib.Algebra.Order.Ring.Nat
import Mathlib.Data.UInt

/-! Numbers as a fixed count of bytes, the most significant one first. -/

namespace BigEndian

def encode : (width : Nat) → Nat → List UInt8
  | 0, _ => []
  | width + 1, n => UInt8.ofNat (n / 256 ^ width) :: encode width n

def decode : List UInt8 → Nat
  | [] => 0
  | b :: bs => b.toNat * 256 ^ bs.length + decode bs

@[simp] theorem length_encode (width n : Nat) : (encode width n).length = width := by
  induction width with
  | zero => rfl
  | succ width ih => simp [encode, ih]

theorem decode_lt (bs : List UInt8) : decode bs < 256 ^ bs.length := by
  induction bs with
  | nil => simp [decode]
  | cons b bs ih =>
    have hb : b.toNat + 1 ≤ 256 := b.toNat_lt
    have hmul := Nat.mul_le_mul_right (256 ^ bs.length) hb
    simp only [decode, List.length_cons, Nat.pow_succ]
    rw [Nat.add_mul, Nat.one_mul] at hmul
    omega

theorem decode_encode (width n : Nat) : decode (encode width n) = n % 256 ^ width := by
  induction width with
  | zero => simp [encode, decode, Nat.mod_one]
  | succ width ih =>
    simp only [encode, decode, length_encode, ih, Nat.mod_pow_succ]
    rw [Nat.mul_comm, Nat.add_comm]
    simp

theorem decode_encode_of_lt {width n : Nat} (h : n < 256 ^ width) :
    decode (encode width n) = n := by
  rw [decode_encode, Nat.mod_eq_of_lt h]

theorem encode_add_mul (width m n : Nat) (h : 256 ^ width ∣ m) :
    encode width (m + n) = encode width n := by
  induction width with
  | zero => rfl
  | succ width ih =>
    obtain ⟨k, rfl⟩ := h
    have hpow : 0 < 256 ^ width := Nat.pow_pos (by omega)
    have hdvd : 256 ^ width ∣ 256 ^ (width + 1) * k := ⟨256 * k, by rw [Nat.pow_succ, Nat.mul_assoc]⟩
    have hdiv : (256 ^ (width + 1) * k + n) / 256 ^ width = n / 256 ^ width + 256 * k := by
      rw [Nat.pow_succ, Nat.mul_assoc, Nat.add_comm, Nat.add_mul_div_left _ _ hpow]
    have hbyte : UInt8.ofNat (n / 256 ^ width + 256 * k) = UInt8.ofNat (n / 256 ^ width) := by
      apply UInt8.toNat_inj.mp
      simp
    simp only [encode, ih hdvd, hdiv, hbyte]

theorem encode_decode (bs : List UInt8) : encode bs.length (decode bs) = bs := by
  induction bs with
  | nil => rfl
  | cons b bs ih =>
    have hpow : 0 < 256 ^ bs.length := Nat.pow_pos (by omega)
    have hdiv : (b.toNat * 256 ^ bs.length + decode bs) / 256 ^ bs.length = b.toNat := by
      rw [Nat.add_comm, Nat.add_mul_div_right _ _ hpow, Nat.div_eq_of_lt (decode_lt bs), Nat.zero_add]
    simp only [List.length_cons, encode, decode, hdiv]
    rw [encode_add_mul _ _ _ ⟨b.toNat, Nat.mul_comm _ _⟩, ih]
    simp

theorem encode_add (v w n : Nat) : encode (v + w) n = encode v (n / 256 ^ w) ++ encode w n := by
  induction v with
  | zero => simp [encode]
  | succ v ih =>
    have hpow : n / 256 ^ (v + w) = n / 256 ^ w / 256 ^ v := by
      rw [Nat.pow_add, Nat.mul_comm, Nat.div_div_eq_div_mul]
    rw [show v + 1 + w = v + w + 1 by omega, encode, ih, hpow]
    rfl

theorem decode_append (as bs : List UInt8) :
    decode (as ++ bs) = decode as * 256 ^ bs.length + decode bs := by
  induction as with
  | nil => simp [decode]
  | cons a as ih =>
    simp only [List.cons_append, decode, ih, List.length_append, Nat.pow_add]
    rw [Nat.add_mul, Nat.mul_assoc, Nat.add_assoc]

theorem decode_replicate_zero (n : Nat) : decode (List.replicate n 0) = 0 := by
  induction n with
  | zero => rfl
  | succ n ih => simp [List.replicate_succ, decode, ih]

end BigEndian
