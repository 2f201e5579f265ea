import AwsIotSdk.OpenSSLReads

/-! Writing over TLS. Every turn of the loop offers the whole buffer again, which is right
only where the library has taken all of it or nothing. -/

namespace AwsIotSdk

/-- What a write of `num` bytes comes to. The library takes a part of them only where it
was told to put out parts. -/
inductive SslWrite (partialWrites : Bool) (num : Int) where
  | written (n : Nat) (h : 0 < n ∧ (n : Int) ≤ num) (hall : partialWrites = false → (n : Int) = num)
  | wantWrite (selectRetCode : Int)
  | error

/-- A connection whose writes have the given results, and time out behind them. The last
member records what the library took; it is no part of the source. -/
structure OpenSSLWriter (partialWrites : Bool) where
  isConnected : Bool
  hasSslHandle : Bool
  writes : List ((num : Int) → SslWrite partialWrites num)
  written : Bytes

namespace OpenSSLWriter

variable {partialWrites : Bool}

/-- The number of bytes taken in one turn of the loop, none where the socket is ready
again, or the error status. -/
def sslWrite {num : Int} : SslWrite partialWrites num → Except ResponseCode Nat
  | .written n _ _ => .ok n
  | .wantWrite selectRetCode =>
    if selectRetCode = 0 then .error .networkSslWriteTimeoutError
    else if selectRetCode = -1 then .error .networkSslWriteError
    else .ok 0
  | .error => .error .networkSslWriteError

def took (c : OpenSSLWriter partialWrites) (writes : List ((num : Int) → SslWrite partialWrites num))
    (bytes : Bytes) : OpenSSLWriter partialWrites :=
  { c with writes := writes, written := c.written ++ bytes }

@[simp] theorem took_isConnected (c : OpenSSLWriter partialWrites)
    (writes : List ((num : Int) → SslWrite partialWrites num)) (bytes : Bytes) :
    (c.took writes bytes).isConnected = c.isConnected := rfl

@[simp] theorem took_written (c : OpenSSLWriter partialWrites)
    (writes : List ((num : Int) → SslWrite partialWrites num)) (bytes : Bytes) :
    (c.took writes bytes).written = c.written ++ bytes := rfl

def writeLoop (buf : Bytes) (out : Nat) :
    List ((num : Int) → SslWrite partialWrites num) → OpenSSLWriter partialWrites →
      (totalWrittenLength : Nat) → WriteResult (OpenSSLWriter partialWrites)
  | [], c, _ => ⟨.networkSslWriteTimeoutError, out, c.took [] []⟩
  | write :: writes, c, totalWrittenLength =>
    match sslWrite (write (toCInt buf.length)) with
    | .error rc => ⟨rc, out, c.took writes []⟩
    | .ok n =>
      let c := c.took writes (buf.take n)
      let totalWrittenLength := totalWrittenLength + n
      if c.isConnected && decide (totalWrittenLength < buf.length) then
        writeLoop buf out writes c totalWrittenLength
      else ⟨.success, totalWrittenLength, c⟩

def writeInternal (c : OpenSSLWriter partialWrites) (buf : Bytes) (sizeWrittenBytesOut : Nat) :
    WriteResult (OpenSSLWriter partialWrites) :=
  if c.hasSslHandle then writeLoop buf sizeWrittenBytesOut c.writes c 0
  else ⟨.networkSslWriteError, sizeWrittenBytesOut, c⟩

theorem sslWrite_error {num : Int} {write : SslWrite partialWrites num} {rc : ResponseCode}
    (h : sslWrite write = .error rc) : rc ≠ .success := by
  cases write with
  | written n hn hall => cases h
  | wantWrite code =>
    rw [sslWrite] at h
    split_ifs at h <;> cases h <;> decide
  | error => cases h; decide

theorem sslWrite_le {num : Int} {write : SslWrite partialWrites num} {n : Nat}
    (h : sslWrite write = .ok n) : n = 0 ∨ (n : Int) ≤ num := by
  cases write with
  | written m hm hall =>
    cases h
    exact .inr hm.2
  | wantWrite code =>
    rw [sslWrite] at h
    split_ifs at h
    cases h
    exact .inl rfl
  | error => cases h

theorem toCInt_of_lt {n : Nat} (h : n < 2 ^ 31) : toCInt n = n := by
  have hmod : (BitVec.ofNat 32 n).toNat = n := by
    rw [BitVec.toNat_ofNat]
    omega
  rw [toCInt, BitVec.toInt_eq_toNat_of_lt (by rw [hmod]; omega), hmod]

theorem sslWrite_all {num : Int} {write : SslWrite false num} {n : Nat}
    (h : sslWrite write = .ok n) : n = 0 ∨ (n : Int) = num := by
  cases write with
  | written m hm hall =>
    cases h
    exact .inr (hall rfl)
  | wantWrite code =>
    rw [sslWrite] at h
    split_ifs at h
    cases h
    exact .inl rfl
  | error => cases h

/-- The buffer has gone out once and the write says so, or it has not and the write has failed. -/
def AllOrNothing (c : OpenSSLWriter partialWrites) (buf : Bytes) (out : Nat)
    (r : WriteResult (OpenSSLWriter partialWrites)) : Prop :=
  (r.rc = .success ∧ r.sizeWrittenBytesOut = buf.length ∧ r.connection.written = c.written ++ buf) ∨
    (r.rc ≠ .success ∧ r.sizeWrittenBytesOut = out ∧ r.connection.written = c.written)

/-- The induction is on the results of the writes; all of them before the one that takes
the buffer have taken nothing. -/
theorem writeLoop_allOrNothing {c : OpenSSLWriter false} {buf : Bytes}
    (hconnected : c.isConnected = true) (hne : buf ≠ []) (hlen : buf.length < 2 ^ 31) (out : Nat)
    (writes : List ((num : Int) → SslWrite false num)) :
    AllOrNothing c buf out (writeLoop buf out writes c 0) := by
  have hpos : 0 < buf.length := List.length_pos_iff.mpr hne
  induction writes generalizing c with
  | nil => exact .inr ⟨by simp [writeLoop], rfl, by simp [writeLoop]⟩
  | cons write writes ih =>
    rw [writeLoop]
    cases hwrite : sslWrite (write (toCInt buf.length)) with
    | error rc => exact .inr ⟨sslWrite_error hwrite, rfl, by simp⟩
    | ok n =>
      rcases sslWrite_all hwrite with rfl | hall
      · have hagain := ih (c := c.took writes []) hconnected
        simp only [took_isConnected, hconnected, Nat.zero_add, hpos, decide_true, Bool.and_self,
          if_true, List.take_zero]
        rw [AllOrNothing, took_written, List.append_nil] at hagain
        exact hagain
      · have hn : n = buf.length := by
          rw [toCInt_of_lt hlen] at hall
          exact_mod_cast hall
        subst hn
        simp only [Nat.zero_add, Nat.lt_irrefl, decide_false, Bool.and_false, Bool.false_eq_true,
          if_false, List.take_length]
        exact .inl ⟨rfl, rfl, took_written c writes buf⟩

theorem writeInternal_allOrNothing {c : OpenSSLWriter false} {buf : Bytes}
    (hconnected : c.isConnected = true) (hne : buf ≠ []) (hlen : buf.length < 2 ^ 31) (out : Nat) :
    AllOrNothing c buf out (c.writeInternal buf out) := by
  rw [writeInternal]
  split_ifs with hhandle
  · exact writeLoop_allOrNothing hconnected hne hlen out c.writes
  · exact .inr ⟨nofun, rfl, rfl⟩

end OpenSSLWriter

end AwsIotSdk
