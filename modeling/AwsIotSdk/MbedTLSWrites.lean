import AwsIotSdk.NetworkConnection

/-! Writing through mbed TLS, which may take a part of what it is offered. The loop
offers the rest again until the write timeout has elapsed. -/

namespace AwsIotSdk

def mbedtlsErrSslWantRead : Int := -0x6900
def mbedtlsErrSslWantWrite : Int := -0x6880

/-- What `mbedtls_ssl_write` returns when it is offered `len` bytes: how many of them it
took, or a code that is not positive. -/
structure MbedtlsSslWrite (len : Nat) where
  ret : Int
  ret_le : ret ≤ len

/-- A write, whatever it will be offered, and the time since the start of the loop when
it has returned, in milliseconds. -/
structure WriteTurn where
  write : (len : Nat) → MbedtlsSslWrite len
  elapsedTime : Int

/-- A connection whose writes go like the turns. The last member records what the library
took; it is no part of the source. -/
structure MbedTLSConnection where
  tlsWriteTimeout : Int
  turns : List WriteTurn
  written : Bytes

namespace MbedTLSConnection

/-- How many bytes a write took: 0 where it is to be repeated, no number where it failed. -/
def sslWrite (ret : Int) : Option Nat :=
  if 0 < ret then some ret.toNat
  else if ret ≠ mbedtlsErrSslWantRead ∧ ret ≠ mbedtlsErrSslWantWrite then none
  else some 0

def took (c : MbedTLSConnection) (turns : List WriteTurn) (bytes : Bytes) : MbedTLSConnection :=
  { c with turns := turns, written := c.written ++ bytes }

structure LoopEnd where
  isErrorFlag : Bool
  elapsedTime : Int
  totalWrittenLength : Nat
  connection : MbedTLSConnection

/-- The loop. It has no result while its turns are not all there. -/
def writeLoop (buf : Bytes) : List WriteTurn → MbedTLSConnection → (elapsedTime : Int) →
    (totalWrittenLength : Nat) → Option LoopEnd
  | [], _, _, _ => none
  | turn :: turns, c, elapsedTime, totalWrittenLength =>
    match sslWrite (turn.write (buf.length - totalWrittenLength)).ret with
    | none => some ⟨true, elapsedTime, totalWrittenLength, c.took turns []⟩
    | some n =>
      let c := c.took turns ((buf.drop totalWrittenLength).take n)
      let totalWrittenLength := totalWrittenLength + n
      let elapsedTime := turn.elapsedTime
      if c.tlsWriteTimeout > elapsedTime ∧ totalWrittenLength < buf.length then
        writeLoop buf turns c elapsedTime totalWrittenLength
      else some ⟨false, elapsedTime, totalWrittenLength, c⟩

def writeInternal (c : MbedTLSConnection) (buf : Bytes) :
    Option (WriteResult MbedTLSConnection) :=
  (writeLoop buf c.turns c 0 0).map fun e =>
    let rc : ResponseCode :=
      if e.isErrorFlag then .networkSslWriteError
      else if c.tlsWriteTimeout > e.elapsedTime ∧ e.totalWrittenLength ≠ buf.length then
        .networkSslWriteTimeoutError
      else .success
    ⟨rc, e.totalWrittenLength, e.connection⟩

/-! ### How the loop ends -/

/-- The timeout elapses with bytes left, before a write fails. -/
def TimesOut (tlsWriteTimeout : Int) : (left : Nat) → List WriteTurn → Prop
  | _, [] => False
  | left, turn :: turns =>
    ∃ n, sslWrite (turn.write left).ret = some n ∧ n < left ∧
      (tlsWriteTimeout ≤ turn.elapsedTime ∨ TimesOut tlsWriteTimeout (left - n) turns)

theorem sslWrite_le {len n : Nat} {w : MbedtlsSslWrite len} (h : sslWrite w.ret = some n) :
    n ≤ len := by
  have hle := w.ret_le
  rw [sslWrite] at h
  split_ifs at h
  · cases h
    omega
  · cases h
    exact Nat.zero_le len

/-- What the loop has done from a position on: the bytes written, and why it ended unless
a write failed. -/
structure Wrote (buf : Bytes) (c : MbedTLSConnection) (total : Nat) (e : LoopEnd) (w : Bytes) :
    Prop where
  written : e.connection.written = c.written ++ w
  isPrefix : w <+: buf.drop total
  counted : e.totalWrittenLength = total + w.length
  ended : e.isErrorFlag = false →
    c.tlsWriteTimeout ≤ e.elapsedTime ∨ buf.length ≤ e.totalWrittenLength

/-- The induction is on the turns; what a turn has written stands in front of what the
others write. -/
theorem writeLoop_wrote {buf : Bytes} {turns : List WriteTurn} {c : MbedTLSConnection}
    {elapsed : Int} {total : Nat} {e : LoopEnd} (hlen : total ≤ buf.length)
    (h : writeLoop buf turns c elapsed total = some e) : ∃ w, Wrote buf c total e w := by
  induction turns generalizing c elapsed total with
  | nil => cases h
  | cons turn turns ih =>
    rw [writeLoop] at h
    cases hwrite : sslWrite (turn.write (buf.length - total)).ret with
    | none =>
      simp only [hwrite, Option.some.injEq] at h
      subst h
      exact ⟨[], rfl, List.nil_prefix, rfl, nofun⟩
    | some n =>
      have hle := sslWrite_le hwrite
      have hfirst : ((buf.drop total).take n).length = n := by
        rw [List.length_take, List.length_drop]
        omega
      simp only [hwrite] at h
      split_ifs at h with hon
      · obtain ⟨w, hw⟩ := ih (by omega) h
        refine ⟨(buf.drop total).take n ++ w, ?_, ?_, ?_, hw.ended⟩
        · rw [hw.written, took, List.append_assoc]
        · have hrest := hw.isPrefix
          rw [← List.drop_drop] at hrest
          have happend := (List.prefix_append_right_inj ((buf.drop total).take n)).mpr hrest
          rwa [List.take_append_drop] at happend
        · rw [hw.counted, List.length_append, hfirst, Nat.add_assoc]
      · cases h
        refine ⟨(buf.drop total).take n, rfl, List.take_prefix n _, by rw [hfirst], fun _ => ?_⟩
        change ¬(c.tlsWriteTimeout > turn.elapsedTime ∧ total + n < buf.length) at hon
        change c.tlsWriteTimeout ≤ turn.elapsedTime ∨ buf.length ≤ total + n
        omega

/-- The loop is left with bytes to write, and without an error, exactly when the time is
over. -/
theorem timesOut_iff (buf : Bytes) (turns : List WriteTurn) (c : MbedTLSConnection)
    (elapsed : Int) (total : Nat) :
    TimesOut c.tlsWriteTimeout (buf.length - total) turns ↔
      ∃ e, writeLoop buf turns c elapsed total = some e ∧ e.isErrorFlag = false ∧
        e.totalWrittenLength < buf.length := by
  induction turns generalizing c elapsed total with
  | nil => simp [TimesOut, writeLoop]
  | cons turn turns ih =>
    rw [TimesOut, writeLoop]
    cases hwrite : sslWrite (turn.write (buf.length - total)).ret with
    | none => simp
    | some n =>
      by_cases hleft : total + n < buf.length
      · have hn : n < buf.length - total := by omega
        by_cases htime : c.tlsWriteTimeout ≤ turn.elapsedTime
        · simp [hn, htime, hleft, took, not_lt.mpr htime]
        · have hon : c.tlsWriteTimeout > turn.elapsedTime := not_le.mp htime
          have hrest := ih (c.took turns ((buf.drop total).take n)) turn.elapsedTime (total + n)
          rw [← Nat.sub_sub] at hrest
          simpa [hn, htime, hleft, hon, took] using hrest
      · have hn : ¬n < buf.length - total := by omega
        simp [hn, hleft]

/-- Time that is over ends the loop whatever the writes return. -/
theorem writeLoop_isSome {buf : Bytes} {turns : List WriteTurn} {c : MbedTLSConnection}
    {elapsed : Int} {total : Nat} (h : ∃ turn ∈ turns, c.tlsWriteTimeout ≤ turn.elapsedTime) :
    (writeLoop buf turns c elapsed total).isSome := by
  induction turns generalizing c elapsed total with
  | nil => simp at h
  | cons turn turns ih =>
    rw [writeLoop]
    cases hwrite : sslWrite (turn.write (buf.length - total)).ret with
    | none => rfl
    | some n =>
      dsimp only
      split_ifs with hon
      · refine ih ?_
        obtain ⟨late, hmem, htime⟩ := h
        rcases List.mem_cons.mp hmem with rfl | hmem
        · exact absurd hon.1 (not_lt.mpr htime)
        · exact ⟨late, hmem, htime⟩
      · rfl

/-! ### What a call reports -/

/-- What a caller of `Write` relies on. -/
structure ReportsWrite (c : MbedTLSConnection) (buf : Bytes)
    (result : Option (WriteResult MbedTLSConnection)) : Prop where
  success : ∀ r, result = some r → r.rc = .success → r.connection.written = c.written ++ buf
  timeout : TimesOut c.tlsWriteTimeout buf.length c.turns →
    ∃ r, result = some r ∧ r.rc = .networkSslWriteTimeoutError
  written : ∀ r, result = some r → ∃ w, w <+: buf ∧ r.connection.written = c.written ++ w ∧
    r.sizeWrittenBytesOut = w.length

/-- The test behind the loop asks for time that is left and bytes that are left. There is
no end of the loop with both, so that the timeout error is never returned. -/
theorem writeInternal_eq (c : MbedTLSConnection) (buf : Bytes) :
    writeInternal c buf = (writeLoop buf c.turns c 0 0).map fun e =>
      ⟨if e.isErrorFlag then .networkSslWriteError else .success, e.totalWrittenLength,
        e.connection⟩ := by
  rw [writeInternal]
  cases hloop : writeLoop buf c.turns c 0 0 with
  | none => rfl
  | some e =>
    obtain ⟨w, hw⟩ := writeLoop_wrote (Nat.zero_le _) hloop
    have hlen := hw.isPrefix.length_le
    rw [List.drop_zero] at hlen
    have hcount := hw.counted
    have hended := hw.ended
    cases hflag : e.isErrorFlag with
    | true => simp [hflag]
    | false =>
      have htest : ¬(c.tlsWriteTimeout > e.elapsedTime ∧ e.totalWrittenLength ≠ buf.length) := by
        have := hended hflag
        omega
      simp [hflag, htest]

/-- A call reports what it has done exactly when its time does not run out. -/
theorem reportsWrite_iff (c : MbedTLSConnection) (buf : Bytes) :
    ReportsWrite c buf (writeInternal c buf) ↔
      ¬TimesOut c.tlsWriteTimeout buf.length c.turns := by
  have hout := timesOut_iff buf c.turns c 0 0
  rw [Nat.sub_zero] at hout
  rw [writeInternal_eq]
  constructor
  · intro h htime
    obtain ⟨e, hloop, hflag, -⟩ := hout.mp htime
    obtain ⟨r, hr, hrc⟩ := h.timeout htime
    rw [hloop, Option.map_some, Option.some.injEq] at hr
    subst hr
    simp [hflag] at hrc
  · intro htime
    refine ⟨?_, fun h => absurd h htime, ?_⟩ <;> intro r hr <;>
      obtain ⟨e, hloop, rfl⟩ := Option.map_eq_some_iff.mp hr <;>
      obtain ⟨w, hw⟩ := writeLoop_wrote (Nat.zero_le _) hloop <;>
      have hprefix : w <+: buf := hw.isPrefix
    · intro hrc
      have hflag : e.isErrorFlag = false := by
        by_contra hflag
        simp [hflag] at hrc
      have hall : ¬e.totalWrittenLength < buf.length :=
        fun hlt => htime (hout.mpr ⟨e, hloop, hflag, hlt⟩)
      have hcount := hw.counted
      rw [← hprefix.eq_of_length_le (by omega)]
      exact hw.written
    · exact ⟨w, hprefix, hw.written, by simpa using hw.counted⟩

def oneByteWrite (len : Nat) : MbedtlsSslWrite len := ⟨min 1 len, by omega⟩

/-- One of two bytes is written when the time is over, and the call succeeds. -/
theorem not_reportsWrite_late :
    ¬ReportsWrite ⟨1000, [⟨oneByteWrite, 1000⟩], []⟩ [0xc0, 0x00]
      (writeInternal ⟨1000, [⟨oneByteWrite, 1000⟩], []⟩ [0xc0, 0x00]) := by
  intro h
  have hwritten := h.success _ rfl rfl
  revert hwritten
  decide

end MbedTLSConnection

end AwsIotSdk
