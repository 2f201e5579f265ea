import AwsIotSdk.NetworkConnection

/-! Writing a buffer to a network that may take a part of what it is offered. The
loop around `Write` compares the total with the last write and is left after one. -/

namespace AwsIotSdk

open AwsIotSdk.Action

theorem writeToNetworkBuffer_once {σ : Type} [NetworkConnection σ] (threadContinue : Bool) (c : σ)
    {writeBuf : Bytes} (h : writeBuf ≠ []) :
    writeToNetworkBuffer threadContinue c writeBuf =
      let r := NetworkConnection.write c writeBuf 0
      if r.rc = .success ∧ r.sizeWrittenBytesOut ≠ writeBuf.length then
        (if threadContinue then .failure else .threadExiting, r.connection)
      else (r.rc, r.connection) := by
  have hlen : ¬ writeBuf.length = 0 := fun hzero => h (List.length_eq_zero_iff.mp hzero)
  have hloop : writeLoop threadContinue writeBuf (writeBuf.length + 1) c writeBuf 0 0 =
      NetworkConnection.write c writeBuf 0 := by
    rw [writeLoop]
    simp
  rw [writeToNetworkBuffer, if_neg hlen, hloop]

/-- What a `Write` does: it takes up to so many of the bytes offered, or it fails. -/
inductive WriteOutcome where
  | took (n : Nat)
  | refused (rc : {rc : ResponseCode // rc ≠ .success})

/-- A network whose writes have the given outcomes, and its log: each buffer offered
and the outcome, the last one first. -/
structure ScriptedWrites where
  outcomes : Nat → WriteOutcome
  log : List (Bytes × WriteOutcome)

namespace ScriptedWrites

def writeInternal (c : ScriptedWrites) (buf : Bytes) (out : Nat) : WriteResult ScriptedWrites :=
  let outcome := c.outcomes c.log.length
  let c := { c with log := (buf, outcome) :: c.log }
  match outcome with
  | .took n => ⟨.success, min n buf.length, c⟩
  | .refused rc => ⟨rc, out, c⟩

instance networkConnection : NetworkConnection ScriptedWrites where
  isConnected _ := true
  connectInternal c := (.success, c)
  writeInternal := writeInternal
  readInternal c buf _ _ out := ⟨.networkSslNothingToRead, buf, out, c⟩
  disconnectInternal c := (.success, c)
  pending _ := 0
  pending_lt := by
    intro c buf offset size out hsize hrc
    cases hrc

/-- The bytes the network reported as written, in the order of the writes. -/
def written : List (Bytes × WriteOutcome) → Bytes
  | [] => []
  | (buf, .took n) :: log => written log ++ buf.take n
  | (_, .refused _) :: log => written log

def lastFailed : List (Bytes × WriteOutcome) → Bool
  | (_, .refused _) :: _ => true
  | _ => false

/-- The writes of one call put a prefix of the buffer on the network, the call
succeeds on all of it only, and it gives up no sooner than a write fails. -/
structure Completes (threadContinue : Bool) (outcomes : Nat → WriteOutcome) (writeBuf : Bytes)
    (result : ResponseCode × ScriptedWrites) : Prop where
  isPrefix : written result.2.log <+: writeBuf
  success_iff : result.1 = .success ↔ written result.2.log = writeBuf
  goesOn : threadContinue → written result.2.log = writeBuf ∨ lastFailed result.2.log

/-- The first write settles the call: it takes the whole buffer, or it fails. -/
def DecidedAtOnce (outcomes : Nat → WriteOutcome) (writeBuf : Bytes) : Prop :=
  match outcomes 0 with
  | .took n => writeBuf.length ≤ n
  | .refused _ => True

theorem write_fresh (outcomes : Nat → WriteOutcome) (writeBuf : Bytes) :
    NetworkConnection.write (⟨outcomes, []⟩ : ScriptedWrites) writeBuf 0 =
      match outcomes 0 with
      | .took n => ⟨.success, min n writeBuf.length, ⟨outcomes, [(writeBuf, .took n)]⟩⟩
      | .refused rc => ⟨rc, 0, ⟨outcomes, [(writeBuf, .refused rc)]⟩⟩ := by
  change writeInternal ⟨outcomes, []⟩ writeBuf 0 = _
  rw [writeInternal]
  simp only [List.length_nil]
  cases outcomes 0 with
  | took n => rfl
  | refused rc => rfl

theorem completes_refused {outcomes : Nat → WriteOutcome} {writeBuf : Bytes} (h : writeBuf ≠ [])
    {rc : {rc : ResponseCode // rc ≠ .success}} (hfirst : outcomes 0 = .refused rc)
    (threadContinue : Bool) :
    Completes threadContinue outcomes writeBuf
      (writeToNetworkBuffer threadContinue ⟨outcomes, []⟩ writeBuf) := by
  have hresult : writeToNetworkBuffer threadContinue (⟨outcomes, []⟩ : ScriptedWrites) writeBuf =
      (rc.val, ⟨outcomes, [(writeBuf, .refused rc)]⟩) := by
    rw [writeToNetworkBuffer_once threadContinue _ h, write_fresh, hfirst]
    exact if_neg (fun hrc => rc.property hrc.1)
  rw [hresult]
  refine ⟨List.nil_prefix, ?_, fun _ => .inr rfl⟩
  exact ⟨fun hrc => absurd hrc rc.property, fun hnil => absurd hnil.symm h⟩

theorem writeToNetworkBuffer_took {outcomes : Nat → WriteOutcome} {writeBuf : Bytes}
    (h : writeBuf ≠ []) {n : Nat} (hfirst : outcomes 0 = .took n) (threadContinue : Bool) :
    writeToNetworkBuffer threadContinue (⟨outcomes, []⟩ : ScriptedWrites) writeBuf =
      (if writeBuf.length ≤ n then .success
        else if threadContinue then .failure else .threadExiting,
        ⟨outcomes, [(writeBuf, .took n)]⟩) := by
  rw [writeToNetworkBuffer_once threadContinue _ h, write_fresh, hfirst]
  by_cases hle : writeBuf.length ≤ n
  · simp [hle]
  · have hshort : min n writeBuf.length ≠ writeBuf.length := by omega
    simp [hle, hshort]

/-- A call writes the buffer as far as the network lets it exactly when it may stop
anyway or its first write settles it. -/
theorem completes_iff (threadContinue : Bool) (outcomes : Nat → WriteOutcome) (writeBuf : Bytes)
    (h : writeBuf ≠ []) :
    Completes threadContinue outcomes writeBuf
        (writeToNetworkBuffer threadContinue ⟨outcomes, []⟩ writeBuf) ↔
      threadContinue = false ∨ DecidedAtOnce outcomes writeBuf := by
  cases hfirst : outcomes 0 with
  | refused rc =>
    have hdecided : DecidedAtOnce outcomes writeBuf := by
      rw [DecidedAtOnce, hfirst]
      trivial
    exact ⟨fun _ => .inr hdecided, fun _ => completes_refused h hfirst threadContinue⟩
  | took n =>
    have hdecided : DecidedAtOnce outcomes writeBuf ↔ writeBuf.length ≤ n := by
      rw [DecidedAtOnce, hfirst]
    have hwritten : written [(writeBuf, .took n)] = writeBuf ↔ writeBuf.length ≤ n :=
      List.take_eq_self_iff writeBuf
    rw [writeToNetworkBuffer_took h hfirst, hdecided]
    constructor
    · intro hcompletes
      cases threadContinue with
      | false => exact .inl rfl
      | true =>
        rcases hcompletes.goesOn rfl with hall | hfailed
        · exact .inr (hwritten.mp hall)
        · cases hfailed
    · intro hcond
      refine ⟨List.take_prefix n writeBuf, ?_, ?_⟩
      · rw [hwritten]
        by_cases hle : writeBuf.length ≤ n
        · simp [hle]
        · cases threadContinue <;> simp [hle]
      · intro hcontinue
        rcases hcond with hstop | hle
        · rw [hstop] at hcontinue
          cases hcontinue
        · exact .inl (hwritten.mpr hle)

theorem completes_iff_whole :
    Completes true (fun _ => .took 3) [0xc0, 0x00]
        (writeToNetworkBuffer true ⟨fun _ => .took 3, []⟩ [0xc0, 0x00]) ↔
      true = false ∨ DecidedAtOnce (fun _ => .took 3) [0xc0, 0x00] :=
  completes_iff true (fun _ => .took 3) [0xc0, 0x00] (List.cons_ne_nil _ _)

/-- A network that takes one byte at a time gets the first one only. -/
theorem not_completes_short :
    ¬ Completes true (fun _ => .took 1) [0xc0, 0x00]
      (writeToNetworkBuffer true ⟨fun _ => .took 1, []⟩ [0xc0, 0x00]) := by
  intro h
  have hrun : written (writeToNetworkBuffer true (⟨fun _ => .took 1, []⟩ : ScriptedWrites)
      [0xc0, 0x00]).2.log = [0xc0] := rfl
  rcases h.goesOn rfl with hall | hfailed
  · rw [hrun] at hall
    cases hall
  · cases hfailed

end ScriptedWrites

end AwsIotSdk
