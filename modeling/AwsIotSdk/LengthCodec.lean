import AwsIotSdk.LengthBytes

/-! The remaining length as the fixed header writes it and as the reader takes it
off any connection. -/

namespace AwsIotSdk

open NetworkRead PacketFixedHeader

section Codec

variable {σ : Type} [NetworkConnection σ] {threadContinue : Bool}

theorem Feeds.split {c c' : σ} {bs w : Bytes} (h : Feeds threadContinue c (bs ++ w) c') :
    ∃ u, Feeds threadContinue c bs u ∧ Feeds threadContinue u w c' := by
  induction bs generalizing c with
  | nil => exact ⟨c, rfl, h⟩
  | cons b bs ih =>
    obtain ⟨out, d, hread, hrest⟩ := h
    obtain ⟨u, hbs, hw⟩ := ih hrest
    exact ⟨u, ⟨out, d, hread, hbs⟩, hw⟩

/-- The loop takes no byte after its attempts are over, and it fails when each byte
it took announces another. -/
theorem decodeLoop_takes {c c' : σ} {bs : Bytes} (attempts : Nat) (hlen : attempts ≤ bs.length)
    (h : Feeds threadContinue c bs c') (multiplier remLen : Nat) :
    ∃ k ≤ attempts, ∃ rc value u,
      decodeLoop threadContinue attempts c multiplier remLen = ⟨rc, value, u⟩ ∧
      Feeds threadContinue c (bs.take k) u ∧ Feeds threadContinue u (bs.drop k) c' ∧
      (rc ≠ .success ↔ ∀ b ∈ bs.take attempts, b &&& 128 ≠ 0) := by
  induction attempts generalizing c bs multiplier remLen with
  | zero => exact ⟨0, Nat.le_refl 0, _, _, c, rfl, rfl, h, by simp⟩
  | succ attempts ih =>
    cases bs with
    | nil => simp at hlen
    | cons b bs =>
      obtain ⟨out, d, hread, hrest⟩ := h
      rw [decodeLoop_succ hread]
      by_cases hbit : b &&& 128 = 0
      · rw [if_pos hbit]
        refine ⟨1, by omega, _, _, d, rfl, ⟨out, d, hread, rfl⟩, hrest, ?_⟩
        simp [hbit]
      · rw [if_neg hbit]
        obtain ⟨k, hk, rc, value, u, hloop, htaken, hleft, hfails⟩ := ih (by simpa using hlen)
          hrest (multiplier * 128) (remLen + multiplier * (b &&& 127).toNat)
        refine ⟨k + 1, by omega, rc, value, u, hloop, ⟨out, d, hread, htaken⟩, hleft, ?_⟩
        rw [hfails, List.take_succ_cons, List.forall_mem_cons]
        simp [hbit]

end Codec

/-- The length written is the length read, from its own bytes and no others; a
length that does not end in four bytes is refused. -/
theorem remainingLength_codec {σ : Type} [NetworkConnection σ] (threadContinue : Bool) :
    (∀ header : PacketFixedHeader, header.remainingLength ≤ maxMqttPacketRemLenBytes →
      ∃ ls, (∀ buf, header.appendToBuffer buf = buf ++ header.fixedHeaderByte :: ls) ∧
        ls.length = header.getRemainingLengthByteCount ∧
        ∀ (c c' : σ) (w : Bytes), Feeds threadContinue c (ls ++ w) c' → ∃ u,
          decodeRemainingLength threadContinue c = ⟨.success, header.remainingLength, u⟩ ∧
          Feeds threadContinue c ls u ∧ Feeds threadContinue u w c') ∧
    (∀ (c c' : σ) (bs : Bytes), 4 ≤ bs.length → Feeds threadContinue c bs c' →
      ∃ k ≤ 4, ∃ rc value u, decodeRemainingLength threadContinue c = ⟨rc, value, u⟩ ∧
        Feeds threadContinue c (bs.take k) u ∧ Feeds threadContinue u (bs.drop k) c' ∧
        (rc ≠ .success ↔ ∀ b ∈ bs.take 4, b &&& 0x80 ≠ 0)) := by
  constructor
  · intro header hmax
    have hcount := length_lengthBytes hmax
    refine ⟨lengthBytes header.remainingLength, header.appendToBuffer_eq, hcount, ?_⟩
    intro c c' w h
    obtain ⟨u, hls, hw⟩ := h.split
    have hle : (lengthBytes header.remainingLength).length ≤ maxNoOfRemainingLengthBytes := by
      rw [hcount]
      exact remainingLengthByteCount_le_four header.remainingLength
    have hloop := decodeLoop_of_feeds (terminated_lengthBytes header.remainingLength) hls
      maxNoOfRemainingLengthBytes hle 1 0
    rw [lengthValue_lengthBytes, Nat.one_mul, Nat.zero_add] at hloop
    exact ⟨u, hloop, hls, hw⟩
  · intro c c' bs hlen h
    exact decodeLoop_takes maxNoOfRemainingLengthBytes hlen h 1 0

def longLengthStream : StreamConnection := ⟨true, [.byte 0x80, .cut, .byte 0x01, .byte 0x68]⟩

theorem remainingLength_codec_stream :
    ∃ u, decodeRemainingLength true longLengthStream = ⟨.success, 128, u⟩ ∧
      Feeds true longLengthStream [0x80, 0x01] u ∧ Feeds true u [0x68] ⟨true, []⟩ := by
  obtain ⟨ls, happend, -, hdecode⟩ :=
    (remainingLength_codec (σ := StreamConnection) true).1 ⟨.publish, 0x30, 128, true⟩ (by decide)
  have hls : ls = [0x80, 0x01] := (List.cons.inj (happend [])).2.symm.trans (by decide +kernel)
  rw [hls] at hdecode
  exact hdecode longLengthStream ⟨true, []⟩ [0x68]
    ⟨1, ⟨true, [.byte 0x01, .byte 0x68]⟩, rfl, 1, ⟨true, [.byte 0x68]⟩, rfl,
      1, ⟨true, []⟩, rfl, rfl⟩

end AwsIotSdk
