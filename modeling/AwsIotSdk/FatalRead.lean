import AwsIotSdk.NetworkRead
import AwsIotSdk.PendingAcks
import AwsIotSdk.StreamConnection

/-! Read errors in the read loop. The flag that the runner waits for a CONNACK is
set when the loop starts and by the first error, and nothing clears it. -/

namespace AwsIotSdk.NetworkReadActionRunner

open NetworkRead

variable {σ : Type} [NetworkConnection σ]

def FatalRead (t : Turn σ) (r : NetworkReadActionRunner σ) : Prop :=
  let p := readPacketFromNetwork t.threadContinue (t.others (r.client, r.connection)).2
  p.rc ≠ .networkSslNothingToRead ∧ p.rc ≠ .success

def ConnectedAt (t : Turn σ) (r : NetworkReadActionRunner σ) : Prop :=
  (t.others (r.client, r.connection)).1.isConnected = true

def FatalBefore (ts : List (Turn σ)) (r : NetworkReadActionRunner σ) : Prop :=
  ∃ pre t post r', ts = pre ++ t :: post ∧ performAction dispatch pre r = .ok r' ∧ FatalRead t r'

def RequestsReconnect (t : Turn σ) (r : NetworkReadActionRunner σ) : Prop :=
  ∃ rc r', iteration dispatch t r = .ok (rc, r') ∧
    r'.performed = r.performed ++ [.disconnect] ∧ r'.client.isAutoReconnectRequired = true

theorem iteration_of_fatalRead {t : Turn σ} {r : NetworkReadActionRunner σ}
    (hf : FatalRead t r) :
    ∃ rc r', iteration dispatch t r = .ok (rc, r') ∧ r'.isWaitingForConnack = true ∧
      (r.isWaitingForConnack = true → r'.performed = r.performed) ∧
      (r.isWaitingForConnack = false → t.threadContinue = true → ConnectedAt t r →
        r'.performed = r.performed ++ [.disconnect] ∧
          r'.client.isAutoReconnectRequired = true) := by
  obtain ⟨hn, hs⟩ := hf
  unfold iteration
  dsimp only
  rw [if_neg hn, if_neg hs]
  cases hw : r.isWaitingForConnack with
  | true => exact ⟨_, _, rfl, rfl, by simp, by simp⟩
  | false =>
    simp only [Bool.not_false, if_true]
    by_cases hc : (t.threadContinue && (t.others (r.client, r.connection)).1.isConnected) = true
    · rw [if_pos hc]
      exact ⟨_, _, rfl, rfl, by simp, fun _ _ _ => ⟨rfl, rfl⟩⟩
    · rw [if_neg hc]
      exact ⟨_, _, rfl, rfl, by simp, fun _ ht hcon => absurd (by rw [ht]; exact hcon) hc⟩

theorem isWaitingForConnack_of_not_fatalRead {t : Turn σ} {r r' : NetworkReadActionRunner σ}
    {rc : ResponseCode} (hf : ¬ FatalRead t r) (h : iteration dispatch t r = .ok (rc, r')) :
    r'.isWaitingForConnack = r.isWaitingForConnack := by
  unfold iteration at h
  dsimp only at h
  split_ifs at h with hn hs
  · cases h
    rfl
  · obtain ⟨p, _, hp⟩ := bind_eq_ok.mp h
    cases hp
    rfl
  all_goals exact absurd ⟨hn, hs⟩ hf

theorem performAction_cons
    {handle : ClientState → UInt8 → Bytes → Except Fault (ResponseCode × ClientState)}
    {t : Turn σ} {ts : List (Turn σ)} {r r' : NetworkReadActionRunner σ} :
    performAction handle (t :: ts) r = .ok r' ↔
      ∃ rc u, iteration handle t r = .ok (rc, u) ∧ performAction handle ts u = .ok r' := by
  rw [performAction, bind_eq_ok]
  constructor
  · rintro ⟨⟨rc, u⟩, h, hu⟩
    exact ⟨rc, u, h, hu⟩
  · rintro ⟨rc, u, h, hu⟩
    exact ⟨(rc, u), h, hu⟩

theorem fatalBefore_cons {t : Turn σ} {ts : List (Turn σ)} {r u : NetworkReadActionRunner σ}
    {rc : ResponseCode} (h : iteration dispatch t r = .ok (rc, u)) :
    FatalBefore (t :: ts) r ↔ FatalRead t r ∨ FatalBefore ts u := by
  constructor
  · rintro ⟨pre, t', post, r', hts, hr, hf⟩
    cases pre with
    | nil =>
      obtain ⟨rfl, rfl⟩ := List.cons.inj hts
      cases hr
      exact .inl hf
    | cons p pre =>
      obtain ⟨rfl, rfl⟩ := List.cons.inj hts
      obtain ⟨rc', u', hu', hr⟩ := performAction_cons.mp hr
      rw [h] at hu'
      cases hu'
      exact .inr ⟨pre, t', post, r', rfl, hr, hf⟩
  · rintro (hf | ⟨pre, t', post, r', rfl, hr, hf⟩)
    · exact ⟨[], t, ts, r, rfl, rfl, hf⟩
    · exact ⟨t :: pre, t', post, r', rfl, performAction_cons.mpr ⟨rc, u, h, hr⟩, hf⟩

theorem isWaitingForConnack_performAction (ts : List (Turn σ))
    {r r' : NetworkReadActionRunner σ} (h : performAction dispatch ts r = .ok r') :
    r'.isWaitingForConnack = true ↔ r.isWaitingForConnack = true ∨ FatalBefore ts r := by
  induction ts generalizing r with
  | nil =>
    cases h
    simp [FatalBefore]
  | cons t ts ih =>
    obtain ⟨rc, u, hu, hrest⟩ := performAction_cons.mp h
    rw [ih hrest, fatalBefore_cons hu]
    by_cases hf : FatalRead t r
    · obtain ⟨rc', u', hu', hw, _⟩ := iteration_of_fatalRead hf
      rw [hu] at hu'
      cases hu'
      simp [hw, hf]
    · rw [isWaitingForConnack_of_not_fatalRead hf hu]
      simp [hf]

/-- A fatal read error is acted on exactly when the runner was started on a
connected client and this is its first error. -/
theorem requestsReconnect_iff (client : ClientState) (c : σ) (ts : List (Turn σ)) (t : Turn σ)
    (r : NetworkReadActionRunner σ) (hr : performAction dispatch ts (start client c) = .ok r)
    (hf : FatalRead t r) (ht : t.threadContinue = true) (hc : ConnectedAt t r) :
    RequestsReconnect t r ↔ client.isConnected = true ∧ ¬ FatalBefore ts (start client c) := by
  have hstart : (start client c).isWaitingForConnack = !client.isConnected := rfl
  have hw := isWaitingForConnack_performAction ts hr
  obtain ⟨rc, r', hi, _, hwaiting, hacting⟩ := iteration_of_fatalRead hf
  cases hlatch : r.isWaitingForConnack with
  | true =>
    have hnot : ¬ RequestsReconnect t r := by
      rintro ⟨rc', u, hu, hperformed, _⟩
      rw [hi] at hu
      cases hu
      rw [hwaiting hlatch] at hperformed
      simpa using congrArg List.length hperformed
    have hor := hw.mp hlatch
    rw [hstart, Bool.not_eq_true'] at hor
    refine iff_of_false hnot ?_
    rintro ⟨hcon, hfirst⟩
    rcases hor with h | h
    · simp [hcon] at h
    · exact hfirst h
  | false =>
    have hnor : ¬ ((start client c).isWaitingForConnack = true ∨
        FatalBefore ts (start client c)) := fun h => by simp [hw.mpr h] at hlatch
    rw [hstart, Bool.not_eq_true', not_or, Bool.not_eq_false] at hnor
    exact iff_of_true ⟨rc, r', hi, hacting hlatch ht hc⟩ hnor

def quietTurn : Turn StreamConnection := ⟨id, id, true⟩

def lostTurn : Turn StreamConnection :=
  ⟨fun x => (x.1, { x.2 with connected := false }), id, true⟩

def connectedClient : ClientState := freshClient.setConnected true

def pingrespStream : List Delivery := [.byte 0xd0, .byte 0x00]

theorem readPacketFromNetwork_pingrespStream :
    readPacketFromNetwork true (⟨true, pingrespStream⟩ : StreamConnection) =
      ⟨.success, 0xd0, [], ⟨true, []⟩⟩ := by decide

/-- A runner that was started on a connected client and has read a PINGRESP. -/
def pingedRunner : NetworkReadActionRunner StreamConnection :=
  ⟨connectedClient.setPingreqPending false, ⟨true, []⟩, false, [(0xd0, [])], []⟩

theorem performAction_pingrespStream :
    performAction dispatch [quietTurn]
      (start connectedClient (⟨true, pingrespStream⟩ : StreamConnection)) = .ok pingedRunner := by
  have hread := readPacketFromNetwork_pingrespStream
  refine performAction_cons.mpr ⟨.success, pingedRunner, ?_, rfl⟩
  simp only [iteration, quietTurn, start, id_eq, hread]
  rfl

theorem requestsReconnect_iff_lost :
    RequestsReconnect lostTurn pingedRunner ↔
      connectedClient.isConnected = true ∧ ¬ FatalBefore [quietTurn]
        (start connectedClient (⟨true, pingrespStream⟩ : StreamConnection)) := by
  have hf : FatalRead lostTurn pingedRunner := ⟨by decide, by decide⟩
  exact requestsReconnect_iff connectedClient (⟨true, pingrespStream⟩ : StreamConnection)
    [quietTurn] lostTurn pingedRunner performAction_pingrespStream hf rfl rfl

def connackStream : List Delivery := [.byte 0x20, .byte 0x02, .byte 0x00, .byte 0x00]

theorem readPacketFromNetwork_connackStream :
    readPacketFromNetwork true (⟨true, connackStream⟩ : StreamConnection) =
      ⟨.success, 0x20, [0x00, 0x00], ⟨true, []⟩⟩ := by decide

/-- A runner that was started before the CONNACK, as the first connect does it,
and has read it. -/
def connackedRunner : NetworkReadActionRunner StreamConnection :=
  ⟨(handleConnack freshClient [0x00, 0x00]).2, ⟨true, []⟩, true, [(0x20, [0x00, 0x00])], []⟩

theorem performAction_connackStream :
    performAction dispatch [quietTurn]
      (start freshClient (⟨true, connackStream⟩ : StreamConnection)) = .ok connackedRunner := by
  have hread := readPacketFromNetwork_connackStream
  refine performAction_cons.mpr ⟨(handleConnack freshClient [0x00, 0x00]).1, connackedRunner, ?_, rfl⟩
  simp only [iteration, quietTurn, start, id_eq, hread]
  rfl

theorem not_requestsReconnect_lost :
    performAction dispatch [quietTurn]
        (start freshClient (⟨true, connackStream⟩ : StreamConnection)) = .ok connackedRunner ∧
      FatalRead lostTurn connackedRunner ∧ lostTurn.threadContinue = true ∧
      ConnectedAt lostTurn connackedRunner ∧ ¬ RequestsReconnect lostTurn connackedRunner := by
  have hf : FatalRead lostTurn connackedRunner := ⟨by decide, by decide⟩
  refine ⟨performAction_connackStream, hf, rfl, rfl, ?_⟩
  rintro ⟨rc, r', hi, hp, _⟩
  obtain ⟨rc', u, hu, _, hsame, _⟩ := iteration_of_fatalRead hf
  rw [hi] at hu
  cases hu
  rw [hsame rfl] at hp
  simpa using congrArg List.length hp

end AwsIotSdk.NetworkReadActionRunner
