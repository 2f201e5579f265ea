import AwsIotSdk.Shadow
import AwsIotSdk.Transition

/-! The version of a shadow over runs of update responses and deltas. The version only
grows, and only to that of the payload, unless a payload has none. -/

namespace AwsIotSdk

open JsonValue

variable {ν : Type} [JsonNumber ν]

structure UpdateResponse (ν : Type) where
  responseType : ShadowResponseType
  payload : JsonValue ν

/-- The version number the payload carries. -/
def UpdateResponse.version (r : UpdateResponse ν) : Option UInt32 :=
  match r.payload.findMember Shadow.documentVersionKey with
  | some (.number n) => JsonNumber.getUint n
  | _ => none

/-- The response is taken for an update, and its payload has no version. -/
def UpdateResponse.LacksVersion (r : UpdateResponse ν) : Prop :=
  r.responseType ≠ .rejected ∧ (r.payload.findMember Shadow.documentStateKey).isSome = true ∧
    r.payload.findMember Shadow.documentVersionKey = none

namespace UpdateResponse

theorem getUint32Value_of_none {r : UpdateResponse ν}
    (h : r.payload.findMember Shadow.documentVersionKey = none) (value : UInt32) :
    JsonParser.getUint32Value r.payload Shadow.documentVersionKey value =
      (.jsonParseKeyNotFoundError, value) := by
  rw [JsonParser.getUint32Value, h]

theorem getUint32Value_of_version {r : UpdateResponse ν} {v : UInt32} (h : r.version = some v)
    (value : UInt32) :
    JsonParser.getUint32Value r.payload Shadow.documentVersionKey value = (.success, v) := by
  rw [version] at h
  rw [JsonParser.getUint32Value]
  split at h
  next n hn =>
    rw [hn]
    dsimp only
    rw [h]
  next => cases h

theorem getUint32Value_of_version_none {r : UpdateResponse ν} (h : r.version = none)
    (hsome : r.payload.findMember Shadow.documentVersionKey ≠ none) (value : UInt32) :
    JsonParser.getUint32Value r.payload Shadow.documentVersionKey value =
      (.jsonParseKeyUnexpectedTypeError, value) := by
  rw [version] at h
  rw [JsonParser.getUint32Value]
  cases hm : r.payload.findMember Shadow.documentVersionKey with
  | none => exact absurd hm hsome
  | some x =>
    rw [hm] at h
    cases x with
    | number n =>
      dsimp only at h ⊢
      rw [h]
    | _ => rfl

end UpdateResponse

namespace Shadow

def handle (indeterminate : UInt32) (s : Shadow ν) (r : UpdateResponse ν) :
    Except Fault (Shadow ν) :=
  (s.handleUpdateResponse indeterminate r.responseType r.payload).map Prod.snd

/-- What a response may do to the document and the version. -/
structure KeepsVersion (s : Shadow ν) (r : UpdateResponse ν) (t : Shadow ν) : Prop where
  le : s.curShadowVersion ≤ t.curShadowVersion
  carried : t.curShadowVersion ≠ s.curShadowVersion → r.version = some t.curShadowVersion
  stale : ∀ v, r.version = some v → v ≤ s.curShadowVersion →
    t.curServerStateDocument = s.curServerStateDocument ∧ t.curShadowVersion = s.curShadowVersion

/-- The response keeps the version, and what it leaves depends on the shadow and the
response alone. -/
def Disciplined (s : Shadow ν) (r : UpdateResponse ν) : Prop :=
  ∀ indeterminate, (∀ t, s.handle indeterminate r = .ok t → s.KeepsVersion r t) ∧
    ∀ other, s.handle other r = s.handle indeterminate r

/-- A payload without a version is harmless when no version is above the current one, and
when the update is a delta of the shadow's own. -/
def VersionKnown (s : Shadow ν) (r : UpdateResponse ν) : Prop :=
  r.LacksVersion → s.curShadowVersion = 4294967295 ∨
    (r.responseType = .delta ∧ s.ownRequest r.payload = true)

/-- A move is a response and what the uninitialized version holds. -/
def step (s : Shadow ν) (m : UInt32 × UpdateResponse ν) : Option (Shadow ν) :=
  (s.handle m.1 m.2).toOption

theorem KeepsVersion.refl (s : Shadow ν) (r : UpdateResponse ν) : s.KeepsVersion r s :=
  ⟨UInt32.le_refl s.curShadowVersion, fun h => absurd rfl h, fun _ _ _ => ⟨rfl, rfl⟩⟩

theorem keepsVersion_of_ok {s t : Shadow ν} {r : UpdateResponse ν}
    (h : (.ok s : Except Fault (Shadow ν)) = .ok t) : s.KeepsVersion r t := by
  cases h
  exact .refl s r

/-! ### One response -/

section Update

variable {s t : Shadow ν} {r : UpdateResponse ν} {state : JsonValue ν} {v : UInt32}

/-- An update whose version is read as `v`, or the assertion that fails in it. -/
def apply (s : Shadow ν) (r : UpdateResponse ν) (state : JsonValue ν) (v : UInt32) :
    Except Fault (Shadow ν) :=
  (s.applyUpdate r.responseType r.payload state v).map Prod.snd

theorem apply_of_le (h : v ≤ s.curShadowVersion) : s.apply r state v = .ok s := by
  rw [apply, applyUpdate, if_pos h]
  rfl

theorem apply_of_ownRequest (htype : r.responseType = .delta)
    (hown : s.ownRequest r.payload = true) : s.apply r state v = .ok s := by
  by_cases h : v ≤ s.curShadowVersion
  · exact apply_of_le h
  · rw [apply, applyUpdate, if_neg h, if_pos htype, if_pos hown]
    rfl

theorem version_of_apply (h : ¬ v ≤ s.curShadowVersion)
    (hown : ¬ (r.responseType = .delta ∧ s.ownRequest r.payload = true))
    (ht : s.apply r state v = .ok t) : t.curShadowVersion = v := by
  rw [apply, applyUpdate, if_neg h] at ht
  by_cases htype : r.responseType = .delta
  · rw [if_pos htype, if_neg (fun hown' => hown ⟨htype, hown'⟩)] at ht
    cases hd : mergeDelta s.curServerStateDocument state with
    | error e =>
      rw [hd] at ht
      cases ht
    | ok document =>
      rw [hd] at ht
      cases ht
      rfl
  · rw [if_neg htype] at ht
    cases ht
    rfl

theorem keepsVersion_of_apply (hv : r.version = some v) (ht : s.apply r state v = .ok t) :
    s.KeepsVersion r t := by
  by_cases hle : v ≤ s.curShadowVersion
  · rw [apply_of_le hle] at ht
    exact keepsVersion_of_ok ht
  · by_cases hown : r.responseType = .delta ∧ s.ownRequest r.payload = true
    · rw [apply_of_ownRequest hown.1 hown.2] at ht
      exact keepsVersion_of_ok ht
    · have hversion := version_of_apply hle hown ht
      refine ⟨?_, fun _ => by rw [hv, hversion], ?_⟩
      · rw [hversion]
        exact UInt32.le_of_lt (UInt32.not_le.mp hle)
      · intro w hw hstale
        rw [hv] at hw
        cases hw
        exact absurd hstale hle

end Update

/-- The indeterminate value is used when the payload of an update has no version. -/
theorem handle_cases (s : Shadow ν) (r : UpdateResponse ν) :
    (¬ r.LacksVersion ∧ ∀ indeterminate, s.handle indeterminate r = .ok s) ∨
    (∃ state v, ¬ r.LacksVersion ∧ r.version = some v ∧
      ∀ indeterminate, s.handle indeterminate r = s.apply r state v) ∨
    (∃ state, r.LacksVersion ∧
      ∀ indeterminate, s.handle indeterminate r = s.apply r state indeterminate) := by
  by_cases htype : r.responseType = .rejected
  · refine .inl ⟨fun h => h.1 htype, fun indeterminate => ?_⟩
    rw [handle, handleUpdateResponse, if_pos htype]
    rfl
  cases hstate : r.payload.findMember documentStateKey with
  | none =>
    refine .inl ⟨fun h => ?_, fun indeterminate => ?_⟩
    · have hsome := h.2.1
      rw [hstate] at hsome
      cases hsome
    · rw [handle, handleUpdateResponse, if_neg htype, hstate]
      rfl
  | some state =>
    have hhandle : ∀ indeterminate rc v,
        JsonParser.getUint32Value r.payload documentVersionKey indeterminate = (rc, v) →
        rc = .success ∨ rc = .jsonParseKeyNotFoundError →
        s.handle indeterminate r = s.apply r state v := by
      intro indeterminate rc v hvalue hrc
      rw [handle, handleUpdateResponse, if_neg htype, hstate]
      dsimp only
      rw [hvalue]
      dsimp only
      rw [if_neg (fun h => hrc.elim h.1 h.2), apply]
    by_cases hmember : r.payload.findMember documentVersionKey = none
    · refine .inr (.inr ⟨state, ⟨htype, by rw [hstate]; rfl, hmember⟩, fun indeterminate => ?_⟩)
      exact hhandle indeterminate _ _ (UpdateResponse.getUint32Value_of_none hmember indeterminate)
        (.inr rfl)
    · cases hversion : r.version with
      | some v =>
        refine .inr (.inl ⟨state, v, fun h => hmember h.2.2, rfl, fun indeterminate => ?_⟩)
        exact hhandle indeterminate _ _
          (UpdateResponse.getUint32Value_of_version hversion indeterminate) (.inl rfl)
      | none =>
        refine .inl ⟨fun h => hmember h.2.2, fun indeterminate => ?_⟩
        have hvalue :=
          UpdateResponse.getUint32Value_of_version_none hversion hmember indeterminate
        rw [handle, handleUpdateResponse, if_neg htype, hstate]
        dsimp only
        rw [hvalue]
        rfl

theorem disciplined_of_eq {s : Shadow ν} {r : UpdateResponse ν} {x : Except Fault (Shadow ν)}
    (h : ∀ indeterminate, s.handle indeterminate r = x)
    (hkeeps : ∀ t, x = .ok t → s.KeepsVersion r t) : s.Disciplined r := by
  intro indeterminate
  refine ⟨fun t ht => hkeeps t ((h indeterminate).symm.trans ht), fun other => ?_⟩
  rw [h, h]

theorem not_add_one_le {v : UInt32} (h : v ≠ 4294967295) : ¬ v + 1 ≤ v := by
  have hbound := v.toNat_lt
  have hmax : v.toNat ≠ 4294967295 := fun heq => h (UInt32.toNat_inj.mp heq)
  have hone : (1 : UInt32).toNat = 1 := rfl
  rw [UInt32.le_iff_toNat_le, UInt32.toNat_add]
  omega

theorem disciplined_iff (s : Shadow ν) (r : UpdateResponse ν) :
    s.Disciplined r ↔ s.VersionKnown r := by
  rcases handle_cases s r with ⟨hlacks, h⟩ | ⟨state, v, hlacks, hv, h⟩ | ⟨state, hlacks, h⟩
  · exact iff_of_true (disciplined_of_eq h (fun _ => keepsVersion_of_ok))
      (fun hl => absurd hl hlacks)
  · exact iff_of_true (disciplined_of_eq h (fun _ => keepsVersion_of_apply hv))
      (fun hl => absurd hl hlacks)
  · constructor
    · intro hdisciplined _
      by_contra hunknown
      obtain ⟨hmax, hown⟩ := not_or.mp hunknown
      have hlt := not_add_one_le hmax
      -- the current version is refused as old, the next one is taken
      have hsame := (hdisciplined s.curShadowVersion).2 (s.curShadowVersion + 1)
      rw [h, h, apply_of_le (UInt32.le_refl s.curShadowVersion)] at hsame
      have hversion := version_of_apply hlt hown hsame
      exact hlt (hversion ▸ UInt32.le_refl s.curShadowVersion)
    · intro hknown
      refine disciplined_of_eq (fun indeterminate => ?_) (fun _ => keepsVersion_of_ok)
      rw [h]
      rcases hknown hlacks with hmax | hown
      · refine apply_of_le ?_
        rw [hmax, UInt32.le_iff_toNat_le]
        exact Nat.le_of_lt_succ indeterminate.toNat_lt
      · exact apply_of_ownRequest hown.1 hown.2

/-! ### Runs -/

theorem handle_of_step {s t : Shadow ν} {m : UInt32 × UpdateResponse ν} (h : s.step m = some t) :
    s.handle m.1 m.2 = .ok t := by
  rw [step] at h
  cases hh : s.handle m.1 m.2 with
  | error e =>
    rw [hh] at h
    cases h
  | ok u =>
    rw [hh] at h
    cases h
    rfl

theorem le_of_reachable {s t : Shadow ν}
    (h : Transition.Reachable step (fun s m => s.VersionKnown m.2) s t) :
    s.curShadowVersion ≤ t.curShadowVersion := by
  refine h.invariant (P := fun t => s.curShadowVersion ≤ t.curShadowVersion)
    (UInt32.le_refl s.curShadowVersion) ?_
  intro t m u hle hknown hstep
  have hkeeps := ((disciplined_iff t m.2).mpr hknown m.1).1 u (handle_of_step hstep)
  exact UInt32.le_trans hle hkeeps.le

/-- Along a run in which no version is missing the version grows, and from every state of
it a response is handled as it should exactly when its version is not missing. -/
theorem disciplined_of_reachable {s t : Shadow ν}
    (h : Transition.Reachable step (fun s m => s.VersionKnown m.2) s t) :
    s.curShadowVersion ≤ t.curShadowVersion ∧ ∀ r, t.Disciplined r ↔ t.VersionKnown r :=
  ⟨le_of_reachable h, fun r => disciplined_iff t r⟩

def newShadow : Shadow UInt32 := init [0x74]

/-- `{"state":{},"version":5}` -/
def fifthUpdate (responseType : ShadowResponseType) : UpdateResponse UInt32 :=
  ⟨responseType, .object [(documentStateKey, .object []), (documentVersionKey, .number 5)]⟩

theorem disciplined_of_reachable_fifth : ∃ t,
    Transition.run step newShadow [(0, fifthUpdate .delta), (9, fifthUpdate .accepted)] = some t ∧
      t.curShadowVersion = 5 ∧ newShadow.curShadowVersion ≤ t.curShadowVersion ∧
      ∀ r, t.Disciplined r ↔ t.VersionKnown r := by
  have hknown : ∀ (s : Shadow UInt32) responseType, s.VersionKnown (fifthUpdate responseType) :=
    fun _ _ h => nomatch h.2.2
  obtain ⟨t, u, ht, hu, hversion⟩ : ∃ t u, newShadow.step (0, fifthUpdate .delta) = some t ∧
      t.step (9, fifthUpdate .accepted) = some u ∧ u.curShadowVersion = 5 :=
    ⟨_, _, rfl, rfl, rfl⟩
  have hfirst : Transition.Reachable step (fun s m => s.VersionKnown m.2) newShadow t :=
    .tail .refl (hknown newShadow .delta) ht
  refine ⟨u, ?_, hversion, disciplined_of_reachable (hfirst.tail (hknown t .accepted) hu)⟩
  rw [Transition.run, ht, Option.bind_some, Transition.run, hu]
  rfl

/-- `{"state":{}}` -/
def unversionedUpdate : UpdateResponse UInt32 :=
  ⟨.accepted, .object [(documentStateKey, .object [])]⟩

theorem not_disciplined_unversioned :
    (∃ t, newShadow.handle 7 unversionedUpdate = .ok t ∧ t.curShadowVersion = 7) ∧
      newShadow.handle 0 unversionedUpdate = .ok newShadow ∧
      unversionedUpdate.version = none ∧ ¬ newShadow.Disciplined unversionedUpdate := by
  have hseven : ∃ t, newShadow.handle 7 unversionedUpdate = .ok t ∧ t.curShadowVersion = 7 :=
    ⟨_, rfl, rfl⟩
  refine ⟨hseven, rfl, rfl, ?_⟩
  intro hdisciplined
  obtain ⟨t, ht, hversion⟩ := hseven
  have hcarried := ((hdisciplined 7).1 t ht).carried
  rw [hversion] at hcarried
  exact absurd (hcarried (by decide)) (by decide)

end Shadow

end AwsIotSdk
