import AwsIotSdk.JsonDiff
import AwsIotSdk.ShadowVersions

/-! The document of a shadow and its version over runs of responses. A delta advances the
version and leaves the version member of the document behind. -/

namespace AwsIotSdk

open JsonValue JsonParser

variable {ν : Type}

inductive ShadowResponse (ν : Type) where
  | get (responseType : ShadowResponseType) (payload : JsonValue ν)
  | update (r : UpdateResponse ν)
  | delete (responseType : ShadowResponseType) (payload : JsonValue ν)

namespace Shadow

/-! ### Payloads with one state and one version -/

def OneMember (ms : List (Bytes × JsonValue ν)) (name : Bytes) (value : JsonValue ν) : Prop :=
  ms.filter (fun m => m.1 == name) = [(name, value)]

section OneMember

variable {ms : List (Bytes × JsonValue ν)} {name : Bytes} {value : JsonValue ν}

theorem OneMember.eq_of_mem (h : OneMember ms name value) {x : JsonValue ν}
    (hx : (name, x) ∈ ms) : x = value := by
  have hmem : (name, x) ∈ ms.filter (fun m => m.1 == name) := by simpa using hx
  rw [OneMember] at h
  rw [h, List.mem_singleton] at hmem
  exact congrArg Prod.snd hmem

theorem OneMember.count (h : OneMember ms name value) : (ms.map Prod.fst).count name = 1 := by
  rw [List.count, List.countP_map, List.countP_eq_length_filter]
  exact congrArg List.length h

theorem OneMember.lookup (h : OneMember ms name value) : ms.lookup name = some value := by
  cases hx : ms.lookup name with
  | none =>
    rw [lookup_eq_none_iff, ← List.count_eq_zero, h.count] at hx
    cases hx
  | some x => rw [h.eq_of_mem (mem_of_lookup hx)]

end OneMember

/-! ### What every handler keeps of the document -/

structure DocumentInv (ds : List (Bytes × JsonValue ν)) : Prop where
  state : ∀ m ∈ ds, m.1 = documentStateKey → m.2.isObject = true
  version : (ds.map Prod.fst).count documentVersionKey ≤ 1

/-- The desired state of a document, empty where there is none. -/
def desiredSection (document : JsonValue ν) : JsonValue ν :=
  ((document.findMember documentStateKey).bind (·.findMember documentDesiredKey)).getD
    (.object [])

theorem documentInv_mergeMembers {ds ss : List (Bytes × JsonValue ν)} (hd : DocumentInv ds)
    (hs : DocumentInv ss) : DocumentInv (mergeMembers ds ss).2 where
  state := by
    refine forall_mergeMembers (P := fun k v => k = documentStateKey → v.isObject = true) ?_
      hd.state hs.state
    intro k t s _ _ hobj _
    obtain ⟨ht, hs⟩ := Bool.and_eq_true_iff.mp hobj
    obtain ⟨ts, rfl⟩ := isObject_iff.mp ht
    obtain ⟨ss, rfl⟩ := isObject_iff.mp hs
    rw [mergeValues_objects]
    rfl
  version := (lookup_mergeMembers hs.version hd.version).1

variable [JsonNumber ν]

/-- The one state is an object and the one version an unsigned number. -/
def DocumentShaped (payload : JsonValue ν) : Prop :=
  ∃ ms state n v, payload = .object ms ∧ OneMember ms documentStateKey (.object state) ∧
    OneMember ms documentVersionKey (.number n) ∧ JsonNumber.getUint n = some v

def documentVersion (document : JsonValue ν) : Option UInt32 :=
  match document.findMember documentVersionKey with
  | some (.number n) => JsonNumber.getUint n
  | _ => none

theorem DocumentShaped.members {payload : JsonValue ν} (h : DocumentShaped payload) :
    ∃ ms state v, payload = .object ms ∧ DocumentInv ms ∧
      ms.lookup documentStateKey = some (.object state) ∧ documentVersion payload = some v ∧
      ∀ ds, DocumentInv ds →
        documentVersion (.object (mergeMembers ds ms).2) = some v := by
  obtain ⟨ms, state, n, v, rfl, hstate, hversion, hn⟩ := h
  have hinv : DocumentInv ms := by
    refine ⟨?_, hversion.count.le⟩
    rintro ⟨name, x⟩ hx rfl
    rw [hstate.eq_of_mem hx]
    rfl
  refine ⟨ms, state, v, rfl, hinv, hstate.lookup, ?_, ?_⟩
  · rw [documentVersion, findMember, hversion.lookup]
    exact hn
  · intro ds hd
    rw [documentVersion, findMember, (lookup_mergeMembers hinv.version hd.version).2,
      hversion.lookup]
    cases ds.lookup documentVersionKey with
    | none => exact hn
    | some d => simpa [merged, isObject] using hn

omit [JsonNumber ν] in
/-- The document the object starts with has the same members, a token apart. -/
theorem value_of_mem_documentEmpty {version token timestamp : JsonValue ν}
    {m : Bytes × JsonValue ν}
    (hm : m ∈ [(documentStateKey, documentEmptyState), (documentVersionKey, version),
      (documentClientTokenKey, token), (documentTimestampKey, timestamp)])
    (hname : m.1 = documentStateKey) : m.2 = documentEmptyState := by
  simp only [List.mem_cons, List.not_mem_nil, or_false] at hm
  rcases hm with rfl | rfl | rfl | rfl
  · rfl
  · exact absurd hname (show documentVersionKey ≠ documentStateKey by decide)
  · exact absurd hname (show documentClientTokenKey ≠ documentStateKey by decide)
  · exact absurd hname (show documentTimestampKey ≠ documentStateKey by decide)

theorem documentInv_documentEmpty :
    ∃ ds, (documentEmpty : JsonValue ν) = .object ds ∧ DocumentInv ds ∧
      documentVersion (.object ds) = some 0 ∧
      ds.lookup documentStateKey = some documentEmptyState := by
  refine ⟨_, rfl, ⟨?_, ?_⟩, ?_, ?_⟩
  · intro m hm hname
    rw [value_of_mem_documentEmpty hm hname]
    rfl
  · exact Nat.le_refl 1
  · exact JsonNumber.getUint_ofUint 0
  · rfl

/-! ### Applying a delta -/

omit [JsonNumber ν] in
theorem documentInv_setMember {ds : List (Bytes × JsonValue ν)} (hd : DocumentInv ds)
    (state : List (Bytes × JsonValue ν)) :
    DocumentInv (setMember documentStateKey (.object state) ds) where
  state := by
    intro m hm hname
    rcases mem_setMember hm with hm | rfl
    · exact hd.state m hm hname
    · rfl
  version := names_setMember documentStateKey (.object state) ds ▸ hd.version

theorem documentVersion_setMember (ds : List (Bytes × JsonValue ν)) (value : JsonValue ν) :
    documentVersion (.object (setMember documentStateKey value ds)) =
      documentVersion (.object ds) := by
  have hne : documentVersionKey ≠ documentStateKey := by decide
  rw [documentVersion, findMember, lookup_setMember, if_neg hne]
  rfl

/-- The document a delta is merged into: the empty one where there is no state. -/
theorem mergeDelta_base {ds : List (Bytes × JsonValue ν)}
    (hd : ∀ m ∈ ds, m.1 = documentStateKey → m.2.isObject = true) :
    ∃ bs cs, (if (ds.lookup documentStateKey).isSome then .object ds else documentEmpty) =
        JsonValue.object bs ∧
      (bs = ds ∨ documentEmpty = JsonValue.object bs) ∧
      bs.lookup documentStateKey = some (.object cs) ∧
      documentVersion (.object bs) = (if (ds.lookup documentStateKey).isSome then
        documentVersion (.object ds) else some 0) ∧
      desiredSection (.object ds) = (cs.lookup documentDesiredKey).getD (.object []) := by
  cases hstate : ds.lookup documentStateKey with
  | none =>
    obtain ⟨bs, hbs, -, hversion, hlookup⟩ := documentInv_documentEmpty (ν := ν)
    refine ⟨bs, _, hbs, .inr hbs, hlookup, hversion, ?_⟩
    rw [desiredSection, findMember, hstate]
    rfl
  | some current =>
    obtain ⟨cs, rfl⟩ := isObject_iff.mp (hd _ (mem_of_lookup hstate) rfl)
    refine ⟨ds, cs, rfl, .inl rfl, hstate, rfl, ?_⟩
    rw [desiredSection, findMember, hstate]
    rfl

/-- The state a delta is merged into: with the sections added where there is no desired
one. -/
def DeltaState (cs es : List (Bytes × JsonValue ν)) : Prop :=
  es = cs ∨ es = (mergeMembers cs
    [(documentDesiredKey, .object []), (documentReportedKey, .object [])]).2

omit [JsonNumber ν] in
theorem mergeDelta_desired (cs : List (Bytes × JsonValue ν)) (state : JsonValue ν) :
    ∃ es, DeltaState cs es ∧
      es.lookup documentDesiredKey = some ((cs.lookup documentDesiredKey).getD (.object [])) ∧
      (do
        let current := if ← (JsonValue.object cs).hasMember documentDesiredKey then .object cs
          else (mergeValues (.object cs) documentEmptyState).2
        current.updateMember documentDesiredKey
          (fun desired => .ok (mergeValues desired state).2)) =
        (.ok (.object (setMember documentDesiredKey (mergeValues
          ((cs.lookup documentDesiredKey).getD (.object [])) state).2 es)) :
          Except Fault (JsonValue ν)) := by
  have hset : ∀ es (desired : JsonValue ν), es.lookup documentDesiredKey = some desired →
      (JsonValue.object es).updateMember documentDesiredKey
          (fun desired => .ok (mergeValues desired state).2) =
        .ok (.object (setMember documentDesiredKey (mergeValues desired state).2 es)) := by
    intro es desired hdesired
    rw [updateMember, hdesired]
    rfl
  cases hdesired : cs.lookup documentDesiredKey with
  | some desired =>
    refine ⟨cs, .inl rfl, hdesired, ?_⟩
    rw [hasMember, hdesired]
    exact hset cs desired hdesired
  | none =>
    have hcount : (cs.map Prod.fst).count documentDesiredKey ≤ 1 := by
      rw [List.count_eq_zero.mpr (lookup_eq_none_iff.mp hdesired)]
      exact Nat.zero_le 1
    let empties : List (Bytes × JsonValue ν) :=
      [(documentDesiredKey, .object []), (documentReportedKey, .object [])]
    have hempties : (empties.map Prod.fst).count documentDesiredKey ≤ 1 := by
      show [documentDesiredKey, documentReportedKey].count documentDesiredKey ≤ 1
      decide
    have hadded := (lookup_mergeMembers hempties hcount).2
    rw [hdesired] at hadded
    refine ⟨_, .inr rfl, hadded, ?_⟩
    rw [hasMember, hdesired, documentEmptyState, mergeValues_objects]
    exact hset _ (.object []) hadded

theorem mergeDelta_eq {ds : List (Bytes × JsonValue ν)}
    (hd : ∀ m ∈ ds, m.1 = documentStateKey → m.2.isObject = true) (state : JsonValue ν) :
    ∃ bs cs es, (bs = ds ∨ documentEmpty = JsonValue.object bs) ∧
      bs.lookup documentStateKey = some (.object cs) ∧ DeltaState cs es ∧
      documentVersion (.object bs) = (if (ds.lookup documentStateKey).isSome then
        documentVersion (.object ds) else some 0) ∧
      es.lookup documentDesiredKey = some (desiredSection (.object ds)) ∧
      mergeDelta (.object ds) state = .ok (.object (setMember documentStateKey
        (.object (setMember documentDesiredKey
          (mergeValues (desiredSection (.object ds)) state).2 es)) bs)) := by
  obtain ⟨bs, cs, hbase, hbs, hstate, hversion, hsection⟩ := mergeDelta_base hd
  obtain ⟨es, hes, hdesired, hmerged⟩ := mergeDelta_desired cs state
  rw [← hsection] at hdesired hmerged
  refine ⟨bs, cs, es, hbs, hstate, hes, hversion, hdesired, ?_⟩
  have hbody : mergeDelta (.object ds) state = JsonValue.updateMember
      (if (ds.lookup documentStateKey).isSome then .object ds else documentEmpty)
      documentStateKey (fun current => do
        let current := if ← current.hasMember documentDesiredKey then current
          else (mergeValues current documentEmptyState).2
        current.updateMember documentDesiredKey
          (fun desired => .ok (mergeValues desired state).2)) := rfl
  rw [hbody, hbase, updateMember, hstate]
  dsimp only
  rw [hmerged]
  rfl

theorem mergeDelta_spec {ds : List (Bytes × JsonValue ν)} (hd : DocumentInv ds)
    (state : JsonValue ν) :
    ∃ es, mergeDelta (.object ds) state = .ok (.object es) ∧ DocumentInv es ∧
      documentVersion (.object es) = (if (ds.lookup documentStateKey).isSome then
        documentVersion (.object ds) else some 0) ∧
      ((JsonValue.object es).findMember documentStateKey).bind
          (·.findMember documentDesiredKey) =
        some (mergeValues (desiredSection (.object ds)) state).2 := by
  obtain ⟨bs, cs, es, hbs, hstate, -, hversion, hdesired, hmerged⟩ := mergeDelta_eq hd.state state
  have hinv : DocumentInv bs := by
    rcases hbs with rfl | hempty
    · exact hd
    · obtain ⟨_, hempty', hinv, -, -⟩ := documentInv_documentEmpty (ν := ν)
      cases hempty.symm.trans hempty'
      exact hinv
  refine ⟨_, hmerged, documentInv_setMember hinv _, ?_, ?_⟩
  · rw [documentVersion_setMember, hversion]
  · rw [findMember, lookup_setMember, if_pos rfl, hstate]
    dsimp only [Option.map_some, Option.bind_some, findMember]
    rw [lookup_setMember, if_pos rfl, hdesired]
    rfl

/-! ### One response -/

def handleResponse (indeterminate : UInt32) (s : Shadow ν) :
    ShadowResponse ν → Except Fault (Shadow ν)
  | .get responseType payload => (s.handleGetResponse responseType payload).map Prod.snd
  | .update r => s.handle indeterminate r
  | .delete responseType payload => .ok (s.handleDeleteResponse responseType payload).2

/-- The payload that an accepted response or a delta is about has the shape. -/
def ResponseShaped : ShadowResponse ν → Prop
  | .get responseType payload => responseType = .accepted → DocumentShaped payload
  | .update r => r.responseType ≠ .rejected → DocumentShaped r.payload
  | .delete _ _ => True

def isNewer (s : Shadow ν) (r : UpdateResponse ν) : Bool :=
  match r.version with
  | none => false
  | some v => s.curShadowVersion < v

/-- A delta that is newer than the shadow and not an answer to its own request. -/
def appliesDelta (s : Shadow ν) (r : UpdateResponse ν) : Bool :=
  r.responseType == .delta && s.isNewer r && !s.ownRequest r.payload

def appliesAccepted (s : Shadow ν) (r : UpdateResponse ν) : Bool :=
  r.responseType == .accepted && s.isNewer r

theorem isNewer_of_version {s : Shadow ν} {r : UpdateResponse ν} {v : UInt32}
    (h : r.version = some v) : s.isNewer r = decide (s.curShadowVersion < v) := by
  rw [isNewer, h]

/-- A payload of the shape is handled with its own state and version. -/
theorem handle_eq_apply (s : Shadow ν) {r : UpdateResponse ν}
    (hrejected : r.responseType ≠ .rejected) (h : DocumentShaped r.payload) :
    ∃ state v, r.payload.findMember documentStateKey = some (.object state) ∧
      documentVersion r.payload = some v ∧
      ∀ indeterminate, s.handle indeterminate r = s.apply r (.object state) v := by
  obtain ⟨ms, state, v, hpayload, -, hstate, hv, -⟩ := h.members
  have hmember : r.payload.findMember documentStateKey = some (.object state) := by
    rw [hpayload]
    exact hstate
  refine ⟨state, v, hmember, hv, fun indeterminate => ?_⟩
  rw [handle, handleUpdateResponse, if_neg hrejected, hmember]
  dsimp only
  rw [UpdateResponse.getUint32Value_of_version (show r.version = some v from hv) indeterminate]
  rfl

/-- The three ways an update or a delta goes. -/
theorem handle_shaped_cases (s : Shadow ν) (r : UpdateResponse ν)
    (h : ResponseShaped (.update r)) :
    (s.appliesDelta r = false ∧ s.appliesAccepted r = false ∧
      ∀ indeterminate, s.handle indeterminate r = .ok s) ∨
    (∃ v, s.appliesDelta r = false ∧ s.appliesAccepted r = true ∧
      documentVersion r.payload = some v ∧ s.curShadowVersion < v ∧
      ∀ indeterminate, s.handle indeterminate r = .ok
        { s with
          curServerStateDocument := (mergeValues s.curServerStateDocument r.payload).2
          curShadowVersion := v }) ∨
    ∃ state v, r.responseType = .delta ∧ s.appliesDelta r = true ∧
      s.appliesAccepted r = false ∧
      r.payload.findMember documentStateKey = some (.object state) ∧ s.curShadowVersion < v ∧
      ∀ indeterminate, s.handle indeterminate r =
        (mergeDelta s.curServerStateDocument (.object state)).map (fun document =>
          { s with curServerStateDocument := document, curShadowVersion := v }) := by
  by_cases hrejected : r.responseType = .rejected
  · refine .inl ⟨by simp [appliesDelta, hrejected], by simp [appliesAccepted, hrejected], ?_⟩
    intro indeterminate
    rw [handle, handleUpdateResponse, if_pos hrejected]
    rfl
  obtain ⟨state, v, hmember, hv, hhandle⟩ := s.handle_eq_apply hrejected (h hrejected)
  have hversion : s.isNewer r = decide (s.curShadowVersion < v) := isNewer_of_version hv
  by_cases hle : v ≤ s.curShadowVersion
  · have hold : s.isNewer r = false := hversion.trans (decide_eq_false (UInt32.not_lt.mpr hle))
    refine .inl ⟨by simp [appliesDelta, hold], by simp [appliesAccepted, hold], ?_⟩
    exact fun indeterminate => (hhandle indeterminate).trans (apply_of_le hle)
  have hlt := UInt32.not_le.mp hle
  have hnewer : s.isNewer r = true := hversion.trans (decide_eq_true hlt)
  cases htype : r.responseType with
  | rejected => exact absurd htype hrejected
  | accepted =>
    refine .inr (.inl ⟨v, by simp [appliesDelta, htype], by simp [appliesAccepted, htype, hnewer],
      hv, hlt, ?_⟩)
    intro indeterminate
    rw [hhandle, apply, applyUpdate, if_neg hle, if_neg (by simp [htype])]
    rfl
  | delta =>
    by_cases hown : s.ownRequest r.payload = true
    · refine .inl ⟨by simp [appliesDelta, hown], by simp [appliesAccepted, htype], ?_⟩
      exact fun indeterminate => (hhandle indeterminate).trans (apply_of_ownRequest htype hown)
    · refine .inr (.inr ⟨state, v, rfl, by simp [appliesDelta, htype, hnewer, hown],
        by simp [appliesAccepted, htype], hmember, hlt, ?_⟩)
      intro indeterminate
      rw [hhandle, apply, applyUpdate, if_neg hle, if_pos htype, if_neg hown]
      cases mergeDelta s.curServerStateDocument (.object state) <;> rfl

/-! ### Runs -/

/-- `deltaSince`: a delta was applied since the document was last replaced or updated.
`deletedSince`: the shadow was deleted since the last accepted get. -/
structure DocumentRun (ν : Type) where
  shadow : Shadow ν
  deltaSince : Bool
  deletedSince : Bool

namespace DocumentRun

def note (t : DocumentRun ν) (shadow : Shadow ν) : ShadowResponse ν → DocumentRun ν
  | .get .accepted _ => ⟨shadow, false, false⟩
  | .delete .accepted _ => ⟨shadow, false, true⟩
  | .update r =>
    ⟨shadow, t.shadow.appliesDelta r || (t.deltaSince && !t.shadow.appliesAccepted r),
      t.deletedSince⟩
  | _ => { t with shadow := shadow }

def respond (t : DocumentRun ν) (m : UInt32 × ShadowResponse ν) : Option (DocumentRun ν) :=
  match t.shadow.handleResponse m.1 m.2 with
  | .error _ => none
  | .ok shadow => some (t.note shadow m.2)

def InStep (t : DocumentRun ν) : Prop :=
  documentVersion t.shadow.curServerStateDocument = some t.shadow.curShadowVersion ∨
    (t.deletedSince = true ∧ t.shadow.curServerStateDocument = .object [] ∧
      t.shadow.curShadowVersion = 0)

structure Inv (t : DocumentRun ν) : Prop where
  document : ∃ ds, t.shadow.curServerStateDocument = .object ds ∧ DocumentInv ds
  inStep : t.deltaSince = false → t.InStep
  behind : t.deltaSince = true → ∃ v, documentVersion t.shadow.curServerStateDocument = some v ∧
    v < t.shadow.curShadowVersion

end DocumentRun

/-- What advances the version changes the document along with it. -/
def DocumentAdvances (s : Shadow ν) (r : ShadowResponse ν) (t : Shadow ν) : Prop :=
  s.curShadowVersion < t.curShadowVersion →
    match r with
    | .get _ payload => t.curServerStateDocument = payload
    | .delete _ _ => False
    | .update r =>
      if r.responseType = .delta then
        ∃ state desired, r.payload.findMember documentStateKey = some state ∧
          mergeValues (desiredSection s.curServerStateDocument) state = (.success, desired) ∧
          (t.curServerStateDocument.findMember documentStateKey).bind
            (·.findMember documentDesiredKey) = some desired
      else mergeValues s.curServerStateDocument r.payload = (.success, t.curServerStateDocument)

/-- A delta that is applied finds an object, or nothing, to be merged into. -/
def DeltaMerges (s : Shadow ν) : ShadowResponse ν → Prop
  | .update r => s.appliesDelta r = true →
      (desiredSection s.curServerStateDocument).isObject = true
  | _ => True

omit [JsonNumber ν] in
theorem isObject_of_mergeValues {t s d : JsonValue ν} (h : mergeValues t s = (.success, d)) :
    t.isObject = true := by
  cases t with
  | object ts => rfl
  | _ => simp [mergeValues] at h

omit [JsonNumber ν] in
theorem advances_of_version_eq {s t : Shadow ν} (r : ShadowResponse ν)
    (h : t.curShadowVersion = s.curShadowVersion) : DocumentAdvances s r t := by
  intro hlt
  rw [h] at hlt
  exact absurd hlt (UInt32.lt_irrefl s.curShadowVersion)

/-- A delta that is applied changes the document along with the version exactly when its
state can be merged. -/
theorem advances_delta_iff {s t : Shadow ν} {r : UpdateResponse ν}
    {state : List (Bytes × JsonValue ν)} (htype : r.responseType = .delta)
    (happlies : s.appliesDelta r = true)
    (hstate : r.payload.findMember documentStateKey = some (.object state))
    (hlt : s.curShadowVersion < t.curShadowVersion)
    (hdesired : (t.curServerStateDocument.findMember documentStateKey).bind
        (·.findMember documentDesiredKey) =
      some (mergeValues (desiredSection s.curServerStateDocument) (.object state)).2) :
    DocumentAdvances s (.update r) t ↔ DeltaMerges s (.update r) := by
  constructor
  · intro hadvances _
    have hchange := hadvances hlt
    dsimp only at hchange
    rw [if_pos htype] at hchange
    obtain ⟨x, desired, -, hmerge, -⟩ := hchange
    exact isObject_of_mergeValues hmerge
  · intro hmerges _
    obtain ⟨cs, hcs⟩ := isObject_iff.mp (hmerges happlies)
    dsimp only
    rw [if_pos htype]
    refine ⟨.object state, .object (mergeMembers cs state).2, hstate, ?_, ?_⟩
    · rw [hcs, mergeValues_objects]
    · rw [hcs, mergeValues_objects] at hdesired
      exact hdesired

theorem handleGetResponse_accepted {s : Shadow ν} {payload : JsonValue ν} {v : UInt32}
    (h : DocumentShaped payload) (hv : documentVersion payload = some v)
    (hobject : s.curServerStateDocument.isObject = true) :
    s.handleGetResponse .accepted payload = .ok (.shadowRequestAccepted,
      { s with curServerStateDocument := payload, curShadowVersion := v }) := by
  obtain ⟨ds, hds⟩ := isObject_iff.mp hobject
  obtain ⟨ms, state, w, hpayload, -, hstate, -, -⟩ := h.members
  have hmember : payload.findMember documentStateKey = some (.object state) := by
    rw [hpayload]
    exact hstate
  have hvalue := UpdateResponse.getUint32Value_of_version
    (r := ⟨.accepted, payload⟩) hv s.curShadowVersion
  dsimp only at hvalue
  rw [handleGetResponse, if_neg (by simp), if_neg (by simp), hmember, hds]
  dsimp only [removeAllMembers, bind, Except.bind]
  rw [hvalue]
  rfl

namespace DocumentRun

section Step

variable {t : DocumentRun ν} {ds : List (Bytes × JsonValue ν)}

theorem inv_of_payload {payload : JsonValue ν} {v : UInt32} (h : DocumentShaped payload)
    (hv : documentVersion payload = some v) (s : Shadow ν) (deletedSince : Bool) :
    Inv ⟨{ s with curServerStateDocument := payload, curShadowVersion := v }, false,
      deletedSince⟩ := by
  obtain ⟨ms, -, -, rfl, hinv, -, -, -⟩ := h.members
  exact ⟨⟨ms, rfl, hinv⟩, fun _ => .inl hv, nofun⟩

/-- A delta leaves a version in the document that is older than the shadow's. -/
theorem behind_of_delta (hi : Inv t) (hds : t.shadow.curServerStateDocument = .object ds)
    {v : UInt32} (hlt : t.shadow.curShadowVersion < v) {es : List (Bytes × JsonValue ν)}
    (hversion : documentVersion (.object es) = (if (ds.lookup documentStateKey).isSome then
      documentVersion (.object ds) else some 0)) :
    ∃ w, documentVersion (.object es) = some w ∧ w < v := by
  rw [hversion]
  by_cases hstate : (ds.lookup documentStateKey).isSome = true
  · rw [if_pos hstate, ← hds]
    cases hdelta : t.deltaSince with
    | true =>
      obtain ⟨w, hw, hbehind⟩ := hi.behind hdelta
      exact ⟨w, hw, UInt32.lt_trans hbehind hlt⟩
    | false =>
      rcases hi.inStep hdelta with hcur | ⟨-, hempty, -⟩
      · exact ⟨_, hcur, hlt⟩
      · rw [hds] at hempty
        cases hempty
        cases hstate
  · rw [if_neg hstate]
    refine ⟨0, rfl, ?_⟩
    rw [UInt32.lt_iff_toNat_lt] at hlt ⊢
    exact Nat.lt_of_le_of_lt (Nat.zero_le _) hlt

theorem respond_of_ok {m : UInt32 × ShadowResponse ν} {s : Shadow ν}
    (h : t.shadow.handleResponse m.1 m.2 = .ok s) : t.respond m = some (t.note s m.2) := by
  rw [respond, h]

theorem respond_get (hi : Inv t) (indeterminate : UInt32) (responseType : ShadowResponseType)
    (payload : JsonValue ν) (h : ResponseShaped (.get responseType payload)) :
    ∃ u, t.respond (indeterminate, .get responseType payload) = some u ∧ Inv u ∧
      DocumentAdvances t.shadow (.get responseType payload) u.shadow := by
  obtain ⟨ds, hds, hinv⟩ := hi.document
  cases responseType with
  | rejected | delta => exact ⟨t, respond_of_ok rfl, hi, advances_of_version_eq _ rfl⟩
  | accepted =>
    have hpayload := h rfl
    obtain ⟨-, -, v, -, -, -, hv, -⟩ := hpayload.members
    have hget := handleGetResponse_accepted (s := t.shadow) hpayload hv (by rw [hds]; rfl)
    refine ⟨_, respond_of_ok (by rw [handleResponse, hget]; rfl),
      inv_of_payload hpayload hv t.shadow false, fun _ => rfl⟩

theorem respond_delete (hi : Inv t) (indeterminate : UInt32) (responseType : ShadowResponseType)
    (payload : JsonValue ν) :
    ∃ u, t.respond (indeterminate, .delete responseType payload) = some u ∧ Inv u ∧
      DocumentAdvances t.shadow (.delete responseType payload) u.shadow := by
  cases responseType with
  | rejected | delta => exact ⟨t, respond_of_ok rfl, hi, advances_of_version_eq _ rfl⟩
  | accepted =>
    refine ⟨_, respond_of_ok rfl, ⟨⟨[], rfl, nofun, Nat.zero_le 1⟩, ?_, nofun⟩, ?_⟩
    · exact fun _ => .inr ⟨rfl, rfl, rfl⟩
    · intro hlt
      rw [UInt32.lt_iff_toNat_lt] at hlt
      exact absurd hlt (Nat.not_lt_zero _)

theorem respond_update (hi : Inv t) (indeterminate : UInt32) (r : UpdateResponse ν)
    (h : ResponseShaped (.update r)) :
    ∃ u, t.respond (indeterminate, .update r) = some u ∧ Inv u ∧
      (DocumentAdvances t.shadow (.update r) u.shadow ↔ DeltaMerges t.shadow (.update r)) := by
  obtain ⟨ds, hds, hinv⟩ := hi.document
  rcases handle_shaped_cases t.shadow r h with ⟨hdelta, haccepted, hhandle⟩ |
    ⟨v, hdelta, haccepted, hv, hlt, hhandle⟩ |
    ⟨state, v, htype, hdelta, haccepted, hstate, hlt, hhandle⟩
  · have hsame : t.note t.shadow (.update r) = t := by
      rw [note, hdelta, haccepted, Bool.not_false, Bool.and_true, Bool.false_or]
    refine ⟨t, ?_, hi, ?_⟩
    · rw [respond_of_ok (m := (indeterminate, .update r)) (hhandle indeterminate), hsame]
    · exact iff_of_true (advances_of_version_eq _ rfl)
        (fun hd => absurd hd (by rw [hdelta]; exact Bool.false_ne_true))
  · have htype : r.responseType = .accepted := by
      simpa using (Bool.and_eq_true_iff.mp haccepted).1
    obtain ⟨ms, -, w, hms, hmsInv, -, hw, hmerge⟩ := (h (by simp [htype])).members
    obtain rfl : v = w := Option.some.inj (hv.symm.trans hw)
    have hmerged : mergeValues t.shadow.curServerStateDocument r.payload =
        (.success, .object (mergeMembers ds ms).2) := by rw [hds, hms, mergeValues_objects]
    refine ⟨_, respond_of_ok (hhandle indeterminate), ⟨?_, ?_, ?_⟩, ?_⟩
    · exact ⟨_, by rw [note, hmerged], documentInv_mergeMembers hinv hmsInv⟩
    · intro _
      rw [note, hmerged]
      exact .inl (hmerge ds hinv)
    · intro hbehind
      simp [note, hdelta, haccepted] at hbehind
    · refine iff_of_true (fun _ => ?_)
        (fun hd => absurd hd (by rw [hdelta]; exact Bool.false_ne_true))
      dsimp only
      rw [if_neg (by simp [htype])]
      dsimp only [note]
      rw [hmerged]
  · obtain ⟨es, hes, hesInv, hversion, hdesired⟩ := mergeDelta_spec hinv (.object state)
    have hnew : t.shadow.handle indeterminate r = .ok
        { t.shadow with curServerStateDocument := .object es, curShadowVersion := v } := by
      rw [hhandle, hds, hes]
      rfl
    refine ⟨_, respond_of_ok hnew, ⟨⟨es, rfl, hesInv⟩, ?_, ?_⟩, ?_⟩
    · intro hsince
      simp [note, hdelta] at hsince
    · exact fun _ => behind_of_delta hi hds hlt hversion
    · rw [← hds] at hdesired
      exact advances_delta_iff htype hdelta hstate hlt hdesired

theorem inv_respond (hi : Inv t) {m : UInt32 × ShadowResponse ν} (h : ResponseShaped m.2) :
    ∃ u, t.respond m = some u ∧ Inv u ∧
      (DocumentAdvances t.shadow m.2 u.shadow ↔ DeltaMerges t.shadow m.2) := by
  obtain ⟨indeterminate, r⟩ := m
  cases r with
  | get responseType payload =>
    obtain ⟨u, hu, hinv, hadvances⟩ := respond_get hi indeterminate responseType payload h
    exact ⟨u, hu, hinv, iff_of_true hadvances trivial⟩
  | update r => exact respond_update hi indeterminate r h
  | delete responseType payload =>
    obtain ⟨u, hu, hinv, hadvances⟩ := respond_delete hi indeterminate responseType payload
    exact ⟨u, hu, hinv, iff_of_true hadvances trivial⟩

theorem inStep_iff_of_inv (hi : Inv t) : t.InStep ↔ t.deltaSince = false := by
  refine ⟨?_, hi.inStep⟩
  intro hstep
  by_contra hdelta
  obtain ⟨v, hv, hlt⟩ := hi.behind (Bool.eq_true_of_not_eq_false hdelta)
  rcases hstep with hcur | ⟨-, hempty, -⟩
  · rw [hcur, Option.some.injEq] at hv
    exact UInt32.lt_irrefl v (hv ▸ hlt)
  · rw [hempty] at hv
    cases hv

end Step

/-! ### Runs -/

def started (s : Shadow ν) : DocumentRun ν := ⟨s, false, false⟩

def FirstGet (before after : Shadow ν) : Prop :=
  ∃ payload, DocumentShaped payload ∧
    before.handleGetResponse .accepted payload = .ok (.shadowRequestAccepted, after)

theorem inv_started {before after : Shadow ν} (h : FirstGet before after) :
    Inv (started after) := by
  obtain ⟨payload, hpayload, hget⟩ := h
  obtain ⟨ms, state, v, hms, -, hstate, hv, -⟩ := hpayload.members
  by_cases hobject : before.curServerStateDocument.isObject = true
  · rw [handleGetResponse_accepted hpayload hv hobject] at hget
    cases hget
    exact inv_of_payload hpayload hv before false
  · have hmember : payload.findMember documentStateKey = some (.object state) := by
      rw [hms]
      exact hstate
    have hfails : before.curServerStateDocument.removeAllMembers =
        .error .assertionFailed := by
      cases hd : before.curServerStateDocument with
      | object ds => exact absurd (by rw [hd]; rfl) hobject
      | _ => rfl
    rw [handleGetResponse, if_neg (by simp), if_neg (by simp), hmember] at hget
    dsimp only at hget
    rw [hfails] at hget
    cases hget

/-- The response is no delta that the shadow would apply. -/
def NoDelta (s : Shadow ν) : ShadowResponse ν → Prop
  | .update r => s.appliesDelta r = false
  | _ => True

theorem deltaSince_note {t : DocumentRun ν} (s : Shadow ν) {r : ShadowResponse ν}
    (hr : NoDelta t.shadow r) (ht : t.deltaSince = false) : (t.note s r).deltaSince = false := by
  cases r with
  | get responseType payload => cases responseType <;> first | rfl | exact ht
  | delete responseType payload => cases responseType <;> first | rfl | exact ht
  | update r =>
    have hdelta : t.shadow.appliesDelta r = false := hr
    rw [note, hdelta, ht]
    rfl

/-- Along every run of shaped responses after an accepted get, the document is in step with
the version exactly when no delta was applied since it was last replaced or updated, and a
delta that advances the version changes the document with it exactly when it merges. -/
theorem inStep_iff {before after : Shadow ν} {t : DocumentRun ν} (hfirst : FirstGet before after)
    (h : Transition.Reachable respond (fun _ m => ResponseShaped m.2) (started after) t) :
    (t.InStep ↔ t.deltaSince = false) ∧
      (Transition.Reachable respond
          (fun t m => ResponseShaped m.2 ∧ NoDelta t.shadow m.2) (started after) t →
        t.InStep) ∧
      ∀ m, ResponseShaped m.2 → ∃ u, t.respond m = some u ∧
        (DocumentAdvances t.shadow m.2 u.shadow ↔ DeltaMerges t.shadow m.2) := by
  have hstep : ∀ t m u, Inv t → ResponseShaped m.2 → respond t m = some u → Inv (ν := ν) u := by
    intro t m u hi hm hu
    obtain ⟨v, hv, hinv, -⟩ := inv_respond hi hm
    rw [hv] at hu
    cases hu
    exact hinv
  have hi : Inv t := h.invariant (inv_started hfirst) hstep
  refine ⟨inStep_iff_of_inv hi, ?_, ?_⟩
  · intro hcalm
    refine hi.inStep (hcalm.invariant (P := fun t => t.deltaSince = false) rfl ?_)
    intro t m u ht hm hu
    rw [respond] at hu
    split at hu
    next => cases hu
    next s _ =>
      cases hu
      exact deltaSince_note s hm.2 ht
  · intro m hm
    obtain ⟨u, hu, -, hadvances⟩ := inv_respond hi hm
    exact ⟨u, hu, hadvances⟩

/-- A document of the version with an empty state. -/
def versioned (v : UInt32) : JsonValue UInt32 :=
  .object [(documentStateKey, .object []), (documentVersionKey, .number v)]

theorem documentShaped_versioned (v : UInt32) : DocumentShaped (versioned v) :=
  ⟨_, [], v, v, rfl, rfl, rfl, rfl⟩

def atVersion (v : UInt32) : Shadow UInt32 := ⟨v, [0x74], versioned v⟩

theorem firstGet_versioned (v : UInt32) : FirstGet newShadow (atVersion v) :=
  ⟨versioned v, documentShaped_versioned v, rfl⟩

theorem inStep_iff_sixth : ∃ t : DocumentRun UInt32,
    respond (started (atVersion 5)) (0, .update ⟨.accepted, versioned 6⟩) = some t ∧
      t.shadow.curShadowVersion = 6 ∧ (t.InStep ↔ t.deltaSince = false) := by
  have hshaped : ResponseShaped (.update ⟨.accepted, versioned 6⟩) :=
    fun _ => documentShaped_versioned 6
  exact ⟨_, rfl, rfl, (inStep_iff (firstGet_versioned 5)
    (.tail (m := (0, .update ⟨.accepted, versioned 6⟩)) .refl hshaped rfl)).1⟩

/-- A delta of version 6 on a document of version 5. -/
theorem not_inStep_delta :
    ¬ ∀ (before after : Shadow UInt32) t, FirstGet before after →
      Transition.Reachable respond (fun _ m => ResponseShaped m.2) (started after) t →
      t.InStep := by
  intro h
  have hshaped : ResponseShaped (.update ⟨.delta, versioned 6⟩) :=
    fun _ => documentShaped_versioned 6
  have hin := h newShadow (atVersion 5) _ (firstGet_versioned 5)
    (.tail (m := (0, .update ⟨.delta, versioned 6⟩)) .refl hshaped rfl)
  rcases hin with hcur | ⟨hdeleted, -, -⟩
  · revert hcur
    exact show ¬ (some 5 : Option UInt32) = some 6 by decide
  · cases hdeleted

end DocumentRun

end Shadow

end AwsIotSdk
