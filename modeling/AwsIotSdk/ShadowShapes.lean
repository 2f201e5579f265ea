import AwsIotSdk.DeviceShadow
import AwsIotSdk.ShadowDocument
import AwsIotSdk.Transition

/-! The shape of the documents of a shadow object, over runs of the calls that read and
change them. The readers rely on it: a member is only looked up in an object. -/

namespace AwsIotSdk

open JsonValue JsonParser Shadow

variable {ν : Type}

/-! ### Shapes -/

def SectionsShaped (ss : List (Bytes × JsonValue ν)) : Prop :=
  ∀ m ∈ ss, m.1 = documentDesiredKey ∨ m.1 = documentReportedKey → m.2.isObject = true

def StateShaped (v : JsonValue ν) : Prop := ∃ ss, v = .object ss ∧ SectionsShaped ss

def MembersShaped (ds : List (Bytes × JsonValue ν)) : Prop :=
  ∀ m ∈ ds, m.1 = documentStateKey → StateShaped m.2

/-- Whatever the payload is, its states are objects with objects for sections. -/
def PayloadShaped (payload : JsonValue ν) : Prop := ∀ ms, payload = .object ms → MembersShaped ms

theorem sectionsShaped_mergeMembers {ts ss : List (Bytes × JsonValue ν)} (ht : SectionsShaped ts)
    (hs : SectionsShaped ss) : SectionsShaped (mergeMembers ts ss).2 := by
  refine forall_mergeMembers (P := fun k v => k = documentDesiredKey ∨ k = documentReportedKey →
    v.isObject = true) ?_ ht hs
  intro k t s h _ _ hk
  exact isObject_mergeValues (h hk) s

theorem membersShaped_mergeMembers {ts ss : List (Bytes × JsonValue ν)} (ht : MembersShaped ts)
    (hs : MembersShaped ss) : MembersShaped (mergeMembers ts ss).2 := by
  refine forall_mergeMembers (P := fun k v => k = documentStateKey → StateShaped v) ?_ ht hs
  intro k t s ht hs _ hk
  obtain ⟨ts, rfl, hts⟩ := ht hk
  obtain ⟨ss, rfl, hss⟩ := hs hk
  rw [mergeValues_objects]
  exact ⟨_, rfl, sectionsShaped_mergeMembers hts hss⟩

theorem sectionsShaped_empty :
    SectionsShaped [(documentDesiredKey, (.object [] : JsonValue ν)),
      (documentReportedKey, .object [])] := by
  intro m hm _
  simp only [List.mem_cons, List.not_mem_nil, or_false] at hm
  rcases hm with rfl | rfl <;> rfl

theorem sectionsShaped_deltaState {cs es : List (Bytes × JsonValue ν)} (hc : SectionsShaped cs)
    (h : DeltaState cs es) : SectionsShaped es := by
  rcases h with rfl | rfl
  · exact hc
  · exact sectionsShaped_mergeMembers hc sectionsShaped_empty

theorem MembersShaped.isObject {ds : List (Bytes × JsonValue ν)} (h : MembersShaped ds) :
    ∀ m ∈ ds, m.1 = documentStateKey → m.2.isObject = true := by
  intro m hm hname
  obtain ⟨ss, hss, -⟩ := h m hm hname
  rw [hss]
  rfl

theorem MembersShaped.lookup {ds : List (Bytes × JsonValue ν)} (h : MembersShaped ds)
    {state : JsonValue ν} (hstate : ds.lookup documentStateKey = some state) :
    StateShaped state := h _ (mem_of_lookup hstate) rfl

theorem membersShaped_mergeDelta [JsonNumber ν] {ds : List (Bytes × JsonValue ν)}
    (hd : MembersShaped ds) (state : JsonValue ν) :
    ∃ es, mergeDelta (.object ds) state = .ok (.object es) ∧ MembersShaped es := by
  obtain ⟨bs, cs, es, hbs, hstate, hes, -, hdesired, hmerged⟩ := mergeDelta_eq hd.isObject state
  have hbase : MembersShaped bs := by
    rcases hbs with rfl | hempty
    · exact hd
    · cases hempty
      intro m hm hname
      exact ⟨_, value_of_mem_documentEmpty hm hname, sectionsShaped_empty⟩
  obtain ⟨_, hcs, hsections⟩ := hbase.lookup hstate
  cases hcs
  have hshaped := sectionsShaped_deltaState hsections hes
  refine ⟨_, hmerged, ?_⟩
  intro m hm hname
  rcases mem_setMember hm with hm | rfl
  · exact hbase m hm hname
  · refine ⟨_, rfl, ?_⟩
    intro x hx hsection
    rcases mem_setMember hx with hx | rfl
    · exact hshaped x hx hsection
    · exact isObject_mergeValues (hshaped _ (mem_of_lookup hdesired) (.inl rfl)) state

/-! ### Calls without a failed assertion -/

def Safe {α : Type} (x : Except Fault α) (Q : α → Prop) : Prop :=
  match x with
  | .error f => f ≠ .assertionFailed
  | .ok a => Q a

section Safe

variable {α β : Type} {x : Except Fault α} {Q : α → Prop}

theorem safe_bind {f : α → Except Fault β} {R : β → Prop} (hx : Safe x (fun _ => True))
    (hf : ∀ a, x = .ok a → Safe (f a) R) : Safe (x >>= f) R := by
  cases x with
  | error e => exact hx
  | ok a => exact hf a rfl

theorem safe_map {f : α → β} {R : β → Prop} (hx : Safe x (fun a => R (f a))) :
    Safe (x.map f) R := by
  cases x with
  | error e => exact hx
  | ok a => exact hx

theorem safe_of_ok (h : ∃ a, x = .ok a ∧ Q a) : Safe x Q := by
  obtain ⟨a, rfl, ha⟩ := h
  exact ha

theorem safe_equalRange (text topicName : Bytes) :
    Safe (equalRange text topicName) (fun _ => True) := by
  rw [equalRange]
  split_ifs
  · exact show Fault.outOfBounds ≠ .assertionFailed by decide
  · exact trivial

end Safe

namespace DeviceShadow

structure DeviceComplete (ds : List (Bytes × JsonValue ν)) : Prop where
  state : ∃ ss, ds.lookup documentStateKey = some (.object ss) ∧
    (ss.lookup documentDesiredKey).isSome = true ∧ (ss.lookup documentReportedKey).isSome = true
  clientToken : (ds.lookup documentClientTokenKey).isSome = true

structure ShapeInv (s : DeviceShadow ν) : Prop where
  server : ∃ ds, s.curServerStateDocument = .object ds ∧ MembersShaped ds
  device : ∃ ds, s.curDeviceStateDocument = .object ds ∧ MembersShaped ds ∧ DeviceComplete ds

variable {s : DeviceShadow ν}

/-! ### The readers -/

theorem safe_deviceSection (hi : ShapeInv s) {name : Bytes}
    (hname : name = documentDesiredKey ∨ name = documentReportedKey) :
    Safe (s.deviceSection name) (fun _ => True) := by
  obtain ⟨ds, hds, -, hcomplete⟩ := hi.device
  obtain ⟨ss, hstate, hdesired, hreported⟩ := hcomplete.state
  have hsection : (ss.lookup name).isSome = true := by
    rcases hname with rfl | rfl
    · exact hdesired
    · exact hreported
  obtain ⟨x, hx⟩ := Option.isSome_iff_exists.mp hsection
  refine safe_of_ok ⟨x, ?_, trivial⟩
  rw [deviceSection, hds, member, findMember, hstate]
  dsimp only [bind, Except.bind]
  rw [member, findMember, hx]

/-- The state of the server is an object, where there is one. -/
theorem serverState_cases (hi : ShapeInv s) :
    s.curServerStateDocument.hasMember documentStateKey = .ok false ∨
    ∃ ss, s.curServerStateDocument.hasMember documentStateKey = .ok true ∧
      s.curServerStateDocument.member documentStateKey = .ok (.object ss) := by
  obtain ⟨ds, hds, hshaped⟩ := hi.server
  rw [hds, hasMember, member, findMember]
  cases hstate : ds.lookup documentStateKey with
  | none => exact .inl rfl
  | some state =>
    obtain ⟨ss, rfl, -⟩ := hshaped.lookup hstate
    exact .inr ⟨ss, rfl, rfl⟩

theorem safe_serverSection (hi : ShapeInv s) (name : Bytes) :
    Safe (s.serverSection name) (fun _ => True) := by
  rw [serverSection]
  rcases serverState_cases hi with hnone | ⟨ss, hsome, hstate⟩
  · rw [hnone]
    exact trivial
  · rw [hsome, hstate]
    dsimp only [bind, Except.bind]
    rw [if_pos rfl, hasMember]
    cases hsection : ss.lookup name with
    | none => exact trivial
    | some x =>
      dsimp only
      rw [Option.isSome_some, if_pos rfl, member, findMember, hsection]
      exact trivial

theorem safe_isInSync [JsonNumber ν] (hi : ShapeInv s) : Safe s.isInSync (fun _ => True) := by
  rw [isInSync]
  split_ifs
  · exact trivial
  rcases serverState_cases hi with hnone | ⟨ss, hsome, hstate⟩
  · rw [hnone]
    exact trivial
  · rw [hsome, hstate]
    dsimp only [bind, Except.bind]
    rw [if_pos rfl, hasMember, hasMember]
    cases hreported : ss.lookup documentReportedKey with
    | none => exact trivial
    | some reported =>
      cases hdesired : ss.lookup documentDesiredKey with
      | none => exact trivial
      | some desired =>
        simp only [Option.isSome_some, Bool.and_self, if_true, member, findMember, hreported,
          hdesired]
        exact trivial

/-! ### The calls that change a document -/

theorem shapeInv_updateDeviceShadow (hi : ShapeInv s) {document : JsonValue ν}
    (h : PayloadShaped document) : ShapeInv (s.updateDeviceShadow document).2 := by
  refine ⟨?_, ?_⟩
  · cases document <;> exact hi.server
  obtain ⟨ds, hds, hshaped, hcomplete⟩ := hi.device
  cases document with
  | object ms =>
    have hms := h ms rfl
    obtain ⟨ss, hstate, hdesired, hreported⟩ := hcomplete.state
    refine ⟨(mergeMembers ds ms).2, ?_, membersShaped_mergeMembers hshaped hms, ?_, ?_⟩
    · rw [updateDeviceShadow, hds, mergeValues_objects]
      nofun
    · obtain ⟨es, hes, hnames⟩ := lookup_mergeMembers_object hstate hms.isObject
      exact ⟨es, hes, hnames _ hdesired, hnames _ hreported⟩
    · exact isSome_lookup_mergeMembers hcomplete.clientToken ms
  | null => exact hi.device
  | _ =>
    refine ⟨ds, ?_, hshaped, hcomplete⟩
    rw [updateDeviceShadow, mergeValues_of_not_object _ rfl]
    · exact hds
    · nofun

theorem safe_resetClientTokenSuffix (hi : ShapeInv s) (suffix : Bytes) :
    Safe (s.resetClientTokenSuffix suffix) ShapeInv := by
  obtain ⟨ds, hds, hshaped, hcomplete⟩ := hi.device
  obtain ⟨token, htoken⟩ := Option.isSome_iff_exists.mp hcomplete.clientToken
  refine safe_of_ok ⟨{ s with
    clientToken := clientTokenOf s.clientTokenPrefix suffix
    curDeviceStateDocument := .object (setMember documentClientTokenKey
      (.string (clientTokenOf s.clientTokenPrefix suffix)) ds) }, ?_,
    hi.server, _, rfl, ?_, ?_, ?_⟩
  · rw [resetClientTokenSuffix, hds, updateMember, htoken]
    rfl
  · intro m hm hname
    rcases mem_setMember hm with hm | rfl
    · exact hshaped m hm hname
    · exact absurd hname (show documentClientTokenKey ≠ documentStateKey by decide)
  · obtain ⟨ss, hstate, hsections⟩ := hcomplete.state
    refine ⟨ss, ?_, hsections⟩
    rw [lookup_setMember, if_neg (by decide), hstate]
  · rw [lookup_setMember, if_pos rfl, htoken]
    rfl

section Calls

variable [JsonNumber ν]

theorem safe_statesEqual (hi : ShapeInv s) : Safe s.statesEqual (fun _ => True) := by
  obtain ⟨ds, hds, -, hcomplete⟩ := hi.device
  obtain ⟨ss, hstate, -, -⟩ := hcomplete.state
  rw [statesEqual]
  rcases serverState_cases hi with hnone | ⟨_, hsome, hserver⟩
  · rw [hnone]
    exact trivial
  · rw [hsome, hserver, hds, hasMember, member, findMember, hstate]
    exact trivial

theorem updatePayload_object (hi : ShapeInv s) : ∃ es, s.updatePayload = .ok (.object es) := by
  obtain ⟨ds, hds, -⟩ := hi.server
  obtain ⟨es, hes, -, -⟩ := hi.device
  rw [updatePayload, hds, hes, diffValues]
  exact ⟨_, rfl⟩

omit [JsonNumber ν] in
theorem shapeInv_addUpdateSubscription (hi : ShapeInv s) (answers : MqttAnswers) :
    ShapeInv (s.addUpdateSubscription answers).2 := by
  rw [addUpdateSubscription]
  split_ifs <;> exact ⟨hi.server, hi.device⟩

theorem safe_performUpdateAsync (hi : ShapeInv s) (answers : MqttAnswers) :
    Safe (s.performUpdateAsync answers) (fun o => ShapeInv o.shadow) := by
  rw [performUpdateAsync]
  by_cases hclient : (!s.hasMqttClient) = true
  · rw [if_pos hclient]
    exact hi
  by_cases hconnected : (!answers.isConnected) = true
  · rw [if_neg hclient, if_pos hconnected]
    exact hi
  by_cases hobjects :
      (!s.curServerStateDocument.isObject || !s.curDeviceStateDocument.isObject) = true
  · rw [if_neg hclient, if_neg hconnected, if_pos hobjects]
    exact hi
  rw [if_neg hclient, if_neg hconnected, if_neg hobjects]
  refine safe_bind (safe_statesEqual hi) ?_
  intro equal _
  by_cases hequal : equal = true
  · rw [if_pos hequal]
    exact hi
  rw [if_neg hequal]
  have hkept : ShapeInv (if s.isUpdateSubscriptionActive then (.success, s)
      else s.addUpdateSubscription answers : ResponseCode × DeviceShadow ν).2 := by
    split_ifs
    · exact hi
    · exact shapeInv_addUpdateSubscription hi answers
  generalize (if s.isUpdateSubscriptionActive then (.success, s)
    else s.addUpdateSubscription answers : ResponseCode × DeviceShadow ν) = r at hkept
  dsimp only
  split_ifs
  · exact hkept
  obtain ⟨es, hes⟩ := updatePayload_object hkept
  rw [hes]
  dsimp only [bind, Except.bind, hasMember]
  split_ifs
  · exact hkept
  · exact hkept

/-! ### The messages -/

omit [JsonNumber ν] in
theorem shapeInv_of_server (hi : ShapeInv s) {t : Shadow ν} {ds : List (Bytes × JsonValue ν)}
    (ht : t.curServerStateDocument = .object ds) (hds : MembersShaped ds) :
    ShapeInv { s with toShadow := t } := ⟨⟨ds, ht, hds⟩, hi.device⟩

theorem safe_handleGetResponse (hi : ShapeInv s) {responseType : ShadowResponseType}
    {payload : JsonValue ν} (h : responseType = .accepted → PayloadShaped payload) :
    Safe (s.handleGetResponse responseType payload)
      (fun r => ShapeInv { s with toShadow := r.2 }) := by
  rw [handleGetResponse]
  split_ifs with hdelta hrejected
  · exact hi
  · exact hi
  have haccepted : responseType = .accepted := by cases responseType <;> simp_all
  cases payload with
  | object ms =>
    dsimp only [findMember]
    cases ms.lookup documentStateKey with
    | none => exact hi
    | some state =>
      obtain ⟨ds, hds, -⟩ := hi.server
      dsimp only
      rw [hds]
      exact shapeInv_of_server hi rfl (h haccepted ms rfl)
  | _ => exact hi

/-- The version of the payload is read, or missing, and is newer. -/
def TakesUpdate (s : Shadow ν) (indeterminate : UInt32) (payload : JsonValue ν) : Prop :=
  ((getUint32Value payload documentVersionKey indeterminate).1 = .success ∨
    (getUint32Value payload documentVersionKey indeterminate).1 = .jsonParseKeyNotFoundError) ∧
  s.curShadowVersion < (getUint32Value payload documentVersionKey indeterminate).2

theorem safe_applyUpdate (hi : ShapeInv s) {responseType : ShadowResponseType}
    {ms : List (Bytes × JsonValue ν)} {v : UInt32} (state : JsonValue ν)
    (h : responseType ≠ .delta → s.curShadowVersion < v → MembersShaped ms) :
    Safe (s.applyUpdate responseType (.object ms) state v)
      (fun r => ShapeInv { s with toShadow := r.2 }) := by
  obtain ⟨ds, hds, hshaped⟩ := hi.server
  rw [applyUpdate]
  split_ifs with hle hdelta hown
  · exact hi
  · exact hi
  · obtain ⟨es, hmerged, hes⟩ := membersShaped_mergeDelta hshaped state
    rw [hds, hmerged]
    exact shapeInv_of_server hi rfl hes
  · dsimp only
    rw [hds, mergeValues_objects]
    exact shapeInv_of_server hi rfl
      (membersShaped_mergeMembers hshaped (h hdelta (UInt32.not_le.mp hle)))

theorem safe_handleUpdateResponse (hi : ShapeInv s) {indeterminate : UInt32}
    {responseType : ShadowResponseType} {payload : JsonValue ν}
    (h : responseType = .accepted → TakesUpdate s.toShadow indeterminate payload →
      PayloadShaped payload) :
    Safe (s.handleUpdateResponse indeterminate responseType payload)
      (fun r => ShapeInv { s with toShadow := r.2 }) := by
  rw [handleUpdateResponse]
  split_ifs with hrejected
  · exact hi
  cases payload with
  | object ms =>
    dsimp only [findMember]
    cases ms.lookup documentStateKey with
    | none => exact hi
    | some state =>
      dsimp only
      split_ifs with hrc
      · exact hi
      refine safe_applyUpdate hi state ?_
      intro hdelta hlt
      have haccepted : responseType = .accepted := by cases responseType <;> simp_all
      refine h haccepted ⟨?_, hlt⟩ ms rfl
      by_contra hne
      exact hrc (not_or.mp hne)
  | _ => exact hi

omit [JsonNumber ν] in
theorem shapeInv_handleDeleteResponse (hi : ShapeInv s) (responseType : ShadowResponseType)
    (payload : JsonValue ν) :
    ShapeInv (s.withShadow (s.handleDeleteResponse responseType payload)).2 := by
  rw [handleDeleteResponse]
  split_ifs
  · exact hi
  · exact hi
  · exact shapeInv_of_server hi rfl nofun

theorem safe_responseTypeOf (topicName : Bytes) :
    Safe (responseTypeOf topicName) (fun _ => True) := by
  refine safe_bind (safe_equalRange _ _) fun delta _ => ?_
  split_ifs
  · exact trivial
  refine safe_bind (safe_equalRange _ _) fun rejected _ => ?_
  split_ifs
  · exact trivial
  refine safe_bind (safe_equalRange _ _) fun accepted _ => ?_
  split_ifs <;> exact trivial

/-- A payload that is copied or merged into the document of the server has the shape. -/
def MessageShaped (s : DeviceShadow ν) (indeterminate : UInt32) (topicName : Bytes)
    (payload : JsonValue ν) : Prop :=
  responseTypeOf topicName = .ok (some .accepted) →
    (equalRange s.shadowTopicGet topicName = .ok true → PayloadShaped payload) ∧
    (equalRange s.shadowTopicUpdate topicName = .ok true →
      TakesUpdate s.toShadow indeterminate payload → PayloadShaped payload)

theorem safe_subscriptionHandler (hi : ShapeInv s) {indeterminate : UInt32} {topicName : Bytes}
    {payload : Except ResponseCode (JsonValue ν)}
    (h : ∀ document, payload = .ok document →
      MessageShaped s indeterminate topicName document) :
    Safe (s.subscriptionHandler indeterminate topicName payload) (fun r => ShapeInv r.2) := by
  cases payload with
  | error rc => exact hi
  | ok document =>
    have hdocument := h document rfl
    refine safe_bind (safe_responseTypeOf topicName) ?_
    intro responseType htype
    cases responseType with
    | none => exact hi
    | some responseType =>
      have hshaped : responseType = .accepted → _ := fun haccepted =>
        hdocument (haccepted ▸ htype)
      refine safe_bind (safe_equalRange _ _) fun get hget => ?_
      split_ifs with hisGet
      · exact safe_map (safe_handleGetResponse hi
          fun haccepted => (hshaped haccepted).1 (hisGet ▸ hget))
      refine safe_bind (safe_equalRange _ _) fun update hupdate => ?_
      split_ifs with hisUpdate
      · exact safe_map (safe_handleUpdateResponse hi
          fun haccepted => (hshaped haccepted).2 (hisUpdate ▸ hupdate))
      refine safe_bind (safe_equalRange _ _) fun delete _ => ?_
      split_ifs
      · exact shapeInv_handleDeleteResponse hi responseType document
      · exact hi

/-! ### Runs -/

inductive ShadowCall (ν : Type) where
  | subscriptionHandler (indeterminate : UInt32) (topicName : Bytes)
      (payload : Except ResponseCode (JsonValue ν))
  | updateDeviceShadow (document : JsonValue ν)
  | getDeviceReported
  | getDeviceDesired
  | getDeviceDocument
  | getServerReported
  | getServerDesired
  | getServerDocument
  | resetClientTokenSuffix (suffix : Bytes)
  | isInSync
  | performUpdateAsync (answers : MqttAnswers)

/-- The object after a call, or the fault in it. -/
def perform (s : DeviceShadow ν) : ShadowCall ν → Except Fault (DeviceShadow ν)
  | .subscriptionHandler indeterminate topicName payload =>
    (s.subscriptionHandler indeterminate topicName payload).map Prod.snd
  | .updateDeviceShadow document => .ok (s.updateDeviceShadow document).2
  | .getDeviceReported => s.getDeviceReported.map (fun _ => s)
  | .getDeviceDesired => s.getDeviceDesired.map (fun _ => s)
  | .getDeviceDocument => .ok s
  | .getServerReported => s.getServerReported.map (fun _ => s)
  | .getServerDesired => s.getServerDesired.map (fun _ => s)
  | .getServerDocument => .ok s
  | .resetClientTokenSuffix suffix => s.resetClientTokenSuffix suffix
  | .isInSync => s.isInSync.map (fun _ => s)
  | .performUpdateAsync answers => (s.performUpdateAsync answers).map (·.shadow)

def CallShaped (s : DeviceShadow ν) : ShadowCall ν → Prop
  | .subscriptionHandler indeterminate topicName payload =>
    ∀ document, payload = .ok document → MessageShaped s indeterminate topicName document
  | .updateDeviceShadow document => PayloadShaped document
  | _ => True

theorem safe_perform (hi : ShapeInv s) {call : ShadowCall ν} (h : CallShaped s call) :
    Safe (s.perform call) ShapeInv := by
  have hread : ∀ {α : Type} {x : Except Fault α}, Safe x (fun _ => True) →
      Safe (x.map (fun _ => s)) ShapeInv := by
    intro α x hx
    cases x with
    | error f => exact hx
    | ok a => exact hi
  cases call with
  | subscriptionHandler _ _ _ => exact safe_map (safe_subscriptionHandler hi h)
  | updateDeviceShadow _ => exact shapeInv_updateDeviceShadow hi h
  | getDeviceReported => exact hread (safe_deviceSection hi (.inr rfl))
  | getDeviceDesired => exact hread (safe_deviceSection hi (.inl rfl))
  | getDeviceDocument | getServerDocument => exact hi
  | getServerReported | getServerDesired => exact hread (safe_serverSection hi _)
  | resetClientTokenSuffix suffix => exact safe_resetClientTokenSuffix hi suffix
  | isInSync => exact hread (safe_isInSync hi)
  | performUpdateAsync answers => exact safe_map (safe_performUpdateAsync hi answers)

structure ShadowCalls (ν : Type) where
  shadow : DeviceShadow ν
  fault : Option Fault

namespace ShadowCalls

def step (r : ShadowCalls ν) (call : ShadowCall ν) : Option (ShadowCalls ν) :=
  match r.fault with
  | some _ => none
  | none =>
    match r.shadow.perform call with
    | .error f => some { r with fault := some f }
    | .ok shadow => some ⟨shadow, none⟩

end ShadowCalls

/-- A document is an object, and so are the state in it and the sections of the state. -/
structure KeepsShape (document : JsonValue ν) : Prop where
  object : document.isObject = true
  state : ∀ state, document.findMember documentStateKey = some state → state.isObject = true
  sections : ∀ state name x, document.findMember documentStateKey = some state →
    name = documentDesiredKey ∨ name = documentReportedKey → state.findMember name = some x →
    x.isObject = true

structure ShapesKept (r : ShadowCalls ν) : Prop where
  server : KeepsShape r.shadow.curServerStateDocument
  device : KeepsShape r.shadow.curDeviceStateDocument
  noFailedLookup : r.fault ≠ some .assertionFailed

omit [JsonNumber ν] in
theorem keepsShape_of_membersShaped {ds : List (Bytes × JsonValue ν)} (h : MembersShaped ds) :
    KeepsShape (.object ds) where
  object := rfl
  state := by
    intro state hstate
    obtain ⟨ss, rfl, -⟩ := h.lookup hstate
    rfl
  sections := by
    intro state name x hstate hname hx
    obtain ⟨ss, rfl, hss⟩ := h.lookup hstate
    exact hss _ (mem_of_lookup hx) hname

theorem shapeInv_create {hasMqttClient : Bool} {thingName clientTokenPrefix suffix : Bytes}
    (h : create hasMqttClient thingName clientTokenPrefix suffix = some s) : ShapeInv s := by
  rw [create] at h
  by_cases hrefused : hasMqttClient = false ∨ thingName.length = 0
  · rw [if_pos hrefused] at h
    cases h
  rw [if_neg hrefused] at h
  cases h
  refine ⟨⟨[], rfl, nofun⟩, _, rfl, ?_, ⟨_, rfl, rfl, rfl⟩, rfl⟩
  intro m hm hname
  exact ⟨_, value_of_mem_documentEmpty hm hname, sectionsShaped_empty⟩

/-- The documents keep their shape, and no lookup fails, along every run in which what is
copied or merged into them has the shape. -/
theorem shapesKept_of_reachable {hasMqttClient : Bool}
    {thingName clientTokenPrefix suffix : Bytes}
    (hs : create hasMqttClient thingName clientTokenPrefix suffix = some s) {r : ShadowCalls ν}
    (h : Transition.Reachable ShadowCalls.step (fun r call => CallShaped r.shadow call)
      ⟨s, none⟩ r) : ShapesKept r := by
  have hinv : ShapeInv r.shadow ∧ r.fault ≠ some .assertionFailed := by
    refine h.invariant
      (P := fun r : ShadowCalls ν => ShapeInv r.shadow ∧ r.fault ≠ some .assertionFailed)
      ⟨shapeInv_create hs, by simp⟩ ?_
    intro r call t hi hc ht
    have hsafe := safe_perform hi.1 hc
    rw [ShadowCalls.step] at ht
    split at ht
    next => cases ht
    next =>
      generalize r.shadow.perform call = x at hsafe ht
      cases x with
      | error f =>
        cases ht
        exact ⟨hi.1, fun hf => hsafe (Option.some.inj hf)⟩
      | ok shadow =>
        cases ht
        exact ⟨hsafe, nofun⟩
  obtain ⟨ds, hds, hserver⟩ := hinv.1.server
  obtain ⟨es, hes, hdevice, -⟩ := hinv.1.device
  exact ⟨hds ▸ keepsShape_of_membersShaped hserver, hes ▸ keepsShape_of_membersShaped hdevice,
    hinv.2⟩

end Calls

/-- The shadow of the thing `a`. -/
def shadowOfA : DeviceShadow UInt32 :=
  { Shadow.init [0x61, 0x5f] with
    hasMqttClient := true
    thingName := [0x61]
    clientTokenPrefix := [0x61]
    isUpdateSubscriptionActive := false
    curDeviceStateDocument := .object [(documentStateKey, documentEmptyState),
      (documentVersionKey, .number 0), (documentClientTokenKey, .string [0x61, 0x5f]),
      (documentTimestampKey, .number 0)] }

/-- An accepted get with the state in its payload. -/
def acceptedGet (state : JsonValue UInt32) : ShadowCall UInt32 :=
  .subscriptionHandler 0 (shadowOfA.shadowTopicGet ++ 0x2f :: responseTypeAcceptedText)
    (.ok (.object [(documentStateKey, state)]))

theorem shapesKept_of_reachable_get : ∃ r : ShadowCalls UInt32,
    ShadowCalls.step ⟨shadowOfA, none⟩ (acceptedGet (.object [])) = some r ∧ ShapesKept r := by
  have hshaped : CallShaped shadowOfA (acceptedGet (.object [])) := by
    intro document hdocument
    cases hdocument
    have hpayload : PayloadShaped
        (.object [(documentStateKey, .object [])] : JsonValue UInt32) := by
      intro ms hms m hm _
      cases hms
      cases List.mem_singleton.mp hm
      exact ⟨[], rfl, nofun⟩
    exact fun _ => ⟨fun _ => hpayload, fun _ _ => hpayload⟩
  exact ⟨_, rfl, shapesKept_of_reachable
    (show create true [0x61] [] [] = some shadowOfA from rfl)
    (.tail (m := acceptedGet (.object [])) .refl hshaped rfl)⟩

/-- After an accepted get whose state is a number a reader looks a member up in it. -/
theorem not_shapesKept_number :
    ¬ ∀ r : ShadowCalls UInt32, Transition.Reachable ShadowCalls.step Transition.anyMove
      ⟨shadowOfA, none⟩ r → ShapesKept r := by
  intro h
  have hkept := h _ (.tail (m := .isInSync)
    (.tail (m := acceptedGet (.number 5)) .refl trivial rfl) trivial rfl)
  exact hkept.noFailedLookup rfl

end DeviceShadow

end AwsIotSdk
