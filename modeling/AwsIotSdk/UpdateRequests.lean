import AwsIotSdk.DeviceShadow
import AwsIotSdk.MergeOfDiff

/-! The request for an update against the merge of the state of the device into that of
the server: when one is published, and what it says. -/

namespace AwsIotSdk

open JsonValue JsonParser Shadow

variable {ν : Type} [JsonNumber ν]

namespace JsonParser

/-- The difference of two objects is empty exactly when the merge changes nothing. -/
theorem memberCount_diffValues_pos_iff {o n : JsonValue ν} (ho : DistinctNames o)
    (hn : DistinctNames n) (hobj : (o.isObject && n.isObject) = true) :
    0 < (diffValues (.object []) o n).2.memberCount ↔ (mergeValues o n).2.eq o = false := by
  have hmerge := distinctNames_mergeValues ho hn hobj
  rw [Nat.pos_iff_ne_zero, ← Bool.not_eq_true, not_iff_not]
  constructor
  · intro hcount
    obtain ⟨ds, -, hds⟩ := diffValues_eq hn hobj (.object [])
    have hreconstructs := eq_mergeValues_diffValues ho hn hobj
    rw [hds] at hcount hreconstructs
    obtain rfl : ds = [] := List.length_eq_zero_iff.mp hcount
    obtain ⟨os, rfl⟩ := isObject_iff.mp ((Bool.and_eq_true _ _).mp hobj).1
    exact eq_symm ho hmerge hreconstructs
  · intro heq
    rw [diffValues_empty_of_eq ho hn hobj (eq_symm hmerge ho heq)]
    rfl

/-- The difference of one member, when both documents have an object there. -/
theorem differing_objects {o n : JsonValue ν} (ho : DistinctNames o) (hn : DistinctNames n)
    (hobj : (o.isObject && n.isObject) = true) (hne : o.eq n = false) :
    differing (some o) (some n) =
      if (mergeValues o n).2.eq o = false then some (diffValues (.object []) o n).2 else none := by
  have hiff := memberCount_diffValues_pos_iff ho hn hobj
  rw [differing, if_neg (Bool.eq_false_iff.mp hne), if_pos hobj]
  split_ifs with hcount heq heq
  · rfl
  · exact absurd (hiff.mp hcount) heq
  · exact absurd (hiff.mpr heq) hcount
  · rfl

end JsonParser

namespace DeviceShadow

variable {s : DeviceShadow ν} {server device : JsonValue ν}

/-- The documents have the states, and names are distinct in both. -/
structure HasStates (s : DeviceShadow ν) (server device : JsonValue ν) : Prop where
  serverDistinct : DistinctNames s.curServerStateDocument
  deviceDistinct : DistinctNames s.curDeviceStateDocument
  serverState : s.curServerStateDocument.findMember documentStateKey = some server
  deviceState : s.curDeviceStateDocument.findMember documentStateKey = some device

omit [JsonNumber ν] in
theorem isObject_of_findMember {v x : JsonValue ν} {name : Bytes}
    (h : v.findMember name = some x) : ∃ ms, v = .object ms ∧ ms.lookup name = some x := by
  cases v with
  | object ms => exact ⟨ms, rfl, h⟩
  | _ => cases h

theorem statesEqual_eq (h : HasStates s server device) :
    s.statesEqual = .ok (device.eq server) := by
  obtain ⟨ss, hserver, hss⟩ := isObject_of_findMember h.serverState
  obtain ⟨ds, hdevice, hds⟩ := isObject_of_findMember h.deviceState
  rw [statesEqual, hserver, hdevice, hasMember, hasMember, member, member, findMember, findMember,
    hss, hds]
  rfl

/-- The payload is the difference without the version and the time. -/
theorem updatePayload_eq (h : HasStates s server device) :
    ∃ ps, s.updatePayload = .ok (.object ps) ∧ ps.lookup documentVersionKey = none ∧
      ps.lookup documentTimestampKey = none ∧
      ps.lookup documentStateKey = differing (some server) (some device) := by
  obtain ⟨ss, hserver, hss⟩ := isObject_of_findMember h.serverState
  obtain ⟨ds, hdevice, hds⟩ := isObject_of_findMember h.deviceState
  have hdistinct := h.deviceDistinct
  rw [hdevice] at hdistinct
  obtain ⟨es, hdiff, hes, hlookup⟩ := diffValues_object hdistinct .null ss
  have hcount := List.nodup_iff_count_le_one.mp hes
  have hcount' : ∀ name, ((eraseMember documentTimestampKey es).map Prod.fst).count name ≤ 1 := by
    rw [names_eraseMember]
    exact List.nodup_iff_count_le_one.mp (hes.erase documentTimestampKey)
  refine ⟨eraseMember documentVersionKey (eraseMember documentTimestampKey es), ?_, ?_, ?_, ?_⟩
  · rw [updatePayload, hserver, hdevice, hdiff]
    rfl
  · exact lookup_eraseMember_self (hcount' documentVersionKey)
  · rw [lookup_eraseMember_of_ne (by decide)]
    exact lookup_eraseMember_self (hcount documentTimestampKey)
  · rw [lookup_eraseMember_of_ne (by decide), lookup_eraseMember_of_ne (by decide), hlookup, hss,
      hds]

theorem performUpdateAsync_eq {answers : MqttAnswers} (h : HasStates s server device)
    (hclient : s.hasMqttClient = true) (hconnected : answers.isConnected = true)
    (hactive : s.isUpdateSubscriptionActive = true) :
    ∃ ps, s.updatePayload = .ok (.object ps) ∧ s.performUpdateAsync answers = .ok
      (if device.eq server = true then ⟨.shadowNothingToUpdate, none, s⟩
        else if (ps.lookup documentStateKey).isSome = true then
          ⟨answers.publish, some (.object ps), s⟩
        else ⟨.shadowNothingToUpdate, none, s⟩) := by
  obtain ⟨ss, hserver, -⟩ := isObject_of_findMember h.serverState
  obtain ⟨ds, hdevice, -⟩ := isObject_of_findMember h.deviceState
  obtain ⟨ps, hpayload, -⟩ := updatePayload_eq h
  have hobjects :
      (!s.curServerStateDocument.isObject || !s.curDeviceStateDocument.isObject) = false := by
    rw [hserver, hdevice]
    rfl
  refine ⟨ps, hpayload, ?_⟩
  rw [performUpdateAsync, statesEqual_eq h, hclient, hconnected, hobjects, hactive]
  simp only [bind, Except.bind, Bool.not_true, Bool.false_eq_true, if_false, if_true, hpayload,
    hasMember, ne_eq, not_true_eq_false]
  split_ifs
  · rfl
  · rfl
  · rfl

/-- A request publishes when the merge would change the state of the server, and what
it publishes stands for the whole state of the device. -/
theorem performUpdateAsync_exact (s : DeviceShadow ν) (answers : MqttAnswers)
    (server device : JsonValue ν) (h : HasStates s server device)
    (hserver : server.isObject = true) (hdevice : device.isObject = true)
    (hclient : s.hasMqttClient = true) (hconnected : answers.isConnected = true)
    (hactive : s.isUpdateSubscriptionActive = true) :
    ∃ outcome, s.performUpdateAsync answers = .ok outcome ∧
      (outcome.published.isSome = true ↔ (mergeValues server device).2.eq server = false) ∧
      ∀ payload, outcome.published = some payload →
        payload.findMember documentVersionKey = none ∧
        payload.findMember documentTimestampKey = none ∧
        ∃ d, payload.findMember documentStateKey = some d ∧
          (mergeValues server d).2.eq (mergeValues server device).2 = true := by
  have hobj : (server.isObject && device.isObject) = true := by rw [hserver, hdevice]; rfl
  obtain ⟨ss, hss, hserverLookup⟩ := isObject_of_findMember h.serverState
  obtain ⟨ds, hds, hdeviceLookup⟩ := isObject_of_findMember h.deviceState
  have hserverDistinct : DistinctNames server := (hss ▸ h.serverDistinct).lookup hserverLookup
  have hdeviceDistinct : DistinctNames device := (hds ▸ h.deviceDistinct).lookup hdeviceLookup
  have hmerge := distinctNames_mergeValues hserverDistinct hdeviceDistinct hobj
  obtain ⟨ps, hpayload, hperform⟩ := performUpdateAsync_eq h hclient hconnected hactive
  obtain ⟨_, hpayload', hversion, htimestamp, hstate⟩ := updatePayload_eq h
  rw [hpayload] at hpayload'
  cases hpayload'
  refine ⟨_, hperform, ?_⟩
  by_cases heq : device.eq server = true
  · have hsame := eq_symm hdeviceDistinct hserverDistinct heq
    have hunchanged := eq_symm hserverDistinct hmerge
      (eq_mergeValues_of_eq hserverDistinct hdeviceDistinct hobj hsame)
    rw [if_pos heq, hunchanged]
    exact ⟨by simp, nofun⟩
  · have hne : server.eq device = false := by
      rw [Bool.eq_false_iff]
      exact fun hsame => heq (eq_symm hserverDistinct hdeviceDistinct hsame)
    rw [differing_objects hserverDistinct hdeviceDistinct hobj hne] at hstate
    rw [if_neg heq, hstate]
    by_cases hchanged : (mergeValues server device).2.eq server = false
    · rw [if_pos hchanged, Option.isSome_some, if_pos rfl]
      refine ⟨by simp [hchanged], ?_⟩
      intro payload hpublished
      cases hpublished
      rw [if_pos hchanged] at hstate
      exact ⟨hversion, htimestamp, _, hstate,
        eq_mergeValues_diffValues hserverDistinct hdeviceDistinct hobj⟩
    · rw [if_neg hchanged]
      exact ⟨by simp [hchanged], nofun⟩

def statedDocument (state : JsonValue UInt32) : JsonValue UInt32 :=
  .object [(documentStateKey, state)]

/-- The server and the device have each a member that the other has not. -/
def outdatedShadow : DeviceShadow UInt32 where
  curShadowVersion := 1
  clientToken := [0x61]
  curServerStateDocument := statedDocument (.object oldMembers)
  hasMqttClient := true
  thingName := [0x61]
  clientTokenPrefix := [0x61]
  isUpdateSubscriptionActive := true
  curDeviceStateDocument := statedDocument (.object newMembers)

theorem hasStates_outdatedShadow :
    HasStates outdatedShadow (.object oldMembers) (.object newMembers) where
  serverDistinct := .object (by simp) (List.forall_mem_singleton.mpr distinctNames_oldMembers)
  deviceDistinct := .object (by simp) (List.forall_mem_singleton.mpr distinctNames_newMembers)
  serverState := rfl
  deviceState := rfl

theorem performUpdateAsync_exact_outdated :
    ∃ outcome, outdatedShadow.performUpdateAsync ⟨true, true, .success, .success⟩ = .ok outcome ∧
      (outcome.published.isSome = true ↔
        (mergeValues (.object oldMembers) (.object newMembers)).2.eq (.object oldMembers) =
          false) ∧
      ∀ payload, outcome.published = some payload →
        payload.findMember documentVersionKey = none ∧
        payload.findMember documentTimestampKey = none ∧
        ∃ d, payload.findMember documentStateKey = some d ∧
          (mergeValues (.object oldMembers) d).2.eq
            (mergeValues (.object oldMembers) (.object newMembers)).2 = true :=
  performUpdateAsync_exact outdatedShadow ⟨true, true, .success, .success⟩
    (.object oldMembers) (.object newMembers) hasStates_outdatedShadow rfl rfl rfl rfl rfl

end DeviceShadow

end AwsIotSdk
