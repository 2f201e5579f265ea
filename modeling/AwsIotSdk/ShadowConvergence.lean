import AwsIotSdk.MergeLaws
import AwsIotSdk.ShadowShapes
import AwsIotSdk.TopicDispatch
import AwsIotSdk.UpdateRequests

/-! What an accepted update settles: the state of the device merged into that of the
server changes nothing any more, and no later request publishes. -/

namespace AwsIotSdk

open JsonValue JsonParser Shadow

variable {ν : Type} [JsonNumber ν]

namespace JsonParser

end JsonParser

namespace DeviceShadow

variable {s t : DeviceShadow ν} {server device : JsonValue ν}

/-! ### Calls that leave the documents alone -/

omit [JsonNumber ν] in
theorem HasStates.congr (h : HasStates s server device)
    (hserver : t.curServerStateDocument = s.curServerStateDocument)
    (hdevice : t.curDeviceStateDocument = s.curDeviceStateDocument) :
    HasStates t server device where
  serverDistinct := by simp [hserver, h.serverDistinct]
  deviceDistinct := by simp [hdevice, h.deviceDistinct]
  serverState := by simp [hserver, h.serverState]
  deviceState := by simp [hdevice, h.deviceState]

omit [JsonNumber ν] in
theorem HasStates.resetClientTokenSuffix (h : HasStates s server device) {suffix : Bytes}
    (hreset : s.resetClientTokenSuffix suffix = .ok t) : HasStates t server device := by
  obtain ⟨ds, hdevice, hds⟩ := isObject_of_findMember h.deviceState
  have hdistinct := h.deviceDistinct
  rw [hdevice] at hdistinct
  rw [DeviceShadow.resetClientTokenSuffix, hdevice, updateMember] at hreset
  cases htoken : ds.lookup documentClientTokenKey with
  | none =>
    rw [htoken] at hreset
    cases hreset
  | some token =>
    rw [htoken] at hreset
    cases hreset
    refine ⟨h.serverDistinct, ?_, h.serverState, ?_⟩
    · refine DistinctNames.of_lookup (by rw [names_setMember]; exact hdistinct.names) ?_
      intro k v hv
      rw [lookup_setMember] at hv
      split_ifs at hv with hk
      · cases hold : ds.lookup documentClientTokenKey with
        | none =>
          rw [hold] at hv
          cases hv
        | some old =>
          rw [hold] at hv
          cases hv
          exact .string _
      · exact hdistinct.lookup hv
    · rw [findMember, lookup_setMember, if_neg (by decide)]
      exact hds

end DeviceShadow

end AwsIotSdk
