import Mathlib.Data.UInt
import Mathlib.Order.Basic

/-! Return codes and the enumerations shared by the client core and the MQTT
packets. Only codes that a modelled function compares or returns are listed, those of the
network, of the JSON parser and of the discovery included. -/

namespace AwsIotSdk

abbrev Bytes := List UInt8

theorem byte_cases {P : UInt8 → Prop} (h : ∀ i : Fin 256, P (UInt8.ofNat i.val)) (b : UInt8) :
    P b := by
  have := h ⟨b.toNat, b.toNat_lt⟩
  rwa [UInt8.ofNat_toNat] at this

inductive ResponseCode where
  | mqttConnackConnectionAccepted
  | success
  | failure
  | nullValueError
  | threadExiting
  | networkTcpConnectError
  | networkSslTlsHandshakeError
  | networkSslConnectionClosedError
  | networkSslWriteError
  | networkSslWriteTimeoutError
  | networkSslReadError
  | networkSslNothingToRead
  | networkDisconnectedError
  | networkNothingToWriteError
  | actionNotRegisteredError
  | actionQueueFull
  | actionCreateFailed
  | mqttRequestTimeoutError
  | mqttDecodeRemainingLengthError
  | mqttConnackUnacceptableProtocolVersionError
  | mqttConnackIdentifierRejectedError
  | mqttConnackServerUnavailableError
  | mqttConnackBadUserdataError
  | mqttConnackNotAuthorizedError
  | mqttNoSubscriptionFound
  | mqttSubscriptionNotActive
  | mqttUnexpectedPacketFormatError
  | mqttSubscribePartiallyFailed
  | mqttSubscribeFailed
  | jsonParseKeyNotFoundError
  | jsonParseKeyUnexpectedTypeError
  | jsonParsingError
  | jsonMergeFailed
  | shadowRequestAccepted
  | shadowReceivedDelta
  | shadowJsonEmptyError
  | shadowMqttDisconnectedError
  | shadowUnexpectedResponseType
  | shadowUnexpectedResponseTopic
  | shadowRequestRejected
  | shadowMqttClientNotSetError
  | shadowNothingToUpdate
  | shadowUnexpectedResponsePayload
  | shadowReceivedOldVersionUpdate
  | websocketFrameReceiveError
  | websocketProtocolViolation
  | websocketMaxLifetimeReached
  | websocketWslayContextInitError
  | websocketFrameTransmitError
  | discoverActionRequestTimedOutError
  | discoverActionServerError
  | discoverActionRequestOverload
  | discoverActionUnauthorized
  | discoverActionNoInformationPresent
  | discoverActionRequestFailedError
  | discoverResponseUnexpectedJsonStructureError
  deriving DecidableEq, Repr

/-- The whole enumeration; only some of the types name an `Action` class. -/
inductive ActionType where
  | reservedAction
  | coreProcessInbound
  | coreProcessOutbound
  | connect
  | disconnect
  | publish
  | puback
  | pubrec
  | pubrel
  | pubcomp
  | subscribe
  | readIncoming
  | keepAlive
  | publishInbound
  | unsubscribe
  | reconnect
  | greengrassDiscover
  deriving DecidableEq, Repr

inductive QoS where
  | qos0
  | qos1
  deriving DecidableEq, Repr

inductive MessageTypes where
  | invalid
  | connect
  | connack
  | publish
  | puback
  | pubrec
  | pubrel
  | pubcomp
  | subscribe
  | suback
  | unsubscribe
  | unsuback
  | pingreq
  | pingresp
  | disconnect
  | reserved
  deriving DecidableEq, Repr

def MessageTypes.ofByte (b : UInt8) : MessageTypes :=
  match b.toNat with
  | 1 => .connect
  | 2 => .connack
  | 3 => .publish
  | 4 => .puback
  | 5 => .pubrec
  | 6 => .pubrel
  | 7 => .pubcomp
  | 8 => .subscribe
  | 9 => .suback
  | 10 => .unsubscribe
  | 11 => .unsuback
  | 12 => .pingreq
  | 13 => .pingresp
  | 14 => .disconnect
  | 15 => .reserved
  | _ => .invalid

instance linearOrderUInt8 : LinearOrder UInt8 where
  le_refl := UInt8.le_refl
  le_trans := fun _ _ _ => UInt8.le_trans
  le_antisymm := fun _ _ => UInt8.le_antisymm
  le_total := UInt8.le_total
  lt_iff_le_not_ge := fun a b => by
    simp only [UInt8.lt_iff_toNat_lt, UInt8.le_iff_toNat_le]
    omega
  toDecidableLE := inferInstance

instance linearOrderUInt16 : LinearOrder UInt16 where
  le_refl := UInt16.le_refl
  le_trans := fun _ _ _ => UInt16.le_trans
  le_antisymm := fun _ _ => UInt16.le_antisymm
  le_total := UInt16.le_total
  lt_iff_le_not_ge := fun a b => by
    simp only [UInt16.lt_iff_toNat_lt, UInt16.le_iff_toNat_le]
    omega
  toDecidableLE := inferInstance

end AwsIotSdk
