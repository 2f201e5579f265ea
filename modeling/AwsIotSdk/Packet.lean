import AwsIotSdk.Utf8String

/-! The fixed header and the data all packets share, and the helpers that append
fields to a buffer or read them from one. A read outside the buffer or through
a null pointer is a `Fault`. -/

namespace AwsIotSdk

inductive Fault where
  | nullDereference
  | outOfBounds
  | outOfRange
  | regexError
  | badFunctionCall
  | assertionFailed
  deriving DecidableEq, Repr

theorem ok_bind {ε α β : Type} (a : α) (f : α → Except ε β) : (Except.ok a >>= f) = f a := rfl

theorem error_bind {ε α β : Type} (e : ε) (f : α → Except ε β) :
    ((Except.error e : Except ε α) >>= f) = .error e := rfl

theorem bind_eq_ok {ε α β : Type} {x : Except ε α} {f : α → Except ε β} {b : β} :
    x >>= f = .ok b ↔ ∃ a, x = .ok a ∧ f a = .ok b := by
  cases x with
  | error e => exact ⟨nofun, fun ⟨_, h, _⟩ => nomatch h⟩
  | ok a => exact ⟨fun h => ⟨a, rfl, h⟩, fun ⟨_, ha, h⟩ => by cases ha; exact h⟩

structure PacketFixedHeader where
  messageType : MessageTypes
  fixedHeaderByte : UInt8
  remainingLength : Nat
  isValid : Bool
  deriving DecidableEq, Repr

namespace PacketFixedHeader

def maxMqttPacketRemLenBytes : Nat := 268435455

def empty : PacketFixedHeader := ⟨.invalid, 0, 0, false⟩

def publishFlags (isDuplicate : Bool) (qos : QoS) (isRetained : Bool) : UInt8 :=
  (match qos with
    | .qos0 => 0x00
    | .qos1 => 0x02) ||| (if isDuplicate then 0x08 else 0x00) ||| (if isRetained then 0x01 else 0x00)

def initializeHeader (h : PacketFixedHeader) (messageType : MessageTypes) (isDuplicate : Bool)
    (qos : QoS) (isRetained : Bool) (remLen : Nat) : ResponseCode × PacketFixedHeader :=
  if maxMqttPacketRemLenBytes < remLen then (.failure, h)
  else
    let ok (b : UInt8) : ResponseCode × PacketFixedHeader := (.success, ⟨messageType, b, remLen, true⟩)
    match messageType with
    | .connect => ok 0x10
    | .connack => ok 0x20
    | .publish => ok (0x30 ||| publishFlags isDuplicate qos isRetained)
    | .puback => ok 0x40
    | .pubrec => ok 0x50
    | .pubrel => ok 0x62
    | .pubcomp => ok 0x70
    | .subscribe => ok 0x82
    | .suback => ok 0x90
    | .unsubscribe => ok 0xa2
    | .unsuback => ok 0xb0
    | .pingreq => ok 0xc0
    | .pingresp => ok 0xd0
    | .disconnect => ok 0xe0
    | .invalid | .reserved => (.failure, ⟨messageType, 0, remLen, false⟩)

def remainingLengthByteCount (remainingLength : Nat) : Nat :=
  if remainingLength < 128 then 1
  else if remainingLength < 16384 then 2
  else if remainingLength < 2097152 then 3
  else 4

def getRemainingLengthByteCount (h : PacketFixedHeader) : Nat :=
  remainingLengthByteCount h.remainingLength

def length (h : PacketFixedHeader) : Nat := h.getRemainingLengthByteCount + 1

/-- The do-while loop of `appendToBuffer`; a quotient by 128 is smaller, so the
remaining length bounds the iterations. -/
def encodeLoop : Nat → Nat → Bytes
  | 0, _ => []
  | fuel + 1, len =>
    let encodedByte := UInt8.ofNat (len % 128)
    if 0 < len / 128 then (encodedByte ||| 0x80) :: encodeLoop fuel (len / 128)
    else [encodedByte]

def appendToBuffer (h : PacketFixedHeader) (buf : Bytes) : Bytes :=
  buf ++ h.fixedHeaderByte ::
    (if 0 < h.remainingLength then encodeLoop (h.remainingLength + 1) h.remainingLength else [0])

end PacketFixedHeader

inductive AsyncAckHandler where
  | syncActionHandler
  | application (id : Nat)
  deriving DecidableEq, Repr

/-- The members of the packet base class. A packet that does not set its id
gets one from `setPacketId` before it is used. -/
structure Packet where
  fixedHeader : PacketFixedHeader
  packetSize : Nat
  serializedPacketLength : Nat
  packetId : UInt16 := 0
  pAsyncAckHandler : Option AsyncAckHandler := none

namespace Packet

def init (messageType : MessageTypes) (isDuplicate : Bool) (qos : QoS) (isRetained : Bool)
    (packetSize : Nat) : Packet :=
  let header := (PacketFixedHeader.empty.initializeHeader messageType isDuplicate qos isRetained
    packetSize).2
  { fixedHeader := header
    packetSize := packetSize
    serializedPacketLength := packetSize + header.length }

def setPacketId (p : Packet) (id : UInt16) : Packet := { p with packetId := id }

def appendUInt16ToBuffer (buf : Bytes) (value : UInt16) : Bytes :=
  buf ++ [UInt8.ofNat (value.toNat / 256), UInt8.ofNat (value.toNat % 256)]

def byteAt (buf : Bytes) (i : Nat) : Except Fault UInt8 :=
  match buf[i]? with
  | some b => .ok b
  | none => .error .outOfBounds

def byteAtChecked (buf : Bytes) (i : Nat) : Except Fault UInt8 :=
  match buf[i]? with
  | some b => .ok b
  | none => .error .outOfRange

def toUInt16 (first second : UInt8) : UInt16 := UInt16.ofNat (second.toNat + 256 * first.toNat)

theorem toNat_toUInt16 {n : Nat} (h : n ≤ 65535) :
    (toUInt16 (UInt8.ofNat (n / 256)) (UInt8.ofNat (n % 256))).toNat = n := by
  simp only [toUInt16, UInt16.toNat_ofNat', UInt8.toNat_ofNat']
  omega

theorem toUInt16_bytes (value : UInt16) :
    toUInt16 (UInt8.ofNat (value.toNat / 256)) (UInt8.ofNat (value.toNat % 256)) = value := by
  have hlt := value.toNat_lt
  exact UInt16.toNat_inj.mp (toNat_toUInt16 (by omega))

def readUInt16FromBuffer (buf : Bytes) (extractIndex : Nat) : Except Fault (UInt16 × Nat) := do
  let first ← byteAt buf extractIndex
  let second ← byteAt buf (extractIndex + 1)
  return (toUInt16 first second, extractIndex + 2)

def readUtf8StringFromBuffer (buf : Bytes) (extractIndex : Nat) :
    Except Fault (Option Utf8String × Nat) := do
  let first ← byteAtChecked buf extractIndex
  let second ← byteAtChecked buf (extractIndex + 1)
  let extractIndex := extractIndex + 2
  let len := (toUInt16 first second).toNat
  if 1 ≤ len ∧ len ≤ buf.length - extractIndex then
    return (Utf8String.create ((buf.drop extractIndex).take len), extractIndex + len)
  else return (none, extractIndex)

def appendStringToBuffer (buf : Bytes) (str : Bytes) : Bytes :=
  if 0 < str.length then
    buf ++ [UInt8.ofNat (str.length / 256), UInt8.ofNat (str.length % 256)] ++ str
  else buf

def appendUtf8StringToBuffer (buf : Bytes) (str : Utf8String) : Bytes :=
  appendStringToBuffer buf str.data

end Packet

end AwsIotSdk
