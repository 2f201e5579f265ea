import AwsIotSdk.EcmaRegex
import AwsIotSdk.Packet

/-! Subscriptions, their topic filters and the regular expression a filter with
wildcards is translated to. -/

namespace AwsIotSdk

def singleLevelWildcard : UInt8 := 0x2b
def multiLevelWildcard : UInt8 := 0x23
def reservedTopic : UInt8 := 0x24
def levelSeparator : UInt8 := 0x2f

/-- `[^/]*` -/
def singleLevelRegexString : Bytes := [0x5b, 0x5e, 0x2f, 0x5d, 0x2a]

/-- `[^\uc1bf]*`, whose escape the compiler replaces by the UTF-8 encoding of
that character. -/
def multiLevelRegexString : Bytes := [0x5b, 0x5e, 0xec, 0x86, 0xbf, 0x5d, 0x2a]

structure Subscription where
  pAppHandler : Option Nat
  pAppHandlerData : Nat
  pTopicRegex : Bytes
  isActive : Bool
  packetId : UInt16
  indexInPacket : UInt8
  maxQos : QoS
  pTopicName : Utf8String

namespace Subscription

/-- The scan of `isValidTopicName`, with the character before the iterator. The
iterator compares with the character behind it before it tests for the end; a
string is followed by a zero character, so that read is harmless. -/
def isValidFrom : Option UInt8 → Bytes → Bool
  | _, [] => true
  | prev, c :: rest =>
    if c = singleLevelWildcard then
      if prev.isNone then
        if rest.head? ≠ some levelSeparator ∧ rest ≠ [] then false
        else isValidFrom (some c) rest
      else if rest = [] then
        if prev ≠ some levelSeparator then false else isValidFrom (some c) rest
      else if prev ≠ some levelSeparator ∨ rest.head? ≠ some levelSeparator then false
      else isValidFrom (some c) rest
    else if c = multiLevelWildcard then
      if rest ≠ [] then false
      else if prev.isSome ∧ prev ≠ some levelSeparator then false
      else isValidFrom (some c) rest
    else isValidFrom (some c) rest

def isValidTopicName (pTopicName : Bytes) : Bool :=
  if pTopicName.length = 1 then
    if pTopicName.head? = some reservedTopic then false else true
  else isValidFrom none pTopicName

def regexPiece (c : UInt8) : Bytes :=
  if c = singleLevelWildcard then singleLevelRegexString
  else if c = multiLevelWildcard then multiLevelRegexString
  else if c = reservedTopic then [0x5c, reservedTopic]
  else [c]

def topicRegex (pTopicName : Bytes) : Bytes :=
  if pTopicName.contains multiLevelWildcard || pTopicName.contains singleLevelWildcard then
    pTopicName.flatMap regexPiece
  else []

def init (pTopicName : Utf8String) (maxQos : QoS) (pAppHandler : Option Nat)
    (pAppHandlerData : Nat) : Subscription where
  pAppHandler := pAppHandler
  pAppHandlerData := pAppHandlerData
  pTopicRegex := topicRegex pTopicName.data
  isActive := false
  packetId := 0
  indexInPacket := 0
  maxQos := maxQos
  pTopicName := pTopicName

def create (pTopicName : Option Utf8String) (maxQos : QoS) (pAppHandler : Option Nat)
    (pAppHandlerData : Nat) : Option Subscription :=
  match pTopicName, pAppHandler with
  | some topic, some handler =>
    if isValidTopicName topic.data then some (init topic maxQos (some handler) pAppHandlerData)
    else none
  | _, _ => none

def setActive (s : Subscription) (value : Bool) : Subscription := { s with isActive := value }

def setAckIndex (s : Subscription) (packetId : UInt16) (indexInPacket : UInt8) : Subscription :=
  { s with packetId := packetId, indexInPacket := indexInPacket }

def setMaxQos (s : Subscription) (maxQos : QoS) : Subscription := { s with maxQos := maxQos }

def isInSuback (s : Subscription) (packetId : UInt16) (indexInPacket : UInt8) : Bool :=
  packetId == s.packetId && indexInPacket == s.indexInPacket

end Subscription

end AwsIotSdk
