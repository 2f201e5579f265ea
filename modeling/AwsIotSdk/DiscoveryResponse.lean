import AwsIotSdk.Ascii
import AwsIotSdk.Shadow
import AwsIotSdk.SortedMap

/-! The response to a discovery, flattened. The loops over groups, cores and connectivity
entries share one code, and each loop ends at its first element that lacks a key. -/

namespace AwsIotSdk

structure ConnectivityInfo where
  groupName : Bytes
  ggcName : Bytes
  id : Bytes
  hostAddress : Bytes
  port : UInt16
  metadata : Bytes
  deriving DecidableEq, Repr

namespace JsonValue

variable {ν : Type}

def getMember (v : JsonValue ν) (name : Bytes) : Except Fault (JsonValue ν) :=
  match v.findMember name with
  | none => .error .assertionFailed
  | some x => .ok x

def getArray : JsonValue ν → Except Fault (List (JsonValue ν))
  | .array xs => .ok xs
  | _ => .error .assertionFailed

/-- What a copy of the string has, up to its first zero byte. -/
def cString (str : Bytes) : Bytes := str.takeWhile (· ≠ 0)

def getString : JsonValue ν → Except Fault Bytes
  | .string str => .ok (cString str)
  | _ => .error .assertionFailed

/-- The integers of the documents are exact; the library has them as 32 bits. -/
def getInt : JsonValue Int → Except Fault Int
  | .number n => if -2147483648 ≤ n ∧ n ≤ 2147483647 then .ok n else .error .assertionFailed
  | _ => .error .assertionFailed

end JsonValue

open JsonValue

namespace DiscoveryResponse

def groupArrayKey : Bytes := text "GGGroups"
def groupIdKey : Bytes := text "GGGroupId"
def ggcArrayKey : Bytes := text "Cores"
def ggcThingArnKey : Bytes := text "thingArn"
def rootCaKey : Bytes := text "CAs"
def connectivityInfoArrayKey : Bytes := text "Connectivity"
def idKey : Bytes := text "Id"
def hostAddressKey : Bytes := text "HostAddress"
def portKey : Bytes := text "PortNumber"
def metadataKey : Bytes := text "Metadata"

/-- The code and the variables that the loops fill. -/
structure Parsed where
  parsingResponse : ResponseCode
  connectivityInfoList : List ConnectivityInfo
  rootCaMap : SortedMap Bytes (List Bytes)

def Parsed.unexpected (p : Parsed) : Parsed :=
  { p with parsingResponse := .discoverResponseUnexpectedJsonStructureError }

def Parsed.add (p : Parsed) (info : ConnectivityInfo) (caList : List Bytes) : Parsed :=
  { p with
    connectivityInfoList := p.connectivityInfoList ++ [info]
    rootCaMap := p.rootCaMap.insert info.groupName caList }

def hasMembers (v : JsonValue Int) : List Bytes → Except Fault Bool
  | [] => .ok true
  | name :: names => do
    if ← v.hasMember name then hasMembers v names
    else .ok false

def getStrings : List (JsonValue Int) → Except Fault (List Bytes)
  | [] => .ok []
  | caItr :: rest => do
    let caString ← caItr.getString
    let caList ← getStrings rest
    .ok (caString :: caList)

def toUInt16 (n : Int) : UInt16 := UInt16.ofNat (n % 65536).toNat

def getMetadata (connectivityInfoItr : JsonValue Int) : Except Fault Bytes := do
  if ← connectivityInfoItr.hasMember metadataKey then
    (← connectivityInfoItr.getMember metadataKey).getString
  else .ok []

def parseConnectivityInfo (groupName coreName : Bytes) (connectivityInfoItr : JsonValue Int) :
    Except Fault ConnectivityInfo := do
  let id ← (← connectivityInfoItr.getMember idKey).getString
  let hostName ← (← connectivityInfoItr.getMember hostAddressKey).getString
  let metadata ← getMetadata connectivityInfoItr
  let port ← (← connectivityInfoItr.getMember portKey).getInt
  .ok ⟨groupName, coreName, id, hostName, toUInt16 port, metadata⟩

def parseConnectivity (groupItr : JsonValue Int) (groupName coreName : Bytes) :
    List (JsonValue Int) → Parsed → Except Fault Parsed
  | [], p => .ok p
  | connectivityInfoItr :: rest, p => do
    if ← hasMembers connectivityInfoItr [idKey, hostAddressKey, portKey] then
      let info ← parseConnectivityInfo groupName coreName connectivityInfoItr
      let caList ← getStrings (← (← groupItr.getMember rootCaKey).getArray)
      parseConnectivity groupItr groupName coreName rest (p.add info caList)
    else .ok p.unexpected

/-- The end of the inner loop is no end of this one. -/
def parseCores (groupItr : JsonValue Int) (groupName : Bytes) :
    List (JsonValue Int) → Parsed → Except Fault Parsed
  | [], p => .ok p
  | coreItr :: rest, p => do
    if ← hasMembers coreItr [ggcThingArnKey, connectivityInfoArrayKey] then
      let coreName ← (← coreItr.getMember ggcThingArnKey).getString
      let entries ← (← coreItr.getMember connectivityInfoArrayKey).getArray
      let p ← parseConnectivity groupItr groupName coreName entries p
      parseCores groupItr groupName rest p
    else .ok p.unexpected

def parseGroups : List (JsonValue Int) → Parsed → Except Fault Parsed
  | [], p => .ok p
  | groupItr :: rest, p => do
    if ← hasMembers groupItr [groupIdKey, ggcArrayKey, rootCaKey] then
      let groupName ← (← groupItr.getMember groupIdKey).getString
      let cores ← (← groupItr.getMember ggcArrayKey).getArray
      let p ← parseCores groupItr groupName cores p
      if p.parsingResponse ≠ .success then .ok p else parseGroups rest p
    else .ok p.unexpected

def getParsedResponse (responseDocument : JsonValue Int)
    (connectivityInfoList : List ConnectivityInfo)
    (rootCaMap : SortedMap Bytes (List Bytes)) : Except Fault Parsed := do
  let groups ← (← responseDocument.getMember groupArrayKey).getArray
  parseGroups groups ⟨.success, connectivityInfoList, rootCaMap⟩

/-! ### Documents of the documented types -/

structure ConnectivityEntry where
  id : Option Bytes
  hostAddress : Option Bytes
  portNumber : Option Int
  metadata : Option Bytes
  deriving DecidableEq, Repr

structure Core where
  thingArn : Option Bytes
  connectivity : Option (List ConnectivityEntry)
  deriving DecidableEq, Repr

structure Group where
  groupId : Option Bytes
  cores : Option (List Core)
  cas : Option (List Bytes)
  deriving DecidableEq, Repr

def IsString (v : JsonValue Int) (str : Bytes) : Prop := v = .string str

def IsNumber (v : JsonValue Int) (n : Int) : Prop := v = .number n

/-- The value is an array whose elements are in the relation, one by one. -/
def IsArrayOf {α : Type} (R : JsonValue Int → α → Prop) (v : JsonValue Int) (as : List α) : Prop :=
  ∃ xs, v = .array xs ∧ List.Forall₂ R xs as

/-- The member is there and in the relation, or neither is there. -/
def Member {α : Type} (R : JsonValue Int → α → Prop) (v : JsonValue Int) (name : Bytes)
    (a : Option α) : Prop :=
  Option.Rel R (v.findMember name) a

structure IsEntry (v : JsonValue Int) (e : ConnectivityEntry) : Prop where
  object : v.isObject = true
  id : Member IsString v idKey e.id
  hostAddress : Member IsString v hostAddressKey e.hostAddress
  portNumber : Member IsNumber v portKey e.portNumber
  metadata : Member IsString v metadataKey e.metadata

structure IsCore (v : JsonValue Int) (c : Core) : Prop where
  object : v.isObject = true
  thingArn : Member IsString v ggcThingArnKey c.thingArn
  connectivity : Member (IsArrayOf IsEntry) v connectivityInfoArrayKey c.connectivity

structure IsGroup (v : JsonValue Int) (g : Group) : Prop where
  object : v.isObject = true
  groupId : Member IsString v groupIdKey g.groupId
  cores : Member (IsArrayOf IsCore) v ggcArrayKey g.cores
  cas : Member (IsArrayOf IsString) v rootCaKey g.cas

structure IsDocument (v : JsonValue Int) (groups : Option (List Group)) : Prop where
  object : v.isObject = true
  groups : Member (IsArrayOf IsGroup) v groupArrayKey groups

end DiscoveryResponse

end AwsIotSdk
