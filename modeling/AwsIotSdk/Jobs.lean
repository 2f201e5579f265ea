import AwsIotSdk.Ascii
import AwsIotSdk.SortedMap
import AwsIotSdk.Utf8String

/-! The topics and the request payloads of the Jobs service, which are put together as
text. -/

namespace AwsIotSdk

inductive JobExecutionTopicType where
  | jobUnrecognizedTopic
  | jobGetPendingTopic
  | jobStartNextTopic
  | jobDescribeTopic
  | jobUpdateTopic
  | jobNotifyTopic
  | jobNotifyNextTopic
  | jobWildcardTopic
  deriving DecidableEq, Repr

inductive JobExecutionTopicReplyType where
  | jobUnrecognizedTopicType
  | jobRequestType
  | jobAcceptedReplyType
  | jobRejectedReplyType
  | jobWildcardReplyType
  deriving DecidableEq, Repr

inductive JobExecutionStatus where
  | jobExecutionStatusNotSet
  | jobExecutionQueued
  | jobExecutionInProgress
  | jobExecutionFailed
  | jobExecutionSucceeded
  | jobExecutionCanceled
  | jobExecutionRejected
  | jobExecutionUnknownStatus
  deriving DecidableEq, Repr

structure Jobs where
  thingName : Bytes
  clientToken : Bytes
  deriving DecidableEq, Repr

namespace Jobs

/-! ### Topics -/

def baseThingsTopic : Bytes := text "$aws/things/"

def baseTopicRequiresJobId : JobExecutionTopicType → Bool
  | .jobUpdateTopic | .jobDescribeTopic => true
  | _ => false

def getOperationForBaseTopic : JobExecutionTopicType → Bytes
  | .jobUpdateTopic => text "update"
  | .jobNotifyTopic => text "notify"
  | .jobNotifyNextTopic => text "notify-next"
  | .jobGetPendingTopic | .jobDescribeTopic => text "get"
  | .jobStartNextTopic => text "start-next"
  | .jobWildcardTopic => text "+"
  | .jobUnrecognizedTopic => []

def getSuffixForTopicType : JobExecutionTopicReplyType → Bytes
  | .jobAcceptedReplyType => text "/accepted"
  | .jobRejectedReplyType => text "/rejected"
  | .jobWildcardReplyType => text "/#"
  | .jobRequestType | .jobUnrecognizedTopicType => []

def getJobTopic (s : Jobs) (topicType : JobExecutionTopicType)
    (replyType : JobExecutionTopicReplyType) (jobId : Bytes) : Option Utf8String :=
  if s.thingName = [] then none
  else if (topicType = .jobNotifyTopic ∨ topicType = .jobNotifyNextTopic) ∧
      replyType ≠ .jobRequestType then none
  else if (topicType = .jobGetPendingTopic ∨ topicType = .jobStartNextTopic ∨
      topicType = .jobNotifyTopic ∨ topicType = .jobNotifyNextTopic) ∧ jobId ≠ [] then none
  else
    let requireJobId := baseTopicRequiresJobId topicType
    if jobId = [] ∧ requireJobId then none
    else
      let operation := getOperationForBaseTopic topicType
      if operation = [] then none
      else
        let suffix := getSuffixForTopicType replyType
        if requireJobId then
          Utf8String.create (baseThingsTopic ++ s.thingName ++ text "/jobs/" ++ jobId ++ text "/" ++
            operation ++ suffix)
        else if topicType = .jobWildcardTopic then
          Utf8String.create (baseThingsTopic ++ s.thingName ++ text "/jobs/#")
        else
          Utf8String.create (baseThingsTopic ++ s.thingName ++ text "/jobs/" ++ operation ++ suffix)

/-! ### Payloads -/

def getExecutionStatus : JobExecutionStatus → Bytes
  | .jobExecutionQueued => text "QUEUED"
  | .jobExecutionInProgress => text "IN_PROGRESS"
  | .jobExecutionFailed => text "FAILED"
  | .jobExecutionSucceeded => text "SUCCEEDED"
  | .jobExecutionCanceled => text "CANCELED"
  | .jobExecutionRejected => text "REJECTED"
  | .jobExecutionStatusNotSet | .jobExecutionUnknownStatus => []

def quote : UInt8 := 0x22
def backslash : UInt8 := 0x5c
def comma : UInt8 := 0x2c
def colon : UInt8 := 0x3a
def openBrace : UInt8 := 0x7b
def closeBrace : UInt8 := 0x7d

def escapeChar (c : UInt8) : Bytes :=
  if c = 0x0a then text "\\n"
  else if c = 0x0d then text "\\r"
  else if c = 0x09 then text "\\t"
  else if c = quote then [backslash, quote]
  else if c = backslash then [backslash, backslash]
  else [c]

def escape (value : Bytes) : Bytes := value.flatMap escapeChar

/-- The loop over the entries; `isBegin` at the first of them. -/
def serializeEntries : (isBegin : Bool) → List (Bytes × Bytes) → Bytes
  | _, [] => []
  | isBegin, (key, value) :: es =>
    (if isBegin then [quote] else [comma, quote]) ++ escape key ++ [quote, colon, quote] ++
      escape value ++ [quote] ++ serializeEntries false es

def serializeStatusDetails (statusDetailsMap : SortedMap Bytes Bytes) : Bytes :=
  openBrace :: serializeEntries true statusDetailsMap.entries ++ [closeBrace]

/-- The name and the colon of a member. -/
def memberName (name : Bytes) : Bytes := quote :: name ++ [quote, colon]

/-- A member whose value is put between quotes as it is. -/
def stringMember (name value : Bytes) : Bytes := memberName name ++ quote :: value ++ [quote]

def toDecimal (n : Int) : Bytes := text (toString n)

def boolText (b : Bool) : Bytes := if b then text "true" else text "false"

/-- `expectedVersion` and `executionNumber` of 0 are left out. -/
def serializeJobExecutionUpdatePayload (s : Jobs) (status : JobExecutionStatus)
    (statusDetailsMap : SortedMap Bytes Bytes) (expectedVersion executionNumber : Int)
    (includeJobExecutionState includeJobDocument : Bool) : Bytes :=
  let executionStatus := getExecutionStatus status
  if executionStatus = [] then []
  else
    openBrace :: stringMember (text "status") executionStatus ++
    (if statusDetailsMap.entries ≠ [] then
      comma :: memberName (text "statusDetails") ++ serializeStatusDetails statusDetailsMap
    else []) ++
    (if 0 < expectedVersion then
      comma :: stringMember (text "expectedVersion") (toDecimal expectedVersion)
    else []) ++
    (if 0 < executionNumber then
      comma :: stringMember (text "executionNumber") (toDecimal executionNumber)
    else []) ++
    (if includeJobExecutionState then
      comma :: stringMember (text "includeJobExecutionState") (text "true")
    else []) ++
    (if includeJobDocument then
      comma :: stringMember (text "includeJobDocument") (text "true")
    else []) ++
    (if s.clientToken ≠ [] then comma :: stringMember (text "clientToken") s.clientToken
    else []) ++
    [closeBrace]

/-- No comma is put before the client token. -/
def serializeDescribeJobExecutionPayload (s : Jobs) (executionNumber : Int)
    (includeJobDocument : Bool) : Bytes :=
  openBrace :: stringMember (text "includeJobDocument") (boolText includeJobDocument) ++
  (if 0 < executionNumber then
    comma :: stringMember (text "executionNumber") (toDecimal executionNumber)
  else []) ++
  (if s.clientToken ≠ [] then stringMember (text "clientToken") s.clientToken else []) ++
  [closeBrace]

def serializeStartNextPendingJobExecutionPayload (s : Jobs)
    (statusDetailsMap : SortedMap Bytes Bytes) : Bytes :=
  openBrace ::
  (if statusDetailsMap.entries ≠ [] then
    memberName (text "statusDetails") ++ serializeStatusDetails statusDetailsMap
  else []) ++
  (if s.clientToken ≠ [] then
    (if statusDetailsMap.entries ≠ [] then [comma] else []) ++
      stringMember (text "clientToken") s.clientToken
  else []) ++
  [closeBrace]

def serializeClientTokenPayload (s : Jobs) : Bytes :=
  if s.clientToken ≠ [] then
    openBrace :: stringMember (text "clientToken") s.clientToken ++ [closeBrace]
  else [openBrace, closeBrace]

end Jobs

end AwsIotSdk
