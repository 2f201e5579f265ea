import AwsIotSdk.Actions
import AwsIotSdk.LockedProgram

/-! The threads that decide when a client is connected: user calls, the loop that
reads packets and the keepalive loop with its automatic reconnect. -/

namespace AwsIotSdk

inductive RequestLock where
  | syncActionRequest
  | syncActionResponse
  deriving DecidableEq, Repr

inductive Loop where
  | reader
  | keepalive
  deriving DecidableEq, Repr

/-- What the threads share, and records that are no part of the source: whether
the last user request was a disconnect that succeeded, whether a loop connected
in spite of it, whether a loop gave up a connection after the user last opened
one, the topics there were when the client was connected last, those resubscribed
on the present connection, and whether that failed. -/
structure LinkData where
  client : ClientState
  isNetworkConnected : Bool
  manual : Bool
  unwanted : Bool
  lost : Bool
  owed : List Bytes
  resubscribed : List Bytes
  writeFailed : Bool

/-- Where a thread is. The caller of a disconnect is a loop or the user, and the
flag of a connect says that the keepalive loop makes it. -/
inductive LinkPc where
  | idle
  | disconnectCall (caller : Option Loop)
  | disconnectBegin (caller : Option Loop)
  | disconnectCheck (caller : Option Loop)
  | disconnectClose (caller : Option Loop)
  | disconnectEnd (caller : Option Loop) (rc : ResponseCode)
  | connectCall (auto : Bool)
  | connectBegin (auto : Bool)
  | connectOpen (auto : Bool)
  | connectWrite (auto : Bool)
  | connectWait (auto : Bool)
  | connectWoken (auto : Bool)
  | connectResumed (auto : Bool)
  | connectEnd (auto : Bool) (rc : ResponseCode)
  | userCall (topic : Option (Bytes × SubscriptionPtr))
  | userBegin (topic : Option (Bytes × SubscriptionPtr))
  | userActing (topic : Option (Bytes × SubscriptionPtr))
  | userWait
  | reading (isWaitingForConnack : Bool)
  | readFailed
  | connacked (isWaitingForConnack : Bool)
  | storing (rc : ResponseCode) (isConnack isWaitingForConnack : Bool)
  | stored (rc : ResponseCode) (isConnack isWaitingForConnack : Bool)
  | erasing (isWaitingForConnack : Bool)
  | awaitingFirst
  | top
  | checkRequired
  | timer
  | pingCheck
  | pendingPing
  | pingConnected
  | pinging
  | pinged
  | requiring (l : Loop)
  | reconnecting
  | reconnected (rc : ResponseCode)
  | backoff
  | resubscribing (topics : List Bytes) (rc : ResponseCode)
  | settling (rc : ResponseCode)

inductive LinkChoice where
  | proceed
  | connect
  | disconnect
  | call (topic : Option (Bytes × SubscriptionPtr))
  | readLoop
  | keepaliveLoop
  | drop
  | setAutoReconnectEnabled (value : Bool)
  | result (rc : ResponseCode)
  | connack
  | pingresp
  | ack (rc : ResponseCode)
  | other
  | readError
  | elapsed

namespace LinkPc

def locks : LinkPc → List RequestLock
  | .disconnectBegin _ | .disconnectEnd _ _ | .connectBegin _ | .connectWait _ | .connectWoken _
  | .connectEnd _ _ | .userBegin _ | .userWait => [.syncActionRequest]
  | .disconnectCheck _ | .disconnectClose _ | .connectOpen _ | .connectWrite _
  | .connectResumed _ | .userActing _ => [.syncActionRequest, .syncActionResponse]
  | .stored _ _ _ => [.syncActionResponse]
  | _ => []

def wants : LinkPc → Option RequestLock
  | .disconnectCall _ | .connectCall _ | .userCall _ => some .syncActionRequest
  | .disconnectBegin _ | .connectBegin _ | .connectWoken _ | .userBegin _ | .storing _ _ _ =>
    some .syncActionResponse
  | _ => none

end LinkPc

namespace LinkData

def mapClient (d : LinkData) (f : ClientState → ClientState) : LinkData :=
  { d with client := f d.client }

def topics (d : LinkData) : List Bytes := d.client.subscriptionMap.entries.map Prod.fst

def writeRc (d : LinkData) (rc : ResponseCode) : ResponseCode :=
  if d.isNetworkConnected then rc else .networkDisconnectedError

def resetResponse (d : LinkData) : LinkData :=
  d.mapClient (·.mapCore ({ · with syncActionResponse := .mqttRequestTimeoutError }))

def beginDisconnect (d : LinkData) (caller : Option Loop) : LinkPc × LinkData :=
  if d.client.isConnected then
    (.disconnectClose caller,
      { d with client := d.client.setConnected false, lost := d.lost || caller.isSome })
  else (.disconnectEnd caller .networkDisconnectedError, d)

def endDisconnect (d : LinkData) (caller : Option Loop) (rc : ResponseCode) : LinkPc × LinkData :=
  match caller with
  | none => (.idle, { d with manual := d.manual || rc = .success })
  | some l => (.requiring l, d)

def beginConnect (d : LinkData) (auto : Bool) : LinkData :=
  let d := d.resetResponse
  { d with
    client := d.client.mapCore (fun core => (core.registerPendingAck
      ConnectActionAsync.connackReservedPacketId (some .syncActionHandler)).2)
    unwanted := d.unwanted || (auto && d.manual) }

def openConnection (d : LinkData) (auto : Bool) (rc : ResponseCode) : LinkPc × LinkData :=
  if rc = .success then
    (.connectWrite auto, { d with
      isNetworkConnected := true
      lost := d.lost && auto
      resubscribed := []
      writeFailed := false })
  else (.connectEnd auto rc, d)

def writeConnect (d : LinkData) (auto : Bool) (rc : ResponseCode) : LinkPc × LinkData :=
  if d.writeRc rc = .success then
    (if d.client.pendingAckMap.contains ConnectActionAsync.connackReservedPacketId then
      .connectWait auto
    else .connectEnd auto .success, d)
  else
    (.connectEnd auto (d.writeRc rc),
      { d with
        client := d.client.mapCore
          (·.deletePendingAck ConnectActionAsync.connackReservedPacketId)
        isNetworkConnected := false })

/-- An accepted connection in `handleConnack`, before the ack is forwarded. -/
def acceptConnack (d : LinkData) : LinkData :=
  { d with client := d.client.setConnected true, owed := d.topics }

def forwardConnack (d : LinkData) (isWaitingForConnack : Bool) : LinkPc × LinkData :=
  match d.client.pendingHandler ConnectActionAsync.connackReservedPacketId with
  | some .syncActionHandler =>
    (.storing .mqttConnackConnectionAccepted true isWaitingForConnack, d)
  | some (.application _) | none =>
    (.reading isWaitingForConnack, d.mapClient (·.mapCore (·.forwardReceivedAck
      ConnectActionAsync.connackReservedPacketId .mqttConnackConnectionAccepted)))

def storeResponse (d : LinkData) (rc : ResponseCode) : LinkData :=
  d.mapClient (·.mapCore (·.callAckHandler .syncActionHandler
    ConnectActionAsync.connackReservedPacketId rc))

def writeSubscribe (d : LinkData) (ts : List Bytes) (rc : ResponseCode) : LinkPc × LinkData :=
  if d.writeRc rc = .success then
    (.resubscribing (ts.drop maxTopicsInOneSubscribePacket) .success,
      { d with resubscribed := d.resubscribed ++ ts.take maxTopicsInOneSubscribePacket })
  else (.settling (d.writeRc rc), { d with writeFailed := true })

end LinkData

open LinkData in
def LinkPc.next : LinkPc → LinkChoice → LinkData → Option (LinkPc × LinkData)
  | .idle, .connect, d => some (.connectCall false, { d with manual := false })
  | .idle, .disconnect, d => some (.disconnectCall none, d)
  | .idle, .call topic, d => some (.userCall topic, d)
  | .idle, .readLoop, d => some (.reading !d.client.isConnected, d)
  | .idle, .keepaliveLoop, d => some (.awaitingFirst, d)
  | .idle, .drop, d => some (.idle, { d with isNetworkConnected := false })
  | .idle, .setAutoReconnectEnabled value, d =>
    some (.idle, d.mapClient ({ · with isAutoReconnectEnabled := value }))
  | .disconnectCall caller, .proceed, d => some (.disconnectBegin caller, d)
  | .disconnectBegin caller, .proceed, d => some (.disconnectCheck caller, d.resetResponse)
  | .disconnectCheck caller, .proceed, d => some (d.beginDisconnect caller)
  | .disconnectClose caller, .proceed, d =>
    some (.disconnectEnd caller .success,
      { d.mapClient DisconnectActionAsync.deactivate with isNetworkConnected := false })
  | .disconnectEnd caller rc, .proceed, d => some (d.endDisconnect caller rc)
  | .connectCall auto, .proceed, d => some (.connectBegin auto, d)
  | .connectBegin auto, .proceed, d => some (.connectOpen auto, d.beginConnect auto)
  | .connectOpen auto, .result rc, d => some (d.openConnection auto rc)
  | .connectWrite auto, .result rc, d => some (d.writeConnect auto rc)
  | .connectWait auto, .proceed, d => some (.connectWoken auto, d)
  | .connectWoken auto, .proceed, d => some (.connectResumed auto, d)
  | .connectResumed auto, .proceed, d =>
    some (.connectEnd auto d.client.syncActionResponse, d)
  | .connectEnd auto rc, .proceed, d => some (if auto then .reconnected rc else .idle, d)
  | .userCall topic, .proceed, d => some (.userBegin topic, d)
  | .userBegin topic, .proceed, d => some (.userActing topic, d.resetResponse)
  | .userActing topic, .proceed, d =>
    some (.userWait, d.mapClient (fun s => topic.elim s (fun e => s.insertTopic e.1 e.2)))
  | .userWait, .proceed, d => some (.idle, d)
  | .reading w, .connack, d => some (.connacked w, d.acceptConnack)
  | .reading w, .pingresp, d => some (.reading w, d.mapClient (·.setPingreqPending false))
  | .reading w, .ack rc, d => some (.storing rc false w, d)
  | .reading w, .other, d => some (.reading w, d)
  | .reading w, .readError, d => some (if w then .reading true else .readFailed, d)
  | .readFailed, .proceed, d =>
    some (if d.client.isConnected then .disconnectCall (some .reader) else .reading true, d)
  | .connacked w, .proceed, d => some (d.forwardConnack w)
  | .storing rc k w, .proceed, d => some (.stored rc k w, d)
  | .stored rc k w, .proceed, d =>
    some (if k then .erasing w else .reading w, d.storeResponse rc)
  | .erasing w, .proceed, d =>
    some (.reading w, d.mapClient (·.mapCore (·.deletePendingAck
      ConnectActionAsync.connackReservedPacketId)))
  | .awaitingFirst, .proceed, d =>
    some (if d.client.isConnected then .top else .awaitingFirst, d)
  | .top, .proceed, d =>
    some (if d.client.isAutoReconnectEnabled then .checkRequired else .timer, d)
  | .checkRequired, .proceed, d =>
    some (if d.client.isAutoReconnectRequired then .reconnecting else .timer, d)
  | .timer, .proceed, d => some (.top, d)
  | .timer, .elapsed, d => some (.pingCheck, d)
  | .pingCheck, .proceed, d =>
    some (if d.client.isPingreqPending then .pendingPing else .pingConnected, d)
  | .pendingPing, .proceed, d =>
    some (if d.client.isConnected then .disconnectCall (some .keepalive)
      else .requiring .keepalive, d)
  | .pingConnected, .proceed, d => some (if d.client.isConnected then .pinging else .top, d)
  | .pinging, .result rc, d =>
    some (if d.writeRc rc = .success then .pinged else .disconnectCall (some .keepalive), d)
  | .pinged, .proceed, d => some (.top, d.mapClient (·.setPingreqPending true))
  | .requiring l, .proceed, d =>
    some (match l with
      | .reader => .reading true
      | .keepalive => .top, d.mapClient (·.setAutoReconnectRequired true))
  | .reconnecting, .proceed, d =>
    some (.connectCall true, d.mapClient (·.setPingreqPending false))
  | .reconnected rc, .proceed, d =>
    if rc = .mqttConnackConnectionAccepted then
      some (.resubscribing d.topics rc, d.mapClient (·.setAutoReconnectRequired false))
    else some (.backoff, d)
  | .backoff, .proceed, d => some (.top, d)
  | .resubscribing [] rc, .proceed, d => some (.settling rc, d)
  | .resubscribing (topic :: ts) _, .result rc, d => some (d.writeSubscribe (topic :: ts) rc)
  | .settling rc, .proceed, d =>
    if rc = .networkDisconnectedError then some (.disconnectCall (some .keepalive), d)
    else some (.top, d.mapClient (·.setAutoReconnectRequired false))
  | _, _, _ => none

theorem LinkPc.wants_new (p : LinkPc) (l : RequestLock) (h : p.wants = some l) : l ∉ p.locks := by
  cases p <;> cases h <;> simp [locks]

inductive LinkPc.Step (d : LinkData) :
    LinkPc → LinkChoice → LinkPc → LinkData → Prop
  | connect : Step d .idle .connect (.connectCall false) { d with manual := false }
  | disconnect : Step d .idle .disconnect (.disconnectCall none) d
  | call {topic} : Step d .idle (.call topic) (.userCall topic) d
  | readLoop {w} : Step d .idle .readLoop (.reading w) d
  | keepaliveLoop : Step d .idle .keepaliveLoop .awaitingFirst d
  | drop : Step d .idle .drop .idle { d with isNetworkConnected := false }
  | enable {value} : Step d .idle (.setAutoReconnectEnabled value) .idle
      (d.mapClient ({ · with isAutoReconnectEnabled := value }))
  | lockDisconnect {k} : Step d (.disconnectCall k) .proceed (.disconnectBegin k) d
  | resetDisconnect {k} :
    Step d (.disconnectBegin k) .proceed (.disconnectCheck k) d.resetResponse
  | closing {k} : Step d (.disconnectCheck k) .proceed (.disconnectClose k)
      { d with client := d.client.setConnected false, lost := d.lost || k.isSome }
  | notConnected {k rc} : rc ≠ .success →
    Step d (.disconnectCheck k) .proceed (.disconnectEnd k rc) d
  | close {k} : Step d (.disconnectClose k) .proceed (.disconnectEnd k .success)
      { d.mapClient DisconnectActionAsync.deactivate with isNetworkConnected := false }
  | leaveUser {rc} : Step d (.disconnectEnd none rc) .proceed .idle
      { d with manual := d.manual || rc = .success }
  | leaveLoop {l rc} : Step d (.disconnectEnd (some l) rc) .proceed (.requiring l) d
  | lockConnect {auto} : Step d (.connectCall auto) .proceed (.connectBegin auto) d
  | register {auto} :
    Step d (.connectBegin auto) .proceed (.connectOpen auto) (d.beginConnect auto)
  | opened {auto rc} : Step d (.connectOpen auto) (.result rc) (.connectWrite auto) { d with
      isNetworkConnected := true
      lost := d.lost && auto
      resubscribed := []
      writeFailed := false }
  | notOpened {auto rc} : Step d (.connectOpen auto) (.result rc) (.connectEnd auto rc) d
  | written {auto rc} : Step d (.connectWrite auto) (.result rc) (.connectWait auto) d
  | unanswered {auto rc} :
    Step d (.connectWrite auto) (.result rc) (.connectEnd auto .success) d
  | notWritten {auto rc rc'} : Step d (.connectWrite auto) (.result rc) (.connectEnd auto rc')
      { d with
        client := d.client.mapCore
          (·.deletePendingAck ConnectActionAsync.connackReservedPacketId)
        isNetworkConnected := false }
  | wake {auto} : Step d (.connectWait auto) .proceed (.connectWoken auto) d
  | resume {auto} : Step d (.connectWoken auto) .proceed (.connectResumed auto) d
  | answer {auto} : Step d (.connectResumed auto) .proceed
      (.connectEnd auto d.client.syncActionResponse) d
  | leaveConnect {rc} : Step d (.connectEnd false rc) .proceed .idle d
  | leaveReconnect {rc} : Step d (.connectEnd true rc) .proceed (.reconnected rc) d
  | lockCall {topic} : Step d (.userCall topic) .proceed (.userBegin topic) d
  | resetCall {topic} : Step d (.userBegin topic) .proceed (.userActing topic) d.resetResponse
  | act {topic} : Step d (.userActing topic) .proceed .userWait
      (d.mapClient (fun s => topic.elim s (fun e => s.insertTopic e.1 e.2)))
  | leaveCall : Step d .userWait .proceed .idle d
  | connack {w} : Step d (.reading w) .connack (.connacked w) d.acceptConnack
  | pingresp {w} :
    Step d (.reading w) .pingresp (.reading w) (d.mapClient (·.setPingreqPending false))
  | ack {w rc} : Step d (.reading w) (.ack rc) (.storing rc false w) d
  | other {w} : Step d (.reading w) .other (.reading w) d
  | errorAgain : Step d (.reading true) .readError (.reading true) d
  | error : Step d (.reading false) .readError .readFailed d
  | failedConnected : d.client.isConnected = true →
    Step d .readFailed .proceed (.disconnectCall (some .reader)) d
  | failedDisconnected : Step d .readFailed .proceed (.reading true) d
  | syncConnack {w rc} : Step d (.connacked w) .proceed (.storing rc true w) d
  | otherConnack {w rc} : Step d (.connacked w) .proceed (.reading w)
      (d.mapClient (·.mapCore (·.forwardReceivedAck
        ConnectActionAsync.connackReservedPacketId rc)))
  | lockStore {rc k w} : Step d (.storing rc k w) .proceed (.stored rc k w) d
  | storeConnack {rc w} :
    Step d (.stored rc true w) .proceed (.erasing w) (d.storeResponse rc)
  | storeAck {rc w} : Step d (.stored rc false w) .proceed (.reading w) (d.storeResponse rc)
  | erase {w} : Step d (.erasing w) .proceed (.reading w)
      (d.mapClient (·.mapCore (·.deletePendingAck ConnectActionAsync.connackReservedPacketId)))
  | first : Step d .awaitingFirst .proceed .top d
  | notFirst : Step d .awaitingFirst .proceed .awaitingFirst d
  | enabled : Step d .top .proceed .checkRequired d
  | disabled : Step d .top .proceed .timer d
  | required : d.client.isAutoReconnectRequired = true →
    Step d .checkRequired .proceed .reconnecting d
  | notRequired : Step d .checkRequired .proceed .timer d
  | tick : Step d .timer .proceed .top d
  | elapsed : Step d .timer .elapsed .pingCheck d
  | pending : d.client.isPingreqPending = true → Step d .pingCheck .proceed .pendingPing d
  | notPending : Step d .pingCheck .proceed .pingConnected d
  | pendingConnected :
    Step d .pendingPing .proceed (.disconnectCall (some .keepalive)) d
  | pendingDisconnected : Step d .pendingPing .proceed (.requiring .keepalive) d
  | ping : d.client.isConnected = true → Step d .pingConnected .proceed .pinging d
  | noPing : Step d .pingConnected .proceed .top d
  | pinged {rc} : Step d .pinging (.result rc) .pinged d
  | pingFailed {rc} : Step d .pinging (.result rc) (.disconnectCall (some .keepalive)) d
  | setPending : Step d .pinged .proceed .top (d.mapClient (·.setPingreqPending true))
  | requireReader : Step d (.requiring .reader) .proceed (.reading true)
      (d.mapClient (·.setAutoReconnectRequired true))
  | requireKeepalive : Step d (.requiring .keepalive) .proceed .top
      (d.mapClient (·.setAutoReconnectRequired true))
  | reconnect : Step d .reconnecting .proceed (.connectCall true)
      (d.mapClient (·.setPingreqPending false))
  | accepted : Step d (.reconnected .mqttConnackConnectionAccepted) .proceed
      (.resubscribing d.topics .mqttConnackConnectionAccepted)
      (d.mapClient (·.setAutoReconnectRequired false))
  | refused {rc} : rc ≠ .mqttConnackConnectionAccepted →
    Step d (.reconnected rc) .proceed .backoff d
  | backoff : Step d .backoff .proceed .top d
  | resubscribed {rc} : Step d (.resubscribing [] rc) .proceed (.settling rc) d
  | subscribed {ts rc rc'} : Step d (.resubscribing ts rc) (.result rc')
      (.resubscribing (ts.drop maxTopicsInOneSubscribePacket) .success)
      { d with resubscribed := d.resubscribed ++ ts.take maxTopicsInOneSubscribePacket }
  | notSubscribed {ts rc rc' rc''} : Step d (.resubscribing ts rc) (.result rc')
      (.settling rc'') { d with writeFailed := true }
  | settledDisconnected {rc} :
    Step d (.settling rc) .proceed (.disconnectCall (some .keepalive)) d
  | settled {rc} : Step d (.settling rc) .proceed .top
      (d.mapClient (·.setAutoReconnectRequired false))

theorem LinkPc.step_of_next {p p' : LinkPc} {c : LinkChoice} {d d' : LinkData}
    (h : p.next c d = some (p', d')) : Step d p c p' d' := by
  cases p with
  | disconnectCheck k =>
    cases c with
    | proceed =>
      change some (d.beginDisconnect k) = some (p', d') at h
      rw [LinkData.beginDisconnect] at h
      split_ifs at h <;> cases h
      · exact .closing
      · exact .notConnected nofun
    | _ => cases h
  | disconnectEnd k rc => cases k <;> cases c <;> cases h <;> constructor
  | connectOpen auto =>
    cases c with
    | result rc =>
      change some (d.openConnection auto rc) = some (p', d') at h
      rw [LinkData.openConnection] at h
      split_ifs at h <;> cases h
      · exact .opened
      · exact .notOpened
    | _ => cases h
  | connectWrite auto =>
    cases c with
    | result rc =>
      change some (d.writeConnect auto rc) = some (p', d') at h
      rw [LinkData.writeConnect] at h
      split_ifs at h <;> cases h
      · exact .written
      · exact .unanswered
      · exact .notWritten
    | _ => cases h
  | connectEnd auto rc => cases auto <;> cases c <;> cases h <;> constructor
  | reading w => cases w <;> cases c <;> cases h <;> constructor
  | connacked w =>
    cases c with
    | proceed =>
      change some (d.forwardConnack w) = some (p', d') at h
      rw [LinkData.forwardConnack] at h
      split at h <;> cases h <;> constructor
    | _ => cases h
  | stored rc k w => cases k <;> cases c <;> cases h <;> constructor
  | readFailed =>
    cases c <;> cases h
    split_ifs with hc
    · exact .failedConnected hc
    · exact .failedDisconnected
  | awaitingFirst | top | pendingPing | pinging =>
    cases c <;> cases h
    split_ifs <;> constructor
  | checkRequired =>
    cases c <;> cases h
    split_ifs with hc
    · exact .required hc
    · exact .notRequired
  | pingCheck =>
    cases c <;> cases h
    split_ifs with hc
    · exact .pending hc
    · exact .notPending
  | pingConnected =>
    cases c <;> cases h
    split_ifs with hc
    · exact .ping hc
    · exact .noPing
  | requiring l => cases l <;> cases c <;> cases h <;> constructor
  | reconnected rc =>
    cases c with
    | proceed =>
      change (if rc = .mqttConnackConnectionAccepted then
        some (LinkPc.resubscribing d.topics rc, d.mapClient (·.setAutoReconnectRequired false))
        else some (.backoff, d)) = some (p', d') at h
      split_ifs at h with hrc <;> cases h
      · subst hrc
        exact .accepted
      · exact .refused hrc
    | _ => cases h
  | resubscribing ts rc =>
    cases ts with
    | nil =>
      cases c <;> cases h
      exact .resubscribed
    | cons topic ts =>
      cases c with
      | result rc =>
        change some (d.writeSubscribe (topic :: ts) rc) = some (p', d') at h
        rw [LinkData.writeSubscribe] at h
        split_ifs at h <;> cases h
        · exact .subscribed
        · exact .notSubscribed
      | _ => cases h
  | settling rc =>
    cases c with
    | proceed =>
      change (if rc = .networkDisconnectedError then
        some (LinkPc.disconnectCall (some .keepalive), d)
        else some (.top, d.mapClient (·.setAutoReconnectRequired false))) = some (p', d') at h
      split_ifs at h <;> cases h <;> constructor
    | _ => cases h
  | _ => cases c <;> cases h <;> constructor

theorem LinkPc.locks_wanted {p p' : LinkPc} {c : LinkChoice} {d d' : LinkData}
    (h : p.next c d = some (p', d')) (l : RequestLock) (hl : l ∈ p'.locks) :
    l ∈ p.locks ∨ p.wants = some l := by
  -- a step keeps its locks, holds none after it, or holds others
  cases step_of_next h <;> first
    | exact .inl hl
    | exact absurd hl List.not_mem_nil
    | simp only [locks, wants, List.mem_cons, List.not_mem_nil, or_false,
        Option.some.injEq] at hl ⊢
      tauto

def linkProgram : LockedProgram Nat RequestLock LinkPc LinkChoice LinkData where
  holds p l := decide (l ∈ p.locks)
  wants := LinkPc.wants
  next _ := LinkPc.next
  wants_new p l h := decide_eq_false (p.wants_new l h)
  holds_wanted h l hl := by
    simpa using LinkPc.locks_wanted h l (of_decide_eq_true hl)

end AwsIotSdk
