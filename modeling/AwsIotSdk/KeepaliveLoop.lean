import AwsIotSdk.ResubscribeLoop

/-! The loop of the keepalive thread: reconnecting after a loss, with the callbacks to the
application and the backoff, and the ping. -/

namespace AwsIotSdk

open ClientState AwsIotSdk.Action

/-- Which handlers the application has set. -/
structure KeepaliveHandlers where
  disconnect : Bool
  reconnect : Bool
  resubscribe : Bool
  deriving DecidableEq, Repr

inductive KeepaliveCallback where
  | disconnected (clientId : Bytes)
  | reconnected (clientId : Bytes) (rc : ResponseCode)
  | resubscribed (clientId : Bytes) (rc : ResponseCode)
  deriving DecidableEq, Repr

/-- What one iteration meets: what the other threads did before it and do while it waits
for a response, whether the time of the next ping has passed, and the settings it reads. -/
structure KeepaliveTurn (σ : Type) where
  threadContinue : Bool
  handlers : KeepaliveHandlers
  minReconnectBackoffTimeout : Int
  maxReconnectBackoffTimeout : Int
  isElapsed : Bool
  others : ClientState × σ → ClientState × σ
  awaitConnack : ClientState → ClientState
  awaitDisconnect : ClientState → ClientState

/-- The callbacks, the codes of the reconnect attempts and the times slept after them are
recorded, oldest first. -/
structure KeepaliveActionRunner (σ : Type) where
  client : ClientState
  connection : σ
  reconnectBackoffTimer : Int
  maxBackoffValue : Int
  callbacks : List KeepaliveCallback
  attempts : List ResponseCode
  sleeps : List Int

def ConnectPacket.getClientId (p : ConnectPacket) : Bytes :=
  match p.pClientId with
  | none => []
  | some id => id.toStdString

namespace KeepaliveActionRunner

variable {σ : Type}

def callBack (r : KeepaliveActionRunner σ) (hasHandler : Bool) (callback : KeepaliveCallback) :
    KeepaliveActionRunner σ :=
  if hasHandler then { r with callbacks := r.callbacks ++ [callback] } else r

/-- The disconnect handler is called with the id of the stored connect data. -/
def callDisconnectHandler (t : KeepaliveTurn σ) (r : KeepaliveActionRunner σ) :
    KeepaliveActionRunner σ :=
  match r.client.pConnectData with
  | none => r
  | some p => r.callBack t.handlers.disconnect (.disconnected p.getClientId)

/-- The callback of a loss, which also sets the backoff to its start. -/
def announceLoss (t : KeepaliveTurn σ) (r : KeepaliveActionRunner σ) : KeepaliveActionRunner σ :=
  if r.client.triggerDisconnectCallback then
    { callDisconnectHandler t r with
      reconnectBackoffTimer := t.minReconnectBackoffTimeout
      maxBackoffValue := t.maxReconnectBackoffTimeout }
  else r

variable [NetworkConnection σ]

def performDisconnect (t : KeepaliveTurn σ) (r : KeepaliveActionRunner σ) :
    ResponseCode × KeepaliveActionRunner σ :=
  let (rc, client, c) := r.client.performAction r.connection t.awaitDisconnect .disconnect
    (.disconnect DisconnectPacket.create)
  (rc, { r with client := client, connection := c })

def setRequired (r : KeepaliveActionRunner σ) (value : Bool) : KeepaliveActionRunner σ :=
  { r with client := r.client.setAutoReconnectRequired value }

/-- After an accepted reconnect. -/
def resume (t : KeepaliveTurn σ) (p : ConnectPacket) (r : KeepaliveActionRunner σ) :
    Except Fault (KeepaliveActionRunner σ) :=
  let r := r.setRequired false
  if r.client.subscriptionMap.entries.isEmpty then .ok (r.setRequired false)
  else
    match resubscribe t.threadContinue r.client r.connection with
    | .error f => .error f
    | .ok w =>
      let r := { r with client := w.state, connection := w.connection }
      let r := r.callBack t.handlers.resubscribe (.resubscribed p.getClientId w.rc)
      if w.rc ≠ .networkDisconnectedError then .ok (r.setRequired false)
      else .ok ((performDisconnect t r).2.setRequired true)

/-- After a reconnect that failed. -/
def backOff (r : KeepaliveActionRunner σ) : KeepaliveActionRunner σ :=
  let timer :=
    if r.reconnectBackoffTimer < r.maxBackoffValue then
      r.reconnectBackoffTimer + r.reconnectBackoffTimer
    else r.reconnectBackoffTimer
  { r with
    client := r.client.setDisconnectCallbackPending false
    reconnectBackoffTimer := timer
    sleeps := r.sleeps ++ [timer] }

/-- The stored connect data is used without a test. -/
def attemptReconnect (t : KeepaliveTurn σ) (r : KeepaliveActionRunner σ) :
    Except Fault (ResponseCode × ConnectPacket × KeepaliveActionRunner σ) :=
  match r.client.pConnectData with
  | none => .error .nullDereference
  | some p =>
    let (rc, client, c) := r.client.performAction r.connection t.awaitConnack .connect (.connect p)
    let r := { r with client := client, connection := c, attempts := r.attempts ++ [rc] }
    .ok (rc, p, r.callBack t.handlers.reconnect (.reconnected p.getClientId rc))

def reconnect (t : KeepaliveTurn σ) (r : KeepaliveActionRunner σ) :
    Except Fault (KeepaliveActionRunner σ) :=
  let r := { r with client := r.client.setPingreqPending false }
  match attemptReconnect t (announceLoss t r) with
  | .error f => .error f
  | .ok (rc, p, r) =>
    if rc = .mqttConnackConnectionAccepted then resume t p r else .ok r.backOff

/-- A loss while no reconnect is wanted. -/
def giveUp (t : KeepaliveTurn σ) (r : KeepaliveActionRunner σ) : KeepaliveActionRunner σ :=
  if r.client.isAutoReconnectRequired && r.client.triggerDisconnectCallback then
    let r := callDisconnectHandler t r
    { r with client := r.client.setDisconnectCallbackPending false }
  else r

def ping (t : KeepaliveTurn σ) (r : KeepaliveActionRunner σ) : KeepaliveActionRunner σ :=
  if !t.isElapsed then r
  else if r.client.isPingreqPending then
    (if r.client.isConnected then (performDisconnect t r).2 else r).setRequired true
  else if r.client.isConnected then
    let (rc, c) := writeToNetworkBuffer t.threadContinue r.connection
      PingreqPacket.create.toString
    let r := { r with connection := c }
    if rc ≠ .success then (performDisconnect t r).2.setRequired true
    else { r with client := r.client.setPingreqPending true }
  else r

def iteration (t : KeepaliveTurn σ) (r : KeepaliveActionRunner σ) :
    Except Fault (KeepaliveActionRunner σ) :=
  let (client, c) := t.others (r.client, r.connection)
  let r := { r with client := client, connection := c }
  if r.client.isAutoReconnectEnabled && r.client.isAutoReconnectRequired then reconnect t r
  else .ok (ping t (giveUp t r))

/-- The loop as it is entered, when the client is connected for the first time. -/
def start (client : ClientState) (c : σ) (minReconnectBackoffTimeout
    maxReconnectBackoffTimeout : Int) : KeepaliveActionRunner σ :=
  ⟨client.setDisconnectCallbackPending true, c, minReconnectBackoffTimeout,
    maxReconnectBackoffTimeout, [], [], []⟩

end KeepaliveActionRunner

end AwsIotSdk
