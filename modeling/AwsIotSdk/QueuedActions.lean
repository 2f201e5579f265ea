import AwsIotSdk.ActionEffects
import AwsIotSdk.PendingAcks
import AwsIotSdk.StreamConnection

/-! What becomes of the ack handler of a queued action: after the step that takes
the action from the queue it was called, or it is pending. -/

namespace AwsIotSdk

open AwsIotSdk.Action

/-! ### The outcome of each action -/

variable {σ : Type}

variable [NetworkConnection σ]

def connectRefused (c : σ) (p : ConnectPacket) : Prop :=
  (NetworkConnection.connect c).1 ≠ .success ∨
    (writeToNetworkBuffer false (NetworkConnection.connect c).2 p.toString).1 ≠ .success

def writeRefused (c : σ) (packetData : Bytes) : Prop :=
  (writeToNetworkBuffer false c packetData).1 ≠ .success

def keptTopics (s : ClientState) (ps : List SubscriptionPtr) : List SubscriptionPtr :=
  (SubscribeActionAsync.insertTopics 0 false ps s).1

/-- The data is not for this action, the client is not connected, or the network
does not take the packet. -/
def Refused (kind : ActionKind) (s : ClientState) (c : σ) (data : ActionData) : Prop :=
  match kind, data with
  | .connect, .connect p => connectRefused c p
  | .connect, _ => ∀ p, s.pConnectData = some p → connectRefused c p
  | .disconnect, _ => s.isConnected = false
  | .publish, .publish p => writeRefused c p.toString
  | .puback, .puback p => writeRefused c p.toString
  | .subscribe, .subscribe p =>
    let kept := keptTopics s p.subscriptionList
    kept ≠ [] ∧
      writeRefused c (SubscribePacket.toString { p with subscriptionList := kept } s.heap).1
  | .unsubscribe, .unsubscribe p => writeRefused c p.toString
  | _, _ => True

section Outcomes

variable {s : ClientState} {c : σ} {g : AsyncAckHandler}

theorem subscribe_refused_iff (kept : List SubscriptionPtr) (packetData : Bytes) :
    (if 0 < kept.length then writeToNetworkBuffer false c packetData
      else (ResponseCode.success, c)).1 ≠ .success ↔ kept ≠ [] ∧ writeRefused c packetData := by
  cases kept <;> simp [writeRefused]

end Outcomes

/-! ### One step of the queue -/

def requested (s : ClientState) (actionType : ActionType) (data : ActionData) : ClientState :=
  (s.enqueueOutboundAction actionType (data.setAsyncAckHandler (.application 1))).2

def helloPacket : ActionData :=
  .publish (PublishPacket.init freshTopic false false .qos1 [0x68, 0x69])

def activeClient : ClientState :=
  (freshClient.insertTopic [0x61] 0).modify 0 (·.setActive true)

end AwsIotSdk
