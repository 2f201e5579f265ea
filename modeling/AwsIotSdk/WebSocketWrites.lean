import AwsIotSdk.PartialWrites
import AwsIotSdk.WebSocketConnection

/-! Writing to a WebSocket, one frame a buffer. The frame sender returns the number of
payload bytes it put out, or a negative code. -/

namespace AwsIotSdk

def wslayBinaryFrame : UInt8 := 0x2

structure WslayFrameToSend where
  fin : UInt8
  rsv : UInt8
  opcode : UInt8
  payloadLength : Nat
  mask : UInt8
  data : Bytes
  dataLength : Nat
  deriving DecidableEq, Repr

/-- A connection whose frames have the given results, and the frames so far. -/
structure WebSocketWrites where
  isConnected : Bool
  results : Nat → Int64
  frames : List (WslayFrameToSend × Int64)

namespace WebSocketWrites

def wslayFrameSend (c : WebSocketWrites) (newWsFrame : WslayFrameToSend) :
    Int64 × WebSocketWrites :=
  let dataLenSent := c.results c.frames.length
  (dataLenSent, { c with frames := c.frames ++ [(newWsFrame, dataLenSent)] })

def encodeWsFrameAsFinNoRsvNoExt (opCode mask : UInt8) (data : Bytes) (dataLen : Nat) :
    WslayFrameToSend where
  opcode := opCode
  dataLength := dataLen
  data := data
  fin := 1
  mask := mask
  payloadLength := dataLen
  rsv := 0

def writeInternal (c : WebSocketWrites) (buf : Bytes) (sizeWrittenBytesOut : Nat) :
    WriteResult WebSocketWrites :=
  let sizeBytesToWrite := buf.length
  let newWsFrame := encodeWsFrameAsFinNoRsvNoExt wslayBinaryFrame 1 buf sizeBytesToWrite
  let (dataLenSent, c) := c.wslayFrameSend newWsFrame
  if dataLenSent.toUInt64.toNat < sizeBytesToWrite then
    ⟨.websocketFrameTransmitError, sizeWrittenBytesOut, c⟩
  else ⟨.success, sizeBytesToWrite, c⟩

instance networkConnection : NetworkConnection WebSocketWrites where
  isConnected c := c.isConnected
  connectInternal c := (.success, c)
  writeInternal := writeInternal
  readInternal c buf _ _ out := ⟨.networkSslNothingToRead, buf, out, c⟩
  disconnectInternal c := (.success, c)
  pending _ := 0
  pending_lt := by
    intro c buf offset size out hsize hrc
    cases hrc

/-- The payload bytes that went out. -/
def sentPayload (frames : List (WslayFrameToSend × Int64)) : Bytes :=
  frames.flatMap (fun sent => sent.1.data.take sent.2.toInt.toNat)

/-- A call that succeeds has put all of the buffer behind what was sent before. -/
def AllSentOnSuccess (c : WebSocketWrites) (buf : Bytes) (rc : ResponseCode)
    (after : WebSocketWrites) : Prop :=
  rc = .success → sentPayload after.frames = sentPayload c.frames ++ buf

/-- The result is no error code, or the buffer makes it right: there is nothing to send,
or more than the code is as an unsigned number, which is longer than a string gets. -/
def Trustworthy (dataLenSent : Int64) (buf : Bytes) : Prop :=
  0 ≤ dataLenSent.toInt ∨ buf = [] ∨ 2 ^ 64 + dataLenSent.toInt < buf.length

theorem toUInt64_toNat (r : Int64) :
    (r.toUInt64.toNat : Int) = if 0 ≤ r.toInt then r.toInt else 2 ^ 64 + r.toInt := by
  have hnat : r.toUInt64.toNat = r.toBitVec.toNat := rfl
  have hint : r.toInt = r.toBitVec.toInt := rfl
  have hlt := r.toBitVec.isLt
  rw [hnat, hint, BitVec.toInt_eq_toNat_cond]
  split_ifs <;> omega

theorem writeInternal_eq (c : WebSocketWrites) (buf : Bytes) (out : Nat) :
    ∃ frame : WslayFrameToSend, frame.data = buf ∧
      writeInternal c buf out =
        let after := { c with frames := c.frames ++ [(frame, c.results c.frames.length)] }
        if (c.results c.frames.length).toUInt64.toNat < buf.length then
          ⟨.websocketFrameTransmitError, out, after⟩
        else ⟨.success, buf.length, after⟩ :=
  ⟨encodeWsFrameAsFinNoRsvNoExt wslayBinaryFrame 1 buf buf.length, rfl, rfl⟩

theorem sentPayload_concat (frames : List (WslayFrameToSend × Int64)) (frame : WslayFrameToSend)
    (r : Int64) : sentPayload (frames ++ [(frame, r)]) = sentPayload frames ++ frame.data ↔
      frame.data = [] ∨ frame.data.length ≤ r.toInt := by
  simp only [sentPayload, List.flatMap_append, List.flatMap_cons, List.flatMap_nil,
    List.append_nil, List.append_cancel_left_eq, List.take_eq_self_iff]
  rw [← List.length_eq_zero_iff]
  omega

theorem allSentOnSuccess_writeInternal (c : WebSocketWrites) (buf : Bytes) (out : Nat) :
    AllSentOnSuccess c buf (writeInternal c buf out).rc (writeInternal c buf out).connection ↔
      Trustworthy (c.results c.frames.length) buf := by
  obtain ⟨frame, hdata, heq⟩ := writeInternal_eq c buf out
  have hcast := toUInt64_toNat (c.results c.frames.length)
  rw [heq, Trustworthy]
  by_cases hshort : (c.results c.frames.length).toUInt64.toNat < buf.length
  · have htrust : 0 ≤ (c.results c.frames.length).toInt ∨
        2 ^ 64 + (c.results c.frames.length).toInt < buf.length := by
      split_ifs at hcast <;> omega
    simp only [hshort, if_true, AllSentOnSuccess, reduceCtorEq, false_implies, true_iff]
    tauto
  · simp only [hshort, if_false, AllSentOnSuccess, true_implies]
    rw [← hdata, sentPayload_concat, hdata]
    split_ifs at hcast with hneg
    · have hall : (buf.length : Int) ≤ (c.results c.frames.length).toInt := by omega
      tauto
    · have hnone : ¬(buf.length : Int) ≤ (c.results c.frames.length).toInt := by omega
      have hlong : ¬2 ^ 64 + (c.results c.frames.length).toInt < buf.length := by omega
      tauto

theorem writeToNetworkBuffer_eq (threadContinue : Bool) (c : WebSocketWrites) {buf : Bytes}
    (h : buf ≠ []) :
    Action.writeToNetworkBuffer threadContinue c buf =
      if c.isConnected then ((writeInternal c buf 0).rc, (writeInternal c buf 0).connection)
      else (.networkDisconnectedError, c) := by
  obtain ⟨frame, -, heq⟩ := writeInternal_eq c buf 0
  rw [writeToNetworkBuffer_once threadContinue c h, NetworkConnection.write]
  simp only [NetworkConnection.isConnected, NetworkConnection.writeInternal, heq]
  split_ifs <;> simp_all

theorem allSentOnSuccess_writeToNetworkBuffer (threadContinue : Bool) (c : WebSocketWrites)
    (buf : Bytes) :
    AllSentOnSuccess c buf (Action.writeToNetworkBuffer threadContinue c buf).1
        (Action.writeToNetworkBuffer threadContinue c buf).2 ↔
      c.isConnected = false ∨ Trustworthy (c.results c.frames.length) buf := by
  by_cases hempty : buf = []
  · subst hempty
    simp [Action.writeToNetworkBuffer, AllSentOnSuccess, Trustworthy]
  · rw [writeToNetworkBuffer_eq threadContinue c hempty]
    cases hconnected : c.isConnected with
    | false => simp [AllSentOnSuccess]
    | true => simpa using allSentOnSuccess_writeInternal c buf 0

/-- Either layer reports a write that did not happen when the sender fails, and only
then. -/
theorem allSentOnSuccess_iff (c : WebSocketWrites) (buf : Bytes) :
    (∀ out, AllSentOnSuccess c buf (writeInternal c buf out).rc
        (writeInternal c buf out).connection ↔ Trustworthy (c.results c.frames.length) buf) ∧
      ∀ threadContinue, AllSentOnSuccess c buf
          (Action.writeToNetworkBuffer threadContinue c buf).1
          (Action.writeToNetworkBuffer threadContinue c buf).2 ↔
        c.isConnected = false ∨ Trustworthy (c.results c.frames.length) buf :=
  ⟨allSentOnSuccess_writeInternal c buf,
    fun threadContinue => allSentOnSuccess_writeToNetworkBuffer threadContinue c buf⟩

theorem not_allSentOnSuccess_wantWrite :
    ¬AllSentOnSuccess ⟨true, fun _ => -101, []⟩ [0xc0, 0x00]
        (writeInternal ⟨true, fun _ => -101, []⟩ [0xc0, 0x00] 0).rc
        (writeInternal ⟨true, fun _ => -101, []⟩ [0xc0, 0x00] 0).connection ∧
      ¬AllSentOnSuccess ⟨true, fun _ => -101, []⟩ [0xc0, 0x00]
        (Action.writeToNetworkBuffer true (⟨true, fun _ => -101, []⟩ : WebSocketWrites)
          [0xc0, 0x00]).1
        (Action.writeToNetworkBuffer true (⟨true, fun _ => -101, []⟩ : WebSocketWrites)
          [0xc0, 0x00]).2 := by
  refine ⟨fun h => ?_, fun h => ?_⟩
  · exact absurd (h (by decide)) (by decide)
  · exact absurd (h (by decide)) (by decide)

end WebSocketWrites

end AwsIotSdk
