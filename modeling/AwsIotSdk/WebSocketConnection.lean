import AwsIotSdk.Packet

/-! Reading from a WebSocket. The frames that come in are the results of the frame
receiver, in their order; what a read leaves of a frame waits in a buffer. -/

namespace AwsIotSdk

def wslayConnectionClose : UInt8 := 0x8
def wslayPing : UInt8 := 0x9
def wslayPong : UInt8 := 0xa

def wslayIsCtrlFrame (opcode : UInt8) : Bool := (opcode >>> 3) &&& 1 != 0

inductive WslayError where
  | wantRead
  | proto
  | invalidArgument
  | invalidCallback
  deriving DecidableEq, Repr

/-- What a call of the receiver fills in. `data` is the part of the payload that came
with this call. -/
structure WslayFrameIocb where
  rsv : UInt8
  opcode : UInt8
  mask : UInt8
  data : Bytes
  deriving DecidableEq, Repr

abbrev WslayFrameRecv := Except WslayError WslayFrameIocb

structure WebSocketConnection where
  readBuf : Bytes
  currReadBufSize : Nat
  incoming : List WslayFrameRecv

namespace WebSocketConnection

def appendBytesToBuffer (c : WebSocketConnection) (destBuf : Bytes) : WebSocketConnection :=
  { c with
    readBuf := c.readBuf ++ destBuf
    currReadBufSize := c.currReadBufSize + destBuf.length }

def clearBuffer (c : WebSocketConnection) : WebSocketConnection :=
  { c with readBuf := [], currReadBufSize := 0 }

def violateServerToClientWsProtocol (newWsFrame : WslayFrameIocb) : Bool :=
  newWsFrame.rsv != 0 || newWsFrame.mask != 0

/-- The frame to send is a null pointer, and its members are written first of all. -/
def sendPongFromClient (_c : WebSocketConnection) : Except Fault WebSocketConnection :=
  .error .nullDereference

structure ReadOutcome where
  rc : ResponseCode
  buf : Bytes
  sizeReadBytesOut : Nat
  connection : WebSocketConnection

/-- The branch of the loop that has enough bytes. -/
def serve (c : WebSocketConnection) (buf : Bytes) (bufReadOffset sizeBytesToRead : Nat) :
    Except Fault ReadOutcome :=
  if buf.length < bufReadOffset ∨ c.readBuf.length < sizeBytesToRead then .error .outOfBounds
  else .ok ⟨.success, buf.take bufReadOffset ++ c.readBuf.take sizeBytesToRead, sizeBytesToRead,
    { c with
      readBuf := c.readBuf.drop sizeBytesToRead
      currReadBufSize := c.currReadBufSize - sizeBytesToRead }⟩

/-- The branch of the loop that receives a frame: the code it ends with, if it ends. -/
def receive (c : WebSocketConnection) (r : WslayFrameRecv) :
    Except Fault (Option ResponseCode × WebSocketConnection) :=
  match r with
  | .error _ => .ok (some .websocketFrameReceiveError, c.clearBuffer)
  | .ok newWsFrame =>
    if violateServerToClientWsProtocol newWsFrame then
      .ok (some .websocketProtocolViolation, c.clearBuffer)
    else if wslayConnectionClose = newWsFrame.opcode then
      .ok (some .websocketMaxLifetimeReached, c.clearBuffer)
    else if wslayPing = newWsFrame.opcode then
      c.sendPongFromClient.map (fun c => (none, c))
    else if wslayPong = newWsFrame.opcode then .ok (none, c)
    else .ok (none, c.appendBytesToBuffer newWsFrame.data)

/-- The loop. It has no result while the receiver has none. -/
def readLoop (buf : Bytes) (bufReadOffset sizeBytesToRead out : Nat) :
    List WslayFrameRecv → WebSocketConnection → Except Fault (Option ReadOutcome)
  | [], c =>
    if sizeBytesToRead ≤ c.currReadBufSize then
      (serve { c with incoming := [] } buf bufReadOffset sizeBytesToRead).map some
    else .ok none
  | r :: rest, c =>
    if sizeBytesToRead ≤ c.currReadBufSize then
      (serve { c with incoming := r :: rest } buf bufReadOffset sizeBytesToRead).map some
    else
      match receive { c with incoming := rest } r with
      | .error f => .error f
      | .ok (some rc, c) => .ok (some ⟨rc, buf, out, c⟩)
      | .ok (none, c) => readLoop buf bufReadOffset sizeBytesToRead out rest c

def readInternal (c : WebSocketConnection) (buf : Bytes)
    (bufReadOffset sizeBytesToRead sizeReadBytesOut : Nat) : Except Fault (Option ReadOutcome) :=
  readLoop buf bufReadOffset sizeBytesToRead sizeReadBytesOut c.incoming c

end WebSocketConnection

end AwsIotSdk
