import AwsIotSdk.ResponseCode

/-! The network layer as the client sees it, and the loops of `Action` that fill
a read buffer or drain a write buffer. The `out` argument of a transfer is the
caller's size variable, which an implementation may leave as it was. -/

namespace AwsIotSdk

structure ReadResult (σ : Type) where
  rc : ResponseCode
  buf : Bytes
  sizeReadBytesOut : Nat
  connection : σ

structure WriteResult (σ : Type) where
  rc : ResponseCode
  sizeWrittenBytesOut : Nat
  connection : σ

/-- A connection in a state of type `σ`. `pending` counts the outcomes its
environment still has in store; a successful read uses one up. -/
class NetworkConnection (σ : Type) where
  isConnected : σ → Bool
  connectInternal : σ → ResponseCode × σ
  writeInternal : σ → Bytes → (out : Nat) → WriteResult σ
  readInternal : σ → Bytes → (offset size out : Nat) → ReadResult σ
  disconnectInternal : σ → ResponseCode × σ
  pending : σ → Nat
  pending_lt : ∀ c buf offset size out, 0 < size →
    (readInternal c buf offset size out).rc = .success →
    pending (readInternal c buf offset size out).connection < pending c

namespace NetworkConnection

variable {σ : Type} [NetworkConnection σ]

def connect (c : σ) : ResponseCode × σ := connectInternal c

def write (c : σ) (buf : Bytes) (out : Nat) : WriteResult σ :=
  if isConnected c then writeInternal c buf out
  else ⟨.networkDisconnectedError, out, c⟩

def read (c : σ) (buf : Bytes) (offset size out : Nat) : ReadResult σ :=
  if isConnected c then readInternal c buf offset size out
  else ⟨.networkDisconnectedError, buf, out, c⟩

def disconnect (c : σ) : ResponseCode × σ := disconnectInternal c

end NetworkConnection

def sizeSub (a b : Nat) : Nat := if b ≤ a then a - b else 2 ^ 64 + a - b

def resize (buf : Bytes) (n : Nat) : Bytes :=
  buf.take n ++ List.replicate (n - buf.length) 0

namespace Action

variable {σ : Type} [NetworkConnection σ]

/-- The do-while loop of `readFromNetworkBuffer`; `sizeReadBytesOut` of the
result is the running total. Each further iteration follows a successful read,
so `pending` bounds the iterations. -/
def readLoop (threadContinue : Bool) (bytesToRead : Nat) :
    Nat → σ → Bytes → (total cur : Nat) → ReadResult σ
  | 0, c, buf, total, _ => ⟨.failure, buf, total, c⟩
  | fuel + 1, c, buf, total, cur =>
    let r := NetworkConnection.read c buf total (sizeSub bytesToRead total) cur
    let total := total + r.sizeReadBytesOut
    if threadContinue && total ≠ bytesToRead && r.rc = .success then
      readLoop threadContinue bytesToRead fuel r.connection r.buf total r.sizeReadBytesOut
    else ⟨r.rc, r.buf, total, r.connection⟩

def readFromNetworkBuffer (threadContinue : Bool) (c : σ) (readBuf : Bytes)
    (bytesToRead : Nat) : ReadResult σ :=
  let r := readLoop threadContinue bytesToRead (NetworkConnection.pending c + 1) c
    (resize readBuf bytesToRead) 0 0
  if r.rc = .success ∧ r.sizeReadBytesOut ≠ bytesToRead then
    { r with rc := if threadContinue then .failure else .threadExiting }
  else r

/-- The do-while loop of `writeToNetworkBuffer`. The source compares the total
with the size of the last write, so the loop body runs once and a second
iteration is never reached. -/
def writeLoop (threadContinue : Bool) (writeBuf : Bytes) :
    Nat → σ → Bytes → (total cur : Nat) → WriteResult σ
  | 0, c, _, total, _ => ⟨.failure, total, c⟩
  | fuel + 1, c, tempBuf, total, cur =>
    let r := NetworkConnection.write c tempBuf cur
    let total := total + r.sizeWrittenBytesOut
    let tempBuf := if total ≠ writeBuf.length then writeBuf.drop total else tempBuf
    if threadContinue && total ≠ r.sizeWrittenBytesOut && r.rc = .success then
      writeLoop threadContinue writeBuf fuel r.connection tempBuf total r.sizeWrittenBytesOut
    else ⟨r.rc, total, r.connection⟩

def writeToNetworkBuffer (threadContinue : Bool) (c : σ) (writeBuf : Bytes) :
    ResponseCode × σ :=
  if writeBuf.length = 0 then (.networkNothingToWriteError, c)
  else
    let r := writeLoop threadContinue writeBuf (writeBuf.length + 1) c writeBuf 0 0
    if r.rc = .success ∧ r.sizeWrittenBytesOut ≠ writeBuf.length then
      (if threadContinue then .failure else .threadExiting, r.connection)
    else (r.rc, r.connection)

end Action

end AwsIotSdk
