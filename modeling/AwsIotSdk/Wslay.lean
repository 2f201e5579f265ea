import AwsIotSdk.WebSocketConnection
import AwsIotSdk.WebSocketWrites
import AwsIotSdk.WebSocketFrame

/-! The frame layer below a WebSocket connection: sending and receiving frames in pieces,
as the callbacks take and give them. -/

namespace AwsIotSdk

/-! ### Byte orders -/

/-- The bytes of a machine word in memory, the least significant one first. -/
def memory (width n : Nat) : Bytes := (BigEndian.encode width n).reverse

def ofMemory (bytes : Bytes) : Nat := BigEndian.decode bytes.reverse

def htons (n : Nat) : Nat := ofMemory (BigEndian.encode 2 n)

def ntohl (n : Nat) : Nat := ofMemory (BigEndian.encode 4 n)

def wslayByteswap64 (x : Nat) : Nat :=
  let u := ntohl (x &&& 0xffffffff)
  let l := ntohl (x >>> 32)
  (u <<< 32) ||| l

theorem memory_ofMemory {width : Nat} {bytes : Bytes} (h : bytes.length = width) :
    memory width (ofMemory bytes) = bytes := by
  have hencode := BigEndian.encode_decode bytes.reverse
  rw [List.length_reverse, h] at hencode
  rw [memory, ofMemory, hencode, List.reverse_reverse]

theorem memory_htons (n : Nat) : memory 2 (htons n) = BigEndian.encode 2 n :=
  memory_ofMemory (BigEndian.length_encode 2 n)

theorem encode_ntohl (n : Nat) : BigEndian.encode 4 (ntohl n) = (BigEndian.encode 4 n).reverse := by
  rw [← memory_ofMemory (BigEndian.length_encode 4 n), memory, List.reverse_reverse]
  rfl

theorem ntohl_lt (n : Nat) : ntohl n < 2 ^ 32 := by
  have h := BigEndian.decode_lt (BigEndian.encode 4 n).reverse
  rw [List.length_reverse, BigEndian.length_encode] at h
  exact h

theorem wslayByteswap64_eq (x : Nat) :
    wslayByteswap64 x = ntohl (x &&& 0xffffffff) * 2 ^ 32 + ntohl (x >>> 32) := by
  rw [wslayByteswap64, ← Nat.shiftLeft_add_eq_or_of_lt (ntohl_lt _), Nat.shiftLeft_eq]

theorem memory_wslayByteswap64 (x : Nat) :
    memory 8 (wslayByteswap64 x) = BigEndian.encode 8 x := by
  have hlow : x &&& 0xffffffff = x % 2 ^ 32 := Nat.and_two_pow_sub_one_eq_mod x 32
  have hhigh : x >>> 32 = x / 2 ^ 32 := Nat.shiftRight_eq_div_pow x 32
  have hl := ntohl_lt (x >>> 32)
  have hsplit : ∀ n : Nat, BigEndian.encode 8 n =
      BigEndian.encode 4 (n / 2 ^ 32) ++ BigEndian.encode 4 n := fun n => BigEndian.encode_add 4 4 n
  have hdiv : wslayByteswap64 x / 2 ^ 32 = ntohl (x % 2 ^ 32) := by
    rw [wslayByteswap64_eq, hlow]
    omega
  have hmod : BigEndian.encode 4 (wslayByteswap64 x) = BigEndian.encode 4 (ntohl (x / 2 ^ 32)) := by
    rw [wslayByteswap64_eq, hhigh]
    exact BigEndian.encode_add_mul 4 _ _ ⟨ntohl (x &&& 0xffffffff), Nat.mul_comm _ _⟩
  have hlast : BigEndian.encode 4 (x % 2 ^ 32) = BigEndian.encode 4 x := by
    conv => rhs; rw [← Nat.div_add_mod x (2 ^ 32)]
    exact (BigEndian.encode_add_mul 4 _ _ ⟨x / 2 ^ 32, rfl⟩).symm
  rw [memory, hsplit, hdiv, hmod, encode_ntohl, encode_ntohl, List.reverse_append,
    List.reverse_reverse, List.reverse_reverse, hlast, hsplit x]

theorem wslayByteswap64_ofMemory {bytes : Bytes} (h : bytes.length = 8) :
    wslayByteswap64 (ofMemory bytes) = BigEndian.decode bytes := by
  have hlt : wslayByteswap64 (ofMemory bytes) < 256 ^ 8 := by
    have hu := ntohl_lt (ofMemory bytes &&& 0xffffffff)
    have hl := ntohl_lt (ofMemory bytes >>> 32)
    rw [wslayByteswap64_eq]
    omega
  have hmem := memory_wslayByteswap64 (ofMemory bytes)
  have hback : BigEndian.encode 8 (ofMemory bytes) = bytes.reverse := by
    apply List.reverse_eq_iff.mp
    exact memory_ofMemory h
  have hencode : BigEndian.encode 8 (wslayByteswap64 (ofMemory bytes)) = bytes := by
    rw [hback] at hmem
    rw [memory] at hmem
    simpa using congrArg List.reverse hmem
  rw [← BigEndian.decode_encode_of_lt hlt, hencode]

/-! ### The context -/

inductive WslayFrameState where
  | prepHeader
  | sendHeader
  | sendPayload
  | recvHeader1
  | recvPayloadlen
  | recvExtPayloadlen
  | recvMaskkey
  | recvPayload
  deriving DecidableEq, Repr

structure WslayFrameOpcodeMemo where
  fin : UInt8
  opcode : UInt8
  rsv : UInt8
  deriving DecidableEq, Repr

/-- `ibufmark` is an offset into the input buffer, and `ibuf` what lies between the mark and
the limit; `oheader` is what lies between the mark and the limit of the header to send. -/
structure WslayFrameContext where
  ibufmark : Nat
  ibuf : Bytes
  iom : WslayFrameOpcodeMemo
  ipayloadlen : Nat
  ipayloadoff : Nat
  imask : UInt8
  imaskkey : Bytes
  istate : WslayFrameState
  ireqread : Nat
  oheader : Bytes
  opayloadlen : Nat
  opayloadoff : Nat
  omask : UInt8
  omaskkey : Bytes
  ostate : WslayFrameState
  deriving DecidableEq, Repr

/-- A receiver that has nothing gives `none`, and a mask that cannot be made is `none`. -/
structure WslayFrameCallbacks (σ : Type) where
  sendCallback : σ → (data : Bytes) → (flags : Nat) → Int × σ
  recvCallback : σ → (len : Nat) → Option Bytes × σ
  genmaskCallback : σ → (len : Nat) → Option Bytes × σ

inductive WslaySendError where
  | wantWrite
  | invalidArgument
  | invalidCallback
  deriving DecidableEq, Repr

def WslaySendError.code : WslaySendError → Int64
  | .wantWrite => -101
  | .invalidArgument => -300
  | .invalidCallback => -301

/-- All that a call of the receiver fills in. -/
structure WslayFrameReceived where
  fin : UInt8
  rsv : UInt8
  opcode : UInt8
  payloadLength : Nat
  mask : UInt8
  data : Bytes
  deriving DecidableEq, Repr

namespace WslayFrameContext

def ibufSize : Nat := 4096

def tempSize : Nat := 4096

def wslayMsgMore : Nat := 1

def create : WslayFrameContext where
  ibufmark := 0
  ibuf := []
  iom := ⟨0, 0, 0⟩
  ipayloadlen := 0
  ipayloadoff := 0
  imask := 0
  imaskkey := [0, 0, 0, 0]
  istate := .recvHeader1
  ireqread := 2
  oheader := []
  opayloadlen := 0
  opayloadoff := 0
  omask := 0
  omaskkey := [0, 0, 0, 0]
  ostate := .prepHeader

def maskBytes (key : Bytes) (off : Nat) (bytes : Bytes) : Bytes :=
  Keystream.combine (· ^^^ ·) (fun i => key.getD (i % 4) 0) off bytes

variable {σ : Type} (cb : WslayFrameCallbacks σ)

/-! ### Sending -/

/-- The header before the mask. -/
def headerBytes (iocb : WslayFrameToSend) : Option Bytes :=
  let first : UInt8 := ((iocb.fin <<< (7 : UInt8)) &&& 0x80) |||
    ((iocb.rsv <<< (4 : UInt8)) &&& 0x70) ||| (iocb.opcode &&& 0xf)
  let second : UInt8 := (iocb.mask <<< (7 : UInt8)) &&& 0x80
  if wslayIsCtrlFrame iocb.opcode && decide (125 < iocb.payloadLength) then none
  else if iocb.payloadLength < 126 then some [first, second ||| UInt8.ofNat iocb.payloadLength]
  else if iocb.payloadLength < 1 <<< 16 then
    some (first :: (second ||| 126) :: memory 2 (htons iocb.payloadLength))
  else if iocb.payloadLength < 1 <<< 63 then
    some (first :: (second ||| 127) :: memory 8 (wslayByteswap64 iocb.payloadLength))
  else none

abbrev Sent (α σ : Type) := Except WslaySendError α × WslayFrameContext × σ

def prepHeader (ctx : WslayFrameContext) (iocb : WslayFrameToSend) (s : σ) : Sent Unit σ :=
  match headerBytes iocb with
  | none => (.error .invalidArgument, ctx, s)
  | some header =>
    let ready := { ctx with
      ostate := .sendHeader, opayloadlen := iocb.payloadLength, opayloadoff := 0 }
    if iocb.mask ≠ 0 then
      match cb.genmaskCallback s 4 with
      | (none, s) => (.error .invalidCallback, ctx, s)
      | (some key, s) =>
        (.ok (), { ready with omask := 1, omaskkey := key, oheader := header ++ key }, s)
    else (.ok (), { ready with oheader := header }, s)

def sendHeader (ctx : WslayFrameContext) (iocb : WslayFrameToSend) (s : σ) : Sent Unit σ :=
  let len := ctx.oheader.length
  let flags := if 0 < iocb.dataLength then wslayMsgMore else 0
  match cb.sendCallback s ctx.oheader flags with
  | (r, s) =>
    if 0 < r then
      if (len : Int) < r then (.error .invalidCallback, ctx, s)
      else if r = len then (.ok (), { ctx with oheader := [], ostate := .sendPayload }, s)
      else (.error .wantWrite, { ctx with oheader := ctx.oheader.drop r.toNat }, s)
    else (.error .wantWrite, ctx, s)

/-- The loop over a masked payload, a part of it at a time; `data` is what is left. -/
def sendMasked : (fuel : Nat) → (data : Bytes) → (totallen : Nat) → WslayFrameContext → σ →
    Sent Nat σ
  | 0, _, totallen, ctx, s => (.ok totallen, ctx, s)
  | fuel + 1, data, totallen, ctx, s =>
    if data = [] then (.ok totallen, ctx, s)
    else
      let writelen := min tempSize data.length
      let temp := maskBytes ctx.omaskkey ctx.opayloadoff (data.take writelen)
      match cb.sendCallback s temp 0 with
      | (r, s) =>
        if 0 < r then
          if (writelen : Int) < r then (.error .invalidCallback, ctx, s)
          else sendMasked fuel (data.drop r.toNat) (totallen + r.toNat)
            { ctx with opayloadoff := ctx.opayloadoff + r.toNat } s
        else if 0 < totallen then (.ok totallen, ctx, s)
        else (.error .wantWrite, ctx, s)

def sendPlain (ctx : WslayFrameContext) (data : Bytes) (s : σ) : Sent Nat σ :=
  match cb.sendCallback s data 0 with
  | (r, s) =>
    if 0 < r then
      if (data.length : Int) < r then (.error .invalidCallback, ctx, s)
      else (.ok r.toNat, { ctx with opayloadoff := ctx.opayloadoff + r.toNat }, s)
    else (.error .wantWrite, ctx, s)

def sendPayload (ctx : WslayFrameContext) (iocb : WslayFrameToSend) (s : σ) : Sent Nat σ :=
  let data := iocb.data.take iocb.dataLength
  let sent :=
    if 0 < iocb.dataLength then
      if ctx.omask ≠ 0 then sendMasked cb data.length data 0 ctx s else sendPlain cb ctx data s
    else (.ok 0, ctx, s)
  match sent with
  | (.error e, ctx, s) => (.error e, ctx, s)
  | (.ok totallen, ctx, s) =>
    (.ok totallen,
      if ctx.opayloadoff = ctx.opayloadlen then { ctx with ostate := .prepHeader } else ctx, s)

def wslayFrameSend (ctx : WslayFrameContext) (iocb : WslayFrameToSend) (s : σ) : Sent Nat σ :=
  if iocb.payloadLength < iocb.dataLength then (.error .invalidArgument, ctx, s)
  else
    match (if ctx.ostate = .prepHeader then prepHeader cb ctx iocb s else (.ok (), ctx, s)) with
    | (.error e, ctx, s) => (.error e, ctx, s)
    | (.ok (), ctx, s) =>
      match (if ctx.ostate = .sendHeader then sendHeader cb ctx iocb s else (.ok (), ctx, s)) with
      | (.error e, ctx, s) => (.error e, ctx, s)
      | (.ok (), ctx, s) =>
        if ctx.ostate = .sendPayload then sendPayload cb ctx iocb s
        else (.error .invalidArgument, ctx, s)

/-! ### Receiving -/

abbrev Recv (α σ : Type) := Except WslayError α × WslayFrameContext × σ

def wslayShiftIbuf (ctx : WslayFrameContext) : WslayFrameContext := { ctx with ibufmark := 0 }

def wslayRecv (ctx : WslayFrameContext) (s : σ) : Recv Unit σ :=
  let ctx := if ctx.ibufmark ≠ 0 then wslayShiftIbuf ctx else ctx
  let readBufSizeLimit := ibufSize - (ctx.ibufmark + ctx.ibuf.length)
  let numBytesToReadThisRound :=
    if ctx.ireqread < readBufSizeLimit then ctx.ireqread else readBufSizeLimit
  match cb.recvCallback s numBytesToReadThisRound with
  | (some bytes, s) => (.ok (), { ctx with ibuf := ctx.ibuf ++ bytes }, s)
  | (none, s) => (.error .wantRead, ctx, s)

/-- What the states of the header begin with: the bytes they ask for. -/
def request (ctx : WslayFrameContext) (s : σ) : Recv Unit σ :=
  if ctx.ibuf.length < ctx.ireqread then
    match wslayRecv cb ctx s with
    | (.error e, ctx, s) => (.error e, ctx, s)
    | (.ok (), ctx, s) =>
      if ctx.ibuf.length < ctx.ireqread then (.error .wantRead, ctx, s) else (.ok (), ctx, s)
  else (.ok (), ctx, s)

/-- The last step of the states that know the length. -/
def expectPayload (ctx : WslayFrameContext) : WslayFrameContext :=
  if ctx.imask ≠ 0 then { ctx with istate := .recvMaskkey, ireqread := 4 }
  else { ctx with istate := .recvPayload, ireqread := ctx.ipayloadlen }

def readHeader1 (ctx : WslayFrameContext) : Except WslayError Unit × WslayFrameContext :=
  match ctx.ibuf with
  | first :: second :: rest =>
    let fin : UInt8 := (first >>> 7) &&& 1
    let rsv := (first >>> 4) &&& 7
    let opcode := first &&& 0xf
    let payloadlen := second &&& 0x7f
    let ctx := { ctx with
      iom := ⟨fin, opcode, rsv⟩
      imask := (second >>> 7) &&& 1
      ibufmark := ctx.ibufmark + 2
      ibuf := rest }
    if wslayIsCtrlFrame opcode && (decide (125 < payloadlen) || fin == 0) then (.error .proto, ctx)
    else if payloadlen = 126 then (.ok (), { ctx with istate := .recvExtPayloadlen, ireqread := 2 })
    else if payloadlen = 127 then (.ok (), { ctx with istate := .recvExtPayloadlen, ireqread := 8 })
    else (.ok (), expectPayload { ctx with ipayloadlen := payloadlen.toNat, ipayloadoff := 0 })
  | _ => (.error .wantRead, ctx)

def readExtPayloadlen (ctx : WslayFrameContext) : Except WslayError Unit × WslayFrameContext :=
  let word := List.replicate (8 - ctx.ireqread) 0 ++ ctx.ibuf.take ctx.ireqread
  let ctx := { ctx with
    ipayloadlen := wslayByteswap64 (ofMemory word)
    ipayloadoff := 0
    ibufmark := ctx.ibufmark + ctx.ireqread
    ibuf := ctx.ibuf.drop ctx.ireqread }
  if ctx.ireqread = 8 then
    if ctx.ipayloadlen < 1 <<< 16 ∨ ctx.ipayloadlen &&& (1 <<< 63) ≠ 0 then (.error .proto, ctx)
    else (.ok (), expectPayload ctx)
  else if ctx.ipayloadlen < 126 then (.error .proto, ctx)
  else (.ok (), expectPayload ctx)

def readMaskkey (ctx : WslayFrameContext) : Except WslayError Unit × WslayFrameContext :=
  (.ok (), { ctx with
    imaskkey := ctx.ibuf.take 4
    ibufmark := ctx.ibufmark + 4
    ibuf := ctx.ibuf.drop 4
    istate := .recvPayload
    ireqread := ctx.ipayloadlen })

def deliver (ctx : WslayFrameContext) : WslayFrameReceived × WslayFrameContext :=
  let rempayloadlen := ctx.ipayloadlen - ctx.ipayloadoff
  let len := if ctx.ibuf.length < rempayloadlen then ctx.ibuf.length else rempayloadlen
  let data := ctx.ibuf.take len
  let data := if ctx.imask ≠ 0 then maskBytes ctx.imaskkey ctx.ipayloadoff data else data
  let ctx := { ctx with
    ibufmark := ctx.ibufmark + len
    ibuf := ctx.ibuf.drop len
    ipayloadoff := ctx.ipayloadoff + len }
  (⟨ctx.iom.fin, ctx.iom.rsv, ctx.iom.opcode, ctx.ipayloadlen, ctx.imask, data⟩,
    if ctx.ipayloadlen = ctx.ipayloadoff then { ctx with istate := .recvHeader1, ireqread := 2 }
    else ctx)

def receivePayload (ctx : WslayFrameContext) (s : σ) : Recv WslayFrameReceived σ :=
  let rempayloadlen := ctx.ipayloadlen - ctx.ipayloadoff
  let ctx := { ctx with ireqread := rempayloadlen }
  match (if ctx.ibuf.length = 0 ∧ 0 < rempayloadlen then wslayRecv cb ctx s else (.ok (), ctx, s)) with
  | (.error e, ctx, s) => (.error e, ctx, s)
  | (.ok (), ctx, s) => (.ok (deliver ctx).1, (deliver ctx).2, s)

/-- One state of the header: ask for its bytes, then read them. -/
def headerState (state : WslayFrameState)
    (read : WslayFrameContext → Except WslayError Unit × WslayFrameContext)
    (ctx : WslayFrameContext) (s : σ) : Recv Unit σ :=
  if ctx.istate = state then
    match request cb ctx s with
    | (.error e, ctx, s) => (.error e, ctx, s)
    | (.ok (), ctx, s) => ((read ctx).1, (read ctx).2, s)
  else (.ok (), ctx, s)

def wslayFrameRecv (ctx : WslayFrameContext) (s : σ) : Recv WslayFrameReceived σ :=
  match headerState cb .recvHeader1 readHeader1 ctx s with
  | (.error e, ctx, s) => (.error e, ctx, s)
  | (.ok (), ctx, s) =>
    match headerState cb .recvExtPayloadlen readExtPayloadlen ctx s with
    | (.error e, ctx, s) => (.error e, ctx, s)
    | (.ok (), ctx, s) =>
      match headerState cb .recvMaskkey readMaskkey ctx s with
      | (.error e, ctx, s) => (.error e, ctx, s)
      | (.ok (), ctx, s) =>
        if ctx.istate = .recvPayload then receivePayload cb ctx s
        else (.error .invalidArgument, ctx, s)

end WslayFrameContext

/-- A pipe: the bytes that were taken out of it, and those that are still in it. -/
structure Pipe where
  taken : Bytes
  waiting : Bytes
  deriving DecidableEq, Repr

namespace Pipe

def sent (s : Pipe) : Bytes := s.taken ++ s.waiting

/-- It takes and gives a few bytes at a time. -/
def callbacks (most : Nat) : WslayFrameCallbacks Pipe where
  sendCallback s data _ :=
    ((data.take most).length, { s with waiting := s.waiting ++ data.take most })
  recvCallback s len :=
    match s.waiting.take (min len most) with
    | [] => (none, s)
    | b :: bytes => (some (b :: bytes), ⟨s.taken ++ b :: bytes, s.waiting.drop (min len most)⟩)
  genmaskCallback s len := (some (List.replicate len 0x5a), s)

end Pipe

end AwsIotSdk
