import AwsIotSdk.ClientStream
import AwsIotSdk.OpenSSLWrites
import AwsIotSdk.WebSocketDelivery

/-! The messages of a client over a WebSocket: from the write of an action through the frame
sender and the TLS connection to a server that reads frames, and control packets in them. -/

namespace AwsIotSdk

open WebSocketFrame WslayFrameContext

/-- What the callbacks of the frame sender work on. The random bytes come from outside. -/
structure WssTransport where
  opensslConnection : OpenSSLWriter false
  randomDevice : Nat → UInt32
  drawn : Nat

namespace WssTransport

def getRandomBytesOfLength (s : WssTransport) (len : Nat) : Bytes × WssTransport :=
  ((List.range len).map fun itr => (s.randomDevice (s.drawn + itr) % (1 <<< 8)).toUInt8,
    { s with drawn := s.drawn + len })

def write (s : WssTransport) (buf : Bytes) (out : Nat) : WriteResult WssTransport :=
  if s.opensslConnection.isConnected then
    let r := s.opensslConnection.writeInternal buf out
    ⟨r.rc, r.sizeWrittenBytesOut, { s with opensslConnection := r.connection }⟩
  else ⟨.networkDisconnectedError, out, s⟩

def writeToNetworkBuffer (s : WssTransport) (writeBuf : Bytes) : ResponseCode × WssTransport :=
  if writeBuf.length = 0 then (.networkNothingToWriteError, s)
  else
    let r := s.write writeBuf 0
    if r.rc = .success ∧ r.sizeWrittenBytesOut ≠ writeBuf.length then
      (.networkSslWriteError, r.connection)
    else (r.rc, r.connection)

def wssFrameSendCallback (s : WssTransport) (data : Bytes) (_flags : Nat) : Int × WssTransport :=
  let r := s.writeToNetworkBuffer data
  if r.1 ≠ .success then (-1, r.2) else (data.length, r.2)

/-- Nothing is received here. -/
def callbacks : WslayFrameCallbacks WssTransport where
  sendCallback := wssFrameSendCallback
  recvCallback s _ := (none, s)
  genmaskCallback s len :=
    let r := s.getRandomBytesOfLength len
    (some r.1, r.2)

/-- What the server has been sent on the TLS connection. -/
def wire (s : WssTransport) : Bytes := s.opensslConnection.written

theorem length_getRandomBytesOfLength (s : WssTransport) (len : Nat) :
    (s.getRandomBytesOfLength len).1.length = len := by
  simp [getRandomBytesOfLength]

/-- The callback takes all that it is given, or nothing. -/
theorem wssFrameSendCallback_cases (s : WssTransport) {data : Bytes} (hlen : data.length < 2 ^ 31)
    (flags : Nat) :
    ((s.wssFrameSendCallback data flags).1 = data.length ∧
        (s.wssFrameSendCallback data flags).2.wire = s.wire ++ data) ∨
      ((s.wssFrameSendCallback data flags).1 = -1 ∧
        (s.wssFrameSendCallback data flags).2.wire = s.wire) := by
  rw [wssFrameSendCallback, writeToNetworkBuffer]
  by_cases hempty : data.length = 0
  · rw [if_pos hempty]
    exact .inr ⟨rfl, rfl⟩
  · have hne : data ≠ [] := fun h => hempty (by rw [h]; rfl)
    rw [if_neg hempty, write]
    by_cases hconnected : s.opensslConnection.isConnected = true
    · rw [if_pos hconnected]
      rcases s.opensslConnection.writeInternal_allOrNothing hconnected hne hlen 0 with
        ⟨hrc, hsize, hwritten⟩ | ⟨hrc, -, hwritten⟩
      · refine .inl ?_
        simp [hrc, hsize, wire, hwritten]
      · refine .inr ?_
        simp [hrc, wire, hwritten]
    · rw [if_neg hconnected]
      exact .inr ⟨rfl, rfl⟩

/-- The callbacks on as many bytes at a time as a masked frame is put out in. -/
def smallCallbacks : WslayFrameCallbacks WssTransport :=
  { callbacks with
    sendCallback := fun s data flags =>
      if data.length ≤ tempSize then s.wssFrameSendCallback data flags else (0, s) }

theorem sends_smallCallbacks : Sends smallCallbacks wire := by
  constructor
  · intro s data flags
    simp only [smallCallbacks]
    split_ifs with hlen
    · have hsmall : data.length < 2 ^ 31 := by
        have htemp : tempSize = 4096 := rfl
        omega
      rcases s.wssFrameSendCallback_cases hsmall flags with ⟨hr, hwire⟩ | ⟨hr, hwire⟩
      · rw [hr, hwire]
        simp
      · rw [hr, hwire]
        refine ⟨by omega, ?_⟩
        simp
    · simp
  · intro s len
    refine ⟨rfl, fun key hkey => ?_⟩
    cases hkey
    exact s.length_getRandomBytesOfLength len

end WssTransport

/-- A WebSocket that is written to. -/
structure WebSocketUpstream where
  isConnected : Bool
  ctx : WslayFrameContext
  transport : WssTransport

namespace WebSocketUpstream

/-- The frame of a write. -/
def frame (buf : Bytes) : WslayFrameToSend :=
  WebSocketWrites.encodeWsFrameAsFinNoRsvNoExt wslayBinaryFrame 1 buf buf.length

def writeInternal (c : WebSocketUpstream) (buf : Bytes) (sizeWrittenBytesOut : Nat) :
    WriteResult WebSocketUpstream :=
  let sizeBytesToWrite := buf.length
  let sent := wslayFrameSend WssTransport.callbacks c.ctx (frame buf) c.transport
  let dataLenSent : Int64 :=
    match sent.1 with
    | .ok totallen => Int64.ofNat totallen
    | .error e => e.code
  let c := { c with ctx := sent.2.1, transport := sent.2.2 }
  if dataLenSent.toUInt64.toNat < sizeBytesToWrite then
    ⟨.websocketFrameTransmitError, sizeWrittenBytesOut, c⟩
  else ⟨.success, sizeBytesToWrite, c⟩

instance networkConnection : NetworkConnection WebSocketUpstream where
  isConnected c := c.isConnected
  connectInternal c := (.success, c)
  writeInternal := writeInternal
  readInternal c buf _ _ out := ⟨.networkSslNothingToRead, buf, out, c⟩
  disconnectInternal c := (.success, { c with isConnected := false })
  pending _ := 0
  pending_lt := by
    intro c buf offset size out hsize hrc
    cases hrc

/-! ### One frame -/

theorem isCtrlFrame_frame (buf : Bytes) : wslayIsCtrlFrame (frame buf).opcode = false := by
  show wslayIsCtrlFrame wslayBinaryFrame = false
  decide

theorem mask_frame (buf : Bytes) : (frame buf).mask ≠ 0 := (by decide : (1 : UInt8) ≠ 0)

theorem proper_frame (ctx : WslayFrameContext) (buf : Bytes) : Proper ctx (frame buf) where
  payloadLength := rfl
  dataLength := rfl
  mask := .inr rfl
  control := fun h => absurd (isCtrlFrame_frame buf) (by simp [h])
  plain := fun h => absurd h (mask_frame buf)

theorem length_headerBytes {iocb : WslayFrameToSend} {header : Bytes}
    (h : headerBytes iocb = some header) : header.length ≤ 10 := by
  rw [headerBytes] at h
  have hmemory : ∀ width n, (memory width n).length = width := by
    intro width n
    rw [memory, List.length_reverse, BigEndian.length_encode]
  split_ifs at h <;> cases h <;> simp [hmemory]

theorem headerBytes_frame {buf : Bytes} (hlen : buf.length < 2 ^ 63) :
    ∃ header, headerBytes (frame buf) = some header := by
  rw [headerBytes_eq (proper_frame .create buf).mask]
  have hctrl : ¬ (wslayIsCtrlFrame (frame buf).opcode &&
      decide (125 < (frame buf).payloadLength)) = true := by
    simp [isCtrlFrame_frame]
  rw [if_neg hctrl, if_pos (show (frame buf).payloadLength < 2 ^ 63 from hlen)]
  exact ⟨_, rfl⟩

theorem prepHeader_frame {buf : Bytes} (hlen : buf.length < 2 ^ 63) (ctx : WslayFrameContext)
    (s : WssTransport) : ∃ after t, prepHeader WssTransport.callbacks ctx (frame buf) s =
      (.ok (), after, t) ∧ after.omask ≠ 0 ∧ after.oheader.length ≤ tempSize := by
  obtain ⟨header, hheader⟩ := headerBytes_frame hlen
  have hshort := length_headerBytes hheader
  have hkey := s.length_getRandomBytesOfLength 4
  rw [prepHeader, hheader]
  refine ⟨_, _, if_pos (mask_frame buf), (by decide : (1 : UInt8) ≠ 0), ?_⟩
  show (header ++ (s.getRandomBytesOfLength 4).1).length ≤ 4096
  rw [List.length_append]
  omega

theorem frame_outcome {ctx : WslayFrameContext} (hstate : ctx.ostate = .prepHeader) {buf : Bytes}
    (hlen : buf.length < 2 ^ 63) (s : WssTransport) :
    Outcome WssTransport.wire ⟨frame buf, buf⟩ [] s
      (wslayFrameSend WssTransport.callbacks ctx (frame buf) s) := by
  obtain ⟨after, t, hprep, hmasked, hheader⟩ := prepHeader_frame hlen ctx s
  have hsmall : prepHeader WssTransport.smallCallbacks ctx (frame buf) s = (.ok (), after, t) := hprep
  have hle : ¬ (frame buf).payloadLength < (frame buf).dataLength := Nat.lt_irrefl _
  have hsame : wslayFrameSend WssTransport.callbacks ctx (frame buf) s =
      wslayFrameSend WssTransport.smallCallbacks ctx (frame buf) s := by
    rw [wslayFrameSend_eq hle, wslayFrameSend_eq hle, if_pos hstate, if_pos hstate, hprep, hsmall]
    refine proceed_congr ?_ hmasked hheader (frame buf) t
    intro u data fl hdata
    exact (if_pos hdata).symm
  have hidle : Position ctx ⟨frame buf, buf⟩ [] := .idle hstate (proper_frame ctx buf) rfl
  rw [hsame]
  rcases wslayFrameSend_outcome WssTransport.sends_smallCallbacks hidle s with houtcome | ⟨e, -, -, he⟩
  · exact houtcome
  · have hok : (prepHeader WssTransport.smallCallbacks ctx (frame buf) s).1 = .ok () := by rw [hsmall]
    exact absurd (he.symm.trans hok) (by simp)

/-- What a write has put out is a beginning of its frame, and all of it when the sender is
ready for the next one. -/
structure FrameWritten (buf : Bytes) (s : WssTransport) (ctx : WslayFrameContext) (t : WssTransport)
    (f : WireFrame) (more : Bytes) : Prop where
  carries : Carries (frame buf) f
  wire : t.wire = s.wire ++ more
  isPrefix : more <+: f.encode
  whole : ctx.ostate = .prepHeader → more = f.encode

theorem exists_carries {buf : Bytes} (hlen : buf.length < 2 ^ 63) : ∃ f, Carries (frame buf) f := by
  have hctrl : ¬ (wslayIsCtrlFrame (frame buf).opcode &&
      decide (125 < (frame buf).payloadLength)) = true := by
    simp [isCtrlFrame_frame]
  have hvalid := lengthValid_flags (proper_frame .create buf) hctrl hlen
  refine ⟨⟨⟨flags (frame buf), buf.length, some ⟨[0, 0, 0, 0], rfl⟩⟩, buf, rfl, hvalid⟩, rfl, ?_, rfl,
    rfl⟩
  simp [mask_frame]

theorem wslayFrameSend_frame {ctx : WslayFrameContext} (hstate : ctx.ostate = .prepHeader)
    {buf : Bytes} (hlen : buf.length < 2 ^ 63) (s : WssTransport) :
    ∃ f more, FrameWritten buf s (wslayFrameSend WssTransport.callbacks ctx (frame buf) s).2.1
      (wslayFrameSend WssTransport.callbacks ctx (frame buf) s).2.2 f more := by
  have hbegun : ∀ {after : WslayFrameContext} {o : Outgoing} {more : Bytes}, o.iocb = frame buf →
      Position after o ([] ++ more) → ∃ f, Carries (frame buf) f ∧ more <+: f.encode := by
    intro after o more ho hs
    rcases hs.begun with hnil | ⟨f, hf, hpre⟩
    · obtain ⟨f, hf⟩ := exists_carries hlen
      exact ⟨f, hf, by rw [← List.nil_append more, hnil]; exact List.nil_prefix⟩
    · exact ⟨f, ho ▸ hf, hpre⟩
  cases frame_outcome hstate hlen s with
  | @finished f more hout hf hwire hall =>
    have hwhole : more = f.encode := hall
    exact ⟨f, more, hf, hwire, hwhole ▸ List.prefix_refl _, fun _ => hwhole⟩
  | some hout hlt hwire hbusy hs =>
    obtain ⟨f, hf, hpre⟩ := hbegun rfl hs
    exact ⟨f, _, hf, hwire, hpre, fun hready => absurd hready hbusy⟩
  | wantWrite hout hwire hbusy hs =>
    obtain ⟨f, hf, hpre⟩ := hbegun rfl hs
    exact ⟨f, _, hf, hwire, hpre, fun hready => absurd hready hbusy⟩

/-! ### Runs -/

theorem connection_writeToNetworkBuffer (threadContinue : Bool) {c : WebSocketUpstream}
    (hc : c.isConnected = true) {buf : Bytes} (hne : buf ≠ []) :
    (Action.writeToNetworkBuffer threadContinue c buf).2 =
      { c with
        ctx := (wslayFrameSend WssTransport.callbacks c.ctx (frame buf) c.transport).2.1
        transport := (wslayFrameSend WssTransport.callbacks c.ctx (frame buf) c.transport).2.2 } := by
  have hwrite : NetworkConnection.write c buf 0 = writeInternal c buf 0 := if_pos hc
  rw [writeToNetworkBuffer_once threadContinue c hne, hwrite]
  dsimp only
  rw [writeInternal]
  split_ifs <;> rfl

end WebSocketUpstream

/-- A connection and the messages that were written to it. -/
structure UpstreamRun where
  connection : WebSocketUpstream
  sent : List ClientMessage

namespace UpstreamRun

open WebSocketUpstream

def step (threadContinue : Bool) (r : UpstreamRun) (m : ClientMessage) : Option UpstreamRun :=
  some ⟨(Action.writeToNetworkBuffer threadContinue r.connection m.bytes).2, r.sent ++ [m]⟩

/-- The messages are proper, and none is written behind one whose frame has stuck. -/
abbrev Reached (threadContinue : Bool) (c : WebSocketUpstream) : UpstreamRun → Prop :=
  Transition.Reachable (step threadContinue)
    (fun r m => m.Proper ∧ r.connection.ctx.ostate = .prepHeader) ⟨c, []⟩

structure Standing (c : WebSocketUpstream) (r : UpstreamRun) (fs : List WireFrame)
    (put : Bytes) : Prop where
  connected : r.connection.isConnected = true
  proper : ∀ m ∈ r.sent, m.Proper
  carries : List.Forall₂ Carries (r.sent.map (frame ·.bytes)) fs
  wire : r.connection.transport.wire = c.transport.wire ++ put
  isPrefix : put <+: fs.flatMap WireFrame.encode
  whole : r.connection.ctx.ostate = .prepHeader → put = fs.flatMap WireFrame.encode

theorem bytes_of_proper {m : ClientMessage} (h : m.Proper) :
    m.bytes ≠ [] ∧ m.bytes.length < 2 ^ 63 := by
  obtain ⟨packet, -, f, hf, -⟩ := h.says
  refine ⟨hf ▸ f.bytes_ne_nil, ?_⟩
  have hvalue := lengthValue_lt f.lengthBytes
  have hle : 128 ^ f.lengthBytes.length ≤ 128 ^ 4 := Nat.pow_le_pow_right (by omega) f.length_le
  have hbody := f.value_eq
  have hlen := f.length_le
  rw [← hf, Frame.bytes, List.length_append, List.length_cons]
  simp only [maxNoOfRemainingLengthBytes] at hlen
  omega

theorem Standing.step {c : WebSocketUpstream} {r r' : UpstreamRun} {threadContinue : Bool}
    {m : ClientMessage} {fs : List WireFrame} {put : Bytes} (h : Standing c r fs put)
    (hm : m.Proper) (hready : r.connection.ctx.ostate = .prepHeader)
    (hstep : UpstreamRun.step threadContinue r m = some r') : ∃ fs' put', Standing c r' fs' put' := by
  obtain ⟨hne, hlen⟩ := bytes_of_proper hm
  obtain ⟨f, more, hwritten⟩ := wslayFrameSend_frame hready hlen r.connection.transport
  have hnext := connection_writeToNetworkBuffer threadContinue h.connected hne
  have hwhole := h.whole hready
  cases hstep
  refine ⟨fs ++ [f], put ++ more, ?_, ?_, ?_, ?_, ?_, ?_⟩
  · simp only [hnext, h.connected]
  · simpa [or_imp, forall_and] using ⟨h.proper, hm⟩
  · rw [List.map_append]
    exact List.rel_append h.carries (.cons hwritten.carries .nil)
  · simp only [hnext, hwritten.wire, h.wire, List.append_assoc]
  · rw [hwhole, List.flatMap_append]
    exact (List.prefix_append_right_inj _).mpr (by simpa using hwritten.isPrefix)
  · intro hlast
    simp only [hnext] at hlast
    rw [hwhole, hwritten.whole hlast]
    simp

theorem Reached.standing {c : WebSocketUpstream} (hc : c.isConnected = true) {threadContinue : Bool}
    {r : UpstreamRun} (h : Reached threadContinue c r) : ∃ fs put, Standing c r fs put := by
  induction h with
  | refl => exact ⟨[], [], hc, by simp, .nil, by simp, List.prefix_refl _, fun _ => rfl⟩
  | tail _ hcond hstep ih =>
    obtain ⟨fs, put, hstanding⟩ := ih
    exact hstanding.step hcond.1 hcond.2 hstep

/-! ### The server -/

def writesAll (num : Int) : SslWrite false num :=
  if h : 0 < num then .written num.toNat ⟨by omega, by omega⟩ (fun _ => by omega) else .error

end UpstreamRun

end AwsIotSdk
