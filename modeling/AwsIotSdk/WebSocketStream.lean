import AwsIotSdk.WebSocketConnection
import AwsIotSdk.Transition

/-! The bytes that reads from a WebSocket return, over a whole connection. They are
compared with the payloads of the data frames that came in. -/

namespace AwsIotSdk

open Transition

namespace WebSocketConnection

/-! ### The stream inside the frames -/

def framePayload : WslayFrameRecv → Bytes
  | .error _ => []
  | .ok f => if wslayIsCtrlFrame f.opcode then [] else f.data

def streamPayload (frames : List WslayFrameRecv) : Bytes := frames.flatMap framePayload

def interrupts : WslayFrameRecv → Bool
  | .error _ => true
  | .ok f => violateServerToClientWsProtocol f || wslayConnectionClose == f.opcode

/-- A frame that is received while `held` waits in the buffer, with `rest` still to come. -/
structure Undisturbing (held : Bytes) (r : WslayFrameRecv) (rest : List WslayFrameRecv) :
    Prop where
  nothingLost : interrupts r = true → held ++ framePayload r = [] ∨ streamPayload rest = []
  noPing : ∀ f, r = .ok f → interrupts r = false → f.opcode ≠ wslayPing
  noReserved : ∀ f, r = .ok f → interrupts r = false → wslayIsCtrlFrame f.opcode = true →
    f.opcode = wslayPong ∨ f.data = []

/-- Every frame that is received before `sizeBytesToRead` bytes are there. -/
def Undisturbed (held : Bytes) (incoming : List WslayFrameRecv) (sizeBytesToRead : Nat) : Prop :=
  ∀ before r rest, incoming = before ++ r :: rest → (∀ p ∈ before, interrupts p = false) →
    (held ++ streamPayload before).length < sizeBytesToRead →
    Undisturbing (held ++ streamPayload before) r rest

theorem Undisturbed.head {held : Bytes} {r : WslayFrameRecv} {rest : List WslayFrameRecv}
    {n : Nat} (h : Undisturbed held (r :: rest) n) (hn : held.length < n) :
    Undisturbing held r rest := by
  have hfirst := h [] r rest rfl (by simp) (by simpa [streamPayload] using hn)
  simpa [streamPayload] using hfirst

theorem Undisturbed.tail {held : Bytes} {r : WslayFrameRecv} {rest : List WslayFrameRecv}
    {n : Nat} (h : Undisturbed held (r :: rest) n) (hr : interrupts r = false) :
    Undisturbed (held ++ framePayload r) rest n := by
  intro before q after hsplit hbefore hlen
  have hq := h (r :: before) q after (by rw [hsplit, List.cons_append])
    (by
      intro p hp
      rcases List.mem_cons.mp hp with rfl | hp
      · exact hr
      · exact hbefore p hp)
    (by simpa [streamPayload] using hlen)
  simpa [streamPayload] using hq

theorem undisturbed_of_held {held : Bytes} {n : Nat} (incoming : List WslayFrameRecv)
    (h : n ≤ held.length) : Undisturbed held incoming n := by
  intro before r rest _ _ hlen
  rw [List.length_append] at hlen
  omega

theorem Undisturbing.cons {held : Bytes} {r : WslayFrameRecv} {rest : List WslayFrameRecv}
    {n : Nat} (hr : Undisturbing held r rest)
    (hrest : interrupts r = false → Undisturbed (held ++ framePayload r) rest n) :
    Undisturbed held (r :: rest) n := by
  intro before q after hsplit hbefore hlen
  cases before with
  | nil =>
    obtain ⟨rfl, rfl⟩ : r = q ∧ rest = after := by simpa using hsplit
    simpa [streamPayload] using hr
  | cons p before =>
    obtain ⟨rfl, hmore⟩ : r = p ∧ rest = before ++ q :: after := by simpa using hsplit
    have hq := hrest (hbefore r (by simp)) before q after hmore
      (fun p hp => hbefore p (by simp [hp])) (by simpa [streamPayload] using hlen)
    simpa [streamPayload] using hq

/-! ### One turn of the loop -/

theorem receive_interrupted (c : WebSocketConnection) {r : WslayFrameRecv}
    (h : interrupts r = true) :
    ∃ rc, rc ≠ ResponseCode.success ∧ receive c r = .ok (some rc, c.clearBuffer) := by
  cases r with
  | error e => exact ⟨_, by simp, rfl⟩
  | ok f =>
    rw [receive]
    by_cases hv : violateServerToClientWsProtocol f = true
    · exact ⟨.websocketProtocolViolation, by simp, by rw [if_pos hv]⟩
    · have hclose : wslayConnectionClose = f.opcode := by simpa [interrupts, hv] using h
      exact ⟨.websocketMaxLifetimeReached, by simp, by rw [if_neg hv, if_pos hclose]⟩

theorem receive_undisturbing (c : WebSocketConnection) {held : Bytes} {r : WslayFrameRecv}
    {rest : List WslayFrameRecv} (hr : interrupts r = false) (h : Undisturbing held r rest) :
    receive c r = .ok (none, c.appendBytesToBuffer (framePayload r)) := by
  cases r with
  | error e => cases hr
  | ok f =>
    obtain ⟨hv, hclose⟩ : violateServerToClientWsProtocol f = false ∧
        ¬ wslayConnectionClose = f.opcode := by simpa [interrupts] using hr
    have hping : ¬ wslayPing = f.opcode := fun he => h.noPing f rfl hr he.symm
    rw [receive, hv, if_neg (by simp), if_neg hclose, if_neg hping]
    by_cases hpong : wslayPong = f.opcode
    · have hctrl : wslayIsCtrlFrame f.opcode = true := by rw [← hpong]; decide
      rw [if_pos hpong, framePayload, if_pos hctrl]
      simp [appendBytesToBuffer]
    · rw [if_neg hpong, framePayload]
      by_cases hctrl : wslayIsCtrlFrame f.opcode = true
      · rcases h.noReserved f rfl hr hctrl with he | he
        · exact absurd he.symm hpong
        · rw [if_pos hctrl, he]
      · rw [if_neg hctrl]

/-! ### One call -/

structure ReadCall where
  buf : Bytes
  bufReadOffset : Nat
  sizeBytesToRead : Nat
  sizeReadBytesOut : Nat
  offset_le : bufReadOffset ≤ buf.length

def returned (call : ReadCall) (o : ReadOutcome) : Bytes :=
  if o.rc = .success then o.buf.drop call.bufReadOffset else []

structure ReturnsRequested (call : ReadCall) (o : ReadOutcome) : Prop where
  front : o.buf.take call.bufReadOffset = call.buf.take call.bufReadOffset
  length : (returned call o).length = call.sizeBytesToRead
  sizeReadBytesOut : o.sizeReadBytesOut = call.sizeBytesToRead

def CounterExact (c : WebSocketConnection) : Prop := c.currReadBufSize = c.readBuf.length

/-- What is still to be returned: the bytes of the buffer and of the frames to come. -/
def ahead (c : WebSocketConnection) : Bytes := c.readBuf ++ streamPayload c.incoming

structure ReadFaithful (call : ReadCall) (c : WebSocketConnection) (o : ReadOutcome) : Prop where
  counter : CounterExact o.connection
  stream : returned call o ++ ahead o.connection <+: ahead c
  requested : o.rc = .success → ReturnsRequested call o

theorem serve_faithful (call : ReadCall) {c : WebSocketConnection} (hc : CounterExact c)
    (hn : call.sizeBytesToRead ≤ c.currReadBufSize) :
    ∃ o, serve c call.buf call.bufReadOffset call.sizeBytesToRead = .ok o ∧
      ReadFaithful call c o := by
  have hlen : call.sizeBytesToRead ≤ c.readBuf.length := hc ▸ hn
  have hoffset := call.offset_le
  have hguard : ¬ (call.buf.length < call.bufReadOffset ∨
      c.readBuf.length < call.sizeBytesToRead) := by omega
  have hfront : (call.buf.take call.bufReadOffset).length = call.bufReadOffset := by
    rw [List.length_take]
    omega
  have hback : ∀ w : Bytes, (call.buf.take call.bufReadOffset ++ w).drop call.bufReadOffset =
      w := fun w => List.drop_left' hfront
  refine ⟨_, by rw [serve, if_neg hguard], ?_, ?_, fun _ => ⟨?_, ?_, rfl⟩⟩
  · simp only [CounterExact, List.length_drop]
    have : c.currReadBufSize = c.readBuf.length := hc
    omega
  · simp only [returned, if_true, hback, ahead]
    rw [← List.append_assoc, List.take_append_drop]
  · exact List.take_left' hfront
  · simp only [returned, if_true, hback, List.length_take]
    omega

/-- The induction is on the frames to come; every turn appends one frame's payload. -/
theorem readLoop_faithful (call : ReadCall) (frames : List WslayFrameRecv)
    (c : WebSocketConnection) (hc : CounterExact c)
    (h : Undisturbed c.readBuf frames call.sizeBytesToRead) :
    ∃ r, readLoop call.buf call.bufReadOffset call.sizeBytesToRead call.sizeReadBytesOut
        frames c = .ok r ∧
      ∀ o, r = some o → ReadFaithful call { c with incoming := frames } o := by
  induction frames generalizing c with
  | nil =>
    rw [readLoop]
    by_cases hn : call.sizeBytesToRead ≤ c.currReadBufSize
    · obtain ⟨o, ho, hfaithful⟩ := serve_faithful call (c := { c with incoming := [] }) hc hn
      refine ⟨some o, by rw [if_pos hn, ho]; rfl, ?_⟩
      intro o' ho'
      cases ho'
      exact hfaithful
    · exact ⟨none, by rw [if_neg hn], nofun⟩
  | cons r rest ih =>
    rw [readLoop]
    by_cases hn : call.sizeBytesToRead ≤ c.currReadBufSize
    · obtain ⟨o, ho, hfaithful⟩ :=
        serve_faithful call (c := { c with incoming := r :: rest }) hc hn
      refine ⟨some o, by rw [if_pos hn, ho]; rfl, ?_⟩
      intro o' ho'
      cases ho'
      exact hfaithful
    · have hcount : c.currReadBufSize = c.readBuf.length := hc
      have hr := h.head (by omega)
      rw [if_neg hn]
      by_cases hint : interrupts r = true
      · obtain ⟨rc, hrc, hreceive⟩ := receive_interrupted { c with incoming := rest } hint
        refine ⟨_, by rw [hreceive], ?_⟩
        intro o ho
        cases ho
        refine ⟨rfl, ?_, fun hsuccess => absurd hsuccess hrc⟩
        have hnone : returned call ⟨rc, call.buf, call.sizeReadBytesOut,
            clearBuffer { c with incoming := rest }⟩ = [] := by rw [returned, if_neg hrc]
        rw [hnone]
        rcases hr.nothingLost hint with hempty | hempty
        · have hheld : c.readBuf = [] ∧ framePayload r = [] := by simpa using hempty
          simp [ahead, clearBuffer, streamPayload, hheld.1, hheld.2]
        · simp [ahead, clearBuffer, hempty]
      · have hint := Bool.eq_false_iff.mpr hint
        rw [receive_undisturbing _ hint hr]
        obtain ⟨result, hresult, hfaithful⟩ := ih
          (appendBytesToBuffer { c with incoming := rest } (framePayload r))
          (by simp [CounterExact, appendBytesToBuffer, hcount]) (h.tail hint)
        refine ⟨result, hresult, ?_⟩
        intro o ho
        have hrest := hfaithful o ho
        refine ⟨hrest.counter, ?_, hrest.requested⟩
        simpa [ahead, appendBytesToBuffer, streamPayload] using hrest.stream

/-! ### A connection -/

/-- `results` are the calls made so far, each with what it returned. -/
structure StreamState where
  connection : WebSocketConnection
  results : List (ReadCall × ReadOutcome)
  fault : Option Fault

def opened (incoming : List WslayFrameRecv) : StreamState := ⟨⟨[], 0, incoming⟩, [], none⟩

/-- One call. A call that still waits for the receiver is not a step yet. -/
def readStep (s : StreamState) (call : ReadCall) : Option StreamState :=
  match s.fault with
  | some _ => none
  | none =>
    match s.connection.readInternal call.buf call.bufReadOffset call.sizeBytesToRead
        call.sizeReadBytesOut with
    | .error f => some { s with fault := some f }
    | .ok none => none
    | .ok (some o) => some ⟨o.connection, s.results ++ [(call, o)], none⟩

def delivered (s : StreamState) : Bytes := s.results.flatMap (fun x => returned x.1 x.2)

structure StreamFaithful (incoming : List WslayFrameRecv) (s : StreamState) : Prop where
  noFault : s.fault = none
  stream : delivered s <+: streamPayload incoming
  requested : ∀ x ∈ s.results, x.2.rc = .success → ReturnsRequested x.1 x.2

structure StreamInv (incoming : List WslayFrameRecv) (s : StreamState) : Prop where
  noFault : s.fault = none
  counter : CounterExact s.connection
  stream : delivered s ++ ahead s.connection <+: streamPayload incoming
  requested : ∀ x ∈ s.results, x.2.rc = .success → ReturnsRequested x.1 x.2

def CallUndisturbed (s : StreamState) (call : ReadCall) : Prop :=
  Undisturbed s.connection.readBuf s.connection.incoming call.sizeBytesToRead

theorem streamInv_opened (incoming : List WslayFrameRecv) :
    StreamInv incoming (opened incoming) where
  noFault := rfl
  counter := rfl
  stream := by simp [opened, delivered, ahead]
  requested := nofun

theorem streamInv_readStep {incoming : List WslayFrameRecv} {s t : StreamState}
    {call : ReadCall} (hi : StreamInv incoming s) (h : CallUndisturbed s call)
    (hs : readStep s call = some t) : StreamInv incoming t := by
  obtain ⟨r, hr, hfaithful⟩ := readLoop_faithful call s.connection.incoming s.connection
    hi.counter h
  rw [readStep, hi.noFault] at hs
  simp only [readInternal, hr] at hs
  cases r with
  | none => cases hs
  | some o =>
    cases hs
    have ho := hfaithful o rfl
    refine ⟨rfl, ho.counter, ?_, ?_⟩
    · have hmore : delivered ⟨o.connection, s.results ++ [(call, o)], none⟩ =
          delivered s ++ returned call o := by simp [delivered]
      rw [hmore, List.append_assoc]
      exact ((List.prefix_append_right_inj _).mpr ho.stream).trans hi.stream
    · intro x hx hsuccess
      rcases List.mem_append.mp hx with hx | hx
      · exact hi.requested x hx hsuccess
      · cases List.mem_singleton.mp hx
        exact ho.requested hsuccess

/-- The reads of a connection return the stream that came in, as long as no received frame
disturbs it. -/
theorem readInternal_streamFaithful (incoming : List WslayFrameRecv) (s : StreamState)
    (h : Reachable readStep CallUndisturbed (opened incoming) s) : StreamFaithful incoming s := by
  have hi : StreamInv incoming s := h.invariant (streamInv_opened incoming)
    (fun _ _ _ hi hc hs => streamInv_readStep hi hc hs)
  exact ⟨hi.noFault, (List.prefix_append _ _).trans hi.stream, hi.requested⟩

def binaryFrame (data : Bytes) : WslayFrameRecv := .ok ⟨0, 2, 0, data⟩

theorem undisturbing_binaryFrame (held data : Bytes) (rest : List WslayFrameRecv) :
    Undisturbing held (binaryFrame data) rest where
  nothingLost := nofun
  noPing := by
    intro f hf _
    cases hf
    exact show ¬ (2 : UInt8) = wslayPing by decide
  noReserved := by
    intro f hf _ hctrl
    cases hf
    exact absurd hctrl (show ¬ wslayIsCtrlFrame 2 = true by decide)

theorem undisturbing_error (e : WslayError) (rest : List WslayFrameRecv) :
    Undisturbing [] (.error e) rest where
  nothingLost := fun _ => .inl rfl
  noPing := nofun
  noReserved := nofun

def freshRead (sizeBytesToRead : Nat) : ReadCall := ⟨[], 0, sizeBytesToRead, 0, by simp⟩

theorem readInternal_streamFaithful_resumed :
    ∃ s, delivered s = [1, 2, 3] ∧
      StreamFaithful [binaryFrame [1, 2], .error .wantRead, binaryFrame [3]] s := by
  refine ⟨_, ?_, readInternal_streamFaithful
    [binaryFrame [1, 2], .error .wantRead, binaryFrame [3]] _
    (.tail (m := freshRead 1) (.tail (m := freshRead 1) (.tail (m := freshRead 2) .refl ?_ rfl)
      ?_ rfl) ?_ rfl)⟩
  · rfl
  · exact (undisturbing_binaryFrame _ _ _).cons fun _ => undisturbed_of_held _ (by decide)
  · exact (undisturbing_error _ _).cons nofun
  · exact (undisturbing_binaryFrame _ _ _).cons fun _ => undisturbed_of_held _ (by decide)

/-- The byte that waits in the buffer is lost when the next frame is late. -/
theorem not_streamFaithful_late :
    ¬ ∀ incoming s, Reachable readStep anyMove (opened incoming) s → StreamFaithful incoming s := by
  intro h
  have hrun := h [binaryFrame [1], .error .wantRead, binaryFrame [2]] _
    (.tail (m := freshRead 1) (.tail (m := freshRead 2) .refl trivial rfl) trivial rfl)
  have hstream := hrun.stream
  revert hstream
  decide

end WebSocketConnection

end AwsIotSdk
