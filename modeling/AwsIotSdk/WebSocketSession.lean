import AwsIotSdk.WebSocketStream
import AwsIotSdk.WebSocketWrites

/-! The calls on a WebSocket connection, in any order. A buffer of bytes and a counter of
its size stay from one call to the next. -/

namespace AwsIotSdk

open Transition WebSocketConnection

/-- The whole of the object: its two halves, and whether it has a frame context. -/
structure WebSocketSession where
  reading : WebSocketConnection
  writing : WebSocketWrites
  hasFrameContext : Bool

/-- What the calls inside `ConnectInternal` return, as far as they are made. -/
structure ConnectResults where
  sslInitialize : ResponseCode
  sslConnect : ResponseCode
  wssHandshake : ResponseCode
  wslayFrameContextInit : Int

/-- The calls inside `ConnectInternal` are all made, and go well. -/
structure ConnectResults.Succeed (results : ConnectResults) : Prop where
  sslInitialize : results.sslInitialize = .success
  sslConnect : results.sslConnect = .success
  wssHandshake : results.wssHandshake = .success
  wslayFrameContextInit : 0 ≤ results.wslayFrameContextInit

/-- A call, with what the layers below return in it. -/
inductive WebSocketCall where
  | connect (results : ConnectResults)
  | read (frames : List WslayFrameRecv) (buf : Bytes)
      (bufReadOffset sizeBytesToRead sizeReadBytesOut : Nat)
  | write (dataLenSent : Int64) (buf : Bytes) (sizeWrittenBytesOut : Nat)
  | disconnect (rc : ResponseCode)

namespace WebSocketSession

/-- A context that could not be set up is a null pointer, also where there was one. -/
def connectInternal (s : WebSocketSession) (results : ConnectResults) :
    ResponseCode × WebSocketSession :=
  if results.sslInitialize ≠ .success then (results.sslInitialize, s)
  else if results.sslConnect ≠ .success then (results.sslConnect, s)
  else if results.wssHandshake ≠ .success then (results.wssHandshake, s)
  else if results.wslayFrameContextInit < 0 then
    (.websocketWslayContextInitError, { s with hasFrameContext := false })
  else (results.wssHandshake, { s with
    hasFrameContext := true
    writing := { s.writing with isConnected := true }
    reading := { s.reading with readBuf := [] } })

def readInternal (s : WebSocketSession) (frames : List WslayFrameRecv) (buf : Bytes)
    (bufReadOffset sizeBytesToRead sizeReadBytesOut : Nat) :
    Except Fault (Option WebSocketConnection.ReadOutcome) :=
  if s.hasFrameContext ∨ sizeBytesToRead ≤ s.reading.currReadBufSize then
    { s.reading with incoming := frames }.readInternal buf bufReadOffset sizeBytesToRead
      sizeReadBytesOut
  else .error .nullDereference

def writeInternal (s : WebSocketSession) (dataLenSent : Int64) (buf : Bytes)
    (sizeWrittenBytesOut : Nat) : Except Fault (WriteResult WebSocketWrites) :=
  if s.hasFrameContext then
    .ok ({ s.writing with results := fun _ => dataLenSent }.writeInternal buf sizeWrittenBytesOut)
  else .error .nullDereference

def disconnectInternal (s : WebSocketSession) (rc : ResponseCode) :
    ResponseCode × WebSocketSession :=
  (rc, { s with
    writing := { s.writing with isConnected := false }
    reading := s.reading.clearBuffer })

def create (results : Nat → Int64) (frames : List WslayFrameRecv) : WebSocketSession :=
  ⟨⟨[], 0, frames⟩, ⟨false, results, []⟩, false⟩

/-- There is no state behind a call that faults, or that waits for the receiver. -/
def step (s : WebSocketSession) : WebSocketCall → Option WebSocketSession
  | .connect results => some (s.connectInternal results).2
  | .read frames buf bufReadOffset sizeBytesToRead sizeReadBytesOut =>
    match s.readInternal frames buf bufReadOffset sizeBytesToRead sizeReadBytesOut with
    | .ok (some o) => some { s with reading := o.connection }
    | _ => none
  | .write dataLenSent buf sizeWrittenBytesOut =>
    match s.writeInternal dataLenSent buf sizeWrittenBytesOut with
    | .ok r => some { s with writing := r.connection }
    | .error _ => none
  | .disconnect rc => some (s.disconnectInternal rc).2

end WebSocketSession

/-! ### The counter inside a read -/

namespace WebSocketConnection

/-- What a read does with an exact counter: it leaves an exact one, and only a position
behind the caller's own buffer is out of bounds. -/
structure KeepsCounter (buf : Bytes) (bufReadOffset : Nat) (r : Except Fault (Option ReadOutcome)) :
    Prop where
  counter : ∀ o, r = .ok (some o) → CounterExact o.connection
  withinBuffer : bufReadOffset ≤ buf.length → r ≠ .error .outOfBounds

theorem keepsCounter_ok {buf : Bytes} {bufReadOffset : Nat} {r : Option ReadOutcome}
    (h : ∀ o, r = some o → CounterExact o.connection) :
    KeepsCounter buf bufReadOffset (.ok r) := by
  refine ⟨fun o ho => h o ?_, fun _ hfault => ?_⟩
  · cases ho
    rfl
  · cases hfault

theorem keepsCounter_error {buf : Bytes} {bufReadOffset : Nat} {f : Fault}
    (h : bufReadOffset ≤ buf.length → f ≠ .outOfBounds) :
    KeepsCounter buf bufReadOffset (.error f) := by
  refine ⟨fun o ho => ?_, fun hoffset hfault => ?_⟩
  · cases ho
  · cases hfault
    exact h hoffset rfl

theorem serve_keepsCounter {c : WebSocketConnection} (hc : CounterExact c) (buf : Bytes)
    {bufReadOffset sizeBytesToRead : Nat} (hn : sizeBytesToRead ≤ c.currReadBufSize) :
    KeepsCounter buf bufReadOffset ((serve c buf bufReadOffset sizeBytesToRead).map some) := by
  have hcount : c.currReadBufSize = c.readBuf.length := hc
  rw [serve]
  split_ifs with hbounds
  · refine keepsCounter_error fun hoffset => ?_
    omega
  · refine keepsCounter_ok fun o ho => ?_
    cases ho
    change c.currReadBufSize - sizeBytesToRead = (c.readBuf.drop sizeBytesToRead).length
    rw [List.length_drop, hcount]

theorem CounterExact.appendBytesToBuffer {c : WebSocketConnection} (h : CounterExact c)
    (data : Bytes) : CounterExact (c.appendBytesToBuffer data) := by
  change c.currReadBufSize + data.length = (c.readBuf ++ data).length
  rw [List.length_append, show c.currReadBufSize = c.readBuf.length from h]

theorem counterExact_clearBuffer (c : WebSocketConnection) : CounterExact c.clearBuffer := rfl

theorem CounterExact.receive {c : WebSocketConnection} (h : CounterExact c) (r : WslayFrameRecv) :
    c.receive r = .error .nullDereference ∨
      ∃ rc after, c.receive r = .ok (rc, after) ∧ CounterExact after := by
  cases r with
  | error e => exact .inr ⟨_, _, rfl, counterExact_clearBuffer c⟩
  | ok f =>
    rw [WebSocketConnection.receive]
    split_ifs
    · exact .inr ⟨_, _, rfl, counterExact_clearBuffer c⟩
    · exact .inr ⟨_, _, rfl, counterExact_clearBuffer c⟩
    · exact .inl rfl
    · exact .inr ⟨_, _, rfl, h⟩
    · exact .inr ⟨_, _, rfl, h.appendBytesToBuffer f.data⟩

/-- The induction is on the frames; every turn that goes on leaves an exact counter. -/
theorem readLoop_keepsCounter (buf : Bytes) (bufReadOffset sizeBytesToRead out : Nat)
    (frames : List WslayFrameRecv) {c : WebSocketConnection} (hc : CounterExact c) :
    KeepsCounter buf bufReadOffset
      (readLoop buf bufReadOffset sizeBytesToRead out frames c) := by
  induction frames generalizing c with
  | nil =>
    rw [readLoop]
    split_ifs with hn
    · exact serve_keepsCounter (c := { c with incoming := [] }) hc buf hn
    · exact keepsCounter_ok (by simp)
  | cons r rest ih =>
    rw [readLoop]
    split_ifs with hn
    · exact serve_keepsCounter (c := { c with incoming := r :: rest }) hc buf hn
    · have hrest : CounterExact { c with incoming := rest } := hc
      rcases hrest.receive r with hfault | ⟨rc, after, hok, hafter⟩
      · rw [hfault]
        exact keepsCounter_error (by simp)
      · rw [hok]
        cases rc with
        | none => exact ih hafter
        | some rc =>
          refine keepsCounter_ok fun o ho => ?_
          cases ho
          exact hafter

end WebSocketConnection

namespace WebSocketSession

/-! ### The counter over all calls -/

/-- The counter is the size of the buffer, and no read goes past the end of the buffer. -/
structure CounterKept (s : WebSocketSession) : Prop where
  counter : CounterExact s.reading
  withinBuffer : ∀ frames buf bufReadOffset sizeBytesToRead sizeReadBytesOut,
    bufReadOffset ≤ buf.length →
      s.readInternal frames buf bufReadOffset sizeBytesToRead sizeReadBytesOut ≠
        .error .outOfBounds

/-- No byte waits in the buffer when a connect goes through. -/
def NothingHeld (s : WebSocketSession) : WebSocketCall → Prop
  | .connect results => results.Succeed → s.reading.readBuf = []
  | _ => True

theorem readInternal_keepsCounter {s : WebSocketSession} (h : CounterExact s.reading)
    (frames : List WslayFrameRecv) (buf : Bytes)
    (bufReadOffset sizeBytesToRead sizeReadBytesOut : Nat) :
    KeepsCounter buf bufReadOffset
      (s.readInternal frames buf bufReadOffset sizeBytesToRead sizeReadBytesOut) := by
  rw [readInternal]
  split_ifs
  · exact readLoop_keepsCounter buf bufReadOffset sizeBytesToRead sizeReadBytesOut frames
      (c := { s.reading with incoming := frames }) h
  · exact keepsCounter_error (by simp)

theorem counterKept_iff {s : WebSocketSession} : CounterKept s ↔ CounterExact s.reading :=
  ⟨CounterKept.counter, fun h => ⟨h, fun frames buf bufReadOffset sizeBytesToRead out =>
    (readInternal_keepsCounter h frames buf bufReadOffset sizeBytesToRead out).withinBuffer⟩⟩

theorem connectInternal_reading (s : WebSocketSession) (results : ConnectResults) :
    (¬results.Succeed ∧ (s.connectInternal results).2.reading = s.reading) ∨
      results.Succeed ∧
        (s.connectInternal results).2.reading = { s.reading with readBuf := [] } := by
  rw [connectInternal]
  split_ifs with hinitialize hconnect hhandshake hcontext
  · exact .inl ⟨fun h => hinitialize h.sslInitialize, rfl⟩
  · exact .inl ⟨fun h => hconnect h.sslConnect, rfl⟩
  · exact .inl ⟨fun h => hhandshake h.wssHandshake, rfl⟩
  · exact .inl ⟨fun h => absurd h.wslayFrameContextInit (by omega), rfl⟩
  · exact .inr ⟨⟨not_not.mp hinitialize, not_not.mp hconnect, not_not.mp hhandshake, by omega⟩,
      rfl⟩

/-- One call keeps an exact counter, but for a connect that throws bytes away. -/
theorem counterExact_step_iff {s t : WebSocketSession} {call : WebSocketCall}
    (hs : CounterExact s.reading) (h : step s call = some t) :
    CounterExact t.reading ↔ NothingHeld s call := by
  cases call with
  | connect results =>
    cases h
    rcases connectInternal_reading s results with ⟨hfail, hsame⟩ | ⟨hsucceed, hcleared⟩
    · rw [hsame]
      exact ⟨fun _ hsucceed => absurd hsucceed hfail, fun _ => hs⟩
    · rw [hcleared]
      have hcount : s.reading.currReadBufSize = s.reading.readBuf.length := hs
      have hempty : CounterExact { s.reading with readBuf := [] } ↔ s.reading.readBuf = [] := by
        change s.reading.currReadBufSize = 0 ↔ s.reading.readBuf = []
        rw [hcount, List.length_eq_zero_iff]
      exact ⟨fun hexact _ => hempty.mp hexact, fun hheld => hempty.mpr (hheld hsucceed)⟩
  | read frames buf bufReadOffset sizeBytesToRead out =>
    have hread := readInternal_keepsCounter hs frames buf bufReadOffset sizeBytesToRead out
    rw [step] at h
    split at h
    next o ho =>
      cases h
      exact ⟨fun _ => trivial, fun _ => hread.counter o ho⟩
    next => cases h
  | write dataLenSent buf out =>
    rw [step] at h
    split at h
    next r hr =>
      cases h
      exact ⟨fun _ => trivial, fun _ => hs⟩
    next => cases h
  | disconnect rc =>
    cases h
    exact ⟨fun _ => trivial, fun _ => counterExact_clearBuffer s.reading⟩

/-- The counter is exact in every run whose connects find the buffer empty. -/
theorem counterKept_of_nothingHeld (results : Nat → Int64) (frames : List WslayFrameRecv)
    {s : WebSocketSession} (h : Reachable step NothingHeld (create results frames) s) :
    CounterKept s := by
  have hcreate : CounterExact (create results frames).reading := rfl
  refine counterKept_iff.mpr (h.invariant (P := fun s => CounterExact s.reading) hcreate ?_)
  intro s call t hs hheld hstep
  exact (counterExact_step_iff hs hstep).mpr hheld

def connected : WebSocketCall := .connect ⟨.success, .success, .success, 0⟩

def readOne : WebSocketCall := .read [binaryFrame [1, 2]] [] 0 1 0

theorem counterKept_of_nothingHeld_disconnected :
    ∃ s, s.reading.readBuf = [2] ∧ CounterKept s := by
  refine ⟨_, ?_, counterKept_of_nothingHeld (fun _ => 0) []
    (.tail (m := readOne) (.tail (m := connected) (.tail (m := .disconnect .success)
      (.tail (m := readOne) (.tail (m := connected) .refl ?_ rfl) ?_ rfl) ?_ rfl) ?_ rfl) ?_ rfl)⟩
  · rfl
  · exact fun _ => rfl
  · trivial
  · trivial
  · exact fun _ => rfl
  · trivial

/-- A second connect throws a byte away that goes on being counted; the next read takes
it from behind the end of the buffer. -/
theorem not_counterKept_reconnected :
    ∃ s, Reachable step anyMove (create (fun _ => 0) []) s ∧ ¬CounterKept s ∧
      s.readInternal [] [] 0 1 0 = .error .outOfBounds := by
  refine ⟨_, .tail (m := connected) (.tail (m := readOne) (.tail (m := connected) .refl trivial rfl)
    trivial rfl) trivial rfl, ?_, rfl⟩
  intro h
  have hcounter : 1 = 0 := h.counter
  cases hcounter

end WebSocketSession

end AwsIotSdk
