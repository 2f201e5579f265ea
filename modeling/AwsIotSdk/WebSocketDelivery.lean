import AwsIotSdk.WebSocketStream
import AwsIotSdk.WslayLink

/-! What a peer sends in frames, from its sender over the pipe and the receiver to the reads of
a WebSocket connection. -/

namespace AwsIotSdk

open WebSocketFrame WslayFrameContext WebSocketConnection

/-- The part of a report that the connection looks at. -/
def WslayFrameReceived.iocb (f : WslayFrameReceived) : WslayFrameIocb :=
  ⟨f.rsv, f.opcode, f.mask, f.data⟩

namespace WebSocketDelivery

/-! ### Payload bytes -/

def itemData : Item → Bytes
  | .empty _ => []
  | .byte info b => if isControl info.flags then [] else [b]

theorem flatMap_itemData (info : Info) (bytes : Bytes) :
    (bytes.map (Item.byte info)).flatMap itemData = if isControl info.flags then [] else bytes := by
  induction bytes with
  | nil => simp
  | cons b bytes ih =>
    rw [List.map_cons, List.flatMap_cons, ih]
    by_cases hctrl : isControl info.flags = true
    · simp [itemData, hctrl]
    · simp [itemData, hctrl]

theorem isControl_flagsOf (fin rsv opcode : UInt8) :
    isControl (flagsOf fin rsv opcode) = wslayIsCtrlFrame opcode := by
  have hbit : (WebSocketFrame.opcode (flagsOf fin rsv opcode) >>> (3 : UInt8)) &&& (1 : UInt8) =
      (opcode >>> (3 : UInt8)) &&& (1 : UInt8) := by
    apply UInt8.eq_of_toBitVec_eq
    ext i hi
    interval_cases i <;> simp [WebSocketFrame.opcode, flagsOf]
  rw [isControl, hbit]
  rfl

/-- What a report says of the payload is what its call filled in. -/
theorem flatMap_report (f : WslayFrameReceived) :
    (report f).flatMap itemData = framePayload (.ok f.iocb) := by
  have hempty : (if f.payloadLength = 0 then
      [Item.empty ⟨flagsOf f.fin f.rsv f.opcode, f.payloadLength, decide (f.mask ≠ 0)⟩]
    else []).flatMap itemData = [] := by
    split_ifs
    · rfl
    · rfl
  rw [report, List.flatMap_append, hempty, flatMap_itemData, isControl_flagsOf]
  rfl

/-- The results that a connection got from its receiver: the reports, and errors between them. -/
def ResultsOf (incoming : List WslayFrameRecv) (reports : List WslayFrameReceived) : Prop :=
  incoming.filterMap Except.toOption = reports.map (·.iocb)

theorem streamPayload_filterMap (incoming : List WslayFrameRecv) :
    streamPayload incoming =
      (incoming.filterMap Except.toOption).flatMap fun f => framePayload (.ok f) := by
  induction incoming with
  | nil => rfl
  | cons r rest ih =>
    have hcons : streamPayload (r :: rest) = framePayload r ++ streamPayload rest := rfl
    rw [hcons, ih]
    cases r with
    | error e => rfl
    | ok f => rfl

theorem streamPayload_of_reports {incoming : List WslayFrameRecv} {reports : List WslayFrameReceived}
    (h : ResultsOf incoming reports) :
    streamPayload incoming = (reports.flatMap report).flatMap itemData := by
  rw [streamPayload_filterMap, h, List.flatMap_map, List.flatMap_assoc]
  exact congrArg (reports.flatMap ·) (funext fun f => (flatMap_report f).symm)

/-- The data that a frame takes to a connection. -/
def dataOf (iocb : WslayFrameToSend) : Bytes := if wslayIsCtrlFrame iocb.opcode then [] else iocb.data

theorem flatMap_items_itemData (iocb : WslayFrameToSend) :
    iocb.items.flatMap itemData = dataOf iocb := by
  rw [WslayFrameToSend.items, dataOf]
  split_ifs with hempty hctrl
  · rfl
  · rw [hempty]
    rfl
  · rw [flatMap_itemData, isControl_flags, if_pos ‹_›]
  · rw [flatMap_itemData, isControl_flags, if_neg ‹_›]

/-! ### From end to end -/

variable {σ : Type} {cb : WslayFrameCallbacks σ} {sent taken : σ → Bytes} {pipe : σ}
  {l : WslayLink σ}

/-- Reads that nothing disturbs return a beginning of the data that the peer has sent, in its
order, however the frames were cut up on the way. -/
theorem delivered_of_sent (hcb : Pipes cb sent taken) (hempty : sent pipe = [])
    (hl : WslayLink.Reached cb pipe l) {incoming : List WslayFrameRecv}
    (hincoming : ResultsOf incoming l.reports) {s : StreamState}
    (hs : Transition.Reachable readStep CallUndisturbed (opened incoming) s) :
    delivered s <+: l.frames.flatMap dataOf ∧ s.fault = none := by
  have hinv : StreamInv incoming s := hs.invariant (streamInv_opened incoming)
    fun _ _ _ hi hcall hstep => streamInv_readStep hi hcall hstep
  have hreports := (hl.standing hcb).reports_prefix_of hcb hempty
  have hdata : l.receiver.items.flatMap itemData <+:
      (l.frames.flatMap WslayFrameToSend.items).flatMap itemData := hreports.flatMap _
  have hitems : (l.frames.flatMap WslayFrameToSend.items).flatMap itemData =
      l.frames.flatMap dataOf := by
    rw [List.flatMap_assoc]
    exact congrArg (l.frames.flatMap ·) (funext flatMap_items_itemData)
  have hstream : streamPayload incoming = l.receiver.items.flatMap itemData :=
    streamPayload_of_reports hincoming
  rw [hitems, ← hstream] at hdata
  have hdelivered : delivered s <+: streamPayload incoming :=
    (List.prefix_append _ _).trans hinv.stream
  exact ⟨hdelivered.trans hdata, hinv.noFault⟩

/-- The sender has one frame to send. -/
def onlySends (l : WslayLink Pipe) : WslayLink.Move → Bool
  | .send iocb => l.current.isSome || iocb == ⟨1, 0, 2, 2, 0, [7, 8], 2⟩ && l.sent.isEmpty &&
      l.octx == WslayFrameContext.create
  | .receive => true

/-- A frame that comes in two pieces, read with one call. -/
theorem delivered_of_sent_pipe : ∃ (l : WslayLink Pipe) (s : StreamState),
    WslayLink.Reached (Pipe.callbacks 1) ⟨[], []⟩ l ∧ delivered s = [7, 8] ∧
    delivered s <+: l.frames.flatMap dataOf ∧ s.fault = none := by
  have hproper : Proper WslayFrameContext.create ⟨1, 0, 2, 2, 0, [7, 8], 2⟩ :=
    ⟨rfl, rfl, .inl rfl, by decide, fun _ => rfl⟩
  have hrun : ∃ l, Transition.runWhile (WslayLink.step (Pipe.callbacks 1))
      onlySends (WslayLink.create ⟨[], []⟩)
      [.send ⟨1, 0, 2, 2, 0, [7, 8], 2⟩, .send ⟨1, 0, 2, 2, 0, [7, 8], 2⟩,
        .send ⟨1, 0, 2, 2, 0, [7, 8], 2⟩, .receive, .receive, .receive] = some l ∧
      l.reports.map (·.iocb) = [⟨0, 2, 0, [7]⟩, ⟨0, 2, 0, [8]⟩] := ⟨_, rfl, rfl⟩
  obtain ⟨l, hl, hreports⟩ := hrun
  have hreached : WslayLink.Reached (Pipe.callbacks 1) ⟨[], []⟩ l := by
    refine Transition.reachable_of_runWhile (P := fun _ => True) (fun _ _ _ _ _ _ => trivial)
      (fun l m _ hm => ?_) trivial hl
    cases m with
    | send iocb =>
      intro hidle
      simp only [onlySends, hidle, Option.isSome_none, Bool.false_or, Bool.and_eq_true, beq_iff_eq] at hm
      rw [hm.1.1, hm.2]
      exact hproper
    | receive => trivial
  have hincoming : ResultsOf [binaryFrame [7], .error .wantRead, binaryFrame [8]] l.reports := by
    rw [ResultsOf, hreports]
    rfl
  have hreads : ∃ s, Transition.Reachable readStep CallUndisturbed
      (opened [binaryFrame [7], .error .wantRead, binaryFrame [8]]) s ∧ delivered s = [7, 8] := by
    refine ⟨_, .tail (m := freshRead 1) (.tail (m := freshRead 1) (.tail (m := freshRead 1) .refl ?_
      rfl) ?_ rfl) ?_ rfl, rfl⟩
    · exact (undisturbing_binaryFrame _ _ _).cons fun _ => undisturbed_of_held _ (by decide)
    · exact (undisturbing_error _ _).cons fun h => absurd h (by decide)
    · exact (undisturbing_binaryFrame _ _ _).cons fun _ => undisturbed_of_held _ (by decide)
  obtain ⟨s, hs, hdata⟩ := hreads
  exact ⟨l, s, hreached, hdata, delivered_of_sent (WslayLink.pipes_pipe 1) rfl hreached hincoming hs⟩

end WebSocketDelivery

end AwsIotSdk
