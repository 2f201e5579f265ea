import AwsIotSdk.WslayReceive
import AwsIotSdk.WslaySend

/-! A sender and a receiver at the ends of a pipe. Whatever the order of their calls and the
pieces that the pipe takes and gives, the frames come out as they went in. -/

namespace AwsIotSdk

open WebSocketFrame WslayFrameContext

/-! ### What a call leaves as it is -/

section Keeps

variable {σ β : Type} {cb : WslayFrameCallbacks σ} {g : σ → β}

/-- A view of the transport that the callbacks of a sender do not change. -/
structure SendKeeps (cb : WslayFrameCallbacks σ) (g : σ → β) : Prop where
  send : ∀ s data flags, g (cb.sendCallback s data flags).2 = g s
  genmask : ∀ s len, g (cb.genmaskCallback s len).2 = g s

namespace WslayFrameContext

theorem prepHeader_keeps (h : SendKeeps cb g) (ctx : WslayFrameContext) (iocb : WslayFrameToSend)
    (s : σ) : g (prepHeader cb ctx iocb s).2.2 = g s := by
  have hmask := h.genmask s 4
  rw [prepHeader]
  cases headerBytes iocb with
  | none => rfl
  | some header =>
    by_cases hmasked : iocb.mask ≠ 0
    · rcases hout : cb.genmaskCallback s 4 with ⟨key, t⟩
      rw [hout] at hmask
      cases key with
      | none => simpa [hmasked, hout] using hmask
      | some key => simpa [hmasked, hout] using hmask
    · simp [hmasked]

theorem sendHeader_keeps (h : SendKeeps cb g) (ctx : WslayFrameContext) (iocb : WslayFrameToSend)
    (s : σ) : g (sendHeader cb ctx iocb s).2.2 = g s := by
  have hsend := h.send s ctx.oheader (if 0 < iocb.dataLength then wslayMsgMore else 0)
  rw [sendHeader]
  rcases hout : cb.sendCallback s ctx.oheader (if 0 < iocb.dataLength then wslayMsgMore else 0) with
    ⟨r, t⟩
  rw [hout] at hsend
  simp only
  split_ifs <;> exact hsend

theorem sendMasked_keeps (h : SendKeeps cb g) (fuel : Nat) (data : Bytes) (totallen : Nat)
    (ctx : WslayFrameContext) (s : σ) : g (sendMasked cb fuel data totallen ctx s).2.2 = g s := by
  induction fuel generalizing data totallen ctx s with
  | zero => rfl
  | succ fuel ih =>
    by_cases hempty : data = []
    · rw [sendMasked, if_pos hempty]
    have hsend := h.send s
      (maskBytes ctx.omaskkey ctx.opayloadoff (data.take (min tempSize data.length))) 0
    rcases hout : cb.sendCallback s
      (maskBytes ctx.omaskkey ctx.opayloadoff (data.take (min tempSize data.length))) 0 with ⟨r, t⟩
    rw [hout] at hsend
    rw [sendMasked_succ hempty hout]
    split_ifs
    · exact hsend
    · rw [ih]
      exact hsend
    · exact hsend
    · exact hsend

theorem sendPlain_keeps (h : SendKeeps cb g) (ctx : WslayFrameContext) (data : Bytes) (s : σ) :
    g (sendPlain cb ctx data s).2.2 = g s := by
  have hsend := h.send s data 0
  rw [sendPlain]
  rcases hout : cb.sendCallback s data 0 with ⟨r, t⟩
  rw [hout] at hsend
  simp only
  split_ifs <;> exact hsend

theorem sendPayload_keeps (h : SendKeeps cb g) (ctx : WslayFrameContext) (iocb : WslayFrameToSend)
    (s : σ) : g (sendPayload cb ctx iocb s).2.2 = g s := by
  have hsent : g (if 0 < iocb.dataLength then
      if ctx.omask ≠ 0 then
        sendMasked cb (iocb.data.take iocb.dataLength).length (iocb.data.take iocb.dataLength) 0 ctx s
      else sendPlain cb ctx (iocb.data.take iocb.dataLength) s
    else (.ok 0, ctx, s)).2.2 = g s := by
    split_ifs
    · exact sendMasked_keeps h _ _ _ _ _
    · exact sendPlain_keeps h _ _ _
    · rfl
  rw [sendPayload]
  rcases hout : (if 0 < iocb.dataLength then
      if ctx.omask ≠ 0 then
        sendMasked cb (iocb.data.take iocb.dataLength).length (iocb.data.take iocb.dataLength) 0 ctx s
      else sendPlain cb ctx (iocb.data.take iocb.dataLength) s
    else (.ok 0, ctx, s)) with ⟨result, after, t⟩
  rw [hout] at hsent
  cases result <;> exact hsent

theorem wslayFrameSend_keeps (h : SendKeeps cb g) (ctx : WslayFrameContext) (iocb : WslayFrameToSend)
    (s : σ) : g (wslayFrameSend cb ctx iocb s).2.2 = g s := by
  have hfirst : g (if ctx.ostate = .prepHeader then prepHeader cb ctx iocb s
      else (.ok (), ctx, s)).2.2 = g s := by
    split_ifs
    · exact prepHeader_keeps h _ _ _
    · rfl
  rw [wslayFrameSend]
  by_cases hlong : iocb.payloadLength < iocb.dataLength
  · rw [if_pos hlong]
  rw [if_neg hlong]
  rcases hout : (if ctx.ostate = .prepHeader then prepHeader cb ctx iocb s
      else (.ok (), ctx, s)) with ⟨first, ctx₁, s₁⟩
  rw [hout] at hfirst
  cases first with
  | error e => exact hfirst
  | ok =>
    have hsecond : g (if ctx₁.ostate = .sendHeader then sendHeader cb ctx₁ iocb s₁
        else (.ok (), ctx₁, s₁)).2.2 = g s := by
      rw [← hfirst]
      split_ifs
      · exact sendHeader_keeps h _ _ _
      · rfl
    simp only
    rcases hout₂ : (if ctx₁.ostate = .sendHeader then sendHeader cb ctx₁ iocb s₁
        else (.ok (), ctx₁, s₁)) with ⟨second, ctx₂, s₂⟩
    rw [hout₂] at hsecond
    cases second with
    | error e => exact hsecond
    | ok =>
      simp only
      split_ifs
      · rw [sendPayload_keeps h]
        exact hsecond
      · exact hsecond

theorem wslayRecv_keeps (h : ∀ s len, g (cb.recvCallback s len).2 = g s) (ctx : WslayFrameContext)
    (s : σ) : g (wslayRecv cb ctx s).2.2 = g s := by
  have hrecv := h s (min ctx.ireqread (ibufSize - ctx.ibuf.length))
  rw [wslayRecv_eq]
  rcases hout : cb.recvCallback s (min ctx.ireqread (ibufSize - ctx.ibuf.length)) with ⟨result, t⟩
  rw [hout] at hrecv
  cases result <;> exact hrecv

theorem headerState_keeps (h : ∀ s len, g (cb.recvCallback s len).2 = g s) (state : WslayFrameState)
    (read : WslayFrameContext → Except WslayError Unit × WslayFrameContext) (ctx : WslayFrameContext)
    (s : σ) : g (headerState cb state read ctx s).2.2 = g s := by
  have hrequest : g (request cb ctx s).2.2 = g s := by
    have hrecv := wslayRecv_keeps h ctx s
    rw [request]
    by_cases hshort : ctx.ibuf.length < ctx.ireqread
    · rw [if_pos hshort]
      rcases hout : wslayRecv cb ctx s with ⟨result, after, t⟩
      rw [hout] at hrecv
      cases result with
      | error e => exact hrecv
      | ok =>
        simp only
        split_ifs <;> exact hrecv
    · rw [if_neg hshort]
  rw [headerState]
  by_cases hstate : ctx.istate = state
  · rw [if_pos hstate]
    rcases hout : request cb ctx s with ⟨result, after, t⟩
    rw [hout] at hrequest
    cases result <;> exact hrequest
  · rw [if_neg hstate]

theorem receivePayload_keeps (h : ∀ s len, g (cb.recvCallback s len).2 = g s)
    (ctx : WslayFrameContext) (s : σ) : g (receivePayload cb ctx s).2.2 = g s := by
  have hrecv := wslayRecv_keeps h { ctx with ireqread := ctx.ipayloadlen - ctx.ipayloadoff } s
  rw [receivePayload]
  split_ifs
  · rcases hout : wslayRecv cb { ctx with ireqread := ctx.ipayloadlen - ctx.ipayloadoff } s with
      ⟨result, after, t⟩
    rw [hout] at hrecv
    cases result <;> exact hrecv
  · rfl

theorem wslayFrameRecv_keeps (h : ∀ s len, g (cb.recvCallback s len).2 = g s)
    (ctx : WslayFrameContext) (s : σ) : g (wslayFrameRecv cb ctx s).2.2 = g s := by
  have h₁ := headerState_keeps h .recvHeader1 readHeader1 ctx s
  rw [wslayFrameRecv]
  rcases hout₁ : headerState cb .recvHeader1 readHeader1 ctx s with ⟨result₁, ctx₁, s₁⟩
  rw [hout₁] at h₁
  cases result₁ with
  | error e => exact h₁
  | ok =>
  have h₂ := headerState_keeps h .recvExtPayloadlen readExtPayloadlen ctx₁ s₁
  simp only at h₁ ⊢
  rcases hout₂ : headerState cb .recvExtPayloadlen readExtPayloadlen ctx₁ s₁ with ⟨result₂, ctx₂, s₂⟩
  rw [hout₂, h₁] at h₂
  cases result₂ with
  | error e => exact h₂
  | ok =>
  have h₃ := headerState_keeps h .recvMaskkey readMaskkey ctx₂ s₂
  simp only at h₂ ⊢
  rcases hout₃ : headerState cb .recvMaskkey readMaskkey ctx₂ s₂ with ⟨result₃, ctx₃, s₃⟩
  rw [hout₃, h₂] at h₃
  cases result₃ with
  | error e => exact h₃
  | ok =>
  simp only at h₃ ⊢
  split_ifs
  · rw [receivePayload_keeps h, h₃]
  · exact h₃

end WslayFrameContext

end Keeps

/-! ### A pipe with two ends -/

/-- What comes out of a pipe was put in, and neither end does the other's work. -/
structure Pipes {σ : Type} (cb : WslayFrameCallbacks σ) (sent taken : σ → Bytes) : Prop where
  sends : Sends cb sent
  receives : Receives cb taken
  order : ∀ s, taken s <+: sent s
  send_taken : SendKeeps cb taken
  recv_sent : ∀ s len, sent (cb.recvCallback s len).2 = sent s

/-- What a receiver is to report of a frame that was asked for. -/
def WslayFrameToSend.items (iocb : WslayFrameToSend) : List Item :=
  let info : Info := ⟨flags iocb, iocb.payloadLength, decide (iocb.mask ≠ 0)⟩
  if iocb.data = [] then [.empty info] else iocb.data.map (.byte info)

theorem WslayFrameContext.Carries.items {iocb : WslayFrameToSend} {f : WireFrame} (hf : Carries iocb f) :
    f.items = iocb.items := by
  have hinfo : f.header.info = ⟨WslayFrameContext.flags iocb, iocb.payloadLength, decide (iocb.mask ≠ 0)⟩ := by
    rw [Header.info, hf.flags, hf.length, hf.masked]
  rw [WireFrame.items, WslayFrameToSend.items, hinfo, hf.payload]

theorem flatMap_items {iocbs : List WslayFrameToSend} {fs : List WireFrame}
    (h : List.Forall₂ Carries iocbs fs) :
    fs.flatMap WireFrame.items = iocbs.flatMap WslayFrameToSend.items := by
  induction h with
  | nil => rfl
  | cons hf _ ih => simp [hf.items, ih]

/-- The ends of a pipe. -/
structure WslayLink (σ : Type) where
  octx : WslayFrameContext
  sent : List WslayFrameToSend
  current : Option Outgoing
  ictx : WslayFrameContext
  reports : List WslayFrameReceived
  pipe : σ

namespace WslayLink

variable {σ : Type} {cb : WslayFrameCallbacks σ} {sent taken : σ → Bytes} {pipe : σ}
  {l l' : WslayLink σ}

def create (pipe : σ) : WslayLink σ :=
  ⟨WslayFrameContext.create, [], none, WslayFrameContext.create, [], pipe⟩

def sender (l : WslayLink σ) : WslaySender σ := ⟨l.octx, l.pipe, l.sent, l.current⟩

def receiver (l : WslayLink σ) : WslayReceiver σ := ⟨l.ictx, l.pipe, l.reports⟩

inductive Move where
  | send (iocb : WslayFrameToSend)
  | receive

def step (cb : WslayFrameCallbacks σ) (l : WslayLink σ) : Move → Option (WslayLink σ)
  | .send iocb => (WslaySender.step cb l.sender iocb).map fun w =>
      { l with octx := w.ctx, sent := w.sent, current := w.current, pipe := w.transport }
  | .receive => (WslayReceiver.step cb l.receiver ()).map fun w =>
      { l with ictx := w.ctx, reports := w.reports, pipe := w.transport }

def proper (l : WslayLink σ) : Move → Prop
  | .send iocb => l.current = none → Proper l.octx iocb
  | .receive => True

abbrev Reached (cb : WslayFrameCallbacks σ) (pipe : σ) : WslayLink σ → Prop :=
  Transition.Reachable (step cb) proper (create pipe)

/-- The frames that a receiver may report: those that were sent and the one on its way. -/
def frames (l : WslayLink σ) : List WslayFrameToSend := l.sent ++ (l.current.map (·.iocb)).toList

structure Standing (sent taken : σ → Bytes) (pipe : σ) (l : WslayLink σ) : Prop where
  sender : ∃ fs part, WslaySender.Standing sent pipe l.sender fs part
  receiver : ∃ used r, WslayReceiver.Standing taken pipe l.receiver used r

theorem WslaySender_step_keeps {β : Type} {g : σ → β} (h : SendKeeps cb g) {w w' : WslaySender σ}
    {iocb : WslayFrameToSend} (hstep : WslaySender.step cb w iocb = some w') :
    g w'.transport = g w.transport := by
  have hkeeps := wslayFrameSend_keeps h w.ctx (w.current.getD ⟨iocb, iocb.data⟩).rest w.transport
  rw [WslaySender.step] at hstep
  rcases hout : wslayFrameSend cb w.ctx (w.current.getD ⟨iocb, iocb.data⟩).rest w.transport with
    ⟨result, ctx, s⟩
  rw [hout] at hkeeps
  simp only [hout] at hstep
  split at hstep
  · next hcase =>
    cases hcase
    split_ifs at hstep <;> cases hstep <;> exact hkeeps
  · next hcase =>
    cases hcase
    cases hstep
    exact hkeeps
  · cases hstep

theorem WslayReceiver_step_keeps {β : Type} {g : σ → β}
    (h : ∀ s len, g (cb.recvCallback s len).2 = g s) {w w' : WslayReceiver σ}
    (hstep : WslayReceiver.step cb w () = some w') : g w'.transport = g w.transport := by
  have hkeeps := wslayFrameRecv_keeps h w.ctx w.transport
  rw [WslayReceiver.step] at hstep
  rcases hout : wslayFrameRecv cb w.ctx w.transport with ⟨result, ctx, s⟩
  rw [hout] at hkeeps hstep
  split at hstep
  · next hcase =>
    cases hcase
    cases hstep
    exact hkeeps
  · next hcase =>
    cases hcase
    cases hstep
    exact hkeeps
  · cases hstep

theorem Standing.step (hcb : Pipes cb sent taken) {m : Move} (h : Standing sent taken pipe l)
    (hproper : l.proper m) (hstep : WslayLink.step cb l m = some l') :
    Standing sent taken pipe l' := by
  obtain ⟨fs, part, hsender⟩ := h.sender
  obtain ⟨used, r, hreceiver⟩ := h.receiver
  cases m with
  | send iocb =>
    obtain ⟨w, hw, rfl⟩ := Option.map_eq_some_iff.mp hstep
    have htaken : taken w.transport = taken l.pipe := WslaySender_step_keeps hcb.send_taken hw
    refine ⟨hsender.step hcb.sends hproper hw, used, r, ?_, hreceiver.run, hreceiver.stand,
      hreceiver.room⟩
    exact htaken.trans hreceiver.bytes
  | receive =>
    obtain ⟨w, hw, rfl⟩ := Option.map_eq_some_iff.mp hstep
    have hsent : sent w.transport = sent l.pipe := WslayReceiver_step_keeps hcb.recv_sent hw
    refine ⟨⟨fs, part, ?_, hsender.sent, hsender.idle, hsender.current⟩,
      hreceiver.step hcb.receives hw⟩
    exact hsent.trans hsender.wire

theorem Reached.standing (hcb : Pipes cb sent taken) (h : Reached cb pipe l) :
    Standing sent taken pipe l := by
  induction h with
  | refl => exact ⟨⟨[], [], WslaySender.standing_create pipe⟩,
      ⟨[], .start, WslayReceiver.standing_create pipe⟩⟩
  | tail _ hproper hstep ih => exact ih.step hcb hproper hstep

/-- The wire is the beginning of whole frames, those that were sent and perhaps one more. -/
theorem Standing.wire_prefix_of (h : Standing sent taken pipe l) (hempty : sent pipe = []) :
    ∃ fs : List WireFrame, sent l.pipe <+: fs.flatMap WireFrame.encode ∧
      fs.flatMap WireFrame.items <+: l.frames.flatMap WslayFrameToSend.items := by
  obtain ⟨fs, part, hsender⟩ := h.sender
  have hwire : sent l.pipe = fs.flatMap WireFrame.encode ++ part := by
    have hwire := hsender.wire
    rwa [hempty] at hwire
  have hitems := flatMap_items hsender.sent
  have hsent : fs.flatMap WireFrame.items <+: l.frames.flatMap WslayFrameToSend.items := by
    rw [hitems, frames, List.flatMap_append]
    exact List.prefix_append _ _
  have hpart : part = [] ∨ ∃ o f, l.current = some o ∧ Carries o.iocb f ∧ part <+: f.encode := by
    cases hcurrent : l.current with
    | none => exact .inl (hsender.idle hcurrent).2
    | some o =>
      rcases (hsender.current o hcurrent).begun with hnone | ⟨f, hf, hprefix⟩
      · exact .inl hnone
      · exact .inr ⟨o, f, rfl, hf, hprefix⟩
  rcases hpart with hnone | ⟨o, f, hcurrent, hf, hprefix⟩
  · exact ⟨fs, by rw [hwire, hnone, List.append_nil], hsent⟩
  · refine ⟨fs ++ [f], ?_, ?_⟩
    · rw [hwire, List.flatMap_append]
      simpa using hprefix
    · rw [List.flatMap_append, hitems, frames, hcurrent]
      simp [hf.items]
      exact List.prefix_rfl

theorem Pipes.taken_nil (hcb : Pipes cb sent taken) (hempty : sent pipe = []) : taken pipe = [] := by
  have horder := hcb.order pipe
  rw [hempty] at horder
  exact List.prefix_nil.mp horder

theorem Standing.reports_prefix_of (hcb : Pipes cb sent taken) (h : Standing sent taken pipe l)
    (hempty : sent pipe = []) :
    l.receiver.items <+: l.frames.flatMap WslayFrameToSend.items := by
  obtain ⟨fs, hwire, hitems⟩ := h.wire_prefix_of hempty
  obtain ⟨used, r, hreceiver⟩ := h.receiver
  have hprefix : taken l.pipe <+: taken pipe ++ fs.flatMap WireFrame.encode := by
    rw [Pipes.taken_nil hcb hempty]
    exact (hcb.order l.pipe).trans hwire
  exact (hreceiver.items_prefix_of hprefix).trans hitems

/-- In any order of calls, and while the sender is given proper frames, the receiver reports a
beginning of what was sent, refuses nothing, and has reported all of it when nothing is on its
way. -/
theorem reached_in_order (hcb : Pipes cb sent taken) (hempty : sent pipe = [])
    (h : Reached cb pipe l) :
    l.receiver.items <+: l.frames.flatMap WslayFrameToSend.items ∧
      (wslayFrameRecv cb l.ictx l.pipe).1 ≠ .error .proto ∧
      (l.current = none → l.ictx.ibuf = [] → taken l.pipe = sent l.pipe →
        l.receiver.items = l.sent.flatMap WslayFrameToSend.items) := by
  have hstanding := h.standing hcb
  have htaken : taken pipe = [] := Pipes.taken_nil hcb hempty
  obtain ⟨fs, hwire, -⟩ := hstanding.wire_prefix_of hempty
  obtain ⟨used, r, hreceiver⟩ := hstanding.receiver
  refine ⟨hstanding.reports_prefix_of hcb hempty, fun hproto => ?_, fun hidle hbuf hall => ?_⟩
  · have hsent : sent (wslayFrameRecv cb l.ictx l.pipe).2.2 = sent l.pipe :=
      wslayFrameRecv_keeps hcb.recv_sent l.ictx l.pipe
    have hprefix : taken (wslayFrameRecv cb l.ictx l.pipe).2.2 <+:
        taken pipe ++ fs.flatMap WireFrame.encode := by
      rw [htaken]
      refine (hcb.order _).trans ?_
      rw [hsent]
      exact hwire
    exact hreceiver.not_frames hcb.receives hproto fs hprefix
  · obtain ⟨fs, part, hsender⟩ := hstanding.sender
    have hpart : part = [] := (hsender.idle hidle).2
    have hframes : taken l.pipe = taken pipe ++ fs.flatMap WireFrame.encode := by
      have hwire := hsender.wire
      rw [hempty, hpart, List.append_nil] at hwire
      rw [hall, htaken]
      exact hwire
    have hitems := hreceiver.items_eq hbuf hframes
    rw [hitems]
    exact flatMap_items hsender.sent

theorem pipes_pipe (most : Nat) : Pipes (Pipe.callbacks most) Pipe.sent Pipe.taken := by
  refine ⟨WslaySender.sends_pipe most, WslayReceiver.receives_pipe most,
    fun s => List.prefix_append _ _, ⟨fun s data flags => rfl, fun s len => rfl⟩, fun s len => ?_⟩
  simp only [Pipe.callbacks]
  split
  · rfl
  · next b bytes htake =>
    show (s.taken ++ b :: bytes) ++ s.waiting.drop (min len most) = s.taken ++ s.waiting
    rw [← htake, List.append_assoc, List.take_append_drop]

/-- Two masked frames, of which the receiver reads the first while the second is sent. -/
theorem reached_in_order_pipe : ∃ l, Reached (Pipe.callbacks 4) ⟨[], []⟩ l ∧
    l.reports.map (·.data) = [[7, 8], [9, 10]] ∧ l.sent.map (·.data) = [[7, 8], [9, 10]] ∧
    l.receiver.items <+: l.frames.flatMap WslayFrameToSend.items ∧
    (wslayFrameRecv (Pipe.callbacks 4) l.ictx l.pipe).1 ≠ .error .proto ∧
    l.receiver.items = l.sent.flatMap WslayFrameToSend.items := by
  have hproper : ∀ ctx, Proper ctx ⟨1, 0, 2, 2, 1, [7, 8], 2⟩ ∧ Proper ctx ⟨1, 0, 2, 2, 1, [9, 10], 2⟩ :=
    fun ctx => ⟨⟨rfl, rfl, .inr rfl, by decide, fun h => absurd h (by decide)⟩,
      ⟨rfl, rfl, .inr rfl, by decide, fun h => absurd h (by decide)⟩⟩
  have hrun : ∃ l, Transition.runWhile (step (Pipe.callbacks 4))
      (fun _ m => match m with
        | .send iocb => iocb == ⟨1, 0, 2, 2, 1, [7, 8], 2⟩ || iocb == ⟨1, 0, 2, 2, 1, [9, 10], 2⟩
        | .receive => true) (create ⟨[], []⟩)
      [.send ⟨1, 0, 2, 2, 1, [7, 8], 2⟩, .receive, .send ⟨1, 0, 2, 2, 1, [7, 8], 2⟩,
        .send ⟨1, 0, 2, 2, 1, [9, 10], 2⟩, .receive, .send ⟨1, 0, 2, 2, 1, [9, 10], 2⟩,
        .receive, .receive, .receive, .receive] = some l ∧
      l.reports.map (·.data) = [[7, 8], [9, 10]] ∧ l.sent.map (·.data) = [[7, 8], [9, 10]] ∧
      l.current.isNone ∧ l.ictx.ibuf = [] ∧ l.pipe.taken = l.pipe.sent :=
    ⟨_, rfl, by decide, by decide, by decide, by decide, by decide⟩
  obtain ⟨l, hl, hreports, hsent, hidle, hbuf, hall⟩ := hrun
  have hreached : Reached (Pipe.callbacks 4) ⟨[], []⟩ l := by
    refine Transition.reachable_of_runWhile (P := fun _ => True) (fun _ _ _ _ _ _ => trivial)
      (fun l m _ hm => ?_) trivial hl
    cases m with
    | send iocb =>
      intro _
      simp only [Bool.or_eq_true, beq_iff_eq] at hm
      rcases hm with rfl | rfl
      · exact (hproper l.octx).1
      · exact (hproper l.octx).2
    | receive => trivial
  have h := reached_in_order (pipes_pipe 4) rfl hreached
  exact ⟨l, hreached, hreports, hsent, h.1, h.2.1, h.2.2 (by simpa using hidle) hbuf hall⟩

end WslayLink

end AwsIotSdk
