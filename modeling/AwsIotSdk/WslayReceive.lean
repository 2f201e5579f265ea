import AwsIotSdk.WslayHeader
import AwsIotSdk.Transition

/-! Receiving frames: what the receiver reports over its calls is what a reader of single
bytes reports of the bytes that were used. -/

namespace AwsIotSdk

open WebSocketFrame Reader

namespace WslayFrameContext

variable {ctx after : WslayFrameContext} {items : List Item} {r r' : Reader}

variable {σ : Type} {cb : WslayFrameCallbacks σ} {taken : σ → Bytes} {s : σ}

/-! ### A payload -/

/-- The first byte of a frame, from the parts of it that the receiver reports. -/
def flagsOf (fin rsv opcode : UInt8) : UInt8 := (fin <<< 7) ||| (rsv <<< 4) ||| opcode

theorem flagsOf_parts (flags : UInt8) : flagsOf (fin flags) (rsv flags) (opcode flags) = flags := by
  have hall : ∀ n < 256, flagsOf (fin (UInt8.ofNat n)) (rsv (UInt8.ofNat n))
      (opcode (UInt8.ofNat n)) = UInt8.ofNat n := by decide +kernel
  have h := hall flags.toNat flags.toNat_lt
  rwa [UInt8.ofNat_toNat] at h

/-- What a call reports, as a reader would: its bytes one by one. -/
def report (f : WslayFrameReceived) : List Item :=
  let info : Info := ⟨flagsOf f.fin f.rsv f.opcode, f.payloadLength, decide (f.mask ≠ 0)⟩
  (if f.payloadLength = 0 then [.empty info] else []) ++ f.data.map (.byte info)

theorem HoldsHeader.info {h : Header} (hh : HoldsHeader ctx h) :
    (⟨flagsOf ctx.iom.fin ctx.iom.rsv ctx.iom.opcode, ctx.ipayloadlen, decide (ctx.imask ≠ 0)⟩ : Info) =
      h.info := by
  have hmasked : decide (maskBit h.key.isSome ≠ 0) = h.key.isSome := by
    simp [maskBit_ne_zero]
  rw [hh.iom, hh.ipayloadlen, hh.imask, Header.info, hmasked]
  exact congrArg (Info.mk · _ _) (flagsOf_parts h.flags)

theorem HoldsHeader.unmask {h : Header} (hh : HoldsHeader ctx h) (off : Nat) (bytes : Bytes) :
    (if ctx.imask ≠ 0 then maskBytes ctx.imaskkey off bytes else bytes) = h.mask off bytes := by
  have himask := hh.imask
  cases hkey : h.key with
  | none =>
    have hplain : ¬ ctx.imask ≠ 0 := by
      rw [himask, hkey]
      decide
    rw [if_neg hplain, Header.mask_of_no_key hkey]
  | some k =>
    have hmasked : ctx.imask ≠ 0 := by
      simp [himask, hkey, maskBit]
    have hbytes : ctx.imaskkey = k.bytes := hh.imaskkey k hkey
    have hbyte : h.keyByte = fun i => k.bytes.getD (i % 4) 0 := by
      funext i
      rw [Header.keyByte, hkey]
      rfl
    rw [if_pos hmasked, maskBytes, Header.mask, hbytes, hbyte]

/-- The bytes of the payload that a call delivers. -/
def available (ctx : WslayFrameContext) : Nat := min ctx.ibuf.length (ctx.ipayloadlen - ctx.ipayloadoff)

theorem deliver_eq (ctx : WslayFrameContext) :
    deliver ctx =
      let data := ctx.ibuf.take (available ctx)
      let rest := { ctx with
        ibufmark := ctx.ibufmark + available ctx
        ibuf := ctx.ibuf.drop (available ctx)
        ipayloadoff := ctx.ipayloadoff + available ctx }
      (⟨ctx.iom.fin, ctx.iom.rsv, ctx.iom.opcode, ctx.ipayloadlen, ctx.imask,
          if ctx.imask ≠ 0 then maskBytes ctx.imaskkey ctx.ipayloadoff data else data⟩,
        if ctx.ipayloadlen = ctx.ipayloadoff + available ctx then
          { rest with istate := .recvHeader1, ireqread := 2 }
        else rest) := by
  have hmin : (if ctx.ibuf.length < ctx.ipayloadlen - ctx.ipayloadoff then ctx.ibuf.length
      else ctx.ipayloadlen - ctx.ipayloadoff) = available ctx := by
    rw [available]
    split_ifs <;> omega
  rw [deliver]
  simp only [hmin]

theorem report_deliver {h : Header} (hh : HoldsHeader ctx h) :
    report (deliver ctx).1 = if h.length = 0 then [.empty h.info]
      else (h.mask ctx.ipayloadoff (ctx.ibuf.take (available ctx))).map (.byte h.info) := by
  have hinfo := hh.info
  rw [hh.ipayloadlen] at hinfo
  rw [deliver_eq, report]
  simp only [hinfo, hh.unmask, hh.ipayloadlen]
  by_cases hzero : h.length = 0
  · have hnone : available ctx = 0 := by
      rw [available, hh.ipayloadlen]
      omega
    simp [hzero, hnone, Header.mask, Keystream.combine]
  · simp [hzero]

theorem HoldsHeader.of_off {h : Header} (hh : HoldsHeader ctx h) (mark off : Nat) (buf : Bytes) :
    HoldsHeader { ctx with ibufmark := mark, ibuf := buf, ipayloadoff := off } h :=
  ⟨hh.iom, hh.ipayloadlen, hh.imask, hh.imaskkey⟩

/-- What a call that delivers does to a reader that stands where the context does. -/
structure Delivers (ctx : WslayFrameContext) (r : Reader) (pending : List Item) (parsed : Bytes) :
    Prop where
  buf : ctx.ibuf = parsed ++ (deliver ctx).2.ibuf
  mark : (deliver ctx).2.ibufmark = ctx.ibufmark + parsed.length
  report : report (deliver ctx).1 = pending ++ (run r parsed).2
  stand : Stand (deliver ctx).2 (run r parsed).1 []

theorem delivers_payload {h : Header} {off : Nat} (hstate : ctx.istate = .recvPayload)
    (hh : HoldsHeader ctx h) (hoff : ctx.ipayloadoff = off) (hlt : off < h.length)
    (hbuf : ctx.ibuf ≠ []) : Delivers ctx (.payload h off) [] (ctx.ibuf.take (available ctx)) := by
  have hpos : 0 < ctx.ibuf.length := List.length_pos_iff.mpr hbuf
  have hlen : ctx.ipayloadlen = h.length := hh.ipayloadlen
  have havailable : 0 < available ctx ∧ off + available ctx ≤ h.length ∧
      available ctx ≤ ctx.ibuf.length := by
    rw [available, hlen, hoff]
    omega
  have hparsed : (ctx.ibuf.take (available ctx)).length = available ctx := by
    rw [List.length_take]
    omega
  have hne : ctx.ibuf.take (available ctx) ≠ [] := by
    rw [← List.length_pos_iff, hparsed]
    exact havailable.1
  have hrun := run_payload h off hne (by omega)
  have hreport := report_deliver hh
  rw [if_neg (by omega), hoff] at hreport
  rw [hparsed] at hrun
  refine ⟨?_, ?_, ?_, ?_⟩
  · rw [deliver_eq]
    split_ifs <;> exact (List.take_append_drop _ _).symm
  · rw [deliver_eq, hparsed]
    split_ifs <;> rfl
  · rw [hreport, hrun, List.nil_append]
  · have hend : ctx.ipayloadlen = ctx.ipayloadoff + available ctx ↔
        off + available ctx = h.length := by omega
    rw [hrun, deliver_eq]
    simp only [hend]
    split_ifs with hlast
    · exact .start rfl rfl
    · exact .payload hstate (hh.of_off _ _ _) (by simp [hoff]) (by omega)

theorem delivers_empty {h : Header} (hh : HoldsHeader ctx h) (hoff : ctx.ipayloadoff = 0)
    (hzero : h.length = 0) : Delivers ctx .start [.empty h.info] [] := by
  have hlen : ctx.ipayloadlen = 0 := by rw [hh.ipayloadlen, hzero]
  have havailable : available ctx = 0 := by
    rw [available, hlen]
    omega
  have hreport := report_deliver hh
  rw [if_pos hzero] at hreport
  refine ⟨?_, ?_, by rw [hreport]; rfl, ?_⟩
  all_goals
    rw [deliver_eq]
    simp only [havailable, hlen, hoff, Nat.add_zero, if_true]
  · simp
  · simp
  · exact .start rfl rfl

/-! ### A whole call -/

def reported : Except WslayError WslayFrameReceived → List Item
  | .ok f => report f
  | .error _ => []

/-- The last step of a call: it delivers, or there was nothing to deliver. -/
structure PayloadCall (taken : σ → Bytes) (ctx : WslayFrameContext) (s : σ) (r : Reader)
    (pending : List Item) (out : Recv WslayFrameReceived σ) (r' : Reader) (items : List Item) :
    Prop where
  progress : Progress taken ctx s r out.2.1 out.2.2 r' items
  report : reported out.1 = pending ++ items
  stand : Stand out.2.1 r' []
  error : ∀ e, out.1 = .error e → e = .wantRead

theorem Delivers.payloadCall {pending : List Item} {parsed : Bytes}
    (h : Delivers ctx r pending parsed) (s : σ) :
    PayloadCall taken ctx s r pending (.ok (deliver ctx).1, (deliver ctx).2, s)
      (run r parsed).1 (run r parsed).2 :=
  ⟨progress_of_parsed h.buf h.mark r s, h.report, h.stand, fun _ he => by cases he⟩

theorem Stand.delivers {pending : List Item} (hs : Stand ctx r pending)
    (hstate : ctx.istate = .recvPayload)
    (hready : ctx.ibuf ≠ [] ∨ ctx.ipayloadlen - ctx.ipayloadoff = 0) :
    ∃ parsed, Delivers ctx r pending parsed := by
  cases hs with
  | start hother | extended hother | keyed hother =>
    rw [hother] at hstate
    cases hstate
  | empty _ hh hoff hzero => exact ⟨[], delivers_empty hh hoff hzero⟩
  | @payload h off _ hh hoff hlt =>
    have hlen : ctx.ipayloadlen = h.length := hh.ipayloadlen
    have hne : ctx.ibuf ≠ [] := hready.resolve_right (by omega)
    exact ⟨_, delivers_payload hstate hh hoff hlt hne⟩

theorem Stand.of_ireqread (hs : Stand ctx r items) (hstate : ctx.istate = .recvPayload) (n : Nat) :
    Stand { ctx with ireqread := n } r items := by
  cases hs with
  | start hother | extended hother | keyed hother =>
    rw [hother] at hstate
    cases hstate
  | empty _ hh hoff hzero =>
    exact .empty hstate ⟨hh.iom, hh.ipayloadlen, hh.imask, hh.imaskkey⟩ hoff hzero
  | payload _ hh hoff hlt =>
    exact .payload hstate ⟨hh.iom, hh.ipayloadlen, hh.imask, hh.imaskkey⟩ hoff hlt

theorem receivePayload_payloadCall (hcb : Receives cb taken) {pending : List Item}
    (hs : Stand ctx r pending) (hstate : ctx.istate = .recvPayload) (s : σ) :
    ∃ r' items, PayloadCall taken ctx s r pending (receivePayload cb ctx s) r' items := by
  have hstand := hs.of_ireqread hstate (ctx.ipayloadlen - ctx.ipayloadoff)
  rw [receivePayload]
  split_ifs with hwait
  · obtain ⟨hnone, hmore⟩ := hwait
    have hrecv := wslayRecv_got hcb { ctx with ireqread := ctx.ipayloadlen - ctx.ipayloadoff } s
    rcases hcall : wslayRecv cb { ctx with ireqread := ctx.ipayloadlen - ctx.ipayloadoff } s with
      ⟨result, after, t⟩
    rw [hcall] at hrecv
    obtain ⟨hresult, hgot⟩ := hrecv
    have hafter : Stand after r pending := hgot.stand hstand
    have hprogress : Progress taken ctx s r after t r [] :=
      ⟨(hgot.progress r).used, (hgot.progress r).room⟩
    have hsame : after.istate = .recvPayload := by
      obtain ⟨mark, buf, hbuffer⟩ := hgot.buffer
      have h : after.istate = ctx.istate := congrArg (·.istate) hbuffer
      rw [h, hstate]
    cases result with
    | error e =>
      have he : e = .wantRead := by simpa using hresult
      have hpending : pending = [] := by
        cases hs with
        | empty _ hh hoff hzero =>
          have hlen := hh.ipayloadlen
          omega
        | start | extended | keyed | payload => rfl
      rw [hpending] at hafter
      exact ⟨r, [], hprogress, by simp [hpending, reported], hafter, by simp [he]⟩
    | ok =>
      have hne : after.ibuf ≠ [] := by simpa using hresult
      obtain ⟨parsed, hdelivers⟩ := hafter.delivers hsame (.inl hne)
      have hlast : PayloadCall taken _ t _ _ _ _ _ := hdelivers.payloadCall t
      exact ⟨_, _, hprogress.trans hlast.progress, hlast.report, hlast.stand, hlast.error⟩
  · have hready : ctx.ibuf ≠ [] ∨ ctx.ipayloadlen - ctx.ipayloadoff = 0 := by
      by_cases hempty : ctx.ibuf = []
      · refine .inr ?_
        by_contra hmore
        exact hwait ⟨by simp [hempty], by omega⟩
      · exact .inl hempty
    obtain ⟨parsed, hdelivers⟩ := hstand.delivers hstate hready
    have hlast : PayloadCall taken _ s _ _ _ _ _ := hdelivers.payloadCall s
    exact ⟨_, _, ⟨hlast.progress.used, hlast.progress.room⟩, hlast.report, hlast.stand, hlast.error⟩

/-- The receiver reports what a reader of the bytes it has used reports, and objects where
the reader does. -/
structure Call (taken : σ → Bytes) (ctx : WslayFrameContext) (s : σ) (r : Reader)
    (pending : List Item) (out : Recv WslayFrameReceived σ) (r' : Reader) (items : List Item) :
    Prop where
  progress : Progress taken ctx s r out.2.1 out.2.2 r' items
  report : reported out.1 = pending ++ items
  error : ∀ e, out.1 = .error e → e = .wantRead ∨ e = .proto
  stand : out.1 ≠ .error .proto → Stand out.2.1 r' []
  proto : out.1 = .error .proto → r' = .failed

/-- A call goes on from the state of a header that is read. -/
theorem CallTo.call {pending : List Item} {out : Recv Unit σ} {k : WslayFrameContext → σ →
    Recv WslayFrameReceived σ} (h : CallTo taken ctx s r pending out r' items)
    (hk : ∀ after t, out = (.ok (), after, t) → Stand after r' (pending ++ items) →
      ∃ r'' more, Call taken after t r' (pending ++ items) (k after t) r'' more) :
    ∃ r'' more, Call taken ctx s r pending
      (match out with
        | (.error e, after, t) => (.error e, after, t)
        | (.ok (), after, t) => k after t) r'' more := by
  rcases out with ⟨result, after, t⟩
  have hprogress := h.progress
  cases result with
  | error e =>
    obtain ⟨hpending, hitems, hend⟩ := h.error e rfl
    refine ⟨r', [], ⟨by rwa [hitems] at hprogress, by simp [reported, hpending], ?_, ?_, ?_⟩⟩
    · intro e' he'
      cases he'
      exact hend.imp And.left And.left
    · intro hne
      rcases hend with ⟨-, hstand⟩ | ⟨hproto, -⟩
      · exact hstand
      · simp [hproto] at hne
    · intro hproto
      cases hproto
      rcases hend with ⟨hwant, -⟩ | ⟨-, hfailed⟩
      · cases hwant
      · exact hfailed
  | ok =>
    obtain ⟨r'', more, hcall⟩ := hk after t rfl (h.ok () rfl)
    refine ⟨r'', items ++ more, hprogress.trans hcall.progress, ?_, hcall.error, hcall.stand,
      hcall.proto⟩
    rw [hcall.report, List.append_assoc]

theorem PayloadCall.call {pending : List Item} {out : Recv WslayFrameReceived σ}
    (h : PayloadCall taken ctx s r pending out r' items) :
    Call taken ctx s r pending out r' items := by
  refine ⟨h.progress, h.report, fun e he => .inl (h.error e he), fun _ => h.stand, fun hproto => ?_⟩
  have hwant := h.error .proto hproto
  cases hwant

theorem wslayFrameRecv_call (hcb : Receives cb taken) (hs : Stand ctx r []) (s : σ) :
    ∃ r' items, Call taken ctx s r [] (wslayFrameRecv cb ctx s) r' items := by
  obtain ⟨r₁, items₁, h₁, hstage₁⟩ := headerState_callTo hcb reads_header1 (by decide) hs
    (Nat.zero_le _) s
  rw [wslayFrameRecv]
  refine h₁.call fun ctx₁ s₁ hout₁ hs₁ => ?_
  rw [hout₁] at hstage₁
  obtain ⟨r₂, items₂, h₂, hstage₂⟩ := headerState_callTo hcb reads_extPayloadlen (by decide) hs₁
    (hstage₁ rfl) s₁
  refine h₂.call fun ctx₂ s₂ hout₂ hs₂ => ?_
  rw [hout₂] at hstage₂
  obtain ⟨r₃, items₃, h₃, hstage₃⟩ := headerState_callTo hcb reads_maskkey (by decide) hs₂
    (hstage₂ rfl) s₂
  refine h₃.call fun ctx₃ s₃ hout₃ hs₃ => ?_
  rw [hout₃] at hstage₃
  have hstate : ctx₃.istate = .recvPayload := hs₃.recvPayload (hstage₃ rfl)
  obtain ⟨r', items, hcall⟩ := receivePayload_payloadCall hcb hs₃ hstate s₃
  rw [if_pos hstate]
  exact ⟨r', items, hcall.call⟩

end WslayFrameContext

/-! ### Runs of the receiver -/

open WslayFrameContext

/-- A context, its transport, and what its calls have reported so far. -/
structure WslayReceiver (σ : Type) where
  ctx : WslayFrameContext
  transport : σ
  reports : List WslayFrameReceived

namespace WslayReceiver

variable {σ : Type} {cb : WslayFrameCallbacks σ} {taken : σ → Bytes}

def create (transport : σ) : WslayReceiver σ := ⟨WslayFrameContext.create, transport, []⟩

/-- A call that ends with an error of the protocol is the last one. -/
def step (cb : WslayFrameCallbacks σ) (w : WslayReceiver σ) (_ : Unit) : Option (WslayReceiver σ) :=
  match wslayFrameRecv cb w.ctx w.transport with
  | (.ok f, ctx, s) => some ⟨ctx, s, w.reports ++ [f]⟩
  | (.error .wantRead, ctx, s) => some ⟨ctx, s, w.reports⟩
  | (.error _, _, _) => none

abbrev Reached (cb : WslayFrameCallbacks σ) (transport : σ) : WslayReceiver σ → Prop :=
  Transition.Reachable (step cb) Transition.anyMove (create transport)

def items (w : WslayReceiver σ) : List Item := w.reports.flatMap report

/-- The bytes that are used of those that were taken, and the reader that was given them. -/
structure Standing (taken : σ → Bytes) (transport : σ) (w : WslayReceiver σ) (used : Bytes)
    (r : Reader) : Prop where
  bytes : taken w.transport = taken transport ++ (used ++ w.ctx.ibuf)
  run : run .start used = (r, w.items)
  stand : Stand w.ctx r []
  room : w.ctx.ibufmark + w.ctx.ibuf.length ≤ ibufSize

theorem standing_create (transport : σ) : Standing taken transport (create transport) [] .start :=
  ⟨by simp [create, WslayFrameContext.create], rfl, stand_create, Nat.zero_le _⟩

theorem Standing.call {transport : σ} {w : WslayReceiver σ} {used : Bytes} {r r' : Reader}
    {items : List Item} (h : Standing taken transport w used r)
    (hcall : Call taken w.ctx w.transport r [] (wslayFrameRecv cb w.ctx w.transport) r' items) :
    ∃ more, taken (wslayFrameRecv cb w.ctx w.transport).2.2 = taken transport ++
        ((used ++ more) ++ (wslayFrameRecv cb w.ctx w.transport).2.1.ibuf) ∧
      Reader.run .start (used ++ more) =
        (r', w.items ++ reported (wslayFrameRecv cb w.ctx w.transport).1) := by
  obtain ⟨got, more, htaken, hmore, hrun⟩ := hcall.progress.used
  refine ⟨more, ?_, ?_⟩
  · rw [htaken, h.bytes, List.append_assoc, List.append_assoc, hmore, List.append_assoc]
  · rw [run_append, h.run]
    simp [hrun, hcall.report]

theorem Standing.step (hcb : Receives cb taken) {transport : σ} {w w' : WslayReceiver σ}
    {used : Bytes} {r : Reader} (h : Standing taken transport w used r) {m : Unit}
    (hstep : WslayReceiver.step cb w m = some w') :
    ∃ used' r', Standing taken transport w' used' r' := by
  obtain ⟨r', items, hcall⟩ := wslayFrameRecv_call hcb h.stand w.transport
  obtain ⟨more, hbytes, hrun⟩ := h.call hcall
  have hroom := hcall.progress.room h.room
  have hstand := hcall.stand
  rw [WslayReceiver.step] at hstep
  rcases hout : wslayFrameRecv cb w.ctx w.transport with ⟨result, ctx, s⟩
  rw [hout] at hstep hbytes hrun hroom hstand
  cases result with
  | ok f =>
    cases hstep
    refine ⟨used ++ more, r', hbytes, ?_, hstand (by simp), hroom⟩
    rw [hrun, WslayReceiver.items]
    simp [reported, WslayReceiver.items]
  | error e =>
    cases e with
    | wantRead =>
      cases hstep
      refine ⟨used ++ more, r', hbytes, ?_, hstand (by simp), hroom⟩
      rw [hrun]
      simp [reported, WslayReceiver.items]
    | proto | invalidArgument | invalidCallback => cases hstep

/-- A receiver objects to nothing that is the beginning of frames. -/
theorem Standing.not_frames (hcb : Receives cb taken) {transport : σ} {w : WslayReceiver σ}
    {used : Bytes} {r : Reader} (h : Standing taken transport w used r)
    (hproto : (wslayFrameRecv cb w.ctx w.transport).1 = .error .proto) (fs : List WireFrame) :
    ¬ taken (wslayFrameRecv cb w.ctx w.transport).2.2 <+:
      taken transport ++ fs.flatMap WireFrame.encode := by
  rintro ⟨rest, hrest⟩
  obtain ⟨r', items, hcall⟩ := wslayFrameRecv_call hcb h.stand w.transport
  obtain ⟨more, hbytes, hrun⟩ := h.call hcall
  have hframes := run_flatMap_encode fs
  rw [hcall.proto hproto] at hrun
  rw [hbytes, List.append_assoc, List.append_cancel_left_eq] at hrest
  rw [← hrest, List.append_assoc, run_append, hrun, run_failed] at hframes
  cases hframes

theorem Standing.items_prefix_of {transport : σ} {w : WslayReceiver σ} {used : Bytes} {r : Reader}
    (h : Standing taken transport w used r) {fs : List WireFrame}
    (hframes : taken w.transport <+: taken transport ++ fs.flatMap WireFrame.encode) :
    w.items <+: fs.flatMap WireFrame.items := by
  obtain ⟨rest, hrest⟩ := hframes
  have hall := run_flatMap_encode fs
  rw [h.bytes, List.append_assoc, List.append_cancel_left_eq] at hrest
  rw [← hrest, List.append_assoc, run_append, h.run] at hall
  exact ⟨_, congrArg Prod.snd hall⟩

theorem Standing.items_eq {transport : σ} {w : WslayReceiver σ} {used : Bytes} {r : Reader}
    (h : Standing taken transport w used r) {fs : List WireFrame} (hbuf : w.ctx.ibuf = [])
    (hframes : taken w.transport = taken transport ++ fs.flatMap WireFrame.encode) :
    w.items = fs.flatMap WireFrame.items := by
  have hrun := h.run
  rw [h.bytes, hbuf, List.append_nil, List.append_cancel_left_eq] at hframes
  rw [hframes, run_flatMap_encode] at hrun
  exact (congrArg Prod.snd hrun).symm

theorem Reached.standing (hcb : Receives cb taken) {transport : σ} {w : WslayReceiver σ}
    (h : Reached cb transport w) : ∃ used r, Standing taken transport w used r := by
  induction h with
  | refl => exact ⟨[], .start, standing_create transport⟩
  | tail _ _ hstep ih =>
    obtain ⟨used, r, hstanding⟩ := ih
    exact hstanding.step hcb hstep

theorem receives_pipe (most : Nat) : Receives (Pipe.callbacks most) Pipe.taken := by
  constructor
  · intro s len bytes t h
    simp only [Pipe.callbacks] at h
    split at h
    · cases h
    · next b rest htake =>
      cases h
      have hlen := congrArg List.length htake
      rw [List.length_take] at hlen
      exact ⟨List.cons_ne_nil b rest, by omega, rfl⟩
  · intro s len t h
    simp only [Pipe.callbacks] at h
    split at h
    · cases h
      rfl
    · cases h

/-- Whatever the pieces in which the bytes come, what is reported are whole frames of the bytes
used and the beginning of one more; bytes that are refused are the beginning of no frames. -/
theorem reached_reports (hcb : Receives cb taken) {transport : σ} {w : WslayReceiver σ}
    (h : Reached cb transport w) :
    (∃ (fs : List WireFrame) (part : Bytes) (more : List Item), taken w.transport = taken transport ++
        (fs.flatMap WireFrame.encode ++ part ++ w.ctx.ibuf) ∧
      w.items = fs.flatMap WireFrame.items ++ more ∧ ∃ r, Partial r part more) ∧
      ((wslayFrameRecv cb w.ctx w.transport).1 = .error .proto → ∀ fs : List WireFrame,
        ¬ taken (wslayFrameRecv cb w.ctx w.transport).2.2 <+:
          taken transport ++ fs.flatMap WireFrame.encode) := by
  obtain ⟨used, r, hstanding⟩ := h.standing hcb
  refine ⟨?_, hstanding.not_frames hcb⟩
  have hrun := hstanding.run
  have hne := hstanding.stand.ne_failed
  have hread := read_of_run used
  rw [hrun] at hread
  rcases hread with hfailed | ⟨fs, part, more, hread⟩
  · exact absurd hfailed hne
  · refine ⟨fs, part, more, ?_, hread.items, r, hread.rest⟩
    rw [hstanding.bytes, hread.bytes]

/-- A frame of two bytes, of which one has come at a time, and then a ping that is not final. -/
theorem reached_reports_pipe : ∃ w, Reached (Pipe.callbacks 1) ⟨[], [0x82, 2, 7, 8, 0x09, 0]⟩ w ∧
    w.reports.map (·.data) = [[7], [8]] ∧
    (∃ (fs : List WireFrame) (part : Bytes) (more : List Item), w.transport.taken =
        Pipe.taken ⟨[], [0x82, 2, 7, 8, 0x09, 0]⟩ ++
          (fs.flatMap WireFrame.encode ++ part ++ w.ctx.ibuf) ∧
      w.items = fs.flatMap WireFrame.items ++ more ∧ ∃ r, Partial r part more) ∧
    ∀ fs : List WireFrame, ¬ [0x82, 2, 7, 8, 0x09, 0] <+: ([] : Bytes) ++ fs.flatMap WireFrame.encode := by
  have hrun : ∃ w, Transition.run (step (Pipe.callbacks 1))
      (create ⟨[], [0x82, 2, 7, 8, 0x09, 0]⟩) [(), (), (), ()] = some w ∧
      w.reports.map (·.data) = [[7], [8]] ∧
      (wslayFrameRecv (Pipe.callbacks 1) w.ctx w.transport).1 = .error .proto ∧
      (wslayFrameRecv (Pipe.callbacks 1) w.ctx w.transport).2.2.taken =
        [0x82, 2, 7, 8, 0x09, 0] := ⟨_, rfl, rfl, rfl, rfl⟩
  obtain ⟨w, hw, hdata, hproto, htaken⟩ := hrun
  have hreached := Transition.reachable_of_run hw
  have h := reached_reports (receives_pipe 1) hreached
  have hrefused := h.2 hproto
  rw [htaken] at hrefused
  exact ⟨w, hreached, hdata, h.1, hrefused⟩

end WslayReceiver

end AwsIotSdk
