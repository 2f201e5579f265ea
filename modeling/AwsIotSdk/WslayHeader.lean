import AwsIotSdk.Wslay
import Mathlib.Data.Nat.Bitwise

/-! Receiving the header of a frame. The receiver asks for a few bytes at a time and may get
less; where it stands between two calls is where a reader of single bytes stands. -/

namespace AwsIotSdk

open WebSocketFrame Reader

/-- The documented behaviour of a callback that receives: it gives at least one byte and no more
than it is asked for, or none. `taken` are the bytes it has given. -/
structure Receives {σ : Type} (cb : WslayFrameCallbacks σ) (taken : σ → Bytes) : Prop where
  some : ∀ s len bytes t, cb.recvCallback s len = (some bytes, t) →
    bytes ≠ [] ∧ bytes.length ≤ len ∧ taken t = taken s ++ bytes
  none : ∀ s len t, cb.recvCallback s len = (none, t) → taken t = taken s

namespace WslayFrameContext

/-! ### The reader that a context stands for -/

def memo (flags : UInt8) : WslayFrameOpcodeMemo := ⟨fin flags, opcode flags, rsv flags⟩

def maskBit (masked : Bool) : UInt8 := if masked then 1 else 0

theorem maskBit_ne_zero (masked : Bool) : maskBit masked ≠ 0 ↔ masked = true := by
  cases masked <;> decide

structure HoldsHeader (ctx : WslayFrameContext) (h : Header) : Prop where
  iom : ctx.iom = memo h.flags
  ipayloadlen : ctx.ipayloadlen = h.length
  imask : ctx.imask = maskBit h.key.isSome
  imaskkey : ∀ k, h.key = some k → ctx.imaskkey = k.bytes

/-- The reader, and what it has reported that the receiver has not: the header of an empty
frame, which the receiver reports at the end of its call. -/
inductive Stand (ctx : WslayFrameContext) : Reader → List Item → Prop
  | start (hstate : ctx.istate = .recvHeader1) (hreq : ctx.ireqread = 2) : Stand ctx .start []
  | extended {flags : UInt8} {masked : Bool} {width : Nat}
      (hstate : ctx.istate = .recvExtPayloadlen) (hreq : ctx.ireqread = width)
      (hwidth : width = 2 ∨ width = 8) (hiom : ctx.iom = memo flags)
      (himask : ctx.imask = maskBit masked) : Stand ctx (.extended flags masked width []) []
  | keyed {flags : UInt8} {length : Nat} (hstate : ctx.istate = .recvMaskkey)
      (hreq : ctx.ireqread = 4) (hiom : ctx.iom = memo flags) (himask : ctx.imask = maskBit true)
      (hlen : ctx.ipayloadlen = length) (hoff : ctx.ipayloadoff = 0) :
      Stand ctx (.keyed flags length []) []
  | payload {h : Header} {off : Nat} (hstate : ctx.istate = .recvPayload) (hh : HoldsHeader ctx h)
      (hoff : ctx.ipayloadoff = off) (hlt : off < h.length) : Stand ctx (.payload h off) []
  | empty {h : Header} (hstate : ctx.istate = .recvPayload) (hh : HoldsHeader ctx h)
      (hoff : ctx.ipayloadoff = 0) (hzero : h.length = 0) : Stand ctx .start [.empty h.info]

variable {ctx after last : WslayFrameContext} {items more : List Item} {r r' r'' : Reader}

theorem HoldsHeader.of_ibuf {h : Header} (hh : HoldsHeader ctx h) (mark : Nat) (buf : Bytes) :
    HoldsHeader { ctx with ibufmark := mark, ibuf := buf } h :=
  ⟨hh.iom, hh.ipayloadlen, hh.imask, hh.imaskkey⟩

theorem Stand.of_ibuf (hs : Stand ctx r items) (mark : Nat) (buf : Bytes) :
    Stand { ctx with ibufmark := mark, ibuf := buf } r items := by
  cases hs with
  | start hstate hreq => exact .start hstate hreq
  | extended hstate hreq hwidth hiom himask => exact .extended hstate hreq hwidth hiom himask
  | keyed hstate hreq hiom himask hlen hoff => exact .keyed hstate hreq hiom himask hlen hoff
  | payload hstate hh hoff hlt => exact .payload hstate (hh.of_ibuf mark buf) hoff hlt
  | empty hstate hh hoff hzero => exact .empty hstate (hh.of_ibuf mark buf) hoff hzero

theorem Stand.ne_failed (hs : Stand ctx r items) : r ≠ .failed := by
  cases hs <;> simp

theorem stand_create : Stand create .start [] := .start rfl rfl

/-! ### Getting bytes -/

variable {σ : Type} {cb : WslayFrameCallbacks σ} {taken : σ → Bytes} {s t u : σ}

/-- Some bytes are taken and some are used, and a reader that is given those reports `items`. -/
structure Progress (taken : σ → Bytes) (ctx : WslayFrameContext) (s : σ) (r : Reader)
    (after : WslayFrameContext) (t : σ) (r' : Reader) (items : List Item) : Prop where
  used : ∃ got used, taken t = taken s ++ got ∧ ctx.ibuf ++ got = used ++ after.ibuf ∧
    run r used = (r', items)
  room : ctx.ibufmark + ctx.ibuf.length ≤ ibufSize →
    after.ibufmark + after.ibuf.length ≤ ibufSize

theorem Progress.refl (ctx : WslayFrameContext) (s : σ) (r : Reader) :
    Progress taken ctx s r ctx s r [] := ⟨⟨[], [], by simp, by simp, rfl⟩, id⟩

theorem Progress.trans (h : Progress taken ctx s r after t r' items)
    (h' : Progress taken after t r' last u r'' more) :
    Progress taken ctx s r last u r'' (items ++ more) := by
  obtain ⟨got, used, htaken, hbytes, hrun⟩ := h.used
  obtain ⟨got', used', htaken', hbytes', hrun'⟩ := h'.used
  refine ⟨⟨got ++ got', used ++ used', ?_, ?_, ?_⟩, fun hroom => h'.room (h.room hroom)⟩
  · rw [htaken', htaken, List.append_assoc]
  · rw [← List.append_assoc, hbytes, List.append_assoc, hbytes', List.append_assoc]
  · simp [run_append, hrun, hrun']

/-- A call that gets bytes, or none, has changed the buffer only. -/
structure Got (taken : σ → Bytes) (ctx : WslayFrameContext) (s : σ) (after : WslayFrameContext)
    (t : σ) : Prop where
  buffer : ∃ mark buf, after = { ctx with ibufmark := mark, ibuf := buf }
  bytes : ∃ got, taken t = taken s ++ got ∧ ctx.ibuf ++ got = after.ibuf
  room : ctx.ibufmark + ctx.ibuf.length ≤ ibufSize → after.ibufmark + after.ibuf.length ≤ ibufSize

theorem Got.refl (ctx : WslayFrameContext) (s : σ) : Got taken ctx s ctx s :=
  ⟨⟨ctx.ibufmark, ctx.ibuf, rfl⟩, ⟨[], by simp, by simp⟩, id⟩

theorem Got.progress (h : Got taken ctx s after t) (r : Reader) :
    Progress taken ctx s r after t r [] := by
  obtain ⟨got, htaken, hbytes⟩ := h.bytes
  exact ⟨⟨got, [], htaken, by simpa using hbytes, rfl⟩, h.room⟩

theorem Got.stand (h : Got taken ctx s after t) (hs : Stand ctx r items) : Stand after r items := by
  obtain ⟨mark, buf, hafter⟩ := h.buffer
  rw [hafter]
  exact hs.of_ibuf mark buf

theorem Got.ireqread (h : Got taken ctx s after t) : after.ireqread = ctx.ireqread := by
  obtain ⟨mark, buf, hafter⟩ := h.buffer
  rw [hafter]

theorem wslayRecv_eq (cb : WslayFrameCallbacks σ) (ctx : WslayFrameContext) (s : σ) :
    wslayRecv cb ctx s =
      match cb.recvCallback s (min ctx.ireqread (ibufSize - ctx.ibuf.length)) with
      | (some bytes, s) => (.ok (), { ctx with ibufmark := 0, ibuf := ctx.ibuf ++ bytes }, s)
      | (none, s) => (.error .wantRead, { ctx with ibufmark := 0 }, s) := by
  have hshift : (if ctx.ibufmark ≠ 0 then wslayShiftIbuf ctx else ctx) =
      { ctx with ibufmark := 0 } := by
    split_ifs with hmark
    · rfl
    · rw [not_not] at hmark
      rw [← hmark]
  have hmin : (if ctx.ireqread < ibufSize - ctx.ibuf.length then ctx.ireqread
      else ibufSize - ctx.ibuf.length) = min ctx.ireqread (ibufSize - ctx.ibuf.length) := by
    split_ifs <;> omega
  rcases hcall : cb.recvCallback s (min ctx.ireqread (ibufSize - ctx.ibuf.length)) with
    ⟨_ | bytes, t⟩
  · simp only [wslayRecv, hshift, Nat.zero_add, hmin, hcall]
  · simp only [wslayRecv, hshift, Nat.zero_add, hmin, hcall]

theorem wslayRecv_got (hcb : Receives cb taken) (ctx : WslayFrameContext) (s : σ) :
    ((wslayRecv cb ctx s).1 = .error .wantRead ∨
      (wslayRecv cb ctx s).1 = .ok () ∧ (wslayRecv cb ctx s).2.1.ibuf ≠ []) ∧
      Got taken ctx s (wslayRecv cb ctx s).2.1 (wslayRecv cb ctx s).2.2 := by
  rw [wslayRecv_eq]
  cases hcall : cb.recvCallback s (min ctx.ireqread (ibufSize - ctx.ibuf.length)) with
  | mk result t =>
    cases result with
    | none =>
      have htaken := hcb.none _ _ _ hcall
      refine ⟨.inl rfl, ⟨0, ctx.ibuf, rfl⟩, ⟨[], ?_, ?_⟩, fun hroom => ?_⟩
      · simp [htaken]
      · simp
      · simp only
        omega
    | some bytes =>
      obtain ⟨hne, hlen, htaken⟩ := hcb.some _ _ _ _ hcall
      refine ⟨.inr ⟨rfl, ?_⟩, ⟨0, ctx.ibuf ++ bytes, rfl⟩, ⟨bytes, htaken, rfl⟩, fun hroom => ?_⟩
      · simp [hne]
      · simp only [List.length_append]
        omega

theorem request_got (hcb : Receives cb taken) (ctx : WslayFrameContext) (s : σ) :
    ((request cb ctx s).1 = .error .wantRead ∨
      (request cb ctx s).1 = .ok () ∧ ctx.ireqread ≤ (request cb ctx s).2.1.ibuf.length) ∧
      Got taken ctx s (request cb ctx s).2.1 (request cb ctx s).2.2 := by
  have hrecv := wslayRecv_got hcb ctx s
  rw [request]
  split_ifs with hshort
  · rcases hcall : wslayRecv cb ctx s with ⟨result, after, t⟩
    rw [hcall] at hrecv
    obtain ⟨hresult, hgot⟩ := hrecv
    have hreq : after.ireqread = ctx.ireqread := hgot.ireqread
    cases result with
    | error e =>
      have he : e = .wantRead := by simpa using hresult
      exact ⟨.inl (by rw [he]), hgot⟩
    | ok =>
      by_cases hless : after.ibuf.length < after.ireqread
      · simpa [hless] using hgot
      · simp only [hless, if_false]
        exact ⟨.inr ⟨trivial, by omega⟩, hgot⟩
  · exact ⟨.inr ⟨rfl, by simpa using hshort⟩, Got.refl ctx s⟩

/-! ### Reading a header -/

theorem toNat_and_127 (b : UInt8) : (b &&& 0x7f).toNat = b.toNat % 128 := by
  rw [UInt8.toNat_and]
  exact Nat.and_two_pow_sub_one_eq_mod b.toNat 7

theorem shiftRight_and_one (b : UInt8) : (b >>> 7) &&& 1 = maskBit (decide (128 ≤ b.toNat)) := by
  have hlt := b.toNat_lt
  apply UInt8.toNat_inj.mp
  have hbit : ((b >>> 7) &&& 1).toNat = b.toNat / 128 % 2 := by
    rw [UInt8.toNat_and, UInt8.toNat_shiftRight]
    show (b.toNat >>> 7) &&& 1 = _
    rw [Nat.and_one_is_mod, Nat.shiftRight_eq_div_pow]
  rw [hbit, maskBit]
  split_ifs with hmasked
  · have hbig : 128 ≤ b.toNat := by simpa using hmasked
    show _ = 1
    omega
  · have hsmall : b.toNat < 128 := by simpa using hmasked
    show _ = 0
    omega

/-- The order in which a header's states come. -/
def stage : WslayFrameState → Nat
  | .recvHeader1 => 0
  | .recvExtPayloadlen => 1
  | .recvMaskkey => 2
  | _ => 3

theorem eq_of_stage {a b : WslayFrameState} (h : stage a = stage b) (ha : stage a < 3) : a = b := by
  cases a <;> cases b <;> simp [stage] at *

/-- What reading the bytes of a state does to a reader that stands there. -/
structure ReadOf (ctx : WslayFrameContext) (r : Reader)
    (read : Except WslayError Unit × WslayFrameContext) (parsed : Bytes) : Prop where
  buf : ctx.ibuf = parsed ++ read.2.ibuf
  mark : read.2.ibufmark = ctx.ibufmark + parsed.length
  result : read.1 = .ok () ∧ Stand read.2 (run r parsed).1 (run r parsed).2 ∧
      stage ctx.istate < stage read.2.istate ∨
    read.1 = .error .proto ∧ run r parsed = (.failed, [])

theorem stand_headerRead {h : Header} (hstate : ctx.istate = .recvPayload) (hh : HoldsHeader ctx h)
    (hoff : ctx.ipayloadoff = 0) : Stand ctx (headerRead h).1 (headerRead h).2 := by
  rw [headerRead]
  split_ifs with hzero
  · exact .empty hstate hh hoff hzero
  · exact .payload hstate hh hoff (Nat.pos_of_ne_zero hzero)

theorem stage_expectPayload (ctx : WslayFrameContext) : 2 ≤ stage (expectPayload ctx).istate := by
  rw [expectPayload]
  split_ifs <;> simp [stage]

theorem ibuf_expectPayload (ctx : WslayFrameContext) : (expectPayload ctx).ibuf = ctx.ibuf := by
  rw [expectPayload]
  split_ifs <;> rfl

theorem ibufmark_expectPayload (ctx : WslayFrameContext) :
    (expectPayload ctx).ibufmark = ctx.ibufmark := by
  rw [expectPayload]
  split_ifs <;> rfl

theorem stand_expectPayload {flags : UInt8} {length : Nat} {masked : Bool}
    (hiom : ctx.iom = memo flags) (himask : ctx.imask = maskBit masked)
    (hlen : ctx.ipayloadlen = length) (hoff : ctx.ipayloadoff = 0) :
    Stand (expectPayload ctx) (lengthRead flags masked length).1
      (lengthRead flags masked length).2 := by
  cases masked with
  | true =>
    have hmasked : ctx.imask ≠ 0 := by
      rw [himask]
      decide
    rw [expectPayload, if_pos hmasked]
    exact .keyed rfl rfl hiom himask hlen hoff
  | false =>
    have hplain : ¬ ctx.imask ≠ 0 := by
      rw [himask]
      decide
    have hh : HoldsHeader { ctx with istate := .recvPayload, ireqread := ctx.ipayloadlen }
        ⟨flags, length, none⟩ := ⟨hiom, hlen, himask, by simp⟩
    rw [expectPayload, if_neg hplain]
    exact stand_headerRead rfl hh hoff

theorem readHeader1_eq {first second : UInt8} {rest : Bytes}
    (hcut : ctx.ibuf = first :: second :: rest) :
    readHeader1 ctx =
      let header := { ctx with
        iom := memo first
        imask := maskBit (decide (128 ≤ second.toNat))
        ibufmark := ctx.ibufmark + 2
        ibuf := rest }
      if isControl first = true ∧ (125 < second.toNat % 128 ∨ fin first = 0) then
        (.error .proto, header)
      else if second.toNat % 128 = 126 then
        (.ok (), { header with istate := .recvExtPayloadlen, ireqread := 2 })
      else if second.toNat % 128 = 127 then
        (.ok (), { header with istate := .recvExtPayloadlen, ireqread := 8 })
      else (.ok (), expectPayload { header with
        ipayloadlen := second.toNat % 128, ipayloadoff := 0 }) := by
  have h126 : (second &&& 0x7f = 126) = (second.toNat % 128 = 126) := by
    rw [← toNat_and_127, ← UInt8.toNat_inj]
    rfl
  have h127 : (second &&& 0x7f = 127) = (second.toNat % 128 = 127) := by
    rw [← toNat_and_127, ← UInt8.toNat_inj]
    rfl
  have h125 : (125 < second &&& 0x7f) = (125 < second.toNat % 128) := by
    rw [← toNat_and_127, UInt8.lt_iff_toNat_lt]
    rfl
  have hcontrol : wslayIsCtrlFrame (first &&& 0xf) = isControl first := rfl
  have hfin : (first >>> 7) &&& 1 = fin first := rfl
  have hmemo : (⟨fin first, first &&& 0xf, (first >>> 4) &&& 7⟩ : WslayFrameOpcodeMemo) =
    memo first := rfl
  rw [readHeader1, hcut]
  simp only [hcontrol, hfin, hmemo, h126, h127, h125, shiftRight_and_one, toNat_and_127,
    Bool.and_eq_true, Bool.or_eq_true, decide_eq_true_eq, beq_iff_eq]

theorem readHeader1_readOf (hstate : ctx.istate = .recvHeader1) (hbuf : 2 ≤ ctx.ibuf.length) :
    ReadOf ctx .start (readHeader1 ctx) (ctx.ibuf.take 2) := by
  obtain ⟨first, second, rest, hcut⟩ : ∃ first second rest, ctx.ibuf = first :: second :: rest := by
    match hc : ctx.ibuf with
    | [] | [_] => simp [hc] at hbuf
    | first :: second :: rest => exact ⟨first, second, rest, rfl⟩
  have hrun : run .start (ctx.ibuf.take 2) = secondRead first second := by
    simp [hcut, run_cons, step]
  rw [readHeader1_eq hcut]
  simp only
  by_cases hbad : isControl first = true ∧ (125 < second.toNat % 128 ∨ fin first = 0)
  · simp only [if_pos hbad]
    refine ⟨by simp [hcut], by simp [hcut], .inr ⟨rfl, ?_⟩⟩
    simp [hrun, secondRead, hbad]
  simp only [if_neg hbad]
  have hread : secondRead first second =
      if second.toNat % 128 = 126 then (extended first (decide (128 ≤ second.toNat)) 2 [], [])
      else if second.toNat % 128 = 127 then
        (extended first (decide (128 ≤ second.toNat)) 8 [], [])
      else lengthRead first (decide (128 ≤ second.toNat)) (second.toNat % 128) := by
    rw [secondRead, if_neg hbad]
  by_cases h126 : second.toNat % 128 = 126
  · simp only [if_pos h126]
    refine ⟨by simp [hcut], by simp [hcut], .inl ⟨rfl, ?_, by simp [hstate, stage]⟩⟩
    rw [hrun, hread, if_pos h126]
    exact .extended rfl rfl (.inl rfl) rfl rfl
  simp only [if_neg h126]
  by_cases h127 : second.toNat % 128 = 127
  · simp only [if_pos h127]
    refine ⟨by simp [hcut], by simp [hcut], .inl ⟨rfl, ?_, by simp [hstate, stage]⟩⟩
    rw [hrun, hread, if_neg h126, if_pos h127]
    exact .extended rfl rfl (.inr rfl) rfl rfl
  · simp only [if_neg h127]
    refine ⟨?_, ?_, .inl ⟨rfl, ?_, ?_⟩⟩
    · simp [ibuf_expectPayload, hcut]
    · simp [ibufmark_expectPayload, hcut]
    · rw [hrun, hread, if_neg h126, if_neg h127]
      exact stand_expectPayload rfl rfl rfl rfl
    · rw [hstate, stage]
      exact Nat.lt_of_lt_of_le Nat.zero_lt_two (stage_expectPayload _)

theorem and_two_pow_ne_zero {n k : Nat} (h : n < 2 ^ (k + 1)) :
    n &&& (1 <<< k) ≠ 0 ↔ 2 ^ k ≤ n := by
  have hpos := Nat.two_pow_pos k
  have hdiv : n / 2 ^ k < 2 := by
    rw [Nat.div_lt_iff_lt_mul hpos, ← Nat.pow_succ']
    exact h
  have hone : 2 ^ k ≤ n ↔ 1 ≤ n / 2 ^ k := (Nat.one_le_div_iff hpos).symm
  rw [Nat.one_shiftLeft, Nat.and_two_pow, Nat.testBit_eq_decide_div_mod_eq, hone]
  have hcases : n / 2 ^ k = 0 ∨ n / 2 ^ k = 1 := Nat.le_one_iff_eq_zero_or_eq_one.mp (Nat.lt_succ_iff.mp hdiv)
  rcases hcases with hbit | hbit
  · simp [hbit]
  · simp [hbit]

theorem readExtPayloadlen_eq {width : Nat} {parsed rest : Bytes} (hcut : ctx.ibuf = parsed ++ rest)
    (hlen : parsed.length = width) (hreq : ctx.ireqread = width) (hwidth : width = 2 ∨ width = 8) :
    readExtPayloadlen ctx =
      let header := { ctx with
        ipayloadlen := BigEndian.decode parsed
        ipayloadoff := 0
        ibufmark := ctx.ibufmark + width
        ibuf := rest }
      if badLength width (BigEndian.decode parsed) then (.error .proto, header)
      else (.ok (), expectPayload header) := by
  have htake : (parsed ++ rest).take width = parsed := by
    rw [← hlen]
    exact List.take_left
  have hdrop : (parsed ++ rest).drop width = rest := by
    rw [← hlen]
    exact List.drop_left
  have hword : wslayByteswap64 (ofMemory (List.replicate (8 - width) 0 ++ parsed)) =
      BigEndian.decode parsed := by
    rw [wslayByteswap64_ofMemory, BigEndian.decode_append, BigEndian.decode_replicate_zero]
    · omega
    · rw [List.length_append, List.length_replicate, hlen]
      omega
  have hlt := BigEndian.decode_lt parsed
  rw [readExtPayloadlen]
  simp only [hreq, hcut, htake, hdrop, hword]
  rcases hwidth with rfl | rfl
  · simp only [badLength_two]
    rw [if_neg (by omega)]
  · have hsign : BigEndian.decode parsed &&& (1 <<< 63) ≠ 0 ↔ 2 ^ 63 ≤ BigEndian.decode parsed := by
      apply and_two_pow_ne_zero
      rw [hlen] at hlt
      exact hlt
    simp only [badLength_eight, hsign, if_true]
    rfl

theorem readExtPayloadlen_readOf {flags : UInt8} {masked : Bool} {width : Nat}
    (hs : Stand ctx (.extended flags masked width []) []) (hbuf : width ≤ ctx.ibuf.length) :
    ReadOf ctx (.extended flags masked width []) (readExtPayloadlen ctx) (ctx.ibuf.take width) := by
  cases hs with
  | extended hstate hreq hwidth hiom himask =>
    have hlen : (ctx.ibuf.take width).length = width := by
      rw [List.length_take]
      omega
    have hcut : ctx.ibuf = ctx.ibuf.take width ++ ctx.ibuf.drop width :=
      (List.take_append_drop width ctx.ibuf).symm
    have hrun := run_extended flags masked (show 0 < width by omega) hlen
    rw [readExtPayloadlen_eq hcut hlen hreq hwidth]
    simp only
    rw [extendedRead] at hrun
    split_ifs at hrun ⊢ with hbad
    · exact ⟨hcut, by simp [hlen], .inr ⟨rfl, hrun⟩⟩
    · refine ⟨?_, ?_, .inl ⟨rfl, ?_, ?_⟩⟩
      · rw [ibuf_expectPayload]
        exact hcut
      · rw [ibufmark_expectPayload, hlen]
      · rw [hrun]
        exact stand_expectPayload hiom himask rfl rfl
      · rw [hstate, stage]
        exact stage_expectPayload _

theorem readMaskkey_readOf {flags : UInt8} {length : Nat}
    (hs : Stand ctx (.keyed flags length []) []) (hbuf : 4 ≤ ctx.ibuf.length) :
    ReadOf ctx (.keyed flags length []) (readMaskkey ctx) (ctx.ibuf.take 4) := by
  cases hs with
  | keyed hstate hreq hiom himask hlen hoff =>
    have hfour : (ctx.ibuf.take 4).length = 4 := by
      rw [List.length_take]
      omega
    have hcut : ctx.ibuf = ctx.ibuf.take 4 ++ ctx.ibuf.drop 4 :=
      (List.take_append_drop 4 ctx.ibuf).symm
    have hrun := run_keyed flags length ⟨ctx.ibuf.take 4, hfour⟩
    have hh : HoldsHeader (readMaskkey ctx).2
        ⟨flags, length, some ⟨ctx.ibuf.take 4, hfour⟩⟩ := by
      refine ⟨hiom, hlen, himask, fun k hk => ?_⟩
      cases hk
      rfl
    refine ⟨hcut, by simp [readMaskkey, hfour], .inl ⟨rfl, ?_, ?_⟩⟩
    · rw [hrun]
      exact stand_headerRead rfl hh hoff
    · simp [readMaskkey, hstate, stage]

/-! ### One state of a header -/

/-- The function of a state reads as a reader does from wherever a context may stand there. -/
def Reads (state : WslayFrameState)
    (read : WslayFrameContext → Except WslayError Unit × WslayFrameContext) : Prop :=
  ∀ ctx r pending, Stand ctx r pending → ctx.istate = state → ctx.ireqread ≤ ctx.ibuf.length →
    ∃ parsed, ReadOf ctx r (read ctx) parsed

theorem reads_header1 : Reads .recvHeader1 readHeader1 := by
  intro ctx r pending hs hstate hbuf
  cases hs with
  | start hstart hreq =>
    rw [hreq] at hbuf
    exact ⟨_, readHeader1_readOf hstate hbuf⟩
  | extended hother | keyed hother | payload hother | empty hother =>
    rw [hother] at hstate
    cases hstate

theorem reads_extPayloadlen : Reads .recvExtPayloadlen readExtPayloadlen := by
  intro ctx r pending hs hstate hbuf
  cases hs with
  | extended hstate hreq hwidth hiom himask =>
    rw [hreq] at hbuf
    exact ⟨_, readExtPayloadlen_readOf (.extended hstate hreq hwidth hiom himask) hbuf⟩
  | start hother | keyed hother | payload hother | empty hother =>
    rw [hother] at hstate
    cases hstate

theorem reads_maskkey : Reads .recvMaskkey readMaskkey := by
  intro ctx r pending hs hstate hbuf
  cases hs with
  | keyed hstate hreq hiom himask hlen hoff =>
    rw [hreq] at hbuf
    exact ⟨_, readMaskkey_readOf (.keyed hstate hreq hiom himask hlen hoff) hbuf⟩
  | start hother | extended hother | payload hother | empty hother =>
    rw [hother] at hstate
    cases hstate

/-- What a call has come to: the receiver objects where the reader of the bytes it used does. -/
structure CallTo {α : Type} (taken : σ → Bytes) (ctx : WslayFrameContext) (s : σ) (r : Reader)
    (pending : List Item) (out : Recv α σ) (r' : Reader) (items : List Item) : Prop where
  progress : Progress taken ctx s r out.2.1 out.2.2 r' items
  ok : ∀ a, out.1 = .ok a → Stand out.2.1 r' (pending ++ items)
  error : ∀ e, out.1 = .error e → pending = [] ∧ items = [] ∧
    (e = .wantRead ∧ Stand out.2.1 r' [] ∨ e = .proto ∧ r' = .failed)

theorem progress_of_parsed {parsed : Bytes} (hbuf : ctx.ibuf = parsed ++ after.ibuf)
    (hmark : after.ibufmark = ctx.ibufmark + parsed.length) (r : Reader) (s : σ) :
    Progress taken ctx s r after s (run r parsed).1 (run r parsed).2 := by
  refine ⟨⟨[], parsed, ?_, ?_, rfl⟩, fun hroom => ?_⟩
  · rw [List.append_nil]
  · rw [List.append_nil, hbuf]
  · rw [hbuf, List.length_append] at hroom
    omega

theorem headerState_callTo (hcb : Receives cb taken) {state : WslayFrameState}
    {read : WslayFrameContext → Except WslayError Unit × WslayFrameContext}
    (hread : Reads state read) (hheader : stage state < 3) {pending : List Item}
    (hs : Stand ctx r pending) (hstage : stage state ≤ stage ctx.istate) (s : σ) :
    ∃ r' items, CallTo taken ctx s r pending (headerState cb state read ctx s) r' items ∧
      ((headerState cb state read ctx s).1 = .ok () →
        stage state < stage (headerState cb state read ctx s).2.1.istate) := by
  have hrequest := request_got hcb ctx s
  rw [headerState]
  split_ifs with hstate
  · rcases hcall : request cb ctx s with ⟨result, after, t⟩
    rw [hcall] at hrequest
    obtain ⟨hresult, hgot⟩ := hrequest
    have hstand : Stand after r pending := hgot.stand hs
    have hprogress : Progress taken ctx s r after t r [] := hgot.progress r
    have hsame : after.istate = state := by
      obtain ⟨mark, buf, hafter⟩ := hgot.buffer
      have h : after.istate = ctx.istate := congrArg (·.istate) hafter
      rw [h, hstate]
    have hpending : pending = [] := by
      have hearly : stage after.istate < 3 := by rw [hsame]; exact hheader
      cases hstand with
      | payload h | empty h => simp [h, stage] at hearly
      | start | extended | keyed => rfl
    cases result with
    | error e =>
      have he : e = .wantRead := by simpa using hresult
      rw [hpending] at hstand
      refine ⟨r, [], ⟨hprogress, fun a ha => ?_, fun e' he' => ⟨hpending, rfl, ?_⟩⟩, fun hok => ?_⟩
      · simp at ha
      · exact .inl ⟨by simpa [he] using he'.symm, hstand⟩
      · simp at hok
    | ok =>
      have hready : after.ireqread ≤ after.ibuf.length := by
        have hreq : after.ireqread = ctx.ireqread := hgot.ireqread
        have hlen : ctx.ireqread ≤ after.ibuf.length := by simpa using hresult
        omega
      obtain ⟨parsed, hof⟩ := hread after r pending hstand hsame hready
      refine ⟨_, _, ⟨hprogress.trans (progress_of_parsed hof.buf hof.mark r t), fun a ha => ?_, fun e he => ?_⟩, fun hok => ?_⟩
      · rcases hof.result with ⟨-, hnext, -⟩ | ⟨hproto, -⟩
        · simpa [hpending] using hnext
        · simp [hproto] at ha
      · rcases hof.result with ⟨hok, -⟩ | ⟨hproto, hfailed⟩
        · simp [hok] at he
        · have hcode : e = .proto := by simpa [hproto] using he.symm
          exact ⟨hpending, by simp [hfailed], .inr ⟨hcode, by simp [hfailed]⟩⟩
      · rcases hof.result with ⟨-, -, hlater⟩ | ⟨hproto, -⟩
        · rwa [hsame] at hlater
        · simp [hproto] at hok
  · refine ⟨r, [], ⟨Progress.refl ctx s r, fun _ _ => by simpa using hs, fun e h => by simp at h⟩, ?_⟩
    intro _
    have hne : stage state ≠ stage ctx.istate := fun h => hstate (eq_of_stage h hheader).symm
    show stage state < stage ctx.istate
    omega

theorem Stand.recvPayload (hs : Stand ctx r items) (hstage : 2 < stage ctx.istate) :
    ctx.istate = .recvPayload := by
  cases hs with
  | start h | extended h | keyed h => simp [h, stage] at hstage
  | payload h | empty h => exact h

end WslayFrameContext

end AwsIotSdk
