import AwsIotSdk.Wslay
import AwsIotSdk.Transition
import Mathlib.Tactic.IntervalCases

/-! Sending frames. A call puts out what the transport takes and is repeated with the rest of
the data; the wire holds whole frames and a beginning of the one that is on its way. -/

namespace AwsIotSdk

open WebSocketFrame

/-- The documented behaviour of callbacks that send: some of the bytes go out, no more than there
are, and a mask has the length asked for. -/
structure Sends {σ : Type} (cb : WslayFrameCallbacks σ) (wire : σ → Bytes) : Prop where
  send : ∀ s data flags, (cb.sendCallback s data flags).1 ≤ data.length ∧
    wire (cb.sendCallback s data flags).2 =
      wire s ++ data.take (cb.sendCallback s data flags).1.toNat
  genmask : ∀ s len, wire (cb.genmaskCallback s len).2 = wire s ∧
    ∀ key, (cb.genmaskCallback s len).1 = some key → key.length = len

namespace WslayFrameContext

/-! ### The header -/

def flags (iocb : WslayFrameToSend) : UInt8 :=
  ((iocb.fin <<< (7 : UInt8)) &&& 0x80) ||| ((iocb.rsv <<< (4 : UInt8)) &&& 0x70) |||
    (iocb.opcode &&& 0xf)

theorem isControl_flags (iocb : WslayFrameToSend) :
    isControl (flags iocb) = wslayIsCtrlFrame iocb.opcode := by
  have hbit : (opcode (flags iocb) >>> (3 : UInt8)) &&& (1 : UInt8) =
      (iocb.opcode >>> (3 : UInt8)) &&& (1 : UInt8) := by
    apply UInt8.eq_of_toBitVec_eq
    ext i hi
    interval_cases i <;> simp [opcode, flags]
  rw [isControl, hbit]
  rfl

theorem fin_flags (iocb : WslayFrameToSend) : fin (flags iocb) = iocb.fin &&& 1 := by
  apply UInt8.eq_of_toBitVec_eq
  ext i hi
  interval_cases i <;> simp [fin, flags]

theorem second_eq_or {mask : UInt8} (hmask : mask = 0 ∨ mask = 1) {field : Nat} (h : field < 128) :
    ((mask <<< (7 : UInt8)) &&& 0x80) ||| UInt8.ofNat field = second (decide (mask ≠ 0)) field := by
  have hall : ∀ n < 128, (0x80 : UInt8) ||| UInt8.ofNat n = UInt8.ofNat (128 + n) := by
    decide +kernel
  rcases hmask with rfl | rfl
  · have hzero : ((0 : UInt8) <<< (7 : UInt8)) &&& 0x80 = 0 := by decide
    rw [hzero, UInt8.zero_or, second]
    simp
  · have hone : ((1 : UInt8) <<< (7 : UInt8)) &&& 0x80 = 0x80 := by decide
    rw [hone, hall field h, second]
    simp

theorem headerBytes_eq {iocb : WslayFrameToSend} (hmask : iocb.mask = 0 ∨ iocb.mask = 1) :
    headerBytes iocb =
      if wslayIsCtrlFrame iocb.opcode && decide (125 < iocb.payloadLength) then none
      else if iocb.payloadLength < 2 ^ 63 then
        some (flags iocb :: lengthBytes (decide (iocb.mask ≠ 0)) iocb.payloadLength)
      else none := by
  have hshort : iocb.payloadLength < 126 → ((iocb.mask <<< (7 : UInt8)) &&& 0x80) |||
      UInt8.ofNat iocb.payloadLength = second (decide (iocb.mask ≠ 0)) iocb.payloadLength :=
    fun h => second_eq_or hmask (by omega)
  have hmedium := second_eq_or hmask (show 126 < 128 by decide)
  have hlong := second_eq_or hmask (show 127 < 128 by decide)
  have h16 : 1 <<< 16 = 2 ^ 16 := rfl
  have h63 : 1 <<< 63 = 2 ^ 63 := rfl
  rw [headerBytes, lengthBytes, h16, h63, memory_htons, memory_wslayByteswap64]
  by_cases hctrl : (wslayIsCtrlFrame iocb.opcode && decide (125 < iocb.payloadLength)) = true
  · rw [if_pos hctrl, if_pos hctrl]
  rw [if_neg hctrl, if_neg hctrl]
  by_cases h126 : iocb.payloadLength < 126
  · rw [if_pos h126, if_pos h126, if_pos (by omega), hshort h126]
    rfl
  rw [if_neg h126, if_neg h126]
  by_cases h216 : iocb.payloadLength < 2 ^ 16
  · rw [if_pos h216, if_pos h216, if_pos (by omega), ← hmedium]
    rfl
  · rw [if_neg h216, if_neg h216, ← hlong]
    rfl

/-! ### The payload -/

/-- A payload in the words of a frame: the context holds the key of the header. -/
structure HoldsKey (ctx : WslayFrameContext) (h : Header) : Prop where
  none : h.key = none → ctx.omask = 0
  some : ∀ k, h.key = some k → ctx.omask ≠ 0 ∧ ctx.omaskkey = k.bytes

theorem HoldsKey.mask {ctx : WslayFrameContext} {h : Header} (hk : HoldsKey ctx h)
    (hmasked : ctx.omask ≠ 0) (off : Nat) (bytes : Bytes) :
    maskBytes ctx.omaskkey off bytes = h.mask off bytes := by
  cases hkey : h.key with
  | none => exact absurd (hk.none hkey) hmasked
  | some k =>
    have hbyte : h.keyByte = fun i => k.bytes.getD (i % 4) 0 := by
      funext i
      rw [Header.keyByte, hkey]
      rfl
    rw [maskBytes, Header.mask, (hk.some k hkey).2, hbyte]

theorem take_mask (h : Header) (off n : Nat) (bytes : Bytes) :
    (h.mask off bytes).take n = h.mask off (bytes.take n) := Keystream.take_combine _ _ _ _ _

variable {σ : Type} {cb : WslayFrameCallbacks σ} {wire : σ → Bytes} {ctx : WslayFrameContext}
  {h : Header}

/-- So many bytes of a payload went out behind what was on the wire. -/
structure PayloadSent (wire : σ → Bytes) (h : Header) (ctx : WslayFrameContext) (data : Bytes)
    (s : σ) (n : Nat) (after : WslayFrameContext) (t : σ) : Prop where
  le : n ≤ data.length
  after_eq : after = { ctx with opayloadoff := ctx.opayloadoff + n }
  wire : wire t = wire s ++ h.mask ctx.opayloadoff (data.take n)

theorem PayloadSent.none (h : Header) (ctx : WslayFrameContext) (data : Bytes) (s : σ) :
    PayloadSent wire h ctx data s 0 ctx s := by
  refine ⟨Nat.zero_le _, rfl, ?_⟩
  simp [Header.mask, Keystream.combine]

theorem PayloadSent.append {data : Bytes} {s t u : σ} {n m : Nat} {after last : WslayFrameContext}
    (hfirst : PayloadSent wire h ctx data s n after t)
    (hrest : PayloadSent wire h after (data.drop n) t m last u) :
    PayloadSent wire h ctx data s (n + m) last u := by
  have hle := hfirst.le
  have hle' := hrest.le
  rw [List.length_drop] at hle'
  have htake : data.take (n + m) = data.take n ++ (data.drop n).take m := List.take_add
  have hlen : (data.take n).length = n := by
    rw [List.length_take]
    omega
  refine ⟨by omega, ?_, ?_⟩
  · rw [hrest.after_eq, hfirst.after_eq]
    simp only [Nat.add_assoc]
  · rw [hrest.wire, hfirst.wire, htake, Header.mask_append, hlen, hfirst.after_eq, List.append_assoc]

theorem PayloadSent.send (hcb : Sends cb wire) {data bytes : Bytes} (s : σ) {most : Nat}
    (hbytes : bytes = h.mask ctx.opayloadoff (data.take most)) (flags : Nat) :
    PayloadSent wire h ctx data s (cb.sendCallback s bytes flags).1.toNat
      { ctx with opayloadoff := ctx.opayloadoff + (cb.sendCallback s bytes flags).1.toNat }
      (cb.sendCallback s bytes flags).2 := by
  obtain ⟨hle, hwire⟩ := hcb.send s bytes flags
  have hlen : bytes.length = min most data.length := by
    rw [hbytes, Header.length_mask, List.length_take]
  have hmin : (cb.sendCallback s bytes flags).1.toNat ≤ min most data.length := by omega
  refine ⟨by omega, rfl, ?_⟩
  rw [hwire]
  generalize (cb.sendCallback s bytes flags).1.toNat = n at hmin
  rw [hbytes, take_mask, List.take_take, min_eq_left (by omega)]

theorem sendMasked_succ {data : Bytes} (hne : data ≠ []) {s t : σ} {r : Int}
    (hout : cb.sendCallback s
      (maskBytes ctx.omaskkey ctx.opayloadoff (data.take (min tempSize data.length))) 0 = (r, t))
    (fuel totallen : Nat) :
    sendMasked cb (fuel + 1) data totallen ctx s =
      if 0 < r then
        if ((min tempSize data.length : Nat) : Int) < r then (.error .invalidCallback, ctx, t)
        else sendMasked cb fuel (data.drop r.toNat) (totallen + r.toNat)
          { ctx with opayloadoff := ctx.opayloadoff + r.toNat } t
      else if 0 < totallen then (.ok totallen, ctx, t)
      else (.error .wantWrite, ctx, t) := by
  rw [sendMasked, if_neg hne]
  simp only [hout]

/-- What is sent in one go, or in a loop: it ends where the transport takes nothing. -/
def Went (wire : σ → Bytes) (h : Header) (ctx : WslayFrameContext) (data : Bytes) (s : σ)
    (totallen : Nat) (out : Sent Nat σ) : Prop :=
  ∃ n, PayloadSent wire h ctx data s n out.2.1 out.2.2 ∧
    (out.1 = .ok (totallen + n) ∨ out.1 = .error .wantWrite ∧ n = 0 ∧ totallen = 0)

theorem went_nothing (hcb : Sends cb wire) {data bytes : Bytes} {s t : σ} {flags : Nat} {r : Int}
    (hout : cb.sendCallback s bytes flags = (r, t)) (hnone : ¬ 0 < r) :
    PayloadSent wire h ctx data s 0 ctx t := by
  have hwire := (hcb.send s bytes flags).2
  have hzero : r.toNat = 0 := by omega
  rw [hout] at hwire
  simp only [hzero, List.take_zero, List.append_nil] at hwire
  have hsame : PayloadSent wire h ctx data s 0 ctx s := .none h ctx data s
  exact ⟨hsame.le, hsame.after_eq, by rw [hwire]; exact hsame.wire⟩

theorem sendMasked_went (hcb : Sends cb wire) (hk : HoldsKey ctx h) (hmasked : ctx.omask ≠ 0)
    (fuel : Nat) (data : Bytes) (totallen : Nat) (s : σ) :
    Went wire h ctx data s totallen (sendMasked cb fuel data totallen ctx s) := by
  induction fuel generalizing data totallen s ctx with
  | zero => exact ⟨0, PayloadSent.none h ctx data s, .inl rfl⟩
  | succ fuel ih =>
    by_cases hempty : data = []
    · rw [sendMasked, if_pos hempty]
      exact ⟨0, PayloadSent.none h ctx data s, .inl rfl⟩
    have htemp := hk.mask hmasked ctx.opayloadoff (data.take (min tempSize data.length))
    have hsent := PayloadSent.send hcb s htemp 0
    have hle := (hcb.send s
      (maskBytes ctx.omaskkey ctx.opayloadoff (data.take (min tempSize data.length))) 0).1
    rcases hout : cb.sendCallback s
      (maskBytes ctx.omaskkey ctx.opayloadoff (data.take (min tempSize data.length))) 0 with ⟨r, t⟩
    rw [hout] at hsent hle
    rw [htemp, Header.length_mask, List.length_take] at hle
    rw [sendMasked_succ hempty hout]
    by_cases hpos : 0 < r
    · have hfits : ¬ ((min tempSize data.length : Nat) : Int) < r := by omega
      rw [if_pos hpos, if_neg hfits]
      have hk' : HoldsKey { ctx with opayloadoff := ctx.opayloadoff + r.toNat } h := ⟨hk.none, hk.some⟩
      obtain ⟨n, hrest, hresult⟩ := ih hk' hmasked (data.drop r.toNat) (totallen + r.toNat) t
      refine ⟨r.toNat + n, hsent.append hrest, ?_⟩
      rcases hresult with hok | ⟨-, -, hzero⟩
      · exact .inl (by rw [hok, Nat.add_assoc])
      · omega
    · have hnone : PayloadSent wire h ctx data s 0 ctx t := went_nothing hcb hout hpos
      rw [if_neg hpos]
      split_ifs with hsome
      · exact ⟨0, hnone, .inl rfl⟩
      · exact ⟨0, hnone, .inr ⟨rfl, rfl, by omega⟩⟩

theorem sendPlain_went (hcb : Sends cb wire) (hk : HoldsKey ctx h) (hplain : ¬ ctx.omask ≠ 0)
    (data : Bytes) (s : σ) : Went wire h ctx data s 0 (sendPlain cb ctx data s) := by
  have hkey : h.key = none := by
    cases hkey : h.key with
    | none => rfl
    | some k => exact absurd (hk.some k hkey).1 hplain
  have hbytes : data = h.mask ctx.opayloadoff (data.take data.length) := by
    rw [Header.mask_of_no_key hkey, List.take_length]
  have hsent := PayloadSent.send hcb s hbytes 0
  have hle := (hcb.send s data 0).1
  rw [sendPlain]
  rcases hout : cb.sendCallback s data 0 with ⟨r, t⟩
  rw [hout] at hsent hle
  have hfits : ¬ (data.length : Int) < r := by
    simp only at hle
    omega
  by_cases hpos : 0 < r
  · simp only [if_pos hpos, if_neg hfits]
    exact ⟨r.toNat, hsent, .inl (by simp)⟩
  · simp only [if_neg hpos]
    exact ⟨0, went_nothing hcb hout hpos, .inr ⟨rfl, rfl, rfl⟩⟩

/-- A call in the state of the payload: the next frame begins where the payload ends. -/
theorem sendPayload_sent (hcb : Sends cb wire) (hk : HoldsKey ctx h) {iocb : WslayFrameToSend}
    (hdata : iocb.dataLength = iocb.data.length) (s : σ) :
    ∃ n after, PayloadSent wire h ctx iocb.data s n after (sendPayload cb ctx iocb s).2.2 ∧
      ((sendPayload cb ctx iocb s).1 = .ok n ∧ (sendPayload cb ctx iocb s).2.1 =
          (if after.opayloadoff = after.opayloadlen then { after with ostate := .prepHeader }
            else after) ∨
        (sendPayload cb ctx iocb s).1 = .error .wantWrite ∧ n = 0 ∧ iocb.data ≠ [] ∧
          (sendPayload cb ctx iocb s).2.1 = after) := by
  have hwent : Went wire h ctx iocb.data s 0
      (if 0 < iocb.data.length then
          if ctx.omask ≠ 0 then sendMasked cb iocb.data.length iocb.data 0 ctx s
          else sendPlain cb ctx iocb.data s
        else (.ok 0, ctx, s)) := by
    split_ifs with hsome hmasked
    · exact sendMasked_went hcb hk hmasked _ _ _ _
    · exact sendPlain_went hcb hk hmasked _ _
    · exact ⟨0, PayloadSent.none h ctx iocb.data s, .inl rfl⟩
  rw [sendPayload, hdata, List.take_length]
  rcases hout : (if 0 < iocb.data.length then
      if ctx.omask ≠ 0 then sendMasked cb iocb.data.length iocb.data 0 ctx s
      else sendPlain cb ctx iocb.data s
    else (.ok 0, ctx, s)) with ⟨result, after, t⟩
  rw [hout] at hwent
  obtain ⟨n, hsent, hresult⟩ := hwent
  refine ⟨n, after, ?_⟩
  rcases hresult with hok | ⟨hwant, hzero, -⟩
  · simp only [Nat.zero_add] at hok
    subst hok
    exact ⟨hsent, .inl ⟨rfl, rfl⟩⟩
  · simp only at hwant
    subst hwant
    refine ⟨hsent, .inr ⟨rfl, hzero, ?_, rfl⟩⟩
    rintro hempty
    simp [hempty] at hout

/-! ### The header and the payload together -/

/-- A frame on its way: what is to be sent, and what is left of its data. -/
structure Outgoing where
  iocb : WslayFrameToSend
  left : Bytes

/-- The call that goes on with it. -/
def Outgoing.rest (o : Outgoing) : WslayFrameToSend :=
  { o.iocb with data := o.left, dataLength := o.left.length }

/-- What a caller is asked for: the lengths are those of the data, a mask is 0 or 1, a control
frame is final, and a frame without a mask does not come after one with a mask. -/
structure Proper (ctx : WslayFrameContext) (iocb : WslayFrameToSend) : Prop where
  payloadLength : iocb.payloadLength = iocb.data.length
  dataLength : iocb.dataLength = iocb.data.length
  mask : iocb.mask = 0 ∨ iocb.mask = 1
  control : wslayIsCtrlFrame iocb.opcode = true → iocb.fin &&& 1 ≠ 0
  plain : iocb.mask = 0 → ctx.omask = 0

/-- A frame of the protocol with the flags and the payload that were asked for. -/
structure Carries (iocb : WslayFrameToSend) (f : WireFrame) : Prop where
  flags : f.header.flags = flags iocb
  masked : f.header.key.isSome = decide (iocb.mask ≠ 0)
  payload : f.payload = iocb.data
  length : f.header.length = iocb.payloadLength

/-- How far a frame on its way has come, and what of it is on the wire. -/
inductive Position (ctx : WslayFrameContext) (o : Outgoing) : Bytes → Prop
  | idle (hstate : ctx.ostate = .prepHeader) (hproper : Proper ctx o.iocb)
      (hleft : o.left = o.iocb.data) : Position ctx o []
  | header {f : WireFrame} {part : Bytes} (hstate : ctx.ostate = .sendHeader) (hf : Carries o.iocb f)
      (hk : HoldsKey ctx f.header) (hsplit : f.header.encode = part ++ ctx.oheader)
      (hlen : ctx.opayloadlen = f.header.length) (hoff : ctx.opayloadoff = 0)
      (hleft : o.left = f.payload) : Position ctx o part
  | payload {f : WireFrame} {off : Nat} (hstate : ctx.ostate = .sendPayload) (hf : Carries o.iocb f)
      (hk : HoldsKey ctx f.header) (hlen : ctx.opayloadlen = f.header.length)
      (hoff : ctx.opayloadoff = off) (hlt : off ≤ f.header.length)
      (hleft : o.left = f.payload.drop off) :
      Position ctx o (f.header.encode ++ f.header.mask 0 (f.payload.take off))

variable {o : Outgoing} {part : Bytes}

theorem lengthValid_flags {iocb : WslayFrameToSend} (hp : Proper ctx iocb)
    (hctrl : ¬ (wslayIsCtrlFrame iocb.opcode && decide (125 < iocb.payloadLength)) = true)
    (hlt : iocb.payloadLength < 2 ^ 63) : LengthValid (flags iocb) iocb.data.length := by
  rw [← hp.payloadLength]
  refine ⟨hlt, fun hc => ?_⟩
  rw [isControl_flags] at hc
  have hshort : iocb.payloadLength ≤ 125 := by simpa [hc] using hctrl
  have hfin := hp.control hc
  rw [← fin_flags] at hfin
  exact ⟨hshort, hfin⟩

theorem prepHeader_position (hcb : Sends cb wire) {iocb : WslayFrameToSend} (hp : Proper ctx iocb)
    (s : σ) : wire (prepHeader cb ctx iocb s).2.2 = wire s ∧
      ((prepHeader cb ctx iocb s).1 = .ok () ∧
          (prepHeader cb ctx iocb s).2.1.ostate = .sendHeader ∧
          Position (prepHeader cb ctx iocb s).2.1 ⟨iocb, iocb.data⟩ [] ∨
        ∃ e, (prepHeader cb ctx iocb s).1 = .error e ∧ e ≠ .wantWrite) := by
  have hheader := headerBytes_eq hp.mask
  rw [prepHeader]
  by_cases hctrl : (wslayIsCtrlFrame iocb.opcode && decide (125 < iocb.payloadLength)) = true
  · rw [if_pos hctrl] at hheader
    rw [hheader]
    exact ⟨rfl, .inr ⟨_, rfl, by simp⟩⟩
  rw [if_neg hctrl] at hheader
  by_cases hlt : iocb.payloadLength < 2 ^ 63
  · rw [if_pos hlt] at hheader
    rw [hheader]
    have hvalid := lengthValid_flags hp hctrl hlt
    have hlen := hp.payloadLength
    by_cases hmask : iocb.mask ≠ 0
    · simp only [if_pos hmask]
      obtain ⟨hwire, hkey⟩ := hcb.genmask s 4
      rcases hout : cb.genmaskCallback s 4 with ⟨key, t⟩
      rw [hout] at hwire hkey
      cases key with
      | none => exact ⟨hwire, .inr ⟨_, rfl, by simp⟩⟩
      | some key =>
        have hfour : key.length = 4 := hkey key rfl
        refine ⟨hwire, .inl ⟨rfl, rfl, ?_⟩⟩
        refine .header (f := ⟨⟨flags iocb, iocb.data.length, some ⟨key, hfour⟩⟩, iocb.data, rfl,
          hvalid⟩) rfl ⟨rfl, by simp [hmask], rfl, hlen.symm⟩ ⟨by simp, ?_⟩ ?_ hlen rfl rfl
        · intro k hk
          cases hk
          exact ⟨(by decide : (1 : UInt8) ≠ 0), rfl⟩
        · simp [Header.encode, keyBytes, hmask, hlen]
    · have hzero : iocb.mask = 0 := by simpa using hmask
      simp only [if_neg hmask]
      refine ⟨trivial, .inl ⟨trivial, trivial, ?_⟩⟩
      refine .header (f := ⟨⟨flags iocb, iocb.data.length, none⟩, iocb.data, rfl, hvalid⟩) rfl
        ⟨rfl, by simp [hzero], rfl, hlen.symm⟩ ⟨fun _ => hp.plain hzero, by simp⟩ ?_ hlen rfl rfl
      simp [Header.encode, keyBytes, hzero, hlen]
  · rw [if_neg hlt] at hheader
    rw [hheader]
    exact ⟨rfl, .inr ⟨_, rfl, by simp⟩⟩

theorem sendHeader_position (hcb : Sends cb wire) (hs : Position ctx o part)
    (hstate : ctx.ostate = .sendHeader) (iocb : WslayFrameToSend) (s : σ) :
    ∃ more, wire (sendHeader cb ctx iocb s).2.2 = wire s ++ more ∧
      Position (sendHeader cb ctx iocb s).2.1 o (part ++ more) ∧
      ((sendHeader cb ctx iocb s).1 = .ok () ∧
          (sendHeader cb ctx iocb s).2.1.ostate = .sendPayload ∨
        (sendHeader cb ctx iocb s).1 = .error .wantWrite ∧
          (sendHeader cb ctx iocb s).2.1.ostate = .sendHeader) := by
  cases hs with
  | idle hother | payload hother =>
    rw [hother] at hstate
    cases hstate
  | @header f _ _ hf hk hsplit hlen hoff hleft =>
    rw [sendHeader]
    generalize (if 0 < iocb.dataLength then wslayMsgMore else 0) = fl
    obtain ⟨hle, hwire⟩ := hcb.send s ctx.oheader fl
    rcases hout : cb.sendCallback s ctx.oheader fl with ⟨r, t⟩
    rw [hout] at hle hwire
    have hfits : ¬ (ctx.oheader.length : Int) < r := by
      simp only at hle
      omega
    refine ⟨ctx.oheader.take r.toNat, ?_⟩
    by_cases hpos : 0 < r
    · simp only [if_pos hpos, if_neg hfits]
      by_cases hall : r = ctx.oheader.length
      · have hwhole : ctx.oheader.take r.toNat = ctx.oheader := by
          rw [hall]
          simp
        simp only [if_pos hall, hwhole] at hwire ⊢
        have hposition : Position { ctx with oheader := [], ostate := .sendPayload } o
            (f.header.encode ++ f.header.mask 0 (f.payload.take 0)) :=
          .payload rfl hf ⟨hk.none, hk.some⟩ hlen hoff (Nat.zero_le _) hleft
        have hnothing : f.header.mask 0 (f.payload.take 0) = [] := rfl
        rw [hnothing, List.append_nil, hsplit] at hposition
        exact ⟨hwire, hposition, .inl ⟨trivial, trivial⟩⟩
      · simp only [if_neg hall]
        refine ⟨hwire, ?_, .inr ⟨trivial, hstate⟩⟩
        have hrest : f.header.encode = (part ++ ctx.oheader.take r.toNat) ++ ctx.oheader.drop r.toNat := by
          rw [List.append_assoc, List.take_append_drop, hsplit]
        exact .header hstate hf ⟨hk.none, hk.some⟩ hrest hlen hoff hleft
    · have hzero : r.toNat = 0 := by omega
      simp only [if_neg hpos, hzero, List.take_zero, List.append_nil] at hwire ⊢
      exact ⟨hwire, .header hstate hf hk hsplit hlen hoff hleft, .inr ⟨trivial, hstate⟩⟩

/-- A call has put out some bytes of a frame: all that were missing, or not all yet. -/
inductive Outcome (wire : σ → Bytes) (o : Outgoing) (part : Bytes) (s : σ) (out : Sent Nat σ) : Prop
  | finished {f : WireFrame} {more : Bytes} (hout : out.1 = .ok o.left.length) (hf : Carries o.iocb f)
      (hwire : wire out.2.2 = wire s ++ more) (hall : part ++ more = f.encode)
      (hstate : out.2.1.ostate = .prepHeader)
  | some {n : Nat} {more : Bytes} (hout : out.1 = .ok n) (hlt : n < o.left.length)
      (hwire : wire out.2.2 = wire s ++ more) (hstate : out.2.1.ostate ≠ .prepHeader)
      (hs : Position out.2.1 ⟨o.iocb, o.left.drop n⟩ (part ++ more))
  | wantWrite {more : Bytes} (hout : out.1 = .error .wantWrite)
      (hwire : wire out.2.2 = wire s ++ more) (hstate : out.2.1.ostate ≠ .prepHeader)
      (hs : Position out.2.1 o (part ++ more))

theorem sendPayload_outcome (hcb : Sends cb wire) (hs : Position ctx o part)
    (hstate : ctx.ostate = .sendPayload) (s : σ) :
    Outcome wire o part s (sendPayload cb ctx o.rest s) := by
  cases hs with
  | idle hother | header hother =>
    rw [hother] at hstate
    cases hstate
  | @payload f off _ hf hk hlen hoff hlt hleft =>
    have hflen := f.length_eq
    have hdrop : o.left.length = f.header.length - off := by
      rw [hleft, List.length_drop, hflen]
    obtain ⟨n, after, hsent, hresult⟩ := sendPayload_sent hcb hk (show o.rest.dataLength = o.rest.data.length from rfl) s
    have hle : n ≤ o.left.length := hsent.le
    have hwire : wire (sendPayload cb ctx o.rest s).2.2 =
        wire s ++ f.header.mask off (o.left.take n) := by
      rw [← hoff]
      exact hsent.wire
    have hafter := hsent.after_eq
    have htake : f.payload.take off ++ o.left.take n = f.payload.take (off + n) := by
      rw [hleft, List.take_add]
    have hmask : f.header.mask 0 (f.payload.take off) ++ f.header.mask off (o.left.take n) =
        f.header.mask 0 (f.payload.take (off + n)) := by
      have hoffset : 0 + (f.payload.take off).length = off := by
        rw [List.length_take]
        omega
      rw [← htake, Header.mask_append, hoffset]
    have hposition : ∀ last, HoldsKey last f.header → last.ostate = .sendPayload →
        last.opayloadlen = f.header.length → last.opayloadoff = off + n →
        Position last ⟨o.iocb, o.left.drop n⟩
          (f.header.encode ++ f.header.mask 0 (f.payload.take off) ++
            f.header.mask off (o.left.take n)) := by
      intro last hk' hstate' hlen' hoff'
      rw [List.append_assoc, hmask]
      refine .payload hstate' hf hk' hlen' hoff' (by omega) ?_
      rw [hleft, List.drop_drop]
    have hkey : HoldsKey after f.header := by
      rw [hafter]
      exact ⟨hk.none, hk.some⟩
    have hoffset : after.opayloadoff = off + n := by
      rw [hafter]
      simp [hoff]
    have hlength : after.opayloadlen = f.header.length := by
      rw [hafter]
      exact hlen
    have hsame : after.ostate = .sendPayload := by
      rw [hafter]
      exact hstate
    rcases hresult with ⟨hok, hlast⟩ | ⟨hwant, hzero, -, hlast⟩
    · rw [hoffset, hlength] at hlast
      by_cases hend : off + n = f.header.length
      · rw [if_pos hend] at hlast
        refine .finished (by rw [hok, hdrop, ← hend]; simp) hf hwire ?_ (by rw [hlast])
        rw [List.append_assoc, hmask, hend, ← hflen, List.take_length]
        rfl
      · rw [if_neg hend] at hlast
        refine .some hok (by omega) hwire (by rw [hlast, hsame]; simp) ?_
        rw [hlast]
        exact hposition after hkey hsame hlength hoffset
    · refine .wantWrite hwant hwire (by rw [hlast, hsame]; simp) ?_
      have hstill := hposition after hkey hsame hlength hoffset
      rw [hlast]
      simpa [hzero] using hstill

theorem Position.left_le (hs : Position ctx o part) : o.left.length ≤ o.iocb.payloadLength := by
  cases hs with
  | idle _ hproper hleft => rw [hleft, hproper.payloadLength]
  | @header f _ _ hf _ _ _ _ hleft => rw [hleft, f.length_eq, hf.length]
  | @payload f _ _ hf _ _ _ _ hleft =>
    rw [hleft, List.length_drop, f.length_eq, hf.length]
    omega

theorem Outcome.of_wire {out : Sent Nat σ} {s t : σ} {more : Bytes}
    (h : Outcome wire o (part ++ more) t out) (hwire : wire t = wire s ++ more) :
    Outcome wire o part s out := by
  cases h with
  | finished hout hf hrest hall hstate =>
    rw [hwire, List.append_assoc] at hrest
    rw [List.append_assoc] at hall
    exact .finished hout hf hrest hall hstate
  | some hout hlt hrest hstate hs =>
    rw [hwire, List.append_assoc] at hrest
    rw [List.append_assoc] at hs
    exact .some hout hlt hrest hstate hs
  | wantWrite hout hrest hstate hs =>
    rw [hwire, List.append_assoc] at hrest
    rw [List.append_assoc] at hs
    exact .wantWrite hout hrest hstate hs

theorem begin_position (hcb : Sends cb wire) (hs : Position ctx o part) (s : σ)
    {out : Sent Unit σ} (hout : (if ctx.ostate = .prepHeader then prepHeader cb ctx o.rest s
      else (.ok (), ctx, s)) = out) :
    wire out.2.2 = wire s ∧
      (out.1 = .ok () ∧ out.2.1.ostate ≠ .prepHeader ∧ Position out.2.1 o part ∨
        out = prepHeader cb ctx o.rest s ∧ ∃ e, out.1 = .error e ∧ e ≠ .wantWrite) := by
  subst hout
  cases hs with
  | idle hstate hproper hleft =>
    have hrest : o.rest = o.iocb := by
      rw [Outgoing.rest, hleft, ← hproper.dataLength]
    have ho : (⟨o.iocb, o.iocb.data⟩ : Outgoing) = o := by rw [← hleft]
    obtain ⟨hwire, hresult⟩ := prepHeader_position hcb hproper s
    rw [if_pos hstate, hrest]
    refine ⟨hwire, hresult.imp (fun hready => ?_) fun hrefused => ⟨rfl, hrefused⟩⟩
    obtain ⟨hok, hnext, hs⟩ := hready
    rw [ho] at hs
    exact ⟨hok, by rw [hnext]; simp, hs⟩
  | header hstate hf hk hsplit hlen hoff hleft =>
    have hnot : ¬ ctx.ostate = .prepHeader := by simp [hstate]
    rw [if_neg hnot]
    exact ⟨rfl, .inl ⟨rfl, hnot, .header hstate hf hk hsplit hlen hoff hleft⟩⟩
  | payload hstate hf hk hlen hoff hlt hleft =>
    have hnot : ¬ ctx.ostate = .prepHeader := by simp [hstate]
    rw [if_neg hnot]
    exact ⟨rfl, .inl ⟨rfl, hnot, .payload hstate hf hk hlen hoff hlt hleft⟩⟩

/-- What is left of a call once the header is there. -/
def proceed (cb : WslayFrameCallbacks σ) (ctx : WslayFrameContext) (iocb : WslayFrameToSend) (s : σ) :
    Sent Nat σ :=
  match (if ctx.ostate = .sendHeader then sendHeader cb ctx iocb s else (.ok (), ctx, s)) with
  | (.error e, ctx, s) => (.error e, ctx, s)
  | (.ok (), ctx, s) =>
    if ctx.ostate = .sendPayload then sendPayload cb ctx iocb s
    else (.error .invalidArgument, ctx, s)

theorem wslayFrameSend_eq {iocb : WslayFrameToSend} (hle : ¬ iocb.payloadLength < iocb.dataLength)
    (s : σ) : wslayFrameSend cb ctx iocb s =
      match (if ctx.ostate = .prepHeader then prepHeader cb ctx iocb s else (.ok (), ctx, s)) with
      | (.error e, ctx, s) => (.error e, ctx, s)
      | (.ok (), ctx, s) => proceed cb ctx iocb s := by
  rw [wslayFrameSend, if_neg hle]
  rfl

theorem proceed_outcome (hcb : Sends cb wire) (hs : Position ctx o part)
    (hstate : ctx.ostate ≠ .prepHeader) (s : σ) :
    Outcome wire o part s (proceed cb ctx o.rest s) := by
  rw [proceed]
  by_cases hheader : ctx.ostate = .sendHeader
  · obtain ⟨more, hwire, hnext, hresult⟩ := sendHeader_position hcb hs hheader o.rest s
    rcases hout : sendHeader cb ctx o.rest s with ⟨result, ctx', s'⟩
    rw [hout] at hwire hnext hresult
    simp only [if_pos hheader]
    rcases hresult with ⟨hok, hpayload⟩ | ⟨hwant, hstill⟩
    · simp only at hok hpayload
      subst hok
      simp only [if_pos hpayload]
      exact (sendPayload_outcome hcb hnext hpayload s').of_wire hwire
    · simp only at hwant
      subst hwant
      exact .wantWrite rfl hwire (by rw [hstill]; simp) hnext
  · have hpayload : ctx.ostate = .sendPayload := by
      cases hs with
      | idle h => exact absurd h hstate
      | header h => exact absurd h hheader
      | payload h => exact h
    simp only [if_neg hheader, if_pos hpayload]
    exact sendPayload_outcome hcb hs hpayload s

/-- A call goes on with its frame, unless the header cannot be made. -/
theorem wslayFrameSend_outcome (hcb : Sends cb wire) (hs : Position ctx o part) (s : σ) :
    Outcome wire o part s (wslayFrameSend cb ctx o.rest s) ∨
      ∃ e, (wslayFrameSend cb ctx o.rest s).1 = .error e ∧ e ≠ .wantWrite ∧
        (prepHeader cb ctx o.rest s).1 = .error e := by
  rw [wslayFrameSend_eq (Nat.not_lt.mpr hs.left_le)]
  rcases hfirst : (if ctx.ostate = .prepHeader then prepHeader cb ctx o.rest s
    else (.ok (), ctx, s)) with ⟨first, ctx', s'⟩
  obtain ⟨hwire, hresult⟩ := begin_position hcb hs s hfirst
  rcases hresult with ⟨hok, hstate, hnext⟩ | ⟨hprep, e, he, hne⟩
  · simp only at hok
    subst hok
    have houtcome := proceed_outcome hcb hnext hstate s'
    rw [← List.append_nil part] at houtcome
    exact .inl (houtcome.of_wire (by rw [hwire, List.append_nil]))
  · simp only at he
    subst he
    exact .inr ⟨e, rfl, hne, by rw [← hprep]⟩

/-! ### Callbacks that agree -/

theorem sendMasked_congr {cb' : WslayFrameCallbacks σ}
    (hsend : ∀ s data flags, data.length ≤ tempSize →
      cb.sendCallback s data flags = cb'.sendCallback s data flags)
    (fuel : Nat) (data : Bytes) (totallen : Nat) (ctx : WslayFrameContext) (s : σ) :
    sendMasked cb fuel data totallen ctx s = sendMasked cb' fuel data totallen ctx s := by
  induction fuel generalizing data totallen ctx s with
  | zero => rfl
  | succ fuel ih =>
    have hlen : (maskBytes ctx.omaskkey ctx.opayloadoff
        (data.take (min tempSize data.length))).length ≤ tempSize := by
      rw [maskBytes, Keystream.length_combine, List.length_take]
      omega
    have hcall := hsend s _ 0 hlen
    rw [sendMasked, sendMasked]
    dsimp only
    simp only [hcall, ih]

/-- A masked payload is put out in small parts, so large data do not matter. -/
theorem proceed_congr {cb' : WslayFrameCallbacks σ}
    (hsend : ∀ s data flags, data.length ≤ tempSize →
      cb.sendCallback s data flags = cb'.sendCallback s data flags)
    {ctx : WslayFrameContext} (hmasked : ctx.omask ≠ 0) (hheader : ctx.oheader.length ≤ tempSize)
    (iocb : WslayFrameToSend) (s : σ) : proceed cb ctx iocb s = proceed cb' ctx iocb s := by
  have hfirst : sendHeader cb ctx iocb s = sendHeader cb' ctx iocb s := by
    rw [sendHeader, sendHeader, hsend _ _ _ hheader]
  have hkeeps : (sendHeader cb' ctx iocb s).2.1.omask = ctx.omask := by
    rw [sendHeader]
    dsimp only
    split_ifs <;> rfl
  have hpayload : ∀ after : WslayFrameContext, after.omask ≠ 0 → ∀ t,
      sendPayload cb after iocb t = sendPayload cb' after iocb t := by
    intro after hafter t
    rw [sendPayload, sendPayload, if_pos hafter, if_pos hafter, sendMasked_congr hsend]
  rw [proceed, proceed, hfirst]
  split_ifs with hstate
  · rcases hout : sendHeader cb' ctx iocb s with ⟨result, after, t⟩
    rw [hout] at hkeeps
    cases result with
    | error e => rfl
    | ok _ => simp only [hpayload after (by rw [hkeeps]; exact hmasked)]
  · simp only [hpayload ctx hmasked]

theorem Position.begun (hs : Position ctx o part) :
    part = [] ∨ ∃ f, Carries o.iocb f ∧ part <+: f.encode := by
  cases hs with
  | idle => exact .inl rfl
  | @header f _ _ hf _ hsplit =>
    refine .inr ⟨f, hf, ctx.oheader ++ f.header.mask 0 f.payload, ?_⟩
    rw [WireFrame.encode, hsplit, List.append_assoc]
  | @payload f off _ hf =>
    refine .inr ⟨f, hf, f.header.mask (0 + (f.payload.take off).length) (f.payload.drop off), ?_⟩
    rw [WireFrame.encode, List.append_assoc, ← Header.mask_append, List.take_append_drop]

end WslayFrameContext

/-! ### Runs of the sender -/

open WslayFrameContext

/-- A context, its transport, the frames that were sent and the one that is on its way. -/
structure WslaySender (σ : Type) where
  ctx : WslayFrameContext
  transport : σ
  sent : List WslayFrameToSend
  current : Option Outgoing

namespace WslaySender

variable {σ : Type} {cb : WslayFrameCallbacks σ} {wire : σ → Bytes} {transport : σ}
  {w w' : WslaySender σ}

def create (transport : σ) : WslaySender σ := ⟨WslayFrameContext.create, transport, [], none⟩

/-- A frame on its way is finished before the next one is begun. -/
def step (cb : WslayFrameCallbacks σ) (w : WslaySender σ) (iocb : WslayFrameToSend) :
    Option (WslaySender σ) :=
  let o := w.current.getD ⟨iocb, iocb.data⟩
  match wslayFrameSend cb w.ctx o.rest w.transport with
  | (.ok n, ctx, s) =>
    if n < o.left.length then some ⟨ctx, s, w.sent, some ⟨o.iocb, o.left.drop n⟩⟩
    else some ⟨ctx, s, w.sent ++ [o.iocb], none⟩
  | (.error .wantWrite, ctx, s) => some ⟨ctx, s, w.sent, some o⟩
  | (.error _, _, _) => none

abbrev Reached (cb : WslayFrameCallbacks σ) (transport : σ) : WslaySender σ → Prop :=
  Transition.Reachable (step cb) (fun w iocb => w.current = none → Proper w.ctx iocb)
    (create transport)

/-- What is on the wire: the frames that were sent, and a part of the one on its way. -/
structure Standing (wire : σ → Bytes) (transport : σ) (w : WslaySender σ) (fs : List WireFrame)
    (part : Bytes) : Prop where
  wire : wire w.transport = wire transport ++ (fs.flatMap WireFrame.encode ++ part)
  sent : List.Forall₂ Carries w.sent fs
  idle : w.current = none → w.ctx.ostate = .prepHeader ∧ part = []
  current : ∀ o, w.current = some o → Position w.ctx o part

theorem standing_create (transport : σ) : Standing wire transport (create transport) [] [] :=
  ⟨by simp [create], .nil, fun _ => ⟨rfl, rfl⟩, by simp [create]⟩

theorem Standing.step (hcb : Sends cb wire) {fs : List WireFrame} {part : Bytes}
    (h : Standing wire transport w fs part) {iocb : WslayFrameToSend}
    (hproper : w.current = none → Proper w.ctx iocb) (hstep : WslaySender.step cb w iocb = some w') :
    ∃ fs' part', Standing wire transport w' fs' part' := by
  have hs : Position w.ctx (w.current.getD ⟨iocb, iocb.data⟩) part := by
    cases hcurrent : w.current with
    | none =>
      obtain ⟨hstate, hpart⟩ := h.idle hcurrent
      rw [hpart]
      exact .idle hstate (hproper hcurrent) rfl
    | some o => exact h.current o hcurrent
  have houtcome := wslayFrameSend_outcome hcb hs w.transport
  rw [WslaySender.step] at hstep
  generalize w.current.getD ⟨iocb, iocb.data⟩ = o at houtcome hstep
  rcases hout : wslayFrameSend cb w.ctx o.rest w.transport with ⟨result, ctx, s⟩
  rw [hout] at houtcome
  simp only [hout] at hstep
  have hwire := h.wire
  rcases houtcome with houtcome | ⟨e, he, hne, -⟩
  swap
  · simp only at he
    subst he
    cases e with
    | wantWrite => exact absurd rfl hne
    | invalidArgument | invalidCallback => cases hstep
  cases houtcome with
  | @finished f more hok hf hmore hall hstate =>
    simp only at hok
    subst hok
    simp only [Nat.lt_irrefl, if_false, Option.some.injEq] at hstep
    subst hstep
    refine ⟨fs ++ [f], [], ?_, ?_, fun _ => ⟨hstate, rfl⟩, by simp⟩
    · simp only at hmore ⊢
      rw [hmore, hwire]
      simp [← hall]
    · exact List.rel_append h.sent (.cons hf .nil)
  | @some n more hok hlt hmore _ hs =>
    simp only at hok
    subst hok
    simp only [if_pos hlt, Option.some.injEq] at hstep
    subst hstep
    refine ⟨fs, part ++ more, ?_, h.sent, by simp, ?_⟩
    · simp only at hmore ⊢
      rw [hmore, hwire]
      simp
    · intro o' ho'
      cases ho'
      exact hs
  | @wantWrite more hwant hmore _ hs =>
    simp only at hwant
    subst hwant
    simp only [Option.some.injEq] at hstep
    subst hstep
    refine ⟨fs, part ++ more, ?_, h.sent, by simp, ?_⟩
    · simp only at hmore ⊢
      rw [hmore, hwire]
      simp
    · intro o' ho'
      cases ho'
      exact hs

theorem Reached.standing (hcb : Sends cb wire) (h : Reached cb transport w) :
    ∃ fs part, Standing wire transport w fs part := by
  induction h with
  | refl => exact ⟨[], [], standing_create transport⟩
  | tail _ hcond hstep ih =>
    obtain ⟨fs, part, hstanding⟩ := ih
    exact hstanding.step hcb hcond hstep

theorem sends_pipe (most : Nat) : Sends (Pipe.callbacks most) Pipe.sent := by
  constructor
  · intro s data flags
    have hlen : (data.take most).length = min most data.length := List.length_take
    have htake : data.take most = data.take (data.take most).length := by
      rw [List.take_eq_take_iff, hlen]
      omega
    refine ⟨?_, ?_⟩
    · show ((data.take most).length : Int) ≤ data.length
      omega
    · show s.taken ++ (s.waiting ++ data.take most) = s.sent ++ data.take (data.take most).length
      rw [← htake, ← List.append_assoc]
      rfl
  · intro s len
    refine ⟨rfl, fun key hkey => ?_⟩
    cases hkey
    exact List.length_replicate

/-- However little the transport takes at a time, the wire holds the proper frames that were sent,
one after the other, and a beginning of the one on its way. -/
theorem reached_wire (hcb : Sends cb wire) (h : Reached cb transport w) :
    ∃ fs part, wire w.transport = wire transport ++ (fs.flatMap WireFrame.encode ++ part) ∧
      List.Forall₂ Carries w.sent fs ∧ (w.current = none → part = []) ∧
      ∀ o, w.current = some o → part = [] ∨ ∃ f, Carries o.iocb f ∧ part <+: f.encode := by
  obtain ⟨fs, part, hstanding⟩ := h.standing hcb
  exact ⟨fs, part, hstanding.wire, hstanding.sent, fun hnone => (hstanding.idle hnone).2,
    fun o ho => (hstanding.current o ho).begun⟩

/-- A masked frame of four bytes over a pipe that takes three at a time. -/
theorem reached_wire_pipe : ∃ w, Reached (Pipe.callbacks 3) ⟨[], []⟩ w ∧
    w.sent.map (·.data) = [[7, 8, 9, 10]] ∧
    ∃ fs part, w.transport.sent = [] ++ (fs.flatMap WireFrame.encode ++ part) ∧
      List.Forall₂ Carries w.sent fs ∧ (w.current = none → part = []) ∧
      ∀ o, w.current = some o → part = [] ∨ ∃ f, Carries o.iocb f ∧ part <+: f.encode := by
  have hproper : Proper WslayFrameContext.create ⟨1, 0, 2, 4, 1, [7, 8, 9, 10], 4⟩ :=
    ⟨rfl, rfl, .inr rfl, by decide, by decide⟩
  have hfirst : ∃ w, step (Pipe.callbacks 3) (create ⟨[], []⟩) ⟨1, 0, 2, 4, 1, [7, 8, 9, 10], 4⟩ =
      some w ∧ w.current.isSome ∧
      ∃ w', step (Pipe.callbacks 3) w ⟨1, 0, 2, 4, 1, [7, 8, 9, 10], 4⟩ = some w' ∧
        w'.sent.map (·.data) = [[7, 8, 9, 10]] := ⟨_, rfl, rfl, _, rfl, rfl⟩
  obtain ⟨w, hw, hcurrent, w', hw', hsent⟩ := hfirst
  have hreached : Reached (Pipe.callbacks 3) ⟨[], []⟩ w' :=
    (Transition.Reachable.refl.tail (fun _ => hproper) hw).tail
      (fun hnone => by simp [hnone] at hcurrent) hw'
  exact ⟨w', hreached, hsent, reached_wire (sends_pipe 3) hreached⟩

end WslaySender

end AwsIotSdk
