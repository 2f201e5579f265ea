import AwsIotSdk.FatalRead
import AwsIotSdk.LengthBytes

/-! The frames of a stream and the packets the read loop takes from it. A pause
inside a frame loses the bytes in front of it; no other delivery does. -/

namespace AwsIotSdk

open NetworkRead

structure Frame where
  fixedHeaderByte : UInt8
  lengthBytes : Bytes
  body : Bytes
  terminated : Terminated lengthBytes
  length_le : lengthBytes.length ≤ maxNoOfRemainingLengthBytes
  value_eq : lengthValue lengthBytes = body.length

namespace Frame

def bytes (f : Frame) : Bytes := f.fixedHeaderByte :: f.lengthBytes ++ f.body

def packet (f : Frame) : UInt8 × Bytes := (f.fixedHeaderByte, f.body)

def Minimal (f : Frame) : Prop :=
  f.lengthBytes.length = PacketFixedHeader.remainingLengthByteCount f.body.length

def stream (fs : List Frame) : Bytes := fs.flatMap bytes

theorem bytes_ne_nil (f : Frame) : f.bytes ≠ [] := List.cons_ne_nil _ _

theorem stream_cons (f : Frame) (fs : List Frame) : stream (f :: fs) = f.bytes ++ stream fs := rfl

theorem stream_append (fs gs : List Frame) : stream (fs ++ gs) = stream fs ++ stream gs :=
  List.flatMap_append

end Frame

open AwsIotSdk.Frame

/-- Every pause of the stream lies at the end of a frame, or in front of all. -/
def PausesBetween (fs : List Frame) (t : List Delivery) : Prop :=
  ∀ pre post, t = pre ++ .pause :: post → ∃ gs hs, fs = gs ++ hs ∧ tapeBytes pre = stream gs

theorem PausesBetween.tail {f : Frame} {fs : List Frame} {t u : List Delivery}
    (h : PausesBetween (f :: fs) t) (hd : Delivers t f.bytes u) : PausesBetween fs u := by
  obtain ⟨used, rfl, -, hb⟩ := hd
  rintro pre post rfl
  obtain ⟨gs, hs, hfs, hpre⟩ := h (used ++ pre) post (by simp)
  rw [tapeBytes_append, hb] at hpre
  cases gs with
  | nil => exact absurd (List.append_eq_nil_iff.mp hpre).1 f.bytes_ne_nil
  | cons g gs =>
    obtain ⟨rfl, rfl⟩ := List.cons.inj hfs
    exact ⟨gs, hs, rfl, List.append_cancel_left (hpre.trans (stream_cons f gs))⟩

theorem PausesBetween.drop {fs : List Frame} {used u : List Delivery}
    (h : PausesBetween fs (used ++ u)) (hb : tapeBytes used = []) : PausesBetween fs u := by
  rintro pre post rfl
  obtain ⟨gs, hs, hfs, hpre⟩ := h (used ++ pre) post (by simp)
  rw [tapeBytes_append, hb] at hpre
  exact ⟨gs, hs, hfs, hpre⟩

theorem PausesBetween.next {fs : List Frame} {t : List Delivery} (h : PausesBetween fs t)
    (hb : tapeBytes t = stream fs) :
    (∃ f gs w rest, fs = f :: gs ∧ Delivers t (f.bytes ++ w) rest) ∨ ∃ rest, RunsDry t 1 rest := by
  by_cases hp : Delivery.pause ∈ t
  · obtain ⟨pre, post, rfl, hpre⟩ := List.eq_append_cons_of_mem hp
    obtain ⟨gs, hs, rfl, hgs⟩ := h pre post rfl
    cases gs with
    | nil => exact .inr ⟨post, pre, hpre, by rw [hgs]; exact Nat.one_pos, .inr rfl⟩
    | cons f gs => exact .inl ⟨f, gs ++ hs, stream gs, .pause :: post, rfl, pre, rfl, hpre, hgs⟩
  · cases fs with
    | nil => exact .inr ⟨[], t, hp, by rw [hb]; exact Nat.one_pos, .inl ⟨rfl, rfl⟩⟩
    | cons f gs => exact .inl ⟨f, gs, stream gs, [], rfl, t, by simp, hp, hb⟩

/-! ### Reading one packet -/

theorem readPacketFromNetwork_of_delivers {f : Frame} {t rest : List Delivery} {w : Bytes}
    (h : Delivers t (f.bytes ++ w) rest) :
    ∃ u, readPacketFromNetwork true (⟨true, t⟩ : StreamConnection) =
      ⟨.success, f.fixedHeaderByte, f.body, ⟨true, u⟩⟩ ∧ Delivers t f.bytes u := by
  have hfirst : Delivers t ([f.fixedHeaderByte] ++ (f.lengthBytes ++ (f.body ++ w))) rest := by
    simpa [Frame.bytes] using h
  obtain ⟨u1, rest1, hread, hu1, hrest1⟩ :=
    readFromNetworkBuffer_of_delivers hfirst (List.cons_ne_nil _ _)
  obtain ⟨u2, rest2, hlen, hu2, hrest2⟩ :=
    decodeLoop_of_delivers f.terminated maxNoOfRemainingLengthBytes f.length_le 1 0 hrest1
  have hlength : decodeRemainingLength true (⟨true, u1⟩ : StreamConnection) =
      ⟨.success, f.body.length, ⟨true, u2⟩⟩ := by
    rw [decodeRemainingLength, hlen, f.value_eq, Nat.zero_add, Nat.one_mul]
  unfold readPacketFromNetwork
  simp only [List.length_singleton] at hread
  simp only [hread, hlength, ne_eq, not_true_eq_false, if_false, List.headD_cons]
  by_cases hbody : f.body = []
  · refine ⟨u2, by simp [hbody], ?_⟩
    have := hu1.trans hu2
    simpa [Frame.bytes, hbody] using this
  · obtain ⟨u3, rest3, hread3, hu3, -⟩ := readFromNetworkBuffer_of_delivers hrest2 hbody
    rw [if_pos (List.length_pos_iff.mpr hbody), hread3]
    refine ⟨u3, rfl, ?_⟩
    have := hu1.trans (hu2.trans hu3)
    simpa [Frame.bytes] using this

theorem readPacketFromNetwork_of_runsDry {t rest : List Delivery} (h : RunsDry t 1 rest) :
    ∃ b u, readPacketFromNetwork true (⟨true, t⟩ : StreamConnection) =
      ⟨.networkSslNothingToRead, 0, b, ⟨true, u⟩⟩ ∧ RunsDry t 1 u := by
  have ho := readFromNetworkBuffer_outcome t Nat.one_pos
  unfold readPacketFromNetwork
  generalize Action.readFromNetworkBuffer true (⟨true, t⟩ : StreamConnection) [] 1 = r at ho
  cases ho with
  | filled hdel hlen =>
    have := hdel.length_lt h
    rw [List.length_nil, Nat.zero_add] at hlen
    omega
  | dry hdry => exact ⟨_, _, rfl, hdry⟩

def packetSize (p : UInt8 × Bytes) : Nat :=
  1 + PacketFixedHeader.remainingLengthByteCount p.2.length + p.2.length

theorem Frame.Minimal.packetSize_eq {f : Frame} (h : f.Minimal) :
    packetSize f.packet = f.bytes.length := by
  rw [Minimal] at h
  simp only [packetSize, packet, Frame.bytes, List.length_append, List.length_cons, h]
  omega

def Spends (t : List Delivery) (p : PacketResult StreamConnection) : Prop :=
  p.connection.tape <:+ t ∧ (p.rc = .success → ∃ w, Delivers t w p.connection.tape ∧
    packetSize (p.fixedHeaderByte, p.readBuf) ≤ w.length)

theorem spends_of_error {t u : List Delivery} {rc : ResponseCode} (b : UInt8) (buf : Bytes)
    (connected : Bool) (hu : u <:+ t) (hrc : rc ≠ .success) :
    Spends t ⟨rc, b, buf, ⟨connected, u⟩⟩ := ⟨hu, fun h => absurd h hrc⟩

theorem readPacketFromNetwork_spends (c : StreamConnection) :
    Spends c.tape (readPacketFromNetwork true c) := by
  obtain ⟨connected, t⟩ := c
  cases connected with
  | false =>
    have : readPacketFromNetwork true (⟨false, t⟩ : StreamConnection) =
      ⟨.networkDisconnectedError, 0, resize [] 1, ⟨false, t⟩⟩ := rfl
    rw [this]
    exact spends_of_error 0 (resize [] 1) false (List.suffix_refl t) nofun
  | true =>
    have ho := readFromNetworkBuffer_outcome t Nat.one_pos
    unfold readPacketFromNetwork
    generalize Action.readFromNetworkBuffer true (⟨true, t⟩ : StreamConnection) [] 1 = r at ho
    cases ho with
    | @dry buf out u hdry => exact spends_of_error 0 buf true hdry.suffix nofun
    | @filled w u hdel hlen =>
      obtain ⟨b, rfl⟩ : ∃ b, w = [b] := List.length_eq_one_iff.mp (by simpa using hlen)
      obtain ⟨rc, value, v, hloop, hv, hvalue⟩ :=
        decodeLoop_spends maxNoOfRemainingLengthBytes u 1 0
      simp only [decodeRemainingLength, hloop, ne_eq, not_true_eq_false, if_false,
        List.nil_append, List.headD_cons]
      by_cases hrc : rc = .success
      · obtain ⟨bs, hbs, hdel', rfl⟩ := hvalue hrc
        have hcount := remainingLengthByteCount_le hbs
        simp only [Nat.zero_add, Nat.one_mul, hrc, not_true_eq_false, if_false]
        by_cases hpos : 0 < lengthValue bs
        · rw [if_pos hpos]
          have ho := readFromNetworkBuffer_outcome v hpos
          generalize Action.readFromNetworkBuffer true (⟨true, v⟩ : StreamConnection) []
            (lengthValue bs) = r at ho
          cases ho with
          | @dry buf out x hdry =>
            exact spends_of_error b buf true (hdry.suffix.trans (hdel.trans hdel').suffix) nofun
          | @filled body x hbody hlen =>
            have hall := hdel.trans (hdel'.trans hbody)
            refine ⟨hall.suffix, fun _ => ⟨_, hall, ?_⟩⟩
            simp only [List.length_nil, Nat.zero_add] at hlen
            simp only [packetSize, List.nil_append, hlen, List.length_append,
              List.length_singleton]
            omega
        · rw [if_neg hpos]
          have hall := hdel.trans hdel'
          refine ⟨hall.suffix, fun _ => ⟨_, hall, ?_⟩⟩
          have hzero : lengthValue bs = 0 := by omega
          rw [hzero] at hcount
          simp only [packetSize, List.length_nil, List.length_append, List.length_singleton]
          omega
      · rw [if_pos hrc]
        exact spends_of_error b [] true (hv.trans hdel.suffix) hrc

/-! ### Writing leaves the stream -/

theorem writeLoop_connection (c : StreamConnection) (threadContinue : Bool) (writeBuf : Bytes)
    (fuel : Nat) (tempBuf : Bytes) (total cur : Nat) :
    (Action.writeLoop threadContinue writeBuf fuel c tempBuf total cur).connection = c := by
  induction fuel generalizing tempBuf total cur with
  | zero => rfl
  | succ fuel ih =>
    have hwrite : (NetworkConnection.write c tempBuf cur).connection = c := by
      unfold NetworkConnection.write
      split_ifs <;> rfl
    rw [Action.writeLoop]
    simp only [hwrite]
    generalize (if total + (NetworkConnection.write c tempBuf cur).sizeWrittenBytesOut ≠
      writeBuf.length then _ else tempBuf) = rest
    split_ifs
    · exact ih _ _ _
    · rfl

theorem writeToNetworkBuffer_connection (c : StreamConnection) (threadContinue : Bool)
    (writeBuf : Bytes) : (Action.writeToNetworkBuffer threadContinue c writeBuf).2 = c := by
  unfold Action.writeToNetworkBuffer
  dsimp only
  split_ifs
  · rfl
  all_goals exact writeLoop_connection c threadContinue writeBuf _ _ _ _

theorem connect_tape (c : StreamConnection) : (NetworkConnection.connect c).2.tape = c.tape := rfl

theorem disconnect_tape (c : StreamConnection) :
    (NetworkConnection.disconnect c).2.tape = c.tape := rfl

theorem ActionKind.performAction_tape (kind : ActionKind) (s : ClientState) (c : StreamConnection)
    (data : ActionData) : (kind.performAction s c data).connection.tape = c.tape := by
  have hw := writeToNetworkBuffer_connection
  cases kind with
  | connect =>
    simp only [ActionKind.performAction, ConnectActionAsync.performAction]
    split
    · rfl
    · simp only [ConnectActionAsync.performPacket, hw]
      split_ifs <;> simp only [connect_tape, disconnect_tape]
  | disconnect =>
    simp only [ActionKind.performAction, DisconnectActionAsync.performAction]
    split_ifs
    · rfl
    · cases data <;> simp only [disconnect_tape, hw]
    · rfl
  | publish =>
    cases data <;> simp only [ActionKind.performAction, PublishActionAsync.performAction, hw]
  | puback =>
    cases data <;> simp only [ActionKind.performAction, PubackActionAsync.performAction, hw]
  | subscribe =>
    cases data <;> simp only [ActionKind.performAction, SubscribeActionAsync.performAction]
    split_ifs <;> simp only [hw]
  | unsubscribe =>
    cases data <;> simp only [ActionKind.performAction, UnsubscribeActionAsync.performAction, hw]

theorem ClientState.performAction_tape (s : ClientState) (c : StreamConnection)
    (awaitAck : ClientState → ClientState) (actionType : ActionType) (data : ActionData) :
    (s.performAction c awaitAck actionType data).2.2.tape = c.tape := by
  unfold ClientState.performAction
  dsimp only
  split
  · rfl
  · split_ifs <;> exact ActionKind.performAction_tape _ _ _ _

/-! ### The loop -/

namespace NetworkReadActionRunner

/-- The turn keeps the loop running, and the other threads leave the stream of
the connection and its end alone. -/
def KeepsReading (t : Turn StreamConnection) : Prop :=
  t.threadContinue = true ∧ ∀ x, (t.others x).2 = x.2

variable {handle : ClientState → UInt8 → Bytes → Except Fault (ResponseCode × ClientState)}

theorem iteration_cases {t : Turn StreamConnection} (ht : KeepsReading t)
    {r r' : NetworkReadActionRunner StreamConnection} {rc : ResponseCode}
    (h : iteration handle t r = .ok (rc, r')) :
    let p := readPacketFromNetwork true r.connection
    p.rc = .success ∧ r'.connection = p.connection ∧
        r'.dispatched = r.dispatched ++ [(p.fixedHeaderByte, p.readBuf)] ∨
      p.rc ≠ .success ∧ r'.connection.tape = p.connection.tape ∧
        (p.rc = .networkSslNothingToRead → r'.connection = p.connection) ∧
        r'.dispatched = r.dispatched := by
  obtain ⟨hcontinue, hothers⟩ := ht
  unfold iteration at h
  simp only [hcontinue, hothers (r.client, r.connection)] at h
  intro p
  change (if p.rc = _ then _ else if p.rc = _ then _ else _) = _ at h
  split_ifs at h with hn hs hw hc
  · cases h
    exact .inr ⟨by simp [hn], rfl, fun _ => rfl, rfl⟩
  · obtain ⟨x, -, hx⟩ := bind_eq_ok.mp h
    cases hx
    exact .inl ⟨hs, rfl, rfl⟩
  · cases h
    exact .inr ⟨hs, ClientState.performAction_tape _ _ _ _ _, fun hr => absurd hr hn, rfl⟩
  all_goals
    cases h
    exact .inr ⟨hs, rfl, fun _ => rfl, rfl⟩

theorem iteration_pausesBetween {t : Turn StreamConnection} (ht : KeepsReading t)
    {r r' : NetworkReadActionRunner StreamConnection} {rc : ResponseCode}
    (h : iteration handle t r = .ok (rc, r')) {fs : List Frame} {tape : List Delivery}
    (hr : r.connection = ⟨true, tape⟩) (hb : tapeBytes tape = stream fs)
    (hp : PausesBetween fs tape) :
    ∃ fs' tape', r'.connection = ⟨true, tape'⟩ ∧ tapeBytes tape' = stream fs' ∧
      PausesBetween fs' tape' ∧ tape'.length ≤ tape.length - 1 ∧
      r'.dispatched ++ fs'.map packet = r.dispatched ++ fs.map packet := by
  have hcases := iteration_cases ht h
  rw [hr] at hcases
  rcases hp.next hb with ⟨f, gs, w, rest, rfl, hd⟩ | ⟨rest, hdry⟩
  · obtain ⟨u, hread, hu⟩ := readPacketFromNetwork_of_delivers hd
    simp only [hread, ne_eq, not_true_eq_false, false_and, or_false, true_and] at hcases
    obtain ⟨hcon, hdisp⟩ := hcases
    have htail := hp.tail hu
    obtain ⟨used, rfl, -, hused⟩ := hu
    have hne : used ≠ [] := by
      rintro rfl
      exact f.bytes_ne_nil hused.symm
    rw [tapeBytes_append, hused, stream_cons] at hb
    refine ⟨gs, u, hcon, List.append_cancel_left hb, htail, ?_, ?_⟩
    · have := List.length_pos_iff.mpr hne
      rw [List.length_append]
      omega
    · rw [hdisp]
      simp [packet]
  · obtain ⟨b, u, hread, hdry⟩ := readPacketFromNetwork_of_runsDry hdry
    simp only [hread, reduceCtorEq, false_and, false_or, ne_eq, not_false_eq_true, true_and,
      forall_const] at hcases
    obtain ⟨-, hcon, hdisp⟩ := hcases
    obtain ⟨skipped, rfl, hnil, hlen⟩ := hdry.skips
    rw [tapeBytes_append, hnil] at hb
    exact ⟨fs, u, hcon, hb, hp.drop hnil, hlen, by rw [hdisp]⟩

theorem performAction_pausesBetween {ts : List (Turn StreamConnection)}
    (hts : ∀ t ∈ ts, KeepsReading t) {r r' : NetworkReadActionRunner StreamConnection}
    (h : performAction handle ts r = .ok r') {fs : List Frame} {tape : List Delivery}
    (hr : r.connection = ⟨true, tape⟩) (hb : tapeBytes tape = stream fs)
    (hp : PausesBetween fs tape) (hlen : tape.length ≤ ts.length) :
    r'.dispatched = r.dispatched ++ fs.map packet := by
  induction ts generalizing r fs tape with
  | nil =>
    cases h
    obtain rfl : tape = [] := List.length_eq_zero_iff.mp (Nat.le_zero.mp hlen)
    cases fs with
    | nil => simp
    | cons f fs => exact absurd (List.append_eq_nil_iff.mp hb.symm).1 f.bytes_ne_nil
  | cons t ts ih =>
    obtain ⟨rc, u, hu, hrest⟩ := performAction_cons.mp h
    obtain ⟨ht, hts⟩ := List.forall_mem_cons.mp hts
    obtain ⟨fs', tape', hcon, hb', hp', hlen', hdisp⟩ := iteration_pausesBetween ht hu hr hb hp
    rw [List.length_cons] at hlen
    rw [ih hts hrest hcon hb' hp' (by omega), hdisp]

/-! ### What a pause inside a frame costs -/

def packetSizes (ps : List (UInt8 × Bytes)) : Nat := (ps.map packetSize).sum

theorem packetSizes_append (ps qs : List (UInt8 × Bytes)) :
    packetSizes (ps ++ qs) = packetSizes ps + packetSizes qs := by
  simp [packetSizes]

/-- The packets were paid for with the part of the stream that was read, and none
of them on both sides of a pause. -/
def PaidFor (read : List Delivery) (ps : List (UInt8 × Bytes)) : Prop :=
  packetSizes ps ≤ (tapeBytes read).length ∧
    ∀ pre post, read = pre ++ .pause :: post → ∃ qs rs, ps = qs ++ rs ∧
      packetSizes qs ≤ (tapeBytes pre).length ∧
      (tapeBytes pre).length + packetSizes rs ≤ (tapeBytes read).length

theorem paidFor_nil : PaidFor [] [] :=
  ⟨Nat.le_refl _, fun pre post h => absurd h (by simp)⟩

theorem tapeBytes_length_append (t u : List Delivery) :
    (tapeBytes (t ++ u)).length = (tapeBytes t).length + (tapeBytes u).length := by
  rw [tapeBytes_append, List.length_append]

theorem pause_cases {t u pre post : List Delivery} (h : t ++ u = pre ++ .pause :: post) :
    (∃ post', t = pre ++ .pause :: post') ∨ ∃ pre', pre = t ++ pre' ∧ u = pre' ++ .pause :: post := by
  rcases List.append_eq_append_iff.mp h with ⟨a, rfl, hu⟩ | ⟨a, ht, ha⟩
  · exact .inr ⟨a, rfl, hu⟩
  · cases a with
    | nil => exact .inr ⟨[], by simpa using ht.symm, by simpa using ha.symm⟩
    | cons d a =>
      obtain ⟨rfl, -⟩ := List.cons.inj ha
      exact .inl ⟨a, ht⟩

theorem PaidFor.skip {read used : List Delivery} {ps : List (UInt8 × Bytes)}
    (h : PaidFor read ps) : PaidFor (read ++ used) ps := by
  have hlen := tapeBytes_length_append read used
  obtain ⟨htotal, hpauses⟩ := h
  refine ⟨by omega, fun pre post heq => ?_⟩
  rcases pause_cases heq with ⟨post', rfl⟩ | ⟨pre', rfl, rfl⟩
  · obtain ⟨qs, rs, hps, hq, hr⟩ := hpauses pre post' rfl
    exact ⟨qs, rs, hps, hq, by omega⟩
  · have hpre := tapeBytes_length_append read pre'
    have hmid := tapeBytes_length_append pre' (.pause :: post)
    exact ⟨ps, [], by simp, by omega, by simp [packetSizes]; omega⟩

theorem PaidFor.add {read used : List Delivery} {ps : List (UInt8 × Bytes)}
    {p : UInt8 × Bytes} (h : PaidFor read ps) (hp : Delivery.pause ∉ used)
    (hsize : packetSize p ≤ (tapeBytes used).length) : PaidFor (read ++ used) (ps ++ [p]) := by
  have hlen := tapeBytes_length_append read used
  have hone : packetSizes [p] = packetSize p := by simp [packetSizes]
  obtain ⟨htotal, hpauses⟩ := h
  refine ⟨by rw [packetSizes_append]; omega, fun pre post heq => ?_⟩
  rcases pause_cases heq with ⟨post', rfl⟩ | ⟨pre', rfl, rfl⟩
  · obtain ⟨qs, rs, rfl, hq, hr⟩ := hpauses pre post' rfl
    exact ⟨qs, rs ++ [p], by simp, hq, by rw [packetSizes_append]; omega⟩
  · exact absurd (by simp) hp

theorem performAction_paidFor {ts : List (Turn StreamConnection)}
    (hts : ∀ t ∈ ts, KeepsReading t) {r r' : NetworkReadActionRunner StreamConnection}
    (h : performAction handle ts r = .ok r') {read : List Delivery}
    (hr : PaidFor read r.dispatched) :
    ∃ used, r.connection.tape = used ++ r'.connection.tape ∧
      PaidFor (read ++ used) r'.dispatched := by
  induction ts generalizing r read with
  | nil =>
    cases h
    exact ⟨[], rfl, by simpa using hr⟩
  | cons t ts ih =>
    obtain ⟨rc, u, hu, hrest⟩ := performAction_cons.mp h
    obtain ⟨ht, hts⟩ := List.forall_mem_cons.mp hts
    obtain ⟨hsuffix, hpaid⟩ := readPacketFromNetwork_spends r.connection
    obtain ⟨used, htape, hused⟩ : ∃ used, r.connection.tape = used ++ u.connection.tape ∧
        PaidFor (read ++ used) u.dispatched := by
      rcases iteration_cases ht hu with ⟨hs, hcon, hdisp⟩ | ⟨-, htape, -, hdisp⟩
      · obtain ⟨w, ⟨used, heq, hp, rfl⟩, hsize⟩ := hpaid hs
        rw [hcon, hdisp]
        exact ⟨used, heq, hr.add hp hsize⟩
      · obtain ⟨used, heq⟩ := hsuffix
        rw [htape, hdisp]
        exact ⟨used, heq.symm, hr.skip⟩
    obtain ⟨rest, hrest, hpaid⟩ := ih hts hrest hused
    exact ⟨used ++ rest, by rw [htape, hrest, List.append_assoc], by rwa [← List.append_assoc]⟩

theorem packetSizes_minimal {fs : List Frame} (h : ∀ f ∈ fs, f.Minimal) :
    packetSizes (fs.map packet) = (stream fs).length := by
  induction fs with
  | nil => rfl
  | cons f fs ih =>
    obtain ⟨hf, hfs⟩ := List.forall_mem_cons.mp h
    rw [stream_cons, List.length_append, ← ih hfs, ← hf.packetSize_eq]
    simp [packetSizes]

theorem PaidFor.pausesBetween {fs : List Frame} (hmin : ∀ f ∈ fs, f.Minimal)
    {read rest : List Delivery} (hb : tapeBytes (read ++ rest) = stream fs)
    (h : PaidFor read (fs.map packet)) : PausesBetween fs (read ++ rest) := by
  obtain ⟨htotal, hpauses⟩ := h
  have hlen := tapeBytes_length_append read rest
  rw [packetSizes_minimal hmin, ← hb] at htotal
  intro pre post heq
  have hprefix : tapeBytes pre <+: stream fs := by
    rw [← hb, heq, tapeBytes_append]
    exact List.prefix_append _ _
  rcases pause_cases heq with ⟨post', rfl⟩ | ⟨pre', rfl, -⟩
  · obtain ⟨qs, rs, hps, hq, hr⟩ := hpauses pre post' rfl
    obtain ⟨gs, hs, rfl, rfl, rfl⟩ := List.map_eq_append_iff.mp hps
    obtain ⟨hgs, hhs⟩ := List.forall_mem_append.mp hmin
    rw [packetSizes_minimal hgs] at hq
    rw [packetSizes_minimal hhs] at hr
    have hstream := congrArg List.length (hb.trans (stream_append gs hs))
    rw [List.length_append] at hstream
    refine ⟨gs, hs, rfl, ?_⟩
    rw [stream_append] at hprefix
    exact (List.prefix_of_prefix_length_le hprefix (List.prefix_append _ _)
      (by omega)).eq_of_length_le hq
  · have := tapeBytes_length_append read pre'
    refine ⟨fs, [], by simp, hprefix.eq_of_length_le (by rw [← hb]; omega)⟩

/-- A stream of frames reaches the handlers frame by frame whenever the network
is found empty only between frames; with lengths in their shortest form, only
then. -/
theorem dispatched_iff_pausesBetween (client : ClientState) (fs : List Frame)
    (tape : List Delivery) (hb : tapeBytes tape = stream fs) (ts : List (Turn StreamConnection))
    (hts : ∀ t ∈ ts, KeepsReading t) (hlen : tape.length ≤ ts.length)
    (r : NetworkReadActionRunner StreamConnection)
    (hr : performAction handle ts (start client ⟨true, tape⟩) = .ok r) :
    (PausesBetween fs tape → r.dispatched = fs.map packet) ∧
      ((∀ f ∈ fs, f.Minimal) → (r.dispatched = fs.map packet ↔ PausesBetween fs tape)) := by
  have hforward : PausesBetween fs tape → r.dispatched = fs.map packet :=
    fun hp => performAction_pausesBetween hts hr rfl hb hp hlen
  refine ⟨hforward, fun hmin => ⟨fun hdisp => ?_, hforward⟩⟩
  obtain ⟨used, htape, hpaid⟩ := performAction_paidFor hts hr paidFor_nil
  rw [hdisp, List.nil_append] at hpaid
  have htape : tape = used ++ r.connection.tape := htape
  rw [htape] at hb ⊢
  exact hpaid.pausesBetween hmin hb

def pingrespFrame : Frame := ⟨0xd0, [0x00], [], rfl, by decide, rfl⟩

theorem keepsReading_quietTurn : KeepsReading quietTurn := ⟨rfl, fun _ => rfl⟩

theorem quietTurns (n : Nat) : ∀ t ∈ List.replicate n quietTurn, KeepsReading t := by
  intro t ht
  rw [List.eq_of_mem_replicate ht]
  exact keepsReading_quietTurn

def splitPingresp : List Delivery := [.byte 0xd0, .cut, .byte 0x00]

theorem performAction_splitPingresp :
    performAction dispatch (List.replicate 3 quietTurn)
        (start freshClient (⟨true, splitPingresp⟩ : StreamConnection)) =
      .ok ⟨freshClient.setPingreqPending false, ⟨true, []⟩, true, [(0xd0, [])], []⟩ := by
  rfl

theorem dispatched_iff_pausesBetween_split :
    (PausesBetween [pingrespFrame] splitPingresp →
        [((0xd0 : UInt8), ([] : Bytes))] = [pingrespFrame].map packet) ∧
      ((∀ f ∈ [pingrespFrame], f.Minimal) →
        ([((0xd0 : UInt8), ([] : Bytes))] = [pingrespFrame].map packet ↔
          PausesBetween [pingrespFrame] splitPingresp)) :=
  dispatched_iff_pausesBetween freshClient [pingrespFrame] splitPingresp (by decide)
    (List.replicate 3 quietTurn) (quietTurns 3) (by decide) _ performAction_splitPingresp

def pausedPingresp : List Delivery := [.byte 0xd0, .pause, .byte 0x00]

theorem performAction_pausedPingresp :
    performAction dispatch (List.replicate 3 quietTurn)
        (start freshClient (⟨true, pausedPingresp⟩ : StreamConnection)) =
      .ok ⟨freshClient, ⟨true, []⟩, true, [], []⟩ := by
  rfl

theorem not_dispatched_paused :
    tapeBytes pausedPingresp = stream [pingrespFrame] ∧
      (∀ t ∈ List.replicate 3 quietTurn, KeepsReading t) ∧
      ∃ r, performAction dispatch (List.replicate 3 quietTurn)
          (start freshClient (⟨true, pausedPingresp⟩ : StreamConnection)) = .ok r ∧
        r.connection.tape = [] ∧ r.dispatched ≠ [pingrespFrame].map packet :=
  ⟨by decide, quietTurns 3, _, performAction_pausedPingresp, rfl, by simp⟩

end NetworkReadActionRunner

end AwsIotSdk
