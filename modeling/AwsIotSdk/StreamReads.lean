import AwsIotSdk.NetworkRead
import AwsIotSdk.StreamConnection

/-! What the reading functions take from a stream: a whole number of bytes without
a pause among them, or everything up to a pause. -/

namespace AwsIotSdk

open StreamConnection

def tapeBytes : List Delivery → Bytes
  | [] => []
  | .byte b :: t => b :: tapeBytes t
  | .cut :: t | .pause :: t => tapeBytes t

theorem tapeBytes_append (t u : List Delivery) :
    tapeBytes (t ++ u) = tapeBytes t ++ tapeBytes u := by
  induction t with
  | nil => rfl
  | cons d t ih => cases d <;> simp [tapeBytes, ih]

/-- The stream gives up a pause-free part with certain bytes. -/
def Delivers (t : List Delivery) (w : Bytes) (rest : List Delivery) : Prop :=
  ∃ used, t = used ++ rest ∧ Delivery.pause ∉ used ∧ tapeBytes used = w

/-- The stream gives up fewer than `n` bytes and then a pause, or it ends. -/
def RunsDry (t : List Delivery) (n : Nat) (rest : List Delivery) : Prop :=
  ∃ used, Delivery.pause ∉ used ∧ (tapeBytes used).length < n ∧
    (t = used ∧ rest = [] ∨ t = used ++ .pause :: rest)

theorem Delivers.refl (t : List Delivery) : Delivers t [] t := ⟨[], rfl, List.not_mem_nil, rfl⟩

theorem Delivers.trans {t u v : List Delivery} {w x : Bytes} (h : Delivers t w u)
    (h' : Delivers u x v) : Delivers t (w ++ x) v := by
  obtain ⟨a, rfl, ha, rfl⟩ := h
  obtain ⟨b, rfl, hb, rfl⟩ := h'
  exact ⟨a ++ b, by simp, by simp [ha, hb], tapeBytes_append a b⟩

theorem Delivers.runsDry {t u v : List Delivery} {w : Bytes} {n : Nat} (h : Delivers t w u)
    (h' : RunsDry u n v) : RunsDry t (w.length + n) v := by
  obtain ⟨a, rfl, ha, rfl⟩ := h
  obtain ⟨b, hb, hn, hend⟩ := h'
  refine ⟨a ++ b, by simp [ha, hb], ?_, ?_⟩
  · rw [tapeBytes_append, List.length_append]
    omega
  · rcases hend with ⟨rfl, rfl⟩ | rfl
    · exact .inl ⟨rfl, rfl⟩
    · exact .inr (by simp)

theorem Delivers.suffix {t u : List Delivery} {w : Bytes} (h : Delivers t w u) : u <:+ t := by
  obtain ⟨a, rfl, -⟩ := h
  exact List.suffix_append a u

theorem RunsDry.suffix {t u : List Delivery} {n : Nat} (h : RunsDry t n u) : u <:+ t := by
  obtain ⟨a, -, -, ⟨rfl, rfl⟩ | rfl⟩ := h
  · exact List.nil_suffix
  · exact ⟨a ++ [.pause], by simp⟩

theorem RunsDry.skips {t u : List Delivery} (h : RunsDry t 1 u) :
    ∃ skipped, t = skipped ++ u ∧ tapeBytes skipped = [] ∧ u.length ≤ t.length - 1 := by
  obtain ⟨a, -, hlen, hend⟩ := h
  have hnil : tapeBytes a = [] := List.length_eq_zero_iff.mp (by omega)
  rcases hend with ⟨rfl, rfl⟩ | rfl
  · exact ⟨t, by simp, hnil, Nat.zero_le _⟩
  · refine ⟨a ++ [.pause], by simp, by rw [tapeBytes_append, hnil]; rfl, ?_⟩
    rw [List.length_append, List.length_cons]
    omega

theorem Delivers.split {t u v : List Delivery} {w w' x : Bytes} (h : Delivers t (w ++ w') u)
    (h' : Delivers t x v) (hlen : x.length = w.length) : x = w ∧ ∃ rest, Delivers v w' rest := by
  obtain ⟨a, rfl, ha, hab⟩ := h
  obtain ⟨b, hb, hbp, rfl⟩ := h'
  rcases List.append_eq_append_iff.mp hb with ⟨c, rfl, rfl⟩ | ⟨c, rfl, rfl⟩
  · rw [tapeBytes_append, hab, List.append_assoc] at hlen ⊢
    have hnil : w' ++ tapeBytes c = [] := List.length_eq_zero_iff.mp (by simp at hlen ⊢; omega)
    obtain ⟨rfl, -⟩ := List.append_eq_nil_iff.mp hnil
    exact ⟨by rw [hnil, List.append_nil], v, .refl v⟩
  · rw [tapeBytes_append] at hab
    obtain ⟨hx, hc⟩ := List.append_inj hab hlen
    exact ⟨hx, u, c, rfl, fun hmem => ha (List.mem_append_right b hmem), hc⟩

theorem Delivers.length_lt {t u v : List Delivery} {w : Bytes} {n : Nat} (h : Delivers t w u)
    (h' : RunsDry t n v) : w.length < n := by
  obtain ⟨a, rfl, ha, rfl⟩ := h
  obtain ⟨b, hb, hn, hend⟩ := h'
  have hle : a <+: b := by
    rcases hend with ⟨rfl, -⟩ | heq
    · exact List.prefix_append a u
    · rcases List.append_eq_append_iff.mp heq with ⟨c, rfl, -⟩ | ⟨c, rfl, hc⟩
      · exact List.prefix_append a c
      · cases c with
        | nil => simp
        | cons d c =>
          obtain ⟨rfl, -⟩ := List.cons.inj hc
          exact absurd (by simp) ha
  obtain ⟨c, rfl⟩ := hle
  rw [tapeBytes_append, List.length_append] at hn
  omega

theorem delivers_takeBytes (n : Nat) (t : List Delivery) :
    Delivers t (takeBytes n t).1 (takeBytes n t).2 ∧ (takeBytes n t).1.length ≤ n := by
  induction n generalizing t with
  | zero =>
    match t with
    | [] => exact ⟨.refl _, Nat.le_refl _⟩
    | .byte b :: t => exact ⟨.refl _, Nat.le_refl _⟩
    | .cut :: t => exact ⟨⟨[.cut], rfl, by simp, rfl⟩, Nat.le_refl _⟩
    | .pause :: t => exact ⟨.refl _, Nat.le_refl _⟩
  | succ n ih =>
    match t with
    | [] => exact ⟨.refl _, Nat.zero_le _⟩
    | .byte b :: t =>
      obtain ⟨⟨used, hu, hp, hb⟩, hle⟩ := ih t
      refine ⟨⟨.byte b :: used, ?_, by simpa using hp, ?_⟩, ?_⟩
      · exact congrArg (Delivery.byte b :: ·) hu
      · exact congrArg (b :: ·) hb
      · simpa [takeBytes] using hle
    | .cut :: t => exact ⟨⟨[.cut], rfl, by simp, rfl⟩, Nat.zero_le _⟩
    | .pause :: t => exact ⟨.refl _, Nat.zero_le _⟩

/-- A read that has `pre` took what it lacked for `n` bytes, or it ran into a
pause. -/
inductive ReadOutcome (t : List Delivery) (n : Nat) (pre : Bytes) :
    ReadResult StreamConnection → Prop
  | filled {w : Bytes} {rest : List Delivery} : Delivers t w rest → pre.length + w.length = n →
      ReadOutcome t n pre ⟨.success, pre ++ w, n, ⟨true, rest⟩⟩
  | dry {buf : Bytes} {out : Nat} {rest : List Delivery} : RunsDry t (n - pre.length) rest →
      ReadOutcome t n pre ⟨.networkSslNothingToRead, buf, out, ⟨true, rest⟩⟩

theorem ReadOutcome.after {t u : List Delivery} {n : Nat} {pre w : Bytes}
    {r : ReadResult StreamConnection} (hd : Delivers t w u) (hn : pre.length + w.length ≤ n)
    (h : ReadOutcome u n (pre ++ w) r) : ReadOutcome t n pre r := by
  cases h with
  | filled hx hlen =>
    rw [List.append_assoc]
    rw [List.length_append] at hlen
    exact .filled (hd.trans hx) (by rw [List.length_append]; omega)
  | dry hx =>
    rw [List.length_append] at hx
    have := hd.runsDry hx
    rw [show w.length + (n - (pre.length + w.length)) = n - pre.length by omega] at this
    exact .dry this

theorem ReadOutcome.complete {t : List Delivery} {n : Nat} {pre : Bytes}
    {r : ReadResult StreamConnection} (h : ReadOutcome t n pre r) :
    ¬ (r.rc = .success ∧ r.sizeReadBytesOut ≠ n) := by
  cases h <;> simp

theorem runsDry_nil {n : Nat} (hn : 0 < n) : RunsDry [] n [] :=
  ⟨[], List.not_mem_nil, hn, .inl ⟨rfl, rfl⟩⟩

theorem runsDry_pause {n : Nat} (hn : 0 < n) (t : List Delivery) : RunsDry (.pause :: t) n t :=
  ⟨[], List.not_mem_nil, hn, .inr rfl⟩

theorem read_cases (t : List Delivery) (buf : Bytes) (offset n out : Nat) (hn : 0 < n) :
    (∃ rest, RunsDry t n rest ∧ NetworkConnection.read (⟨true, t⟩ : StreamConnection) buf offset n out =
      ⟨.networkSslNothingToRead, buf, out, ⟨true, rest⟩⟩) ∨
    ∃ w rest, Delivers t w rest ∧ w.length ≤ n ∧ rest.length < t.length ∧
      NetworkConnection.read (⟨true, t⟩ : StreamConnection) buf offset n out =
        ⟨.success, buf.take offset ++ w ++ buf.drop (offset + w.length), w.length,
          ⟨true, rest⟩⟩ := by
  have hlt := NetworkConnection.pending_lt (⟨true, t⟩ : StreamConnection) buf offset n out hn
  obtain ⟨hdel, hle⟩ := delivers_takeBytes n t
  match t with
  | [] => exact .inl ⟨[], runsDry_nil hn, rfl⟩
  | .pause :: t => exact .inl ⟨t, runsDry_pause hn t, rfl⟩
  | .byte b :: t => exact .inr ⟨_, _, hdel, hle, hlt rfl, rfl⟩
  | .cut :: t => exact .inr ⟨_, _, hdel, hle, hlt rfl, rfl⟩

theorem take_written (buf w : Bytes) (total : Nat) (h : total + w.length ≤ buf.length) :
    (buf.take total ++ w ++ buf.drop (total + w.length)).take (total + w.length) =
      buf.take total ++ w := by
  have : (buf.take total ++ w).length = total + w.length := by
    rw [List.length_append, List.length_take]
    omega
  rw [← this, List.take_left]

theorem readLoop_outcome {n : Nat} (fuel : Nat) (t : List Delivery) (buf : Bytes)
    (total cur : Nat) (hfuel : t.length < fuel) (hbuf : buf.length = n) (htotal : total < n) :
    ReadOutcome t n (buf.take total)
      (Action.readLoop true n fuel (⟨true, t⟩ : StreamConnection) buf total cur) := by
  induction fuel generalizing t buf total cur with
  | zero => omega
  | succ fuel ih =>
    have hpre : (buf.take total).length = total := by
      rw [List.length_take]
      omega
    have hsize : sizeSub n total = n - total := if_pos htotal.le
    rw [Action.readLoop, hsize]
    rcases read_cases t buf total (n - total) cur (by omega) with
      ⟨rest, hdry, hr⟩ | ⟨w, rest, hdel, hle, hlt, hr⟩
    · simp only [hr, reduceCtorEq, decide_false, Bool.and_false, Bool.false_eq_true, if_false]
      exact .dry (by rw [hpre]; exact hdry)
    · have hw := take_written buf w total (by omega)
      have hlen : (buf.take total ++ w ++ buf.drop (total + w.length)).length = n := by
        simp only [List.length_append, hpre, List.length_drop]
        omega
      simp only [hr]
      generalize buf.take total ++ w ++ buf.drop (total + w.length) = buf' at hw hlen
      by_cases hfull : total + w.length = n
      · rw [hfull, ← hlen, List.take_length] at hw
        rw [if_neg (by simp [hfull]), hfull, hw]
        exact .filled hdel (by omega)
      · rw [if_pos (by simp [hfull])]
        have := ih rest buf' (total + w.length) w.length (by omega) hlen (by omega)
        rw [hw] at this
        exact this.after hdel (by omega)

theorem readFromNetworkBuffer_outcome (t : List Delivery) {n : Nat} (hn : 0 < n) :
    ReadOutcome t n []
      (Action.readFromNetworkBuffer true (⟨true, t⟩ : StreamConnection) [] n) := by
  have h : ReadOutcome t n [] (Action.readLoop true n (NetworkConnection.pending
      (⟨true, t⟩ : StreamConnection) + 1) ⟨true, t⟩ (resize [] n) 0 0) :=
    readLoop_outcome (t.length + 1) t (resize [] n) 0 0 (Nat.lt_succ_self _) (by simp [resize]) hn
  unfold Action.readFromNetworkBuffer
  exact (if_neg h.complete).symm ▸ h

theorem readFromNetworkBuffer_of_delivers {t rest : List Delivery} {w w' : Bytes}
    (h : Delivers t (w ++ w') rest) (hw : w ≠ []) :
    ∃ u rest', Action.readFromNetworkBuffer true (⟨true, t⟩ : StreamConnection) [] w.length =
        ⟨.success, w, w.length, ⟨true, u⟩⟩ ∧ Delivers t w u ∧ Delivers u w' rest' := by
  have ho := readFromNetworkBuffer_outcome t (List.length_pos_iff.mpr hw)
  generalize Action.readFromNetworkBuffer true (⟨true, t⟩ : StreamConnection) [] w.length = r at ho
  cases ho with
  | filled hdel hlen =>
    obtain ⟨rfl, rest', hrest⟩ := h.split hdel (by simpa using hlen)
    exact ⟨_, rest', rfl, hdel, hrest⟩
  | dry hdry =>
    have hlt := h.length_lt hdry
    rw [List.length_append] at hlt
    omega

end AwsIotSdk
