import AwsIotSdk.ManualDisconnect

/-! The PINGREQs of the keepalive loop and their answers. The loop records a PINGREQ after
it is written, and the record stays when the connection goes. -/

namespace AwsIotSdk

open LockedProgram

namespace LinkPc

/-- The step opens the connection or closes it. -/
def changesConnection : LinkPc → LinkChoice → LinkData → Bool
  | .disconnectClose _, .proceed, _ => true
  | .connectOpen _, .result rc, _ => rc = .success
  | .connectWrite _, .result rc, d => d.writeRc rc ≠ .success
  | _, _, _ => false

/-- Whether a PINGREQ was written on the present connection and no PINGRESP came since. -/
def noteUnanswered (p : LinkPc) (c : LinkChoice) (d : LinkData) (p' : LinkPc)
    (unanswered : Bool) : Bool :=
  if p.changesConnection c d then false
  else
    match p, c, p' with
    | .pinging, _, .pinged => true
    | .reading _, .pingresp, _ => false
    | _, _, _ => unanswered

def inKeepalive : LinkPc → Bool
  | .disconnectCall k | .disconnectBegin k | .disconnectCheck k | .disconnectClose k
  | .disconnectEnd k _ => k = some .keepalive
  | .connectCall auto | .connectBegin auto | .connectOpen auto | .connectWrite auto
  | .connectWait auto | .connectWoken auto | .connectResumed auto | .connectEnd auto _ => auto
  | .requiring l => l = .keepalive
  | .awaitingFirst | .top | .checkRequired | .timer | .pingCheck | .pendingPing | .pingConnected
  | .pinging | .pinged | .reconnecting | .reconnected _ | .backoff | .resubscribing _ _
  | .settling _ => true
  | _ => false

end LinkPc

def pingProgram : LockedProgram Nat RequestLock LinkPc LinkChoice (LinkData × Bool) :=
  linkProgram.annotate LinkPc.noteUnanswered

/-- Thread `k` runs the keepalive loop, and at its deadline the PINGREQ that was written on
the present connection has been answered. -/
structure AnswersPings (k : Nat) (s : State Nat RequestLock LinkPc (LinkData × Bool))
    (m : Nat × LinkChoice) : Prop where
  keepalive : m.2 = .keepaliveLoop → m.1 = k
  answered : m.2 = .elapsed → s.data.2 = false

/-- No PINGRESP is handled between the write of a PINGREQ and its record, and the connection
is neither opened nor closed from the write until the answer. -/
structure PingUndisturbed (k : Nat) (s : State Nat RequestLock LinkPc (LinkData × Bool))
    (m : Nat × LinkChoice) : Prop where
  pingresp : m.2 = .pingresp → s.pc k ≠ .pinged
  connection : (s.pc m.1).changesConnection m.2 s.data.1 = true →
    s.data.1.client.isPingreqPending = false ∧ s.pc k ≠ .pinged

/-- From the one point a pending PINGREQ makes the loop disconnect, or require a reconnect. -/
def NoPendingPing (s : State Nat RequestLock LinkPc (LinkData × Bool)) : Prop :=
  ∀ t, s.pc t ≠ .pendingPing

structure PingsRecorded (k : Nat) (s : State Nat RequestLock LinkPc (LinkData × Bool)) :
    Prop where
  alone : ∀ t, t ≠ k → (s.pc t).inKeepalive = false
  pending : s.data.1.client.isPingreqPending = true → s.data.2 = true
  written : s.pc k = .pinged → s.data.2 = true
  checking : s.pc k = .pingCheck → s.data.1.client.isPingreqPending = false
  never : s.pc k ≠ .pendingPing

namespace LinkPc

variable {p p' : LinkPc} {c : LinkChoice} {d d' : LinkData}

theorem Step.inKeepalive (h : Step d p c p' d') (hp : p.inKeepalive = false)
    (hc : c ≠ .keepaliveLoop) : p'.inKeepalive = false := by
  cases h with
  | keepaliveLoop => exact absurd rfl hc
  | @leaveLoop l rc =>
    cases l with
    | reader => rfl
    | keepalive => cases hp
  | _ => first | rfl | exact hp

theorem Step.isPingreqPending (h : Step d p c p' d') (hd : d'.client.isPingreqPending = true) :
    p = .pinged ∨ d.client.isPingreqPending = true ∧ ∀ w, p = .reading w → c ≠ .pingresp := by
  cases h with
  | close =>
    rw [← (deactivate_flags d.client).2.2]
    exact .inr ⟨hd, nofun⟩
  | @act topic => cases topic <;> exact .inr ⟨hd, nofun⟩
  | setPending => exact .inl rfl
  | pingresp | reconnect => cases hd
  | _ => exact .inr ⟨hd, nofun⟩

theorem Step.eq_pinging (h : Step d p c .pinged d') : p = .pinging := by
  cases h
  rfl

theorem Step.eq_timer (h : Step d p c .pingCheck d') : p = .timer ∧ c = .elapsed ∧ d' = d := by
  cases h
  exact ⟨rfl, rfl, rfl⟩

theorem Step.eq_pingCheck (h : Step d p c .pendingPing d') :
    p = .pingCheck ∧ d.client.isPingreqPending = true := by
  cases h with
  | pending hpending => exact ⟨rfl, hpending⟩

theorem noteUnanswered_pinged (c : LinkChoice) (d : LinkData) (b : Bool) :
    noteUnanswered .pinging c d .pinged b = true := rfl

theorem noteUnanswered_of_true (hconnection : p.changesConnection c d = false)
    (hpingresp : ∀ w, p = .reading w → c ≠ .pingresp) :
    p.noteUnanswered c d p' true = true := by
  unfold noteUnanswered
  rw [hconnection, if_neg Bool.false_ne_true]
  split
  · rfl
  · exact absurd rfl (hpingresp _ rfl)
  · rfl

end LinkPc

namespace PingsRecorded

variable {k t : Nat} {s : State Nat RequestLock LinkPc (LinkData × Bool)} {c : LinkChoice}
  {p : LinkPc} {d : LinkData × Bool}

theorem eq_of_inKeepalive (hs : PingsRecorded k s) (h : (s.pc t).inKeepalive = true) : t = k := by
  by_contra hk
  rw [hs.alone t hk] at h
  cases h

/-- A flag that is set after the step belongs to a PINGREQ that is still unanswered. -/
theorem unanswered (hs : PingsRecorded k s) (hcalm : PingUndisturbed k s (t, c))
    (h : LinkPc.Step s.data.1 (s.pc t) c p d.1)
    (hnote : d.2 = (s.pc t).noteUnanswered c s.data.1 p s.data.2)
    (hd : d.1.client.isPingreqPending = true) : d.2 = true := by
  rcases h.isPingreqPending hd with hp | ⟨hpending, hpingresp⟩
  · obtain rfl := hs.eq_of_inKeepalive (hp ▸ rfl : (s.pc t).inKeepalive = true)
    rw [hnote, hs.written hp, hp]
    exact LinkPc.noteUnanswered_of_true rfl (fun _ hreading => (nomatch hreading))
  · have hconnection : (s.pc t).changesConnection c s.data.1 = false := by
      by_contra hchanges
      have hclear := (hcalm.connection (Bool.eq_true_of_not_eq_false hchanges)).1
      rw [hpending] at hclear
      cases hclear
    rw [hnote, hs.pending hpending, LinkPc.noteUnanswered_of_true hconnection hpingresp]

/-- A step of the keepalive loop. -/
theorem step_own (hs : PingsRecorded k s) (hanswers : AnswersPings k s (k, c))
    (h : LinkPc.Step s.data.1 (s.pc k) c p d.1)
    (hnote : d.2 = (s.pc k).noteUnanswered c s.data.1 p s.data.2)
    (hpending : d.1.client.isPingreqPending = true → d.2 = true) :
    PingsRecorded k (pingProgram.move s k p d) := by
  refine ⟨?_, hpending, ?_, ?_, ?_⟩
  · intro u hu
    rw [move_pc_of_ne s hu]
    exact hs.alone u hu
  · rw [move_pc_self]
    rintro rfl
    rw [move_data, hnote, h.eq_pinging, LinkPc.noteUnanswered_pinged]
  · rw [move_pc_self]
    rintro rfl
    obtain ⟨-, rfl, hd⟩ := h.eq_timer
    rw [move_data, hd]
    by_contra hpend
    have hunanswered := hs.pending (Bool.eq_true_of_not_eq_false hpend)
    rw [hanswers.answered rfl] at hunanswered
    cases hunanswered
  · rw [move_pc_self]
    rintro rfl
    obtain ⟨hp, hpend⟩ := h.eq_pingCheck
    rw [hs.checking hp] at hpend
    cases hpend

theorem step_other (hs : PingsRecorded k s) (hk : t ≠ k) (hanswers : AnswersPings k s (t, c))
    (hcalm : PingUndisturbed k s (t, c)) (h : LinkPc.Step s.data.1 (s.pc t) c p d.1)
    (hnote : d.2 = (s.pc t).noteUnanswered c s.data.1 p s.data.2)
    (hpending : d.1.client.isPingreqPending = true → d.2 = true) :
    PingsRecorded k (pingProgram.move s t p d) := by
  have hpc : (pingProgram.move s t p d).pc k = s.pc k := move_pc_of_ne s (Ne.symm hk) p d
  refine ⟨?_, hpending, ?_, ?_, ?_⟩
  · intro u hu
    by_cases hut : u = t
    · subst hut
      rw [move_pc_self]
      exact h.inKeepalive (hs.alone u hu) (fun hc => hk (hanswers.keepalive hc))
    · rw [move_pc_of_ne s hut]
      exact hs.alone u hu
  · intro hp
    rw [hpc] at hp
    have hconnection : (s.pc t).changesConnection c s.data.1 = false := by
      by_contra hchanges
      exact (hcalm.connection (Bool.eq_true_of_not_eq_false hchanges)).2 hp
    rw [move_data, hnote, hs.written hp]
    exact LinkPc.noteUnanswered_of_true hconnection (fun _ _ hc => hcalm.pingresp hc hp)
  · intro hp
    rw [hpc] at hp
    rw [move_data]
    by_contra hd
    rcases h.isPingreqPending (Bool.eq_true_of_not_eq_false hd) with ht | ⟨hpend, -⟩
    · exact hk (hs.eq_of_inKeepalive (ht ▸ rfl : (s.pc t).inKeepalive = true))
    · rw [hs.checking hp] at hpend
      cases hpend
  · rw [hpc]
    exact hs.never

theorem step (hs : PingsRecorded k s) (hanswers : AnswersPings k s (t, c))
    (hcalm : PingUndisturbed k s (t, c)) (h : LinkPc.Step s.data.1 (s.pc t) c p d.1)
    (hnote : d.2 = (s.pc t).noteUnanswered c s.data.1 p s.data.2) :
    PingsRecorded k (pingProgram.move s t p d) := by
  have hpending := hs.unanswered hcalm h hnote
  by_cases hk : t = k
  · subst hk
    exact hs.step_own hanswers h hnote hpending
  · exact hs.step_other hk hanswers hcalm h hnote hpending

end PingsRecorded

/-- An answered PINGREQ causes no disconnect in a run that disturbs none. -/
theorem noPendingPing_of_undisturbed {k : Nat} {client : ClientState} {net : Bool}
    {s : State Nat RequestLock LinkPc (LinkData × Bool)}
    (hnew : client.isPingreqPending = false)
    (h : Transition.Reachable pingProgram.step
      (fun s m => AnswersPings k s m ∧ PingUndisturbed k s m)
      (start .idle (LinkData.init client net, false)) s) : NoPendingPing s := by
  have hstart : PingsRecorded k (start .idle (LinkData.init client net, false)) := by
    refine ⟨fun _ _ => rfl, fun hd => ?_, nofun, nofun, nofun⟩
    have hd' : client.isPingreqPending = true := hd
    rw [hnew] at hd'
    cases hd'
  obtain ⟨-, hinv⟩ := reachable_invariant (consistent_start (fun _ => rfl) _) hstart
    (fun s t c p d _ hs hc _ hnext =>
      have ⟨hstep, hnote⟩ := annotate_next hnext
      hs.step hc.1 hc.2 (LinkPc.step_of_next hstep) hnote) h
  intro t ht
  obtain rfl := hinv.eq_of_inKeepalive (ht ▸ rfl : (s.pc t).inKeepalive = true)
  exact hinv.never ht

def freshPings : State Nat RequestLock LinkPc (LinkData × Bool) :=
  start .idle (LinkData.init freshClient false, false)

def answersPings (s : State Nat RequestLock LinkPc (LinkData × Bool)) (m : Nat × LinkChoice) :
    Bool :=
  match m.2 with
  | .keepaliveLoop => m.1 = 2
  | .elapsed => !s.data.2
  | _ => true

def undisturbed (s : State Nat RequestLock LinkPc (LinkData × Bool)) (m : Nat × LinkChoice) :
    Bool :=
  match s.pc 2 with
  | .pinged => !(s.pc m.1).changesConnection m.2 s.data.1 && (m.2 matches .proceed)
  | _ => !(s.pc m.1).changesConnection m.2 s.data.1 || !s.data.1.client.isPingreqPending

theorem answersPings_spec {s : State Nat RequestLock LinkPc (LinkData × Bool)}
    {m : Nat × LinkChoice} (hm : answersPings s m = true) : AnswersPings 2 s m := by
  refine ⟨fun hc => ?_, fun hc => ?_⟩
  · simpa [answersPings, hc] using hm
  · simpa [answersPings, hc] using hm

theorem undisturbed_spec {s : State Nat RequestLock LinkPc (LinkData × Bool)}
    {m : Nat × LinkChoice} (hm : undisturbed s m = true) : PingUndisturbed 2 s m := by
  refine ⟨fun hc hp => ?_, fun hchanges => ?_⟩
  · simp [undisturbed, hp, hc] at hm
  · unfold undisturbed at hm
    split at hm
    next => simp [hchanges] at hm
    next hp =>
      rw [hchanges] at hm
      exact ⟨by simpa using hm, hp⟩

/-- The loop at its next deadline. -/
def deadlineRun : List (Nat × LinkChoice) :=
  [(2, .proceed), (2, .proceed), (2, .elapsed), (2, .proceed)]

theorem noPendingPing_of_undisturbed_answered :
    ∃ s, Transition.Reachable pingProgram.step
      (fun s m => AnswersPings 2 s m ∧ PingUndisturbed 2 s m) freshPings s ∧
      s.pc 2 = .pingConnected ∧ NoPendingPing s := by
  have hrun : ∃ s, Transition.runWhile pingProgram.step
      (fun s m => answersPings s m && undisturbed s m) freshPings
      (connectRun ++ pingRun ++ [(1, .pingresp)] ++ deadlineRun) = some s ∧
      s.pc 2 = .pingConnected := ⟨_, rfl, rfl⟩
  obtain ⟨s, hs, hp⟩ := hrun
  have hreach : Transition.Reachable pingProgram.step
      (fun s m => AnswersPings 2 s m ∧ PingUndisturbed 2 s m) freshPings s := by
    refine Transition.reachable_of_runWhile (P := fun _ => True) (fun _ _ _ _ _ _ => trivial)
      ?_ trivial hs
    intro s m _ hm
    obtain ⟨hanswers, hcalm⟩ := (Bool.and_eq_true _ _).mp hm
    exact ⟨answersPings_spec hanswers, undisturbed_spec hcalm⟩
  exact ⟨s, hreach, hp, noPendingPing_of_undisturbed rfl hreach⟩

/-- The answer comes between the write and the record. -/
def earlyRun : List (Nat × LinkChoice) :=
  pingRun.dropLast ++ [(1, .pingresp), (2, .proceed)]

/-- The user connects again. -/
def reopenRun : List (Nat × LinkChoice) :=
  [(0, .connect), (0, .proceed), (0, .proceed), (0, .result .success),
    (0, .result .success), (1, .connack)] ++ List.replicate 4 (1, .proceed) ++
    List.replicate 4 (0, .proceed)

/-- Both slips: the flag of an answered PINGREQ, and of one on a connection that the user
closed, makes the loop give up the connection at its deadline. -/
theorem not_noPendingPing :
    (∃ s, Transition.Reachable pingProgram.step (AnswersPings 2) freshPings s ∧
      s.data.1.client.isConnected = true ∧ ¬ NoPendingPing s) ∧
    ∃ s u, Transition.Reachable pingProgram.step (AnswersPings 2) freshPings s ∧
      s.data.1.manual = true ∧ Transition.Reachable pingProgram.step (AnswersPings 2) s u ∧
      u.data.1.client.isConnected = true ∧ ¬ NoPendingPing u := by
  have hreach : ∀ {ms : List (Nat × LinkChoice)}
      {s u : State Nat RequestLock LinkPc (LinkData × Bool)},
      Transition.runWhile pingProgram.step answersPings s ms = some u →
        Transition.Reachable pingProgram.step (AnswersPings 2) s u := fun h =>
    Transition.reachable_of_runWhile (P := fun _ => True) (fun _ _ _ _ _ _ => trivial)
      (fun _ _ _ => answersPings_spec) trivial h
  refine ⟨?_, ?_⟩
  · have hrun : ∃ s, Transition.runWhile pingProgram.step answersPings freshPings
        (connectRun ++ earlyRun ++ deadlineRun) = some s ∧
        s.data.1.client.isConnected = true ∧ s.pc 2 = .pendingPing := ⟨_, rfl, rfl, rfl⟩
    obtain ⟨s, hs, hconnected, hp⟩ := hrun
    exact ⟨s, hreach hs, hconnected, fun h => h 2 hp⟩
  · have hrun : ∃ s u, Transition.runWhile pingProgram.step answersPings freshPings
        (connectRun ++ pingRun ++ disconnectRun) = some s ∧ s.data.1.manual = true ∧
        Transition.runWhile pingProgram.step answersPings s (reopenRun ++ deadlineRun) = some u ∧
        u.data.1.client.isConnected = true ∧ u.pc 2 = .pendingPing :=
      ⟨_, _, rfl, rfl, rfl, rfl, rfl⟩
    obtain ⟨s, u, hs, hmanual, hu, hconnected, hp⟩ := hrun
    exact ⟨s, u, hreach hs, hmanual, hreach hu, hconnected, fun h => h 2 hp⟩

end AwsIotSdk
