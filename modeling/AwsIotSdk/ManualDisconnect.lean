import AwsIotSdk.ActionEffects
import AwsIotSdk.LinkThreads
import AwsIotSdk.PendingAcks

/-! What follows a disconnect by the user. The loops act on what they saw before
it, and a ping without an answer outlives it. -/

namespace AwsIotSdk

open LockedProgram

/-- The thread has seen a reason to reconnect, or may see one without looking at
the connection again. -/
def LinkPc.committed : LinkPc → Bool
  | .disconnectCall k | .disconnectBegin k | .disconnectCheck k | .disconnectClose k
  | .disconnectEnd k _ => k.isSome
  | .connectCall auto | .connectBegin auto | .connectOpen auto | .connectWrite auto
  | .connectWait auto | .connectWoken auto | .connectResumed auto | .connectEnd auto _ => auto
  | .pendingPing | .pinging | .pinged | .requiring _ | .reconnecting | .reconnected _
  | .resubscribing _ _ | .settling _ => true
  | _ => false

structure LinkData.Calm (d : LinkData) : Prop where
  isConnected : d.client.isConnected = false
  isAutoReconnectRequired : d.client.isAutoReconnectRequired = false
  isPingreqPending : d.client.isPingreqPending = false

/-- A disconnect of the user ends in a calm state, and no packet connects the
client as long as the user does not. -/
def EndsCalm (s : State Nat RequestLock LinkPc LinkData) (m : Nat × LinkChoice) : Prop :=
  (s.pc m.1 = .disconnectEnd none .success →
    s.data.Calm ∧ ∀ u, u ≠ m.1 → (s.pc u).committed = false) ∧
  ∀ w, s.pc m.1 = .reading w → m.2 = .connack → s.data.manual = false

structure StaysDisconnected (s : State Nat RequestLock LinkPc LinkData) : Prop where
  calm : s.data.manual = true → s.data.Calm
  uncommitted : s.data.manual = true → ∀ t, (s.pc t).committed = false
  unwanted : s.data.unwanted = false

theorem deactivate_flags (s : ClientState) :
    (DisconnectActionAsync.deactivate s).isConnected = s.isConnected ∧
      (DisconnectActionAsync.deactivate s).isAutoReconnectRequired = s.isAutoReconnectRequired ∧
      (DisconnectActionAsync.deactivate s).isPingreqPending = s.isPingreqPending := by
  obtain ⟨heap, h⟩ := deactivate_eq s
  rw [h]
  exact ⟨rfl, rfl, rfl⟩

namespace LinkPc

variable {p p' : LinkPc} {c : LinkChoice} {d d' : LinkData}

theorem Step.calm (h : Step d p c p' d') (hd : d.Calm) (hp : p.committed = false)
    (hc : ∀ w, p = .reading w → c ≠ .connack) : d'.Calm ∧ p'.committed = false := by
  obtain ⟨hcon, hreq, hping⟩ := hd
  cases h with
  | close =>
    obtain ⟨h1, h2, h3⟩ := deactivate_flags d.client
    exact ⟨⟨h1.trans hcon, h2.trans hreq, h3.trans hping⟩, hp⟩
  | connack => exact absurd rfl (hc _ rfl)
  | @act topic => cases topic <;> exact ⟨⟨hcon, hreq, hping⟩, rfl⟩
  | pingresp => exact ⟨⟨hcon, hreq, rfl⟩, rfl⟩
  | closing => exact ⟨⟨rfl, hreq, hping⟩, hp⟩
  | required hr => simp [hreq] at hr
  | pending hr => simp [hping] at hr
  | ping hr | failedConnected hr => simp [hcon] at hr
  | _ => first | exact ⟨⟨hcon, hreq, hping⟩, hp⟩ | exact ⟨⟨hcon, hreq, hping⟩, rfl⟩ | cases hp

theorem Step.manual (h : Step d p c p' d') (hd : d'.manual = true) :
    d.manual = true ∨ p = .disconnectEnd none .success ∧ p' = .idle ∧
      d'.client = d.client := by
  cases h with
  | @leaveUser rc =>
    by_cases hm : d.manual = true
    · exact .inl hm
    · obtain rfl : rc = .success := by simpa [hm] using hd
      exact .inr ⟨rfl, rfl, rfl⟩
  | connect => cases hd
  | _ => exact .inl hd

theorem Step.unwanted (h : Step d p c p' d') (hd : d.unwanted = false)
    (hp : d.manual = true → p.committed = false) : d'.unwanted = false := by
  cases h with
  | @register auto =>
    cases hm : d.manual with
    | false => simp [LinkData.beginConnect, LinkData.resetResponse, LinkData.mapClient, hd, hm]
    | true =>
      obtain rfl : auto = false := hp hm
      simp [LinkData.beginConnect, LinkData.resetResponse, LinkData.mapClient, hd]
  | _ => exact hd

end LinkPc

theorem StaysDisconnected.step {s : State Nat RequestLock LinkPc LinkData}
    (hs : StaysDisconnected s) {t : Nat} {c : LinkChoice} (hc : EndsCalm s (t, c)) {p : LinkPc}
    {d : LinkData} (h : LinkPc.Step s.data (s.pc t) c p d) :
    StaysDisconnected (linkProgram.move s t p d) := by
  have hcalm : d.manual = true → d.Calm ∧ p.committed = false ∧
      ∀ u, u ≠ t → (s.pc u).committed = false := by
    intro hm
    rcases h.manual hm with hold | ⟨hp, rfl, hclient⟩
    · have hpc := hs.uncommitted hold
      obtain ⟨hd, hp⟩ := h.calm (hs.calm hold) (hpc t) fun w hw hck => by
        have := hc.2 w hw hck
        rw [hold] at this
        cases this
      exact ⟨hd, hp, fun u _ => hpc u⟩
    · obtain ⟨⟨hcon, hreq, hping⟩, hothers⟩ := hc.1 hp
      rw [← hclient] at hcon hreq hping
      exact ⟨⟨hcon, hreq, hping⟩, rfl, hothers⟩
  refine ⟨fun hm => (hcalm hm).1, fun hm u => ?_, h.unwanted hs.unwanted fun hm => hs.uncommitted hm t⟩
  by_cases hut : u = t
  · subst hut
    rw [move_pc_self]
    exact (hcalm hm).2.1
  · rw [move_pc_of_ne s hut]
    exact (hcalm hm).2.2 u hut

def LinkData.init (client : ClientState) (isNetworkConnected : Bool) : LinkData :=
  ⟨client, isNetworkConnected, false, false, false, [], [], false⟩

/-- After a disconnect of the user that ends calm, no reconnect is required and no
loop connects until the user does. -/
theorem staysDisconnected_of_endsCalm {client : ClientState} {net : Bool}
    {s : State Nat RequestLock LinkPc LinkData}
    (h : Transition.Reachable linkProgram.step EndsCalm (start .idle (LinkData.init client net)) s) :
    (s.data.manual = true → s.data.client.isAutoReconnectRequired = false) ∧
      s.data.unwanted = false := by
  have hstart : StaysDisconnected (start .idle (LinkData.init client net)) :=
    ⟨nofun, nofun, rfl⟩
  obtain ⟨-, hinv⟩ := reachable_invariant (consistent_start (fun _ => rfl) _) hstart
    (fun s t c p d _ hs hc _ hnext => hs.step hc (LinkPc.step_of_next hnext)) h
  exact ⟨fun hm => (hinv.calm hm).isAutoReconnectRequired, hinv.unwanted⟩

def connectRun : List (Nat × LinkChoice) :=
  [(0, .connect), (1, .readLoop), (2, .keepaliveLoop), (0, .proceed), (0, .proceed),
    (0, .result .success), (0, .result .success), (1, .connack), (1, .proceed), (1, .proceed),
    (1, .proceed), (1, .proceed), (0, .proceed), (0, .proceed), (0, .proceed), (0, .proceed)]

def pingRun : List (Nat × LinkChoice) :=
  [(2, .proceed), (2, .proceed), (2, .proceed), (2, .elapsed), (2, .proceed), (2, .proceed),
    (2, .result .success), (2, .proceed)]

def disconnectRun : List (Nat × LinkChoice) :=
  (0, .disconnect) :: List.replicate 5 (0, .proceed)

def reconnectRun : List (Nat × LinkChoice) :=
  [(2, .proceed), (2, .proceed), (2, .elapsed), (2, .proceed), (2, .proceed), (2, .proceed),
    (2, .proceed), (2, .proceed), (2, .proceed), (2, .proceed), (2, .proceed)]

def freshLink : State Nat RequestLock LinkPc LinkData :=
  start .idle (LinkData.init freshClient false)

def keepsCalm (s : State Nat RequestLock LinkPc LinkData) (m : Nat × LinkChoice) : Bool :=
  decide (m.1 ∈ [0, 1, 2]) && match s.pc m.1 with
    | .disconnectEnd none .success =>
      !s.data.client.isConnected && !s.data.client.isAutoReconnectRequired &&
        !s.data.client.isPingreqPending && [0, 1, 2].all fun u => !(s.pc u).committed
    | .reading _ => !s.data.manual
    | _ => true

theorem endsCalm_of_keepsCalm {s : State Nat RequestLock LinkPc LinkData} {m : Nat × LinkChoice}
    (hs : OthersAt s [0, 1, 2] .idle) (hm : keepsCalm s m = true) : EndsCalm s m := by
  obtain ⟨-, hm⟩ := (Bool.and_eq_true _ _).mp hm
  refine ⟨fun hp => ?_, fun w hp _ => ?_⟩
  · simp only [hp, Bool.and_eq_true, Bool.not_eq_true', List.all_eq_true] at hm
    obtain ⟨⟨⟨hcon, hreq⟩, hping⟩, hall⟩ := hm
    refine ⟨⟨hcon, hreq, hping⟩, fun u _ => ?_⟩
    by_cases hu : u ∈ [0, 1, 2]
    · exact hall u hu
    · rw [hs u hu]
      rfl
  · simpa [hp] using hm

theorem staysDisconnected_of_endsCalm_quiet :
    ∃ s, Transition.Reachable linkProgram.step EndsCalm freshLink s ∧ s.data.manual = true ∧
      (s.data.manual = true → s.data.client.isAutoReconnectRequired = false) ∧
      s.data.unwanted = false := by
  have hrun : ∃ s, Transition.runWhile linkProgram.step keepsCalm freshLink
      (connectRun ++ disconnectRun) = some s ∧ s.data.manual = true := ⟨_, rfl, rfl⟩
  obtain ⟨s, hs, hm⟩ := hrun
  have hreach := Transition.reachable_of_runWhile (P := fun s => OthersAt s [0, 1, 2] .idle)
    (fun _ m _ ho hm => ho.step (of_decide_eq_true ((Bool.and_eq_true _ _).mp hm).1))
    (fun _ _ => endsCalm_of_keepsCalm) (othersAt_start [0, 1, 2] _ _) hs
  exact ⟨s, hreach, hm, staysDisconnected_of_endsCalm hreach⟩

theorem not_staysDisconnected_ping :
    ∃ s, Transition.Reachable linkProgram.step Transition.anyMove freshLink s ∧
      s.data.manual = true ∧ s.data.client.isAutoReconnectRequired = true ∧
      s.data.unwanted = true := by
  have hrun : ∃ s, Transition.run linkProgram.step freshLink
      (connectRun ++ pingRun ++ disconnectRun ++ reconnectRun) = some s ∧
      s.data.manual = true ∧ s.data.client.isAutoReconnectRequired = true ∧
      s.data.unwanted = true := ⟨_, rfl, rfl, rfl, rfl⟩
  obtain ⟨s, hs, hrest⟩ := hrun
  exact ⟨s, Transition.reachable_of_run hs, hrest⟩

end AwsIotSdk
