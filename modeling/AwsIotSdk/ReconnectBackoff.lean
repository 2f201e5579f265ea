import AwsIotSdk.DisconnectCallbacks
import Mathlib.Algebra.Order.Ring.Int
import Mathlib.Order.Iterate
import Mathlib.Tactic.Positivity
import Mathlib.Tactic.Ring

/-! The sleeps between the reconnect attempts of the keepalive loop. The timer of a loss starts
at the minimum and doubles before a sleep while it is below the maximum, which does not cap it. -/

namespace AwsIotSdk

open ClientState AwsIotSdk.Action

/-! ### The timer -/

def doubled (maximum timer : Int) : Int := if timer < maximum then timer + timer else timer

/-- The timer after `k` failed attempts, which is the sleep that follows the last of them. -/
def backoff (minimum maximum : Int) (k : Nat) : Int := (doubled maximum)^[k] minimum

/-- The sleeps of a loss whose first `n` attempts failed. -/
def backoffs (minimum maximum : Int) (n : Nat) : List Int :=
  (List.range n).map (fun i => backoff minimum maximum (i + 1))

section Timer

variable {minimum maximum : Int}

theorem backoff_succ (minimum maximum : Int) (k : Nat) :
    backoff minimum maximum (k + 1) = doubled maximum (backoff minimum maximum k) :=
  Function.iterate_succ_apply' _ _ _

theorem backoffs_succ (minimum maximum : Int) (n : Nat) :
    backoffs minimum maximum (n + 1) =
      backoffs minimum maximum n ++ [backoff minimum maximum (n + 1)] := by
  simp [backoffs, List.range_succ]

end Timer

variable {σ : Type} [NetworkConnection σ]

namespace KeepaliveActionRunner

/-- What the backoff of the loop consists of. -/
def timing (r : KeepaliveActionRunner σ) : Int × Int × List Int :=
  (r.reconnectBackoffTimer, r.maxBackoffValue, r.sleeps)

section Timing

variable {t : KeepaliveTurn σ} {r r' : KeepaliveActionRunner σ}

omit [NetworkConnection σ] in
theorem timing_eq_iff {timer maximum : Int} {sleeps : List Int} :
    r.timing = (timer, maximum, sleeps) ↔
      r.reconnectBackoffTimer = timer ∧ r.maxBackoffValue = maximum ∧ r.sleeps = sleeps := by
  simp [timing]

omit [NetworkConnection σ] in
theorem timing_callBack (r : KeepaliveActionRunner σ) (hasHandler : Bool)
    (callback : KeepaliveCallback) : (r.callBack hasHandler callback).timing = r.timing ∧
      (r.callBack hasHandler callback).attempts = r.attempts := by
  rw [callBack]
  split_ifs <;> exact ⟨rfl, rfl⟩

omit [NetworkConnection σ] in
theorem timing_announceLoss (t : KeepaliveTurn σ) (r : KeepaliveActionRunner σ) :
    (announceLoss t r).timing =
      if r.armed then (t.minReconnectBackoffTimeout, t.maxReconnectBackoffTimeout, r.sleeps)
      else r.timing := by
  have hcall : (callDisconnectHandler t r).timing = r.timing := by
    rw [callDisconnectHandler]
    split
    · rfl
    · exact (timing_callBack _ _ _).1
  have hsleeps : (callDisconnectHandler t r).sleeps = r.sleeps := (timing_eq_iff.mp hcall).2.2
  rw [announceLoss, armed]
  split_ifs
  · rw [timing, hsleeps]
  · rfl

omit [NetworkConnection σ] in
theorem timing_backOff (r : KeepaliveActionRunner σ) : r.backOff.timing =
    (doubled r.timing.2.1 r.timing.1, r.timing.2.1,
      r.timing.2.2 ++ [doubled r.timing.2.1 r.timing.1]) := rfl

theorem timing_attemptReconnect {rc : ResponseCode} {p : ConnectPacket}
    (h : attemptReconnect t r = .ok (rc, p, r')) :
    r'.timing = r.timing ∧ r'.attempts = r.attempts ++ [rc] := by
  rw [attemptReconnect] at h
  split at h
  · cases h
  · cases h
    exact timing_callBack _ _ _

theorem timing_resume {p : ConnectPacket} (h : resume t p r = .ok r') :
    r'.timing = r.timing ∧ r'.attempts = r.attempts := by
  rw [resume] at h
  dsimp only at h
  split_ifs at h
  · cases h
    exact ⟨rfl, rfl⟩
  cases hw : resubscribe t.threadContinue (r.setRequired false).client
      (r.setRequired false).connection with
  | error f =>
    rw [hw] at h
    cases h
  | ok w =>
    rw [hw] at h
    dsimp only at h
    split_ifs at h
    · cases h
      exact timing_callBack _ _ _
    · cases h
      exact timing_callBack _ _ _

theorem timing_ping (t : KeepaliveTurn σ) (r : KeepaliveActionRunner σ) :
    (ping t r).timing = r.timing ∧ (ping t r).attempts = r.attempts := by
  have hclose : ∀ u : KeepaliveActionRunner σ,
      ((performDisconnect t u).2.setRequired true).timing = u.timing ∧
        ((performDisconnect t u).2.setRequired true).attempts = u.attempts :=
    fun _ => ⟨rfl, rfl⟩
  rw [ping]
  split_ifs
  · exact ⟨rfl, rfl⟩
  · exact hclose r
  · exact ⟨rfl, rfl⟩
  · dsimp only
    split_ifs
    · exact hclose _
    · exact ⟨rfl, rfl⟩
  · exact ⟨rfl, rfl⟩

/-- An armed callback starts the timer anew, and only a failed attempt moves it and sleeps. -/
theorem timing_reconnect (h : reconnect t r = .ok r') :
    ∃ rc, r'.attempts = r.attempts ++ [rc] ∧
      r'.timing = if rc = .mqttConnackConnectionAccepted then (announceLoss t r).timing
        else (announceLoss t r).backOff.timing := by
  obtain ⟨rc, p, u, -, hattempt, hend⟩ := reconnect_cases h
  obtain ⟨htiming, hattempts⟩ := timing_attemptReconnect hattempt
  let s : KeepaliveActionRunner σ := { r with client := r.client.setPingreqPending false }
  have hstart : (announceLoss t s).timing = (announceLoss t r).timing :=
    (timing_announceLoss t s).trans (timing_announceLoss t r).symm
  have hall : u.attempts = r.attempts ++ [rc] :=
    hattempts.trans (congrArg (· ++ [rc]) (announceLoss_rest t s).2)
  have htimer : u.timing = (announceLoss t r).timing := htiming.trans hstart
  refine ⟨rc, ?_⟩
  rcases hend with ⟨haccepted, hresume⟩ | ⟨hrefused, rfl⟩
  · obtain ⟨hkept, hsame⟩ := timing_resume hresume
    rw [if_pos haccepted]
    exact ⟨hsame.trans hall, hkept.trans htimer⟩
  · rw [if_neg hrefused, timing_backOff, timing_backOff, htimer]
    exact ⟨hall, rfl⟩

end Timing

end KeepaliveActionRunner

/-! ### Runs -/

/-- The settings that a loss was met with, and the sleeps after its failed attempts. -/
structure LossBackoff where
  minimum : Int
  maximum : Int
  sleeps : List Int
  deriving DecidableEq, Repr

/-- `inLoss`: the loop has seen a loss, and the client was not reconnected since. The losses
are recorded, newest first. -/
structure BackoffRun (σ : Type) where
  loop : KeepaliveActionRunner σ
  inLoss : Bool
  losses : List LossBackoff

/-- A turn of the loop; the read loop handles a CONNACK that came too late for an attempt, or
for the CONNECT of somebody else; another step of the other threads. -/
inductive BackoffMove (σ : Type) where
  | turn (t : KeepaliveTurn σ)
  | connack (flags : UInt8) (code : ConnackReturnCode)
  | others (f : ClientState × σ → ClientState × σ)

namespace BackoffRun

def start (client : ClientState) (c : σ) (minReconnectBackoffTimeout
    maxReconnectBackoffTimeout : Int) : BackoffRun σ :=
  ⟨.start client c minReconnectBackoffTimeout maxReconnectBackoffTimeout, false, []⟩

/-- The client as the turn finds it. -/
def met (r : BackoffRun σ) (t : KeepaliveTurn σ) : ClientState :=
  (t.others (r.loop.client, r.loop.connection)).1

def addSleeps (slept : List Int) : List LossBackoff → List LossBackoff
  | [] => []
  | l :: losses => { l with sleeps := l.sleeps ++ slept } :: losses

/-- The losses of a turn that finds a reconnect required. -/
def opened (r : BackoffRun σ) (t : KeepaliveTurn σ) : List LossBackoff :=
  if r.inLoss then r.losses
  else ⟨t.minReconnectBackoffTimeout, t.maxReconnectBackoffTimeout, []⟩ :: r.losses

def turn (r : BackoffRun σ) (t : KeepaliveTurn σ) : Option (BackoffRun σ) :=
  match KeepaliveActionRunner.iteration t r.loop with
  | .error _ => none
  | .ok loop =>
    if (r.met t).isAutoReconnectRequired then
      some ⟨loop, !(loop.attempts.drop r.loop.attempts.length).contains
        .mqttConnackConnectionAccepted,
        addSleeps (loop.sleeps.drop r.loop.sleeps.length) (r.opened t)⟩
    else some { r with loop := loop }

/-- An accepted CONNACK reconnects the client, also when no attempt waits for it. -/
def step (r : BackoffRun σ) : BackoffMove σ → Option (BackoffRun σ)
  | .turn t => r.turn t
  | .connack flags code => some { r with
      loop := { r.loop with client := afterConnack flags code r.loop.client }
      inLoss := r.inLoss && decide (code ≠ .connectionAccepted) }
  | .others f => some { r with
      loop := { r.loop with
        client := (f (r.loop.client, r.loop.connection)).1
        connection := (f (r.loop.client, r.loop.connection)).2 } }

/-- A client that reconnects by itself when it loses its connection, and during a loss leaves
the CONNECTs to the loop. -/
structure UndisturbedTurn (r : BackoffRun σ) (t : KeepaliveTurn σ) : Prop where
  enabled : r.inLoss = false → (r.met t).isAutoReconnectRequired = true →
    (r.met t).isAutoReconnectEnabled = true
  registered : (r.met t).actionMap = registeredActions
  trigger : (r.met t).triggerDisconnectCallback = r.loop.client.triggerDisconnectCallback
  awaitConnack : KeepsCallback t.awaitConnack
  awaitDisconnect : KeepsCallback t.awaitDisconnect

/-- During a loss no CONNACK is accepted but for an attempt of the loop. -/
def Undisturbed (r : BackoffRun σ) : BackoffMove σ → Prop
  | .turn t => UndisturbedTurn r t
  | .connack _ code => r.inLoss = true → code ≠ .connectionAccepted
  | .others f => (f (r.loop.client, r.loop.connection)).1.triggerDisconnectCallback =
      r.loop.client.triggerDisconnectCallback

structure Inv (r : BackoffRun σ) : Prop where
  armed : r.loop.armed = !r.inLoss
  recorded : ∀ l ∈ r.losses, l.sleeps = backoffs l.minimum l.maximum l.sleeps.length
  current : r.inLoss = true → ∃ l ∈ r.losses.head?, r.loop.maxBackoffValue = l.maximum ∧
    r.loop.reconnectBackoffTimer = backoff l.minimum l.maximum l.sleeps.length

section Step

variable {r r' : BackoffRun σ} {t : KeepaliveTurn σ}

theorem addSleeps_nil (losses : List LossBackoff) : addSleeps [] losses = losses := by
  cases losses with
  | nil => rfl
  | cons l losses => simp [addSleeps]

/-- The next sleep of the present loss. -/
theorem recorded_addSleeps {l : LossBackoff} {losses : List LossBackoff}
    (h : ∀ l' ∈ l :: losses, l'.sleeps = backoffs l'.minimum l'.maximum l'.sleeps.length) :
    ∀ l' ∈ addSleeps [backoff l.minimum l.maximum (l.sleeps.length + 1)] (l :: losses),
      l'.sleeps = backoffs l'.minimum l'.maximum l'.sleeps.length := by
  intro l' hl'
  rcases List.mem_cons.mp hl' with rfl | hold
  · have hlast := h l (List.mem_cons_self ..)
    simp only [List.length_append, List.length_singleton, backoffs_succ]
    rw [← hlast]
  · exact h l' (List.mem_cons_of_mem _ hold)

omit [NetworkConnection σ] in
/-- A turn that finds a reconnect required goes on with the backoff of its loss. -/
theorem opened_spec (hi : Inv r)
    (htrigger : (r.met t).triggerDisconnectCallback = r.loop.client.triggerDisconnectCallback) :
    ∃ l losses, r.opened t = l :: losses ∧
      (∀ l' ∈ r.opened t, l'.sleeps = backoffs l'.minimum l'.maximum l'.sleeps.length) ∧
      (KeepaliveActionRunner.announceLoss t (KeepaliveActionRunner.met t r.loop)).timing =
        (backoff l.minimum l.maximum l.sleeps.length, l.maximum, r.loop.sleeps) := by
  have harmed : (KeepaliveActionRunner.met t r.loop).armed = !r.inLoss :=
    htrigger.trans hi.armed
  rw [opened, KeepaliveActionRunner.timing_announceLoss, harmed]
  cases hloss : r.inLoss with
  | true =>
    obtain ⟨l, hl, hmaximum, htimer⟩ := hi.current hloss
    obtain ⟨losses, hlosses⟩ := List.head?_eq_some_iff.mp hl
    refine ⟨l, losses, hlosses, hi.recorded, ?_⟩
    rw [← htimer, ← hmaximum]
    rfl
  | false =>
    refine ⟨_, r.losses, rfl, ?_, rfl⟩
    intro l' hl'
    rcases List.mem_cons.mp hl' with rfl | hold
    · rfl
    · exact hi.recorded l' hold

/-- An attempt that fails adds the next sleep to the loss, and one that is accepted ends it. -/
theorem inv_reconnect (hcodes : NetworkCodes σ) (hi : Inv r) (ht : UndisturbedTurn r t)
    (henabled : (r.met t).isAutoReconnectEnabled = true)
    (hrequired : (r.met t).isAutoReconnectRequired = true) (h : turn r t = some r') : Inv r' := by
  rw [turn, KeepaliveActionRunner.iteration_of_required henabled hrequired] at h
  cases hx : KeepaliveActionRunner.reconnect t (KeepaliveActionRunner.met t r.loop) with
  | error f =>
    rw [hx] at h
    cases h
  | ok loop =>
    obtain ⟨l, losses, hopened, hrecorded, hstart⟩ := opened_spec hi ht.trigger
    obtain ⟨rc, hattempts, harmed⟩ := KeepaliveActionRunner.reconnect_armed hcodes
      ht.awaitConnack ht.awaitDisconnect ht.registered hx
    obtain ⟨rc', hattempts', htiming⟩ := KeepaliveActionRunner.timing_reconnect hx
    have hrc : rc' = rc := by
      have happend := hattempts'.symm.trans hattempts
      simpa using happend
    subst hrc
    have htried : loop.attempts.drop r.loop.attempts.length = [rc'] := by
      rw [hattempts]
      exact List.drop_left
    rw [hx] at h
    dsimp only at h
    rw [if_pos hrequired, htried, hopened] at h
    rw [hopened] at hrecorded
    by_cases haccepted : rc' = .mqttConnackConnectionAccepted
    · rw [if_pos haccepted, hstart] at htiming
      have hsleeps := (KeepaliveActionRunner.timing_eq_iff.mp htiming).2.2
      rw [hsleeps, List.drop_length, addSleeps_nil, haccepted] at h
      cases h
      refine ⟨?_, hrecorded, fun hloss => ?_⟩
      · rw [harmed, haccepted]
        rfl
      · cases hloss
    · rw [if_neg haccepted, KeepaliveActionRunner.timing_backOff, hstart] at htiming
      dsimp only at htiming
      rw [← backoff_succ] at htiming
      obtain ⟨htimer, hmaximum, hsleeps⟩ := KeepaliveActionRunner.timing_eq_iff.mp htiming
      have hcontains : [rc'].contains ResponseCode.mqttConnackConnectionAccepted = false := by
        simpa using Ne.symm haccepted
      rw [hsleeps, List.drop_left, hcontains] at h
      cases h
      refine ⟨?_, recorded_addSleeps hrecorded, fun _ => ⟨_, rfl, hmaximum, ?_⟩⟩
      · rw [harmed, decide_eq_false haccepted]
        rfl
      · simp only [List.length_append, List.length_singleton]
        exact htimer

/-- A turn without an attempt. -/
theorem inv_ping (hi : Inv r) (ht : UndisturbedTurn r t)
    (hidle : (r.met t).isAutoReconnectRequired = false ∨
      (r.met t).isAutoReconnectEnabled = false ∧ r.inLoss = true)
    (h : turn r t = some r') : Inv r' := by
  let u : KeepaliveActionRunner σ := KeepaliveActionRunner.met t r.loop
  have harmed : u.armed = !r.inLoss := ht.trigger.trans hi.armed
  have hping : KeepaliveActionRunner.iteration t r.loop = .ok (KeepaliveActionRunner.ping t u) := by
    refine KeepaliveActionRunner.iteration_of_idle (hidle.imp_right ?_)
    intro ⟨hdisabled, hloss⟩
    rw [harmed, hloss]
    exact ⟨hdisabled, rfl⟩
  obtain ⟨harmed', -⟩ := KeepaliveActionRunner.ping_spec (t := t) (r := u)
    ht.awaitDisconnect (congrFun ht.registered .disconnect)
  obtain ⟨htiming, hattempts⟩ := KeepaliveActionRunner.timing_ping t u
  obtain ⟨htimer, hmaximum, hsleeps⟩ : _ = r.loop.reconnectBackoffTimer ∧
      _ = r.loop.maxBackoffValue ∧ _ = r.loop.sleeps :=
    KeepaliveActionRunner.timing_eq_iff.mp htiming
  have htried : (KeepaliveActionRunner.ping t u).attempts.drop r.loop.attempts.length = [] := by
    rw [hattempts]
    exact List.drop_length
  have hsame : r' = { r with loop := KeepaliveActionRunner.ping t u } := by
    rw [turn, hping] at h
    dsimp only at h
    rw [htried, hsleeps, List.drop_length, addSleeps_nil] at h
    split_ifs at h with hrequired
    · have hloss : r.inLoss = true := by
        rcases hidle with hcalm | ⟨-, hloss⟩
        · rw [hcalm] at hrequired
          cases hrequired
        · exact hloss
      rw [opened, if_pos hloss] at h
      cases h
      rw [hloss]
      rfl
    · exact (Option.some.inj h).symm
  subst hsame
  refine ⟨harmed'.trans harmed, hi.recorded, fun hloss => ?_⟩
  rw [hmaximum, htimer]
  exact hi.current hloss

theorem inv_turn (hcodes : NetworkCodes σ) (hi : Inv r) (ht : UndisturbedTurn r t)
    (h : turn r t = some r') : Inv r' := by
  cases hrequired : (r.met t).isAutoReconnectRequired with
  | false => exact inv_ping hi ht (.inl hrequired) h
  | true =>
    cases henabled : (r.met t).isAutoReconnectEnabled with
    | true => exact inv_reconnect hcodes hi ht henabled hrequired h
    | false =>
      have hloss : r.inLoss = true := by
        by_contra hcalm
        rw [ht.enabled (Bool.eq_false_iff.mpr hcalm) hrequired] at henabled
        cases henabled
      exact inv_ping hi ht (.inr ⟨henabled, hloss⟩) h

/-- Outside a turn the callback flag and the backoff stay, and so must the loss. -/
theorem inv_step (hcodes : NetworkCodes σ) (hi : Inv r) {m : BackoffMove σ}
    (hm : Undisturbed r m) (h : step r m = some r') : Inv r' := by
  cases m with
  | turn t => exact inv_turn hcodes hi hm h
  | connack flags code =>
    have hkept := callbackKept_afterConnack flags code r.loop.client
    have hloss : (r.inLoss && decide (code ≠ .connectionAccepted)) = r.inLoss := by
      cases hr : r.inLoss with
      | false => rfl
      | true => exact decide_eq_true (hm hr)
    cases h
    exact ⟨hkept.trigger.trans (hi.armed.trans (congrArg not hloss.symm)), hi.recorded,
      fun hr => hi.current (hloss ▸ hr)⟩
  | others f =>
    cases h
    exact ⟨Eq.trans hm hi.armed, hi.recorded, hi.current⟩

end Step

/-! ### The runs without an answer -/

section Unanswered

end Unanswered

end BackoffRun

end AwsIotSdk
