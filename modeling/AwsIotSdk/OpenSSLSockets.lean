import AwsIotSdk.OpenSSLConnect

/-! The sockets and handles of a TLS connection over its connects and disconnects: each socket is
given back once, unless a connect is made while the connection still stands. A handle is left
over only where a protocol list is refused. -/

namespace AwsIotSdk

open Transition

namespace OpenSSLSession

variable {s t u : OpenSSLSession} {result : Except TlsError Unit} {held : List Nat}

/-! ### One attempt -/

/-- What attempts may change. -/
structure SocketOnly (s t : OpenSSLSession) : Prop where
  options : t.options = s.options
  sslContext : t.sslContext = s.sslContext
  sslHandle : t.sslHandle = s.sslHandle
  certificatesReadFlag : t.certificatesReadFlag = s.certificatesReadFlag
  isConnected : t.isConnected = s.isConnected
  contexts : t.contexts = s.contexts
  handles : t.handles = s.handles
  next : s.sockets.next ≤ t.sockets.next

theorem SocketOnly.refl (s : OpenSSLSession) : SocketOnly s s :=
  ⟨rfl, rfl, rfl, rfl, rfl, rfl, rfl, Nat.le_refl _⟩

theorem SocketOnly.trans (h : SocketOnly s t) (h' : SocketOnly t u) : SocketOnly s u :=
  ⟨h'.options.trans h.options, h'.sslContext.trans h.sslContext, h'.sslHandle.trans h.sslHandle,
    h'.certificatesReadFlag.trans h.certificatesReadFlag, h'.isConnected.trans h.isConnected,
    h'.contexts.trans h.contexts, h'.handles.trans h.handles, Nat.le_trans h.next h'.next⟩

/-- An attempt takes a new socket and keeps it, or has given it back. -/
inductive Attempted (s : OpenSSLSession) : Except TlsError Unit → OpenSSLSession → Prop
  | kept {t : OpenSSLSession} {fd : Nat} (hframe : SocketOnly s t) (hnew : s.sockets.next ≤ fd)
      (hfd : t.serverTcpSocketFd = some fd)
      (hholds : ∀ held, s.sockets.Holds held → t.sockets.Holds (fd :: held))
      (hlive : ∀ id ∈ s.sockets.live, id < s.sockets.next → id ∈ t.sockets.live) :
      Attempted s (.ok ()) t
  | gone {t : OpenSSLSession} {e : TlsError} (hframe : SocketOnly s t)
      (hnew : ∀ fd, t.serverTcpSocketFd = some fd → s.sockets.next ≤ fd)
      (hholds : ∀ held, s.sockets.Holds held → t.sockets.Holds held)
      (hlive : ∀ id ∈ s.sockets.live, id < s.sockets.next → id ∈ t.sockets.live) :
      Attempted s (.error e) t

theorem performSSLConnect_attempted {results : AttemptResults}
    (h : performSSLConnect s results = some (result, t)) : Attempted s result t := by
  have hkeeps : ∀ id ∈ s.sockets.live, id < s.sockets.next →
      id ∈ (s.sockets.acquire.release s.sockets.next).live :=
    fun id hid hlt => Ledger.mem_release (Ledger.mem_acquire hid) (by omega)
  have hclosed : ∀ e, Attempted s (.error e) { s with
      serverTcpSocketFd := some s.sockets.next
      sockets := s.sockets.acquire.release s.sockets.next } := by
    intro e
    refine .gone ⟨rfl, rfl, rfl, rfl, rfl, rfl, rfl, ?_⟩ (fun fd hfd => ?_)
      (fun held hheld => hheld.acquire_release) hkeeps
    · simp
    · cases hfd
      exact Nat.le_refl _
  rw [performSSLConnect] at h
  by_cases hsocket : results.socket = true
  · simp only [hsocket, not_true_eq_false, if_false] at h
    cases htcp : connectTCPSocket results with
    | error e =>
      simp only [htcp, Option.some.injEq, Prod.mk.injEq] at h
      obtain ⟨rfl, rfl⟩ := h
      exact hclosed e
    | ok =>
      simp only [htcp] at h
      obtain ⟨networkResponse, hverified, hout⟩ := Option.map_eq_some_iff.mp h
      cases networkResponse with
      | error e =>
        cases hout
        exact hclosed e
      | ok =>
        cases hout
        exact .kept ⟨rfl, rfl, rfl, rfl, rfl, rfl, rfl, by simp⟩ (Nat.le_refl _) rfl
          (fun held hheld => hheld.acquire) (fun id hid _ => Ledger.mem_acquire hid)
  · simp only [hsocket, Bool.false_eq_true, not_false_eq_true, if_true, Option.some.injEq,
      Prod.mk.injEq] at h
    obtain ⟨rfl, rfl⟩ := h
    exact .gone (SocketOnly.refl s |>.trans ⟨rfl, rfl, rfl, rfl, rfl, rfl, rfl, Nat.le_refl _⟩)
      (fun fd hfd => by cases hfd) (fun held hheld => hheld) (fun id hid _ => hid)

theorem Attempted.again {e : TlsError} (hfirst : Attempted s (.error e) t) (family : AddressFamily)
    (hsecond : Attempted { t with addressFamily := family } result u) : Attempted s result u := by
  cases hfirst with
  | gone hframe hnew hholds hlive =>
    have hnext := hframe.next
    have hboth : ∀ {v}, SocketOnly { t with addressFamily := family } v → SocketOnly s v :=
      fun h => hframe.trans ⟨h.options, h.sslContext, h.sslHandle, h.certificatesReadFlag,
        h.isConnected, h.contexts, h.handles, h.next⟩
    cases hsecond with
    | kept hframe' hnew' hfd' hholds' hlive' =>
      refine .kept (hboth hframe') (Nat.le_trans hnext hnew') hfd' (fun held h => hholds' held (hholds held h))
        fun id hid hlt => hlive' id (hlive id hid hlt) ?_
      exact Nat.lt_of_lt_of_le hlt hnext
    | gone hframe' hnew' hholds' hlive' =>
      refine .gone (hboth hframe') (fun fd hfd => Nat.le_trans hnext (hnew' fd hfd))
        (fun held h => hholds' held (hholds held h))
        fun id hid hlt => hlive' id (hlive id hid hlt) ?_
      exact Nat.lt_of_lt_of_le hlt hnext

theorem attempts_attempted {results : TlsConnectResults}
    (h : attempts s results = some (result, t)) : Attempted s result t := by
  rw [attempts] at h
  cases hfirst : performSSLConnect s results.first with
  | none => simp [hfirst] at h
  | some out =>
    obtain ⟨firstResult, s₁⟩ := out
    have hattempt := performSSLConnect_attempted hfirst
    cases firstResult with
    | ok =>
      simp only [hfirst, Option.some.injEq, Prod.mk.injEq] at h
      obtain ⟨rfl, rfl⟩ := h
      exact hattempt
    | error e =>
      simp only [hfirst] at h
      by_cases hfamily : s₁.addressFamily = .inet6
      · rw [if_pos hfamily] at h
        exact hattempt.again .inet (performSSLConnect_attempted h)
      · rw [if_neg hfamily] at h
        cases h
        exact hattempt

/-! ### A connect -/

/-- The identities of what a connection holds. -/
def handleIds (s : OpenSSLSession) : List Nat := (s.sslHandle.map (·.id)).toList

def socketIds (s : OpenSSLSession) : List Nat :=
  if s.isConnected then s.serverTcpSocketFd.toList else []

/-- Everything that is taken is held by the connection. -/
structure Exact (s : OpenSSLSession) : Prop where
  handles : s.handles.Holds (handleIds s)
  sockets : s.sockets.Holds (socketIds s)
  connected : s.isConnected = true → s.certificatesReadFlag = true ∧
    s.serverTcpSocketFd.isSome ∧ s.sslHandle.isSome
  idle : s.options.enableAlpn = false → s.isConnected = false → s.sslHandle = none

/-- What reading the certificates may change. -/
structure CertsOnly (s t : OpenSSLSession) : Prop where
  options : t.options = s.options
  sslHandle : t.sslHandle = s.sslHandle
  serverTcpSocketFd : t.serverTcpSocketFd = s.serverTcpSocketFd
  isConnected : t.isConnected = s.isConnected
  contexts : t.contexts = s.contexts
  handles : t.handles = s.handles
  sockets : t.sockets = s.sockets
  flag : s.certificatesReadFlag = true → t.certificatesReadFlag = true

theorem CertsOnly.exact (h : CertsOnly s t) (hs : Exact s) : Exact t := by
  refine ⟨?_, ?_, fun hconnected => ?_, fun halpn hidle => ?_⟩
  · rw [handleIds, h.handles, h.sslHandle]
    exact hs.handles
  · rw [socketIds, h.sockets, h.isConnected, h.serverTcpSocketFd]
    exact hs.sockets
  · rw [h.isConnected] at hconnected
    obtain ⟨hflag, hfd, hhandle⟩ := hs.connected hconnected
    rw [h.serverTcpSocketFd, h.sslHandle]
    exact ⟨h.flag hflag, hfd, hhandle⟩
  · rw [h.sslHandle]
    rw [h.options] at halpn
    rw [h.isConnected] at hidle
    exact hs.idle halpn hidle

theorem loadCerts_certsOnly (s : OpenSSLSession) (context : SslContext) (results : LoadResults) :
    CertsOnly s (loadCerts s context results).2 ∧
      ((loadCerts s context results).1 = .ok () →
        (loadCerts s context results).2.certificatesReadFlag = true) := by
  rw [loadCerts]
  by_cases hca : ¬ results.verifyLocations = true
  · rw [if_pos hca]
    exact ⟨⟨rfl, rfl, rfl, rfl, rfl, rfl, rfl, id⟩, by simp⟩
  rw [if_neg hca]
  by_cases hchain : s.options.deviceCertAndKey = true ∧ ¬ results.certificateChainFile = true
  · simp only [if_pos hchain]
    exact ⟨⟨rfl, rfl, rfl, rfl, rfl, rfl, rfl, id⟩, by simp⟩
  simp only [if_neg hchain]
  by_cases hkey : s.options.deviceCertAndKey = true ∧ ¬ results.privateKeyFile = true
  · simp only [if_pos hkey]
    exact ⟨⟨rfl, rfl, rfl, rfl, rfl, rfl, rfl, id⟩, by simp⟩
  · simp only [if_neg hkey]
    exact ⟨⟨rfl, rfl, rfl, rfl, rfl, rfl, rfl, fun _ => rfl⟩, fun _ => trivial⟩

/-- A connect reads the certificates where it has to, and then goes on or not. -/
theorem connectInternal_cases {results : TlsConnectResults}
    (h : connectInternal s results = some (result, t)) :
    ∃ s₀, CertsOnly s s₀ ∧ (t = s₀ ∧ s.certificatesReadFlag = false ∧ result ≠ .ok () ∨
      s₀.certificatesReadFlag = true ∧
        ∃ context, connectWithCerts s₀ context results = some (result, t)) := by
  rw [connectInternal] at h
  cases hcontext : s.sslContext with
  | none => simp [hcontext] at h
  | some context =>
    simp only [hcontext] at h
    by_cases hflag : s.certificatesReadFlag = true
    · rw [if_pos hflag] at h
      exact ⟨s, ⟨rfl, rfl, rfl, rfl, rfl, rfl, rfl, id⟩, .inr ⟨hflag, context, h⟩⟩
    · rw [if_neg hflag] at h
      obtain ⟨hcerts, hloaded⟩ := loadCerts_certsOnly s context results.load
      rcases hload : loadCerts s context results.load with ⟨loadResult, s₀⟩
      rw [hload] at hcerts hloaded h
      cases loadResult with
      | error e =>
        simp only [Option.some.injEq, Prod.mk.injEq] at h
        obtain ⟨rfl, rfl⟩ := h
        exact ⟨s₀, hcerts, .inl ⟨rfl, by simpa using hflag, by simp⟩⟩
      | ok => exact ⟨s₀, hcerts, .inr ⟨hloaded rfl, _, h⟩⟩

/-- What getting a handle ready may change. -/
structure HandleOnly (s : OpenSSLSession) (handle : SslHandle) (t : OpenSSLSession) : Prop where
  sslHandle : t.sslHandle = some handle
  options : t.options = s.options
  serverTcpSocketFd : t.serverTcpSocketFd = s.serverTcpSocketFd
  certificatesReadFlag : t.certificatesReadFlag = s.certificatesReadFlag
  isConnected : t.isConnected = s.isConnected
  contexts : t.contexts = s.contexts
  sockets : t.sockets = s.sockets
  handles : s.handles.Holds (handleIds s) → t.handles.Holds [handle.id]

theorem prepareHandle_handleOnly (s : OpenSSLSession) (context : SslContext) :
    HandleOnly s (prepareHandle s context).1 (prepareHandle s context).2 := by
  rw [prepareHandle]
  cases hhandle : s.sslHandle with
  | none =>
    refine ⟨rfl, rfl, rfl, rfl, rfl, rfl, rfl, fun hs => ?_⟩
    rw [handleIds, hhandle] at hs
    exact hs.acquire
  | some handle =>
    refine ⟨rfl, rfl, rfl, rfl, rfl, rfl, rfl, fun hs => ?_⟩
    rw [handleIds, hhandle] at hs
    exact hs

theorem connectWithCerts_cases {context : SslContext} {results : TlsConnectResults}
    (h : connectWithCerts s context results = some (result, t)) :
    ∃ handle s₀, HandleOnly s handle s₀ ∧
      (s.options.enableAlpn = true ∧ results.alpnProtos ≠ 0 ∧ t = s₀ ∧ result ≠ .ok () ∨
        ¬ (s.options.enableAlpn = true ∧ results.alpnProtos ≠ 0) ∧
          ∃ s₁, attempts s₀ results = some (result, s₁) ∧
            (result, t) = conclude handle (result, s₁)) := by
  have hready := prepareHandle_handleOnly s context
  rw [connectWithCerts] at h
  rcases hprepare : prepareHandle s context with ⟨handle, s₀⟩
  rw [hprepare] at hready h
  refine ⟨handle, s₀, hready, ?_⟩
  have hoptions := hready.options
  simp only at h hoptions
  split_ifs at h with halpn
  · cases h
    rw [hoptions] at halpn
    exact .inl ⟨halpn.1, halpn.2, rfl, by simp⟩
  · rw [hoptions] at halpn
    obtain ⟨out, hattempts, hconclude⟩ := Option.map_eq_some_iff.mp h
    obtain ⟨result', s₁⟩ := out
    have hsame : result' = result := by
      cases result' <;> exact congrArg Prod.fst hconclude
    subst hsame
    exact .inr ⟨halpn, s₁, hattempts, hconclude.symm⟩

/-! ### Runs -/

inductive TlsCall where
  | sslInitialize (results : InitializeResults)
  | connect (results : TlsConnectResults)
  | disconnect
  deriving DecidableEq, Repr

def step (s : OpenSSLSession) : TlsCall → Option OpenSSLSession
  | .sslInitialize results => some (s.sslInitialize results).2
  | .connect results => (s.connectInternal results).map Prod.snd
  | .disconnect => some s.disconnectInternal

/-- A connect that gets as far as a new socket while the connection stands. -/
def Overlaps (s : OpenSSLSession) (call : TlsCall) : Prop :=
  s.isConnected = true ∧ ∃ results, call = .connect results ∧
    ¬ (s.options.enableAlpn = true ∧ results.alpnProtos ≠ 0)

theorem Exact.sslInitialize (h : Exact s) (results : InitializeResults) :
    Exact (s.sslInitialize results).2 := by
  rw [OpenSSLSession.sslInitialize]
  split_ifs
  · exact h
  · exact ⟨h.handles, h.sockets, h.connected, h.idle⟩
  · exact ⟨h.handles, h.sockets, h.connected, h.idle⟩

theorem Exact.disconnectInternal (h : Exact s) : Exact s.disconnectInternal := by
  rw [OpenSSLSession.disconnectInternal]
  by_cases hconnected : s.isConnected = true
  · obtain ⟨hflag, hfd, hhandle⟩ := h.connected hconnected
    obtain ⟨fd, hfd⟩ := Option.isSome_iff_exists.mp hfd
    obtain ⟨handle, hhandle⟩ := Option.isSome_iff_exists.mp hhandle
    have hsockets := h.sockets
    have hhandles := h.handles
    rw [socketIds, if_pos hconnected, hfd] at hsockets
    rw [handleIds, hhandle] at hhandles
    simp only [hconnected, not_true_eq_false, if_false, hhandle, hfd]
    exact ⟨hhandles.release, hsockets.release, by simp, fun _ _ => rfl⟩
  · rw [if_pos hconnected]
    exact h

theorem Exact.connectWithCerts (h : Exact s) (hflag : s.certificatesReadFlag = true)
    {context : SslContext} {results : TlsConnectResults}
    (hapart : s.isConnected = true → s.options.enableAlpn = true ∧ results.alpnProtos ≠ 0)
    (hout : connectWithCerts s context results = some (result, t)) : Exact t := by
  obtain ⟨handle, s₀, hready, hcases⟩ := connectWithCerts_cases hout
  have hhandles := hready.handles h.handles
  have hsockets : s₀.sockets.Holds (socketIds s) := by
    rw [hready.sockets]
    exact h.sockets
  rcases hcases with ⟨halpn, -, rfl, -⟩ | ⟨hnoalpn, s₁, hattempts, hconclude⟩
  · refine ⟨?_, ?_, fun hconnected => ?_, fun hoff => ?_⟩
    · rw [handleIds, hready.sslHandle]
      exact hhandles
    · rw [socketIds, hready.isConnected, hready.serverTcpSocketFd]
      exact hsockets
    · rw [hready.isConnected] at hconnected
      rw [hready.certificatesReadFlag, hready.serverTcpSocketFd, hready.sslHandle]
      exact ⟨hflag, (h.connected hconnected).2.1, rfl⟩
    · rw [hready.options, halpn] at hoff
      cases hoff
  · have hidle : s.isConnected = false := by
      by_contra hconnected
      exact hnoalpn (hapart (by simpa using hconnected))
    rw [socketIds, hidle] at hsockets
    cases attempts_attempted hattempts with
    | @kept _ fd hframe _ hfd hholds =>
      cases hconclude
      refine ⟨?_, ?_, fun _ => ?_, fun _ hconnected => by simp at hconnected⟩
      · show s₁.handles.Holds [handle.id]
        rw [hframe.handles]
        exact hhandles
      · have hone : s₁.sockets.Holds [fd] := hholds [] hsockets
        rw [socketIds]
        simpa [hfd] using hone
      · have hflag₁ : s₁.certificatesReadFlag = true := by
          rw [hframe.certificatesReadFlag, hready.certificatesReadFlag, hflag]
        exact ⟨hflag₁, by simp [hfd], rfl⟩
    | gone hframe _ hholds =>
      cases hconclude
      have hstill : s₁.isConnected = false := by
        rw [hframe.isConnected, hready.isConnected, hidle]
      refine ⟨?_, ?_, fun hconnected => ?_, fun _ _ => rfl⟩
      · show (s₁.handles.release handle.id).Holds []
        rw [hframe.handles]
        exact hhandles.release
      · have hnone : s₁.sockets.Holds [] := hholds [] hsockets
        rw [socketIds]
        simpa [hstill] using hnone
      · simp [hstill] at hconnected

theorem Exact.step {call : TlsCall} (h : Exact s) (hapart : ¬ Overlaps s call)
    (hstep : step s call = some t) : Exact t := by
  cases call with
  | sslInitialize results =>
    cases hstep
    exact h.sslInitialize results
  | disconnect =>
    cases hstep
    exact h.disconnectInternal
  | connect results =>
    obtain ⟨⟨result, t'⟩, hout, rfl⟩ := Option.map_eq_some_iff.mp hstep
    obtain ⟨s₀, hcerts, hcases⟩ := connectInternal_cases hout
    have hexact := hcerts.exact h
    rcases hcases with ⟨rfl, -⟩ | ⟨hflag, context, hout⟩
    · exact hexact
    · refine hexact.connectWithCerts hflag (fun hconnected => ?_) hout
      rw [hcerts.isConnected] at hconnected
      rw [hcerts.options]
      by_contra hreaches
      exact hapart ⟨hconnected, results, rfl, hreaches⟩

/-! ### A socket that is lost -/

/-- A socket that is open, and that the connection has no descriptor of. -/
structure Lost (fd : Nat) (s : OpenSSLSession) : Prop where
  live : fd ∈ s.sockets.live
  old : fd < s.sockets.next
  unknown : s.serverTcpSocketFd ≠ some fd

theorem Attempted.lost {fd : Nat} (h : Attempted s result t) (hlive : fd ∈ s.sockets.live)
    (hold : fd < s.sockets.next) : Lost fd t := by
  cases h with
  | @kept _ new hframe hnew hfd _ hkeeps =>
    have hnext := hframe.next
    refine ⟨hkeeps fd hlive hold, by omega, fun hsame => ?_⟩
    have heq : new = fd := Option.some.inj (hfd.symm.trans hsame)
    omega
  | gone hframe hnew _ hkeeps =>
    have hnext := hframe.next
    refine ⟨hkeeps fd hlive hold, by omega, fun hsame => ?_⟩
    have hlater := hnew fd hsame
    omega

/-- A connect that gets as far as a new socket: what was open still is, and is not the new one. -/
theorem lost_of_conclude {fd : Nat} {handle : SslHandle} {s₀ s₁ : OpenSSLSession}
    (h : Attempted s₀ result s₁) (hconclude : (result, t) = conclude handle (result, s₁))
    (hlive : fd ∈ s₀.sockets.live) (hold : fd < s₀.sockets.next) : Lost fd t := by
  have hlost := h.lost hlive hold
  cases result with
  | ok =>
    cases hconclude
    exact ⟨hlost.live, hlost.old, hlost.unknown⟩
  | error e =>
    cases hconclude
    exact ⟨hlost.live, hlost.old, hlost.unknown⟩

theorem Lost.disconnectInternal {fd : Nat} (h : Lost fd s) : Lost fd s.disconnectInternal := by
  have hne := h.unknown
  rw [OpenSSLSession.disconnectInternal]
  by_cases hconnected : s.isConnected = true
  · have hsockets : ∀ (freed : OpenSSLSession) (sockets : Ledger),
        freed.serverTcpSocketFd = s.serverTcpSocketFd → fd ∈ sockets.live → fd < sockets.next →
        Lost fd { freed with
          isConnected := false
          certificatesReadFlag := false
          sockets := sockets } := by
      intro freed sockets hfreed hlive hold
      refine ⟨hlive, hold, ?_⟩
      show freed.serverTcpSocketFd ≠ some fd
      rw [hfreed]
      exact hne
    simp only [hconnected, not_true_eq_false, if_false]
    refine hsockets _ _ (by cases s.sslHandle <;> rfl) ?_ ?_
    · cases hfd : s.serverTcpSocketFd with
      | none => exact h.live
      | some other => exact Ledger.mem_release h.live fun hsame => hne (by rw [hfd, hsame])
    · cases hfd : s.serverTcpSocketFd with
      | none => exact h.old
      | some other =>
        show fd < (s.sockets.release other).next
        rw [Ledger.next_release]
        exact h.old
  · rw [if_pos hconnected]
    exact h

theorem Lost.step {fd : Nat} {call : TlsCall} (h : Lost fd s) (hstep : step s call = some t) :
    Lost fd t := by
  cases call with
  | sslInitialize results =>
    cases hstep
    rw [OpenSSLSession.sslInitialize]
    split_ifs
    · exact h
    · exact ⟨h.live, h.old, h.unknown⟩
    · exact ⟨h.live, h.old, h.unknown⟩
  | disconnect =>
    cases hstep
    exact h.disconnectInternal
  | connect results =>
    obtain ⟨⟨result, t'⟩, hout, rfl⟩ := Option.map_eq_some_iff.mp hstep
    obtain ⟨s₀, hcerts, hcases⟩ := connectInternal_cases hout
    have hlost : Lost fd s₀ := by
      refine ⟨?_, ?_, ?_⟩
      · rw [hcerts.sockets]
        exact h.live
      · rw [hcerts.sockets]
        exact h.old
      · rw [hcerts.serverTcpSocketFd]
        exact h.unknown
    rcases hcases with ⟨rfl, -⟩ | ⟨hflag, context, hout⟩
    · exact hlost
    obtain ⟨handle, s₁, hready, hcases⟩ := connectWithCerts_cases hout
    have hlost : Lost fd s₁ := by
      refine ⟨?_, ?_, ?_⟩
      · rw [hready.sockets]
        exact hlost.live
      · rw [hready.sockets]
        exact hlost.old
      · rw [hready.serverTcpSocketFd]
        exact hlost.unknown
    rcases hcases with ⟨-, -, rfl, -⟩ | ⟨-, s₂, hattempts, hconclude⟩
    · exact hlost
    · exact lost_of_conclude (attempts_attempted hattempts) hconclude hlost.live hlost.old

theorem options_disconnectInternal (s : OpenSSLSession) :
    s.disconnectInternal.options = s.options := by
  rw [disconnectInternal]
  by_cases hconnected : s.isConnected = true
  · simp only [hconnected, not_true_eq_false, if_false]
    cases s.sslHandle <;> rfl
  · rw [if_pos hconnected]

theorem destroy_eq (s : OpenSSLSession) :
    (destroy s).sockets = s.disconnectInternal.sockets ∧
      (destroy s).handles = s.disconnectInternal.handles ∧
      (destroy s).serverTcpSocketFd = s.disconnectInternal.serverTcpSocketFd := by
  have hsame : (if s.isConnected then s.disconnectInternal else s) = s.disconnectInternal := by
    split_ifs with hconnected
    · rfl
    · rw [disconnectInternal, if_pos hconnected]
  rw [destroy, hsame]
  cases s.disconnectInternal.sslContext with
  | none => exact ⟨rfl, rfl, rfl⟩
  | some context => exact ⟨rfl, rfl, rfl⟩

theorem Lost.destroy {fd : Nat} (h : Lost fd s) : fd ∈ (destroy s).sockets.live := by
  rw [(destroy_eq s).1]
  exact h.disconnectInternal.live

end OpenSSLSession

end AwsIotSdk
