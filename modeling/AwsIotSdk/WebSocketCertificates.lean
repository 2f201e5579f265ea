import AwsIotSdk.OpenSSLSockets

/-! The certificates of a WebSocket's TLS connection. Each connect makes a new context; whether
the certificates are read into it depends on a flag that only a disconnect takes back. -/

namespace AwsIotSdk

open Transition OpenSSLSession

/-- What the calls inside a connect return. -/
structure WebSocketConnectResults where
  tlsInitialize : InitializeResults
  tlsConnect : TlsConnectResults
  wssHandshake : Bool
  wslayFrameContextInit : Int
  deriving DecidableEq, Repr

structure WebSocketTls where
  opensslConnection : OpenSSLSession
  isConnected : Bool
  deriving DecidableEq, Repr

namespace WebSocketTls

/-- A connection without a device certificate and without a protocol list. -/
def create (serverVerificationFlag : Bool) : WebSocketTls :=
  ⟨OpenSSLSession.create ⟨false, serverVerificationFlag, false⟩, false⟩

def connectInternal (w : WebSocketTls) (results : WebSocketConnectResults) :
    Option (Bool × WebSocketTls) :=
  match w.opensslConnection.sslInitialize results.tlsInitialize with
  | (.error _, s) => some (false, { w with opensslConnection := s })
  | (.ok (), s) =>
    match s.connectInternal results.tlsConnect with
    | none => none
    | some (.error _, s) => some (false, { w with opensslConnection := s })
    | some (.ok (), s) =>
      if ¬ results.wssHandshake then some (false, { w with opensslConnection := s })
      else if results.wslayFrameContextInit < 0 then some (false, { w with opensslConnection := s })
      else some (true, ⟨s, true⟩)

def disconnectInternal (w : WebSocketTls) : WebSocketTls :=
  ⟨w.opensslConnection.disconnectInternal, false⟩

inductive Call where
  | connect (results : WebSocketConnectResults)
  | disconnect
  deriving DecidableEq, Repr

def step (w : WebSocketTls) : Call → Option WebSocketTls
  | .connect results => (w.connectInternal results).map Prod.snd
  | .disconnect => some w.disconnectInternal

/-- Whether the handle of the next connect has a context with the root certificate. -/
def trustsRoot (s : OpenSSLSession) : Bool :=
  match s.sslHandle with
  | some handle => handle.context.caLoaded
  | none => !s.certificatesReadFlag || s.sslContext.any (·.caLoaded)

/-- A server has shown a certificate, and it has passed. -/
def passes (results : AttemptResults) : Bool := results.verifyResultOk && results.peerCertificate

/-- The documented behaviour of a handshake that verifies its peer: no certificate passes without
a root certificate in the context. -/
def VerifiesPeer (w : WebSocketTls) : Call → Prop
  | .connect results =>
    trustsRoot (w.opensslConnection.sslInitialize results.tlsInitialize).2 = false →
      passes results.tlsConnect.first = false ∧ passes results.tlsConnect.second = false
  | .disconnect => True

abbrev Reached (serverVerificationFlag : Bool) : WebSocketTls → Prop :=
  Reachable step VerifiesPeer (create serverVerificationFlag)

/-! ### A connect without a root certificate -/

variable {s t : OpenSSLSession} {w w' u : WebSocketTls} {result : Except TlsError Unit}

theorem passes_of_verifiedConnect {results : AttemptResults}
    (h : verifiedConnect results = some (.ok ())) : passes results = true := by
  rw [verifiedConnect] at h
  cases hblocking : setSocketToNonBlocking results with
  | error e => simp [hblocking] at h
  | ok =>
    simp only [hblocking] at h
    obtain ⟨networkResponse, -, hout⟩ := Option.map_eq_some_iff.mp h
    by_cases hverify : results.verifyResultOk = true
    · by_cases hcert : results.peerCertificate = true
      · simp [passes, hverify, hcert]
      · simp [hverify, hcert] at hout
    · simp [hverify] at hout

theorem passes_of_performSSLConnect {results : AttemptResults}
    (h : performSSLConnect s results = some (.ok (), t)) : passes results = true := by
  rw [performSSLConnect] at h
  by_cases hsocket : results.socket = true
  · simp only [hsocket, not_true_eq_false, if_false] at h
    cases htcp : connectTCPSocket results with
    | error e => simp [htcp] at h
    | ok =>
      simp only [htcp] at h
      obtain ⟨networkResponse, hverified, hout⟩ := Option.map_eq_some_iff.mp h
      cases networkResponse with
      | error e => cases hout
      | ok => exact passes_of_verifiedConnect hverified
  · simp [hsocket] at h

theorem passes_of_attempts {results : TlsConnectResults}
    (h : attempts s results = some (.ok (), t)) :
    passes results.first = true ∨ passes results.second = true := by
  rw [attempts] at h
  cases hfirst : performSSLConnect s results.first with
  | none => simp [hfirst] at h
  | some out =>
    obtain ⟨firstResult, s₁⟩ := out
    cases firstResult with
    | ok => exact .inl (passes_of_performSSLConnect hfirst)
    | error e =>
      simp only [hfirst] at h
      by_cases hfamily : s₁.addressFamily = .inet6
      · rw [if_pos hfamily] at h
        exact .inr (passes_of_performSSLConnect h)
      · rw [if_neg hfamily] at h
        cases h

/-- The flag says that certificates were read, but the next context will not have them. -/
structure Stuck (s : OpenSSLSession) : Prop where
  flag : s.certificatesReadFlag = true
  idle : s.isConnected = false
  handle : s.sslHandle = none
  options : s.options.enableAlpn = false

/-- A connect whose certificates do not pass fails, and leaves the connection where it was. -/
theorem Stuck.connectInternal (h : Stuck s) {results : TlsConnectResults}
    (hfirst : passes results.first = false) (hsecond : passes results.second = false)
    (hout : s.connectInternal results = some (result, t)) : result ≠ .ok () ∧ Stuck t := by
  obtain ⟨s₀, hcerts, hcases⟩ := connectInternal_cases hout
  have hoptions : s₀.options.enableAlpn = false := by rw [hcerts.options, h.options]
  rcases hcases with ⟨-, hunread, -⟩ | ⟨hflag, context, hout⟩
  · rw [h.flag] at hunread
    cases hunread
  obtain ⟨handle, s₁, hready, hcases⟩ := connectWithCerts_cases hout
  rcases hcases with ⟨halpn, -⟩ | ⟨-, s₂, hattempts, hconclude⟩
  · rw [hoptions] at halpn
    cases halpn
  cases result with
  | ok =>
    rcases passes_of_attempts hattempts with hpass | hpass
    · rw [hfirst] at hpass
      cases hpass
    · rw [hsecond] at hpass
      cases hpass
  | error e =>
    cases attempts_attempted hattempts with
    | gone hframe _ _ _ =>
      cases hconclude
      refine ⟨by simp, ?_, ?_, rfl, ?_⟩
      · show s₂.certificatesReadFlag = true
        rw [hframe.certificatesReadFlag, hready.certificatesReadFlag, hflag]
      · show s₂.isConnected = false
        rw [hframe.isConnected, hready.isConnected, hcerts.isConnected, h.idle]
      · show s₂.options.enableAlpn = false
        rw [hframe.options, hready.options, hoptions]

theorem Stuck.sslInitialize (h : Stuck s) (results : InitializeResults) :
    Stuck (s.sslInitialize results).2 ∧
      ((s.sslInitialize results).1 = .ok () → trustsRoot (s.sslInitialize results).2 = false) := by
  have hflag := h.flag
  have hhandle := h.handle
  rw [OpenSSLSession.sslInitialize]
  split_ifs
  · exact ⟨h, by simp⟩
  · exact ⟨⟨h.flag, h.idle, h.handle, h.options⟩, fun _ => by simp [trustsRoot, hflag, hhandle]⟩
  · exact ⟨⟨h.flag, h.idle, h.handle, h.options⟩, by simp⟩

theorem Stuck.connect {ok : Bool} (h : Stuck w.opensslConnection) {results : WebSocketConnectResults}
    (hverifies : VerifiesPeer w (.connect results))
    (hout : w.connectInternal results = some (ok, w')) :
    ok = false ∧ Stuck w'.opensslConnection := by
  obtain ⟨hstuck, htrusts⟩ := h.sslInitialize results.tlsInitialize
  rw [VerifiesPeer] at hverifies
  rw [WebSocketTls.connectInternal] at hout
  rcases hinit : w.opensslConnection.sslInitialize results.tlsInitialize with ⟨initResult, s⟩
  rw [hinit] at hstuck htrusts hverifies hout
  cases initResult with
  | error e =>
    simp only [Option.some.injEq, Prod.mk.injEq] at hout
    obtain ⟨rfl, rfl⟩ := hout
    exact ⟨rfl, hstuck⟩
  | ok =>
    obtain ⟨hfirst, hsecond⟩ := hverifies (htrusts rfl)
    simp only at hout
    cases hconnect : s.connectInternal results.tlsConnect with
    | none => simp [hconnect] at hout
    | some out =>
      obtain ⟨tlsResult, s'⟩ := out
      obtain ⟨hne, hstuck'⟩ := hstuck.connectInternal hfirst hsecond hconnect
      cases tlsResult with
      | ok => exact absurd rfl hne
      | error e =>
        simp only [hconnect, Option.some.injEq, Prod.mk.injEq] at hout
        obtain ⟨rfl, rfl⟩ := hout
        exact ⟨rfl, hstuck'⟩

theorem Stuck.step {call : Call} (h : Stuck w.opensslConnection) (hverifies : VerifiesPeer w call)
    (hstep : step w call = some w') : Stuck w'.opensslConnection := by
  cases call with
  | connect results =>
    obtain ⟨⟨ok, w''⟩, hout, rfl⟩ := Option.map_eq_some_iff.mp hstep
    exact (h.connect hverifies hout).2
  | disconnect =>
    cases hstep
    have hsame : w.opensslConnection.disconnectInternal = w.opensslConnection := by
      rw [OpenSSLSession.disconnectInternal, h.idle]
      rfl
    show Stuck w.opensslConnection.disconnectInternal
    rw [hsame]
    exact h

/-! ### Where a failed connect leads -/

/-- A connection that does not stand has no handle. -/
structure Handleless (s : OpenSSLSession) : Prop where
  options : s.options.enableAlpn = false
  handle : s.isConnected = false → s.sslHandle = none

theorem Handleless.connectInternal (h : Handleless s) {results : TlsConnectResults}
    (hout : s.connectInternal results = some (result, t)) : Handleless t := by
  obtain ⟨s₀, hcerts, hcases⟩ := connectInternal_cases hout
  have hoptions : s₀.options.enableAlpn = false := by rw [hcerts.options, h.options]
  rcases hcases with ⟨rfl, -⟩ | ⟨-, context, hout⟩
  · refine ⟨hoptions, fun hidle => ?_⟩
    rw [hcerts.sslHandle]
    rw [hcerts.isConnected] at hidle
    exact h.handle hidle
  obtain ⟨handle, s₁, hready, hcases⟩ := connectWithCerts_cases hout
  rcases hcases with ⟨halpn, -⟩ | ⟨-, s₂, hattempts, hconclude⟩
  · rw [hoptions] at halpn
    cases halpn
  cases attempts_attempted hattempts with
  | kept hframe =>
    cases hconclude
    refine ⟨?_, fun hidle => by simp at hidle⟩
    show s₂.options.enableAlpn = false
    rw [hframe.options, hready.options, hoptions]
  | gone hframe =>
    cases hconclude
    refine ⟨?_, fun _ => rfl⟩
    show s₂.options.enableAlpn = false
    rw [hframe.options, hready.options, hoptions]

theorem Handleless.disconnectInternal (h : Handleless s) : Handleless s.disconnectInternal := by
  refine ⟨by rw [options_disconnectInternal, h.options], fun _ => ?_⟩
  have hhandle := h.handle
  rw [OpenSSLSession.disconnectInternal]
  by_cases hconnected : s.isConnected = true
  · simp only [hconnected, not_true_eq_false, if_false]
    cases hs : s.sslHandle with
    | none => simp [hs]
    | some handle => rfl
  · rw [if_pos hconnected]
    exact hhandle (by simpa using hconnected)

theorem Handleless.sslInitialize (h : Handleless s) (results : InitializeResults) :
    Handleless (s.sslInitialize results).2 := by
  rw [OpenSSLSession.sslInitialize]
  split_ifs
  · exact h
  · exact ⟨h.options, h.handle⟩
  · exact ⟨h.options, h.handle⟩

theorem Handleless.step {call : Call} (h : Handleless w.opensslConnection)
    (hstep : step w call = some w') : Handleless w'.opensslConnection := by
  cases call with
  | disconnect =>
    cases hstep
    exact h.disconnectInternal
  | connect results =>
    obtain ⟨⟨ok, w''⟩, hout, rfl⟩ := Option.map_eq_some_iff.mp hstep
    have hready := h.sslInitialize results.tlsInitialize
    rw [WebSocketTls.connectInternal] at hout
    rcases hinit : w.opensslConnection.sslInitialize results.tlsInitialize with ⟨initResult, s⟩
    rw [hinit] at hready hout
    cases initResult with
    | error e =>
      cases hout
      exact hready
    | ok =>
      simp only at hout
      cases hconnect : s.connectInternal results.tlsConnect with
      | none => simp [hconnect] at hout
      | some out =>
        obtain ⟨tlsResult, s'⟩ := out
        have hlast := hready.connectInternal hconnect
        simp only [hconnect] at hout
        cases tlsResult with
        | error e =>
          cases hout
          exact hlast
        | ok =>
          simp only at hout
          split_ifs at hout <;> cases hout <;> exact hlast

theorem Reached.handleless {serverVerificationFlag : Bool} (h : Reached serverVerificationFlag w) :
    Handleless w.opensslConnection :=
  h.invariant (P := fun w => Handleless w.opensslConnection) ⟨rfl, fun _ => rfl⟩
    fun _ _ _ hs _ hstep => hs.step hstep

/-- A connect that has read the certificates and then fails with the TLS connection down is the
last one that could have succeeded: whatever is called after it, and whatever the network does,
none succeeds again. -/
theorem never_connects_again {serverVerificationFlag ok : Bool} {results later : WebSocketConnectResults}
    {v : WebSocketTls} (h : Reached serverVerificationFlag w)
    (hverifies : VerifiesPeer w (.connect results))
    (hout : w.connectInternal results = some (false, w'))
    (hread : w'.opensslConnection.certificatesReadFlag = true)
    (hidle : w'.opensslConnection.isConnected = false) (hlater : Reachable step VerifiesPeer w' u)
    (hagain : VerifiesPeer u (.connect later)) (hout' : u.connectInternal later = some (ok, v)) :
    ok = false ∧ v.opensslConnection.isConnected = false := by
  have hreached : Reached serverVerificationFlag w' :=
    h.tail hverifies (Option.map_eq_some_iff.mpr ⟨_, hout, rfl⟩)
  have hhandleless := hreached.handleless
  have hstuck : Stuck w'.opensslConnection :=
    ⟨hread, hidle, hhandleless.handle hidle, hhandleless.options⟩
  have hstill : Stuck u.opensslConnection :=
    hlater.invariant (P := fun w => Stuck w.opensslConnection) hstuck
      fun _ _ _ hs hverify hstep => hs.step hverify hstep
  obtain ⟨hfails, hlast⟩ := hstill.connect hagain hout'
  exact ⟨hfails, hlast.idle⟩

/-- The host is not reached, the connection is closed, and then a host that is reached shows a
certificate that does not pass. -/
theorem never_connects_again_unreached : ∃ w' u v : WebSocketTls,
    (create true).connectInternal ⟨⟨1, true⟩, ⟨⟨true, true, true⟩, 0,
      ⟨true, [-1], 0, 0, [], false, false⟩, ⟨true, [-1], 0, 0, [], false, false⟩⟩, true, 0⟩ =
        some (false, w') ∧ step w' .disconnect = some u ∧
    ∃ ok, u.connectInternal ⟨⟨1, true⟩, ⟨⟨true, true, true⟩, 0,
      ⟨true, [0], 0, 0, [.error], false, true⟩, ⟨true, [0], 0, 0, [.error], false, true⟩⟩, true, 0⟩ =
        some (ok, v) ∧ ok = false ∧ v.opensslConnection.isConnected = false := by
  have hrun : ∃ w' u v : WebSocketTls,
      (create true).connectInternal ⟨⟨1, true⟩, ⟨⟨true, true, true⟩, 0,
        ⟨true, [-1], 0, 0, [], false, false⟩, ⟨true, [-1], 0, 0, [], false, false⟩⟩, true, 0⟩ =
          some (false, w') ∧ w'.opensslConnection.certificatesReadFlag = true ∧
      w'.opensslConnection.isConnected = false ∧ step w' .disconnect = some u ∧
      ∃ ok, u.connectInternal ⟨⟨1, true⟩, ⟨⟨true, true, true⟩, 0,
        ⟨true, [0], 0, 0, [.error], false, true⟩, ⟨true, [0], 0, 0, [.error], false, true⟩⟩, true, 0⟩ =
          some (ok, v) := ⟨_, _, _, rfl, rfl, rfl, rfl, _, rfl⟩
  obtain ⟨w', u, v, hout, hread, hidle, hstep, ok, hout'⟩ := hrun
  refine ⟨w', u, v, hout, hstep, ok, hout', ?_⟩
  exact never_connects_again (.refl : Reached true (create true)) (fun _ => ⟨rfl, rfl⟩) hout hread
    hidle (.tail (m := .disconnect) .refl trivial hstep) (fun _ => ⟨rfl, rfl⟩) hout'

end WebSocketTls

end AwsIotSdk
