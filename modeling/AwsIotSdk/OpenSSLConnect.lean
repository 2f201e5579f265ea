import AwsIotSdk.Ledger
import AwsIotSdk.Transition

/-! The life of a TLS connection: its context, its handle and its socket, from one connect to
the next. What the libraries return is given with each call. -/

namespace AwsIotSdk

/-- The codes that a connect ends with. -/
inductive TlsError where
  | networkTcpSetupError
  | networkTcpUnknownHost
  | networkTcpConnectError
  | networkSslInitError
  | networkSslRootCrtParseError
  | networkSslDeviceCrtParseError
  | networkSslKeyParseError
  | networkSslConnectError
  | networkSslConnectTimeoutError
  deriving DecidableEq, Repr

inductive AddressFamily where
  | inet6
  | inet
  deriving DecidableEq, Repr

/-- One turn of the handshake, with what a wait for the socket returns in it. -/
inductive SslConnectTurn where
  | connected
  | wantRead (selectRetCode : Int)
  | wantWrite (selectRetCode : Int)
  | error
  deriving DecidableEq, Repr

/-- What an attempt to connect gets: a socket or none, the results of `connect` for the addresses
of the host (none of an unknown one), and so on. -/
structure AttemptResults where
  socket : Bool
  connectStatuses : List Int
  flags : Int
  setFlags : Int
  turns : List SslConnectTurn
  verifyResultOk : Bool
  peerCertificate : Bool
  deriving DecidableEq, Repr

structure LoadResults where
  verifyLocations : Bool
  certificateChainFile : Bool
  privateKeyFile : Bool
  deriving DecidableEq, Repr

structure TlsConnectResults where
  load : LoadResults
  alpnProtos : Int
  first : AttemptResults
  second : AttemptResults
  deriving DecidableEq, Repr

structure InitializeResults where
  libraryInit : Int
  contextNew : Bool
  deriving DecidableEq, Repr

structure SslContext where
  id : Nat
  caLoaded : Bool
  deriving DecidableEq, Repr

/-- `verified` is no part of the source: the handle's last attempt has ended well. -/
structure SslHandle where
  id : Nat
  context : SslContext
  checksHost : Bool
  verified : Bool
  deriving DecidableEq, Repr

structure OpenSSLOptions where
  deviceCertAndKey : Bool
  serverVerificationFlag : Bool
  enableAlpn : Bool
  deriving DecidableEq, Repr

/-- The members of the connection, and the resources of the process that it takes. -/
structure OpenSSLSession where
  options : OpenSSLOptions
  sslContext : Option SslContext
  sslHandle : Option SslHandle
  serverTcpSocketFd : Option Nat
  certificatesReadFlag : Bool
  isConnected : Bool
  addressFamily : AddressFamily
  contexts : Ledger
  handles : Ledger
  sockets : Ledger
  deriving DecidableEq, Repr

namespace OpenSSLSession

def create (options : OpenSSLOptions) : OpenSSLSession where
  options := options
  sslContext := none
  sslHandle := none
  serverTcpSocketFd := none
  certificatesReadFlag := false
  isConnected := false
  addressFamily := .inet6
  contexts := .empty
  handles := .empty
  sockets := .empty

def sslInitialize (s : OpenSSLSession) (results : InitializeResults) :
    Except TlsError Unit × OpenSSLSession :=
  if results.libraryInit < 0 then (.error .networkSslInitError, s)
  else if results.contextNew then
    (.ok (), { s with sslContext := some ⟨s.contexts.next, false⟩, contexts := s.contexts.acquire })
  else (.error .networkSslInitError, { s with sslContext := none })

def connectTCPSocket (results : AttemptResults) : Except TlsError Unit :=
  if results.connectStatuses = [] then .error .networkTcpUnknownHost
  else if results.connectStatuses.any (fun connectStatus => connectStatus ≠ -1) then .ok ()
  else .error .networkTcpConnectError

def setSocketToNonBlocking (results : AttemptResults) : Except TlsError Unit :=
  if results.flags < 0 ∨ results.setFlags < 0 then .error .networkTcpConnectError else .ok ()

/-- The loop of the handshake. It has no result while it waits for the next turn. -/
def attemptConnect : List SslConnectTurn → Option (Except TlsError Unit)
  | [] => none
  | .connected :: _ => some (.ok ())
  | .wantRead selectRetCode :: turns =>
    if selectRetCode = 0 then some (.error .networkSslConnectTimeoutError)
    else if selectRetCode = -1 then some (.error .networkSslConnectError)
    else attemptConnect turns
  | .wantWrite selectRetCode :: turns =>
    if selectRetCode = 0 then some (.error .networkSslConnectTimeoutError)
    else if selectRetCode = -1 then some (.error .networkSslConnectError)
    else attemptConnect turns
  | .error :: _ => some (.error .networkSslConnectError)

/-- The handshake, and what is asked of the handle after it, whatever it came to. -/
def verifiedConnect (results : AttemptResults) : Option (Except TlsError Unit) :=
  match setSocketToNonBlocking results with
  | .error e => some (.error e)
  | .ok () => (attemptConnect results.turns).map fun networkResponse =>
    if ¬ results.verifyResultOk then .error .networkSslConnectError
    else if ¬ results.peerCertificate then .error .networkSslConnectError
    else networkResponse

abbrev Connecting := Option (Except TlsError Unit × OpenSSLSession)

/-- An attempt takes a socket, and gives it back unless it succeeds. -/
def performSSLConnect (s : OpenSSLSession) (results : AttemptResults) : Connecting :=
  if ¬ results.socket then
    some (.error .networkTcpSetupError, { s with serverTcpSocketFd := none })
  else
    let fd := s.sockets.next
    let opened := { s with serverTcpSocketFd := some fd, sockets := s.sockets.acquire }
    let closed := { opened with sockets := opened.sockets.release fd }
    match connectTCPSocket results with
    | .error e => some (.error e, closed)
    | .ok () => (verifiedConnect results).map fun
      | .error e => (.error e, closed)
      | .ok () => (.ok (), opened)

/-- The context of the root certificate stays in it where a later certificate is refused. -/
def loadCerts (s : OpenSSLSession) (context : SslContext) (results : LoadResults) :
    Except TlsError Unit × OpenSSLSession :=
  if ¬ results.verifyLocations then (.error .networkSslRootCrtParseError, s)
  else
    let s := { s with sslContext := some { context with caLoaded := true } }
    if s.options.deviceCertAndKey ∧ ¬ results.certificateChainFile then
      (.error .networkSslDeviceCrtParseError, s)
    else if s.options.deviceCertAndKey ∧ ¬ results.privateKeyFile then
      (.error .networkSslKeyParseError, s)
    else (.ok (), { s with certificatesReadFlag := true })

/-- The handle that a connect uses: the one that is there, or a new one of the context. -/
def prepareHandle (s : OpenSSLSession) (context : SslContext) : SslHandle × OpenSSLSession :=
  match s.sslHandle with
  | some handle =>
    let handle := { handle with
      checksHost := handle.checksHost || s.options.serverVerificationFlag }
    (handle, { s with sslHandle := some handle })
  | none =>
    let handle := ⟨s.handles.next, context, s.options.serverVerificationFlag, false⟩
    (handle, { s with sslHandle := some handle, handles := s.handles.acquire })

/-- A second attempt is made with the other family, once and for all. -/
def attempts (s : OpenSSLSession) (results : TlsConnectResults) : Connecting :=
  match performSSLConnect s results.first with
  | none => none
  | some (.ok (), s) => some (.ok (), s)
  | some (.error e, s) =>
    if s.addressFamily = .inet6 then
      performSSLConnect { s with addressFamily := .inet } results.second
    else some (.error e, s)

def conclude (handle : SslHandle) : Except TlsError Unit × OpenSSLSession →
    Except TlsError Unit × OpenSSLSession
  | (.ok (), s) => (.ok (), { s with
      isConnected := true, sslHandle := some { handle with verified := true } })
  | (.error e, s) => (.error e, { s with
      sslHandle := none, handles := s.handles.release handle.id })

def connectWithCerts (s : OpenSSLSession) (context : SslContext) (results : TlsConnectResults) :
    Connecting :=
  match prepareHandle s context with
  | (handle, s) =>
    if s.options.enableAlpn ∧ results.alpnProtos ≠ 0 then some (.error .networkSslInitError, s)
    else (attempts s results).map (conclude handle)

/-- There is no result where there is no context to connect with. -/
def connectInternal (s : OpenSSLSession) (results : TlsConnectResults) : Connecting :=
  match s.sslContext with
  | none => none
  | some context =>
    if s.certificatesReadFlag then connectWithCerts s context results
    else
      match loadCerts s context results.load with
      | (.error e, s) => some (.error e, s)
      | (.ok (), s) => connectWithCerts s { context with caLoaded := true } results

def disconnectInternal (s : OpenSSLSession) : OpenSSLSession :=
  if ¬ s.isConnected then s
  else
    let freed := match s.sslHandle with
      | none => s
      | some handle => { s with sslHandle := none, handles := s.handles.release handle.id }
    { freed with
      isConnected := false
      certificatesReadFlag := false
      sockets := match s.serverTcpSocketFd with
        | none => { s.sockets with misused := s.sockets.misused + 1 }
        | some fd => s.sockets.release fd }

/-- The end of the connection: a disconnect where it still stands, and its context is freed. -/
def destroy (s : OpenSSLSession) : OpenSSLSession :=
  let s := if s.isConnected then s.disconnectInternal else s
  match s.sslContext with
  | none => s
  | some context => { s with contexts := s.contexts.release context.id }

end OpenSSLSession

end AwsIotSdk
