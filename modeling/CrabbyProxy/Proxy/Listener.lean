import CrabbyProxy.Proxy.Authentication
import CrabbyProxy.Proxy.Replies

/-!
# Serving one client

From the accepted connection to the end of its tunnel. A session records what
the run did: the protocol, the target, the address dialed and the tunnel.
-/

namespace CrabbyProxy.Proxy

open CrabbyProxy.Stream
set_option autoImplicit false

def detectClientProtocol : ClientProgram ProxyProtocol := do
  match ← timeout (peek 4) with
  | some (.ok bytes) => pure (detectProtocol (fill 4 bytes))
  | some (.error e) => throw e
  | none => pure .tcp

/-- HTTPS clients are upgraded to TLS. -/
def upgrade (state : AppState) (protocol : ProxyProtocol) : ClientProgram Unit := fun st =>
  if protocol = .https then
    match state.tlsAcceptor with
    | some acceptor =>
      match acceptor.accept st with
      | .ok tls => .ok () tls.toClientStream
      | .error e => .error (.io e) st
    | none => .error (.boxed "HTTPS protocol detected but no TLS configuration available") st
  else .ok () st

/-- The part of `handle_client` in front of `async_handle_client`. -/
def admitClient (env : Environment) (state : AppState) : ClientProgram ProxyProtocol := do
  let protocol ← detectClientProtocol
  upgrade state protocol
  if state.requireCreds then do
    let authenticated ← authenticateByProtocol env state protocol
    if authenticated then pure protocol else throw (.boxed "Authentication required")
  else pure protocol

/-- The protocol that `async_handle_client` goes by. -/
def chooseProtocol : ClientProgram ProxyProtocol := do
  match ← timeout (peekEquivalent 4) with
  | some (.ok bytes) => pure (detectProtocol (fill 4 bytes))
  | _ => pure .tcp

def targetAddr (target : ProxyTarget) : String := target.host ++ ":" ++ Text.portText target.port

/-- `TcpStream::connect` splits its argument at the last colon. -/
def lookupHost (addr : String) : Except IoError (String × UInt16) :=
  match Text.rsplitOnce addr ':' with
  | none => .error ⟨.invalidInput, "invalid socket address"⟩
  | some (host, port) =>
    match Text.parseU16 port with
    | some port => .ok (host, port)
    | none => .error ⟨.invalidInput, "invalid port value"⟩

structure Session where
  protocol : ProxyProtocol
  target : Option ProxyTarget
  dialed : Option (String × UInt16)
  client : ClientStream
  tunnel : Option Tunnel
  failure : Option (Fault × ErrorType)

def tunnelFailure (tunnel : Tunnel) : Option (Fault × ErrorType) :=
  match tunnel.result with
  | some (.error e) => some (.io e, .tunnel)
  | _ => none

/-- The success reply and the tunnel. -/
def openTunnel (env : Environment) (protocol : ProxyProtocol) (target : ProxyTarget)
    (address : String × UInt16) (client : ClientStream) (targetStream : TargetStream) : Session :=
  match sendSuccessResponse protocol client with
  | .error e client => ⟨protocol, some target, some address, client, none, some (e, .response)⟩
  | .ok _ client =>
    let tunnel := (Tunnel.new client targetStream).run env.schedule
    ⟨protocol, some target, some address, tunnel.client, some tunnel, tunnelFailure tunnel⟩

def connectTarget (env : Environment) (protocol : ProxyProtocol) (target : ProxyTarget)
    (client : ClientStream) : Session :=
  match lookupHost (targetAddr target) with
  | .error e => ⟨protocol, some target, none, client, none, some (.io e, .connection)⟩
  | .ok (host, port) =>
    match env.connect host port with
    | .timedOut => ⟨protocol, some target, some (host, port), client, none,
        some (.io ⟨.timedOut, "Connection timeout"⟩, .timeout)⟩
    | .refused e =>
      ⟨protocol, some target, some (host, port), client, none, some (.io e, .connection)⟩
    | .connected targetStream => openTunnel env protocol target (host, port) client targetStream

def asyncHandleClient (env : Environment) (client : ClientStream) : Session :=
  match chooseProtocol client with
  | .error e client => ⟨.tcp, none, none, client, none, some (e, .handshake)⟩
  | .ok protocol client =>
    match parseTargetByProtocol protocol client with
    | .error e client => ⟨protocol, none, none, client, none, some (e, .handshake)⟩
    | .ok target client => connectTarget env protocol target client

/-- A panic unwinds the task; a broken tunnel gets no answer. -/
def answerFailure (session : Session) : Session :=
  match session.failure with
  | none | some (.panic, _) | some (_, .tunnel) => session
  | some (_, errorType) =>
    { session with
      client := stateOf (sendErrorResponse session.protocol errorType session.client) }

inductive Handled where
  /-- `handle_client` has returned without calling `async_handle_client`. -/
  | refused (fault : Fault) (client : ClientStream)
  | served (session : Session)

def handleClient (env : Environment) (state : AppState) (client : ClientStream) : Handled :=
  match admitClient env state client with
  | .error e client => .refused e client
  | .ok _ client => .served (answerFailure (asyncHandleClient env client))

end CrabbyProxy.Proxy
