import CrabbyProxy.Proxy.Relay

/-!
# The configuration and the outside world

What the proxy is configured with, and what it calls that is not its own: TLS,
base64, the case table of Unicode, the network and the scheduler.
-/

namespace CrabbyProxy

open CrabbyProxy.Stream CrabbyProxy.Proxy
set_option autoImplicit false

/-- The decrypted side of a TLS session. -/
structure TlsStream where
  peerAddr : Bool
  input : Inbound
  output : Outbound

def TlsStream.toClientStream (tls : TlsStream) : ClientStream :=
  ⟨.tls tls.peerAddr, tls.input, tls.output, false⟩

structure TlsAcceptor where
  accept : ClientStream → Except IoError TlsStream

structure AppState where
  requireCreds : Bool
  username : Option String
  password : Option String
  tlsAcceptor : Option TlsAcceptor

inductive Connecting where
  | connected (target : TargetStream)
  | refused (error : IoError)
  | timedOut

structure Environment where
  caseTable : Text.CaseTable
  /-- The decoder of the `STANDARD` base64 engine. -/
  decode : String → Option (List UInt8)
  connect : String → UInt16 → Connecting
  /-- The order in which the two copy loops of a tunnel get their turns. -/
  schedule : List Direction

end CrabbyProxy
