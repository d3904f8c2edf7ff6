import CrabbyProxy.Proxy.Answers

/-!
# From the client to its target

Whatever the protocol, and whether or not credentials are required, the proxy takes some
bytes off the client's stream for itself and passes on what follows.
-/

namespace CrabbyProxy.Proxy

open CrabbyProxy.Stream
set_option autoImplicit false

variable {env : Environment} {state : AppState} {client : ClientStream}

theorem framing_chooseProtocol : Framing chooseProtocol := by
  refine (framing_peekEquivalent 4).timeout.bind fun outcome => ?_
  cases outcome with
  | none => exact .pure _
  | some result => cases result <;> exact .pure _

theorem answerFailure_tunnel_eq (session : Session) :
    (answerFailure session).tunnel = session.tunnel := by
  unfold answerFailure
  split <;> rfl

def Handled.tunnel : Handled → Option Tunnel
  | .served session => session.tunnel
  | .refused _ _ => none

/-- A client of the length-prefixed protocol that goes to `a:80` and says two more bytes. -/
def shortTarget : ClientStream := plainClient [[0, 4, 97, 58, 56, 48, 104, 105]] .fresh

end CrabbyProxy.Proxy
