import CrabbyProxy.Proxy.Protocol

/-!
# What the proxy answers in its own name
-/

namespace CrabbyProxy.Proxy

open CrabbyProxy.Stream
set_option autoImplicit false

inductive ErrorType where
  | handshake
  | connection
  | response
  | timeout
  | tunnel
  deriving DecidableEq

def sendHttpConnectResponse : ClientProgram Unit :=
  writeAll (Text.asBytes "HTTP/1.1 200 OK\r\n\r\n")

def sendSocks4Response (success : Bool) : ClientProgram Unit :=
  writeAll (if success then [0x00, 0x5a, 0x00, 0x00, 0x00, 0x00, 0x00, 0x00]
    else [0x00, 0x5b, 0x00, 0x00, 0x00, 0x00, 0x00, 0x00])

def sendSocks5Response (success : Bool) : ClientProgram Unit :=
  writeAll (if success then [0x05, 0x00, 0x00, 0x01, 0x00, 0x00, 0x00, 0x00, 0x00, 0x00]
    else [0x05, 0x01, 0x00, 0x01, 0x00, 0x00, 0x00, 0x00, 0x00, 0x00])

def sendSuccessResponse : ProxyProtocol → ClientProgram Unit
  | .http => sendHttpConnectResponse
  | .socks4 => sendSocks4Response true
  | .socks5 => sendSocks5Response true
  | .tcp | .https => pure ()

def sendErrorResponse : ProxyProtocol → ErrorType → ClientProgram Unit
  | .http, .handshake => writeAll (Text.asBytes "HTTP/1.1 400 Bad Request\r\n\r\n")
  | .http, .connection => writeAll (Text.asBytes "HTTP/1.1 502 Bad Gateway\r\n\r\n")
  | .http, .timeout => writeAll (Text.asBytes "HTTP/1.1 504 Gateway Timeout\r\n\r\n")
  | .socks4, _ => sendSocks4Response false
  | .socks5, _ => sendSocks5Response false
  | _, _ => pure ()

theorem denotes_sendSuccessResponse (deadline : Bool) (protocol : ProxyProtocol) :
    ∃ reply, Denotes deadline (sendSuccessResponse protocol)
      (fun taken replied _ => taken = [] ∧ replied = reply) := by
  cases protocol with
  | http | socks4 | socks5 => exact ⟨_, Denotes.writeAll _⟩
  | tcp | https =>
    refine ⟨[], (Denotes.pure ()).congr fun taken replied a => ?_⟩
    simp

end CrabbyProxy.Proxy
