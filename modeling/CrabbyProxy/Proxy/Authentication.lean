import CrabbyProxy.AppState
import CrabbyProxy.Proxy.Targets

/-!
# Authentication

One step per protocol, in front of the part that connects to targets.
-/

namespace CrabbyProxy.Proxy

open CrabbyProxy.Stream
set_option autoImplicit false

def validateCredentials (username password : String) (state : AppState) : Bool :=
  match state.username, state.password with
  | some expectedUsername, some expectedPassword =>
    Text.asBytes expectedUsername == Text.asBytes username &&
      Text.asBytes expectedPassword == Text.asBytes password
  | _, _ => false

def validateAuthHeader (env : Environment) (authHeader : String) (state : AppState) :
    Except String Unit :=
  if Text.startsWith authHeader "Basic " then
    match env.decode (String.ofList (authHeader.toList.drop 6)) with
    | none => .error "Invalid base64 encoding"
    | some decoded =>
      match Text.fromUtf8 decoded with
      | none => .error "Invalid UTF-8 in credentials"
      | some credentials =>
        match Text.splitn2 credentials ':' with
        | username :: password :: _ =>
          if validateCredentials username password state then .ok ()
          else .error "Invalid credentials"
        | [_] => .error "Missing password"
        | [] => .error "Missing username"
  else .error "Unsupported authentication method"

def extractProxyAuthHeader (env : Environment) (requestData : String) : Option String :=
  (Text.lines requestData).findSome? fun line =>
    if Text.startsWith (env.caseTable.toLowercase line) "proxy-authorization:" then
      some (Text.trim (Text.trimStartMatches line "Proxy-Authorization:"))
    else none

def sendHttpAuthRequiredResponse : ClientProgram Unit :=
  writeAll (Text.asBytes ("HTTP/1.1 407 Proxy Authentication Required\r\n" ++
    "Proxy-Authenticate: Basic realm=\"Proxy\"\r\n" ++ "Content-Length: 0\r\n" ++
    "Connection: close\r\n" ++ "\r\n"))

/-- Whether the first header found in the request carries the credentials. -/
def headerGrants (env : Environment) (state : AppState) (requestData : String) : Bool :=
  match extractProxyAuthHeader env requestData with
  | some authHeader => (validateAuthHeader env authHeader state).isOk
  | none => false

def authenticateHttpOrHttps (env : Environment) (state : AppState) : ClientProgram Bool := do
  let buffer ← peekEquivalent 4096
  if buffer = [] then throw (.boxed "Connection closed by client")
  else if headerGrants env state (Text.fromUtf8Lossy buffer) then pure true
  else do
    let _ ← attempt sendHttpAuthRequiredResponse
    throw (.boxed "HTTP authentication required")

def validateSocks4UserId (userId : String) (state : AppState) : Bool :=
  match state.username with
  | some expectedUsername => Text.asBytes expectedUsername == Text.asBytes userId
  | none => false

def authenticateSocks4 (state : AppState) : ClientProgram Bool := do
  let requestBuf ← readExact 8
  if requestBuf.get 0 ≠ 0x04 then throw (.boxed "Invalid SOCKS4 version")
  else if state.requireCreds then do
    let userId ← readUserId
    if validateSocks4UserId ((Text.fromUtf8 userId).getD "") state then pure true
    else do
      writeAll [0x00, 0x5b, 0x00, 0x00, 0x00, 0x00, 0x00, 0x00]
      throw (.boxed "SOCKS4 authentication failed")
  else pure false

/-- The username and password message and the answer to it. -/
def authenticateSocks5Login (state : AppState) : ClientProgram Bool := do
  writeAll [0x05, 0x02]
  let authBuf ← readExact 2
  if authBuf.get 0 ≠ 0x01 then throw (.boxed "Unsupported SOCKS5 auth version")
  else do
    let usernameBuf ← readExact (authBuf.get 1).toNat
    let passLenBuf ← readExact 1
    let passwordBuf ← readExact (passLenBuf.get 0).toNat
    let username ← okOr (Text.fromUtf8 usernameBuf.toList)
      (.boxed (Text.utf8ErrorText usernameBuf.toList))
    let password ← okOr (Text.fromUtf8 passwordBuf.toList)
      (.boxed (Text.utf8ErrorText passwordBuf.toList))
    if validateCredentials username password state then do
      writeAll [0x01, 0x00]
      pure true
    else do
      writeAll [0x01, 0x01]
      throw (.boxed "SOCKS5 authentication failed")

def authenticateSocks5 (state : AppState) : ClientProgram Bool := do
  let handshakeBuf ← readExact 2
  if handshakeBuf.get 0 ≠ 0x05 then throw (.boxed "Invalid SOCKS version")
  else do
    let methodsBuf ← readExact (handshakeBuf.get 1).toNat
    if state.requireCreds ∧ methodsBuf.toList.contains 0x02 then authenticateSocks5Login state
    else if state.requireCreds then do
      writeAll [0x05, 0xff]
      throw (.boxed "SOCKS5 authentication required but not supported by client")
    else do
      writeAll [0x05, 0x00]
      pure false

def authenticateByProtocol (env : Environment) (state : AppState) :
    ProxyProtocol → ClientProgram Bool
  | .http | .https => authenticateHttpOrHttps env state
  | .socks5 => authenticateSocks5 state
  | .socks4 => authenticateSocks4 state
  | .tcp => pure false

end CrabbyProxy.Proxy
