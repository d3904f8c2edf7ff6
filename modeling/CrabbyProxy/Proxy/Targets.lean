import CrabbyProxy.Address
import CrabbyProxy.Library.BufReader
import CrabbyProxy.Proxy.Protocol
import CrabbyProxy.Proxy.Sni

/-!
# Reading the target a client asks for

One parser per protocol. Each takes its request off the client's stream and
names the host and port to connect to.
-/

namespace CrabbyProxy.Proxy

open CrabbyProxy.Stream
set_option autoImplicit false

def parseConnectTarget (url : String) : Except IoError ProxyTarget :=
  match Text.split url ':' with
  | [host, port] =>
    match Text.parseU16 port with
    | some port => .ok ⟨host, port⟩
    | none => .error ⟨.invalidData, "Invalid port"⟩
  | _ => .error ⟨.invalidData, "Invalid CONNECT target"⟩

theorem parseConnectTarget_pair {url host portText : String} {port : UInt16}
    (hSplit : Text.split url ':' = [host, portText]) (hPort : Text.parseU16 portText = some port) :
    parseConnectTarget url = .ok ⟨host, port⟩ := by
  rw [parseConnectTarget, hSplit]
  simp only [hPort]

def parseHttpTarget (url : String) : Except IoError ProxyTarget :=
  if Text.startsWith url "http://" then
    let urlWithoutScheme := String.ofList (url.toList.drop 7)
    let parts := Text.split ((Text.split urlWithoutScheme '/').headD "") ':'
    .ok ⟨parts.headD "", match parts[1]? with
      | some port => (Text.parseU16 port).getD 80
      | none => 80⟩
  else .error ⟨.invalidData, "Invalid HTTP URL"⟩

/-- What the request line of an HTTP request names. -/
def requestLineTarget (requestLine : String) : Except IoError ProxyTarget :=
  match Text.splitWhitespace requestLine with
  | method :: url :: _ =>
    if method = "CONNECT" then parseConnectTarget url else parseHttpTarget url
  | _ => .error ⟨.invalidData, "Invalid HTTP request"⟩

/-- The buffered reader is dropped on return, with what it still holds. -/
def parseHttpTargetFromStream : ClientProgram ProxyTarget := do
  let (requestLine, _) ← BufReader.new.readLine
  liftIo (requestLineTarget requestLine)

def parseHttpsTargetFromStream : ClientProgram ProxyTarget := do
  let buf ← peekEquivalent 512
  match extractSniFromTls buf with
  | .ok (some sni) => pure ⟨sni, 443⟩
  | .ok none => pure ⟨"unknown.host", 443⟩
  | .error e => throw e

/-- Bytes up to a zero byte; each round takes one. -/
def userIdRounds : Nat → List UInt8 → ClientProgram (List UInt8)
  | 0, userId => pure userId
  | rounds + 1, userId => do
    let byte ← readExact 1
    if byte.get 0 = 0 then pure userId else userIdRounds rounds (userId ++ [byte.get 0])

def readUserId : ClientProgram (List UInt8) := fun st =>
  userIdRounds (st.input.content.length + 1) [] st

def parseSocks4Target : ClientProgram ProxyTarget := do
  let buf ← readExact 8
  if buf.get 0 ≠ 0x04 then ioError .invalidData "Invalid SOCKS4 version"
  else if buf.get 1 ≠ 0x01 then ioError .invalidData "Only CONNECT supported"
  else do
    let _ ← readUserId
    pure ⟨(Ipv4Addr.mk #v[buf.get 4, buf.get 5, buf.get 6, buf.get 7]).toText,
      u16FromBeBytes (buf.get 2) (buf.get 3)⟩

/-- The address and port of a SOCKS5 request, by address type. -/
def parseSocks5Address (addrType : UInt8) : ClientProgram ProxyTarget :=
  if addrType = 0x01 then do
    let addrBuf ← readExact 6
    pure ⟨(Ipv4Addr.mk #v[addrBuf.get 0, addrBuf.get 1, addrBuf.get 2, addrBuf.get 3]).toText,
      u16FromBeBytes (addrBuf.get 4) (addrBuf.get 5)⟩
  else if addrType = 0x03 then do
    let lenBuf ← readExact 1
    let domainBuf ← readExact (lenBuf.get 0).toNat
    let domain ← okOr (Text.fromUtf8 domainBuf.toList) (.io ⟨.invalidData, "Invalid domain"⟩)
    let portBuf ← readExact 2
    pure ⟨domain, u16FromBeBytes (portBuf.get 0) (portBuf.get 1)⟩
  else if addrType = 0x04 then do
    let addrBuf ← readExact 18
    pure ⟨(Ipv6Addr.mk (addrBuf.take 16)).toText,
      u16FromBeBytes (addrBuf.get 16) (addrBuf.get 17)⟩
  else ioError .invalidData "Unsupported address type"

def parseSocks5Target : ClientProgram ProxyTarget := do
  let buf ← readExact 2
  if buf.get 0 ≠ 0x05 then ioError .invalidData "Invalid SOCKS5 version"
  else do
    let _ ← readExact (buf.get 1).toNat
    writeAll [0x05, 0x00]
    let reqBuf ← readExact 4
    if reqBuf.get 0 ≠ 0x05 ∨ reqBuf.get 1 ≠ 0x01 then ioError .invalidData "Invalid SOCKS5 request"
    else parseSocks5Address (reqBuf.get 3)

/-- Replaces the message of an early end of file. -/
def eofMessage (message : String) : Fault → Fault
  | .io ⟨.unexpectedEof, _⟩ => .io ⟨.unexpectedEof, message⟩
  | e => e

/-- What the text of a length-prefixed target names. -/
def hostPortTarget (targetStr : String) : Except IoError ProxyTarget :=
  match Text.split targetStr ':' with
  | [host, port] =>
    match Text.parseU16 port with
    | some port => .ok ⟨host, port⟩
    | none => .error ⟨.invalidData, "Invalid port number"⟩
  | _ => .error ⟨.invalidData, "Invalid target format (expected host:port)"⟩

theorem hostPortTarget_pair {targetStr host portText : String} {port : UInt16}
    (hSplit : Text.split targetStr ':' = [host, portText])
    (hPort : Text.parseU16 portText = some port) :
    hostPortTarget targetStr = .ok ⟨host, port⟩ := by
  rw [hostPortTarget, hSplit]
  simp only [hPort]

/-- The body of `parse_target`, inside its deadline. -/
def readTarget : ClientProgram ProxyTarget := do
  let lengthBuf ← mapErr (eofMessage "Client disconnected before sending length") (readExact 2)
  let length := (u16FromBeBytes (lengthBuf.get 0) (lengthBuf.get 1)).toNat
  if length = 0 ∨ length > 1024 then ioError .invalidData "Invalid target length"
  else do
    let targetBuf ← mapErr (eofMessage
      s!"Client disconnected while sending target data (expected {length} bytes)")
      (readExact length)
    let targetStr ← okOr (Text.fromUtf8 targetBuf.toList)
      (.io ⟨.invalidData, "Invalid UTF-8 in target"⟩)
    liftIo (hostPortTarget targetStr)

def parseTarget : ClientProgram ProxyTarget :=
  timeoutOr ⟨.timedOut, "Timeout reading target"⟩ readTarget

def parseTargetByProtocol : ProxyProtocol → ClientProgram ProxyTarget
  | .http => parseHttpTargetFromStream
  | .https => parseHttpsTargetFromStream
  | .socks4 => parseSocks4Target
  | .socks5 => parseSocks5Target
  | .tcp => parseTarget

end CrabbyProxy.Proxy
