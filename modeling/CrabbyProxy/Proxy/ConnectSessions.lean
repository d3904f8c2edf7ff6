import CrabbyProxy.Proxy.RequestLine

/-!
# CONNECT tunnels

The tunnel of a CONNECT request carries the payload, no more and no less, when
the buffered reads that bring the request line end with the request head.
-/

namespace CrabbyProxy.Proxy

open CrabbyProxy.Stream
set_option autoImplicit false

/-- A request head whose URL the proxy accepts, with header lines of any kind. -/
structure ConnectHead extends RequestLine where
  headers : List (List UInt8)
  target : ProxyTarget
  connect : method = "CONNECT"
  accepted : parseConnectTarget url = .ok target

namespace ConnectHead

variable (head : ConnectHead)

def bytes : List UInt8 :=
  head.toRequestLine.bytes ++ (head.headers.flatMap (· ++ [0x0d, 0x0a]) ++ [0x0d, 0x0a])

theorem lineTarget_bytes : lineTarget head.toRequestLine.bytes = .ok head.target := by
  rw [head.toRequestLine.lineTarget_bytes, if_pos head.connect, head.accepted]

end ConnectHead

variable {env : Environment} {state : AppState} {payload : List UInt8}

theorem handleClient_connect_iff (hCreds : state.requireCreds = false) (head : ConnectHead)
    {client : ClientStream} (hPlain : client.transport = .plain) (hClient : Steady client)
    (hTls : detectProtocol (fill 4 (glance 4 client).1) ≠ .https)
    (hHttp : sessionProtocol client = .http)
    (hContent : client.input.content = head.bytes ++ payload)
    (hReach : Reachable env head.target.host head.target.port)
    (hTurns : FairFor env client.input.content.length) :
    (handleClient env state client).Delivers head.target.host head.target.port payload ↔
      lineCover (parsed client) = head.bytes.length := by
  have hCover := lineCover_le (parsed client)
  rw [content_parsed, hContent, List.length_append] at hCover
  have hLine : lineOf 0x0a (head.bytes ++ payload) = head.toRequestLine.bytes := by
    rw [ConnectHead.bytes, List.append_assoc]
    exact head.toRequestLine.lineOf_bytes _
  rw [handleClient_http_delivers_iff hCreds hPlain hClient hTls hHttp hReach hTurns, hContent,
    hLine, head.lineTarget_bytes]
  constructor
  · rintro ⟨_, hRest⟩
    have hLength := congrArg List.length hRest
    rw [List.length_drop, List.length_append] at hLength
    omega
  · intro hEnd
    refine ⟨rfl, ?_⟩
    rw [hEnd]
    exact List.drop_left

/-- A head in the first segment is taken for HTTP. -/
theorem ConnectHead.detected (head : ConnectHead) {segments : List (List UInt8)}
    (output : Outbound) (hBytes : segments.flatten = head.bytes ++ payload)
    (hFirst : 4 ≤ (segments.headD []).length) :
    detectProtocol (fill 4 (glance 4 (plainClient segments output)).1) ≠ .https ∧
      sessionProtocol (plainClient segments output) = .http := by
  rw [ConnectHead.bytes, List.append_assoc] at hBytes
  obtain ⟨magic, hMagic, hPrefix⟩ := head.toRequestLine.magic_isPrefix (_ ++ payload)
  rw [← hBytes] at hPrefix
  obtain ⟨hDetected, hHttp⟩ := http_of_first_segment output hMagic hPrefix hFirst
  exact ⟨by rw [hDetected]; nofun, hHttp⟩

/-- The tunnel carries exactly the payload if and only if the reads that bring
the request line stop at the end of the head. -/
theorem connect_delivers_iff (hCreds : state.requireCreds = false) (head : ConnectHead)
    {segments : List (List UInt8)} {output : Outbound}
    (hBytes : segments.flatten = head.bytes ++ payload)
    (hFirst : 4 ≤ (segments.headD []).length) (hOpen : output.Open)
    (hCloses : output.closes = true) (hReach : Reachable env head.target.host head.target.port)
    (hTurns : FairFor env segments.flatten.length) :
    (handleClient env state (plainClient segments output)).Delivers head.target.host
        head.target.port payload ↔
      lineCover (parsed (plainClient segments output)) = head.bytes.length := by
  obtain ⟨hTls, hHttp⟩ := head.detected output hBytes hFirst
  rw [← content_plainClient segments output] at hBytes hTurns
  exact handleClient_connect_iff hCreds head rfl (steady_plainClient hOpen hCloses) hTls hHttp
    hBytes hReach hTurns

/-- `CONNECT a:80 HTTP/1.1` without header lines. -/
def plainConnect : ConnectHead where
  method := "CONNECT"
  url := "a:80"
  version := "HTTP/1.1"
  headers := []
  target := ⟨"a", 80⟩
  connect := rfl
  method_known := by decide
  url_ne := by decide
  url_token := Text.not_isWhitespace_of_all (by decide)
  version_line := http11_line
  accepted := by decide

theorem connect_delivers_iff_paused :
    (handleClient (quietWorld 56) ⟨false, none, none, none⟩
      (plainClient [plainConnect.bytes, [], [], [104, 105]] .fresh)).Delivers "a" 80 [104, 105] ↔
    lineCover (parsed (plainClient [plainConnect.bytes, [], [], [104, 105]] .fresh)) =
      plainConnect.bytes.length :=
  connect_delivers_iff rfl plainConnect (by decide) (by decide) Outbound.open_fresh
    rfl (reachable_quietWorld _ _ _) (fairFor_quietWorld 27)

/-- Payload that arrives together with the head is lost. -/
theorem connect_loses_payload :
    ¬∀ env state head payload segments output, AppState.requireCreds state = false →
      segments.flatten = ConnectHead.bytes head ++ payload →
      4 ≤ (segments.headD []).length → Outbound.Open output → output.closes = true →
      Reachable env head.target.host head.target.port → FairFor env segments.flatten.length →
      (handleClient env state (plainClient segments output)).Delivers head.target.host
        head.target.port payload := by
  intro hAll
  let segments := [plainConnect.bytes ++ [104, 105]]
  have hBytes : segments.flatten = plainConnect.bytes ++ [104, 105] := by decide
  have hFirst : 4 ≤ (segments.headD []).length := by decide
  have hDelivers := hAll (quietWorld 56) ⟨false, none, none, none⟩ plainConnect [104, 105]
    segments .fresh rfl hBytes hFirst rfl rfl (reachable_quietWorld _ _ _)
    (fairFor_quietWorld 27)
  obtain ⟨hTls, hHttp⟩ := plainConnect.detected .fresh hBytes hFirst
  rw [← content_plainClient segments .fresh] at hBytes
  have hCover := (handleClient_connect_iff rfl plainConnect rfl
    (steady_freshClient _) hTls hHttp hBytes
    (reachable_quietWorld _ _ _) (fairFor_quietWorld 27)).mp hDelivers
  exact absurd hCover (by decide)

end CrabbyProxy.Proxy
