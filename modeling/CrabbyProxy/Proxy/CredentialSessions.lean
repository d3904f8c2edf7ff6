import CrabbyProxy.Proxy.Requests
import CrabbyProxy.Proxy.SocksLogins
import CrabbyProxy.Proxy.SocksSessions

/-!
# SOCKS sessions behind a login

Authentication reads the greeting or the whole request, and the target parser then
expects it once more. A client that logs in is served as without credentials only
if the proxy takes what follows its request for a TLS handshake with its host.
-/

namespace CrabbyProxy.Proxy

open CrabbyProxy.Stream
set_option autoImplicit false

/-- What a client sends that logs in, what it sends when it need not, and the
target of its request. -/
inductive LoginRequest (username password : String) :
    List UInt8 → List UInt8 → ProxyTarget → Prop
  | socks4 (port : UInt16) (ip : Ipv4Addr) (hUserId : 0 ∉ Text.asBytes username) :
    LoginRequest username password
      ([0x04, 0x01] ++ u16ToBeBytes port ++ ip.octets.toList ++ Text.asBytes username ++ [0x00])
      ([0x04, 0x01] ++ u16ToBeBytes port ++ ip.octets.toList ++ Text.asBytes username ++ [0x00])
      ⟨ip.toText, port⟩
  | socks5 (n : UInt8) (methods : List UInt8) (hMethods : methods.length = n.toNat)
      (hOffer : 0x02 ∈ methods) (usernameLen passwordLen : UInt8)
      (hUsername : (Text.asBytes username).length = usernameLen.toNat)
      (hPassword : (Text.asBytes password).length = passwordLen.toNat)
      {request : List UInt8} {target : ProxyTarget} (hRequest : Socks5Connect request target) :
    LoginRequest username password
      ([0x05, n] ++ methods ++ ([0x01, usernameLen] ++ Text.asBytes username ++
        ([passwordLen] ++ Text.asBytes password)) ++ request)
      ([0x05, n] ++ methods ++ request) target

def sniTarget (seen : List UInt8) : Checked ProxyTarget := do
  match ← extractSniFromTls seen with
  | some sni => pure ⟨sni, 443⟩
  | none => pure ⟨"unknown.host", 443⟩

/-- What a session sees of this stream is taken for the TLS handshake of a client
of this target. -/
def GreetsInTls (st : ClientStream) (target : ProxyTarget) : Prop :=
  detectProtocol (fill 4 (glance 4 st).1) = .https ∧
    sniTarget ((glance 4 st).2.input.peek st.timed 512).2.1 = .ok target

/-- The stream behind a SOCKS4 login with a user-id of `n` bytes: behind one look, eight bytes
at once, and then a byte at a time. -/
def behindLogin (n : Nat) (client : ClientStream) : ClientStream :=
  behind (8 :: List.replicate (n + 1) 1) (glance 4 client).2

theorem parseHttps_delivers_iff {st : ClientStream} (hPlain : st.transport = .plain)
    (hCalm : st.input.Calm) {target : ProxyTarget} :
    (∃ st', parseHttpsTargetFromStream st = .ok target st' ∧
      st'.input.content = st.input.content) ↔
      sniTarget (st.input.peek st.timed 512).2.1 = .ok target := by
  have hPeek : peekEquivalent 512 st = .ok (st.input.peek st.timed 512).2.1
      { st with input := (st.input.peek st.timed 512).2.2 } :=
    (peekEquivalent_of_plain hPlain 512).trans (peek_of_calm hCalm 512)
  have hContent := st.input.peek_content st.timed 512
  rw [parseHttpsTargetFromStream, bind_ok hPeek, sniTarget]
  cases extractSniFromTls (st.input.peek st.timed 512).2.1 with
  | error e =>
    constructor
    · rintro ⟨_, ⟨⟩, _⟩
    · rintro ⟨⟩
  | ok sni =>
    cases sni with
    | none | some sni =>
      constructor
      · rintro ⟨_, hOk, _⟩
        cases hOk
        rfl
      · intro hOk
        cases hOk
        exact ⟨_, rfl, hContent⟩

variable {env : Environment} {state : AppState} {client after : ClientStream} {host : String}
  {port : UInt16} {payload : List UInt8}

theorem admitClient_of_login (hCreds : state.requireCreds = true) (hCalm : client.input.Calm)
    {protocol : ProxyProtocol} (hDetect : detectProtocol (fill 4 (glance 4 client).1) = protocol)
    (hProtocol : protocol ≠ .https)
    (hLogin : authenticateByProtocol env state protocol (glance 4 client).2 = .ok true after) :
    admitClient env state client = .ok protocol after := by
  have hUpgrade : upgrade state protocol (glance 4 client).2 = .ok () (glance 4 client).2 :=
    if_neg hProtocol
  rw [admitClient, bind_ok (detectClientProtocol_of_calm hCalm), hDetect, bind_ok hUpgrade, hCreds,
    if_pos rfl, bind_ok hLogin]
  rfl

theorem asyncHandleClient_of_payload_iff (hPlain : after.transport = .plain)
    (hSteady : Steady after) (hContent : after.input.content = payload)
    (hReach : Reachable env host port) (hTurns : FairFor env after.input.content.length) :
    (asyncHandleClient env after).Delivers host port payload ↔ GreetsInTls after ⟨host, port⟩ := by
  rw [asyncHandleClient_delivers_iff hPlain hSteady hReach hTurns, GreetsInTls]
  by_cases hTls : detectProtocol (fill 4 (glance 4 after).1) = .https
  · rw [hTls, ← hContent, ← content_glance 4 after]
    rw [and_iff_right rfl]
    exact @parseHttps_delivers_iff (glance 4 after).2 hPlain (calm_glance hSteady.calm) _
  · constructor
    · rintro ⟨st, hParse, hRest⟩
      have hLess := parse_consumes hTls (calm_glance hSteady.calm) hParse
      rw [content_glance, hContent, hRest] at hLess
      exact absurd hLess (Nat.lt_irrefl _)
    · rintro ⟨hHttps, _⟩
      exact absurd hHttps hTls

theorem not_socks5Request_of_connect {request word rest : List UInt8} {target other : ProxyTarget}
    (h : Socks5Connect request target) (hWord : Socks5Request word other)
    (hSame : request ++ payload = word ++ rest) : False := by
  obtain ⟨reserved, addrType, hAddress, port⟩ := h
  obtain ⟨n, methods, hMethods, ⟨_, _, _, _⟩⟩ := hWord
  simp only [List.cons_append, List.nil_append, List.append_assoc, List.cons.injEq, true_and] at hSame
  obtain ⟨rfl, hSame⟩ := hSame
  obtain ⟨method, rfl⟩ := List.length_eq_one_iff.mp hMethods
  simp only [List.cons_append, List.nil_append, List.cons.injEq] at hSame
  -- the address type stands where a second request would have its version
  obtain ⟨_, rfl, _⟩ := hSame
  cases hAddress

theorem handleClient_delivers_of_entry {protocol : ProxyProtocol}
    (hAdmit : admitClient env state client = .ok protocol after) :
    (handleClient env state client).Delivers host port payload ↔
      (asyncHandleClient env after).Delivers host port payload := by
  rw [handleClient, hAdmit]
  constructor
  · rintro ⟨session, hServed, hDelivers⟩
    cases hServed
    exact answerFailure_delivers_iff.mp hDelivers
  · intro hDelivers
    exact ⟨_, rfl, answerFailure_delivers_iff.mpr hDelivers⟩

theorem admit_of_socks4 {username : String} (hCreds : state.requireCreds = true)
    (hUsername : state.username = some username) (hClient : Steady client)
    (hPlain : client.transport = .plain) {header rest : List UInt8} (hHeader : header.length = 7)
    (hNul : 0 ∉ Text.asBytes username)
    (hContent : client.input.content =
      0x04 :: header ++ Text.asBytes username ++ [0x00] ++ rest) :
    admitClient env state client =
        .ok .socks4 (behindLogin (Text.asBytes username).length client) ∧
      (behindLogin (Text.asBytes username).length client).transport = .plain ∧
      Steady (behindLogin (Text.asBytes username).length client) ∧
      (behindLogin (Text.asBytes username).length client).input.content = rest := by
  have hGlance := steady_glance (n := 4) hClient
  obtain ⟨_, hRun, hRest, _, rfl⟩ := authenticateSocks4_request hCreds (hGlance.calm.patient _)
    hHeader hNul ((content_glance 4 client).trans hContent)
  have hValid : validateSocks4UserId ((Text.fromUtf8 (Text.asBytes username)).getD "") state =
      true := by
    rw [validateSocks4UserId_iff, Text.fromUtf8_asBytes, hUsername]
    rfl
  have hGranted : authenticateSocks4 state (glance 4 client).2 =
      .ok true (behindLogin (Text.asBytes username).length client) := by
    rw [hRun, answerSocks4Login, if_pos hValid]
    rfl
  have hFramed := (@denotes_authenticateSocks4 false state hCreds).framing.ok hGranted
  exact ⟨admitClient_of_login hCreds hClient.calm
    (detectProtocol_glance hClient.calm hContent (by decide)) (by decide) hGranted,
    hFramed.transport.trans hPlain, hGlance.framed hFramed, hRest⟩

theorem admit_of_socks5 {username password : String} (hCreds : state.requireCreds = true)
    (hUsername : state.username = some username) (hPassword : state.password = some password)
    (hClient : Steady client) (hPlain : client.transport = .plain) {login rest : List UInt8}
    (hContent : client.input.content = login ++ rest)
    (hLogin : Socks5Login username password login) :
    ∃ after, admitClient env state client = .ok .socks5 after ∧ after.transport = .plain ∧
      Steady after ∧ after.timed = client.timed ∧ after.input.content = rest := by
  have hGlance := steady_glance (n := 4) hClient
  have hDenotes := @denotes_authenticateSocks5 false state hCreds
  obtain ⟨after, hRun, hRest, _⟩ := hDenotes.complete (hGlance.healthy false)
    ⟨rfl, rfl, username, password, hUsername, hPassword, hLogin⟩
    ((content_glance 4 client).trans hContent)
  obtain ⟨n, methods, usernameLen, passwordLen, _, _, _, _, rfl⟩ := hLogin
  have hFramed := hDenotes.framing.ok hRun
  refine ⟨after, ?_, hFramed.transport.trans hPlain, hGlance.framed hFramed, hFramed.timed, hRest⟩
  exact admitClient_of_login hCreds hClient.calm
    (detectProtocol_glance hClient.calm hContent (by decide)) (by decide) hRun

theorem not_delivers_of_connect {request : List UInt8} {target : ProxyTarget}
    (hPlain : after.transport = .plain) (hSteady : Steady after) (hTimed : after.timed = false)
    (hRequest : Socks5Connect request target) (hContent : after.input.content = request ++ payload)
    (hReach : Reachable env host port) (hTurns : FairFor env after.input.content.length)
    {rest : List UInt8} : ¬ (asyncHandleClient env after).Delivers host port rest := by
  have hHead : ∃ tail, after.input.content = 0x05 :: tail := by
    obtain ⟨reserved, addrType, hAddress, port⟩ := hRequest
    exact ⟨_, hContent⟩
  obtain ⟨tail, hHead⟩ := hHead
  rw [asyncHandleClient_delivers_iff hPlain hSteady hReach hTurns,
    detectProtocol_glance hSteady.calm hHead (by decide)]
  intro hDelivers
  have hOpen := (steady_glance (n := 4) hSteady).writable
  -- the parser takes the request for a greeting, and has to find another request behind it
  obtain ⟨word, hWord, hSame⟩ :=
    (@parseSocks5Target_iff _ (glance 4 after).2 hTimed hOpen _).mp hDelivers
  rw [content_glance, hContent] at hSame
  exact not_socks5Request_of_connect hRequest hWord hSame

theorem LoginRequest.open_request {username password : String} {bytes openBytes : List UInt8}
    {target : ProxyTarget} (h : LoginRequest username password bytes openBytes target) :
    Socks4Request openBytes target ∨ Socks5Request openBytes target := by
  cases h with
  | socks4 port ip hUserId => exact .inl (.connect port ip _ hUserId)
  | socks5 n methods hMethods hOffer usernameLen passwordLen hUsername hPassword hRequest =>
    exact .inr (.negotiated n methods hMethods hRequest)

theorem not_delivers_of_login {username password : String} {n : UInt8} {methods : List UInt8}
    {usernameLen passwordLen : UInt8} {request : List UInt8} {target : ProxyTarget}
    (hCreds : state.requireCreds = true) (hUsername : state.username = some username)
    (hPassword : state.password = some password) (hClient : Steady client)
    (hPlain : client.transport = .plain) (hTimed : client.timed = false)
    (hMethods : methods.length = n.toNat) (hOffer : 0x02 ∈ methods)
    (hUsernameLen : (Text.asBytes username).length = usernameLen.toNat)
    (hPasswordLen : (Text.asBytes password).length = passwordLen.toNat)
    (hRequest : Socks5Connect request target)
    (hContent : client.input.content = [0x05, n] ++ methods ++ ([0x01, usernameLen] ++
      Text.asBytes username ++ ([passwordLen] ++ Text.asBytes password)) ++ request ++ payload)
    (hReach : Reachable env host port) (hTurns : FairFor env client.input.content.length)
    {rest : List UInt8} : ¬ (handleClient env state client).Delivers host port rest := by
  rw [List.append_assoc _ request] at hContent
  obtain ⟨after, hAdmit, hPlain', hSteady, hTimed', hRest⟩ := admit_of_socks5 hCreds hUsername
    hPassword hClient hPlain hContent ⟨n, methods, usernameLen, passwordLen, hMethods, hOffer,
      hUsernameLen, hPasswordLen, rfl⟩
  rw [handleClient_delivers_of_entry hAdmit]
  refine not_delivers_of_connect hPlain' hSteady (hTimed'.trans hTimed) hRequest hRest hReach ?_
  rw [FairFor, hRest]
  rw [FairFor, hContent, List.length_append] at hTurns
  omega

/-- Without credentials the request is served. With them it is served only behind a SOCKS4
login, and only if what has arrived behind that login greets the requested host in TLS. -/
theorem login_delivers_iff {username password : String} {bytes openBytes : List UInt8}
    {target : ProxyTarget} (hRequest : LoginRequest username password bytes openBytes target)
    {env : Environment} {state : AppState} (hCreds : state.requireCreds = true)
    (hUsername : state.username = some username) (hPassword : state.password = some password)
    {payload : List UInt8} {segments openSegments : List (List UInt8)} {output : Outbound}
    (hBytes : segments.flatten = bytes ++ payload)
    (hOpenBytes : openSegments.flatten = openBytes ++ payload)
    (hOpen : output.Open) (hCloses : output.closes = true)
    (hReach : Reachable env target.host target.port)
    (hTurns : FairFor env segments.flatten.length)
    (hOpenTurns : FairFor env openSegments.flatten.length) :
    (handleClient env { state with requireCreds := false }
      (plainClient openSegments output)).Delivers target.host target.port payload ∧
    ((handleClient env state (plainClient segments output)).Delivers target.host target.port
        payload ↔
      bytes.head? = some 0x04 ∧
        GreetsInTls (behindLogin (Text.asBytes username).length (plainClient segments output))
          target) := by
  have hClient := @steady_plainClient segments output hOpen hCloses
  rw [← content_plainClient segments output] at hBytes hTurns
  rw [← content_plainClient openSegments output] at hOpenBytes hOpenTurns
  refine ⟨?_, ?_⟩
  · exact @handleClient_socks env { state with requireCreds := false } _ _ _ _ rfl rfl rfl
      (steady_plainClient hOpen hCloses) hRequest.open_request hOpenBytes hReach hOpenTurns
  cases hRequest with
  | socks4 port ip hUserId =>
    have hHeader : ([0x01] ++ u16ToBeBytes port ++ ip.octets.toList).length = 7 := by
      simp [u16ToBeBytes]
    obtain ⟨hAdmit, hPlain, hSteady, hRest⟩ :=
      @admit_of_socks4 env _ _ _ hCreds hUsername hClient rfl _ payload hHeader hUserId hBytes
    rw [handleClient_delivers_of_entry hAdmit]
    refine Iff.trans (asyncHandleClient_of_payload_iff hPlain hSteady hRest hReach ?_)
      (and_iff_right rfl).symm
    rw [FairFor, hRest]
    rw [FairFor, hBytes, List.length_append] at hTurns
    omega
  | socks5 n methods hMethods hOffer usernameLen passwordLen hUsernameLen hPasswordLen hConnect =>
    constructor
    · intro hDelivers
      exact absurd hDelivers (not_delivers_of_login hCreds hUsername hPassword hClient rfl rfl
        hMethods hOffer hUsernameLen hPasswordLen hConnect hBytes hReach hTurns)
    · rintro ⟨hHead, _⟩
      cases hHead

def greeting : List UInt8 :=
  [0x16, 3, 1, 0, 0, 0, 0, 1, 1, 1, 1, 1, 8] ++ Text.asBytes "10.0.0.1" ++ List.replicate 22 1

theorem login_delivers_iff_greeting :
    (handleClient (quietWorld 108) ⟨true, some "u", some "p", none⟩
      (plainClient [[4, 1, 1, 187, 10, 0, 0, 1, 117, 0], greeting] .fresh)).Delivers
        "10.0.0.1" 443 greeting ∧
    ¬(handleClient (quietWorld 26) ⟨true, some "u", some "p", none⟩
      (plainClient [[4, 1, 0, 22, 10, 0, 0, 1, 117, 0, 104, 105]] .fresh)).Delivers
        "10.0.0.1" 22 [104, 105] := by
  have hGreets := (@login_delivers_iff "u" "p" _ _ _ (.socks4 443 ⟨#v[10, 0, 0, 1]⟩ (by decide))
    (quietWorld 108) ⟨true, some "u", some "p", none⟩ rfl rfl rfl greeting
    [[4, 1, 1, 187, 10, 0, 0, 1, 117, 0], greeting]
    [[4, 1, 1, 187, 10, 0, 0, 1, 117, 0], greeting] .fresh rfl rfl rfl rfl
    (reachable_quietWorld _ _ _) (fairFor_quietWorld 53) (fairFor_quietWorld 53)).2
  have hSsh := (@login_delivers_iff "u" "p" _ _ _ (.socks4 22 ⟨#v[10, 0, 0, 1]⟩ (by decide))
    (quietWorld 26) ⟨true, some "u", some "p", none⟩ rfl rfl rfl [104, 105]
    [[4, 1, 0, 22, 10, 0, 0, 1, 117, 0, 104, 105]] [[4, 1, 0, 22, 10, 0, 0, 1, 117, 0, 104, 105]]
    .fresh rfl rfl rfl rfl (reachable_quietWorld _ _ _) (fairFor_quietWorld 12)
    (fairFor_quietWorld 12)).2
  refine ⟨hGreets.mpr ⟨rfl, by decide, by decide⟩, fun hDelivers => ?_⟩
  exact absurd (hSsh.mp hDelivers).2.1 (by decide)

theorem login_loses_request :
    LoginRequest "u" "p" [5, 1, 2, 1, 1, 117, 1, 112, 5, 1, 0, 1, 127, 0, 0, 1, 0, 80]
      [5, 1, 2, 5, 1, 0, 1, 127, 0, 0, 1, 0, 80] ⟨"127.0.0.1", 80⟩ ∧
    ¬ (handleClient (quietWorld 42) ⟨true, some "u", some "p", none⟩
      (plainClient [[5, 1, 2, 1, 1, 117, 1, 112, 5, 1, 0, 1, 127, 0, 0, 1, 0, 80, 104, 105]]
        .fresh)).Delivers "127.0.0.1" 80 [104, 105] := by
  have hRequest : Socks5Connect [5, 1, 0, 1, 127, 0, 0, 1, 0, 80] ⟨"127.0.0.1", 80⟩ :=
    .connect 0 1 (.ipv4 ⟨#v[127, 0, 0, 1]⟩) 80
  refine ⟨.socks5 1 [2] rfl (by decide) 1 1 rfl rfl hRequest, ?_⟩
  exact @not_delivers_of_login _ _ _ "127.0.0.1" 80 [104, 105] "u" "p" 1 [2] 1 1 _ _ rfl rfl rfl
    (steady_freshClient _) rfl rfl rfl (by decide) rfl rfl hRequest rfl
    (reachable_quietWorld _ _ _) (fairFor_quietWorld 20) _

end CrabbyProxy.Proxy
