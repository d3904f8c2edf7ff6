import CrabbyProxy.Proxy.Listener
import CrabbyProxy.Proxy.Logins

/-!
# The authentication gate

When credentials are required, no run connects anywhere unless the bytes that
the authentication step saw carry the configured credentials.
-/

namespace CrabbyProxy.Proxy

open CrabbyProxy.Stream
set_option autoImplicit false

variable {env : Environment} {state : AppState} {protocol : ProxyProtocol}

theorem detectClientProtocol_ok {client after : ClientStream}
    (h : detectClientProtocol client = .ok protocol after) :
    ∃ input, after = { client with input := input } ∧
      input.content = client.input.content := by
  obtain ⟨outcome, st, hPeek, hRest⟩ := bind_eq_ok.mp h
  have hAfter : after = st := by
    split at hRest <;> cases hRest <;> rfl
  rw [hAfter]
  exact timeout_peek_ok hPeek

theorem upgrade_ok {st st' : ClientStream} {u : Unit} (h : upgrade state protocol st = .ok u st') :
    if protocol = .https then ∃ acceptor tls, state.tlsAcceptor = some acceptor ∧
      acceptor.accept st = .ok tls ∧ st' = tls.toClientStream
    else st' = st := by
  unfold upgrade at h
  split at h
  · rename_i hHttps
    rw [if_pos hHttps]
    split at h
    · rename_i acceptor hAcceptor
      split at h
      · rename_i tls hTls
        cases h
        exact ⟨acceptor, tls, hAcceptor, hTls, rfl⟩
      · cases h
    · cases h
  · rename_i hPlain
    rw [if_neg hPlain]
    cases h
    rfl

/-- The stream that the authentication step runs on, with the protocol that the client was
taken for: the client's own once detection has looked at it, or what TLS decrypts from that. -/
def Presents (state : AppState) (client : ClientStream) (protocol : ProxyProtocol)
    (stream : ClientStream) : Prop :=
  ∃ input, detectClientProtocol client = .ok protocol { client with input := input } ∧
    input.content = client.input.content ∧
    if protocol = .https then ∃ acceptor tls, state.tlsAcceptor = some acceptor ∧
      acceptor.accept { client with input := input } = .ok tls ∧ stream = tls.toClientStream
    else stream = { client with input := input }

theorem presents_of_upgrade {client detected stream : ClientStream} {u : Unit}
    (hDetect : detectClientProtocol client = .ok protocol detected)
    (hUpgrade : upgrade state protocol detected = .ok u stream) :
    Presents state client protocol stream := by
  obtain ⟨input, rfl, hContent⟩ := detectClientProtocol_ok hDetect
  exact ⟨input, hDetect, hContent, upgrade_ok hUpgrade⟩

/-- What the authentication step took or saw on its way from one stream to the other. -/
def Evidence (env : Environment) (state : AppState) (username : String)
    (before after : ClientStream) : ProxyProtocol → Prop
  | .http | .https => ∃ password seen, state.password = some password ∧
      peekEquivalent 4096 before = .ok seen after ∧ seen.length ≤ 4096 ∧
      seen <+: before.input.content ∧ HttpLogin env username password seen
  | .socks5 => ∃ password seen, state.password = some password ∧
      before.input.content = seen ++ after.input.content ∧ Socks5Login username password seen
  | .socks4 => ∃ seen, before.input.content = seen ++ after.input.content ∧
      Socks4Login username seen
  | .tcp => False

theorem peekEquivalent_ok {n : Nat} {st st' : ClientStream} {bytes : List UInt8}
    (h : peekEquivalent n st = .ok bytes st') :
    bytes.length ≤ n ∧ bytes <+: st.input.content := by
  unfold peekEquivalent at h
  split at h
  · have hPrefix := st.input.peek_isPrefix st.timed n
    have hLength : (st.input.peek st.timed n).2.1.length ≤ n := st.input.length_read_le st.timed n
    unfold peek received at h
    split at h <;> rename_i heq <;> cases h
    · rw [heq] at hPrefix hLength
      exact ⟨hLength, hPrefix⟩
    · exact ⟨Nat.zero_le _, List.nil_prefix⟩
  · obtain ⟨hLength, hContent, _⟩ := read_eq_ok h
    exact ⟨hLength, _, hContent.symm⟩
  · cases h

theorem authenticateHttpOrHttps_ok {before after : ClientStream} {granted : Bool}
    (h : authenticateHttpOrHttps env state before = .ok granted after) :
    ∃ username password seen, state.username = some username ∧ state.password = some password ∧
      peekEquivalent 4096 before = .ok seen after ∧ HttpLogin env username password seen := by
  obtain ⟨seen, st, hPeek, hRest⟩ := bind_eq_ok.mp h
  split at hRest
  · cases hRest
  · split at hRest
    · rename_i hGrants
      cases hRest
      obtain ⟨username, password, hUsername, hPassword, hLogin⟩ := headerGrants_login hGrants
      exact ⟨username, password, seen, hUsername, hPassword, hPeek, hLogin⟩
    · obtain ⟨_, _, _, hThrow⟩ := bind_eq_ok.mp hRest
      cases hThrow

theorem authenticateByProtocol_ok (hCreds : state.requireCreds = true)
    {before after : ClientStream}
    (h : authenticateByProtocol env state protocol before = .ok true after) :
    ∃ username, state.username = some username ∧
      Evidence env state username before after protocol := by
  cases protocol with
  | tcp => cases h
  | http | https =>
    obtain ⟨username, password, seen, hUsername, hPassword, hPeek, hLogin⟩ :=
      authenticateHttpOrHttps_ok h
    obtain ⟨hLength, hPrefix⟩ := peekEquivalent_ok hPeek
    exact ⟨username, hUsername, password, seen, hPassword, hPeek, hLength, hPrefix, hLogin⟩
  | socks4 =>
    obtain ⟨seen, _, ⟨_, _, username, hUsername, hLogin⟩, hContent, _⟩ :=
      (@denotes_authenticateSocks4 false _ hCreds).sound h
    exact ⟨username, hUsername, seen, hContent, hLogin⟩
  | socks5 =>
    obtain ⟨seen, _, ⟨_, _, username, password, hUsername, hPassword, hLogin⟩, hContent, _⟩ :=
      (@denotes_authenticateSocks5 false _ hCreds).sound h
    exact ⟨username, hUsername, password, seen, hPassword, hContent, hLogin⟩

/-- A client is admitted on the stream it presents, by the authentication step of its protocol
if there has to be one. -/
theorem admitClient_ok {client after : ClientStream}
    (h : admitClient env state client = .ok protocol after) :
    ∃ before, Presents state client protocol before ∧
      if state.requireCreds = true then
        authenticateByProtocol env state protocol before = .ok true after
      else after = before := by
  obtain ⟨found, detected, hDetect, hRest⟩ := bind_eq_ok.mp h
  obtain ⟨_, before, hUpgrade, hAuth⟩ := bind_eq_ok.mp hRest
  have hPresents := presents_of_upgrade hDetect hUpgrade
  by_cases hCreds : state.requireCreds = true
  · rw [if_pos hCreds] at hAuth
    obtain ⟨granted, st, hGranted, hEnd⟩ := bind_eq_ok.mp hAuth
    cases granted with
    | true =>
      cases hEnd
      exact ⟨before, hPresents, by rwa [if_pos hCreds]⟩
    | false => cases hEnd
  · rw [if_neg hCreds] at hAuth
    cases hAuth
    exact ⟨after, hPresents, by rw [if_neg hCreds]⟩

/-- Every run that gets past authentication has presented the configured username, with the
configured password where the protocol carries one. -/
theorem authentication_gate (hCreds : state.requireCreds = true) {client : ClientStream}
    {session : Session} (hServed : handleClient env state client = .served session) :
    ∃ username protocol before after, state.username = some username ∧
      Presents state client protocol before ∧
      Evidence env state username before after protocol ∧
      admitClient env state client = .ok protocol after ∧
      session = answerFailure (asyncHandleClient env after) := by
  unfold handleClient at hServed
  split at hServed
  · cases hServed
  · rename_i protocol after hAdmit
    obtain ⟨before, hPresents, hAuth⟩ := admitClient_ok hAdmit
    rw [if_pos hCreds] at hAuth
    obtain ⟨username, hUsername, hEvidence⟩ := authenticateByProtocol_ok hCreds hAuth
    exact ⟨username, protocol, before, after, hUsername, hPresents, hEvidence, hAdmit,
      (Handled.served.inj hServed).symm⟩

theorem authentication_gate_socks4_user :
    ∃ env state client session, AppState.requireCreds state = true ∧
      handleClient env state client = .served session ∧
      ∃ username protocol before after, state.username = some username ∧
        Presents state client protocol before ∧
        Evidence env state username before after protocol ∧
        admitClient env state client = .ok protocol after ∧
        session = answerFailure (asyncHandleClient env after) := by
  let env : Environment := ⟨default, fun _ => none, fun _ _ => .timedOut, []⟩
  let state : AppState := ⟨true, some "u", none, none⟩
  let client : ClientStream := ⟨.plain, .ofSegments [[4, 1, 0, 80, 127], [0, 0, 1, 117, 0]],
    ⟨[], [], none, true, false⟩, false⟩
  cases hServed : handleClient env state client with
  | served session =>
    exact ⟨env, state, client, session, rfl, hServed, authentication_gate rfl hServed⟩
  | refused fault st =>
    have hAdmitted : (match handleClient env state client with
      | .served _ => true
      | .refused _ _ => false) = true := by decide
    rw [hServed] at hAdmitted
    cases hAdmitted

end CrabbyProxy.Proxy
