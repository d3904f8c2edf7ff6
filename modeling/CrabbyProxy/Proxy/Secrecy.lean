import CrabbyProxy.Library.Discretion
import CrabbyProxy.Proxy.Listener

/-!
# What a client can learn about the credentials

Two proxies that are set up alike but for their credentials take the same steps with a
client, up to the point where one lets it in and the other does not.
-/

namespace CrabbyProxy.Proxy

open CrabbyProxy.Stream
set_option autoImplicit false

variable {env : Environment} {state state' : AppState}

/-- The configurations differ in their credentials at most. -/
structure SameSetup (state state' : AppState) : Prop where
  creds : state.requireCreds = true
  creds' : state'.requireCreds = true
  tls : state.tlsAcceptor = state'.tlsAcceptor

theorem http_decideAlike : DecideAlike true (authenticateHttpOrHttps env state)
    (authenticateHttpOrHttps env state') := by
  refine .bind fun buffer => .ite (.refl _) (.choose (.of_never (fun st => ⟨st, rfl⟩) ?_))
  exact DecideAlike.not_grants_bind fun _ _ ⟨_, hGrants⟩ => nomatch hGrants

theorem socks4_decideAlike (h : SameSetup state state') :
    DecideAlike true (authenticateSocks4 state) (authenticateSocks4 state') := by
  refine .bind fun requestBuf => .ite (.refl _) ?_
  rw [if_pos h.creds, if_pos h.creds']
  refine .bind fun userId => .choose (.of_never (fun st => ⟨st, rfl⟩) ?_)
  exact DecideAlike.not_grants_bind fun _ _ ⟨_, hGrants⟩ => nomatch hGrants

/-- The two answers to a login differ in their last byte only. -/
theorem login_decideAlike : DecideAlike true
    (do writeAll [0x01, 0x00]; pure true : ClientProgram Bool)
    (do writeAll [0x01, 0x01]; throw (.boxed "SOCKS5 authentication failed")) := by
  intro st hSame
  have hNever : ¬Grants true ((do
      writeAll [0x01, 0x01]; throw (.boxed "SOCKS5 authentication failed") : ClientProgram Bool)
        st) :=
    DecideAlike.not_grants_bind (fun _ _ ⟨_, hGrants⟩ => nomatch hGrants) st
  cases hWrite : (writeAll [0x01, 0x00] : ClientProgram Unit) st with
  | ok u st' =>
    refine absurd (hSame.mp ⟨st', ?_⟩) hNever
    rw [bind_ok hWrite]
    rfl
  | error e st' =>
    have hOther : (writeAll [0x01, 0x01] : ClientProgram Unit) st = .error e st' :=
      @writeAll_last _ [0x01] 0x00 0x01 st st' e hWrite
    rw [bind_error hWrite, bind_error hOther]

theorem socks5_decideAlike (h : SameSetup state state') :
    DecideAlike true (authenticateSocks5 state) (authenticateSocks5 state') := by
  refine .bind fun handshakeBuf => .ite (.refl _) (.bind fun methodsBuf => ?_)
  rw [h.creds, h.creds']
  refine .ite (.bind fun _ => .bind fun authBuf => .ite (.refl _) (.bind fun usernameBuf =>
    .bind fun passLenBuf => .bind fun passwordBuf => .bind fun username => .bind fun password =>
      .choose login_decideAlike)) (.refl _)

theorem authenticateByProtocol_decideAlike (h : SameSetup state state') (protocol : ProxyProtocol) :
    DecideAlike true (authenticateByProtocol env state protocol)
      (authenticateByProtocol env state' protocol) := by
  cases protocol with
  | tcp => exact .refl _
  | http | https => exact http_decideAlike
  | socks4 => exact socks4_decideAlike h
  | socks5 => exact socks5_decideAlike h

theorem upgrade_congr (h : state.tlsAcceptor = state'.tlsAcceptor) (protocol : ProxyProtocol) :
    upgrade state protocol = upgrade state' protocol := by
  unfold upgrade
  rw [h]

/-- The part behind the authentication step, which goes by its answer alone. -/
def admitted (protocol : ProxyProtocol) (authenticated : Bool) : ClientProgram ProxyProtocol :=
  if authenticated then pure protocol else throw (.boxed "Authentication required")

theorem admitClient_eq (hCreds : state.requireCreds = true) :
    admitClient env state = detectClientProtocol >>= fun protocol => upgrade state protocol >>=
      fun _ => authenticateByProtocol env state protocol >>= admitted protocol := by
  rw [admitClient, hCreds]
  rfl

theorem admitted_ok_iff {p : ClientProgram Bool} {protocol : ProxyProtocol} {st : ClientStream} :
    (∃ found st', (p >>= admitted protocol) st = .ok found st') ↔ Grants true (p st) := by
  constructor
  · rintro ⟨found, st', hRun⟩
    obtain ⟨authenticated, st₁, hAuth, hEnd⟩ := bind_eq_ok.mp hRun
    cases authenticated with
    | true => exact ⟨st₁, hAuth⟩
    | false => cases hEnd
  · rintro ⟨st', hGrants⟩
    exact ⟨protocol, st', by rw [bind_ok hGrants]; rfl⟩

theorem admitClient_alike (h : SameSetup state state') {client : ClientStream}
    (hSame : (∃ protocol st, admitClient env state client = .ok protocol st) ↔
      ∃ protocol st, admitClient env state' client = .ok protocol st) :
    admitClient env state client = admitClient env state' client := by
  rw [admitClient_eq h.creds, admitClient_eq h.creds'] at hSame ⊢
  cases hDetect : detectClientProtocol client with
  | error e st => rw [bind_error hDetect, bind_error hDetect]
  | ok protocol st =>
    rw [bind_ok hDetect, bind_ok hDetect, upgrade_congr h.tls] at hSame ⊢
    cases hUpgrade : upgrade state' protocol st with
    | error e st' => rw [bind_error hUpgrade, bind_error hUpgrade]
    | ok u st' =>
      rw [bind_ok hUpgrade, bind_ok hUpgrade] at hSame ⊢
      rw [admitted_ok_iff, admitted_ok_iff] at hSame
      have hAuth := authenticateByProtocol_decideAlike h protocol st' hSame
      cases hRun : authenticateByProtocol env state' protocol st' with
      | ok authenticated st₂ => rw [bind_ok (hAuth.trans hRun), bind_ok hRun]
      | error e st₂ => rw [bind_error (hAuth.trans hRun), bind_error hRun]

def Handled.letIn : Handled → Bool
  | .refused _ _ => false
  | .served _ => true

theorem letIn_iff {client : ClientStream} : (handleClient env state client).letIn = true ↔
    ∃ protocol st, admitClient env state client = .ok protocol st := by
  rw [handleClient]
  cases admitClient env state client with
  | ok protocol st => exact iff_of_true rfl ⟨_, _, rfl⟩
  | error e st =>
    refine iff_of_false Bool.false_ne_true ?_
    rintro ⟨protocol, st', hOk⟩
    cases hOk

/-- A client learns one bit about the configured credentials: whether it gets in. Two proxies
that both let it in, or both turn it away, are the same to it in everything they write and
read and in how the run ends, whatever it sends and wherever its connection breaks. -/
theorem credentials_leak_one_bit (h : SameSetup state state') {client : ClientStream}
    (hSame : (handleClient env state client).letIn = (handleClient env state' client).letIn) :
    handleClient env state client = handleClient env state' client := by
  have hAdmit := Bool.eq_iff_iff.mp hSame
  rw [letIn_iff, letIn_iff] at hAdmit
  rw [handleClient, handleClient, admitClient_alike h hAdmit]

/-- A client that knows neither of the two usernames. -/
theorem credentials_leak_one_bit_stranger :
    handleClient ⟨default, fun _ => none, fun _ _ => .timedOut, []⟩ ⟨true, some "u", none, none⟩
        ⟨.plain, .ofSegments [[4, 1, 0, 80, 127], [0, 0, 1, 120, 0]], .fresh, false⟩ =
      handleClient ⟨default, fun _ => none, fun _ _ => .timedOut, []⟩
        ⟨true, some "v", some "w", none⟩
        ⟨.plain, .ofSegments [[4, 1, 0, 80, 127], [0, 0, 1, 120, 0]], .fresh, false⟩ :=
  credentials_leak_one_bit ⟨rfl, rfl, rfl⟩ (by decide)

end CrabbyProxy.Proxy
