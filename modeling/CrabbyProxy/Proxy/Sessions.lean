import CrabbyProxy.Proxy.Listener
import CrabbyProxy.Proxy.LengthPrefix
import CrabbyProxy.Proxy.SocksGrammar

/-!
# Plain sessions

Over plain TCP with a steady client and a reachable target, a session comes down
to what the target parser returns and what it leaves unread: that is where the
proxy connects, and that is what it sends there.
-/

namespace CrabbyProxy.Proxy

open CrabbyProxy.Stream
set_option autoImplicit false

/-- The session connects to this address and sends its peer exactly these bytes. -/
def Session.Delivers (session : Session) (host : String) (port : UInt16) (payload : List UInt8) :
    Prop :=
  session.dialed = some (host, port) ∧
    ∃ tunnel, session.tunnel = some tunnel ∧ tunnel.target.output.sent = payload

def Handled.Delivers (handled : Handled) (host : String) (port : UInt16) (payload : List UInt8) :
    Prop :=
  ∃ session, handled = .served session ∧ session.Delivers host port payload

/-- Connecting there succeeds, and nothing goes wrong on the new connection. -/
def Reachable (env : Environment) (host : String) (port : UInt16) : Prop :=
  ∃ target, env.connect host port = .connected target ∧ Steady target ∧ target.output.sent = []

/-- The loop towards the target gets enough turns for this many bytes. -/
def FairFor (env : Environment) (bytes : Nat) : Prop :=
  2 * bytes + 2 ≤ env.schedule.count .clientToTarget

/-- A world without TLS and base64 where every address answers, says nothing
and takes everything. -/
def quietWorld (turns : Nat) : Environment :=
  ⟨default, fun _ => none, fun _ _ => .connected ⟨(), ⟨[], []⟩, .fresh, false⟩,
    List.replicate turns .clientToTarget⟩

theorem reachable_quietWorld (turns : Nat) (host : String) (port : UInt16) :
    Reachable (quietWorld turns) host port :=
  ⟨_, rfl, ⟨nofun, rfl, rfl⟩, rfl⟩

theorem fairFor_quietWorld (bytes : Nat) : FairFor (quietWorld (2 * bytes + 2)) bytes := by
  simp [FairFor, quietWorld]

section Glance

variable {τ : Type}

/-- What a peek before the deadline sees, and the stream after it. -/
def glance (n : Nat) (st : Duplex τ) : List UInt8 × Duplex τ :=
  ((st.input.peek true n).2.1, { st with input := (st.input.peek true n).2.2 })

@[simp] theorem content_glance (n : Nat) (st : Duplex τ) :
    (glance n st).2.input.content = st.input.content := st.input.peek_content true n

theorem glance_isPrefix (n : Nat) (st : Duplex τ) : (glance n st).1 <+: st.input.content :=
  st.input.peek_isPrefix true n

theorem calm_glance {n : Nat} {st : Duplex τ} (h : st.input.Calm) :
    (glance n st).2.input.Calm := h.of_subset (st.input.poll_coming_subset true)

theorem glance_eq_nil_iff {n : Nat} {st : Duplex τ} (h : st.input.Calm) (hn : 0 < n) :
    (glance n st).1 = [] ↔ st.input.content = [] := h.peek_eq_nil_iff true hn

theorem timeout_peek_of_calm {st : Duplex τ} (h : st.input.Calm) (n : Nat) :
    timeout (peek n) st = .ok (some (.ok (glance n st).1)) (glance n st).2 := by
  have hPeek := @peek_of_calm _ { st with timed := true } h n
  rw [timeout, hPeek]
  rfl

/-- A glance at a stream that is not empty sees its first byte. -/
theorem glance_eq_cons {n : Nat} {st : Duplex τ} (h : st.input.Calm) (hn : 0 < n) {b : UInt8}
    {rest : List UInt8} (hContent : st.input.content = b :: rest) :
    ∃ seen, (glance n st).1 = b :: seen := by
  have hPrefix := glance_isPrefix n st
  cases hSeen : (glance n st).1 with
  | nil =>
    rw [(glance_eq_nil_iff h hn).mp hSeen] at hContent
    cases hContent
  | cons c seen =>
    rw [hSeen, hContent] at hPrefix
    exact ⟨seen, by rw [(List.cons_prefix_cons.mp hPrefix).1]⟩

end Glance

theorem steady_glance {n : Nat} {client : ClientStream} (h : Steady client) :
    Steady (glance n client).2 := ⟨calm_glance h.calm, h.writable, h.closes⟩

theorem Steady.framed {τ : Type} {st st' : Duplex τ} (h : Steady st) (hFramed : st.Framed st') :
    Steady st' :=
  ⟨h.calm.of_subset hFramed.coming, hFramed.output.stays h.writable,
    hFramed.output.closes.trans h.closes⟩

theorem Steady.healthy {τ : Type} {st : Duplex τ} (h : Steady st) (deadline : Bool) :
    Healthy deadline st := .of_calm h.calm h.writable deadline

theorem detectClientProtocol_of_calm {client : ClientStream} (h : client.input.Calm) :
    detectClientProtocol client =
      .ok (detectProtocol (fill 4 (glance 4 client).1)) (glance 4 client).2 := by
  rw [detectClientProtocol, bind_ok (timeout_peek_of_calm h 4)]
  rfl

theorem timeout_peekEquivalent_of_plain {client : ClientStream}
    (hPlain : client.transport = .plain) (n : Nat) :
    timeout (peekEquivalent n) client = timeout (peek n) client := by
  have hPeek : peekEquivalent n { client with timed := true } =
      peek n { client with timed := true } :=
    @peekEquivalent_of_plain { client with timed := true } hPlain n
  rw [timeout, timeout, hPeek]

theorem chooseProtocol_of_plain {client : ClientStream} (hPlain : client.transport = .plain)
    (h : client.input.Calm) : chooseProtocol client =
      .ok (detectProtocol (fill 4 (glance 4 client).1)) (glance 4 client).2 := by
  have hPeek := (timeout_peekEquivalent_of_plain hPlain 4).trans (timeout_peek_of_calm h 4)
  rw [chooseProtocol, bind_ok hPeek]
  rfl

theorem framing_parseHttpsTargetFromStream : Framing parseHttpsTargetFromStream := by
  refine (framing_peekEquivalent 512).bind fun buf => ?_
  cases extractSniFromTls buf with
  | error _ => exact .throw _
  | ok sni =>
    cases sni with
    | some _ => exact .pure _
    | none => exact .pure _

theorem framing_parseTargetByProtocol (protocol : ProxyProtocol) :
    Framing (parseTargetByProtocol protocol) := by
  cases protocol with
  | tcp => exact denotes_parseTarget.framing
  | http => exact (BufReader.framing_readLine _).bind fun _ => .liftIo _
  | https => exact framing_parseHttpsTargetFromStream
  | socks4 => exact (@denotes_parseSocks4Target false).framing
  | socks5 => exact (@denotes_parseSocks5Target false).framing

theorem lookupHost_targetAddr (target : ProxyTarget) :
    lookupHost (targetAddr target) = .ok (target.host, target.port) := by
  have hColon : ':' ∉ (Text.portText target.port).toList := fun hMem =>
    absurd (Text.isDigit_portText hMem) (by decide)
  have hSplit : Text.rsplitOnce (targetAddr target) ':' =
      some (target.host, Text.portText target.port) := by
    rw [targetAddr, ← Text.singleton_colon]
    exact Text.rsplitOnce_append hColon
  rw [lookupHost, hSplit]
  simp only [Text.parseU16_portText]

variable {env : Environment} {state : AppState} {client : ClientStream} {host : String}
  {port : UInt16} {payload : List UInt8}

/-- What a session records, however its connection and its tunnel end. -/
theorem connectTarget_records (protocol : ProxyProtocol) (target : ProxyTarget)
    (st : ClientStream) : (connectTarget env protocol target st).protocol = protocol ∧
      (connectTarget env protocol target st).target = some target ∧
      (connectTarget env protocol target st).dialed = some (target.host, target.port) := by
  rw [connectTarget, lookupHost_targetAddr]
  dsimp only
  split
  · exact ⟨rfl, rfl, rfl⟩
  · exact ⟨rfl, rfl, rfl⟩
  · unfold openTunnel
    split <;> exact ⟨rfl, rfl, rfl⟩

/-- Once a target is known, what the client's stream still holds goes there. -/
theorem connectTarget_delivers_iff (protocol : ProxyProtocol) {target : ProxyTarget}
    (hClient : Steady client) (hReach : Reachable env host port)
    (hTurns : FairFor env client.input.content.length) :
    (connectTarget env protocol target client).Delivers host port payload ↔
      target = ⟨host, port⟩ ∧ client.input.content = payload := by
  have hTunnel : target = ⟨host, port⟩ → ∃ tunnel,
      (connectTarget env protocol target client).tunnel = some tunnel ∧
        tunnel.target.output.sent = client.input.content := by
    rintro rfl
    obtain ⟨stream, hConnect, hStream, hFresh⟩ := hReach
    obtain ⟨reply, hReply⟩ := denotes_sendSuccessResponse false protocol
    obtain ⟨replied, hRun, hContent, _⟩ := @Denotes.complete _ _ _ _ _ hReply client []
      reply client.input.content () (hClient.healthy false) ⟨rfl, rfl⟩ rfl
    refine ⟨(Tunnel.new replied stream).run env.schedule, ?_, ?_⟩
    · rw [connectTarget, lookupHost_targetAddr]
      dsimp only
      rw [hConnect]
      dsimp only
      rw [openTunnel, hRun]
    · rw [← hContent] at hTurns ⊢
      rw [relay_delivers (hClient.framed (hReply.framing.ok hRun)) hStream hTurns, hFresh,
        List.nil_append]
  constructor
  · rintro ⟨hDialed, tunnel, hSome, hSent⟩
    rw [(connectTarget_records _ _ _).2.2, Option.some.injEq, Prod.mk.injEq] at hDialed
    have hTarget : target = ⟨host, port⟩ := by
      obtain ⟨rfl, rfl⟩ := hDialed
      rfl
    obtain ⟨tunnel', hSome', hSent'⟩ := hTunnel hTarget
    obtain rfl : tunnel = tunnel' := Option.some.inj (hSome.symm.trans hSome')
    exact ⟨hTarget, hSent'.symm.trans hSent⟩
  · rintro ⟨hTarget, rfl⟩
    refine ⟨?_, hTunnel hTarget⟩
    rw [(connectTarget_records _ _ _).2.2, hTarget]

theorem answerFailure_delivers_iff {session : Session} :
    (answerFailure session).Delivers host port payload ↔ session.Delivers host port payload := by
  unfold answerFailure
  split <;> rfl

/-- `async_handle_client` delivers what the parser of the detected protocol leaves. -/
theorem asyncHandleClient_delivers_iff (hPlain : client.transport = .plain)
    (hClient : Steady client) (hReach : Reachable env host port)
    (hTurns : FairFor env client.input.content.length) :
    (asyncHandleClient env client).Delivers host port payload ↔
      ∃ st, parseTargetByProtocol (detectProtocol (fill 4 (glance 4 client).1))
        (glance 4 client).2 = .ok ⟨host, port⟩ st ∧ st.input.content = payload := by
  unfold asyncHandleClient
  rw [chooseProtocol_of_plain hPlain hClient.calm]
  dsimp only
  cases hParse : parseTargetByProtocol (detectProtocol (fill 4 (glance 4 client).1))
      (glance 4 client).2 with
  | error e st => exact ⟨nofun, nofun⟩
  | ok target st =>
    dsimp only
    have hFramed := (framing_parseTargetByProtocol _).ok hParse
    have hLess : st.input.content.length ≤ client.input.content.length := by
      rw [← content_glance 4 client]
      exact hFramed.unread.length_le
    rw [connectTarget_delivers_iff _ ((steady_glance hClient).framed hFramed) hReach
      (show 2 * _ + 2 ≤ _ from (by unfold FairFor at hTurns; omega))]
    constructor
    · rintro ⟨rfl, hContent⟩
      exact ⟨st, rfl, hContent⟩
    · rintro ⟨_, hOk, hContent⟩
      cases hOk
      exact ⟨rfl, hContent⟩

/-- Without credentials, and unless the first glance finds TLS, the client is
handed on as it is. -/
theorem handleClient_of_plain (hCreds : state.requireCreds = false) (h : client.input.Calm)
    (hTls : detectProtocol (fill 4 (glance 4 client).1) ≠ .https) :
    handleClient env state client =
      .served (answerFailure (asyncHandleClient env (glance 4 client).2)) := by
  have hAdmit : admitClient env state client =
      .ok (detectProtocol (fill 4 (glance 4 client).1)) (glance 4 client).2 := by
    have hUpgrade : upgrade state (detectProtocol (fill 4 (glance 4 client).1))
        (glance 4 client).2 = .ok () (glance 4 client).2 := if_neg hTls
    rw [admitClient, bind_ok (detectClientProtocol_of_calm h), bind_ok hUpgrade, hCreds]
    rfl
  rw [handleClient, hAdmit]

theorem answerFailure_protocol (session : Session) :
    (answerFailure session).protocol = session.protocol := by
  unfold answerFailure
  split <;> rfl

theorem answerFailure_target (session : Session) :
    (answerFailure session).target = session.target := by
  unfold answerFailure
  split <;> rfl

/-- With TLS the session runs on what the acceptor decrypts. -/
theorem handleClient_of_tls (hCreds : state.requireCreds = false) (h : client.input.Calm)
    (hTls : detectProtocol (fill 4 (glance 4 client).1) = .https) {acceptor : TlsAcceptor}
    (hAcceptor : state.tlsAcceptor = some acceptor) {tls : TlsStream}
    (hAccept : acceptor.accept (glance 4 client).2 = .ok tls) :
    handleClient env state client =
      .served (answerFailure (asyncHandleClient env tls.toClientStream)) := by
  have hUpgrade : upgrade state .https (glance 4 client).2 = .ok () tls.toClientStream := by
    rw [upgrade, if_pos rfl, hAcceptor]
    dsimp only
    rw [hAccept]
  have hAdmit : admitClient env state client = .ok .https tls.toClientStream := by
    rw [admitClient, bind_ok (detectClientProtocol_of_calm h), hTls, bind_ok hUpgrade, hCreds]
    rfl
  rw [handleClient, hAdmit]

/-- The protocol and target of a session follow from the stream that its first
look leaves. -/
theorem asyncHandleClient_records {protocol : ProxyProtocol} {st : ClientStream}
    (hChoose : chooseProtocol client = .ok protocol st) :
    (asyncHandleClient env client).protocol = protocol ∧
      ∀ target, (asyncHandleClient env client).target = some target ↔
        ∃ st', parseTargetByProtocol protocol st = .ok target st' := by
  unfold asyncHandleClient
  rw [hChoose]
  dsimp only
  cases parseTargetByProtocol protocol st with
  | error e st' => exact ⟨rfl, fun target => by simp⟩
  | ok found st' =>
    dsimp only
    obtain ⟨hProtocol, hTarget, _⟩ := @connectTarget_records env protocol found st'
    refine ⟨hProtocol, fun target => ?_⟩
    rw [hTarget]
    simp

/-- The stream on which a plain session without credentials parses its target. -/
def parsed (client : ClientStream) : ClientStream := (glance 4 (glance 4 client).2).2

/-- The protocol for which it does. -/
def sessionProtocol (client : ClientStream) : ProxyProtocol :=
  detectProtocol (fill 4 (glance 4 (glance 4 client).2).1)

@[simp] theorem content_parsed (client : ClientStream) :
    (parsed client).input.content = client.input.content := by
  rw [parsed, content_glance, content_glance]

theorem steady_parsed (h : Steady client) : Steady (parsed client) :=
  steady_glance (steady_glance h)

theorem handleClient_delivers_iff (hCreds : state.requireCreds = false)
    (hPlain : client.transport = .plain) (hClient : Steady client)
    (hTls : detectProtocol (fill 4 (glance 4 client).1) ≠ .https)
    (hReach : Reachable env host port) (hTurns : FairFor env client.input.content.length) :
    (handleClient env state client).Delivers host port payload ↔
      ∃ st, parseTargetByProtocol (sessionProtocol client) (parsed client) =
        .ok ⟨host, port⟩ st ∧ st.input.content = payload := by
  rw [handleClient_of_plain hCreds hClient.calm hTls]
  refine Iff.trans ?_ (@asyncHandleClient_delivers_iff _ (glance 4 client).2 _ _ _ hPlain
    (steady_glance hClient) hReach (by rw [content_glance]; exact hTurns))
  constructor
  · rintro ⟨session, hServed, hDelivers⟩
    cases hServed
    exact answerFailure_delivers_iff.mp hDelivers
  · intro hDelivers
    exact ⟨_, rfl, answerFailure_delivers_iff.mpr hDelivers⟩

/-- A plain TCP client that sends these segments and then closes. -/
def plainClient (segments : List (List UInt8)) (output : Outbound) : ClientStream :=
  ⟨.plain, .ofSegments segments, output, false⟩

@[simp] theorem content_plainClient (segments : List (List UInt8)) (output : Outbound) :
    (plainClient segments output).input.content = segments.flatten :=
  Inbound.content_ofSegments segments

theorem steady_plainClient {segments : List (List UInt8)} {output : Outbound}
    (hOpen : output.Open) (hCloses : output.closes = true) :
    Steady (plainClient segments output) := ⟨Inbound.calm_ofSegments segments, hOpen, hCloses⟩

theorem steady_freshClient (segments : List (List UInt8)) :
    Steady (plainClient segments .fresh) := steady_plainClient rfl rfl

/-- A first byte below the letters decides the protocol, however much arrives with it. -/
theorem detectProtocol_glance {st : ClientStream} (h : st.input.Calm) {b : UInt8}
    {rest : List UInt8} (hContent : st.input.content = b :: rest) (hb : b < 0x20) :
    detectProtocol (fill 4 (glance 4 st).1) =
      if b = 0x16 then .https else if b = 0x05 then .socks5
      else if b = 0x04 then .socks4 else .tcp := by
  obtain ⟨seen, hSeen⟩ := glance_eq_cons h (n := 4) (by decide) hContent
  have hFirst : (fill 4 (glance 4 st).1).get 0 = b := by
    rw [hSeen]
    exact fill_get_zero 3 (b :: seen)
  rw [detectProtocol_of_lt (by rw [hFirst]; exact hb), hFirst]

/-- Both looks at a stream that starts with a control character other than the
one of TLS find the same protocol. -/
theorem protocol_of_head (hClient : Steady client) {b : UInt8} {rest : List UInt8}
    (hContent : client.input.content = b :: rest) (hb : b < 0x20) (hTls : b ≠ 0x16) :
    detectProtocol (fill 4 (glance 4 client).1) ≠ .https ∧ sessionProtocol client =
      if b = 0x05 then .socks5 else if b = 0x04 then .socks4 else .tcp := by
  have hFirst := detectProtocol_glance hClient.calm hContent hb
  have hSecond := @detectProtocol_glance (glance 4 client).2 (calm_glance hClient.calm) _ _
    ((content_glance 4 client).trans hContent) hb
  rw [if_neg hTls] at hFirst hSecond
  refine ⟨?_, hSecond⟩
  rw [hFirst]
  split
  · nofun
  · split <;> nofun

/-- A stream that starts with a printable character is not taken for TLS, and its
session is one of HTTP or of plain TCP. -/
theorem protocol_of_letter (hClient : Steady client) {b : UInt8} {rest : List UInt8}
    (hContent : client.input.content = b :: rest) (hb : 0x20 ≤ b) :
    detectProtocol (fill 4 (glance 4 client).1) ≠ .https ∧
      (sessionProtocol client = .http ∨ sessionProtocol client = .tcp) := by
  have hFound : ∀ st : ClientStream, st.input.Calm → st.input.content = b :: rest →
      detectProtocol (fill 4 (glance 4 st).1) = .http ∨
        detectProtocol (fill 4 (glance 4 st).1) = .tcp := by
    intro st hCalm hStart
    obtain ⟨seen, hSeen⟩ := glance_eq_cons hCalm (n := 4) (by decide) hStart
    rw [hSeen]
    refine detectProtocol_of_ge ?_
    rw [fill_get_zero 3]
    exact hb
  refine ⟨?_, hFound _ (calm_glance hClient.calm) ((content_glance 4 client).trans hContent)⟩
  obtain hHttp | hTcp := hFound client hClient.calm hContent
  · rw [hHttp]
    nofun
  · rw [hTcp]
    nofun

theorem handleClient_protocol (hCreds : state.requireCreds = false)
    (hPlain : client.transport = .plain) (hClient : Steady client)
    (hTls : detectProtocol (fill 4 (glance 4 client).1) ≠ .https) {session : Session}
    (hServed : handleClient env state client = .served session) :
    session.protocol = sessionProtocol client := by
  rw [handleClient_of_plain hCreds hClient.calm hTls] at hServed
  cases hServed
  rw [answerFailure_protocol]
  exact (asyncHandleClient_records
    (@chooseProtocol_of_plain (glance 4 client).2 hPlain (calm_glance hClient.calm))).1

end CrabbyProxy.Proxy
