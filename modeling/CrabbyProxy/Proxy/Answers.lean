import CrabbyProxy.Library.Written
import CrabbyProxy.Proxy.AuthGate
import CrabbyProxy.Proxy.RelayRuns
import CrabbyProxy.Proxy.Sessions

/-!
# What a client is answered

A session writes its client the method selection of SOCKS5, at most one reply, and what
comes from the target. A success reply is only written once the target is connected, and
what follows it is the target's.
-/

namespace CrabbyProxy.Proxy

open CrabbyProxy.Stream
set_option autoImplicit false

/-- What a target parser writes. -/
def selection : ProxyProtocol → List UInt8
  | .socks5 => [0x05, 0x00]
  | .tcp | .http | .https | .socks4 => []

def successReply : ProxyProtocol → List UInt8
  | .http => Text.asBytes "HTTP/1.1 200 OK\r\n\r\n"
  | .socks4 => [0x00, 0x5a, 0x00, 0x00, 0x00, 0x00, 0x00, 0x00]
  | .socks5 => [0x05, 0x00, 0x00, 0x01, 0x00, 0x00, 0x00, 0x00, 0x00, 0x00]
  | .tcp | .https => []

def failureReply : ProxyProtocol → ErrorType → List UInt8
  | .http, .handshake => Text.asBytes "HTTP/1.1 400 Bad Request\r\n\r\n"
  | .http, .connection => Text.asBytes "HTTP/1.1 502 Bad Gateway\r\n\r\n"
  | .http, .timeout => Text.asBytes "HTTP/1.1 504 Gateway Timeout\r\n\r\n"
  | .socks4, _ => [0x00, 0x5b, 0x00, 0x00, 0x00, 0x00, 0x00, 0x00]
  | .socks5, _ => [0x05, 0x01, 0x00, 0x01, 0x00, 0x00, 0x00, 0x00, 0x00, 0x00]
  | _, _ => []

theorem sendSuccessResponse_eq (protocol : ProxyProtocol) :
    sendSuccessResponse protocol = writeAll (successReply protocol) := by
  cases protocol <;> rfl

theorem sendErrorResponse_eq (protocol : ProxyProtocol) (errorType : ErrorType) :
    sendErrorResponse protocol errorType = writeAll (failureReply protocol errorType) := by
  cases protocol <;> cases errorType <;> rfl

section Parsers

theorem output_peekEquivalent (n : Nat) (st : ClientStream) :
    (stateOf (peekEquivalent n st)).output = st.output := by
  unfold peekEquivalent
  split
  · exact Says.received st _
  · exact Says.received st _
  · rfl

theorem says_readUserId : Says readUserId [] := by
  have hRounds : ∀ rounds userId, Says (userIdRounds rounds userId) [] := by
    intro rounds
    induction rounds with
    | zero => exact fun _ => .pure _
    | succ rounds ih =>
      exact fun userId => (Says.readExact 1).silent_bind fun _ => .ite (.pure _) (ih _)
  exact ⟨(hRounds _ _).ok, (hRounds _ _).error⟩

theorem says_parseSocks5Address (addrType : UInt8) : Says (parseSocks5Address addrType) [] := by
  refine .ite ((Says.readExact 6).silent_bind fun _ => .pure _) (.ite ?_
    (.ite ((Says.readExact 18).silent_bind fun _ => .pure _) (.ioError _ _ [])))
  exact (Says.readExact 1).silent_bind fun _ => (Says.readExact _).silent_bind fun _ =>
    (Says.okOr _ _).silent_bind fun _ => (Says.readExact 2).silent_bind fun _ => .pure _

theorem says_parseSocks5Target : Says parseSocks5Target (selection .socks5) := by
  refine (Says.readExact 2).silent_bind fun _ => .ite (.ioError _ _ _) ?_
  refine (Says.readExact _).silent_bind fun _ => (Says.writeAll (selection .socks5)).bind fun _ => ?_
  exact (Says.readExact 4).silent_bind fun _ => .ite (.ioError _ _ _) (says_parseSocks5Address _)

/-- A target parser writes nothing but the method selection. -/
theorem says_parseTargetByProtocol (protocol : ProxyProtocol) :
    Says (parseTargetByProtocol protocol) (selection protocol) := by
  cases protocol with
  | socks5 => exact says_parseSocks5Target
  | socks4 =>
    refine (Says.readExact 8).silent_bind fun _ => .ite (.ioError _ _ _) (.ite (.ioError _ _ _) ?_)
    exact says_readUserId.silent_bind fun _ => .pure _
  | http => exact (Says.readLine _).silent_bind fun _ => .liftIo _
  | https =>
    refine (Says.of_output (output_peekEquivalent 512)).silent_bind fun buf => ?_
    cases extractSniFromTls buf with
    | error _ => exact .throw _ []
    | ok sni => cases sni <;> exact .pure _
  | tcp =>
    refine Says.timeoutOr ?_ _
    refine ((Says.readExact 2).mapErr _).silent_bind fun _ => .ite (.ioError _ _ _) ?_
    exact ((Says.readExact _).mapErr _).silent_bind fun _ => (Says.okOr _ _).silent_bind fun _ =>
      .liftIo _

end Parsers

/-- What `handle_client` writes when a session has failed. -/
def answer (session : Session) : List UInt8 :=
  match session.failure with
  | none => []
  | some (fault, errorType) =>
    if fault = .panic ∨ errorType = .tunnel then [] else failureReply session.protocol errorType

theorem answerFailure_client (session : Session) : (answerFailure session).client =
    stateOf (writeAll (answer session) session.client) := by
  unfold answerFailure answer
  simp only [sendErrorResponse_eq]
  cases session.failure with
  | none => rfl
  | some failure =>
    obtain ⟨fault, errorType⟩ := failure
    cases fault <;> cases errorType <;> rfl

theorem answerFailure_sent (session : Session) : (answerFailure session).client.output.sent =
    session.client.output.sent ++ session.client.output.passed (answer session) := by
  rw [answerFailure_client, stateOf_writeAll]
  exact (session.client.output.writeAll_wrote _).sent

theorem answer_cases (session : Session) :
    answer session = [] ∨ ∃ errorType, answer session = failureReply session.protocol errorType := by
  unfold answer
  cases session.failure with
  | none => exact .inl rfl
  | some failure =>
    dsimp only
    split
    · exact .inl rfl
    · exact .inr ⟨_, rfl⟩

theorem answerFailure_failed {session : Session} {fault : Fault} {errorType : ErrorType}
    (h : session.failure = some (fault, errorType)) (hPanic : fault ≠ .panic)
    (hTunnel : errorType ≠ .tunnel) : (answerFailure session).client.output.sent =
      session.client.output.sent ++
        session.client.output.passed (failureReply session.protocol errorType) := by
  have hAnswer : answer session = failureReply session.protocol errorType := by
    rw [answer, h]
    exact if_neg fun hEither => hEither.elim hPanic hTunnel
  rw [answerFailure_sent, hAnswer]

theorem answerFailure_tunnel {session : Session} {tunnel : Tunnel}
    (h : session.failure = tunnelFailure tunnel) :
    (answerFailure session).client.output.sent = session.client.output.sent := by
  have hAnswer : answer session = [] := by
    rw [answer, h, tunnelFailure]
    cases tunnel.result with
    | none => rfl
    | some result =>
      cases result with
      | error e => exact if_pos (.inr rfl)
      | ok counts => rfl
  rw [answerFailure_sent, hAnswer, List.prefix_nil.mp (Outbound.passed_isPrefix _ []),
    List.append_nil]

/-- The one reply of a session, what got through of it, and what the client was sent after it. -/
inductive Answered (env : Environment) (protocol : ProxyProtocol) (target : Option ProxyTarget) :
    List UInt8 → List UInt8 → List UInt8 → Prop
  | failed (errorType : ErrorType) {final : List UInt8}
      (hFinal : final <+: failureReply protocol errorType) :
    Answered env protocol target (failureReply protocol errorType) final []
  | connected {host : String} {port : UInt16} {stream : TargetStream} {final relayed : List UInt8}
      (hTarget : target = some ⟨host, port⟩) (hConnect : env.connect host port = .connected stream)
      (hFinal : final <+: successReply protocol) (hRelayed : relayed <+: stream.input.content)
      (hWhole : relayed ≠ [] → final = successReply protocol) :
    Answered env protocol target (successReply protocol) final relayed

/-- Once its target is known, a session writes a failure reply, or, on a connected target,
the success reply and what that target sends. -/
theorem connectTarget_answers (env : Environment) (protocol : ProxyProtocol) (target : ProxyTarget)
    (st : ClientStream) : ∃ reply relayed,
      (answerFailure (connectTarget env protocol target st)).client.output.sent =
        st.output.sent ++ st.output.passed reply ++ relayed ∧
      (env.schedule = [] → relayed = []) ∧
      Answered env protocol (some target) reply (st.output.passed reply) relayed := by
  unfold connectTarget
  rw [lookupHost_targetAddr]
  dsimp only
  cases hConnect : env.connect target.host target.port with
  | timedOut =>
    refine ⟨_, [], ?_, fun _ => rfl, .failed .timeout (st.output.passed_isPrefix _)⟩
    rw [List.append_nil]
    exact answerFailure_failed rfl (by rintro ⟨⟩) (by rintro ⟨⟩)
  | refused e =>
    refine ⟨_, [], ?_, fun _ => rfl, .failed .connection (st.output.passed_isPrefix _)⟩
    rw [List.append_nil]
    exact answerFailure_failed rfl (by rintro ⟨⟩) (by rintro ⟨⟩)
  | connected stream =>
    dsimp only
    have hWrote := st.output.writeAll_wrote (successReply protocol)
    rw [openTunnel, sendSuccessResponse_eq, writeAll_eq]
    by_cases hPassed : st.output.passed (successReply protocol) = successReply protocol
    · rw [if_pos hPassed]
      dsimp only
      obtain ⟨_, relayed, _, hRelays⟩ := Tunnel.relays_run
        { st with output := (st.output.writeAll (successReply protocol)).2 } stream env.schedule
      have hSent := hRelays.sent
      refine ⟨successReply protocol, relayed, ?_, ?_, .connected rfl hConnect
        (st.output.passed_isPrefix _) hRelays.isPrefix fun _ => hPassed⟩
      · rw [answerFailure_tunnel rfl]
        dsimp only
        rw [hSent, hWrote.sent]
      · intro hQuiet
        rw [hQuiet] at hSent
        exact List.append_cancel_left (hSent.symm.trans (List.append_nil _).symm)
    · rw [if_neg hPassed]
      dsimp only
      refine ⟨successReply protocol, [], ?_, fun _ => rfl, .connected rfl hConnect
        (st.output.passed_isPrefix _) List.nil_prefix fun hNone => absurd rfl hNone⟩
      rw [answerFailure_failed rfl (by rintro ⟨⟩) (by rintro ⟨⟩), List.append_nil]
      dsimp only
      rw [hWrote.sent, Outbound.passed_behind hWrote.room hPassed, List.append_nil]

section Parsed

variable {env : Environment} {client st st' : ClientStream} {protocol : ProxyProtocol}

theorem asyncHandleClient_of_error {fault : Fault} (hChoose : chooseProtocol client = .ok protocol st)
    (hParse : parseTargetByProtocol protocol st = .error fault st') :
    asyncHandleClient env client =
      ⟨protocol, none, none, st', none, some (fault, .handshake)⟩ := by
  unfold asyncHandleClient
  rw [hChoose]
  dsimp only
  rw [hParse]

theorem asyncHandleClient_of_target {target : ProxyTarget}
    (hChoose : chooseProtocol client = .ok protocol st)
    (hParse : parseTargetByProtocol protocol st = .ok target st') :
    asyncHandleClient env client = connectTarget env protocol target st' := by
  unfold asyncHandleClient
  rw [hChoose]
  dsimp only
  rw [hParse]

end Parsed

theorem answerFailure_handshake {session : Session} {fault : Fault}
    (h : session.failure = some (fault, .handshake)) :
    ∃ final, final <+: failureReply session.protocol .handshake ∧
      (answerFailure session).client.output.sent = session.client.output.sent ++ final := by
  refine ⟨_, ?_, answerFailure_sent session⟩
  apply (session.client.output.passed_isPrefix _).trans
  rw [answer, h]
  dsimp only
  split
  · exact List.nil_prefix
  · exact List.prefix_rfl

theorem output_chooseProtocol (client : ClientStream) :
    (stateOf (chooseProtocol client)).output = client.output := by
  have hSame := stateOf_timeout (peekEquivalent 4) client
  cases hPeek : timeout (peekEquivalent 4) client with
  | ok outcome st =>
    have hRest : stateOf (chooseProtocol client) = st := by
      rw [chooseProtocol, bind_ok hPeek]
      cases outcome with
      | none => rfl
      | some result => cases result <;> rfl
    rw [hPeek, stateOf] at hSame
    rw [hRest, hSame]
    exact output_peekEquivalent 4 _
  | error e st =>
    rw [hPeek, stateOf] at hSame
    rw [chooseProtocol, bind_error hPeek, stateOf, hSame]
    exact output_peekEquivalent 4 _

/-- From here to its end, a session writes the selection, one reply and what the target sends. -/
theorem asyncHandleClient_answers (env : Environment) (client : ClientStream) :
    ∃ selected reply final relayed,
      (answerFailure (asyncHandleClient env client)).client.output.sent =
        client.output.sent ++ selected ++ final ++ relayed ∧
      selected <+: selection (asyncHandleClient env client).protocol ∧
      Answered env (asyncHandleClient env client).protocol (asyncHandleClient env client).target
        reply final relayed := by
  have hChosen := output_chooseProtocol client
  cases hChoose : chooseProtocol client with
  | error e st =>
    rw [hChoose, stateOf] at hChosen
    unfold asyncHandleClient
    rw [hChoose]
    obtain ⟨final, hFinal, hSent⟩ := @answerFailure_handshake
      ⟨.tcp, none, none, st, none, some (e, .handshake)⟩ e rfl
    refine ⟨[], _, final, [], ?_, List.nil_prefix, .failed .handshake hFinal⟩
    dsimp only
    rw [hSent, hChosen, List.append_nil, List.append_nil]
  | ok protocol st =>
    rw [hChoose, stateOf] at hChosen
    cases hParse : parseTargetByProtocol protocol st with
    | error e st' =>
      rw [asyncHandleClient_of_error hChoose hParse]
      obtain ⟨part, hPart, hWrote⟩ := (says_parseTargetByProtocol protocol).error hParse
      obtain ⟨final, hFinal, hSent⟩ := @answerFailure_handshake
        ⟨protocol, none, none, st', none, some (e, .handshake)⟩ e rfl
      refine ⟨_, _, final, [], ?_, (st.output.passed_isPrefix part).trans hPart,
        .failed .handshake hFinal⟩
      rw [hSent, hWrote.sent, hChosen, List.append_nil]
    | ok target st' =>
      rw [asyncHandleClient_of_target hChoose hParse]
      have hWrote := (says_parseTargetByProtocol protocol).ok hParse
      obtain ⟨reply, relayed, hSent, _, hAnswered⟩ := connectTarget_answers env protocol target st'
      obtain ⟨hProtocol, hTarget, _⟩ := @connectTarget_records env protocol target st'
      rw [hProtocol, hTarget]
      refine ⟨_, reply, _, relayed, ?_, st.output.passed_isPrefix _, hAnswered⟩
      rw [hSent, hWrote.sent, hChosen]

section Admission

variable {env : Environment} {state : AppState} {protocol : ProxyProtocol}

/-- Of the logins that succeed, only the one of SOCKS5 is answered. -/
theorem authenticateByProtocol_sent (hCreds : state.requireCreds = true)
    {before after : ClientStream}
    (h : authenticateByProtocol env state protocol before = .ok true after) :
    after.output.sent = before.output.sent ∨
      after.output.sent = before.output.sent ++ [0x05, 0x02, 0x01, 0x00] := by
  cases protocol with
  | tcp => cases h
  | http | https =>
    left
    obtain ⟨seen, st, hPeek, hRest⟩ := bind_eq_ok.mp h
    have hOutput := output_peekEquivalent 4096 before
    rw [hPeek, stateOf] at hOutput
    split at hRest
    · cases hRest
    · split at hRest
      · cases hRest
        rw [hOutput]
      · obtain ⟨_, _, _, hThrow⟩ := bind_eq_ok.mp hRest
        cases hThrow
  | socks4 =>
    left
    obtain ⟨_, _, ⟨_, rfl, _⟩, _, hSent⟩ :=
      (@denotes_authenticateSocks4 false _ hCreds).sound h
    rw [hSent, List.append_nil]
  | socks5 =>
    right
    obtain ⟨_, _, ⟨_, rfl, _⟩, _, hSent⟩ :=
      (@denotes_authenticateSocks5 false _ hCreds).sound h
    exact hSent

/-- What had been sent on the stream that the client presents: the accepted connection, or the
one inside TLS. -/
def Starts (state : AppState) (client : ClientStream) (sent : List UInt8) : Prop :=
  ∃ protocol stream, Presents state client protocol stream ∧ sent = stream.output.sent

theorem admitClient_sent {client entry : ClientStream}
    (h : admitClient env state client = .ok protocol entry) :
    ∃ start login, Starts state client start ∧ (login = [] ∨ login = [0x05, 0x02, 0x01, 0x00]) ∧
      entry.output.sent = start ++ login := by
  obtain ⟨before, hPresents, hEntry⟩ := admitClient_ok h
  have hStarts : Starts state client before.output.sent := ⟨protocol, before, hPresents, rfl⟩
  by_cases hCreds : state.requireCreds = true
  · rw [if_pos hCreds] at hEntry
    obtain hSent | hSent := authenticateByProtocol_sent hCreds hEntry
    · exact ⟨_, [], hStarts, .inl rfl, by rw [hSent, List.append_nil]⟩
    · exact ⟨_, _, hStarts, .inr rfl, hSent⟩
  · rw [if_neg hCreds] at hEntry
    subst hEntry
    exact ⟨_, [], hStarts, .inl rfl, (List.append_nil _).symm⟩

/-- No part of a failure reply can be read as a success reply. -/
theorem not_prefix_of_failureReply (protocol : ProxyProtocol) (errorType : ErrorType)
    (hReply : successReply protocol ≠ []) :
    ¬ successReply protocol <+: failureReply protocol errorType := by
  cases protocol with
  | tcp | https => exact absurd rfl hReply
  | socks4 | socks5 => cases errorType <;> decide
  | http => cases errorType <;> decide

theorem Answered.established {target : Option ProxyTarget} {reply final relayed : List UInt8}
    (h : Answered env protocol target reply final relayed) (hReply : successReply protocol ≠ [])
    (hFinal : final = successReply protocol) : ∃ host port stream, target = some ⟨host, port⟩ ∧
      env.connect host port = .connected stream := by
  cases h with
  | failed errorType hPart =>
    rw [hFinal] at hPart
    exact absurd hPart (not_prefix_of_failureReply protocol errorType hReply)
  | connected hTarget hConnect => exact ⟨_, _, _, hTarget, hConnect⟩

/-- A client that gets as far as a session is answered at most once. A success reply means
that the target it asked for is connected, and is followed by what that target sends. -/
theorem replies_truthful {client : ClientStream} {session : Session}
    (hServed : handleClient env state client = .served session) :
    ∃ start login selected reply final relayed,
      session.client.output.sent = start ++ login ++ selected ++ final ++ relayed ∧
      Starts state client start ∧ (login = [] ∨ login = [0x05, 0x02, 0x01, 0x00]) ∧
      selected <+: selection session.protocol ∧
      Answered env session.protocol session.target reply final relayed ∧
      (successReply session.protocol ≠ [] → final = successReply session.protocol →
        ∃ host port stream, session.target = some ⟨host, port⟩ ∧
          env.connect host port = .connected stream) ∧
      ∀ target, session.target = some target → ∃ admitted entry st st',
        admitClient env state client = .ok admitted entry ∧
        chooseProtocol entry = .ok session.protocol st ∧
        parseTargetByProtocol session.protocol st = .ok target st' := by
  unfold handleClient at hServed
  cases hAdmit : admitClient env state client with
  | error e st =>
    rw [hAdmit] at hServed
    cases hServed
  | ok admitted entry =>
    rw [hAdmit] at hServed
    cases hServed
    obtain ⟨start, login, hStarts, hLogin, hEntry⟩ := admitClient_sent hAdmit
    obtain ⟨selected, reply, final, relayed, hSent, hSelected, hAnswered⟩ :=
      asyncHandleClient_answers env entry
    rw [answerFailure_protocol, answerFailure_target]
    refine ⟨start, login, selected, reply, final, relayed, by rw [hSent, hEntry], hStarts, hLogin,
      hSelected, hAnswered, hAnswered.established, fun target hTarget => ?_⟩
    cases hChoose : chooseProtocol entry with
    | error e st =>
      unfold asyncHandleClient at hTarget
      rw [hChoose] at hTarget
      cases hTarget
    | ok protocol st =>
      obtain ⟨hProtocol, hRecords⟩ := @asyncHandleClient_records env _ _ _ hChoose
      obtain ⟨st', hParse⟩ := (hRecords target).mp hTarget
      rw [hProtocol]
      exact ⟨admitted, entry, st, st', rfl, hChoose, hParse⟩

theorem replies_truthful_socks5 : ∃ session start login selected reply final relayed,
    handleClient (quietWorld 0) ⟨false, none, none, none⟩
      (plainClient [[5, 1, 0], [5, 1, 0, 1, 127, 0, 0, 1, 0, 80]] .fresh) = .served session ∧
    session.client.output.sent = start ++ login ++ selected ++ final ++ relayed ∧
    selected <+: selection session.protocol ∧
    Answered (quietWorld 0) session.protocol session.target reply final relayed := by
  obtain ⟨session, hServed⟩ : ∃ session, handleClient (quietWorld 0) ⟨false, none, none, none⟩
      (plainClient [[5, 1, 0], [5, 1, 0, 1, 127, 0, 0, 1, 0, 80]] .fresh) = .served session :=
    ⟨_, rfl⟩
  obtain ⟨start, login, selected, reply, final, relayed, hSent, _, _, hSelected, hAnswered, _⟩ :=
    replies_truthful hServed
  exact ⟨session, start, login, selected, reply, final, relayed, hServed, hSent, hSelected,
    hAnswered⟩

end Admission

end CrabbyProxy.Proxy
