import CrabbyProxy.Proxy.Requests

/-!
# Detection inside TLS

Over plain TCP the session peeks at the first bytes. Inside TLS it reads them, so
the target parser starts behind what the first read took.
-/

namespace CrabbyProxy.Proxy

open CrabbyProxy.Stream
set_option autoImplicit false

/-- What a read before the deadline takes, and the stream after it. -/
def bite (n : Nat) (st : ClientStream) : List UInt8 × ClientStream :=
  ((st.input.read true n).2.1, { st with input := (st.input.read true n).2.2 })

theorem content_bite (n : Nat) (st : ClientStream) :
    st.input.content = (bite n st).1 ++ (bite n st).2.input.content := st.input.read_content true n

theorem steady_bite {n : Nat} {st : ClientStream} (h : Steady st) : Steady (bite n st).2 :=
  ⟨h.calm.of_subset (st.input.read_coming_subset true n), h.writable, h.closes⟩

theorem chooseProtocol_of_tls {st : ClientStream} (hTransport : st.transport = .tls true)
    (h : st.input.Calm) : chooseProtocol st =
      .ok (detectProtocol (fill 4 (bite 4 st).1)) (bite 4 st).2 := by
  have hRead : peekEquivalent 4 { st with timed := true } = read 4 { st with timed := true } :=
    @peekEquivalent_of_tls { st with timed := true } hTransport 4
  have hTimeout : timeout (peekEquivalent 4) st = .ok (some (.ok (bite 4 st).1)) (bite 4 st).2 := by
    rw [timeout, hRead, @read_of_calm _ { st with timed := true } h 4]
    rfl
  rw [chooseProtocol, bind_ok hTimeout]
  rfl

theorem detectProtocol_take_ne_https {bytes : List UInt8}
    (h : detectProtocol (fill 4 (bytes.take 4)) ≠ .https) (n : Nat) :
    detectProtocol (fill 4 (bytes.take n)) ≠ .https := by
  intro hTls
  rw [detectProtocol_https_iff, fill_get_zero 3] at hTls
  apply h
  rw [detectProtocol_https_iff, fill_get_zero 3]
  cases bytes with
  | nil => exact absurd hTls (by rw [List.take_nil]; decide)
  | cons b rest =>
    cases n with
    | zero => exact absurd hTls (by rw [List.take_zero]; decide)
    | succ n => exact hTls

def Handled.chosen : Handled → Option (ProxyProtocol × Option ProxyTarget)
  | .refused _ _ => none
  | .served session => some (session.protocol, session.target)

/-- The run goes by this protocol and these bytes. -/
def Handled.GoesBy (handled : Handled) (protocol : ProxyProtocol) (bytes : List UInt8) : Prop :=
  ∃ session, handled = .served session ∧ session.protocol = protocol ∧
    ∀ target, session.target = some target ↔ Names bytes target protocol

theorem Handled.GoesBy.chosen_eq_iff {handled handled' : Handled}
    {protocol protocol' : ProxyProtocol} {bytes bytes' : List UInt8}
    (h : handled.GoesBy protocol bytes) (h' : handled'.GoesBy protocol' bytes') :
    handled.chosen = handled'.chosen ↔ protocol = protocol' ∧
      ∀ target, Names bytes target protocol ↔ Names bytes' target protocol' := by
  obtain ⟨session, rfl, rfl, hTarget⟩ := h
  obtain ⟨session', rfl, rfl, hTarget'⟩ := h'
  rw [chosen, chosen, Option.some.injEq, Prod.mk.injEq, Option.ext_iff]
  simp only [hTarget, hTarget']

variable {env : Environment} {state : AppState}

theorem goesBy_of_chooses {client st : ClientStream} {protocol : ProxyProtocol}
    (hChoose : chooseProtocol client = .ok protocol st) (hProtocol : protocol ≠ .https)
    (hSteady : Steady st) :
    (Handled.served (answerFailure (asyncHandleClient env client))).GoesBy protocol
      st.input.content := by
  obtain ⟨hSame, hTarget⟩ := @asyncHandleClient_records env _ _ _ hChoose
  refine ⟨_, rfl, ?_, fun target => ?_⟩
  · rw [answerFailure_protocol, hSame]
  · rw [answerFailure_target, hTarget, parse_names_iff hProtocol hSteady]

theorem plain_goesBy (hCreds : state.requireCreds = false) {bytes : List UInt8}
    {output : Outbound} (hOpen : output.Open) (hCloses : output.closes = true)
    (hKnown : detectProtocol (fill 4 (bytes.take 4)) ≠ .https) :
    (handleClient env state (plainClient [bytes] output)).GoesBy
      (detectProtocol (fill 4 (bytes.take 4))) bytes := by
  have hSteady := @steady_plainClient [bytes] output hOpen hCloses
  have hFirst : (glance 4 (plainClient [bytes] output)).1 = bytes.take 4 := by
    cases bytes <;> rfl
  have hSecond : (glance 4 (glance 4 (plainClient [bytes] output)).2).1 = bytes.take 4 := by
    cases bytes <;> rfl
  have hChoose := @chooseProtocol_of_plain (glance 4 (plainClient [bytes] output)).2 rfl
    (calm_glance hSteady.calm)
  rw [hSecond] at hChoose
  have hGoes := @goesBy_of_chooses env _ _ _ hChoose hKnown (steady_parsed hSteady)
  rw [handleClient_of_plain hCreds hSteady.calm (by rw [hFirst]; exact hKnown)]
  rwa [content_glance, content_glance, content_plainClient, List.flatten_singleton] at hGoes

def firstRead (segments : List (List UInt8)) : Nat :=
  ((Inbound.ofSegments segments).read true 4).2.1.length

theorem tls_goesBy (hCreds : state.requireCreds = false) {acceptor : TlsAcceptor}
    (hAcceptor : state.tlsAcceptor = some acceptor) {raw : ClientStream} (hCalm : raw.input.Calm)
    (hTls : detectProtocol (fill 4 (glance 4 raw).1) = .https) {segments : List (List UInt8)}
    {output : Outbound}
    (hAccept : acceptor.accept (glance 4 raw).2 = .ok ⟨true, .ofSegments segments, output⟩)
    (hOpen : output.Open) (hCloses : output.closes = true)
    (hKnown : detectProtocol (fill 4 (segments.flatten.take 4)) ≠ .https) :
    (handleClient env state raw).GoesBy
      (detectProtocol (fill 4 (segments.flatten.take (firstRead segments))))
      (segments.flatten.drop (firstRead segments)) := by
  let tls : ClientStream := ⟨.tls true, .ofSegments segments, output, false⟩
  have hSteady : Steady tls := ⟨Inbound.calm_ofSegments segments, hOpen, hCloses⟩
  have hContent : segments.flatten = (bite 4 tls).1 ++ (bite 4 tls).2.input.content :=
    (Inbound.content_ofSegments segments).symm.trans (content_bite 4 tls)
  have hTaken : segments.flatten.take (firstRead segments) = (bite 4 tls).1 := by
    rw [hContent]
    exact List.take_left
  have hLeft : segments.flatten.drop (firstRead segments) = (bite 4 tls).2.input.content := by
    rw [hContent]
    exact List.drop_left
  have hProtocol := detectProtocol_take_ne_https hKnown (firstRead segments)
  have hChoose := @chooseProtocol_of_tls tls rfl hSteady.calm
  rw [← hTaken] at hChoose
  rw [handleClient_of_tls hCreds hCalm hTls hAcceptor hAccept, hLeft]
  exact goesBy_of_chooses hChoose hProtocol (steady_bite hSteady)

/-- A client inside TLS gets the protocol and target of the plain client if and
only if the first read and what it leaves mean the same as the whole stream. -/
theorem tls_agrees_iff (hCreds : state.requireCreds = false) {acceptor : TlsAcceptor}
    (hAcceptor : state.tlsAcceptor = some acceptor) {raw : ClientStream} (hCalm : raw.input.Calm)
    (hTls : detectProtocol (fill 4 (glance 4 raw).1) = .https) {bytes : List UInt8}
    {segments : List (List UInt8)} {output plainOutput : Outbound}
    (hAccept : acceptor.accept (glance 4 raw).2 = .ok ⟨true, .ofSegments segments, output⟩)
    (hBytes : segments.flatten = bytes) (hOpen : output.Open) (hCloses : output.closes = true)
    (hPlainOpen : plainOutput.Open) (hPlainCloses : plainOutput.closes = true)
    (hKnown : detectProtocol (fill 4 (bytes.take 4)) ≠ .https) :
    (handleClient env state raw).chosen =
        (handleClient env state (plainClient [bytes] plainOutput)).chosen ↔
      detectProtocol (fill 4 (bytes.take (firstRead segments))) =
          detectProtocol (fill 4 (bytes.take 4)) ∧
        ∀ target, Names (bytes.drop (firstRead segments)) target
            (detectProtocol (fill 4 (bytes.take (firstRead segments)))) ↔
          Names bytes target (detectProtocol (fill 4 (bytes.take 4))) := by
  subst hBytes
  exact (tls_goesBy hCreds hAcceptor hCalm hTls hAccept hOpen hCloses hKnown).chosen_eq_iff
    (plain_goesBy hCreds hPlainOpen hPlainCloses hKnown)

def decryptsTo (segments : List (List UInt8)) : AppState :=
  ⟨false, none, none, some ⟨fun _ => .ok ⟨true, .ofSegments segments, .fresh⟩⟩⟩

def tlsHello : ClientStream := plainClient [[0x16, 0x03, 0x01, 0x00]] .fresh

def deleteRequest : List UInt8 := Text.asBytes "DELETE http://a/ HTTP/1.1\r\n\r\n"

theorem tls_agrees_iff_delete :
    (handleClient (quietWorld 60) (decryptsTo [deleteRequest]) tlsHello).chosen =
      (handleClient (quietWorld 60) (decryptsTo [deleteRequest])
        (plainClient [deleteRequest] .fresh)).chosen := by
  have hKnown : detectProtocol (fill 4 (deleteRequest.take 4)) = .http := by decide
  -- behind the four letters that are read, "TE" still stands where a method name may stand
  have hRead : firstRead [deleteRequest] = 4 := by decide
  have hTargets : lineTarget (lineOf 0x0a (deleteRequest.drop 4)) =
      lineTarget (lineOf 0x0a deleteRequest) := by decide
  refine (tls_agrees_iff rfl rfl (steady_freshClient _).calm (by decide) rfl (by decide)
    Outbound.open_fresh rfl Outbound.open_fresh rfl (by rw [hKnown]; decide)).mpr ?_
  rw [hRead, hKnown]
  exact ⟨rfl, fun target => Eq.congr_left hTargets⟩

/-- The four letters of an ordinary request line are gone when it is parsed. -/
theorem tls_loses_first_bytes :
    ¬∀ env state acceptor raw bytes segments output plainOutput,
      AppState.requireCreds state = false → state.tlsAcceptor = some acceptor →
      Inbound.Calm (Duplex.input raw) → detectProtocol (fill 4 (glance 4 raw).1) = .https →
      acceptor.accept (glance 4 raw).2 = .ok ⟨true, .ofSegments segments, output⟩ →
      segments.flatten = bytes → Outbound.Open output → output.closes = true →
      Outbound.Open plainOutput → plainOutput.closes = true →
      detectProtocol (fill 4 (bytes.take 4)) ≠ .https →
      (handleClient env state raw).chosen =
        (handleClient env state (plainClient [bytes] plainOutput)).chosen := by
  intro hAll
  let request : List UInt8 := Text.asBytes "GET http://a/ HTTP/1.1\r\n\r\n"
  have hKnown : detectProtocol (fill 4 (request.take 4)) = .http := by decide
  have hRead : firstRead [request] = 4 := by decide
  have hFlat : [request].flatten = request := List.flatten_singleton
  have hTls : detectProtocol (fill 4 (glance 4 tlsHello).1) = .https := by decide
  have hOther : detectProtocol (fill 4 (request.take 4)) ≠ .https := by rw [hKnown]; decide
  have hSame := hAll (quietWorld 60) (decryptsTo [request]) _ tlsHello request [request] .fresh
    .fresh rfl rfl (steady_freshClient _).calm hTls rfl hFlat Outbound.open_fresh rfl
    Outbound.open_fresh rfl hOther
  have hInside := @tls_goesBy (quietWorld 60) (decryptsTo [request]) rfl _ rfl tlsHello
    (steady_freshClient _).calm hTls [request] _ rfl Outbound.open_fresh rfl (by rwa [hFlat])
  have hPlain := @plain_goesBy (quietWorld 60) (decryptsTo [request]) rfl request _
    Outbound.open_fresh rfl hOther
  have hTargets := ((hInside.chosen_eq_iff hPlain).mp hSame).2 ⟨"a", 80⟩
  rw [hFlat, hRead, hKnown] at hTargets
  have hMissing : ¬Names (request.drop 4) ⟨"a", 80⟩ .http := by
    show ¬lineTarget (lineOf 0x0a (request.drop 4)) = .ok ⟨"a", 80⟩
    decide
  apply hMissing
  apply hTargets.mpr
  show lineTarget (lineOf 0x0a request) = .ok ⟨"a", 80⟩
  decide

end CrabbyProxy.Proxy
