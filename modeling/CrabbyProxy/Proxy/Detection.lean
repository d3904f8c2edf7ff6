import CrabbyProxy.Proxy.Sessions

/-!
# Detection and segmentation

Both looks at the stream fill a zeroed buffer with whatever has arrived. Fewer than
four bytes are never taken for HTTP, and every other protocol shows in the first byte.
-/

namespace CrabbyProxy.Proxy

open CrabbyProxy.Stream
set_option autoImplicit false

/-- The protocol of a buffer that is not taken for HTTP. -/
def protocolOfFirst (first : UInt8) : ProxyProtocol :=
  if first = 0x16 then .https
  else if first = 0x05 then .socks5
  else if first = 0x04 then .socks4
  else .tcp

theorem protocolOfFirst_ne_http (first : UInt8) : protocolOfFirst first ≠ .http := by
  unfold protocolOfFirst
  split_ifs <;> decide

theorem detectProtocol_of_ne_http {peekBuf : Vector UInt8 4} (h : detectProtocol peekBuf ≠ .http) :
    detectProtocol peekBuf = protocolOfFirst (peekBuf.get 0) := by
  unfold detectProtocol at h ⊢
  split
  · rename_i hHttp
    rw [if_pos hHttp] at h
    exact absurd rfl h
  · rfl

/-- A buffer that is not full ends in a zero, and no method name does. -/
theorem detectProtocol_short {seen : List UInt8} (h : seen.length < 4) :
    detectProtocol (fill 4 seen) ≠ .http := by
  have hZero : (0 : UInt8) ∈ (fill 4 seen).toList := by
    have hLast : (fill 4 seen).get 3 = 0 := by
      have hGet : (fill 4 seen).get 3 = seen.getD 3 0 := by simp [fill]
      rw [hGet, List.getD_eq_default]
      omega
    rw [← hLast]
    exact List.getElem_mem _
  have hNone : ¬httpMagics.any (·.isPrefixOf (fill 4 seen).toList) = true := by
    intro hAny
    obtain ⟨magic, hMagic, hPrefix⟩ := List.any_eq_true.mp hAny
    obtain ⟨hLength, hLetters⟩ := httpMagic_bounds hMagic
    obtain rfl := (List.isPrefixOf_iff_prefix.mp hPrefix).eq_of_length
      (by rw [hLength, Vector.length_toList])
    exact absurd (hLetters 0 hZero) (by decide)
  unfold detectProtocol
  rw [if_neg hNone]
  exact protocolOfFirst_ne_http _

/-- Some of the first bytes give the protocol of the first four unless that is HTTP. -/
theorem detectProtocol_seen_iff {seen bytes : List UInt8} (hSeen : seen <+: bytes)
    (hSome : seen ≠ []) (hMost : seen.length ≤ 4) (hLength : 4 ≤ bytes.length) :
    detectProtocol (fill 4 seen) = detectProtocol (fill 4 (bytes.take 4)) ↔
      detectProtocol (fill 4 (bytes.take 4)) ≠ .http ∨ 4 ≤ seen.length := by
  by_cases hFull : 4 ≤ seen.length
  · have hSame : seen = bytes.take 4 := by
      rw [List.prefix_iff_eq_take.mp hSeen, Nat.le_antisymm hMost hFull]
    exact iff_of_true (by rw [hSame]) (.inr hFull)
  have hShort := detectProtocol_short (Nat.lt_of_not_le hFull)
  rw [or_iff_left hFull]
  constructor
  · intro hSame hHttp
    exact hShort (hSame.trans hHttp)
  · intro hOther
    rw [detectProtocol_of_ne_http hShort, detectProtocol_of_ne_http hOther, fill_get_zero 3,
      fill_get_zero 3]
    cases seen with
    | nil => exact absurd rfl hSome
    | cons first seen =>
      obtain ⟨rest, rfl⟩ := hSeen
      rfl

theorem await_ofSegments (timed : Bool) (segments : List (List UInt8)) :
    (await timed (segments.map .data)).2.ready = (segments.find? (· ≠ [])).getD [] := by
  induction segments with
  | nil => rfl
  | cons segment segments ih =>
    cases segment with
    | nil =>
      rw [List.map_cons, await, ih, List.find?_cons_of_neg]
      simp
    | cons b bytes =>
      rw [List.map_cons, await, List.find?_cons_of_pos]
      · rfl
      · simp

theorem glance_plainClient (n : Nat) (segments : List (List UInt8)) (output : Outbound) :
    (glance n (plainClient segments output)).1 =
      ((segments.find? (· ≠ [])).getD []).take n := by
  have hReady : ((Inbound.ofSegments segments).poll true).2.ready =
      (segments.find? (· ≠ [])).getD [] := by
    cases segments with
    | nil => rfl
    | cons segment segments =>
      rw [Inbound.poll]
      cases segment with
      | nil =>
        rw [List.find?_cons_of_neg (by simp), ← await_ofSegments true]
        rfl
      | cons b bytes =>
        rw [List.find?_cons_of_pos (by simp)]
        rfl
  exact congrArg (List.take n) hReady

theorem glance_length_le (n : Nat) (st : ClientStream) :
    (glance n st).1.length ≤ (glance n (glance n st).2).1.length :=
  ((st.input.poll true).2.poll_keeps_ready true).take n |>.length_le

variable {env : Environment} {state : AppState} {segments : List (List UInt8)} {output : Outbound}

theorem glance_ne_https {client : ClientStream} (h : client.input.Calm)
    (hTls : client.input.content.head? ≠ some 0x16) :
    detectProtocol (fill 4 (glance 4 client).1) ≠ .https := by
  intro hHttps
  rw [detectProtocol_https_iff, fill_get_zero 3] at hHttps
  cases hContent : client.input.content with
  | nil =>
    rw [(glance_eq_nil_iff h (by decide)).mpr hContent] at hHttps
    cases hHttps
  | cons b rest =>
    obtain ⟨seen, hSeen⟩ := glance_eq_cons h (n := 4) (by decide) hContent
    rw [hSeen] at hHttps
    rw [hContent, List.head?_cons] at hTls
    exact hTls (congrArg some hHttps)

theorem detectProtocol_glance_iff {client : ClientStream} (h : client.input.Calm)
    (hLength : 4 ≤ client.input.content.length) :
    detectProtocol (fill 4 (glance 4 client).1) =
        detectProtocol (fill 4 (client.input.content.take 4)) ↔
      detectProtocol (fill 4 (client.input.content.take 4)) ≠ .http ∨
        4 ≤ (glance 4 client).1.length := by
  apply detectProtocol_seen_iff (glance_isPrefix 4 client) ?_ (List.length_take_le _ _) hLength
  intro hNone
  rw [(glance_eq_nil_iff h (by decide)).mp hNone] at hLength
  exact absurd hLength (by decide)

theorem glance_plainClient_full {segments : List (List UInt8)} {output : Outbound}
    (hLength : 4 ≤ segments.flatten.length) :
    4 ≤ (glance 4 (plainClient segments output)).1.length ↔
      ∀ segment, segments.find? (· ≠ []) = some segment → 4 ≤ segment.length := by
  rw [glance_plainClient, List.length_take]
  cases hFound : segments.find? (· ≠ []) with
  | none =>
    have hEmpty : segments.flatten = [] := by
      rw [List.flatten_eq_nil_iff]
      intro segment hSegment
      have hNone := List.find?_eq_none.mp hFound segment hSegment
      simpa using hNone
    rw [hEmpty] at hLength
    exact absurd hLength (by decide)
  | some segment =>
    rw [Option.getD_some]
    constructor
    · rintro hFull _ ⟨⟩
      omega
    · intro hFull
      have hSegment := hFull segment rfl
      omega

/-- Both looks find the protocol of the first four bytes, unless these name an HTTP
method and fewer than four arrive first. -/
theorem detection_agrees_iff (hCreds : state.requireCreds = false)
    (hLength : 4 ≤ segments.flatten.length) (hTls : segments.flatten.head? ≠ some 0x16) :
    ((∃ st, detectClientProtocol (plainClient segments output) =
        .ok (detectProtocol (fill 4 (segments.flatten.take 4))) st) ∧
      ∃ session, handleClient env state (plainClient segments output) = .served session ∧
        session.protocol = detectProtocol (fill 4 (segments.flatten.take 4))) ↔
      detectProtocol (fill 4 (segments.flatten.take 4)) ≠ .http ∨
        ∀ segment, segments.find? (· ≠ []) = some segment → 4 ≤ segment.length := by
  have hFull := @glance_plainClient_full _ output hLength
  have hCalm : (plainClient segments output).input.Calm := Inbound.calm_ofSegments segments
  rw [← content_plainClient segments output] at hLength hTls ⊢
  have hFirst := detectProtocol_glance_iff hCalm hLength
  have hSecond := @detectProtocol_glance_iff (glance 4 (plainClient segments output)).2
    (calm_glance hCalm) (by rw [content_glance]; exact hLength)
  rw [content_glance] at hSecond
  have hRecords := (@asyncHandleClient_records env _ _ _ (@chooseProtocol_of_plain
    (glance 4 (plainClient segments output)).2 rfl (calm_glance hCalm))).1
  rw [detectClientProtocol_of_calm hCalm,
    handleClient_of_plain hCreds hCalm (glance_ne_https hCalm hTls), ← hFull]
  constructor
  · rintro ⟨⟨_, hOk⟩, _⟩
    injection hOk with hSame
    exact hFirst.mp hSame
  · intro hWhen
    refine ⟨⟨_, congrArg (EStateM.Result.ok · _) (hFirst.mpr hWhen)⟩, _, rfl, ?_⟩
    rw [answerFailure_protocol, hRecords]
    exact hSecond.mpr (hWhen.imp_right fun hSeen => hSeen.trans (glance_length_le 4 _))

theorem detection_agrees_iff_slow :
    (∃ st, detectClientProtocol (plainClient [[0x05], [0x01], [0x00, 0x05]] .fresh) =
      .ok .socks5 st) ∧
    ∃ session, handleClient (quietWorld 0) ⟨false, none, none, none⟩
      (plainClient [[0x05], [0x01], [0x00, 0x05]] .fresh) = .served session ∧
        session.protocol = .socks5 :=
  (@detection_agrees_iff _ _ [[0x05], [0x01], [0x00, 0x05]] _ rfl (by decide)
    (by decide)).mpr (.inl (by decide))

/-- A client whose GET arrives in pieces is taken for one of plain TCP, twice. -/
theorem split_method_is_tcp :
    detectProtocol (fill 4 ([[0x47], [0x45], [0x54, 0x20]].flatten.take 4)) = .http ∧
    (∃ st, detectClientProtocol (plainClient [[0x47], [0x45], [0x54, 0x20]] .fresh) =
      .ok .tcp st) ∧
    (∃ session, handleClient (quietWorld 0) ⟨false, none, none, none⟩
      (plainClient [[0x47], [0x45], [0x54, 0x20]] .fresh) = .served session ∧
        session.protocol = .tcp) ∧
    ¬((∃ st, detectClientProtocol (plainClient [[0x47], [0x45], [0x54, 0x20]] .fresh) =
        .ok (detectProtocol (fill 4 ([[0x47], [0x45], [0x54, 0x20]].flatten.take 4))) st) ∧
      ∃ session, handleClient (quietWorld 0) ⟨false, none, none, none⟩
        (plainClient [[0x47], [0x45], [0x54, 0x20]] .fresh) = .served session ∧
        session.protocol =
          detectProtocol (fill 4 ([[0x47], [0x45], [0x54, 0x20]].flatten.take 4))) := by
  have hHttp : detectProtocol (fill 4 ([[0x47], [0x45], [0x54, 0x20]].flatten.take 4)) = .http := by
    decide
  refine ⟨hHttp, ⟨_, rfl⟩, ⟨_, rfl, rfl⟩, ?_⟩
  rintro ⟨⟨st, hOk⟩, _⟩
  rw [hHttp] at hOk
  cases hOk

end CrabbyProxy.Proxy
