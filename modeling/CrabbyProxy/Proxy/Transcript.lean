import CrabbyProxy.Proxy.Answers

/-!
# The SOCKS5 transcript

A SOCKS5 server selects one of the methods it was offered, and replies once it has read
the head of a request. The proxy writes its selection without a look at the offer, and
its failure reply wherever it fails.
-/

namespace CrabbyProxy.Proxy

open CrabbyProxy.Stream
set_option autoImplicit false

/-- The bytes are a greeting that offers these methods, and what comes after it. -/
def Greets (bytes methods rest : List UInt8) : Prop :=
  ∃ n, methods.length = UInt8.toNat n ∧ bytes = [0x05, n] ++ methods ++ rest

/-- What a server may have written to a client from which it has taken these bytes. -/
inductive Transcript (taken : List UInt8) : List UInt8 → Prop
  | silent : Transcript taken []
  | refused {methods rest : List UInt8} (hGreets : Greets taken methods rest)
      (hNone : 0x00 ∉ methods) : Transcript taken [0x05, 0xff]
  | selected {methods rest : List UInt8} (hGreets : Greets taken methods rest) {m : UInt8}
      (hOffer : m ∈ methods) : Transcript taken [0x05, m]
  | replied {methods rest : List UInt8} (hGreets : Greets taken methods rest) {m : UInt8}
      (hOffer : m ∈ methods) (hHeader : 4 ≤ rest.length) (rep : UInt8) {tail : List UInt8}
      (hTail : tail.length = 6) :
    Transcript taken ([0x05, m] ++ ([0x05, rep, 0x00, 0x01] ++ tail))

theorem Greets.append {bytes methods rest : List UInt8} (h : Greets bytes methods rest)
    (more : List UInt8) : Greets (bytes ++ more) methods (rest ++ more) := by
  obtain ⟨n, hMethods, rfl⟩ := h
  exact ⟨n, hMethods, List.append_assoc _ _ _⟩

theorem Greets.unique {bytes methods methods' rest rest' : List UInt8}
    (h : Greets bytes methods rest) (h' : Greets bytes methods' rest') :
    methods = methods' ∧ rest = rest' := by
  obtain ⟨n, hMethods, rfl⟩ := h
  obtain ⟨n', hMethods', hSame⟩ := h'
  rw [List.append_assoc, List.append_assoc] at hSame
  simp only [List.cons_append, List.nil_append, List.cons.injEq, true_and] at hSame
  obtain ⟨rfl, hSame⟩ := hSame
  exact List.append_inj hSame (hMethods.trans hMethods'.symm)

theorem Transcript.eq_nil {taken transcript : List UInt8} (h : Transcript taken transcript)
    (hNone : ∀ methods rest, ¬ Greets taken methods rest) : transcript = [] := by
  cases h with
  | silent => rfl
  | refused hGreets | selected hGreets | replied hGreets => exact absurd hGreets (hNone _ _)

/-- A selection of `00` needs an offer of it, and more than that a request header. -/
theorem Transcript.of_selection {taken unread transcript methods rest said : List UInt8}
    (h : Transcript taken transcript) (hGreets : Greets (taken ++ unread) methods rest)
    (hSaid : [0x05, 0x00] ++ said <+: transcript) :
    0x00 ∈ methods ∧ (said = [] ∨ 4 ≤ rest.length) := by
  cases h with
  | silent => cases List.prefix_nil.mp hSaid
  | refused hGreets' hNone =>
    rw [List.cons_append, List.cons_append, List.cons_prefix_cons, List.cons_prefix_cons] at hSaid
    exact absurd hSaid.2.1 (by decide)
  | selected hGreets' hOffer =>
    obtain ⟨rfl, rfl⟩ := hGreets.unique (hGreets'.append unread)
    rw [List.cons_append, List.cons_append, List.cons_prefix_cons, List.cons_prefix_cons] at hSaid
    obtain ⟨_, rfl, hNil⟩ := hSaid
    exact ⟨hOffer, .inl (List.prefix_nil.mp hNil)⟩
  | replied hGreets' hOffer hHeader =>
    obtain ⟨rfl, rfl⟩ := hGreets.unique (hGreets'.append unread)
    rw [List.cons_append, List.cons_append, List.cons_append, List.cons_append,
      List.cons_prefix_cons, List.cons_prefix_cons] at hSaid
    obtain ⟨_, rfl, _⟩ := hSaid
    rw [List.length_append]
    exact ⟨hOffer, .inr (Nat.le_add_right_of_le hHeader)⟩

theorem greets_of_buffers {st₁ st₂ : ClientStream} {bytes : List UInt8} {buf : Vector UInt8 2}
    {methods : Vector UInt8 (buf.get 1).toNat} (hVersion : buf.get 0 = 0x05)
    (hBuf : bytes = buf.toList ++ st₁.input.content)
    (hMethods : st₁.input.content = methods.toList ++ st₂.input.content) :
    Greets bytes methods.toList st₂.input.content := by
  refine ⟨buf.get 1, methods.length_toList, ?_⟩
  rw [hBuf, hMethods, toList_buffer_two, hVersion, List.append_assoc]

/-- The part of `parse_socks5_target` behind the request header. -/
def parseSocks5Command (reqBuf : Vector UInt8 4) : ClientProgram ProxyTarget :=
  if reqBuf.get 0 ≠ 0x05 ∨ reqBuf.get 1 ≠ 0x01 then ioError .invalidData "Invalid SOCKS5 request"
  else parseSocks5Address (reqBuf.get 3)

/-- The part behind the greeting. -/
def parseSocks5Request : ClientProgram ProxyTarget := do
  writeAll [0x05, 0x00]
  let reqBuf ← readExact 4
  parseSocks5Command reqBuf

/-- What is known once the selection has been written. The request header has been read
unless the stream ends or breaks. -/
structure Selected (before : ClientStream) (rest : List UInt8)
    (result : EStateM.Result Fault ClientStream ProxyTarget) : Prop where
  wrote : before.output.Wrote (stateOf result).output [0x05, 0x00]
  unread : (stateOf result).input.content <:+ rest
  header : 4 ≤ rest.length ∧ (stateOf result).input.content <:+ rest.drop 4 ∨
    (rest.length < 4 ∨ before.output.passed [0x05, 0x00] ≠ [0x05, 0x00]) ∧
      ∃ e st, result = .error e st ∧ e ≠ .panic

theorem parseSocks5Request_selected {st : ClientStream} (hTimed : st.timed = false) :
    Selected st st.input.content (parseSocks5Request st) := by
  have hWrote := st.output.writeAll_wrote [0x05, 0x00]
  by_cases hPassed : st.output.passed [0x05, 0x00] = [0x05, 0x00]
  swap
  · have hRun : parseSocks5Request st = .error (.io ⟨.brokenPipe, "Broken pipe"⟩)
        { st with output := (st.output.writeAll [0x05, 0x00]).2 } := by
      rw [parseSocks5Request]
      refine bind_error ?_
      rw [writeAll_eq, if_neg hPassed]
    rw [hRun]
    exact ⟨hWrote, List.suffix_rfl, .inr ⟨.inr hPassed, _, _, rfl, by rintro ⟨⟩⟩⟩
  have hWrite : writeAll [0x05, 0x00] st =
      .ok () { st with output := (st.output.writeAll [0x05, 0x00]).2 } := by
    rw [writeAll_eq, if_pos hPassed]
  obtain ⟨reqBuf, st₁, hRead, _, hOutput, hContent⟩ | ⟨e, st₁, hRead, hPanic, hSilent, hShort⟩ :=
    @readExact_untimed _ { st with output := (st.output.writeAll [0x05, 0x00]).2 } hTimed 4
  · have hRest : parseSocks5Request st = parseSocks5Command reqBuf st₁ := by
      rw [parseSocks5Request, bind_ok hWrite, bind_ok hRead]
    have hSilent : st₁.output.Wrote (stateOf (parseSocks5Command reqBuf st₁)).output [] :=
      Says.silent (.ite (.ioError _ _ _) (says_parseSocks5Address _)) st₁
    have hFraming : Framing (parseSocks5Command reqBuf) :=
      .ite (.ioError _ _) (@denotes_parseSocks5Address false _).framing
    have hUnread := (hFraming st₁).unread
    have hHeader : st.input.content = reqBuf.toList ++ st₁.input.content := hContent
    rw [hOutput] at hSilent
    rw [hRest, hHeader]
    refine ⟨hWrote.append hSilent, hUnread.trans (List.suffix_append _ _), .inl ⟨?_, ?_⟩⟩
    · rw [List.length_append, Vector.length_toList]
      exact Nat.le_add_right _ _
    · rw [List.drop_left' reqBuf.length_toList]
      exact hUnread
  · have hRun : parseSocks5Request st = .error e st₁ := by
      rw [parseSocks5Request, bind_ok hWrite, bind_error hRead]
    have hFramed := (Framing.readExact 4) { st with output := (st.output.writeAll [0x05, 0x00]).2 }
    rw [hRead] at hFramed
    rw [hRun]
    exact ⟨hWrote.append hSilent, hFramed.unread, .inr ⟨.inl hShort, e, st₁, rfl, hPanic⟩⟩

/-- Without a deadline, the target parser writes its selection behind a greeting, whatever
that offers, and nothing before. -/
theorem parseSocks5Target_runs {st : ClientStream} (hTimed : st.timed = false) :
    (∃ e st', parseSocks5Target st = .error e st' ∧ e ≠ .panic ∧ st.output.Wrote st'.output [] ∧
      ∀ methods rest, ¬ Greets st.input.content methods rest) ∨
    ∃ methods rest, Greets st.input.content methods rest ∧
      Selected st rest (parseSocks5Target st) := by
  obtain ⟨buf, st₁, hBuf, hTimed₁, hOutput₁, hContent⟩ | ⟨e, st', hRun, hPanic, hWrote, hShort⟩ :=
    readExact_untimed hTimed 2
  swap
  · refine .inl ⟨e, st', bind_error hRun, hPanic, hWrote, ?_⟩
    rintro methods rest ⟨n, _, hGreets⟩
    rw [hGreets] at hShort
    simp at hShort
  by_cases hVersion : buf.get 0 = 0x05
  swap
  · refine .inl ⟨.io ⟨.invalidData, "Invalid SOCKS5 version"⟩, st₁, ?_, by rintro ⟨⟩, ?_, ?_⟩
    · rw [parseSocks5Target, bind_ok hBuf, if_pos hVersion]
      rfl
    · rw [hOutput₁]
      exact .nil _
    · rintro methods rest ⟨n, _, hGreets⟩
      rw [hContent, toList_buffer_two] at hGreets
      exact hVersion (List.cons.inj hGreets).1
  have hGreeted : parseSocks5Target st =
      (readExact (buf.get 1).toNat >>= fun _ => parseSocks5Request) st₁ := by
    rw [parseSocks5Target, bind_ok hBuf, if_neg (not_not.mpr hVersion)]
    rfl
  obtain ⟨methods, st₂, hMethods, hTimed₂, hOutput₂, hContent₂⟩ |
    ⟨e, st', hRun, hPanic, hWrote, hShort⟩ := readExact_untimed hTimed₁ (buf.get 1).toNat
  · refine .inr ⟨methods.toList, st₂.input.content,
      greets_of_buffers hVersion hContent hContent₂, ?_⟩
    rw [hGreeted, bind_ok hMethods]
    obtain ⟨hWrote, hUnread, hHeader⟩ := parseSocks5Request_selected hTimed₂
    rw [hOutput₂, hOutput₁] at hWrote hHeader
    exact ⟨hWrote, hUnread, hHeader⟩
  · refine .inl ⟨e, st', hGreeted.trans (bind_error hRun), hPanic, ?_, ?_⟩
    · rw [← hOutput₁]
      exact hWrote
    · rintro methods rest ⟨n, hMethods, hGreets⟩
      rw [hContent, toList_buffer_two, List.append_assoc] at hGreets
      simp only [List.cons_append, List.nil_append, List.cons.injEq] at hGreets
      rw [hGreets.2.2, List.length_append, hMethods, hGreets.2.1] at hShort
      omega

theorem answerFailure_input (session : Session) :
    (answerFailure session).client.input = session.client.input := by
  rw [answerFailure_client, stateOf_writeAll]

theorem connectTarget_input {env : Environment} (hQuiet : env.schedule = [])
    (protocol : ProxyProtocol) (target : ProxyTarget) (st : ClientStream) :
    (connectTarget env protocol target st).client.input = st.input := by
  unfold connectTarget
  rw [lookupHost_targetAddr]
  dsimp only
  cases env.connect target.host target.port with
  | timedOut | refused e => rfl
  | connected stream =>
    dsimp only
    rw [openTunnel, sendSuccessResponse_eq, writeAll_eq, hQuiet]
    split_ifs <;> rfl

/-- How a SOCKS5 client and the proxy have got on before anything is relayed. -/
inductive Exchange (before after : ClientStream) : Prop
  | ungreeted (hNone : ∀ methods rest, ¬ Greets before.input.content methods rest)
      (hUnread : after.input.content <:+ before.input.content)
      (hSent : after.output.sent = before.output.sent ++
        before.output.passed (failureReply .socks5 .handshake))
  | greeted {methods rest reply : List UInt8} (hGreets : Greets before.input.content methods rest)
      (hUnread : after.input.content <:+ rest)
      (hSent : after.output.sent = before.output.sent ++
        before.output.passed ([0x05, 0x00] ++ reply))
      (hHeader : 4 ≤ rest.length ∧ after.input.content <:+ rest.drop 4 ∧
          (reply = [] ∨ ∃ rep, reply = [0x05, rep, 0x00, 0x01] ++ List.replicate 6 0x00) ∨
        (rest.length < 4 ∨ before.output.passed [0x05, 0x00] ≠ [0x05, 0x00]) ∧
          reply = failureReply .socks5 .handshake)

theorem Answered.socks5_reply {env : Environment} {target : Option ProxyTarget}
    {reply final relayed : List UInt8} (h : Answered env .socks5 target reply final relayed) :
    ∃ rep, reply = [0x05, rep, 0x00, 0x01] ++ List.replicate 6 0x00 := by
  cases h with
  | failed errorType => exact ⟨0x01, by cases errorType <;> rfl⟩
  | connected => exact ⟨0x00, rfl⟩

theorem asyncHandleClient_exchange {env : Environment} (hQuiet : env.schedule = [])
    {entry st : ClientStream} (hChoose : chooseProtocol entry = .ok .socks5 st)
    (hTimed : st.timed = false) :
    Exchange st (answerFailure (asyncHandleClient env entry)).client := by
  obtain ⟨e, st', hRun, hPanic, hWrote, hNone⟩ | ⟨methods, rest, hGreets, hSelected⟩ :=
    parseSocks5Target_runs hTimed
  · have hFramed := (@denotes_parseSocks5Target false).framing st
    rw [hRun] at hFramed
    rw [asyncHandleClient_of_error hChoose hRun]
    refine .ungreeted hNone (by rw [answerFailure_input]; exact hFramed.unread) ?_
    rw [answerFailure_failed rfl hPanic (by rintro ⟨⟩), hWrote.sent_append, List.nil_append]
  obtain ⟨hWrote, hUnread, hHeader⟩ := hSelected
  cases hRun : parseSocks5Target st with
  | error e st' =>
    rw [hRun, stateOf] at hWrote hUnread hHeader
    rw [asyncHandleClient_of_error hChoose hRun]
    obtain ⟨hLong, hRest⟩ | ⟨hShort, e', st₁, hError, hPanic⟩ := hHeader
    · refine .greeted hGreets (by rw [answerFailure_input]; exact hUnread)
        (by rw [answerFailure_sent, hWrote.sent_append])
        (.inl ⟨hLong, by rw [answerFailure_input]; exact hRest, ?_⟩)
      refine (answer_cases _).imp_right ?_
      rintro ⟨errorType, hAnswer⟩
      exact ⟨0x01, hAnswer.trans (by cases errorType <;> rfl)⟩
    · cases hError
      refine .greeted hGreets (by rw [answerFailure_input]; exact hUnread) ?_ (.inr ⟨hShort, rfl⟩)
      rw [answerFailure_failed rfl hPanic (by rintro ⟨⟩), hWrote.sent_append]
  | ok target st' =>
    rw [hRun, stateOf] at hWrote hUnread hHeader
    rw [asyncHandleClient_of_target hChoose hRun]
    have hInput := connectTarget_input hQuiet .socks5 target st'
    rw [← answerFailure_input] at hInput
    obtain ⟨reply, relayed, hSent, hNothing, hAnswered⟩ :=
      connectTarget_answers env .socks5 target st'
    rw [hNothing hQuiet, List.append_nil, hWrote.sent_append] at hSent
    obtain ⟨hLong, hRest⟩ | ⟨_, _, _, hError, _⟩ := hHeader
    · exact .greeted hGreets (by rw [hInput]; exact hUnread) hSent
        (.inl ⟨hLong, by rw [hInput]; exact hRest, .inr hAnswered.socks5_reply⟩)
    · cases hError

section Verdict

variable {before after : ClientStream}

theorem passed_selection {o : Outbound} (hNone : o.room ≠ some 0) (hOne : o.room ≠ some 1)
    (reply : List UInt8) : ∃ said, o.passed ([0x05, 0x00] ++ reply) = [0x05, 0x00] ++ said ∧
      (said = [] → reply = [] ∨ o.room = some 2) := by
  have hRoom : ({ o with room := o.room.map (· - 2) } : Outbound).room = o.room.map (· - 2) := rfl
  have hSelection : o.passed [0x05, 0x00] = [0x05, 0x00] := by
    rw [Outbound.passed_eq_self_iff]
    intro room hSome
    rw [hSome, ne_eq, Option.some.injEq] at hNone hOne
    simp only [List.length_cons, List.length_nil]
    omega
  refine ⟨_, (Outbound.passed_append hRoom).trans (by rw [hSelection]), fun hSaid => ?_⟩
  cases reply with
  | nil => exact .inl rfl
  | cons b reply =>
    have hZero := Outbound.room_of_passed_nil hSaid
    obtain ⟨room, hSome, hLess⟩ := Option.map_eq_some_iff.mp hZero
    rw [hSome, ne_eq, Option.some.injEq] at hNone hOne
    rw [hSome]
    right
    congr 1
    omega

theorem Exchange.of_transcript (h : Exchange before after) (hFresh : before.output.sent = [])
    {taken transcript : List UInt8} (hTaken : before.input.content = taken ++ after.input.content)
    (hTranscript : Transcript taken transcript) (hSent : after.output.sent <+: transcript) :
    before.output.room = some 0 ∨ ∃ methods rest, Greets before.input.content methods rest ∧
      (before.output.room = some 1 ∨
        0x00 ∈ methods ∧ (before.output.room = some 2 ∨ 4 ≤ rest.length)) := by
  cases h with
  | ungreeted hNone _ hReply =>
    left
    rw [hTranscript.eq_nil fun methods rest hGreets => ?_, List.prefix_nil, hReply, hFresh] at hSent
    · exact Outbound.room_of_passed_nil hSent
    · rw [hTaken] at hNone
      exact hNone _ _ (hGreets.append _)
  | @greeted methods rest reply hGreets _ hReply hHeader =>
    by_cases hZero : before.output.room = some 0
    · exact .inl hZero
    refine .inr ⟨methods, rest, hGreets, ?_⟩
    by_cases hOne : before.output.room = some 1
    · exact .inl hOne
    right
    obtain ⟨said, hPassed, hSaid⟩ := passed_selection hZero hOne reply
    rw [hReply, hFresh, hPassed, List.nil_append] at hSent
    rw [hTaken] at hGreets
    obtain ⟨hOffer, hMore⟩ := hTranscript.of_selection hGreets hSent
    refine ⟨hOffer, ?_⟩
    obtain ⟨hLong, _⟩ | ⟨_, rfl⟩ := hHeader
    · exact .inr hLong
    · refine hMore.imp_left fun hNil => ?_
      exact (hSaid hNil).resolve_left (List.cons_ne_nil _ _)

theorem transcript_of_greeted {o : Outbound} {taken methods head unread reply : List UInt8}
    (hGreets : Greets taken methods head)
    (hHeader : 4 ≤ (head ++ unread).length ∧ unread <:+ (head ++ unread).drop 4 ∧
        (reply = [] ∨ ∃ rep, reply = [0x05, rep, 0x00, 0x01] ++ List.replicate 6 0x00) ∨
      (head ++ unread).length < 4 ∨ o.passed [0x05, 0x00] ≠ [0x05, 0x00])
    (hWhen : o.room = some 0 ∨ o.room = some 1 ∨
      0x00 ∈ methods ∧ (o.room = some 2 ∨ 4 ≤ (head ++ unread).length)) :
    ∃ transcript, Transcript taken transcript ∧ o.passed ([0x05, 0x00] ++ reply) <+: transcript := by
  obtain hZero | hOne | ⟨hOffer, hTwo | hLong⟩ := hWhen
  · exact ⟨[], .silent, by rw [Outbound.passed_of_some hZero]; exact List.prefix_rfl⟩
  · rw [Outbound.passed_of_some hOne]
    by_cases hOffer : 0x00 ∈ methods
    · exact ⟨_, .selected hGreets hOffer, [0x00], rfl⟩
    · exact ⟨_, .refused hGreets hOffer, [0xff], rfl⟩
  · rw [Outbound.passed_of_some hTwo]
    exact ⟨_, .selected hGreets hOffer, List.prefix_rfl⟩
  obtain ⟨_, hUnread, hReply⟩ | hShort | hCut := hHeader
  · have hHead : 4 ≤ head.length := by
      have hLess := hUnread.length_le
      rw [List.length_drop, List.length_append] at hLess
      rw [List.length_append] at hLong
      omega
    obtain rfl | ⟨rep, rfl⟩ := hReply
    · exact ⟨_, .selected hGreets hOffer, o.passed_isPrefix _⟩
    · exact ⟨_, .replied hGreets hOffer hHead rep List.length_replicate, o.passed_isPrefix _⟩
  · omega
  · rw [Outbound.passed_append_of_cut hCut]
    exact ⟨_, .selected hGreets hOffer, o.passed_isPrefix _⟩

theorem Exchange.transcript_iff (h : Exchange before after) (hFresh : before.output.sent = []) :
    (∃ taken transcript, before.input.content = taken ++ after.input.content ∧
      Transcript taken transcript ∧ after.output.sent <+: transcript) ↔
    before.output.room = some 0 ∨ ∃ methods rest, Greets before.input.content methods rest ∧
      (before.output.room = some 1 ∨
        0x00 ∈ methods ∧ (before.output.room = some 2 ∨ 4 ≤ rest.length)) := by
  constructor
  · rintro ⟨taken, transcript, hTaken, hTranscript, hSent⟩
    exact h.of_transcript hFresh hTaken hTranscript hSent
  intro hWhen
  cases h with
  | ungreeted hNone hUnread hReply =>
    obtain hZero | ⟨methods, rest, hGreets, _⟩ := hWhen
    · obtain ⟨taken, hTaken⟩ := hUnread
      refine ⟨taken, [], hTaken.symm, .silent, ?_⟩
      rw [hReply, hFresh, Outbound.passed_of_some hZero, List.take_zero]
      exact List.prefix_rfl
    · exact absurd hGreets (hNone methods rest)
  | @greeted methods rest reply hGreets hUnread hReply hHeader =>
    have hGreets' := hGreets
    obtain ⟨head, rfl⟩ := hUnread
    obtain ⟨n, hMethods, hContent⟩ := hGreets
    rw [← List.append_assoc] at hContent
    have hCond : before.output.room = some 0 ∨ before.output.room = some 1 ∨ 0x00 ∈ methods ∧
        (before.output.room = some 2 ∨ 4 ≤ (head ++ after.input.content).length) := by
      refine hWhen.imp_right ?_
      rintro ⟨methods', rest', hOther, hRest⟩
      obtain ⟨rfl, rfl⟩ := hGreets'.unique hOther
      exact hRest
    obtain ⟨transcript, hTranscript, hPrefix⟩ :=
      transcript_of_greeted ⟨n, hMethods, rfl⟩ (hHeader.imp_right And.left) hCond
    rw [hReply, hFresh, List.nil_append]
    exact ⟨_, transcript, hContent, hTranscript, hPrefix⟩

end Verdict

/-- A run up to its relay does not depend on how that is scheduled, and what the relay adds
came from the target. -/
theorem connectTarget_opening (env : Environment) (protocol : ProxyProtocol) (target : ProxyTarget)
    (st : ClientStream) : ∃ relayed,
      (answerFailure (connectTarget env protocol target st)).client.output.sent =
        (answerFailure (connectTarget { env with schedule := [] } protocol target
          st)).client.output.sent ++ relayed ∧
      (relayed ≠ [] → ∃ stream, env.connect target.host target.port = .connected stream ∧
        relayed <+: stream.input.content) := by
  unfold connectTarget
  rw [lookupHost_targetAddr]
  dsimp only
  cases env.connect target.host target.port with
  | timedOut | refused e => exact ⟨[], (List.append_nil _).symm, fun hSome => absurd rfl hSome⟩
  | connected stream =>
    dsimp only
    rw [openTunnel, openTunnel, sendSuccessResponse_eq, writeAll_eq]
    by_cases hPassed : st.output.passed (successReply protocol) = successReply protocol
    · rw [if_pos hPassed]
      dsimp only
      let opened := Tunnel.new { st with output := (st.output.writeAll (successReply protocol)).2 }
        stream
      obtain ⟨_, relayed, _, hRelays⟩ :=
        Tunnel.relays_run opened.client stream env.schedule
      refine ⟨relayed, ?_, fun _ => ⟨stream, rfl, hRelays.isPrefix⟩⟩
      rw [answerFailure_tunnel rfl, @answerFailure_tunnel _ (opened.run []) rfl]
      exact hRelays.sent
    · rw [if_neg hPassed]
      exact ⟨[], (List.append_nil _).symm, fun hSome => absurd rfl hSome⟩

section Sessions

variable {env : Environment} {state : AppState} {input : Inbound} {output : Outbound}
  {session : Session}

theorem chooseProtocol_ok {client after : ClientStream} {protocol : ProxyProtocol}
    (hPlain : client.transport = .plain) (h : chooseProtocol client = .ok protocol after) :
    ∃ input, after = { client with input := input } ∧ input.content = client.input.content := by
  obtain ⟨outcome, st, hPeek, hRest⟩ := bind_eq_ok.mp h
  rw [timeout_peekEquivalent_of_plain hPlain] at hPeek
  have hAfter : after = st := by
    split at hRest <;> cases hRest <;> rfl
  rw [hAfter]
  exact timeout_peek_ok hPeek

/-- What a SOCKS5 client has been sent before the relay has had a turn. -/
theorem opening_transcript_iff (hCreds : state.requireCreds = false) (hFresh : output.sent = [])
    (hTls : ∀ st, detectClientProtocol ⟨.plain, input, output, false⟩ ≠ .ok .https st)
    (hServed : handleClient { env with schedule := [] } state ⟨.plain, input, output, false⟩ =
      .served session)
    (hSocks5 : session.protocol = .socks5) :
    (∃ taken transcript, input.content = taken ++ session.client.input.content ∧
      Transcript taken transcript ∧ session.client.output.sent <+: transcript) ↔
    output.room = some 0 ∨ ∃ methods rest, Greets input.content methods rest ∧
      (output.room = some 1 ∨ 0x00 ∈ methods ∧ (output.room = some 2 ∨ 4 ≤ rest.length)) := by
  unfold handleClient at hServed
  cases hAdmit : admitClient { env with schedule := [] } state ⟨.plain, input, output, false⟩ with
  | error e st =>
    rw [hAdmit] at hServed
    cases hServed
  | ok admitted entry =>
    rw [hAdmit] at hServed
    cases hServed
    obtain ⟨before, ⟨seen, hDetect, hSeen, hStream⟩, hEntry⟩ := admitClient_ok hAdmit
    rw [if_neg fun hHttps => hTls _ (by rw [hDetect, hHttps])] at hStream
    rw [hCreds, if_neg Bool.false_ne_true, hStream] at hEntry
    subst hEntry
    rw [answerFailure_protocol] at hSocks5
    cases hChoose : chooseProtocol ⟨.plain, seen, output, false⟩ with
    | error e st =>
      unfold asyncHandleClient at hSocks5
      rw [hChoose] at hSocks5
      cases hSocks5
    | ok protocol st =>
      obtain rfl : protocol = .socks5 :=
        (asyncHandleClient_records hChoose).1.symm.trans hSocks5
      obtain ⟨ready, rfl, hReady⟩ := chooseProtocol_ok rfl hChoose
      have hExchange := @asyncHandleClient_exchange { env with schedule := [] } rfl _ _ hChoose rfl
      have hIff := hExchange.transcript_iff hFresh
      rw [← hSeen, ← hReady]
      exact hIff

theorem asyncHandleClient_opening (env : Environment) (client : ClientStream) : ∃ relayed,
    (asyncHandleClient { env with schedule := [] } client).protocol =
      (asyncHandleClient env client).protocol ∧
    (answerFailure (asyncHandleClient env client)).client.output.sent =
      (answerFailure (asyncHandleClient { env with schedule := [] } client)).client.output.sent ++
        relayed ∧
    (relayed ≠ [] → ∃ host port stream,
      (asyncHandleClient env client).target = some ⟨host, port⟩ ∧
        env.connect host port = .connected stream ∧ relayed <+: stream.input.content) := by
  unfold asyncHandleClient
  cases chooseProtocol client with
  | error e st => exact ⟨[], rfl, (List.append_nil _).symm, fun hSome => absurd rfl hSome⟩
  | ok protocol st =>
    dsimp only
    cases parseTargetByProtocol protocol st with
    | error e st' => exact ⟨[], rfl, (List.append_nil _).symm, fun hSome => absurd rfl hSome⟩
    | ok target st' =>
      dsimp only
      obtain ⟨relayed, hSent, hRelayed⟩ := connectTarget_opening env protocol target st'
      rw [(connectTarget_records _ _ _).1, (connectTarget_records _ _ _).1,
        (connectTarget_records _ _ _).2.1]
      refine ⟨relayed, rfl, hSent, fun hSome => ?_⟩
      obtain ⟨stream, hConnect, hPrefix⟩ := hRelayed hSome
      exact ⟨_, _, stream, rfl, hConnect, hPrefix⟩

theorem handleClient_opening {client : ClientStream}
    (hServed : handleClient env state client = .served session) :
    ∃ opening relayed, handleClient { env with schedule := [] } state client = .served opening ∧
      opening.protocol = session.protocol ∧
      session.client.output.sent = opening.client.output.sent ++ relayed ∧
      (relayed ≠ [] → ∃ host port stream, session.target = some ⟨host, port⟩ ∧
        env.connect host port = .connected stream ∧ relayed <+: stream.input.content) := by
  unfold handleClient at hServed ⊢
  cases hAdmit : admitClient env state client with
  | error e st =>
    rw [hAdmit] at hServed
    cases hServed
  | ok admitted entry =>
    rw [hAdmit] at hServed
    cases hServed
    have hSame : admitClient { env with schedule := [] } state client = .ok admitted entry := hAdmit
    rw [hSame]
    obtain ⟨relayed, hProtocol, hSent, hRelayed⟩ := asyncHandleClient_opening env entry
    refine ⟨_, relayed, rfl, ?_, hSent, ?_⟩
    · rw [answerFailure_protocol, answerFailure_protocol, hProtocol]
    · rw [answerFailure_target]
      exact hRelayed

/-- Up to the relay, a SOCKS5 client is sent part of a valid transcript exactly if it offers
`00` and sends a request header, or takes too little for the difference to show. -/
theorem socks5_transcript_iff (hCreds : state.requireCreds = false) (hFresh : output.sent = [])
    (hTls : ∀ st, detectClientProtocol ⟨.plain, input, output, false⟩ ≠ .ok .https st)
    (hServed : handleClient env state ⟨.plain, input, output, false⟩ = .served session)
    (hSocks5 : session.protocol = .socks5) :
    ∃ opening relayed, handleClient { env with schedule := [] } state
        ⟨.plain, input, output, false⟩ = .served opening ∧
      session.client.output.sent = opening.client.output.sent ++ relayed ∧
      (relayed ≠ [] → ∃ host port stream, session.target = some ⟨host, port⟩ ∧
        env.connect host port = .connected stream ∧ relayed <+: stream.input.content) ∧
      ((∃ taken transcript, input.content = taken ++ opening.client.input.content ∧
        Transcript taken transcript ∧ opening.client.output.sent <+: transcript) ↔
      output.room = some 0 ∨ ∃ methods rest, Greets input.content methods rest ∧
        (output.room = some 1 ∨ 0x00 ∈ methods ∧ (output.room = some 2 ∨ 4 ≤ rest.length))) := by
  obtain ⟨opening, relayed, hOpening, hProtocol, hSent, hRelayed⟩ := handleClient_opening hServed
  exact ⟨opening, relayed, hOpening, hSent, hRelayed,
    opening_transcript_iff hCreds hFresh hTls hOpening (hProtocol.trans hSocks5)⟩

/-- The protocol of a session, what its client was sent and what is left unread. -/
def Handled.outcome : Handled → Option (ProxyProtocol × List UInt8 × List UInt8)
  | .served session =>
    some (session.protocol, session.client.output.sent, session.client.input.content)
  | .refused _ _ => none

theorem Handled.served_of_outcome {handled : Handled} {protocol : ProxyProtocol}
    {sent unread : List UInt8} (h : handled.outcome = some (protocol, sent, unread)) :
    ∃ session, handled = .served session ∧ session.protocol = protocol ∧
      session.client.output.sent = sent ∧ session.client.input.content = unread := by
  cases handled with
  | refused fault client => cases h
  | served session =>
    cases h
    exact ⟨session, rfl, rfl, rfl, rfl⟩

theorem socks5_transcript_iff_offered : ∃ opening,
    handleClient { quietWorld 24 with schedule := [] } ⟨false, none, none, none⟩
      ⟨.plain, .ofSegments [[5, 1, 0], [5, 1, 0, 1, 127, 0, 0, 1, 0, 80]], .fresh, false⟩ =
        .served opening ∧
    ∃ taken transcript, (Inbound.ofSegments [[5, 1, 0], [5, 1, 0, 1, 127, 0, 0, 1, 0, 80]]).content =
        taken ++ opening.client.input.content ∧
      Transcript taken transcript ∧ opening.client.output.sent <+: transcript := by
  obtain ⟨session, hServed, hSocks5, _⟩ := @Handled.served_of_outcome
    (handleClient (quietWorld 24) ⟨false, none, none, none⟩
      ⟨.plain, .ofSegments [[5, 1, 0], [5, 1, 0, 1, 127, 0, 0, 1, 0, 80]], .fresh, false⟩)
    .socks5 [5, 0, 5, 0, 0, 1, 0, 0, 0, 0, 0, 0] [] (by decide +kernel)
  obtain ⟨opening, _, hOpening, _, _, hIff⟩ :=
    socks5_transcript_iff rfl rfl (fun st hTls => by cases hTls) hServed hSocks5
  refine ⟨opening, hOpening, hIff.mpr (.inr ⟨[0], [5, 1, 0, 1, 127, 0, 0, 1, 0, 80],
    ⟨1, rfl, rfl⟩, .inr ⟨by decide, .inr (by decide)⟩⟩)⟩

/-- A client that offers only a password is told to go on without one. -/
theorem selection_ignores_offer : ∃ session,
    handleClient { quietWorld 0 with schedule := [] } ⟨false, none, none, none⟩
      ⟨.plain, .ofSegments [[5, 1, 2], [5, 1, 0, 1, 127, 0, 0, 1, 0, 80]], .fresh, false⟩ =
        .served session ∧
    session.protocol = .socks5 ∧
    session.client.output.sent = [5, 0, 5, 0, 0, 1, 0, 0, 0, 0, 0, 0] ∧
    ¬ ∃ taken transcript,
      (Inbound.ofSegments [[5, 1, 2], [5, 1, 0, 1, 127, 0, 0, 1, 0, 80]]).content =
        taken ++ session.client.input.content ∧
      Transcript taken transcript ∧ session.client.output.sent <+: transcript := by
  obtain ⟨session, hServed, hSocks5, hSent, _⟩ := @Handled.served_of_outcome
    (handleClient { quietWorld 0 with schedule := [] } ⟨false, none, none, none⟩
      ⟨.plain, .ofSegments [[5, 1, 2], [5, 1, 0, 1, 127, 0, 0, 1, 0, 80]], .fresh, false⟩)
    .socks5 [5, 0, 5, 0, 0, 1, 0, 0, 0, 0, 0, 0] [] (by decide +kernel)
  refine ⟨session, hServed, hSocks5, hSent, ?_⟩
  rintro ⟨taken, transcript, hTaken, hTranscript, hPrefix⟩
  have hGreets : Greets (Inbound.ofSegments [[5, 1, 2], [5, 1, 0, 1, 127, 0, 0, 1, 0, 80]]).content
    [2] [5, 1, 0, 1, 127, 0, 0, 1, 0, 80] := ⟨1, rfl, rfl⟩
  rw [hTaken] at hGreets
  rw [hSent] at hPrefix
  exact absurd (hTranscript.of_selection hGreets hPrefix).1 (by decide)

end Sessions

end CrabbyProxy.Proxy
