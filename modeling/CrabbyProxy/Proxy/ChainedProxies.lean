import CrabbyProxy.Proxy.BufferPool
import CrabbyProxy.Proxy.Transcript

/-!
# Two proxies in a row

The upstream proxy of a handshake may be another instance of this one. What it gets starts
with the zeroes of the pooled buffer.
-/

namespace CrabbyProxy.Proxy

open CrabbyProxy.Stream
set_option autoImplicit false

/-- The connection of the client, as the run leaves it. -/
def Handled.client : Handled → ClientStream
  | .refused _ client => client
  | .served session => session.client

/-- There are zeroes where the first two bytes of a stream should be. -/
def Blank (bytes : List UInt8) : Prop := bytes.take 2 <+: [0, 0]

section Blank

variable {env : Environment} {state : AppState} {client st : ClientStream} {bytes : List UInt8}

theorem Blank.of_isPrefix (h : Blank bytes) {seen : List UInt8} (hSeen : seen <+: bytes) :
    Blank seen := by
  obtain ⟨rest, rfl⟩ := hSeen
  refine List.IsPrefix.trans ?_ h
  rw [List.take_append]
  exact List.prefix_append _ _

theorem Blank.detectProtocol (h : Blank bytes) : detectProtocol (fill 4 bytes) = .tcp := by
  have hFirst : (fill 4 bytes).get 0 = 0 := by
    rw [fill_get_zero 3]
    cases bytes with
    | nil => rfl
    | cons b rest =>
      obtain ⟨rest', hCons⟩ := h
      cases rest with
      | nil => exact (List.cons.inj hCons).1
      | cons c rest => exact (List.cons.inj hCons).1
  rw [detectProtocol_of_lt (by rw [hFirst]; decide), hFirst]
  decide

/-- Zeroes are not the length of a target. -/
theorem Blank.not_lengthPrefixed (h : Blank bytes) {target : ProxyTarget} :
    ¬LengthPrefixed bytes target := by
  rintro ⟨length, text, hLength, hPos, _, _⟩
  obtain ⟨high, low, hBytes, rfl⟩ := exists_bytes_of_u16 length
  rw [hBytes] at h
  obtain ⟨rest, hBoth⟩ := h
  obtain ⟨rfl, hLow⟩ := List.cons.inj hBoth
  obtain ⟨rfl, _⟩ := List.cons.inj hLow
  exact absurd hPos (by decide)

theorem not_parseTarget_of_blank (h : Blank st.input.content) {target : ProxyTarget}
    {after : ClientStream} : parseTarget st ≠ .ok target after := by
  intro hParse
  obtain ⟨taken, _, ⟨hWord, _⟩, hContent, _⟩ := denotes_parseTarget.sound hParse
  exact (h.of_isPrefix ⟨_, hContent.symm⟩).not_lengthPrefixed hWord

theorem timeout_peek_isPrefix {n : Nat} {after : ClientStream}
    (h : timeout (peek n) st = .ok (some (.ok bytes)) after) : bytes <+: st.input.content := by
  have hPrefix := st.input.peek_isPrefix true n
  unfold timeout at h
  cases hPeek : (peek n : ClientProgram _) { st with timed := true } with
  | error e st' =>
    rw [hPeek] at h
    cases e <;> cases h
  | ok seen st' =>
    rw [hPeek] at h
    cases h
    unfold peek received at hPeek
    split at hPeek <;> rename_i heq <;> cases hPeek
    · rw [show st.input.peek true n = _ from heq] at hPrefix
      exact hPrefix
    · exact List.nil_prefix

theorem Blank.detectClientProtocol (h : Blank client.input.content) {protocol : ProxyProtocol}
    (hRun : detectClientProtocol client = .ok protocol st) : protocol = .tcp := by
  obtain ⟨outcome, st₁, hPeek, hRest⟩ := bind_eq_ok.mp hRun
  cases outcome with
  | none =>
    cases hRest
    rfl
  | some result =>
    cases result with
    | error e => cases hRest
    | ok seen =>
      cases hRest
      exact (h.of_isPrefix (timeout_peek_isPrefix hPeek)).detectProtocol

theorem Blank.chooseProtocol (h : Blank client.input.content) (hPlain : client.transport = .plain)
    {protocol : ProxyProtocol} (hRun : chooseProtocol client = .ok protocol st) :
    protocol = .tcp := by
  obtain ⟨outcome, st₁, hPeek, hRest⟩ := bind_eq_ok.mp hRun
  rw [timeout_peekEquivalent_of_plain hPlain] at hPeek
  cases outcome with
  | none =>
    cases hRest
    rfl
  | some result =>
    cases result with
    | error e =>
      cases hRest
      rfl
    | ok seen =>
      cases hRest
      exact (h.of_isPrefix (timeout_peek_isPrefix hPeek)).detectProtocol

theorem output_detectClientProtocol (client : ClientStream) :
    (stateOf (detectClientProtocol client)).output = client.output := by
  have hSame := stateOf_timeout (peek 4) client
  cases hPeek : timeout (peek 4) client with
  | ok outcome st =>
    have hRest : stateOf (detectClientProtocol client) = st := by
      rw [detectClientProtocol, bind_ok hPeek]
      cases outcome with
      | none => rfl
      | some result => cases result <;> rfl
    rw [hPeek, stateOf] at hSame
    rw [hRest, hSame]
    exact Says.received _ _
  | error e st =>
    rw [hPeek, stateOf] at hSame
    rw [detectClientProtocol, bind_error hPeek, stateOf, hSame]
    exact Says.received _ _

theorem asyncHandleClient_of_blank (h : Blank client.input.content)
    (hPlain : client.transport = .plain) :
    (answerFailure (asyncHandleClient env client)).client.output.sent = client.output.sent := by
  obtain ⟨selected, reply, final, relayed, hSent, hSelected, hAnswered⟩ :=
    asyncHandleClient_answers env client
  cases hChoose : chooseProtocol client with
  | error e st =>
    have hOutput := output_chooseProtocol client
    rw [hChoose, stateOf] at hOutput
    have hNone : asyncHandleClient env client =
        ⟨.tcp, none, none, st, none, some (e, .handshake)⟩ := by
      unfold asyncHandleClient
      rw [hChoose]
    obtain ⟨final, hFinal, hEnd⟩ := @answerFailure_handshake (asyncHandleClient env client) e
      (by rw [hNone])
    rw [hNone] at hFinal
    rw [hEnd, List.prefix_nil.mp hFinal, List.append_nil, hNone]
    exact congrArg Outbound.sent hOutput
  | ok protocol st =>
    obtain ⟨hProtocol, hRecords⟩ := @asyncHandleClient_records env _ _ _ hChoose
    obtain rfl := h.chooseProtocol hPlain hChoose
    obtain ⟨input, rfl, hContent⟩ := chooseProtocol_ok hPlain hChoose
    rw [hProtocol] at hSelected hAnswered
    have hTarget : ∀ target, (asyncHandleClient env client).target ≠ some target := by
      intro target hSome
      obtain ⟨after, hParse⟩ := (hRecords target).mp hSome
      rw [← hContent] at h
      exact not_parseTarget_of_blank h hParse
    rw [hSent, List.prefix_nil.mp hSelected]
    cases hAnswered with
    | failed errorType hFinal =>
      rw [List.prefix_nil.mp hFinal]
      simp only [List.append_nil]
    | connected hSome => exact absurd hSome (hTarget _)

/-- A proxy that gets zeroes writes nothing, whatever its configuration and its network. -/
theorem silent_on_blank (h : Blank client.input.content) (hPlain : client.transport = .plain) :
    (handleClient env state client).client.output.sent = client.output.sent := by
  unfold handleClient
  have hDetected := output_detectClientProtocol client
  cases hDetect : detectClientProtocol client with
  | error e st =>
    rw [hDetect, stateOf] at hDetected
    rw [admitClient, bind_error hDetect]
    exact congrArg Outbound.sent hDetected
  | ok protocol st =>
    obtain rfl := h.detectClientProtocol hDetect
    obtain ⟨input, rfl, hContent⟩ := detectClientProtocol_ok hDetect
    have hUpgrade : upgrade state .tcp { client with input := input } =
        .ok () { client with input := input } := if_neg (by decide)
    rw [admitClient, bind_ok hDetect, bind_ok hUpgrade]
    by_cases hCreds : state.requireCreds = true
    · rw [if_pos hCreds]
      rfl
    · rw [if_neg hCreds]
      rw [← hContent] at h
      exact @asyncHandleClient_of_blank _ { client with input := input } h hPlain

end Blank

/-- At the other end of this connection is another proxy. It gets a part of what is sent, and a
part of what it writes comes back. -/
def Chained (buffer : List UInt8) (target : ProxyTarget) (stream : UpstreamStream) : Prop :=
  ∃ env state client, client.transport = .plain ∧
    stream.output.sent ++ client.input.content <+:
      (sendConnect buffer target stream).2.output.sent ∧
    client.output.sent ++ stream.input.content <+:
      (handleClient env state client).client.output.sent

/-- Handshakes among proxies of this kind, whose buffers come from one pool. -/
inductive ChainHistory : List (List UInt8) → List (List UInt8) → Prop
  | new : ChainHistory [] []
  | start {free held rest : List (List UInt8)} {buffer : List UInt8} (h : ChainHistory free held)
      (hAlloc : Alloc initialHttpHeaderSize free buffer rest) : ChainHistory rest (buffer :: held)
  | finish {free held : List (List UInt8)} {buffer : List UInt8} (h : ChainHistory free held)
      (hHeld : buffer ∈ held) {reads : Nat} {target : ProxyTarget} {stream : UpstreamStream}
      {ended : HandShake} (hChained : Chained buffer target stream)
      (hRun : handShake reads buffer target stream = some ended) :
      ChainHistory (ended.buffer :: free) (held.erase buffer)

variable {buffer : List UInt8} {target : ProxyTarget} {stream : UpstreamStream}
  {free held rest : List (List UInt8)} {reads : Nat}

/-- A buffer with zeroes in front, as big as the pool has to make it. -/
structure Zeroed (buffer : List UInt8) : Prop where
  big : initialHttpHeaderSize ≤ buffer.length
  blank : Blank buffer

theorem blank_replicate (n : Nat) : Blank (List.replicate n 0) := by
  rw [Blank, List.take_replicate]
  refine ⟨List.replicate (2 - min 2 n) 0, ?_⟩
  have hTwo : min 2 n + (2 - min 2 n) = 2 := by omega
  rw [← List.replicate_add, hTwo]
  rfl

theorem Zeroed.append (h : Zeroed buffer) (more : List UInt8) : Blank (buffer ++ more) := by
  rw [Blank, List.take_append_of_le_length (Nat.le_trans (by decide) h.big)]
  exact h.blank

/-- What comes back from the other proxy is nothing. -/
theorem Zeroed.nothing (h : Zeroed buffer) (hChained : Chained buffer target stream) :
    stream.input.content = [] := by
  obtain ⟨env, state, client, hPlain, hGot, hAnswer⟩ := hChained
  have hSent := stream.output.write_sent (buffer ++ connectRequest target)
  have hSend : (sendConnect buffer target stream).2.output =
      (stream.output.write (buffer ++ connectRequest target)).2 := by
    unfold sendConnect writeToStream
    split <;> rename_i hWrite <;> rw [hWrite]
  rw [hSend, hSent] at hGot
  have hPart := (List.prefix_append_right_inj _).mp hGot
  have hBlank := (h.append (connectRequest target)).of_isPrefix (hPart.trans (List.take_prefix _ _))
  rw [silent_on_blank hBlank hPlain] at hAnswer
  exact List.prefix_nil.mp
    ((List.prefix_append_right_inj _).mp (hAnswer.trans (List.append_nil _ ▸ List.prefix_rfl)))

theorem readFromStream_of_nothing (hNothing : stream.input.content = []) (n : Nat) :
    (∃ after, readFromStream n stream = (.ok [], after) ∧ after.input.content = []) ∨
      ∃ context error after,
        readFromStream n stream = (.error (.disconnected context error), after) := by
  have hContent := stream.input.read_content false n
  rw [hNothing] at hContent
  obtain ⟨hBytes, hRest⟩ := List.append_eq_nil_iff.mp hContent.symm
  unfold readFromStream
  split <;> rename_i hRead <;> rw [hRead] at hBytes hRest
  · obtain rfl := hBytes
    exact .inl ⟨_, rfl, hRest⟩
  · exact .inl ⟨_, rfl, hRest⟩
  · exact .inr ⟨_, _, _, rfl⟩

theorem readHead_of_nothing {result : Except ProxyError Nat × List UInt8 × UpstreamStream}
    (hNothing : stream.input.content = []) (h : readHead reads [] stream = some result) :
    (∃ context error, result.1 = .error (.disconnected context error)) ∧ result.2.1 = [] := by
  induction reads generalizing stream with
  | zero => cases h
  | succ reads ih =>
    obtain ⟨after, hRead, hAfter⟩ | ⟨context, error, after, hRead⟩ :=
      readFromStream_of_nothing hNothing 256
    · rw [readHead_succ hRead, List.append_nil, bodyStart_nil] at h
      exact ih hAfter h
    · rw [readHead, hRead] at h
      cases h
      exact ⟨⟨context, error, rfl⟩, rfl⟩

/-- A handshake that gets nothing ends, if it does, with the error of its own connection. -/
theorem handShake_of_nothing {ended : HandShake} (hNothing : stream.input.content = [])
    (h : handShake reads buffer target stream = some ended) :
    (∃ context error, ended.result = .error (.disconnected context error)) ∧
      (ended.buffer = [] ∨ ended.buffer = buffer ++ connectRequest target) := by
  have hInput := input_sendConnect buffer target stream
  unfold handShake at h
  cases hSend : sendConnect buffer target stream with
  | mk sending after =>
    rw [hSend] at h hInput
    cases sending with
    | error e =>
      cases h
      unfold sendConnect writeToStream at hSend
      split at hSend <;> cases hSend
      exact ⟨⟨_, _, rfl⟩, .inr rfl⟩
    | ok u =>
      obtain ⟨⟨result, received, last⟩, hRun, hEnded⟩ := Option.map_eq_some_iff.mp h
      obtain ⟨⟨context, error, hError⟩, hReceived⟩ :=
        readHead_of_nothing ((congrArg Inbound.content hInput).trans hNothing) hRun
      obtain rfl : result = .error (.disconnected context error) := hError
      cases hEnded
      exact ⟨⟨context, error, rfl⟩, .inl hReceived⟩

/-- The pool never gets anything else to hand out. -/
theorem ChainHistory.zeroed (h : ChainHistory free held) :
    (∀ buffer ∈ free, Blank buffer) ∧ ∀ buffer ∈ held, Zeroed buffer := by
  induction h with
  | new => exact ⟨List.forall_mem_nil _, List.forall_mem_nil _⟩
  | @start free held rest buffer h hAlloc ih =>
    obtain ⟨hFree, hHeld⟩ := ih
    cases hAlloc with
    | new n hLen =>
      refine ⟨hFree, List.forall_mem_cons.mpr ⟨⟨?_, blank_replicate n⟩, hHeld⟩⟩
      rwa [List.length_replicate]
    | reused hMem hLen =>
      exact ⟨fun other hOther => hFree other (List.mem_of_mem_erase hOther),
        List.forall_mem_cons.mpr ⟨⟨hLen, hFree _ hMem⟩, hHeld⟩⟩
  | @finish free held buffer h hMem reads target stream ended hChained hRun ih =>
    obtain ⟨hFree, hHeld⟩ := ih
    have hZeroed := hHeld _ hMem
    obtain ⟨_, hLeft⟩ := handShake_of_nothing (hZeroed.nothing hChained) hRun
    refine ⟨List.forall_mem_cons.mpr ⟨?_, hFree⟩,
      fun other hOther => hHeld other (List.mem_of_mem_erase hOther)⟩
    obtain hNone | hBoth := hLeft
    · rw [hNone]
      exact List.nil_prefix
    · rw [hBoth]
      exact hZeroed.append _

theorem ChainHistory.alloc (h : ChainHistory free held)
    (hAlloc : Alloc initialHttpHeaderSize free buffer rest) : Zeroed buffer :=
  (h.start hAlloc).zeroed.2 _ List.mem_cons_self

/-- Proxies of this kind cannot be chained. As long as they talk to each other only, no
handshake ever gets through: unless its own connection breaks it reads for ever. -/
theorem chained_handShake_never_ends (h : ChainHistory free held)
    (hAlloc : Alloc initialHttpHeaderSize free buffer rest)
    (hChained : Chained buffer target stream) (reads : Nat) :
    (∀ ended, handShake reads buffer target stream = some ended →
        ∃ context error, ended.result = .error (.disconnected context error)) ∧
      (stream.output.Open → stream.input.Calm →
        handShake reads buffer target stream = none) := by
  have hNothing := (h.alloc hAlloc).nothing hChained
  refine ⟨fun ended hRun => (handShake_of_nothing hNothing hRun).1, fun hOpen hCalm => ?_⟩
  obtain ⟨taken, hTaken⟩ := hOpen.write (buffer ++ connectRequest target)
  have hInput := input_sendConnect buffer target stream
  unfold handShake
  cases hSend : sendConnect buffer target stream with
  | mk sending after =>
    rw [hSend] at hInput
    cases sending with
    | error e =>
      unfold sendConnect writeToStream at hSend
      split at hSend <;> rename_i hWrite
      · cases hSend
      · rw [hWrite] at hTaken
        cases hTaken
    | ok u =>
      have hCalm' : after.input.Calm := by rwa [hInput]
      have hReads := @readHead_eq_none [] after hCalm'
        (by rw [hInput, hNothing]; exact bodyStart_nil) reads
      dsimp only
      rw [hReads, Option.map_none]

/-- A peer that gets everything at once and wants credentials. -/
theorem chained_new (target : ProxyTarget) :
    Chained (List.replicate 1024 0) target (upstream [] .fresh) :=
  ⟨quietWorld 0, ⟨true, some "alice", some "secret", none⟩,
    plainClient [(sendConnect (List.replicate 1024 0) target (upstream [] .fresh)).2.output.sent]
      .fresh, rfl, by rw [content_plainClient, List.flatten_singleton]; exact List.prefix_rfl,
    List.nil_prefix⟩

theorem chained_handShake_never_ends_first :
    handShake 1000 (List.replicate 1024 0) ⟨"example.com", 443⟩ (upstream [] .fresh) = none :=
  (chained_handShake_never_ends .new (.new 1024 (Nat.le_refl _)) (chained_new _) 1000).2 rfl
    (Inbound.calm_ofSegments _)

end CrabbyProxy.Proxy
