import CrabbyProxy.Library.Pieces
import CrabbyProxy.Proxy.ResponseHead

/-!
# The pooled buffers of the handshake

A pool hands out vectors of at least the size asked for: new ones are zeroed, others
are as their previous user left them. What goes out starts with the vector's content.
-/

namespace CrabbyProxy.Proxy

open CrabbyProxy.Stream
set_option autoImplicit false

/-- What the pool may hand out for `n` bytes, and what it keeps. -/
inductive Alloc (n : Nat) (free : List (List UInt8)) : List UInt8 → List (List UInt8) → Prop
  | new (len : Nat) (hLen : n ≤ len) : Alloc n free (List.replicate len 0) free
  | reused {buffer : List UInt8} (hFree : buffer ∈ free) (hLen : n ≤ buffer.length) :
    Alloc n free buffer (free.erase buffer)

/-- The buffers in the pool and in the hands of running calls, after any number of calls,
one after the other or side by side. -/
inductive PoolHistory : List (List UInt8) → List (List UInt8) → Prop
  | new : PoolHistory [] []
  | start {free held rest : List (List UInt8)} {buffer : List UInt8} (h : PoolHistory free held)
      (hAlloc : Alloc initialHttpHeaderSize free buffer rest) : PoolHistory rest (buffer :: held)
  | finish {free held : List (List UInt8)} {buffer : List UInt8} (h : PoolHistory free held)
      (hHeld : buffer ∈ held) {reads : Nat} {target : ProxyTarget} {stream : UpstreamStream}
      {ended : HandShake} (hRun : handShake reads buffer target stream = some ended) :
    PoolHistory (ended.buffer :: free) (held.erase buffer)

/-- An earlier call has given this buffer back. -/
def LeftBehind (buffer : List UInt8) : Prop :=
  ∃ reads earlier target stream ended, handShake reads earlier target stream = some ended ∧
    ended.buffer = buffer

variable {free held rest : List (List UInt8)} {buffer : List UInt8} {reads n : Nat}
  {target : ProxyTarget} {stream : UpstreamStream}

theorem PoolHistory.leftBehind (h : PoolHistory free held) : ∀ buffer ∈ free, LeftBehind buffer := by
  induction h with
  | new => nofun
  | start h hAlloc ih =>
    intro buffer hFree
    cases hAlloc with
    | new len hLen => exact ih buffer hFree
    | reused hOld hLen => exact ih buffer (List.mem_of_mem_erase hFree)
  | finish h hHeld hRun ih =>
    intro buffer hFree
    obtain rfl | hFree := List.mem_cons.mp hFree
    · exact ⟨_, _, _, _, _, hRun, rfl⟩
    · exact ih buffer hFree

theorem connectRequest_eq_cons (target : ProxyTarget) :
    ∃ tail, connectRequest target = 0x43 :: tail := by
  have hStart : Text.asBytes "CONNECT " = 0x43 :: Text.asBytes "ONNECT " := by decide
  rw [connectRequest, hStart]
  exact ⟨_, rfl⟩

theorem connectRequest_ne_nil (target : ProxyTarget) : connectRequest target ≠ [] := by
  obtain ⟨tail, hCons⟩ := connectRequest_eq_cons target
  rw [hCons]
  exact List.cons_ne_nil _ _

/-- What is sent before the first read: the front of the buffer, as far as one write takes it. -/
theorem sent_sendConnect (hOpen : stream.output.Open) :
    (sendConnect buffer target stream).2.output.sent = stream.output.sent ++
      (buffer ++ connectRequest target).take
        (stream.output.accepted (buffer ++ connectRequest target)) := by
  obtain ⟨n, hWrite⟩ := hOpen.write (buffer ++ connectRequest target)
  have hSent := stream.output.write_sent (buffer ++ connectRequest target)
  have hTaken : n = stream.output.accepted (buffer ++ connectRequest target) := by
    unfold Outbound.write at hWrite
    split at hWrite
    · cases hWrite
    · exact (Option.some.inj hWrite).symm
  rw [hWrite, Option.getD_some, hTaken] at hSent
  rw [← hSent, sendConnect, writeToStream]
  split <;> rename_i hResult <;> rw [hResult]

theorem output_handShake {ended : HandShake}
    (h : handShake reads buffer target stream = some ended) :
    ended.stream.output = (sendConnect buffer target stream).2.output := by
  unfold handShake at h
  split at h <;> rename_i hSend <;> rw [hSend]
  · cases h
    rfl
  · obtain ⟨⟨result, received, after⟩, hRun, hEnded⟩ := Option.map_eq_some_iff.mp h
    have hOutput := output_readHead hRun
    cases result <;> cases hEnded <;> exact hOutput

theorem accepted_pos (hOpen : stream.output.Open) (hBuffer : buffer ≠ []) :
    0 < stream.output.accepted buffer := by
  apply Nat.pos_of_ne_zero
  intro hZero
  have hRoom := Outbound.room_of_accepted hBuffer hZero
  rw [hOpen] at hRoom
  cases hRoom

/-- A new buffer never lets the request go out. -/
theorem not_sends_of_new (hOpen : stream.output.Open) (hn : 0 < n) :
    (sendConnect (List.replicate n 0) target stream).2.output.sent ≠
      stream.output.sent ++ connectRequest target := by
  obtain ⟨tail, hCons⟩ := connectRequest_eq_cons target
  obtain ⟨n, rfl⟩ := Nat.exists_eq_succ_of_ne_zero (Nat.ne_of_gt hn)
  have hBuffer : List.replicate (n + 1) 0 ++ connectRequest target ≠ [] := by simp
  obtain ⟨taken, hTaken⟩ :=
    Nat.exists_eq_succ_of_ne_zero (Nat.ne_of_gt (accepted_pos hOpen hBuffer))
  rw [sent_sendConnect hOpen, hTaken, hCons, List.replicate_succ]
  simp

theorem take_append_eq_iff (hn : n ≤ (buffer ++ connectRequest target).length) :
    (buffer ++ connectRequest target).take n = connectRequest target ↔
      connectRequest target <+: buffer ++ connectRequest target ∧
        n = (connectRequest target).length := by
  constructor
  · intro hTake
    have hPrefix := List.take_prefix n (buffer ++ connectRequest target)
    have hLength := congrArg List.length hTake
    rw [hTake] at hPrefix
    rw [List.length_take, Nat.min_eq_left hn] at hLength
    exact ⟨hPrefix, hLength⟩
  · rintro ⟨hPrefix, rfl⟩
    exact (List.prefix_iff_eq_take.mp hPrefix).symm

/-- The request alone goes out in front of the first read exactly when the buffer already
starts with it and the one write takes just that much. -/
theorem sent_sendConnect_eq_iff (hOpen : stream.output.Open) :
    (sendConnect buffer target stream).2.output.sent =
        stream.output.sent ++ connectRequest target ↔
      connectRequest target <+: buffer ++ connectRequest target ∧
        stream.output.accepted (buffer ++ connectRequest target) =
          (connectRequest target).length := by
  rw [sent_sendConnect hOpen, List.append_cancel_left_eq,
    take_append_eq_iff (stream.output.accepted_le _)]

/-- After any history of the pool, a call sends the request alone exactly when its buffer
already starts with the request and the one write takes just that much. Such a buffer is
never new, and nothing else is sent while the response is read. -/
theorem handShake_sends_request_iff (hHistory : PoolHistory free held)
    (hAlloc : Alloc initialHttpHeaderSize free buffer rest) (hOpen : stream.output.Open) :
    ((sendConnect buffer target stream).2.output.sent =
        stream.output.sent ++ connectRequest target ↔
      connectRequest target <+: buffer ++ connectRequest target ∧
        stream.output.accepted (buffer ++ connectRequest target) =
          (connectRequest target).length) ∧
    ((sendConnect buffer target stream).2.output.sent =
        stream.output.sent ++ connectRequest target → buffer ∈ free ∧ LeftBehind buffer) ∧
    ∀ reads ended, handShake reads buffer target stream = some ended →
      ended.stream.output.sent = (sendConnect buffer target stream).2.output.sent := by
  refine ⟨sent_sendConnect_eq_iff hOpen, fun hSent => ?_, fun reads ended hRun => ?_⟩
  · cases hAlloc with
    | new len hLen =>
      have hPos : 0 < len := Nat.lt_of_lt_of_le (by decide) hLen
      exact absurd hSent (not_sends_of_new hOpen hPos)
    | reused hFree hLen => exact ⟨hFree, hHistory.leftBehind _ hFree⟩
  · rw [output_handShake hRun]

section Echo

theorem connectRequest_eq_line (target : ProxyTarget) : connectRequest target =
    Text.asBytes ("CONNECT " ++ target.host ++ ":" ++ Text.portText target.port ++ " HTTP/1.1") ++
      blankLine := by
  have hEnd : Text.asBytes " HTTP/1.1\r\n\r\n" = Text.asBytes " HTTP/1.1" ++ blankLine := by decide
  simp only [connectRequest, Text.asBytes_append, List.append_assoc, hEnd]

theorem connectRequest_endsWithFirst (hHost : '\r' ∉ target.host.toList) :
    EndsWithFirst blankLine (connectRequest target) := by
  have hPort : '\r' ∉ (Text.portText target.port).toList := fun hMem =>
    absurd (Text.isDigit_portText hMem) (by decide)
  have hLine : '\r' ∉ ("CONNECT " ++ target.host ++ ":" ++ Text.portText target.port ++
      " HTTP/1.1").toList := by
    simp only [String.toList_append, List.mem_append, not_or]
    exact ⟨⟨⟨⟨by decide, hHost⟩, by decide⟩, hPort⟩, by decide⟩
  have hBlank : blankLine = 0x0d :: [0x0a, 0x0d, 0x0a] := by decide
  have hByte := Text.byte_notMem_asBytes (by decide) hLine
  rw [connectRequest_eq_line, hBlank]
  exact .of_notMem hByte _

/-- A peer that sends a request back leaves it in the pool. -/
theorem echo_leaves_request (hHost : '\r' ∉ target.host.toList) (buffer : List UInt8) :
    ∃ reads ended, handShake reads buffer target (upstream [connectRequest target] .fresh) =
      some ended ∧ ended.buffer = connectRequest target := by
  have hHead := connectRequest_endsWithFirst hHost
  have hInput := input_sendConnect buffer target (upstream [connectRequest target] .fresh)
  have hBig : 4 < (connectRequest target).length := by
    have hStart : (Text.asBytes "CONNECT ").length = 8 := by decide
    rw [connectRequest]
    simp only [List.length_append, hStart]
    omega
  have hContent : (sendConnect buffer target
      (upstream [connectRequest target] .fresh)).2.input.content = connectRequest target := by
    rw [hInput, upstream, Inbound.content_ofSegments, List.flatten_singleton]
  obtain ⟨reads, index, after, hRun⟩ := readHead_of_head hHead hBig
    (hInput ▸ Inbound.calm_ofSegments _) hContent
  exact ⟨reads, _, handShake_of_readHead (sendConnect_ok _ _ _) hRun, rfl⟩

/-- A connection whose first write takes this many bytes. -/
def shortWrite (limit : Nat) : UpstreamStream :=
  upstream [] { Outbound.fresh with limits := [limit] }

theorem shortWrite_open (limit : Nat) : (shortWrite limit).output.Open := rfl

theorem accepted_shortWrite (hRequest : buffer ≠ []) (more : List UInt8) :
    (shortWrite buffer.length).output.accepted (buffer ++ more) = buffer.length := by
  have hPos := List.length_pos_iff.mpr hRequest
  show min (buffer ++ more).length (max buffer.length 1) = buffer.length
  rw [List.length_append]
  omega

/-- A target whose request is as long as the buffers of the pool have to be. -/
def longTarget : ProxyTarget := ⟨String.ofList (List.replicate 1024 'a'), 80⟩

theorem longTarget_host : '\r' ∉ longTarget.host.toList := by
  have hChars : longTarget.host.toList = List.replicate 1024 'a' := String.toList_ofList
  intro hMem
  rw [hChars] at hMem
  exact absurd (List.eq_of_mem_replicate hMem) (by decide)

theorem length_longRequest : initialHttpHeaderSize ≤ (connectRequest longTarget).length := by
  have hHost : (Text.asBytes longTarget.host).length = 1024 := Text.length_asBytes_replicate 1024
  rw [connectRequest]
  simp only [List.length_append, hHost, initialHttpHeaderSize]
  omega

theorem handShake_sends_request_iff_echoed :
    (sendConnect (connectRequest longTarget) longTarget
      (shortWrite (connectRequest longTarget).length)).2.output.sent =
        connectRequest longTarget := by
  obtain ⟨reads, ended, hRun, hLeft⟩ :=
    echo_leaves_request longTarget_host (List.replicate initialHttpHeaderSize 0)
  have hStart : PoolHistory [] [List.replicate initialHttpHeaderSize 0] :=
    PoolHistory.new.start (.new _ (Nat.le_refl _))
  have hHistory := hStart.finish (List.mem_singleton.mpr rfl) hRun
  rw [hLeft] at hHistory
  exact (handShake_sends_request_iff hHistory (.reused List.mem_cons_self length_longRequest)
    (shortWrite_open _)).1.mpr ⟨List.prefix_append _ _,
      accepted_shortWrite (connectRequest_ne_nil _) _⟩

end Echo

/-- The first request ever sent has the new buffer's zeroes in front. -/
theorem zeroes_before_request : PoolHistory [] [] ∧
    Alloc initialHttpHeaderSize [] (List.replicate 1024 0) [] ∧
    (sendConnect (List.replicate 1024 0) ⟨"example.com", 443⟩ (upstream [] .fresh)).2.output.sent ≠
      connectRequest ⟨"example.com", 443⟩ :=
  ⟨.new, .new 1024 (by decide), not_sends_of_new rfl (by decide)⟩

end CrabbyProxy.Proxy
