import CrabbyProxy.Proxy.HandShake

/-!
# Reading the response of an upstream proxy

The read loop collects bytes until a blank line is among them. Whether it stops
depends on all the bytes, and what it returns on where its reads end.
-/

namespace CrabbyProxy.Proxy

open CrabbyProxy.Stream
set_option autoImplicit false

variable {buffer bytes head body rest : List UInt8} {chunks : List (List UInt8)} {chunk : List UInt8}
  {reads more index : Nat} {target : ProxyTarget} {stream : UpstreamStream}

section Stopping

theorem bodyStart_of_append (h : partiallyReadBodyStartIndex (buffer ++ bytes) = none) :
    partiallyReadBodyStartIndex buffer = none := by
  rw [bodyStart_eq_none_iff] at h ⊢
  rintro ⟨hLength, hInfix⟩
  apply h
  constructor
  · rw [List.length_append]
    omega
  · exact hInfix.trans (List.prefix_append _ _).isInfix

theorem readHead_eq_none (hCalm : stream.input.Calm)
    (hNone : partiallyReadBodyStartIndex (buffer ++ stream.input.content) = none) (reads : Nat) :
    readHead reads buffer stream = none := by
  induction reads generalizing buffer stream with
  | zero => rfl
  | succ reads ih =>
    have hContent := stream.input.read_content false 256
    rw [hContent, ← List.append_assoc] at hNone
    rw [readHead_succ (readFromStream_of_calm hCalm 256), bodyStart_of_append hNone]
    exact @ih _ { stream with input := (stream.input.read false 256).2.2 }
      (hCalm.of_subset (stream.input.read_coming_subset false 256)) hNone

/-- The loop stops as soon as the buffer holds what it looks for. -/
theorem readHead_eq_some (hCalm : stream.input.Calm)
    (hNone : partiallyReadBodyStartIndex buffer = none)
    (hSome : partiallyReadBodyStartIndex (buffer ++ stream.input.content) ≠ none) :
    ∃ reads index received after, readHead reads buffer stream = some (.ok index, received, after) ∧
      partiallyReadBodyStartIndex received = some index ∧
      received ++ after.input.content = buffer ++ stream.input.content := by
  induction hLength : stream.input.content.length using Nat.strongRecOn
    generalizing buffer stream with
  | ind n ih =>
    have hContent := stream.input.read_content false 256
    have hRead := readFromStream_of_calm hCalm 256
    have hNonempty : (stream.input.read false 256).2.1 ≠ [] := by
      rw [Ne, hCalm.read_eq_nil_iff false (by decide)]
      intro hEmpty
      rw [hEmpty, List.append_nil] at hSome
      exact hSome hNone
    have hPos := List.length_pos_iff.mpr hNonempty
    rw [hContent, ← List.append_assoc] at hSome ⊢
    cases hFound : partiallyReadBodyStartIndex (buffer ++ (stream.input.read false 256).2.1) with
    | some index =>
      refine ⟨1, index, _, { stream with input := (stream.input.read false 256).2.2 }, ?_, hFound,
        rfl⟩
      rw [readHead_succ hRead, hFound]
    | none =>
      have hShorter : (stream.input.read false 256).2.2.content.length < n := by
        rw [hContent, List.length_append] at hLength
        omega
      obtain ⟨reads, index, received, after, hRun, hIndex, hWhole⟩ := @ih _ hShorter _
        { stream with input := (stream.input.read false 256).2.2 }
        (hCalm.of_subset (stream.input.read_coming_subset false 256)) hFound hSome rfl
      refine ⟨reads + 1, index, received, after, ?_, hIndex, hWhole⟩
      rw [readHead_succ hRead, hFound]
      exact hRun

theorem readHead_of_head (hHead : EndsWithFirst blankLine head) (hBig : 4 < head.length)
    (hCalm : stream.input.Calm) (hContent : stream.input.content = head) :
    ∃ reads index after, readHead reads [] stream = some (.ok index, head, after) := by
  have hFound : ¬¬(4 < stream.input.content.length ∧ blankLine <:+: stream.input.content) := by
    rw [hContent, not_not]
    exact ⟨hBig, hHead.ended.isInfix⟩
  obtain ⟨reads, index, received, after, hRun, hIndex, hWhole⟩ := readHead_eq_some hCalm
    bodyStart_nil fun hNone => hFound (bodyStart_eq_none_iff.mp hNone)
  rw [List.nil_append, hContent] at hWhole
  have hPrefix : received <+: head := ⟨_, hWhole⟩
  have hReceived : blankLine <:+: received := by
    by_contra hNever
    have hNone := bodyStart_eq_none_iff.mpr fun h => hNever h.2
    rw [hIndex] at hNone
    cases hNone
  have hLength : head.length ≤ received.length := by
    apply Nat.le_of_not_lt
    intro hShort
    exact hHead.not_infix hPrefix hShort hReceived
  rw [hPrefix.eq_of_length (Nat.le_antisymm hPrefix.length_le hLength)] at hRun
  exact ⟨reads, index, after, hRun⟩

/-- The loop stops exactly when there is a blank line among five bytes or more. -/
theorem readHead_stops_iff (hCalm : stream.input.Calm) :
    (∃ reads result, readHead reads [] stream = some result) ↔
      4 < stream.input.content.length ∧ blankLine <:+: stream.input.content := by
  constructor
  · rintro ⟨reads, result, hRun⟩
    by_contra hNever
    have hNone := @readHead_eq_none [] _ hCalm (bodyStart_eq_none_iff.mpr hNever) reads
    rw [hRun] at hNone
    cases hNone
  · intro hThere
    have hSome : partiallyReadBodyStartIndex ([] ++ stream.input.content) ≠ none :=
      fun hNone => bodyStart_eq_none_iff.mp hNone hThere
    obtain ⟨reads, index, received, after, hRun, _⟩ := readHead_eq_some hCalm bodyStart_nil hSome
    exact ⟨reads, _, hRun⟩

end Stopping

/-- A connection on which the peer sends these segments and then closes. -/
def upstream (segments : List (List UInt8)) (output : Outbound) : UpstreamStream :=
  ⟨"Ok(10.0.0.1:8080)", .ofSegments segments, output, false⟩

theorem readHead_stops_iff_ok : ∃ reads result,
    readHead reads [] (upstream [Text.asBytes "HTTP/1.1 200 OK\r\n\r\n"] .fresh) = some result :=
  (readHead_stops_iff (Inbound.calm_ofSegments _)).mpr
    ⟨by decide, Text.asBytes "HTTP/1.1 200 OK", [], by decide⟩

/-- A peer that closes in the middle of its head is read from forever. -/
theorem readHead_spins : ¬∃ reads result,
    readHead reads [] (upstream [Text.asBytes "HTTP/1.1 502 Bad Gateway\r\n"] .fresh) =
      some result := by
  rintro ⟨reads, result, hRun⟩
  have hNone := @readHead_eq_none [] (upstream [Text.asBytes "HTTP/1.1 502 Bad Gateway\r\n"] .fresh)
    (Inbound.calm_ofSegments _) (by decide) reads
  rw [hRun] at hNone
  cases hNone

section EarlyData

theorem readHead_add {result : Except ProxyError Nat × List UInt8 × UpstreamStream}
    (h : readHead reads buffer stream = some result) (more : Nat) :
    readHead (reads + more) buffer stream = some result := by
  induction reads generalizing buffer stream with
  | zero => cases h
  | succ reads ih =>
    rw [Nat.add_right_comm]
    unfold readHead at h ⊢
    split <;> rename_i hRead <;> rw [hRead] at h
    · exact h
    · dsimp only at h ⊢
      split <;> rename_i hFound <;> rw [hFound] at h
      · exact h
      · exact ih h

theorem searchBodyStart_le (h : searchBodyStart buffer = some index) : index ≤ buffer.length := by
  obtain ⟨start, hStart, rfl⟩ := Option.map_eq_some_iff.mp h
  have hMem := List.mem_range.mp (List.find?_range_eq_some.mp hStart).2.1
  rw [length_blankLine] at hMem
  omega

theorem bodyStart_le (h : partiallyReadBodyStartIndex buffer = some index) :
    index ≤ buffer.length := by
  obtain ⟨_, hFound⟩ := Option.ite_none_right_eq_some.mp h
  obtain hQuick | ⟨_, hSearch⟩ := Option.or_eq_some_iff.mp hFound
  · exact Nat.le_of_eq (quickBodyStart_le hQuick).1
  · exact searchBodyStart_le hSearch

/-- Whatever has been read behind the head, the caller gets none of it. -/
theorem earlyData_eq_nil (hOk : Text.asBytes "HTTP/1.1 200 OK" <+: buffer)
    (hIndex : partiallyReadBodyStartIndex buffer = some index) :
    earlyData buffer index = .ok [] := by
  rw [earlyData, if_pos (List.isPrefixOf_iff_prefix.mpr hOk), if_pos (bodyStart_le hIndex)]

/-- Each read returns one segment, as long as none is larger than the read. -/
theorem readFromStream_ofSegments (hInput : stream.input = .ofSegments (chunk :: chunks))
    (hPos : 1 ≤ chunk.length) (hLength : chunk.length ≤ 256) :
    readFromStream 256 stream = (.ok chunk, { stream with input := .ofSegments chunks }) := by
  have hReady : chunk ≠ [] := List.length_pos_iff.mp hPos
  have hPoll : stream.input.poll false = (.ready, ⟨chunk, chunks.map .data⟩) := by
    rw [hInput]
    exact if_neg hReady
  have hRead : stream.input.read false 256 = (.ready, chunk, .ofSegments chunks) := by
    rw [Inbound.read, hPoll, List.take_of_length_le hLength, List.drop_of_length_le hLength]
    rfl
  rw [readFromStream, hRead]

theorem bodyStart_of_endsWithFirst (hHead : EndsWithFirst blankLine head) (hBig : 4 < head.length)
    (more : List UInt8) : partiallyReadBodyStartIndex (head ++ more) ≠ none := by
  intro hNone
  apply bodyStart_eq_none_iff.mp hNone
  constructor
  · rw [List.length_append]
    omega
  · exact hHead.ended.isInfix.trans (List.prefix_append _ _).isInfix

/-- The loop stops with the first read that brings the end of the head. -/
theorem readHead_ofSegments (hHead : EndsWithFirst blankLine head) (hBig : 4 < head.length)
    (hBuffer : head = buffer ++ rest) (hRest : rest ≠ [])
    (hChunks : ∀ chunk ∈ chunks, 1 ≤ chunk.length ∧ chunk.length ≤ 256)
    (hFlatten : chunks.flatten = rest ++ body) (hInput : stream.input = .ofSegments chunks) :
    ∃ reads index taken left extra, chunks = taken ++ left ∧ taken.flatten = rest ++ extra ∧
      (∀ k, (chunks.take k).flatten = rest → extra = []) ∧
      readHead reads buffer stream =
        some (.ok index, head ++ extra, { stream with input := .ofSegments left }) ∧
      partiallyReadBodyStartIndex (head ++ extra) = some index := by
  induction chunks generalizing buffer rest stream with
  | nil =>
    have hNil := congrArg List.length hFlatten
    have hPos := List.length_pos_iff.mpr hRest
    rw [List.length_append] at hNil
    simp at hNil
    omega
  | cons chunk chunks ih =>
    obtain ⟨hPos, hLength⟩ := hChunks chunk List.mem_cons_self
    have hRead := readFromStream_ofSegments hInput hPos hLength
    rw [List.flatten_cons] at hFlatten
    by_cases hWhole : rest.length ≤ chunk.length
    · obtain ⟨extra, rfl⟩ : rest <+: chunk :=
        List.prefix_of_prefix_length_le ⟨body, hFlatten.symm⟩ ⟨_, rfl⟩ hWhole
      obtain ⟨index, hIndex⟩ :=
        Option.ne_none_iff_exists'.mp (bodyStart_of_endsWithFirst hHead hBig extra)
      refine ⟨1, index, [rest ++ extra], chunks, extra, rfl, by simp, ?_, ?_, hIndex⟩
      · intro k hTake
        cases k with
        | zero => exact absurd hTake.symm hRest
        | succ k =>
          rw [List.take_succ_cons, List.flatten_cons, List.append_assoc] at hTake
          exact (List.append_eq_nil_iff.mp (List.append_right_eq_self.mp hTake)).1
      · rw [readHead_succ hRead, ← List.append_assoc, ← hBuffer, hIndex]
    · obtain ⟨later, rfl⟩ : chunk <+: rest :=
        List.prefix_of_prefix_length_le ⟨_, rfl⟩ ⟨body, hFlatten.symm⟩
          (Nat.le_of_not_le hWhole)
      have hLater : later ≠ [] := by
        rintro rfl
        simp at hWhole
      have hLaterPos := List.length_pos_iff.mpr hLater
      have hNone : partiallyReadBodyStartIndex (buffer ++ chunk) = none := by
        rw [bodyStart_eq_none_iff]
        rintro ⟨_, hInfix⟩
        apply hHead.not_infix _ _ hInfix
        · rw [hBuffer, ← List.append_assoc]
          exact List.prefix_append _ _
        · simp only [hBuffer, List.length_append]
          omega
      rw [List.append_assoc, List.append_cancel_left_eq] at hFlatten
      rw [← List.append_assoc] at hBuffer
      obtain ⟨reads, index, taken, left, extra, hParts, hTaken, hExtra, hRun, hIndex⟩ :=
        @ih _ _ { stream with input := .ofSegments chunks } hBuffer hLater
          (fun chunk hMem => hChunks chunk (List.mem_cons_of_mem _ hMem)) hFlatten rfl
      refine ⟨reads + 1, index, chunk :: taken, left, extra, by rw [hParts]; rfl, ?_, ?_, ?_, hIndex⟩
      · rw [List.flatten_cons, hTaken, List.append_assoc]
      · intro k hTake
        cases k with
        | zero =>
          rw [List.take_zero, List.flatten_nil, eq_comm, List.append_eq_nil_iff] at hTake
          exact absurd hTake.2 hLater
        | succ k =>
          rw [List.take_succ_cons, List.flatten_cons, List.append_cancel_left_eq] at hTake
          exact hExtra k hTake
      · rw [readHead_succ hRead, hNone]
        exact hRun

/-- The caller gets what came behind the head with it, and the stream keeps the rest of the
body; the two tests for the end of the head do not contradict each other. -/
structure HandShake.YieldsBody (ended : HandShake) (head body : List UInt8) : Prop where
  exact : ∃ returned, ended.result = .ok returned ∧ ended.buffer = head ++ returned ∧
    returned ++ ended.stream.input.content = body
  agree : ∀ index, quickBodyStart ended.buffer = some index →
    searchBodyStart ended.buffer = some index

theorem handShake_of_readHead {received : List UInt8} {after : UpstreamStream}
    (hWrite : (sendConnect buffer target stream).1 = .ok ())
    (hRun : readHead reads [] (sendConnect buffer target stream).2 =
      some (.ok index, received, after)) :
    handShake reads buffer target stream = some ⟨earlyData received index, received, after⟩ := by
  unfold handShake
  cases hSend : sendConnect buffer target stream with
  | mk result sent =>
    rw [hSend] at hWrite hRun
    obtain rfl : result = .ok () := hWrite
    dsimp only at hRun ⊢
    rw [hRun]
    rfl

theorem handShake_add {ended : HandShake} (h : handShake reads buffer target stream = some ended)
    (more : Nat) : handShake (reads + more) buffer target stream = some ended := by
  unfold handShake at h ⊢
  split <;> rename_i hSend <;> rw [hSend] at h
  · exact h
  · obtain ⟨result, hRun, hEnded⟩ := Option.map_eq_some_iff.mp h
    rw [readHead_add hRun more, Option.map_some]
    exact congrArg some hEnded

theorem handShake_unique {ended ended' : HandShake}
    (h : handShake reads buffer target stream = some ended)
    (h' : handShake more buffer target stream = some ended') : ended = ended' := by
  have hMore := handShake_add h more
  rw [Nat.add_comm, handShake_add h' reads] at hMore
  exact (Option.some.inj hMore).symm

theorem input_sendConnect (buffer : List UInt8) (target : ProxyTarget) (stream : UpstreamStream) :
    (sendConnect buffer target stream).2.input = stream.input := by
  unfold sendConnect writeToStream
  split <;> rfl

theorem searchBodyStart_of_head (hHead : EndsWithFirst blankLine head) (hBig : 4 < head.length)
    (more : List UInt8) : searchBodyStart (head ++ more) = some head.length := by
  rw [searchBodyStart, hHead.position_append blankLine_ne_nil, length_blankLine, Option.map_some,
    Nat.sub_add_cancel (by omega)]

theorem handShake_ofSegments (hOk : Text.asBytes "HTTP/1.1 200 OK" <+: head)
    (hHead : EndsWithFirst blankLine head)
    (hChunks : ∀ chunk ∈ chunks, 1 ≤ chunk.length ∧ chunk.length ≤ 256)
    (hFlatten : chunks.flatten = head ++ body) (hInput : stream.input = .ofSegments chunks)
    (hWrite : (sendConnect buffer target stream).1 = .ok ()) :
    ∃ reads taken left extra after, chunks = taken ++ left ∧ taken.flatten = head ++ extra ∧
      (∀ k, (chunks.take k).flatten = head → extra = []) ∧
      handShake reads buffer target stream = some ⟨.ok [], head ++ extra, after⟩ ∧
      after.input = .ofSegments left := by
  have hBig : 4 < head.length := Nat.lt_of_lt_of_le (by decide) hOk.length_le
  have hNonempty : head ≠ [] := List.length_pos_iff.mp (Nat.zero_lt_of_lt hBig)
  obtain ⟨reads, index, taken, left, extra, hParts, hTaken, hExtra, hRun, hIndex⟩ :=
    readHead_ofSegments hHead hBig (List.nil_append _).symm hNonempty hChunks hFlatten
      ((input_sendConnect buffer target stream).trans hInput)
  have hEnded := handShake_of_readHead hWrite hRun
  rw [earlyData_eq_nil (hOk.trans (List.prefix_append head extra)) hIndex] at hEnded
  exact ⟨reads, taken, left, extra, _, hParts, hTaken, hExtra, hEnded, rfl⟩

theorem read_ends_of_yieldsBody {ended : HandShake}
    (hOk : Text.asBytes "HTTP/1.1 200 OK" <+: head) (hHead : EndsWithFirst blankLine head)
    (hChunks : ∀ chunk ∈ chunks, 1 ≤ chunk.length ∧ chunk.length ≤ 256)
    (hFlatten : chunks.flatten = head ++ body) (hInput : stream.input = .ofSegments chunks)
    (hWrite : (sendConnect buffer target stream).1 = .ok ())
    (hRun : handShake reads buffer target stream = some ended)
    (hYields : ended.YieldsBody head body) : ∃ k, (chunks.take k).flatten = head := by
  obtain ⟨_, taken, left, extra, after, rfl, hTaken, _, hEnded, _⟩ :=
    handShake_ofSegments hOk hHead hChunks hFlatten hInput hWrite
  obtain rfl := handShake_unique hEnded hRun
  obtain ⟨returned, hReturned, hBuffer, _⟩ := hYields.exact
  cases hReturned
  rw [List.append_nil, List.append_right_eq_self] at hBuffer
  refine ⟨taken.length, ?_⟩
  rw [List.take_left, hTaken, hBuffer, List.append_nil]

/-- Nothing of the body is lost exactly when a read ends where the head does. -/
theorem handShake_yields_body_iff (hOk : Text.asBytes "HTTP/1.1 200 OK" <+: head)
    (hHead : EndsWithFirst blankLine head)
    (hChunks : ∀ chunk ∈ chunks, 1 ≤ chunk.length ∧ chunk.length ≤ 256)
    (hFlatten : chunks.flatten = head ++ body) (hInput : stream.input = .ofSegments chunks)
    (hWrite : (sendConnect buffer target stream).1 = .ok ()) :
    (∃ reads ended, handShake reads buffer target stream = some ended ∧
      ended.YieldsBody head body) ↔ ∃ k, (chunks.take k).flatten = head := by
  constructor
  · rintro ⟨reads, ended, hRun, hYields⟩
    exact read_ends_of_yieldsBody hOk hHead hChunks hFlatten hInput hWrite hRun hYields
  · rintro ⟨k, hTake⟩
    have hBig : 4 < head.length := Nat.lt_of_lt_of_le (by decide) hOk.length_le
    obtain ⟨reads, taken, left, extra, after, rfl, hTaken, hExtra, hEnded, hAfter⟩ :=
      handShake_ofSegments hOk hHead hChunks hFlatten hInput hWrite
    obtain rfl := hExtra k hTake
    refine ⟨reads, _, hEnded, ⟨[], rfl, rfl, ?_⟩, ?_⟩
    · rw [List.flatten_append, hTaken, List.append_nil, List.append_cancel_left_eq] at hFlatten
      rw [hAfter, Inbound.content_ofSegments]
      exact hFlatten
    · intro index hQuick
      rw [searchBodyStart_of_head hHead hBig, (quickBodyStart_le hQuick).1, List.append_nil]

/-- The shortest head there is. -/
def okHead : List UInt8 := Text.asBytes "HTTP/1.1 200 OK\r\n\r\n"

theorem okHead_endsWithFirst : EndsWithFirst blankLine okHead := by
  refine ⟨⟨Text.asBytes "HTTP/1.1 200 OK", by decide⟩, ?_⟩
  rw [← position_eq_none_iff blankLine_ne_nil]
  decide

theorem sendConnect_ok (buffer : List UInt8) (target : ProxyTarget) (segments : List (List UInt8)) :
    (sendConnect buffer target (upstream segments .fresh)).1 = .ok () := by
  obtain ⟨n, hWrite⟩ := Outbound.open_fresh.write (buffer ++ connectRequest target)
  unfold sendConnect writeToStream
  cases hResult : Outbound.fresh.write (buffer ++ connectRequest target) with
  | mk taken output =>
    rw [hResult] at hWrite
    obtain rfl : taken = some n := hWrite
    rw [upstream, hResult]

theorem handShake_yields_body_iff_separate : ∃ reads ended,
    handShake reads (List.replicate 1024 0) ⟨"example.com", 443⟩
      (upstream [okHead, [0x68, 0x69]] .fresh) = some ended ∧
    ended.YieldsBody okHead [0x68, 0x69] :=
  (handShake_yields_body_iff (by decide) okHead_endsWithFirst (by decide) (by decide) rfl
    (sendConnect_ok _ _ _)).mpr ⟨1, by decide⟩

/-- A body that arrives with its head is dropped. -/
theorem early_data_lost : ¬∃ reads ended,
    handShake reads (List.replicate 1024 0) ⟨"example.com", 443⟩
      (upstream [okHead ++ [0x68, 0x69]] .fresh) = some ended ∧
    ended.YieldsBody okHead [0x68, 0x69] := by
  rintro ⟨reads, ended, hRun, hYields⟩
  obtain ⟨k, hTake⟩ := read_ends_of_yieldsBody (by decide) okHead_endsWithFirst (by decide)
    (by decide) rfl (sendConnect_ok _ _ _) hRun hYields
  cases k with
  | zero => cases hTake
  | succ k =>
    rw [List.take_succ_cons, List.take_nil, List.flatten_singleton,
      List.append_right_eq_self] at hTake
    cases hTake

end EarlyData

end CrabbyProxy.Proxy
