import CrabbyProxy.Library.StreamProgram

/-!
# Copying a stream into a sink

A copier fills a buffer from its source, drains it into its sink and closes the sink
behind the last byte. How much one read may take, and when it fills and when it drains,
is left open. A copier that fails has lost only its source or its sink.
-/

namespace CrabbyProxy.Stream
set_option autoImplicit false

inductive CopyStage where
  | reading
  | ended
  | done
  | failed (error : IoError)
  deriving DecidableEq

structure Copier where
  stage : CopyStage
  buffer : List UInt8
  copied : Nat
  deriving DecidableEq

/-- A fill reads at most one byte more than it says. -/
inductive CopyTurn where
  | fill (space : Nat)
  | drain
  | close
  deriving DecidableEq

def resetError : IoError := ⟨.connectionReset, "Connection reset by peer"⟩

def pipeError : IoError := ⟨.brokenPipe, "Broken pipe"⟩

def closeError : IoError := ⟨.notConnected, "Transport endpoint is not connected"⟩

namespace Copier

def new : Copier := ⟨.reading, [], 0⟩

def fill (copier : Copier) (space : Nat) (source : Inbound) : Copier × Inbound :=
  match source.read false (space + 1) with
  | (.ready, bytes, source) => ({ copier with buffer := copier.buffer ++ bytes }, source)
  | (.eof, _, source) => ({ copier with stage := .ended }, source)
  | (_, _, source) => ({ copier with stage := .failed resetError }, source)

def drain (copier : Copier) (sink : Outbound) : Copier × Outbound :=
  match sink.write copier.buffer with
  | (none, sink) => ({ copier with stage := .failed pipeError }, sink)
  | (some n, sink) =>
    ({ copier with buffer := copier.buffer.drop n, copied := copier.copied + n }, sink)

def close (copier : Copier) (sink : Outbound) : Copier × Outbound :=
  match sink.shutdown with
  | (true, sink) => ({ copier with stage := .done }, sink)
  | (false, sink) => ({ copier with stage := .failed closeError }, sink)

/-- What the copier may do next. -/
def Ready (copier : Copier) : CopyTurn → Prop
  | .fill _ => copier.stage = .reading
  | .drain => (copier.stage = .reading ∨ copier.stage = .ended) ∧ copier.buffer ≠ []
  | .close => copier.stage = .ended ∧ copier.buffer = []

instance (copier : Copier) : (turn : CopyTurn) → Decidable (copier.Ready turn)
  | .fill _ => inferInstanceAs (Decidable (_ = _))
  | .drain => inferInstanceAs (Decidable ((_ ∨ _) ∧ _))
  | .close => inferInstanceAs (Decidable (_ ∧ _))

/-- A turn that the copier may not take changes nothing. -/
def step (copier : Copier) (turn : CopyTurn) (source : Inbound) (sink : Outbound) :
    Copier × Inbound × Outbound :=
  if copier.Ready turn then
    match turn with
    | .fill space => ((copier.fill space source).1, (copier.fill space source).2, sink)
    | .drain => ((copier.drain sink).1, source, (copier.drain sink).2)
    | .close => ((copier.close sink).1, source, (copier.close sink).2)
  else (copier, source, sink)

def failure (copier : Copier) : Option IoError :=
  match copier.stage with
  | .failed error => some error
  | _ => none

/-- The turns that the copier may still take, given how many bytes its source has. -/
def turns (copier : Copier) (left : Nat) : Nat :=
  match copier.stage with
  | .reading => 2 * left + copier.buffer.length + 2
  | .ended => copier.buffer.length + 1
  | .done | .failed _ => 0

/-- What can go wrong between this source and this sink. -/
inductive MayFail (source : Inbound) (sink : Outbound) : IoError → Prop
  | reset (hReset : .reset ∈ source.coming) : MayFail source sink resetError
  | pipe {room : Nat} (hRoom : sink.room = some room) (hShort : room < source.content.length) :
    MayFail source sink pipeError
  | close (hCloses : sink.closes = false) : MayFail source sink closeError

/-- Nothing can. -/
structure Completes (source : Inbound) (sink : Outbound) : Prop where
  noReset : .reset ∉ source.coming
  fits : ∀ room, sink.room = some room → source.content.length ≤ room
  closes : sink.closes = true

theorem completes_iff {source : Inbound} {sink : Outbound} :
    Completes source sink ↔ ∀ e, ¬MayFail source sink e := by
  constructor
  · rintro ⟨hNoReset, hFits, hCloses⟩ e hFail
    cases hFail with
    | reset hReset => exact hNoReset hReset
    | pipe hRoom hShort => exact Nat.not_lt.mpr (hFits _ hRoom) hShort
    | close hNot => exact Bool.false_ne_true (hNot.symm.trans hCloses)
  · intro hNone
    refine ⟨fun hReset => hNone _ (.reset hReset), fun room hRoom => ?_, ?_⟩
    · exact Nat.le_of_not_lt fun hShort => hNone _ (.pipe hRoom hShort)
    · exact Bool.of_not_eq_false fun hNot => hNone _ (.close hNot)

/-- What a copier has written since it started, and how it stands to its source and sink. -/
structure Copied (source₀ : Inbound) (sink₀ : Outbound) (written : List UInt8) (copier : Copier)
    (source : Inbound) (sink : Outbound) : Prop where
  sent : sink.sent = sink₀.sent ++ written
  room : sink.room = sink₀.room.map (· - written.length)
  fits : ∀ room, sink₀.room = some room → written.length ≤ room
  closes : sink.closes = sink₀.closes
  isPrefix : written <+: source₀.content
  flow : copier.failure = none → written ++ copier.buffer ++ source.content = source₀.content
  counted : copier.copied = written.length
  coming : source.coming ⊆ source₀.coming
  reset : .reset ∈ source₀.coming → .reset ∈ source.coming
  ended : copier.stage = .ended → source.content = [] ∧ .reset ∉ source₀.coming
  done : copier.stage = .done → written = source₀.content ∧ Completes source₀ sink₀
  closed : sink.closed = true → sink₀.closed = true ∨ copier.stage = .done
  doneClosed : copier.stage = .done → sink.closed = true
  failed : ∀ e, copier.stage = .failed e → MayFail source₀ sink₀ e

variable {source₀ source : Inbound} {sink₀ sink : Outbound} {written : List UInt8}
  {copier : Copier}

theorem copied_new (source : Inbound) (sink : Outbound) :
    Copied source sink [] new source sink where
  sent := (List.append_nil _).symm
  room := by cases sink.room <;> rfl
  fits _ _ := Nat.zero_le _
  closes := rfl
  isPrefix := List.nil_prefix
  flow _ := rfl
  counted := rfl
  coming := List.Subset.refl _
  reset := id
  ended := nofun
  done := nofun
  closed := .inl
  doneClosed := nofun
  failed := nofun

theorem failure_eq_none_iff : copier.failure = none ↔ ∀ e, copier.stage ≠ .failed e := by
  rw [failure]
  cases copier.stage <;> simp

theorem stage_of_failure {e : IoError} (h : copier.failure = some e) : copier.stage = .failed e := by
  rw [failure] at h
  split at h <;> cases h
  assumption

theorem Copied.fill (h : Copied source₀ sink₀ written copier source sink)
    (hReading : copier.stage = .reading) (space : Nat) :
    Copied source₀ sink₀ written (copier.fill space source).1 (copier.fill space source).2 sink := by
  obtain ⟨stage, buffer, copied⟩ := copier
  obtain rfl : stage = .reading := hReading
  have hComing := List.Subset.trans (source.read_coming_subset false (space + 1)) h.coming
  have hReset : .reset ∈ source₀.coming → .reset ∈ (source.read false (space + 1)).2.2.coming :=
    Inbound.poll_reset_mem false ∘ h.reset
  have hClosed : sink.closed = true → sink₀.closed = true := fun hSink =>
    (h.closed hSink).resolve_right nofun
  have hFlow : written ++ buffer ++ source.content = source₀.content := h.flow rfl
  obtain ⟨bytes, rest, hRead, _, hContent⟩ | ⟨bytes, rest, hRead, hEmpty, hLeft, hNoReset⟩ |
    ⟨bytes, rest, hRead, hBroken⟩ := source.read_cases space <;> rw [hRead] at hComing hReset
  · have hFill : Copier.fill ⟨.reading, buffer, copied⟩ space source =
        (⟨.reading, buffer ++ bytes, copied⟩, rest) := by rw [Copier.fill, hRead]
    rw [hFill]
    refine { h with
      flow := fun _ => ?_, coming := hComing, reset := hReset, ended := nofun, done := nofun,
      closed := .inl ∘ hClosed, doneClosed := nofun, failed := nofun }
    rw [← hFlow, hContent]
    simp only [List.append_assoc]
  · have hFill : Copier.fill ⟨.reading, buffer, copied⟩ space source =
        (⟨.ended, buffer, copied⟩, rest) := by rw [Copier.fill, hRead]
    rw [hFill]
    refine { h with
      flow := fun _ => ?_, coming := hComing, reset := hReset, ended := fun _ => ?_,
      done := nofun, closed := .inl ∘ hClosed, doneClosed := nofun, failed := nofun }
    · rw [← hFlow, hEmpty]
      exact congrArg _ hLeft
    · exact ⟨hLeft, fun hBroken => hNoReset (h.reset hBroken)⟩
  · have hFill : Copier.fill ⟨.reading, buffer, copied⟩ space source =
        (⟨.failed resetError, buffer, copied⟩, rest) := by rw [Copier.fill, hRead]
    rw [hFill]
    refine { h with
      flow := nofun, coming := hComing, reset := hReset, ended := nofun, done := nofun,
      closed := .inl ∘ hClosed, doneClosed := nofun, failed := ?_ }
    rintro _ ⟨⟩
    exact .reset (h.coming hBroken)

/-- A copier that may drain is running, and not done. -/
theorem Ready.running (h : copier.Ready .drain) : copier.failure = none ∧ copier.stage ≠ .done := by
  obtain ⟨hReading | hEnded, _⟩ := h
  · rw [failure, hReading]
    exact ⟨rfl, nofun⟩
  · rw [failure, hEnded]
    exact ⟨rfl, nofun⟩

theorem Copied.drain (h : Copied source₀ sink₀ written copier source sink)
    (hReady : copier.Ready .drain) :
    ∃ more, Copied source₀ sink₀ (written ++ more) (copier.drain sink).1 source
      (copier.drain sink).2 := by
  obtain ⟨hRunning, hNotDone⟩ := hReady.running
  have hFlow := h.flow hRunning
  have hClosed : sink.closed = true → sink₀.closed = true := fun hSink =>
    (h.closed hSink).resolve_right hNotDone
  obtain ⟨hWrite, hFull⟩ | ⟨n, sink', hWrite, _, _, hSent, hRoom, hFits, hCloses, hSame⟩ :=
    sink.write_cases hReady.2
  · have hDrain : copier.drain sink = ({ copier with stage := .failed pipeError }, sink) := by
      rw [Copier.drain, hWrite]
    rw [hDrain]
    refine ⟨[], ?_⟩
    rw [List.append_nil]
    refine { h with
      flow := nofun, ended := nofun, done := nofun, closed := .inl ∘ hClosed,
      doneClosed := nofun, failed := ?_ }
    rintro _ ⟨⟩
    -- The room was used up by what has been written, and the buffer is still there.
    have hLengths := congrArg List.length hFlow
    have hBuffer := List.length_pos_iff.mpr hReady.2
    rw [List.length_append, List.length_append] at hLengths
    have hOwn := h.room
    rw [hFull] at hOwn
    obtain ⟨room, hSome, hZero⟩ := Option.map_eq_some_iff.mp hOwn.symm
    exact .pipe hSome (by omega)
  · have hDrain : copier.drain sink =
        ({ copier with buffer := copier.buffer.drop n, copied := copier.copied + n }, sink') := by
      rw [Copier.drain, hWrite]
    rw [hDrain]
    have hTaken : (copier.buffer.take n).length = n := List.length_take_of_le ‹_›
    have hWhole : written ++ copier.buffer.take n ++ copier.buffer.drop n ++ source.content =
        source₀.content := by
      rw [List.append_assoc written, List.take_append_drop]
      exact hFlow
    refine ⟨copier.buffer.take n, ?_⟩
    constructor
    · rw [hSent, h.sent, List.append_assoc]
    · rw [hRoom, h.room, Option.map_map, List.length_append, hTaken]
      congr 1
      funext room
      exact Nat.sub_sub _ _ _
    · intro room hSome
      have hLeft := hFits (room - written.length) (by rw [h.room, hSome]; rfl)
      have hBefore := h.fits room hSome
      rw [List.length_append, hTaken]
      omega
    · exact hCloses.trans h.closes
    · exact ⟨copier.buffer.drop n ++ source.content, by rw [← List.append_assoc]; exact hWhole⟩
    · exact fun _ => hWhole
    · rw [h.counted, List.length_append, hTaken]
    · exact h.coming
    · exact h.reset
    · exact h.ended
    · exact fun hDone => absurd hDone hNotDone
    · intro hSink
      rw [hSame] at hSink
      exact .inl (hClosed hSink)
    · exact fun hDone => absurd hDone hNotDone
    · intro e hFailed
      exact absurd hFailed (failure_eq_none_iff.mp hRunning e)

theorem Copied.close (h : Copied source₀ sink₀ written copier source sink)
    (hReady : copier.Ready .close) :
    Copied source₀ sink₀ written (copier.close sink).1 source (copier.close sink).2 := by
  obtain ⟨stage, buffer, copied⟩ := copier
  obtain ⟨hEnded, hBuffer⟩ := hReady
  obtain rfl : stage = .ended := hEnded
  obtain rfl : buffer = [] := hBuffer
  obtain ⟨hDry, hNoReset⟩ := h.ended rfl
  have hClosed : sink.closed = true → sink₀.closed = true := fun hSink =>
    (h.closed hSink).resolve_right nofun
  have hFlow : written ++ [] ++ source.content = source₀.content := h.flow rfl
  rw [hDry, List.append_nil, List.append_nil] at hFlow
  by_cases hCloses : sink.closes = true
  · have hClose : Copier.close ⟨.ended, [], copied⟩ sink =
        (⟨.done, [], copied⟩, { sink with closed := true }) := by
      simp only [Copier.close, Outbound.shutdown, if_pos hCloses]
    rw [hClose]
    refine { h with
      flow := h.flow, ended := nofun, done := fun _ => ⟨hFlow, hNoReset, ?_, ?_⟩,
      closed := fun _ => .inr rfl, doneClosed := fun _ => rfl, failed := nofun }
    · rw [← hFlow]
      exact h.fits
    · rw [← h.closes]
      exact hCloses
  · have hClose : Copier.close ⟨.ended, [], copied⟩ sink =
        (⟨.failed closeError, [], copied⟩, sink) := by
      simp only [Copier.close, Outbound.shutdown, if_neg hCloses]
    rw [hClose]
    refine { h with
      flow := nofun, ended := nofun, done := nofun, closed := .inl ∘ hClosed,
      doneClosed := nofun, failed := ?_ }
    rintro _ ⟨⟩
    exact .close (by rw [← h.closes]; exact Bool.eq_false_of_not_eq_true hCloses)

theorem step_fill (hReading : copier.stage = .reading) (space : Nat) (source : Inbound)
    (sink : Outbound) : copier.step (.fill space) source sink =
      ((copier.fill space source).1, (copier.fill space source).2, sink) := if_pos hReading

theorem step_drain (hReady : copier.Ready .drain) (source : Inbound) (sink : Outbound) :
    copier.step .drain source sink = ((copier.drain sink).1, source, (copier.drain sink).2) :=
  if_pos hReady

theorem step_close (hReady : copier.Ready .close) (source : Inbound) (sink : Outbound) :
    copier.step .close source sink = ((copier.close sink).1, source, (copier.close sink).2) :=
  if_pos hReady

theorem step_idle {turn : CopyTurn} (hIdle : ¬copier.Ready turn) (source : Inbound)
    (sink : Outbound) : copier.step turn source sink = (copier, source, sink) := if_neg hIdle

/-- One turn, whichever it is. -/
theorem Copied.step (h : Copied source₀ sink₀ written copier source sink) (turn : CopyTurn) :
    ∃ more, Copied source₀ sink₀ (written ++ more) (copier.step turn source sink).1
      (copier.step turn source sink).2.1 (copier.step turn source sink).2.2 := by
  by_cases hReady : copier.Ready turn
  · cases turn with
    | fill space =>
      refine ⟨[], ?_⟩
      rw [step_fill hReady, List.append_nil]
      exact h.fill hReady space
    | drain =>
      rw [step_drain hReady]
      exact h.drain hReady
    | close =>
      refine ⟨[], ?_⟩
      rw [step_close hReady, List.append_nil]
      exact h.close hReady
  · refine ⟨[], ?_⟩
    rw [step_idle hReady, List.append_nil]
    exact h

/-- What a turn tells about itself. -/
inductive Effect (copier copier' : Copier) : Prop
  | filled (hFailure : copier'.failure = none) (hDone : copier'.stage ≠ .done)
      (hCopied : copier'.copied = copier.copied)
  | drained (n : Nat) (hPos : 0 < n) (hFailure : copier'.failure = none)
      (hDone : copier'.stage ≠ .done) (hCopied : copier'.copied = copier.copied + n)
  | closed (hDone : copier'.stage = .done) (hCopied : copier'.copied = copier.copied)
  | failed (hFailure : copier'.failure ≠ none) (hCopied : copier'.copied = copier.copied)

theorem Ready.not_done {turn : CopyTurn} (h : copier.Ready turn) : copier.stage ≠ .done := by
  intro hDone
  cases turn with
  | fill space => cases hDone.symm.trans h
  | drain => exact h.running.2 hDone
  | close => cases hDone.symm.trans h.1

theorem step_effect (source : Inbound) (sink : Outbound) {turn : CopyTurn}
    (hReady : copier.Ready turn) : Effect copier (copier.step turn source sink).1 := by
  obtain ⟨stage, buffer, copied⟩ := copier
  cases turn with
  | fill space =>
    rw [step_fill hReady, fill]
    obtain rfl : stage = .reading := hReady
    obtain ⟨bytes, rest, hRead, _⟩ | ⟨bytes, rest, hRead, _⟩ | ⟨bytes, rest, hRead, _⟩ :=
      source.read_cases space <;> rw [hRead]
    · exact .filled rfl nofun rfl
    · exact .filled rfl nofun rfl
    · exact .failed nofun rfl
  | drain =>
    rw [step_drain hReady, drain]
    obtain ⟨hWrite, _⟩ | ⟨n, sink', hWrite, hPos, _⟩ := sink.write_cases hReady.2 <;> rw [hWrite]
    · exact .failed nofun rfl
    · exact .drained n hPos hReady.running.1 hReady.running.2 rfl
  | close =>
    rw [step_close hReady, close]
    cases sink.shutdown with
    | mk closed sink' =>
      cases closed with
      | true => exact .closed rfl rfl
      | false => exact .failed nofun rfl

/-- A turn that the copier may take uses up one of those it has left. -/
theorem turns_step (source : Inbound) (sink : Outbound) {turn : CopyTurn}
    (hReady : copier.Ready turn) :
    (copier.step turn source sink).1.turns (copier.step turn source sink).2.1.content.length <
      copier.turns source.content.length := by
  obtain ⟨stage, buffer, copied⟩ := copier
  cases turn with
  | fill space =>
    rw [step_fill hReady]
    obtain rfl : stage = .reading := hReady
    obtain ⟨bytes, rest, hRead, hBytes, hContent⟩ | ⟨bytes, rest, hRead, _⟩ |
      ⟨bytes, rest, hRead, _⟩ := source.read_cases space
    · have hPos := List.length_pos_iff.mpr hBytes
      simp only [Copier.fill, hRead, turns, hContent, List.length_append]
      omega
    · simp only [Copier.fill, hRead, turns]
      omega
    · simp only [Copier.fill, hRead, turns]
      omega
  | drain =>
    rw [step_drain hReady]
    obtain ⟨hStage, hBuffer⟩ := hReady
    dsimp only at hStage hBuffer
    obtain ⟨hWrite, _⟩ | ⟨n, sink', hWrite, hPos, hLe, _⟩ := sink.write_cases hBuffer
    · obtain rfl | rfl := hStage <;> simp only [Copier.drain, hWrite, turns] <;> omega
    · obtain rfl | rfl := hStage <;>
        simp only [Copier.drain, hWrite, turns, List.length_drop] <;> omega
  | close =>
    rw [step_close hReady]
    obtain rfl : stage = .ended := hReady.1
    simp only [Copier.close]
    split <;> simp only [turns] <;> omega

/-- A copier that has not finished may take a turn. -/
theorem exists_ready {left : Nat} (h : copier.turns left ≠ 0) : ∃ turn, copier.Ready turn := by
  obtain ⟨stage, buffer, copied⟩ := copier
  cases stage with
  | reading => exact ⟨.fill 0, rfl⟩
  | ended =>
    by_cases hBuffer : buffer = []
    · exact ⟨.close, rfl, hBuffer⟩
    · exact ⟨.drain, .inr rfl, hBuffer⟩
  | done | failed => exact absurd rfl h

end Copier

end CrabbyProxy.Stream
