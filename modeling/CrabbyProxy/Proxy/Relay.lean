import CrabbyProxy.Proxy.Protocol

/-!
# The bidirectional tunnel

Two copy loops run side by side, in any interleaving of their reads and single
writes, until both have finished or one has failed. On healthy streams a loop
that gets enough turns delivers everything its source still has.
-/

namespace CrabbyProxy.Proxy

open CrabbyProxy.Stream
set_option autoImplicit false

abbrev TargetStream : Type := Duplex Unit

inductive Direction where
  | clientToTarget
  | targetToClient
  deriving DecidableEq

/-- Where a copy loop stands; a chunk of `n` bytes may be partly written. -/
inductive Phase where
  | reading
  | writing (pending : List UInt8) (n : Nat)
  | closing
  | done
  | failed (error : IoError)
  deriving DecidableEq

structure Pump where
  phase : Phase
  total : Nat
  deriving DecidableEq

namespace Pump

def new : Pump := ⟨.reading, 0⟩

/-- The next operation of `relay_with_logging` completes. -/
def step (pump : Pump) (source : Inbound) (sink : Outbound) : Pump × Inbound × Outbound :=
  match pump.phase with
  | .reading =>
    match source.read false 1024 with
    | (.ready, bytes, source) => ({ pump with phase := .writing bytes bytes.length }, source, sink)
    | (.eof, _, source) => ({ pump with phase := .closing }, source, sink)
    | (_, _, source) =>
      ({ pump with phase := .failed ⟨.connectionReset, "Connection reset by peer"⟩ }, source, sink)
  | .writing pending n =>
    match sink.write pending with
    | (none, sink) => ({ pump with phase := .failed ⟨.brokenPipe, "Broken pipe"⟩ }, source, sink)
    | (some written, sink) =>
      if pending.drop written = [] then (⟨.reading, pump.total + n⟩, source, sink)
      else ({ pump with phase := .writing (pending.drop written) n }, source, sink)
  | .closing =>
    match sink.shutdown with
    | (true, sink) => ({ pump with phase := .done }, source, sink)
    | (false, sink) =>
      ({ pump with phase := .failed ⟨.notConnected, "Transport endpoint is not connected"⟩ },
        source, sink)
  | .done | .failed _ => (pump, source, sink)

def failure (pump : Pump) : Option IoError :=
  match pump.phase with
  | .failed error => some error
  | _ => none

def pending (pump : Pump) : List UInt8 :=
  match pump.phase with
  | .writing pending _ => pending
  | _ => []

/-- Everything that a turn can do to a loop, its source and its sink. -/
inductive Turned (source : Inbound) (sink : Outbound) : Pump → Pump × Inbound × Outbound → Prop
  | read {total : Nat} {bytes : List UInt8} {rest : Inbound}
      (hRead : source.read false 1024 = (.ready, bytes, rest)) (hBytes : bytes ≠ [])
      (hContent : source.content = bytes ++ rest.content) (hKept : source.Kept rest) :
    Turned source sink ⟨.reading, total⟩ (⟨.writing bytes bytes.length, total⟩, rest, sink)
  | ended {total : Nat} {bytes : List UInt8} {rest : Inbound}
      (hRead : source.read false 1024 = (.eof, bytes, rest)) (hEmpty : source.content = [])
      (hLeft : rest.content = []) (hNoReset : .reset ∉ source.coming) (hKept : source.Kept rest) :
    Turned source sink ⟨.reading, total⟩ (⟨.closing, total⟩, rest, sink)
  | lost {total : Nat} {bytes : List UInt8} {rest : Inbound}
      (hRead : source.read false 1024 = (.reset, bytes, rest)) (hReset : .reset ∈ source.coming)
      (hKept : source.Kept rest) :
    Turned source sink ⟨.reading, total⟩
      (⟨.failed ⟨.connectionReset, "Connection reset by peer"⟩, total⟩, rest, sink)
  | wrote {total n k : Nat} {pending : List UInt8} {after : Outbound}
      (hWrite : sink.write pending = (some k, after)) (hMore : pending.drop k ≠ []) (hPos : 0 < k)
      (hSent : after.sent = sink.sent ++ pending.take k) (hKept : sink.Kept after) :
    Turned source sink ⟨.writing pending n, total⟩
      (⟨.writing (pending.drop k) n, total⟩, source, after)
  | emptied {total n k : Nat} {pending : List UInt8} {after : Outbound}
      (hWrite : sink.write pending = (some k, after)) (hLast : pending.drop k = [])
      (hSent : after.sent = sink.sent ++ pending.take k) (hKept : sink.Kept after) :
    Turned source sink ⟨.writing pending n, total⟩ (⟨.reading, total + n⟩, source, after)
  | refused {total n : Nat} {pending : List UInt8} (hWrite : sink.write pending = (none, sink))
      (hRoom : sink.room = some 0) :
    Turned source sink ⟨.writing pending n, total⟩
      (⟨.failed ⟨.brokenPipe, "Broken pipe"⟩, total⟩, source, sink)
  | closed {total : Nat} (hCloses : sink.closes = true) :
    Turned source sink ⟨.closing, total⟩ (⟨.done, total⟩, source, { sink with closed := true })
  | unclosed {total : Nat} (hCloses : sink.closes = false) :
    Turned source sink ⟨.closing, total⟩
      (⟨.failed ⟨.notConnected, "Transport endpoint is not connected"⟩, total⟩, source, sink)
  | done {total : Nat} : Turned source sink ⟨.done, total⟩ (⟨.done, total⟩, source, sink)
  | failed {total : Nat} {error : IoError} :
    Turned source sink ⟨.failed error, total⟩ (⟨.failed error, total⟩, source, sink)

theorem turned_reading (source : Inbound) (sink : Outbound) (total : Nat) :
    Turned source sink ⟨.reading, total⟩ (step ⟨.reading, total⟩ source sink) := by
  have hKept := source.read_kept false 1024
  obtain ⟨bytes, rest, hRead, hBytes, hContent⟩ | ⟨bytes, rest, hRead, hEmpty, hLeft, hNoReset⟩ |
    ⟨bytes, rest, hRead, hReset⟩ := source.read_cases 1023 <;>
    rw [hRead] at hKept <;> simp only [step, hRead]
  · exact .read hRead hBytes hContent hKept
  · exact .ended hRead hEmpty hLeft hNoReset hKept
  · exact .lost hRead hReset hKept

theorem turned_writing (source : Inbound) (sink : Outbound) (pending : List UInt8) (n total : Nat) :
    Turned source sink ⟨.writing pending n, total⟩
      (step ⟨.writing pending n, total⟩ source sink) := by
  have hSent := sink.write_sent pending
  have hKept := sink.write_kept pending
  by_cases hPending : pending = []
  · obtain ⟨after, hWrite⟩ : ∃ after, sink.write pending = (some (sink.accepted pending), after) :=
      ⟨_, if_neg fun hBoth => hBoth.1 hPending⟩
    rw [hWrite] at hSent hKept
    have hLast : pending.drop (sink.accepted pending) = [] := by rw [hPending, List.drop_nil]
    simp only [step, hWrite, if_pos hLast]
    exact .emptied hWrite hLast hSent hKept
  · obtain ⟨hWrite, hRoom⟩ | ⟨k, after, hWrite, hPos, _⟩ := sink.write_cases hPending <;>
      rw [hWrite] at hSent hKept <;> simp only [step, hWrite]
    · exact .refused hWrite hRoom
    · by_cases hLast : pending.drop k = []
      · rw [if_pos hLast]
        exact .emptied hWrite hLast hSent hKept
      · rw [if_neg hLast]
        exact .wrote hWrite hLast hPos hSent hKept

theorem turned_step (pump : Pump) (source : Inbound) (sink : Outbound) :
    Turned source sink pump (pump.step source sink) := by
  obtain ⟨phase, total⟩ := pump
  cases phase with
  | reading => exact turned_reading source sink total
  | writing pending n => exact turned_writing source sink pending n total
  | closing =>
    by_cases hCloses : sink.closes = true
    · simp only [step, Outbound.shutdown, if_pos hCloses]
      exact .closed hCloses
    · simp only [step, Outbound.shutdown, if_neg hCloses]
      exact .unclosed (Bool.eq_false_iff.mpr hCloses)
  | done => exact .done
  | failed error => exact .failed

/-- The turns a loop still needs, given how many bytes its source has. -/
def turns (pump : Pump) (left : Nat) : Nat :=
  match pump.phase with
  | .reading => 2 * left + 2
  | .writing pending _ => 2 * left + pending.length + 2
  | .closing => 1
  | .done | .failed _ => 0

/-- On streams that do not fail, what has been written, what is being written
and what is still to be read make up the whole. -/
structure Carries (whole : List UInt8) (pump : Pump) (source : Inbound) (sink : Outbound) :
    Prop where
  calm : source.Calm
  writable : sink.Open
  closes : sink.closes = true
  running : ∀ error, pump.phase ≠ .failed error
  flow : sink.sent ++ pump.pending ++ source.content = whole
  ended : pump.phase = .closing ∨ pump.phase = .done → source.content = []
  busy : ∀ n, pump.phase ≠ .writing [] n

variable {whole : List UInt8} {pump : Pump} {source : Inbound} {sink : Outbound}

theorem carries_new (hCalm : source.Calm) (hWritable : sink.Open) (hCloses : sink.closes = true) :
    Carries (sink.sent ++ source.content) new source sink :=
  ⟨hCalm, hWritable, hCloses, nofun, by rw [pending]; simp [new], nofun, nofun⟩

theorem Carries.turned {after : Pump × Inbound × Outbound} (h : Carries whole pump source sink)
    (hTurned : Turned source sink pump after) : Carries whole after.1 after.2.1 after.2.2 ∧
      after.1.turns after.2.1.content.length ≤ pump.turns source.content.length - 1 := by
  cases hTurned with
  | read hRead hBytes hContent hKept =>
    have hFlow := h.flow
    refine ⟨⟨h.calm.of_subset hKept.coming, h.writable, h.closes, nofun, ?_, nofun, ?_⟩, ?_⟩
    · rw [← hFlow, hContent]
      simp [pending]
    · rintro n hWriting
      exact hBytes (Phase.writing.inj hWriting).1
    · have hPos := List.length_pos_iff.mpr hBytes
      simp only [turns, hContent, List.length_append]
      omega
  | ended hRead hEmpty hLeft hNoReset hKept =>
    have hFlow := h.flow
    rw [hEmpty, ← hLeft] at hFlow
    refine ⟨⟨h.calm.of_subset hKept.coming, h.writable, h.closes, nofun, hFlow, fun _ => hLeft,
      nofun⟩, ?_⟩
    simp only [turns]
    omega
  | lost hRead hReset hKept =>
    obtain ⟨bytes, hData⟩ := h.calm _ hReset
    cases hData
  | @wrote total n k pending _ hWrite hMore hPos hSent hKept =>
    refine ⟨⟨h.calm, hKept.stays h.writable, hKept.closes.trans h.closes, nofun, ?_, nofun, ?_⟩, ?_⟩
    · rw [← h.flow, hSent, List.append_assoc sink.sent]
      exact congrArg (sink.sent ++ · ++ _) (List.take_append_drop k pending)
    · rintro m hWriting
      exact hMore (Phase.writing.inj hWriting).1
    · have hLength := List.length_pos_iff.mpr hMore
      rw [List.length_drop] at hLength
      simp only [turns, List.length_drop]
      omega
  | @emptied total n k pending _ hWrite hLast hSent hKept =>
    have hPending : pending ≠ [] := fun hPending => h.busy n (by rw [hPending])
    refine ⟨⟨h.calm, hKept.stays h.writable, hKept.closes.trans h.closes, nofun, ?_, nofun, nofun⟩,
      ?_⟩
    · have hAll : pending.take k = pending := List.take_of_length_le (List.drop_eq_nil_iff.mp hLast)
      rw [← h.flow, hSent, hAll]
      exact congrArg (· ++ _) (List.append_nil _)
    · have hLength := List.length_pos_iff.mpr hPending
      simp only [turns]
      omega
  | refused hWrite hRoom =>
    have hOpen : sink.room = none := h.writable
    rw [hOpen] at hRoom
    cases hRoom
  | closed hCloses =>
    exact ⟨⟨h.calm, h.writable, h.closes, nofun, h.flow, fun _ => h.ended (.inl rfl), nofun⟩,
      Nat.zero_le _⟩
  | unclosed hCloses => exact absurd (hCloses.symm.trans h.closes) Bool.false_ne_true
  | done => exact ⟨h, Nat.zero_le _⟩
  | failed => exact absurd rfl (h.running _)

/-- A turn keeps the whole and uses up one of the turns needed. -/
theorem Carries.step (h : Carries whole pump source sink) :
    Carries whole (pump.step source sink).1 (pump.step source sink).2.1
        (pump.step source sink).2.2 ∧
      (pump.step source sink).1.turns (pump.step source sink).2.1.content.length ≤
        pump.turns source.content.length - 1 := h.turned (turned_step pump source sink)

theorem Carries.failure (h : Carries whole pump source sink) : pump.failure = none := by
  unfold Pump.failure
  split
  · rename_i error hPhase
    exact absurd hPhase (h.running error)
  · rfl

/-- A loop that needs no more turns has written the whole and closed its sink. -/
theorem Carries.finished (h : Carries whole pump source sink)
    (hTurns : pump.turns source.content.length = 0) : pump.phase = .done ∧ sink.sent = whole := by
  obtain ⟨phase, total⟩ := pump
  cases phase with
  | reading => simp only [turns] at hTurns; omega
  | writing pending n => simp only [turns] at hTurns; omega
  | closing => simp only [turns] at hTurns; omega
  | done =>
    have hFlow := h.flow
    rw [h.ended (.inr rfl), List.append_nil] at hFlow
    exact ⟨rfl, (List.append_nil _).symm.trans hFlow⟩
  | failed error => exact absurd rfl (h.running error)

end Pump

structure Tunnel where
  client : ClientStream
  target : TargetStream
  c2t : Pump
  t2c : Pump
  deriving DecidableEq

namespace Tunnel

def new (client : ClientStream) (target : TargetStream) : Tunnel := ⟨client, target, .new, .new⟩

/-- `try_join!` returns as soon as one of the loops has failed. -/
def failure (tunnel : Tunnel) : Option IoError := tunnel.c2t.failure.or tunnel.t2c.failure

def step (tunnel : Tunnel) (direction : Direction) : Tunnel :=
  if tunnel.failure ≠ none then tunnel
  else match direction with
    | .clientToTarget =>
      let turn := tunnel.c2t.step tunnel.client.input tunnel.target.output
      { c2t := turn.1
        t2c := tunnel.t2c
        client := { tunnel.client with input := turn.2.1 }
        target := { tunnel.target with output := turn.2.2 } }
    | .targetToClient =>
      let turn := tunnel.t2c.step tunnel.target.input tunnel.client.output
      { c2t := tunnel.c2t
        t2c := turn.1
        client := { tunnel.client with output := turn.2.2 }
        target := { tunnel.target with input := turn.2.1 } }

/-- `create_bidirectional_tunnel`, as far as the schedule goes. -/
def run (schedule : List Direction) (tunnel : Tunnel) : Tunnel := schedule.foldl step tunnel

/-- What `try_join!` has returned, if it has. -/
def result (tunnel : Tunnel) : Option (Except IoError (Nat × Nat)) :=
  match tunnel.failure with
  | some error => some (.error error)
  | none =>
    if tunnel.c2t.phase = .done ∧ tunnel.t2c.phase = .done then
      some (.ok (tunnel.c2t.total, tunnel.t2c.total))
    else none

/-- Both loops run on healthy streams. -/
structure Sound (toTarget toClient : List UInt8) (tunnel : Tunnel) : Prop where
  c2t : tunnel.c2t.Carries toTarget tunnel.client.input tunnel.target.output
  t2c : tunnel.t2c.Carries toClient tunnel.target.input tunnel.client.output

variable {toTarget toClient : List UInt8} {tunnel : Tunnel}

def turnsToTarget (tunnel : Tunnel) : Nat := tunnel.c2t.turns tunnel.client.input.content.length

theorem Sound.failure (h : Sound toTarget toClient tunnel) : tunnel.failure = none := by
  rw [Tunnel.failure, h.c2t.failure, h.t2c.failure]
  rfl

theorem Sound.step (h : Sound toTarget toClient tunnel) (direction : Direction) :
    Sound toTarget toClient (tunnel.step direction) ∧
      (tunnel.step direction).turnsToTarget ≤
        tunnel.turnsToTarget - (if direction = .clientToTarget then 1 else 0) := by
  unfold Tunnel.step
  rw [if_neg (not_not.mpr h.failure)]
  cases direction with
  | clientToTarget =>
    obtain ⟨hCarries, hTurns⟩ := h.c2t.step
    exact ⟨⟨hCarries, h.t2c⟩, hTurns⟩
  | targetToClient =>
    obtain ⟨hCarries, _⟩ := h.t2c.step
    exact ⟨⟨h.c2t, hCarries⟩, Nat.le_refl _⟩

theorem Sound.run (h : Sound toTarget toClient tunnel) (schedule : List Direction) :
    Sound toTarget toClient (tunnel.run schedule) ∧
      (tunnel.run schedule).turnsToTarget ≤
        tunnel.turnsToTarget - schedule.count .clientToTarget := by
  induction schedule generalizing tunnel with
  | nil => exact ⟨h, Nat.le_refl _⟩
  | cons direction schedule ih =>
    obtain ⟨hStep, hTurns⟩ := h.step direction
    obtain ⟨hRun, hRunTurns⟩ := ih hStep
    refine ⟨hRun, ?_⟩
    have hCount : (direction :: schedule).count .clientToTarget =
        schedule.count .clientToTarget + if direction = .clientToTarget then 1 else 0 := by
      rw [List.count_cons]
      simp
    change (Tunnel.run schedule (tunnel.step direction)).turnsToTarget ≤ _
    omega

end Tunnel

/-- Nothing goes wrong on this stream: it only delivers data, and takes every
write and the final shutdown. -/
structure Steady {τ : Type} (stream : Duplex τ) : Prop where
  calm : stream.input.Calm
  writable : stream.output.Open
  closes : stream.output.closes = true

/-- Between steady streams, the target is sent exactly what the client's stream
still holds, once the loop that carries it has had enough turns. -/
theorem relay_delivers {client : ClientStream} {target : TargetStream} (hClient : Steady client)
    (hTarget : Steady target) {schedule : List Direction}
    (hTurns : 2 * client.input.content.length + 2 ≤ schedule.count .clientToTarget) :
    ((Tunnel.new client target).run schedule).target.output.sent =
      target.output.sent ++ client.input.content := by
  have hSound : Tunnel.Sound (target.output.sent ++ client.input.content)
      (client.output.sent ++ target.input.content) (Tunnel.new client target) :=
    ⟨Pump.carries_new hClient.calm hTarget.writable hTarget.closes,
      Pump.carries_new hTarget.calm hClient.writable hClient.closes⟩
  obtain ⟨hRun, hLeft⟩ := hSound.run schedule
  have hZero : ((Tunnel.new client target).run schedule).turnsToTarget = 0 := by
    change _ ≤ 2 * client.input.content.length + 2 - _ at hLeft
    omega
  exact (hRun.c2t.finished hZero).2

end CrabbyProxy.Proxy
