import CrabbyProxy.Proxy.Relay

/-!
# What a tunnel has copied

On streams that may break anywhere, each loop has always written a prefix of what
arrived at its source. It closes its sink only behind the whole of it, and its count is
the length of what it wrote.
-/

namespace CrabbyProxy.Proxy

open CrabbyProxy.Stream
set_option autoImplicit false

namespace Pump

/-- The length of the chunk that is being written. -/
def inFlight (pump : Pump) : Nat :=
  match pump.phase with
  | .writing _ n => n
  | _ => 0

/-- What a loop has written since it started, and how it stands to its source. -/
structure Copies (source₀ : Inbound) (sink₀ : Outbound) (written : List UInt8) (pump : Pump)
    (source : Inbound) (sink : Outbound) : Prop where
  sent : sink.sent = sink₀.sent ++ written
  isPrefix : written <+: source₀.content
  flow : pump.failure = none → written ++ pump.pending ++ source.content = source₀.content
  counted : pump.failure = none →
    pump.total + pump.inFlight = written.length + pump.pending.length
  reset : .reset ∈ source₀.coming → .reset ∈ source.coming
  ended : pump.phase = .closing ∨ pump.phase = .done → source.content = [] ∧
    .reset ∉ source₀.coming
  closed : sink.closed = true → sink₀.closed = true ∨ pump.phase = .done
  done : pump.phase = .done → sink.closed = true

variable {source₀ source : Inbound} {sink₀ sink : Outbound} {written : List UInt8} {pump : Pump}

theorem copies_new (source : Inbound) (sink : Outbound) : Copies source sink [] new source sink where
  sent := (List.append_nil _).symm
  isPrefix := List.nil_prefix
  flow _ := rfl
  counted _ := rfl
  reset := id
  ended hPhase := by cases hPhase <;> contradiction
  closed := .inl
  done hPhase := by cases hPhase

/-- A sink that was open stays open until the loop is done. -/
theorem Copies.untouched (h : Copies source₀ sink₀ written pump source sink)
    (hDone : pump.phase ≠ .done) (hSink : sink.closed = true) : sink₀.closed = true :=
  (h.closed hSink).resolve_right hDone

/-- A loop that fails keeps what it has written. -/
theorem Copies.failed (h : Copies source₀ sink₀ written pump source sink) {source' : Inbound}
    {total : Nat} {e : IoError} (hReset : .reset ∈ source.coming → .reset ∈ source'.coming)
    (hDone : pump.phase ≠ .done) :
    Copies source₀ sink₀ written ⟨.failed e, total⟩ source' sink where
  sent := h.sent
  isPrefix := h.isPrefix
  flow hRunning := by cases hRunning
  counted hRunning := by cases hRunning
  reset := hReset ∘ h.reset
  ended hPhase := by cases hPhase <;> contradiction
  closed hSink := .inl (h.untouched hDone hSink)
  done hPhase := by cases hPhase

/-- A loop that writes has written that much more. -/
theorem Copies.wrote {pending : List UInt8} {n total k : Nat} {after : Outbound} {pump' : Pump}
    (h : Copies source₀ sink₀ written ⟨.writing pending n, total⟩ source sink)
    (hSent : after.sent = sink.sent ++ pending.take k) (hKept : sink.Kept after)
    (hPending : pump'.pending = pending.drop k) (hCounts : pump'.total + pump'.inFlight = total + n)
    (hEnded : ¬(pump'.phase = .closing ∨ pump'.phase = .done)) :
    Copies source₀ sink₀ (written ++ pending.take k) pump' source after := by
  have hFlow : written ++ pending ++ source.content = source₀.content := h.flow rfl
  have hCounted : total + n = written.length + pending.length := h.counted rfl
  rw [← List.take_append_drop k pending, ← List.append_assoc] at hFlow
  have hLength := congrArg List.length (List.take_append_drop k pending)
  rw [List.length_append] at hLength
  refine ⟨by rw [hSent, h.sent, List.append_assoc], ⟨pending.drop k ++ source.content, ?_⟩,
    fun _ => by rw [hPending, hFlow], fun _ => ?_, h.reset, fun hPhase => absurd hPhase hEnded,
    fun hSink => .inl ?_, fun hPhase => absurd (.inr hPhase) hEnded⟩
  · rw [← List.append_assoc, hFlow]
  · rw [hCounts, hCounted, hPending, List.length_append]
    omega
  · rw [hKept.closed] at hSink
    exact h.untouched (by rintro ⟨⟩) hSink

theorem Copies.same (h : Copies source₀ sink₀ written pump source sink) :
    ∃ more, Copies source₀ sink₀ (written ++ more) pump source sink :=
  ⟨[], by rwa [List.append_nil]⟩

theorem Copies.turned {after : Pump × Inbound × Outbound}
    (h : Copies source₀ sink₀ written pump source sink) (hTurned : Turned source sink pump after) :
    ∃ more, Copies source₀ sink₀ (written ++ more) after.1 after.2.1 after.2.2 := by
  cases hTurned with
  | @read total bytes rest hRead hBytes hContent hKept =>
    have hFlow : written ++ [] ++ source.content = source₀.content := h.flow rfl
    have hCounted : total + 0 = written.length + 0 := h.counted rfl
    have hAfter : Copies source₀ sink₀ written ⟨.writing bytes bytes.length, total⟩ rest sink := by
      refine { h with
        flow := fun _ => ?_, counted := fun _ => ?_, reset := hKept.reset ∘ h.reset,
        ended := (by rintro (hPhase | hPhase) <;> cases hPhase),
        closed := fun hSink => .inl (h.untouched (by rintro ⟨⟩) hSink), done := (by rintro ⟨⟩) }
      · rw [← hFlow, hContent]
        simp [pending]
      · simp only [inFlight, pending]
        omega
    exact hAfter.same
  | @ended total bytes rest hRead hEmpty hLeft hNoReset hKept =>
    have hFlow := h.flow rfl
    rw [hEmpty, ← hLeft] at hFlow
    have hAfter : Copies source₀ sink₀ written ⟨.closing, total⟩ rest sink := { h with
      flow := fun _ => hFlow, counted := fun _ => h.counted rfl, reset := hKept.reset ∘ h.reset,
      ended := fun _ => ⟨hLeft, fun hBroken => hNoReset (h.reset hBroken)⟩,
      closed := fun hSink => .inl (h.untouched (by rintro ⟨⟩) hSink), done := (by rintro ⟨⟩) }
    exact hAfter.same
  | lost hRead hReset hKept => exact (h.failed hKept.reset (by rintro ⟨⟩)).same
  | wrote hWrite hMore hPos hSent hKept =>
    exact ⟨_, h.wrote hSent hKept rfl rfl (by rintro (hPhase | hPhase) <;> cases hPhase)⟩
  | emptied hWrite hLast hSent hKept =>
    exact ⟨_, h.wrote hSent hKept hLast.symm rfl (by rintro (hPhase | hPhase) <;> cases hPhase)⟩
  | refused hWrite hRoom => exact (h.failed id (by rintro ⟨⟩)).same
  | @closed total hCloses =>
    have hAfter : Copies source₀ sink₀ written ⟨.done, total⟩ source
        { sink with closed := true } := { h with
      flow := fun _ => h.flow rfl, counted := fun _ => h.counted rfl,
      ended := fun _ => h.ended (.inl rfl), closed := fun _ => .inr rfl, done := fun _ => rfl }
    exact hAfter.same
  | unclosed hCloses => exact (h.failed id (by rintro ⟨⟩)).same
  | done | failed => exact h.same

theorem Copies.step (h : Copies source₀ sink₀ written pump source sink) :
    ∃ more, Copies source₀ sink₀ (written ++ more) (pump.step source sink).1
      (pump.step source sink).2.1 (pump.step source sink).2.2 := h.turned (turned_step pump source sink)

theorem Copies.whole (h : Copies source₀ sink₀ written pump source sink)
    (hDone : pump.phase = .done) : written = source₀.content ∧ .reset ∉ source₀.coming ∧
      sink.closed = true ∧ pump.total = written.length := by
  obtain ⟨hDry, hNoReset⟩ := h.ended (.inr hDone)
  have hRunning : pump.failure = none := by rw [failure, hDone]
  have hPending : pump.pending = [] := by rw [pending, hDone]
  have hFlow := h.flow hRunning
  have hCounted := h.counted hRunning
  rw [hDry, hPending, List.append_nil, List.append_nil] at hFlow
  rw [inFlight, hDone, hPending] at hCounted
  exact ⟨hFlow, hNoReset, h.done hDone, hCounted⟩

end Pump

namespace Tunnel

/-- What both loops of a tunnel have written since it was opened. -/
structure Relays (client : ClientStream) (target : TargetStream) (toTarget toClient : List UInt8)
    (tunnel : Tunnel) : Prop where
  c2t : tunnel.c2t.Copies client.input target.output toTarget tunnel.client.input
    tunnel.target.output
  t2c : tunnel.t2c.Copies target.input client.output toClient tunnel.target.input
    tunnel.client.output

variable {client : ClientStream} {target : TargetStream} {toTarget toClient : List UInt8}
  {tunnel : Tunnel}

theorem Relays.step (h : Relays client target toTarget toClient tunnel) (direction : Direction) :
    ∃ toTarget toClient, Relays client target toTarget toClient (tunnel.step direction) := by
  unfold Tunnel.step
  split
  · exact ⟨_, _, h⟩
  · cases direction with
    | clientToTarget =>
      obtain ⟨more, hCopies⟩ := h.c2t.step
      exact ⟨_, _, hCopies, h.t2c⟩
    | targetToClient =>
      obtain ⟨more, hCopies⟩ := h.t2c.step
      exact ⟨_, _, h.c2t, hCopies⟩

theorem Relays.run (h : Relays client target toTarget toClient tunnel)
    (schedule : List Direction) :
    ∃ toTarget toClient, Relays client target toTarget toClient (tunnel.run schedule) := by
  induction schedule generalizing tunnel toTarget toClient with
  | nil => exact ⟨_, _, h⟩
  | cons direction schedule ih =>
    obtain ⟨_, _, hStep⟩ := h.step direction
    exact ih hStep

theorem relays_run (client : ClientStream) (target : TargetStream) (schedule : List Direction) :
    ∃ toTarget toClient,
      Relays client target toTarget toClient ((new client target).run schedule) :=
  Relays.run ⟨Pump.copies_new _ _, Pump.copies_new _ _⟩ schedule

theorem done_of_result {a b : Nat} (h : tunnel.result = some (.ok (a, b))) :
    tunnel.c2t.phase = .done ∧ tunnel.t2c.phase = .done ∧
      a = tunnel.c2t.total ∧ b = tunnel.t2c.total := by
  unfold result at h
  split at h
  · cases h
  · split at h
    · rename_i hDone
      cases h
      exact ⟨hDone.1, hDone.2, rfl, rfl⟩
    · cases h

end Tunnel

/-- At every point of every schedule each side has been sent a prefix of what arrived at
the other, and all of it once its writer is shut down. The counts that are returned are
the lengths of both streams. -/
theorem relay_exact (client : ClientStream) (target : TargetStream) (schedule : List Direction) :
    ∃ toTarget toClient,
      ((Tunnel.new client target).run schedule).target.output.sent =
        target.output.sent ++ toTarget ∧
      ((Tunnel.new client target).run schedule).client.output.sent =
        client.output.sent ++ toClient ∧
      toTarget <+: client.input.content ∧ toClient <+: target.input.content ∧
      (((Tunnel.new client target).run schedule).target.output.closed = true →
        target.output.closed = true ∨
          toTarget = client.input.content ∧ .reset ∉ client.input.coming) ∧
      (((Tunnel.new client target).run schedule).client.output.closed = true →
        client.output.closed = true ∨
          toClient = target.input.content ∧ .reset ∉ target.input.coming) ∧
      ∀ a b, ((Tunnel.new client target).run schedule).result = some (.ok (a, b)) →
        toTarget = client.input.content ∧ toClient = target.input.content ∧
        ((Tunnel.new client target).run schedule).target.output.closed = true ∧
        ((Tunnel.new client target).run schedule).client.output.closed = true ∧
        a = client.input.content.length ∧ b = target.input.content.length := by
  have hNew : Tunnel.Relays client target [] [] (Tunnel.new client target) :=
    ⟨Pump.copies_new _ _, Pump.copies_new _ _⟩
  obtain ⟨toTarget, toClient, hC2t, hT2c⟩ := hNew.run schedule
  refine ⟨toTarget, toClient, hC2t.sent, hT2c.sent, hC2t.isPrefix, hT2c.isPrefix, ?_, ?_, ?_⟩
  · intro hClosed
    refine (hC2t.closed hClosed).imp_right fun hDone => ?_
    exact ⟨(hC2t.whole hDone).1, (hC2t.whole hDone).2.1⟩
  · intro hClosed
    refine (hT2c.closed hClosed).imp_right fun hDone => ?_
    exact ⟨(hT2c.whole hDone).1, (hT2c.whole hDone).2.1⟩
  · intro a b hResult
    obtain ⟨hDone, hDone', rfl, rfl⟩ := Tunnel.done_of_result hResult
    obtain ⟨hToTarget, _, hClosed, hTotal⟩ := hC2t.whole hDone
    obtain ⟨hToClient, _, hClosed', hTotal'⟩ := hT2c.whole hDone'
    exact ⟨hToTarget, hToClient, hClosed, hClosed', by rw [hTotal, hToTarget],
      by rw [hTotal', hToClient]⟩

end CrabbyProxy.Proxy
