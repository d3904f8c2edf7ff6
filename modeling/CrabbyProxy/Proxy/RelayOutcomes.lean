import CrabbyProxy.Library.Copier
import CrabbyProxy.Proxy.Relay

/-!
# How a tunnel ends

Each of the two loops is a copier that fills only into an empty buffer. Whatever the
schedule, a tunnel whose loops get the turns they need has returned. It has failed only
with something that could go wrong in one of its directions.
-/

namespace CrabbyProxy.Proxy

open CrabbyProxy.Stream
set_option autoImplicit false

namespace Pump

/-- The copier that a pump is, as long as it runs. -/
inductive Shows : Pump → Copier → Prop
  | reading (total : Nat) : Shows ⟨.reading, total⟩ ⟨.reading, [], total⟩
  | writing {pending : List UInt8} {n total copied : Nat} (hPending : pending ≠ [])
      (hCopied : copied + pending.length = total + n) :
    Shows ⟨.writing pending n, total⟩ ⟨.reading, pending, copied⟩
  | closing (total : Nat) : Shows ⟨.closing, total⟩ ⟨.ended, [], total⟩
  | done (total : Nat) : Shows ⟨.done, total⟩ ⟨.done, [], total⟩
  | failed (e : IoError) (total copied : Nat) (buffer : List UInt8) :
    Shows ⟨.failed e, total⟩ ⟨.failed e, buffer, copied⟩

variable {pump : Pump} {copier : Copier} {source : Inbound} {sink : Outbound}

theorem Shows.failure (h : Shows pump copier) : pump.failure = copier.failure := by
  cases h <;> rfl

theorem Shows.turned {after : Pump × Inbound × Outbound} (h : Shows pump copier)
    (hTurned : Turned source sink pump after) (hRunning : copier.turns source.content.length ≠ 0) :
    ∃ turn, copier.Ready turn ∧ Shows after.1 (copier.step turn source sink).1 ∧
      after.2 = (copier.step turn source sink).2 := by
  cases h with
  | reading total =>
    refine ⟨.fill 1023, rfl, ?_⟩
    rw [Copier.step_fill rfl, Copier.fill]
    cases hTurned with
    | read hRead hBytes hContent hKept =>
      rw [hRead]
      exact ⟨.writing hBytes rfl, rfl⟩
    | ended hRead hEmpty hLeft hNoReset hKept =>
      rw [hRead]
      exact ⟨.closing total, rfl⟩
    | lost hRead hReset hKept =>
      rw [hRead]
      exact ⟨.failed _ _ _ _, rfl⟩
  | @writing pending n total copied hPending hCopied =>
    have hReady : Copier.Ready ⟨.reading, pending, copied⟩ .drain := ⟨.inl rfl, hPending⟩
    refine ⟨.drain, hReady, ?_⟩
    rw [Copier.step_drain hReady, Copier.drain]
    cases hTurned with
    | @wrote _ _ k _ after hWrite hMore hPos hSent hKept =>
      have hLe := Outbound.write_le (congrArg Prod.fst hWrite)
      have hLeft : copied + k + (pending.drop k).length = total + n := by
        rw [List.length_drop]
        omega
      rw [hWrite]
      exact ⟨.writing hMore hLeft, rfl⟩
    | @emptied _ _ k _ after hWrite hLast hSent hKept =>
      have hLe := Outbound.write_le (congrArg Prod.fst hWrite)
      have hWhole := List.drop_eq_nil_iff.mp hLast
      have hTotal : copied + k = total + n := by omega
      rw [hWrite]
      dsimp only
      rw [hLast, hTotal]
      exact ⟨.reading _, rfl⟩
    | refused hWrite hRoom =>
      rw [hWrite]
      exact ⟨.failed _ _ _ _, rfl⟩
  | closing total =>
    have hReady : Copier.Ready ⟨.ended, [], total⟩ .close := ⟨rfl, rfl⟩
    refine ⟨.close, hReady, ?_⟩
    rw [Copier.step_close hReady, Copier.close, Outbound.shutdown]
    cases hTurned with
    | closed hCloses =>
      rw [if_pos hCloses]
      exact ⟨.done total, rfl⟩
    | unclosed hCloses =>
      rw [if_neg (Bool.eq_false_iff.mp hCloses)]
      exact ⟨.failed _ _ _ _, rfl⟩
  | done | failed => exact absurd rfl hRunning

/-- A step of a running pump is a turn that its copier may take. -/
theorem Shows.step (h : Shows pump copier) (source : Inbound) (sink : Outbound)
    (hRunning : copier.turns source.content.length ≠ 0) :
    ∃ turn, copier.Ready turn ∧ Shows (pump.step source sink).1 (copier.step turn source sink).1 ∧
      (pump.step source sink).2 = (copier.step turn source sink).2 :=
  h.turned (turned_step pump source sink) hRunning

/-- One direction of a tunnel: its copier, and what that has written. -/
def Moves (source₀ : Inbound) (sink₀ : Outbound) (pump : Pump) (source : Inbound)
    (sink : Outbound) (left : Nat) : Prop :=
  ∃ copier written, Shows pump copier ∧ Copier.Copied source₀ sink₀ written copier source sink ∧
    copier.turns source.content.length ≤ left

variable {source₀ : Inbound} {sink₀ : Outbound} {left : Nat}

theorem moves_new (source : Inbound) (sink : Outbound) :
    Moves source sink new source sink (2 * source.content.length + 2) :=
  ⟨.new, [], .reading 0, Copier.copied_new source sink, Nat.le_refl _⟩

theorem Moves.step (h : Moves source₀ sink₀ pump source sink left) :
    Moves source₀ sink₀ (pump.step source sink).1 (pump.step source sink).2.1
      (pump.step source sink).2.2 (left - 1) := by
  obtain ⟨copier, written, hShows, hCopied, hTurns⟩ := h
  by_cases hOver : copier.turns source.content.length = 0
  · have hIdle : pump.step source sink = (pump, source, sink) := by
      cases hShows with
      | reading | writing | closing => simp only [Copier.turns] at hOver; omega
      | done | failed => rfl
    rw [hIdle]
    exact ⟨copier, written, hShows, hCopied, by rw [hOver]; exact Nat.zero_le _⟩
  · obtain ⟨turn, hReady, hNext, hSame⟩ := hShows.step source sink hOver
    obtain ⟨more, hMore⟩ := hCopied.step turn
    have hLess := Copier.turns_step source sink hReady
    rw [hSame]
    exact ⟨_, _, hNext, hMore, by omega⟩

theorem Moves.of_done (h : Moves source₀ sink₀ pump source sink left) (hDone : pump.phase = .done) :
    Copier.Completes source₀ sink₀ ∧ pump.total = source₀.content.length := by
  obtain ⟨copier, written, hShows, hCopied, _⟩ := h
  cases hShows with
  | done total =>
    obtain ⟨hWhole, hCompletes⟩ := hCopied.done rfl
    exact ⟨hCompletes, by rw [← hWhole]; exact hCopied.counted⟩
  | reading | writing | closing | failed => cases hDone

theorem Moves.of_failure (h : Moves source₀ sink₀ pump source sink left) {e : IoError}
    (hFailed : pump.failure = some e) : Copier.MayFail source₀ sink₀ e := by
  obtain ⟨copier, written, hShows, hCopied, _⟩ := h
  cases hShows with
  | failed e total copied buffer =>
    cases hFailed
    exact hCopied.failed _ rfl
  | reading | writing | closing | done => cases hFailed

theorem Moves.over (h : Moves source₀ sink₀ pump source sink 0) :
    pump.phase = .done ∨ pump.failure ≠ none := by
  obtain ⟨copier, written, hShows, hCopied, hTurns⟩ := h
  cases hShows with
  | reading | writing | closing => simp only [Copier.turns] at hTurns; omega
  | done => exact .inl rfl
  | failed => exact .inr (Option.some_ne_none _)

end Pump

namespace Tunnel

/-- Both directions, with the turns that they may still need. -/
structure Progresses (client : ClientStream) (target : TargetStream) (tunnel : Tunnel)
    (toTarget toClient : Nat) : Prop where
  c2t : tunnel.c2t.Moves client.input target.output tunnel.client.input tunnel.target.output
    toTarget
  t2c : tunnel.t2c.Moves target.input client.output tunnel.target.input tunnel.client.output
    toClient

variable {client : ClientStream} {target : TargetStream} {tunnel : Tunnel} {toTarget toClient : Nat}

theorem Progresses.step (h : Progresses client target tunnel toTarget toClient)
    (hRunning : tunnel.failure = none) (direction : Direction) :
    Progresses client target (tunnel.step direction)
      (toTarget - [direction].count .clientToTarget) (toClient - [direction].count .targetToClient) := by
  unfold Tunnel.step
  rw [if_neg (not_not.mpr hRunning)]
  cases direction with
  | clientToTarget => exact ⟨h.c2t.step, h.t2c⟩
  | targetToClient => exact ⟨h.c2t, h.t2c.step⟩

theorem run_append (tunnel : Tunnel) (first second : List Direction) :
    tunnel.run (first ++ second) = (tunnel.run first).run second := List.foldl_append

theorem run_of_failure (hFailed : tunnel.failure ≠ none) (schedule : List Direction) :
    tunnel.run schedule = tunnel := by
  induction schedule with
  | nil => rfl
  | cons direction schedule ih =>
    have hStep : tunnel.step direction = tunnel := if_pos hFailed
    show (tunnel.step direction).run schedule = tunnel
    rw [hStep, ih]

/-- A tunnel that fails stays as it is; otherwise each direction uses up its turns. -/
theorem Progresses.run (h : Progresses client target tunnel toTarget toClient)
    (schedule : List Direction) :
    ∃ leftToTarget leftToClient,
      Progresses client target (tunnel.run schedule) leftToTarget leftToClient ∧
      ((tunnel.run schedule).failure ≠ none ∨
        leftToTarget = toTarget - schedule.count .clientToTarget ∧
          leftToClient = toClient - schedule.count .targetToClient) := by
  induction schedule generalizing tunnel toTarget toClient with
  | nil => exact ⟨toTarget, toClient, h, .inr ⟨rfl, rfl⟩⟩
  | cons direction schedule ih =>
    by_cases hRunning : tunnel.failure = none
    · obtain ⟨leftToTarget, leftToClient, hRun, hLeft⟩ := ih (h.step hRunning direction)
      refine ⟨leftToTarget, leftToClient, hRun, hLeft.imp_right fun ⟨hTarget, hClient⟩ => ?_⟩
      rw [hTarget, hClient, Nat.sub_sub, Nat.sub_sub, ← List.count_append, ← List.count_append]
      exact ⟨rfl, rfl⟩
    · rw [run_of_failure hRunning]
      exact ⟨toTarget, toClient, h, .inl hRunning⟩

theorem result_of_failure {e : IoError} (hFailed : tunnel.failure = some e) :
    tunnel.result = some (.error e) := by
  rw [result, hFailed]

theorem result_of_done (hRunning : tunnel.failure = none) (hC2t : tunnel.c2t.phase = .done)
    (hT2c : tunnel.t2c.phase = .done) :
    tunnel.result = some (.ok (tunnel.c2t.total, tunnel.t2c.total)) := by
  rw [result, hRunning]
  exact if_pos ⟨hC2t, hT2c⟩

theorem Progresses.of_failure (h : Progresses client target tunnel toTarget toClient) {e : IoError}
    (hFailed : tunnel.failure = some e) : Copier.MayFail client.input target.output e ∨
      Copier.MayFail target.input client.output e := by
  rw [failure, Option.or_eq_some_iff] at hFailed
  obtain hFailed | ⟨_, hFailed⟩ := hFailed
  · exact .inl (h.c2t.of_failure hFailed)
  · exact .inr (h.t2c.of_failure hFailed)

/-- Behind all its turns a tunnel has ended. -/
theorem Progresses.over (h : Progresses client target tunnel 0 0) (hRunning : tunnel.failure = none) :
    tunnel.c2t.phase = .done ∧ tunnel.t2c.phase = .done := by
  obtain ⟨hC2t, hT2c⟩ := Option.or_eq_none_iff.mp hRunning
  exact ⟨h.c2t.over.resolve_right (not_not.mpr hC2t), h.t2c.over.resolve_right (not_not.mpr hT2c)⟩

end Tunnel

/-- Enough turns leave a tunnel failed, or with nothing more to do. -/
theorem Tunnel.progresses_all {client : ClientStream} {target : TargetStream}
    {schedule : List Direction}
    (hToTarget : 2 * client.input.content.length + 2 ≤ schedule.count .clientToTarget)
    (hToClient : 2 * target.input.content.length + 2 ≤ schedule.count .targetToClient) :
    (∃ e, ((Tunnel.new client target).run schedule).failure = some e ∧
      (Copier.MayFail client.input target.output e ∨
        Copier.MayFail target.input client.output e)) ∨
    ((Tunnel.new client target).run schedule).failure = none ∧
      Progresses client target ((Tunnel.new client target).run schedule) 0 0 := by
  have hNew : Progresses client target (Tunnel.new client target)
      (2 * client.input.content.length + 2) (2 * target.input.content.length + 2) :=
    ⟨Pump.moves_new _ _, Pump.moves_new _ _⟩
  obtain ⟨leftToTarget, leftToClient, hRun, hLeft⟩ := hNew.run schedule
  cases hFailure : ((Tunnel.new client target).run schedule).failure with
  | some e => exact .inl ⟨e, rfl, hRun.of_failure hFailure⟩
  | none =>
    obtain ⟨hTarget, hClient⟩ := hLeft.resolve_left (not_not.mpr hFailure)
    rw [Nat.sub_eq_zero_of_le hToTarget] at hTarget
    rw [Nat.sub_eq_zero_of_le hToClient] at hClient
    subst hTarget hClient
    exact .inr ⟨rfl, hRun⟩

theorem Tunnel.returns {client : ClientStream} {target : TargetStream} {schedule : List Direction}
    (hToTarget : 2 * client.input.content.length + 2 ≤ schedule.count .clientToTarget)
    (hToClient : 2 * target.input.content.length + 2 ≤ schedule.count .targetToClient) :
    ((Tunnel.new client target).run schedule).result ≠ none := by
  obtain ⟨e, hFailed, _⟩ | ⟨hRunning, hRun⟩ := Tunnel.progresses_all hToTarget hToClient
  · rw [Tunnel.result_of_failure hFailed]
    nofun
  · obtain ⟨hC2t, hT2c⟩ := hRun.over hRunning
    rw [Tunnel.result_of_done hRunning hC2t hT2c]
    nofun

/-- A tunnel whose loops get the turns they need has returned, whatever their order: with
the lengths of both streams if nothing can go wrong in either direction, and otherwise with
an error that one of them can run into. -/
theorem relay_outcome {client : ClientStream} {target : TargetStream} {schedule : List Direction}
    (hToTarget : 2 * client.input.content.length + 2 ≤ schedule.count .clientToTarget)
    (hToClient : 2 * target.input.content.length + 2 ≤ schedule.count .targetToClient) :
    (Copier.Completes client.input target.output ∧
        Copier.Completes target.input client.output →
      ((Tunnel.new client target).run schedule).result =
        some (.ok (client.input.content.length, target.input.content.length))) ∧
    (¬(Copier.Completes client.input target.output ∧
        Copier.Completes target.input client.output) →
      ∃ e, ((Tunnel.new client target).run schedule).result = some (.error e) ∧
        (Copier.MayFail client.input target.output e ∨
          Copier.MayFail target.input client.output e)) := by
  obtain ⟨e, hFailed, hMay⟩ | ⟨hRunning, hRun⟩ := Tunnel.progresses_all hToTarget hToClient
  · refine ⟨fun ⟨hC2t, hT2c⟩ => ?_, fun _ => ⟨e, Tunnel.result_of_failure hFailed, hMay⟩⟩
    obtain hMay | hMay := hMay
    · exact absurd hMay (Copier.completes_iff.mp hC2t e)
    · exact absurd hMay (Copier.completes_iff.mp hT2c e)
  · obtain ⟨hC2t, hT2c⟩ := hRun.over hRunning
    obtain ⟨hC2tCompletes, hC2tTotal⟩ := hRun.c2t.of_done hC2t
    obtain ⟨hT2cCompletes, hT2cTotal⟩ := hRun.t2c.of_done hT2c
    have hResult := Tunnel.result_of_done hRunning hC2t hT2c
    rw [hC2tTotal, hT2cTotal] at hResult
    exact ⟨fun _ => hResult, fun hNot => absurd ⟨hC2tCompletes, hT2cCompletes⟩ hNot⟩

/-- Two bytes one way and one the other. -/
theorem relay_outcome_both_ways :
    ((Tunnel.new ⟨.plain, .ofSegments [[1], [2]], .fresh, false⟩
      ⟨(), .ofSegments [[3]], .fresh, false⟩).run (List.replicate 6 .clientToTarget ++
        List.replicate 4 .targetToClient)).result = some (.ok (2, 1)) :=
  (relay_outcome (by decide) (by decide)).1 ⟨⟨by decide, nofun, rfl⟩, ⟨by decide, nofun, rfl⟩⟩

end CrabbyProxy.Proxy
