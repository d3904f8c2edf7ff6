import CrabbyProxy.Library.Copier
import CrabbyProxy.Tunnel.Tasks

/-!
# One connection of a reverse tunnel

Two futures copy between the accepted socket and the one of the target, each shutting its
sink down behind the end of its source. `try_join!` polls them in any order and returns
with the first error, or when both are through. How `io::copy` divides the bytes into
reads and writes is left open.
-/

namespace CrabbyProxy.Tunnel
open CrabbyProxy.Stream Execution
set_option autoImplicit false

abbrev Socket : Type := Duplex Unit

structure Forwarding where
  inbound : Socket
  outbound : Socket
  clientToServer : Copier
  serverToClient : Copier
  deriving DecidableEq

namespace Forwarding

def new (inbound outbound : Socket) : Forwarding := ⟨inbound, outbound, .new, .new⟩

def copier (f : Forwarding) : CopyLoop → Copier
  | .clientToServer => f.clientToServer
  | .serverToClient => f.serverToClient

def source (f : Forwarding) : CopyLoop → Inbound
  | .clientToServer => f.inbound.input
  | .serverToClient => f.outbound.input

def sink (f : Forwarding) : CopyLoop → Outbound
  | .clientToServer => f.outbound.output
  | .serverToClient => f.inbound.output

def failure (f : Forwarding) : Option IoError :=
  f.clientToServer.failure.or f.serverToClient.failure

/-- What `try_join!` has returned, if it has. -/
def result (f : Forwarding) : Option (Except IoError Unit) :=
  match f.failure with
  | some error => some (.error error)
  | none =>
    if f.clientToServer.stage = .done ∧ f.serverToClient.stage = .done then some (.ok ()) else none

/-- The future of this loop goes on; after a failure neither of them does. -/
def step (f : Forwarding) (turn : CopyLoop × CopyTurn) : Forwarding :=
  if f.failure ≠ none then f
  else match turn with
    | (.clientToServer, turn) =>
      let moved := f.clientToServer.step turn f.inbound.input f.outbound.output
      { clientToServer := moved.1
        serverToClient := f.serverToClient
        inbound := { f.inbound with input := moved.2.1 }
        outbound := { f.outbound with output := moved.2.2 } }
    | (.serverToClient, turn) =>
      let moved := f.serverToClient.step turn f.outbound.input f.inbound.output
      { clientToServer := f.clientToServer
        serverToClient := moved.1
        inbound := { f.inbound with output := moved.2.2 }
        outbound := { f.outbound with input := moved.2.1 } }

def next (f : Forwarding) (turn : CopyLoop × CopyTurn) : Unit × Forwarding := ((), f.step turn)

def Ready (f : Forwarding) (turn : CopyLoop × CopyTurn) : Prop :=
  f.failure = none ∧ (f.copier turn.1).Ready turn.2

instance (f : Forwarding) (turn : CopyLoop × CopyTurn) : Decidable (f.Ready turn) :=
  inferInstanceAs (Decidable (_ ∧ _))

variable {f f₀ : Forwarding} {loop other : CopyLoop}

theorem failure_eq_none_iff : f.failure = none ↔ ∀ loop, (f.copier loop).failure = none := by
  rw [failure, Option.or_eq_none_iff]
  constructor
  · rintro ⟨hUp, hDown⟩ loop
    cases loop with
    | clientToServer => exact hUp
    | serverToClient => exact hDown
  · intro hAll
    exact ⟨hAll .clientToServer, hAll .serverToClient⟩

theorem exists_of_failure {e : IoError} (h : f.failure = some e) :
    ∃ loop, (f.copier loop).failure = some e := by
  rw [failure, Option.or_eq_some_iff] at h
  obtain hUp | ⟨_, hDown⟩ := h
  · exact ⟨.clientToServer, hUp⟩
  · exact ⟨.serverToClient, hDown⟩

/-- The loop that goes on is the only one that anything changes for. -/
theorem step_cases (f : Forwarding) (loop : CopyLoop) (turn : CopyTurn) :
    f.step (loop, turn) = f ∨ f.failure = none ∧
      ((f.step (loop, turn)).copier loop, (f.step (loop, turn)).source loop,
        (f.step (loop, turn)).sink loop) =
          (f.copier loop).step turn (f.source loop) (f.sink loop) ∧
      ∀ other, other ≠ loop → (f.step (loop, turn)).copier other = f.copier other ∧
        (f.step (loop, turn)).source other = f.source other ∧
        (f.step (loop, turn)).sink other = f.sink other := by
  by_cases hRunning : f.failure = none
  · refine .inr ⟨hRunning, ?_⟩
    unfold step
    rw [if_neg (not_not.mpr hRunning)]
    cases loop with
    | clientToServer =>
      refine ⟨rfl, fun other hOther => ?_⟩
      cases other with
      | clientToServer => exact absurd rfl hOther
      | serverToClient => exact ⟨rfl, rfl, rfl⟩
    | serverToClient =>
      refine ⟨rfl, fun other hOther => ?_⟩
      cases other with
      | clientToServer => exact ⟨rfl, rfl, rfl⟩
      | serverToClient => exact absurd rfl hOther
  · exact .inl (if_pos hRunning)

/-- What each loop has written since the connection to the target was made. -/
def Carries (f₀ f : Forwarding) : Prop :=
  ∀ loop, ∃ written, Copier.Copied (f₀.source loop) (f₀.sink loop) written (f.copier loop)
    (f.source loop) (f.sink loop)

theorem carries_new (inbound outbound : Socket) :
    Carries (new inbound outbound) (new inbound outbound) := by
  intro loop
  cases loop with
  | clientToServer => exact ⟨[], Copier.copied_new _ _⟩
  | serverToClient => exact ⟨[], Copier.copied_new _ _⟩

theorem Carries.step (h : Carries f₀ f) (turn : CopyLoop × CopyTurn) : Carries f₀ (f.step turn) := by
  obtain ⟨loop, turn⟩ := turn
  obtain hSame | ⟨_, hMoved, hOther⟩ := f.step_cases loop turn
  · rw [hSame]
    exact h
  · intro other
    by_cases hLoop : other = loop
    · subst hLoop
      obtain ⟨written, hCopied⟩ := h other
      obtain ⟨more, hMore⟩ := hCopied.step turn
      rw [← hMoved] at hMore
      exact ⟨_, hMore⟩
    · obtain ⟨hCopier, hSource, hSink⟩ := hOther other hLoop
      rw [hCopier, hSource, hSink]
      exact h other

theorem Carries.run (h : Carries f₀ f) (schedule : List (CopyLoop × CopyTurn)) :
    Carries f₀ (run next f schedule) :=
  Execution.invariant (fun _ turn hCarries => hCarries.step turn) h schedule

theorem result_eq_ok_iff : f.result = some (.ok ()) ↔ ∀ loop, (f.copier loop).stage = .done := by
  have hDone : ∀ copier : Copier, copier.stage = .done → copier.failure = none := by
    intro copier hStage
    rw [Copier.failure, hStage]
  rw [result]
  cases hFailure : f.failure with
  | some e =>
    refine iff_of_false (fun hOk => ?_) fun hAll => ?_
    · cases hOk
    · rw [failure_eq_none_iff.mpr fun loop => hDone _ (hAll loop)] at hFailure
      cases hFailure
  | none =>
    dsimp only
    constructor
    · intro hResult loop
      split at hResult
      · rename_i hBoth
        cases loop with
        | clientToServer => exact hBoth.1
        | serverToClient => exact hBoth.2
      · cases hResult
    · intro hAll
      exact if_pos ⟨hAll .clientToServer, hAll .serverToClient⟩

theorem result_eq_error_iff {e : IoError} : f.result = some (.error e) ↔ f.failure = some e := by
  rw [result]
  cases f.failure with
  | some e' => simp
  | none =>
    refine iff_of_false ?_ nofun
    dsimp only
    split <;> nofun

theorem result_eq_none_iff :
    f.result = none ↔ f.failure = none ∧ ∃ loop, (f.copier loop).stage ≠ .done := by
  constructor
  · intro hNone
    have hRunning : f.failure = none := by
      by_contra hFailed
      obtain ⟨e, hError⟩ := Option.ne_none_iff_exists'.mp hFailed
      rw [result_eq_error_iff.mpr hError] at hNone
      cases hNone
    refine ⟨hRunning, ?_⟩
    by_contra hAll
    push Not at hAll
    rw [result_eq_ok_iff.mpr hAll] at hNone
    cases hNone
  · rintro ⟨hRunning, loop, hStage⟩
    cases hResult : f.result with
    | none => rfl
    | some outcome =>
      cases outcome with
      | ok u => exact absurd (result_eq_ok_iff.mp hResult loop) hStage
      | error e =>
        rw [result_eq_error_iff.mp hResult] at hRunning
        cases hRunning

/-- The turns that both loops may still take. -/
def turns (f : Forwarding) : Nat :=
  f.clientToServer.turns f.inbound.input.content.length +
    f.serverToClient.turns f.outbound.input.content.length

theorem turns_step {turn : CopyLoop × CopyTurn} (hReady : f.Ready turn) :
    (f.step turn).turns < f.turns := by
  obtain ⟨loop, turn⟩ := turn
  obtain ⟨hRunning, hTurn⟩ := hReady
  unfold step
  rw [if_neg (not_not.mpr hRunning)]
  cases loop with
  | clientToServer =>
    have hLess := Copier.turns_step f.inbound.input f.outbound.output hTurn
    exact Nat.add_lt_add_right hLess _
  | serverToClient =>
    have hLess := Copier.turns_step f.outbound.input f.inbound.output hTurn
    exact Nat.add_lt_add_left hLess _

theorem result_eq_none_iff_ready : f.result = none ↔ ∃ turn, f.Ready turn := by
  rw [result_eq_none_iff]
  constructor
  · rintro ⟨hRunning, loop, hStage⟩
    have hOwn := failure_eq_none_iff.mp hRunning loop
    have hTurns : (f.copier loop).turns 0 ≠ 0 := by
      rw [Copier.turns]
      cases hCase : (f.copier loop).stage with
      | reading | ended => exact Nat.succ_ne_zero _
      | done => exact absurd hCase hStage
      | failed e => exact absurd hCase (Copier.failure_eq_none_iff.mp hOwn e)
    obtain ⟨turn, hTurn⟩ := Copier.exists_ready hTurns
    exact ⟨(loop, turn), hRunning, hTurn⟩
  · rintro ⟨⟨loop, turn⟩, hRunning, hTurn⟩
    exact ⟨hRunning, loop, Copier.Ready.not_done hTurn⟩

end Forwarding

open Forwarding

/-- At every moment each side of a connection has been sent a prefix of what arrived at the
other, and all of it once it is shut down. A connection that returns without an error has
copied both streams in full; one that fails ran into something that can go wrong. -/
theorem tunnel_connection_exact (inbound outbound : Socket)
    (schedule : List (CopyLoop × CopyTurn)) :
    (∀ loop, ∃ written,
      ((run next (new inbound outbound) schedule).sink loop).sent =
        ((new inbound outbound).sink loop).sent ++ written ∧
      written <+: ((new inbound outbound).source loop).content ∧
      (((run next (new inbound outbound) schedule).sink loop).closed = true →
        ((new inbound outbound).sink loop).closed = true ∨
          written = ((new inbound outbound).source loop).content) ∧
      ((run next (new inbound outbound) schedule).result = some (.ok ()) →
        written = ((new inbound outbound).source loop).content ∧
          ((run next (new inbound outbound) schedule).sink loop).closed = true)) ∧
    ∀ e, (run next (new inbound outbound) schedule).result = some (.error e) →
      ∃ loop, Copier.MayFail ((new inbound outbound).source loop)
        ((new inbound outbound).sink loop) e := by
  have hCarries := (carries_new inbound outbound).run schedule
  refine ⟨fun loop => ?_, fun e hResult => ?_⟩
  · obtain ⟨written, hCopied⟩ := hCarries loop
    refine ⟨written, hCopied.sent, hCopied.isPrefix, fun hClosed => ?_, fun hResult => ?_⟩
    · exact (hCopied.closed hClosed).imp_right fun hDone => (hCopied.done hDone).1
    · have hDone := result_eq_ok_iff.mp hResult loop
      exact ⟨(hCopied.done hDone).1, hCopied.doneClosed hDone⟩
  · obtain ⟨loop, hFailed⟩ := exists_of_failure (result_eq_error_iff.mp hResult)
    obtain ⟨written, hCopied⟩ := hCarries loop
    exact ⟨loop, hCopied.failed e (Copier.stage_of_failure hFailed)⟩

/-- A connection cannot go on for longer than its bytes last and, each turn being an operation
that completes, it stops only when it has returned: without an error if nothing can go wrong
in either direction, and otherwise with an error that one of them can run into. -/
theorem tunnel_connection_ends {inbound outbound : Socket} {schedule : List (CopyLoop × CopyTurn)}
    (hReady : Along next Ready (new inbound outbound) schedule) :
    schedule.length ≤
        2 * inbound.input.content.length + 2 * outbound.input.content.length + 4 ∧
    ((¬∃ turn, (run next (new inbound outbound) schedule).Ready turn) →
      ((∀ loop, Copier.Completes ((new inbound outbound).source loop)
          ((new inbound outbound).sink loop)) →
        (run next (new inbound outbound) schedule).result = some (.ok ())) ∧
      ((¬∀ loop, Copier.Completes ((new inbound outbound).source loop)
          ((new inbound outbound).sink loop)) →
        ∃ e loop, (run next (new inbound outbound) schedule).result = some (.error e) ∧
          Copier.MayFail ((new inbound outbound).source loop)
            ((new inbound outbound).sink loop) e)) := by
  have hCarries := (carries_new inbound outbound).run schedule
  constructor
  · have hLength := length_le_of_along (fun _ _ => turns_step) hReady
    have hTurns : (new inbound outbound).turns = (2 * inbound.input.content.length + 0 + 2) +
      (2 * outbound.input.content.length + 0 + 2) := rfl
    omega
  · intro hStuck
    have hReturned := mt result_eq_none_iff_ready.mp hStuck
    obtain ⟨outcome, hResult⟩ := Option.ne_none_iff_exists'.mp hReturned
    cases outcome with
    | ok u =>
      refine ⟨fun _ => hResult, fun hNot => absurd (fun loop => ?_) hNot⟩
      obtain ⟨written, hCopied⟩ := hCarries loop
      exact (hCopied.done (result_eq_ok_iff.mp hResult loop)).2
    | error e =>
      obtain ⟨loop, hFailed⟩ := exists_of_failure (result_eq_error_iff.mp hResult)
      obtain ⟨written, hCopied⟩ := hCarries loop
      have hMay := hCopied.failed e (Copier.stage_of_failure hFailed)
      refine ⟨fun hAll => ?_, fun _ => ⟨e, loop, hResult, hMay⟩⟩
      exact absurd hMay (Copier.completes_iff.mp (hAll loop) e)

/-- A peer that sends these segments, closes its side and takes everything. -/
def peer (segments : List (List UInt8)) : Socket := ⟨(), .ofSegments segments, .fresh, false⟩

/-- One byte goes through, and both sides close. -/
def oneByte : List (CopyLoop × CopyTurn) :=
  [(.clientToServer, .fill 8191), (.serverToClient, .fill 8191), (.clientToServer, .drain),
    (.clientToServer, .fill 8191), (.clientToServer, .close), (.serverToClient, .close)]

theorem tunnel_connection_ends_one_byte :
    (run next (new (peer [[7]]) (peer [])) oneByte).result = some (.ok ()) := by
  have hReady : Along next Ready (new (peer [[7]]) (peer [])) oneByte :=
    ⟨by decide, by decide, by decide, by decide, by decide, by decide, trivial⟩
  refine ((tunnel_connection_ends hReady).2 ?_).1 ?_
  · intro hMore
    exact absurd (result_eq_none_iff_ready.mpr hMore) (by decide)
  · intro loop
    cases loop <;> exact ⟨by decide, nofun, rfl⟩

end CrabbyProxy.Tunnel
