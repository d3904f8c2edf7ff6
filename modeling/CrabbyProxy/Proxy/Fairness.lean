import CrabbyProxy.Proxy.RelayOutcomes
import CrabbyProxy.Proxy.Server

/-!
# Every session comes to an end

A session that is moved along ends, whatever happens around it: it needs its two steps, an
answer to its connect, and for each direction of its tunnel two turns a byte and two more. A
step or a turn is an operation that completes, so what is assumed of the peers is that they
send, close or reset. A session with an open and silent peer gets no turns.
-/

namespace CrabbyProxy.Proxy

open CrabbyProxy.Stream Execution
set_option autoImplicit false

/-- The turns among the events of a session. -/
def turnsOf (events : List SessionEvent) : List Direction :=
  events.filterMap fun
    | .turn direction => some direction
    | _ => none

namespace SessionTask

variable {env : Environment} {state : AppState} {task : SessionTask} {client : ClientStream}
  {protocol : ProxyProtocol} {target : ProxyTarget} {address : String × UInt16} {tunnel : Tunnel}

theorem run_ended (handled : Handled) (events : List SessionEvent) :
    run (step env state) (.ended handled) events = .ended handled := by
  induction events with
  | nil => rfl
  | cons event events ih => cases event <;> exact ih

/-- To a tunnel nothing but turns matters. -/
theorem run_relaying (hOpen : tunnel.result = none) (events : List SessionEvent) :
    run (step env state) (.relaying protocol target address tunnel) events =
      relay protocol target address (tunnel.run (turnsOf events)) := by
  induction events generalizing tunnel with
  | nil => exact (if_pos hOpen).symm
  | cons event events ih =>
    cases event with
    | proceed | connect => exact ih hOpen
    | turn direction =>
      show run (step env state) (relay protocol target address (tunnel.step direction)) events =
        relay protocol target address ((tunnel.step direction).run (turnsOf events))
      by_cases hNext : (tunnel.step direction).result = none
      · rw [relay, if_pos hNext]
        exact ih hNext
      · rw [run_of_result hNext, relay, if_neg hNext]
        exact run_ended _ events

theorem stages_relay (tunnel : Tunnel) : (relay protocol target address tunnel).stages = 0 := by
  unfold relay
  split <;> rfl

/-- A step never leads back, and the one that is waited for leads on. -/
theorem stages_step (task : SessionTask) (event : SessionEvent) :
    (step env state task event).2.stages ≤ task.stages := by
  cases task with
  | arrived client =>
    cases event with
    | proceed => exact Nat.le_succ_of_le (entered_enter env state client).stages
    | connect | turn => exact Nat.le_refl _
  | admitted client =>
    cases event with
    | proceed => exact Nat.le_succ_of_le (parsed_parse client).stages
    | connect | turn => exact Nat.le_refl _
  | connecting protocol target address client =>
    cases event with
    | connect outcome =>
      exact Nat.le_succ_of_le (Nat.le_of_eq (opened_answer _ _ _ client outcome).stages)
    | proceed | turn => exact Nat.le_refl _
  | relaying protocol target address tunnel =>
    cases event with
    | turn direction => exact Nat.le_of_eq (stages_relay _)
    | proceed | connect => exact Nat.le_refl _
  | ended handled => cases event <;> exact Nat.le_refl _

theorem stages_proceed {n : Nat} (h : task.stages ≤ n + 2) :
    (step env state task .proceed).2.stages ≤ n + 1 := by
  cases task with
  | arrived client =>
    have hLess := (entered_enter env state client).stages
    simp only [stages] at h
    exact Nat.le_trans hLess (by omega)
  | admitted client => exact Nat.le_trans (parsed_parse client).stages (Nat.le_add_left _ _)
  | connecting => exact Nat.le_add_left _ _
  | relaying | ended => exact Nat.zero_le _

theorem stages_connect (h : task.stages ≤ 1) (outcome : Connecting) :
    (step env state task (.connect outcome)).2.stages = 0 := by
  cases task with
  | arrived | admitted => simp only [stages] at h; omega
  | connecting protocol target address client => exact (opened_answer _ _ _ client outcome).stages
  | relaying | ended => rfl

theorem stages_run (task : SessionTask) (events : List SessionEvent) :
    (run (step env state) task events).stages ≤ task.stages := by
  induction events generalizing task with
  | nil => exact Nat.le_refl _
  | cons event events ih => exact Nat.le_trans (ih _) (stages_step task event)

/-- The bytes that a client still has to send when it is admitted. -/
def admittedLength (env : Environment) (state : AppState) (client : ClientStream) : Nat :=
  match admitClient env state client with
  | .ok _ entry => entry.input.content.length
  | .error _ _ => 0

/-- What lies ahead of a task: no more of the client than at its admission, and a stream that
the network has come up with. -/
def Ahead (env : Environment) (state : AppState) (client : ClientStream)
    (past : List SessionEvent) : SessionTask → Prop
  | .arrived arrival => arrival = client
  | .admitted entry => entry.input.content.length ≤ admittedLength env state client
  | .connecting _ _ _ st => st.input.content.length ≤ admittedLength env state client
  | .relaying _ _ _ tunnel => tunnel.result = none ∧ ∃ st stream schedule,
      tunnel = (Tunnel.new st stream).run schedule ∧
      st.input.content.length ≤ admittedLength env state client ∧
      .connect (.connected stream) ∈ past
  | .ended _ => True

variable {past : List SessionEvent}

theorem Ahead.later (h : task.Ahead env state client past) (more : List SessionEvent) :
    task.Ahead env state client (past ++ more) := by
  cases task with
  | arrived | admitted | connecting | ended => exact h
  | relaying protocol target address tunnel =>
    obtain ⟨hOpen, st, stream, schedule, hTunnel, hLength, hMem⟩ := h
    exact ⟨hOpen, st, stream, schedule, hTunnel, hLength, List.mem_append_left _ hMem⟩

theorem Entered.ahead (h : Entered env state client task) :
    task.Ahead env state client past := by
  cases h with
  | refused hError => trivial
  | admitted hOk =>
    unfold Ahead admittedLength
    rw [hOk]

theorem Parsed.ahead {entry : ClientStream} (h : Parsed entry task)
    (hLength : entry.input.content.length ≤ admittedLength env state client) :
    task.Ahead env state client past := by
  cases h with
  | failed hNone hSame => trivial
  | connecting hChoose hParse =>
    have hFirst := (framing_chooseProtocol.ok hChoose).unread.length_le
    have hSecond := ((framing_parseTargetByProtocol _).ok hParse).unread.length_le
    exact Nat.le_trans hSecond (Nat.le_trans hFirst hLength)

theorem Opened.ahead {st : ClientStream} {outcome : Connecting}
    (h : Opened protocol target address st outcome task)
    (hLength : st.input.content.length ≤ admittedLength env state client)
    (hPast : .connect outcome ∈ past) : task.Ahead env state client past := by
  cases h with
  | failed hNone hSame => trivial
  | @relaying stream st' hInput hSent =>
    refine ⟨rfl, st', stream, [], rfl, ?_, hPast⟩
    rwa [hInput]

theorem Ahead.step (h : task.Ahead env state client past) (event : SessionEvent) :
    (step env state task event).2.Ahead env state client (past ++ [event]) := by
  have hLast : event ∈ past ++ [event] := List.mem_append_right _ List.mem_cons_self
  cases task with
  | arrived arrival =>
    obtain rfl : arrival = client := h
    cases event with
    | proceed => exact (entered_enter env state arrival).ahead
    | connect | turn => rfl
  | admitted entry =>
    cases event with
    | proceed => exact (parsed_parse entry).ahead h
    | connect | turn => exact h
  | connecting protocol target address st =>
    cases event with
    | connect outcome => exact (opened_answer _ _ _ st outcome).ahead h hLast
    | proceed | turn => exact h
  | relaying protocol target address tunnel =>
    cases event with
    | turn direction =>
      obtain ⟨hOpen, st, stream, schedule, rfl, hLength, hMem⟩ := h
      show (relay protocol target address _).Ahead env state client _
      unfold relay
      by_cases hNext : (((Tunnel.new st stream).run schedule).step direction).result = none
      · rw [if_pos hNext]
        refine ⟨hNext, st, stream, schedule ++ [direction], ?_, hLength,
          List.mem_append_left _ hMem⟩
        exact (Tunnel.run_append _ schedule [direction]).symm
      · rw [if_neg hNext]
        trivial
    | proceed | connect => exact h.later _
  | ended handled => cases event <;> trivial

theorem ahead_run (events : List SessionEvent) :
    (run (SessionTask.step env state) (.arrived client) events).Ahead env state client events := by
  have hStart : (SessionTask.arrived client).Ahead env state client [] := rfl
  have hRun := @invariant_history _ _ _ (SessionTask.step env state) (fun _ => True)
    (fun _ _ _ => trivial) (fun past task => task.Ahead env state client (past.map Prod.fst))
    (fun past task event _ h => by
      rw [List.map_append]
      exact h.step event) (.arrived client) [] hStart events trivial
  rwa [List.nil_append, history_map_fst] at hRun

/-- In front of its tunnel a session needs two steps and one answer. -/
theorem stages_opened (first second third : List SessionEvent) (outcome : Connecting) :
    (run (SessionTask.step env state) (.arrived client)
      (first ++ .proceed :: second ++ .proceed :: third ++ [.connect outcome])).stages = 0 := by
  simp only [run_append, List.append_assoc, List.cons_append, run]
  apply stages_connect
  refine Nat.le_trans (stages_run _ third) (stages_proceed ?_)
  exact Nat.le_trans (stages_run _ second) (stages_proceed (stages_run (.arrived client) first))

theorem Ahead.ends (h : task.Ahead env state client past) (hStages : task.stages = 0)
    {last : List SessionEvent}
    (hToTarget : 2 * admittedLength env state client + 2 ≤
      (turnsOf last).count .clientToTarget)
    (hToClient : ∀ stream, .connect (.connected stream) ∈ past →
      2 * stream.input.content.length + 2 ≤ (turnsOf last).count .targetToClient) :
    ∃ handled, run (SessionTask.step env state) task last = .ended handled := by
  cases task with
  | arrived | admitted | connecting => cases hStages
  | ended handled => exact ⟨handled, run_ended handled last⟩
  | relaying protocol target address tunnel =>
    obtain ⟨hOpen, st, stream, schedule, rfl, hLength, hMem⟩ := h
    have hTurns : ∀ direction, (turnsOf last).count direction ≤
        (schedule ++ turnsOf last).count direction := fun direction => by
      rw [List.count_append]
      exact Nat.le_add_left _ _
    have hResult := @Tunnel.returns st stream (schedule ++ turnsOf last)
      (Nat.le_trans (by omega) (hTurns .clientToTarget))
      (Nat.le_trans (hToClient stream hMem) (hTurns .targetToClient))
    rw [Tunnel.run_append] at hResult
    rw [run_relaying hOpen, relay, if_neg hResult]
    exact ⟨_, rfl⟩

end SessionTask

/-- A session whose operations complete comes to an end: whatever happens in between, it has
ended once it has had its two steps, an answer to its connect, and then, for each direction
with `n` bytes to carry, `2 * n + 2` turns. -/
theorem fair_session_ends {env : Environment} {state : AppState} {before after : List ServerEvent}
    {client : ClientStream} {first second third last : List SessionEvent} {outcome : Connecting}
    (hServing : (run (Server.step env state) Server.start before).serving = true)
    (hHeard : Server.heard (run (Server.step env state) Server.start before).sessions.length
      after = first ++ .proceed :: second ++ .proceed :: third ++ .connect outcome :: last)
    (hToTarget : 2 * SessionTask.admittedLength env state client + 2 ≤
      (turnsOf last).count .clientToTarget)
    (hToClient : ∀ stream, .connect (.connected stream) ∈
        first ++ .proceed :: second ++ .proceed :: third ++ [.connect outcome] →
      2 * stream.input.content.length + 2 ≤ (turnsOf last).count .targetToClient) :
    ∃ handled, (run (Server.step env state) Server.start
        (before ++ .accepted client :: after)).sessions[
          (run (Server.step env state) Server.start before).sessions.length]? =
      some (.ended handled) := by
  have hSplit : first ++ .proceed :: second ++ .proceed :: third ++ .connect outcome :: last =
      (first ++ .proceed :: second ++ .proceed :: third ++ [.connect outcome]) ++ last := by
    simp
  obtain ⟨handled, hEnds⟩ := (SessionTask.ahead_run
      (first ++ .proceed :: second ++ .proceed :: third ++ [.connect outcome])).ends
    (@SessionTask.stages_opened env state client first second third outcome) hToTarget hToClient
  refine ⟨handled, ?_⟩
  rw [run_append, Server.accepted_run hServing, hHeard, hSplit, run_append, hEnds]

/-- A target that says nothing and closes. -/
def mute : TargetStream := ⟨(), ⟨[], []⟩, .fresh, false⟩

/-- Eight bytes need eighteen turns, and none need two. -/
def enoughTurns : List SessionEvent :=
  List.replicate 18 (.turn .clientToTarget) ++ List.replicate 2 (.turn .targetToClient)

theorem fair_session_ends_shortTarget : ∃ handled,
    (run (Server.step (quietWorld 0) ⟨false, none, none, none⟩) Server.start
      (.accepted shortTarget :: .session 0 .proceed :: .session 0 .proceed ::
        .session 0 (.connect (.connected mute)) :: enoughTurns.map (.session 0))).sessions[0]? =
    some (.ended handled) := by
  refine @fair_session_ends (quietWorld 0) ⟨false, none, none, none⟩ [] _ shortTarget [] [] []
    enoughTurns (.connected mute) rfl rfl (by decide +kernel) fun stream hMem => ?_
  have hConnect : SessionEvent.connect (.connected stream) = .connect (.connected mute) := by
    simpa using hMem
  cases hConnect
  decide

end CrabbyProxy.Proxy
