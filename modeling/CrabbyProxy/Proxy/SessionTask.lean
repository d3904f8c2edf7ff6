import CrabbyProxy.Library.Execution
import CrabbyProxy.Proxy.Conduit

/-!
# The task of a client

It takes its steps one by one, and between them the network and the other tasks do as they
like. What it does with its client in the end is what one call of `handleClient` does.
-/

namespace CrabbyProxy.Proxy

open CrabbyProxy.Stream Execution
set_option autoImplicit false

/-- How far the task of a client has come. -/
inductive SessionTask where
  | arrived (client : ClientStream)
  | admitted (client : ClientStream)
  | connecting (protocol : ProxyProtocol) (target : ProxyTarget) (address : String × UInt16)
    (client : ClientStream)
  | relaying (protocol : ProxyProtocol) (target : ProxyTarget) (address : String × UInt16)
    (tunnel : Tunnel)
  | ended (handled : Handled)

inductive SessionEvent where
  /-- The task runs up to its next stage. -/
  | proceed
  | connect (outcome : Connecting)
  | turn (direction : Direction)

/-- The call has returned. -/
def Handled.Over (handled : Handled) : Prop :=
  ∀ tunnel, handled.tunnel = some tunnel → tunnel.result ≠ none

namespace SessionTask

/-- `async_handle_client` returns. -/
def finish (session : Session) : SessionTask := .ended (.served (answerFailure session))

def enter (env : Environment) (state : AppState) (client : ClientStream) : SessionTask :=
  match admitClient env state client with
  | .error e client => .ended (.refused e client)
  | .ok _ client => .admitted client

def parse (client : ClientStream) : SessionTask :=
  match chooseProtocol client with
  | .error e client => finish ⟨.tcp, none, none, client, none, some (e, .handshake)⟩
  | .ok protocol client =>
    match parseTargetByProtocol protocol client with
    | .error e client => finish ⟨protocol, none, none, client, none, some (e, .handshake)⟩
    | .ok target client =>
      match lookupHost (targetAddr target) with
      | .error e => finish ⟨protocol, some target, none, client, none, some (.io e, .connection)⟩
      | .ok address => .connecting protocol target address client

def answer (protocol : ProxyProtocol) (target : ProxyTarget) (address : String × UInt16)
    (client : ClientStream) : Connecting → SessionTask
  | .timedOut => finish ⟨protocol, some target, some address, client, none,
      some (.io ⟨.timedOut, "Connection timeout"⟩, .timeout)⟩
  | .refused e =>
    finish ⟨protocol, some target, some address, client, none, some (.io e, .connection)⟩
  | .connected stream =>
    match sendSuccessResponse protocol client with
    | .error e client =>
      finish ⟨protocol, some target, some address, client, none, some (e, .response)⟩
    | .ok _ client => .relaying protocol target address (Tunnel.new client stream)

def closeTunnel (protocol : ProxyProtocol) (target : ProxyTarget) (address : String × UInt16)
    (tunnel : Tunnel) : Session :=
  ⟨protocol, some target, some address, tunnel.client, some tunnel, tunnelFailure tunnel⟩

def relay (protocol : ProxyProtocol) (target : ProxyTarget) (address : String × UInt16)
    (tunnel : Tunnel) : SessionTask :=
  if tunnel.result = none then .relaying protocol target address tunnel
  else finish (closeTunnel protocol target address tunnel)

/-- What the task is waiting to be connected to. -/
def dials : SessionTask → Option (String × UInt16)
  | .connecting _ _ address _ => some address
  | _ => none

/-- A step of a task, with the address it dials. An event that the task does not wait for
changes nothing. -/
def step (env : Environment) (state : AppState) :
    SessionTask → SessionEvent → Option (String × UInt16) × SessionTask
  | .arrived client, .proceed => (none, enter env state client)
  | .admitted client, .proceed => ((parse client).dials, parse client)
  | .connecting protocol target address client, .connect outcome =>
    (none, answer protocol target address client outcome)
  | .relaying protocol target address tunnel, .turn direction =>
    (none, relay protocol target address (tunnel.step direction))
  | task, _ => (none, task)

/-- The session of a task whose connection has come to this. -/
def dial (env : Environment) (protocol : ProxyProtocol) (target : ProxyTarget)
    (address : String × UInt16) (client : ClientStream) : Connecting → Session
  | .timedOut => ⟨protocol, some target, some address, client, none,
      some (.io ⟨.timedOut, "Connection timeout"⟩, .timeout)⟩
  | .refused e =>
    ⟨protocol, some target, some address, client, none, some (.io e, .connection)⟩
  | .connected stream => openTunnel env protocol target address client stream

/-- What becomes of a task in a given environment. -/
def outcome (env : Environment) (state : AppState) : SessionTask → Handled
  | .arrived client => handleClient env state client
  | .admitted client => .served (answerFailure (asyncHandleClient env client))
  | .connecting protocol target address client =>
    .served (answerFailure (dial env protocol target address client
      (env.connect address.1 address.2)))
  | .relaying protocol target address tunnel =>
    .served (answerFailure (closeTunnel protocol target address (tunnel.run env.schedule)))
  | .ended handled => handled

/-- How many stages lie between a task and its tunnel. -/
def stages : SessionTask → Nat
  | .arrived _ => 3
  | .admitted _ => 2
  | .connecting _ _ _ _ => 1
  | .relaying _ _ _ _ | .ended _ => 0

/-- A task ends as soon as its tunnel has a result, and not before. -/
def Prompt : SessionTask → Prop
  | .relaying _ _ _ tunnel => tunnel.result = none
  | .ended handled => handled.Over
  | _ => True

/-- A task that is past the gate has been let in with the client it was started with. -/
def LetIn (env : Environment) (state : AppState) (client : ClientStream) : SessionTask → Prop
  | .arrived arrival => arrival = client
  | .admitted entry => ∃ protocol, admitClient env state client = .ok protocol entry
  | _ => True

section Tunnel

variable {tunnel : Tunnel}

theorem step_of_result (h : tunnel.result ≠ none) (direction : Direction) :
    tunnel.step direction = tunnel := by
  unfold Tunnel.step
  by_cases hFailed : tunnel.failure = none
  · rw [if_neg (not_not.mpr hFailed)]
    unfold Tunnel.result at h
    rw [hFailed] at h
    obtain ⟨client, target, ⟨first, a⟩, ⟨second, b⟩⟩ := tunnel
    by_cases hDone : first = .done ∧ second = .done
    · obtain ⟨rfl, rfl⟩ := hDone
      cases direction <;> rfl
    · exact absurd (if_neg hDone) h
  · rw [if_pos hFailed]

theorem run_of_result (h : tunnel.result ≠ none) (schedule : List Direction) :
    tunnel.run schedule = tunnel := by
  induction schedule with
  | nil => rfl
  | cons direction schedule ih =>
    rw [Tunnel.run, List.foldl_cons, step_of_result h]
    exact ih

end Tunnel

variable {env : Environment} {state : AppState} {task : SessionTask}
  {client entry : ClientStream} {protocol : ProxyProtocol} {target : ProxyTarget}
  {address : String × UInt16} {connecting : Connecting} {tunnel : Tunnel}

theorem prompt_finish {session : Session}
    (h : ∀ tunnel, session.tunnel = some tunnel → tunnel.result ≠ none) :
    (finish session).Prompt := by
  intro tunnel hSome
  exact h tunnel ((answerFailure_tunnel_eq session).symm.trans hSome)

section Entered

/-- Everything that can become of a task at the gate. -/
inductive Entered (env : Environment) (state : AppState) (client : ClientStream) :
    SessionTask → Prop
  | refused {e : Fault} {st : ClientStream} (hError : admitClient env state client = .error e st) :
    Entered env state client (.ended (.refused e st))
  | admitted {protocol : ProxyProtocol} {entry : ClientStream}
      (hOk : admitClient env state client = .ok protocol entry) :
    Entered env state client (.admitted entry)

theorem entered_enter (env : Environment) (state : AppState) (client : ClientStream) :
    Entered env state client (enter env state client) := by
  unfold enter
  cases hAdmit : admitClient env state client with
  | error e st => exact .refused hAdmit
  | ok protocol entry => exact .admitted hAdmit

variable (h : Entered env state client task)
include h

theorem Entered.outcome : task.outcome env state = handleClient env state client := by
  unfold handleClient
  cases h with
  | refused hError => rw [hError]; rfl
  | admitted hOk => rw [hOk]; rfl

theorem Entered.prompt : task.Prompt := by
  cases h with
  | refused hError =>
    intro tunnel hSome
    cases hSome
  | admitted hOk => trivial

theorem Entered.stages : task.stages ≤ 2 := by
  cases h with
  | refused hError => exact Nat.zero_le _
  | admitted hOk => exact Nat.le_refl _

theorem Entered.letIn : task.LetIn env state client := by
  cases h with
  | refused hError => trivial
  | admitted hOk => exact ⟨_, hOk⟩

end Entered

section Parsed

/-- Everything that can become of a task that looks for its target. -/
inductive Parsed (entry : ClientStream) : SessionTask → Prop
  | failed {session : Session} (hNone : session.tunnel = none)
      (hSame : ∀ env, asyncHandleClient env entry = session) : Parsed entry (finish session)
  | connecting {protocol : ProxyProtocol} {target : ProxyTarget} {st st' : ClientStream}
      (hChoose : chooseProtocol entry = .ok protocol st)
      (hParse : parseTargetByProtocol protocol st = .ok target st') :
    Parsed entry (.connecting protocol target (target.host, target.port) st')

theorem parsed_parse (entry : ClientStream) : Parsed entry (parse entry) := by
  unfold parse
  cases hChoose : chooseProtocol entry with
  | error e st =>
    refine .failed rfl fun env => ?_
    unfold asyncHandleClient
    rw [hChoose]
  | ok protocol st =>
    dsimp only
    cases hParse : parseTargetByProtocol protocol st with
    | error e st' => exact .failed rfl fun env => asyncHandleClient_of_error hChoose hParse
    | ok target st' =>
      dsimp only
      rw [lookupHost_targetAddr]
      exact .connecting hChoose hParse

variable (h : Parsed entry task)
include h

theorem Parsed.outcome : task.outcome env state =
    .served (answerFailure (asyncHandleClient env entry)) := by
  cases h with
  | failed hNone hSame => rw [hSame]; rfl
  | @connecting protocol target st st' hChoose hParse =>
    rw [asyncHandleClient_of_target hChoose hParse, connectTarget, lookupHost_targetAddr]
    dsimp only [SessionTask.outcome]
    cases env.connect target.host target.port <;> rfl

theorem Parsed.prompt : task.Prompt := by
  cases h with
  | failed hNone hSame =>
    refine prompt_finish fun tunnel hSome => ?_
    rw [hNone] at hSome
    cases hSome
  | connecting hChoose hParse => trivial

theorem Parsed.stages : task.stages ≤ 1 := by
  cases h with
  | failed hNone hSame => exact Nat.zero_le _
  | connecting hChoose hParse => exact Nat.le_refl _

theorem Parsed.letIn : task.LetIn env state client := by
  cases h <;> trivial

theorem Parsed.dials (hDials : task.dials = some address) :
    ∃ protocol target st st', chooseProtocol entry = .ok protocol st ∧
      parseTargetByProtocol protocol st = .ok target st' ∧
      address = (target.host, target.port) := by
  cases h with
  | failed hNone hSame => cases hDials
  | connecting hChoose hParse =>
    cases hDials
    exact ⟨_, _, _, _, hChoose, hParse, rfl⟩

end Parsed

section Opened

/-- Everything that can become of a task when the network answers. -/
inductive Opened (protocol : ProxyProtocol) (target : ProxyTarget) (address : String × UInt16)
    (client : ClientStream) : Connecting → SessionTask → Prop
  | failed {connecting : Connecting} {session : Session} (hNone : session.tunnel = none)
      (hSame : ∀ env, dial env protocol target address client connecting = session) :
    Opened protocol target address client connecting (finish session)
  | relaying {stream : TargetStream} {st : ClientStream} (hInput : st.input = client.input)
      (hSent : sendSuccessResponse protocol client = .ok () st) :
    Opened protocol target address client (.connected stream)
      (.relaying protocol target address (Tunnel.new st stream))

theorem opened_answer (protocol : ProxyProtocol) (target : ProxyTarget)
    (address : String × UInt16) (client : ClientStream) (connecting : Connecting) :
    Opened protocol target address client connecting
      (answer protocol target address client connecting) := by
  cases connecting with
  | timedOut | refused => exact .failed rfl fun env => rfl
  | connected stream =>
    unfold answer
    dsimp only
    cases hSend : sendSuccessResponse protocol client with
    | error e st =>
      refine .failed rfl fun env => ?_
      rw [dial, openTunnel, hSend]
    | ok u st =>
      refine .relaying ?_ hSend
      rw [sendSuccessResponse_eq, writeAll_eq] at hSend
      split at hSend <;> cases hSend
      rfl

variable (h : Opened protocol target address client connecting task)
include h

theorem Opened.outcome : task.outcome env state =
    .served (answerFailure (dial env protocol target address client connecting)) := by
  cases h with
  | failed hNone hSame => rw [hSame]; rfl
  | relaying hInput hSent => rw [dial, openTunnel, hSent]; rfl

theorem Opened.prompt : task.Prompt := by
  cases h with
  | failed hNone hSame =>
    refine prompt_finish fun tunnel hSome => ?_
    rw [hNone] at hSome
    cases hSome
  | relaying hInput hSent => rfl

theorem Opened.stages : task.stages = 0 := by
  cases h <;> rfl

theorem Opened.letIn {arrival : ClientStream} : task.LetIn env state arrival := by
  cases h <;> trivial

end Opened

theorem prompt_relay (tunnel : Tunnel) : (relay protocol target address tunnel).Prompt := by
  unfold relay
  by_cases hOpen : tunnel.result = none
  · rw [if_pos hOpen]
    exact hOpen
  · rw [if_neg hOpen]
    refine prompt_finish fun tunnel' hSome => ?_
    obtain rfl := Option.some.inj hSome
    exact hOpen

theorem outcome_relay (env : Environment) (tunnel : Tunnel) :
    (relay protocol target address tunnel).outcome env state =
      .served (answerFailure (closeTunnel protocol target address (tunnel.run env.schedule))) := by
  unfold relay
  by_cases hOpen : tunnel.result = none
  · rw [if_pos hOpen]
    rfl
  · rw [if_neg hOpen, run_of_result hOpen]
    rfl

/-- A step of the task is the same as an environment that goes along with it. -/
theorem outcome_step (env : Environment) (task : SessionTask) (event : SessionEvent) :
    ∃ connect schedule, outcome env state (step env state task event).2 =
      outcome { env with connect := connect, schedule := schedule } state task := by
  cases task with
  | arrived client =>
    cases event with
    | proceed => exact ⟨env.connect, env.schedule, (entered_enter env state client).outcome⟩
    | connect | turn => exact ⟨env.connect, env.schedule, rfl⟩
  | admitted client =>
    cases event with
    | proceed => exact ⟨env.connect, env.schedule, (parsed_parse client).outcome⟩
    | connect | turn => exact ⟨env.connect, env.schedule, rfl⟩
  | connecting protocol target address client =>
    cases event with
    | connect outcome =>
      exact ⟨fun _ _ => outcome, env.schedule, (opened_answer _ _ _ client outcome).outcome⟩
    | proceed | turn => exact ⟨env.connect, env.schedule, rfl⟩
  | relaying protocol target address tunnel =>
    cases event with
    | turn direction => exact ⟨env.connect, direction :: env.schedule, outcome_relay env _⟩
    | proceed | connect => exact ⟨env.connect, env.schedule, rfl⟩
  | ended handled => cases event <;> exact ⟨env.connect, env.schedule, rfl⟩

/-- Neither the network nor the schedule has a say in the steps up to the connection. -/
theorem step_facing (env : Environment) (connect : String → UInt16 → Connecting)
    (schedule : List Direction) :
    step { env with connect := connect, schedule := schedule } state = step env state := rfl

theorem outcome_run (env : Environment) (task : SessionTask) (events : List SessionEvent) :
    ∃ connect schedule, outcome env state (run (step env state) task events) =
      outcome { env with connect := connect, schedule := schedule } state task := by
  induction events generalizing task with
  | nil => exact ⟨env.connect, env.schedule, rfl⟩
  | cons event events ih =>
    obtain ⟨connect, schedule, hRun⟩ := ih (step env state task event).2
    obtain ⟨connect', schedule', hStep⟩ :=
      @outcome_step state { env with connect := connect, schedule := schedule } task event
    rw [step_facing] at hStep
    exact ⟨connect', schedule', hRun.trans hStep⟩

theorem Prompt.step (h : task.Prompt) (event : SessionEvent) :
    (step env state task event).2.Prompt := by
  cases task <;> cases event <;> first
    | exact h
    | exact (entered_enter env state _).prompt
    | exact (parsed_parse _).prompt
    | exact (opened_answer _ _ _ _ _).prompt
    | exact prompt_relay _

theorem relaying_ends {schedule : List Direction} (hOpen : tunnel.result = none)
    (hOver : (tunnel.run schedule).result ≠ none) :
    ∃ events, run (step env state) (.relaying protocol target address tunnel) events =
      finish (closeTunnel protocol target address (tunnel.run schedule)) := by
  induction schedule generalizing tunnel with
  | nil => exact absurd hOpen hOver
  | cons direction schedule ih =>
    by_cases hNext : (tunnel.step direction).result = none
    · obtain ⟨events, hRun⟩ := ih hNext hOver
      refine ⟨.turn direction :: events, ?_⟩
      rw [run, SessionTask.step, relay, if_pos hNext]
      exact hRun
    · refine ⟨[.turn direction], ?_⟩
      have hRun : tunnel.run (direction :: schedule) = tunnel.step direction :=
        run_of_result hNext schedule
      rw [hRun, run, SessionTask.step, relay, if_neg hNext]
      rfl

/-- In front of the tunnel there is a step that goes along with the environment. -/
theorem exists_step (hStages : task.stages ≠ 0) :
    ∃ event, (step env state task event).2.stages < task.stages ∧
      outcome env state (step env state task event).2 = outcome env state task := by
  cases task with
  | arrived client =>
    have hEntered := entered_enter env state client
    exact ⟨.proceed, Nat.lt_succ_of_le hEntered.stages, hEntered.outcome⟩
  | admitted client =>
    have hParsed := parsed_parse client
    exact ⟨.proceed, Nat.lt_succ_of_le hParsed.stages, hParsed.outcome⟩
  | connecting protocol target address client =>
    have hOpened := opened_answer protocol target address client (env.connect address.1 address.2)
    exact ⟨.connect (env.connect address.1 address.2),
      Nat.lt_succ_of_le (Nat.le_of_eq hOpened.stages), hOpened.outcome⟩
  | relaying | ended => exact absurd rfl hStages

/-- A task whose environment lets it end has a run that ends that way. -/
theorem Prompt.ends (h : task.Prompt) (hOver : (outcome env state task).Over) :
    ∃ events, run (SessionTask.step env state) task events =
      .ended (outcome env state task) := by
  induction hStages : task.stages using Nat.strongRecOn generalizing task with
  | ind stages ih =>
    by_cases hTunnel : task.stages = 0
    · cases task with
      | relaying protocol target address tunnel =>
        refine relaying_ends h fun hOpen => hOver _ ?_ hOpen
        exact answerFailure_tunnel_eq _
      | ended handled => exact ⟨[], rfl⟩
      | arrived | admitted | connecting => cases hTunnel
    · obtain ⟨event, hLess, hSame⟩ := @exists_step env state _ hTunnel
      obtain ⟨events, hRun⟩ := ih _ (hStages ▸ hLess) (h.step event) (hSame ▸ hOver) rfl
      exact ⟨event :: events, hRun.trans (congrArg SessionTask.ended hSame)⟩

theorem ended_is_call {client : ClientStream} {handled : Handled} {events : List SessionEvent}
    (hRun : run (step env state) (.arrived client) events = .ended handled) :
    handled.Over ∧ ∃ connect schedule, handled =
      handleClient { env with connect := connect, schedule := schedule } state client := by
  have hPrompt : (run (step env state) (.arrived client) events).Prompt :=
    @invariant _ _ _ (step env state) Prompt (fun _ event h => h.step event) (.arrived client)
      trivial events
  obtain ⟨connect, schedule, hOutcome⟩ := @outcome_run state env (.arrived client) events
  rw [hRun] at hPrompt hOutcome
  exact ⟨hPrompt, connect, schedule, hOutcome⟩

/-- The ways in which a task can end are the results that `handleClient` can have, over all
networks and schedules in which it returns. -/
theorem task_ends_iff (env : Environment) (state : AppState) (client : ClientStream)
    (handled : Handled) :
    (∃ events, run (step env state) (.arrived client) events = .ended handled) ↔
      handled.Over ∧ ∃ connect schedule, handled =
        handleClient { env with connect := connect, schedule := schedule } state client := by
  constructor
  · rintro ⟨events, hRun⟩
    exact ended_is_call hRun
  · rintro ⟨hOver, connect, schedule, rfl⟩
    exact @Prompt.ends { env with connect := connect, schedule := schedule } state
      (.arrived client) trivial hOver

theorem dials_step {event : SessionEvent} (h : (step env state task event).1 = some address) :
    ∃ entry, task = .admitted entry ∧ (parse entry).dials = some address := by
  cases task with
  | admitted entry =>
    cases event with
    | proceed => exact ⟨entry, rfl, h⟩
    | connect | turn => cases h
  | arrived | connecting | relaying | ended => cases event <;> cases h

theorem LetIn.step (h : task.LetIn env state client) (event : SessionEvent) :
    (SessionTask.step env state task event).2.LetIn env state client := by
  cases task with
  | arrived arrival =>
    obtain rfl : arrival = client := h
    cases event with
    | proceed => exact (entered_enter env state arrival).letIn
    | connect | turn => rfl
  | admitted entry =>
    cases event with
    | proceed => exact (parsed_parse entry).letIn
    | connect | turn => exact h
  | connecting protocol target address st =>
    cases event with
    | connect outcome => exact (opened_answer protocol target address st outcome).letIn
    | proceed | turn => trivial
  | relaying protocol target address tunnel =>
    cases event with
    | turn direction =>
      show (relay protocol target address (tunnel.step direction)).LetIn env state client
      unfold relay
      split <;> trivial
    | proceed | connect => trivial
  | ended handled => cases event <;> trivial

end SessionTask

end CrabbyProxy.Proxy
