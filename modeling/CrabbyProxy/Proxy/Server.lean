import CrabbyProxy.Proxy.SessionTask

/-!
# The server and its tasks

Every accepted client gets a task of its own, and the tasks take their steps in any order.
The server ends with the first error of `accept`, and its tasks end with it.
-/

namespace CrabbyProxy.Proxy

open CrabbyProxy.Stream Execution
set_option autoImplicit false

/-- The loop of `run_proxy_server`, and the tasks that it has spawned. -/
structure Server where
  serving : Bool
  sessions : List SessionTask

inductive ServerEvent where
  | accepted (client : ClientStream)
  | acceptFailed
  | session (id : Nat) (event : SessionEvent)

namespace Server

def start : Server := ⟨true, []⟩

/-- A step, with the address that a session dials. When the loop is over `main` returns, and
no task gets another turn. -/
def step (env : Environment) (state : AppState) (server : Server) :
    ServerEvent → Option (Nat × String × UInt16) × Server
  | event =>
    if server.serving then
      match event with
      | .accepted client =>
        (none, { server with sessions := server.sessions ++ [.arrived client] })
      | .acceptFailed => (none, { server with serving := false })
      | .session id event =>
        match server.sessions[id]? with
        | none => (none, server)
        | some task =>
          ((task.step env state event).1.map (id, ·),
            { server with sessions := server.sessions.set id (task.step env state event).2 })
    else (none, server)

/-- What a session hears of a run: its own events, as long as the loop goes on. -/
def heard (id : Nat) : List ServerEvent → List SessionEvent
  | [] | .acceptFailed :: _ => []
  | .accepted _ :: events => heard id events
  | .session id' event :: events =>
    if id' = id then event :: heard id events else heard id events

variable {env : Environment} {state : AppState} {server : Server} {id : Nat}

theorem step_of_stopped (h : server.serving = false) (event : ServerEvent) :
    step env state server event = (none, server) := by
  unfold step
  rw [h]
  rfl

theorem run_of_stopped (h : server.serving = false) (events : List ServerEvent) :
    run (step env state) server events = server := by
  induction events with
  | nil => rfl
  | cons event events ih => rwa [run, step_of_stopped h]

theorem step_session (h : server.serving = true) {task : SessionTask}
    (hTask : server.sessions[id]? = some task) (event : SessionEvent) :
    step env state server (.session id event) = ((task.step env state event).1.map (id, ·),
      { server with sessions := server.sessions.set id (task.step env state event).2 }) := by
  unfold step
  rw [if_pos h]
  dsimp only
  rw [hTask]

theorem step_unknown (h : server.serving = true) (hNone : server.sessions[id]? = none)
    (event : SessionEvent) : step env state server (.session id event) = (none, server) := by
  unfold step
  rw [if_pos h]
  dsimp only
  rw [hNone]

/-- Whatever the other clients do, a session is what its own events make of it. -/
theorem session_run (h : server.serving = true) {task : SessionTask}
    (hTask : server.sessions[id]? = some task) (events : List ServerEvent) :
    (run (step env state) server events).sessions[id]? =
      some (run (SessionTask.step env state) task (heard id events)) := by
  induction events generalizing server task with
  | nil => exact hTask
  | cons event events ih =>
    cases event with
    | accepted client =>
      rw [run, step, if_pos h, heard]
      refine @ih { server with sessions := server.sessions ++ [.arrived client] } h task ?_
      rwa [List.getElem?_append_left (List.getElem?_eq_some_iff.mp hTask).1]
    | acceptFailed =>
      rw [run, step, if_pos h, run_of_stopped rfl]
      exact hTask
    | session id' event =>
      by_cases hOwn : id' = id
      · subst hOwn
        rw [run, step_session h hTask, heard, if_pos rfl]
        exact @ih { server with sessions := server.sessions.set id' _ } h _
          (List.getElem?_set_self (List.getElem?_eq_some_iff.mp hTask).1)
      · rw [run, heard, if_neg hOwn]
        cases hOther : server.sessions[id']? with
        | none =>
          rw [step_unknown h hOther]
          exact ih h hTask
        | some other =>
          rw [step_session h hOther]
          refine @ih { server with sessions := server.sessions.set id' _ } h task ?_
          rwa [List.getElem?_set_ne hOwn]

theorem step_accepted (h : server.serving = true) (client : ClientStream) :
    step env state server (.accepted client) =
      (none, { server with sessions := server.sessions ++ [.arrived client] }) := by
  unfold step
  rw [if_pos h]

theorem accepted_run (h : server.serving = true) (client : ClientStream)
    (events : List ServerEvent) :
    (run (step env state) server (.accepted client :: events)).sessions[server.sessions.length]? =
      some (run (SessionTask.step env state) (.arrived client)
        (heard server.sessions.length events)) := by
  rw [run, step_accepted h]
  exact @session_run _ _ { server with sessions := server.sessions ++ [.arrived client] } _ h _
    List.getElem?_concat_length events

/-- A step adds a session only when a client is accepted. -/
theorem length_step (server : Server) (event : ServerEvent) :
    (step env state server event).2.sessions.length = server.sessions.length ∨
      server.serving = true ∧ ∃ client, event = .accepted client ∧
        (step env state server event).2.sessions.length = server.sessions.length + 1 := by
  by_cases h : server.serving = true
  · cases event with
    | accepted client =>
      refine .inr ⟨h, client, rfl, ?_⟩
      rw [step_accepted h, List.length_append]
      rfl
    | acceptFailed =>
      rw [step, if_pos h]
      exact .inl rfl
    | session id event =>
      cases hTask : server.sessions[id]? with
      | none => exact .inl (by rw [step_unknown h hTask])
      | some task =>
        rw [step_session h hTask, List.length_set]
        exact .inl rfl
  · rw [step_of_stopped (Bool.eq_false_iff.mpr h)]
    exact .inl rfl

/-- Every session was accepted at some point of the run. -/
theorem exists_accepted (events : List ServerEvent)
    (h : id < (run (step env state) start events).sessions.length) :
    ∃ before client after, events = before ++ .accepted client :: after ∧
      (run (step env state) start before).serving = true ∧
      (run (step env state) start before).sessions.length = id := by
  induction events using List.reverseRecOn with
  | nil => cases h
  | append_singleton events event ih =>
    by_cases hOld : id < (run (step env state) start events).sessions.length
    · obtain ⟨before, client, after, rfl, hBefore⟩ := ih hOld
      exact ⟨before, client, after ++ [event], by simp, hBefore⟩
    · rw [run_append] at h
      obtain hSame | ⟨hServing, client, rfl, hMore⟩ :=
        @length_step env state (run (step env state) start events) event
      · exact absurd (hSame ▸ h) hOld
      · refine ⟨events, client, [], rfl, hServing, ?_⟩
        have hLess := hMore ▸ h
        omega

variable {events : List ServerEvent} {event : ServerEvent} {address : String × UInt16}

theorem dials_session (h : (step env state server event).1 = some (id, address)) :
    ∃ entry, server.sessions[id]? = some (.admitted entry) ∧
      (SessionTask.parse entry).dials = some address := by
  by_cases hServing : server.serving = true
  · cases event with
    | accepted client =>
      rw [step_accepted hServing] at h
      cases h
    | acceptFailed =>
      rw [step, if_pos hServing] at h
      cases h
    | session id' event =>
      cases hTask : server.sessions[id']? with
      | none =>
        rw [step_unknown hServing hTask] at h
        cases h
      | some task =>
        rw [step_session hServing hTask] at h
        obtain ⟨address', hDials, hSame⟩ := Option.map_eq_some_iff.mp h
        obtain ⟨rfl, rfl⟩ := Prod.mk.inj hSame
        obtain ⟨entry, rfl, hParse⟩ := SessionTask.dials_step hDials
        exact ⟨entry, hTask, hParse⟩
  · rw [step_of_stopped (Bool.eq_false_iff.mpr hServing)] at h
    cases h

/-- Whatever the server dials, at any time, an admitted client has asked for. -/
theorem dials_admitted (h : (event, some (id, address)) ∈
      history (step env state) start events) :
    ∃ before client after protocol entry, events = before ++ .accepted client :: after ∧
      (run (step env state) start before).sessions.length = id ∧
      admitClient env state client = .ok protocol entry ∧
      (SessionTask.parse entry).dials = some address := by
  obtain ⟨first, last, rfl, hStep⟩ := mem_history_iff.mp h
  obtain ⟨entry, hTask, hParse⟩ := dials_session hStep.symm
  obtain ⟨before, client, after, rfl, hServing, rfl⟩ :=
    exists_accepted first (List.getElem?_eq_some_iff.mp hTask).1
  rw [run_append, accepted_run hServing] at hTask
  have hLetIn := @invariant _ _ _ (SessionTask.step env state)
    (SessionTask.LetIn env state client) (fun _ event h => h.step event) (.arrived client) rfl
    (heard (run (step env state) start before).sessions.length after)
  rw [Option.some.inj hTask] at hLetIn
  obtain ⟨protocol, hAdmit⟩ := hLetIn
  exact ⟨before, client, after ++ event :: last, protocol, entry, by simp, rfl, hAdmit, hParse⟩

/-- In every run of the server, each accepted client has a session that only its own events
move, and a session that has ended has ended as a call of `handleClient` can end. -/
theorem server_session_exact (env : Environment) (state : AppState)
    (before after : List ServerEvent) (client : ClientStream)
    (hServing : (run (step env state) start before).serving = true) :
    ∃ task, (run (step env state) start (before ++ .accepted client :: after)).sessions[
        (run (step env state) start before).sessions.length]? = some task ∧
      task = run (SessionTask.step env state) (.arrived client)
        (heard (run (step env state) start before).sessions.length after) ∧
      ∀ handled, task = .ended handled → handled.Over ∧ ∃ connect schedule, handled =
        handleClient { env with connect := connect, schedule := schedule } state client := by
  refine ⟨_, ?_, rfl, fun handled hEnded => SessionTask.ended_is_call hEnded⟩
  rw [run_append, accepted_run hServing]

/-- Of the two clients the first gets its turn in between, and the server ends too early for
the second one. -/
theorem server_session_exact_interleaved : ∃ task,
    (run (step (quietWorld 0) ⟨false, none, none, none⟩) start ([.accepted shortTarget] ++
      .accepted shortTarget :: [.session 1 .proceed, .session 0 .proceed, .acceptFailed,
        .session 1 .proceed])).sessions[1]? = some task ∧
    task = run (SessionTask.step (quietWorld 0) ⟨false, none, none, none⟩)
      (.arrived shortTarget) [.proceed] := by
  obtain ⟨task, hTask, hRun, _⟩ := server_session_exact (quietWorld 0) ⟨false, none, none, none⟩
    [.accepted shortTarget] [.session 1 .proceed, .session 0 .proceed, .acceptFailed,
      .session 1 .proceed] shortTarget rfl
  exact ⟨task, hTask, hRun⟩

end Server

end CrabbyProxy.Proxy
