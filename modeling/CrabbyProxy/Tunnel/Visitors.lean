import CrabbyProxy.Tunnel.Sockets

/-!
# Where a visitor's bytes go

Every connection that a tunnel has accepted goes to the address for which its port was
handed out, whatever the manager has done since.
-/

namespace CrabbyProxy.Tunnel
open CrabbyProxy.Stream Execution
set_option autoImplicit false

/-- What has happened to a host with its sockets, with the answers of the manager. -/
abbrev SocketPast : Type := List (SocketStep × Option (Except TunnelError (Option UInt16)))

/-- Only a create that is answered with a port spawns a listener, for that port and for the
client that asked. -/
theorem TunnelHost.spawned_step (h : TunnelHost) (op : TunnelOp) :
    (h.step op).2.runtime.spawned = h.runtime.spawned ∨
      ∃ serviceType preferredPort clientAddr port,
        op = .createReverseTunnel serviceType preferredPort clientAddr ∧
        (h.step op).1 = .ok (some port) ∧
        (h.step op).2.runtime.spawned = h.runtime.spawned ++ [⟨port, clientAddr⟩] := by
  cases op with
  | createReverseTunnel serviceType preferredPort clientAddr =>
    rw [step, createReverseTunnel]
    cases h.manager.portAllocator.allocatePort preferredPort with
    | mk result allocator =>
      cases result with
      | error e => exact .inl rfl
      | ok port => exact .inr ⟨serviceType, preferredPort, clientAddr, port, rfl, rfl, rfl⟩
  | closeTunnel port =>
    rw [step, closeTunnel]
    cases h.manager.activeTunnels.lookup port with
    | none => exact .inl rfl
    | some tunnel =>
      dsimp only
      cases h.manager.portAllocator.releasePort port with
      | mk result allocator => cases result <;> exact .inl rfl
  | shutdown => exact .inl rfl

/-- A session that came in at a listener of this host. Its target is the one of the listener,
and if it forwards, it does so between its visitor and what the connect has given it. -/
structure TunnelSession.Sourced (past : SocketPast) (host : TunnelHost) (session : Nat)
    (s : TunnelSession) : Prop where
  accepted : (.accept s.listener s.inbound, none) ∈ past
  listener : ∃ port, host.runtime.spawned[s.listener]? = some ⟨port, s.targetAddr⟩
  forwards : ∀ f, s.task = .forwarding f → ∃ outbound schedule,
    (.connect session (.ok outbound), none) ∈ past ∧
      f = run Forwarding.next (.new s.inbound outbound) schedule

structure SocketWorld.Sourced (past : SocketPast) (w : SocketWorld) : Prop where
  spawned : ∀ (handle : JoinHandle) (task : ListenerTask), w.host.runtime.spawned[handle]? = some task →
    ∃ serviceType preferredPort,
      (.manager (.createReverseTunnel serviceType preferredPort task.targetAddr),
        some (.ok (some task.port))) ∈ past
  sessions : ∀ (session : Nat) (s : TunnelSession), w.sessions[session]? = some s → s.Sourced past w.host session

variable {past : SocketPast} {w : SocketWorld} {session : Nat} {s : TunnelSession}

theorem TunnelSession.Sourced.later (h : s.Sourced past w.host session) {host : TunnelHost}
    (hSpawned : w.host.runtime.spawned <+: host.runtime.spawned) (more : SocketPast) :
    s.Sourced (past ++ more) host session where
  accepted := List.mem_append_left _ h.accepted
  listener := by
    obtain ⟨port, hGet⟩ := h.listener
    obtain ⟨rest, hRest⟩ := hSpawned
    refine ⟨port, ?_⟩
    rw [← hRest, List.getElem?_append_left (List.getElem?_eq_some_iff.mp hGet).1, hGet]
  forwards f hTask := by
    obtain ⟨outbound, schedule, hConnect, hRun⟩ := h.forwards f hTask
    exact ⟨outbound, schedule, List.mem_append_left _ hConnect, hRun⟩

theorem TunnelSession.Sourced.connect (h : s.Sourced past w.host session)
    (outcome : Except IoError Socket) :
    (s.connect outcome).Sourced (past ++ [(.connect session outcome, none)]) w.host session := by
  have hLater := h.later List.prefix_rfl [(.connect session outcome, none)]
  obtain ⟨listener, targetAddr, inbound, task⟩ := s
  cases task with
  | connecting =>
    cases outcome with
    | ok outbound =>
      refine ⟨hLater.accepted, hLater.listener, fun f hTask => ?_⟩
      cases hTask
      exact ⟨outbound, [], List.mem_append_right _ List.mem_cons_self, rfl⟩
    | error e =>
      refine ⟨hLater.accepted, hLater.listener, fun f hTask => ?_⟩
      cases hTask
  | unreachable | forwarding => exact hLater

theorem TunnelSession.Sourced.forward (h : s.Sourced past w.host session)
    (turn : CopyLoop × CopyTurn) (more : SocketPast) :
    (s.forward turn).Sourced (past ++ more) w.host session := by
  have hLater := h.later List.prefix_rfl more
  obtain ⟨listener, targetAddr, inbound, task⟩ := s
  cases task with
  | connecting | unreachable => exact hLater
  | forwarding f =>
    refine ⟨hLater.accepted, hLater.listener, fun f' hTask => ?_⟩
    cases hTask
    obtain ⟨outbound, schedule, hConnect, hRun⟩ := hLater.forwards f rfl
    refine ⟨outbound, schedule ++ [turn], hConnect, ?_⟩
    rw [run_append]
    exact congrArg (Forwarding.step · turn) hRun

namespace SocketWorld

theorem Sourced.later (h : w.Sourced past) {w' : SocketWorld} (hHost : w'.host = w.host)
    (hSessions : w'.sessions = w.sessions) (more : SocketPast) : w'.Sourced (past ++ more) where
  spawned handle task hGet := by
    rw [hHost] at hGet
    obtain ⟨serviceType, preferredPort, hMem⟩ := h.spawned handle task hGet
    exact ⟨serviceType, preferredPort, List.mem_append_left _ hMem⟩
  sessions session s hGet := by
    rw [hSessions] at hGet
    rw [hHost]
    exact (h.sessions session s hGet).later List.prefix_rfl more

theorem Sourced.modify (h : w.Sourced past) {g : TunnelSession → TunnelSession} {more : SocketPast}
    (hChange : ∀ s, s.Sourced past w.host session → (g s).Sourced (past ++ more) w.host session) :
    Sourced (past ++ more) { w with sessions := w.sessions.modify session g } where
  spawned := (h.later rfl rfl more).spawned
  sessions other s hGet := by
    rw [List.getElem?_modify] at hGet
    obtain ⟨before, hBefore, hAfter⟩ := Option.map_eq_some_iff.mp hGet
    by_cases hSame : session = other
    · subst hSame
      rw [if_pos rfl] at hAfter
      exact hAfter ▸ hChange before (h.sessions session before hBefore)
    · rw [if_neg hSame] at hAfter
      exact hAfter ▸ (h.later rfl rfl more).sessions other before hBefore

theorem Sourced.manager (h : w.Sourced past) (op : TunnelOp) :
    Sourced (past ++ [(.manager op, some (w.host.step op).1)])
      { w with host := (w.host.step op).2 } := by
  have hLater := h.later rfl rfl [(SocketStep.manager op, some (w.host.step op).1)]
  obtain hSame | ⟨serviceType, preferredPort, clientAddr, port, rfl, hAnswer, hMore⟩ :=
    w.host.spawned_step op
  · exact ⟨by rw [hSame]; exact hLater.spawned, fun session s hGet =>
      (h.sessions session s hGet).later (by rw [hSame]) _⟩
  · refine ⟨fun handle task hGet => ?_, fun session s hGet =>
      (h.sessions session s hGet).later (by rw [hMore]; exact List.prefix_append _ _) _⟩
    rw [hMore] at hGet
    by_cases hOld : handle < w.host.runtime.spawned.length
    · rw [List.getElem?_append_left hOld] at hGet
      exact hLater.spawned handle task hGet
    · rw [List.getElem?_append_right (Nat.le_of_not_lt hOld)] at hGet
      obtain rfl := List.mem_singleton.mp (List.mem_of_getElem? hGet)
      refine ⟨serviceType, preferredPort, List.mem_append_right _ ?_⟩
      rw [hAnswer]
      exact List.mem_cons_self

theorem Sourced.accept (h : w.Sourced past) (handle : JoinHandle) (inbound : Socket) :
    Sourced (past ++ [(.accept handle inbound, none)]) (w.acceptSession handle inbound) := by
  have hLater := h.later rfl rfl [(SocketStep.accept handle inbound, none)]
  unfold acceptSession
  cases hTask : w.host.runtime.spawned[handle]? with
  | none => exact hLater
  | some task =>
    dsimp only
    by_cases hListening : w.listeners handle = ⟨.listening, true⟩
    · rw [if_pos hListening]
      refine ⟨hLater.spawned, fun session s hGet => ?_⟩
      by_cases hOld : session < w.sessions.length
      · rw [List.getElem?_append_left hOld] at hGet
        exact hLater.sessions session s hGet
      · rw [List.getElem?_append_right (Nat.le_of_not_lt hOld)] at hGet
        obtain rfl := List.mem_singleton.mp (List.mem_of_getElem? hGet)
        refine ⟨List.mem_append_right _ List.mem_cons_self, ⟨task.port, hTask⟩, fun f hTask => ?_⟩
        cases hTask
    · rw [if_neg hListening]
      exact hLater

theorem Sourced.step (h : w.Sourced past) (input : SocketStep) :
    (w.step input).2.Sourced (past ++ [(input, (w.step input).1)]) := by
  cases input with
  | manager op => exact h.manager op
  | accept handle inbound => exact h.accept handle inbound
  | connect session outcome => exact h.modify fun s hs => hs.connect outcome
  | forward session turn => exact h.modify fun s hs => hs.forward turn _
  | poll | bind | suspend | drop => exact @Sourced.later _ _ h (w.step _).2 rfl rfl _

theorem sourced_run {host : TunnelHost} (hFresh : host.runtime.spawned = [])
    (inputs : List SocketStep) :
    (run SocketWorld.step (.new host) inputs).Sourced
      (history SocketWorld.step (.new host) inputs) := by
  have hStart : (SocketWorld.new host).Sourced [] := by
    refine ⟨fun handle task hGet => ?_, fun session s hGet => ?_⟩
    · rw [SocketWorld.new, hFresh] at hGet
      cases hGet
    · cases hGet
  exact @invariant_history _ _ _ SocketWorld.step (fun _ => True) (fun _ _ _ => trivial)
    SocketWorld.Sourced (fun past w input _ h => h.step input) (.new host) [] hStart inputs trivial

end SocketWorld

/-- In every run from a new manager, whatever it opens, closes or shuts down meanwhile, an
accepted connection goes to the address for which some create was given the port, and each
of its two sockets has been sent a prefix of what arrived at the other one. -/
theorem visitors_reach_clients {startPort endPort : UInt16} {host : TunnelHost}
    (hNew : TunnelHost.new startPort endPort = some host) (inputs : List SocketStep)
    {session : Nat} {s : TunnelSession}
    (hGet : (run SocketWorld.step (.new host) inputs).sessions[session]? = some s) :
    ∃ port serviceType preferredPort,
      (.manager (.createReverseTunnel serviceType preferredPort s.targetAddr),
        some (.ok (some port))) ∈ history SocketWorld.step (.new host) inputs ∧
      (run SocketWorld.step (.new host) inputs).host.runtime.spawned[s.listener]? =
        some ⟨port, s.targetAddr⟩ ∧
      .accept s.listener s.inbound ∈ inputs ∧
      ∀ f, s.task = .forwarding f → ∃ outbound, .connect session (.ok outbound) ∈ inputs ∧
        ∀ loop, ∃ written,
          (f.sink loop).sent = ((Forwarding.new s.inbound outbound).sink loop).sent ++ written ∧
          written <+: ((Forwarding.new s.inbound outbound).source loop).content := by
  have hFresh : host.runtime.spawned = [] := by
    obtain ⟨allocator, _, rfl⟩ := Option.map_eq_some_iff.mp hNew
    rfl
  have hSourced := SocketWorld.sourced_run hFresh inputs
  have hInput : ∀ {input answer}, (input, answer) ∈ history SocketWorld.step (.new host) inputs →
      input ∈ inputs := fun {input answer} hMem => by
    rw [← history_map_fst SocketWorld.step _ inputs]
    exact List.mem_map_of_mem hMem
  obtain ⟨hAccepted, ⟨port, hListener⟩, hForwards⟩ := hSourced.sessions session s hGet
  obtain ⟨serviceType, preferredPort, hCreate⟩ := hSourced.spawned _ _ hListener
  refine ⟨port, serviceType, preferredPort, hCreate, hListener, hInput hAccepted, fun f hTask => ?_⟩
  obtain ⟨outbound, schedule, hConnect, rfl⟩ := hForwards f hTask
  refine ⟨outbound, hInput hConnect, fun loop => ?_⟩
  obtain ⟨written, hCopied⟩ := (Forwarding.carries_new s.inbound outbound).run schedule loop
  exact ⟨written, hCopied.sent, hCopied.isPrefix⟩

/-- A tunnel is closed again while its only visitor says one byte. -/
def oneVisitor : List SocketStep :=
  [.manager (.createReverseTunnel .webService none (.v4 ⟨.replicate 4 127⟩ 80)), .poll 0,
    .bind 0 false, .accept 0 (peer [[1]]), .manager (.closeTunnel 8000),
    .connect 0 (.ok (peer [])), .forward 0 (.clientToServer, .fill 0)]

theorem visitors_reach_clients_oneVisitor :
    ∃ host s, TunnelHost.new 8000 8001 = some host ∧
      (run SocketWorld.step (.new host) oneVisitor).sessions[0]? = some s ∧
      .accept s.listener s.inbound ∈ oneVisitor := by
  obtain ⟨_, _, _, _, _, hAccepted, _⟩ := @visitors_reach_clients 8000 8001 _ rfl oneVisitor 0 _ rfl
  exact ⟨_, _, rfl, rfl, hAccepted⟩

end CrabbyProxy.Tunnel
