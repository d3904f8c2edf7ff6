import CrabbyProxy.Tunnel.Handles

/-!
# Closing a tunnel

A close aborts the listener and nothing else. Once that has taken effect the tunnel is
silent exactly when the connections that the listener accepted have ended by
themselves.
-/

namespace CrabbyProxy.Tunnel
open Execution
set_option autoImplicit false

variable {minPort maxPort : UInt16}

/-- A close that succeeds, or a shutdown, of the tunnel with this listener. -/
def TunnelHost.Closes (h : TunnelHost) (handle : JoinHandle) : TunnelOp → Prop
  | .createReverseTunnel _ _ _ => False
  | .closeTunnel port => (h.closeTunnel port).1 = .ok () ∧
    ∃ handles, h.manager.tasks.lookup port = some handles ∧ handle ∈ handles
  | .shutdown => ∃ port handles, h.manager.tasks.lookup port = some handles ∧ handle ∈ handles

theorem TunnelHost.Consistent.aborted_of_closes {h : TunnelHost}
    (hc : h.Consistent minPort maxPort) {handle : JoinHandle} {op : TunnelOp}
    (hCloses : h.Closes handle op) : handle ∈ (h.step op).2.runtime.aborted := by
  cases op with
  | createReverseTunnel => cases hCloses
  | closeTunnel port =>
    obtain ⟨hOk, handles, hHandles, hMem⟩ := hCloses
    rw [TunnelHost.step]
    obtain ⟨_, hEq⟩ | ⟨_, only, allocator, hOnly, hEq, _⟩ := hc.close_cases port
    · rw [hEq] at hOk
      cases hOk
    · rw [hHandles, Option.some.injEq] at hOnly
      subst hOnly
      rw [hEq]
      exact List.mem_append_right _ hMem
  | shutdown =>
    obtain ⟨port, handles, hHandles, hMem⟩ := hCloses
    refine List.mem_append_right _ (List.mem_flatMap.mpr ⟨⟨port, handles⟩, ?_, hMem⟩)
    exact AList.mem_lookup_iff.mp hHandles

namespace TunnelWorld

/-- What the connections of this listener have moved so far. -/
def carried (handle : JoinHandle) (w : TunnelWorld) : List Forwarded :=
  w.traffic.filter (·.listener = handle)

/-- The listener takes no further step: it was dropped, or never got its port. -/
def Over (w : TunnelWorld) (handle : JoinHandle) : Prop :=
  (w.listeners handle).stage = .dropped ∨ (w.listeners handle).stage = .bindFailed

/-- Every connection that the listener accepted has ended. -/
def Drained (w : TunnelWorld) (handle : JoinHandle) : Prop :=
  ∀ c ∈ w.connections, c.listener = handle → c.stage = .ended

variable {w : TunnelWorld} {handle : JoinHandle}

theorem Over.not_moves (hOver : w.Over handle) {listener : Listener}
    (hMoves : w.Moves handle listener) : listener.stage = (w.listeners handle).stage := by
  cases hMoves with
  | poll stage hStage => exact hStage.symm
  | suspend hRunning => rfl
  | bound task hTask hStarting | failed task hTask hStarting =>
    rw [Over, hStarting] at hOver
    cases hOver <;> contradiction
  | dropped hAborted hOpen =>
    rw [Over] at hOver
    obtain hOpen | hOpen := hOpen <;> rw [hOpen] at hOver <;> cases hOver <;> contradiction

theorem Over.step (hOver : w.Over handle) (i : TunnelInput) : (w.step i).2.Over handle := by
  cases i with
  | manager op => exact hOver
  | task s =>
    rw [TunnelWorld.step, Over]
    obtain hSame | ⟨moved, listener, hMoves, hSame⟩ := (w.taskStep_cases s).2 <;>
      dsimp only <;> rw [hSame]
    · exact hOver
    · by_cases hSelf : moved = handle
      · subst hSelf
        rw [Function.update_self, hOver.not_moves hMoves]
        exact hOver
      · rw [Function.update_of_ne (Ne.symm hSelf)]
        exact hOver

theorem drained_setStage (hDrained : w.Drained handle) (connection : Nat)
    {f : ConnectionStage → ConnectionStage} (hEnded : f .ended = .ended) :
    (w.setStage connection f).Drained handle := by
  intro c hMem hListener
  obtain ⟨i, hGet⟩ := List.mem_iff_getElem?.mp hMem
  rw [setStage, List.getElem?_modify] at hGet
  obtain ⟨old, hOld, hSame⟩ := Option.map_eq_some_iff.mp hGet
  have hOldMem := List.mem_of_getElem? hOld
  split at hSame <;> subst hSame
  · exact (congrArg f (hDrained old hOldMem hListener)).trans hEnded
  · exact hDrained old hOldMem hListener

/-- Without a listener and without connections nothing is forwarded any more. -/
theorem drained_step (hOver : w.Over handle) (hDrained : w.Drained handle) (i : TunnelInput) :
    (w.step i).2.Drained handle ∧ carried handle (w.step i).2 = carried handle w := by
  cases i with
  | manager op => exact ⟨hDrained, rfl⟩
  | task s =>
    rw [TunnelWorld.step]
    dsimp only
    cases s with
    | poll other =>
      rw [taskStep, pollListener]
      split <;> exact ⟨hDrained, rfl⟩
    | bind other outsider =>
      rw [taskStep, bindListener]
      split
      · exact ⟨hDrained, rfl⟩
      · split
        · exact ⟨hDrained, rfl⟩
        · split <;> exact ⟨hDrained, rfl⟩
    | accept other =>
      rw [taskStep, acceptConnection]
      split
      · exact ⟨hDrained, rfl⟩
      · split
        · rename_i hListening
          refine ⟨fun c hMem hListener => ?_, rfl⟩
          obtain hOld | hNew := List.mem_append.mp hMem
          · exact hDrained c hOld hListener
          · obtain rfl := List.mem_singleton.mp hNew
            obtain rfl : other = handle := hListener
            rw [Over, hListening] at hOver
            cases hOver <;> contradiction
        · exact ⟨hDrained, rfl⟩
    | suspend other =>
      rw [taskStep, suspendListener]
      split <;> exact ⟨hDrained, rfl⟩
    | drop other =>
      rw [taskStep, dropListener]
      split <;> exact ⟨hDrained, rfl⟩
    | copy connection loop bytes =>
      rw [taskStep, copyBytes]
      split
      · exact ⟨hDrained, rfl⟩
      · rename_i c hGet
        split
        · rename_i hCopies
          refine ⟨hDrained, ?_⟩
          have hOther : c.listener ≠ handle := by
            intro hListener
            rw [hDrained c (List.mem_of_getElem? hGet) hListener] at hCopies
            cases hCopies.1
          simp [carried, hOther]
        · exact ⟨hDrained, rfl⟩
    | connect connection reached => exact ⟨drained_setStage hDrained connection rfl, rfl⟩
    | finish connection loop => exact ⟨drained_setStage hDrained connection rfl, rfl⟩
    | fail connection => exact ⟨drained_setStage hDrained connection rfl, rfl⟩

theorem carried_run_of_drained (hOver : w.Over handle) (hDrained : w.Drained handle)
    (after : List TunnelInput) : carried handle (run step w after) = carried handle w := by
  induction after generalizing w with
  | nil => rfl
  | cons i after ih =>
    obtain ⟨hNext, hSame⟩ := drained_step hOver hDrained i
    exact (ih (hOver.step i) hNext).trans hSame

theorem carried_copy_ne {connection : Nat} {c : TunnelConnection} {loop : CopyLoop}
    (hGet : w.connections[connection]? = some c) (hListener : c.listener = handle)
    (hCopies : c.stage.copies loop = true) :
    carried handle (w.taskStep (.copy connection loop [0])) ≠ carried handle w := by
  rw [taskStep, copyBytes, hGet]
  dsimp only
  rw [if_pos ⟨hCopies, List.cons_ne_nil _ _⟩]
  simp [carried, hListener]

theorem exists_copies {stage : ConnectionStage} (hStage : stage ≠ .ended)
    (hConnected : stage ≠ .connecting) : ∃ loop, stage.copies loop = true := by
  cases stage with
  | connecting => exact absurd rfl hConnected
  | ended => exact absurd rfl hStage
  | relaying finished =>
    obtain _ | finished := finished
    · exact ⟨.clientToServer, rfl⟩
    · cases finished
      · exact ⟨.serverToClient, rfl⟩
      · exact ⟨.clientToServer, rfl⟩

theorem drained_of_quiet
    (hQuiet : ∀ after, carried handle (run step w after) = carried handle w) :
    w.Drained handle := by
  intro c hMem hListener
  by_contra hStage
  obtain ⟨connection, hGet⟩ := List.mem_iff_getElem?.mp hMem
  by_cases hConnecting : c.stage = .connecting
  · have hReached : (w.taskStep (.connect connection true)).connections[connection]? =
        some { c with stage := .relaying none } := by
      simp [taskStep, setStage, hGet, hConnecting, ConnectionStage.connect]
    exact @carried_copy_ne _ handle _ _ .clientToServer hReached hListener rfl
      (hQuiet [.task (.connect connection true), .task (.copy connection .clientToServer [0])])
  · obtain ⟨loop, hCopies⟩ := exists_copies hStage hConnecting
    exact carried_copy_ne hGet hListener hCopies (hQuiet [.task (.copy connection loop [0])])

theorem Valid.aborted_run (hv : w.Valid minPort maxPort)
    (hAborted : handle ∈ w.host.runtime.aborted) (inputs : List TunnelInput) :
    handle ∈ (Execution.run TunnelWorld.step w inputs).host.runtime.aborted := by
  induction inputs generalizing w with
  | nil => exact hAborted
  | cons i inputs ih =>
    refine ih (hv.step i) ?_
    cases i with
    | manager op => exact (hv.consistent.runtime_grows op).2 hAborted
    | task s => exact (w.taskStep_cases s).1 ▸ hAborted

end TunnelWorld

open TunnelWorld

/-- After a close whose abort has taken effect no byte is forwarded in any continuation
exactly when every connection that the listener accepted has ended by then. -/
theorem closed_tunnel_quiet_iff {h₀ : TunnelHost}
    (hNew : TunnelHost.new minPort maxPort = some h₀) {before middle : List TunnelInput}
    {op : TunnelOp} {handle : JoinHandle}
    (hCloses : (run step (.new h₀) before).host.Closes handle op)
    (hEffect : (run step (.new h₀) (before ++ .manager op :: middle)).Over handle) :
    handle ∈ (run step (.new h₀) (before ++ .manager op :: middle)).host.runtime.aborted ∧
    ((∀ after, carried handle (run step (.new h₀) (before ++ .manager op :: middle ++ after)) =
        carried handle (run step (.new h₀) (before ++ .manager op :: middle))) ↔
      (run step (.new h₀) (before ++ .manager op :: middle)).Drained handle) := by
  constructor
  · have hBefore := Valid.run hNew before
    rw [run_append]
    exact (hBefore.step (.manager op)).aborted_run
      (hBefore.consistent.aborted_of_closes hCloses) middle
  · constructor
    · intro hQuiet
      apply drained_of_quiet
      intro after
      rw [← run_append]
      exact hQuiet after
    · intro hDrained after
      rw [run_append]
      exact carried_run_of_drained hEffect hDrained after

/-- A tunnel that is opened, used by one connection and closed. -/
def revokedTunnel : List TunnelInput :=
  [.manager (.createReverseTunnel .sshService none (.v4 localhost 22)),
    .task (.poll 0), .task (.bind 0 false), .task (.accept 0), .task (.connect 0 true)]

theorem closed_tunnel_quiet_iff_finished :
    ∃ h₀, TunnelHost.new 8000 8001 = some h₀ ∧ ∀ after,
      carried 0 (run step (.new h₀) (revokedTunnel ++ .manager (.closeTunnel 8000) ::
        [.task (.fail 0), .task (.suspend 0), .task (.drop 0)] ++ after)) = [] := by
  refine ⟨_, rfl, fun after => ?_⟩
  refine ((@closed_tunnel_quiet_iff 8000 8001 _ rfl revokedTunnel
    [.task (.fail 0), .task (.suspend 0), .task (.drop 0)] (.closeTunnel 8000) 0
    ⟨by decide, [0], by decide, by decide⟩ (.inl (by decide))).2.mpr ?_ after).trans ?_
  · intro c hMem _
    obtain rfl := List.mem_singleton.mp hMem
    rfl
  · decide

/-- The connection outlives the close of its tunnel and the drop of its listener. -/
theorem closed_tunnel_still_forwards :
    ∃ h₀, TunnelHost.new 8000 8001 = some h₀ ∧
      let closed := run step (.new h₀) (revokedTunnel ++
        [.manager (.closeTunnel 8000), .task (.suspend 0), .task (.drop 0)])
      closed.Over 0 ∧ closed.host.manager.activeTunnels.lookup 8000 = none ∧
        carried 0 closed = [] ∧
        carried 0 (run step closed [.task (.copy 0 .clientToServer [104, 105])]) =
          [⟨0, .v4 ⟨#v[127, 0, 0, 1]⟩ 22, .clientToServer, [104, 105]⟩] := by
  refine ⟨_, rfl, .inl (by decide), by decide, by decide, by decide⟩

end CrabbyProxy.Tunnel
