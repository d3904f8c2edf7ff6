import CrabbyProxy.Tunnel.Handles

/-!
# Recorded tunnels and failed binds

The bind happens in the listener's own task, after the tunnel was recorded and its port
returned. When it fails, the task ends and nothing else is told.
-/

namespace CrabbyProxy.Tunnel
open Execution
set_option autoImplicit false

variable {minPort maxPort : UInt16}

namespace TunnelWorld

/-- No recorded tunnel has a listener whose bind failed. -/
def Live (w : TunnelWorld) : Prop :=
  ∀ port handles, port ∈ w.host.manager.activeTunnels →
    w.host.manager.tasks.lookup port = some handles →
      ∀ handle ∈ handles, (w.listeners handle).stage ≠ .bindFailed

/-- A listener that was not aborted finds its port free when it executes its bind. -/
def BindsFree (w : TunnelWorld) : TunnelInput → Prop
  | .task (.bind handle outsider) => w.listeners handle = ⟨.starting, true⟩ →
    handle ∉ w.host.runtime.aborted → ∀ port, w.portOf handle = some port →
      outsider = false ∧ ¬w.PortHeld port
  | _ => True

variable {w : TunnelWorld}

theorem Live.of_new {h : TunnelHost} (hNew : TunnelHost.new minPort maxPort = some h) :
    (new h).Live := by
  obtain ⟨allocator, _, rfl⟩ := Option.map_eq_some_iff.mp hNew
  intro port handles hPort
  exact absurd hPort (AList.notMem_empty port)

theorem Live.manager_step (hl : w.Live) (hv : w.Valid minPort maxPort) (op : TunnelOp) :
    (w.step (.manager op)).2.Live := by
  cases op with
  | createReverseTunnel serviceType preferredPort clientAddr =>
    rw [TunnelWorld.step, TunnelHost.step]
    obtain ⟨port, allocator, _, hEq, _⟩ | ⟨e, _, hEq, _⟩ :=
      hv.consistent.create_cases serviceType preferredPort clientAddr <;> rw [hEq]
    · intro other handles hOther hHandles handle hMem
      simp only [TunnelHost.added, AList.mem_insert] at hOther hHandles ⊢
      by_cases hSame : other = port
      · subst hSame
        rw [AList.lookup_insert, Option.some.injEq] at hHandles
        subst hHandles
        obtain rfl := List.mem_singleton.mp hMem
        rw [hv.unspawned _ (Nat.le_refl _)]
        decide
      · rw [AList.lookup_insert_ne hSame] at hHandles
        exact hl other handles (hOther.resolve_left hSame) hHandles handle hMem
    · exact hl
  | closeTunnel port =>
    rw [TunnelWorld.step, TunnelHost.step]
    obtain ⟨_, hEq⟩ | ⟨_, closed, allocator, _, hEq, _⟩ := hv.consistent.close_cases port <;>
      rw [hEq]
    · exact hl
    · intro other handles hOther hHandles
      exact hl other handles (AList.mem_erase.mp hOther).2
        (TunnelHost.lookup_of_lookup_erase hHandles)
  | shutdown =>
    intro port handles hPort
    exact absurd hPort (AList.notMem_empty port)

theorem bindFailed_of_taskStep {s : TaskStep} {handle : JoinHandle}
    (h : ((w.taskStep s).listeners handle).stage = .bindFailed) :
    (w.listeners handle).stage = .bindFailed ∨ ∃ outsider, s = .bind handle outsider ∧
      w.listeners handle = ⟨.starting, true⟩ ∧ ∃ port, w.portOf handle = some port ∧
        (outsider = true ∨ w.PortHeld port) := by
  have hSet : ∀ (moved : JoinHandle) (listener : Listener),
      ((w.setListener moved listener).listeners handle).stage = .bindFailed →
        (w.listeners handle).stage = .bindFailed ∨
          moved = handle ∧ listener.stage = .bindFailed := by
    intro moved listener hFailed
    by_cases hSelf : handle = moved
    · subst hSelf
      rw [setListener_self] at hFailed
      exact .inr ⟨rfl, hFailed⟩
    · rw [w.setListener_ne hSelf] at hFailed
      exact .inl hFailed
  cases s with
  | poll moved =>
    rw [taskStep, pollListener] at h
    split at h
    · obtain hOld | ⟨rfl, hFailed⟩ := hSet _ _ h
      · exact .inl hOld
      · exact .inl hFailed
    · exact .inl h
  | bind moved outsider =>
    rw [taskStep, bindListener] at h
    split at h
    · exact .inl h
    · rename_i task hTask
      split at h
      · exact .inl h
      · rename_i hStarting
        split at h
        · rename_i hTaken
          obtain hOld | ⟨rfl, _⟩ := hSet _ _ h
          · exact .inl hOld
          · refine .inr ⟨outsider, rfl, not_not.mp hStarting, task.port, ?_, hTaken⟩
            rw [portOf, hTask]
            rfl
        · obtain hOld | ⟨rfl, hFailed⟩ := hSet _ _ h
          · exact .inl hOld
          · cases hFailed
  | suspend moved =>
    rw [taskStep, suspendListener] at h
    split at h
    · obtain hOld | ⟨rfl, hFailed⟩ := hSet _ _ h
      · exact .inl hOld
      · exact .inl hFailed
    · exact .inl h
  | drop moved =>
    rw [taskStep, dropListener] at h
    split at h
    · obtain hOld | ⟨rfl, hFailed⟩ := hSet _ _ h
      · exact .inl hOld
      · cases hFailed
    · exact .inl h
  | accept moved =>
    rw [taskStep, acceptConnection] at h
    split at h
    · exact .inl h
    · split at h <;> exact .inl h
  | copy connection loop bytes =>
    rw [taskStep, copyBytes] at h
    split at h
    · exact .inl h
    · split at h <;> exact .inl h
  | connect connection reached | finish connection loop | fail connection => exact .inl h

theorem Live.task_step (hl : w.Live) (hv : w.Valid minPort maxPort) {s : TaskStep}
    (hFree : w.BindsFree (.task s)) : (w.taskStep s).Live := by
  intro port handles hPort hHandles handle hMem hFailed
  rw [(w.taskStep_cases s).1] at hPort hHandles
  obtain hOld | ⟨outsider, rfl, hStarting, bound, hBound, hTaken⟩ := bindFailed_of_taskStep hFailed
  · exact hl port handles hPort hHandles handle hMem hOld
  · obtain ⟨only, rfl⟩ := hv.consistent.oneHandle port handles hHandles
    obtain rfl := List.mem_singleton.mp hMem
    have hOwned := (hv.accounted.running port handle hHandles).1
    obtain ⟨rfl, hNotHeld⟩ := hFree hStarting hOwned bound hBound
    obtain hOutsider | hHeld := hTaken
    · cases hOutsider
    · exact hNotHeld hHeld

/-- A bind that fails leaves a recorded tunnel without a listener. -/
theorem Valid.not_live (hv : w.Valid minPort maxPort) {i : TunnelInput} (hTaken : ¬w.BindsFree i) :
    ¬(w.step i).2.Live := by
  cases i with
  | manager op => exact absurd trivial hTaken
  | task s =>
    cases s with
    | bind handle outsider =>
      rw [BindsFree] at hTaken
      push Not at hTaken
      obtain ⟨hStarting, hFree, port, hPort, hTaken⟩ := hTaken
      obtain ⟨task, hTask, rfl⟩ := Option.map_eq_some_iff.mp hPort
      have hOwned := (hv.accounted.owned handle task hTask).resolve_left hFree
      have hActive := (hv.consistent.keys task.port).mpr (TunnelHost.mem_of_lookup hOwned)
      have hBind : w.bindListener handle outsider = w.setListener handle ⟨.bindFailed, false⟩ := by
        rw [bindListener, hTask]
        dsimp only
        rw [if_neg (not_not.mpr hStarting), if_pos]
        cases outsider with
        | true => exact .inl rfl
        | false => exact .inr (hTaken rfl)
      intro hLive
      rw [TunnelWorld.step, taskStep, hBind] at hLive
      refine hLive task.port [handle] hActive hOwned handle (List.mem_singleton_self _) ?_
      rw [setListener_self]
    | _ => exact absurd trivial hTaken

theorem Valid.live_step_iff (hv : w.Valid minPort maxPort) (hl : w.Live) (i : TunnelInput) :
    (w.step i).2.Live ↔ w.BindsFree i := by
  constructor
  · intro hNext
    by_contra hTaken
    exact hv.not_live hTaken hNext
  · intro hFree
    cases i with
    | manager op => exact hl.manager_step hv op
    | task s => exact hl.task_step hv hFree

end TunnelWorld

open TunnelWorld

/-- Every recorded tunnel is live at every point of a run exactly when each listener that
was not aborted finds its port free. -/
theorem recorded_tunnels_live_iff {h₀ : TunnelHost}
    (hNew : TunnelHost.new minPort maxPort = some h₀) (inputs : List TunnelInput) :
    (∀ before, before <+: inputs → (run step (.new h₀) before).Live) ↔
      Along step BindsFree (.new h₀) inputs := by
  have hStep : ∀ (w : TunnelWorld) i, w.Valid minPort maxPort →
      (w.step i).2.Valid minPort maxPort := fun w i hv => hv.step i
  exact prefixes_iff_along hStep (fun w i hv hLive => hv.live_step_iff hLive i) (.of_new hNew)
    (.of_new hNew) inputs

/-- A tunnel is created and its listener gets to its bind. -/
def openedTunnel (outsider : Bool) : List TunnelInput :=
  [.manager (.createReverseTunnel .webService none (.v4 localhost 80)),
    .task (.poll 0), .task (.bind 0 outsider)]

theorem recorded_tunnels_live_iff_free :
    ∃ h₀, TunnelHost.new 8000 8001 = some h₀ ∧
      ∀ before, before <+: openedTunnel false → (run step (.new h₀) before).Live := by
  refine ⟨_, rfl, (@recorded_tunnels_live_iff 8000 8001 _ rfl _).mpr ⟨trivial, trivial, ?_, trivial⟩⟩
  rintro _ _ port ⟨⟩
  exact ⟨rfl, by decide⟩

/-- Another process holds the port: the tunnel is recorded, and nobody listens. -/
theorem recorded_tunnel_without_listener :
    ∃ h₀, TunnelHost.new 8000 8001 = some h₀ ∧
      let failed := run step (.new h₀) (openedTunnel true)
      (failed.listeners 0).stage = .bindFailed ∧
        failed.host.manager.tasks.lookup 8000 = some [0] ∧
        8000 ∈ failed.host.manager.portAllocator.allocatedPorts ∧ ¬failed.Live := by
  refine ⟨_, rfl, by decide, by decide, by decide, ?_⟩
  intro hLive
  exact hLive 8000 [0] (AList.lookup_isSome.mp (by decide)) (by decide) 0 (List.mem_singleton_self _)
    (by decide)

end CrabbyProxy.Tunnel
