import CrabbyProxy.Tunnel.Consistency

/-!
# Tunnels are isolated from one another

What a successful create or close changes, and what a failed one leaves alone,
in every state a run of the manager can reach.
-/

namespace CrabbyProxy.Tunnel
open Execution
set_option autoImplicit false

variable {minPort maxPort : UInt16}

namespace TunnelHost

/-- Everything except the given port is the same in both states. -/
structure SameElsewhere (port : UInt16) (h h' : TunnelHost) : Prop where
  tunnel : ∀ other ≠ port,
    h'.manager.activeTunnels.lookup other = h.manager.activeTunnels.lookup other
  handles : ∀ other ≠ port, h'.manager.tasks.lookup other = h.manager.tasks.lookup other
  allocation : ∀ other ≠ port,
    other ∈ h'.manager.portAllocator.allocatedPorts ↔ other ∈ h.manager.portAllocator.allocatedPorts

structure CreateIsolated (h : TunnelHost) (serviceType : ServiceType)
    (preferredPort : Option UInt16) (clientAddr : SocketAddr)
    (answer : Except TunnelError UInt16) (h' : TunnelHost) : Prop where
  fresh : ∀ port, answer = .ok port → port ∉ h.manager.activeTunnels ∧ port ∉ h.manager.tasks ∧
    port ∉ h.manager.portAllocator.allocatedPorts
  added : ∀ port, answer = .ok port →
    h'.manager.activeTunnels.lookup port = some ⟨port, clientAddr, serviceType⟩ ∧
    h'.manager.tasks.lookup port = some [h.runtime.spawned.length] ∧
    h'.runtime = { h.runtime with spawned := h.runtime.spawned ++ [⟨port, clientAddr⟩] } ∧
    port ∈ h'.manager.portAllocator.allocatedPorts
  elsewhere : ∀ port, answer = .ok port → SameElsewhere port h h'
  failed : ∀ e, answer = .error e → h' = h ∧
    ((∃ port minPort maxPort, e = .portOutOfRange port minPort maxPort) ∨
      (∃ port, e = .portInUse port) ∨ ∃ minPort maxPort, e = .noPortsAvailable minPort maxPort)

structure CloseIsolated (h : TunnelHost) (port : UInt16) (answer : Except TunnelError Unit)
    (h' : TunnelHost) : Prop where
  ok_iff : answer = .ok () ↔ port ∈ h.manager.activeTunnels
  removed : answer = .ok () → port ∉ h'.manager.activeTunnels ∧ port ∉ h'.manager.tasks ∧
    port ∉ h'.manager.portAllocator.allocatedPorts
  aborted : answer = .ok () → ∃ handle, h.manager.tasks.lookup port = some [handle] ∧
    h'.runtime = { h.runtime with aborted := h.runtime.aborted ++ [handle] }
  elsewhere : answer = .ok () → SameElsewhere port h h'
  failed : ∀ e, answer = .error e → e = .tunnelNotFound port ∧ h' = h

variable {h : TunnelHost}

theorem Consistent.createIsolated (hc : h.Consistent minPort maxPort) (serviceType : ServiceType)
    (preferredPort : Option UInt16) (clientAddr : SocketAddr) :
    CreateIsolated h serviceType preferredPort clientAddr
      (h.createReverseTunnel serviceType preferredPort clientAddr).1
      (h.createReverseTunnel serviceType preferredPort clientAddr).2 := by
  obtain ⟨port, allocator, _, hEq, _, hFree, hActive, hTasks, hInsert⟩ | ⟨e, _, hEq, hError⟩ :=
    hc.create_cases serviceType preferredPort clientAddr <;> rw [hEq]
  · refine ⟨?_, ?_, ?_, ?_⟩ <;> rintro _ ⟨⟩
    · exact ⟨hActive, hTasks, hFree⟩
    · simp [TunnelHost.added, hInsert]
    · refine ⟨?_, ?_, ?_⟩
      · exact fun other hNe => AList.lookup_insert_ne hNe
      · exact fun other hNe => AList.lookup_insert_ne hNe
      · intro other hNe
        simp [TunnelHost.added, hInsert, hNe]
  · refine ⟨?_, ?_, ?_, ?_⟩ <;> rintro _ ⟨⟩
    refine ⟨rfl, ?_⟩
    cases e with
    | portOutOfRange port low high => exact .inl ⟨port, low, high, rfl⟩
    | portUnavailable port => exact .inr (.inl ⟨port, rfl⟩)
    | noPortsAvailable low high => exact .inr (.inr ⟨low, high, rfl⟩)
    | portNotAllocated port => exact absurd rfl (hError port)

theorem Consistent.closeIsolated (hc : h.Consistent minPort maxPort) (port : UInt16) :
    CloseIsolated h port (h.closeTunnel port).1 (h.closeTunnel port).2 := by
  obtain ⟨hActive, hEq⟩ | ⟨hActive, handle, allocator, hHandle, hEq, _, hErase⟩ :=
    hc.close_cases port <;> rw [hEq]
  · refine ⟨⟨nofun, fun hPort => absurd hPort hActive⟩, nofun, nofun, nofun, ?_⟩
    rintro _ ⟨⟩
    exact ⟨rfl, rfl⟩
  · refine ⟨⟨fun _ => hActive, fun _ => rfl⟩, fun _ => ?_, fun _ => ⟨handle, hHandle, rfl⟩,
      fun _ => ⟨?_, ?_, ?_⟩, nofun⟩
    · simp [TunnelHost.removed, hErase, AList.mem_erase]
    · exact fun other hNe => AList.lookup_erase_ne hNe
    · exact fun other hNe => AList.lookup_erase_ne hNe
    · intro other hNe
      simp [TunnelHost.removed, hErase, hNe]

end TunnelHost

open TunnelHost

/-- In every reachable state the tables agree and operations touch one port only. -/
theorem tunnelManager_isolates {h₀ : TunnelHost} (hNew : TunnelHost.new minPort maxPort = some h₀)
    (ops : List TunnelOp) :
    (run step h₀ ops).Consistent minPort maxPort ∧
    (∀ serviceType preferredPort clientAddr,
      CreateIsolated (run step h₀ ops) serviceType preferredPort clientAddr
        ((run step h₀ ops).createReverseTunnel serviceType preferredPort clientAddr).1
        ((run step h₀ ops).createReverseTunnel serviceType preferredPort clientAddr).2) ∧
    ∀ port, CloseIsolated (run step h₀ ops) port
      ((run step h₀ ops).closeTunnel port).1 ((run step h₀ ops).closeTunnel port).2 :=
  have hc := Consistent.run hNew ops
  ⟨hc, hc.createIsolated, hc.closeIsolated⟩

theorem tunnelManager_isolates_two_ports :
    ∃ h₀, TunnelHost.new 8000 8001 = some h₀ ∧
      (run step h₀ [.createReverseTunnel .webService none (.v4 ⟨#v[127, 0, 0, 1]⟩ 80),
        .closeTunnel 8001, .shutdown,
        .createReverseTunnel .sshService (some 8000) (.v4 ⟨#v[127, 0, 0, 1]⟩ 22)]).Consistent
          8000 8001 :=
  ⟨_, rfl, (tunnelManager_isolates rfl _).1⟩

end CrabbyProxy.Tunnel
