import CrabbyProxy.Tunnel.AllocatorRuns
import CrabbyProxy.Tunnel.Manager

/-!
# The tables of the manager agree

Tunnels and task handles have the same ports, each of them is allocated, and
each port has the one handle of its own listener. Under this invariant the
release inside `closeTunnel` cannot fail, so the operation is atomic.
-/

namespace CrabbyProxy.Tunnel
open Execution
set_option autoImplicit false

variable {minPort maxPort : UInt16}

theorem PortAllocator.Partitioned.allocatePort_cases {a : PortAllocator}
    (h : a.Partitioned minPort maxPort) (preferred : Option UInt16) :
    (∃ port allocator, a.allocatePort preferred = (.ok port, allocator) ∧
      allocator.Partitioned minPort maxPort ∧ port ∉ a.allocatedPorts ∧
      allocator.allocatedPorts = insert port a.allocatedPorts) ∨
    (∃ e, a.allocatePort preferred = (.error e, a) ∧ ∀ port, e ≠ .portNotAllocated port) := by
  cases preferred with
  | some port =>
    have hNext := h.allocateSpecific port
    obtain ⟨_, hEq⟩ | ⟨_, _, hEq⟩ | ⟨_, hFree, hEq⟩ := h.allocateSpecific_cases port
    · exact .inr ⟨_, hEq, by simp⟩
    · exact .inr ⟨_, hEq, by simp⟩
    · rw [hEq] at hNext
      exact .inl ⟨port, _, hEq, hNext, hFree, rfl⟩
  | none =>
    have hNext := h.allocateNext
    obtain ⟨_, hEq⟩ | ⟨port, _, _, _, hFree, hEq⟩ := h.allocateNext_cases
    · exact .inr ⟨_, hEq, by simp⟩
    · rw [hEq] at hNext
      exact .inl ⟨port, _, hEq, hNext, hFree, rfl⟩

namespace TunnelHost

structure Consistent (minPort maxPort : UInt16) (h : TunnelHost) : Prop where
  partitioned : h.manager.portAllocator.Partitioned minPort maxPort
  keys : ∀ port, port ∈ h.manager.activeTunnels ↔ port ∈ h.manager.tasks
  allocated : ∀ port ∈ h.manager.activeTunnels, port ∈ h.manager.portAllocator.allocatedPorts
  oneHandle : ∀ port handles, h.manager.tasks.lookup port = some handles →
    ∃ handle, handles = [handle]
  listenPort : ∀ port tunnel, h.manager.activeTunnels.lookup port = some tunnel →
    tunnel.listenPort = port
  listener : ∀ port handle tunnel, h.manager.tasks.lookup port = some [handle] →
    h.manager.activeTunnels.lookup port = some tunnel →
    h.runtime.spawned[handle]? = some ⟨port, tunnel.targetAddr⟩

variable {h : TunnelHost}

theorem Consistent.of_new (hNew : new minPort maxPort = some h) :
    h.Consistent minPort maxPort ∧ h.manager.portAllocator.allocatedPorts = ∅ := by
  obtain ⟨allocator, hAllocator, rfl⟩ := Option.map_eq_some_iff.mp hNew
  obtain ⟨hPartitioned, hEmpty⟩ := PortAllocator.Partitioned.of_new hAllocator
  exact ⟨⟨hPartitioned, by simp, by simp, by simp, by simp, by simp⟩, hEmpty⟩

/-- The state after a tunnel was created on a free port. -/
def added (h : TunnelHost) (allocator : PortAllocator) (port : UInt16)
    (serviceType : ServiceType) (clientAddr : SocketAddr) : TunnelHost where
  manager := {
    activeTunnels := h.manager.activeTunnels.insert port ⟨port, clientAddr, serviceType⟩
    portAllocator := allocator
    tasks := h.manager.tasks.insert port [h.runtime.spawned.length] }
  runtime := { h.runtime with spawned := h.runtime.spawned ++ [⟨port, clientAddr⟩] }

/-- Everything `createReverseTunnel` can do. -/
theorem Consistent.create_cases (hc : h.Consistent minPort maxPort) (serviceType : ServiceType)
    (preferredPort : Option UInt16) (clientAddr : SocketAddr) :
    (∃ port allocator,
      h.manager.portAllocator.allocatePort preferredPort = (.ok port, allocator) ∧
      h.createReverseTunnel serviceType preferredPort clientAddr =
        (.ok port, h.added allocator port serviceType clientAddr) ∧
      allocator.Partitioned minPort maxPort ∧
      port ∉ h.manager.portAllocator.allocatedPorts ∧
      port ∉ h.manager.activeTunnels ∧ port ∉ h.manager.tasks ∧
      allocator.allocatedPorts = insert port h.manager.portAllocator.allocatedPorts) ∨
    (∃ e, h.manager.portAllocator.allocatePort preferredPort = (.error e, h.manager.portAllocator) ∧
      h.createReverseTunnel serviceType preferredPort clientAddr =
        (.error (.ofPortAllocError e), h) ∧ ∀ port, e ≠ .portNotAllocated port) := by
  obtain ⟨port, allocator, hEq, hNext, hFree, hInsert⟩ | ⟨e, hEq, hError⟩ :=
    hc.partitioned.allocatePort_cases preferredPort
  · have hActive : port ∉ h.manager.activeTunnels := fun hPort => hFree (hc.allocated port hPort)
    have hTasks : port ∉ h.manager.tasks := fun hPort => hActive ((hc.keys port).mpr hPort)
    refine .inl ⟨port, allocator, hEq, ?_, hNext, hFree, hActive, hTasks, hInsert⟩
    rw [createReverseTunnel, hEq]
    simp only [AList.lookup_eq_none.mpr hTasks, Option.getD_none, List.nil_append, added]
  · refine .inr ⟨e, hEq, ?_, hError⟩
    rw [createReverseTunnel, hEq]

/-- The state after the tunnel of a port was closed. -/
def removed (h : TunnelHost) (allocator : PortAllocator) (port : UInt16) (handle : JoinHandle) :
    TunnelHost where
  manager := ⟨h.manager.activeTunnels.erase port, allocator, h.manager.tasks.erase port⟩
  runtime := { h.runtime with aborted := h.runtime.aborted ++ [handle] }

/-- Everything `closeTunnel` can do: the release of an active port succeeds. -/
theorem Consistent.close_cases (hc : h.Consistent minPort maxPort) (port : UInt16) :
    (port ∉ h.manager.activeTunnels ∧ h.closeTunnel port = (.error (.tunnelNotFound port), h)) ∨
    (port ∈ h.manager.activeTunnels ∧ ∃ handle allocator,
      h.manager.tasks.lookup port = some [handle] ∧
      h.closeTunnel port = (.ok (), h.removed allocator port handle) ∧
      allocator.Partitioned minPort maxPort ∧
      allocator.allocatedPorts = h.manager.portAllocator.allocatedPorts.erase port) := by
  cases hLookup : h.manager.activeTunnels.lookup port with
  | none =>
    refine .inl ⟨AList.lookup_eq_none.mp hLookup, ?_⟩
    rw [closeTunnel, hLookup]
  | some tunnel =>
    have hActive : port ∈ h.manager.activeTunnels := by
      rw [← AList.lookup_isSome, hLookup]
      rfl
    obtain ⟨handles, hHandles⟩ := Option.isSome_iff_exists.mp
      (AList.lookup_isSome.mpr ((hc.keys port).mp hActive))
    obtain ⟨handle, rfl⟩ := hc.oneHandle port handles hHandles
    have hNext := hc.partitioned.releasePort port
    obtain ⟨hFree, _⟩ | ⟨_, hEq⟩ := h.manager.portAllocator.releasePort_cases port
    · exact absurd (hc.allocated port hActive) hFree
    · rw [hEq] at hNext
      refine .inr ⟨hActive, handle, _, hHandles, ?_, hNext, rfl⟩
      rw [closeTunnel, hLookup, hEq]
      simp only [hHandles, Option.getD_some, removed]

theorem Consistent.added (hc : h.Consistent minPort maxPort) {allocator : PortAllocator}
    {port : UInt16} (hNext : allocator.Partitioned minPort maxPort)
    (hInsert : allocator.allocatedPorts = insert port h.manager.portAllocator.allocatedPorts)
    (serviceType : ServiceType) (clientAddr : SocketAddr) :
    (h.added allocator port serviceType clientAddr).Consistent minPort maxPort where
  partitioned := hNext
  keys other := by simp only [TunnelHost.added, AList.mem_insert, hc.keys]
  allocated other hOther := by
    simp only [TunnelHost.added, AList.mem_insert] at hOther ⊢
    rw [hInsert, Finset.mem_insert]
    exact hOther.imp_right (hc.allocated other)
  oneHandle other handles hHandles := by
    simp only [TunnelHost.added] at hHandles
    by_cases hSame : other = port
    · subst hSame
      rw [AList.lookup_insert] at hHandles
      exact ⟨_, (Option.some.inj hHandles).symm⟩
    · rw [AList.lookup_insert_ne hSame] at hHandles
      exact hc.oneHandle other handles hHandles
  listenPort other tunnel hTunnel := by
    simp only [TunnelHost.added] at hTunnel
    by_cases hSame : other = port
    · subst hSame
      rw [AList.lookup_insert] at hTunnel
      cases hTunnel
      rfl
    · rw [AList.lookup_insert_ne hSame] at hTunnel
      exact hc.listenPort other tunnel hTunnel
  listener other handle tunnel hHandle hTunnel := by
    simp only [TunnelHost.added] at hHandle hTunnel ⊢
    by_cases hSame : other = port
    · subst hSame
      rw [AList.lookup_insert] at hHandle hTunnel
      cases hHandle
      cases hTunnel
      simp
    · rw [AList.lookup_insert_ne hSame] at hHandle hTunnel
      have hSpawned := hc.listener other handle tunnel hHandle hTunnel
      rw [List.getElem?_append_left (List.getElem?_eq_some_iff.mp hSpawned).1]
      exact hSpawned

theorem mem_of_lookup {κ : Type} [DecidableEq κ] {β : κ → Type} {table : AList β} {key : κ}
    {value : β key} (h : table.lookup key = some value) : key ∈ table := by
  rw [← AList.lookup_isSome, h]
  rfl

theorem lookup_of_lookup_erase {κ : Type} [DecidableEq κ] {β : κ → Type} {table : AList β}
    {key removed : κ} {value : β key} (h : (table.erase removed).lookup key = some value) :
    table.lookup key = some value := by
  have hNe : key ≠ removed := (AList.mem_erase.mp (mem_of_lookup h)).1
  rwa [AList.lookup_erase_ne hNe] at h

theorem Consistent.removed (hc : h.Consistent minPort maxPort) {allocator : PortAllocator}
    {port : UInt16} (hNext : allocator.Partitioned minPort maxPort)
    (hErase : allocator.allocatedPorts = h.manager.portAllocator.allocatedPorts.erase port)
    (handle : JoinHandle) : (h.removed allocator port handle).Consistent minPort maxPort where
  partitioned := hNext
  keys other := by simp only [TunnelHost.removed, AList.mem_erase, hc.keys]
  allocated other hOther := by
    obtain ⟨hNe, hOther⟩ := AList.mem_erase.mp hOther
    simp only [TunnelHost.removed, hErase, Finset.mem_erase]
    exact ⟨hNe, hc.allocated other hOther⟩
  oneHandle other handles hHandles := hc.oneHandle other handles (lookup_of_lookup_erase hHandles)
  listenPort other tunnel hTunnel := hc.listenPort other tunnel (lookup_of_lookup_erase hTunnel)
  listener other handle tunnel hHandle hTunnel :=
    hc.listener other handle tunnel (lookup_of_lookup_erase hHandle) (lookup_of_lookup_erase hTunnel)

theorem Consistent.shutdown (hc : h.Consistent minPort maxPort) :
    h.shutdown.Consistent minPort maxPort :=
  ⟨hc.partitioned, by simp [TunnelHost.shutdown], by simp [TunnelHost.shutdown],
    by simp [TunnelHost.shutdown], by simp [TunnelHost.shutdown], by simp [TunnelHost.shutdown]⟩

theorem Consistent.step (hc : h.Consistent minPort maxPort) (op : TunnelOp) :
    (h.step op).2.Consistent minPort maxPort := by
  cases op with
  | createReverseTunnel serviceType preferredPort clientAddr =>
    show (h.createReverseTunnel serviceType preferredPort clientAddr).2.Consistent minPort maxPort
    obtain ⟨port, allocator, _, hEq, hNext, _, _, _, hInsert⟩ | ⟨e, _, hEq, _⟩ :=
      hc.create_cases serviceType preferredPort clientAddr <;> rw [hEq]
    · exact hc.added hNext hInsert serviceType clientAddr
    · exact hc
  | closeTunnel port =>
    show (h.closeTunnel port).2.Consistent minPort maxPort
    obtain ⟨_, hEq⟩ | ⟨_, handle, allocator, _, hEq, hNext, hErase⟩ := hc.close_cases port <;> rw [hEq]
    · exact hc
    · exact hc.removed hNext hErase handle
  | shutdown => exact hc.shutdown

theorem Consistent.run {h₀ : TunnelHost} (hNew : new minPort maxPort = some h₀)
    (ops : List TunnelOp) : (run TunnelHost.step h₀ ops).Consistent minPort maxPort :=
  @Execution.invariant _ _ _ TunnelHost.step (Consistent minPort maxPort)
    (fun _ op hc => hc.step op) h₀ (Consistent.of_new hNew).1 ops

end TunnelHost

end CrabbyProxy.Tunnel
