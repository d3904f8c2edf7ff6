import CrabbyProxy.Tunnel.Tasks

/-!
# Which listeners belong to a tunnel

Every listener that was spawned either was aborted or is the task of the tunnel on its
port, and never both. A listener that was not spawned yet has not started.
-/

namespace CrabbyProxy.Tunnel
open Execution
set_option autoImplicit false

variable {minPort maxPort : UInt16}

namespace TunnelHost

/-- The spawned listeners are those of the tunnels and the aborted ones. -/
structure Accounted (h : TunnelHost) : Prop where
  aborted : ∀ handle ∈ h.runtime.aborted, handle < h.runtime.spawned.length
  owned : ∀ handle task, h.runtime.spawned[handle]? = some task →
    handle ∈ h.runtime.aborted ∨ h.manager.tasks.lookup task.port = some [handle]
  running : ∀ port handle, h.manager.tasks.lookup port = some [handle] →
    handle ∉ h.runtime.aborted ∧
      (h.runtime.spawned[handle]?).map ListenerTask.port = some port

variable {h : TunnelHost}

theorem Accounted.of_new (hNew : new minPort maxPort = some h) : h.Accounted := by
  obtain ⟨allocator, _, rfl⟩ := Option.map_eq_some_iff.mp hNew
  exact ⟨by simp, by simp, by simp⟩

theorem Accounted.added (ha : h.Accounted) {allocator : PortAllocator} {port : UInt16}
    (hTasks : port ∉ h.manager.tasks) (serviceType : ServiceType) (clientAddr : SocketAddr) :
    (h.added allocator port serviceType clientAddr).Accounted where
  aborted handle hAborted := by
    have hLess := ha.aborted handle hAborted
    simp only [TunnelHost.added, List.length_append, List.length_singleton]
    exact Nat.lt_succ_of_lt hLess
  owned handle task hTask := by
    simp only [TunnelHost.added] at hTask ⊢
    rw [List.getElem?_append] at hTask
    split at hTask
    · refine (ha.owned handle task hTask).imp_right fun hOwned => ?_
      have hNe : task.port ≠ port := by
        rintro rfl
        exact hTasks (mem_of_lookup hOwned)
      rwa [AList.lookup_insert_ne hNe]
    · rename_i hLess
      rw [List.getElem?_singleton] at hTask
      split at hTask
      · rename_i hZero
        cases hTask
        obtain rfl : handle = h.runtime.spawned.length :=
          Nat.le_antisymm (Nat.sub_eq_zero_iff_le.mp hZero) (Nat.le_of_not_lt hLess)
        exact .inr (AList.lookup_insert _)
      · cases hTask
  running other handle hHandle := by
    simp only [TunnelHost.added] at hHandle ⊢
    by_cases hSame : other = port
    · subst hSame
      rw [AList.lookup_insert] at hHandle
      cases hHandle
      refine ⟨fun hAborted => Nat.lt_irrefl _ (ha.aborted _ hAborted), ?_⟩
      rw [List.getElem?_concat_length]
      rfl
    · rw [AList.lookup_insert_ne hSame] at hHandle
      obtain ⟨hFree, hPort⟩ := ha.running other handle hHandle
      obtain ⟨task, hTask, _⟩ := Option.map_eq_some_iff.mp hPort
      rw [List.getElem?_append_left (List.getElem?_eq_some_iff.mp hTask).1]
      exact ⟨hFree, hPort⟩

theorem Accounted.removed (ha : h.Accounted) {allocator : PortAllocator} {port : UInt16}
    {handle : JoinHandle} (hHandle : h.manager.tasks.lookup port = some [handle]) :
    (h.removed allocator port handle).Accounted where
  aborted other hAborted := by
    obtain hOld | hNew := List.mem_append.mp hAborted
    · exact ha.aborted other hOld
    · obtain rfl := List.mem_singleton.mp hNew
      obtain ⟨_, hPort⟩ := ha.running port other hHandle
      obtain ⟨task, hTask, _⟩ := Option.map_eq_some_iff.mp hPort
      exact (List.getElem?_eq_some_iff.mp hTask).1
  owned other task hTask := by
    simp only [TunnelHost.removed, List.mem_append, List.mem_singleton]
    obtain hAborted | hOwned := ha.owned other task hTask
    · exact .inl (.inl hAborted)
    · by_cases hSame : task.port = port
      · rw [hSame, hHandle] at hOwned
        cases hOwned
        exact .inl (.inr rfl)
      · exact .inr ((AList.lookup_erase_ne hSame).trans hOwned)
  running other task hTask := by
    have hOld := lookup_of_lookup_erase hTask
    obtain ⟨hFree, hPort⟩ := ha.running other task hOld
    refine ⟨?_, hPort⟩
    simp only [TunnelHost.removed, List.mem_append, List.mem_singleton, not_or]
    refine ⟨hFree, ?_⟩
    rintro rfl
    obtain ⟨_, hPort'⟩ := ha.running port task hHandle
    rw [hPort, Option.some.injEq] at hPort'
    exact (AList.mem_erase.mp (mem_of_lookup hTask)).1 hPort'

theorem Accounted.shutdown (ha : h.Accounted) (hc : h.Consistent minPort maxPort) :
    h.shutdown.Accounted where
  aborted handle hAborted := by
    obtain hOld | hNew := List.mem_append.mp hAborted
    · exact ha.aborted handle hOld
    · obtain ⟨⟨port, handles⟩, hEntry, hMem⟩ := List.mem_flatMap.mp hNew
      have hLookup := AList.mem_lookup_iff.mpr hEntry
      obtain ⟨only, rfl⟩ := hc.oneHandle port handles hLookup
      obtain rfl := List.mem_singleton.mp hMem
      obtain ⟨_, hPort⟩ := ha.running port handle hLookup
      obtain ⟨task, hTask, _⟩ := Option.map_eq_some_iff.mp hPort
      exact (List.getElem?_eq_some_iff.mp hTask).1
  owned handle task hTask := by
    refine .inl (List.mem_append.mpr ((ha.owned handle task hTask).imp_right fun hOwned => ?_))
    exact List.mem_flatMap.mpr ⟨_, AList.mem_lookup_iff.mp hOwned, List.mem_singleton_self _⟩
  running port handle hHandle := by cases hHandle

theorem Accounted.step (ha : h.Accounted) (hc : h.Consistent minPort maxPort) (op : TunnelOp) :
    (h.step op).2.Accounted := by
  cases op with
  | createReverseTunnel serviceType preferredPort clientAddr =>
    rw [TunnelHost.step]
    obtain ⟨port, allocator, _, hEq, _, _, _, hTasks, _⟩ | ⟨e, _, hEq, _⟩ :=
      hc.create_cases serviceType preferredPort clientAddr <;> rw [hEq]
    · exact ha.added hTasks serviceType clientAddr
    · exact ha
  | closeTunnel port =>
    rw [TunnelHost.step]
    obtain ⟨_, hEq⟩ | ⟨_, handle, allocator, hHandle, hEq, _⟩ := hc.close_cases port <;> rw [hEq]
    · exact ha
    · exact ha.removed hHandle
  | shutdown => exact ha.shutdown hc

/-- An operation spawns listeners and aborts them, and takes nothing back. -/
theorem Consistent.runtime_grows (hc : h.Consistent minPort maxPort) (op : TunnelOp) :
    h.runtime.spawned <+: (h.step op).2.runtime.spawned ∧
      h.runtime.aborted ⊆ (h.step op).2.runtime.aborted := by
  cases op with
  | createReverseTunnel serviceType preferredPort clientAddr =>
    rw [TunnelHost.step]
    obtain ⟨port, allocator, _, hEq, _⟩ | ⟨e, _, hEq, _⟩ :=
      hc.create_cases serviceType preferredPort clientAddr <;> rw [hEq]
    · exact ⟨List.prefix_append _ _, List.Subset.refl _⟩
    · exact ⟨List.prefix_rfl, List.Subset.refl _⟩
  | closeTunnel port =>
    rw [TunnelHost.step]
    obtain ⟨_, hEq⟩ | ⟨_, handle, allocator, _, hEq, _⟩ := hc.close_cases port <;> rw [hEq]
    · exact ⟨List.prefix_rfl, List.Subset.refl _⟩
    · exact ⟨List.prefix_rfl, List.subset_append_left _ _⟩
  | shutdown => exact ⟨List.prefix_rfl, List.subset_append_left _ _⟩

end TunnelHost

namespace TunnelWorld

structure Valid (minPort maxPort : UInt16) (w : TunnelWorld) : Prop where
  consistent : w.host.Consistent minPort maxPort
  accounted : w.host.Accounted
  unspawned : ∀ handle, w.host.runtime.spawned.length ≤ handle →
    w.listeners handle = ⟨.starting, false⟩

variable {w : TunnelWorld}

theorem Valid.of_new {h : TunnelHost} (hNew : TunnelHost.new minPort maxPort = some h) :
    (new h).Valid minPort maxPort :=
  ⟨(TunnelHost.Consistent.of_new hNew).1, .of_new hNew, fun _ _ => rfl⟩

theorem Valid.spawned_of_moves (hv : w.Valid minPort maxPort) {handle : JoinHandle}
    {listener : Listener} (hMoves : w.Moves handle listener) :
    handle < w.host.runtime.spawned.length := by
  cases hMoves with
  | poll _ _ _ hSpawned => exact hSpawned
  | bound task hTask | failed task hTask => exact (List.getElem?_eq_some_iff.mp hTask).1
  | suspend hRunning =>
    by_contra hLess
    rw [hv.unspawned handle (Nat.le_of_not_lt hLess)] at hRunning
    cases hRunning
  | dropped hAborted => exact hv.accounted.aborted handle hAborted

theorem Valid.step (hv : w.Valid minPort maxPort) (i : TunnelInput) :
    (w.step i).2.Valid minPort maxPort := by
  cases i with
  | manager op =>
    refine ⟨hv.consistent.step op, hv.accounted.step hv.consistent op, fun handle hLess => ?_⟩
    exact hv.unspawned handle
      ((hv.consistent.runtime_grows op).1.length_le.trans hLess)
  | task s =>
    rw [TunnelWorld.step]
    obtain ⟨hHost, hListeners⟩ := w.taskStep_cases s
    refine ⟨hHost ▸ hv.consistent, hHost ▸ hv.accounted, fun handle hLess => ?_⟩
    dsimp only at hLess ⊢
    rw [hHost] at hLess
    obtain hSame | ⟨moved, listener, hMoves, hSame⟩ := hListeners <;> rw [hSame]
    · exact hv.unspawned handle hLess
    · have hSpawned := hv.spawned_of_moves hMoves
      rw [Function.update_of_ne (Nat.ne_of_gt (Nat.lt_of_lt_of_le hSpawned hLess))]
      exact hv.unspawned handle hLess

theorem Valid.run {h : TunnelHost} (hNew : TunnelHost.new minPort maxPort = some h)
    (inputs : List TunnelInput) :
    (run TunnelWorld.step (new h) inputs).Valid minPort maxPort :=
  @Execution.invariant _ _ _ TunnelWorld.step (Valid minPort maxPort)
    (fun _ i hv => hv.step i) (new h) (.of_new hNew) inputs

end TunnelWorld

theorem size_localhost : #[(127 : UInt8), 0, 0, 1].size = 4 := rfl

def localhost : Ipv4Addr := ⟨⟨#[127, 0, 0, 1], size_localhost⟩⟩

end CrabbyProxy.Tunnel
