import CrabbyProxy.Tunnel.Consistency

/-!
# Ports that belong to no tunnel

`shutdown` clears the tunnels and their handles but releases no port. A port
leaks exactly when a tunnel is still active at that moment, and from then on it
can be neither created nor closed.
-/

namespace CrabbyProxy.Tunnel
open Execution
set_option autoImplicit false

variable {minPort maxPort : UInt16}

namespace TunnelHost

/-- Every allocated port is the port of an active tunnel. -/
def NoLeak (h : TunnelHost) : Prop :=
  ∀ port ∈ h.manager.portAllocator.allocatedPorts, port ∈ h.manager.activeTunnels

/-- A shutdown finds no active tunnel; the other operations are not restricted. -/
def ShutsDownIdle (h : TunnelHost) (op : TunnelOp) : Prop :=
  op = .shutdown → h.manager.activeTunnels = ∅

variable {h : TunnelHost}

theorem eq_empty_of_forall_notMem {table : AList fun _ : UInt16 => ActiveTunnel}
    (hNone : ∀ port, port ∉ table) : table = ∅ := by
  apply AList.ext
  rw [AList.empty_entries, List.eq_nil_iff_forall_not_mem]
  intro entry hEntry
  exact hNone entry.1 (AList.mem_keys.mpr (List.mem_map_of_mem hEntry))

theorem Consistent.noLeak_step_iff (hc : h.Consistent minPort maxPort) (hLeak : h.NoLeak)
    (op : TunnelOp) : (h.step op).2.NoLeak ↔ h.ShutsDownIdle op := by
  cases op with
  | createReverseTunnel serviceType preferredPort clientAddr =>
    refine iff_of_true ?_ (by rintro ⟨⟩)
    show (h.createReverseTunnel serviceType preferredPort clientAddr).2.NoLeak
    obtain ⟨port, allocator, _, hEq, _, _, _, _, hInsert⟩ | ⟨e, _, hEq, _⟩ :=
      hc.create_cases serviceType preferredPort clientAddr <;> rw [hEq]
    · intro other hOther
      simp only [TunnelHost.added, hInsert, Finset.mem_insert, AList.mem_insert] at hOther ⊢
      exact hOther.imp_right (hLeak other)
    · exact hLeak
  | closeTunnel port =>
    refine iff_of_true ?_ (by rintro ⟨⟩)
    show (h.closeTunnel port).2.NoLeak
    obtain ⟨_, hEq⟩ | ⟨_, handle, allocator, _, hEq, _, hErase⟩ := hc.close_cases port <;> rw [hEq]
    · exact hLeak
    · intro other hOther
      simp only [TunnelHost.removed, hErase, Finset.mem_erase, AList.mem_erase] at hOther ⊢
      exact ⟨hOther.1, hLeak other hOther.2⟩
  | shutdown =>
    constructor
    · intro hNext _
      apply eq_empty_of_forall_notMem
      intro port hPort
      exact AList.notMem_empty port (hNext port (hc.allocated port hPort))
    · intro hIdle port hPort
      have hActive := hLeak port hPort
      rw [hIdle rfl] at hActive
      exact absurd hActive (AList.notMem_empty port)

theorem NoLeak.of_new (hNew : new minPort maxPort = some h) : h.NoLeak := by
  intro port hPort
  rw [(Consistent.of_new hNew).2] at hPort
  exact absurd hPort (Finset.notMem_empty port)

/-- A run is free of leaks at every point exactly when its shutdowns find no tunnel. -/
theorem noLeak_along_iff {h₀ : TunnelHost} (hNew : new minPort maxPort = some h₀)
    (ops : List TunnelOp) :
    Along TunnelHost.step ShutsDownIdle h₀ ops ↔
      ∀ before, before <+: ops → (run TunnelHost.step h₀ before).NoLeak := by
  have hStep : ∀ (s : TunnelHost) op, s.Consistent minPort maxPort →
      (s.step op).2.Consistent minPort maxPort := fun s op hc => hc.step op
  have hGuard : ∀ (s : TunnelHost) op, s.Consistent minPort maxPort → s.NoLeak →
      ((s.step op).2.NoLeak ↔ s.ShutsDownIdle op) := fun s op hc hLeak =>
    hc.noLeak_step_iff hLeak op
  exact (Execution.prefixes_iff_along hStep hGuard (Consistent.of_new hNew).1 (.of_new hNew) ops).symm

theorem Consistent.create_some_iff (hc : h.Consistent minPort maxPort) (serviceType : ServiceType)
    (clientAddr : SocketAddr) {port : UInt16} (hRange : InRange minPort maxPort port) :
    (h.createReverseTunnel serviceType (some port) clientAddr).1 = .ok port ↔
      port ∉ h.manager.portAllocator.allocatedPorts := by
  have hAnswer : (h.manager.portAllocator.allocatePort (some port)).1 = .ok port ↔
      port ∉ h.manager.portAllocator.allocatedPorts :=
    (hc.partitioned.answersTaken.specific_ok port).trans (and_iff_right hRange)
  obtain ⟨created, allocator, hAllocate, hEq, _⟩ | ⟨e, hAllocate, hEq, _⟩ :=
    hc.create_cases serviceType (some port) clientAddr <;> rw [hEq, ← hAnswer, hAllocate]
  · constructor <;> rintro ⟨⟩ <;> rfl
  · constructor <;> rintro ⟨⟩

end TunnelHost

open TunnelHost

/-- No port leaks along a run exactly when each shutdown finds no active tunnel.
After a further shutdown the whole range can be created again exactly when that
one finds none either. -/
theorem no_port_leak_iff {h₀ : TunnelHost} (hNew : TunnelHost.new minPort maxPort = some h₀)
    (ops : List TunnelOp) :
    (Along step ShutsDownIdle h₀ ops ↔
      ∀ before, before <+: ops → (run step h₀ before).NoLeak) ∧
    (Along step ShutsDownIdle h₀ ops →
      ((run step h₀ ops).ShutsDownIdle .shutdown ↔
        ∀ serviceType clientAddr port, InRange minPort maxPort port →
          ((run step h₀ (ops ++ [.shutdown])).createReverseTunnel serviceType (some port)
            clientAddr).1 = .ok port)) := by
  refine ⟨noLeak_along_iff hNew ops, fun hAlong => ?_⟩
  have hc := Consistent.run hNew (ops ++ [.shutdown])
  have hBefore := Consistent.run hNew ops
  have hLeak := (noLeak_along_iff hNew ops).mp hAlong ops List.prefix_rfl
  rw [← hBefore.noLeak_step_iff hLeak .shutdown]
  have hRun : run step h₀ (ops ++ [.shutdown]) = ((run step h₀ ops).step .shutdown).2 :=
    run_append _ _ _ _
  rw [← hRun]
  constructor
  · intro hNext serviceType clientAddr port hRange
    rw [hc.create_some_iff serviceType clientAddr hRange]
    intro hPort
    have hActive := hNext port hPort
    rw [hRun] at hActive
    exact AList.notMem_empty port hActive
  · intro hAll port hPort
    have hFree := (hc.create_some_iff .webService (.v4 ⟨#v[0, 0, 0, 0]⟩ 0)
      (hc.partitioned.inRange hPort)).mp (hAll _ _ port (hc.partitioned.inRange hPort))
    exact absurd hPort hFree

theorem no_port_leak_iff_closed_first :
    ∃ h₀, TunnelHost.new 8000 8001 = some h₀ ∧
      ∀ before, before <+: [TunnelOp.createReverseTunnel .webService none
          (.v4 ⟨#v[127, 0, 0, 1]⟩ 80), .closeTunnel 8000, .shutdown] →
        (run step h₀ before).NoLeak := by
  obtain ⟨h₀, hNew⟩ : ∃ h₀, TunnelHost.new 8000 8001 = some h₀ := ⟨_, rfl⟩
  refine ⟨h₀, hNew, (no_port_leak_iff hNew _).1.mp ⟨nofun, nofun, fun _ => ?_, trivial⟩⟩
  obtain rfl := Option.some.inj hNew
  rfl

/-- One tunnel and a shutdown: its port is still allocated, belongs to no tunnel
and cannot be created again. -/
theorem shutdown_leaks_port :
    ∃ h₀, TunnelHost.new 8000 8001 = some h₀ ∧
      ¬(∀ ops, (run step h₀ ops).NoLeak) ∧
      ((run step h₀ [.createReverseTunnel .webService none (.v4 ⟨#v[127, 0, 0, 1]⟩ 80),
        .shutdown]).createReverseTunnel .webService (some 8000)
          (.v4 ⟨#v[127, 0, 0, 1]⟩ 80)).1 = .error (.portInUse 8000) := by
  refine ⟨_, rfl, ?_, by decide⟩
  intro hAll
  have hLeak := hAll [.createReverseTunnel .webService none (.v4 ⟨#v[127, 0, 0, 1]⟩ 80),
    .shutdown] 8000 (by decide)
  exact AList.notMem_empty _ hLeak

end CrabbyProxy.Tunnel
