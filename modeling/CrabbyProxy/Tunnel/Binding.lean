import CrabbyProxy.Tunnel.Handles

/-!
# Binding the ports of the tunnels

A port is free for the allocator as soon as its tunnel is closed, and free for the
operating system when the runtime has dropped the listener. A bind that comes between
the two is refused, and a tunnel whose bind was refused stays recorded.
-/

namespace CrabbyProxy.Tunnel
open Execution
set_option autoImplicit false

variable {minPort maxPort : UInt16}

namespace TunnelWorld

/-- The listener holds its port, or can still come to hold it. -/
def Capable (w : TunnelWorld) (handle : JoinHandle) : Prop :=
  (w.listeners handle).stage = .listening ∨ (w.listeners handle).stage = .starting ∧
    ((w.listeners handle).running = true ∨ handle ∉ w.host.runtime.aborted)

/-- Each port has one such listener at most. -/
def Single (w : TunnelWorld) : Prop :=
  ∀ port first second, w.portOf first = some port → w.portOf second = some port →
    w.Capable first → w.Capable second → first = second

/-- A listener executes its bind while another one holds the port. -/
def Clashes (w : TunnelWorld) : TunnelInput → Prop
  | .task (.bind handle _) => w.listeners handle = ⟨.starting, true⟩ ∧
    ∃ port, w.portOf handle = some port ∧ w.PortHeld port
  | _ => False

/-- A created tunnel gets a port that no earlier listener holds or is about to bind. -/
def PortClear (w : TunnelWorld) : TunnelInput → Prop
  | .manager (.createReverseTunnel serviceType preferredPort clientAddr) => ∀ port,
    (w.host.createReverseTunnel serviceType preferredPort clientAddr).1 = .ok port →
      ∀ handle, w.portOf handle = some port →
        (w.listeners handle).stage ≠ .listening ∧ w.listeners handle ≠ ⟨.starting, true⟩
  | _ => True

variable {w : TunnelWorld}

theorem portOf_taskStep (s : TaskStep) (handle : JoinHandle) :
    (w.taskStep s).portOf handle = w.portOf handle := by
  rw [portOf, (w.taskStep_cases s).1]
  rfl

theorem capable_of_taskStep {s : TaskStep} {handle : JoinHandle}
    (h : (w.taskStep s).Capable handle) : w.Capable handle := by
  obtain ⟨hHost, hSame | ⟨moved, listener, hMoves, hSame⟩⟩ := w.taskStep_cases s <;>
    rw [Capable, hHost, hSame] at h
  · exact h
  by_cases hSelf : handle = moved
  · subst hSelf
    rw [Function.update_self] at h
    cases hMoves with
    | poll stage hStage hOpen hSpawned hFree =>
      obtain hListening | hStarting := h
      · exact .inl (hStage.trans hListening)
      · exact .inr ⟨hStage.trans hStarting.1, .inr hFree⟩
    | bound task hTask hStarting => exact .inr (by rw [hStarting]; exact ⟨rfl, .inl rfl⟩)
    | suspend hRunning => exact h.imp_right fun hStarting => ⟨hStarting.1, .inl hRunning⟩
    | failed | dropped => simp at h
  · rw [Function.update_of_ne hSelf] at h
    exact h

theorem Single.task_step (hs : w.Single) (s : TaskStep) : (w.taskStep s).Single := by
  intro port first second hFirst hSecond hCapable hCapable'
  rw [portOf_taskStep] at hFirst hSecond
  exact hs port first second hFirst hSecond (capable_of_taskStep hCapable)
    (capable_of_taskStep hCapable')

theorem Single.not_clashes (hs : w.Single) (i : TunnelInput) : ¬w.Clashes i := by
  intro hClash
  cases i with
  | manager op => exact hClash
  | task s =>
    cases s with
    | bind handle outsider =>
      obtain ⟨hStarting, port, hPort, other, _, hOther, hListening⟩ := hClash
      have hSame := hs port handle other hPort hOther
        (.inr (by rw [hStarting]; exact ⟨rfl, .inl rfl⟩)) (.inl hListening)
      rw [← hSame, hStarting] at hListening
      cases hListening
    | _ => exact hClash

/-- The state after a tunnel was created, listeners included. -/
theorem Valid.create_cases (hv : w.Valid minPort maxPort) (serviceType : ServiceType)
    (preferredPort : Option UInt16) (clientAddr : SocketAddr) :
    (∃ e, w.host.createReverseTunnel serviceType preferredPort clientAddr = (.error e, w.host)) ∨
    ∃ port host, w.host.createReverseTunnel serviceType preferredPort clientAddr =
        (.ok port, host) ∧ port ∉ w.host.manager.tasks ∧
      host.runtime.spawned = w.host.runtime.spawned ++ [⟨port, clientAddr⟩] ∧
      host.runtime.aborted = w.host.runtime.aborted := by
  obtain ⟨port, allocator, _, hEq, _, _, _, hTasks, _⟩ | ⟨e, _, hEq, _⟩ :=
    hv.consistent.create_cases serviceType preferredPort clientAddr
  · exact .inr ⟨port, _, hEq, hTasks, rfl, rfl⟩
  · exact .inl ⟨_, hEq⟩

theorem Single.manager_step (hs : w.Single) (hv : w.Valid minPort maxPort) (op : TunnelOp)
    (hClear : w.PortClear (.manager op)) : (w.step (.manager op)).2.Single := by
  -- An operation that spawns nothing can only take listeners out of play.
  have hFewer : (w.host.step op).2.runtime.spawned = w.host.runtime.spawned →
      (w.step (.manager op)).2.Single := by
    intro hSpawned port first second hFirst hSecond hCapable hCapable'
    rw [TunnelWorld.step, portOf, hSpawned] at hFirst hSecond
    have hAborted := (hv.consistent.runtime_grows op).2
    have hOld : ∀ handle, (w.step (.manager op)).2.Capable handle → w.Capable handle :=
      fun handle hNew => hNew.imp_right fun hStarting =>
        ⟨hStarting.1, hStarting.2.imp_right fun hFree hOld => hFree (hAborted hOld)⟩
    exact hs port first second hFirst hSecond (hOld _ hCapable) (hOld _ hCapable')
  cases op with
  | createReverseTunnel serviceType preferredPort clientAddr =>
    obtain ⟨e, hEq⟩ | ⟨created, host, hEq, hTasks, hSpawned, hAborted⟩ :=
      hv.create_cases serviceType preferredPort clientAddr
    · exact hFewer (by rw [TunnelHost.step, hEq])
    rw [PortClear, hEq] at hClear
    rw [TunnelWorld.step, TunnelHost.step, hEq]
    have hOld : ∀ handle port, ({ w with host := host } : TunnelWorld).portOf handle = some port →
        w.portOf handle = some port ∨
          handle = w.host.runtime.spawned.length ∧ port = created := by
      intro handle port hPort
      rw [portOf, hSpawned, List.getElem?_append] at hPort
      split at hPort
      · exact .inl hPort
      · rename_i hLess
        rw [List.getElem?_singleton] at hPort
        split at hPort
        · rename_i hZero
          refine .inr ⟨Nat.le_antisymm (Nat.sub_eq_zero_iff_le.mp hZero) (Nat.le_of_not_lt hLess), ?_⟩
          exact (Option.some.inj hPort).symm
        · cases hPort
    have hCapable : ∀ handle, ({ w with host := host } : TunnelWorld).Capable handle →
        w.Capable handle := by
      intro handle hNew
      rwa [Capable, hAborted] at hNew
    have hNone : ∀ handle, w.portOf handle = some created → ¬w.Capable handle := by
      intro handle hPort hHolds
      obtain ⟨hListening, hRunning⟩ := hClear created rfl handle hPort
      obtain hHolds | ⟨hStarting, hBusy | hFree⟩ := hHolds
      · exact hListening hHolds
      · exact hRunning (congrArg₂ Listener.mk hStarting hBusy)
      · obtain ⟨task, hTask, rfl⟩ := Option.map_eq_some_iff.mp hPort
        obtain hAborted | hOwned := hv.accounted.owned handle task hTask
        · exact hFree hAborted
        · exact hTasks (TunnelHost.mem_of_lookup hOwned)
    intro port first second hFirst hSecond hFirstCapable hSecondCapable
    have hFirstOld := hCapable _ hFirstCapable
    have hSecondOld := hCapable _ hSecondCapable
    obtain hFirst | ⟨rfl, rfl⟩ := hOld first port hFirst <;>
      obtain hSecond | ⟨hEnd, hPort⟩ := hOld second _ hSecond
    · exact hs port first second hFirst hSecond hFirstOld hSecondOld
    · exact absurd hFirstOld (hNone first (hPort ▸ hFirst))
    · exact absurd hSecondOld (hNone second hSecond)
    · exact hEnd.symm
  | closeTunnel port =>
    apply hFewer
    rw [TunnelHost.step]
    obtain ⟨_, hEq⟩ | ⟨_, handle, allocator, _, hEq, _⟩ := hv.consistent.close_cases port
    · rw [hEq]
    · rw [hEq]
      rfl
  | shutdown => exact hFewer rfl

theorem Single.of_new {h : TunnelHost} (hNew : TunnelHost.new minPort maxPort = some h) :
    (new h).Single := by
  obtain ⟨allocator, _, rfl⟩ := Option.map_eq_some_iff.mp hNew
  rintro port first second hFirst
  cases hFirst

/-- A new listener runs into one that already holds its port. -/
theorem clash_of_holds {port : UInt16} {fresh holder : JoinHandle}
    (hStarting : w.listeners fresh = ⟨.starting, false⟩) (hPort : w.portOf fresh = some port)
    (hFree : fresh ∉ w.host.runtime.aborted) (hHolds : w.Holds port holder) :
    ¬Along TunnelWorld.step (fun w i => ¬w.Clashes i) w
      ([TaskStep.poll fresh, .bind fresh false].map .task) := by
  obtain ⟨task, hTask, _⟩ := Option.map_eq_some_iff.mp hPort
  obtain ⟨other, hOther, _⟩ := Option.map_eq_some_iff.mp hHolds.1
  have hNe : holder ≠ fresh := by
    rintro rfl
    have hListening := hHolds.2
    rw [hStarting] at hListening
    cases hListening
  have hPoll : w.pollListener fresh = w.setListener fresh ⟨.starting, true⟩ := by
    rw [pollListener, hStarting]
    exact if_pos ⟨(List.getElem?_eq_some_iff.mp hTask).1, hFree, .inl rfl⟩
  rintro ⟨_, hBind, _⟩
  apply hBind
  rw [TunnelWorld.step, taskStep, hPoll]
  refine ⟨w.setListener_self _ _, port, hPort, holder, (List.getElem?_eq_some_iff.mp hOther).1,
    hHolds.1, ?_⟩
  rw [w.setListener_ne hNe]
  exact hHolds.2

theorem exists_clash_of_early {port : UInt16} {fresh handle : JoinHandle}
    (hStarting : w.listeners fresh = ⟨.starting, false⟩) (hPort : w.portOf fresh = some port)
    (hFree : fresh ∉ w.host.runtime.aborted) (hOld : w.portOf handle = some port)
    (hEarly : (w.listeners handle).stage = .listening ∨ w.listeners handle = ⟨.starting, true⟩) :
    ∃ schedule : List TaskStep, ¬Along TunnelWorld.step (fun w i => ¬w.Clashes i) w
      (schedule.map .task) := by
  obtain hListening | hRunning := hEarly
  · exact ⟨_, clash_of_holds hStarting hPort hFree ⟨hOld, hListening⟩⟩
  by_cases hHeld : w.PortHeld port
  · refine ⟨[.bind handle false], ?_⟩
    rintro ⟨hBind, _⟩
    exact hBind ⟨hRunning, port, hOld, hHeld⟩
  · have hBound : w.bindListener handle false = w.setListener handle ⟨.listening, true⟩ := by
      obtain ⟨task, hTask, rfl⟩ := Option.map_eq_some_iff.mp hOld
      rw [bindListener, hTask]
      dsimp only
      rw [if_neg (not_not.mpr hRunning), if_neg]
      simpa using hHeld
    have hNe : fresh ≠ handle := by
      rintro rfl
      rw [hStarting] at hRunning
      cases hRunning
    refine ⟨[.bind handle false, .poll fresh, .bind fresh false], ?_⟩
    rintro ⟨_, hRest⟩
    rw [TunnelWorld.step, taskStep, hBound] at hRest
    refine @clash_of_holds (w.setListener handle ⟨.listening, true⟩) port fresh handle ?_ hPort
      hFree ⟨hOld, ?_⟩ hRest
    · exact (w.setListener_ne hNe _).trans hStarting
    · rw [setListener_self]

/-- Reusing a port too early lets the tasks clash without any further operation. -/
theorem Valid.exists_clash (hv : w.Valid minPort maxPort) {op : TunnelOp}
    (hEarly : ¬w.PortClear (.manager op)) :
    ∃ schedule : List TaskStep, ¬Along TunnelWorld.step (fun w i => ¬w.Clashes i)
      (w.step (.manager op)).2 (schedule.map .task) := by
  cases op with
  | closeTunnel port => exact absurd trivial hEarly
  | shutdown => exact absurd trivial hEarly
  | createReverseTunnel serviceType preferredPort clientAddr =>
    rw [PortClear] at hEarly
    push Not at hEarly
    obtain ⟨port, hOk, handle, hPort, hHolds⟩ := hEarly
    obtain ⟨e, hEq⟩ | ⟨created, host, hEq, _, hSpawned, hAborted⟩ :=
      hv.create_cases serviceType preferredPort clientAddr <;> rw [hEq] at hOk
    · cases hOk
    obtain rfl : created = port := Except.ok.inj hOk
    obtain ⟨task, hTask, _⟩ := Option.map_eq_some_iff.mp hPort
    rw [TunnelWorld.step, TunnelHost.step, hEq]
    refine @exists_clash_of_early { w with host := host } created w.host.runtime.spawned.length
      handle (hv.unspawned _ (Nat.le_refl _)) ?_ ?_ ?_ (or_iff_not_imp_left.mpr hHolds)
    · rw [portOf, hSpawned, List.getElem?_concat_length]
      rfl
    · rw [hAborted]
      exact fun hMem => Nat.lt_irrefl _ (hv.accounted.aborted _ hMem)
    · rw [portOf, hSpawned, List.getElem?_append_left (List.getElem?_eq_some_iff.mp hTask).1]
      exact hPort

end TunnelWorld

open TunnelWorld

/-- When created tunnels get clear ports, no bind finds another listener on its port. The
condition is exact: a port that is reused too early lets the tasks run into a clash. -/
theorem released_port_free_iff {h₀ : TunnelHost}
    (hNew : TunnelHost.new minPort maxPort = some h₀) (inputs : List TunnelInput) :
    (Along step PortClear (.new h₀) inputs →
      Along step (fun w i => ¬w.Clashes i) (.new h₀) inputs) ∧
    (Along step PortClear (.new h₀) inputs ↔ ∀ before, before <+: inputs →
      ∀ schedule : List TaskStep, Along step (fun w i => ¬w.Clashes i)
        (run step (.new h₀) before) (schedule.map .task)) := by
  have hStep : ∀ (w : TunnelWorld) i, (w.Valid minPort maxPort ∧ w.Single) → w.PortClear i →
      (w.step i).2.Valid minPort maxPort ∧ (w.step i).2.Single := by
    rintro w i ⟨hv, hs⟩ hClear
    refine ⟨hv.step i, ?_⟩
    cases i with
    | manager op => exact hs.manager_step hv op hClear
    | task s => exact hs.task_step s
  have hImp : ∀ (w : TunnelWorld) i, (w.Valid minPort maxPort ∧ w.Single) → w.PortClear i →
      ¬w.Clashes i := fun w i hInv _ => hInv.2.not_clashes i
  have hStart : (new h₀).Valid minPort maxPort ∧ (new h₀).Single := ⟨.of_new hNew, .of_new hNew⟩
  refine ⟨fun hClear => hClear.imp hStep hImp hStart, ?_⟩
  constructor
  · rintro hClear before ⟨after, rfl⟩ schedule
    have hInv := invariant_along hStep hStart ((along_append _ _ _ before after).mp hClear).1
    refine Along.imp hStep hImp hInv (along_of_forall ?_ _)
    intro i hMem w
    obtain ⟨s, _, rfl⟩ := List.mem_map.mp hMem
    trivial
  · intro hQuiet
    induction inputs using List.reverseRecOn with
    | nil => trivial
    | append_singleton inputs i ih =>
      refine (along_append _ _ _ inputs [i]).mpr ⟨ih fun before hBefore => hQuiet before
        (hBefore.trans (List.prefix_append _ _)), ?_, trivial⟩
      cases i with
      | task s => trivial
      | manager op =>
        by_contra hEarly
        obtain ⟨schedule, hClash⟩ := (Valid.run hNew inputs).exists_clash hEarly
        apply hClash
        have hNext := hQuiet _ List.prefix_rfl schedule
        rwa [run_append] at hNext

/-- A tunnel that has its port. -/
def boundTunnel : List TunnelInput :=
  [.manager (.createReverseTunnel .webService (some 8000) (.v4 ⟨#v[127, 0, 0, 1]⟩ 80)),
    .task (.poll 0), .task (.bind 0 false)]

/-- The port of a closed tunnel is used again. -/
def reusedPort : List TunnelInput :=
  [.manager (.createReverseTunnel .sshService (some 8000) (.v4 ⟨#v[127, 0, 0, 1]⟩ 22)),
    .task (.poll 1), .task (.bind 1 false)]

theorem released_port_free_iff_dropped :
    ∃ h₀, TunnelHost.new 8000 8001 = some h₀ ∧
      Along step (fun w i => ¬w.Clashes i) (.new h₀) (boundTunnel ++
        [.manager (.closeTunnel 8000), .task (.suspend 0), .task (.drop 0)] ++ reusedPort) := by
  refine ⟨_, rfl, (@released_port_free_iff 8000 8001 _ rfl _).1
    ⟨?_, trivial, trivial, trivial, trivial, trivial, ?_, trivial, trivial, trivial⟩⟩
  · intro port _ handle hPort
    cases hPort
  · intro port _ handle hPort
    cases handle with
    | zero => exact ⟨by decide, by decide⟩
    | succ handle => cases hPort

/-- The listener of the closed tunnel has not been dropped when its port is bound again. -/
theorem released_port_still_held :
    ∃ h₀, TunnelHost.new 8000 8001 = some h₀ ∧
      ¬Along step (fun w i => ¬w.Clashes i) (.new h₀)
        (boundTunnel ++ [.manager (.closeTunnel 8000)] ++ reusedPort) ∧
      ((run step (.new h₀) (boundTunnel ++ [.manager (.closeTunnel 8000)] ++ reusedPort)).listeners
        1).stage = .bindFailed := by
  refine ⟨_, rfl, ?_, by decide⟩
  rintro ⟨_, _, _, _, _, _, hBind, _⟩
  exact hBind ⟨by decide, 8000, by decide, by decide⟩

end CrabbyProxy.Tunnel
