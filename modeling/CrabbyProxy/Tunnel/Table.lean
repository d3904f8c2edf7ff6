import CrabbyProxy.Tunnel.Isolation

/-!
# The manager as a table of tunnels

A client knows the manager by the tunnels that are open. Ports that were abandoned by a
shutdown are lost: they are neither open nor free.
-/

namespace CrabbyProxy.Tunnel
open Execution
set_option autoImplicit false

variable {minPort maxPort : UInt16}

structure TunnelTable where
  tunnels : UInt16 → Option ActiveTunnel
  lost : Set UInt16

namespace TunnelTable

def Taken (t : TunnelTable) (port : UInt16) : Prop := t.tunnels port ≠ none ∨ port ∈ t.lost

def opened (t : TunnelTable) (tunnel : ActiveTunnel) : TunnelTable :=
  { t with tunnels := Function.update t.tunnels tunnel.listenPort (some tunnel) }

def closed (t : TunnelTable) (port : UInt16) : TunnelTable :=
  { t with tunnels := Function.update t.tunnels port none }

def abandoned (t : TunnelTable) : TunnelTable := ⟨fun _ => none, { port | t.Taken port }⟩

end TunnelTable

/-- The abstract manager. It may choose any free port when none is asked for. -/
inductive TableNext (minPort maxPort : UInt16) :
    TunnelTable → TunnelOp → Except TunnelError (Option UInt16) → TunnelTable → Prop
  | opened {t : TunnelTable} {serviceType : ServiceType} {preferredPort : Option UInt16}
      {clientAddr : SocketAddr} {port : UInt16} (hAsked : ∀ p ∈ preferredPort, port = p)
      (hRange : InRange minPort maxPort port) (hFree : ¬t.Taken port) :
      TableNext minPort maxPort t (.createReverseTunnel serviceType preferredPort clientAddr)
        (.ok (some port)) (t.opened ⟨port, clientAddr, serviceType⟩)
  | outOfRange {t : TunnelTable} {serviceType : ServiceType} {clientAddr : SocketAddr}
      {port : UInt16} (hRange : ¬InRange minPort maxPort port) :
      TableNext minPort maxPort t (.createReverseTunnel serviceType (some port) clientAddr)
        (.error (.portOutOfRange port minPort maxPort)) t
  | inUse {t : TunnelTable} {serviceType : ServiceType} {clientAddr : SocketAddr}
      {port : UInt16} (hRange : InRange minPort maxPort port) (hTaken : t.Taken port) :
      TableNext minPort maxPort t (.createReverseTunnel serviceType (some port) clientAddr)
        (.error (.portInUse port)) t
  | exhausted {t : TunnelTable} {serviceType : ServiceType} {clientAddr : SocketAddr}
      (hFull : ∀ port, InRange minPort maxPort port → t.Taken port) :
      TableNext minPort maxPort t (.createReverseTunnel serviceType none clientAddr)
        (.error (.noPortsAvailable minPort maxPort)) t
  | closed {t : TunnelTable} {port : UInt16} (hOpen : t.tunnels port ≠ none) :
      TableNext minPort maxPort t (.closeTunnel port) (.ok none) (t.closed port)
  | notFound {t : TunnelTable} {port : UInt16} (hNone : t.tunnels port = none) :
      TableNext minPort maxPort t (.closeTunnel port) (.error (.tunnelNotFound port)) t
  | abandoned {t : TunnelTable} : TableNext minPort maxPort t .shutdown (.ok none) t.abandoned

namespace TunnelHost

def table (h : TunnelHost) : TunnelTable where
  tunnels := h.manager.activeTunnels.lookup
  lost := { port | port ∈ h.manager.portAllocator.allocatedPorts ∧
    port ∉ h.manager.activeTunnels }

variable {h : TunnelHost} {port : UInt16}

theorem table_tunnels : h.table.tunnels port ≠ none ↔ port ∈ h.manager.activeTunnels := by
  rw [← AList.lookup_isSome, Option.isSome_iff_ne_none]
  rfl

theorem Consistent.taken_iff (hc : h.Consistent minPort maxPort) :
    h.table.Taken port ↔ port ∈ h.manager.portAllocator.allocatedPorts := by
  rw [TunnelTable.Taken, table_tunnels]
  constructor
  · rintro (hOpen | hLost)
    · exact hc.allocated port hOpen
    · exact hLost.1
  · intro hTaken
    by_cases hOpen : port ∈ h.manager.activeTunnels
    · exact .inl hOpen
    · exact .inr ⟨hTaken, hOpen⟩

theorem table_added {allocator : PortAllocator}
    (hInsert : allocator.allocatedPorts = insert port h.manager.portAllocator.allocatedPorts)
    (hFree : port ∉ h.manager.portAllocator.allocatedPorts) (serviceType : ServiceType)
    (clientAddr : SocketAddr) : (h.added allocator port serviceType clientAddr).table =
      h.table.opened ⟨port, clientAddr, serviceType⟩ := by
  rw [table, added, TunnelTable.opened, table]
  congr 1
  · funext other
    by_cases hSame : other = port
    · subst hSame
      rw [AList.lookup_insert, Function.update_self]
    · rw [AList.lookup_insert_ne hSame, Function.update_of_ne hSame]
  · ext other
    by_cases hSame : other = port
    · subst hSame
      simp [hFree]
    · simp [hInsert, hSame]

theorem table_removed {allocator : PortAllocator} {handle : JoinHandle}
    (hErase : allocator.allocatedPorts = h.manager.portAllocator.allocatedPorts.erase port)
    (hOpen : port ∈ h.manager.activeTunnels) :
    (h.removed allocator port handle).table = h.table.closed port := by
  rw [table, removed, TunnelTable.closed, table]
  congr 1
  · funext other
    by_cases hSame : other = port
    · subst hSame
      rw [AList.lookup_erase, Function.update_self]
    · rw [AList.lookup_erase_ne hSame, Function.update_of_ne hSame]
  · ext other
    by_cases hSame : other = port
    · subst hSame
      simp [hErase, hOpen]
    · simp [hErase, hSame, AList.mem_erase]

theorem Consistent.table_shutdown (hc : h.Consistent minPort maxPort) :
    h.shutdown.table = h.table.abandoned := by
  rw [TunnelTable.abandoned, table, TunnelHost.shutdown]
  congr 1
  ext other
  rw [Set.mem_ofPred_eq, Set.mem_ofPred_eq, hc.taken_iff]
  exact and_iff_left (AList.notMem_empty other)

/-- The allocator decides about a new tunnel, and it is a set of taken ports. -/
theorem Consistent.table_create (hc : h.Consistent minPort maxPort) (serviceType : ServiceType)
    (preferredPort : Option UInt16) (clientAddr : SocketAddr) :
    TableNext minPort maxPort h.table (.createReverseTunnel serviceType preferredPort clientAddr)
      ((h.createReverseTunnel serviceType preferredPort clientAddr).1.map some)
      (h.createReverseTunnel serviceType preferredPort clientAddr).2.table := by
  have hNext := hc.partitioned.step_next (.allocatePort preferredPort)
  rw [PortAllocator.step] at hNext
  obtain ⟨port, allocator, hAllocate, hEq, _, hFree, _, _, hInsert⟩ | ⟨e, hAllocate, hEq, _⟩ :=
    hc.create_cases serviceType preferredPort clientAddr <;> rw [hEq] <;> rw [hAllocate] at hNext
  · rw [table_added hInsert hFree]
    have hOpen := mt hc.taken_iff.mp hFree
    generalize allocator.allocatedPorts = taken at hNext
    cases hNext with
    | taken hOp hRange _ =>
      cases preferredPort with
      | none => cases hOp
      | some p =>
        obtain rfl : p = port := PortRequest.specific.inj hOp
        exact .opened (fun q hq => Option.some.inj hq) hRange hOpen
    | chosen hOp hRange _ =>
      cases preferredPort with
      | none => exact .opened nofun hRange hOpen
      | some p => cases hOp
  · cases hNext with
    | outOfRange hOp hRange =>
      cases preferredPort with
      | none => cases hOp
      | some p =>
        cases hOp
        exact .outOfRange hRange
    | unavailable hOp hRange hTaken =>
      cases preferredPort with
      | none => cases hOp
      | some p =>
        cases hOp
        exact .inUse hRange (hc.taken_iff.mpr hTaken)
    | exhausted hOp hFull =>
      cases preferredPort with
      | none => exact .exhausted fun port hRange => hc.taken_iff.mpr (hFull port hRange)
      | some p => cases hOp
    | notAllocated hOp _ => cases preferredPort <;> cases hOp

theorem Consistent.table_next (hc : h.Consistent minPort maxPort) (op : TunnelOp) :
    TableNext minPort maxPort h.table op (h.step op).1 (h.step op).2.table := by
  cases op with
  | createReverseTunnel serviceType preferredPort clientAddr =>
    exact hc.table_create serviceType preferredPort clientAddr
  | closeTunnel port =>
    rw [TunnelHost.step]
    obtain ⟨hNone, hEq⟩ | ⟨hOpen, handle, allocator, _, hEq, _, hErase⟩ := hc.close_cases port <;>
      rw [hEq]
    · exact .notFound (not_not.mp fun hOpen => hNone (table_tunnels.mp hOpen))
    · rw [table_removed hErase hOpen]
      exact .closed (table_tunnels.mpr hOpen)
  | shutdown =>
    rw [TunnelHost.step, hc.table_shutdown]
    exact .abandoned

theorem Consistent.explains (hc : h.Consistent minPort maxPort) (ops : List TunnelOp) :
    Explains (TableNext minPort maxPort) h.table (history TunnelHost.step h ops)
      (Execution.run TunnelHost.step h ops).table :=
  refines table (fun _ op hc => Consistent.step hc op) (fun _ op hc => hc.table_next op) hc ops

end TunnelHost

/-- What a call means for one port. -/
inductive PortEvent where
  | opened
  | closed
  | abandoned
  deriving DecidableEq

def portEvent (port : UInt16) :
    TunnelOp × Except TunnelError (Option UInt16) → Option PortEvent
  | (.createReverseTunnel _ _ _, .ok created) => if created = some port then some .opened else none
  | (.closeTunnel closed, .ok _) => if closed = port then some .closed else none
  | (.shutdown, _) => some .abandoned
  | _ => none

inductive PortState where
  | free
  | held
  | lost
  deriving DecidableEq

/-- The life of a port. It is opened when free and closed when held, and a port that is held
at a shutdown never comes back. -/
def PortState.next : PortState → PortEvent → Option PortState
  | .free, .opened => some .held
  | .held, .closed => some .free
  | .held, .abandoned | .lost, .abandoned => some .lost
  | .free, .abandoned => some .free
  | _, _ => none

def PortState.after (s : PortState) (events : List PortEvent) : Option PortState :=
  events.foldlM PortState.next s

namespace TunnelTable

variable {t t' : TunnelTable} {port : UInt16}

open Classical in
noncomputable def portState (t : TunnelTable) (port : UInt16) : PortState :=
  if t.tunnels port ≠ none then .held else if port ∈ t.lost then .lost else .free

/-- An open tunnel is not lost. -/
def Sound (t : TunnelTable) : Prop := ∀ port ∈ t.lost, t.tunnels port = none

theorem portState_held (hOpen : t.tunnels port ≠ none) : t.portState port = .held := if_pos hOpen

theorem portState_lost (hNone : t.tunnels port = none) (hLost : port ∈ t.lost) :
    t.portState port = .lost := by
  rw [portState, if_neg (not_not.mpr hNone), if_pos hLost]

theorem portState_free (hFree : ¬t.Taken port) : t.portState port = .free := by
  obtain ⟨hNone, hKept⟩ := not_or.mp hFree
  rw [portState, if_neg hNone, if_neg hKept]

theorem portState_congr (hTunnels : t'.tunnels port = t.tunnels port)
    (hLost : port ∈ t'.lost ↔ port ∈ t.lost) : t'.portState port = t.portState port := by
  by_cases hOpen : t.tunnels port = none
  · by_cases hGone : port ∈ t.lost
    · rw [portState_lost hOpen hGone, portState_lost (hTunnels.trans hOpen) (hLost.mpr hGone)]
    · rw [portState_free (not_or.mpr ⟨not_not.mpr hOpen, hGone⟩), portState_free]
      exact not_or.mpr ⟨not_not.mpr (hTunnels.trans hOpen), mt hLost.mp hGone⟩
  · rw [portState_held hOpen, portState_held (hTunnels ▸ hOpen)]

end TunnelTable

open TunnelTable

/-- A call moves every port along its life. -/
theorem TableNext.portState {t t' : TunnelTable} {op : TunnelOp}
    {answer : Except TunnelError (Option UInt16)} (h : TableNext minPort maxPort t op answer t')
    (hSound : t.Sound) (port : UInt16) : t'.Sound ∧
      (t.portState port).after (portEvent port (op, answer)).toList = some (t'.portState port) := by
  cases h with
  | outOfRange | inUse | exhausted | notFound => exact ⟨hSound, rfl⟩
  | @opened serviceType preferredPort clientAddr created hAsked hRange hFree =>
    have hElsewhere : ∀ other, other ≠ created →
        (t.opened ⟨created, clientAddr, serviceType⟩).tunnels other = t.tunnels other :=
      fun other hNe => Function.update_of_ne hNe _ _
    constructor
    · intro other hLost
      by_cases hSame : other = created
      · exact absurd (.inr (hSame ▸ hLost)) hFree
      · rw [hElsewhere other hSame]
        exact hSound other hLost
    · by_cases hSame : port = created
      · subst hSame
        have hTunnel : (t.opened ⟨port, clientAddr, serviceType⟩).tunnels port = some _ :=
          Function.update_self _ _ _
        have hOpen : (t.opened ⟨port, clientAddr, serviceType⟩).tunnels port ≠ none := by
          rw [hTunnel]
          nofun
        rw [portState_free hFree, portState_held hOpen, portEvent, if_pos rfl]
        rfl
      · have hOther : ¬some created = some port := fun hEq => hSame (Option.some.inj hEq).symm
        rw [portState_congr (hElsewhere port hSame) Iff.rfl, portEvent, if_neg hOther]
        rfl
  | @closed closed hOpen =>
    have hElsewhere : ∀ other, other ≠ closed →
        (t.closed closed).tunnels other = t.tunnels other :=
      fun other hNe => Function.update_of_ne hNe _ _
    have hClosed : (t.closed closed).tunnels closed = none := Function.update_self _ _ _
    constructor
    · intro other hLost
      by_cases hSame : other = closed
      · rw [hSame]
        exact hClosed
      · rw [hElsewhere other hSame]
        exact hSound other hLost
    · by_cases hSame : port = closed
      · subst hSame
        have hKept : port ∉ t.lost := fun hLost => hOpen (hSound port hLost)
        rw [portState_held hOpen, portState_free (not_or.mpr ⟨not_not.mpr hClosed, hKept⟩),
          portEvent, if_pos rfl]
        rfl
      · rw [portState_congr (hElsewhere port hSame) Iff.rfl, portEvent, if_neg (Ne.symm hSame)]
        rfl
  | abandoned =>
    refine ⟨fun _ _ => rfl, ?_⟩
    by_cases hTaken : t.Taken port
    · rw [@portState_lost t.abandoned port rfl hTaken]
      obtain hOpen | hLost := hTaken
      · rw [portState_held hOpen]
        rfl
      · rw [portState_lost (hSound port hLost) hLost]
        rfl
    · rw [portState_free hTaken, portState_free (not_or.mpr ⟨not_not.mpr rfl, hTaken⟩)]
      rfl

theorem PortState.after_append (s : PortState) (first second : List PortEvent) :
    s.after (first ++ second) = (s.after first).bind (·.after second) := List.foldlM_append

theorem portState_of_explains {t t' : TunnelTable}
    {past : List (TunnelOp × Except TunnelError (Option UInt16))}
    (h : Explains (TableNext minPort maxPort) t past t') (hSound : t.Sound) (port : UInt16) :
    (t.portState port).after (past.filterMap (portEvent port)) = some (t'.portState port) := by
  induction h with
  | nil => rfl
  | @cons t t₁ t₂ op answer rest hNext hRest ih =>
    obtain ⟨hSound', hStep⟩ := hNext.portState hSound port
    have hCons : ((op, answer) :: rest).filterMap (portEvent port) =
        (portEvent port (op, answer)).toList ++ rest.filterMap (portEvent port) := by
      rw [List.filterMap_cons]
      cases portEvent port (op, answer) <;> rfl
    rw [hCons, PortState.after_append, hStep]
    exact ih hSound'

def TunnelTable.new : TunnelTable := ⟨fun _ => none, ∅⟩

theorem TunnelHost.table_of_new {h₀ : TunnelHost} (hNew : TunnelHost.new minPort maxPort = some h₀) :
    h₀.table = .new := by
  obtain ⟨allocator, hAllocator, rfl⟩ := Option.map_eq_some_iff.mp hNew
  rw [table, TunnelTable.new]
  congr 1
  ext port
  simp [(PortAllocator.Partitioned.of_new hAllocator).2]

/-- Over every run the manager is a table of tunnels: it opens a tunnel whenever the port that
was asked for, or any at all, is neither open nor lost, and its errors say what is wrong. -/
theorem manager_refines_table {h₀ : TunnelHost} (hNew : TunnelHost.new minPort maxPort = some h₀)
    (ops : List TunnelOp) :
    Explains (TableNext minPort maxPort) .new (history TunnelHost.step h₀ ops)
      (run TunnelHost.step h₀ ops).table := by
  rw [← TunnelHost.table_of_new hNew]
  exact (TunnelHost.Consistent.of_new hNew).1.explains ops

/-- One port is opened, closed and opened again, and the shutdown abandons it. -/
def twiceOpened : List TunnelOp :=
  [.createReverseTunnel .webService none (.v4 ⟨.replicate 4 127⟩ 80), .closeTunnel 8000,
    .createReverseTunnel .sshService (some 8000) (.v4 ⟨.replicate 4 127⟩ 22), .shutdown,
    .createReverseTunnel .sshService (some 8000) (.v4 ⟨.replicate 4 127⟩ 22)]

theorem manager_refines_table_twiceOpened :
    ∃ h₀, TunnelHost.new 8000 8001 = some h₀ ∧
      Explains (TableNext 8000 8001) .new (history TunnelHost.step h₀ twiceOpened)
        (run TunnelHost.step h₀ twiceOpened).table :=
  ⟨_, rfl, manager_refines_table rfl _⟩

/-- In every run each port is opened and closed in turn, and is not opened again once a
shutdown has found it open. -/
theorem port_lives {h₀ : TunnelHost} (hNew : TunnelHost.new minPort maxPort = some h₀)
    (ops : List TunnelOp) (port : UInt16) :
    PortState.free.after ((history TunnelHost.step h₀ ops).filterMap (portEvent port)) =
      some ((run TunnelHost.step h₀ ops).table.portState port) := by
  have hSound : TunnelTable.new.Sound := fun _ _ => rfl
  have hFree : TunnelTable.new.portState port = .free :=
    portState_free (not_or.mpr ⟨not_not.mpr rfl, Set.notMem_empty port⟩)
  have hExplains := (TunnelHost.Consistent.of_new hNew).1.explains ops
  rw [TunnelHost.table_of_new hNew] at hExplains
  rw [← hFree]
  exact portState_of_explains hExplains hSound port

theorem port_lives_twiceOpened :
    ∃ h₀, TunnelHost.new 8000 8001 = some h₀ ∧
      (run TunnelHost.step h₀ twiceOpened).table.portState 8000 = .lost :=
  ⟨_, rfl, Option.some.inj ((@port_lives 8000 8001 _ rfl twiceOpened 8000).symm.trans (by decide))⟩

/-- The calls that were answered with a port. -/
def created (past : List (TunnelOp × Except TunnelError (Option UInt16))) : Nat :=
  past.countP fun event => event.2 matches .ok (some _)

def isClose : TunnelOp × Except TunnelError (Option UInt16) → Bool
  | (.closeTunnel _, .ok _) => true
  | _ => false

/-- The closes that succeeded. -/
def closedAgain (past : List (TunnelOp × Except TunnelError (Option UInt16))) : Nat :=
  past.countP isClose

namespace TunnelHost

variable {h : TunnelHost}

theorem Consistent.counts_step (hc : h.Consistent minPort maxPort) (op : TunnelOp) :
    created [(op, (h.step op).1)] + h.manager.portAllocator.allocatedCount =
      closedAgain [(op, (h.step op).1)] + (h.step op).2.manager.portAllocator.allocatedCount := by
  cases op with
  | createReverseTunnel serviceType preferredPort clientAddr =>
    rw [TunnelHost.step]
    obtain ⟨port, allocator, _, hEq, _, hFree, _, _, hInsert⟩ | ⟨e, _, hEq, _⟩ :=
      hc.create_cases serviceType preferredPort clientAddr <;> rw [hEq]
    · have hCard := Finset.card_insert_of_notMem hFree
      rw [← hInsert] at hCard
      show 1 + h.manager.portAllocator.allocatedCount = 0 + allocator.allocatedPorts.card
      rw [hCard, PortAllocator.allocatedCount]
      omega
    · rfl
  | closeTunnel port =>
    rw [TunnelHost.step]
    obtain ⟨_, hEq⟩ | ⟨hOpen, handle, allocator, _, hEq, _, hErase⟩ := hc.close_cases port <;>
      rw [hEq]
    · rfl
    · have hCard := Finset.card_erase_add_one (hc.allocated port hOpen)
      rw [← hErase] at hCard
      show 0 + h.manager.portAllocator.allocatedPorts.card = 1 + allocator.allocatedPorts.card
      omega
  | shutdown => rfl

theorem Consistent.counts (hc : h.Consistent minPort maxPort) (ops : List TunnelOp) :
    created (history TunnelHost.step h ops) + h.manager.portAllocator.allocatedCount =
      closedAgain (history TunnelHost.step h ops) +
        (Execution.run TunnelHost.step h ops).manager.portAllocator.allocatedCount := by
  induction ops generalizing h with
  | nil => rfl
  | cons op ops ih =>
    have hStep := hc.counts_step op
    have hRest := ih (hc.step op)
    have hCons : history TunnelHost.step h (op :: ops) =
        [(op, (h.step op).1)] ++ history TunnelHost.step (h.step op).2 ops := rfl
    rw [created, closedAgain] at hStep hRest ⊢
    rw [hCons, List.countP_append, List.countP_append, Execution.run]
    omega

theorem Consistent.create_none_iff (hc : h.Consistent minPort maxPort) (serviceType : ServiceType)
    (clientAddr : SocketAddr) :
    (∃ port, (h.createReverseTunnel serviceType none clientAddr).1 = .ok port) ↔
      0 < h.manager.portAllocator.availableCount := by
  rw [PortAllocator.availableCount, List.length_pos_iff]
  obtain ⟨port, allocator, hAllocate, hEq, _⟩ | ⟨e, hAllocate, hEq, _⟩ :=
    hc.create_cases serviceType none clientAddr <;> rw [hEq] <;>
    rw [PortAllocator.allocatePort, PortAllocator.allocateNext] at hAllocate
  · refine iff_of_true ⟨port, rfl⟩ fun hEmpty => ?_
    rw [hEmpty] at hAllocate
    cases hAllocate
  · refine iff_of_false (fun ⟨port, hOk⟩ => nomatch hOk) fun hSome => ?_
    cases hQueue : h.manager.portAllocator.availablePorts with
    | nil => exact hSome hQueue
    | cons port available =>
      rw [hQueue] at hAllocate
      cases hAllocate

end TunnelHost

/-- In every run the ports that were handed out are those that were closed again and those that
still count as allocated, so a tunnel on any port is refused exactly when the balance has
reached the size of the range. A shutdown gives nothing back. -/
theorem capacity_law {h₀ : TunnelHost} (hNew : TunnelHost.new minPort maxPort = some h₀)
    (ops : List TunnelOp) :
    created (history TunnelHost.step h₀ ops) = closedAgain (history TunnelHost.step h₀ ops) +
        (run TunnelHost.step h₀ ops).manager.portAllocator.allocatedCount ∧
      ∀ serviceType clientAddr,
        (∃ port, ((run TunnelHost.step h₀ ops).createReverseTunnel serviceType none
          clientAddr).1 = .ok port) ↔
        created (history TunnelHost.step h₀ ops) <
          closedAgain (history TunnelHost.step h₀ ops) + (maxPort.toNat - minPort.toNat + 1) := by
  obtain ⟨hc, hEmpty⟩ := TunnelHost.Consistent.of_new hNew
  have hBalance := hc.counts ops
  have hNone : h₀.manager.portAllocator.allocatedCount = 0 := by
    rw [PortAllocator.allocatedCount, hEmpty, Finset.card_empty]
  obtain ⟨allocator, hAllocator, _⟩ := Option.map_eq_some_iff.mp hNew
  have hRange := (PortAllocator.new_eq_some_iff.mp hAllocator).1.2
  have hRun := TunnelHost.Consistent.run hNew ops
  have hSplit := hRun.partitioned.counts hRange
  refine ⟨by omega, fun serviceType clientAddr => ?_⟩
  rw [hRun.create_none_iff]
  omega

/-- The second port is the last one: what the shutdown abandoned stays allocated. -/
theorem capacity_law_twiceOpened :
    ∃ h₀, TunnelHost.new 8000 8001 = some h₀ ∧
      ∃ port, ((run TunnelHost.step h₀ twiceOpened).createReverseTunnel .webService none
        (.v4 ⟨#v[127, 0, 0, 1]⟩ 80)).1 = .ok port :=
  ⟨_, rfl, ((@capacity_law 8000 8001 _ rfl twiceOpened).2 _ _).mpr (by decide)⟩

end CrabbyProxy.Tunnel
