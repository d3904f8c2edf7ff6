import CrabbyProxy.Tunnel.FreeList

/-!
# Ports that nobody has had yet

Releases add to both ends of the free list, and a request for a port takes it from anywhere
in between. The ports that were never handed out keep their order.
-/

namespace CrabbyProxy.Tunnel
open Execution
set_option autoImplicit false

abbrev PortPast : Type := List (PortOp × PortAnswer)

/-- The ports that were handed out, as often as they were. -/
def handedOut (past : PortPast) : List UInt16 :=
  past.filterMap fun event => event.2.toOption.bind id

/-- Those of the ports that nobody has had yet. -/
def unused (past : PortPast) (ports : List UInt16) : List UInt16 :=
  ports.filter (· ∉ handedOut past)

section Unused

variable {past : PortPast} {op : PortOp} {port : UInt16}

theorem handedOut_append (past : PortPast) (op : PortOp) (answer : PortAnswer) :
    handedOut (past ++ [(op, answer)]) = handedOut past ++ (answer.toOption.bind id).toList := by
  rw [handedOut, List.filterMap_append, List.filterMap_cons]
  cases answer.toOption.bind id <;> rfl

theorem mem_handedOut_last (past : PortPast) (op : PortOp) (port : UInt16) :
    port ∈ handedOut (past ++ [(op, .ok (some port))]) := by
  rw [handedOut_append]
  exact List.mem_append_right _ List.mem_cons_self

theorem unused_ok (ports : List UInt16) : unused (past ++ [(op, .ok (some port))]) ports =
    (unused past ports).filter (· ≠ port) := by
  rw [unused, handedOut_append, unused, List.filter_filter]
  refine List.filter_congr fun other _ => ?_
  simp [Except.toOption, and_comm]

theorem unused_none {answer : PortAnswer} (h : answer.toOption.bind id = none)
    (ports : List UInt16) : unused (past ++ [(op, answer)]) ports = unused past ports := by
  rw [unused, handedOut_append, h, Option.toList_none, List.append_nil, unused]

theorem unused_used (h : port ∈ handedOut past) (before after : List UInt16) :
    unused past (before ++ port :: after) = unused past (before ++ after) := by
  rw [unused, unused, List.filter_append, List.filter_append, List.filter_cons_of_neg (by simpa)]

end Unused

namespace PortAllocator

/-- The unused ports of the free list are all there are, in ascending order. -/
structure InOrder (minPort maxPort : UInt16) (past : PortPast) (a : PortAllocator) : Prop where
  partitioned : a.Partitioned minPort maxPort
  taken : ∀ port ∈ a.allocatedPorts, port ∈ handedOut past
  order : unused past a.availablePorts = unused past (portRange minPort maxPort)

variable {minPort maxPort : UInt16} {past : PortPast} {a : PortAllocator} {op : PortOp}

theorem InOrder.error (h : a.InOrder minPort maxPort past) (op : PortOp) (e : PortAllocError) :
    a.InOrder minPort maxPort (past ++ [(op, .error e)]) where
  partitioned := h.partitioned
  taken port hTaken := by
    rw [handedOut_append]
    exact List.mem_append_left _ (h.taken port hTaken)
  order := by rw [unused_none rfl, unused_none rfl, h.order]

theorem InOrder.taken_insert (h : a.InOrder minPort maxPort past) {port other : UInt16}
    (hTaken : other ∈ insert port a.allocatedPorts) :
    other ∈ handedOut (past ++ [(op, .ok (some port))]) := by
  obtain rfl | hOld := Finset.mem_insert.mp hTaken
  · exact mem_handedOut_last past op other
  · rw [handedOut_append]
    exact List.mem_append_left _ (h.taken other hOld)

theorem InOrder.specific (h : a.InOrder minPort maxPort past) {port : UInt16}
    (hStep : a.step op = ((a.allocateSpecific port).1.map some, (a.allocateSpecific port).2)) :
    (a.step op).2.InOrder minPort maxPort (past ++ [(op, (a.step op).1)]) := by
  have hPartitioned := h.partitioned.step op
  rw [hStep] at hPartitioned ⊢
  obtain ⟨_, hEq⟩ | ⟨_, _, hEq⟩ | ⟨_, _, hEq⟩ := h.partitioned.allocateSpecific_cases port <;>
    rw [hEq] at hPartitioned ⊢
  · exact h.error op _
  · exact h.error op _
  · refine ⟨hPartitioned, fun other => h.taken_insert, ?_⟩
    simp only [Except.map]
    rw [unused_ok, unused_ok, ← h.order, unused, unused, List.filter_filter, List.filter_filter,
      List.filter_filter]
    refine List.filter_congr fun other _ => ?_
    cases decide (other ≠ port) <;> cases decide (other ∉ handedOut past) <;> rfl

theorem InOrder.any (h : a.InOrder minPort maxPort past)
    (hStep : a.step op = (a.allocateNext.1.map some, a.allocateNext.2)) :
    (a.step op).2.InOrder minPort maxPort (past ++ [(op, (a.step op).1)]) := by
  have hPartitioned := h.partitioned.step op
  rw [hStep] at hPartitioned ⊢
  obtain ⟨_, hEq⟩ | ⟨port, available, hAvailable, _, _, hEq⟩ := h.partitioned.allocateNext_cases <;>
    rw [hEq] at hPartitioned ⊢
  · exact h.error op _
  · refine ⟨hPartitioned, fun other => h.taken_insert, ?_⟩
    simp only [Except.map]
    have hFront := unused_used (mem_handedOut_last past op port) [] available
    rw [List.nil_append, List.nil_append, ← hAvailable] at hFront
    rw [← hFront, unused_ok, unused_ok, h.order]

theorem InOrder.release (h : a.InOrder minPort maxPort past) (port : UInt16) :
    (a.step (.releasePort port)).2.InOrder minPort maxPort
      (past ++ [(.releasePort port, (a.step (.releasePort port)).1)]) := by
  have hPartitioned := h.partitioned.step (.releasePort port)
  have hStep : a.step (.releasePort port) =
      ((a.releasePort port).1.map fun _ => none, (a.releasePort port).2) := rfl
  rw [hStep] at hPartitioned ⊢
  obtain ⟨_, hEq⟩ | ⟨hTaken, hEq⟩ := a.releasePort_cases port <;> rw [hEq] at hPartitioned ⊢
  · exact h.error _ _
  · refine ⟨hPartitioned, fun other hOther => ?_, ?_⟩
    · rw [handedOut_append]
      exact List.mem_append_left _ (h.taken other (Finset.mem_of_mem_erase hOther))
    · simp only [Except.map]
      rw [unused_none rfl, unused_none rfl, ← h.order]
      have hUsed := h.taken port hTaken
      split
      · exact unused_used hUsed [] _
      · have hLast := unused_used hUsed a.availablePorts []
        rwa [List.append_nil] at hLast

theorem InOrder.step (h : a.InOrder minPort maxPort past) (op : PortOp) :
    (a.step op).2.InOrder minPort maxPort (past ++ [(op, (a.step op).1)]) := by
  cases op with
  | allocatePort preferred =>
    cases preferred with
    | none => exact h.any rfl
    | some port => exact h.specific rfl
  | allocateSpecific port => exact h.specific rfl
  | allocateNext => exact h.any rfl
  | releasePort port => exact h.release port

theorem InOrder.of_new (hNew : new minPort maxPort = some a) : a.InOrder minPort maxPort [] := by
  obtain ⟨hPartitioned, hEmpty⟩ := Partitioned.of_new hNew
  refine ⟨hPartitioned, fun port hTaken => ?_, ?_⟩
  · rw [hEmpty] at hTaken
    exact absurd hTaken (Finset.notMem_empty port)
  · obtain ⟨_, rfl⟩ := new_eq_some_iff.mp hNew
    rfl

theorem InOrder.run (hNew : new minPort maxPort = some a) (ops : List PortOp) :
    (run PortAllocator.step a ops).InOrder minPort maxPort (history PortAllocator.step a ops) :=
  @invariant_history _ _ _ PortAllocator.step (fun _ => True) (fun _ _ _ => trivial)
    (InOrder minPort maxPort) (fun _ _ op _ h => h.step op) a [] (.of_new hNew) ops trivial

/-- A port that comes from the free list for the first time is the lowest unused one. -/
theorem InOrder.lowest (h : a.InOrder minPort maxPort past) {port : UInt16}
    (hOk : a.allocateNext.1 = .ok port) (hFresh : port ∉ handedOut past) {other : UInt16}
    (hRange : InRange minPort maxPort other) (hLower : other < port) : other ∈ handedOut past := by
  by_contra hUnused
  obtain ⟨_, hEq⟩ | ⟨front, available, hAvailable, _, _, hEq⟩ := h.partitioned.allocateNext_cases
  · rw [hEq] at hOk
    cases hOk
  · rw [hEq] at hOk
    obtain rfl := Except.ok.inj hOk
    have hOrder : unused past (portRange minPort maxPort) = front :: unused past available := by
      rw [← h.order, hAvailable, unused, List.filter_cons_of_pos (by simpa)]
      rfl
    have hMem : other ∈ unused past (portRange minPort maxPort) :=
      List.mem_filter.mpr ⟨mem_portRange.mpr hRange, by simpa⟩
    have hSorted : (unused past (portRange minPort maxPort)).Pairwise (· < ·) :=
      (sorted_portRange minPort maxPort).filter _
    rw [hOrder] at hMem hSorted
    obtain rfl | hLater := List.mem_cons.mp hMem
    · exact UInt16.lt_irrefl _ hLower
    · exact UInt16.lt_asymm hLower ((List.pairwise_cons.mp hSorted).1 other hLater)

end PortAllocator

/-- In every run, whatever was asked for and given back meanwhile, a port that is handed out
for the first time without having been asked for is the lowest that nobody has had yet. -/
theorem fresh_ports_ascend {minPort maxPort : UInt16} {a : PortAllocator}
    (hNew : PortAllocator.new minPort maxPort = some a) (ops : List PortOp) {port : UInt16}
    (hOk : (run PortAllocator.step a ops).allocateNext.1 = .ok port)
    (hFresh : port ∉ handedOut (history PortAllocator.step a ops)) {other : UInt16}
    (hRange : InRange minPort maxPort other) (hLower : other < port) :
    other ∈ handedOut (history PortAllocator.step a ops) :=
  (PortAllocator.InOrder.run hNew ops).lowest hOk hFresh hRange hLower

/-- The ports 8000 and 8002 come back, and 8001 was asked for, so 8003 follows 8000. -/
def givenBack : List PortOp :=
  [.allocateNext, .allocateSpecific 8002, .allocateSpecific 8001, .releasePort 8002,
    .releasePort 8000, .allocateNext]

theorem fresh_ports_ascend_givenBack : ∃ a, PortAllocator.new 8000 8004 = some a ∧
    (run PortAllocator.step a givenBack).allocateNext.1 = .ok 8003 ∧
    8002 ∈ handedOut (history PortAllocator.step a givenBack) :=
  ⟨_, rfl, by decide, @fresh_ports_ascend 8000 8004 _ rfl givenBack 8003 (by decide) (by decide) 8002
    (by decide) (by decide)⟩

end CrabbyProxy.Tunnel
