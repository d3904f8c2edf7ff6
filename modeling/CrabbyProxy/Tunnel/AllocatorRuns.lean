import CrabbyProxy.Tunnel.TakenPorts

/-!
# Runs of the allocator

Each operation answers as the set of taken ports does, and the partition keeps
every run there. A failed operation leaves the allocator as it was.
-/

namespace CrabbyProxy.Tunnel
open Execution
set_option autoImplicit false

namespace PortAllocator

variable {minPort maxPort : UInt16} {a : PortAllocator}

theorem Partitioned.specific_next (h : a.Partitioned minPort maxPort) {op : PortOp}
    {port : UInt16} (hOp : op.request = .specific port)
    (hStep : a.step op = ((a.allocateSpecific port).1.map some, (a.allocateSpecific port).2)) :
    TakenNext minPort maxPort a.allocatedPorts op (a.step op).1 (a.step op).2.allocatedPorts := by
  rw [hStep]
  obtain ⟨hRange, hEq⟩ | ⟨hRange, hTaken, hEq⟩ | ⟨hRange, hFree, hEq⟩ :=
    h.allocateSpecific_cases port <;> rw [hEq]
  · exact .outOfRange hOp hRange
  · exact .unavailable hOp hRange hTaken
  · exact .taken hOp hRange hFree

theorem Partitioned.any_next (h : a.Partitioned minPort maxPort) {op : PortOp}
    (hOp : op.request = .any) (hStep : a.step op = (a.allocateNext.1.map some, a.allocateNext.2)) :
    TakenNext minPort maxPort a.allocatedPorts op (a.step op).1 (a.step op).2.allocatedPorts := by
  rw [hStep]
  obtain ⟨hFull, hEq⟩ | ⟨port, available, _, hRange, hFree, hEq⟩ := h.allocateNext_cases <;> rw [hEq]
  · exact .exhausted hOp hFull
  · exact .chosen hOp hRange hFree

theorem Partitioned.step_next (h : a.Partitioned minPort maxPort) (op : PortOp) :
    TakenNext minPort maxPort a.allocatedPorts op (a.step op).1 (a.step op).2.allocatedPorts := by
  cases op with
  | allocatePort preferred =>
    cases preferred with
    | none => exact h.any_next rfl rfl
    | some port => exact h.specific_next rfl rfl
  | allocateSpecific port => exact h.specific_next rfl rfl
  | allocateNext => exact h.any_next rfl rfl
  | releasePort port =>
    have hStep : a.step (.releasePort port) =
        ((a.releasePort port).1.map fun _ => none, (a.releasePort port).2) := rfl
    rw [hStep]
    obtain ⟨hFree, hEq⟩ | ⟨hTaken, hEq⟩ := a.releasePort_cases port <;> rw [hEq]
    · exact .notAllocated rfl hFree
    · exact .released rfl hTaken

theorem allocateSpecific_unchanged (a : PortAllocator) {port : UInt16} {e : PortAllocError}
    (h : (a.allocateSpecific port).1 = .error e) : (a.allocateSpecific port).2 = a := by
  unfold allocateSpecific at h ⊢
  split_ifs at h ⊢
  · rfl
  · rfl

theorem allocateNext_unchanged (a : PortAllocator) {e : PortAllocError}
    (h : a.allocateNext.1 = .error e) : a.allocateNext.2 = a := by
  unfold allocateNext at h ⊢
  cases hAvailable : a.availablePorts with
  | nil => rfl
  | cons port available =>
    rw [hAvailable] at h
    cases h

theorem releasePort_unchanged (a : PortAllocator) {port : UInt16} {e : PortAllocError}
    (h : (a.releasePort port).1 = .error e) : (a.releasePort port).2 = a := by
  unfold releasePort at h ⊢
  split_ifs at h ⊢
  rfl

theorem map_eq_error {ε α β : Type} {f : α → β} {x : Except ε α} {e : ε}
    (h : x.map f = .error e) : x = .error e := by
  cases x with
  | error e' => exact congrArg Except.error (Except.error.inj h)
  | ok v => cases h

theorem allocatePort_unchanged (a : PortAllocator) {preferred : Option UInt16}
    {e : PortAllocError} (h : (a.allocatePort preferred).1 = .error e) :
    (a.allocatePort preferred).2 = a := by
  cases preferred with
  | none => exact a.allocateNext_unchanged h
  | some port => exact a.allocateSpecific_unchanged h

theorem step_unchanged (a : PortAllocator) {op : PortOp} {e : PortAllocError}
    (h : (a.step op).1 = .error e) : (a.step op).2 = a := by
  cases op with
  | allocatePort preferred => exact a.allocatePort_unchanged (map_eq_error h)
  | allocateSpecific port => exact a.allocateSpecific_unchanged (map_eq_error h)
  | allocateNext => exact a.allocateNext_unchanged (map_eq_error h)
  | releasePort port => exact a.releasePort_unchanged (map_eq_error h)

/-- The whole range, as a value of the abstract state. -/
def wholeRange (minPort maxPort : UInt16) : Finset UInt16 := (portRange minPort maxPort).toFinset

theorem mem_wholeRange {port : UInt16} :
    port ∈ wholeRange minPort maxPort ↔ InRange minPort maxPort port := by
  rw [wholeRange, List.mem_toFinset, mem_portRange, InRange]

theorem Partitioned.full_iff (h : a.Partitioned minPort maxPort) :
    a.allocatedPorts = wholeRange minPort maxPort ↔
      ∀ port, InRange minPort maxPort port → port ∈ a.allocatedPorts := by
  constructor
  · intro hEq port hRange
    rw [hEq]
    exact mem_wholeRange.mpr hRange
  · intro hFull
    ext port
    rw [mem_wholeRange]
    exact ⟨h.inRange, hFull port⟩

/-- The answers of the operations, read against the set of allocated ports. -/
structure AnswersTaken (minPort maxPort : UInt16) (a : PortAllocator) : Prop where
  specific_ok : ∀ port, (a.allocateSpecific port).1 = .ok port ↔
    InRange minPort maxPort port ∧ port ∉ a.allocatedPorts
  specific_outOfRange : ∀ port,
    (a.allocateSpecific port).1 = .error (.portOutOfRange port minPort maxPort) ↔
      ¬InRange minPort maxPort port
  specific_unavailable : ∀ port,
    (a.allocateSpecific port).1 = .error (.portUnavailable port) ↔
      InRange minPort maxPort port ∧ port ∈ a.allocatedPorts
  next_ok : (∃ port, a.allocateNext.1 = .ok port) ↔
    a.allocatedPorts ≠ wholeRange minPort maxPort
  next_free : ∀ port, a.allocateNext.1 = .ok port →
    InRange minPort maxPort port ∧ port ∉ a.allocatedPorts
  next_exhausted : a.allocateNext.1 = .error (.noPortsAvailable minPort maxPort) ↔
    a.allocatedPorts = wholeRange minPort maxPort
  release_ok : ∀ port, (a.releasePort port).1 = .ok () ↔ port ∈ a.allocatedPorts
  allocated : ∀ op port, (a.step op).1 = .ok (some port) →
    port ∉ a.allocatedPorts ∧ (a.step op).2.allocatedPorts = insert port a.allocatedPorts
  released : ∀ port, (a.releasePort port).1 = .ok () →
    (a.releasePort port).2.allocatedPorts = a.allocatedPorts.erase port
  failed : ∀ op e, (a.step op).1 = .error e → (a.step op).2 = a

theorem Partitioned.answersTaken (h : a.Partitioned minPort maxPort) :
    a.AnswersTaken minPort maxPort where
  specific_ok port := by
    obtain ⟨hRange, hEq⟩ | ⟨hRange, hTaken, hEq⟩ | ⟨hRange, hFree, hEq⟩ :=
      h.allocateSpecific_cases port <;> simp_all
  specific_outOfRange port := by
    obtain ⟨hRange, hEq⟩ | ⟨hRange, hTaken, hEq⟩ | ⟨hRange, hFree, hEq⟩ :=
      h.allocateSpecific_cases port <;> simp_all
  specific_unavailable port := by
    obtain ⟨hRange, hEq⟩ | ⟨hRange, hTaken, hEq⟩ | ⟨hRange, hFree, hEq⟩ :=
      h.allocateSpecific_cases port <;> simp_all
  next_ok := by
    rw [ne_eq, h.full_iff]
    obtain ⟨hFull, hEq⟩ | ⟨port, _, _, hRange, hFree, hEq⟩ := h.allocateNext_cases
    · simpa [hEq] using hFull
    · rw [hEq]
      exact ⟨fun _ hFull => hFree (hFull port hRange), fun _ => ⟨port, rfl⟩⟩
  next_free port hOk := by
    obtain ⟨_, hEq⟩ | ⟨front, _, _, hRange, hFree, hEq⟩ := h.allocateNext_cases
    · rw [hEq] at hOk
      cases hOk
    · rw [hEq] at hOk
      cases hOk
      exact ⟨hRange, hFree⟩
  next_exhausted := by
    rw [h.full_iff]
    obtain ⟨hFull, hEq⟩ | ⟨port, _, _, hRange, hFree, hEq⟩ := h.allocateNext_cases
    · simpa [hEq] using hFull
    · rw [hEq]
      exact ⟨fun hError => (nomatch hError), fun hFull => absurd (hFull port hRange) hFree⟩
  release_ok port := by
    obtain ⟨hFree, hEq⟩ | ⟨hTaken, hEq⟩ := a.releasePort_cases port <;> simp [*]
  allocated op port hOk := by
    have hNext := h.step_next op
    rw [hOk] at hNext
    generalize (a.step op).2.allocatedPorts = taken at hNext ⊢
    cases hNext with
    | taken _ _ hFree | chosen _ _ hFree => exact ⟨hFree, rfl⟩
  released port hOk := by
    obtain ⟨hFree, hEq⟩ | ⟨hTaken, hEq⟩ := a.releasePort_cases port <;> rw [hEq] at hOk ⊢
    cases hOk
  failed _ _ := a.step_unchanged

theorem Partitioned.counts (h : a.Partitioned minPort maxPort) (hLe : minPort ≤ maxPort) :
    a.availableCount + a.allocatedCount = maxPort.toNat - minPort.toNat + 1 := by
  have hDisjoint : Disjoint a.availablePorts.toFinset a.allocatedPorts := by
    rw [Finset.disjoint_left]
    exact fun port hPort => h.disjoint port (List.mem_toFinset.mp hPort)
  have hUnion : a.availablePorts.toFinset ∪ a.allocatedPorts = wholeRange minPort maxPort := by
    ext port
    rw [Finset.mem_union, List.mem_toFinset, h.cover, mem_wholeRange]
  rw [UInt16.le_iff_toNat_le] at hLe
  calc
    a.availableCount + a.allocatedCount
      = a.availablePorts.toFinset.card + a.allocatedPorts.card := by
        rw [List.toFinset_card_of_nodup h.nodup]
        rfl
    _ = (wholeRange minPort maxPort).card := by rw [← hUnion, Finset.card_union_of_disjoint hDisjoint]
    _ = maxPort.toNat + 1 - minPort.toNat := by
        rw [wholeRange, List.toFinset_card_of_nodup (nodup_portRange _ _), length_portRange]
    _ = maxPort.toNat - minPort.toNat + 1 := by omega

end PortAllocator

open PortAllocator

/-- Over any run from `new`, the allocator is a set of taken ports. -/
theorem portAllocator_refines_takenSet {minPort maxPort : UInt16} {a₀ : PortAllocator}
    (hNew : PortAllocator.new minPort maxPort = some a₀) (ops : List PortOp) :
    (run step a₀ ops).Partitioned minPort maxPort ∧
    (∀ port ∈ (run step a₀ ops).availablePorts, port ≠ maxPort → port.toNat + 1 < 2 ^ 16) ∧
    (run step a₀ ops).AnswersTaken minPort maxPort ∧
    (run step a₀ ops).availableCount + (run step a₀ ops).allocatedCount =
      maxPort.toNat - minPort.toNat + 1 ∧
    Explains (TakenNext minPort maxPort) ∅ (history step a₀ ops)
      (run step a₀ ops).allocatedPorts := by
  obtain ⟨hInit, hEmpty⟩ := Partitioned.of_new hNew
  obtain ⟨⟨_, hLe⟩, _⟩ := new_eq_some_iff.mp hNew
  have hStep : ∀ (s : PortAllocator) op, s.Partitioned minPort maxPort →
      (s.step op).2.Partitioned minPort maxPort := fun s op h => h.step op
  have hRun := Execution.invariant hStep hInit ops
  refine ⟨hRun, ?_, hRun.answersTaken, hRun.counts hLe, ?_⟩
  · intro port hPort hTop
    exact (InRange.succ ((hRun.mem_available_iff port).mp hPort).1 hTop).1
  · rw [← hEmpty]
    exact Execution.refines allocatedPorts hStep (fun s op h => h.step_next op) hInit ops

theorem portAllocator_refines_takenSet_two_ports :
    (run step ⟨8000, 8001, ∅, [8000, 8001], 8000⟩
      [.allocateNext, .allocatePort (some 8001), .allocateNext, .releasePort 8000,
        .releasePort 9000]).Partitioned 8000 8001 :=
  (portAllocator_refines_takenSet (by decide) _).1

end CrabbyProxy.Tunnel
