import CrabbyProxy.Tunnel.AllocatorRuns

/-!
# The order of the free list

Only a release adds to the free list. The cursor decides at which of its two ends.
-/

namespace CrabbyProxy.Tunnel
open Execution
set_option autoImplicit false

variable {minPort maxPort : UInt16}

theorem sorted_portRange (minPort maxPort : UInt16) :
    (portRange minPort maxPort).Pairwise (· < ·) := by
  rw [portRange, List.pairwise_map]
  have hRange := List.pairwise_lt_range' (s := minPort.toNat) (n := maxPort.toNat + 1 - minPort.toNat)
  refine hRange.imp_of_mem ?_
  intro m n hm hn hLt
  have hMax := maxPort.toNat_lt
  rw [List.mem_range'_1] at hm hn
  rwa [UInt16.lt_iff_toNat_lt, UInt16.toNat_ofNat_of_lt' (by simp only [UInt16.size]; omega),
    UInt16.toNat_ofNat_of_lt' (by simp only [UInt16.size]; omega)]

namespace PortAllocator

def Sorted (a : PortAllocator) : Prop := a.availablePorts.Pairwise (· < ·)

def Free (a : PortAllocator) (port : UInt16) : Prop :=
  InRange a.minPort a.maxPort port ∧ port ∉ a.allocatedPorts

/-- A taken port is given back below the cursor only if it is below every free port, and
otherwise only if it is above every free port. -/
def ReleasesInOrder (a : PortAllocator) : PortOp → Prop
  | .releasePort port => port ∈ a.allocatedPorts → ∀ other, a.Free other →
      if port < a.nextPort then port < other else other < port
  | _ => True

/-- Without a preference the lowest free port is taken. -/
def LowestFirst (a : PortAllocator) : Prop :=
  ∀ port, a.allocateNext.1 = .ok port → a.Free port ∧ ∀ other, a.Free other → port ≤ other

variable {a : PortAllocator}

theorem Partitioned.mem_iff_free (h : a.Partitioned minPort maxPort) (port : UInt16) :
    port ∈ a.availablePorts ↔ a.Free port := by
  rw [h.mem_available_iff, Free, h.min_eq, h.max_eq]

theorem Partitioned.lowestFirst (h : a.Partitioned minPort maxPort) (hSorted : a.Sorted) :
    a.LowestFirst := by
  intro port hOk
  unfold PortAllocator.allocateNext at hOk
  cases hAvailable : a.availablePorts with
  | nil =>
    rw [hAvailable] at hOk
    cases hOk
  | cons front available =>
    rw [hAvailable] at hOk
    cases hOk
    rw [Sorted, hAvailable, List.pairwise_cons] at hSorted
    constructor
    · rw [← h.mem_iff_free, hAvailable]
      exact List.mem_cons_self
    · intro other hOther
      rw [← h.mem_iff_free, hAvailable, List.mem_cons] at hOther
      obtain rfl | hOther := hOther
      · exact UInt16.le_refl _
      · exact UInt16.le_of_lt (hSorted.1 other hOther)

theorem Sorted.of_new (hNew : new minPort maxPort = some a) : a.Sorted := by
  obtain ⟨_, rfl⟩ := new_eq_some_iff.mp hNew
  exact sorted_portRange minPort maxPort

theorem Sorted.allocateSpecific (h : a.Sorted) (port : UInt16) :
    (a.allocateSpecific port).2.Sorted := by
  unfold PortAllocator.allocateSpecific
  split
  · exact h
  · split
    · exact h
    · exact h.filter _

theorem Sorted.allocateNext (h : a.Sorted) : a.allocateNext.2.Sorted := by
  unfold PortAllocator.allocateNext
  cases hAvailable : a.availablePorts with
  | nil => exact h
  | cons port available =>
    rw [Sorted, hAvailable] at h
    exact h.of_cons

theorem Partitioned.sorted_releasePort_iff (h : a.Partitioned minPort maxPort)
    (hSorted : a.Sorted) (port : UInt16) :
    (a.releasePort port).2.Sorted ↔ a.ReleasesInOrder (.releasePort port) := by
  simp only [ReleasesInOrder, ← h.mem_iff_free]
  obtain ⟨hFree, hEq⟩ | ⟨hTaken, hEq⟩ := a.releasePort_cases port
  · rw [hEq]
    exact iff_of_true hSorted fun hTaken => absurd hTaken hFree
  · rw [hEq, Sorted, forall_prop_of_true hTaken]
    dsimp only
    split
    · rw [List.pairwise_cons]
      exact and_iff_left hSorted
    · rw [List.pairwise_append]
      have hRest : a.availablePorts.Pairwise (· < ·) := hSorted
      simp [hRest]

theorem Partitioned.sorted_step_iff (h : a.Partitioned minPort maxPort) (hSorted : a.Sorted)
    (op : PortOp) : (a.step op).2.Sorted ↔ a.ReleasesInOrder op := by
  cases op with
  | allocatePort preferred =>
    cases preferred with
    | none => exact iff_of_true hSorted.allocateNext trivial
    | some port => exact iff_of_true (hSorted.allocateSpecific port) trivial
  | allocateSpecific port => exact iff_of_true (hSorted.allocateSpecific port) trivial
  | allocateNext => exact iff_of_true hSorted.allocateNext trivial
  | releasePort port => exact h.sorted_releasePort_iff hSorted port

end PortAllocator

open PortAllocator

/-- The free list is sorted at every point of a run, and the lowest free port the next one,
exactly when each release finds the cursor on the right side. -/
theorem freeList_sorted_iff {a₀ : PortAllocator}
    (hNew : PortAllocator.new minPort maxPort = some a₀) (ops : List PortOp) :
    (∀ before, before <+: ops →
      (run step a₀ before).Sorted ∧ (run step a₀ before).LowestFirst) ↔
      Along step ReleasesInOrder a₀ ops := by
  have hInit := (Partitioned.of_new hNew).1
  have hStep : ∀ (s : PortAllocator) op, s.Partitioned minPort maxPort →
      (s.step op).2.Partitioned minPort maxPort := fun s op h => h.step op
  rw [← prefixes_iff_along hStep (fun s op h hSorted => h.sorted_step_iff hSorted op) hInit
    (Sorted.of_new hNew)]
  refine forall₂_congr fun before _ => and_iff_left_of_imp ?_
  exact (Execution.invariant hStep hInit before).lowestFirst

/-- Ports go back in the opposite order. -/
theorem freeList_sorted_iff_last_first :
    ∃ a₀, PortAllocator.new 8000 8004 = some a₀ ∧ ∀ before,
      before <+: [.allocateNext, .allocateNext, .releasePort 8001, .releasePort 8000] →
        (run step a₀ before).Sorted ∧ (run step a₀ before).LowestFirst := by
  refine ⟨_, rfl, (@freeList_sorted_iff 8000 8004 _ rfl _).mpr
    ⟨trivial, trivial, ?_, ?_, trivial⟩⟩
  · rintro _ other ⟨⟨hLow, _⟩, hFree⟩
    have hFirst : other ≠ 8000 := by
      rintro rfl
      exact hFree (by decide)
    have hSecond : other ≠ 8001 := by
      rintro rfl
      exact hFree (by decide)
    have hRange : 8000 ≤ other := hLow
    show 8001 < other
    grind
  · rintro _ other ⟨⟨hLow, _⟩, hFree⟩
    have hFirst : other ≠ 8000 := by
      rintro rfl
      exact hFree (by decide)
    have hRange : 8000 ≤ other := hLow
    show 8000 < other
    grind

/-- Ports go back in the order in which they were taken. -/
theorem freeList_unsorted :
    ∃ a₀, PortAllocator.new 8000 8004 = some a₀ ∧
      let a := run step a₀ [.allocateNext, .allocateNext, .allocateNext, .releasePort 8000,
        .releasePort 8001]
      a.availablePorts = [8001, 8000, 8003, 8004] ∧ a.allocateNext.1 = .ok 8001 ∧ ¬a.Sorted ∧
        ¬a.LowestFirst := by
  refine ⟨_, rfl, by decide, by decide, ?_, ?_⟩
  · rw [Sorted]
    decide
  · intro hLowest
    have hLe := (hLowest 8001 rfl).2 8000 ⟨by decide, by decide⟩
    exact absurd hLe (by decide)

end CrabbyProxy.Tunnel
