import CrabbyProxy.Library.Execution
import CrabbyProxy.Tunnel.PortAllocator

/-!
# The allocator as a set of taken ports

The queue of available ports, the set of allocated ones and the cursor keep one
invariant: queue and set partition the range. Under it the allocator refines a
machine whose only state is the set of taken ports, and which may choose any
free port when none is asked for.
-/

namespace CrabbyProxy.Tunnel
open Execution
set_option autoImplicit false

inductive PortOp where
  | allocatePort (preferred : Option UInt16)
  | allocateSpecific (port : UInt16)
  | allocateNext
  | releasePort (port : UInt16)
  deriving DecidableEq

/-- An allocation answers with its port, a release without one. -/
abbrev PortAnswer := Except PortAllocError (Option UInt16)

def PortAllocator.step (a : PortAllocator) : PortOp → PortAnswer × PortAllocator
  | .allocatePort preferred =>
    ((a.allocatePort preferred).1.map some, (a.allocatePort preferred).2)
  | .allocateSpecific port =>
    ((a.allocateSpecific port).1.map some, (a.allocateSpecific port).2)
  | .allocateNext => (a.allocateNext.1.map some, a.allocateNext.2)
  | .releasePort port => ((a.releasePort port).1.map fun _ => none, (a.releasePort port).2)

/-- What an operation wants of the set of taken ports. -/
inductive PortRequest where
  | specific (port : UInt16)
  | any
  | release (port : UInt16)

def PortOp.request : PortOp → PortRequest
  | .allocatePort (some port) | .allocateSpecific port => .specific port
  | .allocatePort none | .allocateNext => .any
  | .releasePort port => .release port

def InRange (minPort maxPort port : UInt16) : Prop := minPort ≤ port ∧ port ≤ maxPort

instance (minPort maxPort port : UInt16) : Decidable (InRange minPort maxPort port) :=
  inferInstanceAs (Decidable (_ ∧ _))

/-- The abstract machine. Its state is the set of taken ports of the range. -/
inductive TakenNext (minPort maxPort : UInt16) :
    Finset UInt16 → PortOp → PortAnswer → Finset UInt16 → Prop
  | taken {A : Finset UInt16} {op : PortOp} {port : UInt16} (hOp : op.request = .specific port)
      (hRange : InRange minPort maxPort port) (hFree : port ∉ A) :
      TakenNext minPort maxPort A op (.ok (some port)) (insert port A)
  | outOfRange {A : Finset UInt16} {op : PortOp} {port : UInt16}
      (hOp : op.request = .specific port) (hRange : ¬InRange minPort maxPort port) :
      TakenNext minPort maxPort A op (.error (.portOutOfRange port minPort maxPort)) A
  | unavailable {A : Finset UInt16} {op : PortOp} {port : UInt16}
      (hOp : op.request = .specific port) (hRange : InRange minPort maxPort port)
      (hTaken : port ∈ A) : TakenNext minPort maxPort A op (.error (.portUnavailable port)) A
  | chosen {A : Finset UInt16} {op : PortOp} {port : UInt16} (hOp : op.request = .any)
      (hRange : InRange minPort maxPort port) (hFree : port ∉ A) :
      TakenNext minPort maxPort A op (.ok (some port)) (insert port A)
  | exhausted {A : Finset UInt16} {op : PortOp} (hOp : op.request = .any)
      (hFull : ∀ port, InRange minPort maxPort port → port ∈ A) :
      TakenNext minPort maxPort A op (.error (.noPortsAvailable minPort maxPort)) A
  | released {A : Finset UInt16} {op : PortOp} {port : UInt16}
      (hOp : op.request = .release port) (hTaken : port ∈ A) :
      TakenNext minPort maxPort A op (.ok none) (A.erase port)
  | notAllocated {A : Finset UInt16} {op : PortOp} {port : UInt16}
      (hOp : op.request = .release port) (hFree : port ∉ A) :
      TakenNext minPort maxPort A op (.error (.portNotAllocated port)) A

namespace PortAllocator

/-- Queue and set partition the range, and the cursor stays inside it. -/
structure Partitioned (minPort maxPort : UInt16) (a : PortAllocator) : Prop where
  min_eq : a.minPort = minPort
  max_eq : a.maxPort = maxPort
  nodup : a.availablePorts.Nodup
  disjoint : ∀ port ∈ a.availablePorts, port ∉ a.allocatedPorts
  cover : ∀ port, port ∈ a.availablePorts ∨ port ∈ a.allocatedPorts ↔
    InRange minPort maxPort port
  cursor : InRange minPort maxPort a.nextPort

variable {minPort maxPort : UInt16} {a : PortAllocator}

theorem new_eq_some_iff {a : PortAllocator} :
    new minPort maxPort = some a ↔ (0 < minPort ∧ minPort ≤ maxPort) ∧
      a = ⟨minPort, maxPort, ∅, portRange minPort maxPort, minPort⟩ := by
  unfold new
  split
  · simp_all [eq_comm]
  · simp_all

theorem Partitioned.of_new (h : new minPort maxPort = some a) :
    a.Partitioned minPort maxPort ∧ a.allocatedPorts = ∅ := by
  obtain ⟨⟨_, hLe⟩, rfl⟩ := new_eq_some_iff.mp h
  refine ⟨⟨rfl, rfl, nodup_portRange _ _, by simp, ?_, UInt16.le_refl _, hLe⟩, rfl⟩
  intro port
  simp [mem_portRange, InRange]

theorem Partitioned.mem_available_iff (h : a.Partitioned minPort maxPort) (port : UInt16) :
    port ∈ a.availablePorts ↔ InRange minPort maxPort port ∧ port ∉ a.allocatedPorts := by
  constructor
  · intro hPort
    exact ⟨(h.cover port).mp (.inl hPort), h.disjoint port hPort⟩
  · rintro ⟨hRange, hFree⟩
    exact ((h.cover port).mpr hRange).resolve_right hFree

theorem Partitioned.inRange (h : a.Partitioned minPort maxPort) {port : UInt16}
    (hPort : port ∈ a.allocatedPorts) : InRange minPort maxPort port :=
  (h.cover port).mp (.inr hPort)

/-- Everything `allocateSpecific` can do. -/
theorem Partitioned.allocateSpecific_cases (h : a.Partitioned minPort maxPort) (port : UInt16) :
    (¬InRange minPort maxPort port ∧
      a.allocateSpecific port = (.error (.portOutOfRange port minPort maxPort), a)) ∨
    (InRange minPort maxPort port ∧ port ∈ a.allocatedPorts ∧
      a.allocateSpecific port = (.error (.portUnavailable port), a)) ∨
    (InRange minPort maxPort port ∧ port ∉ a.allocatedPorts ∧
      a.allocateSpecific port = (.ok port, { a with
        allocatedPorts := insert port a.allocatedPorts
        availablePorts := a.availablePorts.filter (· ≠ port) })) := by
  have hRange : (port < a.minPort ∨ port > a.maxPort) ↔ ¬InRange minPort maxPort port := by
    rw [h.min_eq, h.max_eq, InRange, Classical.not_and_iff_not_or_not, UInt16.not_le, UInt16.not_le]
  unfold allocateSpecific
  rw [h.min_eq, h.max_eq] at *
  by_cases hIn : InRange minPort maxPort port
  · rw [if_neg (by rw [hRange]; exact not_not.mpr hIn)]
    by_cases hTaken : port ∈ a.allocatedPorts
    · exact .inr (.inl ⟨hIn, hTaken, if_pos hTaken⟩)
    · exact .inr (.inr ⟨hIn, hTaken, if_neg hTaken⟩)
  · exact .inl ⟨hIn, if_pos (hRange.mpr hIn)⟩

/-- Everything `allocateNext` can do: the front of the queue, or nothing when
the whole range is taken. -/
theorem Partitioned.allocateNext_cases (h : a.Partitioned minPort maxPort) :
    ((∀ port, InRange minPort maxPort port → port ∈ a.allocatedPorts) ∧
      a.allocateNext = (.error (.noPortsAvailable minPort maxPort), a)) ∨
    (∃ port available, a.availablePorts = port :: available ∧
      InRange minPort maxPort port ∧ port ∉ a.allocatedPorts ∧
      a.allocateNext = (.ok port, { a with
        allocatedPorts := insert port a.allocatedPorts
        availablePorts := available
        nextPort := if port = maxPort then minPort else port + 1 })) := by
  unfold allocateNext
  cases hAvailable : a.availablePorts with
  | nil =>
    refine .inl ⟨fun port hRange => ?_, by rw [h.min_eq, h.max_eq]⟩
    simpa [hAvailable] using (h.cover port).mpr hRange
  | cons port available =>
    have hFront := (h.mem_available_iff port).mp (by rw [hAvailable]; exact List.mem_cons_self)
    exact .inr ⟨port, available, rfl, hFront.1, hFront.2, by rw [h.min_eq, h.max_eq]⟩

theorem releasePort_cases (a : PortAllocator) (port : UInt16) :
    (port ∉ a.allocatedPorts ∧ a.releasePort port = (.error (.portNotAllocated port), a)) ∨
    (port ∈ a.allocatedPorts ∧ a.releasePort port = (.ok (), { a with
      allocatedPorts := a.allocatedPorts.erase port
      availablePorts :=
        if port < a.nextPort then port :: a.availablePorts
        else a.availablePorts ++ [port] })) := by
  by_cases hTaken : port ∈ a.allocatedPorts
  · exact .inr ⟨hTaken, if_neg (not_not.mpr hTaken)⟩
  · exact .inl ⟨hTaken, if_pos hTaken⟩

theorem Partitioned.allocateSpecific (h : a.Partitioned minPort maxPort) (port : UInt16) :
    (a.allocateSpecific port).2.Partitioned minPort maxPort := by
  rcases h.allocateSpecific_cases port with ⟨_, hEq⟩ | ⟨_, _, hEq⟩ | ⟨hRange, hFree, hEq⟩
  · rwa [hEq]
  · rwa [hEq]
  · rw [hEq]
    refine ⟨h.min_eq, h.max_eq, h.nodup.filter _, ?_, ?_, h.cursor⟩
    · intro other hOther
      obtain ⟨hOther, hNe⟩ := List.mem_filter.mp hOther
      simpa [Finset.mem_insert] using ⟨of_decide_eq_true hNe, h.disjoint other hOther⟩
    · intro other
      rw [← h.cover other, List.mem_filter, Finset.mem_insert, decide_eq_true_eq]
      by_cases hSame : other = port
      · subst hSame
        simp [(h.mem_available_iff other).mpr ⟨hRange, hFree⟩]
      · simp [hSame]

/-- Below the top of the range the successor neither wraps nor leaves the range. -/
theorem InRange.succ {port : UInt16} (h : InRange minPort maxPort port) (hTop : port ≠ maxPort) :
    port.toNat + 1 < 2 ^ 16 ∧ InRange minPort maxPort (port + 1) := by
  have hMax := maxPort.toNat_lt
  have hNe : port.toNat ≠ maxPort.toNat := fun hEq => hTop (UInt16.toNat_inj.mp hEq)
  obtain ⟨hLow, hHigh⟩ := h
  rw [UInt16.le_iff_toNat_le] at hLow hHigh
  have hSucc : (port + 1).toNat = port.toNat + 1 := by
    rw [UInt16.toNat_add]
    exact Nat.mod_eq_of_lt (by simp only [UInt16.toNat_one]; omega)
  refine ⟨by omega, ?_, ?_⟩ <;> rw [UInt16.le_iff_toNat_le, hSucc] <;> omega

theorem Partitioned.allocateNext (h : a.Partitioned minPort maxPort) :
    a.allocateNext.2.Partitioned minPort maxPort := by
  rcases h.allocateNext_cases with ⟨_, hEq⟩ | ⟨port, available, hQueue, hRange, hFree, hEq⟩
  · rwa [hEq]
  · rw [hEq]
    have hNodup := hQueue ▸ h.nodup
    refine ⟨h.min_eq, h.max_eq, hNodup.of_cons, ?_, ?_, ?_⟩
    · intro other hOther
      have hNe : other ≠ port := fun hSame => hNodup.notMem (hSame ▸ hOther)
      have hKept := h.disjoint other (hQueue ▸ List.mem_cons_of_mem _ hOther)
      simpa [Finset.mem_insert] using ⟨hNe, hKept⟩
    · intro other
      rw [← h.cover other, hQueue, List.mem_cons, Finset.mem_insert]
      tauto
    · show InRange minPort maxPort (if port = maxPort then minPort else port + 1)
      split
      · exact ⟨UInt16.le_refl _, UInt16.le_trans h.cursor.1 h.cursor.2⟩
      · exact (InRange.succ hRange ‹_›).2

theorem Partitioned.releasePort (h : a.Partitioned minPort maxPort) (port : UInt16) :
    (a.releasePort port).2.Partitioned minPort maxPort := by
  rcases a.releasePort_cases port with ⟨_, hEq⟩ | ⟨hTaken, hEq⟩
  · rwa [hEq]
  · have hPerm : (if port < a.nextPort then port :: a.availablePorts
        else a.availablePorts ++ [port]).Perm (port :: a.availablePorts) := by
      split
      · exact .refl _
      · exact List.perm_append_singleton _ _
    have hQueued : port ∉ a.availablePorts := fun hPort => h.disjoint port hPort hTaken
    rw [hEq]
    refine ⟨h.min_eq, h.max_eq, hPerm.nodup_iff.mpr (List.nodup_cons.mpr ⟨hQueued, h.nodup⟩),
      ?_, ?_, h.cursor⟩
    · intro other hOther
      rw [Finset.mem_erase]
      rcases List.mem_cons.mp (hPerm.mem_iff.mp hOther) with rfl | hOther
      · simp
      · exact fun hKept => h.disjoint other hOther hKept.2
    · intro other
      rw [← h.cover other]
      simp only [hPerm.mem_iff, List.mem_cons, Finset.mem_erase]
      by_cases hSame : other = port
      · subst hSame
        simp [hTaken]
      · simp [hSame]

theorem Partitioned.step (h : a.Partitioned minPort maxPort) (op : PortOp) :
    (a.step op).2.Partitioned minPort maxPort := by
  cases op with
  | allocatePort preferred =>
    cases preferred with
    | none => exact h.allocateNext
    | some port => exact h.allocateSpecific port
  | allocateSpecific port => exact h.allocateSpecific port
  | allocateNext => exact h.allocateNext
  | releasePort port => exact h.releasePort port

end PortAllocator

end CrabbyProxy.Tunnel
