import Mathlib

/-!
# The port allocator

Three pieces of state describe the ports of a range: the set of allocated
ports, the queue of available ones and a cursor. Each operation updates them
separately, as `src/tunnel/port_allocator.rs` does.
-/

namespace CrabbyProxy.Tunnel
set_option autoImplicit false

inductive PortAllocError where
  | portOutOfRange (port minPort maxPort : UInt16)
  | portUnavailable (port : UInt16)
  | noPortsAvailable (minPort maxPort : UInt16)
  | portNotAllocated (port : UInt16)
  deriving DecidableEq, Repr

def PortAllocError.toString : PortAllocError → String
  | .portOutOfRange port minPort maxPort =>
    s!"Port {port} is out of allowed range ({minPort}-{maxPort})"
  | .portUnavailable port => s!"Port {port} is already allocated"
  | .noPortsAvailable minPort maxPort => s!"No available ports in the range {minPort}-{maxPort}"
  | .portNotAllocated port => s!"Port {port} is not currently allocated"

structure PortAllocator where
  minPort : UInt16
  maxPort : UInt16
  allocatedPorts : Finset UInt16
  availablePorts : List UInt16
  nextPort : UInt16
  deriving DecidableEq

/-- The ports `minPort..=maxPort` in increasing order. -/
def portRange (minPort maxPort : UInt16) : List UInt16 :=
  (List.range' minPort.toNat (maxPort.toNat + 1 - minPort.toNat)).map UInt16.ofNat

namespace PortAllocator

/-- `none` where the source's assertions panic. -/
def new (minPort maxPort : UInt16) : Option PortAllocator :=
  if 0 < minPort ∧ minPort ≤ maxPort then
    some ⟨minPort, maxPort, ∅, portRange minPort maxPort, minPort⟩
  else none

def allocateSpecific (a : PortAllocator) (port : UInt16) :
    Except PortAllocError UInt16 × PortAllocator :=
  if port < a.minPort ∨ port > a.maxPort then
    (.error (.portOutOfRange port a.minPort a.maxPort), a)
  else if port ∈ a.allocatedPorts then
    (.error (.portUnavailable port), a)
  else
    (.ok port, { a with
      allocatedPorts := insert port a.allocatedPorts
      availablePorts := a.availablePorts.filter (· ≠ port) })

def allocateNext (a : PortAllocator) : Except PortAllocError UInt16 × PortAllocator :=
  match a.availablePorts with
  | port :: available =>
    (.ok port, { a with
      allocatedPorts := insert port a.allocatedPorts
      availablePorts := available
      nextPort := if port = a.maxPort then a.minPort else port + 1 })
  | [] => (.error (.noPortsAvailable a.minPort a.maxPort), a)

def allocatePort (a : PortAllocator) (preferred : Option UInt16) :
    Except PortAllocError UInt16 × PortAllocator :=
  match preferred with
  | some port => a.allocateSpecific port
  | none => a.allocateNext

def releasePort (a : PortAllocator) (port : UInt16) : Except PortAllocError Unit × PortAllocator :=
  if port ∉ a.allocatedPorts then
    (.error (.portNotAllocated port), a)
  else
    (.ok (), { a with
      allocatedPorts := a.allocatedPorts.erase port
      availablePorts :=
        if port < a.nextPort then port :: a.availablePorts else a.availablePorts ++ [port] })

def isAllocated (a : PortAllocator) (port : UInt16) : Bool := decide (port ∈ a.allocatedPorts)

def isInRange (a : PortAllocator) (port : UInt16) : Bool :=
  decide (port ≥ a.minPort ∧ port ≤ a.maxPort)

def availableCount (a : PortAllocator) : Nat := a.availablePorts.length

def allocatedCount (a : PortAllocator) : Nat := a.allocatedPorts.card

end PortAllocator

theorem mem_portRange {minPort maxPort port : UInt16} :
    port ∈ portRange minPort maxPort ↔ minPort ≤ port ∧ port ≤ maxPort := by
  simp only [portRange, List.mem_map, List.mem_range'_1, UInt16.le_iff_toNat_le]
  constructor
  · rintro ⟨n, hn, rfl⟩
    have hMax := maxPort.toNat_lt
    rw [UInt16.toNat_ofNat_of_lt' (by simp only [UInt16.size]; omega)]
    omega
  · intro h
    exact ⟨port.toNat, by omega, UInt16.ofNat_toNat⟩

theorem nodup_portRange (minPort maxPort : UInt16) : (portRange minPort maxPort).Nodup := by
  rw [portRange, List.nodup_map_iff_inj_on (List.nodup_range' (h := by decide))]
  intro m hm n hn hEq
  have hMax := maxPort.toNat_lt
  rw [List.mem_range'_1] at hm hn
  have hToNat := congrArg UInt16.toNat hEq
  rwa [UInt16.toNat_ofNat_of_lt' (by simp only [UInt16.size]; omega),
    UInt16.toNat_ofNat_of_lt' (by simp only [UInt16.size]; omega)] at hToNat

theorem length_portRange (minPort maxPort : UInt16) :
    (portRange minPort maxPort).length = maxPort.toNat + 1 - minPort.toNat := by
  simp [portRange]

end CrabbyProxy.Tunnel
