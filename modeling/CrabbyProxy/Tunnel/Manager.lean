import Mathlib
import CrabbyProxy.Address
import CrabbyProxy.Connection.ServiceType
import CrabbyProxy.Tunnel.PortAllocator

/-!
# The tunnel manager

The manager keeps a table of active tunnels, a table of task handles and the
port allocator. The runtime numbers the listener tasks it is asked to spawn and
records the handles that were aborted. Tunnel and client identifiers and the
creation time are drawn fresh and never read, so they are left out.
-/

namespace CrabbyProxy.Tunnel
set_option autoImplicit false

inductive TunnelError where
  | bindError (port : UInt16) (message : String)
  | allocationError (message : String)
  | portInUse (port : UInt16)
  | portOutOfRange (port minPort maxPort : UInt16)
  | noPortsAvailable (minPort maxPort : UInt16)
  | tunnelNotFound (port : UInt16)
  | portReleaseError (port : UInt16) (message : String)
  deriving DecidableEq

def TunnelError.ofPortAllocError : PortAllocError → TunnelError
  | .portOutOfRange port minPort maxPort => .portOutOfRange port minPort maxPort
  | .portUnavailable port => .portInUse port
  | .noPortsAvailable minPort maxPort => .noPortsAvailable minPort maxPort
  | e => .allocationError e.toString

structure ActiveTunnel where
  listenPort : UInt16
  targetAddr : SocketAddr
  serviceType : ServiceType
  deriving DecidableEq

/-- The arguments of a spawned `tunnel_listener_task`. -/
structure ListenerTask where
  port : UInt16
  targetAddr : SocketAddr
  deriving DecidableEq

/-- A handle names its task by its place among the spawned ones. -/
abbrev JoinHandle := Nat

structure Runtime where
  spawned : List ListenerTask
  aborted : List JoinHandle
  deriving DecidableEq

structure TunnelManager where
  activeTunnels : AList fun _ : UInt16 => ActiveTunnel
  portAllocator : PortAllocator
  tasks : AList fun _ : UInt16 => List JoinHandle

/-- The manager together with the runtime that holds its tasks. -/
structure TunnelHost where
  manager : TunnelManager
  runtime : Runtime

namespace TunnelHost

def new (startPort endPort : UInt16) : Option TunnelHost :=
  (PortAllocator.new startPort endPort).map fun allocator => ⟨⟨∅, allocator, ∅⟩, ⟨[], []⟩⟩

def createReverseTunnel (h : TunnelHost) (serviceType : ServiceType)
    (preferredPort : Option UInt16) (clientAddr : SocketAddr) :
    Except TunnelError UInt16 × TunnelHost :=
  match h.manager.portAllocator.allocatePort preferredPort with
  | (.error e, allocator) =>
    (.error (.ofPortAllocError e), { h with manager.portAllocator := allocator })
  | (.ok port, allocator) =>
    let handle := h.runtime.spawned.length
    (.ok port, {
      manager := {
        activeTunnels := h.manager.activeTunnels.insert port ⟨port, clientAddr, serviceType⟩
        portAllocator := allocator
        tasks := h.manager.tasks.insert port
          ((h.manager.tasks.lookup port).getD [] ++ [handle]) }
      runtime := { h.runtime with spawned := h.runtime.spawned ++ [⟨port, clientAddr⟩] } })

def closeTunnel (h : TunnelHost) (port : UInt16) : Except TunnelError Unit × TunnelHost :=
  match h.manager.activeTunnels.lookup port with
  | none => (.error (.tunnelNotFound port), h)
  | some _ =>
    let activeTunnels := h.manager.activeTunnels.erase port
    match h.manager.portAllocator.releasePort port with
    | (.error e, allocator) =>
      (.error (.portReleaseError port e.toString), { h with
        manager.activeTunnels := activeTunnels
        manager.portAllocator := allocator })
    | (.ok (), allocator) =>
      let handles := (h.manager.tasks.lookup port).getD []
      (.ok (), {
        manager := ⟨activeTunnels, allocator, h.manager.tasks.erase port⟩
        runtime := { h.runtime with aborted := h.runtime.aborted ++ handles } })

def shutdown (h : TunnelHost) : TunnelHost where
  manager := { h.manager with activeTunnels := ∅, tasks := ∅ }
  runtime := { h.runtime with
    aborted := h.runtime.aborted ++ h.manager.tasks.entries.flatMap Sigma.snd }

end TunnelHost

inductive TunnelOp where
  | createReverseTunnel (serviceType : ServiceType) (preferredPort : Option UInt16)
      (clientAddr : SocketAddr)
  | closeTunnel (port : UInt16)
  | shutdown

/-- A created tunnel answers with its port, the other operations without one. -/
def TunnelHost.step (h : TunnelHost) : TunnelOp → Except TunnelError (Option UInt16) × TunnelHost
  | .createReverseTunnel serviceType preferredPort clientAddr =>
    ((h.createReverseTunnel serviceType preferredPort clientAddr).1.map some,
      (h.createReverseTunnel serviceType preferredPort clientAddr).2)
  | .closeTunnel port => ((h.closeTunnel port).1.map fun _ => none, (h.closeTunnel port).2)
  | .shutdown => (.ok none, h.shutdown)

end CrabbyProxy.Tunnel
