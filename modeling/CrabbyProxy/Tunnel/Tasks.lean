import CrabbyProxy.Tunnel.Consistency

/-!
# The tasks behind the tunnels

The manager spawns one listener task for each tunnel, and a listener spawns a task
for each connection that it accepts. The runtime resumes the tasks in any order. An
aborted task is not resumed again: once it has reached its next suspension point it is
dropped, and its socket with it. Nobody keeps the handle of a connection task.
-/

namespace CrabbyProxy.Tunnel
open Execution
set_option autoImplicit false

inductive ListenerStage where
  | starting
  | listening
  | bindFailed
  | dropped
  deriving DecidableEq

/-- A listener task is running between two of its suspension points. -/
structure Listener where
  stage : ListenerStage
  running : Bool
  deriving DecidableEq

inductive CopyLoop where
  | clientToServer
  | serverToClient
  deriving DecidableEq

/-- Where a `handle_tunnel_connection` stands; one of its loops may have finished. -/
inductive ConnectionStage where
  | connecting
  | relaying (finished : Option CopyLoop)
  | ended
  deriving DecidableEq

namespace ConnectionStage

def connect (reached : Bool) : ConnectionStage → ConnectionStage
  | .connecting => if reached then .relaying none else .ended
  | stage => stage

def copies (loop : CopyLoop) : ConnectionStage → Bool
  | .relaying finished => finished ≠ some loop
  | _ => false

/-- `try_join!` returns when both loops have finished. -/
def finish (loop : CopyLoop) : ConnectionStage → ConnectionStage
  | .relaying none => .relaying (some loop)
  | .relaying (some finished) => if finished = loop then .relaying (some finished) else .ended
  | stage => stage

/-- It also returns when one of them fails. -/
def fail : ConnectionStage → ConnectionStage
  | .relaying _ => .ended
  | stage => stage

end ConnectionStage

structure TunnelConnection where
  listener : JoinHandle
  targetAddr : SocketAddr
  stage : ConnectionStage
  deriving DecidableEq

/-- Bytes that a connection moved to or from its target. -/
structure Forwarded where
  listener : JoinHandle
  targetAddr : SocketAddr
  loop : CopyLoop
  bytes : List UInt8
  deriving DecidableEq

structure TunnelWorld where
  host : TunnelHost
  listeners : JoinHandle → Listener
  connections : List TunnelConnection
  traffic : List Forwarded

inductive TaskStep where
  | poll (handle : JoinHandle)
  /-- The port may be taken by another process. -/
  | bind (handle : JoinHandle) (outsider : Bool)
  | accept (handle : JoinHandle)
  | suspend (handle : JoinHandle)
  | drop (handle : JoinHandle)
  | connect (connection : Nat) (reached : Bool)
  | copy (connection : Nat) (loop : CopyLoop) (bytes : List UInt8)
  | finish (connection : Nat) (loop : CopyLoop)
  | fail (connection : Nat)

inductive TunnelInput where
  | manager (op : TunnelOp)
  | task (step : TaskStep)

namespace TunnelWorld

def new (host : TunnelHost) : TunnelWorld := ⟨host, fun _ => ⟨.starting, false⟩, [], []⟩

def portOf (w : TunnelWorld) (handle : JoinHandle) : Option UInt16 :=
  (w.host.runtime.spawned[handle]?).map ListenerTask.port

/-- The listener of this handle has the port's socket open. -/
def Holds (w : TunnelWorld) (port : UInt16) (handle : JoinHandle) : Prop :=
  w.portOf handle = some port ∧ (w.listeners handle).stage = .listening

instance (w : TunnelWorld) (port : UInt16) (handle : JoinHandle) :
    Decidable (w.Holds port handle) := inferInstanceAs (Decidable (_ ∧ _))

def PortHeld (w : TunnelWorld) (port : UInt16) : Prop :=
  ∃ handle, handle < w.host.runtime.spawned.length ∧ w.Holds port handle

instance (w : TunnelWorld) (port : UInt16) : Decidable (w.PortHeld port) :=
  inferInstanceAs (Decidable (∃ handle, handle < _ ∧ _))

def setListener (w : TunnelWorld) (handle : JoinHandle) (listener : Listener) : TunnelWorld :=
  { w with listeners := Function.update w.listeners handle listener }

def setStage (w : TunnelWorld) (connection : Nat) (f : ConnectionStage → ConnectionStage) :
    TunnelWorld :=
  { w with connections := w.connections.modify connection fun c => { c with stage := f c.stage } }

def pollListener (w : TunnelWorld) (handle : JoinHandle) : TunnelWorld :=
  let stage := (w.listeners handle).stage
  if handle < w.host.runtime.spawned.length ∧ handle ∉ w.host.runtime.aborted ∧
      (stage = .starting ∨ stage = .listening) then w.setListener handle ⟨stage, true⟩
  else w

/-- The bind of `tunnel_listener_task`; the task returns when it fails. -/
def bindListener (w : TunnelWorld) (handle : JoinHandle) (outsider : Bool) : TunnelWorld :=
  match w.host.runtime.spawned[handle]? with
  | none => w
  | some task =>
    if w.listeners handle ≠ ⟨.starting, true⟩ then w
    else if outsider ∨ w.PortHeld task.port then w.setListener handle ⟨.bindFailed, false⟩
    else w.setListener handle ⟨.listening, true⟩

/-- The handle of the connection task is not kept. -/
def acceptConnection (w : TunnelWorld) (handle : JoinHandle) : TunnelWorld :=
  match w.host.runtime.spawned[handle]? with
  | none => w
  | some task =>
    if w.listeners handle = ⟨.listening, true⟩ then
      { w with connections := w.connections ++ [⟨handle, task.targetAddr, .connecting⟩] }
    else w

def suspendListener (w : TunnelWorld) (handle : JoinHandle) : TunnelWorld :=
  if (w.listeners handle).running then w.setListener handle ⟨(w.listeners handle).stage, false⟩
  else w

/-- The runtime drops an aborted task that is not running. -/
def dropListener (w : TunnelWorld) (handle : JoinHandle) : TunnelWorld :=
  if handle ∈ w.host.runtime.aborted ∧
      (w.listeners handle = ⟨.starting, false⟩ ∨ w.listeners handle = ⟨.listening, false⟩) then
    w.setListener handle ⟨.dropped, false⟩
  else w

def copyBytes (w : TunnelWorld) (connection : Nat) (loop : CopyLoop) (bytes : List UInt8) :
    TunnelWorld :=
  match w.connections[connection]? with
  | none => w
  | some c =>
    if c.stage.copies loop ∧ bytes ≠ [] then
      { w with traffic := w.traffic ++ [⟨c.listener, c.targetAddr, loop, bytes⟩] }
    else w

def taskStep (w : TunnelWorld) : TaskStep → TunnelWorld
  | .poll handle => w.pollListener handle
  | .bind handle outsider => w.bindListener handle outsider
  | .accept handle => w.acceptConnection handle
  | .suspend handle => w.suspendListener handle
  | .drop handle => w.dropListener handle
  | .connect connection reached => w.setStage connection (.connect reached)
  | .copy connection loop bytes => w.copyBytes connection loop bytes
  | .finish connection loop => w.setStage connection (.finish loop)
  | .fail connection => w.setStage connection .fail

/-- Only the operations of the manager have an answer. -/
def step (w : TunnelWorld) :
    TunnelInput → Option (Except TunnelError (Option UInt16)) × TunnelWorld
  | .manager op => (some (w.host.step op).1, { w with host := (w.host.step op).2 })
  | .task taskStep => (none, w.taskStep taskStep)

variable (w : TunnelWorld)

@[simp] theorem setListener_self (handle : JoinHandle) (listener : Listener) :
    (w.setListener handle listener).listeners handle = listener :=
  Function.update_self _ _ _

theorem setListener_ne {handle other : JoinHandle} (hNe : other ≠ handle) (listener : Listener) :
    (w.setListener handle listener).listeners other = w.listeners other :=
  Function.update_of_ne hNe _ _

/-- Everything a task step can do to the listeners: one of them moves on. -/
inductive Moves (w : TunnelWorld) (handle : JoinHandle) : Listener → Prop
  | poll (stage : ListenerStage) (hStage : (w.listeners handle).stage = stage)
      (hOpen : stage = .starting ∨ stage = .listening)
      (hSpawned : handle < w.host.runtime.spawned.length)
      (hFree : handle ∉ w.host.runtime.aborted) : Moves w handle ⟨stage, true⟩
  | bound (task : ListenerTask) (hTask : w.host.runtime.spawned[handle]? = some task)
      (hStarting : w.listeners handle = ⟨.starting, true⟩) (hPort : ¬w.PortHeld task.port) :
      Moves w handle ⟨.listening, true⟩
  | failed (task : ListenerTask) (hTask : w.host.runtime.spawned[handle]? = some task)
      (hStarting : w.listeners handle = ⟨.starting, true⟩) : Moves w handle ⟨.bindFailed, false⟩
  | suspend (hRunning : (w.listeners handle).running = true) :
      Moves w handle ⟨(w.listeners handle).stage, false⟩
  | dropped (hAborted : handle ∈ w.host.runtime.aborted)
      (hOpen : w.listeners handle = ⟨.starting, false⟩ ∨ w.listeners handle = ⟨.listening, false⟩) :
      Moves w handle ⟨.dropped, false⟩

variable {w : TunnelWorld}

theorem taskStep_cases (w : TunnelWorld) (s : TaskStep) : (w.taskStep s).host = w.host ∧
    ((w.taskStep s).listeners = w.listeners ∨ ∃ handle listener, w.Moves handle listener ∧
      (w.taskStep s).listeners = Function.update w.listeners handle listener) := by
  cases s with
  | poll handle =>
    rw [taskStep, pollListener]
    split
    · rename_i hPoll
      obtain ⟨hSpawned, hFree, hOpen⟩ := hPoll
      exact ⟨rfl, .inr ⟨handle, _, .poll _ rfl hOpen hSpawned hFree, rfl⟩⟩
    · exact ⟨rfl, .inl rfl⟩
  | bind handle outsider =>
    rw [taskStep, bindListener]
    split
    · exact ⟨rfl, .inl rfl⟩
    · rename_i task hTask
      split
      · exact ⟨rfl, .inl rfl⟩
      · rename_i hStarting
        rw [not_not] at hStarting
        split
        · exact ⟨rfl, .inr ⟨handle, _, .failed task hTask hStarting, rfl⟩⟩
        · rename_i hFree
          rw [not_or] at hFree
          exact ⟨rfl, .inr ⟨handle, _, .bound task hTask hStarting hFree.2, rfl⟩⟩
  | accept handle =>
    rw [taskStep, acceptConnection]
    split
    · exact ⟨rfl, .inl rfl⟩
    · split <;> exact ⟨rfl, .inl rfl⟩
  | suspend handle =>
    rw [taskStep, suspendListener]
    split
    · rename_i hRunning
      exact ⟨rfl, .inr ⟨handle, _, .suspend hRunning, rfl⟩⟩
    · exact ⟨rfl, .inl rfl⟩
  | drop handle =>
    rw [taskStep, dropListener]
    split
    · rename_i hDrop
      exact ⟨rfl, .inr ⟨handle, _, .dropped hDrop.1 hDrop.2, rfl⟩⟩
    · exact ⟨rfl, .inl rfl⟩
  | copy connection loop bytes =>
    rw [taskStep, copyBytes]
    split
    · exact ⟨rfl, .inl rfl⟩
    · split <;> exact ⟨rfl, .inl rfl⟩
  | connect connection reached | finish connection loop | fail connection =>
    exact ⟨rfl, .inl rfl⟩

end TunnelWorld

end CrabbyProxy.Tunnel
