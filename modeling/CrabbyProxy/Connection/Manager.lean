import CrabbyProxy.Address
import CrabbyProxy.Connection.ServiceType
import CrabbyProxy.Library.Execution
import CrabbyProxy.Proxy.Protocol

/-!
# The connection manager

The manager keeps the requests that wait for a decision or an activation, and the
connections that are active. A decision is sent on the one-shot sender of its
request. The channels record what was sent, and the senders that went out of scope
before anything was.
-/

namespace CrabbyProxy.Connection

open CrabbyProxy.Proxy
set_option autoImplicit false

inductive ConnectionState where
  | pending
  | approved
  | rejected
  | active
  | closed
  deriving DecidableEq

inductive ConnectionType where
  | forward (target : ProxyTarget) (protocol : ProxyProtocol)
  | reverseTunnel (serviceType : ServiceType) (listenPort : Option UInt16)
  deriving DecidableEq

inductive ConnectionApproval where
  | approved
  | approvedWithPort (port : UInt16)
  | rejected (reason : String)
  deriving DecidableEq

abbrev Uuid := BitVec 128

abbrev Instant := Nat

/-- A one-shot sender names its channel. -/
abbrev Sender := Nat

structure ConnectionRequest where
  id : Uuid
  clientAddr : SocketAddr
  connectionType : ConnectionType
  state : ConnectionState
  decisionTx : Option Sender
  deriving DecidableEq

/-- The id is the one that was drawn. -/
def ConnectionRequest.new (id : Uuid) (clientAddr : SocketAddr) (connectionType : ConnectionType)
    (decisionTx : Option Sender) : ConnectionRequest where
  id := id
  clientAddr := clientAddr
  connectionType := connectionType
  decisionTx := decisionTx
  state := .pending

structure ConnectionManager where
  pending : AList fun _ : Uuid => ConnectionRequest
  active : AList fun _ : Uuid => Instant
  deriving DecidableEq

inductive ConnectionError where
  | notFound
  | invalidState
  deriving DecidableEq

structure Channels where
  sent : List (Sender × ConnectionApproval)
  dropped : List Sender
  deriving DecidableEq

/-- Sends the decision, unless the request has no sender. -/
def Channels.send (c : Channels) (tx : Option Sender) (decision : ConnectionApproval) : Channels :=
  { c with sent := c.sent ++ (tx.map fun tx => (tx, decision)).toList }

/-- A request goes out of scope. -/
def Channels.drop (c : Channels) (request : ConnectionRequest) : Channels :=
  { c with dropped := c.dropped ++ request.decisionTx.toList }

/-- The manager together with the channels of its requests. -/
structure ConnectionHost where
  manager : ConnectionManager
  channels : Channels
  deriving DecidableEq

/-- The request once it is approved: its sender has been used. -/
def ConnectionRequest.approve (request : ConnectionRequest) : ConnectionRequest :=
  { request with state := .approved, decisionTx := none }

namespace ConnectionHost

def new : ConnectionHost := ⟨⟨∅, ∅⟩, ⟨[], []⟩⟩

/-- A request that was stored under the same id is dropped. -/
def addPending (h : ConnectionHost) (request : ConnectionRequest) : ConnectionHost where
  manager := { h.manager with pending := h.manager.pending.insert request.id request }
  channels := match h.manager.pending.lookup request.id with
    | none => h.channels
    | some replaced => h.channels.drop replaced

def approveConnection (h : ConnectionHost) (id : Uuid) :
    Except ConnectionError Unit × ConnectionHost :=
  match h.manager.pending.lookup id with
  | none => (.error .notFound, h)
  | some request =>
    if request.state ≠ .pending then (.error .invalidState, h)
    else (.ok (), {
      manager := { h.manager with pending := h.manager.pending.insert id request.approve }
      channels := h.channels.send request.decisionTx .approved })

/-- The request is taken out of the table before its state is looked at. -/
def rejectConnection (h : ConnectionHost) (id : Uuid) (rejectionReason : String) :
    Except ConnectionError Unit × ConnectionHost :=
  match h.manager.pending.lookup id with
  | none => (.error .notFound, h)
  | some request =>
    let manager := { h.manager with pending := h.manager.pending.erase id }
    if request.state ≠ .pending then (.error .invalidState, ⟨manager, h.channels.drop request⟩)
    else (.ok (), ⟨manager, h.channels.send request.decisionTx (.rejected rejectionReason)⟩)

def activateConnection (h : ConnectionHost) (id : Uuid) (now : Instant) :
    Except ConnectionError Unit × ConnectionHost :=
  match h.manager.pending.lookup id with
  | none => (.error .notFound, h)
  | some request =>
    let pending := h.manager.pending.erase id
    if request.state ≠ .approved then
      (.error .invalidState, ⟨{ h.manager with pending := pending }, h.channels.drop request⟩)
    else (.ok (), ⟨⟨pending, h.manager.active.insert id now⟩, h.channels.drop request⟩)

def closeConnection (h : ConnectionHost) (id : Uuid) :
    Except ConnectionError Unit × ConnectionHost :=
  if id ∈ h.manager.active then
    (.ok (), { h with manager.active := h.manager.active.erase id })
  else (.error .notFound, h)

end ConnectionHost

inductive ConnectionOp where
  | addPending (request : ConnectionRequest)
  | approveConnection (id : Uuid)
  | rejectConnection (id : Uuid) (rejectionReason : String)
  | activateConnection (id : Uuid) (now : Instant)
  | closeConnection (id : Uuid)

def ConnectionHost.step (h : ConnectionHost) :
    ConnectionOp → Except ConnectionError Unit × ConnectionHost
  | .addPending request => (.ok (), h.addPending request)
  | .approveConnection id => h.approveConnection id
  | .rejectConnection id rejectionReason => h.rejectConnection id rejectionReason
  | .activateConnection id now => h.activateConnection id now
  | .closeConnection id => h.closeConnection id

namespace ConnectionHost

variable {h : ConnectionHost} {id : Uuid}

/-- Everything `approveConnection` can do. -/
theorem approve_cases (h : ConnectionHost) (id : Uuid) :
    (∃ e, h.approveConnection id = (.error e, h)) ∨
    ∃ request, h.manager.pending.lookup id = some request ∧ request.state = .pending ∧
      h.approveConnection id = (.ok (),
        ⟨{ h.manager with pending := h.manager.pending.insert id request.approve },
          h.channels.send request.decisionTx .approved⟩) := by
  rw [approveConnection]
  cases h.manager.pending.lookup id with
  | none => exact .inl ⟨_, rfl⟩
  | some request =>
    by_cases hState : request.state = .pending
    · exact .inr ⟨request, rfl, hState, if_neg (not_not.mpr hState)⟩
    · exact .inl ⟨_, if_pos hState⟩

theorem reject_cases (h : ConnectionHost) (id : Uuid) (reason : String) :
    (h.manager.pending.lookup id = none ∧ h.rejectConnection id reason = (.error .notFound, h)) ∨
    (∃ request, h.manager.pending.lookup id = some request ∧ request.state ≠ .pending ∧
      h.rejectConnection id reason = (.error .invalidState,
        ⟨{ h.manager with pending := h.manager.pending.erase id }, h.channels.drop request⟩)) ∨
    ∃ request, h.manager.pending.lookup id = some request ∧ request.state = .pending ∧
      h.rejectConnection id reason = (.ok (),
        ⟨{ h.manager with pending := h.manager.pending.erase id },
          h.channels.send request.decisionTx (.rejected reason)⟩) := by
  rw [rejectConnection]
  cases h.manager.pending.lookup id with
  | none => exact .inl ⟨rfl, rfl⟩
  | some request =>
    by_cases hState : request.state = .pending
    · exact .inr (.inr ⟨request, rfl, hState, if_neg (not_not.mpr hState)⟩)
    · exact .inr (.inl ⟨request, rfl, hState, if_pos hState⟩)

theorem activate_cases (h : ConnectionHost) (id : Uuid) (now : Instant) :
    (h.manager.pending.lookup id = none ∧ h.activateConnection id now = (.error .notFound, h)) ∨
    (∃ request, h.manager.pending.lookup id = some request ∧ request.state ≠ .approved ∧
      h.activateConnection id now = (.error .invalidState,
        ⟨{ h.manager with pending := h.manager.pending.erase id }, h.channels.drop request⟩)) ∨
    ∃ request, h.manager.pending.lookup id = some request ∧ request.state = .approved ∧
      h.activateConnection id now = (.ok (),
        ⟨⟨h.manager.pending.erase id, h.manager.active.insert id now⟩,
          h.channels.drop request⟩) := by
  rw [activateConnection]
  cases h.manager.pending.lookup id with
  | none => exact .inl ⟨rfl, rfl⟩
  | some request =>
    by_cases hState : request.state = .approved
    · exact .inr (.inr ⟨request, rfl, hState, if_neg (not_not.mpr hState)⟩)
    · exact .inr (.inl ⟨request, rfl, hState, if_pos hState⟩)

theorem close_cases (h : ConnectionHost) (id : Uuid) :
    (id ∉ h.manager.active ∧ h.closeConnection id = (.error .notFound, h)) ∨
    (id ∈ h.manager.active ∧
      h.closeConnection id = (.ok (), { h with manager.active := h.manager.active.erase id })) := by
  by_cases hActive : id ∈ h.manager.active
  · exact .inr ⟨hActive, if_pos hActive⟩
  · exact .inl ⟨hActive, if_neg hActive⟩

end ConnectionHost

end CrabbyProxy.Connection
