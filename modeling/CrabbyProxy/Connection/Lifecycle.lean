import CrabbyProxy.Connection.Manager

/-!
# The life of a connection

The operations that succeeded for an id, in order, are its milestones. In every run
with fresh ids they are those of one life: added, then approved, activated and
closed, or added and rejected. Each decision that was sent is one of them.
-/

namespace CrabbyProxy.Connection

open Execution
set_option autoImplicit false

inductive Milestone where
  | added
  | approved
  | rejected (reason : String)
  | activated
  | closed
  deriving DecidableEq

def Milestone.decision : Milestone → Option ConnectionApproval
  | .approved => some .approved
  | .rejected reason => some (.rejected reason)
  | .added | .activated | .closed => none

/-- What one life can have gone through. -/
def Lifecycle (trace : List Milestone) : Prop :=
  trace <+: [.added, .approved, .activated, .closed] ∨
    ∃ reason, trace <+: [.added, .rejected reason]

abbrev Event := ConnectionOp × Except ConnectionError Unit

def milestone (id : Uuid) : Event → Option Milestone
  | (_, .error _) => none
  | (.addPending request, .ok ()) => if request.id = id then some .added else none
  | (.approveConnection other, .ok ()) => if other = id then some .approved else none
  | (.rejectConnection other reason, .ok ()) =>
    if other = id then some (.rejected reason) else none
  | (.activateConnection other _, .ok ()) => if other = id then some .activated else none
  | (.closeConnection other, .ok ()) => if other = id then some .closed else none

def milestones (id : Uuid) (past : List Event) : List Milestone := past.filterMap (milestone id)

def ConnectionOp.request? : ConnectionOp → Option ConnectionRequest
  | .addPending request => some request
  | _ => none

def addedRequests (ops : List ConnectionOp) : List ConnectionRequest :=
  ops.filterMap ConnectionOp.request?

/-- Every added request is newly made, with an id that was not used before. A sender
is moved into its request, so no two requests have the same one. -/
structure Fresh (ops : List ConnectionOp) : Prop where
  made : ∀ request ∈ addedRequests ops, ∃ id clientAddr connectionType decisionTx,
    request = .new id clientAddr connectionType decisionTx
  ids : ((addedRequests ops).map ConnectionRequest.id).Nodup
  senders : ((addedRequests ops).filterMap ConnectionRequest.decisionTx).Nodup

@[simp] theorem addedRequests_append (first second : List ConnectionOp) :
    addedRequests (first ++ second) = addedRequests first ++ addedRequests second :=
  List.filterMap_append

@[simp] theorem addedRequests_singleton (op : ConnectionOp) :
    addedRequests [op] = op.request?.toList := by
  rw [addedRequests, List.filterMap_cons, List.filterMap_nil]
  cases op.request? <;> rfl

@[simp] theorem milestones_append (id : Uuid) (past : List Event) (event : Event) :
    milestones id (past ++ [event]) = milestones id past ++ (milestone id event).toList := by
  rw [milestones, List.filterMap_append, List.filterMap_cons, List.filterMap_nil]
  cases milestone id event <;> rfl

theorem Fresh.of_append (first second : List ConnectionOp) (h : Fresh (first ++ second)) :
    Fresh first := by
  obtain ⟨hMade, hIds, hSenders⟩ := h
  simp only [addedRequests_append, List.map_append, List.filterMap_append] at hMade hIds hSenders
  exact ⟨fun request hRequest => hMade request (List.mem_append_left _ hRequest),
    hIds.of_append_left, hSenders.of_append_left⟩

section Fresh

variable {ops : List ConnectionOp} {request other : ConnectionRequest}

theorem Fresh.pending (h : Fresh ops) (hRequest : request ∈ addedRequests ops) :
    request.state = .pending := by
  obtain ⟨_, _, _, _, rfl⟩ := h.made request hRequest
  rfl

theorem Fresh.eq_of_id (h : Fresh ops) (hRequest : request ∈ addedRequests ops)
    (hOther : other ∈ addedRequests ops) (hId : request.id = other.id) : request = other :=
  List.inj_on_of_nodup_map h.ids hRequest hOther hId

theorem Fresh.eq_of_sender (h : Fresh ops) {tx : Sender} (hRequest : request ∈ addedRequests ops)
    (hOther : other ∈ addedRequests ops) (hTx : request.decisionTx = some tx)
    (hOtherTx : other.decisionTx = some tx) : request = other := by
  by_contra hNe
  have hPairs := List.pairwise_filterMap.mp h.senders
  have hSymm : Std.Symm fun a a' : ConnectionRequest => ∀ tx, a.decisionTx = some tx →
      ∀ tx', a'.decisionTx = some tx' → tx ≠ tx' :=
    ⟨fun a a' hApart tx hTx tx' hTx' => (hApart tx' hTx' tx hTx).symm⟩
  exact hPairs.forall hRequest hOther hNe tx hTx tx hOtherTx rfl

theorem Fresh.id_ne (h : Fresh (ops ++ [.addPending request]))
    (hOther : other ∈ addedRequests ops) : other.id ≠ request.id := by
  intro hSame
  have hIds := h.ids
  rw [addedRequests_append, List.map_append] at hIds
  exact List.disjoint_of_nodup_append hIds (List.mem_map_of_mem hOther)
    (by rw [hSame]; exact List.mem_cons_self)

end Fresh

namespace ConnectionHost

/-- What the tables and the channels say about the past. -/
structure Recorded (past : List Event) (h : ConnectionHost) : Prop where
  waiting : ∀ id request, h.manager.pending.lookup id = some request →
    ∃ original ∈ addedRequests (past.map Prod.fst), original.id = id ∧
      (request = original ∧ milestones id past = [.added] ∨
        request = original.approve ∧ milestones id past = [.added, .approved])
  active : ∀ id, id ∈ h.manager.active ↔ milestones id past = [.added, .approved, .activated]
  lifecycle : ∀ id, Lifecycle (milestones id past)
  added : ∀ id, milestones id past ≠ [] →
    ∃ request ∈ addedRequests (past.map Prod.fst), request.id = id
  decided : ∀ message ∈ h.channels.sent, ∃ request ∈ addedRequests (past.map Prod.fst),
    request.decisionTx = some message.1 ∧
      ∃ step ∈ milestones request.id past, step.decision = some message.2
  once : (h.channels.sent.map Prod.fst).Nodup

variable {past : List Event} {h h' : ConnectionHost} {id : Uuid}

theorem recorded_new : Recorded [] new where
  waiting id request hRequest := by cases hRequest
  active id := by simp [new, milestones]
  lifecycle id := .inl List.nil_prefix
  added id hSome := absurd rfl hSome
  decided message hMessage := by cases hMessage
  once := List.nodup_nil

/-- A step that fails may lose requests, but it decides nothing. -/
theorem Recorded.failed (hr : Recorded past h) {op : ConnectionOp} {e : ConnectionError}
    (hAdded : op.request? = none)
    (hPending : ∀ id request, h'.manager.pending.lookup id = some request →
      h.manager.pending.lookup id = some request)
    (hActive : h'.manager.active = h.manager.active)
    (hSent : h'.channels.sent = h.channels.sent) :
    Recorded (past ++ [(op, Except.error e)]) h' := by
  have hSame : ∀ id, milestones id (past ++ [(op, Except.error e)]) = milestones id past := by
    intro id
    simp [milestone]
  have hRequests : addedRequests ((past ++ [(op, Except.error e)]).map Prod.fst) =
      addedRequests (past.map Prod.fst) := by
    simp [hAdded]
  constructor
  · intro id request hRequest
    rw [hSame, hRequests]
    exact hr.waiting id request (hPending id request hRequest)
  · intro id
    rw [hActive, hSame]
    exact hr.active id
  · intro id
    rw [hSame]
    exact hr.lifecycle id
  · intro id
    rw [hSame, hRequests]
    exact hr.added id
  · intro message hMessage
    rw [hSent] at hMessage
    obtain ⟨request, hRequest, hTx, hStep⟩ := hr.decided message hMessage
    exact ⟨request, by rw [hRequests]; exact hRequest, hTx, by rw [hSame]; exact hStep⟩
  · rw [hSent]
    exact hr.once

/-- A sender of a request that is merely added has not been used. -/
theorem Recorded.unused (hr : Recorded past h) (hFresh : Fresh (past.map Prod.fst))
    {original : ConnectionRequest} (hOriginal : original ∈ addedRequests (past.map Prod.fst))
    (hTrace : milestones original.id past = [.added]) {tx : Sender}
    (hTx : original.decisionTx = some tx) : tx ∉ h.channels.sent.map Prod.fst := by
  intro hUsed
  obtain ⟨message, hMessage, rfl⟩ := List.mem_map.mp hUsed
  obtain ⟨request, hRequest, hSame, step, hStep, hDecision⟩ := hr.decided message hMessage
  obtain rfl := hFresh.eq_of_sender hRequest hOriginal hSame hTx
  rw [hTrace, List.mem_singleton] at hStep
  subst hStep
  cases hDecision

/-- A step that succeeds adds one milestone to one life. -/
theorem Recorded.advanced (hr : Recorded past h) (hFresh : Fresh (past.map Prod.fst))
    {op : ConnectionOp} (id : Uuid) (step : Milestone) (hAdded : op.request? = none)
    (hEvent : ∀ other, milestone other (op, .ok ()) = if id = other then some step else none)
    (hKnown : milestones id past ≠ []) (hLife : Lifecycle (milestones id past ++ [step]))
    (hOther : ∀ other, other ≠ id →
      h'.manager.pending.lookup other = h.manager.pending.lookup other ∧
        (other ∈ h'.manager.active ↔ other ∈ h.manager.active))
    (hWaiting : ∀ request, h'.manager.pending.lookup id = some request →
      ∃ original ∈ addedRequests (past.map Prod.fst), original.id = id ∧
        request = original.approve ∧ milestones id past ++ [step] = [.added, .approved])
    (hActive : id ∈ h'.manager.active ↔
      milestones id past ++ [step] = [.added, .approved, .activated])
    (hSent : h'.channels.sent = h.channels.sent ∨
      ∃ original ∈ addedRequests (past.map Prod.fst), ∃ decision, original.id = id ∧
        milestones id past = [.added] ∧ step.decision = some decision ∧
        h'.channels.sent = (h.channels.send original.decisionTx decision).sent) :
    Recorded (past ++ [(op, Except.ok ())]) h' := by
  have hRequests : addedRequests ((past ++ [(op, Except.ok ())]).map Prod.fst) =
      addedRequests (past.map Prod.fst) := by
    simp [hAdded]
  have hSelf : milestones id (past ++ [(op, Except.ok ())]) = milestones id past ++ [step] := by
    rw [milestones_append, hEvent, if_pos rfl]
    rfl
  have hSame : ∀ other, other ≠ id →
      milestones other (past ++ [(op, Except.ok ())]) = milestones other past := by
    intro other hNe
    rw [milestones_append, hEvent, if_neg hNe.symm]
    exact List.append_nil _
  have hKept : ∀ other, milestones other past ⊆
      milestones other (past ++ [(op, Except.ok ())]) := by
    intro other
    rw [milestones_append]
    exact List.subset_append_left _ _
  have hOld : ∀ message ∈ h.channels.sent, ∃ request ∈ addedRequests (past.map Prod.fst),
      request.decisionTx = some message.1 ∧ ∃ step ∈ milestones request.id
        (past ++ [(op, Except.ok ())]), step.decision = some message.2 := by
    intro message hMessage
    obtain ⟨request, hRequest, hTx, step, hStep, hDecision⟩ := hr.decided message hMessage
    exact ⟨request, hRequest, hTx, step, hKept _ hStep, hDecision⟩
  constructor
  · intro other request hRequest
    rw [hRequests]
    by_cases hNe : other = id
    · subst hNe
      obtain ⟨original, hOriginal, hId, hApproved, hTrace⟩ := hWaiting request hRequest
      exact ⟨original, hOriginal, hId, .inr ⟨hApproved, hSelf.trans hTrace⟩⟩
    · rw [hSame other hNe]
      exact hr.waiting other request ((hOther other hNe).1 ▸ hRequest)
  · intro other
    by_cases hNe : other = id
    · subst hNe
      rw [hSelf]
      exact hActive
    · rw [hSame other hNe, (hOther other hNe).2]
      exact hr.active other
  · intro other
    by_cases hNe : other = id
    · subst hNe
      rw [hSelf]
      exact hLife
    · rw [hSame other hNe]
      exact hr.lifecycle other
  · intro other hSome
    rw [hRequests]
    by_cases hNe : other = id
    · subst hNe
      exact hr.added other hKnown
    · rw [hSame other hNe] at hSome
      exact hr.added other hSome
  · intro message hMessage
    rw [hRequests]
    obtain hSent | ⟨original, hOriginal, decision, hId, hTrace, hDecision, hSent⟩ := hSent
    · rw [hSent] at hMessage
      exact hOld message hMessage
    · rw [hSent, Channels.send, List.mem_append] at hMessage
      obtain hMessage | hMessage := hMessage
      · exact hOld message hMessage
      · rw [Option.mem_toList, Option.map_eq_some_iff] at hMessage
        obtain ⟨tx, hTx, rfl⟩ := hMessage
        refine ⟨original, hOriginal, hTx, step, ?_, hDecision⟩
        rw [hId, hSelf]
        exact List.mem_append_right _ List.mem_cons_self
  · obtain hSent | ⟨original, hOriginal, decision, rfl, hTrace, hDecision, hSent⟩ := hSent
    · rw [hSent]
      exact hr.once
    · rw [hSent, Channels.send]
      cases hTx : original.decisionTx with
      | none => simpa using hr.once
      | some tx =>
        rw [List.map_append, List.nodup_append']
        refine ⟨hr.once, List.nodup_singleton _, ?_⟩
        rw [List.disjoint_comm]
        exact List.singleton_disjoint.mpr (hr.unused hFresh hOriginal hTrace hTx)

theorem Recorded.absent (hr : Recorded past h) {request : ConnectionRequest}
    (hFresh : Fresh (past.map Prod.fst ++ [.addPending request])) :
    h.manager.pending.lookup request.id = none := by
  rw [Option.eq_none_iff_forall_ne_some]
  intro stored hStored
  obtain ⟨original, hOriginal, hId, _⟩ := hr.waiting _ _ hStored
  exact hFresh.id_ne hOriginal hId

/-- A request whose id is new starts a life. -/
theorem Recorded.addPending (hr : Recorded past h) {request : ConnectionRequest}
    (hFresh : Fresh (past.map Prod.fst ++ [.addPending request])) :
    Recorded (past ++ [(ConnectionOp.addPending request, Except.ok ())]) (h.addPending request) := by
  have hUnseen : milestones request.id past = [] := by
    by_contra hSome
    obtain ⟨original, hOriginal, hId⟩ := hr.added _ hSome
    exact hFresh.id_ne hOriginal hId
  have hRequests : addedRequests
      ((past ++ [(ConnectionOp.addPending request, Except.ok ())]).map Prod.fst) =
        addedRequests (past.map Prod.fst) ++ [request] := by
    simp [ConnectionOp.request?]
  have hSelf : milestones request.id (past ++ [(ConnectionOp.addPending request, Except.ok ())]) =
      [.added] := by
    simp [milestone, hUnseen]
  have hSame : ∀ other, other ≠ request.id →
      milestones other (past ++ [(ConnectionOp.addPending request, Except.ok ())]) =
        milestones other past := by
    intro other hNe
    simp [milestone, hNe.symm]
  have hChannels : (h.addPending request).channels = h.channels := by
    rw [ConnectionHost.addPending, hr.absent hFresh]
  constructor
  · intro other stored hStored
    rw [hRequests]
    by_cases hNe : other = request.id
    · subst hNe
      rw [ConnectionHost.addPending, AList.lookup_insert] at hStored
      cases hStored
      exact ⟨request, List.mem_append_right _ List.mem_cons_self, rfl, .inl ⟨rfl, hSelf⟩⟩
    · rw [ConnectionHost.addPending, AList.lookup_insert_ne hNe] at hStored
      obtain ⟨original, hOriginal, hCase⟩ := hr.waiting _ _ hStored
      rw [hSame other hNe]
      exact ⟨original, List.mem_append_left _ hOriginal, hCase⟩
  · intro other
    refine (hr.active other).trans ?_
    by_cases hNe : other = request.id
    · subst hNe
      rw [hSelf, hUnseen]
      decide
    · rw [hSame other hNe]
  · intro other
    by_cases hNe : other = request.id
    · subst hNe
      rw [hSelf]
      exact .inl ⟨_, rfl⟩
    · rw [hSame other hNe]
      exact hr.lifecycle other
  · intro other hSome
    rw [hRequests]
    by_cases hNe : other = request.id
    · exact ⟨request, List.mem_append_right _ List.mem_cons_self, hNe.symm⟩
    · rw [hSame other hNe] at hSome
      obtain ⟨original, hOriginal, hId⟩ := hr.added other hSome
      exact ⟨original, List.mem_append_left _ hOriginal, hId⟩
  · intro message hMessage
    rw [hChannels] at hMessage
    obtain ⟨original, hOriginal, hTx, step, hStep, hDecision⟩ := hr.decided message hMessage
    refine ⟨original, ?_, hTx, step, ?_, hDecision⟩
    · rw [hRequests]
      exact List.mem_append_left _ hOriginal
    · rw [hSame _ (hFresh.id_ne hOriginal)]
      exact hStep
  · rw [hChannels]
    exact hr.once

/-- A request that waits for its decision is as it was added. -/
theorem Recorded.undecided (hr : Recorded past h) {request : ConnectionRequest}
    (hRequest : h.manager.pending.lookup id = some request) (hState : request.state = .pending) :
    request ∈ addedRequests (past.map Prod.fst) ∧ request.id = id ∧
      milestones id past = [.added] := by
  obtain ⟨original, hOriginal, hId, ⟨rfl, hTrace⟩ | ⟨rfl, _⟩⟩ := hr.waiting id request hRequest
  · exact ⟨hOriginal, hId, hTrace⟩
  · cases hState

/-- A request that waits for its activation has used its sender. -/
theorem Recorded.decidedWaiting (hr : Recorded past h) (hFresh : Fresh (past.map Prod.fst))
    {request : ConnectionRequest} (hRequest : h.manager.pending.lookup id = some request)
    (hState : request.state ≠ .pending) : request.state = .approved ∧ request.decisionTx = none ∧
      milestones id past = [.added, .approved] := by
  obtain ⟨original, hOriginal, hId, ⟨rfl, _⟩ | ⟨rfl, hTrace⟩⟩ := hr.waiting id request hRequest
  · exact absurd (hFresh.pending hOriginal) hState
  · exact ⟨rfl, rfl, hTrace⟩

theorem lookup_erase_some {table : AList fun _ : Uuid => ConnectionRequest} {removed : Uuid}
    {request : ConnectionRequest} (h : (table.erase removed).lookup id = some request) :
    table.lookup id = some request := by
  by_cases hSame : id = removed
  · subst hSame
    rw [AList.lookup_erase] at h
    cases h
  · rwa [AList.lookup_erase_ne hSame] at h

theorem Recorded.approve (hr : Recorded past h) (hFresh : Fresh (past.map Prod.fst)) (id : Uuid) :
    Recorded (past ++ [(.approveConnection id, (h.approveConnection id).1)])
      (h.approveConnection id).2 := by
  obtain ⟨e, hEq⟩ | ⟨request, hRequest, hState, hEq⟩ := h.approve_cases id
  · rw [hEq]
    exact hr.failed rfl (fun _ _ hSome => hSome) rfl rfl
  obtain ⟨hOriginal, hId, hTrace⟩ := hr.undecided hRequest hState
  rw [hEq]
  refine hr.advanced hFresh id .approved rfl (fun _ => rfl) ?_ ?_ ?_ ?_ ?_
    (.inr ⟨request, hOriginal, _, hId, hTrace, rfl, rfl⟩)
  · rw [hTrace]
    exact List.cons_ne_nil _ _
  · rw [hTrace]
    exact .inl ⟨_, rfl⟩
  · exact fun other hNe => ⟨AList.lookup_insert_ne hNe, Iff.rfl⟩
  · intro stored hStored
    rw [AList.lookup_insert] at hStored
    cases hStored
    exact ⟨request, hOriginal, hId, rfl, by rw [hTrace]; rfl⟩
  · rw [hr.active id, hTrace]
    decide

theorem Recorded.reject (hr : Recorded past h) (hFresh : Fresh (past.map Prod.fst)) (id : Uuid)
    (reason : String) :
    Recorded (past ++ [(.rejectConnection id reason, (h.rejectConnection id reason).1)])
      (h.rejectConnection id reason).2 := by
  obtain ⟨_, hEq⟩ | ⟨_, _, _, hEq⟩ | ⟨request, hRequest, hState, hEq⟩ := h.reject_cases id reason
  · rw [hEq]
    exact hr.failed rfl (fun _ _ hSome => hSome) rfl rfl
  · rw [hEq]
    exact hr.failed rfl (fun _ _ hSome => lookup_erase_some hSome) rfl rfl
  obtain ⟨hOriginal, hId, hTrace⟩ := hr.undecided hRequest hState
  rw [hEq]
  refine hr.advanced hFresh id (.rejected reason) rfl (fun _ => rfl) ?_ ?_ ?_ ?_ ?_
    (.inr ⟨request, hOriginal, _, hId, hTrace, rfl, rfl⟩)
  · rw [hTrace]
    exact List.cons_ne_nil _ _
  · rw [hTrace]
    exact .inr ⟨reason, [], rfl⟩
  · exact fun other hNe => ⟨AList.lookup_erase_ne hNe, Iff.rfl⟩
  · intro stored hStored
    rw [AList.lookup_erase] at hStored
    cases hStored
  · rw [hr.active id, hTrace]
    simp

theorem Recorded.activate (hr : Recorded past h) (hFresh : Fresh (past.map Prod.fst)) (id : Uuid)
    (now : Instant) :
    Recorded (past ++ [(.activateConnection id now, (h.activateConnection id now).1)])
      (h.activateConnection id now).2 := by
  obtain ⟨_, hEq⟩ | ⟨_, _, _, hEq⟩ | ⟨request, hRequest, hState, hEq⟩ := h.activate_cases id now
  · rw [hEq]
    exact hr.failed rfl (fun _ _ hSome => hSome) rfl rfl
  · rw [hEq]
    exact hr.failed rfl (fun _ _ hSome => lookup_erase_some hSome) rfl rfl
  obtain ⟨_, hUsed, hTrace⟩ := hr.decidedWaiting hFresh hRequest (by rw [hState]; decide)
  rw [hEq]
  refine hr.advanced hFresh id .activated rfl (fun _ => rfl) ?_ ?_ ?_ ?_ ?_
    (.inl rfl)
  · rw [hTrace]
    exact List.cons_ne_nil _ _
  · rw [hTrace]
    exact .inl ⟨_, rfl⟩
  · intro other hNe
    refine ⟨AList.lookup_erase_ne hNe, ?_⟩
    rw [AList.mem_insert]
    exact or_iff_right hNe
  · intro stored hStored
    rw [AList.lookup_erase] at hStored
    cases hStored
  · rw [hTrace, AList.mem_insert]
    simp

theorem Recorded.close (hr : Recorded past h) (hFresh : Fresh (past.map Prod.fst)) (id : Uuid) :
    Recorded (past ++ [(.closeConnection id, (h.closeConnection id).1)])
      (h.closeConnection id).2 := by
  obtain ⟨_, hEq⟩ | ⟨hActive, hEq⟩ := h.close_cases id
  · rw [hEq]
    exact hr.failed rfl (fun _ _ hSome => hSome) rfl rfl
  have hTrace := (hr.active id).mp hActive
  rw [hEq]
  refine hr.advanced hFresh id .closed rfl (fun _ => rfl) ?_ ?_ ?_ ?_ ?_
    (.inl rfl)
  · rw [hTrace]
    exact List.cons_ne_nil _ _
  · rw [hTrace]
    exact .inl ⟨[], rfl⟩
  · intro other hNe
    refine ⟨rfl, ?_⟩
    rw [AList.mem_erase]
    exact and_iff_right hNe
  · intro request hRequest
    obtain ⟨_, _, _, ⟨_, hOther⟩ | ⟨_, hOther⟩⟩ := hr.waiting id request hRequest <;>
      rw [hTrace] at hOther <;> cases hOther
  · rw [hTrace, AList.mem_erase]
    simp

theorem Recorded.step (hr : Recorded past h) (op : ConnectionOp)
    (hFresh : Fresh (past.map Prod.fst ++ [op])) :
    Recorded (past ++ [(op, (h.step op).1)]) (h.step op).2 := by
  have hPast := hFresh.of_append
  cases op with
  | addPending request => exact hr.addPending hFresh
  | approveConnection id => exact hr.approve hPast id
  | rejectConnection id reason => exact hr.reject hPast id reason
  | activateConnection id now => exact hr.activate hPast id now
  | closeConnection id => exact hr.close hPast id

theorem Recorded.run {ops : List ConnectionOp} (hFresh : Fresh ops) :
    Recorded (history ConnectionHost.step new ops) (run ConnectionHost.step new ops) := by
  have hStep : ∀ past (h : ConnectionHost) op, Fresh (past.map Prod.fst ++ [op]) →
      Recorded past h → Recorded (past ++ [(op, (h.step op).1)]) (h.step op).2 :=
    fun past h op hFresh hr => hr.step op hFresh
  exact @invariant_history _ _ _ _ Fresh Fresh.of_append Recorded hStep new [] recorded_new ops hFresh

/-- One call sends at most the decision that it takes. -/
theorem sent_step (h : ConnectionHost) (op : ConnectionOp) {message : Sender × ConnectionApproval}
    (hMessage : message ∈ (h.step op).2.channels.sent) :
    message ∈ h.channels.sent ∨ (h.step op).1 = .ok () ∧ ∃ id request,
      h.manager.pending.lookup id = some request ∧ request.decisionTx = some message.1 ∧
        (op = .approveConnection id ∧ message.2 = .approved ∨
          ∃ reason, op = .rejectConnection id reason ∧ message.2 = .rejected reason) := by
  have hSend : ∀ {tx : Option Sender} {decision : ConnectionApproval},
      message ∈ (h.channels.send tx decision).sent →
        message ∈ h.channels.sent ∨ tx = some message.1 ∧ message.2 = decision := by
    intro tx decision hSent
    rw [Channels.send, List.mem_append, Option.mem_toList, Option.map_eq_some_iff] at hSent
    obtain hOld | ⟨_, rfl, rfl⟩ := hSent
    · exact .inl hOld
    · exact .inr ⟨rfl, rfl⟩
  cases op with
  | addPending request =>
    refine .inl ?_
    rw [ConnectionHost.step, ConnectionHost.addPending] at hMessage
    cases hStored : h.manager.pending.lookup request.id <;> rw [hStored] at hMessage <;>
      exact hMessage
  | approveConnection id =>
    rw [ConnectionHost.step] at hMessage ⊢
    obtain ⟨_, hEq⟩ | ⟨request, hRequest, _, hEq⟩ := h.approve_cases id <;> rw [hEq] at hMessage ⊢
    · exact .inl hMessage
    · refine (hSend hMessage).imp_right ?_
      rintro ⟨hTx, hDecision⟩
      exact ⟨rfl, id, request, hRequest, hTx, .inl ⟨rfl, hDecision⟩⟩
  | rejectConnection id reason =>
    rw [ConnectionHost.step] at hMessage ⊢
    obtain ⟨_, hEq⟩ | ⟨_, _, _, hEq⟩ | ⟨request, hRequest, _, hEq⟩ := h.reject_cases id reason <;>
      rw [hEq] at hMessage ⊢
    · exact .inl hMessage
    · exact .inl hMessage
    · refine (hSend hMessage).imp_right ?_
      rintro ⟨hTx, hDecision⟩
      exact ⟨rfl, id, request, hRequest, hTx, .inr ⟨reason, rfl, hDecision⟩⟩
  | activateConnection id now =>
    refine .inl ?_
    rw [ConnectionHost.step] at hMessage
    obtain ⟨_, hEq⟩ | ⟨_, _, _, hEq⟩ | ⟨_, _, _, hEq⟩ := h.activate_cases id now <;>
      rw [hEq] at hMessage <;> exact hMessage
  | closeConnection id =>
    refine .inl ?_
    rw [ConnectionHost.step] at hMessage
    obtain ⟨_, hEq⟩ | ⟨_, hEq⟩ := h.close_cases id <;> rw [hEq] at hMessage <;> exact hMessage

end ConnectionHost

/-- In every run each id lives one life, and is active exactly between its activation
and its close. Each sender is used once at most, by the call that took its decision. -/
theorem lifecycle_safe {ops : List ConnectionOp} (hFresh : Fresh ops) :
    (∀ id, ¬(id ∈ (run ConnectionHost.step .new ops).manager.pending ∧
      id ∈ (run ConnectionHost.step .new ops).manager.active)) ∧
    (∀ id, Lifecycle (milestones id (history ConnectionHost.step .new ops))) ∧
    (∀ id, id ∈ (run ConnectionHost.step .new ops).manager.active ↔
      milestones id (history ConnectionHost.step .new ops) = [.added, .approved, .activated]) ∧
    ((run ConnectionHost.step .new ops).channels.sent.map Prod.fst).Nodup ∧
    (∀ message ∈ (run ConnectionHost.step .new ops).channels.sent,
      ∃ request ∈ addedRequests ops, request.decisionTx = some message.1 ∧
        ∃ step ∈ milestones request.id (history ConnectionHost.step .new ops),
          step.decision = some message.2) ∧
    ∀ before op after, ops = before ++ op :: after →
      ∀ message ∈ ((run ConnectionHost.step .new before).step op).2.channels.sent,
        message ∈ (run ConnectionHost.step .new before).channels.sent ∨
        ((run ConnectionHost.step .new before).step op).1 = .ok () ∧ ∃ request,
          (run ConnectionHost.step .new before).manager.pending.lookup request.id = some request ∧
          request.decisionTx = some message.1 ∧
          (op = .approveConnection request.id ∧ message.2 = .approved ∨
            ∃ reason, op = .rejectConnection request.id reason ∧
              message.2 = .rejected reason) := by
  have hr := ConnectionHost.Recorded.run hFresh
  refine ⟨?_, hr.lifecycle, hr.active, hr.once, ?_, ?_⟩
  · rintro id ⟨hPending, hActive⟩
    obtain ⟨request, hRequest⟩ := Option.isSome_iff_exists.mp (AList.lookup_isSome.mpr hPending)
    rw [hr.active] at hActive
    obtain ⟨_, _, _, ⟨_, hTrace⟩ | ⟨_, hTrace⟩⟩ := hr.waiting id request hRequest <;>
      rw [hActive] at hTrace <;> cases hTrace
  · intro message hMessage
    have hDecided := hr.decided message hMessage
    rwa [history_map_fst] at hDecided
  · rintro before op after rfl message hMessage
    refine (ConnectionHost.sent_step _ op hMessage).imp_right ?_
    rintro ⟨hOk, id, request, hRequest, hTx, hOp⟩
    have hBefore := ConnectionHost.Recorded.run hFresh.of_append
    obtain ⟨original, _, hId, ⟨hSame, _⟩ | ⟨hSame, _⟩⟩ := hBefore.waiting id request hRequest
    · subst hSame
      subst hId
      exact ⟨hOk, request, hRequest, hTx, hOp⟩
    · subst hSame
      cases hTx

/-- One connection that is approved and activated, and one that is rejected. -/
def twoLives : List ConnectionOp :=
  [.addPending (.new 1 (.v4 ⟨#v[10, 0, 0, 1]⟩ 5000) (.reverseTunnel .webService none) (some 0)),
    .addPending (.new 2 (.v4 ⟨#v[10, 0, 0, 2]⟩ 5000) (.reverseTunnel .sshService none) (some 1)),
    .approveConnection 1, .rejectConnection 2 "busy", .rejectConnection 2 "busy",
    .activateConnection 1 0]

theorem fresh_twoLives : Fresh twoLives := by
  refine ⟨fun request hRequest => ?_, by decide, by decide⟩
  have hRequests : request ∈ [_, _] := hRequest
  simp only [List.mem_cons, List.not_mem_nil, or_false] at hRequests
  obtain rfl | rfl := hRequests <;> exact ⟨_, _, _, _, rfl⟩

theorem lifecycle_safe_twoLives :
    (1 : Uuid) ∈ (run ConnectionHost.step .new twoLives).manager.active :=
  ((lifecycle_safe fresh_twoLives).2.2.1 1).mpr (by decide)

end CrabbyProxy.Connection
