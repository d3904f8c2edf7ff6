import CrabbyProxy.Connection.Lifecycle

/-!
# Failed calls and lost decisions

A rejection and an activation take the entry out of the table before they look at its
state. A call out of order therefore fails and loses it, and an activation that comes
before the decision loses the sender of a client that still waits.
-/

namespace CrabbyProxy.Connection

open Execution
set_option autoImplicit false

namespace ConnectionHost

/-- A failed call leaves the tables as they are, and sends nothing. -/
def FailsClean (h : ConnectionHost) (op : ConnectionOp) : Prop :=
  ∀ e, (h.step op).1 = .error e →
    (h.step op).2.manager = h.manager ∧ (h.step op).2.channels.sent = h.channels.sent

/-- A rejection finds its entry, if there is one, pending, and an activation approved. -/
def InOrder (h : ConnectionHost) : ConnectionOp → Prop
  | .rejectConnection id _ =>
    ∀ request, h.manager.pending.lookup id = some request → request.state = .pending
  | .activateConnection id _ =>
    ∀ request, h.manager.pending.lookup id = some request → request.state = .approved
  | _ => True

theorem erase_ne_of_lookup {table : AList fun _ : Uuid => ConnectionRequest} {id : Uuid}
    {request : ConnectionRequest} (h : table.lookup id = some request) :
    table.erase id ≠ table := by
  intro hSame
  rw [← hSame, AList.lookup_erase] at h
  cases h

theorem failsClean_iff (h : ConnectionHost) (op : ConnectionOp) :
    h.FailsClean op ↔ h.InOrder op := by
  cases op with
  | addPending request => exact iff_of_true (fun e hError => by cases hError) trivial
  | approveConnection id =>
    refine iff_of_true ?_ trivial
    intro e hError
    rw [ConnectionHost.step] at hError ⊢
    obtain ⟨_, hEq⟩ | ⟨_, _, _, hEq⟩ := h.approve_cases id <;> rw [hEq] at hError ⊢
    · exact ⟨rfl, rfl⟩
    · cases hError
  | rejectConnection id reason =>
    rw [FailsClean, ConnectionHost.step, InOrder]
    obtain ⟨hNone, hEq⟩ | ⟨request, hRequest, hState, hEq⟩ | ⟨request, hRequest, hState, hEq⟩ :=
      h.reject_cases id reason <;> rw [hEq]
    · simp [hNone]
    · refine iff_of_false (fun hClean => ?_) fun hOrder => hState (hOrder request hRequest)
      have hPending := congrArg ConnectionManager.pending (hClean _ rfl).1
      exact erase_ne_of_lookup hRequest hPending
    · simp [hRequest, hState]
  | activateConnection id now =>
    rw [FailsClean, ConnectionHost.step, InOrder]
    obtain ⟨hNone, hEq⟩ | ⟨request, hRequest, hState, hEq⟩ | ⟨request, hRequest, hState, hEq⟩ :=
      h.activate_cases id now <;> rw [hEq]
    · simp [hNone]
    · refine iff_of_false (fun hClean => ?_) fun hOrder => hState (hOrder request hRequest)
      have hPending := congrArg ConnectionManager.pending (hClean _ rfl).1
      exact erase_ne_of_lookup hRequest hPending
    · simp [hRequest, hState]
  | closeConnection id =>
    refine iff_of_true ?_ trivial
    intro e hError
    rw [ConnectionHost.step] at hError ⊢
    obtain ⟨_, hEq⟩ | ⟨_, hEq⟩ := h.close_cases id <;> rw [hEq] at hError ⊢
    · exact ⟨rfl, rfl⟩
    · cases hError

/-- The request waits as it was added, and its sender with it. -/
def Waits (h : ConnectionHost) (request : ConnectionRequest) : Prop :=
  h.manager.pending.lookup request.id = some request ∧ request.state = .pending

/-- Exactly one message was sent on the sender of the request, and it is a decision. -/
def Decided (h : ConnectionHost) (request : ConnectionRequest) : Prop :=
  ∃ tx decision, request.decisionTx = some tx ∧
    h.channels.sent.filter (·.1 = tx) = [(tx, decision)] ∧
    (decision = .approved ∨ ∃ reason, decision = .rejected reason)

/-- Every added request waits or is decided, and no unused sender was dropped. -/
def NoneLost (ops : List ConnectionOp) (h : ConnectionHost) : Prop :=
  h.channels.dropped = [] ∧
    ∀ request ∈ addedRequests ops, h.Waits request ∨ h.Decided request

/-- An activation does not find its entry still waiting for the decision. -/
def DecidedFirst (h : ConnectionHost) : ConnectionOp → Prop
  | .activateConnection id _ =>
    ∀ request, h.manager.pending.lookup id = some request → request.state ≠ .pending
  | _ => True

variable {past : List Event} {h h' : ConnectionHost} {id : Uuid}

theorem noneLost_congr {ops : List ConnectionOp} (hDropped : h'.channels.dropped = h.channels.dropped)
    (hSettled : ∀ request ∈ addedRequests ops,
      h'.Waits request ∨ h'.Decided request ↔ h.Waits request ∨ h.Decided request) :
    NoneLost ops h' ↔ NoneLost ops h := by
  rw [NoneLost, NoneLost, hDropped]
  exact and_congr_right fun _ => forall₂_congr hSettled

theorem Decided.congr {request : ConnectionRequest} (hSent : h'.channels.sent = h.channels.sent) :
    h'.Decided request ↔ h.Decided request := by
  rw [Decided, Decided, hSent]

theorem noneLost_erase (hr : Recorded past h) (hFresh : Fresh (past.map Prod.fst))
    {request : ConnectionRequest} (hRequest : h.manager.pending.lookup id = some request)
    (hState : request.state ≠ .pending)
    (hPending : h'.manager.pending = h.manager.pending.erase id)
    (hChannels : h'.channels = h.channels.drop request) :
    NoneLost (past.map Prod.fst) h' ↔ NoneLost (past.map Prod.fst) h := by
  obtain ⟨_, hUsed, _⟩ := hr.decidedWaiting hFresh hRequest hState
  have hSame : h'.channels = h.channels := by
    rw [hChannels, Channels.drop, hUsed, Option.toList_none, List.append_nil]
  refine noneLost_congr (by rw [hSame]) fun added _ => ?_
  rw [Decided.congr (congrArg Channels.sent hSame), Waits, Waits, hPending]
  by_cases hSelf : added.id = id
  · subst hSelf
    rw [AList.lookup_erase, hRequest]
    refine or_congr_left (iff_of_false (fun hWaits => nomatch hWaits.1) fun hWaits => ?_)
    obtain ⟨hStored, hWaiting⟩ := hWaits
    cases hStored
    exact hState hWaiting
  · rw [AList.lookup_erase_ne hSelf]

theorem noneLost_decide (hr : Recorded past h) (hFresh : Fresh (past.map Prod.fst))
    {request : ConnectionRequest} (hRequest : h.manager.pending.lookup id = some request)
    (hState : request.state = .pending) {tx : Sender} (hTx : request.decisionTx = some tx)
    {decision : ConnectionApproval}
    (hDecision : decision = .approved ∨ ∃ reason, decision = .rejected reason)
    (hPending : ∀ other, other ≠ id →
      h'.manager.pending.lookup other = h.manager.pending.lookup other)
    (hChannels : h'.channels = h.channels.send request.decisionTx decision) :
    NoneLost (past.map Prod.fst) h' ↔ NoneLost (past.map Prod.fst) h := by
  obtain ⟨hOriginal, hId, hTrace⟩ := hr.undecided hRequest hState
  have hUnused := hr.unused hFresh hOriginal (hId ▸ hTrace) hTx
  have hSent : h'.channels.sent = h.channels.sent ++ [(tx, decision)] := by
    rw [hChannels, hTx]
    rfl
  refine noneLost_congr (by rw [hChannels]; rfl) fun added hAdded => ?_
  by_cases hSelf : added = request
  · subst hSelf
    refine iff_of_true (.inr ⟨tx, decision, hTx, ?_, hDecision⟩) (.inl ⟨hId ▸ hRequest, hState⟩)
    have hNone : h.channels.sent.filter (·.1 = tx) = [] := by
      refine List.filter_eq_nil_iff.mpr fun message hMessage hSame => hUnused ?_
      exact List.mem_map.mpr ⟨message, hMessage, of_decide_eq_true hSame⟩
    rw [hSent, List.filter_append, hNone]
    simp
  · have hOther : added.id ≠ id := fun hSame =>
      hSelf (hFresh.eq_of_id hAdded hOriginal (hSame.trans hId.symm))
    have hApart : ∀ used, added.decisionTx = some used → tx ≠ used := by
      rintro used hUsed rfl
      exact hSelf (hFresh.eq_of_sender hAdded hOriginal hUsed hTx)
    refine or_congr (by rw [Waits, Waits, hPending _ hOther]) ?_
    refine exists_congr fun used => exists_congr fun answer => and_congr_right fun hUsed => ?_
    rw [hSent, List.filter_append]
    simp [hApart used hUsed]

theorem noneLost_add (hr : Recorded past h) {request : ConnectionRequest}
    (hFresh : Fresh (past.map Prod.fst ++ [.addPending request])) :
    NoneLost (past.map Prod.fst ++ [.addPending request]) (h.addPending request) ↔
      NoneLost (past.map Prod.fst) h := by
  have hRequests : addedRequests (past.map Prod.fst ++ [.addPending request]) =
      addedRequests (past.map Prod.fst) ++ [request] := by
    simp [ConnectionOp.request?]
  have hMem : request ∈ addedRequests (past.map Prod.fst ++ [.addPending request]) := by
    rw [hRequests]
    exact List.mem_append_right _ List.mem_cons_self
  have hChannels : (h.addPending request).channels = h.channels := by
    rw [ConnectionHost.addPending, hr.absent hFresh]
  have hWaits : (h.addPending request).Waits request :=
    ⟨AList.lookup_insert _, hFresh.pending hMem⟩
  have hOld : ∀ added ∈ addedRequests (past.map Prod.fst),
      (h.addPending request).Waits added ∨ (h.addPending request).Decided added ↔
        h.Waits added ∨ h.Decided added := by
    intro added hAdded
    refine or_congr (and_congr_left fun _ => ?_) (Decided.congr (congrArg Channels.sent hChannels))
    rw [ConnectionHost.addPending, AList.lookup_insert_ne (hFresh.id_ne hAdded)]
  refine Iff.trans ?_ (noneLost_congr (by rw [hChannels]) hOld)
  rw [NoneLost, NoneLost, hRequests]
  refine and_congr_right fun _ => ?_
  simp only [List.forall_mem_append, List.forall_mem_singleton]
  exact and_iff_left (.inl hWaits)

theorem noneLost_step (hr : Recorded past h) {op : ConnectionOp}
    (hFresh : Fresh (past.map Prod.fst ++ [op]))
    (hSenders : ∀ request ∈ addedRequests (past.map Prod.fst), request.decisionTx ≠ none) :
    NoneLost (past.map Prod.fst ++ [op]) (h.step op).2 ↔
      NoneLost (past.map Prod.fst) h ∧ h.DecidedFirst op := by
  have hPast := hFresh.of_append
  have hSender : ∀ id request, h.manager.pending.lookup id = some request →
      request.state = .pending → ∃ tx, request.decisionTx = some tx := by
    intro id request hRequest hState
    exact Option.ne_none_iff_exists'.mp (hSenders request (hr.undecided hRequest hState).1)
  have hRequests : op.request? = none →
      addedRequests (past.map Prod.fst ++ [op]) = addedRequests (past.map Prod.fst) := by
    intro hNone
    rw [addedRequests_append, addedRequests_singleton, hNone]
    exact List.append_nil _
  cases op with
  | addPending request => exact (noneLost_add hr hFresh).trans (and_iff_left trivial).symm
  | approveConnection id =>
    rw [NoneLost, hRequests rfl, ConnectionHost.step, ← NoneLost]
    refine Iff.trans ?_ (and_iff_left trivial).symm
    obtain ⟨_, hEq⟩ | ⟨request, hRequest, hState, hEq⟩ := h.approve_cases id <;> rw [hEq]
    obtain ⟨tx, hTx⟩ := hSender id request hRequest hState
    exact noneLost_decide hr hPast hRequest hState hTx (.inl rfl)
      (fun other hNe => AList.lookup_insert_ne hNe) rfl
  | rejectConnection id reason =>
    rw [NoneLost, hRequests rfl, ConnectionHost.step, ← NoneLost]
    refine Iff.trans ?_ (and_iff_left trivial).symm
    obtain ⟨_, hEq⟩ | ⟨request, hRequest, hState, hEq⟩ | ⟨request, hRequest, hState, hEq⟩ :=
      h.reject_cases id reason <;> rw [hEq]
    · exact noneLost_erase hr hPast hRequest hState rfl rfl
    · obtain ⟨tx, hTx⟩ := hSender id request hRequest hState
      exact noneLost_decide hr hPast hRequest hState hTx (.inr ⟨reason, rfl⟩)
        (fun other hNe => AList.lookup_erase_ne hNe) rfl
  | activateConnection id now =>
    rw [NoneLost, hRequests rfl, ConnectionHost.step, ← NoneLost, DecidedFirst]
    obtain ⟨hNone, hEq⟩ | ⟨request, hRequest, hState, hEq⟩ | ⟨request, hRequest, hState, hEq⟩ :=
      h.activate_cases id now <;> rw [hEq]
    · exact (and_iff_left fun request hRequest => by rw [hNone] at hRequest; cases hRequest).symm
    · have hPending : request.state = .pending := by
        by_contra hOther
        exact hState (hr.decidedWaiting hPast hRequest hOther).1
      obtain ⟨tx, hTx⟩ := hSender id request hRequest hPending
      refine iff_of_false ?_ fun hBoth => hBoth.2 request hRequest hPending
      rintro ⟨hDropped, _⟩
      simp [Channels.drop, hTx] at hDropped
    · have hDecided : request.state ≠ .pending := by
        rw [hState]
        decide
      refine (noneLost_erase hr hPast hRequest hDecided rfl rfl).trans (and_iff_left ?_).symm
      intro stored hStored
      obtain rfl := Option.some.inj (hRequest.symm.trans hStored)
      exact hDecided
  | closeConnection id =>
    rw [NoneLost, hRequests rfl, ConnectionHost.step, ← NoneLost]
    refine Iff.trans ?_ (and_iff_left trivial).symm
    obtain ⟨_, hEq⟩ | ⟨_, hEq⟩ := h.close_cases id <;> rw [hEq]
    exact noneLost_congr rfl fun _ _ => Iff.rfl

end ConnectionHost

/-- In every reachable state a call that fails changes nothing exactly when it is in
order. -/
theorem failure_changes_nothing_iff (ops : List ConnectionOp) (op : ConnectionOp) :
    (run ConnectionHost.step .new ops).FailsClean op ↔
      (run ConnectionHost.step .new ops).InOrder op :=
  ConnectionHost.failsClean_iff _ op

/-- A rejection that comes after the approval fails, and the approved connection is gone. -/
theorem late_rejection_loses_connection :
    let h := run ConnectionHost.step .new
      [.addPending (.new 1 (.v4 ⟨#v[10, 0, 0, 1]⟩ 5000) (.reverseTunnel .webService none) (some 0)),
        .approveConnection 1]
    (h.step (.rejectConnection 1 "late")).1 = .error .invalidState ∧
      (h.step (.rejectConnection 1 "late")).2.manager.pending.lookup 1 = none ∧
      ¬h.FailsClean (.rejectConnection 1 "late") := by
  refine ⟨by decide, by decide, ?_⟩
  rw [ConnectionHost.failsClean_iff]
  intro hOrder
  have hState := hOrder _ rfl
  cases hState

/-- A run loses no decision exactly when no activation comes before its decision. -/
theorem no_decision_lost_iff {ops : List ConnectionOp} (hFresh : Fresh ops)
    (hSenders : ∀ request ∈ addedRequests ops, request.decisionTx ≠ none) :
    ConnectionHost.NoneLost ops (run ConnectionHost.step .new ops) ↔
      Along ConnectionHost.step ConnectionHost.DecidedFirst .new ops := by
  induction ops using List.reverseRecOn with
  | nil => exact iff_of_true ⟨rfl, fun _ hRequest => nomatch hRequest⟩ trivial
  | append_singleton ops op ih =>
    have hPast : ∀ request ∈ addedRequests ops, request.decisionTx ≠ none := by
      intro request hRequest
      apply hSenders
      rw [addedRequests_append]
      exact List.mem_append_left _ hRequest
    have hr := ConnectionHost.Recorded.run hFresh.of_append
    have hStep := @ConnectionHost.noneLost_step _ _ hr op
    rw [history_map_fst] at hStep
    rw [run_append, along_append, ← ih hFresh.of_append hPast]
    exact (hStep hFresh hPast).trans (and_congr_right fun _ => (and_iff_left trivial).symm)

theorem no_decision_lost_iff_twoLives :
    ConnectionHost.NoneLost twoLives (run ConnectionHost.step .new twoLives) := by
  refine (no_decision_lost_iff fresh_twoLives ?_).mpr ?_
  · intro request hRequest
    have hRequests : request ∈ [_, _] := hRequest
    simp only [List.mem_cons, List.not_mem_nil, or_false] at hRequests
    obtain rfl | rfl := hRequests <;> exact Option.some_ne_none _
  · refine ⟨trivial, trivial, trivial, trivial, trivial, ?_, trivial⟩
    intro request hRequest
    cases hRequest
    decide

/-- An activation that comes too early cuts the client off. -/
theorem early_activation_loses_decision :
    let ops : List ConnectionOp :=
      [.addPending (.new 1 (.v4 ⟨#v[10, 0, 0, 1]⟩ 5000) (.reverseTunnel .webService none) (some 0)),
        .activateConnection 1 0]
    Fresh ops ∧ (run ConnectionHost.step .new ops).channels.dropped = [0] ∧
      (run ConnectionHost.step .new ops).channels.sent = [] ∧
      ¬ConnectionHost.NoneLost ops (run ConnectionHost.step .new ops) := by
  refine ⟨⟨fun request hRequest => ?_, by decide, by decide⟩, by decide, by decide, ?_⟩
  · obtain rfl := List.mem_singleton.mp hRequest
    exact ⟨_, _, _, _, rfl⟩
  · rintro ⟨hDropped, _⟩
    exact absurd hDropped (by decide)

end CrabbyProxy.Connection
