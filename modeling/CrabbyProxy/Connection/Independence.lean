import CrabbyProxy.Connection.Manager
import CrabbyProxy.Library.Projection

/-!
# One request among many

The handlers of all clients share one connection manager. What it does with a request
depends on the calls that name the id of that request, so the handlers cannot disturb each
other, in whatever order the lock lets them in.
-/

namespace CrabbyProxy.Connection
open Execution
set_option autoImplicit false

/-- What a call answers, and what it does to the channels. -/
structure Outcome where
  answer : Except ConnectionError Unit
  sent : List (Sender × ConnectionApproval)
  dropped : List Sender
  deriving DecidableEq

/-- The entries of one id. -/
structure Slot where
  pending : Option ConnectionRequest
  active : Option Instant
  deriving DecidableEq

def ConnectionOp.id : ConnectionOp → Uuid
  | .addPending request => request.id
  | .approveConnection id | .rejectConnection id _ | .activateConnection id _
  | .closeConnection id => id

namespace Slot

def empty : Slot := ⟨none, none⟩

/-- A manager that serves a single request. -/
def step (s : Slot) : ConnectionOp → Outcome × Slot
  | .addPending request =>
    (⟨.ok (), [], (s.pending.bind ConnectionRequest.decisionTx).toList⟩,
      { s with pending := some request })
  | .approveConnection _ =>
    match s.pending with
    | none => (⟨.error .notFound, [], []⟩, s)
    | some request =>
      if request.state ≠ .pending then (⟨.error .invalidState, [], []⟩, s)
      else (⟨.ok (), (request.decisionTx.map (·, .approved)).toList, []⟩,
        { s with pending := some request.approve })
  | .rejectConnection _ reason =>
    match s.pending with
    | none => (⟨.error .notFound, [], []⟩, s)
    | some request =>
      if request.state ≠ .pending then
        (⟨.error .invalidState, [], request.decisionTx.toList⟩, { s with pending := none })
      else (⟨.ok (), (request.decisionTx.map (·, .rejected reason)).toList, []⟩,
        { s with pending := none })
  | .activateConnection _ now =>
    match s.pending with
    | none => (⟨.error .notFound, [], []⟩, s)
    | some request =>
      if request.state ≠ .approved then
        (⟨.error .invalidState, [], request.decisionTx.toList⟩, { s with pending := none })
      else (⟨.ok (), [], request.decisionTx.toList⟩, ⟨none, some now⟩)
  | .closeConnection _ =>
    match s.active with
    | none => (⟨.error .notFound, [], []⟩, s)
    | some _ => (⟨.ok (), [], []⟩, { s with active := none })

end Slot

namespace ConnectionHost

def slot (h : ConnectionHost) (id : Uuid) : Slot :=
  ⟨h.manager.pending.lookup id, h.manager.active.lookup id⟩

/-- A call, with what it adds to the channels. -/
def call (h : ConnectionHost) (op : ConnectionOp) : Outcome × ConnectionHost :=
  (⟨(h.step op).1, (h.step op).2.channels.sent.drop h.channels.sent.length,
    (h.step op).2.channels.dropped.drop h.channels.dropped.length⟩, (h.step op).2)

variable {h h' : ConnectionHost} {id : Uuid}

/-- A call does what its own slot says, appends it to the channels, and leaves the other
slots alone. -/
structure Acts (h h' : ConnectionHost) (id : Uuid) (outcome : Outcome) (s : Slot) : Prop where
  slot : h'.slot id = s
  frame : ∀ other, id ≠ other → h'.slot other = h.slot other
  sent : h'.channels.sent = h.channels.sent ++ outcome.sent
  dropped : h'.channels.dropped = h.channels.dropped ++ outcome.dropped

theorem Acts.refl (answer : Except ConnectionError Unit) :
    Acts h h id ⟨answer, [], []⟩ (h.slot id) :=
  ⟨rfl, fun _ _ => rfl, (List.append_nil _).symm, (List.append_nil _).symm⟩

theorem slot_pending (h : ConnectionHost) (id : Uuid) :
    (h.slot id).pending = h.manager.pending.lookup id := rfl

theorem slot_active (h : ConnectionHost) (id : Uuid) :
    (h.slot id).active = h.manager.active.lookup id := rfl

theorem slot_eq (manager : ConnectionManager) (channels : Channels) (id : Uuid) :
    slot ⟨manager, channels⟩ id = ⟨manager.pending.lookup id, manager.active.lookup id⟩ := rfl

theorem acts_insert (h : ConnectionHost) (request : ConnectionRequest) (channels : Channels)
    {outcome : Outcome} (hSent : channels.sent = h.channels.sent ++ outcome.sent)
    (hDropped : channels.dropped = h.channels.dropped ++ outcome.dropped) :
    Acts h ⟨{ h.manager with pending := h.manager.pending.insert id request }, channels⟩ id outcome
      { h.slot id with pending := some request } where
  slot := by rw [slot_eq, AList.lookup_insert]; rfl
  frame other hNe := by rw [slot_eq, AList.lookup_insert_ne hNe.symm]; rfl
  sent := hSent
  dropped := hDropped

theorem acts_erase (h : ConnectionHost) (channels : Channels) {outcome : Outcome}
    (hSent : channels.sent = h.channels.sent ++ outcome.sent)
    (hDropped : channels.dropped = h.channels.dropped ++ outcome.dropped) :
    Acts h ⟨{ h.manager with pending := h.manager.pending.erase id }, channels⟩ id outcome
      { h.slot id with pending := none } where
  slot := by rw [slot_eq, AList.lookup_erase]; rfl
  frame other hNe := by rw [slot_eq, AList.lookup_erase_ne hNe.symm]; rfl
  sent := hSent
  dropped := hDropped

/-- Every operation acts on its own slot, as that slot would by itself. -/
theorem step_acts (h : ConnectionHost) (op : ConnectionOp) :
    (h.step op).1 = ((h.slot op.id).step op).1.answer ∧
      Acts h (h.step op).2 op.id ((h.slot op.id).step op).1 ((h.slot op.id).step op).2 := by
  cases op with
  | addPending request =>
    refine ⟨rfl, acts_insert h request _ ?_ ?_⟩
    · cases h.manager.pending.lookup request.id <;> exact (List.append_nil _).symm
    · rw [Slot.step]
      dsimp only [slot, ConnectionOp.id]
      cases h.manager.pending.lookup request.id with
      | none => exact (List.append_nil _).symm
      | some replaced => rfl
  | approveConnection id =>
    rw [step, approveConnection, ConnectionOp.id, Slot.step, slot_pending]
    cases h.manager.pending.lookup id with
    | none => exact ⟨rfl, .refl _⟩
    | some request =>
      dsimp only
      by_cases hState : request.state ≠ .pending
      · rw [if_pos hState, if_pos hState]
        exact ⟨rfl, .refl _⟩
      · rw [if_neg hState, if_neg hState]
        exact ⟨rfl, acts_insert h _ _ rfl (List.append_nil _).symm⟩
  | rejectConnection id reason =>
    rw [step, rejectConnection, ConnectionOp.id, Slot.step, slot_pending]
    cases h.manager.pending.lookup id with
    | none => exact ⟨rfl, .refl _⟩
    | some request =>
      dsimp only
      by_cases hState : request.state ≠ .pending
      · rw [if_pos hState, if_pos hState]
        exact ⟨rfl, acts_erase h _ (List.append_nil _).symm rfl⟩
      · rw [if_neg hState, if_neg hState]
        exact ⟨rfl, acts_erase h _ rfl (List.append_nil _).symm⟩
  | activateConnection id now =>
    rw [step, activateConnection, ConnectionOp.id, Slot.step, slot_pending]
    cases h.manager.pending.lookup id with
    | none => exact ⟨rfl, .refl _⟩
    | some request =>
      dsimp only
      by_cases hState : request.state ≠ .approved
      · rw [if_pos hState, if_pos hState]
        exact ⟨rfl, acts_erase h _ (List.append_nil _).symm rfl⟩
      · rw [if_neg hState, if_neg hState]
        refine ⟨rfl, ?_, fun other hNe => ?_, (List.append_nil _).symm, rfl⟩
        · rw [slot_eq, AList.lookup_erase, AList.lookup_insert]
        · rw [slot_eq, AList.lookup_erase_ne hNe.symm, AList.lookup_insert_ne hNe.symm]
          rfl
  | closeConnection id =>
    rw [step, closeConnection, ConnectionOp.id, Slot.step, slot_active]
    cases hActive : h.manager.active.lookup id with
    | none =>
      rw [if_neg fun hMem => ?_]
      · exact ⟨rfl, .refl _⟩
      · obtain ⟨since, hSome⟩ := Option.isSome_iff_exists.mp (AList.lookup_isSome.mpr hMem)
        rw [hActive] at hSome
        cases hSome
    | some since =>
      rw [if_pos (AList.lookup_isSome.mp (hActive ▸ rfl))]
      refine ⟨rfl, ?_, fun other hNe => ?_, (List.append_nil _).symm, (List.append_nil _).symm⟩
      · rw [slot_eq, AList.lookup_erase]
        rfl
      · rw [slot_eq, AList.lookup_erase_ne hNe.symm]
        rfl

theorem splits : Splits call ConnectionOp.id slot Slot.step where
  own h op := by
    obtain ⟨hAnswer, hActs⟩ := h.step_acts op
    rw [call, hActs.sent, hActs.dropped, List.drop_left, List.drop_left, hAnswer, hActs.slot]
  frame h op other hNe := (h.step_acts op).2.frame other hNe

theorem run_call (h : ConnectionHost) (ops : List ConnectionOp) : run call h ops = run step h ops := by
  induction ops generalizing h with
  | nil => rfl
  | cons op ops ih => exact ih (h.step op).2

theorem history_call (h : ConnectionHost) (ops : List ConnectionOp) :
    (history call h ops).map (fun event => (event.1, event.2.answer)) = history step h ops := by
  induction ops generalizing h with
  | nil => rfl
  | cons op ops ih => exact congrArg _ (ih (h.step op).2)

/-- The channels record what the calls did to them, one after the other. -/
theorem channels_call (h : ConnectionHost) (ops : List ConnectionOp) :
    (run step h ops).channels.sent =
        h.channels.sent ++ (history call h ops).flatMap (·.2.sent) ∧
      (run step h ops).channels.dropped =
        h.channels.dropped ++ (history call h ops).flatMap (·.2.dropped) := by
  induction ops generalizing h with
  | nil => exact ⟨(List.append_nil _).symm, (List.append_nil _).symm⟩
  | cons op ops ih =>
    obtain ⟨hAnswer, hActs⟩ := h.step_acts op
    obtain ⟨hSent, hDropped⟩ := ih (h.step op).2
    have hCall : (h.call op).1 = ((h.slot op.id).step op).1 :=
      congrArg Prod.fst (splits.own h op).symm
    rw [run, hSent, hDropped, hActs.sent, hActs.dropped, history, List.flatMap_cons,
      List.flatMap_cons, hCall, List.append_assoc, List.append_assoc]
    exact ⟨rfl, rfl⟩

end ConnectionHost

open ConnectionHost

/-- In every run each request is served as by a manager of its own: its entries, its answers
and the messages on its channel are those of the calls with its id alone. -/
theorem requests_run_alone (ops : List ConnectionOp) (id : Uuid) :
    (run step new ops).slot id = run Slot.step .empty (inputsOf ConnectionOp.id id ops) ∧
      inputsOf (fun event => event.1.id) id (history call new ops) =
        history Slot.step .empty (inputsOf ConnectionOp.id id ops) := by
  constructor
  · rw [← run_call]
    exact splits.run new ops id
  · exact splits.history new ops id

/-- The order of calls that name different ids does not matter: the entries are the same, each
call gets the same answer, and the same decisions are sent. -/
theorem interleavings_agree {first second : List ConnectionOp}
    (hSame : ∀ id, inputsOf ConnectionOp.id id first = inputsOf ConnectionOp.id id second) :
    (∀ id, (run step new first).slot id = (run step new second).slot id) ∧
      (history step new first).Perm (history step new second) ∧
      (run step new first).channels.sent.Perm (run step new second).channels.sent ∧
      (run step new first).channels.dropped.Perm (run step new second).channels.dropped := by
  obtain ⟨hSlots, hHistory⟩ := splits.reorder new hSame
  refine ⟨fun id => ?_, ?_, ?_, ?_⟩
  · rw [← run_call, ← run_call]
    exact hSlots id
  · rw [← history_call, ← history_call]
    exact hHistory.map _
  · rw [(channels_call new first).1, (channels_call new second).1]
    exact (hHistory.flatMap_right _).append_left _
  · rw [(channels_call new first).2, (channels_call new second).2]
    exact (hHistory.flatMap_right _).append_left _

/-- Two requests, and what their handlers do with them. -/
def served : List ConnectionOp × List ConnectionOp :=
  ([.addPending (.new 1 (.v4 ⟨.replicate 4 10⟩ 5000) (.reverseTunnel .webService none) (some 0)),
      .addPending (.new 2 (.v4 ⟨.replicate 4 20⟩ 5000) (.reverseTunnel .sshService none) (some 1))],
    [.approveConnection 1, .rejectConnection 2 "busy"])

theorem interleavings_agree_served :
    (run step new (served.1 ++ served.2)).channels.sent.Perm
      (run step new (served.1 ++ served.2.reverse)).channels.sent := by
  refine (interleavings_agree fun id => ?_).2.2.1
  exact inputsOf_swap (by decide) served.1 []

end CrabbyProxy.Connection
