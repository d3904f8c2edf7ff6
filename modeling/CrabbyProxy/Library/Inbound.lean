import Mathlib

/-!
# Bytes that arrive over time

What a peer sends is a list of arrivals. One `data` entry is what comes in
between two operations on the socket, possibly nothing, so quantifying over the
list covers every segmentation and every pace. A `stall` outlasts any deadline,
a `reset` breaks the connection, and the end of the list is the end of file. An
operation stands for one that completes: a peer that neither sends, closes nor
resets has no place in the list, and whoever waits for it takes no step.
-/

namespace CrabbyProxy.Stream
set_option autoImplicit false

inductive Arrival where
  | data (bytes : List UInt8)
  | stall
  | reset
  deriving DecidableEq

/-- The bytes that can still be received. -/
def payload : List Arrival → List UInt8
  | [] => []
  | .data bytes :: coming => bytes ++ payload coming
  | .stall :: coming => payload coming
  | .reset :: _ => []

def firstOf (ready : List UInt8) : List Arrival → List UInt8
  | .data bytes :: coming => if ready ++ bytes = [] then firstOf [] coming else ready ++ bytes
  | _ => ready

structure Inbound where
  ready : List UInt8
  coming : List Arrival
  deriving DecidableEq

/-- Why an operation stopped waiting. -/
inductive Signal where
  | ready
  | eof
  | reset
  | elapsed
  deriving DecidableEq

def await (timed : Bool) : List Arrival → Signal × Inbound
  | [] => (.eof, ⟨[], []⟩)
  | .data [] :: coming => await timed coming
  | .data (b :: bytes) :: coming => (.ready, ⟨b :: bytes, coming⟩)
  | .stall :: coming => if timed then (.elapsed, ⟨[], coming⟩) else await timed coming
  | .reset :: coming => (.reset, ⟨[], .reset :: coming⟩)

namespace Inbound

def content (s : Inbound) : List UInt8 := s.ready ++ payload s.coming

def arrive : Inbound → Inbound
  | ⟨ready, .data bytes :: coming⟩ => ⟨ready ++ bytes, coming⟩
  | s => s

/-- An operation first sees what has arrived meanwhile, and waits if that is nothing. -/
def poll (timed : Bool) (s : Inbound) : Signal × Inbound :=
  if s.arrive.ready = [] then await timed s.arrive.coming else (.ready, s.arrive)

def peek (timed : Bool) (n : Nat) (s : Inbound) : Signal × List UInt8 × Inbound :=
  ((s.poll timed).1, (s.poll timed).2.ready.take n, (s.poll timed).2)

def read (timed : Bool) (n : Nat) (s : Inbound) : Signal × List UInt8 × Inbound :=
  ((s.poll timed).1, (s.poll timed).2.ready.take n,
    { (s.poll timed).2 with ready := (s.poll timed).2.ready.drop n })

/-- Nothing but data arrives. -/
def Calm (s : Inbound) : Prop := ∀ arrival ∈ s.coming, ∃ bytes, arrival = .data bytes

/-- A running deadline is never reached. -/
def Patient (timed : Bool) (s : Inbound) : Prop := timed = true → .stall ∉ s.coming

/-- What is there at the first look: what has arrived until then or, if that is nothing, the
first bytes that come. -/
def firstBytes (s : Inbound) : List UInt8 := firstOf s.ready s.coming

def ofSegments (segments : List (List UInt8)) : Inbound := ⟨[], segments.map .data⟩

end Inbound

theorem await_content (timed : Bool) (coming : List Arrival) :
    (await timed coming).2.content = payload coming := by
  fun_induction await timed coming with
  | case1 => rfl
  | case2 coming ih => simpa [payload] using ih
  | case3 b bytes coming => rfl
  | case4 coming _ => rfl
  | case5 coming _ ih => exact ih
  | case6 coming => rfl

theorem await_ready_iff (timed : Bool) (coming : List Arrival) :
    (await timed coming).1 = .ready ↔ (await timed coming).2.ready ≠ [] := by
  fun_induction await timed coming with
  | case1 => simp
  | case2 coming ih => exact ih
  | case3 b bytes coming => simp
  | case4 coming _ => simp
  | case5 coming _ ih => exact ih
  | case6 coming => simp

theorem await_coming_subset (timed : Bool) (coming : List Arrival) :
    (await timed coming).2.coming ⊆ coming := by
  fun_induction await timed coming with
  | case1 => simp
  | case2 coming ih | case5 coming _ ih => exact List.subset_cons_of_subset _ ih
  | case3 b bytes coming | case4 coming _ => exact List.subset_cons_self _ _
  | case6 coming => simp

theorem await_patient {timed : Bool} {coming : List Arrival}
    (hPatient : timed = true → .stall ∉ coming) (hContent : payload coming ≠ []) :
    (await timed coming).1 = .ready := by
  fun_induction await timed coming with
  | case1 => exact absurd rfl hContent
  | case2 coming ih =>
    exact ih (fun hTimed hStall => hPatient hTimed (List.mem_cons_of_mem _ hStall))
      (by simpa [payload] using hContent)
  | case3 b bytes coming => rfl
  | case4 coming hTimed => exact absurd List.mem_cons_self (hPatient hTimed)
  | case5 coming hTimed ih => exact ih (fun h => absurd h hTimed) hContent
  | case6 coming => exact absurd rfl hContent

theorem await_calm_eof (timed : Bool) {coming : List Arrival}
    (hCalm : ∀ arrival ∈ coming, ∃ bytes, arrival = .data bytes) (hContent : payload coming = []) :
    (await timed coming).1 = .eof := by
  fun_induction await timed coming with
  | case1 => rfl
  | case2 coming ih =>
    exact ih (fun arrival h => hCalm arrival (List.mem_cons_of_mem _ h))
      (by simpa [payload] using hContent)
  | case3 b bytes coming => simp [payload] at hContent
  | case4 coming _ | case5 coming _ _ | case6 coming =>
    obtain ⟨_, hData⟩ := hCalm _ List.mem_cons_self
    cases hData

theorem await_reset_mem (timed : Bool) {coming : List Arrival} (h : .reset ∈ coming) :
    .reset ∈ (await timed coming).2.coming := by
  fun_induction await timed coming with
  | case1 => exact h
  | case2 coming ih => exact ih ((List.mem_cons.mp h).resolve_left nofun)
  | case3 b bytes coming | case4 coming _ => exact (List.mem_cons.mp h).resolve_left nofun
  | case5 coming _ ih => exact ih ((List.mem_cons.mp h).resolve_left nofun)
  | case6 coming => exact h

theorem await_untimed_ne_elapsed (coming : List Arrival) : (await false coming).1 ≠ .elapsed := by
  induction coming with
  | nil => nofun
  | cons arrival coming ih =>
    cases arrival with
    | data bytes =>
      cases bytes with
      | nil => exact ih
      | cons b bytes => nofun
    | stall => exact ih
    | reset => nofun

theorem await_reset {timed : Bool} {coming : List Arrival} (h : (await timed coming).1 = .reset) :
    .reset ∈ coming := by
  induction coming with
  | nil => cases h
  | cons arrival coming ih =>
    cases arrival with
    | data bytes =>
      cases bytes with
      | nil => exact List.mem_cons_of_mem _ (ih h)
      | cons b bytes => cases h
    | stall =>
      cases timed with
      | true => cases h
      | false => exact List.mem_cons_of_mem _ (ih h)
    | reset => exact List.mem_cons_self

theorem await_eof {timed : Bool} {coming : List Arrival} (h : (await timed coming).1 = .eof) :
    (await timed coming).2 = ⟨[], []⟩ := by
  fun_induction await timed coming with
  | case1 => rfl
  | case2 coming ih | case5 coming _ ih => exact ih h
  | case3 b bytes coming | case4 coming _ | case6 coming => cases h

namespace Inbound

theorem arrive_content (s : Inbound) : s.arrive.content = s.content := by
  unfold arrive
  split <;> simp [content, payload]

theorem arrive_coming_subset (s : Inbound) : s.arrive.coming ⊆ s.coming := by
  unfold arrive
  split
  · exact List.subset_cons_self _ _
  · exact List.Subset.refl _

@[simp] theorem poll_content (timed : Bool) (s : Inbound) :
    (s.poll timed).2.content = s.content := by
  unfold poll
  split
  · rename_i hEmpty
    rw [await_content, ← s.arrive_content, content, hEmpty, List.nil_append]
  · exact s.arrive_content

theorem poll_ready_iff (timed : Bool) (s : Inbound) :
    (s.poll timed).1 = .ready ↔ (s.poll timed).2.ready ≠ [] := by
  unfold poll
  split
  · exact await_ready_iff timed _
  · rename_i hReady
    simpa using hReady

theorem poll_coming_subset (timed : Bool) (s : Inbound) :
    (s.poll timed).2.coming ⊆ s.coming := by
  unfold poll
  split
  · exact List.Subset.trans (await_coming_subset timed _) s.arrive_coming_subset
  · exact s.arrive_coming_subset

theorem poll_reset_mem (timed : Bool) {s : Inbound} (h : .reset ∈ s.coming) :
    .reset ∈ (s.poll timed).2.coming := by
  have hArrive : .reset ∈ s.arrive.coming := by
    unfold arrive
    split
    · exact (List.mem_cons.mp h).resolve_left nofun
    · exact h
  unfold poll
  split
  · exact await_reset_mem timed hArrive
  · exact hArrive

/-- The end of the stream is reached with nothing left, and no reset on the way. -/
theorem poll_eof {timed : Bool} {s : Inbound} (h : (s.poll timed).1 = .eof) :
    (s.poll timed).2 = ⟨[], []⟩ ∧ .reset ∉ s.coming := by
  have hEmpty : (s.poll timed).2 = ⟨[], []⟩ := by
    unfold poll at h ⊢
    split at h
    · rename_i hReady
      rw [if_pos hReady]
      exact await_eof h
    · cases h
  refine ⟨hEmpty, fun hReset => ?_⟩
  have hLeft := poll_reset_mem timed hReset
  rw [hEmpty] at hLeft
  cases hLeft

theorem poll_keeps_ready (timed : Bool) (s : Inbound) :
    s.ready <+: (s.poll timed).2.ready := by
  have hArrive : s.ready <+: s.arrive.ready := by
    unfold arrive
    split
    · exact List.prefix_append _ _
    · exact List.prefix_rfl
  unfold poll
  split
  · rename_i hEmpty
    rw [hEmpty] at hArrive
    rw [List.prefix_nil.mp hArrive]
    exact List.nil_prefix
  · exact hArrive

theorem Calm.of_subset {s s' : Inbound} (h : s.Calm) (hSub : s'.coming ⊆ s.coming) : s'.Calm :=
  fun arrival hArrival => h arrival (hSub hArrival)

theorem Patient.of_subset {timed : Bool} {s s' : Inbound} (h : s.Patient timed)
    (hSub : s'.coming ⊆ s.coming) : s'.Patient timed :=
  fun hTimed hStall => h hTimed (hSub hStall)

theorem Calm.patient {s : Inbound} (h : s.Calm) (timed : Bool) : s.Patient timed := by
  intro _ hStall
  obtain ⟨_, hData⟩ := h _ hStall
  cases hData

theorem Patient.poll_ready {timed : Bool} {s : Inbound} (h : s.Patient timed)
    (hContent : s.content ≠ []) : (s.poll timed).1 = .ready := by
  unfold poll
  split
  · rename_i hEmpty
    refine await_patient (h.of_subset s.arrive_coming_subset) ?_
    rwa [← s.arrive_content, content, hEmpty, List.nil_append] at hContent
  · rfl

theorem Calm.poll_eof {s : Inbound} (h : s.Calm) (timed : Bool) (hContent : s.content = []) :
    (s.poll timed).1 = .eof := by
  rw [← s.arrive_content, content, List.append_eq_nil_iff] at hContent
  unfold poll
  rw [if_pos hContent.1]
  exact await_calm_eof timed (h.of_subset s.arrive_coming_subset) hContent.2

theorem Calm.poll_firstBytes {s : Inbound} (h : s.Calm) (timed : Bool) :
    (s.poll timed).2.ready = s.firstBytes := by
  obtain ⟨ready, coming⟩ := s
  have hAwait : ∀ coming : List Arrival, (∀ arrival ∈ coming, ∃ bytes, arrival = .data bytes) →
      (await timed coming).2.ready = firstOf [] coming := by
    intro coming hCalm
    induction coming with
    | nil => rfl
    | cons arrival coming ih =>
      rw [List.forall_mem_cons] at hCalm
      obtain ⟨⟨bytes, rfl⟩, hCalm⟩ := hCalm
      cases bytes with
      | nil => exact ih hCalm
      | cons b bytes => rfl
  cases coming with
  | nil =>
    cases ready <;> rfl
  | cons arrival coming =>
    obtain ⟨bytes, rfl⟩ := h arrival List.mem_cons_self
    have hCalm : ∀ arrival ∈ coming, ∃ bytes, arrival = .data bytes :=
      fun arrival hMem => h arrival (List.mem_cons_of_mem _ hMem)
    rw [poll, arrive, firstBytes, firstOf]
    dsimp only
    split
    · exact hAwait coming hCalm
    · rfl

theorem poll_ready_of_eq_nil {timed : Bool} {s : Inbound} (hContent : s.content = []) :
    (s.poll timed).2.ready = [] := by
  rw [← s.poll_content timed, content, List.append_eq_nil_iff] at hContent
  exact hContent.1

@[simp] theorem peek_content (timed : Bool) (n : Nat) (s : Inbound) :
    (s.peek timed n).2.2.content = s.content := s.poll_content timed

theorem peek_isPrefix (timed : Bool) (n : Nat) (s : Inbound) :
    (s.peek timed n).2.1 <+: s.content := by
  rw [← s.poll_content timed]
  exact (List.take_prefix _ _).trans (List.prefix_append _ _)

theorem read_content (timed : Bool) (n : Nat) (s : Inbound) :
    s.content = (s.read timed n).2.1 ++ (s.read timed n).2.2.content := by
  calc
    s.content = (s.poll timed).2.content := (s.poll_content timed).symm
    _ = (s.poll timed).2.ready.take n ++ (s.poll timed).2.ready.drop n ++
        payload (s.poll timed).2.coming := by rw [List.take_append_drop]; rfl
    _ = _ := List.append_assoc _ _ _

theorem read_coming_subset (timed : Bool) (n : Nat) (s : Inbound) :
    (s.read timed n).2.2.coming ⊆ s.coming := s.poll_coming_subset timed

theorem length_read_le (timed : Bool) (n : Nat) (s : Inbound) :
    (s.read timed n).2.1.length ≤ n := List.length_take_le _ _

/-- A read of a patient stream with content is ready and returns some of it. -/
theorem Patient.read_ready {timed : Bool} {n : Nat} {s : Inbound} (h : s.Patient timed)
    (hn : 0 < n) (hContent : s.content ≠ []) :
    (s.read timed n).1 = .ready ∧ (s.read timed n).2.1 ≠ [] := by
  have hReady := h.poll_ready hContent
  refine ⟨hReady, ?_⟩
  have hNonempty := (s.poll_ready_iff timed).mp hReady
  simpa [read, List.take_eq_nil_iff, Nat.ne_of_gt hn] using hNonempty

/-- Without stalls and resets, only the end of the stream gives no bytes. -/
theorem Calm.poll_eq_nil_iff {s : Inbound} (h : s.Calm) (timed : Bool) :
    (s.poll timed).2.ready = [] ↔ s.content = [] := by
  constructor
  · intro hEmpty
    by_contra hContent
    exact (s.poll_ready_iff timed).mp ((h.patient timed).poll_ready hContent) hEmpty
  · exact poll_ready_of_eq_nil

theorem Calm.read_eq_nil_iff {s : Inbound} (h : s.Calm) (timed : Bool) {n : Nat} (hn : 0 < n) :
    (s.read timed n).2.1 = [] ↔ s.content = [] := by
  rw [← h.poll_eq_nil_iff timed, read, List.take_eq_nil_iff]
  simp [Nat.ne_of_gt hn]

theorem Calm.peek_eq_nil_iff {s : Inbound} (h : s.Calm) (timed : Bool) {n : Nat} (hn : 0 < n) :
    (s.peek timed n).2.1 = [] ↔ s.content = [] := h.read_eq_nil_iff timed hn

/-- Nothing new is coming, and a reset on its way stays there. -/
structure Kept (s s' : Inbound) : Prop where
  coming : s'.coming ⊆ s.coming
  reset : .reset ∈ s.coming → .reset ∈ s'.coming

theorem read_kept (timed : Bool) (n : Nat) (s : Inbound) : s.Kept (s.read timed n).2.2 :=
  ⟨s.read_coming_subset timed n, poll_reset_mem timed⟩

/-- Everything a read without a deadline can do. -/
theorem read_cases (space : Nat) (s : Inbound) :
    (∃ bytes rest, s.read false (space + 1) = (.ready, bytes, rest) ∧ bytes ≠ [] ∧
      s.content = bytes ++ rest.content) ∨
    (∃ bytes rest, s.read false (space + 1) = (.eof, bytes, rest) ∧ s.content = [] ∧
      rest.content = [] ∧ .reset ∉ s.coming) ∨
    ∃ bytes rest, s.read false (space + 1) = (.reset, bytes, rest) ∧ .reset ∈ s.coming := by
  have hContent := s.read_content false (space + 1)
  have hPoll : (s.read false (space + 1)).1 = (s.poll false).1 := rfl
  cases hRead : s.read false (space + 1) with
  | mk signal pair =>
    obtain ⟨bytes, rest⟩ := pair
    rw [hRead] at hContent hPoll
    dsimp only at hContent hPoll
    by_cases hEmpty : s.content = []
    · have hArrive : s.arrive.ready = [] := by
        have hBoth := s.arrive_content.trans hEmpty
        exact (List.append_eq_nil_iff.mp hBoth).1
      rw [poll, if_pos hArrive] at hPoll
      cases signal with
      | ready =>
        rw [eq_comm, await_ready_iff] at hPoll
        have hNone := @poll_ready_of_eq_nil false s hEmpty
        rw [poll, if_pos hArrive] at hNone
        exact absurd hNone hPoll
      | eof =>
        have hEof : (s.poll false).1 = .eof := by
          rw [poll, if_pos hArrive]
          exact hPoll.symm
        refine .inr (.inl ⟨bytes, rest, rfl, hEmpty, ?_, (poll_eof hEof).2⟩)
        exact (List.append_eq_nil_iff.mp (hContent.symm.trans hEmpty)).2
      | reset => exact .inr (.inr ⟨bytes, rest, rfl,
          s.arrive_coming_subset (await_reset hPoll.symm)⟩)
      | elapsed => exact absurd hPoll.symm (await_untimed_ne_elapsed _)
    · have hPatient : s.Patient false := fun h => absurd h Bool.false_ne_true
      obtain ⟨hReady, hBytes⟩ := hPatient.read_ready (Nat.succ_pos space) hEmpty
      rw [hRead] at hReady hBytes
      obtain rfl : signal = .ready := hReady
      exact .inl ⟨bytes, rest, rfl, hBytes, hContent⟩

theorem calm_ofSegments (segments : List (List UInt8)) : (ofSegments segments).Calm := by
  intro arrival hArrival
  obtain ⟨bytes, _, rfl⟩ := List.mem_map.mp hArrival
  exact ⟨bytes, rfl⟩

@[simp] theorem content_ofSegments (segments : List (List UInt8)) :
    (ofSegments segments).content = segments.flatten := by
  show payload (segments.map .data) = segments.flatten
  induction segments with
  | nil => rfl
  | cons bytes segments ih => rw [List.map_cons, payload, ih, List.flatten_cons]

end Inbound

end CrabbyProxy.Stream
