import Mathlib

/-!
# Runs of a machine that answers its inputs

A machine reads one input, answers it and moves to its next state. An abstract
machine is a relation, so it may leave the answer open. Invariants, guarded
invariants and explanations are proved for one step and packaged here for runs.
-/

namespace CrabbyProxy.Execution
set_option autoImplicit false

variable {σ τ ι ο : Type*}

def run (step : σ → ι → ο × σ) (s : σ) : List ι → σ
  | [] => s
  | i :: inputs => run step (step s i).2 inputs

/-- The inputs of a run, each with the answer it got. -/
def history (step : σ → ι → ο × σ) (s : σ) : List ι → List (ι × ο)
  | [] => []
  | i :: inputs => (i, (step s i).1) :: history step (step s i).2 inputs

/-- Every input of the run meets the guard in the state that reads it. -/
def Along (step : σ → ι → ο × σ) (guard : σ → ι → Prop) (s : σ) : List ι → Prop
  | [] => True
  | i :: inputs => guard s i ∧ Along step guard (step s i).2 inputs

@[simp] theorem run_nil (step : σ → ι → ο × σ) (s : σ) : run step s [] = s := rfl

theorem run_append (step : σ → ι → ο × σ) (s : σ) (first second : List ι) :
    run step s (first ++ second) = run step (run step s first) second := by
  induction first generalizing s with
  | nil => rfl
  | cons i first ih => exact ih (step s i).2

theorem along_append (step : σ → ι → ο × σ) (guard : σ → ι → Prop) (s : σ)
    (first second : List ι) :
    Along step guard s (first ++ second) ↔
      Along step guard s first ∧ Along step guard (run step s first) second := by
  induction first generalizing s with
  | nil => simp [Along]
  | cons i first ih =>
    simp only [List.cons_append, Along, ih, run, and_assoc]

theorem invariant_along {step : σ → ι → ο × σ} {guard : σ → ι → Prop} {Inv : σ → Prop}
    (hStep : ∀ s i, Inv s → guard s i → Inv (step s i).2) {s : σ} (h : Inv s)
    {inputs : List ι} (hGuard : Along step guard s inputs) : Inv (run step s inputs) := by
  induction inputs generalizing s with
  | nil => exact h
  | cons i inputs ih => exact ih (hStep s i h hGuard.1) hGuard.2

theorem invariant {step : σ → ι → ο × σ} {Inv : σ → Prop}
    (hStep : ∀ s i, Inv s → Inv (step s i).2) {s : σ} (h : Inv s) (inputs : List ι) :
    Inv (run step s inputs) := by
  induction inputs generalizing s with
  | nil => exact h
  | cons i inputs ih => exact ih (hStep s i h)

/-- A property holds at every point of a run exactly when every input meets the guard that
keeps it for one step. -/
theorem prefixes_iff_along {step : σ → ι → ο × σ} {guard : σ → ι → Prop} {Inv Holds : σ → Prop}
    (hStep : ∀ s i, Inv s → Inv (step s i).2)
    (hGuard : ∀ s i, Inv s → Holds s → (Holds (step s i).2 ↔ guard s i)) {s : σ} (h : Inv s)
    (hStart : Holds s) (inputs : List ι) :
    (∀ before, before <+: inputs → Holds (run step s before)) ↔ Along step guard s inputs := by
  induction inputs generalizing s with
  | nil =>
    refine iff_of_true ?_ trivial
    intro before hBefore
    obtain rfl := List.prefix_nil.mp hBefore
    exact hStart
  | cons i inputs ih =>
    rw [Along, ← hGuard s i h hStart]
    constructor
    · intro hAll
      have hNext := hAll [i] ⟨inputs, rfl⟩
      refine ⟨hNext, (ih (hStep s i h) hNext).mp ?_⟩
      intro before hBefore
      exact hAll (i :: before) (List.cons_prefix_cons.mpr ⟨rfl, hBefore⟩)
    · rintro ⟨hNext, hAlong⟩ before hBefore
      cases before with
      | nil => exact hStart
      | cons j before =>
        obtain ⟨rfl, hRest⟩ := List.cons_prefix_cons.mp hBefore
        exact (ih (hStep s j h) hNext).mpr hAlong before hRest

theorem along_of_forall {step : σ → ι → ο × σ} {guard : σ → ι → Prop} {inputs : List ι}
    (hGuard : ∀ i ∈ inputs, ∀ s, guard s i) (s : σ) : Along step guard s inputs := by
  induction inputs generalizing s with
  | nil => trivial
  | cons i inputs ih =>
    exact ⟨hGuard i List.mem_cons_self s,
      ih (fun j hj => hGuard j (List.mem_cons_of_mem _ hj)) _⟩

/-- Inputs that use something up cannot go on for longer than it lasts. -/
theorem length_le_of_along {step : σ → ι → ο × σ} {guard : σ → ι → Prop} {measure : σ → Nat}
    (hLess : ∀ s i, guard s i → measure (step s i).2 < measure s) {s : σ} {inputs : List ι}
    (hGuard : Along step guard s inputs) : inputs.length ≤ measure s := by
  induction inputs generalizing s with
  | nil => exact Nat.zero_le _
  | cons i inputs ih => exact Nat.lt_of_le_of_lt (ih hGuard.2) (hLess s i hGuard.1)

/-- A guard that keeps an invariant may be replaced by what the two imply together. -/
theorem Along.imp {step : σ → ι → ο × σ} {guard guard' : σ → ι → Prop} {Inv : σ → Prop}
    (hStep : ∀ s i, Inv s → guard s i → Inv (step s i).2)
    (hImp : ∀ s i, Inv s → guard s i → guard' s i) {s : σ} (h : Inv s) {inputs : List ι}
    (hGuard : Along step guard s inputs) : Along step guard' s inputs := by
  induction inputs generalizing s with
  | nil => trivial
  | cons i inputs ih =>
    exact ⟨hImp s i h hGuard.1, ih (hStep s i h hGuard.1) hGuard.2⟩

/-- An invariant may speak about the past, as long as the inputs are good. -/
theorem invariant_history {step : σ → ι → ο × σ} {Good : List ι → Prop}
    (hGood : ∀ first second, Good (first ++ second) → Good first)
    {Inv : List (ι × ο) → σ → Prop}
    (hStep : ∀ past s i, Good (past.map Prod.fst ++ [i]) → Inv past s →
      Inv (past ++ [(i, (step s i).1)]) (step s i).2)
    {s : σ} {past : List (ι × ο)} (h : Inv past s) {inputs : List ι}
    (hInputs : Good (past.map Prod.fst ++ inputs)) :
    Inv (past ++ history step s inputs) (run step s inputs) := by
  induction inputs generalizing s past with
  | nil => simpa [history] using h
  | cons i inputs ih =>
    have hFirst : Good (past.map Prod.fst ++ [i]) := by
      apply hGood _ inputs
      simpa using hInputs
    have hNext := ih (hStep past s i hFirst h) (by simpa using hInputs)
    simpa [history, run] using hNext

theorem history_map_fst (step : σ → ι → ο × σ) (s : σ) (inputs : List ι) :
    (history step s inputs).map Prod.fst = inputs := by
  induction inputs generalizing s with
  | nil => rfl
  | cons i inputs ih => rw [history, List.map_cons, ih]

/-- The abstract machine can give exactly these answers to these inputs. -/
inductive Explains (next : τ → ι → ο → τ → Prop) : τ → List (ι × ο) → τ → Prop
  | nil (t : τ) : Explains next t [] t
  | cons {t t₁ t₂ : τ} {i : ι} {o : ο} {rest : List (ι × ο)} (h : next t i o t₁)
      (hRest : Explains next t₁ rest t₂) : Explains next t ((i, o) :: rest) t₂

/-- One-step refinement, under an invariant, makes every run a run of the
abstract machine with the same answers. -/
theorem refines {step : σ → ι → ο × σ} {next : τ → ι → ο → τ → Prop} {Inv : σ → Prop}
    (abstraction : σ → τ) (hStep : ∀ s i, Inv s → Inv (step s i).2)
    (hNext : ∀ s i, Inv s →
      next (abstraction s) i (step s i).1 (abstraction (step s i).2))
    {s : σ} (h : Inv s) (inputs : List ι) :
    Explains next (abstraction s) (history step s inputs) (abstraction (run step s inputs)) := by
  induction inputs generalizing s with
  | nil => exact .nil _
  | cons i inputs ih => exact .cons (hNext s i h) (ih (hStep s i h))

theorem history_append (step : σ → ι → ο × σ) (s : σ) (first second : List ι) :
    history step s (first ++ second) =
      history step s first ++ history step (run step s first) second := by
  induction first generalizing s with
  | nil => rfl
  | cons i first ih => simp only [List.cons_append, history, ih, run]

theorem mem_history_iff {step : σ → ι → ο × σ} {s : σ} {inputs : List ι} {i : ι} {o : ο} :
    (i, o) ∈ history step s inputs ↔
      ∃ before after, inputs = before ++ i :: after ∧ o = (step (run step s before) i).1 := by
  constructor
  · intro h
    induction inputs generalizing s with
    | nil => cases h
    | cons j inputs ih =>
      obtain hHead | hTail := List.mem_cons.mp h
      · cases hHead
        exact ⟨[], inputs, rfl, rfl⟩
      · obtain ⟨before, after, rfl, hAnswer⟩ := ih hTail
        exact ⟨j :: before, after, rfl, hAnswer⟩
  · rintro ⟨before, after, rfl, rfl⟩
    rw [history_append]
    exact List.mem_append_right _ List.mem_cons_self

/-- A machine simulates another if each input is matched by some of its own, none at all
included, that lead to a related state and show the same answers. -/
theorem simulates {κ ρ α : Type*} {step : σ → ι → ο × σ} {step' : τ → κ → ρ × τ}
    {Related : σ → τ → Prop} {shown : ο → Option α} {shown' : ρ → Option α}
    (hStep : ∀ s t i, Related s t → ∃ matching, Related (step s i).2 (run step' t matching) ∧
      (history step' t matching).filterMap (fun event => shown' event.2) =
        (shown (step s i).1).toList)
    {s : σ} {t : τ} (h : Related s t) (inputs : List ι) :
    ∃ matching, Related (run step s inputs) (run step' t matching) ∧
      (history step' t matching).filterMap (fun event => shown' event.2) =
        (history step s inputs).filterMap fun event => shown event.2 := by
  induction inputs generalizing s t with
  | nil => exact ⟨[], h, rfl⟩
  | cons i inputs ih =>
    obtain ⟨first, hFirst, hShown⟩ := hStep s t i h
    obtain ⟨rest, hRest, hShownRest⟩ := ih hFirst
    refine ⟨first ++ rest, ?_, ?_⟩
    · rw [run_append]
      exact hRest
    · rw [history_append, List.filterMap_append, hShown, hShownRest, history,
        List.filterMap_cons]
      cases shown (step s i).1 <;> rfl

end CrabbyProxy.Execution
