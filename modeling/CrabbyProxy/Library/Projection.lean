import CrabbyProxy.Library.Execution

/-!
# Machines that fall into parts

Every input belongs to one part of the state. If it reads and changes nothing else, each
part runs as if its own inputs were the only ones, and inputs of different parts may
change places.
-/

namespace CrabbyProxy.Execution
set_option autoImplicit false

variable {σ τ ι ο κ : Type*} [DecidableEq κ]

structure Splits (step : σ → ι → ο × σ) (part : ι → κ) (view : σ → κ → τ)
    (alone : τ → ι → ο × τ) : Prop where
  own : ∀ s i, alone (view s (part i)) i = ((step s i).1, view (step s i).2 (part i))
  frame : ∀ s i k, part i ≠ k → view (step s i).2 k = view s k

def inputsOf (part : ι → κ) (k : κ) (inputs : List ι) : List ι :=
  inputs.filter fun i => part i = k

variable {step : σ → ι → ο × σ} {part : ι → κ} {view : σ → κ → τ} {alone : τ → ι → ο × τ}

theorem inputsOf_cons_self (i : ι) (inputs : List ι) :
    inputsOf part (part i) (i :: inputs) = i :: inputsOf part (part i) inputs :=
  List.filter_cons_of_pos (decide_eq_true rfl)

theorem inputsOf_cons_ne {i : ι} {k : κ} (hNe : part i ≠ k) (inputs : List ι) :
    inputsOf part k (i :: inputs) = inputsOf part k inputs :=
  List.filter_cons_of_neg fun hEq => hNe (of_decide_eq_true hEq)

/-- Neighbours that belong to different parts may change places. -/
theorem inputsOf_swap {k : κ} {i j : ι} (hNe : part i ≠ part j) (before after : List ι) :
    inputsOf part k (before ++ i :: j :: after) = inputsOf part k (before ++ j :: i :: after) := by
  rw [inputsOf, inputsOf, List.filter_append, List.filter_append]
  congr 1
  by_cases hFirst : part i = k
  · have hSecond : part j ≠ k := fun hEq => hNe (hFirst.trans hEq.symm)
    simp only [List.filter_cons, decide_eq_true hFirst, decide_eq_false hSecond, if_pos,
      Bool.false_eq_true, if_false]
  · simp only [List.filter_cons, decide_eq_false hFirst, Bool.false_eq_true, if_false]

theorem Splits.run (h : Splits step part view alone) (s : σ) (inputs : List ι) (k : κ) :
    view (run step s inputs) k = run alone (view s k) (inputsOf part k inputs) := by
  induction inputs generalizing s with
  | nil => rfl
  | cons i inputs ih =>
    by_cases hOwn : part i = k
    · subst hOwn
      rw [inputsOf_cons_self, Execution.run, Execution.run, h.own]
      exact ih _
    · rw [inputsOf_cons_ne hOwn, ← h.frame s i k hOwn]
      exact ih _

/-- The answers of one part depend on the inputs of that part alone. -/
theorem Splits.history (h : Splits step part view alone) (s : σ) (inputs : List ι) (k : κ) :
    inputsOf (fun event => part event.1) k (history step s inputs) =
      history alone (view s k) (inputsOf part k inputs) := by
  induction inputs generalizing s with
  | nil => rfl
  | cons i inputs ih =>
    by_cases hOwn : part i = k
    · subst hOwn
      rw [inputsOf_cons_self, Execution.history, Execution.history, h.own, ← ih]
      exact @inputsOf_cons_self _ _ _ (fun event : ι × ο => part event.1) _ _
    · rw [inputsOf_cons_ne hOwn, ← h.frame s i k hOwn]
      rw [← ih]
      exact @inputsOf_cons_ne _ _ _ (fun event : ι × ο => part event.1) _ _ hOwn _

/-- Two lists that show the same to every part differ in the order at most. -/
theorem perm_of_inputsOf {first second : List ι}
    (hSame : ∀ k, inputsOf part k first = inputsOf part k second) : first.Perm second := by
  classical
  rw [List.perm_iff_count]
  intro i
  have hCount : ∀ inputs : List ι, inputs.count i = (inputsOf part (part i) inputs).count i :=
    fun inputs => (List.count_filter (l := inputs) (decide_eq_true rfl)).symm
  rw [hCount first, hCount second, hSame]

/-- Orders that agree on every part lead to the same state of each and to the same answers. -/
theorem Splits.reorder (h : Splits step part view alone) (s : σ) {first second : List ι}
    (hSame : ∀ k, inputsOf part k first = inputsOf part k second) :
    (∀ k, view (Execution.run step s first) k = view (Execution.run step s second) k) ∧
      (Execution.history step s first).Perm (Execution.history step s second) := by
  constructor
  · intro k
    rw [h.run, h.run, hSame]
  · refine @perm_of_inputsOf _ _ _ (fun event => part event.1) _ _ fun k => ?_
    rw [h.history, h.history, hSame]

end CrabbyProxy.Execution
