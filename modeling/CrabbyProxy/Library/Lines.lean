import Mathlib

/-!
# Lines that end with a delimiter

Lines free of the delimiter can be told from their concatenation. What is left
of it after some bytes are gone is the rest of one line and the lines after it.
-/

namespace CrabbyProxy.Stream
set_option autoImplicit false

variable {α : Type*} {delim : α}

def terminated (delim : α) (lines : List (List α)) : List α := lines.flatMap (· ++ [delim])

@[simp] theorem terminated_cons (line : List α) (lines : List (List α)) :
    terminated delim (line :: lines) = line ++ delim :: terminated delim lines := by
  simp [terminated]

@[simp] theorem terminated_append (lines more : List (List α)) :
    terminated delim (lines ++ more) = terminated delim lines ++ terminated delim more :=
  List.flatMap_append

section

variable [DecidableEq α]

theorem splitOn_terminated {lines : List (List α)} (h : ∀ line ∈ lines, delim ∉ line) :
    (terminated delim lines).splitOn delim = lines ++ [[]] := by
  induction lines with
  | nil => rfl
  | cons line lines ih =>
    rw [terminated_cons, List.splitOn_append_cons_self_of_not_mem (h line List.mem_cons_self),
      ih fun line hLine => h line (List.mem_cons_of_mem _ hLine)]
    rfl

theorem terminated_inj {lines lines' : List (List α)} (h : ∀ line ∈ lines, delim ∉ line)
    (h' : ∀ line ∈ lines', delim ∉ line)
    (hSame : terminated delim lines = terminated delim lines') : lines = lines' := by
  have hSplit := congrArg (·.splitOn delim) hSame
  rw [splitOn_terminated h, splitOn_terminated h'] at hSplit
  exact List.append_cancel_right hSplit

end

/-- Any number of bytes ends inside, or at an edge of, one of the lines. -/
theorem drop_terminated {lines : List (List α)} {n : Nat}
    (h : n < (terminated delim lines).length) :
    ∃ before line after offset, lines = before ++ line :: after ∧ offset ≤ line.length ∧
      n = (terminated delim before).length + offset ∧
      (terminated delim lines).drop n = terminated delim (line.drop offset :: after) := by
  induction lines generalizing n with
  | nil => exact absurd h (Nat.not_lt_zero n)
  | cons line lines ih =>
    rw [terminated_cons] at h ⊢
    by_cases hLine : n ≤ line.length
    · refine ⟨[], line, lines, n, rfl, hLine, by simp [terminated], ?_⟩
      rw [List.drop_append_of_le_length hLine, terminated_cons]
    · obtain ⟨more, rfl⟩ := Nat.exists_eq_add_of_lt (Nat.lt_of_not_le hLine)
      rw [List.length_append, List.length_cons] at h
      obtain ⟨before, next, after, offset, rfl, hOffset, rfl, hDrop⟩ :=
        ih (show more < (terminated delim lines).length by omega)
      refine ⟨line :: before, next, after, offset, rfl, hOffset, ?_, ?_⟩
      · rw [terminated_cons, List.length_append, List.length_cons]
        omega
      · rw [Nat.add_assoc, List.drop_length_add_append, List.drop_succ_cons, hDrop]

theorem drop_terminated_append (before : List (List α)) {line : List α} (after : List (List α))
    {offset : Nat} (hOffset : offset ≤ line.length) :
    (terminated delim (before ++ line :: after)).drop
      ((terminated delim before).length + offset) = terminated delim (line.drop offset :: after) := by
  rw [terminated_append, List.drop_length_add_append, terminated_cons,
    List.drop_append_of_le_length hOffset, terminated_cons]

end CrabbyProxy.Stream
