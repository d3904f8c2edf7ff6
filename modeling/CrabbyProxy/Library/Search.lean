import Mathlib

/-!
# The first occurrence of a mark

A mark is looked for window by window, as `windows` and `position` do on a slice.
-/

namespace CrabbyProxy.Stream
set_option autoImplicit false

variable {α : Type*} {mark buffer head : List α} {i : Nat}

theorem window_iff : (buffer.drop i).take mark.length = mark ↔ mark <+: buffer.drop i := by
  rw [List.prefix_iff_eq_take, eq_comm]

theorem lt_of_window (h : mark <+: buffer.drop i) (hMark : mark ≠ []) :
    i < buffer.length + 1 - mark.length := by
  have hLength := h.length_le
  have hPos := List.length_pos_iff.mpr hMark
  rw [List.length_drop] at hLength
  omega

/-- A list that ends with its first mark. -/
structure EndsWithFirst (mark head : List α) : Prop where
  ended : mark <:+ head
  first : ¬mark <:+: head.dropLast

/-- Nothing shorter than such a list contains the mark. -/
theorem EndsWithFirst.not_infix (h : EndsWithFirst mark head) (hPrefix : buffer <+: head)
    (hShort : buffer.length < head.length) : ¬mark <:+: buffer := by
  intro hInfix
  apply h.first
  apply hInfix.trans
  apply List.IsPrefix.isInfix
  apply List.prefix_of_prefix_length_le hPrefix (List.dropLast_prefix head)
  rw [List.length_dropLast]
  omega

theorem EndsWithFirst.of_notMem {a : α} {before : List α} (h : a ∉ before) (mark : List α) :
    EndsWithFirst (a :: mark) (before ++ a :: mark) := by
  refine ⟨List.suffix_append _ _, ?_⟩
  rintro ⟨left, right, hSplit⟩
  have hLength := congrArg List.length hSplit
  rw [List.dropLast_append_of_ne_nil (List.cons_ne_nil _ _)] at hSplit hLength
  simp only [List.length_append, List.length_dropLast, List.length_cons] at hLength
  obtain ⟨rest, rfl⟩ : left <+: before :=
    List.prefix_of_prefix_length_le ⟨a :: mark ++ right, by rw [← hSplit, List.append_assoc]⟩
      (List.prefix_append _ _) (by omega)
  rw [List.append_assoc, List.append_assoc, List.append_cancel_left_eq] at hSplit
  cases rest with
  | nil =>
    simp only [List.length_append, List.length_nil] at hLength
    omega
  | cons b rest =>
    rw [List.cons_append, List.cons_append, List.cons.injEq] at hSplit
    exact h (List.mem_append_right _ (hSplit.1 ▸ List.mem_cons_self))

section

variable [DecidableEq α]

/-- The index of the first window that is the mark. -/
def position (mark buffer : List α) : Option Nat :=
  (List.range (buffer.length + 1 - mark.length)).find? fun i =>
    (buffer.drop i).take mark.length = mark

theorem position_eq_some (hMark : mark ≠ []) (h : mark <+: buffer.drop i)
    (hFirst : ∀ j, j < i → ¬mark <+: buffer.drop j) : position mark buffer = some i := by
  apply List.find?_range_eq_some.mpr
  refine ⟨decide_eq_true (window_iff.mpr h), List.mem_range.mpr (lt_of_window h hMark), ?_⟩
  intro j hj
  rw [Bool.not_eq_true', decide_eq_false_iff_not, window_iff]
  exact hFirst j hj

theorem position_eq_none_iff (hMark : mark ≠ []) :
    position mark buffer = none ↔ ¬mark <:+: buffer := by
  rw [position, List.find?_eq_none]
  constructor
  · rintro hNone ⟨before, after, rfl⟩
    have hWindow : mark <+: (before ++ mark ++ after).drop before.length := by
      rw [List.append_assoc, List.drop_left]
      exact List.prefix_append _ _
    apply hNone _ (List.mem_range.mpr (lt_of_window hWindow hMark))
    exact decide_eq_true (window_iff.mpr hWindow)
  · intro hNone j _ hWindow
    have hPrefix := window_iff.mp (of_decide_eq_true hWindow)
    exact hNone (hPrefix.isInfix.trans (List.drop_suffix j buffer).isInfix)

theorem EndsWithFirst.position_append (h : EndsWithFirst mark head) (hMark : mark ≠ [])
    (more : List α) : position mark (head ++ more) = some (head.length - mark.length) := by
  obtain ⟨before, rfl⟩ := h.ended
  have hPos := List.length_pos_iff.mpr hMark
  rw [List.length_append, Nat.add_sub_cancel]
  apply position_eq_some hMark
  · rw [List.append_assoc, List.drop_left]
    exact List.prefix_append _ _
  · rintro j hj ⟨after, hAfter⟩
    have hNot := @EndsWithFirst.not_infix _ _ (((before ++ mark) ++ more).take (j + mark.length)) _ h
    apply hNot
    · rw [List.take_append_of_le_length (by rw [List.length_append]; omega)]
      exact List.take_prefix _ _
    · rw [List.length_take, List.length_append, List.length_append]
      omega
    · refine ⟨((before ++ mark) ++ more).take j, [], ?_⟩
      rw [List.append_nil, List.take_add, ← hAfter, List.take_left]

end

/-- The first index at which something is found. -/
theorem findSome?_range_eq_some_iff {β : Type*} {f : Nat → Option β} {n : Nat} {b : β} :
    (List.range n).findSome? f = some b ↔ ∃ i, i < n ∧ f i = some b ∧ ∀ j, j < i → f j = none := by
  induction n with
  | zero => simp
  | succ n ih =>
    rw [List.range_succ, List.findSome?_append, Option.or_eq_some_iff, ih, List.findSome?_singleton,
      List.findSome?_eq_none_iff]
    constructor
    · rintro (⟨i, hi, hFound, hFirst⟩ | ⟨hNone, hFound⟩)
      · exact ⟨i, Nat.lt_succ_of_lt hi, hFound, hFirst⟩
      · exact ⟨n, Nat.lt_succ_self n, hFound, fun j hj => hNone j (List.mem_range.mpr hj)⟩
    · rintro ⟨i, hi, hFound, hFirst⟩
      obtain hBefore | rfl := Nat.lt_succ_iff_lt_or_eq.mp hi
      · exact .inl ⟨i, hBefore, hFound, hFirst⟩
      · exact .inr ⟨fun j hj => hFirst j (List.mem_range.mp hj), hFound⟩

end CrabbyProxy.Stream
