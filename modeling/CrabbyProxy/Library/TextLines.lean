import CrabbyProxy.Library.Pieces

/-!
# Lines, trimming and letter case

What `lines`, `trim`, `trim_start_matches` and `to_lowercase` do with a text that is
put together from known parts.
-/

namespace CrabbyProxy.Text
set_option autoImplicit false

variable {s line name : String} {c : Char} {chars start before after : List Char}

section Lines

theorem stripCr_concat (chars : List Char) : stripCr (chars ++ ['\r']) = chars := by
  rw [stripCr, if_pos (by simp), List.dropLast_concat]

theorem lines_append (hLine : '\n' ∉ line.toList) (rest : String) :
    lines (line ++ "\r\n" ++ rest) = line :: lines rest := by
  have hEnd : "\r\n".toList = ['\r', '\n'] := by decide
  have hChars : (line ++ "\r\n" ++ rest).toList =
      (line.toList ++ ['\r']) ++ '\n' :: rest.toList := by
    simp [String.toList_append, hEnd]
  have hNone : '\n' ∉ line.toList ++ ['\r'] := by
    rw [List.mem_append, not_or]
    exact ⟨hLine, by decide⟩
  unfold lines
  rw [hChars, List.splitOn_append_cons_self_of_not_mem hNone]
  cases hPieces : rest.toList.splitOn '\n' with
  | nil => exact absurd hPieces (List.splitOn_ne_nil _ _)
  | cons piece pieces =>
    simp only [List.dropLast_cons_cons, List.map_cons, List.getLastD_cons, stripCr_concat,
      String.ofList_toList, List.cons_append]

/-- The lines, each with its ending, and what comes after them. -/
def withLines (ls : List String) (rest : String) : String :=
  ls.foldr (fun line rest => line ++ "\r\n" ++ rest) rest

theorem withLines_append (ls : List String) (rest more : String) :
    withLines ls rest ++ more = withLines ls (rest ++ more) := by
  induction ls with
  | nil => rfl
  | cons line ls ih =>
    rw [withLines, List.foldr_cons, String.append_assoc]
    exact congrArg _ ih

theorem lines_withLines {ls : List String} (hLines : ∀ line ∈ ls, '\n' ∉ line.toList)
    (rest : String) : lines (withLines ls rest) = ls ++ lines rest := by
  induction ls with
  | nil => rfl
  | cons line ls ih =>
    rw [List.forall_mem_cons] at hLines
    exact (lines_append hLines.1 _).trans (congrArg _ (ih hLines.2))

/-- A text without a newline is one line, unless it is empty. -/
theorem lines_of_notMem (h : '\n' ∉ s.toList) : lines s = if s = "" then [] else [s] := by
  rw [lines, List.splitOn_eq_singleton h]
  by_cases hEmpty : s = ""
  · subst hEmpty
    rfl
  · have hChars : s.toList ≠ [] := fun hNil => hEmpty (String.toList_eq_nil_iff.mp hNil)
    simp [hEmpty]

end Lines

section Trimming

variable {p : Char → Bool}

theorem rdropWhile_append_concat (hc : p c = false) (before chars : List Char) :
    (before ++ [c] ++ chars).rdropWhile p = before ++ [c] ++ chars.rdropWhile p := by
  induction chars using List.reverseRecOn with
  | nil =>
    rw [List.append_nil, List.rdropWhile_concat_neg _ _ _ (Bool.eq_false_iff.mp hc),
      List.rdropWhile_nil, List.append_nil]
  | append_singleton chars d ih =>
    rw [← List.append_assoc, List.rdropWhile_concat, List.rdropWhile_concat, ih]
    split
    · rfl
    · rw [List.append_assoc _ chars]

theorem rdropWhile_isSuffix (before chars : List Char) :
    chars.rdropWhile p <:+ (before ++ chars).rdropWhile p := by
  induction chars using List.reverseRecOn with
  | nil => exact List.nil_suffix
  | append_singleton chars d ih =>
    rw [← List.append_assoc, List.rdropWhile_concat, List.rdropWhile_concat]
    split
    · exact ih
    · rw [List.append_assoc]
      exact List.suffix_append _ _

theorem length_trim_le (s : String) :
    (trim s).toList.length ≤ (s.toList.rdropWhile isWhitespace).length := by
  obtain ⟨dropped, hDropped⟩ := List.dropWhile_suffix isWhitespace (l := s.toList)
  have hSuffix := @rdropWhile_isSuffix isWhitespace dropped (s.toList.dropWhile isWhitespace)
  rw [hDropped] at hSuffix
  rw [trim, String.toList_ofList]
  exact hSuffix.length_le

theorem trim_cons (hc : isWhitespace c = true) (chars : List Char) :
    trim (String.ofList (c :: chars)) = trim (String.ofList chars) := by
  rw [trim, trim, String.toList_ofList, String.toList_ofList, List.dropWhile_cons_of_pos hc]

/-- Behind a front that neither starts nor ends with whitespace, only the end is trimmed. -/
theorem toList_trim_append {front : List Char} {first last : Char}
    (hHead : front.head? = some first) (hFirst : isWhitespace first = false)
    (hEnd : front.getLast? = some last) (hLast : isWhitespace last = false) (rest : List Char) :
    (trim (String.ofList (front ++ rest))).toList = front ++ rest.rdropWhile isWhitespace := by
  have hStart : (front ++ rest).dropWhile isWhitespace = front ++ rest := by
    obtain ⟨tail, rfl⟩ := List.head?_eq_some_iff.mp hHead
    exact List.dropWhile_cons_of_neg (Bool.eq_false_iff.mp hFirst)
  obtain ⟨init, rfl⟩ := List.getLast?_eq_some_iff.mp hEnd
  rw [trim, String.toList_ofList, String.toList_ofList, hStart, rdropWhile_append_concat hLast]

theorem trim_append_ne {front : List Char} {first last : Char}
    (hHead : front.head? = some first) (hFirst : isWhitespace first = false)
    (hEnd : front.getLast? = some last) (hLast : isWhitespace last = false) (rest : List Char) :
    trim (String.ofList (front ++ rest)) ≠ trim (String.ofList rest) := by
  intro hSame
  have hLong := congrArg List.length (toList_trim_append hHead hFirst hEnd hLast rest)
  have hShort := length_trim_le (String.ofList rest)
  have hPos : 0 < front.length := by
    obtain ⟨tail, rfl⟩ := List.head?_eq_some_iff.mp hHead
    exact Nat.succ_pos _
  rw [hSame, List.length_append] at hLong
  rw [String.toList_ofList] at hShort
  omega

/-- Some number of copies has been taken off the front, and no more can be. -/
theorem trimStart_spec (hStart : start ≠ []) {rounds : Nat} (hRounds : chars.length ≤ rounds) :
    ∃ n, chars = (List.replicate n start).flatten ++ trimStart start rounds chars ∧
      ¬start <+: trimStart start rounds chars := by
  induction rounds generalizing chars with
  | zero =>
    obtain rfl := List.length_eq_zero_iff.mp (Nat.le_zero.mp hRounds)
    exact ⟨0, rfl, fun hNil => hStart (List.prefix_nil.mp hNil)⟩
  | succ rounds ih =>
    unfold trimStart
    split
    · rename_i hMore
      obtain ⟨rest, rfl⟩ := List.isPrefixOf_iff_prefix.mp hMore
      have hPos := List.length_pos_iff.mpr hStart
      rw [List.length_append] at hRounds
      obtain ⟨n, hRest, hDone⟩ := @ih rest (by omega)
      rw [List.drop_left]
      refine ⟨n + 1, ?_, hDone⟩
      rw [List.replicate_succ, List.flatten_cons, List.append_assoc, ← hRest]
    · rename_i hDone
      exact ⟨0, rfl, fun h => hDone (List.isPrefixOf_iff_prefix.mpr h)⟩

end Trimming

/-- What has nothing to do with a pattern does not complete it. -/
theorem isPrefix_append_iff {α : Type*} {pattern xs ys : List α} (hOther : ∀ y ∈ ys, y ∉ pattern) :
    pattern <+: xs ++ ys ↔ pattern <+: xs := by
  constructor
  · intro hPrefix
    obtain hShort | hLong := Nat.le_total pattern.length xs.length
    · exact List.prefix_of_prefix_length_le hPrefix (List.prefix_append _ _) hShort
    · obtain ⟨more, rfl⟩ := List.prefix_of_prefix_length_le (List.prefix_append xs ys) hPrefix hLong
      cases more with
      | nil => rw [List.append_nil]
      | cons y more =>
        have hFirst := (List.prefix_append_right_inj xs).mp hPrefix
        have hMem : y ∈ xs ++ y :: more := List.mem_append_right _ List.mem_cons_self
        exact absurd hMem (hOther y (hFirst.subset List.mem_cons_self))
  · exact fun hPrefix => hPrefix.trans (List.prefix_append _ _)

/-- Two parts in front of their first delimiters. -/
theorem concat_isPrefix_iff {α : Type*} [DecidableEq α] {a : α} {xs ys : List α} (hx : a ∉ xs)
    (hy : a ∉ ys) (zs : List α) : xs ++ [a] <+: ys ++ a :: zs ↔ xs = ys := by
  constructor
  · rintro ⟨rest, hSame⟩
    rw [List.append_assoc, List.singleton_append] at hSame
    have hFirst := congrArg (fun chars => (chars.splitOn a).head?) hSame
    rw [List.splitOn_append_cons_self_of_not_mem hx, List.splitOn_append_cons_self_of_not_mem hy,
      List.head?_cons, List.head?_cons] at hFirst
    exact Option.some.inj hFirst
  · rintro rfl
    exact ⟨zs, by rw [List.append_assoc, List.singleton_append]⟩

section Case

theorem toLower_of_ge (h : 0x80 ≤ c.toNat) : c.toLower = c := by
  unfold Char.toLower
  split
  · rename_i hUpper
    have hLe := UInt32.le_iff_toNat_le.mp hUpper.2
    have hZ : 'Z'.val.toNat = 90 := by decide
    have hVal : c.val.toNat = c.toNat := rfl
    omega
  · rfl

theorem not_isWhitespace_of_toLower (h : isWhitespace c.toLower = false) :
    isWhitespace c = false := by
  unfold Char.toLower at h
  split at h
  · rename_i hUpper
    have hGe := UInt32.le_iff_toNat_le.mp hUpper.1
    have hLe := UInt32.le_iff_toNat_le.mp hUpper.2
    have hA : 'A'.val.toNat = 65 := by decide
    have hZ : 'Z'.val.toNat = 90 := by decide
    have hVal : c.val.toNat = c.toNat := rfl
    simp only [isWhitespace, List.mem_cons, List.not_mem_nil, or_false]
    simp only [Bool.or_eq_false_iff, Bool.and_eq_false_iff, decide_eq_false_iff_not]
    omega
  · exact h

theorem toLower_eq_colon_iff : c.toLower = ':' ↔ c = ':' := by
  constructor
  · intro hLower
    unfold Char.toLower at hLower
    split at hLower
    · rename_i hUpper
      have hGe := UInt32.le_iff_toNat_le.mp hUpper.1
      have hLe := UInt32.le_iff_toNat_le.mp hUpper.2
      have hA : 'A'.val.toNat = 65 := by decide
      have hZ : 'Z'.val.toNat = 90 := by decide
      have hStep : ('a'.val - 'A'.val).toNat = 32 := by decide
      have hColon : ':'.val.toNat = 58 := by decide
      have hVal := congrArg (fun d => d.val.toNat) hLower
      dsimp only at hVal
      rw [UInt32.toNat_add, hStep, hColon] at hVal
      omega
    · exact hLower
  · rintro rfl
    decide

/-- Lower case is looked at character by character, if the text it is compared with is
ASCII, has no `k` and does not stop inside what a dotted `I` becomes. -/
theorem isPrefix_lowerChars_iff (table : CaseTable) (hAscii : ∀ d ∈ start, d.toNat < 0x80 ∧ d ≠ 'k')
    (hLast : start.getLast? ≠ some 'i') (before : List Char) :
    start <+: table.lowerChars before chars ↔ start <+: chars.map Char.toLower := by
  induction start generalizing before chars with
  | nil => exact iff_of_true List.nil_prefix List.nil_prefix
  | cons d start ih =>
    obtain ⟨hd, hk⟩ := hAscii d List.mem_cons_self
    have hStart : ∀ d ∈ start, d.toNat < 0x80 ∧ d ≠ 'k' :=
      fun d hMem => hAscii d (List.mem_cons_of_mem _ hMem)
    cases chars with
    | nil => rfl
    | cons c chars =>
      rw [CaseTable.lowerChars, List.map_cons]
      by_cases hc : c.toNat < 0x80
      · have hStartLast : start.getLast? ≠ some 'i' := by
          cases start with
          | nil => nofun
          | cons e start => rwa [List.getLast?_cons_cons] at hLast
        rw [table.ascii _ _ _ hc, List.singleton_append, List.cons_prefix_cons,
          List.cons_prefix_cons, ih hStart hStartLast]
      · have hSame := toLower_of_ge (Nat.le_of_not_lt hc)
        have hOther : d ≠ c := by
          rintro rfl
          exact hc hd
        rw [hSame]
        refine iff_of_false ?_ fun hPrefix => hOther (List.cons_prefix_cons.mp hPrefix).1
        intro hPrefix
        by_cases hKelvin : c = '\u212A'
        · rw [hKelvin, table.kelvin, List.singleton_append] at hPrefix
          exact hk (List.cons_prefix_cons.mp hPrefix).1
        by_cases hDotted : c = '\u0130'
        · rw [hDotted, table.dotted, List.cons_append] at hPrefix
          obtain ⟨rfl, hRest⟩ := List.cons_prefix_cons.mp hPrefix
          cases start with
          | nil => exact hLast rfl
          | cons e start =>
            obtain ⟨rfl, _⟩ := List.cons_prefix_cons.mp hRest
            exact absurd (hStart _ List.mem_cons_self).1 (by decide)
        · have hLower := table.other before c chars (Nat.le_of_not_lt hc) hKelvin hDotted
          cases hChars : table.lower before c chars with
          | nil => exact table.nonempty _ _ _ hChars
          | cons e rest =>
            rw [hChars, List.cons_append] at hPrefix
            obtain ⟨rfl, _⟩ := List.cons_prefix_cons.mp hPrefix
            have hHigh := hLower d (hChars ▸ List.mem_cons_self)
            omega

end Case

end CrabbyProxy.Text
