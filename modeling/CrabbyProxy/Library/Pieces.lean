import CrabbyProxy.Library.Text

/-!
# The pieces of a split text

No piece contains the separator, and its characters come from the text.
-/

namespace CrabbyProxy.Text
set_option autoImplicit false

section

variable {α : Type*} {p : α → Bool} {piece : List α} {x : α}

theorem mem_of_mem_splitOnP (xs : List α) (hPiece : piece ∈ xs.splitOnP p) (hx : x ∈ piece) :
    x ∈ xs ∧ p x = false := by
  induction xs generalizing piece with
  | nil =>
    rw [List.splitOnP_nil, List.mem_singleton] at hPiece
    rw [hPiece] at hx
    cases hx
  | cons y ys ih =>
    have hLater : piece ∈ ys.splitOnP p → x ∈ y :: ys ∧ p x = false := by
      intro hMem
      obtain ⟨hMem, hp⟩ := ih hMem hx
      exact ⟨List.mem_cons_of_mem _ hMem, hp⟩
    rw [List.splitOnP_cons_eq_if_modifyHead] at hPiece
    split at hPiece
    · obtain rfl | hMem := List.mem_cons.mp hPiece
      · cases hx
      · exact hLater hMem
    · rename_i hy
      cases hPieces : ys.splitOnP p with
      | nil => exact absurd hPieces (List.splitOnP_ne_nil p ys)
      | cons first later =>
        rw [hPieces, List.modifyHead_cons] at hPiece
        obtain rfl | hMem := List.mem_cons.mp hPiece
        · obtain rfl | hFirst := List.mem_cons.mp hx
          · exact ⟨List.mem_cons_self, Bool.eq_false_iff.mpr hy⟩
          · obtain ⟨hMem, hp⟩ := ih (hPieces ▸ List.mem_cons_self) hFirst
            exact ⟨List.mem_cons_of_mem _ hMem, hp⟩
        · exact hLater (hPieces ▸ List.mem_cons_of_mem _ hMem)

end

variable {s token before after : String} {c d : Char}

theorem mem_of_mem_split (hToken : token ∈ split s c) (hd : d ∈ token.toList) :
    d ∈ s.toList ∧ d ≠ c := by
  obtain ⟨piece, hPiece, rfl⟩ := List.mem_map.mp hToken
  rw [String.toList_ofList] at hd
  rw [List.splitOn_eq_splitOnP] at hPiece
  obtain ⟨hMem, hOther⟩ := mem_of_mem_splitOnP _ hPiece hd
  exact ⟨hMem, fun hSame => absurd (beq_iff_eq.mpr hSame) (Bool.eq_false_iff.mp hOther)⟩

theorem split_eq_self (h : c ∉ s.toList) : split s c = [s] := by
  rw [split, List.splitOn_eq_singleton h, List.map_singleton, String.ofList_toList]

theorem split_eq_pair_iff : split s c = [before, after] ↔
    s = before ++ String.singleton c ++ after ∧ c ∉ before.toList ∧ c ∉ after.toList := by
  constructor
  · intro hSplit
    have hOther : ∀ token ∈ split s c, c ∉ token.toList :=
      fun token hToken hMem => (mem_of_mem_split hToken hMem).2 rfl
    have hPieces := congrArg (List.map String.toList) hSplit
    have hInverse : String.toList ∘ String.ofList = id := funext fun _ => String.toList_ofList
    rw [split, List.map_map, hInverse, List.map_id] at hPieces
    have hJoined := @List.intercalate_splitOn _ s.toList _ _ c
    rw [hPieces] at hJoined
    rw [hSplit] at hOther
    refine ⟨?_, hOther before (by simp), hOther after (by simp)⟩
    apply String.toList_inj.mp
    rw [← hJoined]
    simp [List.intercalate]
  · rintro ⟨rfl, hBefore, hAfter⟩
    exact split_append hBefore hAfter

theorem headD_split_append (h : c ∉ before.toList) :
    (split (before ++ String.singleton c ++ after) c).headD "" = before := by
  have hChars : (before ++ String.singleton c ++ after).toList =
      before.toList ++ c :: after.toList := by simp
  rw [split, hChars, List.splitOn_append_cons_self_of_not_mem h, List.map_cons, List.headD_cons,
    String.ofList_toList]

theorem not_isWhitespace_of_mem_splitWhitespace (hToken : token ∈ splitWhitespace s)
    (hd : d ∈ token.toList) : isWhitespace d = false := by
  obtain ⟨piece, hPiece, rfl⟩ := List.mem_map.mp hToken
  rw [String.toList_ofList] at hd
  exact (mem_of_mem_splitOnP _ (List.mem_of_mem_filter hPiece) hd).2

theorem not_isWhitespace_of_isDigit (h : c.isDigit = true) : isWhitespace c = false := by
  have hBounds : 48 ≤ c.toNat ∧ c.toNat ≤ 57 := by
    simpa [Char.isDigit, UInt32.le_iff_toNat_le] using h
  simp only [isWhitespace, List.mem_cons, List.not_mem_nil, or_false]
  simp only [Bool.or_eq_false_iff, Bool.and_eq_false_iff, decide_eq_false_iff_not]
  omega

/-- The byte of an ASCII character that a text does not contain. -/
theorem byte_notMem_asBytes (hAscii : c.toNat < 0x80) (h : c ∉ s.toList) :
    UInt8.ofNat c.toNat ∉ asBytes s := by
  have hByte : (UInt8.ofNat c.toNat).toNat = c.toNat :=
    UInt8.toNat_ofNat_of_lt' (Nat.lt_trans hAscii (by decide))
  rw [asBytes_eq_flatMap]
  intro hMem
  obtain ⟨d, hd, hMember⟩ := List.mem_flatMap.mp hMem
  have hCode := toNat_of_mem_utf8EncodeChar hMember (by omega)
  obtain rfl : d = c := Char.toNat_inj.mp (hCode.trans hByte)
  exact h hd

end CrabbyProxy.Text
