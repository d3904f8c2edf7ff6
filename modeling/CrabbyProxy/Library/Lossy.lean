import CrabbyProxy.Library.Text

/-!
# Lossy decoding of text that has been cut off

The encoding of a text comes back as it was. Where it is cut off, all whole characters
come back, and what a divided character becomes is outside ASCII.
-/

namespace CrabbyProxy.Text
set_option autoImplicit false

variable {c : Char} {chars : List Char} {bytes rest : List UInt8} {fuel fuel' : Nat}

theorem encodeChar_ne_nil (c : Char) : String.utf8EncodeChar c ≠ [] := by
  apply List.ne_nil_of_length_pos
  rw [String.length_utf8EncodeChar]
  exact c.utf8Size_pos

theorem decode_encodeChar_append (c : Char) (rest : List UInt8) :
    ByteArray.utf8DecodeChar? ⟨((String.utf8EncodeChar c ++ rest).take 4).toArray⟩ 0 = some c := by
  have hLength : (String.utf8EncodeChar c).length ≤ 4 := by
    rw [String.length_utf8EncodeChar]
    exact c.utf8Size_le_four
  have hBytes : (⟨((String.utf8EncodeChar c ++ rest).take 4).toArray⟩ : ByteArray) =
      (String.utf8EncodeChar c).toByteArray ++
        (rest.take (4 - (String.utf8EncodeChar c).length)).toByteArray := by
    apply ByteArray.ext
    rw [ByteArray.data_append, List.data_toByteArray, List.data_toByteArray, List.take_append,
      List.take_of_length_le hLength, List.append_toArray]
  rw [hBytes, ByteArray.utf8DecodeChar?_utf8EncodeChar_append]

theorem lossyChars_encodeChar (c : Char) (rest : List UInt8) (fuel : Nat) :
    lossyChars (fuel + 1) (String.utf8EncodeChar c ++ rest) = c :: lossyChars fuel rest := by
  have hDecode := decode_encodeChar_append c rest
  have hDrop : (String.utf8EncodeChar c ++ rest).drop c.utf8Size = rest :=
    List.drop_left' (String.length_utf8EncodeChar c)
  cases hBytes : String.utf8EncodeChar c ++ rest with
  | nil => exact absurd (List.append_eq_nil_iff.mp hBytes).1 (encodeChar_ne_nil c)
  | cons b bytes =>
    rw [hBytes] at hDecode hDrop
    rw [lossyChars, hDecode]
    dsimp only
    rw [hDrop]

theorem maximalSubpart_pos (bytes : List UInt8) : 0 < maximalSubpart bytes := by
  unfold maximalSubpart
  split
  · split_ifs
    · split
      · split_ifs <;> decide
      · decide
    · decide
  · decide

theorem lossyChars_congr (h : bytes.length ≤ fuel) (h' : bytes.length ≤ fuel') :
    lossyChars fuel bytes = lossyChars fuel' bytes := by
  induction fuel generalizing fuel' bytes with
  | zero =>
    obtain rfl := List.length_eq_zero_iff.mp (Nat.le_zero.mp h)
    cases fuel' <;> rfl
  | succ fuel ih =>
    cases bytes with
    | nil => cases fuel' <;> rfl
    | cons b bytes =>
      cases fuel' with
      | zero => exact absurd h' (Nat.not_succ_le_zero _)
      | succ fuel' =>
        have hDrop : ∀ n, 0 < n → ((b :: bytes).drop n).length ≤ fuel ∧
            ((b :: bytes).drop n).length ≤ fuel' := by
          intro n hn
          rw [List.length_cons] at h h'
          rw [List.length_drop, List.length_cons]
          omega
        rw [lossyChars, lossyChars]
        split
        · rename_i c _
          obtain ⟨hLeft, hRight⟩ := hDrop _ c.utf8Size_pos
          rw [ih hLeft hRight]
        · obtain ⟨hLeft, hRight⟩ := hDrop _ (maximalSubpart_pos (b :: bytes))
          rw [ih hLeft hRight]

theorem lossyChars_append (chars : List Char)
    (hFuel : (chars.flatMap String.utf8EncodeChar ++ rest).length ≤ fuel)
    (hRest : rest.length ≤ fuel') :
    lossyChars fuel (chars.flatMap String.utf8EncodeChar ++ rest) =
      chars ++ lossyChars fuel' rest := by
  induction chars generalizing fuel with
  | nil => exact lossyChars_congr hFuel hRest
  | cons c chars ih =>
    rw [List.flatMap_cons, List.append_assoc] at hFuel ⊢
    have hPos := List.length_pos_iff.mpr (encodeChar_ne_nil c)
    rw [List.length_append] at hFuel
    obtain ⟨fuel, rfl⟩ := Nat.exists_eq_succ_of_ne_zero (by omega : fuel ≠ 0)
    rw [lossyChars_encodeChar, ih (by omega), List.cons_append]

theorem fromUtf8Lossy_append (s : String) (rest : List UInt8) :
    fromUtf8Lossy (asBytes s ++ rest) = s ++ fromUtf8Lossy rest := by
  apply String.toList_inj.mp
  rw [String.toList_append, fromUtf8Lossy, fromUtf8Lossy, String.toList_ofList,
    String.toList_ofList, asBytes_eq_flatMap]
  exact lossyChars_append s.toList (Nat.le_refl _) (Nat.le_refl _)

theorem lt_of_mem_ascii (hAscii : c.toNat < 0x80) :
    ∃ b ∈ String.utf8EncodeChar c, b.toNat < 0x80 := by
  have hVal : c.val.toNat = c.toNat := rfl
  unfold String.utf8EncodeChar
  rw [if_pos (by omega)]
  refine ⟨_, List.mem_singleton_self _, ?_⟩
  rw [UInt8.toNat_ofNat_of_lt' (Nat.lt_of_lt_of_le (hVal ▸ hAscii) (by decide))]
  exact hAscii

/-- Without a byte of ASCII there is no character of ASCII. -/
theorem lossyChars_high (hHigh : ∀ b ∈ bytes, 0x80 ≤ b.toNat) (fuel : Nat) :
    ∀ d ∈ lossyChars fuel bytes, 0x80 ≤ d.toNat := by
  induction fuel generalizing bytes with
  | zero => cases bytes <;> exact fun d hd => absurd hd List.not_mem_nil
  | succ fuel ih =>
    cases bytes with
    | nil => exact fun d hd => absurd hd List.not_mem_nil
    | cons b bytes =>
      have hDrop : ∀ n, ∀ d ∈ lossyChars fuel ((b :: bytes).drop n), 0x80 ≤ d.toNat :=
        fun n => ih fun b' hMem => hHigh b' (List.mem_of_mem_drop hMem)
      rw [lossyChars]
      split
      · rename_i c hDecode
        have hFirst : 0x80 ≤ c.toNat := by
          apply Nat.le_of_not_lt
          intro hAscii
          obtain ⟨b', hMem, hLow⟩ := lt_of_mem_ascii hAscii
          obtain ⟨more, hBytes⟩ := ByteArray.exists_of_utf8DecodeChar?_eq_some hDecode
          have hData := congrArg (fun bs => bs.data.toList) hBytes
          dsimp only at hData
          rw [ByteArray.data_append, List.data_toByteArray, Array.toList_append] at hData
          have hSeen : b' ∈ (b :: bytes).take 4 := by
            rw [hData]
            exact List.mem_append_left _ hMem
          exact absurd (hHigh b' (List.mem_of_mem_take hSeen)) (Nat.not_le.mpr hLow)
        exact List.forall_mem_cons.mpr ⟨hFirst, hDrop _⟩
      · exact List.forall_mem_cons.mpr ⟨by decide, hDrop _⟩

theorem high_of_divided (hDivided : 1 < (String.utf8EncodeChar c).length) : 0x80 ≤ c.toNat := by
  apply Nat.le_of_not_lt
  intro hAscii
  have hVal : c.val.toNat = c.toNat := rfl
  unfold String.utf8EncodeChar at hDivided
  rw [if_pos (by omega)] at hDivided
  exact absurd hDivided (Nat.lt_irrefl 1)

/-- A text that is cut off after some bytes: the characters that are kept, those that are not,
and what stands for one that is divided. -/
theorem exists_cut (chars : List Char) {n : Nat}
    (hFuel : ((chars.flatMap String.utf8EncodeChar).take n).length ≤ fuel) :
    ∃ kept dropped junk, chars = kept ++ dropped ∧
      lossyChars fuel ((chars.flatMap String.utf8EncodeChar).take n) = kept ++ junk ∧
      (∀ d ∈ junk, 0x80 ≤ d.toNat) ∧ (junk = [] ∨ ∃ d ∈ dropped.head?, 0x80 ≤ d.toNat) ∧
      (dropped = [] → (chars.flatMap String.utf8EncodeChar).length ≤ n) := by
  induction chars generalizing fuel n with
  | nil =>
    refine ⟨[], [], [], rfl, ?_, by simp, .inl rfl, fun _ => Nat.zero_le n⟩
    rw [List.flatMap_nil, List.take_nil]
    cases fuel <;> rfl
  | cons c chars ih =>
    rw [List.flatMap_cons] at hFuel ⊢
    by_cases hFits : (String.utf8EncodeChar c).length ≤ n
    · have hTake : (String.utf8EncodeChar c ++ chars.flatMap String.utf8EncodeChar).take n =
          String.utf8EncodeChar c ++ (chars.flatMap String.utf8EncodeChar).take
            (n - (String.utf8EncodeChar c).length) := by
        rw [List.take_append, List.take_of_length_le hFits]
      have hPos := List.length_pos_iff.mpr (encodeChar_ne_nil c)
      rw [hTake, List.length_append] at hFuel
      obtain ⟨fuel, rfl⟩ := Nat.exists_eq_succ_of_ne_zero (by omega : fuel ≠ 0)
      obtain ⟨kept, dropped, junk, rfl, hSeen, hJunk, hDivided, hAll⟩ := @ih fuel
        (n - (String.utf8EncodeChar c).length) (by omega)
      refine ⟨c :: kept, dropped, junk, rfl, ?_, hJunk, hDivided, fun hNone => ?_⟩
      · rw [hTake, lossyChars_encodeChar, hSeen, List.cons_append]
      · have hLength := hAll hNone
        rw [List.length_append]
        omega
    · have hTake : (String.utf8EncodeChar c ++ chars.flatMap String.utf8EncodeChar).take n =
          (String.utf8EncodeChar c).take n :=
        List.take_append_of_le_length (Nat.le_of_not_le hFits)
      rw [hTake]
      have hHigh : 0 < n → 0x80 ≤ c.toNat := fun hn => high_of_divided (by omega)
      refine ⟨[], c :: chars, _, rfl, rfl, lossyChars_high ?_ fuel, ?_, by rintro ⟨⟩⟩
      · intro b hMem
        apply Nat.le_of_not_lt
        intro hLow
        have hSame := toNat_of_mem_utf8EncodeChar (List.mem_of_mem_take hMem) hLow
        have hPos := List.length_pos_of_mem hMem
        rw [List.length_take] at hPos
        have hChar := hHigh (by omega)
        omega
      · cases n with
        | zero => exact .inl (by cases fuel <;> rfl)
        | succ n => exact .inr ⟨c, rfl, hHigh (Nat.succ_pos n)⟩

end CrabbyProxy.Text
