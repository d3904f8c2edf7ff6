import CrabbyProxy.Library.Search
import CrabbyProxy.Proxy.Targets

/-!
# What the scan for a server name reads

The scan stops at the first position that has four zero bytes and, behind a
length byte nine bytes on, a whole text.
-/

namespace CrabbyProxy.Proxy

open CrabbyProxy.Stream
set_option autoImplicit false

variable {data : List UInt8} {name : String} {i : Nat}

/-- The bytes of a slice: no object is larger than `isize::MAX`. -/
structure ByteSlice where
  bytes : List UInt8
  fits : bytes.length < 2 ^ 63

section Checks

variable {a b start stop : Nat}

theorem ok_bind {α β : Type} (x : α) (f : α → Checked β) :
    ((.ok x : Checked α) >>= f) = f x := rfl

theorem checkedAdd_eq_some (h : a + b < 2 ^ 64) : checkedAdd a b = some (a + b) := if_pos h

theorem plus_eq_ok (h : a + b < 2 ^ 64) : plus a b = .ok (a + b) := by
  rw [plus, checkedAdd_eq_some h]

theorem byteAt_eq_ok (h : i < data.length) : byteAt data i = .ok data[i] := by
  rw [byteAt, List.getElem?_eq_getElem h]

theorem slice_eq_ok (hStart : start ≤ stop) (hStop : stop ≤ data.length) :
    slice data start stop = .ok ((data.drop start).take (stop - start)) :=
  if_pos ⟨hStart, hStop⟩

end Checks

/-- What the scan reads at one position. -/
def sniText (data : List UInt8) (i : Nat) : Option String :=
  if (data.drop i).take 4 = [0x00, 0x00, 0x00, 0x00] then
    let nameLen := (data.getD (i + 9) 0).toNat
    if i + 10 + nameLen ≤ data.length then Text.fromUtf8 ((data.drop (i + 10)).take nameLen)
    else none
  else none

theorem sniAt_eq_ok (hFits : data.length < 2 ^ 63) (hi : i + 10 < data.length) :
    sniAt data i = .ok (sniText data i) := by
  have hNine : i + 9 < data.length := by omega
  have hByte : data.getD (i + 9) 0 = data[i + 9] := by
    rw [List.getD_eq_getElem?_getD, List.getElem?_eq_getElem hNine, Option.getD_some]
  have hSmall := data[i + 9].toNat_lt
  rw [sniAt, plus_eq_ok (by omega), ok_bind, slice_eq_ok (Nat.le_add_right i 4) (by omega), ok_bind,
    Nat.add_sub_cancel_left, sniText, hByte]
  split
  · rw [checkedAdd_eq_some (by omega)]
    dsimp only
    rw [if_pos hNine, byteAt_eq_ok hNine, ok_bind, checkedAdd_eq_some (by omega)]
    dsimp only
    rw [plus_eq_ok (by omega), ok_bind]
    split
    · rename_i hWhole
      rw [slice_eq_ok (Nat.le_add_right _ _) hWhole, ok_bind, Nat.add_sub_cancel_left]
      rfl
    · rfl
  · rfl

theorem sniSearch_eq_ok (hFits : data.length < 2 ^ 63) {positions : List Nat}
    (hPositions : ∀ i ∈ positions, i + 10 < data.length) :
    sniSearch data positions = .ok (positions.findSome? (sniText data)) := by
  induction positions with
  | nil => rfl
  | cons i positions ih =>
    obtain ⟨hi, hLater⟩ := List.forall_mem_cons.mp hPositions
    rw [sniSearch, sniAt_eq_ok hFits hi, List.findSome?_cons]
    cases sniText data i with
    | some name => rfl
    | none => exact ih hLater

theorem mem_positions {n : Nat} (h : i ∈ List.range (n - 10)) : i + 10 < n := by
  have hi := List.mem_range.mp h
  omega

/-- Without panics, the function is a search for the first text. -/
theorem extractSniFromTls_eq_ok (hFits : data.length < 2 ^ 63) :
    extractSniFromTls data = .ok (if 43 ≤ data.length ∧ data.head? = some 0x16 then
      (List.range (data.length - 10)).findSome? (sniText data) else none) := by
  rw [extractSniFromTls]
  split
  · rename_i hShort
    rw [if_neg (fun hRecord => absurd hRecord.1 (Nat.not_le.mpr hShort))]
    rfl
  · rename_i hLong
    have hFirst : 0 < data.length := by omega
    rw [byteAt_eq_ok hFirst, ok_bind, List.head?_eq_getElem?, List.getElem?_eq_getElem hFirst]
    split
    · rename_i hOther
      rw [if_neg (fun hRecord => hOther (Option.some.inj hRecord.2))]
      rfl
    · rename_i hHandshake
      rw [if_pos ⟨Nat.not_lt.mp hLong, congrArg some (not_not.mp hHandshake)⟩]
      exact sniSearch_eq_ok hFits fun _ => mem_positions

/-- At this position are four zero bytes and, behind any five, a length and a text
of that length; at least one byte follows the length. -/
def NameAt (data : List UInt8) (i : Nat) (name : String) : Prop :=
  ∃ before skipped length after,
    data = before ++ [0x00, 0x00, 0x00, 0x00] ++ skipped ++ length :: Text.asBytes name ++ after ∧
    before.length = i ∧ skipped.length = 5 ∧ (Text.asBytes name).length = length.toNat ∧
    Text.asBytes name ++ after ≠ []

theorem NameAt.reads (h : NameAt data i name) :
    i + 10 < data.length ∧ sniText data i = some name := by
  obtain ⟨before, skipped, length, after, hData, rfl, hSkipped, hLength, hMore⟩ := h
  have hFront : (before ++ [0x00, 0x00, 0x00, 0x00] ++ skipped).length = before.length + 9 := by
    rw [List.length_append, List.length_append, hSkipped]
    rfl
  have hWindow : (data.drop before.length).take 4 = [0x00, 0x00, 0x00, 0x00] := by
    rw [hData, List.append_assoc, List.append_assoc, List.append_assoc, List.drop_left]
    rfl
  have hSplit : data = (before ++ [0x00, 0x00, 0x00, 0x00] ++ skipped) ++
      length :: (Text.asBytes name ++ after) := by
    rw [hData, List.append_assoc _ (length :: _)]
    rfl
  have hByte : data.getD (before.length + 9) 0 = length := by
    rw [hSplit, ← hFront, List.getD_append_right _ _ _ _ (Nat.le_refl _), Nat.sub_self]
    rfl
  have hRest : data.drop (before.length + 10) = Text.asBytes name ++ after := by
    rw [hSplit, ← Nat.add_assoc before.length 9 1, ← hFront, ← List.drop_drop, List.drop_left]
    rfl
  have hLonger := congrArg List.length hRest
  have hPos := List.length_pos_iff.mpr hMore
  rw [List.length_drop] at hLonger
  have hi : before.length + 10 < data.length := by omega
  refine ⟨hi, ?_⟩
  rw [List.length_append] at hLonger
  rw [sniText, if_pos hWindow, hByte, hRest]
  dsimp only
  rw [List.take_left' hLength, Text.fromUtf8_asBytes, if_pos (by omega)]

theorem NameAt.of_reads (hi : i + 10 < data.length) (hText : sniText data i = some name) :
    NameAt data i name := by
  have hNine : i + 9 < data.length := by omega
  rw [sniText] at hText
  split at hText
  · rename_i hWindow
    dsimp only at hText
    split at hText
    · rename_i hWhole
      rw [List.getD_eq_getElem?_getD, List.getElem?_eq_getElem hNine, Option.getD_some]
        at hText hWhole
      have hName := Text.fromUtf8_eq_some_iff.mp hText
      have hZeroes := (List.take_append_drop 4 (data.drop i)).symm
      have hSkipped := (List.take_append_drop 5 (data.drop (i + 4))).symm
      have hRest := (List.take_append_drop data[i + 9].toNat (data.drop (i + 10))).symm
      rw [hWindow, List.drop_drop] at hZeroes
      rw [List.drop_drop, List.drop_eq_getElem_cons hNine] at hSkipped
      rw [hName] at hRest
      refine ⟨data.take i, (data.drop (i + 4)).take 5, data[i + 9],
        (data.drop (i + 10)).drop data[i + 9].toNat, ?_, ?_, ?_, ?_, ?_⟩
      · conv_lhs => rw [← List.take_append_drop i data, hZeroes, hSkipped, hRest]
        simp
      · rw [List.length_take]
        omega
      · rw [List.length_take, List.length_drop]
        omega
      · rw [← hName, List.length_take, List.length_drop]
        omega
      · rw [← hRest]
        apply List.ne_nil_of_length_pos
        rw [List.length_drop]
        omega
    · cases hText
  · cases hText

/-- The first name in the data. -/
structure FirstName (data : List UInt8) (i : Nat) (name : String) : Prop where
  named : NameAt data i name
  first : ∀ j, j < i → ∀ other, ¬NameAt data j other

theorem sniText_eq_none_iff (hi : i + 10 < data.length) :
    sniText data i = none ↔ ∀ name, ¬NameAt data i name := by
  rw [Option.eq_none_iff_forall_ne_some]
  exact forall_congr' fun name => not_congr ⟨NameAt.of_reads hi, fun h => h.reads.2⟩

theorem findSome?_sniText_eq_some_iff :
    (List.range (data.length - 10)).findSome? (sniText data) = some name ↔
      ∃ i, FirstName data i name := by
  rw [findSome?_range_eq_some_iff]
  constructor
  · rintro ⟨i, hi, hName, hFirst⟩
    refine ⟨i, .of_reads (by omega) hName, fun j hj => ?_⟩
    exact (sniText_eq_none_iff (by omega)).mp (hFirst j hj)
  · rintro ⟨i, hName, hFirst⟩
    obtain ⟨hi, hText⟩ := hName.reads
    refine ⟨i, by omega, hText, fun j hj => ?_⟩
    exact (sniText_eq_none_iff (by omega)).mpr (hFirst j hj)

theorem findSome?_sniText_eq_none_iff :
    (List.range (data.length - 10)).findSome? (sniText data) = none ↔
      ∀ i name, ¬NameAt data i name := by
  rw [List.findSome?_eq_none_iff]
  constructor
  · intro hNone i name hName
    obtain ⟨hi, hText⟩ := hName.reads
    rw [hNone i (List.mem_range.mpr (by omega))] at hText
    cases hText
  · intro hNone i hi
    exact (sniText_eq_none_iff (mem_positions hi)).mpr (hNone i)

/-- What a safe extraction promises: every index, slice and sum is in range, and what
it returns stands in the input behind its length. -/
structure SafelyExtracts (data : List UInt8) : Prop where
  noPanic : ∃ result, extractSniFromTls data = .ok result
  everyPosition : ∀ i, i < data.length - 10 → ∃ result, sniAt data i = .ok result
  noOverflow : ∀ i, i < data.length - 10 →
    checkedAdd i 9 = some (i + 9) ∧ checkedAdd (i + 9) 1 = some (i + 10)
  contiguous : ∀ name, extractSniFromTls data = .ok (some name) → ∃ before length after,
    data = before ++ length :: Text.asBytes name ++ after ∧
      length.toNat = (Text.asBytes name).length

/-- No client can panic the extraction, and it makes up no names. -/
theorem extractSniFromTls_safe (data : ByteSlice) : SafelyExtracts data.bytes where
  noPanic := ⟨_, extractSniFromTls_eq_ok data.fits⟩
  everyPosition i hi := ⟨_, sniAt_eq_ok data.fits (by omega)⟩
  noOverflow i hi := by
    have hFits := data.fits
    exact ⟨checkedAdd_eq_some (by omega), checkedAdd_eq_some (by omega)⟩
  contiguous := by
    intro name hName
    rw [extractSniFromTls_eq_ok data.fits] at hName
    split at hName
    · obtain ⟨i, ⟨before, skipped, length, after, hData, -, -, hLength, -⟩, -⟩ :=
        findSome?_sniText_eq_some_iff.mp (Except.ok.inj hName)
      exact ⟨before ++ [0x00, 0x00, 0x00, 0x00] ++ skipped, length, after, hData, hLength.symm⟩
    · cases hName

theorem length_peekEquivalent_le {n : Nat} {st st' : ClientStream} {buf : List UInt8}
    (h : peekEquivalent n st = .ok buf st') : buf.length ≤ n := by
  rw [peekEquivalent] at h
  split at h
  · exact (length_received_le h).trans (List.length_take_le _ _)
  · exact (length_received_le h).trans (List.length_take_le _ _)
  · cases h

theorem peekEquivalent_ne_panic (n : Nat) (st st' : ClientStream) :
    peekEquivalent n st ≠ .error .panic st' := by
  rw [peekEquivalent]
  split
  · exact received_ne_panic _ _ _
  · exact received_ne_panic _ _ _
  · rintro ⟨⟩

/-- Whatever a client sends, reading its target from TLS bytes does not panic. -/
theorem parseHttpsTargetFromStream_ne_panic (st st' : ClientStream) :
    parseHttpsTargetFromStream st ≠ .error .panic st' := by
  intro hRun
  obtain hPeek | ⟨buf, st₁, hPeek, hTarget⟩ := bind_eq_error.mp hRun
  · exact peekEquivalent_ne_panic 512 st st' hPeek
  · have hShort : buf.length < 2 ^ 63 :=
      (length_peekEquivalent_le hPeek).trans_lt (by decide)
    obtain ⟨sni, hSni⟩ : ∃ sni, extractSniFromTls buf = .ok sni :=
      ⟨_, extractSniFromTls_eq_ok hShort⟩
    rw [hSni] at hTarget
    cases sni <;> cases hTarget

end CrabbyProxy.Proxy
