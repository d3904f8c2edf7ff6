import Mathlib

/-!
# Text as the Rust standard library handles it

Strings are UTF-8 text, so bytes and text meet only through encoding, checked
decoding and lossy decoding. The functions on text follow `str`, on characters.
-/

namespace CrabbyProxy.Text
set_option autoImplicit false

def asBytes (s : String) : List UInt8 := s.toByteArray.data.toList

def fromUtf8 (bytes : List UInt8) : Option String := String.fromUTF8? ⟨bytes.toArray⟩

theorem asBytes_eq_flatMap (s : String) : asBytes s = s.toList.flatMap String.utf8EncodeChar := by
  rw [asBytes, ← String.utf8Encode_toList, List.utf8Encode, List.data_toByteArray]

/-- A byte below 0x80 encodes the character of that number, alone. -/
theorem toNat_of_mem_utf8EncodeChar {c : Char} {b : UInt8} (h : b ∈ String.utf8EncodeChar c)
    (hb : b.toNat < 0x80) : c.toNat = b.toNat := by
  have hSmall : ∀ n, n < 256 → (UInt8.ofNat n).toNat = n := fun n hn => UInt8.toNat_ofNat_of_lt' hn
  have hVal : c.val.toNat = c.toNat := rfl
  unfold String.utf8EncodeChar at h
  dsimp only at h
  split at h
  · rw [List.mem_singleton] at h
    rw [h, hSmall _ (by omega), hVal]
  · split at h
    · simp only [List.mem_cons, List.not_mem_nil, or_false] at h
      obtain rfl | rfl := h <;> rw [hSmall _ (by omega)] at hb <;> omega
    · split at h
      · simp only [List.mem_cons, List.not_mem_nil, or_false] at h
        obtain rfl | rfl | rfl := h <;> rw [hSmall _ (by omega)] at hb <;> omega
      · simp only [List.mem_cons, List.not_mem_nil, or_false] at h
        obtain rfl | rfl | rfl | rfl := h <;> rw [hSmall _ (by omega)] at hb <;> omega

theorem newline_notMem_asBytes {s : String} (h : '\n' ∉ s.toList) : (0x0a : UInt8) ∉ asBytes s := by
  rw [asBytes_eq_flatMap]
  intro hMem
  obtain ⟨c, hc, hByte⟩ := List.mem_flatMap.mp hMem
  have hCode := toNat_of_mem_utf8EncodeChar hByte (by decide)
  obtain rfl : c = '\n' := Char.toNat_inj.mp hCode
  exact h hc

theorem length_asBytes_replicate (n : Nat) :
    (asBytes (String.ofList (List.replicate n 'a'))).length = n := by
  have hOne : Char.utf8Size 'a' = 1 := by decide
  rw [asBytes_eq_flatMap, String.toList_ofList, List.length_flatMap]
  simp [hOne]

@[simp] theorem asBytes_append (s t : String) : asBytes (s ++ t) = asBytes s ++ asBytes t := by
  simp [asBytes]

theorem length_asBytes_colon_pos (before after : String) :
    0 < (asBytes (before ++ ":" ++ after)).length := by
  have hColon : (asBytes ":").length = 1 := by decide
  rw [asBytes_append, asBytes_append, List.length_append, List.length_append]
  omega

theorem asBytes_inj {s t : String} (h : asBytes s = asBytes t) : s = t :=
  String.toByteArray_inj.mp (ByteArray.ext (Array.toList_inj.mp h))

theorem fromUtf8_eq_some_iff {bytes : List UInt8} {s : String} :
    fromUtf8 bytes = some s ↔ bytes = asBytes s := by
  unfold fromUtf8 String.fromUTF8? asBytes
  constructor
  · intro h
    split at h
    · cases h
      rfl
    · cases h
  · rintro rfl
    exact dif_pos s.isValidUTF8

@[simp] theorem fromUtf8_asBytes (s : String) : fromUtf8 (asBytes s) = some s :=
  fromUtf8_eq_some_iff.mpr rfl

def isContinuation (b : UInt8) : Bool := 0x80 ≤ b && b ≤ 0xbf

/-- Whether a lead byte of at least three bytes can be followed by this one. -/
def canFollow (lead second : UInt8) : Bool :=
  if lead = 0xe0 then 0xa0 ≤ second && second ≤ 0xbf
  else if lead = 0xed then 0x80 ≤ second && second ≤ 0x9f
  else if lead = 0xf0 then 0x90 ≤ second && second ≤ 0xbf
  else if lead = 0xf4 then 0x80 ≤ second && second ≤ 0x8f
  else 0xe1 ≤ lead && lead ≤ 0xf3 && isContinuation second

/-- How many bytes one replacement character stands for, when no character
can be decoded here. -/
def maximalSubpart : List UInt8 → Nat
  | lead :: second :: rest =>
    if canFollow lead second then
      match rest with
      | third :: _ => if 0xf0 ≤ lead && isContinuation third then 3 else 2
      | [] => 2
    else 1
  | _ => 1

def lossyChars : Nat → List UInt8 → List Char
  | _, [] => []
  | 0, _ :: _ => []
  | fuel + 1, b :: bytes =>
    match ByteArray.utf8DecodeChar? ⟨((b :: bytes).take 4).toArray⟩ 0 with
    | some c => c :: lossyChars fuel ((b :: bytes).drop c.utf8Size)
    | none => '\uFFFD' :: lossyChars fuel ((b :: bytes).drop (maximalSubpart (b :: bytes)))

def fromUtf8Lossy (bytes : List UInt8) : String := String.ofList (lossyChars bytes.length bytes)

/-- How many bytes the whole characters in front of the first error have. -/
def validUpTo : Nat → List UInt8 → Nat
  | _, [] => 0
  | 0, _ :: _ => 0
  | fuel + 1, b :: bytes =>
    match ByteArray.utf8DecodeChar? ⟨((b :: bytes).take 4).toArray⟩ 0 with
    | some c => c.utf8Size + validUpTo fuel ((b :: bytes).drop c.utf8Size)
    | none => 0

/-- The text of a `FromUtf8Error`. A character that only the end of the bytes cuts off is
incomplete. -/
def utf8ErrorText (bytes : List UInt8) : String :=
  let index := validUpTo bytes.length bytes
  let rest := bytes.drop index
  if maximalSubpart rest = rest.length ∧ 0xc2 ≤ rest.headD 0 ∧ rest.headD 0 ≤ 0xf4 then
    s!"incomplete utf-8 byte sequence from index {index}"
  else s!"invalid utf-8 sequence of {maximalSubpart rest} bytes from index {index}"

def isWhitespace (c : Char) : Bool :=
  (0x9 ≤ c.toNat && c.toNat ≤ 0xd) || c.toNat ∈ [0x20, 0x85, 0xa0, 0x1680] ||
    (0x2000 ≤ c.toNat && c.toNat ≤ 0x200a) || c.toNat ∈ [0x2028, 0x2029, 0x202f, 0x205f, 0x3000]

def startsWith (s start : String) : Bool := start.toList.isPrefixOf s.toList

def trim (s : String) : String :=
  String.ofList ((s.toList.dropWhile isWhitespace).rdropWhile isWhitespace)

/-- The characters left after `start` has been taken off the front as often as possible. -/
def trimStart (start : List Char) : Nat → List Char → List Char
  | 0, chars => chars
  | rounds + 1, chars =>
    if start.isPrefixOf chars then trimStart start rounds (chars.drop start.length) else chars

def trimStartMatches (s start : String) : String :=
  String.ofList (trimStart start.toList s.toList.length s.toList)

def split (s : String) (c : Char) : List String := (s.toList.splitOn c).map String.ofList

/-- `splitn(2, c)`. -/
def splitn2 (s : String) (c : Char) : List String :=
  match s.toList.dropWhile (· ≠ c) with
  | [] => [s]
  | _ :: after => [String.ofList (s.toList.takeWhile (· ≠ c)), String.ofList after]

def rsplitOnce (s : String) (c : Char) : Option (String × String) :=
  match s.toList.rdropWhile (· ≠ c) with
  | [] => none
  | before => some (String.ofList before.dropLast, String.ofList (s.toList.rtakeWhile (· ≠ c)))

def splitWhitespace (s : String) : List String :=
  ((s.toList.splitOnP isWhitespace).filter (· ≠ [])).map String.ofList

def stripCr (line : List Char) : List Char :=
  if line.getLast? = some '\r' then line.dropLast else line

def lines (s : String) : List String :=
  let pieces := s.toList.splitOn '\n'
  let last := pieces.getLastD []
  (pieces.dropLast.map stripCr ++ if last = [] then [] else [last]).map String.ofList

/-- `parse::<u16>`: an optional plus sign and decimal digits. -/
def parseU16 (s : String) : Option UInt16 :=
  let digits := match s.toList with
    | '+' :: digits => digits
    | digits => digits
  if digits ≠ [] ∧ digits.all Char.isDigit ∧ Nat.ofDigitChars 10 digits 0 < 65536 then
    some (UInt16.ofNat (Nat.ofDigitChars 10 digits 0))
  else none

/-- The Unicode data behind `to_lowercase`: what a character becomes between the
characters before and after it. Only two characters outside ASCII have ASCII
in their lower case. -/
structure CaseTable where
  lower : List Char → Char → List Char → List Char
  ascii : ∀ before c after, c.toNat < 0x80 → lower before c after = [c.toLower]
  kelvin : ∀ before after, lower before '\u212A' after = ['k']
  dotted : ∀ before after, lower before '\u0130' after = ['i', '\u0307']
  other : ∀ before c after, 0x80 ≤ c.toNat → c ≠ '\u212A' → c ≠ '\u0130' →
    ∀ d ∈ lower before c after, 0x80 ≤ d.toNat
  nonempty : ∀ before c after, lower before c after ≠ []

def CaseTable.lowerChars (table : CaseTable) (before : List Char) : List Char → List Char
  | [] => []
  | c :: after => table.lower before c after ++ table.lowerChars (before ++ [c]) after

def CaseTable.toLowercase (table : CaseTable) (s : String) : String :=
  String.ofList (table.lowerChars [] s.toList)

instance : Inhabited CaseTable where
  default :=
    { lower := fun _ c _ =>
        if c = '\u212A' then ['k']
        else if c = '\u0130' then ['i', '\u0307']
        else if c.toNat < 0x80 then [c.toLower] else [c]
      ascii := fun _ c _ hAscii => by
        rw [if_neg (by rintro rfl; exact absurd hAscii (by decide)),
          if_neg (by rintro rfl; exact absurd hAscii (by decide)), if_pos hAscii]
      kelvin := fun _ _ => rfl
      dotted := fun _ _ => rfl
      other := fun _ c _ hOther hKelvin hDotted d hd => by
        rw [if_neg hKelvin, if_neg hDotted, if_neg (Nat.not_lt.mpr hOther)] at hd
        rwa [List.mem_singleton.mp hd]
      nonempty := fun _ c _ => by
        split_ifs <;> exact List.cons_ne_nil _ _ }

theorem not_isWhitespace_of_all {s : String} (h : (s.toList.any isWhitespace) = false) :
    ∀ c ∈ s.toList, isWhitespace c = false := by
  intro c hc
  have hNone := List.any_eq_false.mp h c hc
  exact Bool.eq_false_iff.mpr hNone

theorem singleton_colon : String.singleton ':' = ":" := by decide

theorem singleton_space : String.singleton ' ' = " " := by decide

theorem eq_append_of_startsWith {s start : String} (h : startsWith s start = true) :
    s = start ++ String.ofList (s.toList.drop start.toList.length) := by
  obtain ⟨rest, hRest⟩ := List.isPrefixOf_iff_prefix.mp h
  apply String.toList_inj.mp
  rw [String.toList_append, String.toList_ofList, ← hRest, List.drop_left]

theorem eq_append_of_splitn2 {s before after : String} {c : Char} {more : List String}
    (h : splitn2 s c = before :: after :: more) : s = before ++ String.singleton c ++ after := by
  unfold splitn2 at h
  split at h
  · cases h
  · rename_i d left hDrop
    simp only [List.cons.injEq] at h
    obtain ⟨rfl, rfl, rfl⟩ := h
    have hd : d = c := by
      have hHead := List.head?_dropWhile_not (· ≠ c) s.toList
      rw [hDrop] at hHead
      simpa using hHead
    apply String.toList_inj.mp
    conv_lhs => rw [← List.takeWhile_append_dropWhile (p := (· ≠ c)) (l := s.toList)]
    rw [hDrop, hd]
    simp

theorem notMem_of_splitn2 {s before after : String} {c : Char} {more : List String}
    (h : splitn2 s c = before :: after :: more) : c ∉ before.toList := by
  unfold splitn2 at h
  split at h
  · cases h
  · rw [List.cons.injEq] at h
    rw [← h.1, String.toList_ofList]
    intro hMem
    have hOther := List.mem_takeWhile_imp hMem
    simp at hOther

theorem splitn2_append {before : String} {c : Char} (h : c ∉ before.toList) (after : String) :
    splitn2 (before ++ String.singleton c ++ after) c = [before, after] := by
  have hChars : (before ++ String.singleton c ++ after).toList =
      before.toList ++ c :: after.toList := by simp
  have hAll : ∀ d ∈ before.toList, decide (d ≠ c) = true := by
    intro d hd
    rw [decide_eq_true_eq]
    rintro rfl
    exact h hd
  rw [splitn2, hChars, List.dropWhile_append_of_pos hAll, List.takeWhile_append_of_pos hAll,
    List.dropWhile_cons_of_neg (by simp), List.takeWhile_cons_of_neg (by simp)]
  simp

theorem startsWith_append (start rest : String) : startsWith (start ++ rest) start = true := by
  rw [startsWith, String.toList_append, List.isPrefixOf_iff_prefix]
  exact List.prefix_append _ _

/-- The text of a port. -/
def portText (port : UInt16) : String := toString port.toNat

theorem digits_portText (port : UInt16) :
    (portText port).toList = Nat.toDigits 10 port.toNat := Nat.toList_repr

theorem isDigit_portText {port : UInt16} {c : Char} (h : c ∈ (portText port).toList) :
    c.isDigit = true := by
  rw [digits_portText] at h
  exact Nat.isDigit_of_mem_toDigits (by decide) (by decide) h

theorem parseU16_portText (port : UInt16) : parseU16 (portText port) = some port := by
  have hDigits : (portText port).toList ≠ [] := by
    rw [digits_portText]
    exact Nat.toDigits_ne_nil
  have hAll : (portText port).toList.all Char.isDigit = true :=
    List.all_eq_true.mpr fun _ => isDigit_portText
  have hValue : Nat.ofDigitChars 10 (portText port).toList 0 = port.toNat := by
    rw [digits_portText, Nat.ofDigitChars_ten_toDigits]
  unfold parseU16
  have hPlus : (match (portText port).toList with
      | '+' :: digits => digits
      | digits => digits) = (portText port).toList := by
    split
    · rename_i digits heq
      have hSign := @isDigit_portText port '+' (by rw [heq]; exact List.mem_cons_self)
      exact absurd hSign (by decide)
    · rfl
  rw [hPlus, if_pos ⟨hDigits, hAll, by rw [hValue]; exact port.toNat_lt⟩, hValue,
    UInt16.ofNat_toNat]

/-- Decimal digits after at most one plus sign, of a number that fits 16 bits. -/
def IsU16 (s : String) : Prop :=
  ∃ digits, (s.toList = digits ∨ s.toList = '+' :: digits) ∧ digits ≠ [] ∧
    (∀ c ∈ digits, c.isDigit = true) ∧ Nat.ofDigitChars 10 digits 0 < 2 ^ 16

theorem parseU16_isSome_iff {s : String} : (parseU16 s).isSome = true ↔ IsU16 s := by
  unfold parseU16
  dsimp only
  split
  · rename_i digits hSign
    rw [Option.isSome_ite]
    constructor
    · rintro ⟨hNe, hAll, hFits⟩
      exact ⟨digits, .inr hSign, hNe, List.all_eq_true.mp hAll, hFits⟩
    · rintro ⟨digits', hText | hText, hNe, hAll, hFits⟩
      · have hPlus := hAll '+' (by rw [← hText, hSign]; exact List.mem_cons_self)
        exact absurd hPlus (by decide)
      · rw [hSign, List.cons.injEq] at hText
        obtain ⟨-, rfl⟩ := hText
        exact ⟨hNe, List.all_eq_true.mpr hAll, hFits⟩
  · rename_i hNoSign
    rw [Option.isSome_ite]
    constructor
    · rintro ⟨hNe, hAll, hFits⟩
      exact ⟨_, .inl rfl, hNe, List.all_eq_true.mp hAll, hFits⟩
    · rintro ⟨digits, rfl | hText, hNe, hAll, hFits⟩
      · exact ⟨hNe, List.all_eq_true.mpr hAll, hFits⟩
      · exact absurd hText (hNoSign digits)

theorem rsplitOnce_append {before after : String} {c : Char} (h : c ∉ after.toList) :
    rsplitOnce (before ++ String.singleton c ++ after) c = some (before, after) := by
  have hAll : ∀ d ∈ after.toList.reverse, decide (d ≠ c) = true := by
    intro d hd
    rw [decide_eq_true_eq]
    rintro rfl
    exact h (List.mem_reverse.mp hd)
  have hReverse : (before ++ String.singleton c ++ after).toList.reverse =
      after.toList.reverse ++ c :: before.toList.reverse := by simp
  have hDrop : (before ++ String.singleton c ++ after).toList.rdropWhile (· ≠ c) =
      before.toList ++ [c] := by
    rw [List.rdropWhile, hReverse, List.dropWhile_append_of_pos hAll,
      List.dropWhile_cons_of_neg (by simp)]
    simp
  have hTake : (before ++ String.singleton c ++ after).toList.rtakeWhile (· ≠ c) =
      after.toList := by
    rw [List.rtakeWhile, hReverse, List.takeWhile_append_of_pos hAll,
      List.takeWhile_cons_of_neg (by simp), List.append_nil, List.reverse_reverse]
  rw [rsplitOnce, hDrop, hTake]
  cases hBefore : before.toList ++ [c] with
  | nil => exact absurd hBefore (by simp)
  | cons d chars =>
    dsimp only
    rw [← hBefore, List.dropLast_concat, String.ofList_toList, String.ofList_toList]

theorem split_append {before after : String} {c : Char} (hBefore : c ∉ before.toList)
    (hAfter : c ∉ after.toList) :
    split (before ++ String.singleton c ++ after) c = [before, after] := by
  have hChars : (before ++ String.singleton c ++ after).toList =
      before.toList ++ c :: after.toList := by simp
  rw [split, hChars, List.splitOn_append_cons_self_of_not_mem hBefore,
    List.splitOn_eq_singleton hAfter]
  simp

theorem splitWhitespace_append {token rest : String} {c : Char} (hToken : token ≠ "")
    (hNone : ∀ d ∈ token.toList, isWhitespace d = false) (hc : isWhitespace c = true) :
    splitWhitespace (token ++ String.singleton c ++ rest) = token :: splitWhitespace rest := by
  have hChars : (token ++ String.singleton c ++ rest).toList =
      token.toList ++ c :: rest.toList := by simp
  have hNonempty : token.toList ≠ [] := fun hNil => hToken (String.toList_eq_nil_iff.mp hNil)
  rw [splitWhitespace, hChars, List.splitOnP_append_cons_of_forall_mem hNone c hc,
    List.filter_cons_of_pos (by simpa using hNonempty), List.map_cons, String.ofList_toList]
  rfl

end CrabbyProxy.Text
