import Mathlib

/-!
# Base64 with canonical padding

Three bytes become four symbols, and an incomplete group is padded. A decoder is
canonical if it accepts the encodings and nothing else.
-/

namespace CrabbyProxy.Base64
set_option autoImplicit false

def alphabet : List Char :=
  "ABCDEFGHIJKLMNOPQRSTUVWXYZabcdefghijklmnopqrstuvwxyz0123456789+/".toList

def symbol (n : Nat) : Char := alphabet.getD n '='

def value (c : Char) : Nat := alphabet.idxOf c

def encodeChars : List UInt8 → List Char
  | [] => []
  | [a] => [symbol (a.toNat / 4), symbol (a.toNat % 4 * 16), '=', '=']
  | [a, b] =>
    [symbol (a.toNat / 4), symbol (a.toNat % 4 * 16 + b.toNat / 16),
      symbol (b.toNat % 16 * 4), '=']
  | a :: b :: c :: rest =>
    symbol (a.toNat / 4) :: symbol (a.toNat % 4 * 16 + b.toNat / 16) ::
      symbol (b.toNat % 16 * 4 + c.toNat / 64) :: symbol (c.toNat % 64) :: encodeChars rest

def encode (bytes : List UInt8) : String := String.ofList (encodeChars bytes)

/-- The bytes of one group of symbols, without looking at padding. -/
def group (w x y z : Char) : List UInt8 :=
  [UInt8.ofNat (value w * 4 + value x / 16), UInt8.ofNat (value x % 16 * 16 + value y / 4),
    UInt8.ofNat (value y % 4 * 64 + value z)]

def decodeChars : List Char → List UInt8
  | [w, x, '=', '='] => (group w x '=' '=').take 1
  | [w, x, y, '='] => (group w x y '=').take 2
  | w :: x :: y :: z :: rest => group w x y z ++ decodeChars rest
  | _ => []

/-- Whatever does not encode back to itself is refused. -/
def decode (s : String) : Option (List UInt8) :=
  if encodeChars (decodeChars s.toList) = s.toList then some (decodeChars s.toList) else none

theorem value_symbol : ∀ n < 64, value (symbol n) = n := by decide +kernel

theorem symbol_mem (n : Nat) (h : n < 64) : symbol n ∈ alphabet := by
  have hLength : n < alphabet.length := h
  rw [symbol, List.getD_eq_getElem?_getD, List.getElem?_eq_getElem hLength, Option.getD_some]
  exact List.getElem_mem hLength

theorem symbol_ne_pad {n : Nat} (h : n < 64) : symbol n ≠ '=' := by
  intro hPad
  have hMem := symbol_mem n h
  rw [hPad] at hMem
  exact absurd hMem (by decide)

theorem mem_encodeChars {bytes : List UInt8} {c : Char} (h : c ∈ encodeChars bytes) :
    c ∈ alphabet ∨ c = '=' := by
  fun_induction encodeChars bytes with
  | case1 => cases h
  | case2 a =>
    have ha := a.toNat_lt
    simp only [List.mem_cons, List.not_mem_nil, or_false] at h
    obtain rfl | rfl | rfl | rfl := h
    · exact .inl (symbol_mem _ (by omega))
    · exact .inl (symbol_mem _ (by omega))
    · exact .inr rfl
    · exact .inr rfl
  | case3 a b =>
    have ha := a.toNat_lt
    have hb := b.toNat_lt
    simp only [List.mem_cons, List.not_mem_nil, or_false] at h
    obtain rfl | rfl | rfl | rfl := h
    · exact .inl (symbol_mem _ (by omega))
    · exact .inl (symbol_mem _ (by omega))
    · exact .inl (symbol_mem _ (by omega))
    · exact .inr rfl
  | case4 a b c rest ih =>
    have ha := a.toNat_lt
    have hb := b.toNat_lt
    have hc := c.toNat_lt
    simp only [List.mem_cons] at h
    obtain rfl | rfl | rfl | rfl | h := h
    · exact .inl (symbol_mem _ (by omega))
    · exact .inl (symbol_mem _ (by omega))
    · exact .inl (symbol_mem _ (by omega))
    · exact .inl (symbol_mem _ (by omega))
    · exact ih h

/-- Three bytes survive being cut into four parts of six bits. -/
theorem encodeChars_ne_nil {bytes : List UInt8} (h : bytes ≠ []) : encodeChars bytes ≠ [] := by
  fun_cases encodeChars bytes with
  | case1 => exact absurd rfl h
  | case2 | case3 | case4 => exact List.cons_ne_nil _ _

theorem group_symbols (a b c : UInt8) :
    group (symbol (a.toNat / 4)) (symbol (a.toNat % 4 * 16 + b.toNat / 16))
      (symbol (b.toNat % 16 * 4 + c.toNat / 64)) (symbol (c.toNat % 64)) = [a, b, c] := by
  have ha := a.toNat_lt
  have hb := b.toNat_lt
  have hc := c.toNat_lt
  rw [group, value_symbol _ (by omega), value_symbol _ (by omega), value_symbol _ (by omega),
    value_symbol _ (by omega)]
  have hA : a.toNat / 4 * 4 + (a.toNat % 4 * 16 + b.toNat / 16) / 16 = a.toNat := by omega
  have hB : (a.toNat % 4 * 16 + b.toNat / 16) % 16 * 16 +
      (b.toNat % 16 * 4 + c.toNat / 64) / 4 = b.toNat := by omega
  have hC : (b.toNat % 16 * 4 + c.toNat / 64) % 4 * 64 + c.toNat % 64 = c.toNat := by omega
  rw [hA, hB, hC, UInt8.ofNat_toNat, UInt8.ofNat_toNat, UInt8.ofNat_toNat]

theorem decodeChars_encodeChars (bytes : List UInt8) :
    decodeChars (encodeChars bytes) = bytes := by
  fun_induction encodeChars bytes with
  | case1 => rfl
  | case2 a =>
    have ha := a.toNat_lt
    rw [decodeChars, group, List.take_succ_cons, List.take_zero, value_symbol _ (by omega),
      value_symbol _ (by omega), show a.toNat / 4 * 4 + a.toNat % 4 * 16 / 16 = a.toNat by omega,
      UInt8.ofNat_toNat]
  | case3 a b =>
    have ha := a.toNat_lt
    have hb := b.toNat_lt
    have hGroup := congrArg (List.take 2) (group_symbols a b 0)
    rw [decodeChars]
    · exact hGroup
    · intro hPad
      exact absurd hPad (symbol_ne_pad (by omega))
  | case4 a b c rest ih =>
    have hc := c.toNat_lt
    rw [decodeChars, ih, group_symbols]
    · rfl
    · intro _ hPad
      exact absurd hPad (symbol_ne_pad (by omega))
    · intro hPad
      exact absurd hPad (symbol_ne_pad (by omega))

theorem decode_eq_some_iff {s : String} {bytes : List UInt8} :
    decode s = some bytes ↔ s = encode bytes := by
  rw [decode, encode, Option.ite_none_right_eq_some]
  constructor
  · rintro ⟨hSame, hBytes⟩
    rw [Option.some.inj hBytes] at hSame
    rw [hSame, String.ofList_toList]
  · rintro rfl
    rw [String.toList_ofList, decodeChars_encodeChars]
    exact ⟨rfl, rfl⟩

end CrabbyProxy.Base64
