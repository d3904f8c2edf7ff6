import CrabbyProxy.Proxy.SocksGrammar

/-!
# Length-prefixed targets

The format of plain TCP clients: a length, then the text of a host and a port.
-/

namespace CrabbyProxy.Proxy

open CrabbyProxy.Stream
set_option autoImplicit false

/-- Two bytes of length and a text of that length, at most 1024 bytes, that
names the target. -/
inductive LengthPrefixed : List UInt8 → ProxyTarget → Prop
  | text (length : UInt16) (text : String) {target : ProxyTarget}
      (hLength : (Text.asBytes text).length = length.toNat) (hPos : 0 < length.toNat)
      (hMax : length.toNat ≤ 1024) (hTarget : hostPortTarget text = .ok target) :
    LengthPrefixed (u16ToBeBytes length ++ Text.asBytes text) target

/-- Admissible lengths start with one of the first five bytes. -/
theorem lengthPrefixed_head {request : List UInt8} {target : ProxyTarget}
    (h : LengthPrefixed request target) :
    ∃ high rest, request = high :: rest ∧ high.toNat ≤ 4 := by
  obtain ⟨length, text, hLength, hPos, hMax, hTarget⟩ := h
  obtain ⟨high, low, hBytes, rfl⟩ := exists_bytes_of_u16 length
  rw [toNat_u16FromBeBytes] at hMax
  rw [hBytes]
  exact ⟨high, _, rfl, by omega⟩

variable {deadline : Bool}

theorem denotes_readTarget : Denotes deadline readTarget fun taken replied target =>
    LengthPrefixed taken target ∧ replied = [] := by
  have hBody : Denotes deadline readTarget ((Grammar.takes 2).seq fun lengthBuf =>
      if (u16FromBeBytes (lengthBuf.get 0) (lengthBuf.get 1)).toNat = 0 ∨
          (u16FromBeBytes (lengthBuf.get 0) (lengthBuf.get 1)).toNat > 1024 then .fails
      else (Grammar.takes (u16FromBeBytes (lengthBuf.get 0) (lengthBuf.get 1)).toNat).seq
        fun targetBuf => (Grammar.allows fun text => Text.fromUtf8 targetBuf.toList = some text).seq fun text =>
          .allows fun target => hostPortTarget text = .ok target) := by
    refine ((Denotes.readExact 2).mapErr _).bind fun lengthBuf => ?_
    dsimp only
    refine .ite (.ioError _ _) (((Denotes.readExact _).mapErr _).bind fun targetBuf => ?_)
    exact (Denotes.okOr _ _).bind fun _ => .liftIo _
  refine hBody.congr fun taken replied target => ?_
  simp only [Grammar.takes_seq_iff, Grammar.ite_iff, Grammar.fails_iff, Grammar.allows_seq_iff,
    Grammar.allows, and_false, false_or, not_or, Text.fromUtf8_eq_some_iff]
  constructor
  · rintro ⟨lengthBuf, _, rfl, ⟨hPos, hMax⟩, targetBuf, _, rfl, text, hText, rfl, rfl, hTarget⟩
    have hWord := LengthPrefixed.text _ text (by rw [← hText, Vector.length_toList])
      (Nat.pos_of_ne_zero hPos) (Nat.not_lt.mp hMax) hTarget
    rw [u16ToBeBytes_fromBeBytes, ← hText] at hWord
    rw [toList_buffer_two, List.append_nil]
    exact ⟨hWord, rfl⟩
  · rintro ⟨⟨length, text, hLength, hPos, hMax, hTarget⟩, rfl⟩
    obtain ⟨high, low, hBytes, rfl⟩ := exists_bytes_of_u16 length
    obtain ⟨targetBuf, hBuf⟩ := exists_buffer hLength
    refine ⟨#v[high, low], _, by rw [hBytes]; rfl, ⟨Nat.ne_of_gt hPos, Nat.not_lt.mpr hMax⟩,
      targetBuf, [], ?_, text, hBuf, rfl, rfl, hTarget⟩
    exact hBuf.symm.trans (List.append_nil _).symm

theorem denotes_parseTarget : Denotes true parseTarget fun taken replied target =>
    LengthPrefixed taken target ∧ replied = [] :=
  (@denotes_readTarget false).timeoutOr _

theorem parseTarget_of_text {text : String} {target : ProxyTarget} {length : UInt16}
    {rest : List UInt8} {stream : ClientStream} (hPatient : stream.input.Patient true)
    (hLength : (Text.asBytes text).length = length.toNat) (hPos : 0 < length.toNat)
    (hMax : length.toNat ≤ 1024)
    (hContent : stream.input.content = u16ToBeBytes length ++ Text.asBytes text ++ rest)
    (hTarget : hostPortTarget text = .ok target) :
    ∃ st, parseTarget stream = .ok target st := by
  obtain ⟨high, low, hBytes, rfl⟩ := exists_bytes_of_u16 length
  rw [hBytes, List.append_assoc] at hContent
  let timed : ClientStream := { stream with timed := true }
  obtain ⟨st₁, hHead, hRest, _⟩ := @readExact_of_patient _ timed hPatient 2
    (by rw [hContent, List.length_append]; exact Nat.le_add_right 2 _)
  have hPatient₁ := ((Framing.readExact 2).ok hHead).patient hPatient
  have hTwo : [high, low].length = 2 := rfl
  rw [hContent, List.take_left' hTwo] at hHead
  rw [hContent, List.drop_left' hTwo] at hRest
  obtain ⟨st₂, hText, _⟩ := readExact_of_patient hPatient₁ (n := (u16FromBeBytes high low).toNat)
    (by rw [hRest, List.length_append, hLength]; exact Nat.le_add_right _ _)
  rw [hRest, List.take_left' hLength] at hText
  refine ⟨{ st₂ with timed := stream.timed }, timeoutOr_eq_ok.mpr ⟨st₂, ?_, rfl⟩⟩
  have hBuf : (fill 2 [high, low]).get 0 = high ∧ (fill 2 [high, low]).get 1 = low := ⟨rfl, rfl⟩
  rw [readTarget, bind_ok (mapErr_ok hHead)]
  rw [hBuf.1, hBuf.2, if_neg (by omega), bind_ok (mapErr_ok hText), toList_fill hLength,
    Text.fromUtf8_asBytes]
  show (liftIo (hostPortTarget text) : ClientProgram ProxyTarget) st₂ = _
  rw [hTarget]
  rfl

end CrabbyProxy.Proxy
