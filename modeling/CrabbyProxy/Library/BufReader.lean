import CrabbyProxy.Library.StreamGrammar
import CrabbyProxy.Library.Text

/-!
# Reading a line through a buffer

A buffered reader takes as much from the stream as one read returns, and what it
still holds when it is dropped is lost. `cover` counts the bytes that its reads
take until a given number of bytes has arrived.
-/

namespace CrabbyProxy.Stream
set_option autoImplicit false

variable {τ : Type}

structure BufReader where
  buffer : List UInt8
  deriving DecidableEq

namespace BufReader

def new : BufReader := ⟨[]⟩

def capacity : Nat := 8192

def fillBuf (reader : BufReader) : Program τ BufReader :=
  if reader.buffer = [] then do
    let bytes ← read capacity
    pure ⟨bytes⟩
  else pure reader

/-- The rounds of `read_until`; each but the last takes at least one byte. -/
def untilRounds (delim : UInt8) :
    Nat → BufReader → List UInt8 → Program τ (List UInt8 × BufReader)
  | 0, reader, line => pure (line, reader)
  | rounds + 1, reader, line => do
    let reader ← reader.fillBuf
    match reader.buffer.dropWhile (· ≠ delim) with
    | found :: left => pure (line ++ reader.buffer.takeWhile (· ≠ delim) ++ [found], ⟨left⟩)
    | [] =>
      if reader.buffer = [] then pure (line, reader)
      else untilRounds delim rounds ⟨[]⟩ (line ++ reader.buffer)

def readUntil (delim : UInt8) (reader : BufReader) : Program τ (List UInt8 × BufReader) :=
  fun st => untilRounds delim (st.input.content.length + 1) reader [] st

def readLine (reader : BufReader) : Program τ (String × BufReader) := do
  let (line, reader) ← reader.readUntil 0x0a
  match Text.fromUtf8 line with
  | some text => pure (text, reader)
  | none => ioError .invalidData "stream did not contain valid UTF-8"

end BufReader

/-- The bytes up to and including the first delimiter, or all of them. -/
def lineOf (delim : UInt8) (bytes : List UInt8) : List UInt8 :=
  bytes.takeWhile (· ≠ delim) ++ (bytes.dropWhile (· ≠ delim)).take 1

theorem lineOf_isPrefix (delim : UInt8) (bytes : List UInt8) : lineOf delim bytes <+: bytes := by
  conv_rhs => rw [← List.takeWhile_append_dropWhile (p := (· ≠ delim)) (l := bytes)]
  exact (List.prefix_append_right_inj _).mpr (List.take_prefix _ _)

theorem lineOf_ne_nil (delim : UInt8) {bytes : List UInt8} (h : bytes ≠ []) :
    lineOf delim bytes ≠ [] := by
  obtain ⟨b, rest, rfl⟩ := List.exists_cons_of_ne_nil h
  by_cases hb : b = delim <;> simp [lineOf, hb]

theorem lineOf_append (delim : UInt8) {bytes : List UInt8}
    (h : bytes.dropWhile (· ≠ delim) = []) (rest : List UInt8) :
    lineOf delim (bytes ++ rest) = bytes ++ lineOf delim rest := by
  have hAll : ∀ b ∈ bytes, decide (b ≠ delim) = true := List.dropWhile_eq_nil_iff.mp h
  rw [lineOf, List.takeWhile_append_of_pos hAll, List.dropWhile_append_of_pos hAll,
    List.append_assoc]
  rfl

theorem lineOf_append_of_found {delim found : UInt8} {bytes left : List UInt8}
    (h : bytes.dropWhile (· ≠ delim) = found :: left) (rest : List UInt8) :
    lineOf delim (bytes ++ rest) = bytes.takeWhile (· ≠ delim) ++ [found] := by
  have hNotAll : ¬∀ b ∈ bytes, decide (b ≠ delim) = true := by
    rw [← List.dropWhile_eq_nil_iff, h]
    exact List.cons_ne_nil _ _
  have hBytes : bytes = bytes.takeWhile (· ≠ delim) ++ found :: left := by
    rw [← h, List.takeWhile_append_dropWhile]
  rw [lineOf, List.dropWhile_append, h, if_neg (by simp)]
  rw [List.takeWhile_append, if_neg]
  · rfl
  · intro hLength
    exact hNotAll (List.takeWhile_eq_self_iff.mp (List.IsPrefix.eq_of_length
      (List.takeWhile_prefix _) hLength))

namespace Inbound

def coverRounds (timed : Bool) (n : Nat) : Nat → Nat → Inbound → Nat
  | 0, _, _ => 0
  | rounds + 1, need, s =>
    if need = 0 then 0
    else (s.read timed n).2.1.length +
      coverRounds timed n rounds (need - (s.read timed n).2.1.length) (s.read timed n).2.2

theorem coverRounds_zero (timed : Bool) (n fuel : Nat) (s : Inbound) :
    coverRounds timed n fuel 0 s = 0 := by
  cases fuel <;> rfl

theorem coverRounds_le (timed : Bool) (n rounds need : Nat) (s : Inbound) :
    coverRounds timed n rounds need s ≤ s.content.length := by
  induction rounds generalizing need s with
  | zero => exact Nat.zero_le _
  | succ rounds ih =>
    rw [coverRounds]
    split
    · exact Nat.zero_le _
    · have hRest := ih (need - (s.read timed n).2.1.length) (s.read timed n).2.2
      rw [s.read_content timed n, List.length_append]
      omega

theorem le_coverRounds (timed : Bool) {n rounds need : Nat} {s : Inbound} (hCalm : s.Calm)
    (hn : 0 < n) (hRounds : need ≤ rounds) (hNeed : need ≤ s.content.length) :
    need ≤ coverRounds timed n rounds need s := by
  induction rounds generalizing need s with
  | zero => exact hRounds
  | succ rounds ih =>
    rw [coverRounds]
    split
    · rename_i hZero
      exact Nat.le_of_eq hZero
    · rename_i hSome
      have hContent := congrArg List.length (s.read_content timed n)
      rw [List.length_append] at hContent
      have hBytes : (s.read timed n).2.1 ≠ [] := fun hNil => by
        rw [hCalm.read_eq_nil_iff timed hn] at hNil
        rw [hNil] at hNeed
        exact hSome (Nat.le_zero.mp hNeed)
      have hPos := List.length_pos_iff.mpr hBytes
      have hRest := @ih (need - (s.read timed n).2.1.length) (s.read timed n).2.2
        (hCalm.of_subset (s.read_coming_subset timed n)) (by omega) (by omega)
      omega

/-- The number of bytes that reads of at most `n` bytes take until at least
`need` bytes have been taken. -/
def cover (timed : Bool) (n need : Nat) (s : Inbound) : Nat := coverRounds timed n need need s

theorem le_cover (timed : Bool) {n need : Nat} {s : Inbound} (hCalm : s.Calm) (hn : 0 < n)
    (hNeed : need ≤ s.content.length) : need ≤ s.cover timed n need :=
  le_coverRounds timed hCalm hn (Nat.le_refl _) hNeed

end Inbound

namespace BufReader

theorem untilRounds_spec {delim : UInt8} {rounds fuel : Nat} {line : List UInt8} {st : Duplex τ}
    (hCalm : st.input.Calm) (hRounds : st.input.content.length < rounds)
    (hFuel : (lineOf delim st.input.content).length ≤ fuel) :
    ∃ left st', untilRounds delim rounds new line st =
        .ok (line ++ lineOf delim st.input.content, ⟨left⟩) st' ∧
      st'.input.content = st.input.content.drop
        (st.input.coverRounds st.timed capacity fuel (lineOf delim st.input.content).length) ∧
      st'.output = st.output := by
  induction rounds generalizing fuel line st with
  | zero => exact absurd hRounds (Nat.not_lt_zero _)
  | succ rounds ih =>
    let bytes := (st.input.read st.timed capacity).2.1
    let st₁ : Duplex τ := { st with input := (st.input.read st.timed capacity).2.2 }
    have hContent : st.input.content = bytes ++ st₁.input.content := st.input.read_content _ _
    have hCalm₁ : st₁.input.Calm := hCalm.of_subset (st.input.read_coming_subset _ _)
    have hFill : (new.fillBuf : Program τ _) st = .ok ⟨bytes⟩ st₁ := by
      show (read capacity >>= fun bytes => pure (BufReader.mk bytes)) st = _
      rw [bind_ok (read_of_calm hCalm capacity)]
      rfl
    rw [untilRounds, bind_ok hFill]
    cases hFound : bytes.dropWhile (· ≠ delim) with
    | cons found left =>
      have hLine := lineOf_append_of_found hFound st₁.input.content
      rw [← hContent] at hLine
      have hNeed : 0 < (lineOf delim st.input.content).length := by simp [hLine]
      have hShort : (lineOf delim st.input.content).length ≤ bytes.length := by
        have hSame := lineOf_append_of_found hFound []
        rw [List.append_nil] at hSame
        rw [hLine, ← hSame]
        exact (lineOf_isPrefix delim bytes).length_le
      obtain ⟨fuel, rfl⟩ := Nat.exists_eq_add_of_lt (Nat.lt_of_lt_of_le hNeed hFuel)
      refine ⟨left, st₁, ?_, ?_, rfl⟩
      · rw [hLine, ← List.append_assoc]
        rfl
      · rw [Nat.zero_add, Inbound.coverRounds, if_neg (Nat.ne_of_gt hNeed),
          Nat.sub_eq_zero_of_le hShort, Inbound.coverRounds_zero, Nat.add_zero, hContent]
        exact List.drop_left.symm
    | nil =>
      have hLine := lineOf_append delim hFound st₁.input.content
      rw [← hContent] at hLine
      by_cases hBytes : bytes = []
      · have hEnd := (hCalm.read_eq_nil_iff st.timed (n := capacity) (by decide)).mp hBytes
        have hEnd₁ : st₁.input.content = [] := by rw [hBytes] at hContent; rw [← hEnd, hContent]; rfl
        refine ⟨[], st₁, ?_, ?_, rfl⟩
        · rw [hEnd, hBytes]
          simp [lineOf]
          rfl
        · rw [hEnd₁, hEnd, List.drop_nil]
      · have hPos := List.length_pos_iff.mpr hBytes
        have hLength : st.input.content.length = bytes.length + st₁.input.content.length := by
          rw [hContent, List.length_append]
        have hLineLength : (lineOf delim st.input.content).length =
            bytes.length + (lineOf delim st₁.input.content).length := by
          rw [hLine, List.length_append]
        obtain ⟨fuel, rfl⟩ := Nat.exists_eq_add_of_lt (show 0 < fuel by omega)
        obtain ⟨left, st', hRun, hRest, hOutput⟩ := @ih fuel (line ++ bytes) st₁ hCalm₁
          (by omega) (by omega)
        refine ⟨left, st', ?_, ?_, hOutput⟩
        · rw [hLine, ← List.append_assoc, ← hRun]
          show (if bytes = [] then _ else _ : Program τ _) st₁ = _
          rw [if_neg hBytes]
          rfl
        · rw [hRest, Nat.zero_add, Inbound.coverRounds, if_neg (by omega), hLineLength,
            Nat.add_sub_cancel_left, hContent]
          exact (List.drop_length_add_append _).symm

/-- The line read is the first line of the stream. What stays in the stream
depends on how many bytes the reads took with it. -/
theorem readLine_of_calm {st : Duplex τ} (hCalm : st.input.Calm) :
    ∃ left st', new.readLine st = (match Text.fromUtf8 (lineOf 0x0a st.input.content) with
        | some text => .ok (text, ⟨left⟩) st'
        | none => .error (.io ⟨.invalidData, "stream did not contain valid UTF-8"⟩) st') ∧
      st'.input.content = st.input.content.drop
        (st.input.cover st.timed capacity (lineOf 0x0a st.input.content).length) ∧
      st'.output = st.output := by
  obtain ⟨left, st', hRun, hRest, hOutput⟩ := @untilRounds_spec _ 0x0a _ _ [] st hCalm
    (Nat.lt_succ_self _) (Nat.le_refl _)
  refine ⟨left, st', ?_, hRest, hOutput⟩
  rw [List.nil_append] at hRun
  have hUntil : new.readUntil 0x0a st = .ok (lineOf 0x0a st.input.content, ⟨left⟩) st' := hRun
  rw [readLine, bind_ok hUntil]
  dsimp only
  cases Text.fromUtf8 (lineOf 0x0a st.input.content) <;> rfl

theorem framing_untilRounds (delim : UInt8) (rounds : Nat) (reader : BufReader)
    (line : List UInt8) : Framing (untilRounds delim rounds reader line : Program τ _) := by
  induction rounds generalizing reader line with
  | zero => exact .pure _
  | succ rounds ih =>
    refine Framing.bind ?_ fun reader => ?_
    · exact .ite ((Framing.read _).bind fun _ => .pure _) (.pure _)
    · cases reader.buffer.dropWhile (· ≠ delim) with
      | cons found left => exact .pure _
      | nil => exact .ite (.pure _) (ih _ _)

theorem framing_readLine (reader : BufReader) : Framing (reader.readLine : Program τ _) := by
  refine Framing.bind (fun st => framing_untilRounds _ _ _ _ st) fun ⟨line, reader⟩ => ?_
  dsimp only
  cases Text.fromUtf8 line with
  | some text => exact .pure _
  | none => exact .ioError _ _

end BufReader

end CrabbyProxy.Stream
