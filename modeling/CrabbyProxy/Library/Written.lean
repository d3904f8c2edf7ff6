import CrabbyProxy.Library.BufReader

/-!
# What a program writes

A program says a list of bytes if it has written all of them when it returns and the
first of them when it fails, whether or not they all got through.
-/

namespace CrabbyProxy.Stream
set_option autoImplicit false

variable {τ α β : Type}

/-- The program writes these bytes, or the first of them when it fails. -/
structure Says (p : Program τ α) (said : List UInt8) : Prop where
  ok : ∀ {st st' a}, p st = .ok a st' → st.output.Wrote st'.output said
  error : ∀ {st st' e}, p st = .error e st' →
    ∃ part, part <+: said ∧ st.output.Wrote st'.output part

namespace Says

variable {p q : Program τ α} {f : α → Program τ β} {said more : List UInt8}

theorem pure (a : α) : Says (pure a : Program τ α) [] := by
  refine ⟨?_, nofun⟩
  intro st st' b hRun
  cases hRun
  exact .nil _

theorem throw (e : Fault) (said : List UInt8) : Says (throw e : Program τ α) said := by
  refine ⟨nofun, ?_⟩
  intro st st' e hRun
  cases hRun
  exact ⟨[], List.nil_prefix, .nil _⟩

theorem ioError (kind : ErrorKind) (message : String) (said : List UInt8) :
    Says (ioError kind message : Program τ α) said := .throw _ said

theorem liftIo (result : Except IoError α) : Says (liftIo result : Program τ α) [] := by
  cases result with
  | ok a => exact .pure a
  | error e => exact .throw _ []

theorem okOr (result : Option α) (e : Fault) : Says (okOr result e : Program τ α) [] := by
  cases result with
  | some a => exact .pure a
  | none => exact .throw e []

theorem ite {c : Prop} [Decidable c] (hp : Says p said) (hq : Says q said) :
    Says (if c then p else q) said := by
  split
  · exact hp
  · exact hq

theorem bind (hp : Says p said) (hf : ∀ a, Says (f a) more) : Says (p >>= f) (said ++ more) := by
  refine ⟨?_, ?_⟩
  · intro st st₂ b hRun
    obtain ⟨a, st₁, hFirst, hSecond⟩ := bind_eq_ok.mp hRun
    exact (hp.ok hFirst).append ((hf a).ok hSecond)
  · intro st st₂ e hRun
    obtain hFirst | ⟨a, st₁, hFirst, hSecond⟩ := bind_eq_error.mp hRun
    · obtain ⟨part, hPart, hWrote⟩ := hp.error hFirst
      exact ⟨part, hPart.trans (List.prefix_append _ _), hWrote⟩
    · obtain ⟨part, hPart, hWrote⟩ := (hf a).error hSecond
      exact ⟨said ++ part, (List.prefix_append_right_inj said).mpr hPart,
        (hp.ok hFirst).append hWrote⟩

theorem silent_bind (hp : Says p []) (hf : ∀ a, Says (f a) more) : Says (p >>= f) more :=
  hp.bind hf

theorem writeAll (buf : List UInt8) : Says (writeAll buf : Program τ Unit) buf := by
  have hWrote : ∀ st : Duplex τ, st.output.Wrote (stateOf (Stream.writeAll buf st)).output buf := by
    intro st
    rw [stateOf_writeAll]
    exact st.output.writeAll_wrote buf
  refine ⟨?_, ?_⟩
  · intro st st' a hRun
    have hSt := hWrote st
    rwa [hRun] at hSt
  · intro st st' e hRun
    have hSt := hWrote st
    rw [hRun] at hSt
    exact ⟨buf, List.prefix_rfl, hSt⟩

theorem of_output (h : ∀ st, (stateOf (p st)).output = st.output) : Says p [] := by
  refine ⟨?_, ?_⟩
  · intro st st' a hRun
    have hSame := h st
    rw [hRun] at hSame
    rw [← hSame]
    exact .nil _
  · intro st st' e hRun
    have hSame := h st
    rw [hRun] at hSame
    rw [← hSame]
    exact ⟨[], List.prefix_rfl, .nil _⟩

theorem silent (hp : Says p []) (st : Duplex τ) :
    st.output.Wrote (stateOf (p st)).output [] := by
  cases hRun : p st with
  | ok a st' => exact hp.ok hRun
  | error e st' =>
    obtain ⟨part, hPart, hWrote⟩ := hp.error hRun
    rwa [List.prefix_nil.mp hPart] at hWrote

theorem received (st : Duplex τ) (result : Signal × List UInt8 × Inbound) :
    (stateOf (received result st)).output = st.output := by
  obtain ⟨signal, bytes, input⟩ := result
  cases signal <;> rfl

theorem read (n : Nat) : Says (read n : Program τ _) [] := of_output fun st => received st _

theorem readRounds (rounds need : Nat) : Says (readRounds rounds need : Program τ _) [] := by
  induction rounds generalizing need with
  | zero =>
    cases need with
    | zero => exact .pure _
    | succ need => exact .ioError _ _ []
  | succ rounds ih =>
    cases need with
    | zero => exact .pure _
    | succ need =>
      exact (read _).bind fun bytes => .ite (.ioError _ _ []) ((ih _).bind fun _ => .pure _)

theorem readExact (n : Nat) : Says (readExact n : Program τ _) [] :=
  (readRounds n n).bind fun _ => .pure _

theorem mapErr (hp : Says p said) (g : Fault → Fault) : Says (mapErr g p) said := by
  refine ⟨?_, ?_⟩
  · intro st st' a hRun
    unfold Stream.mapErr at hRun
    split at hRun
    · rename_i hOk
      cases hRun
      exact hp.ok hOk
    · cases hRun
  · intro st st' e hRun
    unfold Stream.mapErr at hRun
    split at hRun
    · cases hRun
    · rename_i hError
      cases hRun
      exact hp.error hError

theorem timeoutOr (hp : Says p said) (error : IoError) : Says (timeoutOr error p) said := by
  refine ⟨?_, ?_⟩
  · intro st st' a hRun
    obtain ⟨st₁, hOk, rfl⟩ := timeoutOr_eq_ok.mp hRun
    exact @hp.ok { st with timed := true } st₁ a hOk
  · intro st st' e hRun
    change EStateM.bind (timeout p) _ st = .error e st' at hRun
    rw [EStateM.bind, timeout] at hRun
    cases h : p { st with timed := true } with
    | ok a st₁ =>
      rw [h] at hRun
      cases hRun
    | error e' st₁ =>
      rw [h] at hRun
      have hPart := hp.error h
      cases e' <;> cases hRun <;> exact hPart

theorem untilRounds (delim : UInt8) (rounds : Nat) (reader : BufReader) (line : List UInt8) :
    Says (BufReader.untilRounds delim rounds reader line : Program τ _) [] := by
  induction rounds generalizing reader line with
  | zero => exact .pure _
  | succ rounds ih =>
    refine silent_bind ?_ fun reader => ?_
    · exact .ite ((read _).bind fun _ => .pure _) (.pure _)
    · cases reader.buffer.dropWhile (· ≠ delim) with
      | cons found left => exact .pure _
      | nil => exact .ite (.pure _) (ih _ _)

theorem readLine (reader : BufReader) : Says (reader.readLine : Program τ _) [] := by
  have hUntil : Says (reader.readUntil 0x0a : Program τ _) [] :=
    ⟨(untilRounds _ _ _ _).ok, (untilRounds _ _ _ _).error⟩
  refine hUntil.silent_bind fun ⟨line, reader⟩ => ?_
  dsimp only
  cases Text.fromUtf8 line with
  | some text => exact .pure _
  | none => exact .ioError _ _ []

end Says

theorem read_ne_panic {n : Nat} {st st' : Duplex τ} {e : Fault}
    (h : read n st = .error e st') : e ≠ .panic := by
  unfold read received at h
  split at h <;> cases h <;> nofun

theorem readRounds_ne_panic {rounds need : Nat} {st st' : Duplex τ} {e : Fault}
    (h : readRounds rounds need st = .error e st') : e ≠ .panic := by
  induction rounds generalizing need st with
  | zero =>
    cases need with
    | zero => cases h
    | succ need =>
      cases h
      nofun
  | succ rounds ih =>
    cases need with
    | zero => cases h
    | succ need =>
      obtain hRead | ⟨bytes, st₁, _, hRest⟩ := bind_eq_error.mp h
      · exact read_ne_panic hRead
      · split at hRest
        · cases hRest
          nofun
        · obtain hMore | ⟨more, st₂, _, hPure⟩ := bind_eq_error.mp hRest
          · exact ih hMore
          · cases hPure

theorem readExact_ne_panic {n : Nat} {st st' : Duplex τ} {e : Fault}
    (h : readExact n st = .error e st') : e ≠ .panic := by
  obtain hRounds | ⟨bytes, st₁, _, hPure⟩ := bind_eq_error.mp h
  · exact readRounds_ne_panic hRounds
  · cases hPure

/-- Without a deadline, a buffer is filled unless the stream has too little for it. -/
theorem readExact_untimed {st : Duplex τ} (hTimed : st.timed = false) (n : Nat) :
    (∃ v st', readExact n st = .ok v st' ∧ st'.timed = false ∧ st'.output = st.output ∧
      st.input.content = v.toList ++ st'.input.content) ∨
    ∃ e st', readExact n st = .error e st' ∧ e ≠ .panic ∧ st.output.Wrote st'.output [] ∧
      st.input.content.length < n := by
  have hPatient : st.input.Patient st.timed := by
    intro hTrue
    rw [hTimed] at hTrue
    cases hTrue
  cases hRun : readExact n st with
  | ok v st' =>
    obtain ⟨_, _, ⟨rfl, rfl⟩, hContent, _⟩ := (@Denotes.readExact _ false n).sound hRun
    obtain ⟨bytes, st₁, hRounds, hPure⟩ := bind_eq_ok.mp hRun
    cases hPure
    exact .inl ⟨_, _, rfl, ((Framing.readExact n).ok hRun).timed.trans hTimed,
      (readRounds_eq_ok hRounds).2.2, hContent⟩
  | error e st' =>
    have hWrote := (Says.readExact n).silent st
    rw [hRun] at hWrote
    refine .inr ⟨e, st', rfl, readExact_ne_panic hRun, hWrote, ?_⟩
    apply Nat.lt_of_not_le
    intro hEnough
    obtain ⟨_, hFull, _⟩ := readExact_of_patient hPatient hEnough
    cases hRun.symm.trans hFull

end CrabbyProxy.Stream
