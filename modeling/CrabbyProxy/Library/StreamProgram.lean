import CrabbyProxy.Library.Inbound
import CrabbyProxy.Library.Outbound

/-!
# Programs that talk over one connection

A program reads, peeks and writes, and stops with a value or a fault. A grammar
says which bytes a program takes, which it replies, and what it then returns;
`Denotes` connects the two in both directions and composes along the program.
-/

namespace CrabbyProxy.Stream
set_option autoImplicit false

inductive ErrorKind where
  | unexpectedEof
  | connectionReset
  | connectionRefused
  | brokenPipe
  | notConnected
  | invalidInput
  | invalidData
  | timedOut
  deriving DecidableEq

structure IoError where
  kind : ErrorKind
  message : String
  deriving DecidableEq

inductive Fault where
  | io (error : IoError)
  | boxed (message : String)
  /-- The deadline of an enclosing `timeout` has passed. -/
  | elapsed
  | panic
  deriving DecidableEq

/-- One end of a connection, of kind `τ`. -/
structure Duplex (τ : Type) where
  transport : τ
  input : Inbound
  output : Outbound
  /-- Whether a deadline is running. -/
  timed : Bool
  deriving DecidableEq

abbrev Program (τ : Type) : Type → Type := EStateM Fault (Duplex τ)

variable {τ α β : Type}

def ioError (kind : ErrorKind) (message : String) : Program τ α := throw (.io ⟨kind, message⟩)

def liftIo : Except IoError α → Program τ α
  | .ok a => pure a
  | .error e => throw (.io e)

def okOr (result : Option α) (e : Fault) : Program τ α :=
  match result with
  | some a => pure a
  | none => throw e

def received (result : Signal × List UInt8 × Inbound) : Program τ (List UInt8) := fun st =>
  match result with
  | (.ready, bytes, input) => .ok bytes { st with input := input }
  | (.eof, _, input) => .ok [] { st with input := input }
  | (.reset, _, input) =>
    .error (.io ⟨.connectionReset, "Connection reset by peer"⟩) { st with input := input }
  | (.elapsed, _, input) => .error .elapsed { st with input := input }

def peek (n : Nat) : Program τ (List UInt8) := fun st =>
  received (st.input.peek st.timed n) st

def read (n : Nat) : Program τ (List UInt8) := fun st =>
  received (st.input.read st.timed n) st

/-- A zeroed buffer after these bytes have been copied to its front. -/
def fill (n : Nat) (bytes : List UInt8) : Vector UInt8 n :=
  Vector.ofFn fun i => bytes.getD i.val 0

/-- The rounds of `read_exact`; each takes at least one byte. -/
def readRounds : Nat → Nat → Program τ (List UInt8)
  | _, 0 => pure []
  | 0, _ + 1 => ioError .unexpectedEof "early eof"
  | rounds + 1, need + 1 => do
    let bytes ← read (need + 1)
    if bytes = [] then ioError .unexpectedEof "early eof"
    else do
      let more ← readRounds rounds (need + 1 - bytes.length)
      pure (bytes ++ more)

def readExact (n : Nat) : Program τ (Vector UInt8 n) := do
  let bytes ← readRounds n n
  pure (fill n bytes)

def writeAll (buf : List UInt8) : Program τ Unit := fun st =>
  if (st.output.writeAll buf).1 then
    .ok () { st with output := (st.output.writeAll buf).2 }
  else .error (.io ⟨.brokenPipe, "Broken pipe"⟩) { st with output := (st.output.writeAll buf).2 }

def mapErr (f : Fault → Fault) (p : Program τ α) : Program τ α := fun st =>
  match p st with
  | .ok a st => .ok a st
  | .error e st => .error (f e) st

/-- The result of a program as a value; a panic is not one. -/
def attempt (p : Program τ α) : Program τ (Except Fault α) := fun st =>
  match p st with
  | .ok a st => .ok (.ok a) st
  | .error .panic st => .error .panic st
  | .error e st => .ok (.error e) st

/-- `none` when the deadline passes first. -/
def timeout (p : Program τ α) : Program τ (Option (Except Fault α)) := fun st =>
  match p { st with timed := true } with
  | .ok a st' => .ok (some (.ok a)) { st' with timed := st.timed }
  | .error .panic st' => .error .panic { st' with timed := st.timed }
  | .error .elapsed st' => .ok none { st' with timed := st.timed }
  | .error e st' => .ok (some (.error e)) { st' with timed := st.timed }

/-- A deadline whose passing is one more error. -/
def timeoutOr (error : IoError) (p : Program τ α) : Program τ α := do
  match ← timeout p with
  | some (.ok a) => pure a
  | some (.error e) => throw e
  | none => throw (.io error)

/-- What no program changes, and what it can only use up. -/
structure Duplex.Framed (st st' : Duplex τ) : Prop where
  transport : st'.transport = st.transport
  timed : st'.timed = st.timed
  coming : st'.input.coming ⊆ st.input.coming
  unread : st'.input.content <:+ st.input.content
  output : st.output.Kept st'.output

theorem Duplex.Framed.refl (st : Duplex τ) : st.Framed st :=
  ⟨rfl, rfl, List.Subset.refl _, List.suffix_rfl, .refl _⟩

theorem Duplex.Framed.trans {st st' st'' : Duplex τ} (h : st.Framed st') (h' : st'.Framed st'') :
    st.Framed st'' :=
  ⟨h'.transport.trans h.transport, h'.timed.trans h.timed,
    List.Subset.trans h'.coming h.coming, h'.unread.trans h.unread, h.output.trans h'.output⟩

theorem Duplex.Framed.patient {st st' : Duplex τ} (h : st.Framed st')
    (hPatient : st.input.Patient st.timed) : st'.input.Patient st'.timed := by
  rw [h.timed]
  exact hPatient.of_subset h.coming

def stateOf : EStateM.Result Fault (Duplex τ) α → Duplex τ
  | .ok _ st => st
  | .error _ st => st

def Framing (p : Program τ α) : Prop := ∀ st : Duplex τ, st.Framed (stateOf (p st))

theorem Framing.ok {p : Program τ α} (h : Framing p) {st st' : Duplex τ} {a : α}
    (hRun : p st = .ok a st') : st.Framed st' := by
  have hFramed := h st
  rwa [hRun] at hFramed

theorem bind_ok {p : Program τ α} {f : α → Program τ β} {st st₁ : Duplex τ} {a : α}
    (h : p st = .ok a st₁) : (p >>= f) st = f a st₁ := by
  show EStateM.bind p f st = f a st₁
  rw [EStateM.bind, h]

theorem bind_error {p : Program τ α} {f : α → Program τ β} {st st₁ : Duplex τ} {e : Fault}
    (h : p st = .error e st₁) : (p >>= f) st = .error e st₁ := by
  show EStateM.bind p f st = .error e st₁
  rw [EStateM.bind, h]

/-- A run of a sequence that returns has run both parts. -/
theorem bind_eq_ok {p : Program τ α} {f : α → Program τ β} {st st₂ : Duplex τ} {b : β} :
    (p >>= f) st = .ok b st₂ ↔ ∃ a st₁, p st = .ok a st₁ ∧ f a st₁ = .ok b st₂ := by
  cases h : p st with
  | ok a st₁ =>
    rw [bind_ok h]
    constructor
    · exact fun hf => ⟨a, st₁, rfl, hf⟩
    · rintro ⟨a', st', hp, hf⟩
      cases hp
      exact hf
  | error e st₁ =>
    rw [bind_error h]
    exact ⟨nofun, fun ⟨_, _, hp, _⟩ => nomatch hp⟩

theorem bind_eq_error {p : Program τ α} {f : α → Program τ β} {st st₂ : Duplex τ} {e : Fault} :
    (p >>= f) st = .error e st₂ ↔
      p st = .error e st₂ ∨ ∃ a st₁, p st = .ok a st₁ ∧ f a st₁ = .error e st₂ := by
  cases h : p st with
  | ok a st₁ =>
    rw [bind_ok h]
    constructor
    · exact fun hf => .inr ⟨a, st₁, rfl, hf⟩
    · rintro (hp | ⟨a', st', hp, hf⟩)
      · cases hp
      · cases hp
        exact hf
  | error e' st₁ =>
    rw [bind_error h]
    constructor
    · intro hp
      cases hp
      exact .inl rfl
    · rintro (hp | ⟨_, _, hp, _⟩)
      · cases hp
        rfl
      · cases hp

theorem Framing.pure (a : α) : Framing (pure a : Program τ α) := Duplex.Framed.refl

theorem Framing.throw (e : Fault) : Framing (throw e : Program τ α) := Duplex.Framed.refl

theorem Framing.ioError (kind : ErrorKind) (message : String) :
    Framing (ioError kind message : Program τ α) := .throw _

theorem Framing.liftIo (result : Except IoError α) : Framing (liftIo result : Program τ α) := by
  cases result with
  | ok a => exact .pure a
  | error e => exact .throw _

theorem Framing.okOr (result : Option α) (e : Fault) :
    Framing (okOr result e : Program τ α) := by
  cases result with
  | some a => exact .pure a
  | none => exact .throw _

theorem Framing.bind {p : Program τ α} {f : α → Program τ β} (hp : Framing p)
    (hf : ∀ a, Framing (f a)) : Framing (p >>= f) := by
  intro st
  have hFramed := hp st
  cases h : p st with
  | ok a st₁ =>
    rw [bind_ok h]
    rw [h] at hFramed
    exact hFramed.trans (hf a st₁)
  | error e st₁ =>
    rw [bind_error h]
    rwa [h] at hFramed

theorem Framing.ite {c : Prop} [Decidable c] {p q : Program τ α} (hp : Framing p)
    (hq : Framing q) : Framing (if c then p else q) := by
  split
  · exact hp
  · exact hq

theorem length_received_le {result : Signal × List UInt8 × Inbound} {st st' : Duplex τ}
    {bytes : List UInt8} (h : received result st = .ok bytes st') :
    bytes.length ≤ result.2.1.length := by
  obtain ⟨signal, taken, input⟩ := result
  cases signal <;> cases h
  · exact Nat.le_refl _
  · exact Nat.zero_le _

theorem received_ne_panic (result : Signal × List UInt8 × Inbound) (st st' : Duplex τ) :
    received result st ≠ .error .panic st' := by
  obtain ⟨signal, taken, input⟩ := result
  cases signal <;> rintro ⟨⟩

theorem Framing.received {st : Duplex τ} (result : Signal × List UInt8 × Inbound)
    (hComing : result.2.2.coming ⊆ st.input.coming)
    (hUnread : result.2.2.content <:+ st.input.content) :
    st.Framed (stateOf (received result st)) := by
  obtain ⟨signal, bytes, input⟩ := result
  cases signal <;> exact ⟨rfl, rfl, hComing, hUnread, .refl _⟩

theorem Framing.peek (n : Nat) : Framing (peek n : Program τ _) :=
  fun st => Framing.received _ (st.input.poll_coming_subset st.timed)
    (by simp)

theorem Framing.read (n : Nat) : Framing (read n : Program τ _) :=
  fun st => Framing.received _ (st.input.read_coming_subset st.timed n)
    ⟨_, (st.input.read_content st.timed n).symm⟩

theorem Framing.readRounds (rounds need : Nat) :
    Framing (readRounds rounds need : Program τ _) := by
  induction rounds generalizing need with
  | zero =>
    cases need with
    | zero => exact .pure _
    | succ need => exact .ioError _ _
  | succ rounds ih =>
    cases need with
    | zero => exact .pure _
    | succ need =>
      exact (Framing.read _).bind fun bytes =>
        .ite (.ioError _ _) ((ih _).bind fun _ => .pure _)

theorem Framing.readExact (n : Nat) : Framing (readExact n : Program τ _) :=
  (Framing.readRounds n n).bind fun _ => .pure _

theorem stateOf_writeAll (buf : List UInt8) (st : Duplex τ) :
    stateOf (writeAll buf st) = { st with output := (st.output.writeAll buf).2 } := by
  unfold writeAll
  split <;> rfl

theorem writeAll_eq (buf : List UInt8) (st : Duplex τ) : writeAll buf st =
    if st.output.passed buf = buf then .ok () { st with output := (st.output.writeAll buf).2 }
    else .error (.io ⟨.brokenPipe, "Broken pipe"⟩)
      { st with output := (st.output.writeAll buf).2 } := by
  rw [writeAll, if_congr (st.output.writeAll_iff buf) rfl rfl]

theorem Framing.writeAll (buf : List UInt8) : Framing (writeAll buf : Program τ _) := by
  intro st
  have hKept := st.output.writeAll_kept buf
  unfold Stream.writeAll
  split <;> exact ⟨rfl, rfl, List.Subset.refl _, List.suffix_rfl, hKept⟩

@[simp] theorem stateOf_timeout (p : Program τ α) (st : Duplex τ) :
    stateOf (timeout p st) = { stateOf (p { st with timed := true }) with timed := st.timed } := by
  unfold timeout
  split <;> rename_i h <;> rw [h] <;> rfl

/-- Looking ahead only moves bytes from the wire to the buffer of the socket. -/
theorem stateOf_peek (n : Nat) (st : Duplex τ) : ∃ input, stateOf (peek n st) =
    { st with input := input } ∧ input.content = st.input.content := by
  refine ⟨(st.input.poll st.timed).2, ?_, st.input.poll_content _⟩
  unfold peek received
  split <;> rename_i h <;> exact congrArg (fun input => { st with input := input })
    (congrArg (·.2.2) h).symm

theorem timeout_peek_ok {n : Nat} {st st' : Duplex τ} {outcome : Option (Except Fault (List UInt8))}
    (h : timeout (peek n) st = .ok outcome st') :
    ∃ input, st' = { st with input := input } ∧ input.content = st.input.content := by
  obtain ⟨input, hState, hContent⟩ := stateOf_peek n { st with timed := true }
  have hSame := stateOf_timeout (peek n) st
  rw [h, hState] at hSame
  exact ⟨input, hSame, hContent⟩

theorem Framing.mapErr {p : Program τ α} (hp : Framing p) (f : Fault → Fault) :
    Framing (mapErr f p) := by
  intro st
  have hFramed := hp st
  unfold Stream.mapErr
  split <;> rename_i h <;> rwa [h] at hFramed

theorem Framing.attempt {p : Program τ α} (hp : Framing p) : Framing (attempt p) := by
  intro st
  have hFramed := hp st
  unfold Stream.attempt
  split <;> rename_i h <;> rwa [h] at hFramed

theorem Framing.timeout {p : Program τ α} (hp : Framing p) : Framing (timeout p) := by
  intro st
  obtain ⟨hTransport, _, hComing, hUnread, hOutput⟩ := hp { st with timed := true }
  unfold Stream.timeout
  split <;> rename_i h <;> rw [h] at hTransport hComing hUnread hOutput <;>
    exact ⟨hTransport, rfl, hComing, hUnread, hOutput⟩

theorem Framing.timeoutOr {p : Program τ α} (hp : Framing p) (error : IoError) :
    Framing (timeoutOr error p) := by
  refine (Framing.timeout hp).bind fun outcome => ?_
  match outcome with
  | some (.ok a) => exact .pure a
  | some (.error e) => exact .throw e
  | none => exact .throw _

theorem mapErr_ok {f : Fault → Fault} {p : Program τ α} {st st' : Duplex τ} {a : α}
    (h : p st = .ok a st') : mapErr f p st = .ok a st' := by
  rw [mapErr, h]

theorem timeoutOr_eq_ok {p : Program τ α} {error : IoError} {st st' : Duplex τ} {a : α} :
    timeoutOr error p st = .ok a st' ↔
      ∃ st₁, p { st with timed := true } = .ok a st₁ ∧ st' = { st₁ with timed := st.timed } := by
  show EStateM.bind (timeout p) _ st = .ok a st' ↔ _
  rw [EStateM.bind, timeout]
  cases h : p { st with timed := true } with
  | ok b st₁ =>
    constructor
    · intro hRun
      cases hRun
      exact ⟨st₁, rfl, rfl⟩
    · rintro ⟨_, hOk, rfl⟩
      cases hOk
      rfl
  | error e st₁ =>
    refine ⟨fun hRun => ?_, fun ⟨_, hOk, _⟩ => nomatch hOk⟩
    cases e <;> cases hRun

end CrabbyProxy.Stream
