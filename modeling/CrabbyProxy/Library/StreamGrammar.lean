import CrabbyProxy.Library.StreamProgram

/-!
# What a program takes, replies and returns

A grammar relates the bytes taken from the peer and the bytes sent back to the
value returned. A program that denotes a grammar returns exactly on the streams
that begin with one of its words, and leaves the rest of the stream unread.
-/

namespace CrabbyProxy.Stream
set_option autoImplicit false

variable {τ α β : Type}

abbrev Grammar (α : Type) : Type := List UInt8 → List UInt8 → α → Prop

namespace Grammar

def returns (a : α) : Grammar α := fun taken replied b => taken = [] ∧ replied = [] ∧ b = a

def fails : Grammar α := fun _ _ _ => False

def takes (n : Nat) : Grammar (Vector UInt8 n) := fun taken replied v =>
  taken = v.toList ∧ replied = []

def allows (holds : α → Prop) : Grammar α := fun taken replied a =>
  taken = [] ∧ replied = [] ∧ holds a

def replies (buf : List UInt8) : Grammar Unit := fun taken replied _ =>
  taken = [] ∧ replied = buf

def seq (G : Grammar α) (H : α → Grammar β) : Grammar β := fun taken replied b =>
  ∃ a taken₁ taken₂ replied₁ replied₂, G taken₁ replied₁ a ∧ H a taken₂ replied₂ b ∧
    taken = taken₁ ++ taken₂ ∧ replied = replied₁ ++ replied₂

@[simp] theorem returns_iff {a b : α} {taken replied : List UInt8} :
    returns a taken replied b ↔ taken = [] ∧ replied = [] ∧ b = a := Iff.rfl

@[simp] theorem fails_iff {a : α} {taken replied : List UInt8} :
    fails taken replied a ↔ False := Iff.rfl

@[simp] theorem ite_iff {c : Prop} [Decidable c] {G H : Grammar α} {taken replied : List UInt8}
    {a : α} : (if c then G else H) taken replied a ↔
      (c ∧ G taken replied a) ∨ (¬c ∧ H taken replied a) := by
  split <;> simp_all

@[simp] theorem takes_seq_iff {n : Nat} {H : Vector UInt8 n → Grammar β}
    {taken replied : List UInt8} {b : β} : (takes n).seq H taken replied b ↔
      ∃ v rest, taken = v.toList ++ rest ∧ H v rest replied b := by
  constructor
  · rintro ⟨v, _, rest, _, replied, ⟨rfl, rfl⟩, h, rfl, rfl⟩
    exact ⟨v, rest, rfl, h⟩
  · rintro ⟨v, rest, rfl, h⟩
    exact ⟨v, _, rest, _, replied, ⟨rfl, rfl⟩, h, rfl, rfl⟩

@[simp] theorem allows_seq_iff {holds : α → Prop} {H : α → Grammar β}
    {taken replied : List UInt8} {b : β} : (allows holds).seq H taken replied b ↔
      ∃ a, holds a ∧ H a taken replied b := by
  constructor
  · rintro ⟨a, _, taken, _, replied, ⟨rfl, rfl, ha⟩, h, rfl, rfl⟩
    exact ⟨a, ha, h⟩
  · rintro ⟨a, ha, h⟩
    exact ⟨a, _, taken, _, replied, ⟨rfl, rfl, ha⟩, h, rfl, rfl⟩

@[simp] theorem replies_seq_iff {buf : List UInt8} {H : Unit → Grammar β}
    {taken replied : List UInt8} {b : β} : (replies buf).seq H taken replied b ↔
      ∃ rest, replied = buf ++ rest ∧ H () taken rest b := by
  constructor
  · rintro ⟨_, _, taken, _, rest, ⟨rfl, rfl⟩, h, rfl, rfl⟩
    exact ⟨rest, rfl, h⟩
  · rintro ⟨rest, rfl, h⟩
    exact ⟨(), _, taken, _, rest, ⟨rfl, rfl⟩, h, rfl, rfl⟩

end Grammar

/-- The peer lets every deadline be met and takes every write. -/
structure Healthy (deadline : Bool) (st : Duplex τ) : Prop where
  patient : st.input.Patient (deadline || st.timed)
  writable : st.output.Open

theorem Healthy.framed {deadline : Bool} {st st' : Duplex τ} (h : Healthy deadline st)
    (hFramed : st.Framed st') : Healthy deadline st' := by
  refine ⟨?_, hFramed.output.stays h.writable⟩
  rw [hFramed.timed]
  exact h.patient.of_subset hFramed.coming

theorem Healthy.of_calm {st : Duplex τ} (hCalm : st.input.Calm) (hOpen : st.output.Open)
    (deadline : Bool) : Healthy deadline st := ⟨hCalm.patient _, hOpen⟩

structure Denotes (deadline : Bool) (p : Program τ α) (G : Grammar α) : Prop where
  framing : Framing p
  sound : ∀ {st st' a}, p st = .ok a st' → ∃ taken replied, G taken replied a ∧
    st.input.content = taken ++ st'.input.content ∧ st'.output.sent = st.output.sent ++ replied
  complete : ∀ {st taken replied rest a}, Healthy deadline st → G taken replied a →
    st.input.content = taken ++ rest → ∃ st', p st = .ok a st' ∧
      st'.input.content = rest ∧ st'.output.sent = st.output.sent ++ replied

namespace Denotes

variable {deadline : Bool} {p q : Program τ α} {f : α → Program τ β} {G H : Grammar α}
  {K : α → Grammar β}

theorem congr (h : Denotes deadline p G)
    (hSame : ∀ taken replied a, G taken replied a ↔ H taken replied a) :
    Denotes deadline p H := by
  refine ⟨h.framing, fun hRun => ?_, fun hHealthy hWord => h.complete hHealthy ?_⟩
  · obtain ⟨taken, replied, hWord, hRest⟩ := h.sound hRun
    exact ⟨taken, replied, (hSame _ _ _).mp hWord, hRest⟩
  · exact (hSame _ _ _).mpr hWord

theorem pure (a : α) : Denotes deadline (pure a : Program τ α) (.returns a) := by
  refine ⟨.pure a, ?_, ?_⟩
  · intro st st' b hRun
    cases hRun
    exact ⟨[], [], ⟨rfl, rfl, rfl⟩, rfl, (List.append_nil _).symm⟩
  · rintro st _ _ rest _ _ ⟨rfl, rfl, rfl⟩ hContent
    exact ⟨st, rfl, hContent, (List.append_nil _).symm⟩

theorem ioError (kind : ErrorKind) (message : String) :
    Denotes deadline (ioError kind message : Program τ α) .fails :=
  ⟨.ioError kind message, nofun, nofun⟩

theorem throw (e : Fault) : Denotes deadline (throw e : Program τ α) .fails :=
  ⟨.throw e, nofun, nofun⟩

theorem liftIo (result : Except IoError α) : Denotes deadline (liftIo result : Program τ α)
    (.allows fun a => result = .ok a) := by
  cases result with
  | ok a =>
    refine (Denotes.pure a).congr fun taken replied b => ?_
    simp [Grammar.allows, eq_comm]
  | error e =>
    refine (Denotes.throw _).congr fun taken replied b => ?_
    simp [Grammar.allows]

theorem okOr (result : Option α) (e : Fault) :
    Denotes deadline (okOr result e : Program τ α) (.allows fun a => result = some a) := by
  cases result with
  | some a =>
    refine (Denotes.pure a).congr fun taken replied b => ?_
    simp [Grammar.allows, eq_comm]
  | none =>
    refine (Denotes.throw _).congr fun taken replied b => ?_
    simp [Grammar.allows]

theorem ite {c : Prop} [Decidable c] (hp : Denotes deadline p G) (hq : Denotes deadline q H) :
    Denotes deadline (if c then p else q) (if c then G else H) := by
  split
  · exact hp
  · exact hq

theorem bind (hp : Denotes deadline p G) (hf : ∀ a, Denotes deadline (f a) (K a)) :
    Denotes deadline (p >>= f) (G.seq K) := by
  refine ⟨hp.framing.bind fun a => (hf a).framing, ?_, ?_⟩
  · intro st st₂ b hRun
    obtain ⟨a, st₁, hFirst, hSecond⟩ := bind_eq_ok.mp hRun
    obtain ⟨taken₁, replied₁, hWord₁, hContent₁, hSent₁⟩ := hp.sound hFirst
    obtain ⟨taken₂, replied₂, hWord₂, hContent₂, hSent₂⟩ := (hf a).sound hSecond
    refine ⟨_, _, ⟨a, taken₁, taken₂, replied₁, replied₂, hWord₁, hWord₂, rfl, rfl⟩, ?_, ?_⟩
    · rw [hContent₁, hContent₂, List.append_assoc]
    · rw [hSent₂, hSent₁, List.append_assoc]
  · rintro st _ _ rest b hHealthy
      ⟨a, taken₁, taken₂, replied₁, replied₂, hWord₁, hWord₂, rfl, rfl⟩ hContent
    rw [List.append_assoc] at hContent
    obtain ⟨st₁, hFirst, hContent₁, hSent₁⟩ := hp.complete hHealthy hWord₁ hContent
    obtain ⟨st₂, hSecond, hContent₂, hSent₂⟩ :=
      (hf a).complete (hHealthy.framed (hp.framing.ok hFirst)) hWord₂ hContent₁
    refine ⟨st₂, by rw [bind_ok hFirst, hSecond], hContent₂, ?_⟩
    rw [hSent₂, hSent₁, List.append_assoc]

theorem writeAll (buf : List UInt8) :
    Denotes deadline (writeAll buf : Program τ Unit) (.replies buf) := by
  refine ⟨.writeAll buf, ?_, ?_⟩
  · intro st st' a hRun
    rw [writeAll_eq] at hRun
    split at hRun
    · rename_i hPassed
      cases hRun
      refine ⟨[], buf, ⟨rfl, rfl⟩, rfl, ?_⟩
      exact (st.output.writeAll_wrote buf).sent.trans (by rw [hPassed])
    · cases hRun
  · rintro st _ replied rest _ hHealthy ⟨rfl, rfl⟩ hContent
    obtain ⟨hTrue, hSent⟩ := hHealthy.writable.writeAll replied
    exact ⟨_, if_pos hTrue, hContent, hSent⟩

theorem mapErr (hp : Denotes deadline p G) (g : Fault → Fault) :
    Denotes deadline (mapErr g p) G := by
  refine ⟨hp.framing.mapErr g, fun hRun => ?_, fun hHealthy hWord hContent => ?_⟩
  · unfold Stream.mapErr at hRun
    split at hRun
    · rename_i h
      cases hRun
      exact hp.sound h
    · cases hRun
  · obtain ⟨st', hRun, hRest⟩ := hp.complete hHealthy hWord hContent
    exact ⟨st', by rw [Stream.mapErr, hRun], hRest⟩

/-- A deadline changes nothing on a stream that can meet it. -/
theorem timeoutOr (hp : Denotes deadline p G) (error : IoError) :
    Denotes true (timeoutOr error p) G := by
  refine ⟨hp.framing.timeoutOr error, fun {st st' a} hRun => ?_,
    fun {st taken replied rest a} hHealthy hWord hContent => ?_⟩
  · obtain ⟨st₁, hOk, rfl⟩ := timeoutOr_eq_ok.mp hRun
    exact @Denotes.sound _ _ _ _ _ hp { st with timed := true } st₁ a hOk
  · have hInner : Healthy deadline { st with timed := true } :=
      ⟨by rw [Bool.or_true]; exact hHealthy.patient, hHealthy.writable⟩
    obtain ⟨st₁, hOk, hRest⟩ := hp.complete hInner hWord hContent
    exact ⟨_, timeoutOr_eq_ok.mpr ⟨st₁, hOk, rfl⟩, hRest⟩

section Words

variable {Word : List UInt8 → α → Prop} {answer : List UInt8} {st st' : Duplex τ} {a : α}

/-- On a healthy stream the program returns exactly when a word comes first, and
what it leaves unread is what follows that word. -/
theorem returns_iff (hp : Denotes deadline p fun taken replied a => Word taken a ∧ replied = answer)
    (hHealthy : Healthy deadline st) {rest : List UInt8} :
    (∃ st', p st = .ok a st' ∧ st'.input.content = rest) ↔
      ∃ taken, Word taken a ∧ st.input.content = taken ++ rest := by
  constructor
  · rintro ⟨st', hRun, rfl⟩
    obtain ⟨taken, _, ⟨hWord, _⟩, hContent, _⟩ := hp.sound hRun
    exact ⟨taken, hWord, hContent⟩
  · rintro ⟨taken, hWord, hContent⟩
    obtain ⟨st', hRun, hRest, _⟩ := hp.complete hHealthy ⟨hWord, rfl⟩ hContent
    exact ⟨st', hRun, hRest⟩

theorem succeeds_iff (hp : Denotes deadline p fun taken replied a => Word taken a ∧ replied = answer)
    (hHealthy : Healthy deadline st) :
    (∃ st', p st = .ok a st') ↔ ∃ taken, Word taken a ∧ taken <+: st.input.content := by
  constructor
  · rintro ⟨st', hRun⟩
    obtain ⟨taken, hWord, hContent⟩ := (hp.returns_iff hHealthy).mp ⟨st', hRun, rfl⟩
    exact ⟨taken, hWord, _, hContent.symm⟩
  · rintro ⟨taken, hWord, rest, hContent⟩
    obtain ⟨st', hRun, _⟩ := (hp.returns_iff hHealthy).mpr ⟨taken, hWord, hContent.symm⟩
    exact ⟨st', hRun⟩

theorem consumes (hp : Denotes deadline p fun taken replied a => Word taken a ∧ replied = answer)
    (hWords : ∀ taken, Word taken a → taken ≠ []) (hRun : p st = .ok a st') :
    st'.input.content.length < st.input.content.length := by
  obtain ⟨taken, _, ⟨hWord, _⟩, hContent, _⟩ := hp.sound hRun
  have hPos := List.length_pos_iff.mpr (hWords taken hWord)
  rw [hContent, List.length_append]
  omega

end Words

end Denotes

theorem read_eq_ok {n : Nat} {st st' : Duplex τ} {bytes : List UInt8}
    (h : read n st = .ok bytes st') : bytes.length ≤ n ∧
      st.input.content = bytes ++ st'.input.content ∧ st'.output = st.output := by
  have hContent := st.input.read_content st.timed n
  have hLength := st.input.length_read_le st.timed n
  have hReady : (st.input.read st.timed n).1 = .ready ↔
    (st.input.poll st.timed).2.ready ≠ [] := st.input.poll_ready_iff st.timed
  unfold read received at h
  split at h <;> rename_i heq <;> cases h <;> rw [heq] at hContent hLength hReady
  · exact ⟨hLength, hContent, rfl⟩
  · have hNone : (st.input.read st.timed n).2.1 = [] := by
      have hEmpty : (st.input.poll st.timed).2.ready = [] := by simpa using hReady
      show (st.input.poll st.timed).2.ready.take n = []
      rw [hEmpty, List.take_nil]
    rw [heq] at hNone
    subst hNone
    exact ⟨Nat.zero_le _, hContent, rfl⟩

theorem Healthy.patient_now {deadline : Bool} {st : Duplex τ} (h : Healthy deadline st) :
    st.input.Patient st.timed := fun hTimed => h.patient (by rw [hTimed, Bool.or_true])

theorem read_of_patient {st : Duplex τ} (h : st.input.Patient st.timed) {n : Nat}
    (hn : 0 < n) (hContent : st.input.content ≠ []) :
    ∃ bytes st', read n st = .ok bytes st' ∧ bytes ≠ [] := by
  obtain ⟨hReady, hNonempty⟩ := h.read_ready hn hContent
  cases hRead : st.input.read st.timed n with
  | mk signal rest =>
    rw [hRead] at hReady hNonempty
    obtain rfl : signal = .ready := hReady
    exact ⟨rest.1, { st with input := rest.2 }, by rw [Stream.read, hRead]; rfl, hNonempty⟩

/-- When nothing but data arrives, reading and peeking succeed. -/
theorem received_of_calm {st : Duplex τ} (h : st.input.Calm) (take : List UInt8 → List UInt8)
    (hTake : take [] = []) (input : Inbound) :
    received ((st.input.poll st.timed).1, take (st.input.poll st.timed).2.ready, input) st =
      .ok (take (st.input.poll st.timed).2.ready) { st with input := input } := by
  by_cases hContent : st.input.content = []
  · rw [h.poll_eof st.timed hContent, Inbound.poll_ready_of_eq_nil hContent, hTake]
    rfl
  · rw [(h.patient st.timed).poll_ready hContent]
    rfl

theorem peek_of_calm {st : Duplex τ} (h : st.input.Calm) (n : Nat) :
    peek n st = .ok (st.input.peek st.timed n).2.1
      { st with input := (st.input.peek st.timed n).2.2 } :=
  received_of_calm h (List.take n) List.take_nil _

theorem read_of_calm {st : Duplex τ} (h : st.input.Calm) (n : Nat) :
    read n st = .ok (st.input.read st.timed n).2.1
      { st with input := (st.input.read st.timed n).2.2 } :=
  received_of_calm h (List.take n) List.take_nil _

theorem readRounds_eq_ok {rounds need : Nat} {st st' : Duplex τ} {bytes : List UInt8}
    (h : readRounds rounds need st = .ok bytes st') : bytes.length = need ∧
      st.input.content = bytes ++ st'.input.content ∧ st'.output = st.output := by
  induction rounds generalizing need st bytes with
  | zero =>
    cases need with
    | zero => cases h; exact ⟨rfl, rfl, rfl⟩
    | succ need => cases h
  | succ rounds ih =>
    cases need with
    | zero => cases h; exact ⟨rfl, rfl, rfl⟩
    | succ need =>
      obtain ⟨head, st₁, hHead, hTail⟩ := bind_eq_ok.mp h
      obtain ⟨hLength, hContent, hOutput⟩ := read_eq_ok hHead
      split at hTail
      · cases hTail
      · obtain ⟨tail, st₂, hMore, hPure⟩ := bind_eq_ok.mp hTail
        cases hPure
        obtain ⟨hLength', hContent', hOutput'⟩ := ih hMore
        refine ⟨?_, by rw [hContent, hContent', List.append_assoc], hOutput'.trans hOutput⟩
        rw [List.length_append, hLength']
        omega

theorem readRounds_of_patient {st : Duplex τ} (h : st.input.Patient st.timed) {rounds : Nat}
    {taken rest : List UInt8} (hRounds : taken.length ≤ rounds)
    (hContent : st.input.content = taken ++ rest) :
    ∃ st', readRounds rounds taken.length st = .ok taken st' := by
  induction rounds generalizing st taken with
  | zero =>
    obtain rfl : taken = [] := List.length_eq_zero_iff.mp (Nat.le_zero.mp hRounds)
    exact ⟨st, rfl⟩
  | succ rounds ih =>
    cases taken with
    | nil => exact ⟨st, rfl⟩
    | cons b taken =>
      obtain ⟨bytes, st₁, hRead, hNonempty⟩ := read_of_patient h (Nat.succ_pos taken.length)
        (by rw [hContent]; exact List.cons_ne_nil _ _)
      obtain ⟨hLength, hContent₁, _⟩ := read_eq_ok hRead
      obtain ⟨remaining, hTaken⟩ : bytes <+: b :: taken := by
        refine List.prefix_of_prefix_length_le ⟨_, hContent₁.symm⟩ ⟨rest, hContent.symm⟩ hLength
      rw [hContent₁, ← hTaken, List.append_assoc, List.append_cancel_left_eq] at hContent
      have hLengths : bytes.length + remaining.length = taken.length + 1 := by
        rw [← List.length_append, hTaken, List.length_cons]
      have hPos := List.length_pos_iff.mpr hNonempty
      have hPatient := ((Framing.read _).ok hRead).patient h
      obtain ⟨st₂, hMore⟩ := ih hPatient (by rw [List.length_cons] at hRounds; omega) hContent
      refine ⟨st₂, ?_⟩
      show (Stream.read (taken.length + 1) >>= _) st = _
      rw [bind_ok hRead, if_neg hNonempty]
      have hNeed : taken.length + 1 - bytes.length = remaining.length := by omega
      rw [hNeed, bind_ok hMore, ← hTaken]
      rfl

theorem toList_fill {n : Nat} {bytes : List UInt8} (h : bytes.length = n) :
    (fill n bytes).toList = bytes := by
  subst h
  apply List.ext_getElem
  · simp
  · intro i h₁ h₂
    simp [fill]

theorem fill_toList {n : Nat} (v : Vector UInt8 n) : fill n v.toList = v := by
  apply Vector.toList_inj.mp
  exact toList_fill v.length_toList

/-- A stream with enough content and no deadline to miss fills the buffer. -/
theorem readExact_of_patient {st : Duplex τ} (h : st.input.Patient st.timed) {n : Nat}
    (hEnough : n ≤ st.input.content.length) :
    ∃ st', readExact n st = .ok (fill n (st.input.content.take n)) st' ∧
      st'.input.content = st.input.content.drop n ∧ st'.output = st.output := by
  have hLength : (st.input.content.take n).length = n := by
    rw [List.length_take, Nat.min_eq_left hEnough]
  obtain ⟨st', hRun⟩ := readRounds_of_patient h (Nat.le_of_eq hLength)
    (List.take_append_drop n _).symm
  obtain ⟨_, hRest, hOutput⟩ := readRounds_eq_ok hRun
  refine ⟨st', ?_, ?_, hOutput⟩
  · rw [hLength] at hRun
    rw [readExact, bind_ok hRun]
    rfl
  · have hParts := hRest.symm.trans (List.take_append_drop n _).symm
    exact List.append_cancel_left hParts

theorem Denotes.readExact {deadline : Bool} (n : Nat) :
    Denotes deadline (readExact n : Program τ _) (.takes n) := by
  refine ⟨.readExact n, ?_, ?_⟩
  · intro st st' v hRun
    obtain ⟨bytes, st₁, hRounds, hPure⟩ := bind_eq_ok.mp hRun
    cases hPure
    obtain ⟨hLength, hContent, hOutput⟩ := readRounds_eq_ok hRounds
    exact ⟨bytes, [], ⟨(toList_fill hLength).symm, rfl⟩, hContent, by rw [hOutput, List.append_nil]⟩
  · rintro st _ _ rest v hHealthy ⟨rfl, rfl⟩ hContent
    have hLength := v.length_toList
    obtain ⟨st', hRun, hRest, hOutput⟩ := @readExact_of_patient _ st hHealthy.patient_now n
      (by rw [hContent, List.length_append, hLength]; exact Nat.le_add_right _ _)
    rw [hContent, List.take_left' hLength, fill_toList] at hRun
    rw [hContent, List.drop_left' hLength] at hRest
    exact ⟨st', hRun, hRest, by rw [hOutput, List.append_nil]⟩

end CrabbyProxy.Stream
