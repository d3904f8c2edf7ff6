import CrabbyProxy.Library.Written

/-!
# Programs that fail

A program refuses a grammar of faults if it fails behind each of its words, as it says
there. What a program emits is known by its result, as long as the writes get through.
-/

namespace CrabbyProxy.Stream
set_option autoImplicit false

variable {τ α β : Type} {deadline : Bool}

/-- On a healthy stream that begins with a word, the program fails with its fault. -/
structure Refuses (deadline : Bool) (p : Program τ α) (G : Grammar Fault) : Prop where
  complete : ∀ {st taken replied rest e}, Healthy deadline st → G taken replied e →
    st.input.content = taken ++ rest → ∃ st', p st = .error e st' ∧
      st'.input.content = rest ∧ st'.output.sent = st.output.sent ++ replied

namespace Refuses

variable {p q : Program τ α} {f : α → Program τ β} {G H : Grammar Fault} {L : Grammar α}
  {K : α → Grammar Fault}

theorem throw (e : Fault) : Refuses deadline (throw e : Program τ α) (.returns e) := by
  constructor
  rintro st _ _ rest _ _ ⟨rfl, rfl, rfl⟩ hContent
  exact ⟨st, rfl, hContent, (List.append_nil _).symm⟩

theorem fails (p : Program τ α) : Refuses deadline p .fails := by
  constructor
  rintro _ _ _ _ _ _ ⟨⟩

theorem ite {c : Prop} [Decidable c] (hp : Refuses deadline p G) (hq : Refuses deadline q H) :
    Refuses deadline (if c then p else q) (if c then G else H) := by
  split
  · exact hp
  · exact hq

theorem bind (hp : Denotes deadline p L) (hf : ∀ a, Refuses deadline (f a) (K a)) :
    Refuses deadline (p >>= f) (L.seq K) := by
  constructor
  rintro st _ _ rest e hHealthy
    ⟨a, taken₁, taken₂, replied₁, replied₂, hWord₁, hWord₂, rfl, rfl⟩ hContent
  rw [List.append_assoc] at hContent
  obtain ⟨st₁, hFirst, hContent₁, hSent₁⟩ := hp.complete hHealthy hWord₁ hContent
  obtain ⟨st₂, hSecond, hContent₂, hSent₂⟩ :=
    (hf a).complete (hHealthy.framed (hp.framing.ok hFirst)) hWord₂ hContent₁
  refine ⟨st₂, by rw [bind_ok hFirst, hSecond], hContent₂, ?_⟩
  rw [hSent₂, hSent₁, List.append_assoc]

theorem of_imp (h : Refuses deadline p G)
    (hWords : ∀ taken replied e, H taken replied e → G taken replied e) :
    Refuses deadline p H := by
  constructor
  intro st taken replied rest e hHealthy hWord
  exact h.complete hHealthy (hWords taken replied e hWord)

end Refuses

/-- While the writes get through, a program that returns has written what goes with its
value, and one that fails something that goes with failing. -/
structure Emits (p : Program τ α) (said : α → List UInt8 → Prop) (failed : List UInt8 → Prop) :
    Prop where
  ok : ∀ {st st' a}, st.output.Open → p st = .ok a st' →
    ∃ bytes, said a bytes ∧ st'.output.sent = st.output.sent ++ bytes
  error : ∀ {st st' e}, st.output.Open → p st = .error e st' →
    ∃ bytes, failed bytes ∧ st'.output.sent = st.output.sent ++ bytes

namespace Emits

variable {p q : Program τ α} {f : α → Program τ β} {said : α → List UInt8 → Prop}
  {returned : β → List UInt8 → Prop} {failed : List UInt8 → Prop}

theorem pure {a : α} (h : said a []) : Emits (pure a : Program τ α) said failed := by
  refine ⟨?_, by rintro _ _ _ _ ⟨⟩⟩
  intro st st' b _ hRun
  cases hRun
  exact ⟨[], h, (List.append_nil _).symm⟩

theorem throw {e : Fault} (h : failed []) : Emits (throw e : Program τ α) said failed := by
  refine ⟨by rintro _ _ _ _ ⟨⟩, ?_⟩
  intro st st' e _ hRun
  cases hRun
  exact ⟨[], h, (List.append_nil _).symm⟩

theorem ite {c : Prop} [Decidable c] (hp : c → Emits p said failed)
    (hq : ¬c → Emits q said failed) : Emits (if c then p else q) said failed := by
  split
  · exact hp ‹_›
  · exact hq ‹_›

theorem silent_bind (hp : Says p []) (hNone : failed [])
    (hf : ∀ a, Emits (f a) returned failed) : Emits (p >>= f) returned failed := by
  have hSilent : ∀ {st st₁ : Duplex τ} {a : α}, st.output.Open → p st = .ok a st₁ →
      st₁.output.Open ∧ st₁.output.sent = st.output.sent := by
    intro st st₁ a hOpen hFirst
    have hWrote := hp.ok hFirst
    rw [Outbound.Open] at hOpen ⊢
    rw [hWrote.room, hWrote.sent, Outbound.passed_of_none hOpen, hOpen, List.append_nil]
    exact ⟨rfl, rfl⟩
  refine ⟨?_, ?_⟩
  · intro st st₂ b hOpen hRun
    obtain ⟨a, st₁, hFirst, hSecond⟩ := bind_eq_ok.mp hRun
    obtain ⟨hOpen₁, hSent₁⟩ := hSilent hOpen hFirst
    rw [← hSent₁]
    exact (hf a).ok hOpen₁ hSecond
  · intro st st₂ e hOpen hRun
    obtain hFirst | ⟨a, st₁, hFirst, hSecond⟩ := bind_eq_error.mp hRun
    · have hWrote := hp.silent st
      rw [hFirst, stateOf] at hWrote
      refine ⟨[], hNone, ?_⟩
      rw [hWrote.sent, Outbound.passed_of_none hOpen]
    · obtain ⟨hOpen₁, hSent₁⟩ := hSilent hOpen hFirst
      rw [← hSent₁]
      exact (hf a).error hOpen₁ hSecond

theorem writeAll_bind (buf : List UInt8) {f : Unit → Program τ β}
    (hf : Emits (f ()) (fun b bytes => returned b (buf ++ bytes)) fun bytes => failed (buf ++ bytes)) :
    Emits (writeAll buf >>= f) returned failed := by
  have hWrite : ∀ {st : Duplex τ}, st.output.Open → ∃ st₁, writeAll buf st = .ok () st₁ ∧
      st₁.output.Open ∧ st₁.output.sent = st.output.sent ++ buf := by
    intro st hOpen
    obtain ⟨hTrue, hSent⟩ := hOpen.writeAll buf
    exact ⟨_, if_pos hTrue, (st.output.writeAll_kept buf).stays hOpen, hSent⟩
  refine ⟨?_, ?_⟩
  · intro st st₂ b hOpen hRun
    obtain ⟨st₁, hFirst, hOpen₁, hSent₁⟩ := hWrite hOpen
    rw [bind_ok hFirst] at hRun
    obtain ⟨bytes, hBytes, hSent₂⟩ := hf.ok hOpen₁ hRun
    exact ⟨_, hBytes, by rw [hSent₂, hSent₁, List.append_assoc]⟩
  · intro st st₂ e hOpen hRun
    obtain ⟨st₁, hFirst, hOpen₁, hSent₁⟩ := hWrite hOpen
    rw [bind_ok hFirst] at hRun
    obtain ⟨bytes, hBytes, hSent₂⟩ := hf.error hOpen₁ hRun
    exact ⟨_, hBytes, by rw [hSent₂, hSent₁, List.append_assoc]⟩

end Emits

end CrabbyProxy.Stream
