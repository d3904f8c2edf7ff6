import CrabbyProxy.Library.StreamProgram

/-!
# Programs that keep a secret

Two programs that know different secrets decide alike if an observer who is told what they
decided learns nothing more from the rest of their runs.
-/

namespace CrabbyProxy.Stream
set_option autoImplicit false

variable {τ α β : Type}

def Grants (granted : α) (result : EStateM.Result Fault (Duplex τ) α) : Prop :=
  ∃ st, result = .ok granted st

/-- Where both grant, or neither does, the runs are the same. -/
def DecideAlike (granted : α) (p q : Program τ α) : Prop :=
  ∀ st, (Grants granted (p st) ↔ Grants granted (q st)) → p st = q st

namespace DecideAlike

variable {granted : α} {p q : Program τ α}

theorem refl (p : Program τ α) : DecideAlike granted p p := fun _ _ => rfl

theorem bind {first : Program τ β} {f g : β → Program τ α}
    (h : ∀ b, DecideAlike granted (f b) (g b)) :
    DecideAlike granted (first >>= f) (first >>= g) := by
  intro st hSame
  cases hFirst : first st with
  | ok b st₁ =>
    rw [bind_ok hFirst, bind_ok hFirst] at hSame ⊢
    exact h b st₁ hSame
  | error e st₁ => rw [bind_error hFirst, bind_error hFirst]

theorem ite {c : Prop} [Decidable c] {p' q' : Program τ α} (h : DecideAlike granted p q)
    (h' : DecideAlike granted p' q') :
    DecideAlike granted (if c then p else p') (if c then q else q') := by
  split
  · exact h
  · exact h'

theorem symm (h : DecideAlike granted p q) : DecideAlike granted q p :=
  fun st hSame => (h st hSame.symm).symm

/-- Each program looks at its own secret, and goes one of the same two ways. -/
theorem choose {c c' : Prop} [Decidable c] [Decidable c'] (h : DecideAlike granted p q) :
    DecideAlike granted (if c then p else q) (if c' then p else q) := by
  split
  · split
    · exact refl p
    · exact h
  · split
    · exact h.symm
    · exact refl q

/-- One that grants and one that does not may do as they like. -/
theorem of_never (hp : ∀ st, Grants granted (p st)) (hq : ∀ st, ¬Grants granted (q st)) :
    DecideAlike granted p q := fun st hSame => absurd (hSame.mp (hp st)) (hq st)

theorem not_grants_bind {first : Program τ β} {f : β → Program τ α}
    (h : ∀ b st, ¬Grants granted (f b st)) (st : Duplex τ) : ¬Grants granted ((first >>= f) st) := by
  rintro ⟨st', hGrants⟩
  obtain ⟨b, st₁, _, hSecond⟩ := bind_eq_ok.mp hGrants
  exact h b st₁ ⟨st', hSecond⟩

end DecideAlike

namespace Outbound

variable {o o' : Outbound} {x : List UInt8} {a b : UInt8}

theorem accepted_congr {buf buf' : List UInt8} (h : buf.length = buf'.length) :
    o.accepted buf = o.accepted buf' := by
  rw [accepted, accepted, offered, offered, h]

/-- A write that fails has not got as far as its last byte. -/
theorem writeLoop_last {rounds : Nat} (h : writeLoop rounds o (x ++ [a]) = (false, o')) (b : UInt8) :
    writeLoop rounds o (x ++ [b]) = (false, o') := by
  have hSome : ∀ c : UInt8, x ++ [c] ≠ [] := fun c =>
    List.append_ne_nil_of_right_ne_nil x (List.cons_ne_nil _ _)
  induction rounds generalizing o x with
  | zero =>
    rw [writeLoop, List.isEmpty_eq_false_iff.mpr (hSome a)] at h
    rw [writeLoop, List.isEmpty_eq_false_iff.mpr (hSome b)]
    exact h
  | succ rounds ih =>
    have hAccepted : o.accepted (x ++ [b]) = o.accepted (x ++ [a]) := accepted_congr (by simp)
    rw [writeLoop, if_neg (hSome a), write] at h
    rw [writeLoop, if_neg (hSome b), write, hAccepted]
    by_cases hNone : o.accepted (x ++ [a]) = 0
    · rw [if_pos ⟨hSome a, hNone⟩] at h
      rw [if_pos ⟨hSome b, hNone⟩]
      exact h
    · rw [if_neg fun hBoth => hNone hBoth.2] at h
      rw [if_neg fun hBoth => hNone hBoth.2]
      dsimp only at h ⊢
      by_cases hLast : o.accepted (x ++ [a]) ≤ x.length
      · rw [List.take_append_of_le_length hLast, List.drop_append_of_le_length hLast] at h ⊢
        exact ih h fun c => List.append_ne_nil_of_right_ne_nil _ (List.cons_ne_nil _ _)
      · rw [List.drop_eq_nil_of_le (by simp; omega)] at h
        cases rounds <;> cases h

end Outbound

/-- So a client whose connection breaks cannot tell the answers apart either. -/
theorem writeAll_last {x : List UInt8} {a b : UInt8} {st st' : Duplex τ} {e : Fault}
    (h : writeAll (x ++ [a]) st = .error e st') : writeAll (x ++ [b]) st = .error e st' := by
  unfold writeAll at h ⊢
  cases hLoop : st.output.writeAll (x ++ [a]) with
  | mk done output =>
    rw [hLoop] at h
    cases done with
    | true => cases h
    | false =>
      have hSame : st.output.writeAll (x ++ [b]) = (false, output) := by
        rw [Outbound.writeAll, List.length_append] at hLoop ⊢
        exact Outbound.writeLoop_last hLoop b
      rw [hSame]
      exact h

end CrabbyProxy.Stream
