import Mathlib

/-!
# Bytes that leave one write at a time

A single write takes a non-empty part of what it is offered. The connection may
break after a number of bytes: what fitted has been sent, and every later write
fails.
-/

namespace CrabbyProxy.Stream
set_option autoImplicit false

structure Outbound where
  sent : List UInt8
  /-- The most that each of the next writes takes; without an entry, all of it. -/
  limits : List Nat
  /-- The bytes the peer still takes; `none` when it never stops. -/
  room : Option Nat
  /-- Whether `shutdown` succeeds. -/
  closes : Bool
  closed : Bool
  deriving DecidableEq

namespace Outbound

/-- A new connection that takes everything. -/
def fresh : Outbound := ⟨[], [], none, true, false⟩

/-- The writes never fail. -/
def Open (o : Outbound) : Prop := o.room = none

theorem open_fresh : fresh.Open := rfl

def offered (o : Outbound) (buf : List UInt8) : Nat :=
  match o.limits with
  | [] => buf.length
  | limit :: _ => min buf.length (max limit 1)

def accepted (o : Outbound) (buf : List UInt8) : Nat :=
  match o.room with
  | none => o.offered buf
  | some room => min (o.offered buf) room

/-- One write: `none` when it fails, else the number of bytes it took. -/
def write (o : Outbound) (buf : List UInt8) : Option Nat × Outbound :=
  if buf ≠ [] ∧ o.accepted buf = 0 then (none, o)
  else (some (o.accepted buf), { o with
    sent := o.sent ++ buf.take (o.accepted buf)
    limits := o.limits.tail
    room := o.room.map (· - o.accepted buf) })

/-- The loop of `write_all`; each round but the last takes at least one byte. -/
def writeLoop : Nat → Outbound → List UInt8 → Bool × Outbound
  | 0, o, buf => (buf.isEmpty, o)
  | rounds + 1, o, buf =>
    if buf = [] then (true, o)
    else match o.write buf with
      | (none, o) => (false, o)
      | (some n, o) => writeLoop rounds o (buf.drop n)

def writeAll (o : Outbound) (buf : List UInt8) : Bool × Outbound := writeLoop buf.length o buf

def shutdown (o : Outbound) : Bool × Outbound :=
  if o.closes then (true, { o with closed := true }) else (false, o)

/-- Everything a write leaves alone. -/
structure Kept (o o' : Outbound) : Prop where
  closes : o'.closes = o.closes
  closed : o'.closed = o.closed
  stays : o.Open → o'.Open

theorem Kept.refl (o : Outbound) : o.Kept o := ⟨rfl, rfl, id⟩

theorem Kept.trans {o o' o'' : Outbound} (h : o.Kept o') (h' : o'.Kept o'') : o.Kept o'' :=
  ⟨h'.closes.trans h.closes, h'.closed.trans h.closed, h'.stays ∘ h.stays⟩

theorem write_kept (o : Outbound) (buf : List UInt8) : o.Kept (o.write buf).2 := by
  unfold write
  split
  · exact .refl o
  · exact ⟨rfl, rfl, fun hOpen => by simp_all [Open]⟩

theorem accepted_le (o : Outbound) (buf : List UInt8) : o.accepted buf ≤ buf.length := by
  unfold accepted offered
  split <;> split <;> omega

/-- One write sends a prefix of what it is offered, and says how much. -/
theorem write_sent (o : Outbound) (buf : List UInt8) :
    (o.write buf).2.sent = o.sent ++ buf.take ((o.write buf).1.getD 0) := by
  unfold write
  split <;> simp

theorem write_le {o : Outbound} {buf : List UInt8} {n : Nat} (h : (o.write buf).1 = some n) :
    n ≤ buf.length := by
  unfold write at h
  split at h
  · cases h
  · cases h
    exact o.accepted_le buf

theorem Open.write {o : Outbound} (h : o.Open) (buf : List UInt8) :
    ∃ n, (o.write buf).1 = some n := by
  have hAccepted : buf ≠ [] → o.accepted buf ≠ 0 := by
    intro hBuf
    have hLength := List.length_pos_iff.mpr hBuf
    unfold accepted offered
    rw [h]
    cases o.limits <;> simp only <;> omega
  unfold Outbound.write
  rw [if_neg fun hBoth => hAccepted hBoth.1 hBoth.2]
  exact ⟨_, rfl⟩

theorem writeLoop_kept (rounds : Nat) (o : Outbound) (buf : List UInt8) :
    o.Kept (writeLoop rounds o buf).2 := by
  induction rounds generalizing o buf with
  | zero => exact .refl o
  | succ rounds ih =>
    unfold writeLoop
    split
    · exact .refl o
    · have hKept := o.write_kept buf
      split <;> rename_i heq <;> rw [heq] at hKept
      · exact hKept
      · exact hKept.trans (ih _ _)

theorem writeAll_kept (o : Outbound) (buf : List UInt8) : o.Kept (o.writeAll buf).2 :=
  writeLoop_kept _ o buf

/-- The part of these bytes that the peer takes. -/
def passed (o : Outbound) (buf : List UInt8) : List UInt8 :=
  match o.room with
  | none => buf
  | some room => buf.take room

/-- These bytes have been written, and no others. -/
structure Wrote (o o' : Outbound) (buf : List UInt8) : Prop where
  sent : o'.sent = o.sent ++ o.passed buf
  room : o'.room = o.room.map (· - buf.length)

variable {o o' o'' : Outbound} {buf more : List UInt8}

theorem passed_of_none (h : o.room = none) : o.passed buf = buf := by
  rw [passed, h]

theorem passed_of_some {room : Nat} (h : o.room = some room) : o.passed buf = buf.take room := by
  rw [passed, h]

theorem passed_isPrefix (o : Outbound) (buf : List UInt8) : o.passed buf <+: buf := by
  cases hRoom : o.room with
  | none => rw [passed_of_none hRoom]
  | some room =>
    rw [passed_of_some hRoom]
    exact List.take_prefix _ _

theorem passed_append (hRoom : o'.room = o.room.map (· - buf.length)) :
    o.passed (buf ++ more) = o.passed buf ++ o'.passed more := by
  cases hSome : o.room with
  | none =>
    rw [hSome] at hRoom
    rw [passed_of_none hSome, passed_of_none hSome, passed_of_none hRoom]
  | some room =>
    rw [hSome] at hRoom
    rw [passed_of_some hSome, passed_of_some hSome, passed_of_some hRoom]
    exact List.take_append

theorem passed_eq_self_iff : o.passed buf = buf ↔ ∀ room, o.room = some room → buf.length ≤ room := by
  cases hRoom : o.room with
  | none => exact iff_of_true (passed_of_none hRoom) nofun
  | some room =>
    rw [passed_of_some hRoom, List.take_eq_self_iff]
    simp

theorem Wrote.nil (o : Outbound) : o.Wrote o [] := by
  refine ⟨?_, ?_⟩
  · rw [List.prefix_nil.mp (o.passed_isPrefix []), List.append_nil]
  · cases o.room <;> rfl

theorem Wrote.sent_append (h : o.Wrote o' buf) (more : List UInt8) :
    o'.sent ++ o'.passed more = o.sent ++ o.passed (buf ++ more) := by
  rw [h.sent, List.append_assoc, passed_append h.room]

theorem Wrote.append (h : o.Wrote o' buf) (h' : o'.Wrote o'' more) :
    o.Wrote o'' (buf ++ more) := by
  refine ⟨?_, ?_⟩
  · rw [h'.sent, h.sent_append]
  · rw [h'.room, h.room, Option.map_map, List.length_append]
    congr 1
    funext room
    exact Nat.sub_sub _ _ _

/-- Behind something that did not get through, nothing does. -/
theorem passed_behind (hRoom : o'.room = o.room.map (· - buf.length)) (hCut : o.passed buf ≠ buf)
    (more : List UInt8) : o'.passed more = [] := by
  cases hSome : o.room with
  | none => exact absurd (passed_of_none hSome) hCut
  | some room =>
    have hShort : room ≤ buf.length := by
      apply Nat.le_of_not_le
      intro hLong
      exact hCut (by rw [passed_of_some hSome, List.take_of_length_le hLong])
    rw [hSome, Option.map_some, Nat.sub_eq_zero_of_le hShort] at hRoom
    rw [passed_of_some hRoom, List.take_zero]

theorem passed_append_of_cut (hCut : o.passed buf ≠ buf) (more : List UInt8) :
    o.passed (buf ++ more) = o.passed buf := by
  have hRoom : ({ o with room := o.room.map (· - buf.length) } : Outbound).room =
    o.room.map (· - buf.length) := rfl
  rw [passed_append hRoom, passed_behind hRoom hCut, List.append_nil]

theorem room_of_passed_nil {b : UInt8} (h : o.passed (b :: buf) = []) : o.room = some 0 := by
  cases hRoom : o.room with
  | none => cases (passed_of_none hRoom).symm.trans h
  | some room =>
    rw [passed_of_some hRoom, List.take_eq_nil_iff] at h
    rw [h.resolve_right (List.cons_ne_nil _ _)]

theorem accepted_le_room {room : Nat} (h : o.room = some room) : o.accepted buf ≤ room := by
  unfold accepted
  rw [h]
  exact Nat.min_le_right _ _

theorem room_of_accepted (hBuf : buf ≠ []) (h : o.accepted buf = 0) : o.room = some 0 := by
  have hOffered : 0 < o.offered buf := by
    have hLength := List.length_pos_iff.mpr hBuf
    unfold offered
    cases o.limits with
    | nil => exact hLength
    | cons limit limits => exact Nat.lt_min.mpr ⟨hLength, Nat.lt_of_lt_of_le Nat.one_pos (Nat.le_max_right _ _)⟩
  unfold accepted at h
  cases hRoom : o.room with
  | none =>
    rw [hRoom] at h
    exact absurd h (Nat.ne_of_gt hOffered)
  | some room =>
    rw [hRoom] at h
    dsimp only at h
    congr 1
    omega

/-- The loop of `write_all` writes its whole buffer, and fails if that does not get through. -/
theorem writeLoop_wrote {rounds : Nat} (hRounds : buf.length ≤ rounds) :
    o.Wrote (writeLoop rounds o buf).2 buf ∧
      ((writeLoop rounds o buf).1 = true ↔ o.passed buf = buf) := by
  induction rounds generalizing o buf with
  | zero =>
    obtain rfl : buf = [] := List.length_eq_zero_iff.mp (Nat.le_zero.mp hRounds)
    exact ⟨.nil o, iff_of_true rfl (List.prefix_nil.mp (o.passed_isPrefix []))⟩
  | succ rounds ih =>
    unfold writeLoop
    split
    · rename_i hEmpty
      subst hEmpty
      exact ⟨.nil o, iff_of_true rfl (List.prefix_nil.mp (o.passed_isPrefix []))⟩
    rename_i hBuf
    by_cases hNone : o.accepted buf = 0
    · have hRoom := room_of_accepted hBuf hNone
      have hPassed : ∀ buf, o.passed buf = [] := fun buf => by
        rw [passed_of_some hRoom, List.take_zero]
      rw [write, if_pos ⟨hBuf, hNone⟩]
      refine ⟨⟨?_, ?_⟩, iff_of_false Bool.false_ne_true ?_⟩
      · rw [hPassed, List.append_nil]
      · rw [hRoom, Option.map_some, Nat.zero_sub]
      · rw [hPassed]
        exact fun hNil => hBuf hNil.symm
    · rw [write, if_neg fun hBoth => hNone hBoth.2]
      dsimp only
      have hLe := o.accepted_le buf
      have hTake : (buf.take (o.accepted buf)).length = o.accepted buf := by
        rw [List.length_take, Nat.min_eq_left hLe]
      have hPassed : o.passed (buf.take (o.accepted buf)) = buf.take (o.accepted buf) := by
        rw [passed_eq_self_iff, hTake]
        exact fun room hRoom => accepted_le_room hRoom
      have hWrote : o.Wrote { o with
          sent := o.sent ++ buf.take (o.accepted buf)
          limits := o.limits.tail
          room := o.room.map (· - o.accepted buf) } (buf.take (o.accepted buf)) :=
        ⟨by rw [hPassed], by rw [hTake]⟩
      have hBound : (buf.drop (o.accepted buf)).length ≤ rounds := by
        have hPos := Nat.pos_of_ne_zero hNone
        rw [List.length_drop]
        omega
      refine ⟨?_, (ih hBound).2.trans ?_⟩
      · have hBoth := hWrote.append (ih hBound).1
        rwa [List.take_append_drop] at hBoth
      · have hWhole := @passed_append _ _ _ (buf.drop (o.accepted buf)) hWrote.room
        rw [List.take_append_drop, hPassed] at hWhole
        rw [hWhole]
        constructor
        · intro hSame
          rw [hSame, List.take_append_drop]
        · intro hSame
          exact List.append_cancel_left (hSame.trans (List.take_append_drop _ buf).symm)

theorem writeAll_wrote (o : Outbound) (buf : List UInt8) : o.Wrote (o.writeAll buf).2 buf :=
  (writeLoop_wrote (Nat.le_refl _)).1

theorem writeAll_iff (o : Outbound) (buf : List UInt8) :
    (o.writeAll buf).1 = true ↔ o.passed buf = buf := (writeLoop_wrote (Nat.le_refl _)).2

theorem Open.writeAll {o : Outbound} (h : o.Open) (buf : List UInt8) :
    (o.writeAll buf).1 = true ∧ (o.writeAll buf).2.sent = o.sent ++ buf := by
  have hPassed : o.passed buf = buf := passed_of_none h
  refine ⟨(o.writeAll_iff buf).mpr hPassed, ?_⟩
  rw [(o.writeAll_wrote buf).sent, hPassed]

/-- Everything a write of some bytes can do: it fails when the peer takes no more, and
otherwise sends the first of them. -/
theorem write_cases {buf : List UInt8} (o : Outbound) (hBuf : buf ≠ []) :
    (o.write buf = (none, o) ∧ o.room = some 0) ∨
    ∃ n o', o.write buf = (some n, o') ∧ 0 < n ∧ n ≤ buf.length ∧
      o'.sent = o.sent ++ buf.take n ∧ o'.room = o.room.map (· - n) ∧
      (∀ room, o.room = some room → n ≤ room) ∧ o'.closes = o.closes ∧ o'.closed = o.closed := by
  by_cases hNone : o.accepted buf = 0
  · refine .inl ⟨?_, room_of_accepted hBuf hNone⟩
    rw [write, if_pos ⟨hBuf, hNone⟩]
  · refine .inr ⟨_, _, if_neg fun hBoth => hNone hBoth.2, Nat.pos_of_ne_zero hNone,
      o.accepted_le buf, rfl, rfl, fun room hRoom => accepted_le_room hRoom, rfl, rfl⟩

end Outbound

end CrabbyProxy.Stream
