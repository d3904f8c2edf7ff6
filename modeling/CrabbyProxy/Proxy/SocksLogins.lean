import CrabbyProxy.Library.Refusals
import CrabbyProxy.Proxy.Transcript

/-!
# SOCKS logins

What the two SOCKS authentication steps grant, take and write on each stream.
-/

namespace CrabbyProxy.Proxy

open CrabbyProxy.Stream
set_option autoImplicit false

variable {deadline : Bool} {state : AppState}

section Socks5

/-- A greeting that offers these methods, and a message with these fields. -/
def Socks5Exchange (methods username password bytes : List UInt8) : Prop :=
  ∃ n usernameLen passwordLen, methods.length = UInt8.toNat n ∧
    username.length = UInt8.toNat usernameLen ∧ password.length = UInt8.toNat passwordLen ∧
    bytes = [0x05, n] ++ methods ++ ([0x01, usernameLen] ++ username ++ ([passwordLen] ++ password))

theorem refuses_authenticateSocks5Login : Refuses deadline (authenticateSocks5Login state)
    fun taken replied e => e = .boxed "SOCKS5 authentication failed" ∧
      replied = [0x05, 0x02, 0x01, 0x01] ∧ ∃ username password usernameLen passwordLen,
        ¬(state.username = some username ∧ state.password = some password) ∧
        (Text.asBytes username).length = UInt8.toNat usernameLen ∧
        (Text.asBytes password).length = UInt8.toNat passwordLen ∧
        taken = [0x01, usernameLen] ++ Text.asBytes username ++
          ([passwordLen] ++ Text.asBytes password) := by
  refine (Refuses.bind (.writeAll _) fun _ => .bind (.readExact 2) fun authBuf =>
    .ite (.fails _) (.bind (.readExact _) fun usernameBuf => .bind (.readExact 1)
      fun passLenBuf => .bind (.readExact _) fun passwordBuf => .bind (.okOr _ _)
        fun username => .bind (.okOr _ _) fun password => .ite (.fails _)
          (.bind (.writeAll _) fun _ => .throw _))).of_imp ?_
  rintro taken replied e ⟨rfl, rfl, username, password, usernameLen, passwordLen, hOther,
    hUsername, hPassword, rfl⟩
  simp only [Grammar.takes_seq_iff, Grammar.replies_seq_iff, Grammar.allows_seq_iff,
    Grammar.ite_iff, Grammar.fails_iff, Grammar.returns_iff, and_false, false_or, not_not,
    validateCredentials_iff, Text.fromUtf8_eq_some_iff]
  obtain ⟨usernameBuf, hUsernameBuf⟩ := exists_buffer hUsername
  obtain ⟨passwordBuf, hPasswordBuf⟩ := exists_buffer hPassword
  refine ⟨[0x01, 0x01], rfl, #v[0x01, usernameLen], _, List.append_assoc _ _ _, rfl, usernameBuf,
    _, congrArg (· ++ _) hUsernameBuf.symm, #v[passwordLen], _, rfl, passwordBuf, [], ?_, username,
    hUsernameBuf, password, hPasswordBuf, hOther, [], rfl, rfl, rfl, trivial⟩
  exact hPasswordBuf.symm.trans (List.append_nil _).symm

theorem refuses_authenticateSocks5 (hCreds : state.requireCreds = true) :
    Refuses deadline (authenticateSocks5 state) fun taken replied e =>
      e = .boxed "SOCKS5 authentication failed" ∧ replied = [0x05, 0x02, 0x01, 0x01] ∧
        ∃ methods username password, 0x02 ∈ methods ∧
          ¬(state.username = some username ∧ state.password = some password) ∧
          Socks5Exchange methods (Text.asBytes username) (Text.asBytes password) taken := by
  refine (Refuses.bind (.readExact 2) fun buf => .ite (.fails _) (.bind (.readExact _)
    fun methods => .ite refuses_authenticateSocks5Login (.fails _))).of_imp ?_
  rintro taken replied e ⟨rfl, rfl, methods, username, password, hMethod, hOther, n, usernameLen,
    passwordLen, hMethods, hUsername, hPassword, rfl⟩
  simp only [Grammar.takes_seq_iff, Grammar.ite_iff, Grammar.fails_iff, hCreds, true_and,
    and_false, false_or, or_false, not_not, List.contains_iff_mem]
  obtain ⟨methodsBuf, rfl⟩ := exists_buffer hMethods
  exact ⟨#v[0x05, n], _, List.append_assoc _ _ _, rfl, methodsBuf, _, rfl, hMethod,
    username, password, usernameLen, passwordLen, hOther, hUsername, hPassword, rfl⟩

theorem refuses_unsupported (hCreds : state.requireCreds = true) :
    Refuses deadline (authenticateSocks5 state) fun taken replied e =>
      e = .boxed "SOCKS5 authentication required but not supported by client" ∧
        replied = [0x05, 0xff] ∧ ∃ methods, 0x02 ∉ methods ∧ Greets taken methods [] := by
  refine (Refuses.bind (.readExact 2) fun buf => .ite (.fails _) (.bind (.readExact _)
    fun methods => .ite (.fails _) (.ite (.bind (.writeAll _) fun _ => .throw _)
      (.fails _)))).of_imp ?_
  rintro taken replied e ⟨rfl, rfl, methods, hNone, n, hMethods, rfl⟩
  simp only [Grammar.takes_seq_iff, Grammar.replies_seq_iff, Grammar.ite_iff, Grammar.fails_iff,
    Grammar.returns_iff, hCreds, true_and, and_false, false_or, or_false, not_not,
    List.contains_iff_mem]
  obtain ⟨methodsBuf, rfl⟩ := exists_buffer hMethods
  exact ⟨#v[0x05, n], _, List.append_assoc _ _ _, rfl, methodsBuf, [], rfl, hNone, [], rfl,
    rfl, rfl, trivial⟩

/-- Everything that can have been written when the login fails. -/
def failedLogins : List (List UInt8) := [[], [0x05, 0x02], [0x05, 0x02, 0x01, 0x01], [0x05, 0xff]]

theorem emits_authenticateSocks5 (hCreds : state.requireCreds = true) :
    Emits (authenticateSocks5 state)
      (fun granted bytes => granted = true ∧ bytes = [0x05, 0x02, 0x01, 0x00])
      (· ∈ failedLogins) := by
  have hNone : [] ∈ failedLogins := by decide
  refine .silent_bind (.readExact 2) hNone fun _ => .ite (fun _ => .throw hNone) fun _ =>
    .silent_bind (.readExact _) hNone fun _ => .ite (fun _ => ?_) fun _ =>
      .ite (fun _ => .writeAll_bind _ (.throw (by decide))) fun hNot => absurd hCreds hNot
  refine .writeAll_bind _ (.silent_bind (.readExact 2) (by decide) fun _ =>
    .ite (fun _ => .throw (by decide)) fun _ => .silent_bind (.readExact _) (by decide) fun _ =>
      .silent_bind (.readExact 1) (by decide) fun _ => .silent_bind (.readExact _) (by decide)
        fun _ => .silent_bind (.okOr _ _) (by decide) fun _ => .silent_bind (.okOr _ _) (by decide)
          fun _ => .ite (fun _ => .writeAll_bind _ (.pure ⟨rfl, rfl⟩)) fun _ =>
            .writeAll_bind _ (.throw (by decide)))

/-- What a login with these credentials takes and is answered, on every stream. -/
structure Socks5LoginExact (username password : String) (before : ClientStream)
    (result : EStateM.Result Fault ClientStream Bool) : Prop where
  granted : (∃ after, result = .ok true after) ↔
    ∃ taken, Socks5Login username password taken ∧ taken <+: before.input.content
  consumed : ∀ after, result = .ok true after → ∃ taken, Socks5Login username password taken ∧
    before.input.content = taken ++ after.input.content ∧
      after.output.sent = before.output.sent ++ [0x05, 0x02, 0x01, 0x00]
  mismatched : ∀ methods name word taken rest, before.input.content = taken ++ rest →
    Socks5Exchange methods (Text.asBytes name) (Text.asBytes word) taken → 0x02 ∈ methods →
      ¬(name = username ∧ word = password) → ∃ e after, result = .error e after ∧
        after.output.sent = before.output.sent ++ [0x05, 0x02, 0x01, 0x01]
  unsupported : ∀ methods rest, Greets before.input.content methods rest → 0x02 ∉ methods →
    ∃ e after, result = .error e after ∧ after.output.sent = before.output.sent ++ [0x05, 0xff]
  success : ∀ said, (stateOf result).output.sent = before.output.sent ++ said →
    [0x01, 0x00] <:+: said → ∃ after, result = .ok true after

/-- SOCKS5 authentication grants exactly the logins with the configured credentials. -/
theorem authenticateSocks5_exact {username password : String} {client : ClientStream}
    (hCreds : state.requireCreds = true) (hUsername : state.username = some username)
    (hPassword : state.password = some password) (hHealthy : Healthy false client) :
    Socks5LoginExact username password client (authenticateSocks5 state client) where
  granted := by
    constructor
    · rintro ⟨after, hRun⟩
      obtain ⟨taken, _, ⟨_, _, name, word, hName, hWord, hLogin⟩, hContent, _⟩ :=
        (@denotes_authenticateSocks5 false _ hCreds).sound hRun
      obtain rfl := Option.some.inj (hUsername.symm.trans hName)
      obtain rfl := Option.some.inj (hPassword.symm.trans hWord)
      exact ⟨taken, hLogin, _, hContent.symm⟩
    · rintro ⟨taken, hLogin, rest, hContent⟩
      obtain ⟨after, hRun, _⟩ := (denotes_authenticateSocks5 hCreds).complete hHealthy
        ⟨rfl, rfl, username, password, hUsername, hPassword, hLogin⟩ hContent.symm
      exact ⟨after, hRun⟩
  consumed after hRun := by
    obtain ⟨taken, _, ⟨_, rfl, name, word, hName, hWord, hLogin⟩, hContent, hSent⟩ :=
      (@denotes_authenticateSocks5 false _ hCreds).sound hRun
    obtain rfl := Option.some.inj (hUsername.symm.trans hName)
    obtain rfl := Option.some.inj (hPassword.symm.trans hWord)
    exact ⟨taken, hLogin, hContent, hSent⟩
  mismatched methods name word taken rest hContent hExchange hMethod hOther := by
    have hNot : ¬(state.username = some name ∧ state.password = some word) := by
      rw [hUsername, hPassword, Option.some.injEq, Option.some.injEq]
      rintro ⟨rfl, rfl⟩
      exact hOther ⟨rfl, rfl⟩
    obtain ⟨after, hRun, _, hSent⟩ := (refuses_authenticateSocks5 hCreds).complete hHealthy
      ⟨rfl, rfl, methods, name, word, hMethod, hNot, hExchange⟩ hContent
    exact ⟨_, after, hRun, hSent⟩
  unsupported methods rest hGreets hNone := by
    obtain ⟨n, hMethods, hContent⟩ := hGreets
    obtain ⟨after, hRun, _, hSent⟩ := (refuses_unsupported hCreds).complete hHealthy
      ⟨rfl, rfl, methods, hNone, n, hMethods, (List.append_nil _).symm⟩ hContent
    exact ⟨_, after, hRun, hSent⟩
  success said hSaid hSuccess := by
    cases hRun : authenticateSocks5 state client with
    | ok granted after =>
      obtain ⟨_, ⟨rfl, _⟩, _⟩ := (emits_authenticateSocks5 hCreds).ok hHealthy.writable hRun
      exact ⟨after, rfl⟩
    | error e after =>
      obtain ⟨bytes, hFailed, hSent⟩ :=
        (emits_authenticateSocks5 hCreds).error hHealthy.writable hRun
      rw [hRun, stateOf, hSent] at hSaid
      obtain rfl := List.append_cancel_left hSaid
      have hNever : ∀ failed ∈ failedLogins, ¬[0x01, 0x00] <:+: failed := by decide
      exact absurd hSuccess (hNever bytes hFailed)

theorem authenticateSocks5_exact_alice : Socks5LoginExact "alice" "s3cret"
    (plainClient [[5, 2, 0], [2, 1, 5] ++ Text.asBytes "alice", [6] ++ Text.asBytes "s3cret"] .fresh)
    (authenticateSocks5 ⟨true, some "alice", some "s3cret", none⟩ (plainClient
      [[5, 2, 0], [2, 1, 5] ++ Text.asBytes "alice", [6] ++ Text.asBytes "s3cret"] .fresh)) :=
  authenticateSocks5_exact rfl rfl rfl ((steady_freshClient _).healthy false)

end Socks5

section Socks4

variable {username : String} {header userId rest : List UInt8} {client : ClientStream}

/-- What a login with this user-id takes and is answered. -/
structure Socks4LoginExact (username : String) (userId rest : List UInt8) (before : ClientStream)
    (result : EStateM.Result Fault ClientStream Bool) : Prop where
  granted : (∃ after, result = .ok true after) ↔ userId = Text.asBytes username
  consumed : ∀ after, result = .ok true after →
    after.input.content = rest ∧ after.output = before.output
  refused : userId ≠ Text.asBytes username → ∃ e after, result = .error e after ∧
    before.output.Wrote after.output [0x00, 0x5b, 0x00, 0x00, 0x00, 0x00, 0x00, 0x00]

/-- The part of `authenticate_socks4` behind the user-id. -/
def answerSocks4Login (state : AppState) (userId : List UInt8) : ClientProgram Bool :=
  if validateSocks4UserId ((Text.fromUtf8 userId).getD "") state then pure true
  else do
    writeAll [0x00, 0x5b, 0x00, 0x00, 0x00, 0x00, 0x00, 0x00]
    throw (.boxed "SOCKS4 authentication failed")

theorem authenticateSocks4_request (hCreds : state.requireCreds = true)
    (hPatient : client.input.Patient client.timed) (hHeader : header.length = 7)
    (hNul : 0 ∉ userId)
    (hContent : client.input.content = 0x04 :: header ++ userId ++ [0x00] ++ rest) :
    ∃ after, authenticateSocks4 state client = answerSocks4Login state userId after ∧
      after.input.content = rest ∧ after.output = client.output ∧
      after = behind (8 :: List.replicate (userId.length + 1) 1) client := by
  have hEight : (0x04 :: header).length = 8 := by simp [hHeader]
  have hSplit : client.input.content = (0x04 :: header) ++ (userId ++ [0x00] ++ rest) := by
    rw [hContent, List.append_assoc, List.append_assoc, List.append_assoc]
  obtain ⟨st₁, hHead, hRest, hOutput⟩ := @readExact_of_patient _ client hPatient 8
    (by rw [hSplit, List.length_append, hEight]; exact Nat.le_add_right _ _)
  rw [hSplit, List.take_left' hEight] at hHead
  rw [hSplit, List.drop_left' hEight] at hRest
  have hVersion : (fill 8 (0x04 :: header)).get 0 = 0x04 := by
    have hBuf := toList_fill hEight
    rw [toList_buffer_eight] at hBuf
    exact (List.cons.inj hBuf).1
  have hPatient₁ := ((Framing.readExact 8).ok hHead).patient hPatient
  obtain ⟨st₂, hUserId, hRest₂, hOutput₂⟩ := readUserId_of_patient hPatient₁ hNul hRest
  refine ⟨st₂, ?_, hRest₂, hOutput₂.trans hOutput, ?_⟩
  · rw [authenticateSocks4, bind_ok hHead, if_neg (not_not.mpr hVersion), if_pos hCreds,
      bind_ok hUserId]
    rfl
  · have hState : stateOf (readExact 8 client) = st₁ := congrArg stateOf hHead
    rw [state_readUserId hUserId, ← hState]
    rfl

theorem answerSocks4Login_refused {after : ClientStream}
    (hOther : ¬validateSocks4UserId ((Text.fromUtf8 userId).getD "") state = true) :
    ∃ e st, answerSocks4Login state userId after = .error e st ∧
      after.output.Wrote st.output [0x00, 0x5b, 0x00, 0x00, 0x00, 0x00, 0x00, 0x00] := by
  have hWrote := after.output.writeAll_wrote [0x00, 0x5b, 0x00, 0x00, 0x00, 0x00, 0x00, 0x00]
  have hState := stateOf_writeAll [0x00, 0x5b, 0x00, 0x00, 0x00, 0x00, 0x00, 0x00] after
  rw [answerSocks4Login, if_neg hOther]
  cases hWrite : writeAll [0x00, 0x5b, 0x00, 0x00, 0x00, 0x00, 0x00, 0x00] after with
  | ok _ st =>
    rw [hWrite, stateOf] at hState
    exact ⟨_, st, by rw [bind_ok hWrite]; rfl, by rw [hState]; exact hWrote⟩
  | error e st =>
    rw [hWrite, stateOf] at hState
    exact ⟨e, st, bind_error hWrite, by rw [hState]; exact hWrote⟩

/-- SOCKS4 authentication is exact unless an empty username meets a user-id that is no text. -/
theorem authenticateSocks4_exact_iff (hCreds : state.requireCreds = true)
    (hUsername : state.username = some username)
    (hPatient : client.input.Patient client.timed) (hHeader : header.length = 7)
    (hNul : 0 ∉ userId)
    (hContent : client.input.content = 0x04 :: header ++ userId ++ [0x00] ++ rest) :
    Socks4LoginExact username userId rest client (authenticateSocks4 state client) ↔
      ¬(username = "" ∧ Text.fromUtf8 userId = none) := by
  obtain ⟨after, hRun, hRest, hOutput, _⟩ :=
    authenticateSocks4_request hCreds hPatient hHeader hNul hContent
  have hValid : validateSocks4UserId ((Text.fromUtf8 userId).getD "") state = true ↔
      userId = Text.asBytes username ∨ username = "" ∧ Text.fromUtf8 userId = none := by
    rw [validateSocks4UserId_iff, hUsername, Option.some.injEq, eq_comm, userId_text_eq_iff]
  rw [hRun]
  constructor
  · rintro hExact ⟨hEmpty, hInvalid⟩
    have hSame := hExact.granted.mp ⟨after, by
      rw [answerSocks4Login, if_pos (hValid.mpr (.inr ⟨hEmpty, hInvalid⟩))]
      rfl⟩
    rw [hSame, Text.fromUtf8_asBytes] at hInvalid
    cases hInvalid
  · intro hNot
    rw [or_iff_left hNot] at hValid
    by_cases hSame : userId = Text.asBytes username
    · rw [answerSocks4Login, if_pos (hValid.mpr hSame)]
      refine ⟨iff_of_true ⟨after, rfl⟩ hSame, ?_, fun hOther => absurd hSame hOther⟩
      rintro _ ⟨⟩
      exact ⟨hRest, hOutput⟩
    · obtain ⟨e, st, hError, hWrote⟩ := @answerSocks4Login_refused state _ after
        (mt hValid.mp hSame)
      rw [hError]
      refine ⟨iff_of_false (by rintro ⟨_, ⟨⟩⟩) hSame, by rintro _ ⟨⟩, fun _ => ⟨e, st, rfl, ?_⟩⟩
      rw [← hOutput]
      exact hWrote

theorem authenticateSocks4_exact_iff_alice : Socks4LoginExact "alice" (Text.asBytes "alice") [22, 3]
    (plainClient [[4, 1, 0, 80, 127, 0], [0, 1] ++ Text.asBytes "alice", [0, 22, 3]] .fresh)
    (authenticateSocks4 ⟨true, some "alice", none, none⟩
      (plainClient [[4, 1, 0, 80, 127, 0], [0, 1] ++ Text.asBytes "alice", [0, 22, 3]] .fresh)) :=
  (@authenticateSocks4_exact_iff _ _ [1, 0, 80, 127, 0, 0, 1] _ _ _ rfl rfl
    ((steady_freshClient _).calm.patient _) rfl (by decide) (by decide)).mpr (by decide)

/-- An empty username is matched by every user-id that is not UTF-8. -/
theorem invalid_userId_granted :
    (∃ after, authenticateSocks4 ⟨true, some "", some "s3cret", none⟩
      (plainClient [[4, 1, 0, 80, 127, 0, 0, 1, 0xff, 0]] .fresh) = .ok true after) ∧
    ¬Socks4LoginExact "" [0xff] [] (plainClient [[4, 1, 0, 80, 127, 0, 0, 1, 0xff, 0]] .fresh)
      (authenticateSocks4 ⟨true, some "", some "s3cret", none⟩
        (plainClient [[4, 1, 0, 80, 127, 0, 0, 1, 0xff, 0]] .fresh)) := by
  refine ⟨⟨_, rfl⟩, ?_⟩
  intro hExact
  have hSame := hExact.granted.mp ⟨_, rfl⟩
  exact absurd hSame (by decide)

end Socks4

end CrabbyProxy.Proxy
