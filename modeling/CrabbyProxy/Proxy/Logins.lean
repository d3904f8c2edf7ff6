import CrabbyProxy.Proxy.Authentication
import CrabbyProxy.Proxy.SocksGrammar

/-!
# What counts as a login

The bytes with which a client of each protocol proves that it knows the
credentials, and that the authentication steps accept nothing else.
-/

namespace CrabbyProxy.Proxy

open CrabbyProxy.Stream
set_option autoImplicit false

/-- A request text with a matching `Proxy-Authorization` line. -/
def HttpLogin (env : Environment) (username password : String) (seen : List UInt8) : Prop :=
  ∃ line ∈ Text.lines (Text.fromUtf8Lossy seen), ∃ encoded,
    Text.startsWith (env.caseTable.toLowercase line) "proxy-authorization:" = true ∧
    Text.trim (Text.trimStartMatches line "Proxy-Authorization:") = "Basic " ++ encoded ∧
    env.decode encoded = some (Text.asBytes (username ++ ":" ++ password))

/-- A SOCKS4 request with the username as its user-id. A user-id that is not
UTF-8 counts as empty. -/
def Socks4Login (username : String) (seen : List UInt8) : Prop :=
  ∃ header userId, header.length = 7 ∧ 0 ∉ userId ∧ seen = 0x04 :: header ++ userId ++ [0x00] ∧
    (userId = Text.asBytes username ∨ username = "" ∧ Text.fromUtf8 userId = none)

/-- A SOCKS5 greeting and a username and password message. -/
def Socks5Login (username password : String) (seen : List UInt8) : Prop :=
  ∃ n methods usernameLen passwordLen, methods.length = UInt8.toNat n ∧ 0x02 ∈ methods ∧
    (Text.asBytes username).length = UInt8.toNat usernameLen ∧
    (Text.asBytes password).length = UInt8.toNat passwordLen ∧
    seen = [0x05, n] ++ methods ++ ([0x01, usernameLen] ++ Text.asBytes username ++
      ([passwordLen] ++ Text.asBytes password))

variable {deadline : Bool} {env : Environment} {state : AppState}

theorem validateCredentials_iff {username password : String} :
    validateCredentials username password state = true ↔
      state.username = some username ∧ state.password = some password := by
  unfold validateCredentials
  split
  · rename_i expectedUsername expectedPassword hUsername hPassword
    rw [Bool.and_eq_true, beq_iff_eq, beq_iff_eq, hUsername, hPassword, Option.some.injEq,
      Option.some.injEq]
    exact and_congr ⟨Text.asBytes_inj, congrArg _⟩ ⟨Text.asBytes_inj, congrArg _⟩
  · rename_i hNone
    exact ⟨nofun, fun ⟨hUsername, hPassword⟩ => (hNone _ _ hUsername hPassword).elim⟩

theorem validateSocks4UserId_iff {userId : String} :
    validateSocks4UserId userId state = true ↔ state.username = some userId := by
  unfold validateSocks4UserId
  split
  · rename_i expectedUsername hUsername
    rw [beq_iff_eq, hUsername, Option.some.injEq]
    exact ⟨Text.asBytes_inj, congrArg _⟩
  · rename_i hUsername
    rw [hUsername]
    exact ⟨nofun, nofun⟩

theorem userId_text_eq_iff {userId : List UInt8} {username : String} :
    (Text.fromUtf8 userId).getD "" = username ↔
      userId = Text.asBytes username ∨ username = "" ∧ Text.fromUtf8 userId = none := by
  cases hText : Text.fromUtf8 userId with
  | some text =>
    have hBytes := Text.fromUtf8_eq_some_iff.mp hText
    rw [Option.getD_some, hBytes]
    constructor
    · rintro rfl
      exact .inl rfl
    · rintro (hSame | ⟨_, hNone⟩)
      · exact Text.asBytes_inj hSame
      · cases hNone
  | none =>
    constructor
    · rintro rfl
      exact .inr ⟨rfl, rfl⟩
    · rintro (rfl | ⟨rfl, _⟩)
      · rw [Text.fromUtf8_asBytes] at hText
        cases hText
      · rfl

theorem denotes_authenticateSocks4 (hCreds : state.requireCreds = true) :
    Denotes deadline (authenticateSocks4 state) fun taken replied granted =>
      granted = true ∧ replied = [] ∧
        ∃ username, state.username = some username ∧ Socks4Login username taken := by
  refine ((Denotes.readExact 8).bind fun buf => .ite (.throw _) (.ite
    (denotes_readUserId.bind fun userId => .ite (.pure _)
      ((Denotes.writeAll _).bind fun _ => .throw _)) (.pure _))).congr
    fun taken replied granted => ?_
  simp only [Grammar.takes_seq_iff, userIdGrammar_seq_iff, Grammar.replies_seq_iff,
    Grammar.ite_iff, Grammar.fails_iff, Grammar.returns_iff, hCreds, not_true_eq_false, and_false,
    false_and, true_and, false_or, or_false, exists_false, not_not, validateSocks4UserId_iff]
  constructor
  · rintro ⟨buf, _, rfl, hVersion, userId, _, hNul, rfl, hUsername, rfl, rfl, rfl⟩
    refine ⟨rfl, rfl, _, hUsername, buf.toList.tail, userId, by simp, hNul, ?_,
      userId_text_eq_iff.mp rfl⟩
    rw [toList_buffer_eight, hVersion, List.append_nil, ← List.append_assoc]
    rfl
  · rintro ⟨rfl, rfl, username, hUsername, header, userId, hHeader, hNul, rfl, hUserId⟩
    obtain ⟨buf, hBuf⟩ := @exists_buffer 8 (0x04 :: header) (by simp [hHeader])
    refine ⟨buf, userId ++ [0x00], by rw [hBuf, List.append_assoc], ?_, userId, [], hNul,
      (List.append_nil _).symm, ?_, rfl, rfl, rfl⟩
    · rw [toList_buffer_eight] at hBuf
      exact (List.cons.inj hBuf).1
    · rw [hUsername, userId_text_eq_iff.mpr hUserId]

theorem denotes_authenticateSocks5Login : Denotes deadline (authenticateSocks5Login state)
    fun taken replied granted => granted = true ∧ replied = [0x05, 0x02, 0x01, 0x00] ∧
      ∃ username password usernameLen passwordLen, state.username = some username ∧
        state.password = some password ∧
        (Text.asBytes username).length = UInt8.toNat usernameLen ∧
        (Text.asBytes password).length = UInt8.toNat passwordLen ∧
        taken = [0x01, usernameLen] ++ Text.asBytes username ++
          ([passwordLen] ++ Text.asBytes password) := by
  refine ((Denotes.writeAll _).bind fun _ => (Denotes.readExact 2).bind fun authBuf =>
    .ite (.throw _) ((Denotes.readExact _).bind fun usernameBuf => (Denotes.readExact 1).bind
      fun passLenBuf => (Denotes.readExact _).bind fun passwordBuf => (Denotes.okOr _ _).bind
        fun username => (Denotes.okOr _ _).bind fun password => .ite
          ((Denotes.writeAll _).bind fun _ => .pure _)
          ((Denotes.writeAll _).bind fun _ => .throw _))).congr fun taken replied granted => ?_
  simp only [Grammar.takes_seq_iff, Grammar.replies_seq_iff, Grammar.allows_seq_iff,
    Grammar.ite_iff, Grammar.fails_iff, Grammar.returns_iff, and_false, false_or, or_false,
    exists_false, not_not, validateCredentials_iff, Text.fromUtf8_eq_some_iff]
  constructor
  · rintro ⟨_, rfl, authBuf, _, rfl, hVersion, usernameBuf, _, rfl, passLenBuf, _, rfl,
      passwordBuf, _, rfl, username, hUsername, password, hPassword,
      ⟨hSomeUsername, hSomePassword⟩, _, rfl, rfl, rfl, rfl⟩
    refine ⟨rfl, rfl, username, password, authBuf.get 1, passLenBuf.get 0, hSomeUsername, hSomePassword,
      by rw [← hUsername, Vector.length_toList], by rw [← hPassword, Vector.length_toList], ?_⟩
    rw [toList_buffer_two, toList_buffer_one, hVersion, ← hUsername, ← hPassword, List.append_nil,
      List.append_assoc]
  · rintro ⟨rfl, rfl, username, password, usernameLen, passwordLen, hSomeUsername, hSomePassword,
      hUsername, hPassword, rfl⟩
    obtain ⟨usernameBuf, hUsernameBuf⟩ := exists_buffer hUsername
    obtain ⟨passwordBuf, hPasswordBuf⟩ := exists_buffer hPassword
    refine ⟨[0x01, 0x00], rfl, #v[0x01, usernameLen], _, List.append_assoc _ _ _, rfl, usernameBuf,
      _, congrArg (· ++ _) hUsernameBuf.symm, #v[passwordLen], _, rfl, passwordBuf, [], ?_, username,
      hUsernameBuf, password, hPasswordBuf, ⟨hSomeUsername, hSomePassword⟩, [], rfl, rfl, rfl, rfl⟩
    exact hPasswordBuf.symm.trans (List.append_nil _).symm

theorem denotes_authenticateSocks5 (hCreds : state.requireCreds = true) :
    Denotes deadline (authenticateSocks5 state) fun taken replied granted =>
      granted = true ∧ replied = [0x05, 0x02, 0x01, 0x00] ∧ ∃ username password,
        state.username = some username ∧ state.password = some password ∧
        Socks5Login username password taken := by
  refine ((Denotes.readExact 2).bind fun buf => .ite (.throw _) ((Denotes.readExact _).bind
    fun methods => .ite denotes_authenticateSocks5Login (.ite
      ((Denotes.writeAll _).bind fun _ => .throw _)
      ((Denotes.writeAll _).bind fun _ => .pure _)))).congr fun taken replied granted => ?_
  simp only [Grammar.takes_seq_iff, Grammar.replies_seq_iff, Grammar.ite_iff, Grammar.fails_iff,
    hCreds, not_true_eq_false, and_false, false_and, true_and, false_or, or_false, exists_false,
    not_not, List.contains_iff_mem]
  constructor
  · rintro ⟨buf, _, rfl, hVersion, methods, _, rfl, hMethod, rfl, rfl, username, password,
      usernameLen, passwordLen, hSomeUsername, hSomePassword, hUsername, hPassword, rfl⟩
    refine ⟨rfl, rfl, username, password, hSomeUsername, hSomePassword, buf.get 1, methods.toList,
      usernameLen, passwordLen, methods.length_toList, hMethod, hUsername, hPassword, ?_⟩
    rw [toList_buffer_two, hVersion, List.append_assoc _ methods.toList]
  · rintro ⟨rfl, rfl, username, password, hSomeUsername, hSomePassword, n, methods, usernameLen,
      passwordLen, hMethods, hMethod, hUsername, hPassword, rfl⟩
    obtain ⟨methodsBuf, hBuf⟩ := exists_buffer hMethods
    refine ⟨#v[0x05, n], _, List.append_assoc _ _ _, rfl, methodsBuf, _,
      congrArg (· ++ _) hBuf.symm, ?_, rfl, rfl, username, password, usernameLen, passwordLen, hSomeUsername,
      hSomePassword, hUsername, hPassword, rfl⟩
    exact hBuf ▸ hMethod

theorem validateAuthHeader_ok {authHeader : String}
    (h : validateAuthHeader env authHeader state = .ok ()) :
    ∃ encoded username password, authHeader = "Basic " ++ encoded ∧
      env.decode encoded = some (Text.asBytes (username ++ ":" ++ password)) ∧
      state.username = some username ∧ state.password = some password ∧
      ':' ∉ username.toList := by
  unfold validateAuthHeader at h
  split at h
  · rename_i hBasic
    cases hDecoded : env.decode (String.ofList (authHeader.toList.drop 6)) with
    | none => rw [hDecoded] at h; cases h
    | some decoded =>
      rw [hDecoded] at h
      dsimp only at h
      cases hText : Text.fromUtf8 decoded with
      | none => rw [hText] at h; cases h
      | some credentials =>
        rw [hText] at h
        dsimp only at h
        split at h
        · rename_i username password more hSplit
          split at h
          · rename_i hValid
            obtain ⟨hUsername, hPassword⟩ := validateCredentials_iff.mp hValid
            refine ⟨_, username, password, Text.eq_append_of_startsWith hBasic, ?_, hUsername,
              hPassword, Text.notMem_of_splitn2 hSplit⟩
            have hCredentials := Text.eq_append_of_splitn2 hSplit
            rw [hCredentials, Text.singleton_colon] at hText
            exact hDecoded.trans (congrArg some (Text.fromUtf8_eq_some_iff.mp hText))
          · cases h
        · cases h
        · cases h
  · cases h

theorem extractProxyAuthHeader_some {requestData authHeader : String}
    (h : extractProxyAuthHeader env requestData = some authHeader) :
    ∃ line ∈ Text.lines requestData,
      Text.startsWith (env.caseTable.toLowercase line) "proxy-authorization:" = true ∧
      Text.trim (Text.trimStartMatches line "Proxy-Authorization:") = authHeader := by
  obtain ⟨line, hLine, hFound⟩ := List.exists_of_findSome?_eq_some h
  obtain ⟨hName, hTrim⟩ := Option.ite_none_right_eq_some.mp hFound
  exact ⟨line, hLine, hName, Option.some.inj hTrim⟩

theorem isOk_unit {result : Except String Unit} (h : result.isOk = true) : result = .ok () := by
  cases result with
  | ok _ => rfl
  | error _ => cases h

theorem headerGrants_login {seen : List UInt8}
    (h : headerGrants env state (Text.fromUtf8Lossy seen) = true) :
    ∃ username password, state.username = some username ∧ state.password = some password ∧
      HttpLogin env username password seen := by
  unfold headerGrants at h
  split at h
  · rename_i authHeader hHeader
    obtain ⟨line, hLine, hName, hTrim⟩ := extractProxyAuthHeader_some hHeader
    obtain ⟨encoded, username, password, hBasic, hDecoded, hUsername, hPassword, _⟩ :=
      validateAuthHeader_ok (isOk_unit h)
    exact ⟨username, password, hUsername, hPassword, line, hLine, encoded, hName,
      hTrim.trans hBasic, hDecoded⟩
  · cases h

end CrabbyProxy.Proxy
