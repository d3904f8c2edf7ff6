import CrabbyProxy.Library.Base64
import CrabbyProxy.Proxy.Logins

/-!
# Basic credentials

Which values of the header are accepted, over all strings.
-/

namespace CrabbyProxy.Proxy

open CrabbyProxy.Stream
set_option autoImplicit false

/-- The header value that carries a username and a password. -/
def basicCredentials (username password : String) : String :=
  "Basic " ++ Base64.encode (Text.asBytes (username ++ ":" ++ password))

/-- The decoder accepts the encodings and nothing else. -/
def CanonicalBase64 (env : Environment) : Prop :=
  ∀ s bytes, env.decode s = some bytes ↔ s = Base64.encode bytes

variable {env : Environment} {state : AppState} {username password : String}

theorem validateAuthHeader_of_credentials (hCanonical : CanonicalBase64 env)
    (hUsername : state.username = some username) (hPassword : state.password = some password)
    (hColon : ':' ∉ username.toList) :
    validateAuthHeader env (basicCredentials username password) state = .ok () := by
  have hBasic : Text.startsWith (basicCredentials username password) "Basic " = true :=
    Text.startsWith_append _ _
  have hEncoded : String.ofList ((basicCredentials username password).toList.drop 6) =
      Base64.encode (Text.asBytes (username ++ ":" ++ password)) := by
    have hSix : "Basic ".toList.length = 6 := by decide
    rw [basicCredentials, String.toList_append, ← hSix, List.drop_left, String.ofList_toList]
  have hSplit := Text.splitn2_append hColon password
  rw [Text.singleton_colon] at hSplit
  have hValid := validateCredentials_iff.mpr ⟨hUsername, hPassword⟩
  unfold validateAuthHeader
  rw [if_pos hBasic, hEncoded, (hCanonical _ _).mpr rfl]
  dsimp only
  rw [Text.fromUtf8_asBytes]
  dsimp only
  rw [hSplit]
  dsimp only
  rw [hValid]
  rfl

/-- A header value is accepted exactly when it is the encoding of the configured
username and password, and the username has no colon. -/
theorem validateAuthHeader_ok_iff (hCanonical : CanonicalBase64 env) (authHeader : String) :
    validateAuthHeader env authHeader state = .ok () ↔ ∃ username password,
      state.username = some username ∧ state.password = some password ∧ ':' ∉ username.toList ∧
        authHeader = basicCredentials username password := by
  constructor
  · intro hOk
    obtain ⟨encoded, username, password, rfl, hDecoded, hUsername, hPassword, hColon⟩ :=
      validateAuthHeader_ok hOk
    refine ⟨username, password, hUsername, hPassword, hColon, ?_⟩
    rw [basicCredentials, (hCanonical _ _).mp hDecoded]
  · rintro ⟨username, password, hUsername, hPassword, hColon, rfl⟩
    exact validateAuthHeader_of_credentials hCanonical hUsername hPassword hColon

/-- A world in which base64 is decoded as it should be, and nothing connects. -/
def decodingWorld : Environment :=
  ⟨default, Base64.decode, fun _ _ => .timedOut, []⟩

theorem canonical_decodingWorld : CanonicalBase64 decodingWorld :=
  fun _ _ => Base64.decode_eq_some_iff

theorem validateAuthHeader_ok_iff_aladdin :
    validateAuthHeader decodingWorld "Basic QWxhZGRpbjpvcGVuOnNlc2FtZQ=="
      ⟨true, some "Aladdin", some "open:sesame", none⟩ = .ok () :=
  (validateAuthHeader_ok_iff canonical_decodingWorld _).mpr
    ⟨_, _, rfl, rfl, by decide, by decide⟩

end CrabbyProxy.Proxy
