import CrabbyProxy.Library.Pieces
import CrabbyProxy.Proxy.LengthPrefix
import CrabbyProxy.Proxy.Sessions

/-!
# One authority, three parsers

The text of a host and a port reaches the proxy behind a length, in a CONNECT
request and in an absolute URL.
-/

namespace CrabbyProxy.Proxy

open CrabbyProxy.Stream
set_option autoImplicit false

variable {authority path host portText : String} {target : ProxyTarget} {length : UInt16}
  {rest : List UInt8} {stream : ClientStream}

/-- A host, the only colon and the text of a port. -/
def NamesPort (authority : String) : Prop :=
  ∃ host portText, authority = host ++ ":" ++ portText ∧ ':' ∉ host.toList ∧
    ':' ∉ portText.toList ∧ Text.IsU16 portText

theorem parseConnectTarget_ok_iff : (∃ target, parseConnectTarget authority = .ok target) ↔
    NamesPort authority := by
  constructor
  · rintro ⟨target, hTarget⟩
    unfold parseConnectTarget at hTarget
    split at hTarget
    · rename_i host portText hSplit
      obtain ⟨hText, hHost, hColon⟩ := Text.split_eq_pair_iff.mp hSplit
      rw [Text.singleton_colon] at hText
      refine ⟨host, portText, hText, hHost, hColon, Text.parseU16_isSome_iff.mp ?_⟩
      split at hTarget
      · rename_i hPort
        rw [hPort, Option.isSome_some]
      · cases hTarget
    · cases hTarget
  · rintro ⟨host, portText, rfl, hHost, hColon, hU16⟩
    obtain ⟨port, hPort⟩ := Option.isSome_iff_exists.mp (Text.parseU16_isSome_iff.mpr hU16)
    have hSplit := Text.split_append hHost hColon
    rw [Text.singleton_colon] at hSplit
    exact ⟨_, parseConnectTarget_pair hSplit hPort⟩

/-- The authority of a URL ends where its path starts. -/
theorem headD_authority (hSlash : '/' ∉ authority.toList)
    (hPath : path = "" ∨ ∃ more, path = "/" ++ more) :
    (Text.split (authority ++ path) '/').headD "" = authority := by
  obtain rfl | ⟨more, rfl⟩ := hPath
  · rw [String.append_empty, Text.split_eq_self hSlash]
    rfl
  · have hSeparator : String.singleton '/' = "/" := by decide
    rw [← hSeparator, ← String.append_assoc]
    exact Text.headD_split_append hSlash

/-- No absolute URL is refused: the port is 80 when there is none that can be read. -/
theorem parseHttpTarget_url (hSlash : '/' ∉ authority.toList)
    (hPath : path = "" ∨ ∃ more, path = "/" ++ more) :
    parseHttpTarget ("http://" ++ authority ++ path) =
      .ok ⟨(Text.split authority ':').headD "",
        ((Text.split authority ':')[1]?.bind Text.parseU16).getD 80⟩ := by
  have hLength : "http://".toList.length = 7 := by decide
  have hRest : String.ofList (("http://" ++ (authority ++ path)).toList.drop 7) =
      authority ++ path := by
    rw [String.toList_append, ← hLength, List.drop_left, String.ofList_toList]
  rw [String.append_assoc, parseHttpTarget, if_pos (Text.startsWith_append _ _), hRest]
  dsimp only
  rw [headD_authority hSlash hPath]
  cases (Text.split authority ':')[1]? <;> rfl

theorem parseHttpTarget_pair (hSlash : '/' ∉ authority.toList)
    (hPath : path = "" ∨ ∃ more, path = "/" ++ more)
    (hSplit : Text.split authority ':' = [host, portText]) {port : UInt16}
    (hPort : Text.parseU16 portText = some port) :
    parseHttpTarget ("http://" ++ authority ++ path) = .ok ⟨host, port⟩ := by
  rw [parseHttpTarget_url hSlash hPath, hSplit]
  show Except.ok (ProxyTarget.mk host ((Text.parseU16 portText).getD 80)) = _
  rw [hPort, Option.getD_some]

/-- All three parsers return an error. -/
def AllRefuse (authority path : String) (stream : ClientStream) : Prop :=
  (∃ e st, parseTarget stream = .error (.io e) st) ∧
    (∃ e, parseConnectTarget authority = .error e) ∧
    ∃ e, parseHttpTarget ("http://" ++ authority ++ path) = .error e

/-- The three parsers agree, and none makes up a port. -/
structure ParsersAgree (authority path : String) (stream : ClientStream) : Prop where
  same : (∃ target st, parseTarget stream = .ok target st ∧
      parseConnectTarget authority = .ok target ∧
      parseHttpTarget ("http://" ++ authority ++ path) = .ok target) ∨
    AllRefuse authority path stream
  refused : ∀ host portText, authority = host ++ ":" ++ portText → ':' ∉ host.toList →
    ¬Text.IsU16 portText → AllRefuse authority path stream

theorem ParsersAgree.namesPort (h : ParsersAgree authority path stream)
    (hSlash : '/' ∉ authority.toList) (hPath : path = "" ∨ ∃ more, path = "/" ++ more) :
    NamesPort authority := by
  obtain ⟨target, st, _, hConnect, _⟩ | ⟨_, _, e, hHttp⟩ := h.same
  · exact parseConnectTarget_ok_iff.mp ⟨target, hConnect⟩
  · rw [parseHttpTarget_url hSlash hPath] at hHttp
    cases hHttp

/-- The parsers agree on an authority exactly when it has one colon, before a number
that is a port. -/
theorem parsers_agree_iff (hPatient : stream.input.Patient true)
    (hLength : (Text.asBytes authority).length = length.toNat) (hMax : length.toNat ≤ 1024)
    (hContent : stream.input.content = u16ToBeBytes length ++ Text.asBytes authority ++ rest)
    (hSlash : '/' ∉ authority.toList) (hPath : path = "" ∨ ∃ more, path = "/" ++ more) :
    ParsersAgree authority path stream ↔ NamesPort authority := by
  constructor
  · exact fun hAgree => hAgree.namesPort hSlash hPath
  · rintro ⟨host, portText, hText, hHost, hColon, hU16⟩
    obtain ⟨port, hPort⟩ := Option.isSome_iff_exists.mp (Text.parseU16_isSome_iff.mpr hU16)
    have hSplit : Text.split authority ':' = [host, portText] := by
      rw [hText, ← Text.singleton_colon]
      exact Text.split_append hHost hColon
    have hPos : 0 < length.toNat := by
      rw [← hLength, hText]
      exact Text.length_asBytes_colon_pos _ _
    obtain ⟨st, hTarget⟩ := parseTarget_of_text hPatient hLength hPos hMax hContent
      (hostPortTarget_pair hSplit hPort)
    refine ⟨.inl ⟨_, st, hTarget, parseConnectTarget_pair hSplit hPort,
      parseHttpTarget_pair hSlash hPath hSplit hPort⟩, ?_⟩
    intro host' portText' hText' hHost' hNoPort
    have hSame := hText.symm.trans hText'
    rw [← Text.singleton_colon] at hSame
    have hPieces := congrArg (Text.splitn2 · ':') hSame
    rw [Text.splitn2_append hHost, Text.splitn2_append hHost'] at hPieces
    obtain rfl : portText = portText' := by simpa using (List.cons.inj hPieces).2
    exact absurd hU16 hNoPort

theorem parsers_agree_iff_https : ParsersAgree "example.com:443" "/index.html"
    (plainClient [[0], [15] ++ Text.asBytes "example.", Text.asBytes "com:443"] .fresh) :=
  (@parsers_agree_iff _ _ 15 [] _ ((Inbound.calm_ofSegments _).patient true) (by decide)
    (by decide) (by decide) (by decide) (.inr ⟨"index.html", by decide⟩)).mpr
    (parseConnectTarget_ok_iff.mp ⟨⟨"example.com", 443⟩, by decide⟩)

/-- The URL's parser replaces a port that is out of range. -/
theorem overRange_port_replaced :
    parseConnectTarget "example.com:99999" = .error ⟨.invalidData, "Invalid port"⟩ ∧
    parseHttpTarget ("http://" ++ "example.com:99999" ++ "/") = .ok ⟨"example.com", 80⟩ ∧
    ¬ParsersAgree "example.com:99999" "/"
      (plainClient [[0, 17] ++ Text.asBytes "example.com:99999"] .fresh) := by
  have hConnect : parseConnectTarget "example.com:99999" =
      .error ⟨.invalidData, "Invalid port"⟩ := by decide
  have hHttp : parseHttpTarget ("http://" ++ "example.com:99999" ++ "/") =
      .ok ⟨"example.com", 80⟩ := by decide
  refine ⟨hConnect, hHttp, ?_⟩
  intro hAgree
  obtain ⟨target, st, _, hTarget, _⟩ | ⟨_, _, e, hRefused⟩ := hAgree.same
  · rw [hConnect] at hTarget
    cases hTarget
  · rw [hHttp] at hRefused
    cases hRefused

end CrabbyProxy.Proxy
