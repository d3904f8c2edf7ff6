import CrabbyProxy.Library.Pieces
import CrabbyProxy.Proxy.HandShake
import CrabbyProxy.Proxy.RequestLine

/-!
# The CONNECT request and its parser

What the handshake writes for a target, and what the listener reads from it.
-/

namespace CrabbyProxy.Proxy

open CrabbyProxy.Stream
set_option autoImplicit false

/-- A target that one of the listener's parsers has returned. -/
inductive ParsedTarget (target : ProxyTarget) : Prop
  | socks4 {st st' : ClientStream} (h : parseSocks4Target st = .ok target st')
  | socks5 {st st' : ClientStream} (h : parseSocks5Target st = .ok target st')
  | lengthPrefixed {st st' : ClientStream} (h : parseTarget st = .ok target st')
  | connect {url : String} (h : parseConnectTarget url = .ok target)
  | http {url : String} (h : parseHttpTarget url = .ok target)

/-- A host without colons and without whitespace. -/
def PlainHost (host : String) : Prop :=
  ∀ c ∈ host.toList, c ≠ ':' ∧ Text.isWhitespace c = false

instance (host : String) : Decidable (PlainHost host) :=
  decidable_of_iff (host.toList.all (fun c => c != ':' && !Text.isWhitespace c) = true)
    (by simp [PlainHost])

variable {target : ProxyTarget} {url : String} {c : Char}

theorem ParsedTarget.of_socks5 {word : List UInt8} (h : Socks5Request word target) :
    ParsedTarget target := by
  have hContent := content_plainClient [word] .fresh
  rw [List.flatten_singleton] at hContent
  have hWord : word <+: (plainClient [word] .fresh).input.content := by rw [hContent]
  obtain ⟨st', hRun⟩ := ((@denotes_parseSocks5Target false).succeeds_iff
    ((steady_freshClient [word]).healthy _)).mpr ⟨word, h, hWord⟩
  exact .socks5 hRun

theorem mem_host_of_connect (h : parseConnectTarget url = .ok target)
    (hc : c ∈ target.host.toList) : c ∈ url.toList ∧ c ≠ ':' := by
  unfold parseConnectTarget at h
  split at h
  · rename_i host port hSplit
    split at h
    · cases h
      exact Text.mem_of_mem_split (hSplit ▸ List.mem_cons_self) hc
    · cases h
  · cases h

theorem mem_headD_of_mem {s : String} {d : Char} (hc : c ∈ ((Text.split s d).headD "").toList) :
    c ∈ s.toList ∧ c ≠ d := by
  cases hSplit : Text.split s d with
  | nil =>
    rw [hSplit] at hc
    cases hc
  | cons first rest =>
    have hFirst : first ∈ Text.split s d := by
      rw [hSplit]
      exact List.mem_cons_self
    rw [hSplit] at hc
    exact Text.mem_of_mem_split hFirst hc

theorem mem_host_of_http (h : parseHttpTarget url = .ok target)
    (hc : c ∈ target.host.toList) : c ∈ url.toList ∧ c ≠ ':' := by
  unfold parseHttpTarget at h
  split at h
  · have hHost := congrArg ProxyTarget.host (Except.ok.inj h)
    dsimp only at hHost
    rw [← hHost] at hc
    obtain ⟨hAuthority, hColon⟩ := mem_headD_of_mem hc
    obtain ⟨hUrl, _⟩ := mem_headD_of_mem hAuthority
    rw [String.toList_ofList] at hUrl
    exact ⟨List.mem_of_mem_drop hUrl, hColon⟩
  · cases h

/-- A request line cannot name any other host. -/
theorem plainHost_of_requestLine {requestLine : String}
    (h : requestLineTarget requestLine = .ok target) : PlainHost target.host := by
  unfold requestLineTarget at h
  split at h
  · rename_i method url more hTokens
    have hUrl : url ∈ Text.splitWhitespace requestLine := by
      rw [hTokens]
      exact List.mem_cons_of_mem _ List.mem_cons_self
    have hHost : ∀ c ∈ target.host.toList, c ∈ url.toList ∧ c ≠ ':' := by
      intro c hc
      split at h
      · exact mem_host_of_connect h hc
      · exact mem_host_of_http h hc
    intro c hc
    obtain ⟨hMem, hColon⟩ := hHost c hc
    exact ⟨hColon, Text.not_isWhitespace_of_mem_splitWhitespace hUrl hMem⟩
  · cases h

theorem plainHost_of_lineTarget {line : List UInt8} (h : lineTarget line = .ok target) :
    PlainHost target.host := by
  unfold lineTarget at h
  split at h
  · exact plainHost_of_requestLine h
  · cases h

theorem colon_notMem_portText (port : UInt16) : ':' ∉ (Text.portText port).toList :=
  fun hMem => absurd (Text.isDigit_portText hMem) (by decide)

theorem parseConnectTarget_of_plain (h : PlainHost target.host) :
    parseConnectTarget (target.host ++ ":" ++ Text.portText target.port) = .ok target := by
  have hSplit := Text.split_append (fun hMem => (h ':' hMem).1 rfl)
    (colon_notMem_portText target.port)
  rw [Text.singleton_colon] at hSplit
  exact parseConnectTarget_pair hSplit (Text.parseU16_portText _)

theorem connect_known : "CONNECT" ∈ ["GET", "POST", "PUT", "HEAD", "DELETE", "CONNECT"] := by decide

def connectLine (target : ProxyTarget) (h : PlainHost target.host) : RequestLine where
  method := "CONNECT"
  url := target.host ++ ":" ++ Text.portText target.port
  version := "HTTP/1.1"
  method_known := connect_known
  url_ne := by
    intro hEmpty
    have hColon := congrArg String.toList hEmpty
    simp at hColon
  url_token := by
    intro c hc
    simp only [String.toList_append, List.mem_append] at hc
    obtain (hHost | hColon) | hPort := hc
    · exact (h c hHost).2
    · obtain rfl := List.mem_singleton.mp hColon
      decide
    · exact Text.not_isWhitespace_of_isDigit (Text.isDigit_portText hPort)
  version_line := http11_line

theorem connectRequest_eq (h : PlainHost target.host) :
    connectRequest target = (connectLine target h).bytes ++ Text.asBytes "\r\n" := by
  have hStart : Text.asBytes "CONNECT " = Text.asBytes "CONNECT" ++ Text.asBytes " " := by decide
  have hEnd : Text.asBytes " HTTP/1.1\r\n\r\n" = Text.asBytes " " ++ Text.asBytes "HTTP/1.1" ++
      Text.asBytes "\r" ++ Text.asBytes "\n" ++ Text.asBytes "\r\n" := by decide
  rw [connectRequest, RequestLine.bytes, RequestLine.text, hStart, hEnd]
  simp only [connectLine, Text.asBytes_append, List.append_assoc]

theorem plainHost_of_returned {st st' : ClientStream} (hCalm : st.input.Calm)
    (h : parseHttpTargetFromStream st = .ok target st') : PlainHost target.host := by
  obtain ⟨_, hRun, _⟩ := parseHttpTargetFromStream_of_calm hCalm
  rw [h] at hRun
  split at hRun
  · rename_i hTarget
    cases hRun
    exact plainHost_of_lineTarget hTarget
  · cases hRun

/-- The request comes back as the target it was made for exactly when its host is
part of a single token and has no colon. -/
theorem connectRequest_returns_iff {st : ClientStream} {rest : List UInt8}
    (hCalm : st.input.Calm) (hContent : st.input.content = connectRequest target ++ rest) :
    (∃ st', parseHttpTargetFromStream st = .ok target st') ↔ PlainHost target.host := by
  constructor
  · rintro ⟨st', hOk⟩
    exact plainHost_of_returned hCalm hOk
  · intro hPlain
    obtain ⟨st', hRun, _⟩ := parseHttpTargetFromStream_of_calm hCalm
    have hLine : lineOf 0x0a st.input.content = (connectLine target hPlain).bytes := by
      rw [hContent, connectRequest_eq hPlain, List.append_assoc]
      exact (connectLine target hPlain).lineOf_bytes _
    have hTarget : lineTarget (connectLine target hPlain).bytes = .ok target :=
      ((connectLine target hPlain).lineTarget_bytes.trans (if_pos rfl)).trans
        (parseConnectTarget_of_plain hPlain)
    rw [hLine, hTarget] at hRun
    exact ⟨st', hRun⟩

theorem connectRequest_returns_iff_name : ∃ st', parseHttpTargetFromStream
    (plainClient [connectRequest ⟨"example.com", 443⟩] .fresh) = .ok ⟨"example.com", 443⟩ st' :=
  (connectRequest_returns_iff (Inbound.calm_ofSegments _)
    (content_plainClient [connectRequest ⟨"example.com", 443⟩] .fresh)).mpr (by decide)

/-- The text of an IPv6 address is no host that the parser takes back. -/
theorem ipv6_request_refused : ParsedTarget ⟨"::1", 80⟩ ∧
    ¬∃ st', parseHttpTargetFromStream (plainClient [connectRequest ⟨"::1", 80⟩] .fresh) =
      .ok ⟨"::1", 80⟩ st' := by
  constructor
  · have hText : Ipv6Addr.toText ⟨#v[0, 0, 0, 0, 0, 0, 0, 0, 0, 0, 0, 0, 0, 0, 0, 1]⟩ = "::1" := by
      decide
    have hAddress := Socks5Address.ipv6 ⟨#v[0, 0, 0, 0, 0, 0, 0, 0, 0, 0, 0, 0, 0, 0, 0, 1]⟩
    rw [hText] at hAddress
    have hWord := Socks5Request.negotiated 0 [] rfl (.connect 0 0x04 hAddress 80)
    exact .of_socks5 hWord
  · rintro ⟨st', hRun⟩
    exact absurd (plainHost_of_returned (Inbound.calm_ofSegments _) hRun) (by decide)

end CrabbyProxy.Proxy
