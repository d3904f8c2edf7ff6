import CrabbyProxy.Library.Lines
import CrabbyProxy.Proxy.LengthPrefix
import CrabbyProxy.Proxy.RequestLine

/-!
# Requests that are to be forwarded

The request line of a GET and of its kin is read for its target and not put
back. The target is sent a request only if the rest of some header line that may
be dropped happens to be the request line again.
-/

namespace CrabbyProxy.Proxy

open CrabbyProxy.Stream
set_option autoImplicit false

/-- A request for an absolute URL. The header lines are kept without their newline. -/
structure ForwardRequest extends RequestLine where
  headers : List (List UInt8)
  body : List UInt8
  target : ProxyTarget
  forwarded : method ≠ "CONNECT"
  header_lines : ∀ header ∈ headers, 0x0a ∉ header ∧
    ∃ name value, 0x20 ∉ name ∧ header = name ++ 0x3a :: value
  accepted : parseHttpTarget url = .ok target

namespace ForwardRequest

/-- The header lines and the empty line after them. -/
def headerLines (request : ForwardRequest) : List (List UInt8) := request.headers ++ [[0x0d]]

def bytes (request : ForwardRequest) : List UInt8 :=
  request.toRequestLine.bytes ++ (terminated 0x0a request.headerLines ++ request.body)

/-- What follows the authority in the URL. -/
def path (request : ForwardRequest) : String :=
  match (request.url.toList.drop 7).dropWhile (· ≠ '/') with
  | [] => "/"
  | path => String.ofList path

/-- A request line with the method and the URL or path of this request. -/
def Repeats (request : ForwardRequest) (line : List UInt8) : Prop :=
  ∃ url version, (url = request.url ∨ url = request.path) ∧
    line = Text.asBytes (request.method ++ (" " ++ (url ++ " " ++ version)))

/-- These bytes contain the request, but for header lines that end at the proxy. -/
def ContainedIn (request : ForwardRequest) (endToEnd : List UInt8 → Bool) (sent : List UInt8) :
    Prop :=
  ∃ before line fields, request.Repeats line ∧
    (∀ other ∈ before ++ line :: fields, 0x0a ∉ other) ∧
    (request.headers.filter endToEnd).Sublist fields ∧
    sent = terminated 0x0a (before ++ line :: (fields ++ [[0x0d]])) ++ request.body

/-- After this many bytes behind the request line, inside a header line that like
those before it may be dropped, the request line is repeated. -/
def ResumesAt (request : ForwardRequest) (endToEnd : List UInt8 → Bool) (n : Nat) : Prop :=
  ∃ gone header fields offset, request.headers = gone ++ header :: fields ∧
    (∀ dropped ∈ gone ++ [header], endToEnd dropped = false) ∧ offset ≤ header.length ∧
    request.Repeats (header.drop offset) ∧ n = (terminated 0x0a gone).length + offset

variable {request : ForwardRequest} {endToEnd : List UInt8 → Bool}

theorem not_repeats_header {header : List UInt8} (h : header ∈ request.headers) :
    ¬request.Repeats header := by
  rintro ⟨url, version, _, hLine⟩
  obtain ⟨name, value, hName, rfl⟩ := (request.header_lines _ h).2
  have hSpace : Text.asBytes " " = [0x20] := by decide
  have hColon : (0x3a : UInt8) ∉ Text.asBytes request.method := by
    have hAll : ∀ method ∈ ["GET", "POST", "PUT", "HEAD", "DELETE", "CONNECT"],
      (0x3a : UInt8) ∉ Text.asBytes method := by decide
    exact hAll _ request.method_known
  rw [Text.asBytes_append, Text.asBytes_append, hSpace] at hLine
  obtain ⟨more, hMethod, hRest⟩ | ⟨more, hNames, hRest⟩ := List.append_eq_append_iff.mp hLine
  · cases more with
    | nil => exact absurd (List.cons.inj hRest).1 (by decide)
    | cons b more =>
      rw [hMethod, ← (List.cons.inj hRest).1] at hColon
      exact hColon (List.mem_append_right _ List.mem_cons_self)
  · cases more with
    | nil => exact absurd (List.cons.inj hRest).1 (by decide)
    | cons b more =>
      rw [hNames, ← (List.cons.inj hRest).1] at hName
      exact hName (List.mem_append_right _ List.mem_cons_self)

theorem headerLines_clean : ∀ line ∈ request.headerLines, (0x0a : UInt8) ∉ line := by
  intro line hLine
  obtain hHeader | hLast := List.mem_append.mp hLine
  · exact (request.header_lines line hHeader).1
  · rw [List.mem_singleton.mp hLast]
    decide

theorem filter_sublist_iff {gone fields : List (List UInt8)} :
    ((gone ++ fields).filter endToEnd).Sublist fields ↔
      ∀ dropped ∈ gone, endToEnd dropped = false := by
  constructor
  · intro hSub dropped hDropped
    have hCount : _ ≤ fields.countP endToEnd := hSub.countP_le
    simp only [List.countP_filter, Bool.and_self, List.countP_append] at hCount
    have hZero : gone.countP endToEnd = 0 := Nat.le_zero.mp (Nat.le_of_add_le_add_right
      (hCount.trans (Nat.le_of_eq (Nat.zero_add _).symm)))
    have hNone := List.countP_eq_zero.mp hZero dropped hDropped
    exact Bool.not_eq_true _ ▸ hNone
  · intro hGone
    have hNone : gone.filter endToEnd = [] :=
      List.filter_eq_nil_iff.mpr fun dropped hDropped => by simp [hGone dropped hDropped]
    rw [List.filter_append, hNone]
    exact List.filter_sublist

theorem containedIn_drop_iff (n : Nat) :
    request.ContainedIn endToEnd
        ((terminated 0x0a request.headerLines ++ request.body).drop n) ↔
      request.ResumesAt endToEnd n := by
  constructor
  · rintro ⟨before, line, fields, hLine, hClean, hFields, hSent⟩
    have hShort : n < (terminated 0x0a request.headerLines).length := by
      have hLength := congrArg List.length hSent
      simp only [List.length_drop, List.length_append, terminated_append, terminated_cons,
        List.length_cons] at hLength
      omega
    rw [List.drop_append_of_le_length (Nat.le_of_lt hShort)] at hSent
    obtain ⟨gone, header, after, offset, hLines, hOffset, rfl, hDrop⟩ := drop_terminated hShort
    rw [hDrop] at hSent
    have hHeaderClean := request.headerLines_clean
    rw [hLines] at hHeaderClean
    have hLeft := terminated_inj (fun other hOther => ?_) (fun other hOther => ?_)
      (List.append_cancel_right hSent)
    · cases before with
      | nil =>
        obtain ⟨rfl, rfl⟩ := List.cons.inj hLeft
        have hHeaders : request.headers = gone ++ header :: fields :=
          List.append_cancel_right (hLines.trans (by simp))
        refine ⟨gone, header, fields, offset, hHeaders, ?_, hOffset, hLine, rfl⟩
        rw [hHeaders, List.append_cons] at hFields
        exact filter_sublist_iff.mp hFields
      | cons first before =>
        obtain ⟨_, rfl⟩ := List.cons.inj hLeft
        have hHeaders : request.headers = gone ++ header :: (before ++ line :: fields) :=
          List.append_cancel_right (hLines.trans (by simp))
        exact absurd hLine (not_repeats_header (by rw [hHeaders]; simp))
    · obtain rfl | hAfter := List.mem_cons.mp hOther
      · exact fun hMem => hHeaderClean header (by simp) (List.mem_of_mem_drop hMem)
      · exact hHeaderClean other (by simp [hAfter])
    · rw [List.append_cons, ← List.append_assoc, List.mem_append] at hOther
      obtain hOther | hLast := hOther
      · exact hClean other (by simpa using hOther)
      · rw [List.mem_singleton.mp hLast]
        decide
  · rintro ⟨gone, header, fields, offset, hHeaders, hGone, hOffset, hLine, rfl⟩
    have hHeaderClean := request.header_lines
    refine ⟨[], header.drop offset, fields, hLine, fun other hOther => ?_, ?_, ?_⟩
    · obtain rfl | hField := List.mem_cons.mp hOther
      · exact fun hMem => (hHeaderClean header (by simp [hHeaders])).1 (List.mem_of_mem_drop hMem)
      · exact (hHeaderClean other (by simp [hHeaders, hField])).1
    · rw [hHeaders, List.append_cons]
      exact filter_sublist_iff.mpr hGone
    · have hLines : request.headerLines = gone ++ header :: (fields ++ [[0x0d]]) := by
        simp [headerLines, hHeaders]
      have hWithin : (terminated 0x0a gone).length + offset ≤
          (terminated 0x0a request.headerLines).length := by
        simp only [hLines, terminated_append, terminated_cons, List.length_append]
        omega
      rw [List.drop_append_of_le_length hWithin, hLines, drop_terminated_append gone _ hOffset]
      rfl

theorem lineTarget_bytes (request : ForwardRequest) :
    lineTarget request.toRequestLine.bytes = .ok request.target := by
  rw [request.toRequestLine.lineTarget_bytes, if_neg request.forwarded, request.accepted]

/-- The session connects to the origin and sends it the request. -/
def Reaches (request : ForwardRequest) (endToEnd : List UInt8 → Bool) (handled : Handled) : Prop :=
  ∃ sent, handled.Delivers request.target.host request.target.port sent ∧
    request.ContainedIn endToEnd sent

end ForwardRequest

variable {env : Environment} {state : AppState} {client : ClientStream}

/-- The length prefix of plain TCP does not start with a letter. -/
theorem not_delivers_of_letter (hCreds : state.requireCreds = false)
    (hPlain : client.transport = .plain) (hClient : Steady client) {b : UInt8}
    {rest payload : List UInt8} (hContent : client.input.content = b :: rest) (hb : 0x20 ≤ b)
    (hTcp : sessionProtocol client = .tcp) {host : String} {port : UInt16}
    (hReach : Reachable env host port) (hTurns : FairFor env client.input.content.length) :
    ¬(handleClient env state client).Delivers host port payload := by
  obtain ⟨hTls, _⟩ := protocol_of_letter hClient hContent hb
  rw [handleClient_delivers_iff hCreds hPlain hClient hTls hReach hTurns, hTcp]
  rintro ⟨st, hParse, _⟩
  obtain ⟨taken, _, ⟨hWord, _⟩, hTaken, _⟩ := denotes_parseTarget.sound hParse
  obtain ⟨high, more, rfl, hHigh⟩ := lengthPrefixed_head hWord
  rw [content_parsed, hContent] at hTaken
  obtain rfl := (List.cons.inj hTaken).1
  have hLetter : 0x20 ≤ b.toNat := UInt8.le_iff_toNat_le.mp hb
  omega

theorem handleClient_forward_iff (hCreds : state.requireCreds = false) (request : ForwardRequest)
    (endToEnd : List UInt8 → Bool) (hPlain : client.transport = .plain) (hClient : Steady client)
    (hContent : client.input.content = request.bytes)
    (hReach : Reachable env request.target.host request.target.port)
    (hTurns : FairFor env client.input.content.length) :
    request.Reaches endToEnd (handleClient env state client) ↔
      sessionProtocol client = .http ∧
        ∃ n, lineCover (parsed client) = request.toRequestLine.bytes.length + n ∧
          request.ResumesAt endToEnd n := by
  obtain ⟨magic, hMagic, more, hStart⟩ := request.toRequestLine.magic_isPrefix
    (terminated 0x0a request.headerLines ++ request.body)
  obtain ⟨hLength, hLetters⟩ := httpMagic_bounds hMagic
  obtain ⟨b, letters, rfl⟩ := List.exists_cons_of_length_pos (show 0 < magic.length by omega)
  have hHead : client.input.content = b :: (letters ++ more) := hContent.trans hStart.symm
  have hb := hLetters b List.mem_cons_self
  obtain ⟨hTls, hHttp | hTcp⟩ := protocol_of_letter hClient hHead hb
  · have hLine : lineOf 0x0a client.input.content = request.toRequestLine.bytes := by
      rw [hContent]
      exact request.toRequestLine.lineOf_bytes _
    have hCover := le_lineCover (steady_parsed hClient).calm
    rw [content_parsed, hLine] at hCover
    obtain ⟨n, hn⟩ := Nat.exists_eq_add_of_le hCover
    have hRest : client.input.content.drop (lineCover (parsed client)) =
        (terminated 0x0a request.headerLines ++ request.body).drop n := by
      rw [hn, hContent, ForwardRequest.bytes, List.drop_length_add_append]
    have hDelivers : ∀ sent, (handleClient env state client).Delivers request.target.host
        request.target.port sent ↔
          (terminated 0x0a request.headerLines ++ request.body).drop n = sent := by
      intro sent
      rw [handleClient_http_delivers_iff hCreds hPlain hClient hTls hHttp hReach hTurns, hLine,
        request.lineTarget_bytes, hRest]
      exact and_iff_right rfl
    constructor
    · rintro ⟨sent, hSent, hContained⟩
      obtain rfl := (hDelivers sent).mp hSent
      exact ⟨hHttp, n, hn, (request.containedIn_drop_iff n).mp hContained⟩
    · rintro ⟨_, k, hk, hResumes⟩
      obtain rfl : n = k := by omega
      exact ⟨_, (hDelivers _).mpr rfl, (request.containedIn_drop_iff n).mpr hResumes⟩
  · constructor
    · rintro ⟨sent, hDelivers, _⟩
      exact absurd hDelivers
        (not_delivers_of_letter hCreds hPlain hClient hHead hb hTcp hReach hTurns)
    · rintro ⟨hHttp, _⟩
      rw [hTcp] at hHttp
      cases hHttp

/-- The origin is sent the request if and only if the second look at the stream
finds HTTP and the reads that bring the request line stop where it is repeated. -/
theorem forward_reaches_iff (hCreds : state.requireCreds = false) (request : ForwardRequest)
    (endToEnd : List UInt8 → Bool) {segments : List (List UInt8)} {output : Outbound}
    (hBytes : segments.flatten = request.bytes) (hOpen : output.Open)
    (hCloses : output.closes = true)
    (hReach : Reachable env request.target.host request.target.port)
    (hTurns : FairFor env segments.flatten.length) :
    request.Reaches endToEnd (handleClient env state (plainClient segments output)) ↔
      sessionProtocol (plainClient segments output) = .http ∧
        ∃ n, lineCover (parsed (plainClient segments output)) =
            request.toRequestLine.bytes.length + n ∧ request.ResumesAt endToEnd n := by
  rw [← content_plainClient segments output] at hBytes hTurns
  exact handleClient_forward_iff hCreds request endToEnd rfl (steady_plainClient hOpen hCloses)
    hBytes hReach hTurns

/-- `GET http://a/ HTTP/1.1` without header lines. -/
def plainGet : ForwardRequest where
  method := "GET"
  url := "http://a/"
  version := "HTTP/1.1"
  headers := []
  body := []
  target := ⟨"a", 80⟩
  method_known := by decide
  url_ne := by decide
  url_token := Text.not_isWhitespace_of_all (by decide)
  version_line := http11_line
  forwarded := by decide
  header_lines := nofun
  accepted := by decide

theorem forward_reaches_iff_split :
    ¬plainGet.Reaches (fun _ => true) (handleClient (quietWorld 54) ⟨false, none, none, none⟩
      (plainClient [plainGet.bytes.take 9, plainGet.bytes.drop 9] .fresh)) := by
  rw [forward_reaches_iff rfl plainGet _ (by decide) Outbound.open_fresh rfl (reachable_quietWorld _ _ _)
    (fairFor_quietWorld 26)]
  rintro ⟨_, n, _, gone, header, fields, _, hHeaders, _⟩
  exact absurd hHeaders (by simp [plainGet])

/-- An ordinary request never gets to its origin. -/
theorem forward_drops_request :
    ¬∀ env state request endToEnd segments output, AppState.requireCreds state = false →
      segments.flatten = ForwardRequest.bytes request → Outbound.Open output →
      output.closes = true → Reachable env request.target.host request.target.port →
      FairFor env segments.flatten.length →
      request.Reaches endToEnd (handleClient env state (plainClient segments output)) := by
  intro hAll
  have hBytes : [plainGet.bytes].flatten = plainGet.bytes := by simp
  have hReaches := hAll (quietWorld 54) ⟨false, none, none, none⟩ plainGet (fun _ => true)
    [plainGet.bytes] .fresh rfl hBytes rfl rfl (reachable_quietWorld _ _ _) (fairFor_quietWorld 26)
  rw [← content_plainClient [plainGet.bytes] .fresh] at hBytes
  obtain ⟨_, n, _, gone, header, fields, _, hHeaders, _⟩ :=
    (handleClient_forward_iff rfl plainGet _ rfl (steady_freshClient _)
      hBytes (reachable_quietWorld _ _ _) (fairFor_quietWorld 26)).mp hReaches
  exact absurd hHeaders (by simp [plainGet])

end CrabbyProxy.Proxy
