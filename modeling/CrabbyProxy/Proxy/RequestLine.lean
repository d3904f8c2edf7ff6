import CrabbyProxy.Proxy.Sessions

/-!
# HTTP sessions

An HTTP session goes where its first line says and relays what the buffered
reads that brought this line have left in the stream.
-/

namespace CrabbyProxy.Proxy

open CrabbyProxy.Stream
set_option autoImplicit false

/-- What the bytes of a request line name. -/
def lineTarget (line : List UInt8) : Except IoError ProxyTarget :=
  match Text.fromUtf8 line with
  | some text => requestLineTarget text
  | none => .error ⟨.invalidData, "stream did not contain valid UTF-8"⟩

/-- How many bytes leave the stream for the buffer while its first line is read. -/
def lineCover (st : ClientStream) : Nat :=
  st.input.cover st.timed BufReader.capacity (lineOf 0x0a st.input.content).length

theorem parseHttpTargetFromStream_of_calm {st : ClientStream} (hCalm : st.input.Calm) :
    ∃ st', parseHttpTargetFromStream st = (match lineTarget (lineOf 0x0a st.input.content) with
        | .ok target => .ok target st'
        | .error e => .error (.io e) st') ∧
      st'.input.content = st.input.content.drop (lineCover st) := by
  obtain ⟨left, st', hRun, hContent, _⟩ := BufReader.readLine_of_calm hCalm
  refine ⟨st', ?_, hContent⟩
  unfold lineTarget
  cases hText : Text.fromUtf8 (lineOf 0x0a st.input.content) with
  | none =>
    rw [hText] at hRun
    exact bind_error hRun
  | some text =>
    rw [hText] at hRun
    rw [parseHttpTargetFromStream, bind_ok hRun]
    dsimp only
    cases requestLineTarget text <;> rfl

theorem lineCover_le (st : ClientStream) : lineCover st ≤ st.input.content.length :=
  Inbound.coverRounds_le _ _ _ _ _

theorem le_lineCover {st : ClientStream} (hCalm : st.input.Calm) :
    (lineOf 0x0a st.input.content).length ≤ lineCover st :=
  Inbound.le_cover st.timed hCalm (by decide) (lineOf_isPrefix _ _).length_le

variable {env : Environment} {state : AppState} {client : ClientStream} {host : String}
  {port : UInt16} {payload : List UInt8}

theorem handleClient_http_delivers_iff (hCreds : state.requireCreds = false)
    (hPlain : client.transport = .plain) (hClient : Steady client)
    (hTls : detectProtocol (fill 4 (glance 4 client).1) ≠ .https)
    (hHttp : sessionProtocol client = .http) (hReach : Reachable env host port)
    (hTurns : FairFor env client.input.content.length) :
    (handleClient env state client).Delivers host port payload ↔
      lineTarget (lineOf 0x0a client.input.content) = .ok ⟨host, port⟩ ∧
        client.input.content.drop (lineCover (parsed client)) = payload := by
  rw [handleClient_delivers_iff hCreds hPlain hClient hTls hReach hTurns, hHttp]
  obtain ⟨st, hRun, hContent⟩ := parseHttpTargetFromStream_of_calm (steady_parsed hClient).calm
  rw [content_parsed] at hRun hContent
  show (∃ st, parseHttpTargetFromStream (parsed client) = _ ∧ _) ↔ _
  rw [hRun]
  cases lineTarget (lineOf 0x0a client.input.content) with
  | error e => exact ⟨nofun, nofun⟩
  | ok target =>
    constructor
    · rintro ⟨_, hOk, hRest⟩
      cases hOk
      exact ⟨rfl, hContent.symm.trans hRest⟩
    · rintro ⟨hTarget, hRest⟩
      cases hTarget
      exact ⟨st, rfl, hContent.trans hRest⟩

section Detection

variable {τ : Type}

/-- With enough bytes at hand, a glance sees as many as it asks for. -/
theorem glance_of_arrived {n : Nat} {st : Duplex τ} (hn : 0 < n)
    (h : n ≤ st.input.arrive.ready.length) :
    (glance n st).1 = st.input.content.take n ∧ n ≤ (glance n st).2.input.ready.length := by
  have hReady : st.input.arrive.ready ≠ [] := List.length_pos_iff.mp (by omega)
  have hPoll : st.input.poll true = (.ready, st.input.arrive) := if_neg hReady
  unfold glance Inbound.peek
  rw [hPoll]
  refine ⟨?_, h⟩
  rw [← st.input.arrive_content, Inbound.content, List.take_append_of_le_length h]

theorem arrived_of_ready {n : Nat} {s : Inbound} (h : n ≤ s.ready.length) :
    n ≤ s.arrive.ready.length := by
  unfold Inbound.arrive
  split
  · rw [List.length_append]
    exact Nat.le_add_right_of_le h
  · exact h

theorem detectProtocol_of_magic {magic : List UInt8} (h : magic ∈ httpMagics) :
    detectProtocol (fill 4 magic) = .http := by
  refine if_pos (List.any_eq_true.mpr ⟨magic, h, ?_⟩)
  rw [toList_fill (httpMagic_bounds h).1]
  exact List.isPrefixOf_iff_prefix.mpr List.prefix_rfl

end Detection

/-- A stream whose first segment carries a whole magic word is an HTTP session. -/
theorem http_of_first_segment {segments : List (List UInt8)} (output : Outbound)
    {magic : List UInt8} (hMagic : magic ∈ httpMagics) (hBytes : magic <+: segments.flatten)
    (hFirst : 4 ≤ (segments.headD []).length) :
    detectProtocol (fill 4 (glance 4 (plainClient segments output)).1) = .http ∧
      sessionProtocol (plainClient segments output) = .http := by
  have hArrived : 4 ≤ (plainClient segments output).input.arrive.ready.length := by
    cases segments with
    | nil => exact hFirst
    | cons first rest => exact hFirst
  obtain ⟨hSeen, hReady⟩ := glance_of_arrived (by decide) hArrived
  obtain ⟨hSeenAgain, _⟩ := glance_of_arrived (n := 4) (by decide) (arrived_of_ready hReady)
  have hTake : segments.flatten.take 4 = magic := by
    have hPrefix := List.prefix_iff_eq_take.mp hBytes
    rw [(httpMagic_bounds hMagic).1] at hPrefix
    exact hPrefix.symm
  rw [content_plainClient, hTake] at hSeen
  rw [content_glance, content_plainClient, hTake] at hSeenAgain
  rw [sessionProtocol, hSeen, hSeenAgain]
  exact ⟨detectProtocol_of_magic hMagic, detectProtocol_of_magic hMagic⟩

theorem requestLineTarget_of_tokens {method url rest : String} (hMethod : method ≠ "")
    (hMethodSpace : ∀ c ∈ method.toList, Text.isWhitespace c = false) (hUrl : url ≠ "")
    (hUrlSpace : ∀ c ∈ url.toList, Text.isWhitespace c = false) :
    requestLineTarget (method ++ " " ++ (url ++ " " ++ rest)) =
      if method = "CONNECT" then parseConnectTarget url else parseHttpTarget url := by
  have hSpace : Text.isWhitespace ' ' = true := by decide
  rw [requestLineTarget, ← Text.singleton_space, Text.splitWhitespace_append hMethod hMethodSpace hSpace,
    Text.splitWhitespace_append hUrl hUrlSpace hSpace]

theorem lineOf_text {text : String} (h : '\n' ∉ text.toList) (rest : List UInt8) :
    lineOf 0x0a (Text.asBytes text ++ 0x0a :: rest) = Text.asBytes (text ++ "\n") := by
  have hNone : (Text.asBytes text).dropWhile (· ≠ 0x0a) = [] := by
    refine List.dropWhile_eq_nil_iff.mpr fun b hb => ?_
    rw [decide_eq_true_eq]
    rintro rfl
    exact Text.newline_notMem_asBytes h hb
  have hNewline : Text.asBytes "\n" = [0x0a] := by decide
  rw [lineOf_append _ hNone, Text.asBytes_append, hNewline]
  rfl

/-- The first line of a request. -/
structure RequestLine where
  method : String
  url : String
  version : String
  method_known : method ∈ ["GET", "POST", "PUT", "HEAD", "DELETE", "CONNECT"]
  url_ne : url ≠ ""
  url_token : ∀ c ∈ url.toList, Text.isWhitespace c = false
  version_line : '\n' ∉ version.toList

theorem http11_line : '\n' ∉ "HTTP/1.1".toList := by decide

namespace RequestLine

variable (line : RequestLine)

/-- The line up to its newline. -/
def text : String := line.method ++ " " ++ (line.url ++ " " ++ (line.version ++ "\r"))

def bytes : List UInt8 := Text.asBytes (line.text ++ "\n")

theorem method_ne : line.method ≠ "" := by
  intro hEmpty
  have hKnown := line.method_known
  rw [hEmpty] at hKnown
  exact absurd hKnown (by decide)

theorem method_token : ∀ c ∈ line.method.toList, Text.isWhitespace c = false := by
  have hAll : ∀ method ∈ ["GET", "POST", "PUT", "HEAD", "DELETE", "CONNECT"],
    (String.toList method).any Text.isWhitespace = false := by decide
  exact Text.not_isWhitespace_of_all (hAll _ line.method_known)

theorem newline_notMem : '\n' ∉ line.text.toList := by
  have hMethod : '\n' ∉ line.method.toList := fun hMem =>
    absurd (line.method_token _ hMem) (by decide)
  have hUrl : '\n' ∉ line.url.toList := fun hMem => absurd (line.url_token _ hMem) (by decide)
  have hVersion := line.version_line
  simp only [text, String.toList_append, List.mem_append, not_or]
  exact ⟨⟨hMethod, by decide⟩, ⟨hUrl, by decide⟩, hVersion, by decide⟩

theorem bytes_eq : line.bytes = Text.asBytes line.text ++ [0x0a] := by
  have hNewline : Text.asBytes "\n" = [0x0a] := by decide
  rw [bytes, Text.asBytes_append, hNewline]

theorem lineOf_bytes (rest : List UInt8) : lineOf 0x0a (line.bytes ++ rest) = line.bytes := by
  rw [bytes_eq, List.append_assoc]
  exact (lineOf_text line.newline_notMem rest).trans line.bytes_eq

theorem lineTarget_bytes : lineTarget line.bytes =
    if line.method = "CONNECT" then parseConnectTarget line.url else parseHttpTarget line.url := by
  have hEnd : "\r" ++ "\n" = "\r\n" := by decide
  have hText : line.text ++ "\n" =
      line.method ++ " " ++ (line.url ++ " " ++ (line.version ++ "\r\n")) := by
    rw [text, ← hEnd]
    simp only [String.append_assoc]
  rw [lineTarget, bytes, Text.fromUtf8_asBytes, hText]
  exact requestLineTarget_of_tokens line.method_ne line.method_token line.url_ne line.url_token

/-- Protocol detection knows the start of every such line. -/
theorem magic_isPrefix (rest : List UInt8) :
    ∃ magic ∈ httpMagics, magic <+: line.bytes ++ rest := by
  have hAll : ∀ method ∈ ["GET", "POST", "PUT", "HEAD", "DELETE", "CONNECT"],
      ∃ magic ∈ httpMagics, magic <+: Text.asBytes (method ++ " ") := by decide
  obtain ⟨magic, hMagic, hPrefix⟩ := hAll _ line.method_known
  refine ⟨magic, hMagic, hPrefix.trans ?_⟩
  rw [bytes, text]
  simp only [Text.asBytes_append, List.append_assoc]
  exact List.prefix_append_right_inj _ |>.mpr (List.prefix_append _ _)

end RequestLine

end CrabbyProxy.Proxy
