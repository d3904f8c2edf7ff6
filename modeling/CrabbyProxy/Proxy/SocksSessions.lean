import CrabbyProxy.Proxy.Sessions

/-!
# SOCKS sessions

The SOCKS parsers accept exactly their request formats, and a session that
starts with a request connects to its target and relays exactly what follows.
-/

namespace CrabbyProxy.Proxy

open CrabbyProxy.Stream
set_option autoImplicit false

variable {env : Environment} {state : AppState} {client : ClientStream} {target : ProxyTarget}
  {request payload : List UInt8}

theorem parseSocks4Target_iff {st : ClientStream} (hTimed : st.timed = false)
    (hOpen : st.output.Open) {rest : List UInt8} :
    (∃ st', parseSocks4Target st = .ok target st' ∧ st'.input.content = rest) ↔
      ∃ request, Socks4Request request target ∧ st.input.content = request ++ rest := by
  have hHealthy : Healthy false st := ⟨by rw [hTimed]; exact nofun, hOpen⟩
  exact denotes_parseSocks4Target.returns_iff hHealthy

theorem parseSocks5Target_iff {st : ClientStream} (hTimed : st.timed = false)
    (hOpen : st.output.Open) {rest : List UInt8} :
    (∃ st', parseSocks5Target st = .ok target st' ∧ st'.input.content = rest) ↔
      ∃ request, Socks5Request request target ∧ st.input.content = request ++ rest := by
  have hHealthy : Healthy false st := ⟨by rw [hTimed]; exact nofun, hOpen⟩
  exact denotes_parseSocks5Target.returns_iff hHealthy

/-- A request of either kind, followed by a payload, is served as it should be. -/
theorem handleClient_socks (hCreds : state.requireCreds = false)
    (hPlain : client.transport = .plain) (hTimed : client.timed = false) (hClient : Steady client)
    (hRequest : Socks4Request request target ∨ Socks5Request request target)
    (hContent : client.input.content = request ++ payload)
    (hReach : Reachable env target.host target.port)
    (hTurns : FairFor env client.input.content.length) :
    (handleClient env state client).Delivers target.host target.port payload := by
  have hParsed : (parsed client).input.content = request ++ payload :=
    (content_parsed client).trans hContent
  have hOpen := (steady_parsed hClient).writable
  obtain hRequest | hRequest := hRequest
  · obtain ⟨rest, rfl⟩ := socks4_head hRequest
    obtain ⟨hTls, hProtocol⟩ := protocol_of_head hClient hContent (by decide) (by decide)
    rw [handleClient_delivers_iff hCreds hPlain hClient hTls hReach hTurns, hProtocol]
    exact (@parseSocks4Target_iff _ (parsed client) hTimed hOpen _).mpr ⟨_, hRequest, hParsed⟩
  · obtain ⟨rest, rfl⟩ := socks5_head hRequest
    obtain ⟨hTls, hProtocol⟩ := protocol_of_head hClient hContent (by decide) (by decide)
    rw [handleClient_delivers_iff hCreds hPlain hClient hTls hReach hTurns, hProtocol]
    exact (@parseSocks5Target_iff _ (parsed client) hTimed hOpen _).mpr ⟨_, hRequest, hParsed⟩

/-- The parsers accept exactly the two request formats and leave exactly what
follows; a session hands over target and payload, however the bytes arrive. -/
theorem socks_exact :
    (∀ (st : ClientStream) target rest, st.timed = false → st.output.Open →
      ((∃ st', parseSocks4Target st = .ok target st' ∧ st'.input.content = rest) ↔
        ∃ request, Socks4Request request target ∧ st.input.content = request ++ rest) ∧
      ((∃ st', parseSocks5Target st = .ok target st' ∧ st'.input.content = rest) ↔
        ∃ request, Socks5Request request target ∧ st.input.content = request ++ rest)) ∧
    ∀ env state target request payload segments output, AppState.requireCreds state = false →
      Socks4Request request target ∨ Socks5Request request target →
      segments.flatten = request ++ payload → Outbound.Open output → output.closes = true →
      Reachable env target.host target.port → FairFor env segments.flatten.length →
      (handleClient env state (plainClient segments output)).Delivers target.host target.port
        payload := by
  refine ⟨fun st target rest hTimed hOpen =>
    ⟨parseSocks4Target_iff hTimed hOpen, parseSocks5Target_iff hTimed hOpen⟩, ?_⟩
  intro env state target request payload segments output hCreds hRequest hBytes hOpen hCloses
    hReach hTurns
  rw [← content_plainClient segments output] at hBytes hTurns
  exact handleClient_socks hCreds rfl rfl (steady_plainClient hOpen hCloses) hRequest hBytes hReach
    hTurns

theorem socks_exact_socks4 :
    (handleClient (quietWorld 26) ⟨false, none, none, none⟩
      (plainClient [[4, 1, 0], [80, 127, 0, 0], [1, 117, 0, 104], [105]] .fresh)).Delivers
        "127.0.0.1" 80 [104, 105] :=
  socks_exact.2 _ _ ⟨"127.0.0.1", 80⟩ [4, 1, 0, 80, 127, 0, 0, 1, 117, 0] _ _ _ rfl
    (.inl (.connect 80 ⟨#v[127, 0, 0, 1]⟩ [117] (by decide))) rfl rfl rfl
    (reachable_quietWorld _ _ _) (fairFor_quietWorld 12)

end CrabbyProxy.Proxy
