import CrabbyProxy.Proxy.Sessions

/-!
# Sessions of length-prefixed targets

The first byte of the length is also what protocol detection looks at. Every
admissible length but 1024 starts with a byte that means no other protocol.
-/

namespace CrabbyProxy.Proxy

open CrabbyProxy.Stream
set_option autoImplicit false

variable {env : Environment} {state : AppState} {client : ClientStream} {host : String}
  {port : UInt16} {payload : List UInt8} {length : UInt16}

theorem hostPortTarget_targetAddr (target : ProxyTarget) (h : ':' ∉ target.host.toList) :
    hostPortTarget (targetAddr target) = .ok target := by
  have hColon : ':' ∉ (Text.portText target.port).toList := fun hMem =>
    absurd (Text.isDigit_portText hMem) (by decide)
  have hSplit : Text.split (targetAddr target) ':' = [target.host, Text.portText target.port] := by
    rw [targetAddr, ← Text.singleton_colon]
    exact Text.split_append h hColon
  exact hostPortTarget_pair hSplit (Text.parseU16_portText _)

/-- What the client of a length-prefixed target is promised. -/
def ServedAsTcp (handled : Handled) (host : String) (port : UInt16) (payload : List UInt8) : Prop :=
  ∃ session, handled = .served session ∧ session.protocol = .tcp ∧
    session.Delivers host port payload

theorem lengthPrefixed_targetAddr (h : ':' ∉ host.toList)
    (hLength : (Text.asBytes (targetAddr ⟨host, port⟩)).length = length.toNat)
    (hMax : length.toNat ≤ 1024) :
    LengthPrefixed (u16ToBeBytes length ++ Text.asBytes (targetAddr ⟨host, port⟩)) ⟨host, port⟩ := by
  refine .text length _ hLength ?_ hMax (hostPortTarget_targetAddr ⟨host, port⟩ h)
  rw [← hLength, targetAddr]
  exact Text.length_asBytes_colon_pos _ _

/-- A request of admissible length is served as it says, unless its length is 1024. -/
theorem handleClient_target_iff (hCreds : state.requireCreds = false)
    (hPlain : client.transport = .plain) (hClient : Steady client) (hHost : ':' ∉ host.toList)
    (hLength : (Text.asBytes (targetAddr ⟨host, port⟩)).length = length.toNat)
    (hMax : length.toNat ≤ 1024)
    (hContent : client.input.content =
      u16ToBeBytes length ++ Text.asBytes (targetAddr ⟨host, port⟩) ++ payload)
    (hReach : Reachable env host port) (hTurns : FairFor env client.input.content.length) :
    ServedAsTcp (handleClient env state client) host port payload ↔ length.toNat ≠ 1024 := by
  have hWord := lengthPrefixed_targetAddr hHost hLength hMax
  obtain ⟨high, low, hBytes, rfl⟩ := exists_bytes_of_u16 length
  rw [hBytes] at hContent hWord
  rw [toNat_u16FromBeBytes] at hMax ⊢
  have hHigh : high.toNat ≤ 4 := by omega
  have hSmall : high < 0x20 := UInt8.lt_iff_toNat_lt.mpr (by
    show high.toNat < 32
    omega)
  have hTls : high ≠ 0x16 := by
    rintro rfl
    exact absurd hHigh (by decide)
  have hSocks5 : high ≠ 0x05 := by
    rintro rfl
    exact absurd hHigh (by decide)
  obtain ⟨hNotTls, hProtocol⟩ := protocol_of_head hClient hContent hSmall hTls
  rw [if_neg hSocks5] at hProtocol
  constructor
  · rintro ⟨session, hServed, hTcp, _⟩ hLast
    obtain rfl : high = 0x04 := by
      apply UInt8.toNat_inj.mp
      show high.toNat = 4
      have hLow := low.toNat_lt
      omega
    have hSocks4 := (handleClient_protocol hCreds hPlain hClient hNotTls hServed).trans hProtocol
    rw [hTcp] at hSocks4
    cases hSocks4
  · intro hLast
    have hSocks4 : high ≠ 0x04 := by
      rintro rfl
      have hFour : (0x04 : UInt8).toNat = 4 := rfl
      omega
    rw [if_neg hSocks4] at hProtocol
    obtain ⟨st, hRun, hRest, _⟩ := denotes_parseTarget.complete
      ((steady_parsed hClient).healthy true) ⟨hWord, rfl⟩ ((content_parsed client).trans hContent)
    obtain ⟨session, hServed, hSession⟩ :=
      (handleClient_delivers_iff hCreds hPlain hClient hNotTls hReach hTurns).mpr
        ⟨st, by rw [hProtocol]; exact hRun, hRest⟩
    exact ⟨session, hServed,
      (handleClient_protocol hCreds hPlain hClient hNotTls hServed).trans hProtocol, hSession⟩

/-- A length-prefixed target is served for every length but 1024, however the
bytes arrive. -/
theorem target_served_iff (hCreds : state.requireCreds = false) (hHost : ':' ∉ host.toList)
    (hLength : (Text.asBytes (targetAddr ⟨host, port⟩)).length = length.toNat)
    (hMax : length.toNat ≤ 1024) {segments : List (List UInt8)} {output : Outbound}
    (hBytes : segments.flatten =
      u16ToBeBytes length ++ Text.asBytes (targetAddr ⟨host, port⟩) ++ payload)
    (hOpen : output.Open) (hCloses : output.closes = true) (hReach : Reachable env host port)
    (hTurns : FairFor env segments.flatten.length) :
    ServedAsTcp (handleClient env state (plainClient segments output)) host port payload ↔
      length.toNat ≠ 1024 := by
  rw [← content_plainClient segments output] at hBytes hTurns
  exact handleClient_target_iff hCreds rfl (steady_plainClient hOpen hCloses) hHost hLength hMax
    hBytes hReach hTurns

theorem target_served_iff_short :
    ServedAsTcp (handleClient (quietWorld 16) ⟨false, none, none, none⟩
      (plainClient [[0, 4], [97, 58, 56], [48, 33]] .fresh)) "a" 80 [33] ↔ (4 : UInt16).toNat ≠ 1024 :=
  target_served_iff rfl (by decide) (by decide) (by decide) (by decide) rfl rfl
    (reachable_quietWorld _ _ _) (fairFor_quietWorld 7)

/-- A text of 1024 bytes opens with the byte of SOCKS4 and is served by no one. -/
theorem target_of_1024_bytes_not_served :
    ¬∀ env state host port length payload segments output, AppState.requireCreds state = false →
      ':' ∉ String.toList host →
      (Text.asBytes (targetAddr ⟨host, port⟩)).length = UInt16.toNat length →
      length.toNat ≤ 1024 →
      segments.flatten =
        u16ToBeBytes length ++ Text.asBytes (targetAddr ⟨host, port⟩) ++ payload →
      Outbound.Open output → output.closes = true → Reachable env host port →
      FairFor env segments.flatten.length →
      ServedAsTcp (handleClient env state (plainClient segments output)) host port payload := by
  intro hAll
  let host := String.ofList (List.replicate 1019 'a')
  have hHost : ':' ∉ host.toList := by
    rw [String.toList_ofList]
    intro hColon
    exact absurd (List.eq_of_mem_replicate hColon) (by decide)
  have hLength : (Text.asBytes (targetAddr ⟨host, 8080⟩)).length = (1024 : UInt16).toNat := by
    rw [targetAddr, Text.asBytes_append, Text.asBytes_append, List.length_append,
      List.length_append, Text.length_asBytes_replicate]
    decide
  let bytes := u16ToBeBytes 1024 ++ Text.asBytes (targetAddr ⟨host, 8080⟩) ++ [0x21]
  have hBytes : [bytes].flatten = bytes := by simp
  have hServed := hAll (quietWorld (2 * [bytes].flatten.length + 2)) ⟨false, none, none, none⟩ host
    8080 1024 [0x21] [bytes] .fresh rfl hHost hLength (by decide) hBytes rfl rfl
    (reachable_quietWorld _ _ _) (fairFor_quietWorld _)
  rw [← content_plainClient [bytes] .fresh] at hBytes
  exact (handleClient_target_iff rfl rfl (steady_freshClient _) hHost hLength (by decide)
    hBytes (reachable_quietWorld _ _ _)
    (by rw [content_plainClient]; exact fairFor_quietWorld _)).mp hServed rfl

end CrabbyProxy.Proxy
