import CrabbyProxy.Proxy.RequestLine

/-!
# What a stream asks for

Under every protocol but HTTPS the bytes alone decide which target they name,
however they arrive. Reading that target takes at least one of them.
-/

namespace CrabbyProxy.Proxy

open CrabbyProxy.Stream
set_option autoImplicit false

/-- The bytes open with a request for this target. HTTPS has no such request: it
goes by the bytes that happen to be there. -/
def Names (bytes : List UInt8) (target : ProxyTarget) : ProxyProtocol → Prop
  | .http => lineTarget (lineOf 0x0a bytes) = .ok target
  | .socks4 => ∃ request, Socks4Request request target ∧ request <+: bytes
  | .socks5 => ∃ request, Socks5Request request target ∧ request <+: bytes
  | .tcp => ∃ request, LengthPrefixed request target ∧ request <+: bytes
  | .https => False

variable {protocol : ProxyProtocol} {target : ProxyTarget}

theorem parse_names_iff {st : ClientStream} (hProtocol : protocol ≠ .https) (h : Steady st) :
    (∃ st', parseTargetByProtocol protocol st = .ok target st') ↔
      Names st.input.content target protocol := by
  cases protocol with
  | tcp => exact denotes_parseTarget.succeeds_iff (h.healthy true)
  | socks4 => exact denotes_parseSocks4Target.succeeds_iff (h.healthy false)
  | socks5 => exact denotes_parseSocks5Target.succeeds_iff (h.healthy false)
  | https => exact absurd rfl hProtocol
  | http =>
    obtain ⟨left, hRun, _⟩ := parseHttpTargetFromStream_of_calm h.calm
    show (∃ st', parseHttpTargetFromStream st = .ok target st') ↔
      lineTarget (lineOf 0x0a st.input.content) = .ok target
    rw [hRun]
    cases lineTarget (lineOf 0x0a st.input.content) with
    | error e => exact ⟨nofun, nofun⟩
    | ok found =>
      constructor
      · rintro ⟨_, hOk⟩
        cases hOk
        rfl
      · intro hOk
        cases hOk
        exact ⟨left, rfl⟩

theorem lineTarget_nil : lineTarget [] = .error ⟨.invalidData, "Invalid HTTP request"⟩ := by
  decide

theorem parse_consumes {st st' : ClientStream} (hProtocol : protocol ≠ .https)
    (hCalm : st.input.Calm) (h : parseTargetByProtocol protocol st = .ok target st') :
    st'.input.content.length < st.input.content.length := by
  cases protocol with
  | tcp =>
    refine denotes_parseTarget.consumes (fun request hWord => ?_) h
    obtain ⟨_, _, rfl, _⟩ := lengthPrefixed_head hWord
    exact List.cons_ne_nil _ _
  | socks4 =>
    refine (@denotes_parseSocks4Target false).consumes (fun request hWord => ?_) h
    obtain ⟨_, rfl⟩ := socks4_head hWord
    exact List.cons_ne_nil _ _
  | socks5 =>
    refine (@denotes_parseSocks5Target false).consumes (fun request hWord => ?_) h
    obtain ⟨_, rfl⟩ := socks5_head hWord
    exact List.cons_ne_nil _ _
  | https => exact absurd rfl hProtocol
  | http =>
    obtain ⟨left, hRun, hContent⟩ := parseHttpTargetFromStream_of_calm hCalm
    have hParse : parseHttpTargetFromStream st = .ok target st' := h
    rw [hRun] at hParse
    have hBytes : st.input.content ≠ [] := by
      intro hNil
      rw [hNil, show lineOf 0x0a [] = [] from rfl, lineTarget_nil] at hParse
      cases hParse
    have hLine := List.length_pos_iff.mpr (lineOf_ne_nil 0x0a hBytes)
    have hCover := le_lineCover hCalm
    have hPos := List.length_pos_iff.mpr hBytes
    obtain rfl : left = st' := by
      cases hTarget : lineTarget (lineOf 0x0a st.input.content) with
      | error e =>
        rw [hTarget] at hParse
        cases hParse
      | ok found =>
        rw [hTarget] at hParse
        cases hParse
        rfl
    rw [hContent, List.length_drop]
    omega

end CrabbyProxy.Proxy
