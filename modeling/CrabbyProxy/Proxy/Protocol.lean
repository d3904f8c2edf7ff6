import CrabbyProxy.Library.StreamGrammar
import CrabbyProxy.Library.Text

/-!
# Protocols, targets and the client's stream

The client's stream is plain TCP or TLS. The first four bytes, zeroed where
nothing has arrived, choose the protocol.
-/

namespace CrabbyProxy.Proxy

open CrabbyProxy.Stream
set_option autoImplicit false

inductive ProxyProtocol where
  | tcp
  | http
  | https
  | socks4
  | socks5
  deriving DecidableEq

structure ProxyTarget where
  host : String
  port : UInt16
  deriving DecidableEq

/-- For TLS, whether the socket below still knows its peer's address. -/
inductive Transport where
  | plain
  | tls (peerAddr : Bool)
  deriving DecidableEq

abbrev ClientStream : Type := Duplex Transport

abbrev ClientProgram : Type → Type := Program Transport

section BufferSizes

instance neZero_one : NeZero 1 := ⟨Nat.succ_ne_zero 0⟩

instance neZero_two : NeZero 2 := ⟨Nat.succ_ne_zero 1⟩

instance neZero_four : NeZero 4 := ⟨Nat.succ_ne_zero 3⟩

instance neZero_eight : NeZero 8 := ⟨Nat.succ_ne_zero 7⟩

end BufferSizes

def httpMagics : List (List UInt8) :=
  ["GET ", "POST", "PUT ", "HEAD", "DELE", "CONN"].map Text.asBytes

def detectProtocol (peekBuf : Vector UInt8 4) : ProxyProtocol :=
  if httpMagics.any (·.isPrefixOf peekBuf.toList) then .http
  else if peekBuf.get 0 = 0x16 then .https
  else if peekBuf.get 0 = 0x05 then .socks5
  else if peekBuf.get 0 = 0x04 then .socks4
  else .tcp

/-- What the source does in place of a peek, on either kind of stream. -/
def peekEquivalent (n : Nat) : ClientProgram (List UInt8) := fun st =>
  match st.transport with
  | .plain => peek n st
  | .tls true => read n st
  | .tls false => ioError .notConnected "Transport endpoint is not connected" st

theorem peekEquivalent_of_plain {st : ClientStream} (h : st.transport = .plain) (n : Nat) :
    peekEquivalent n st = peek n st := by
  rw [peekEquivalent]
  simp only [h]

theorem peekEquivalent_of_tls {st : ClientStream} (h : st.transport = .tls true) (n : Nat) :
    peekEquivalent n st = read n st := by
  rw [peekEquivalent]
  simp only [h]

theorem httpMagic_bounds {magic : List UInt8} (h : magic ∈ httpMagics) :
    magic.length = 4 ∧ ∀ b ∈ magic, 0x20 ≤ b := by
  have hAll : httpMagics.all (fun magic => magic.length == 4 && magic.all (0x20 ≤ ·)) = true := by
    decide
  have hMagic := List.all_eq_true.mp hAll magic h
  rw [Bool.and_eq_true, beq_iff_eq, List.all_eq_true] at hMagic
  exact ⟨hMagic.1, fun b hb => of_decide_eq_true (hMagic.2 b hb)⟩

/-- The bytes that open every other protocol are no letters. -/
theorem detectProtocol_of_lt {peekBuf : Vector UInt8 4} (h : peekBuf.get 0 < 0x20) :
    detectProtocol peekBuf =
      if peekBuf.get 0 = 0x16 then .https
      else if peekBuf.get 0 = 0x05 then .socks5
      else if peekBuf.get 0 = 0x04 then .socks4
      else .tcp := by
  refine if_neg ?_
  intro hAny
  obtain ⟨magic, hMagic, hPrefix⟩ := List.any_eq_true.mp hAny
  obtain ⟨hLength, hLetters⟩ := httpMagic_bounds hMagic
  obtain rfl := (List.isPrefixOf_iff_prefix.mp hPrefix).eq_of_length
    (by rw [hLength, Vector.length_toList])
  have hFirst := hLetters (peekBuf.get 0) (by simp [Vector.get_eq_getElem])
  exact absurd h (UInt8.not_lt.mpr hFirst)

theorem detectProtocol_of_ge {peekBuf : Vector UInt8 4} (h : (0x20 : UInt8) ≤ peekBuf.get 0) :
    detectProtocol peekBuf = .http ∨ detectProtocol peekBuf = .tcp := by
  have hOther : ∀ b : UInt8, b < 0x20 → peekBuf.get 0 ≠ b := by
    rintro b hb rfl
    exact absurd hb (UInt8.not_lt.mpr h)
  unfold detectProtocol
  rw [if_neg (hOther 0x16 (by decide)), if_neg (hOther 0x05 (by decide)),
    if_neg (hOther 0x04 (by decide))]
  split
  · exact .inl rfl
  · exact .inr rfl

theorem detectProtocol_https_iff {peekBuf : Vector UInt8 4} :
    detectProtocol peekBuf = .https ↔ peekBuf.get 0 = 0x16 := by
  constructor
  · intro hTls
    unfold detectProtocol at hTls
    split_ifs at hTls
    assumption
  · intro hFirst
    rw [detectProtocol_of_lt (by rw [hFirst]; decide), if_pos hFirst]

theorem fill_get_zero (n : Nat) (bytes : List UInt8) :
    (fill (n + 1) bytes).get 0 = bytes.headD 0 := by
  cases bytes <;> simp [fill]

theorem framing_peekEquivalent (n : Nat) : Framing (peekEquivalent n) := by
  intro st
  unfold peekEquivalent
  split
  · exact Framing.peek n st
  · exact Framing.read n st
  · exact Framing.ioError _ _ st

end CrabbyProxy.Proxy
