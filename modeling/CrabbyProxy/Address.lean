import Mathlib

/-!
# Addresses and their text

IP addresses are their octets. Their text follows the `Display` of the standard
library, since it is what the proxy passes on as the host to connect to.
-/

namespace CrabbyProxy
set_option autoImplicit false

def u16FromBeBytes (high low : UInt8) : UInt16 := UInt16.ofNat (256 * high.toNat + low.toNat)

def u16ToBeBytes (n : UInt16) : List UInt8 :=
  [UInt8.ofNat (n.toNat / 256), UInt8.ofNat (n.toNat % 256)]

@[simp] theorem length_u16ToBeBytes (n : UInt16) : (u16ToBeBytes n).length = 2 := rfl

theorem toNat_u16FromBeBytes (high low : UInt8) :
    (u16FromBeBytes high low).toNat = 256 * high.toNat + low.toNat := by
  have hHigh := high.toNat_lt
  have hLow := low.toNat_lt
  exact UInt16.toNat_ofNat_of_lt' (by simp only [UInt16.size]; omega)

theorem u16FromBeBytes_toBeBytes (n : UInt16) :
    u16FromBeBytes (UInt8.ofNat (n.toNat / 256)) (UInt8.ofNat (n.toNat % 256)) = n := by
  have hn := n.toNat_lt
  apply UInt16.toNat_inj.mp
  rw [toNat_u16FromBeBytes, UInt8.toNat_ofNat_of_lt' (by simp only [UInt8.size]; omega),
    UInt8.toNat_ofNat_of_lt' (by simp only [UInt8.size]; omega)]
  omega

theorem u16ToBeBytes_fromBeBytes (high low : UInt8) :
    u16ToBeBytes (u16FromBeBytes high low) = [high, low] := by
  have hHigh := high.toNat_lt
  have hLow := low.toNat_lt
  rw [u16ToBeBytes, toNat_u16FromBeBytes, show (256 * high.toNat + low.toNat) / 256 = high.toNat by
    omega, show (256 * high.toNat + low.toNat) % 256 = low.toNat by omega, UInt8.ofNat_toNat,
    UInt8.ofNat_toNat]

theorem exists_bytes_of_u16 (n : UInt16) :
    ∃ high low, u16ToBeBytes n = [high, low] ∧ u16FromBeBytes high low = n :=
  ⟨_, _, rfl, u16FromBeBytes_toBeBytes n⟩

structure Ipv4Addr where
  octets : Vector UInt8 4
  deriving DecidableEq

structure Ipv6Addr where
  octets : Vector UInt8 16
  deriving DecidableEq

inductive SocketAddr where
  | v4 (ip : Ipv4Addr) (port : UInt16)
  | v6 (ip : Ipv6Addr) (port : UInt16)
  deriving DecidableEq

def Ipv4Addr.toText (ip : Ipv4Addr) : String :=
  s!"{ip.octets[0]}.{ip.octets[1]}.{ip.octets[2]}.{ip.octets[3]}"

namespace Ipv6Addr

def segments (ip : Ipv6Addr) : List UInt16 :=
  List.ofFn fun i : Fin 8 => u16FromBeBytes ip.octets[2 * i.val] ip.octets[2 * i.val + 1]

def toIpv4Mapped (ip : Ipv6Addr) : Option Ipv4Addr :=
  if ip.octets.toList.take 12 = [0, 0, 0, 0, 0, 0, 0, 0, 0, 0, 0xff, 0xff] then
    some ⟨#v[ip.octets[12], ip.octets[13], ip.octets[14], ip.octets[15]]⟩
  else none

structure Span where
  start : Nat
  len : Nat

/-- One segment of the scan for zeroes: the longest run so far and the current one. -/
def Span.scan (spans : Span × Span) (segment : UInt16 × Nat) : Span × Span :=
  if segment.1 = 0 then
    let current : Span :=
      ⟨if spans.2.len = 0 then segment.2 else spans.2.start, spans.2.len + 1⟩
    (if current.len > spans.1.len then current else spans.1, current)
  else (spans.1, ⟨0, 0⟩)

/-- The first of the longest runs of zero segments. -/
def zeroes (ip : Ipv6Addr) : Span :=
  (ip.segments.zipIdx.foldl Span.scan (⟨0, 0⟩, ⟨0, 0⟩)).1

def fmtSubslice (chunk : List UInt16) : String :=
  ":".intercalate (chunk.map fun segment => String.ofList (Nat.toDigits 16 segment.toNat))

def toText (ip : Ipv6Addr) : String :=
  match ip.toIpv4Mapped with
  | some ipv4 => "::ffff:" ++ ipv4.toText
  | none =>
    if ip.zeroes.len > 1 then
      fmtSubslice (ip.segments.take ip.zeroes.start) ++ "::" ++
        fmtSubslice (ip.segments.drop (ip.zeroes.start + ip.zeroes.len))
    else fmtSubslice ip.segments

example : toText ⟨#v[0x20, 0x01, 0x0d, 0xb8, 0, 0, 0, 0, 0, 0, 0, 0, 0, 0, 0, 1]⟩ =
    "2001:db8::1" := by decide

end Ipv6Addr

end CrabbyProxy
