import CrabbyProxy.Library.StreamProgram
import CrabbyProxy.Library.Text

/-!
# The server name of a TLS handshake

Indexing, slicing and unchecked addition panic as they do in the source, so the
search runs in `Except Fault`.
-/

namespace CrabbyProxy.Proxy

open CrabbyProxy.Stream
set_option autoImplicit false

abbrev Checked : Type → Type := Except Fault

def byteAt (data : List UInt8) (i : Nat) : Checked UInt8 :=
  match data[i]? with
  | some b => .ok b
  | none => .error .panic

def slice (data : List UInt8) (start stop : Nat) : Checked (List UInt8) :=
  if start ≤ stop ∧ stop ≤ data.length then .ok ((data.drop start).take (stop - start))
  else .error .panic

def checkedAdd (a b : Nat) : Option Nat := if a + b < 2 ^ 64 then some (a + b) else none

def plus (a b : Nat) : Checked Nat :=
  match checkedAdd a b with
  | some sum => .ok sum
  | none => .error .panic

/-- The body of the search loop. -/
def sniAt (data : List UInt8) (i : Nat) : Checked (Option String) := do
  let stop ← plus i 4
  let extension ← slice data i stop
  if extension = [0x00, 0x00, 0x00, 0x00] then
    match checkedAdd i 9 with
    | none => pure none
    | some lenPos =>
      if lenPos < data.length then do
        let nameLen ← byteAt data lenPos
        match checkedAdd lenPos 1 with
        | none => pure none
        | some nameStart => do
          let nameStop ← plus nameStart nameLen.toNat
          if nameStop ≤ data.length then do
            let hostname ← slice data nameStart nameStop
            pure (Text.fromUtf8 hostname)
          else pure none
      else pure none
  else pure none

def sniSearch (data : List UInt8) : List Nat → Checked (Option String)
  | [] => pure none
  | i :: positions => do
    match ← sniAt data i with
    | some hostname => pure (some hostname)
    | none => sniSearch data positions

def extractSniFromTls (data : List UInt8) : Checked (Option String) :=
  if data.length < 43 then pure none
  else do
    let first ← byteAt data 0
    if first ≠ 0x16 then pure none
    else sniSearch data (List.range (data.length - 10))

end CrabbyProxy.Proxy
