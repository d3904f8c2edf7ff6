import CrabbyProxy.Library.Search
import CrabbyProxy.Proxy.Protocol

/-!
# The handshake with an upstream proxy

A `CONNECT` request goes out in one write from a pooled buffer. The response is
then collected in the same buffer, read by read, until its head is complete.
-/

namespace CrabbyProxy.Proxy

open CrabbyProxy.Stream
set_option autoImplicit false

/-- The connection to the upstream proxy, with the `Debug` text of its `peer_addr`. -/
abbrev UpstreamStream : Type := Duplex String

inductive ProxyError where
  | badGateway (message : String)
  | disconnected (context : String) (error : IoError)
  deriving DecidableEq

/-- A single write; how much of the buffer it took is not looked at. -/
def writeToStream (buf : List UInt8) (stream : UpstreamStream) :
    Except ProxyError Unit × UpstreamStream :=
  match stream.output.write buf with
  | (some _, output) => (.ok (), { stream with output := output })
  | (none, output) =>
    (.error (.disconnected s!"failed to write to stream, addr: {stream.transport}"
      ⟨.brokenPipe, "Broken pipe"⟩), { stream with output := output })

/-- A single read of at most `n` bytes; none at the end of the stream. -/
def readFromStream (n : Nat) (stream : UpstreamStream) :
    Except ProxyError (List UInt8) × UpstreamStream :=
  match stream.input.read false n with
  | (.ready, bytes, input) => (.ok bytes, { stream with input := input })
  | (.eof, _, input) => (.ok [], { stream with input := input })
  | (_, _, input) =>
    (.error (.disconnected s!"failed to read from stream, addr: {stream.transport}"
      ⟨.connectionReset, "Connection reset by peer"⟩), { stream with input := input })

def initialHttpHeaderSize : Nat := 1024

def connectRequest (target : ProxyTarget) : List UInt8 :=
  Text.asBytes "CONNECT " ++ Text.asBytes target.host ++ Text.asBytes ":" ++
    Text.asBytes (Text.portText target.port) ++ Text.asBytes " HTTP/1.1\r\n\r\n"

/-- The request is appended to whatever the pooled buffer holds. -/
def sendConnect (buffer : List UInt8) (target : ProxyTarget) (stream : UpstreamStream) :
    Except ProxyError Unit × UpstreamStream :=
  writeToStream (buffer ++ connectRequest target) stream

def blankLine : List UInt8 := Text.asBytes "\r\n\r\n"

/-- The test on the last four bytes. -/
def quickBodyStart (buffer : List UInt8) : Option Nat :=
  if buffer.drop (buffer.length - 4) = blankLine then some buffer.length else none

def searchBodyStart (buffer : List UInt8) : Option Nat := (position blankLine buffer).map (· + 4)

def partiallyReadBodyStartIndex (buffer : List UInt8) : Option Nat :=
  if 4 < buffer.length then (quickBodyStart buffer).or (searchBodyStart buffer) else none

/-- The read loop, for a number of reads; `none` when it has not stopped by then. Otherwise
the index it found, and what the buffer holds. -/
def readHead : Nat → List UInt8 → UpstreamStream →
    Option (Except ProxyError Nat × List UInt8 × UpstreamStream)
  | 0, _, _ => none
  | reads + 1, buffer, stream =>
    match readFromStream 256 stream with
    | (.error e, stream) => some (.error e, buffer, stream)
    | (.ok bytes, stream) =>
      match partiallyReadBodyStartIndex (buffer ++ bytes) with
      | some index => some (.ok index, buffer ++ bytes, stream)
      | none => readHead reads (buffer ++ bytes) stream

def earlyData (buffer : List UInt8) (index : Nat) : Except ProxyError (List UInt8) :=
  if (Text.asBytes "HTTP/1.1 200 OK").isPrefixOf buffer then
    if index ≤ buffer.length then .ok [] else .ok (buffer.drop index)
  else .error (.badGateway "invalid response from proxy server")

/-- How a call ends, and what its buffer holds when it goes back to the pool. -/
structure HandShake where
  result : Except ProxyError (List UInt8)
  buffer : List UInt8
  stream : UpstreamStream

/-- `none` when the read loop does not stop within this number of reads. -/
def handShake (reads : Nat) (buffer : List UInt8) (target : ProxyTarget)
    (stream : UpstreamStream) : Option HandShake :=
  match sendConnect buffer target stream with
  | (.error e, stream) => some ⟨.error e, buffer ++ connectRequest target, stream⟩
  | (.ok _, stream) => (readHead reads [] stream).map fun
    | (.error e, buffer, stream) => ⟨.error e, buffer, stream⟩
    | (.ok index, buffer, stream) => ⟨earlyData buffer index, buffer, stream⟩

section Search

variable {buffer head : List UInt8}

theorem blankLine_ne_nil : blankLine ≠ [] := by decide

theorem length_blankLine : blankLine.length = 4 := by decide

theorem quickBodyStart_le {index : Nat} (h : quickBodyStart buffer = some index) :
    index = buffer.length ∧ blankLine <:+ buffer := by
  obtain ⟨hEnd, hIndex⟩ := Option.ite_none_right_eq_some.mp h
  exact ⟨(Option.some.inj hIndex).symm, hEnd ▸ List.drop_suffix _ _⟩

/-- A body is found as soon as there are five bytes with a blank line among them. -/
theorem bodyStart_eq_none_iff : partiallyReadBodyStartIndex buffer = none ↔
    ¬(4 < buffer.length ∧ blankLine <:+: buffer) := by
  unfold partiallyReadBodyStartIndex
  by_cases hLength : 4 < buffer.length
  · rw [if_pos hLength, Option.or_eq_none_iff, searchBodyStart, Option.map_eq_none_iff,
      position_eq_none_iff blankLine_ne_nil]
    constructor
    · rintro ⟨_, hNone⟩ ⟨_, hInfix⟩
      exact hNone hInfix
    · intro hNone
      refine ⟨?_, fun hInfix => hNone ⟨hLength, hInfix⟩⟩
      apply Option.eq_none_iff_forall_ne_some.mpr
      intro index hQuick
      exact hNone ⟨hLength, (quickBodyStart_le hQuick).2.isInfix⟩
  · rw [if_neg hLength]
    exact iff_of_true rfl fun h => hLength h.1

theorem bodyStart_nil : partiallyReadBodyStartIndex [] = none := by decide

end Search

section Loop

variable {reads : Nat} {buffer bytes : List UInt8} {target : ProxyTarget}
  {stream after : UpstreamStream}

theorem readFromStream_of_calm (hCalm : stream.input.Calm) (n : Nat) :
    readFromStream n stream = (.ok (stream.input.read false n).2.1,
      { stream with input := (stream.input.read false n).2.2 }) := by
  have hReady := stream.input.poll_ready_iff false
  have hNil := hCalm.poll_eq_nil_iff false
  have hSignal : (stream.input.read false n).1 = (stream.input.poll false).1 := rfl
  have hBytes : (stream.input.read false n).2.1 = (stream.input.poll false).2.ready.take n := rfl
  unfold readFromStream
  by_cases hContent : stream.input.content = []
  · have hEof := hCalm.poll_eof false hContent
    rw [hNil.mpr hContent, List.take_nil] at hBytes
    rw [hEof] at hSignal
    cases hRead : stream.input.read false n with
    | mk signal rest =>
      rw [hRead] at hSignal hBytes
      obtain rfl : signal = .eof := hSignal
      dsimp only at hBytes
      rw [hBytes]
  · have hSome := hReady.mpr fun hEmpty => hContent (hNil.mp hEmpty)
    rw [hSome] at hSignal
    cases hRead : stream.input.read false n with
    | mk signal rest =>
      rw [hRead] at hSignal
      obtain rfl : signal = .ready := hSignal
      rfl

theorem output_readFromStream (n : Nat) (stream : UpstreamStream) :
    (readFromStream n stream).2.output = stream.output := by
  unfold readFromStream
  split <;> rfl

theorem output_readHead {result : Except ProxyError Nat × List UInt8 × UpstreamStream}
    (h : readHead reads buffer stream = some result) : result.2.2.output = stream.output := by
  induction reads generalizing buffer stream with
  | zero => cases h
  | succ reads ih =>
    have hSame := output_readFromStream 256 stream
    unfold readHead at h
    split at h
    · rename_i hRead
      cases h
      rwa [hRead] at hSame
    · rename_i hRead
      rw [hRead] at hSame
      split at h
      · cases h
        exact hSame
      · exact (ih h).trans hSame

theorem readHead_succ (hRead : readFromStream 256 stream = (.ok bytes, after)) :
    readHead (reads + 1) buffer stream =
      match partiallyReadBodyStartIndex (buffer ++ bytes) with
      | some index => some (.ok index, buffer ++ bytes, after)
      | none => readHead reads (buffer ++ bytes) after := by
  rw [readHead, hRead]

end Loop

end CrabbyProxy.Proxy
