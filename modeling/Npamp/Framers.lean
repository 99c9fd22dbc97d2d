import Npamp.Frame
import Npamp.Lib.Framing

/-!
# The three stream framers

The root package cuts frames off a buffer; the SDK and the relay read them from an `io.Reader`,
which is the octets it will deliver before it ends.
-/

namespace Npamp

open Sentinel

def readFull (s : Bytes) (n : Nat) : Except GoError (Bytes × Bytes) :=
  if n ≤ s.length then .ok (s.take n, s.drop n)
  else if s.length = 0 then .error eof.err
  else .error errUnexpectedEOF.err

/-- `io.CopyN` for `n` octets, which reports every short read as the end of the stream. -/
def copyN (s : Bytes) (n : Nat) : Except GoError (Bytes × Bytes) :=
  if n ≤ s.length then .ok (s.take n, s.drop n) else .error eof.err

def hexOctets (b : Bytes) : String := "0x" ++ String.join (b.map fun octet => hexPad 2 octet.toNat)

def readFrame (buf : Bytes) : Except GoError (Frame × Nat) :=
  let total := headerSize + (uint32 (slice buf 17 21)).toNat
  if buf.length < headerSize then .error errShortHeader.err
  else if total > maxFrameSize then .error errFrameTooLarge.err
  else if buf.length < total then .error errIncompleteFrame.err
  else
    match unmarshalBinary (buf.take total) with
    | .error e => .error e
    | .ok f => .ok (f, total)

/-- The checks both stream readers make on a header before they read the payload, with the texts of
package `pkg`. -/
def checkBoundary (pkg : String) (maxSize : Nat) (header : Bytes) : Except GoError Unit :=
  let total := headerSize + (uint32 (slice header 17 21)).toNat
  if slice header 0 4 ≠ magic then
    .error (errorf ("npamp/" ++ pkg ++ ": bad frame magic " ++ hexOctets (slice header 0 4)
      ++ ", want NPAM"))
  else if total > maxSize then
    .error (errorf ("npamp/" ++ pkg ++ ": frame size " ++ toString total ++ " exceeds max "
      ++ toString maxSize))
  else .ok ()

def errPayload (pkg : String) (payloadLen : Nat) (e : GoError) : GoError :=
  wrapf ("npamp/" ++ pkg ++ ": read frame payload (" ++ toString payloadLen ++ " octets)") e

def Sdk.readFrame (s : Bytes) : Except GoError (Bytes × Bytes) := do
  let (header, rest) ← readFull s headerSize
  checkBoundary "sdk" maxFrameSize header
  let payloadLen := (uint32 (slice header 17 21)).toNat
  match copyN rest payloadLen with
  | .error e => .error (errPayload "sdk" payloadLen e)
  | .ok (payload, rest) => return (header ++ payload, rest)

/-- `relay.readRawFrame`. A stream that ends right behind a header ended inside a frame. -/
def Relay.readRawFrame (s : Bytes) (maxSize : UInt32) : Except GoError (Bytes × Bytes) := do
  let (header, rest) ← readFull s headerSize
  checkBoundary "relay" maxSize.toNat header
  let payloadLen := (uint32 (slice header 17 21)).toNat
  if payloadLen > 0 then
    match readFull rest payloadLen with
    | .error e =>
      .error (errPayload "relay" payloadLen
        (if e = eof.err then errUnexpectedEOF.err else e))
    | .ok (payload, rest) => return (header ++ payload, rest)
  else return (header, rest)

def nextOfBuffer (s : Bytes) : Option (Frame × Bytes) :=
  match readFrame s with
  | .error _ => none
  | .ok (f, n) => some (f, s.drop n)

def nextOfStream (read : Bytes → Except GoError (Bytes × Bytes)) (s : Bytes) :
    Option (Frame × Bytes) :=
  match read s with
  | .error _ => none
  | .ok (raw, rest) =>
    match unmarshalBinary raw with
    | .error _ => none
    | .ok f => some (f, rest)

def nextOfSdk : Bytes → Option (Frame × Bytes) := nextOfStream Sdk.readFrame

def nextOfRelay (maxSize : UInt32) : Bytes → Option (Frame × Bytes) :=
  nextOfStream fun s => Relay.readRawFrame s maxSize

/-- The frames a reader finds in `s`, and what is left where it stops. A frame takes at least one
octet, so there are no more frames than octets. -/
def splitFrames (next : Bytes → Option (Frame × Bytes)) (s : Bytes) : List Frame × Bytes :=
  Framing.readAll next s.length s

def readToEnd (read : Bytes → Except GoError (Bytes × Bytes)) (s : Bytes) :
    List Bytes × Except GoError (Bytes × Bytes) :=
  let frames := Framing.readAll (fun s => (read s).toOption) s.length s
  (frames.1, read frames.2)

end Npamp
