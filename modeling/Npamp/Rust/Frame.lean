import Npamp.Frame

/-!
# The frame codec in Rust

`Frame` of `lib.rs` has the fields of the Go struct, with `ftype` for the type. The parser has no
rule for the reserved flag bits.
-/

namespace Npamp.Rust

inductive FrameError where
  | shortHeader
  | badMagic
  | badVersion
  | badCrc
  | reservedNonzero
  | lengthMismatch
  deriving DecidableEq, Repr

def marshal (f : Frame) : Bytes := f.marshalBinaryWith crc32c

def unmarshalWith (crc : Bytes → UInt32) (buf : Bytes) : Except FrameError Frame :=
  if buf.length < headerSize then .error .shortHeader
  else if uint32 (slice buf 21 25) ≠ crc (slice buf 0 21) then .error .badCrc
  else if slice buf 0 4 ≠ magic then .error .badMagic
  else if buf.getD 4 0 >>> 4 ≠ protocolVersion then .error .badVersion
  else if (slice buf 25 headerSize).any (· ≠ 0) then .error .reservedNonzero
  else if (uint32 (slice buf 17 21)).toNat ≠ buf.length - headerSize then .error .lengthMismatch
  else .ok {
    version := buf.getD 4 0 >>> 4
    flags := buf.getD 4 0 &&& 0x0F
    type := uint16 (slice buf 5 7)
    channel := uint16 (slice buf 7 9)
    seq := uint64 (slice buf 9 17)
    payload := buf.drop headerSize }

def unmarshal (buf : Bytes) : Except FrameError Frame := unmarshalWith crc32c buf

end Npamp.Rust
