import Npamp.Error

/-!
# The frame codec

The 36-octet header and the payload behind it (`frame.go`). Octets 0..20 are what the CRC32C covers.
-/

namespace Npamp

abbrev ChannelID := UInt16

abbrev FrameType := UInt16

def headerSize : Nat := 36

def maxFrameSize : Nat := 16 * 2 ^ 20

def protocolVersion : UInt8 := 0x2

def magic : Bytes := [0x4E, 0x50, 0x41, 0x4D]

def flagENC : UInt8 := 0x02

def flagCOMP : UInt8 := 0x04

def reservedFlagMask : UInt8 := 0x09

def crc32cOctet (crc : UInt32) (octet : UInt8) : UInt32 :=
  (List.range 8).foldl
    (fun c _ => if c &&& 1 = 1 then (c >>> 1) ^^^ 0x82F63B78 else c >>> 1)
    (crc ^^^ octet.toUInt32)

def crc32c (b : Bytes) : UInt32 := (b.foldl crc32cOctet 0xFFFFFFFF) ^^^ 0xFFFFFFFF

structure Frame where
  version : UInt8
  flags : UInt8
  type : UInt16
  channel : UInt16
  seq : UInt64
  payload : Bytes
  deriving DecidableEq, Repr

def Frame.headerPrefix (f : Frame) (payloadLen : UInt32) : Bytes :=
  let ver := if f.version = 0 then protocolVersion else f.version
  magic ++ [(ver <<< 4) ||| (f.flags &&& 0x0F)] ++ putUint16 f.type ++ putUint16 f.channel
    ++ putUint64 f.seq ++ putUint32 payloadLen

section Checksum

variable (crc : Bytes → UInt32)

def Frame.marshalHeaderWith (f : Frame) (payloadLen : UInt32) : Bytes :=
  f.headerPrefix payloadLen ++ putUint32 (crc (f.headerPrefix payloadLen))
    ++ List.replicate (headerSize - 25) 0

/-- `MarshalBinary` over any checksum. A zero version is written as `protocolVersion`. -/
def Frame.marshalBinaryWith (f : Frame) : Bytes :=
  f.marshalHeaderWith crc (UInt32.ofNat f.payload.length) ++ f.payload

/-- `UnmarshalBinary` over any checksum, which is checked before any other header field. -/
def unmarshalBinaryWith (buf : Bytes) : Except GoError Frame :=
  if buf.length < headerSize then .error Sentinel.errShortHeader.err
  else if uint32 (slice buf 21 25) ≠ crc (slice buf 0 21) then .error Sentinel.errBadCRC.err
  else if slice buf 0 4 ≠ magic then .error Sentinel.errBadMagic.err
  else if buf.getD 4 0 >>> 4 ≠ protocolVersion then .error Sentinel.errBadVersion.err
  else if buf.getD 4 0 &&& reservedFlagMask ≠ 0 then .error Sentinel.errReservedFlag.err
  else if (slice buf 25 headerSize).any (· ≠ 0) then .error Sentinel.errReservedNonzero.err
  else if (uint32 (slice buf 17 21)).toNat ≠ buf.length - headerSize then
    .error Sentinel.errLengthMismatch.err
  else .ok {
    version := buf.getD 4 0 >>> 4
    flags := buf.getD 4 0 &&& 0x0F
    type := uint16 (slice buf 5 7)
    channel := uint16 (slice buf 7 9)
    seq := uint64 (slice buf 9 17)
    payload := buf.drop headerSize }

end Checksum

def Frame.marshalBinary (f : Frame) : Bytes := f.marshalBinaryWith crc32c

def unmarshalBinary (buf : Bytes) : Except GoError Frame := unmarshalBinaryWith crc32c buf

end Npamp
