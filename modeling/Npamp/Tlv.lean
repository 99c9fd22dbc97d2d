import Npamp.Frame

/-!
# Extension TLVs

A TLV is a 16-bit type, a 16-bit length and that many octets (`tlv.go`).
-/

namespace Npamp

abbrev TLVType := UInt16

def tlvProfileOffer : TLVType := 0x01
def tlvProfileSelect : TLVType := 0x02
def tlvKEMOffer : TLVType := 0x03
def tlvKEMSelect : TLVType := 0x04
def tlvSigOffer : TLVType := 0x05
def tlvSigSelect : TLVType := 0x06
def tlvKEMShare : TLVType := 0x07
def tlvKEMCiphertext : TLVType := 0x08
def tlvIdentityKey : TLVType := 0x09
def tlvCertVerify : TLVType := 0x0A
def tlvFinished : TLVType := 0x0B
def tlvAEADOffer : TLVType := 0x0C
def tlvAEADSelect : TLVType := 0x0D
def tlvKeyUpdateMarker : TLVType := 0x17
def tlvRatchetGeneration : TLVType := 0x19

def maxTLVsPerFrame : Nat := 64

structure TLV where
  type : TLVType
  value : Bytes
  deriving DecidableEq, Repr

/-- The type has its high bit set: a receiver that does not know it must reject the frame. -/
def forwardIncompatible (t : TLVType) : Bool := t &&& 0x8000 ≠ 0

def checkMustUnderstand (tlvs : List TLV) (recognized : TLVType → Bool) : Except GoError Unit :=
  match tlvs.find? fun t => forwardIncompatible t.type && !recognized t.type with
  | some t =>
    .error (Sentinel.errUnknownCriticalTLV.errorf ("TLV type 0x" ++ hexPad 4 t.type.toNat))
  | none => .ok ()

def TLV.encode (t : TLV) (dst : Bytes) : Bytes :=
  dst ++ (putUint16 t.type ++ putUint16 (UInt16.ofNat t.value.length)) ++ t.value

def tlvHeader (buf : Bytes) : TLVType × Nat :=
  (uint16 (slice buf 0 2), (uint16 (slice buf 2 4)).toNat)

/-- The loop of `DecodeTLVs`. A TLV takes at least four octets, so the length of the buffer bounds
the iterations. -/
def decodeTLVsLoop : Nat → List TLV → Bytes → Except GoError (List TLV)
  | _, out, [] => .ok out
  | 0, _, _ :: _ => .error Sentinel.errTruncatedTLV.err
  | fuel + 1, out, octet :: rest =>
    let buf := octet :: rest
    if buf.length < 4 then .error Sentinel.errTruncatedTLV.err
    else
      let typ := uint16 (slice buf 0 2)
      let ln := (uint16 (slice buf 2 4)).toNat
      if buf.length < 4 + ln then .error Sentinel.errTruncatedTLV.err
      else
        let out := out ++ [{ type := typ, value := slice buf 4 (4 + ln) }]
        if out.length > maxTLVsPerFrame then .error Sentinel.errTooManyTLVs.err
        else decodeTLVsLoop fuel out (buf.drop (4 + ln))

def decodeTLVs (buf : Bytes) : Except GoError (List TLV) := decodeTLVsLoop buf.length [] buf

end Npamp
