import Npamp.Tlv

/-!
# Primitives, profiles and the transcript

The standard library functions the packages call, and the running transcript of `transcript.go`: a
frame contributes its type and its TLVs.
-/

namespace Npamp

def ascii (s : String) : Bytes := s.toList.map fun c => UInt8.ofNat c.toNat

/-- The cryptographic functions of the Go standard library, with SHA-256 as the hash. Randomness is
an argument, and a private key is the octet string it is made from. -/
structure Primitives where
  sha256 : Bytes → Bytes
  hmac : Bytes → Bytes → Bytes
  hkdfExtract : Bytes → Bytes → Bytes
  hkdfExpand : Bytes → Bytes → Nat → Bytes
  gcmSeal : Bytes → Bytes → Bytes → Bytes → Bytes
  /-- key, nonce, ciphertext with tag, associated data -/
  gcmOpen : Bytes → Bytes → Bytes → Bytes → Except GoError Bytes
  mlkemEncapsulationKey : Bytes → Bytes
  /-- encapsulation key, randomness; the shared secret and the ciphertext -/
  mlkemEncapsulate : Bytes → Bytes → Except GoError (Bytes × Bytes)
  /-- decapsulation key, ciphertext -/
  mlkemDecapsulate : Bytes → Bytes → Except GoError Bytes
  x25519Public : Bytes → Bytes
  x25519 : Bytes → Bytes → Except GoError Bytes
  ed25519Public : Bytes → Bytes
  ed25519Sign : Bytes → Bytes → Bytes
  /-- public key, message, signature -/
  ed25519Verify : Bytes → Bytes → Bytes → Bool

abbrev Profile := UInt8

def profileStandard : Profile := 0x01
def profileHigh : Profile := 0x02
def profileSovereign : Profile := 0x03

def hashForProfile (p : Profile) : Except GoError Unit :=
  if p = profileStandard then .ok () else .error Sentinel.errNoSuiteForProfile.err

def hashSize : Nat := 32

structure Transcript where
  buf : Bytes
  deriving DecidableEq, Repr

def newTranscript (p : Profile) : Except GoError Transcript :=
  match hashForProfile p with
  | .error e => .error e
  | .ok () => .ok { buf := [] }

def Transcript.addFrameType (t : Transcript) (ft : FrameType) : Transcript :=
  { buf := t.buf ++ putUint16 ft }

def Transcript.addTLV (t : Transcript) (v : TLV) : Transcript := { buf := v.encode t.buf }

def Transcript.addFrame (t : Transcript) (ft : FrameType) (tlvs : List TLV) : Transcript :=
  tlvs.foldl Transcript.addTLV (t.addFrameType ft)

def Transcript.sum (P : Primitives) (t : Transcript) : Bytes := P.sha256 t.buf

end Npamp
