import Npamp.Rust.Frame
import Npamp.Handshake

/-!
# The key schedule in Rust

Record protection, the HKDF key schedule and the two proofs of an AUTH message, as `lib.rs` has
them.
-/

namespace Npamp.Rust

/-- `io::Error`, by its text. A panic ends a call like an error. -/
structure IoError where
  text : String
  deriving DecidableEq, Repr

def panicked (msg : String) : IoError := ⟨"panic: " ++ msg⟩

/-- What the crates provide: the functions the Go library has as well, X25519 without a check of its
result, and the check that octets are a verifying key. -/
structure Crates extends Primitives where
  /-- private key, peer's public key -/
  diffieHellman : Bytes → Bytes → Bytes
  isVerifyingKey : Bytes → Bool

def noSuiteForProfile : IoError :=
  ⟨"npamp: no cipher suite is implemented for this profile (this crate implements the Standard "
    ++ "profile only)"⟩

def requireStandard (standard : Bool) : Except IoError Unit :=
  if standard then .ok () else .error noSuiteForProfile

def hashLen : Nat := 32

variable (C : Crates)

def deriveNonce (iv : Bytes) (seq : UInt64) : Bytes :=
  List.zipWith (· ^^^ ·) (List.replicate 4 0 ++ putUint64 seq) iv

def sealAes256gcm (key iv : Bytes) (seq : UInt64) (aad pt : Bytes) : Bytes :=
  C.gcmSeal key (deriveNonce iv seq) pt aad

def openAes256gcm (key iv : Bytes) (seq : UInt64) (aad sealed : Bytes) : Except Unit Bytes :=
  (C.gcmOpen key (deriveNonce iv seq) sealed aad).mapError fun _ => ()

/-- `hkdf_expand`. A pseudorandom key shorter than the hash, or an output of more than 255 hashes,
is a panic. -/
def hkdfExpand (prk info : Bytes) (length : Nat) (standard : Bool) : Except IoError Bytes := do
  requireStandard standard
  if prk.length < hashLen then .error (panicked "prk")
  else if length > 255 * hashLen then .error (panicked "expand")
  else return C.hkdfExpand prk info length

def hkdfExpandLabel (secret : Bytes) (label : String) (context : Bytes) (length : Nat)
    (standard : Bool) : Except IoError Bytes :=
  let full := ascii "n-pamp " ++ ascii label
  let info := putUint16 (UInt16.ofNat length) ++ [UInt8.ofNat full.length] ++ full
    ++ [UInt8.ofNat context.length] ++ context
  hkdfExpand C secret info length standard

def deriveTrafficSecret (master : Bytes) (dir : UInt8) (epoch : UInt64) (suite channel : UInt16)
    (standard : Bool) : Except IoError Bytes := do
  requireStandard standard
  let ctx := [dir] ++ putUint64 epoch ++ putUint16 suite ++ putUint16 channel
  hkdfExpandLabel C master "traffic" ctx hashLen standard

def deriveKeyIv (secret : Bytes) (standard : Bool) : Except IoError (Bytes × Bytes) := do
  let key ← hkdfExpandLabel C secret "key" [] 32 standard
  let iv ← hkdfExpandLabel C secret "iv" [] 12 standard
  return (key, iv)

def hkdfExtract (salt ikm : Bytes) (standard : Bool) : Except IoError Bytes := do
  requireStandard standard
  return C.hkdfExtract ikm salt

def deriveHandshakeSecret (mlkemSs x25519Ss : Bytes) (standard : Bool) : Except IoError Bytes := do
  requireStandard standard
  hkdfExtract C (List.replicate hashLen 0) (mlkemSs ++ x25519Ss) standard

def deriveClientHandshakeSecret (handshakeSecret thKem : Bytes) (standard : Bool) :
    Except IoError Bytes :=
  hkdfExpandLabel C handshakeSecret "c hs" thKem hashLen standard

def deriveServerHandshakeSecret (handshakeSecret thKem : Bytes) (standard : Bool) :
    Except IoError Bytes :=
  hkdfExpandLabel C handshakeSecret "s hs" thKem hashLen standard

def deriveMasterSecret (handshakeSecret thCcv : Bytes) (standard : Bool) : Except IoError Bytes :=
  hkdfExpandLabel C handshakeSecret "master" thCcv hashLen standard

def finishedKey (secret : Bytes) (standard : Bool) : Except IoError Bytes :=
  hkdfExpandLabel C secret "finished" [] hashLen standard

def transcriptHash (buf : Bytes) (standard : Bool) : Except IoError Bytes := do
  requireStandard standard
  return C.sha256 buf

def computeFinished (finishedKey transcriptHash : Bytes) (standard : Bool) :
    Except IoError Bytes := do
  requireStandard standard
  return C.hmac finishedKey transcriptHash

def verifyFinished (finishedKey transcriptHash verifyData : Bytes) (standard : Bool) :
    Except IoError Bool := do
  requireStandard standard
  return C.hmac finishedKey transcriptHash == verifyData

def certVerifySigningInput (isServer : Bool) (transcriptHash : Bytes) : Bytes :=
  let ctx :=
    if isServer then "N-PAMP/3, server CertificateVerify" else "N-PAMP/3, client CertificateVerify"
  List.replicate 64 0x20 ++ ascii ctx ++ [0x00] ++ transcriptHash

def signCertVerify (signingKey : Bytes) (isServer : Bool) (transcriptHash : Bytes) : Bytes :=
  putUint16 sigEd25519 ++ C.ed25519Sign signingKey (certVerifySigningInput isServer transcriptHash)

def verifyCertVerify (verifyingKey : Bytes) (isServer : Bool) (transcriptHash value : Bytes) :
    Bool :=
  if value.length < 2 ∨ uint16 (slice value 0 2) ≠ sigEd25519 then false
  else if (value.drop 2).length ≠ signatureSize then false
  else
    C.ed25519Verify verifyingKey (certVerifySigningInput isServer transcriptHash) (value.drop 2)

end Npamp.Rust
