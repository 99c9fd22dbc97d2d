import Npamp.Lib.BigEndian

/-!
# Octet strings and errors

An octet string is a list. An error is its text together with the sentinels `errors.Is` finds in its
chain.
-/

namespace Npamp

abbrev Bytes := List UInt8

instance (b : Bytes) (bs : List Bytes) : Decidable (b ∈ bs) :=
  List.instDecidableMemOfLawfulBEq b bs

def slice (b : Bytes) (lo hi : Nat) : Bytes := (b.take hi).drop lo

def putUint16 (v : UInt16) : Bytes := BigEndian.toBytes 2 v.toNat

def putUint32 (v : UInt32) : Bytes := BigEndian.toBytes 4 v.toNat

def putUint64 (v : UInt64) : Bytes := BigEndian.toBytes 8 v.toNat

def uint16 (b : Bytes) : UInt16 := UInt16.ofNat (BigEndian.ofBytes b)

def uint32 (b : Bytes) : UInt32 := UInt32.ofNat (BigEndian.ofBytes b)

def uint64 (b : Bytes) : UInt64 := UInt64.ofNat (BigEndian.ofBytes b)

/-- The error values the packages and `io` declare with `errors.New` and test with `errors.Is`. -/
inductive Sentinel where
  | errShortHeader
  | errBadMagic
  | errBadVersion
  | errBadCRC
  | errReservedNonzero
  | errReservedFlag
  | errLengthMismatch
  | errIncompleteFrame
  | errFrameTooLarge
  | errTruncatedTLV
  | errTooManyTLVs
  | errUnknownCriticalTLV
  | errNoSuiteForProfile
  | errKEMShareSize
  | errKEMCiphertextSize
  | errMalformedErrorBody
  | errCBORTrailing
  | errCBORTruncated
  | errCBORNotShortest
  | errCBORIndefinite
  | errCBORUnsupported
  | errCBORMapOrder
  | errCBORDepthExceeded
  | errMemoryMalformed
  | errStreamMalformed
  | errCapMalformed
  | errImmuneMalformed
  | errSettlementMalformed
  | errTelemetryMalformed
  | errCommerceMalformed
  | errInteractionMalformed
  | errWorkflowMalformed
  | errKnowledgeMalformed
  | errBridgeMalformed
  | errHandshakeTLVOrder
  | errHandshakeTLVValue
  | errInvalidRole
  | errCertVerifyScheme
  | errCertVerifySignature
  | errCertVerifyKeySize
  | errFinishedMismatch
  | errKEMDowngrade
  | errClosed
  | errPeerClosed
  | errKeyUpdateOutOfOrder
  | errUnsolicitedReKEMAck
  | eof
  | errUnexpectedEOF
  | errNoRegistries
  | errNoConn
  deriving DecidableEq, Repr

def Sentinel.text : Sentinel → String
  | errShortHeader => "npamp: buffer shorter than 36-octet header"
  | errBadMagic => "npamp: bad magic (want NPAM)"
  | errBadVersion => "npamp: unsupported wire version"
  | errBadCRC => "npamp: header CRC32C mismatch"
  | errReservedNonzero => "npamp: reserved octets are non-zero"
  | errReservedFlag => "npamp: a reserved frame-flag bit is set"
  | errLengthMismatch => "npamp: payload length does not match buffer"
  | errIncompleteFrame => "npamp: buffer holds a valid header but not the full frame yet"
  | errFrameTooLarge => "npamp: frame size exceeds MaxFrameSize"
  | errTruncatedTLV => "npamp: truncated TLV"
  | errTooManyTLVs => "npamp: TLV count exceeds MaxTLVsPerFrame"
  | errUnknownCriticalTLV => "npamp: unknown critical (must-understand) TLV"
  | errNoSuiteForProfile =>
    "npamp: no cipher suite is implemented for this profile (this package implements the Standard profile only)"
  | errKEMShareSize => "npamp: KEMShare is not 1216 octets (ML-KEM-768 ek || X25519 public)"
  | errKEMCiphertextSize =>
    "npamp: KEMCiphertext is not 1120 octets (ML-KEM-768 ct || X25519 public)"
  | errMalformedErrorBody => "npamp: malformed ERROR body"
  | errCBORTrailing => "npamp/cbor: trailing bytes after top-level item"
  | errCBORTruncated => "npamp/cbor: truncated input"
  | errCBORNotShortest => "npamp/cbor: integer/length not in shortest form"
  | errCBORIndefinite => "npamp/cbor: indefinite-length item (non-deterministic)"
  | errCBORUnsupported => "npamp/cbor: unsupported major type or simple value"
  | errCBORMapOrder => "npamp/cbor: map keys not in canonical ascending order (or duplicate)"
  | errCBORDepthExceeded =>
    "npamp/cbor: nesting depth exceeds limit (resource-exhaustion guard)"
  | errMemoryMalformed => "npamp/memory: malformed_request"
  | errStreamMalformed => "npamp/stream: malformed"
  | errCapMalformed => "npamp/capability: malformed_request"
  | errImmuneMalformed => "npamp/immune: malformed_request"
  | errSettlementMalformed => "npamp/settlement: malformed_request"
  | errTelemetryMalformed => "npamp/telemetry: malformed_payload"
  | errCommerceMalformed => "npamp/commerce: malformed_request"
  | errInteractionMalformed => "npamp/interaction: malformed_request"
  | errWorkflowMalformed => "npamp/workflow: malformed_request"
  | errKnowledgeMalformed => "npamp/knowledge: malformed_request"
  | errBridgeMalformed => "npamp/bridge: envelope_malformed"
  | errHandshakeTLVOrder => "npamp: handshake TLVs missing, extra, or out of order"
  | errHandshakeTLVValue => "npamp: handshake TLV value has an invalid size"
  | errInvalidRole => "npamp: role must be RoleClient or RoleServer"
  | errCertVerifyScheme => "npamp: CertVerify signature scheme was not negotiated"
  | errCertVerifySignature => "npamp: CertVerify signature verification failed"
  | errCertVerifyKeySize => "npamp: identity key is not an Ed25519 public key"
  | errFinishedMismatch => "npamp: Finished verify_data mismatch"
  | errKEMDowngrade =>
    "npamp/sdk: negotiated KEM group does not match the selected profile's minimum KEM (downgrade refused)"
  | errClosed => "npamp/sdk: connection is closed"
  | errPeerClosed => "npamp/sdk: peer closed the association: EOF"
  | errKeyUpdateOutOfOrder => "npamp/sdk: key_update_out_of_order"
  | errUnsolicitedReKEMAck => "npamp/sdk: unsolicited REKEM_ACK"
  | eof => "EOF"
  | errUnexpectedEOF => "unexpected EOF"
  | errNoRegistries => "firewall: Registries is required (nil wirevalidator.Registries)"
  | errNoConn => "npamp/proxy: no established N-PAMP connection"

structure GoError where
  text : String
  chain : List Sentinel
  deriving DecidableEq, Repr

def Sentinel.err (s : Sentinel) : GoError := { text := s.text, chain := [s] }

def errorf (text : String) : GoError := { text := text, chain := [] }

def wrapf (text : String) (e : GoError) : GoError :=
  { text := text ++ ": " ++ e.text, chain := e.chain }

def hexPad (width n : Nat) : String :=
  let digits := Nat.toDigits 16 n
  String.ofList (List.replicate (width - digits.length) '0' ++ digits)

def hexPadUpper (width n : Nat) : String := (hexPad width n).map Char.toUpper

def Sentinel.errorf (s : Sentinel) (detail : String) : GoError :=
  { text := s.text ++ ": " ++ detail, chain := [s] }

def errorsIs (e : GoError) (s : Sentinel) : Bool := e.chain.contains s

end Npamp
