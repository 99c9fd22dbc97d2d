import Npamp.Bridge
import Npamp.Transcript

/-!
# Opaque carriage

`carriage_opaque.go`. One of three media types is declared by the content type; any other is named
by a TLV. `quote` is the `%q` of `fmt`.
-/

namespace Npamp

def opaqueContentTypeTLV : TLVType := 0x0012

def opaqueContentTypeDiscriminator : BridgeContentType := 0x04

def errOpaqueContentType (reason : String) : GoError :=
  errorf ("npamp/proxy: opaque carriage content-type declaration malformed: " ++ reason)

def contentTypeToMediaType (ct : BridgeContentType) : Option Bytes :=
  if ct = bridgeContentJSON then some (ascii "application/json")
  else if ct = bridgeContentCBOR then some (ascii "application/cbor")
  else if ct = bridgeContentGRPCProto then some (ascii "application/grpc+proto")
  else none

def mediaTypeToContentType (mediaType : Bytes) : Option BridgeContentType :=
  if mediaType = ascii "application/json" then some bridgeContentJSON
  else if mediaType = ascii "application/cbor" then some bridgeContentCBOR
  else if mediaType = ascii "application/grpc+proto" then some bridgeContentGRPCProto
  else none

def isTchar (c : UInt8) : Bool :=
  (0x61 ≤ c ∧ c ≤ 0x7a) ∨ (0x41 ≤ c ∧ c ≤ 0x5a) ∨ (0x30 ≤ c ∧ c ≤ 0x39)
    ∨ c ∈ ascii "!#$%&'*+-.^_`|~"

def isToken (s : Bytes) : Bool := s ≠ [] && s.all isTchar

def indexByte (s : Bytes) (c : UInt8) : Option Nat := s.findIdx? (· == c)

/-- The type and the subtype are tokens; parameters after a semicolon are not looked at. -/
def validMediaTypeSyntax (s : Bytes) : Bool :=
  if s = [] then false
  else
    let head := match indexByte s 0x3b with
      | some i => s.take i
      | none => s
    match indexByte head 0x2f with
    | none => false
    | some slash =>
      if slash = 0 ∨ slash = head.length - 1 then false
      else isToken (head.take slash) && isToken (head.drop (slash + 1))

section Carriage

variable (quote : Bytes → String)

def encodeOpaquePayload (env : BridgeEnvelope) (mediaType raw : Bytes) : Except GoError Bytes :=
  match mediaTypeToContentType mediaType with
  | some ct => encodeBridgePayload { env with contentType := ct } none raw
  | none =>
    if mediaType = [] then
      .error (errOpaqueContentType "declared media type is empty (§4.3: MUST be non-empty)")
    else if (indexByte mediaType 0).isSome then
      .error (errOpaqueContentType "declared media type contains a NUL octet (§4.3)")
    else if ¬ validMediaTypeSyntax mediaType then
      .error (errOpaqueContentType ("declared media type " ++ quote mediaType
        ++ " is not a syntactically valid media type (§4.3)"))
    else do
      let envelopeOnly ←
        encodeBridgePayload { env with contentType := opaqueContentTypeDiscriminator } none []
      let ext := TLV.encode { type := opaqueContentTypeTLV, value := mediaType } []
      return envelopeOnly ++ ext ++ raw

/-- `peekLeadingTLV`: the value of a leading TLV of type `want` if there is one, and what follows.
-/
def peekLeadingTLV (buf : Bytes) (want : TLVType) : Except GoError (Option Bytes × Bytes) :=
  let (typ, ln) := tlvHeader buf
  if buf.length < 4 then .ok (none, buf)
  else if typ ≠ want then .ok (none, buf)
  else if buf.length < 4 + ln then
    .error (errOpaqueContentType
      ("OpaqueContentType TLV length " ++ toString ln ++ " exceeds remaining payload"))
  else .ok (some (slice buf 4 (4 + ln)), buf.drop (4 + ln))

def decodeOpaquePayload (env : BridgeEnvelope) (foreign : Bytes) : Except GoError (Bytes × Bytes) :=
  match peekLeadingTLV foreign opaqueContentTypeTLV with
  | .error e => .error e
  | .ok (some tlvValue, rest) =>
    if env.contentType ≠ opaqueContentTypeDiscriminator then
      .error (errOpaqueContentType
        "carries both an enumerated content_type value and an OpaqueContentType TLV (§4.2 point 3)")
    else if tlvValue.length = 0 then
      .error (errOpaqueContentType
        "OpaqueContentType TLV value is empty (§4.3: MUST be non-empty)")
    else if (indexByte tlvValue 0).isSome then
      .error (errOpaqueContentType "OpaqueContentType TLV value contains a NUL octet (§4.3)")
    else if ¬ validMediaTypeSyntax tlvValue then
      .error (errOpaqueContentType ("OpaqueContentType TLV value " ++ quote tlvValue
        ++ " is not a syntactically valid media type (§4.3)"))
    else .ok (tlvValue, rest)
  | .ok (none, _) =>
    if env.contentType = opaqueContentTypeDiscriminator then
      .error (errOpaqueContentType
        "content_type is the OpaqueContentType discriminator but no OpaqueContentType TLV is present")
    else
      match contentTypeToMediaType env.contentType with
      | none =>
        .error (errOpaqueContentType ("content_type 0x" ++ hexPad 2 env.contentType.toNat
          ++ " is neither an enumerated media type nor the OpaqueContentType discriminator"))
      | some mt => .ok (mt, foreign)

end Carriage

end Npamp
