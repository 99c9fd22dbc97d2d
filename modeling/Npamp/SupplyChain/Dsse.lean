import Npamp.Lib.Text
import Npamp.Transcript

/-!
# Signed provenance

`dsse.go` and `sign.go`. `encoding/base64` is an argument.
-/

namespace Npamp.SupplyChain

open Text (decimal)

def errEnvelopeInvalid : GoError :=
  errorf "npamp/supplychain: DSSE envelope is missing a required field"

def errPayloadTypeMismatch : GoError :=
  errorf "npamp/supplychain: DSSE envelope payloadType does not match the expected in-toto type"

def errPayloadMismatch : GoError :=
  errorf "npamp/supplychain: DSSE envelope payload does not equal the expected statement bytes"

def errSignatureInvalid : GoError :=
  errorf "npamp/supplychain: no DSSE signature verifies under the supplied public key"

def inTotoPayloadType : Bytes := ascii "application/vnd.in-toto+json"

structure Signature where
  keyID : Bytes
  sig : Bytes

structure Envelope where
  payload : Bytes
  payloadType : Bytes
  signatures : List Signature

/-- `base64.StdEncoding`. -/
structure Encodings where
  encode : Bytes → Bytes
  decode : Bytes → Option Bytes

def pae (payloadType body : Bytes) : Bytes :=
  ascii "DSSEv1" ++ ascii " " ++ decimal payloadType.length ++ ascii " " ++ payloadType ++ ascii " "
    ++ decimal body.length ++ ascii " " ++ body

variable (P : Primitives) (E : Encodings)

structure ProvenanceSigner where
  priv : Bytes
  pub : Bytes

def ProvenanceSigner.envelope (s : ProvenanceSigner) (statementJSON : Bytes) : Envelope where
  payload := E.encode statementJSON
  payloadType := inTotoPayloadType
  signatures := [⟨[], E.encode (P.ed25519Sign s.priv (pae inTotoPayloadType statementJSON))⟩]

/-- The loop over the signatures: one that is not base64 or not of 64 octets is passed over. -/
def verified (pub pae : Bytes) : List Signature → Bool
  | [] => false
  | sig :: sigs =>
    match E.decode sig.sig with
    | none => verified pub pae sigs
    | some raw =>
      if raw.length ≠ 64 then verified pub pae sigs
      else if P.ed25519Verify pub pae raw then true
      else verified pub pae sigs

def verifyEnvelope (pub : Bytes) (env : Option Envelope) (expectedPayload : Bytes) :
    Except GoError Unit :=
  match env with
  | none => .error errEnvelopeInvalid
  | some env =>
    if env.payload = [] ∨ env.payloadType = [] ∨ env.signatures.length = 0 then
      .error errEnvelopeInvalid
    else if pub.length ≠ 32 then .error errSignatureInvalid
    else if env.payloadType ≠ inTotoPayloadType then .error errPayloadTypeMismatch
    else
      match E.decode env.payload with
      | none => .error errEnvelopeInvalid
      | some payload =>
        if ¬ verified P E pub (pae env.payloadType payload) env.signatures then
          .error errSignatureInvalid
        else if payload ≠ expectedPayload then .error errPayloadMismatch
        else .ok ()

end Npamp.SupplyChain
