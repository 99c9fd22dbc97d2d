import Npamp.Crypto

/-!
# Handshake messages

The four flights of `handshake.go` and the two proofs an AUTH message carries.
-/

namespace Npamp

open Sentinel

def frameClientHello : FrameType := 0x0100
def frameServerHello : FrameType := 0x0101
def frameServerAuth : FrameType := 0x0102
def frameClientAuth : FrameType := 0x0103

abbrev KEMID := UInt16

def kemX25519MLKEM768 : KEMID := 0x11ec
def kemSecP384r1MLKEM1024 : KEMID := 0x11ed

abbrev SigID := UInt16

def sigEd25519 : SigID := 0x0807

def Profile.valid (p : Profile) : Bool := profileStandard ≤ p && p ≤ profileSovereign

def Profile.minKEM (p : Profile) : KEMID :=
  if p = profileStandard then kemX25519MLKEM768 else kemSecP384r1MLKEM1024

def Profile.string (p : Profile) : String :=
  if p = profileStandard then "Standard"
  else if p = profileHigh then "High"
  else if p = profileSovereign then "Sovereign"
  else "reserved"

abbrev Role := UInt8

def roleClient : Role := 1
def roleServer : Role := 2

/-- `certVerifyContext`, empty for an invalid role. -/
def Role.certVerifyContext (r : Role) : String :=
  if r = roleClient then "N-PAMP/3, client CertificateVerify"
  else if r = roleServer then "N-PAMP/3, server CertificateVerify"
  else ""

structure ClientHello where
  profileOffer : List Profile
  kemOffer : List KEMID
  sigOffer : List SigID
  aeadOffer : List AEADID
  kemShare : Bytes
  deriving DecidableEq, Repr

structure ServerHello where
  profileSelect : Profile
  kemSelect : KEMID
  sigSelect : SigID
  aeadSelect : AEADID
  kemCiphertext : Bytes
  deriving DecidableEq, Repr

structure AuthMessage where
  identityKey : Bytes
  certVerify : Bytes
  finished : Bytes
  deriving DecidableEq, Repr

def u16ListBytes (ids : List UInt16) : Bytes := ids.flatMap putUint16

def u16List : Bytes → List UInt16
  | hi :: lo :: rest => uint16 [hi, lo] :: u16List rest
  | _ => []

def parseU16List (v : Bytes) (name : String) : Except GoError (List UInt16) :=
  if v.length = 0 ∨ v.length % 2 ≠ 0 then
    .error (errHandshakeTLVValue.errorf
      (name ++ " is " ++ toString v.length ++ " octets"))
  else .ok (u16List v)

def requireOrder : Nat → List TLV → List TLVType → Except GoError Unit
  | i, tlv :: tlvs, w :: want =>
    if tlv.type ≠ w then
      .error (errHandshakeTLVOrder.errorf
        ("position " ++ toString i ++ " is 0x" ++ hexPad 2 tlv.type.toNat ++ ", want 0x"
          ++ hexPad 2 w.toNat))
    else requireOrder (i + 1) tlvs want
  | _, _, _ => .ok ()

def requireTLVs (tlvs : List TLV) (want : List TLVType) : Except GoError Unit :=
  match checkMustUnderstand tlvs fun t => want.contains t with
  | .error e => .error e
  | .ok () =>
    if tlvs.length ≠ want.length then
      .error (errHandshakeTLVOrder.errorf
        ("got " ++ toString tlvs.length ++ " TLVs, want " ++ toString want.length))
    else requireOrder 0 tlvs want

/-- `DecodeTLVs` and `requireTLVs`: the values of a payload that has exactly the TLVs of `want`. -/
def decodeFlight (want : List TLVType) (payload : Bytes) : Except GoError (List Bytes) :=
  match decodeTLVs payload with
  | .error e => .error e
  | .ok tlvs =>
    match requireTLVs tlvs want with
    | .error e => .error e
    | .ok () => .ok (tlvs.map TLV.value)

def encodeFlight (tlvs : List TLV) : Bytes := tlvs.foldl (fun out v => v.encode out) []

def requireNonEmpty (name : String) (v : Bytes) : Except GoError Unit :=
  if v.length = 0 then .error (errHandshakeTLVValue.errorf (name ++ " is empty"))
  else .ok ()

def requireSize (name : String) (size : Nat) (v : Bytes) : Except GoError Unit :=
  if v.length ≠ size then
    .error (errHandshakeTLVValue.errorf
      (name ++ " is " ++ toString v.length ++ " octets, want " ++ toString size))
  else .ok ()

def ClientHello.tlvs (m : ClientHello) : List TLV :=
  [⟨tlvProfileOffer, m.profileOffer⟩, ⟨tlvKEMOffer, u16ListBytes m.kemOffer⟩,
    ⟨tlvSigOffer, u16ListBytes m.sigOffer⟩, ⟨tlvAEADOffer, u16ListBytes m.aeadOffer⟩,
    ⟨tlvKEMShare, m.kemShare⟩]

def ClientHello.encode (m : ClientHello) : Bytes := encodeFlight m.tlvs

def decodeClientHello (payload : Bytes) : Except GoError ClientHello := do
  let values ← decodeFlight
    [tlvProfileOffer, tlvKEMOffer, tlvSigOffer, tlvAEADOffer, tlvKEMShare] payload
  match values with
  | [profiles, kemOffer, sigOffer, aeadOffer, kemShare] =>
    requireNonEmpty "ProfileOffer" profiles
    let kems ← parseU16List kemOffer "KEMOffer"
    let sigs ← parseU16List sigOffer "SigOffer"
    let aeads ← parseU16List aeadOffer "AEADOffer"
    requireNonEmpty "KEMShare" kemShare
    return { profileOffer := profiles, kemOffer := kems, sigOffer := sigs, aeadOffer := aeads
             kemShare := kemShare }
  -- not reached: `requireTLVs` has fixed the number of TLVs
  | _ => throw errHandshakeTLVOrder.err

def ServerHello.tlvs (m : ServerHello) : List TLV :=
  [⟨tlvProfileSelect, [m.profileSelect]⟩, ⟨tlvKEMSelect, putUint16 m.kemSelect⟩,
    ⟨tlvSigSelect, putUint16 m.sigSelect⟩, ⟨tlvAEADSelect, putUint16 m.aeadSelect⟩,
    ⟨tlvKEMCiphertext, m.kemCiphertext⟩]

def ServerHello.encode (m : ServerHello) : Bytes := encodeFlight m.tlvs

def decodeServerHello (payload : Bytes) : Except GoError ServerHello := do
  let values ← decodeFlight
    [tlvProfileSelect, tlvKEMSelect, tlvSigSelect, tlvAEADSelect, tlvKEMCiphertext] payload
  match values with
  | [profileSelect, kemSelect, sigSelect, aeadSelect, kemCiphertext] =>
    requireSize "ProfileSelect" 1 profileSelect
    requireSize "KEMSelect" 2 kemSelect
    requireSize "SigSelect" 2 sigSelect
    requireSize "AEADSelect" 2 aeadSelect
    requireNonEmpty "KEMCiphertext" kemCiphertext
    return { profileSelect := profileSelect.getD 0 0, kemSelect := uint16 kemSelect
             sigSelect := uint16 sigSelect, aeadSelect := uint16 aeadSelect
             kemCiphertext := kemCiphertext }
  -- not reached
  | _ => throw errHandshakeTLVOrder.err

def AuthMessage.tlvs (m : AuthMessage) : List TLV :=
  [⟨tlvIdentityKey, m.identityKey⟩, ⟨tlvCertVerify, m.certVerify⟩, ⟨tlvFinished, m.finished⟩]

def AuthMessage.encode (m : AuthMessage) : Bytes := encodeFlight m.tlvs

def decodeAuthMessage (payload : Bytes) : Except GoError AuthMessage := do
  let values ← decodeFlight [tlvIdentityKey, tlvCertVerify, tlvFinished] payload
  match values with
  | [identityKey, certVerify, finished] =>
    requireNonEmpty "IdentityKey" identityKey
    requireNonEmpty "CertVerify" certVerify
    requireNonEmpty "Finished" finished
    return { identityKey := identityKey, certVerify := certVerify, finished := finished }
  -- not reached
  | _ => throw errHandshakeTLVOrder.err

def certVerifySigningInput (role : Role) (transcriptHash : Bytes) : Except GoError Bytes :=
  if role.certVerifyContext = "" then .error errInvalidRole.err
  else
    .ok (List.replicate 64 0x20 ++ ascii role.certVerifyContext ++ [0x00] ++ transcriptHash)

def publicKeySize : Nat := 32

def signatureSize : Nat := 64

section Proofs

variable (P : Primitives)

def signCertVerify (priv : Bytes) (role : Role) (transcriptHash : Bytes) : Except GoError Bytes :=
  match certVerifySigningInput role transcriptHash with
  | .error e => .error e
  | .ok input => .ok (putUint16 sigEd25519 ++ P.ed25519Sign priv input)

def verifyCertVerify (pub : Bytes) (role : Role) (transcriptHash certVerifyValue : Bytes) :
    Except GoError Unit :=
  if pub.length ≠ publicKeySize then .error errCertVerifyKeySize.err
  else if certVerifyValue.length ≠ 2 + signatureSize then
    .error (errCertVerifySignature.errorf
      ("value is " ++ toString certVerifyValue.length ++ " octets, want "
        ++ toString (2 + signatureSize)))
  else if uint16 (certVerifyValue.take 2) ≠ sigEd25519 then .error errCertVerifyScheme.err
  else
    match certVerifySigningInput role transcriptHash with
    | .error e => .error e
    | .ok input =>
      if P.ed25519Verify pub input (certVerifyValue.drop 2) then .ok ()
      else .error errCertVerifySignature.err

def computeFinished (finishedKey transcriptHash : Bytes) (p : Profile) : Except GoError Bytes :=
  match hashForProfile p with
  | .error e => .error e
  | .ok () => .ok (P.hmac finishedKey transcriptHash)

def verifyFinished (finishedKey transcriptHash verifyData : Bytes) (p : Profile) :
    Except GoError Unit :=
  match computeFinished P finishedKey transcriptHash p with
  | .error e => .error e
  | .ok want => if want ≠ verifyData then .error errFinishedMismatch.err else .ok ()

end Proofs

end Npamp
