import Npamp.Lib.Dialogue
import Npamp.Rust.Schedule

/-!
# The session in Rust

`session.rs`. The handshake and the record layer are programs on a transport; a read is answered
with what `read_frame` makes of the octets that arrive.
-/

namespace Npamp.Rust

open Dialogue (ofExcept fail receive send)

def proto (msg : String) : IoError := ⟨"npamp/session: " ++ msg⟩

def tlv (out : Bytes) (typ : UInt16) (value : Bytes) : Bytes :=
  out ++ putUint16 typ ++ putUint16 (UInt16.ofNat value.length) ++ value

/-- The loop of `decode_tlvs`. A TLV takes at least four octets, so the length of the buffer bounds
the iterations. -/
def decodeTlvsLoop : Nat → List TLV → Bytes → Except IoError (List TLV)
  | _, out, [] => .ok out
  | 0, _, _ :: _ => .error (proto "truncated TLV")
  | fuel + 1, out, octet :: rest =>
    let buf := octet :: rest
    if buf.length < 4 then .error (proto "truncated TLV")
    else
      let typ := uint16 (slice buf 0 2)
      let ln := (uint16 (slice buf 2 4)).toNat
      if buf.length < 4 + ln then .error (proto "truncated TLV value")
      else
        decodeTlvsLoop fuel (out ++ [{ type := typ, value := slice buf 4 (4 + ln) }])
          (buf.drop (4 + ln))

def decodeTlvs (buf : Bytes) : Except IoError (List TLV) := decodeTlvsLoop buf.length [] buf

def requireOrder : List TLV → List UInt16 → Except IoError (List Bytes)
  | t :: tlvs, w :: want =>
    if t.type ≠ w then .error (proto "handshake TLV out of order") else
      match requireOrder tlvs want with
      | .error e => .error e
      | .ok vals => .ok (t.value :: vals)
  | _, _ => .ok []

def requireTlvs (tlvs : List TLV) (want : List UInt16) : Except IoError (List Bytes) :=
  if tlvs.length ≠ want.length then .error (proto "handshake TLV count mismatch")
  else requireOrder tlvs want

def decodeFlight (want : List UInt16) (payload : Bytes) : Except IoError (List Bytes) :=
  match decodeTlvs payload with
  | .error e => .error e
  | .ok tlvs => requireTlvs tlvs want

def chunksU16 : Bytes → List UInt16
  | hi :: lo :: rest => uint16 [hi, lo] :: chunksU16 rest
  | _ => []

def listContainsU16 (v : Bytes) (want : UInt16) : Bool :=
  if v.length % 2 ≠ 0 then false else (chunksU16 v).any fun c => c == want

def requireStandardOffer (vals : List Bytes) : Except IoError Unit :=
  if !(vals.getD 0 []).contains profileStandard then
    .error (proto "client did not offer the Standard profile")
  else if !listContainsU16 (vals.getD 1 []) kemX25519MLKEM768 then
    .error (proto "client did not offer X25519MLKEM768")
  else if !listContainsU16 (vals.getD 2 []) sigEd25519 then
    .error (proto "client did not offer Ed25519")
  else if !listContainsU16 (vals.getD 3 []) aeadAES256GCM then
    .error (proto "client did not offer AES-256-GCM")
  else .ok ()

def requireStandardSelect (vals : List Bytes) : Except IoError Unit :=
  if vals.getD 0 [] ≠ [profileStandard] then
    .error (proto "server selected an unsupported profile")
  else if vals.getD 1 [] ≠ putUint16 kemX25519MLKEM768 then
    .error (proto "server selected an unsupported KEM")
  else if vals.getD 2 [] ≠ putUint16 sigEd25519 then
    .error (proto "server selected an unsupported signature")
  else if vals.getD 3 [] ≠ putUint16 aeadAES256GCM then
    .error (proto "server selected an unsupported AEAD")
  else .ok ()

def kemShareLen : Nat := 1184 + 32

def kemCiphertextLen : Nat := 1088 + 32

def clientHelloTypes : List UInt16 :=
  [tlvProfileOffer, tlvKEMOffer, tlvSigOffer, tlvAEADOffer, tlvKEMShare]

def serverHelloTypes : List UInt16 :=
  [tlvProfileSelect, tlvKEMSelect, tlvSigSelect, tlvAEADSelect, tlvKEMCiphertext]

def readHello (ft : UInt16) (name : String) (want : List UInt16) (wire : Bytes) :
    Except IoError (List Bytes) :=
  match unmarshal wire with
  | .error _ => .error (proto (name ++ " parse"))
  | .ok f =>
    if f.type ≠ ft then .error (proto ("expected " ++ name)) else decodeFlight want f.payload

/-- What `accept_with_ephemeral` checks of a CLIENT_HELLO, through the length check of
`encapsulate`: the values of its TLVs. -/
def acceptClientHello (wire : Bytes) : Except IoError (List Bytes) := do
  let vals ← readHello frameClientHello "CLIENT_HELLO" clientHelloTypes wire
  requireStandardOffer vals
  if (vals.getD 4 []).length ≠ kemShareLen then .error (proto "KEMShare is not 1216 octets")
  else return vals

/-- What `dial_with_ephemeral` checks of a SERVER_HELLO, through the length check of
`shared_secrets`: the values of its TLVs. -/
def dialServerHello (wire : Bytes) : Except IoError (List Bytes) := do
  let vals ← readHello frameServerHello "SERVER_HELLO" serverHelloTypes wire
  requireStandardSelect vals
  if (vals.getD 4 []).length ≠ kemCiphertextLen then
    .error (proto "KEMCiphertext is not 1120 octets")
  else return vals

def absorb (buf : Bytes) (ft : UInt16) (types : List UInt16) (vals : List Bytes) : Bytes :=
  (types.zip vals).foldl (fun buf tv => tlv buf tv.1 tv.2) (buf ++ putUint16 ft)

def readExact (s : Bytes) (n : Nat) : Except IoError (Bytes × Bytes) :=
  if n ≤ s.length then .ok (s.take n, s.drop n) else .error ⟨"failed to fill whole buffer"⟩

def readFrame (s : Bytes) : Except IoError (Bytes × Bytes) := do
  let (header, rest) ← readExact s headerSize
  let total := headerSize + (uint32 (slice header 17 21)).toNat
  if slice header 0 4 ≠ magic then .error (proto "bad frame magic")
  else if total > maxFrameSize then .error (proto "frame exceeds max size")
  else
    let (payload, rest) ← readExact rest (total - headerSize)
    return (header ++ payload, rest)

def chanControl : ChannelID := 0x0000

def cleartextFrame (ftype : FrameType) (payload : Bytes) : Bytes :=
  marshal
    { version := 0, flags := 0, type := ftype, channel := chanControl, seq := 0, payload := payload }

def standard : Bool := true

def dirC2s : UInt8 := 0

def dirS2c : UInt8 := 1

def gcmTagLen : Nat := 16

section Frames

variable (C : Crates)

def encFrame (channel : ChannelID) (seq : UInt64) (ftype : FrameType) (payload : Bytes) : Frame :=
  { version := 0, flags := flagENC, type := ftype, channel := channel, seq := seq
    payload := payload }

def keyIv (base : Bytes) (dir : UInt8) (channel : ChannelID) : Except IoError (Bytes × Bytes) := do
  let ts ← deriveTrafficSecret C base dir 0 aeadAES256GCM channel standard
  deriveKeyIv C ts standard

def sealFrame (base : Bytes) (dir : UInt8) (channel : ChannelID) (seq : UInt64) (ftype : FrameType)
    (plaintext : Bytes) : Except IoError Bytes := do
  let (key, iv) ← keyIv C base dir channel
  let aad := (encFrame channel seq ftype []).headerPrefix
    (UInt32.ofNat (plaintext.length + gcmTagLen))
  return marshal (encFrame channel seq ftype (sealAes256gcm C key iv seq aad plaintext))

def openFrame (f : Frame) (base : Bytes) (dir : UInt8) : Except IoError Bytes := do
  let (key, iv) ← keyIv C base dir f.channel
  let aad := f.headerPrefix (UInt32.ofNat f.payload.length)
  (openAes256gcm C key iv f.seq aad f.payload).mapError fun _ => proto "AEAD open failed"

end Frames

def parseEncFrame (wire : Bytes) (want : FrameType) : Except IoError Frame :=
  match unmarshal wire with
  | .error _ => .error (proto "AUTH frame parse")
  | .ok f =>
    if f.type ≠ want then .error (proto "unexpected AUTH frame type")
    else if f.flags &&& flagENC = 0 then .error (proto "AUTH frame is not AEAD-encrypted")
    else .ok f

section Kem

variable (C : Crates)

/-- An all-zero shared secret comes from a low-order point. -/
def checkX25519 (ss : Bytes) : Except IoError Bytes :=
  if ss.all (· == 0) then .error (proto "X25519 produced an all-zero (low-order) shared secret")
  else .ok ss

def sharedSecrets (kem : KEMClient) (kemCt : Bytes) : Except IoError (Bytes × Bytes) := do
  if kemCt.length ≠ kemCiphertextLen then .error (proto "KEMCiphertext is not 1120 octets")
  else
    let mlkemSs ← (C.mlkemDecapsulate kem.mlkemKey (kemCt.take 1088)).mapError
      fun _ => proto "ML-KEM decapsulate"
    let xSs ← checkX25519 (C.diffieHellman kem.x25519Key (kemCt.drop 1088))
    return (mlkemSs, xSs)

def encapsulate (kemShare : Bytes) (rand : KEMRandom) : Except IoError (Bytes × Bytes × Bytes) := do
  if kemShare.length ≠ kemShareLen then .error (proto "KEMShare is not 1216 octets")
  else
    let (mlkemSs, ct) ← (C.mlkemEncapsulate (kemShare.take 1184) rand.mlkem).mapError
      fun _ => proto "ML-KEM encapsulate"
    let xSs ← checkX25519 (C.diffieHellman rand.x25519Key (kemShare.drop 1184))
    return (ct ++ C.x25519Public rand.x25519Key, mlkemSs, xSs)

end Kem

def encodeAuth (identity certVerify finished : Bytes) : Bytes :=
  tlv (tlv (tlv [] tlvIdentityKey identity) tlvCertVerify certVerify) tlvFinished finished

def decodeAuth (pt : Bytes) : Except IoError (Bytes × Bytes × Bytes) :=
  match decodeFlight [tlvIdentityKey, tlvCertVerify, tlvFinished] pt with
  | .error e => .error e
  | .ok vals => .ok (vals.getD 0 [], vals.getD 1 [], vals.getD 2 [])

def to32 (b : Bytes) : Except IoError Bytes :=
  if b.length ≠ 32 then .error (proto "identity key is not 32 octets") else .ok b

def vkFrom (C : Crates) (raw : Bytes) : Except IoError Bytes := do
  let raw ← to32 raw
  if C.isVerifyingKey raw then return raw else .error (proto "invalid Ed25519 identity key")

def checkPin (expectedPeer : Option Bytes) (peer : Bytes) (name : String) : Except IoError Unit :=
  match expectedPeer with
  | none => .ok ()
  | some exp =>
    if peer ≠ exp then .error (proto (name ++ " identity does not match the pinned key"))
    else .ok ()

abbrev Call (α : Type) := Dialogue IoError Bytes Bytes Empty α

/-- What sets the AUTH flight of one side apart from the other's. -/
structure AuthSide where
  frameType : FrameType
  isServer : Bool
  dir : UInt8
  name : String

def serverSide : AuthSide := ⟨frameServerAuth, true, dirS2c, "server"⟩

def clientSide : AuthSide := ⟨frameClientAuth, false, dirC2s, "client"⟩

section Auth

variable (C : Crates)

/-- The AUTH flight of `side`, read under `secret` behind the transcript `t`: the peer's key, its
Finished, and the transcript through its CertVerify. -/
def recvAuth (side : AuthSide) (secret t : Bytes) (expectedPeer : Option Bytes) :
    Call (Bytes × Bytes × Bytes) := do
  let wire ← receive
  let f ← ofExcept (parseEncFrame wire side.frameType)
  let pt ← ofExcept (openFrame C f secret side.dir)
  let (id, cv, fin) ← ofExcept (decodeAuth pt)
  let t := tlv (t ++ putUint16 side.frameType) tlvIdentityKey id
  let vk ← ofExcept (vkFrom C id)
  let thId ← ofExcept (transcriptHash C t standard)
  if verifyCertVerify C vk side.isServer thId cv = false then
    fail (proto (side.name ++ " CertVerify rejected"))
  else
    let t := tlv t tlvCertVerify cv
    let finKey ← ofExcept (finishedKey C secret standard)
    let thCv ← ofExcept (transcriptHash C t standard)
    let verified ← ofExcept (verifyFinished C finKey thCv fin standard)
    if verified = false then fail (proto (side.name ++ " Finished rejected"))
    else
      let peer ← ofExcept (to32 id)
      ofExcept (checkPin expectedPeer peer side.name)
      return (peer, fin, t)

def sendAuth (side : AuthSide) (identity secret t : Bytes) : Call (Bytes × Bytes) := do
  let pub := C.ed25519Public identity
  let t := tlv (t ++ putUint16 side.frameType) tlvIdentityKey pub
  let thId ← ofExcept (transcriptHash C t standard)
  let cv := signCertVerify C identity side.isServer thId
  let t := tlv t tlvCertVerify cv
  let thCv ← ofExcept (transcriptHash C t standard)
  let finKey ← ofExcept (finishedKey C secret standard)
  let fin ← ofExcept (computeFinished C finKey thCv standard)
  let wire ← ofExcept
    (sealFrame C secret side.dir chanControl 0 side.frameType (encodeAuth pub cv fin))
  send wire
  return (fin, t)

end Auth

structure Session where
  master : Bytes
  peerIdentity : Bytes
  sendDir : UInt8
  recvDir : UInt8
  deriving DecidableEq, Repr

def offerVals (kemShare : Bytes) : List Bytes :=
  [[profileStandard], putUint16 kemX25519MLKEM768, putUint16 sigEd25519, putUint16 aeadAES256GCM,
    kemShare]

def selectVals (kemCt : Bytes) : List Bytes :=
  [[profileStandard], putUint16 kemX25519MLKEM768, putUint16 sigEd25519, putUint16 aeadAES256GCM,
    kemCt]

def encodeHello (types : List UInt16) (vals : List Bytes) : Bytes :=
  (types.zip vals).foldl (fun out tv => tlv out tv.1 tv.2) []

section Handshake

variable (C : Crates)

def handshakeSecrets (mlkemSs xSs t : Bytes) : Except IoError (Bytes × Bytes × Bytes) := do
  let hs ← deriveHandshakeSecret C mlkemSs xSs standard
  let thKem ← transcriptHash C t standard
  let cHs ← deriveClientHandshakeSecret C hs thKem standard
  let sHs ← deriveServerHandshakeSecret C hs thKem standard
  return (hs, cHs, sHs)

def dialWithEphemeral (identity : Bytes) (expectedPeer : Option Bytes) (kem : KEMClient) :
    Call Session := do
  let chVals := offerVals (kem.kemShare C.toPrimitives)
  send (cleartextFrame frameClientHello (encodeHello clientHelloTypes chVals))
  let t := absorb [] frameClientHello clientHelloTypes chVals
  let shWire ← receive
  let shVals ← ofExcept (dialServerHello shWire)
  let t := absorb t frameServerHello serverHelloTypes shVals
  let (mlkemSs, xSs) ← ofExcept (sharedSecrets C kem (shVals.getD 4 []))
  let (hs, cHs, sHs) ← ofExcept (handshakeSecrets C mlkemSs xSs t)
  -- the pin is checked before CLIENT_AUTH is sent
  let (peer, sFin, t) ← recvAuth C serverSide sHs t expectedPeer
  let t := tlv t tlvFinished sFin
  let (_, t) ← sendAuth C clientSide identity cHs t
  let thCcv ← ofExcept (transcriptHash C t standard)
  let master ← ofExcept (deriveMasterSecret C hs thCcv standard)
  return { master := master, peerIdentity := peer, sendDir := dirC2s, recvDir := dirS2c }

def acceptWithEphemeral (identity : Bytes) (expectedPeer : Option Bytes) (rand : KEMRandom) :
    Call Session := do
  let chWire ← receive
  let chVals ← ofExcept (acceptClientHello chWire)
  let t := absorb [] frameClientHello clientHelloTypes chVals
  let (kemCt, mlkemSs, xSs) ← ofExcept (encapsulate C (chVals.getD 4 []) rand)
  send (cleartextFrame frameServerHello (encodeHello serverHelloTypes (selectVals kemCt)))
  let t := absorb t frameServerHello serverHelloTypes (selectVals kemCt)
  let (hs, cHs, sHs) ← ofExcept (handshakeSecrets C mlkemSs xSs t)
  let (sFin, t) ← sendAuth C serverSide identity sHs t
  let t := tlv t tlvFinished sFin
  let (peer, _, t) ← recvAuth C clientSide cHs t expectedPeer
  let thCcv ← ofExcept (transcriptHash C t standard)
  let master ← ofExcept (deriveMasterSecret C hs thCcv standard)
  return { master := master, peerIdentity := peer, sendDir := dirS2c, recvDir := dirC2s }

end Handshake

section Records

variable (C : Crates)

def Session.sendRecord (s : Session) (channel : ChannelID) (ftype : FrameType) (seq : UInt64)
    (payload : Bytes) : Call Unit := do
  let wire ← ofExcept (sealFrame C s.master s.sendDir channel seq ftype payload)
  send wire

def Session.openRecord (s : Session) (wantSeq : UInt64) (wire : Bytes) :
    Except IoError (ChannelID × FrameType × Bytes) :=
  match unmarshal wire with
  | .error _ => .error (proto "data frame parse")
  | .ok f =>
    if f.flags &&& flagENC = 0 then .error (proto "data frame is not AEAD-encrypted")
    else if f.seq ≠ wantSeq then .error (proto "out-of-sequence data frame")
    else
      match openFrame C f s.master s.recvDir with
      | .error e => .error e
      | .ok pt => .ok (f.channel, f.type, pt)

def Session.recvRecord (s : Session) (wantSeq : UInt64) : Call (ChannelID × FrameType × Bytes) := do
  let wire ← receive
  ofExcept (s.openRecord C wantSeq wire)

end Records

end Npamp.Rust
