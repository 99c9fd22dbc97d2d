import Npamp.Lib.Dialogue
import Npamp.Handshake
import Npamp.Sdk.Conn

/-!
# The handshake runs

`sdk/handshake.go`. A read is answered with whatever `readFrame` returns on a hostile byte stream.
The events a run notes change nothing in it.
-/

namespace Npamp

open Dialogue (ofExcept fail receive send observe)

/-- An AUTH frame a run hands to its connection, with the values its two proofs are made from and
the handshake secret it was made under. -/
structure AuthSent where
  role : Role
  ch : ClientHello
  sh : ServerHello
  hs : Bytes
  peerKey : Option Bytes
  identityKey : Bytes
  certVerify : Bytes
  th : Bytes
  finishedKey : Bytes
  thCV : Bytes
  deriving DecidableEq, Repr

/-- A proof is noted when a run is about to check it, and an AUTH when it is about to write it. -/
inductive HandshakeEvent where
  | certVerifyReceived (role : Role) (pub th certVerify : Bytes)
  | finishedReceived (finishedKey th finished : Bytes)
  | authSent (a : AuthSent)
  deriving DecidableEq, Repr

abbrev Handshake (α : Type) := Dialogue GoError Bytes Bytes HandshakeEvent α

/-- `localIdentity`, as `resolveIdentity` fills it. A nil key is the empty list. -/
structure LocalIdentity (P : Primitives) where
  edPriv : Bytes
  edPub : Bytes
  profiles : List Profile
  edPub_eq : edPub = P.ed25519Public edPriv

def profilesOrDefault (profiles : List Profile) : List Profile :=
  if profiles.length = 0 then [profileStandard] else profiles

def validateProfiles : List Profile → Except GoError Unit
  | [] => .ok ()
  | p :: rest =>
    if p.valid = false then
      .error (errorf ("npamp/sdk: Config.Profiles contains invalid profile 0x"
        ++ hexPad 2 p.toNat))
    else if p ≠ profileStandard then
      .error (wrapf ("npamp/sdk: Config.Profiles offers/accepts profile " ++ p.string)
        Sentinel.errNoSuiteForProfile.err)
    else validateProfiles rest

def selectProfile (offered allowed : List Profile) : Except GoError Profile :=
  match allowed.find? fun p => offered.contains p with
  | some p => .ok p
  | none =>
    .error (errorf "npamp/sdk: no profile in the client's offer is acceptable to this server")

def requireSelections (sh : ServerHello) (offeredProfiles : List Profile) (wantKEM : KEMID) :
    Except GoError Unit :=
  if offeredProfiles.contains sh.profileSelect = false then
    .error (errorf ("npamp/sdk: server selected profile 0x" ++ hexPad 2 sh.profileSelect.toNat
      ++ ", which this client did not offer"))
  else if sh.kemSelect ≠ wantKEM then
    .error (Sentinel.errKEMDowngrade.errorf ("server selected KEM 0x"
      ++ hexPad 4 sh.kemSelect.toNat ++ ", this client generated key material only for 0x"
      ++ hexPad 4 wantKEM.toNat))
  else if sh.profileSelect.minKEM ≠ wantKEM then
    .error (Sentinel.errKEMDowngrade.errorf ("server selected profile "
      ++ Profile.string sh.profileSelect ++ " (minimum KEM 0x"
      ++ hexPad 4 (Profile.minKEM sh.profileSelect).toNat ++ ") with KEM 0x"
      ++ hexPad 4 wantKEM.toNat))
  else if sh.sigSelect ≠ sigEd25519 then
    .error (errorf ("npamp/sdk: server selected signature 0x" ++ hexPad 4 sh.sigSelect.toNat
      ++ ", want 0x" ++ hexPad 4 sigEd25519.toNat ++ " for profile "
      ++ Profile.string sh.profileSelect))
  else if sh.aeadSelect ≠ aeadAES256GCM then
    .error (errorf ("npamp/sdk: server selected unsupported AEAD 0x"
      ++ hexPad 4 sh.aeadSelect.toNat))
  else .ok ()

def requireOffers (ch : ClientHello) (allowedProfiles : List Profile) : Except GoError Profile :=
  match selectProfile ch.profileOffer allowedProfiles with
  | .error e => .error e
  | .ok p =>
    if ch.kemOffer.contains p.minKEM = false then
      .error (errorf ("npamp/sdk: client did not offer KEM 0x" ++ hexPad 4 p.minKEM.toNat
        ++ " required for profile " ++ p.string))
    else if ch.sigOffer.contains sigEd25519 = false then
      .error (errorf ("npamp/sdk: client did not offer signature 0x"
        ++ hexPad 4 sigEd25519.toNat ++ " required for profile " ++ p.string))
    else if ch.aeadOffer.contains aeadAES256GCM = false then
      .error (errorf "npamp/sdk: client did not offer AES-256-GCM")
    else .ok p

section Frames

variable (P : Primitives)

/-- `deriveKeyIV` of `conn.go`: the epoch-0 key of a handshake secret. -/
def handshakeKeyIV (baseSecret : Bytes) (dir : Direction) (channel : ChannelID) (p : Profile) :
    Except GoError (Bytes × Bytes) :=
  match deriveTrafficSecret P baseSecret dir 0 aeadAES256GCM channel p with
  | .error e => .error e
  | .ok ts => deriveKeyIV P ts p

def sealFrame (baseSecret : Bytes) (dir : Direction) (channel : ChannelID) (seq : UInt64)
    (ft : FrameType) (plaintext : Bytes) (p : Profile) : Except GoError Bytes :=
  match handshakeKeyIV P baseSecret dir channel p with
  | .error e => .error e
  | .ok (key, iv) =>
    .ok (recordFrame seq channel ft
      (sealAES256GCM P key iv seq (recordAAD seq channel ft plaintext) plaintext)).marshalBinary

def openFrame (f : Frame) (baseSecret : Bytes) (dir : Direction) (p : Profile) :
    Except GoError Bytes :=
  match handshakeKeyIV P baseSecret dir f.channel p with
  | .error e => .error e
  | .ok (key, iv) =>
    openAES256GCM P key iv f.seq (f.headerPrefix (UInt32.ofNat f.payload.length)) f.payload

def errWrongType (got want : FrameType) : GoError :=
  errorf ("npamp/sdk: got frame type 0x" ++ hexPad 4 got.toNat ++ ", want 0x"
    ++ hexPad 4 want.toNat)

/-- `openAuthFrame`. A failure comes with the ERROR code it is reported under. -/
def openAuthFrame (wire : Bytes) (want : FrameType) (baseSecret : Bytes) (dir : Direction)
    (p : Profile) : Except (SessionErrorCode × GoError) AuthMessage :=
  match unmarshalBinary wire with
  | .error e => .error (errCodeUnexpectedMessage, e)
  | .ok f =>
    if f.type ≠ want then .error (errCodeUnexpectedMessage, errWrongType f.type want)
    else if f.flags &&& flagENC = 0 then
      .error (errCodeUnexpectedMessage, errorf "npamp/sdk: AUTH frame is not AEAD-encrypted")
    else
      match openFrame P f baseSecret dir p with
      | .error e => .error (errCodeDecryptFailed, e)
      | .ok pt =>
        match decodeAuthMessage pt with
        | .error e => .error (errCodeDecryptFailed, e)
        | .ok am => .ok am

def writeFrame (frame : Bytes) : Handshake Unit := do
  if frame.length < headerSize then
    fail (errorf ("npamp/sdk: frame too short (" ++ toString frame.length ++ " < "
      ++ toString headerSize ++ ")"))
  else if frame.length > maxFrameSize then
    fail (errorf ("npamp/sdk: frame size " ++ toString frame.length ++ " exceeds max "
      ++ toString maxFrameSize))
  else send frame

def sendCleartext (ft : FrameType) (payload : Bytes) : Handshake Unit :=
  writeFrame (Frame.marshalBinary
    { version := 0, flags := 0, type := ft, channel := chanControl, seq := 0, payload := payload })

def openCleartext (want : FrameType) (wire : Bytes) : Except GoError Bytes :=
  match unmarshalBinary wire with
  | .error e => .error e
  | .ok f =>
    if f.type ≠ want then .error (errWrongType f.type want)
    else if f.flags &&& flagENC ≠ 0 then
      .error (errorf "npamp/sdk: handshake hello frame unexpectedly encrypted")
    else .ok f.payload

def recvCleartext (want : FrameType) : Handshake Bytes := do
  let wire ← receive
  ofExcept (openCleartext want wire)

/-- `emitHandshakeError`: a seal or write failure is swallowed, the run ends with `wrapped`. -/
def emitHandshakeError {α : Type} (baseSecret : Bytes) (dir : Direction) (seq : UInt64)
    (code : SessionErrorCode) (p : Profile) (wrapped : GoError) : Handshake α :=
  match sealFrame P baseSecret dir chanControl seq frameError (encodeErrorBody code []) p with
  | .error _ => fail wrapped
  | .ok wire => (writeFrame wire).andThen fun _ => fail wrapped

end Frames

structure PostKey where
  ch : ClientHello
  sh : ServerHello
  p : Profile
  t : Transcript
  hs : Bytes
  cHS : Bytes
  sHS : Bytes

/-- What sets the AUTH flight of one side apart from the other's. -/
structure AuthSide where
  role : Role
  frameType : FrameType
  dir : Direction
  frameName : String
  sideName : String

def serverSide : AuthSide :=
  { role := roleServer, frameType := frameServerAuth, dir := .serverToClient
    frameName := "SERVER_AUTH", sideName := "server" }

def clientSide : AuthSide :=
  { role := roleClient, frameType := frameClientAuth, dir := .clientToServer
    frameName := "CLIENT_AUTH", sideName := "client" }

def PostKey.secret (k : PostKey) : Direction → Bytes
  | .clientToServer => k.cHS
  | .serverToClient => k.sHS

def LocalIdentity.keyBytes {P : Primitives} (id : LocalIdentity P) : Except GoError Bytes :=
  if id.edPub.length = 0 then .error (errorf "npamp/sdk: no Ed25519 identity is configured")
  else .ok id.edPub

def LocalIdentity.signCertVerify {P : Primitives} (id : LocalIdentity P) (role : Role)
    (th : Bytes) : Except GoError Bytes :=
  if id.edPriv.length = 0 then .error (errorf "npamp/sdk: no Ed25519 identity is configured")
  else Npamp.signCertVerify P id.edPriv role th

section Runs

variable (P : Primitives)

def clientHellos (id : LocalIdentity P) (kem768 : KEMClient) : Handshake PostKey := do
  let profiles := profilesOrDefault id.profiles
  ofExcept (validateProfiles profiles)
  let ch : ClientHello :=
    { profileOffer := profiles, kemOffer := [kemX25519MLKEM768], sigOffer := [sigEd25519]
      aeadOffer := [aeadAES256GCM], kemShare := kem768.kemShare P }
  (sendCleartext frameClientHello ch.encode).wrapError (wrapf "npamp/sdk: send CLIENT_HELLO")
  let shPayload ←
    (recvCleartext frameServerHello).wrapError (wrapf "npamp/sdk: recv SERVER_HELLO")
  let sh ← ofExcept
    ((decodeServerHello shPayload).mapError (wrapf "npamp/sdk: decode SERVER_HELLO"))
  ofExcept (requireSelections sh profiles kemX25519MLKEM768)
  let p := sh.profileSelect
  let t ← ofExcept (newTranscript p)
  let t := (t.addFrame frameClientHello ch.tlvs).addFrame frameServerHello sh.tlvs
  let ss ← ofExcept
    ((kem768.sharedSecrets P sh.kemCiphertext).mapError (wrapf "npamp/sdk: KEM decapsulate"))
  let hs ← ofExcept (handshakeSecret P ss.combined p)
  let secrets ← ofExcept (deriveHandshakeTrafficSecrets P hs (t.sum P) p)
  return { ch := ch, sh := sh, p := p, t := t, hs := hs, cHS := secrets.1, sHS := secrets.2 }

def serverHellos (id : LocalIdentity P) (rand : KEMRandom) : Handshake PostKey := do
  let allowed := profilesOrDefault id.profiles
  ofExcept (validateProfiles allowed)
  let chPayload ←
    (recvCleartext frameClientHello).wrapError (wrapf "npamp/sdk: recv CLIENT_HELLO")
  let ch ← ofExcept
    ((decodeClientHello chPayload).mapError (wrapf "npamp/sdk: decode CLIENT_HELLO"))
  let p ← ofExcept (requireOffers ch allowed)
  let t ← ofExcept (newTranscript p)
  let t := t.addFrame frameClientHello ch.tlvs
  let kem ← ofExcept
    ((encapsulate P ch.kemShare rand).mapError (wrapf "npamp/sdk: KEM encapsulate"))
  let hs ← ofExcept (handshakeSecret P kem.2.combined p)
  let sh : ServerHello :=
    { profileSelect := p, kemSelect := p.minKEM, sigSelect := sigEd25519
      aeadSelect := aeadAES256GCM, kemCiphertext := kem.1 }
  (sendCleartext frameServerHello sh.encode).wrapError (wrapf "npamp/sdk: send SERVER_HELLO")
  let t := t.addFrame frameServerHello sh.tlvs
  let secrets ← ofExcept (deriveHandshakeTrafficSecrets P hs (t.sum P) p)
  return { ch := ch, sh := sh, p := p, t := t, hs := hs, cHS := secrets.1, sHS := secrets.2 }

/-- The AUTH flight of `peer`, read by `own`: the message, and the transcript through its
CertVerify. A failure is reported in an ERROR sealed at `errSeq` under the key of `own`. -/
def recvAuth (k : PostKey) (t : Transcript) (peer own : AuthSide) (errSeq : UInt64) :
    Handshake (AuthMessage × Transcript) := do
  let wire ← receive.wrapError (wrapf ("npamp/sdk: recv " ++ peer.frameName))
  match openAuthFrame P wire peer.frameType (k.secret peer.dir) peer.dir k.p with
  | .error (code, e) =>
    emitHandshakeError P (k.secret own.dir) own.dir errSeq code k.p
      (wrapf ("npamp/sdk: open " ++ peer.frameName) e)
  | .ok auth =>
    let tId := (t.addFrameType peer.frameType).addTLV ⟨tlvIdentityKey, auth.identityKey⟩
    observe (.certVerifyReceived peer.role auth.identityKey (tId.sum P) auth.certVerify)
    match verifyCertVerify P auth.identityKey peer.role (tId.sum P) auth.certVerify with
    | .error e =>
      emitHandshakeError P (k.secret own.dir) own.dir errSeq errCodeDecryptFailed k.p
        (wrapf ("npamp/sdk: " ++ peer.sideName ++ " CertVerify") e)
    | .ok () =>
      let tCV := tId.addTLV ⟨tlvCertVerify, auth.certVerify⟩
      let finKey ← ofExcept (deriveFinishedKey P (k.secret peer.dir) k.p)
      observe (.finishedReceived finKey (tCV.sum P) auth.finished)
      match verifyFinished P finKey (tCV.sum P) auth.finished k.p with
      | .error e =>
        emitHandshakeError P (k.secret own.dir) own.dir errSeq errCodeDecryptFailed k.p
          (wrapf ("npamp/sdk: " ++ peer.sideName ++ " Finished") e)
      | .ok () => return (auth, tCV)

def sendAuth (id : LocalIdentity P) (k : PostKey) (t : Transcript) (own : AuthSide)
    (peerKey : Option Bytes) : Handshake (AuthMessage × Transcript) := do
  let localPub ← ofExcept id.keyBytes
  let tId := (t.addFrameType own.frameType).addTLV ⟨tlvIdentityKey, localPub⟩
  let certVerify ← ofExcept (id.signCertVerify own.role (tId.sum P))
  let tCV := tId.addTLV ⟨tlvCertVerify, certVerify⟩
  let finKey ← ofExcept (deriveFinishedKey P (k.secret own.dir) k.p)
  let finished ← ofExcept (computeFinished P finKey (tCV.sum P) k.p)
  let auth : AuthMessage :=
    { identityKey := localPub, certVerify := certVerify, finished := finished }
  let wire ← ofExcept
    (sealFrame P (k.secret own.dir) own.dir chanControl 0 own.frameType auth.encode k.p)
  observe (.authSent
    { role := own.role, ch := k.ch, sh := k.sh, hs := k.hs, peerKey := peerKey
      identityKey := localPub, certVerify := certVerify, th := tId.sum P, finishedKey := finKey
      thCV := tCV.sum P })
  (writeFrame wire).wrapError (wrapf ("npamp/sdk: send " ++ own.frameName))
  return (auth, tCV)

def checkPin (expectedPeer : Option Bytes) (peerID : Bytes) (sideName : String) :
    Except GoError Unit :=
  match expectedPeer with
  | none => .ok ()
  | some key =>
    if peerID ≠ key then
      .error (errorf ("npamp/sdk: " ++ sideName ++ " identity does not match the pinned key"))
    else .ok ()

/-- `runClientHandshake` with the KEM key `kem768`: the master secret, the peer's identity key and
the profile. -/
def runClientHandshake (id : LocalIdentity P) (expectedPeer : Option Bytes) (kem768 : KEMClient) :
    Handshake (Bytes × Bytes × Profile) := do
  let k ← clientHellos P id kem768
  let (sAuth, t) ← recvAuth P k k.t serverSide clientSide 0
  let t := t.addTLV ⟨tlvFinished, sAuth.finished⟩
  -- before CLIENT_AUTH: the client does not authenticate to an impostor
  ofExcept (checkPin expectedPeer sAuth.identityKey "server")
  let (_, t) ← sendAuth P id k t clientSide (some sAuth.identityKey)
  let master ← ofExcept (deriveMasterSecret P k.hs (t.sum P) k.p)
  return (master, sAuth.identityKey, k.p)

def runServerHandshake (id : LocalIdentity P) (expectedPeer : Option Bytes) (rand : KEMRandom) :
    Handshake (Bytes × Bytes × Profile) := do
  let k ← serverHellos P id rand
  let (auth, t) ← sendAuth P id k k.t serverSide none
  let t := t.addTLV ⟨tlvFinished, auth.finished⟩
  -- SERVER_AUTH took sequence number 0, so an ERROR takes 1
  let (cAuth, t) ← recvAuth P k t clientSide serverSide 1
  ofExcept (checkPin expectedPeer cAuth.identityKey "client")
  let master ← ofExcept (deriveMasterSecret P k.hs (t.sum P) k.p)
  return (master, cAuth.identityKey, k.p)

end Runs

inductive Party (P : Primitives) where
  | client (id : LocalIdentity P) (expectedPeer : Option Bytes) (kem768 : KEMClient)
  | server (id : LocalIdentity P) (expectedPeer : Option Bytes) (rand : KEMRandom)

def Party.run {P : Primitives} : Party P → Handshake (Bytes × Bytes × Profile)
  | client id expectedPeer kem768 => runClientHandshake P id expectedPeer kem768
  | server id expectedPeer rand => runServerHandshake P id expectedPeer rand

def Party.key {P : Primitives} : Party P → Bytes
  | client id _ _ => id.edPub
  | server id _ _ => id.edPub

def Party.isClient {P : Primitives} : Party P → Bool
  | client .. => true
  | server .. => false

abbrev HandshakeRun (P : Primitives) :=
  Dialogue.Session (Party P) GoError Bytes Bytes HandshakeEvent (Bytes × Bytes × Profile)

end Npamp
