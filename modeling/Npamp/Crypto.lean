import Npamp.Transcript

/-!
# Key schedule, KEM and record protection

What `keyschedule.go`, `kem.go` and `aead.go` compute. `Primitives.Correct` states what the
documentation of the primitives promises.
-/

namespace Npamp

abbrev AEADID := UInt16

def aeadAES256GCM : AEADID := 0x0001

inductive Direction where
  | clientToServer
  | serverToClient
  deriving DecidableEq, Repr

def Direction.octet : Direction → UInt8
  | clientToServer => 0
  | serverToClient => 1

section KeySchedule

variable (P : Primitives)

def hkdfExpandLabel (secret : Bytes) (label : String) (context : Bytes) (length : Nat) : Bytes :=
  let full := ascii "n-pamp " ++ ascii label
  P.hkdfExpand secret
    (putUint16 (UInt16.ofNat length) ++ [UInt8.ofNat full.length] ++ full
      ++ [UInt8.ofNat context.length] ++ context)
    length

def expandForProfile (p : Profile) (secret : Bytes) (label : String) (context : Bytes)
    (length : Nat) : Except GoError Bytes :=
  match hashForProfile p with
  | .error e => .error e
  | .ok () => .ok (hkdfExpandLabel P secret label context length)

def deriveTrafficSecret (master : Bytes) (dir : Direction) (epoch : UInt64) (suite : AEADID)
    (channel : ChannelID) (p : Profile) : Except GoError Bytes :=
  expandForProfile P p master "traffic"
    (dir.octet :: (putUint64 epoch ++ putUint16 suite ++ putUint16 channel)) hashSize

def handshakeSecret (combined : Bytes) (p : Profile) : Except GoError Bytes :=
  match hashForProfile p with
  | .error e => .error e
  | .ok () => .ok (P.hkdfExtract combined (List.replicate hashSize 0))

def deriveHandshakeTrafficSecrets (hs thKEM : Bytes) (p : Profile) :
    Except GoError (Bytes × Bytes) :=
  match expandForProfile P p hs "c hs" thKEM hashSize with
  | .error e => .error e
  | .ok cHS =>
    match expandForProfile P p hs "s hs" thKEM hashSize with
    | .error e => .error e
    | .ok sHS => .ok (cHS, sHS)

def deriveMasterSecret (hs thCCV : Bytes) (p : Profile) : Except GoError Bytes :=
  expandForProfile P p hs "master" thCCV hashSize

def deriveFinishedKey (trafficSecret : Bytes) (p : Profile) : Except GoError Bytes :=
  expandForProfile P p trafficSecret "finished" [] hashSize

def ratchetMasterTier1 (master : Bytes) (targetGen : UInt64) (p : Profile) : Except GoError Bytes :=
  expandForProfile P p master "master ratchet" (putUint64 targetGen) hashSize

def ratchetMasterTier2 (master newSS thRekem : Bytes) (p : Profile) : Except GoError Bytes :=
  match hashForProfile p with
  | .error e => .error e
  | .ok () =>
    expandForProfile P p (P.hkdfExtract newSS master) "master ratchet rekem" thRekem hashSize

def deriveKeyIV (secret : Bytes) (p : Profile) : Except GoError (Bytes × Bytes) :=
  match expandForProfile P p secret "key" [] 32 with
  | .error e => .error e
  | .ok key =>
    match expandForProfile P p secret "iv" [] 12 with
    | .error e => .error e
    | .ok iv => .ok (key, iv)

end KeySchedule

def deriveNonce (iv : Bytes) (seq : UInt64) : Bytes :=
  List.zipWith (· ^^^ ·) (List.replicate 4 0 ++ putUint64 seq) iv

def sealAES256GCM (P : Primitives) (key iv : Bytes) (seq : UInt64) (aad plaintext : Bytes) : Bytes :=
  P.gcmSeal key (deriveNonce iv seq) plaintext aad

def openAES256GCM (P : Primitives) (key iv : Bytes) (seq : UInt64) (aad sealed : Bytes) :
    Except GoError Bytes :=
  P.gcmOpen key (deriveNonce iv seq) sealed aad

def kemShareSize768 : Nat := 1184 + 32

def kemCiphertextSize768 : Nat := 1088 + 32

structure SharedSecrets where
  mlkem : Bytes
  x25519 : Bytes
  deriving DecidableEq, Repr

def SharedSecrets.combined (s : SharedSecrets) : Bytes := s.mlkem ++ s.x25519

structure KEMClient where
  mlkemKey : Bytes
  x25519Key : Bytes
  length_mlkemKey : mlkemKey.length = 64
  length_x25519Key : x25519Key.length = 32

structure KEMRandom where
  mlkem : Bytes
  x25519Key : Bytes
  length_x25519Key : x25519Key.length = 32

def KEMClient.kemShare (P : Primitives) (c : KEMClient) : Bytes :=
  P.mlkemEncapsulationKey c.mlkemKey ++ P.x25519Public c.x25519Key

def KEMClient.sharedSecrets (P : Primitives) (c : KEMClient) (kemCiphertext : Bytes) :
    Except GoError SharedSecrets :=
  if kemCiphertext.length ≠ kemCiphertextSize768 then .error Sentinel.errKEMCiphertextSize.err
  else
    match P.mlkemDecapsulate c.mlkemKey (kemCiphertext.take 1088) with
    | .error e => .error (wrapf "npamp: ML-KEM-768 decapsulate" e)
    | .ok mlkem =>
      match P.x25519 c.x25519Key (kemCiphertext.drop 1088) with
      | .error e => .error (wrapf "npamp: X25519 exchange" e)
      | .ok x25519 => .ok { mlkem := mlkem, x25519 := x25519 }

def encapsulate (P : Primitives) (kemShare : Bytes) (rand : KEMRandom) :
    Except GoError (Bytes × SharedSecrets) :=
  if kemShare.length ≠ kemShareSize768 then .error Sentinel.errKEMShareSize.err
  else
    match P.mlkemEncapsulate (kemShare.take 1184) rand.mlkem with
    | .error e => .error (wrapf "npamp: ML-KEM-768 encapsulation key" e)
    | .ok (mlkem, ct) =>
      match P.x25519 rand.x25519Key (kemShare.drop 1184) with
      | .error e => .error (wrapf "npamp: X25519 exchange" e)
      | .ok x25519 =>
        .ok (ct ++ P.x25519Public rand.x25519Key, { mlkem := mlkem, x25519 := x25519 })

/-- The documented behaviour of the primitives: AES-256-GCM opens what it sealed, ML-KEM-768 and
X25519 agree on keys made by the library, and all sizes are as documented. -/
structure Primitives.Correct (P : Primitives) : Prop where
  open_seal (key nonce plaintext aad : Bytes) :
    P.gcmOpen key nonce (P.gcmSeal key nonce plaintext aad) aad = .ok plaintext
  length_seal (key nonce plaintext aad : Bytes) :
    (P.gcmSeal key nonce plaintext aad).length = plaintext.length + 16
  length_encapsulationKey (dk : Bytes) (hdk : dk.length = 64) :
    (P.mlkemEncapsulationKey dk).length = 1184
  length_ciphertext (ek rand ss ct : Bytes) (h : P.mlkemEncapsulate ek rand = .ok (ss, ct)) :
    ct.length = 1088
  decapsulate (dk rand : Bytes) (hdk : dk.length = 64) :
    ∃ ss ct, P.mlkemEncapsulate (P.mlkemEncapsulationKey dk) rand = .ok (ss, ct)
      ∧ P.mlkemDecapsulate dk ct = .ok ss
  length_x25519Public (sk : Bytes) (hsk : sk.length = 32) : (P.x25519Public sk).length = 32
  x25519_agree (a b : Bytes) (ha : a.length = 32) (hb : b.length = 32) :
    ∃ ss, P.x25519 a (P.x25519Public b) = .ok ss ∧ P.x25519 b (P.x25519Public a) = .ok ss

end Npamp
