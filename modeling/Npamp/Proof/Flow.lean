import Npamp.Proof.Records

/-!
# The honest handshake

The messages, the secrets and the frames that follow from the two long-term keys and the KEM
exchange, for no implementation in particular.
-/

namespace Npamp

open List
open Dialogue

/-- The values both implementations put into a handshake between them. -/
structure Flow where
  profiles : List Profile
  kemShare : Bytes
  kemCT : Bytes
  ss : SharedSecrets
  clientKey : Bytes
  serverKey : Bytes

def signingInput (role : Role) (th : Bytes) : Bytes :=
  replicate 64 0x20 ++ ascii role.certVerifyContext ++ [0x00] ++ th

def helloWire (ft : FrameType) (payload : Bytes) : Bytes :=
  Frame.marshalBinary
    { version := 0, flags := 0, type := ft, channel := chanControl, seq := 0, payload := payload }

namespace Flow

variable (P : Primitives) (x : Flow)

def ch : ClientHello where
  profileOffer := x.profiles
  kemOffer := [kemX25519MLKEM768]
  sigOffer := [sigEd25519]
  aeadOffer := [aeadAES256GCM]
  kemShare := x.kemShare

def sh : ServerHello where
  profileSelect := profileStandard
  kemSelect := kemX25519MLKEM768
  sigSelect := sigEd25519
  aeadSelect := aeadAES256GCM
  kemCiphertext := x.kemCT

def hs : Bytes := P.hkdfExtract x.ss.combined (replicate hashSize 0)

def secret : Direction → Bytes
  | .clientToServer => hkdfExpandLabel P (x.hs P) "c hs" (P.sha256 (helloOctets x.ch x.sh)) hashSize
  | .serverToClient => hkdfExpandLabel P (x.hs P) "s hs" (P.sha256 (helloOctets x.ch x.sh)) hashSize

def key : Direction → Bytes
  | .clientToServer => x.clientKey
  | .serverToClient => x.serverKey

/-- The AUTH of a side, over the octets before it. -/
def auth (side : AuthSide) (before : Bytes) : AuthMessage :=
  let pub := P.ed25519Public (x.key side.dir)
  let th := P.sha256 (idPoint before side.frameType pub)
  let certVerify :=
    putUint16 sigEd25519 ++ P.ed25519Sign (x.key side.dir) (signingInput side.role th)
  let thCV := P.sha256 (cvPoint before side.frameType pub certVerify)
  { identityKey := pub
    certVerify := certVerify
    finished := P.hmac (finishedKey P (x.secret P side.dir)) thCV }

def serverAuth : AuthMessage := x.auth P serverSide (helloOctets x.ch x.sh)

def beforeClient : Bytes := serverAuthOctets x.ch x.sh (x.serverAuth P)

def clientAuth : AuthMessage := x.auth P clientSide (x.beforeClient P)

def master : Bytes :=
  hkdfExpandLabel P (x.hs P) "master"
    (P.sha256 (cvPoint (x.beforeClient P) frameClientAuth (x.clientAuth P).identityKey
      (x.clientAuth P).certVerify)) hashSize

def authWire (side : AuthSide) (m : AuthMessage) : Bytes :=
  recordWire P (x.secret P side.dir) side.dir chanControl 0 side.frameType m.encode

def chWire : Bytes := helloWire frameClientHello x.ch.encode

def shWire : Bytes := helloWire frameServerHello x.sh.encode

def serverAuthWire : Bytes := x.authWire P serverSide (x.serverAuth P)

def clientAuthWire : Bytes := x.authWire P clientSide (x.clientAuth P)

/-- What the client writes and reads, in order. -/
def clientScript : List (Exchange Bytes Bytes) :=
  [.put x.chWire, .got x.shWire, .got (x.serverAuthWire P), .put (x.clientAuthWire P)]

/-- What the server reads and writes, in order. -/
def serverScript : List (Exchange Bytes Bytes) :=
  [.got x.chWire, .put x.shWire, .put (x.serverAuthWire P), .got (x.clientAuthWire P)]

structure Valid (x : Flow) : Prop where
  standard : Rust.StandardOnly x.profiles
  profiles_fit : x.profiles.length < 2 ^ 16
  kemShare : x.kemShare.length = kemShareSize768
  kemCT : x.kemCT.length = kemCiphertextSize768

variable {P x}

theorem Valid.offers (h : x.Valid) : Rust.Offers x.ch where
  profile := h.standard.mem.mpr rfl
  kem := mem_singleton_self _
  sig := mem_singleton_self _
  aead := mem_singleton_self _
  share := h.kemShare

theorem Valid.selects (h : x.Valid) : Rust.Selects x.sh := ⟨rfl, rfl, rfl, rfl, h.kemCT⟩

theorem Valid.ch_fits (h : x.Valid) : x.ch.Fits := by
  have hprofiles := h.profiles_fit
  have hshare : x.kemShare.length < 2 ^ 16 := h.kemShare.trans_lt (by decide)
  simp only [ClientHello.Fits, ClientHello.tlvs, TLV.Fits, ch, forall_mem_cons]
  exact ⟨hprofiles, by decide, by decide, by decide, hshare, forall_mem_nil _⟩

theorem Valid.decode_ch (h : x.Valid) : decodeClientHello x.ch.encode = .ok x.ch := by
  have hshare : x.kemShare ≠ [] :=
    ne_nil_of_length_pos (by rw [h.kemShare]; decide)
  exact decodeClientHello_eq_ok.mpr ⟨⟨h.standard.1, cons_ne_nil _ _, cons_ne_nil _ _,
    cons_ne_nil _ _, hshare, h.ch_fits⟩, rfl⟩

theorem Valid.decode_sh (h : x.Valid) : decodeServerHello x.sh.encode = .ok x.sh := by
  have hct : x.kemCT ≠ [] := ne_nil_of_length_pos (by rw [h.kemCT]; decide)
  have hfits : x.sh.kemCiphertext.length < 2 ^ 16 := h.kemCT.trans_lt (by decide)
  exact decodeServerHello_eq_ok.mpr ⟨⟨hct, ServerHello.fits_of_kemCiphertext hfits⟩, rfl⟩

theorem length_encode_ch (h : x.Valid) : x.ch.encode.length = 1242 + x.profiles.length := by
  rw [ClientHello.encode, encodeFlight_eq]
  simp only [ClientHello.tlvs, ch, encodeTLVs_cons, encodeTLVs_nil, TLV.encode, length_append,
    length_nil, length_putUint16, length_u16ListBytes, length_cons, h.kemShare]
  rw [kemShareSize768]
  omega

theorem length_encode_sh (h : x.Valid) : x.sh.encode.length = 1147 := by
  rw [ServerHello.encode, encodeFlight_eq]
  simp only [ServerHello.tlvs, sh, encodeTLVs_cons, encodeTLVs_nil, TLV.encode, length_append,
    length_nil, length_putUint16, length_cons, h.kemCT]
  rw [kemCiphertextSize768]

section Auth

variable (hsize : P.Sized) (side : AuthSide) (before : Bytes)

include hsize

theorem decode_auth :
    decodeAuthMessage (x.auth P side before).encode = .ok (x.auth P side before) := by
  have hkey : (x.auth P side before).identityKey.length = 32 := hsize.length_ed25519Public _
  have hcv : (x.auth P side before).certVerify.length = 66 := by
    simp only [auth, length_append, length_putUint16, hsize.length_ed25519Sign]
  have hfin : (x.auth P side before).finished.length = 32 := hsize.length_hmac _ _
  refine decodeAuthMessage_eq_ok.mpr ⟨⟨?_, ?_, ?_, ?_⟩, rfl⟩
  · exact ne_nil_of_length_pos (by omega)
  · exact ne_nil_of_length_pos (by omega)
  · exact ne_nil_of_length_pos (by omega)
  · simp [AuthMessage.Fits, AuthMessage.tlvs, TLV.Fits, hkey, hcv, hfin]

theorem length_encode_auth : (x.auth P side before).encode.length = 142 := by
  rw [AuthMessage.encode, encodeFlight_eq]
  simp only [AuthMessage.tlvs, auth, encodeTLVs_cons, encodeTLVs_nil, TLV.encode,
    length_append, length_nil, length_putUint16, hsize.length_ed25519Public,
    hsize.length_ed25519Sign, hsize.length_hmac]

end Auth

end Flow

/-- A cleartext flight parses to its type and payload. -/
theorem unmarshalBinary_helloWire (ft : FrameType) {payload : Bytes}
    (hpayload : payload.length < 2 ^ 32) :
    ∃ f, unmarshalBinary (helloWire ft payload) = .ok f ∧ f.type = ft ∧ f.flags = 0
      ∧ f.payload = payload := by
  have hflags : (0 : UInt8) &&& ~~~(flagENC ||| flagCOMP) = 0 := by decide
  exact ⟨_, unmarshalBinary_marshalBinary ⟨Or.inl rfl, hflags, hpayload⟩, rfl, rfl, rfl⟩

theorem framed_helloWire {ft : FrameType} {payload : Bytes}
    (hsize : headerSize + payload.length ≤ maxFrameSize) :
    Framed maxFrameSize (helloWire ft payload) := by
  have hpayload : payload.length < 2 ^ 32 := by
    have hmax : maxFrameSize < 2 ^ 32 := by decide
    omega
  obtain ⟨f, hparse, -⟩ := unmarshalBinary_helloWire ft hpayload
  refine framed_of_unmarshalBinary hparse ?_
  rw [helloWire, Frame.length_marshalBinary]
  exact hsize

namespace Flow

variable {P : Primitives} {x : Flow}

theorem framed_chWire (h : x.Valid) : Framed maxFrameSize x.chWire := by
  have hprofiles := h.profiles_fit
  refine framed_helloWire ?_
  rw [length_encode_ch h, headerSize, maxFrameSize]
  omega

theorem framed_shWire (h : x.Valid) : Framed maxFrameSize x.shWire := by
  refine framed_helloWire ?_
  rw [length_encode_sh h]
  decide

theorem framed_authWire (hP : P.Correct) (hsize : P.Sized) (side : AuthSide) (before : Bytes) :
    Framed maxFrameSize (x.authWire P side (x.auth P side before)) := by
  refine framed_recordWire hP ?_
  rw [length_encode_auth hsize]
  decide

end Flow

end Npamp
