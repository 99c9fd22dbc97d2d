import Npamp.Proof.Flow

/-!
# Go in the honest handshake

`runClientHandshake` and `runServerHandshake` make the exchanges of the honest handshake and end
with its master secret and the peer's key.
-/

namespace Npamp

open Transcript
open Dialogue

theorem follows_writeFrame {wire : Bytes} (h : Framed maxFrameSize wire) :
    Follows (writeFrame wire) [.put wire] (.ok ()) := by
  rw [writeFrame, if_neg (not_lt.mpr h.header), if_neg (not_lt.mpr h.cap)]
  exact follows_send wire

theorem follows_recvCleartext {ft : FrameType} {payload : Bytes}
    (hpayload : payload.length < 2 ^ 32) :
    Follows (recvCleartext ft) [.got (helloWire ft payload)] (.ok payload) := by
  obtain ⟨f, hparse, htype, hflags, hp⟩ := unmarshalBinary_helloWire ft hpayload
  have henc : f.flags &&& flagENC = 0 := by
    rw [hflags]
    decide
  have hopen := Rust.openCleartext_eq_ok.mpr ⟨f, hparse, htype, henc, hp⟩
  refine (follows_receive _).cons ?_
  rw [hopen]
  exact .done _

theorem Transcript.eq_of_buf {t t' : Transcript} (h : t.buf = t'.buf) : t = t' :=
  congrArg Transcript.mk h

theorem Transcript.addTLV_cvPoint (t : Transcript) (ft : FrameType) (key certVerify : Bytes) :
    ((t.addFrameType ft).addTLV ⟨tlvIdentityKey, key⟩).addTLV ⟨tlvCertVerify, certVerify⟩
      = ⟨cvPoint t.buf ft key certVerify⟩ :=
  eq_of_buf (buf_cvPoint t ft key certVerify)

namespace Flow

variable {P : Primitives} {x : Flow}

def postKey (P : Primitives) (x : Flow) : PostKey where
  ch := x.ch
  sh := x.sh
  p := profileStandard
  t := ⟨helloOctets x.ch x.sh⟩
  hs := x.hs P
  cHS := x.secret P .clientToServer
  sHS := x.secret P .serverToClient

theorem postKey_secret (dir : Direction) : (x.postKey P).secret dir = x.secret P dir := by
  cases dir <;> rfl

theorem validateProfiles_standardOnly {profiles : List Profile}
    (h : ∀ p ∈ profiles, p = profileStandard) : validateProfiles profiles = .ok () := by
  induction profiles with
  | nil => rfl
  | cons p rest ih =>
    obtain rfl := h p List.mem_cons_self
    rw [validateProfiles, if_neg (by decide), if_neg (by decide)]
    exact ih fun q hq => h q (List.mem_cons_of_mem _ hq)

theorem addFrame_hellos :
    ((Transcript.mk []).addFrame frameClientHello x.ch.tlvs).addFrame frameServerHello x.sh.tlvs
      = ⟨helloOctets x.ch x.sh⟩ := by
  refine eq_of_buf ?_
  simp [helloOctets]

def postKeyOf (P : Primitives) (x : Flow) (t : Transcript) : PostKey where
  ch := x.ch
  sh := x.sh
  p := profileStandard
  t := t
  hs := x.hs P
  cHS := hkdfExpandLabel P (x.hs P) "c hs" (t.sum P) hashSize
  sHS := hkdfExpandLabel P (x.hs P) "s hs" (t.sum P) hashSize

theorem postKeyOf_hellos : x.postKeyOf P
        (((Transcript.mk []).addFrame frameClientHello x.ch.tlvs).addFrame frameServerHello x.sh.tlvs)
      = x.postKey P := by
  rw [addFrame_hellos]
  rfl

section Hellos

variable (hx : x.Valid) {id : LocalIdentity P}

include hx

theorem follows_clientHellos {kem768 : KEMClient} (hid : profilesOrDefault id.profiles = x.profiles)
    (hshare : kem768.kemShare P = x.kemShare) (hss : kem768.sharedSecrets P x.kemCT = .ok x.ss) :
    Follows (clientHellos P id kem768) [.put x.chWire, .got x.shWire] (.ok (x.postKey P)) := by
  have hselect : requireSelections x.sh x.profiles kemX25519MLKEM768 = .ok () :=
    (Rust.requireSelections_eq_ok hx.standard).mpr ⟨rfl, rfl, rfl, rfl⟩
  have hss' : kem768.sharedSecrets P x.sh.kemCiphertext = .ok x.ss := hss
  unfold clientHellos
  dsimp only
  rw [hid, hshare]
  refine follows_ofExcept_bind (validateProfiles_standardOnly hx.standard.2) ?_
  refine ((follows_writeFrame (framed_chWire hx)).wrapError _).cons ?_
  refine ((follows_recvCleartext ?_).wrapError _).cons ?_
  · rw [length_encode_sh hx]
    decide
  rw [hx.decode_sh]
  refine follows_ofExcept_bind rfl ?_
  refine follows_ofExcept_bind hselect ?_
  refine follows_ofExcept_bind rfl ?_
  rw [hss']
  refine follows_ofExcept_bind rfl ?_
  refine follows_ofExcept_bind (handshakeSecret_eq rfl _) ?_
  refine follows_ofExcept_bind (deriveHandshakeTrafficSecrets_eq rfl _ _) ?_
  rw [← postKeyOf_hellos]
  exact follows_pure (x.postKeyOf P _)

theorem follows_serverHellos {rand : KEMRandom}
    (hid : Rust.StandardOnly (profilesOrDefault id.profiles))
    (hkem : encapsulate P x.kemShare rand = .ok (x.kemCT, x.ss)) :
    Follows (serverHellos P id rand) [.got x.chWire, .put x.shWire] (.ok (x.postKey P)) := by
  have hprofiles := hx.profiles_fit
  have hoffers : requireOffers x.ch (profilesOrDefault id.profiles) = .ok profileStandard :=
    (Rust.requireOffers_eq_ok hid).mpr
      ⟨rfl, hx.offers.profile, hx.offers.kem, hx.offers.sig, hx.offers.aead⟩
  have hkem' : encapsulate P x.ch.kemShare rand = .ok (x.kemCT, x.ss) := hkem
  unfold serverHellos
  dsimp only
  refine follows_ofExcept_bind (validateProfiles_standardOnly hid.2) ?_
  refine ((follows_recvCleartext ?_).wrapError _).cons ?_
  · rw [length_encode_ch hx]
    omega
  rw [hx.decode_ch]
  refine follows_ofExcept_bind rfl ?_
  refine follows_ofExcept_bind hoffers ?_
  refine follows_ofExcept_bind rfl ?_
  rw [hkem']
  refine follows_ofExcept_bind rfl ?_
  refine follows_ofExcept_bind (handshakeSecret_eq rfl _) ?_
  refine ((follows_writeFrame (framed_shWire hx)).wrapError _).cons ?_
  refine follows_ofExcept_bind (deriveHandshakeTrafficSecrets_eq rfl _ _) ?_
  rw [← postKeyOf_hellos]
  exact follows_pure (x.postKeyOf P _)

end Hellos

section Auth

variable (hP : P.Correct) (hsize : P.Sized)
  (hverify : ∀ key message,
    P.ed25519Verify (P.ed25519Public key) message (P.ed25519Sign key message) = true)
  {side : AuthSide} (hrole : side.role.certVerifyContext ≠ "") (before : Bytes)

include hrole

theorem certVerifySigningInput_eq (th : Bytes) :
    certVerifySigningInput side.role th = .ok (signingInput side.role th) := if_neg hrole

include hsize hverify

theorem verifyCertVerify_auth : verifyCertVerify P (x.auth P side before).identityKey side.role
      (P.sha256 (idPoint before side.frameType (x.auth P side before).identityKey))
      (x.auth P side before).certVerify = .ok () := by
  have hkey : (x.auth P side before).identityKey.length = publicKeySize :=
    hsize.length_ed25519Public _
  have hcv : (x.auth P side before).certVerify.length = 2 + signatureSize := by
    simp only [auth, List.length_append, length_putUint16, hsize.length_ed25519Sign]
    rfl
  have hscheme : uint16 ((x.auth P side before).certVerify.take 2) = sigEd25519 := by
    simp only [auth]
    rw [List.take_left' (length_putUint16 _), uint16_putUint16]
  have hsignature : (x.auth P side before).certVerify.drop 2
      = P.ed25519Sign (x.key side.dir) (signingInput side.role
          (P.sha256 (idPoint before side.frameType (x.auth P side before).identityKey))) :=
    List.drop_left' (length_putUint16 _)
  rw [verifyCertVerify, if_neg (not_not_intro hkey), if_neg (not_not_intro hcv),
    if_neg (not_not_intro hscheme), certVerifySigningInput_eq hrole]
  dsimp only
  rw [hsignature]
  exact if_pos (hverify _ _)

include hP

omit hverify hrole in
theorem openAuthFrame_auth :
    openAuthFrame P (x.authWire P side (x.auth P side before)) side.frameType (x.secret P side.dir)
      side.dir profileStandard = .ok (x.auth P side before) := by
  have hfits : (x.auth P side before).encode.length + 16 < 2 ^ 32 := by
    rw [length_encode_auth hsize]
    decide
  obtain ⟨f, hparse, hchannel, htype, hflags, -, hopen⟩ := openWith_sealWith hP
    { trafficKeys P (x.secret P side.dir) side.dir 0 chanControl with seq := 0 } chanControl
    side.frameType hfits
  have henc : f.flags &&& flagENC ≠ 0 := by
    rw [hflags]
    decide
  rw [openAuthFrame, authWire, recordWire, hparse]
  dsimp only
  rw [if_neg (not_not_intro htype), if_neg henc, openFrame_eq rfl, hchannel, hopen]
  dsimp only
  rw [decode_auth hsize]

theorem follows_recvAuth (t : Transcript) (own : AuthSide) (errSeq : UInt64) :
    Follows (recvAuth P (x.postKey P) t side own errSeq)
      [.got (x.authWire P side (x.auth P side t.buf))]
      (.ok (x.auth P side t.buf,
        ⟨cvPoint t.buf side.frameType (x.auth P side t.buf).identityKey
          (x.auth P side t.buf).certVerify⟩)) := by
  have hfinished : verifyFinished P (finishedKey P (x.secret P side.dir))
      (P.sha256 (cvPoint t.buf side.frameType (x.auth P side t.buf).identityKey
        (x.auth P side t.buf).certVerify)) (x.auth P side t.buf).finished profileStandard
      = .ok () := if_neg (not_not_intro rfl)
  unfold recvAuth
  refine ((follows_receive _).wrapError _).cons ?_
  rw [postKey_secret, show (x.postKey P).p = profileStandard from rfl,
    openAuthFrame_auth hP hsize]
  dsimp only
  refine follows_observe_bind ?_
  rw [sum_idPoint, verifyCertVerify_auth hsize hverify hrole]
  dsimp only
  refine follows_ofExcept_bind (deriveFinishedKey_eq rfl _) ?_
  refine follows_observe_bind ?_
  rw [addTLV_cvPoint, sum, hfinished]
  exact follows_pure _

omit hverify in
theorem follows_sendAuth {id : LocalIdentity P} (hid : id.edPriv = x.key side.dir)
    (hpriv : id.edPriv ≠ []) (t : Transcript) (peerKey : Option Bytes) :
    Follows (sendAuth P id (x.postKey P) t side peerKey)
      [.put (x.authWire P side (x.auth P side t.buf))]
      (.ok (x.auth P side t.buf,
        ⟨cvPoint t.buf side.frameType (x.auth P side t.buf).identityKey
          (x.auth P side t.buf).certVerify⟩)) := by
  have hpub : id.edPub = (x.auth P side t.buf).identityKey := by
    rw [id.edPub_eq, hid]
    rfl
  have hkey : id.keyBytes = .ok (x.auth P side t.buf).identityKey := by
    have hlength : id.edPub.length = 32 := by rw [id.edPub_eq, hsize.length_ed25519Public]
    rw [LocalIdentity.keyBytes, if_neg (by omega), hpub]
  have hsign : id.signCertVerify side.role
      (P.sha256 (idPoint t.buf side.frameType (x.auth P side t.buf).identityKey))
      = .ok (x.auth P side t.buf).certVerify := by
    rw [LocalIdentity.signCertVerify, if_neg (mt List.length_eq_zero_iff.mp hpriv), signCertVerify,
      certVerifySigningInput_eq hrole, hid]
    rfl
  unfold sendAuth
  refine follows_ofExcept_bind hkey ?_
  dsimp only
  rw [sum_idPoint]
  refine follows_ofExcept_bind hsign ?_
  rw [postKey_secret, addTLV_cvPoint, sum]
  refine follows_ofExcept_bind (deriveFinishedKey_eq rfl _) ?_
  refine follows_ofExcept_bind rfl ?_
  refine follows_ofExcept_bind (sealFrame_eq rfl) ?_
  refine follows_observe_bind ?_
  exact ((follows_writeFrame (framed_authWire hP hsize side t.buf)).wrapError _).cons
    (follows_pure _)

end Auth

/-- The transcript up to the CERT_VERIFY of the server. -/
def serverPoint (P : Primitives) (x : Flow) : Transcript :=
  ⟨cvPoint (helloOctets x.ch x.sh) frameServerAuth (x.serverAuth P).identityKey
    (x.serverAuth P).certVerify⟩

/-- The transcript up to the CERT_VERIFY of the client. -/
def clientPoint (P : Primitives) (x : Flow) : Transcript :=
  ⟨cvPoint (x.beforeClient P) frameClientAuth (x.clientAuth P).identityKey
    (x.clientAuth P).certVerify⟩

theorem addTLV_finished :
    (x.serverPoint P).addTLV ⟨tlvFinished, (x.serverAuth P).finished⟩ = ⟨x.beforeClient P⟩ :=
  eq_of_buf (buf_addFinished rfl)

theorem server_role : serverSide.role.certVerifyContext ≠ "" := by decide

theorem client_role : clientSide.role.certVerifyContext ≠ "" := by decide

theorem checkPin_eq_ok {expectedPeer : Option Bytes} {peerID : Bytes}
    (h : ∀ key ∈ expectedPeer, key = peerID) (sideName : String) :
    checkPin expectedPeer peerID sideName = .ok () := by
  cases expectedPeer with
  | none => rfl
  | some key =>
    obtain rfl := h key rfl
    exact if_neg (not_not_intro rfl)

section Runs

variable (hP : P.Correct) (hsize : P.Sized)
  (hverify : ∀ key message,
    P.ed25519Verify (P.ed25519Public key) message (P.ed25519Sign key message) = true)
  (hx : x.Valid) {id : LocalIdentity P} (hpriv : id.edPriv ≠ []) {expectedPeer : Option Bytes}

include hP hsize hverify hx hpriv

/-- The Go client plays its part of the flow, to the end. -/
theorem follows_runClientHandshake {kem768 : KEMClient}
    (hprofiles : profilesOrDefault id.profiles = x.profiles)
    (hshare : kem768.kemShare P = x.kemShare) (hss : kem768.sharedSecrets P x.kemCT = .ok x.ss)
    (hid : id.edPriv = x.clientKey)
    (hpin : ∀ key ∈ expectedPeer, key = P.ed25519Public x.serverKey) :
    Follows (runClientHandshake P id expectedPeer kem768) (x.clientScript P)
      (.ok (x.master P, P.ed25519Public x.serverKey, profileStandard)) := by
  have hrecv : Follows (recvAuth P (x.postKey P) ⟨helloOctets x.ch x.sh⟩ serverSide clientSide 0)
      [.got (x.serverAuthWire P)] (.ok (x.serverAuth P, x.serverPoint P)) :=
    follows_recvAuth hP hsize hverify server_role ⟨_⟩ clientSide 0
  have hsend : Follows
      (sendAuth P id (x.postKey P) ⟨x.beforeClient P⟩ clientSide (some (x.serverAuth P).identityKey))
      [.put (x.clientAuthWire P)] (.ok (x.clientAuth P, x.clientPoint P)) :=
    follows_sendAuth hP hsize client_role hid hpriv ⟨_⟩ _
  unfold runClientHandshake
  refine (follows_clientHellos hx hprofiles hshare hss).bind ?_
  refine hrecv.cons ?_
  refine follows_ofExcept_bind (checkPin_eq_ok hpin "server") ?_
  dsimp only
  rw [addTLV_finished]
  refine hsend.cons ?_
  exact follows_ofExcept_bind (deriveMasterSecret_eq rfl _ _) (follows_pure _)

/-- The Go server plays its part of the flow, to the end. -/
theorem follows_runServerHandshake {rand : KEMRandom}
    (hprofiles : Rust.StandardOnly (profilesOrDefault id.profiles))
    (hkem : encapsulate P x.kemShare rand = .ok (x.kemCT, x.ss)) (hid : id.edPriv = x.serverKey)
    (hpin : ∀ key ∈ expectedPeer, key = P.ed25519Public x.clientKey) :
    Follows (runServerHandshake P id expectedPeer rand) (x.serverScript P)
      (.ok (x.master P, P.ed25519Public x.clientKey, profileStandard)) := by
  have hsend : Follows (sendAuth P id (x.postKey P) ⟨helloOctets x.ch x.sh⟩ serverSide none)
      [.put (x.serverAuthWire P)] (.ok (x.serverAuth P, x.serverPoint P)) :=
    follows_sendAuth hP hsize server_role hid hpriv ⟨_⟩ none
  have hrecv : Follows (recvAuth P (x.postKey P) ⟨x.beforeClient P⟩ clientSide serverSide 1)
      [.got (x.clientAuthWire P)] (.ok (x.clientAuth P, x.clientPoint P)) :=
    follows_recvAuth hP hsize hverify client_role ⟨_⟩ serverSide 1
  unfold runServerHandshake
  refine (follows_serverHellos hx hprofiles hkem).bind ?_
  refine hsend.cons ?_
  dsimp only
  rw [addTLV_finished]
  refine hrecv.cons ?_
  refine follows_ofExcept_bind (checkPin_eq_ok hpin "client") ?_
  exact follows_ofExcept_bind (deriveMasterSecret_eq rfl _ _) (follows_pure _)

end Runs

end Flow

end Npamp
