import Npamp.Plain
import Npamp.Sdk.Handshake
import Npamp.Proof.Flights
import Npamp.Proof.Schedule

/-!
# What a handshake run has noted

Which AUTH a client and a server run stopped anywhere can have sent, and what it knows by then.
-/

namespace Npamp

open Dialogue LocalIdentity List Transcript
open Dialogue

/-- The lengths of what the primitives return. -/
structure Primitives.Sized (P : Primitives) : Prop where
  length_hmac (key message : Bytes) : (P.hmac key message).length = 32
  length_ed25519Public (key : Bytes) : (P.ed25519Public key).length = 32
  length_ed25519Sign (key message : Bytes) : (P.ed25519Sign key message).length = 64

theorem plainSigning_sized : plainSigning.Sized where
  length_hmac key message := by
    simp [plainSigning, ending, length_pad]
  length_ed25519Public := length_pad 32
  length_ed25519Sign key message := by
    simp [plainSigning, ending, length_pad]

def serverAuthOctets (ch : ClientHello) (sh : ServerHello) (sAuth : AuthMessage) : Bytes :=
  helloOctets ch sh ++ (putUint16 frameServerAuth ++ encodeTLVs sAuth.tlvs)

def idPoint (before : Bytes) (ft : FrameType) (key : Bytes) : Bytes :=
  before ++ (putUint16 ft ++ encodeTLVs [⟨tlvIdentityKey, key⟩])

def cvPoint (before : Bytes) (ft : FrameType) (key certVerify : Bytes) : Bytes :=
  before ++ (putUint16 ft ++ encodeTLVs [⟨tlvIdentityKey, key⟩, ⟨tlvCertVerify, certVerify⟩])

def finishedKey (P : Primitives) (secret : Bytes) : Bytes :=
  hkdfExpandLabel P secret "finished" [] hashSize

/-- The secrets of a handshake are those of its two hellos and the shared secret. -/
structure PostKey.Derived (P : Primitives) (ss : SharedSecrets) (k : PostKey) : Prop where
  suite : hashForProfile k.p = .ok ()
  profile : k.p = k.sh.profileSelect
  buf : k.t.buf = helloOctets k.ch k.sh
  hs : k.hs = P.hkdfExtract ss.combined (replicate hashSize 0)
  cHS : k.cHS = hkdfExpandLabel P k.hs "c hs" (P.sha256 (helloOctets k.ch k.sh)) hashSize
  sHS : k.sHS = hkdfExpandLabel P k.hs "s hs" (P.sha256 (helloOctets k.ch k.sh)) hashSize

theorem PostKey.Derived.unique {P : Primitives} {ss : SharedSecrets} {k k' : PostKey}
    (h : k.Derived P ss) (h' : k'.Derived P ss) (hch : k.ch = k'.ch) (hsh : k.sh = k'.sh) :
    k = k' := by
  have hp : k.p = k'.p := by rw [h.profile, h'.profile, hsh]
  have ht : k.t = k'.t := congrArg Transcript.mk (by rw [h.buf, h'.buf, hch, hsh])
  have hhs : k.hs = k'.hs := by rw [h.hs, h'.hs]
  have hcHS : k.cHS = k'.cHS := by rw [h.cHS, h'.cHS, hhs, hch, hsh]
  have hsHS : k.sHS = k'.sHS := by rw [h.sHS, h'.sHS, hhs, hch, hsh]
  cases k
  cases k'
  simp only at hch hsh hp ht hhs hcHS hsHS
  rw [hch, hsh, hp, ht, hhs, hcHS, hsHS]

/-- What a client has established when the SERVER_HELLO is accepted. -/
structure ClientPost (P : Primitives) (kem768 : KEMClient) (k : PostKey) : Prop where
  derived : ∃ ss, k.Derived P ss ∧ kem768.sharedSecrets P k.sh.kemCiphertext = .ok ss
  kemShare : k.ch.kemShare = kem768.kemShare P
  profileOffer : ∀ p ∈ k.ch.profileOffer, p = profileStandard
  others : ∀ t ∈ k.ch.tlvs.tail, t.Fits
  sh_fits : k.sh.Fits

/-- What a server has established when its SERVER_HELLO is written. -/
structure ServerPost (P : Primitives) (rand : KEMRandom) (k : PostKey) : Prop where
  derived : ∃ ss, k.Derived P ss ∧ encapsulate P k.ch.kemShare rand = .ok (k.sh.kemCiphertext, ss)
  ch_fits : k.ch.Fits
  sh_fits : k.sh.Fits

/-- The message noted as sent is the one this side builds from its transcript. -/
structure SentBy (P : Primitives) (id : LocalIdentity P) (k : PostKey) (before : Bytes)
    (own : AuthSide) (peerKey : Option Bytes) (a : AuthSent) : Prop where
  role : a.role = own.role
  ch : a.ch = k.ch
  sh : a.sh = k.sh
  hs : a.hs = k.hs
  peerKey : a.peerKey = peerKey
  identityKey : a.identityKey = id.edPub
  th : a.th = P.sha256 (idPoint before own.frameType a.identityKey)
  finishedKey : a.finishedKey = Npamp.finishedKey P (k.secret own.dir)
  thCV : a.thCV = P.sha256 (cvPoint before own.frameType a.identityKey a.certVerify)
  key_fits : a.identityKey.length < 2 ^ 16
  certVerify_fits : a.certVerify.length < 2 ^ 16

theorem quiet_writeFrame (frame : Bytes) : Quiet (writeFrame frame) := by
  unfold writeFrame
  split
  · exact quiet_done _
  · split
    · exact quiet_done _
    · exact quiet_send frame

theorem quiet_sendCleartext (ft : FrameType) (payload : Bytes) : Quiet (sendCleartext ft payload) :=
  quiet_writeFrame _

theorem quiet_recvCleartext (want : FrameType) : Quiet (recvCleartext want) :=
  quiet_receive.bind fun _ => quiet_done _

section Rules

variable {P : Primitives} {W : List HandshakeEvent → Prop} {log : List HandshakeEvent}

variable {p : Profile} {t : Transcript} {id : LocalIdentity P}

theorem meets_emitHandshakeError {α : Type} {R : List HandshakeEvent → Except GoError α → Prop}
    {baseSecret : Bytes} {dir : Direction} {seq : UInt64} {code : SessionErrorCode}
    {wrapped : GoError} (hlog : W log) (herror : ∀ e, R log (.error e)) :
    Meets W R log (emitHandshakeError P baseSecret dir seq code p wrapped : Handshake α) := by
  unfold emitHandshakeError
  split
  · exact meets_done.mpr (herror _)
  apply meets_andThen
  apply ((quiet_writeFrame _).meets W log hlog).mono
  rintro log' r rfl
  exact meets_done.mpr (herror _)

theorem newTranscript_suite (h : newTranscript p = .ok t) :
    hashForProfile p = .ok () ∧ t.buf = [] := by
  unfold newTranscript at h
  split at h
  · cases h
  · rename_i hsuite
    cases h
    exact ⟨hsuite, rfl⟩

theorem handshakeSecret_eq (hp : hashForProfile p = .ok ()) (combined : Bytes) :
    handshakeSecret P combined p = .ok (P.hkdfExtract combined (replicate hashSize 0)) := by
  rw [handshakeSecret, hp]

theorem deriveHandshakeTrafficSecrets_eq (hp : hashForProfile p = .ok ()) (hs thKEM : Bytes) :
    deriveHandshakeTrafficSecrets P hs thKEM p
      = .ok (hkdfExpandLabel P hs "c hs" thKEM hashSize,
          hkdfExpandLabel P hs "s hs" thKEM hashSize) := by
  simp only [deriveHandshakeTrafficSecrets, expandForProfile_eq hp]

theorem ok_of_mapError {ε α : Type} {f : ε → ε} {x : Except ε α} {a : α}
    (h : x.mapError f = .ok a) : x = .ok a := by
  cases x with
  | error e => cases h
  | ok b => exact h

theorem standard_of_validateProfiles {profiles : List Profile}
    (h : validateProfiles profiles = .ok ()) : ∀ p ∈ profiles, p = profileStandard := by
  induction profiles with
  | nil => exact fun p hp => absurd hp not_mem_nil
  | cons q rest ih =>
    unfold validateProfiles at h
    split at h
    · cases h
    split at h
    · cases h
    rename_i hq
    intro p hp
    rcases mem_cons.mp hp with rfl | hp
    · exact not_not.mp hq
    · exact ih h p hp

theorem meets_handshakeSecrets {ch : ClientHello} {sh : ServerHello} {ss : SharedSecrets}
    {hs : Bytes} {Q : PostKey → Prop} (hp : hashForProfile sh.profileSelect = .ok ())
    (hbuf : t.buf = helloOctets ch sh)
    (hhs : hs = P.hkdfExtract ss.combined (replicate hashSize 0))
    (hQ : ∀ k : PostKey, k.ch = ch → k.sh = sh → k.Derived P ss → Q k) :
    Meets W (fun log' r => log' = log ∧ ∀ k, r = .ok k → Q k) log (do
      let secrets ← ofExcept (deriveHandshakeTrafficSecrets P hs (t.sum P) sh.profileSelect)
      return { ch := ch, sh := sh, p := sh.profileSelect, t := t, hs := hs, cHS := secrets.1
               sHS := secrets.2 } : Handshake PostKey) := by
  apply meets_ofExcept_bind
  · intro secrets hsecrets
    rw [deriveHandshakeTrafficSecrets_eq hp] at hsecrets
    cases hsecrets
    refine meets_pure ⟨rfl, fun k hk => ?_⟩
    cases hk
    refine hQ _ rfl rfl ⟨hp, rfl, hbuf, hhs, ?_, ?_⟩
    · rw [Transcript.sum, hbuf]
    · rw [Transcript.sum, hbuf]
  · exact fun e => ⟨rfl, fun k hk => by cases hk⟩

theorem meets_clientHellos (hP : P.Correct) (id : LocalIdentity P) (kem768 : KEMClient)
    (hlog : W log) : Meets W (fun log' r => log' = log ∧ ∀ k, r = .ok k → ClientPost P kem768 k) log
      (clientHellos P id kem768) := by
  have herror : ∀ e : GoError, log = log ∧ ∀ k, .error e = Except.ok k → ClientPost P kem768 k :=
    fun e => ⟨rfl, fun k hk => by cases hk⟩
  unfold clientHellos
  dsimp only
  refine meets_ofExcept_bind (fun _ hprofiles => ?_) herror
  refine ((quiet_sendCleartext _ _).wrapError _).meets_bind hlog (fun _ => ?_) herror
  refine ((quiet_recvCleartext _).wrapError _).meets_bind hlog (fun shPayload => ?_) herror
  refine meets_ofExcept_bind (fun sh hsh => ?_) herror
  refine meets_ofExcept_bind (fun _ _ => ?_) herror
  refine meets_ofExcept_bind (fun t ht => ?_) herror
  obtain ⟨hp, hbuf⟩ := newTranscript_suite ht
  refine meets_ofExcept_bind (fun ss hss => ?_) herror
  refine meets_ofExcept_bind (fun hs hhs => ?_) herror
  rw [handshakeSecret_eq hp] at hhs
  refine meets_handshakeSecrets hp ?_ (Except.ok.inj hhs).symm ?_
  · simp only [buf_addFrame, hbuf, nil_append, helloOctets]
  rintro k hch rfl hderived
  refine ⟨⟨ss, hderived, ok_of_mapError hss⟩, ?_, ?_, ?_, ?_⟩
  · rw [hch]
  · rw [hch]
    exact standard_of_validateProfiles hprofiles
  · rw [hch]
    have hshare := length_kemShare hP kem768
    simp [ClientHello.tlvs, TLV.Fits, u16ListBytes, hshare, kemShareSize768]
  · exact decodeServerHello_fits (ok_of_mapError hsh)

theorem meets_serverHellos (hP : P.Correct) (id : LocalIdentity P) (rand : KEMRandom)
    (hlog : W log) : Meets W (fun log' r => log' = log ∧ ∀ k, r = .ok k → ServerPost P rand k) log
      (serverHellos P id rand) := by
  have herror : ∀ e : GoError, log = log ∧ ∀ k, .error e = Except.ok k → ServerPost P rand k :=
    fun e => ⟨rfl, fun k hk => by cases hk⟩
  unfold serverHellos
  dsimp only
  refine meets_ofExcept_bind (fun _ _ => ?_) herror
  refine ((quiet_recvCleartext _).wrapError _).meets_bind hlog (fun chPayload => ?_) herror
  refine meets_ofExcept_bind (fun ch hch => ?_) herror
  refine meets_ofExcept_bind (fun p _ => ?_) herror
  refine meets_ofExcept_bind (fun t ht => ?_) herror
  obtain ⟨hp, hbuf⟩ := newTranscript_suite ht
  refine meets_ofExcept_bind (fun kem hkem => ?_) herror
  refine meets_ofExcept_bind (fun hs hhs => ?_) herror
  rw [handshakeSecret_eq hp] at hhs
  refine ((quiet_sendCleartext _ _).wrapError _).meets_bind hlog (fun _ => ?_) herror
  have hencapsulate := ok_of_mapError hkem
  refine meets_handshakeSecrets hp ?_ (Except.ok.inj hhs).symm ?_
  · simp only [buf_addFrame, hbuf, nil_append, helloOctets]
  rintro k rfl hsh hderived
  have hct : k.sh.kemCiphertext = kem.1 := by rw [hsh]
  refine ⟨⟨kem.2, hderived, ?_⟩, decodeClientHello_fits (ok_of_mapError hch), ?_⟩
  · rw [hct]
    exact hencapsulate
  · apply ServerHello.fits_of_kemCiphertext
    rw [hct, length_encapsulate hP hencapsulate]
    decide

theorem deriveFinishedKey_eq (hp : hashForProfile p = .ok ()) (secret : Bytes) :
    deriveFinishedKey P secret p = .ok (finishedKey P secret) :=
  expandForProfile_eq hp _ _ _ _

theorem openAuthFrame_fits {wire baseSecret : Bytes} {want : FrameType} {dir : Direction}
    {auth : AuthMessage} (h : openAuthFrame P wire want baseSecret dir p = .ok auth) :
    auth.Fits := by
  unfold openAuthFrame at h
  split at h
  · cases h
  split at h
  · cases h
  split at h
  · cases h
  split at h
  · cases h
  split at h
  · cases h
  · rename_i hdecode
    cases h
    exact decodeAuthMessage_fits hdecode

theorem Transcript.sum_idPoint (t : Transcript) (ft : FrameType) (key : Bytes) :
    ((t.addFrameType ft).addTLV ⟨tlvIdentityKey, key⟩).sum P = P.sha256 (idPoint t.buf ft key) := by
  simp [Transcript.sum, idPoint, encodeTLVs_cons]

theorem Transcript.buf_cvPoint (t : Transcript) (ft : FrameType) (key certVerify : Bytes) :
    (((t.addFrameType ft).addTLV ⟨tlvIdentityKey, key⟩).addTLV ⟨tlvCertVerify, certVerify⟩).buf
      = cvPoint t.buf ft key certVerify := by
  simp [cvPoint, encodeTLVs_cons]

def certVerifies (P : Primitives) (pub : Bytes) (role : Role) (th certVerify : Bytes) : Bool :=
  match certVerifySigningInput role th with
  | .error _ => false
  | .ok input => P.ed25519Verify pub input (certVerify.drop 2)

/-- A CERT_VERIFY that is accepted is a signature the primitive accepts. -/
theorem certVerifies_of_verifyCertVerify {pub th certVerify : Bytes} {role : Role}
    (h : verifyCertVerify P pub role th certVerify = .ok ()) :
    certVerifies P pub role th certVerify = true := by
  unfold verifyCertVerify at h
  split_ifs at h
  split at h
  · cases h
  rename_i input hinput
  split_ifs at h with hverify
  rw [certVerifies, hinput]
  exact hverify

theorem hmac_of_verifyFinished {key th finished : Bytes}
    (h : verifyFinished P key th finished p = .ok ()) : P.hmac key th = finished := by
  unfold verifyFinished computeFinished at h
  split at h
  · cases h
  rename_i want hwant
  split_ifs at h with hsame
  split at hwant
  · cases hwant
  · rw [Except.ok.inj hwant, not_not.mp hsame]

/-- What an AUTH passes the two checks for. -/
structure Accepted (P : Primitives) (k : PostKey) (before : Bytes) (peer : AuthSide)
    (auth : AuthMessage) : Prop where
  fits : auth.Fits
  certVerify : certVerifies P auth.identityKey peer.role
    (P.sha256 (idPoint before peer.frameType auth.identityKey)) auth.certVerify = true
  finished : P.hmac (finishedKey P (k.secret peer.dir))
    (P.sha256 (cvPoint before peer.frameType auth.identityKey auth.certVerify)) = auth.finished

theorem meets_recvAuth {R : List HandshakeEvent → Except GoError (AuthMessage × Transcript) → Prop}
    {k : PostKey} {peer own : AuthSide} {errSeq : UInt64} (hp : hashForProfile k.p = .ok ())
    (hlog : W log) (herror : ∀ e, R log (.error e)) (hreceived : ∀ pub th certVerify,
      let log' := log ++ [.certVerifyReceived peer.role pub th certVerify]
      (W log' ∧ ∀ e, R log' (.error e)) ∧ ∀ key thCV finished,
        let log' := log' ++ [.finishedReceived key thCV finished]
        W log' ∧ ∀ e, R log' (.error e))
    (hdone : ∀ auth t', Accepted P k t.buf peer auth →
      t'.buf = cvPoint t.buf peer.frameType auth.identityKey auth.certVerify →
      R (log
          ++ [.certVerifyReceived peer.role auth.identityKey
                (P.sha256 (idPoint t.buf peer.frameType auth.identityKey)) auth.certVerify]
          ++ [.finishedReceived (finishedKey P (k.secret peer.dir)) (P.sha256 t'.buf)
                auth.finished])
        (.ok (auth, t'))) :
    Meets W R log (recvAuth P k t peer own errSeq) := by
  unfold recvAuth
  refine (quiet_receive.wrapError _).meets_bind hlog (fun wire => ?_) herror
  split
  · exact meets_emitHandshakeError hlog herror
  rename_i auth hopen
  dsimp only
  apply meets_observe_bind
  rw [sum_idPoint]
  obtain ⟨⟨hlog', herror'⟩, hfinished⟩ := hreceived auth.identityKey
    (P.sha256 (idPoint t.buf peer.frameType auth.identityKey)) auth.certVerify
  split
  · exact meets_emitHandshakeError hlog' herror'
  rename_i hcert
  refine meets_ofExcept_bind (fun finKey hfinKey => ?_) herror'
  rw [deriveFinishedKey_eq hp] at hfinKey
  cases hfinKey
  apply meets_observe_bind
  obtain ⟨hlog'', herror''⟩ := hfinished (finishedKey P (k.secret peer.dir)) _ auth.finished
  split
  · exact meets_emitHandshakeError hlog'' herror''
  rename_i hmac
  have hmac := hmac_of_verifyFinished hmac
  rw [Transcript.sum, buf_cvPoint] at hmac
  exact meets_pure (hdone auth _
    ⟨openAuthFrame_fits hopen, certVerifies_of_verifyCertVerify hcert, hmac⟩ (buf_cvPoint _ _ _ _))

theorem LocalIdentity.keyBytes_eq {key : Bytes} (h : id.keyBytes = .ok key) : key = id.edPub := by
  unfold keyBytes at h
  split at h
  · cases h
  · exact (Except.ok.inj h).symm

theorem LocalIdentity.length_signCertVerify (hsize : P.Sized) {role : Role} {th certVerify : Bytes}
    (h : id.signCertVerify role th = .ok certVerify) : certVerify.length = 66 := by
  unfold signCertVerify Npamp.signCertVerify at h
  split at h
  · cases h
  split at h
  · cases h
  · cases h
    rw [length_append, length_putUint16, hsize.length_ed25519Sign]

theorem meets_sendAuth {R : List HandshakeEvent → Except GoError (AuthMessage × Transcript) → Prop}
    (hsize : P.Sized) {k : PostKey} {own : AuthSide} {peerKey : Option Bytes}
    (hp : hashForProfile k.p = .ok ()) (herror : ∀ e, R log (.error e))
    (hwriting : ∀ a, SentBy P id k t.buf own peerKey a → W (log ++ [.authSent a])
      ∧ ∀ e, R (log ++ [.authSent a]) (.error (wrapf ("npamp/sdk: send " ++ own.frameName) e)))
    (hdone : ∀ a auth t', SentBy P id k t.buf own peerKey a → auth.Fits →
      auth.identityKey = a.identityKey → auth.certVerify = a.certVerify →
      t'.buf = cvPoint t.buf own.frameType a.identityKey a.certVerify →
      R (log ++ [.authSent a]) (.ok (auth, t'))) :
    Meets W R log (sendAuth P id k t own peerKey) := by
  unfold sendAuth
  refine meets_ofExcept_bind (fun localPub hpub => ?_) herror
  dsimp only
  refine meets_ofExcept_bind (fun certVerify hcv => ?_) herror
  refine meets_ofExcept_bind (fun finKey hfinKey => ?_) herror
  rw [deriveFinishedKey_eq hp] at hfinKey
  cases hfinKey
  refine meets_ofExcept_bind (fun finished hfinished => ?_) herror
  refine meets_ofExcept_bind (fun wire _ => ?_) herror
  apply meets_observe_bind
  have hkey : localPub.length = 32 := by
    rw [keyBytes_eq hpub, id.edPub_eq, hsize.length_ed25519Public]
  have hcvLength := length_signCertVerify hsize hcv
  have hfinLength : finished.length = 32 := by
    rw [computeFinished, hp] at hfinished
    rw [← Except.ok.inj hfinished, hsize.length_hmac]
  have hsent : SentBy P id k t.buf own peerKey
      { role := own.role, ch := k.ch, sh := k.sh, hs := k.hs, peerKey := peerKey
        identityKey := localPub, certVerify := certVerify
        th := ((t.addFrameType own.frameType).addTLV ⟨tlvIdentityKey, localPub⟩).sum P
        finishedKey := finishedKey P (k.secret own.dir)
        thCV := (((t.addFrameType own.frameType).addTLV ⟨tlvIdentityKey, localPub⟩).addTLV
          ⟨tlvCertVerify, certVerify⟩).sum P } := {
    role := rfl, ch := rfl, sh := rfl, hs := rfl, peerKey := rfl, finishedKey := rfl
    identityKey := keyBytes_eq hpub
    th := sum_idPoint _ _ _
    thCV := congrArg P.sha256 (buf_cvPoint _ _ _ _)
    key_fits := by rw [hkey]; decide
    certVerify_fits := by rw [hcvLength]; decide }
  obtain ⟨hwrites, hfails⟩ := hwriting _ hsent
  refine (quiet_writeFrame wire).meets_wrapError_bind hwrites (fun _ => meets_pure ?_) hfails
  refine hdone _ _ _ hsent ?_ rfl rfl (buf_cvPoint _ _ _ _)
  simp [AuthMessage.Fits, AuthMessage.tlvs, TLV.Fits, hkey, hcvLength, hfinLength]

end Rules

section Runs

variable (P : Primitives) (id : LocalIdentity P)

/-- What lies behind a CLIENT_AUTH: the hellos and the SERVER_AUTH that was accepted. -/
structure ClientDone (kem768 : KEMClient) (a : AuthSent) (k : PostKey) (sAuth : AuthMessage) :
    Prop where
  post : ClientPost P kem768 k
  fits : sAuth.Fits
  sent : SentBy P id k (serverAuthOctets k.ch k.sh sAuth) clientSide (some sAuth.identityKey) a

/-- What lies behind a SERVER_AUTH. -/
structure ServerDone (rand : KEMRandom) (a : AuthSent) (k : PostKey) : Prop where
  post : ServerPost P rand k
  sent : SentBy P id k (helloOctets k.ch k.sh) serverSide none a

def NoAuth (log : List HandshakeEvent) : Prop := ∀ a, .authSent a ∉ log

def ClientWaits (kem768 : KEMClient) (log : List HandshakeEvent) : Prop :=
  ∀ a, .authSent a ∈ log → ∃ k sAuth, ClientDone P id kem768 a k sAuth

/-- A run that has made its AUTH fails in the write of it or not at all. -/
def ClientEnds (kem768 : KEMClient) (log : List HandshakeEvent) :
    Except GoError (Bytes × Bytes × Profile) → Prop
  | .error e => ClientWaits P id kem768 log
      ∧ (NoAuth log ∨ ∃ cause, e = wrapf "npamp/sdk: send CLIENT_AUTH" cause)
  | .ok (master, peerID, p) => ∃ k sAuth a,
      ClientDone P id kem768 a k sAuth ∧ (∀ a', .authSent a' ∈ log ↔ a' = a)
        ∧ .certVerifyReceived roleServer peerID
            (P.sha256 (idPoint (helloOctets k.ch k.sh) frameServerAuth peerID)) sAuth.certVerify
          ∈ log
        ∧ Accepted P k (helloOctets k.ch k.sh) serverSide sAuth
        ∧ peerID = sAuth.identityKey ∧ p = k.p
        ∧ master = hkdfExpandLabel P k.hs "master" a.thCV hashSize

def ServerWaits (rand : KEMRandom) (log : List HandshakeEvent) : Prop :=
  ∀ a, .authSent a ∈ log → ∃ k, ServerDone P id rand a k

/-- A server that returns has accepted the CLIENT_AUTH whose proofs are in its events, over its own
SERVER_AUTH. -/
def ServerEnds (rand : KEMRandom) (log : List HandshakeEvent) :
    Except GoError (Bytes × Bytes × Profile) → Prop
  | .error _ => ServerWaits P id rand log
  | .ok (master, peerID, p) => ServerWaits P id rand log
      ∧ ∃ (k : PostKey) (a : AuthSent) (sAuth cAuth : AuthMessage),
      let before := serverAuthOctets k.ch k.sh sAuth
      let th := P.sha256 (cvPoint before frameClientAuth peerID cAuth.certVerify)
      ServerDone P id rand a k ∧ .authSent a ∈ log ∧ sAuth.Fits
        ∧ Accepted P k before clientSide cAuth
        ∧ sAuth.identityKey = a.identityKey ∧ peerID = cAuth.identityKey ∧ p = k.p
        ∧ .certVerifyReceived roleClient peerID (P.sha256 (idPoint before frameClientAuth peerID))
            cAuth.certVerify ∈ log
        ∧ .finishedReceived (finishedKey P k.cHS) th cAuth.finished ∈ log
        ∧ master = hkdfExpandLabel P k.hs "master" th hashSize

variable {P} {id}

theorem deriveMasterSecret_eq {p : Profile} (hp : hashForProfile p = .ok ()) (hs th : Bytes) :
    deriveMasterSecret P hs th p = .ok (hkdfExpandLabel P hs "master" th hashSize) :=
  expandForProfile_eq hp _ _ _ _

theorem buf_addFinished {t : Transcript} {ch : ClientHello} {sh : ServerHello} {auth : AuthMessage}
    (ht : t.buf = cvPoint (helloOctets ch sh) frameServerAuth auth.identityKey auth.certVerify) :
    (t.addTLV ⟨tlvFinished, auth.finished⟩).buf = serverAuthOctets ch sh auth := by
  rw [buf_addTLV, ht]
  simp [cvPoint, serverAuthOctets, AuthMessage.tlvs, encodeTLVs_cons]

theorem noAuth_append {log : List HandshakeEvent} {e : HandshakeEvent} (hlog : NoAuth log)
    (he : ∀ a, e ≠ .authSent a) : NoAuth (log ++ [e]) := by
  intro a ha
  rcases mem_append.mp ha with ha | ha
  · exact hlog a ha
  · exact he a (mem_singleton.mp ha).symm

theorem NoAuth.clientWaits {kem768 : KEMClient} {log : List HandshakeEvent} (hlog : NoAuth log) :
    ClientWaits P id kem768 log := fun a ha => absurd ha (hlog a)

theorem ServerWaits.append {rand : KEMRandom} {log : List HandshakeEvent} {e : HandshakeEvent}
    (hlog : ServerWaits P id rand log) (he : ∀ a, e = .authSent a → ∃ k, ServerDone P id rand a k) :
    ServerWaits P id rand (log ++ [e]) := by
  intro a ha
  rcases mem_append.mp ha with ha | ha
  · exact hlog a ha
  · exact he a (mem_singleton.mp ha).symm

/-- **A client run, stopped anywhere.** -/
theorem meets_runClientHandshake (hP : P.Correct) (hsize : P.Sized) (expectedPeer : Option Bytes)
    (kem768 : KEMClient) : Meets (ClientWaits P id kem768) (ClientEnds P id kem768) []
      (runClientHandshake P id expectedPeer kem768) := by
  have hnil : NoAuth [] := fun _ ha => absurd ha not_mem_nil
  unfold runClientHandshake
  refine (meets_clientHellos hP id kem768 hnil.clientWaits).bind ?_
    (fun _ _ h => h.1 ▸ ⟨hnil.clientWaits, .inl hnil⟩)
  rintro _ k ⟨rfl, hpost⟩
  have hpost := hpost k rfl
  obtain ⟨ss, hderived, -⟩ := hpost.derived
  -- through SERVER_AUTH
  refine Meets.bind (Q := fun log r => NoAuth log ∧ ∀ auth t, r = .ok (auth, t) →
      Accepted P k (helloOctets k.ch k.sh) serverSide auth
      ∧ t.buf = cvPoint (helloOctets k.ch k.sh) frameServerAuth auth.identityKey auth.certVerify
      ∧ .certVerifyReceived roleServer auth.identityKey
          (P.sha256 (idPoint (helloOctets k.ch k.sh) frameServerAuth auth.identityKey))
          auth.certVerify ∈ log) ?_ ?_ (fun _ _ h => ⟨h.1.clientWaits, .inl h.1⟩)
  · refine meets_recvAuth hderived.suite hnil.clientWaits (fun e => ⟨hnil, by simp⟩) ?_ ?_
    · intro pub th certVerify
      have hcert :=
        noAuth_append hnil (e := .certVerifyReceived roleServer pub th certVerify) (by simp)
      refine ⟨⟨hcert.clientWaits, fun e => ⟨hcert, by simp⟩⟩, fun key thCV finished => ?_⟩
      have hfinished := noAuth_append hcert (e := .finishedReceived key thCV finished) (by simp)
      exact ⟨hfinished.clientWaits, fun e => ⟨hfinished, by simp⟩⟩
    · intro auth t' haccepted hbuf
      rw [hderived.buf] at haccepted hbuf ⊢
      refine ⟨noAuth_append (noAuth_append hnil (by simp)) (by simp), ?_⟩
      intro auth' t'' heq
      cases heq
      exact ⟨haccepted, hbuf, by simp [serverSide]⟩
  rintro log ⟨sAuth, t⟩ ⟨hlog, hreceived⟩
  obtain ⟨haccepted, hbuf, hverified⟩ := hreceived sAuth t rfl
  dsimp only
  refine meets_ofExcept_bind (fun _ _ => ?_) (fun _ => ⟨hlog.clientWaits, .inl hlog⟩)
  -- through CLIENT_AUTH
  have hsentOnly {a : AuthSent} (hdone : ClientDone P id kem768 a k sAuth) :
      ClientWaits P id kem768 (log ++ [.authSent a]) := by
    intro a' ha'
    rcases mem_append.mp ha' with ha' | ha'
    · exact absurd ha' (hlog a')
    · cases mem_singleton.mp ha'
      exact ⟨k, sAuth, hdone⟩
  refine Meets.bind (Q := fun log' r => (∀ e, r = .error e → ClientEnds P id kem768 log' (.error e))
      ∧ ∀ auth t', r = .ok (auth, t') → ∃ a, ClientDone P id kem768 a k sAuth
        ∧ log' = log ++ [.authSent a] ∧ P.sha256 t'.buf = a.thCV) ?_ ?_ (fun _ e h => h.1 e rfl)
  · refine meets_sendAuth hsize hderived.suite
      (fun e => ⟨fun _ _ => ⟨hlog.clientWaits, .inl hlog⟩, by simp⟩) ?_ ?_
    · intro a hsent
      rw [buf_addFinished hbuf] at hsent
      have hwaits := hsentOnly ⟨hpost, haccepted.fits, hsent⟩
      refine ⟨hwaits, fun cause => ⟨?_, by simp⟩⟩
      rintro _ ⟨⟩
      exact ⟨hwaits, .inr ⟨cause, rfl⟩⟩
    · intro a auth t' hsent hauth hkey hcv hbuf'
      rw [buf_addFinished hbuf] at hsent hbuf'
      refine ⟨by simp, ?_⟩
      intro auth' t'' heq
      cases heq
      exact ⟨a, ⟨hpost, haccepted.fits, hsent⟩, rfl, by rw [hbuf', hsent.thCV]⟩
  rintro log' ⟨auth, t'⟩ ⟨-, hsent⟩
  obtain ⟨a, hdone, rfl, hth⟩ := hsent auth t' rfl
  dsimp only
  rw [deriveMasterSecret_eq hderived.suite]
  apply meets_ok_bind
  apply meets_pure
  refine ⟨k, sAuth, a, hdone, ?_, mem_append_left _ hverified, haccepted, rfl, rfl, ?_⟩
  · intro a'
    simp [hlog a']
  · rw [← hth]
    rfl

/-- **A server run, stopped anywhere.** -/
theorem meets_runServerHandshake (hP : P.Correct) (hsize : P.Sized) (expectedPeer : Option Bytes)
    (rand : KEMRandom) : Meets (ServerWaits P id rand) (ServerEnds P id rand) []
      (runServerHandshake P id expectedPeer rand) := by
  have hnil : ServerWaits P id rand [] := fun _ ha => absurd ha not_mem_nil
  unfold runServerHandshake
  refine (meets_serverHellos hP id rand hnil).bind ?_ (fun _ _ h => h.1 ▸ hnil)
  rintro _ k ⟨rfl, hpost⟩
  have hpost := hpost k rfl
  obtain ⟨ss, hderived, -⟩ := hpost.derived
  -- through SERVER_AUTH
  refine Meets.bind (Q := fun log r => ServerWaits P id rand log ∧ ∀ auth t, r = .ok (auth, t) →
      ∃ a, ServerDone P id rand a k ∧ log = [.authSent a] ∧ auth.Fits
        ∧ auth.identityKey = a.identityKey
        ∧ t.buf = cvPoint (helloOctets k.ch k.sh) frameServerAuth auth.identityKey
            auth.certVerify) ?_ ?_ (fun _ _ h => h.1)
  · have hsentOnly {a : AuthSent} (hsent : SentBy P id k k.t.buf serverSide none a) :
        ServerWaits P id rand ([] ++ [.authSent a]) := by
      refine hnil.append ?_
      rintro a' ⟨⟩
      exact ⟨k, hpost, hderived.buf ▸ hsent⟩
    refine meets_sendAuth hsize hderived.suite (fun e => ⟨hnil, by simp⟩)
      (fun a hsent => ⟨hsentOnly hsent, fun e => ⟨hsentOnly hsent, by simp⟩⟩) ?_
    intro a auth t' hsent hfits hkey hcv hbuf
    refine ⟨hsentOnly hsent, ?_⟩
    rw [hderived.buf] at hsent hbuf
    intro auth' t'' heq
    cases heq
    exact ⟨a, ⟨hpost, hsent⟩, rfl, hfits, hkey, by rw [hbuf, hkey, hcv]; rfl⟩
  rintro log ⟨sAuth, t⟩ ⟨hlog, hsent⟩
  obtain ⟨a, hdone, rfl, hfits, hkey, hbuf⟩ := hsent sAuth t rfl
  dsimp only
  -- through CLIENT_AUTH
  refine Meets.bind (Q := fun log r => ServerWaits P id rand log ∧ ∀ auth t, r = .ok (auth, t) →
      Accepted P k (serverAuthOctets k.ch k.sh sAuth) clientSide auth ∧ .authSent a ∈ log
        ∧ t.buf = cvPoint (serverAuthOctets k.ch k.sh sAuth) frameClientAuth auth.identityKey
            auth.certVerify
        ∧ .certVerifyReceived roleClient auth.identityKey
            (P.sha256 (idPoint (serverAuthOctets k.ch k.sh sAuth) frameClientAuth
              auth.identityKey)) auth.certVerify ∈ log
        ∧ .finishedReceived (finishedKey P k.cHS) (P.sha256 t.buf) auth.finished ∈ log)
    ?_ ?_ (fun _ _ h => h.1)
  · refine meets_recvAuth hderived.suite hlog (fun e => ⟨hlog, by simp⟩) ?_ ?_
    · intro pub th certVerify
      have hcert := hlog.append (e := .certVerifyReceived roleClient pub th certVerify) (by simp)
      refine ⟨⟨hcert, fun e => ⟨hcert, by simp⟩⟩, fun key thCV finished => ?_⟩
      have hfinished := hcert.append (e := .finishedReceived key thCV finished) (by simp)
      exact ⟨hfinished, fun e => ⟨hfinished, by simp⟩⟩
    · intro auth t' haccepted hbuf'
      rw [buf_addFinished hbuf] at haccepted hbuf' ⊢
      refine ⟨(hlog.append (by simp)).append (by simp), ?_⟩
      intro auth' t'' heq
      cases heq
      exact ⟨haccepted, by simp, hbuf', by simp [clientSide],
        by simp [clientSide, PostKey.secret]⟩
  rintro log ⟨cAuth, t'⟩ ⟨hlog', hreceived⟩
  obtain ⟨haccepted, hsent', hbuf', hcert, hfinished⟩ := hreceived cAuth t' rfl
  dsimp only
  refine meets_ofExcept_bind (fun _ _ => ?_) (fun _ => hlog')
  rw [deriveMasterSecret_eq hderived.suite]
  apply meets_ok_bind
  apply meets_pure
  rw [hbuf'] at hfinished
  refine ⟨hlog', k, a, sAuth, cAuth, hdone, hsent', hfits, haccepted, hkey, rfl, rfl, hcert,
    hfinished, ?_⟩
  rw [Transcript.sum, hbuf']

end Runs

end Npamp
