import Npamp.Proof.Flow

/-!
# Rust in the honest handshake

A Rust client takes part in a handshake whose offer is the Standard profile alone; the server in
any.
-/

namespace Npamp.Rust

open TLV
open Dialogue (Exchange follows_ofExcept_bind follows_pure)

variable {C : Crates} {x : Flow}

theorem tlv_eq_append (out : Bytes) (typ : UInt16) (value : Bytes) :
    tlv out typ value = out ++ (mk typ value).encode [] := by
  rw [← encode_eq_append]
  exact tlv_eq_encode out ⟨typ, value⟩

theorem tlv_idPoint (t : Bytes) (ft : FrameType) (key : Bytes) :
    tlv (t ++ putUint16 ft) tlvIdentityKey key = idPoint t ft key := by
  simp [tlv_eq_append, idPoint, encodeTLVs_cons]

theorem tlv_cvPoint (t : Bytes) (ft : FrameType) (key cv : Bytes) :
    tlv (idPoint t ft key) tlvCertVerify cv = cvPoint t ft key cv := by
  simp [tlv_eq_append, idPoint, cvPoint, encodeTLVs_cons]

theorem tlv_finished (ch : ClientHello) (sh : ServerHello) (auth : AuthMessage) :
    tlv (cvPoint (helloOctets ch sh) frameServerAuth auth.identityKey auth.certVerify) tlvFinished
      auth.finished = serverAuthOctets ch sh auth := by
  simp [tlv_eq_append, cvPoint, serverAuthOctets, AuthMessage.tlvs, encodeTLVs_cons]

theorem absorb_hellos :
    absorb (absorb [] frameClientHello clientHelloTypes (x.ch.tlvs.map value)) frameServerHello
      serverHelloTypes (x.sh.tlvs.map value) = helloOctets x.ch x.sh := by
  have hclient := absorb_eq ⟨[]⟩ frameClientHello x.ch.tlvs
  have hserver := absorb_eq ⟨absorb [] frameClientHello (x.ch.tlvs.map type)
    (x.ch.tlvs.map value)⟩ frameServerHello x.sh.tlvs
  change absorb (absorb [] _ (x.ch.tlvs.map type) _) _ (x.sh.tlvs.map type) _ = _
  rw [hserver, Transcript.buf_addFrame, hclient, Transcript.buf_addFrame]
  simp [helloOctets]

theorem u16ListBytes_singleton (id : UInt16) : u16ListBytes [id] = putUint16 id := by
  simp [u16ListBytes]

theorem offerVals_eq (hprofiles : x.profiles = [profileStandard]) :
    offerVals x.kemShare = x.ch.tlvs.map value := by
  simp only [ClientHello.tlvs, Flow.ch, List.map_cons, List.map_nil, u16ListBytes_singleton,
    hprofiles, offerVals]

theorem selectVals_eq : selectVals x.kemCT = x.sh.tlvs.map value := rfl

theorem encodeHello_eq (tlvs : List TLV) :
    encodeHello (tlvs.map type) (tlvs.map value) = encodeFlight tlvs := by
  have hfold : ∀ (tlvs : List TLV) (out : Bytes),
      ((tlvs.map type).zip (tlvs.map value)).foldl (fun out tv => tlv out tv.1 tv.2) out
        = tlvs.foldl (fun out v => v.encode out) out := by
    intro tlvs
    induction tlvs with
    | nil => exact fun _ => rfl
    | cons v rest ih =>
      intro out
      rw [List.map_cons, List.map_cons, List.zip_cons_cons, List.foldl_cons, List.foldl_cons,
        tlv_eq_encode, ih]
  exact hfold tlvs []

theorem unmarshal_helloWire (ft : FrameType) {payload : Bytes}
    (hpayload : payload.length < 2 ^ 32) :
    ∃ f, unmarshal (helloWire ft payload) = .ok f ∧ f.type = ft ∧ f.payload = payload := by
  obtain ⟨f, hparse, htype, -, hp⟩ := unmarshalBinary_helloWire ft hpayload
  exact ⟨f, ((unmarshalBinaryWith_eq_ok_iff crc32c _ f).mp hparse).1, htype, hp⟩

theorem acceptClientHello_chWire (hx : x.Valid) :
    acceptClientHello x.chWire = .ok (x.ch.tlvs.map value) := by
  have hlength : x.ch.encode.length < 2 ^ 32 := by
    have hprofiles := hx.profiles_fit
    rw [Flow.length_encode_ch hx]
    omega
  obtain ⟨f, hparse, htype, hpayload⟩ := unmarshal_helloWire frameClientHello hlength
  refine acceptClientHello_eq_ok.mpr ⟨f, hparse, htype, x.ch, ?_, hx.offers, rfl⟩
  rw [hpayload, hx.decode_ch]

theorem dialServerHello_shWire (hx : x.Valid) :
    dialServerHello x.shWire = .ok (x.sh.tlvs.map value) := by
  have hlength : x.sh.encode.length < 2 ^ 32 := by
    rw [Flow.length_encode_sh hx]
    decide
  obtain ⟨f, hparse, htype, hpayload⟩ := unmarshal_helloWire frameServerHello hlength
  refine dialServerHello_eq_ok.mpr ⟨f, hparse, htype, x.sh, ?_, hx.selects, rfl⟩
  rw [hpayload, hx.decode_sh]

section Secrets

variable (hC : C.Agrees)

include hC

theorem checkX25519_eq {a b ss : Bytes} (h : C.x25519 a b = .ok ss) :
    checkX25519 (C.diffieHellman a b) = .ok ss := by
  obtain ⟨rfl, hzero⟩ := hC.diffieHellman a b ss h
  rw [checkX25519, if_neg (by rw [hzero]; exact Bool.false_ne_true)]

theorem sharedSecrets_eq {kem : KEMClient} {kemCt : Bytes} {ss : SharedSecrets}
    (h : kem.sharedSecrets C kemCt = .ok ss) :
    sharedSecrets C kem kemCt = .ok (ss.mlkem, ss.x25519) := by
  unfold KEMClient.sharedSecrets at h
  split at h
  · cases h
  rename_i hlength
  split at h
  · cases h
  rename_i mlkem hmlkem
  split at h
  · cases h
  rename_i xss hxss
  cases h
  have hlength' : kemCt.length = kemCiphertextLen := not_not.mp hlength
  simp only [sharedSecrets, hlength', ne_eq, not_true_eq_false, if_false, hmlkem,
    checkX25519_eq hC hxss, bind, Except.bind, Except.mapError]
  rfl

theorem encapsulate_eq {kemShare kemCt : Bytes} {rand : KEMRandom} {ss : SharedSecrets}
    (h : Npamp.encapsulate C kemShare rand = .ok (kemCt, ss)) :
    encapsulate C kemShare rand = .ok (kemCt, ss.mlkem, ss.x25519) := by
  unfold Npamp.encapsulate at h
  split at h
  · cases h
  rename_i hlength
  split at h
  · cases h
  rename_i mlkem ct hmlkem
  split at h
  · cases h
  rename_i xss hxss
  cases h
  have hlength' : kemShare.length = kemShareLen := not_not.mp hlength
  simp only [encapsulate, hlength', ne_eq, not_true_eq_false, if_false, hmlkem,
    checkX25519_eq hC hxss, bind, Except.bind, Except.mapError]
  rfl

theorem length_hs (x : Flow) : hashLen ≤ (x.hs C).length :=
  (hC.length_hkdfExtract _ _).ge

theorem length_secret (x : Flow) (dir : Direction) :
    hashLen ≤ (x.secret C dir).length := by
  cases dir <;> exact (length_hkdfExpandLabel hC _ _ _).ge

theorem handshakeSecrets_eq : handshakeSecrets C x.ss.mlkem x.ss.x25519 (helloOctets x.ch x.sh)
      = .ok (x.hs C, x.secret C .clientToServer,
          x.secret C .serverToClient) := by
  have hextract : deriveHandshakeSecret C x.ss.mlkem x.ss.x25519 standard
      = .ok (x.hs C) := rfl
  have hhash : transcriptHash C (helloOctets x.ch x.sh) standard
      = .ok (C.sha256 (helloOctets x.ch x.sh)) := rfl
  have hexpand (label : String) := hkdfExpandLabel_eq C (length_hs hC x) label
    (C.sha256 (helloOctets x.ch x.sh)) (show hashLen ≤ 255 * hashLen by decide)
  simp only [handshakeSecrets, hextract, hhash, deriveClientHandshakeSecret,
    deriveServerHandshakeSecret, hexpand, bind, Except.bind]
  rfl

theorem deriveMasterSecret_eq : deriveMasterSecret C (x.hs C)
      (C.sha256 (cvPoint (x.beforeClient C) frameClientAuth
        (x.clientAuth C).identityKey (x.clientAuth C).certVerify)) standard
      = .ok (x.master C) :=
  hkdfExpandLabel_eq C (length_hs hC x) "master" _ (by decide)

end Secrets

/-- The same side of the handshake in the two implementations. -/
structure AuthSide.Matches (side : AuthSide) (go : Npamp.AuthSide) : Prop where
  frameType : side.frameType = go.frameType
  dir : side.dir = go.dir.octet
  input (th : Bytes) : certVerifySigningInput side.isServer th = signingInput go.role th

theorem serverSide_matches : serverSide.Matches Npamp.serverSide := ⟨rfl, rfl, fun _ => rfl⟩

theorem clientSide_matches : clientSide.Matches Npamp.clientSide := ⟨rfl, rfl, fun _ => rfl⟩

theorem checkPin_eq_ok {expectedPeer : Option Bytes} {peer : Bytes}
    (h : ∀ key ∈ expectedPeer, key = peer) (name : String) :
    checkPin expectedPeer peer name = .ok () := by
  cases expectedPeer with
  | none => rfl
  | some key =>
    obtain rfl := h key rfl
    exact if_neg (not_not_intro rfl)

section Auth

variable (hC : C.Agrees) {side : AuthSide} {go : Npamp.AuthSide} (hside : side.Matches go)
  (t : Bytes)

include hC

theorem decodeAuth_auth : decodeAuth (x.auth C go t).encode
      = .ok ((x.auth C go t).identityKey, (x.auth C go t).certVerify,
          (x.auth C go t).finished) := by
  obtain ⟨hwell, -⟩ := decodeAuthMessage_eq_ok.mp (Flow.decode_auth hC.sized go t)
  have hgo : Npamp.decodeFlight [tlvIdentityKey, tlvCertVerify, tlvFinished]
      (x.auth C go t).encode
      = .ok ((x.auth C go t).tlvs.map value) := by
    refine (Npamp.decodeFlight_eq_ok (by decide)).mpr ⟨rfl, hwell.fits, ?_⟩
    rw [AuthMessage.encode, encodeFlight_eq]
    rfl
  rw [decodeAuth, (decodeFlight_eq_ok_iff (by decide)).mpr hgo]
  rfl

theorem vkFrom_auth : vkFrom C (x.auth C go t).identityKey
      = .ok (x.auth C go t).identityKey := by
  have hlength : (x.auth C go t).identityKey.length = 32 :=
    hC.sized.length_ed25519Public _
  have hkey : C.isVerifyingKey (x.auth C go t).identityKey = true :=
    hC.isVerifyingKey_public _
  simp only [vkFrom, to32, hlength, ne_eq, not_true_eq_false, if_false, bind, Except.bind, hkey,
    if_true]
  rfl

include hside

theorem verifyCertVerify_auth :
    verifyCertVerify C (x.auth C go t).identityKey side.isServer
      (C.sha256 (idPoint t go.frameType (x.auth C go t).identityKey))
      (x.auth C go t).certVerify = true := by
  set th := C.sha256 (idPoint t go.frameType (x.auth C go t).identityKey) with hth
  have hcv : (x.auth C go t).certVerify
      = putUint16 sigEd25519 ++ C.ed25519Sign (x.key go.dir) (signingInput go.role th) := rfl
  have hlength : (C.ed25519Sign (x.key go.dir) (signingInput go.role th)).length = signatureSize :=
    hC.sized.length_ed25519Sign _ _
  have hscheme : slice (putUint16 sigEd25519
      ++ C.ed25519Sign (x.key go.dir) (signingInput go.role th)) 0 2 = putUint16 sigEd25519 := by
    rw [slice, List.drop_zero, List.take_left' (length_putUint16 _)]
  have hshort : ¬ ((putUint16 sigEd25519
        ++ C.ed25519Sign (x.key go.dir) (signingInput go.role th)).length < 2
      ∨ uint16 (slice (putUint16 sigEd25519
        ++ C.ed25519Sign (x.key go.dir) (signingInput go.role th)) 0 2) ≠ sigEd25519) := by
    rw [hscheme, uint16_putUint16, List.length_append, length_putUint16]
    rintro (hlt | hne)
    · omega
    · exact hne rfl
  rw [verifyCertVerify, hcv, if_neg hshort, List.drop_left' (length_putUint16 _),
    if_neg (not_not_intro hlength), hside.input]
  exact hC.verify_sign _ _

omit hC in
theorem signCertVerify_auth (identity : Bytes) (hid : identity = x.key go.dir) :
    signCertVerify C identity side.isServer
      (C.sha256 (idPoint t go.frameType (x.auth C go t).identityKey))
      = (x.auth C go t).certVerify := by
  rw [signCertVerify, hside.input, hid]
  rfl

theorem openFrame_auth :
    ∃ f, parseEncFrame (x.authWire C go (x.auth C go t)) side.frameType
        = .ok f
      ∧ openFrame C f (x.secret C go.dir) side.dir
        = .ok (x.auth C go t).encode := by
  have hfits : (x.auth C go t).encode.length + 16 < 2 ^ 32 := by
    rw [Flow.length_encode_auth hC.sized]
    decide
  obtain ⟨f, hparse, hchannel, htype, hflags, -, hopen⟩ := openWith_sealWith hC.correct
    { trafficKeys C (x.secret C go.dir) go.dir 0 Npamp.chanControl with
      seq := 0 } Npamp.chanControl go.frameType hfits
  have hrust := ((unmarshalBinaryWith_eq_ok_iff crc32c _ f).mp hparse).1
  have henc : f.flags &&& flagENC ≠ 0 := by
    rw [hflags]
    decide
  refine ⟨f, ?_, ?_⟩
  · rw [parseEncFrame, Flow.authWire, recordWire, show unmarshal _ = .ok f from hrust]
    dsimp only
    rw [if_neg (not_not_intro (htype.trans hside.frameType.symm)), if_neg henc]
  · rw [← hchannel] at hopen
    rw [hside.dir]
    exact openFrame_eq hC (length_secret hC x go.dir) go.dir hopen

omit hside in
theorem finishedKey_eq : finishedKey C (x.secret C go.dir) standard
      = .ok (Npamp.finishedKey C (x.secret C go.dir)) :=
  hkdfExpandLabel_eq C (length_secret hC x go.dir) "finished" [] (by decide)

theorem follows_recvAuth {expectedPeer : Option Bytes}
    (hpin : ∀ key ∈ expectedPeer, key = (x.auth C go t).identityKey) :
    Dialogue.Follows (recvAuth C side (x.secret C go.dir) t expectedPeer)
      [.got (x.authWire C go (x.auth C go t))]
      (.ok ((x.auth C go t).identityKey, (x.auth C go t).finished,
        cvPoint t go.frameType (x.auth C go t).identityKey
          (x.auth C go t).certVerify)) := by
  obtain ⟨f, hparse, hopen⟩ := openFrame_auth hC hside (x := x) t
  have hfinished : verifyFinished C
      (Npamp.finishedKey C (x.secret C go.dir))
      (C.sha256 (cvPoint t go.frameType (x.auth C go t).identityKey
        (x.auth C go t).certVerify)) (x.auth C go t).finished standard
      = .ok true :=
    congrArg Except.ok (beq_self_eq_true _)
  have hkey : to32 (x.auth C go t).identityKey
      = .ok (x.auth C go t).identityKey :=
    if_neg (not_not_intro (hC.sized.length_ed25519Public _))
  unfold recvAuth
  refine (Dialogue.follows_receive _).cons ?_
  refine follows_ofExcept_bind hparse ?_
  refine follows_ofExcept_bind hopen ?_
  refine follows_ofExcept_bind (decodeAuth_auth hC t) ?_
  dsimp only
  refine follows_ofExcept_bind (vkFrom_auth hC t) ?_
  refine follows_ofExcept_bind rfl ?_
  rw [hside.frameType, tlv_idPoint, verifyCertVerify_auth hC hside,
    if_neg (Bool.true_eq_false ▸ not_false), tlv_cvPoint]
  refine follows_ofExcept_bind (finishedKey_eq hC) ?_
  refine follows_ofExcept_bind rfl ?_
  refine follows_ofExcept_bind hfinished ?_
  rw [if_neg (Bool.true_eq_false ▸ not_false)]
  refine follows_ofExcept_bind hkey ?_
  exact follows_ofExcept_bind (checkPin_eq_ok hpin _) (follows_pure _)

theorem follows_sendAuth {identity : Bytes} (hid : identity = x.key go.dir) :
    Dialogue.Follows (sendAuth C side identity (x.secret C go.dir) t)
      [.put (x.authWire C go (x.auth C go t))]
      (.ok ((x.auth C go t).finished,
        cvPoint t go.frameType (x.auth C go t).identityKey
          (x.auth C go t).certVerify)) := by
  have hpub : C.ed25519Public identity = (x.auth C go t).identityKey := by
    rw [hid]
    rfl
  have hauth : encodeAuth (x.auth C go t).identityKey
      (x.auth C go t).certVerify (x.auth C go t).finished
      = (x.auth C go t).encode := by
    rw [AuthMessage.encode, encodeFlight_eq]
    simp [encodeAuth, tlv_eq_append, AuthMessage.tlvs, encodeTLVs_cons]
  have hfinished : computeFinished C
      (Npamp.finishedKey C (x.secret C go.dir))
      (C.sha256 (cvPoint t go.frameType (x.auth C go t).identityKey
        (x.auth C go t).certVerify)) standard
      = .ok (x.auth C go t).finished := rfl
  have hseal := sealFrame_eq hC (length_secret hC x go.dir) go.dir chanControl 0 go.frameType
    (x.auth C go t).encode
  unfold sendAuth
  dsimp only
  rw [hpub, hside.frameType, tlv_idPoint, hside.dir]
  refine follows_ofExcept_bind rfl ?_
  rw [signCertVerify_auth hside t identity hid, tlv_cvPoint]
  refine follows_ofExcept_bind rfl ?_
  refine follows_ofExcept_bind (finishedKey_eq hC) ?_
  refine follows_ofExcept_bind hfinished ?_
  rw [hauth]
  refine follows_ofExcept_bind hseal ?_
  exact (Dialogue.follows_send _).cons (follows_pure _)

end Auth

section Runs

variable (hC : C.Agrees) (hx : x.Valid) {identity : Bytes} {expectedPeer : Option Bytes}

include hC hx

/-- The Rust client plays its part of the flow, to the end. -/
theorem follows_dialWithEphemeral {kem : KEMClient} (hprofiles : x.profiles = [profileStandard])
    (hshare : kem.kemShare C = x.kemShare)
    (hss : kem.sharedSecrets C x.kemCT = .ok x.ss) (hid : identity = x.clientKey)
    (hpin : ∀ key ∈ expectedPeer, key = C.ed25519Public x.serverKey) :
    Dialogue.Follows (dialWithEphemeral C identity expectedPeer kem) (x.clientScript C)
      (.ok
        { master := x.master C, peerIdentity := C.ed25519Public x.serverKey
          sendDir := dirC2s, recvDir := dirS2c }) := by
  have hhello : cleartextFrame frameClientHello
      (encodeHello clientHelloTypes (x.ch.tlvs.map value)) = x.chWire :=
    congrArg (helloWire frameClientHello) (encodeHello_eq x.ch.tlvs)
  have hrecv : Dialogue.Follows
      (recvAuth C serverSide (x.secret C .serverToClient) (helloOctets x.ch x.sh)
        expectedPeer)
      [.got (x.serverAuthWire C)]
      (.ok ((x.serverAuth C).identityKey, (x.serverAuth C).finished,
        cvPoint (helloOctets x.ch x.sh) frameServerAuth (x.serverAuth C).identityKey
          (x.serverAuth C).certVerify)) :=
    follows_recvAuth hC serverSide_matches _ hpin
  have hsend : Dialogue.Follows
      (sendAuth C clientSide identity (x.secret C .clientToServer)
        (x.beforeClient C))
      [.put (x.clientAuthWire C)]
      (.ok ((x.clientAuth C).finished,
        cvPoint (x.beforeClient C) frameClientAuth
          (x.clientAuth C).identityKey (x.clientAuth C).certVerify)) :=
    follows_sendAuth hC clientSide_matches _ hid
  unfold dialWithEphemeral
  dsimp only
  rw [hshare, offerVals_eq hprofiles, hhello]
  refine (Dialogue.follows_send _).cons ?_
  refine (Dialogue.follows_receive _).cons ?_
  refine follows_ofExcept_bind (dialServerHello_shWire hx) ?_
  refine follows_ofExcept_bind (sharedSecrets_eq hC hss) ?_
  rw [absorb_hellos]
  refine follows_ofExcept_bind (handshakeSecrets_eq hC) ?_
  refine hrecv.cons ?_
  dsimp only
  rw [tlv_finished]
  refine hsend.cons ?_
  refine follows_ofExcept_bind rfl ?_
  exact follows_ofExcept_bind (deriveMasterSecret_eq hC) (follows_pure _)

/-- The Rust server plays its part of the flow, to the end. -/
theorem follows_acceptWithEphemeral {rand : KEMRandom}
    (hkem : Npamp.encapsulate C x.kemShare rand = .ok (x.kemCT, x.ss))
    (hid : identity = x.serverKey)
    (hpin : ∀ key ∈ expectedPeer, key = C.ed25519Public x.clientKey) :
    Dialogue.Follows (acceptWithEphemeral C identity expectedPeer rand)
      (x.serverScript C)
      (.ok
        { master := x.master C, peerIdentity := C.ed25519Public x.clientKey
          sendDir := dirS2c, recvDir := dirC2s }) := by
  have hhello : cleartextFrame frameServerHello
      (encodeHello serverHelloTypes (selectVals x.kemCT)) = x.shWire :=
    congrArg (helloWire frameServerHello) (encodeHello_eq x.sh.tlvs)
  have hsend : Dialogue.Follows
      (sendAuth C serverSide identity (x.secret C .serverToClient)
        (helloOctets x.ch x.sh))
      [.put (x.serverAuthWire C)]
      (.ok ((x.serverAuth C).finished,
        cvPoint (helloOctets x.ch x.sh) frameServerAuth (x.serverAuth C).identityKey
          (x.serverAuth C).certVerify)) :=
    follows_sendAuth hC serverSide_matches _ hid
  have hrecv : Dialogue.Follows
      (recvAuth C clientSide (x.secret C .clientToServer)
        (x.beforeClient C) expectedPeer)
      [.got (x.clientAuthWire C)]
      (.ok ((x.clientAuth C).identityKey, (x.clientAuth C).finished,
        cvPoint (x.beforeClient C) frameClientAuth
          (x.clientAuth C).identityKey (x.clientAuth C).certVerify)) :=
    follows_recvAuth hC clientSide_matches _ hpin
  unfold acceptWithEphemeral
  refine (Dialogue.follows_receive _).cons ?_
  refine follows_ofExcept_bind (acceptClientHello_chWire hx) ?_
  refine follows_ofExcept_bind (encapsulate_eq hC hkem) ?_
  dsimp only
  rw [hhello]
  refine (Dialogue.follows_send _).cons ?_
  rw [selectVals_eq, absorb_hellos]
  refine follows_ofExcept_bind (handshakeSecrets_eq hC) ?_
  refine hsend.cons ?_
  dsimp only
  rw [tlv_finished]
  refine hrecv.cons ?_
  refine follows_ofExcept_bind rfl ?_
  exact follows_ofExcept_bind (deriveMasterSecret_eq hC) (follows_pure _)

end Runs

end Npamp.Rust
