import Npamp.Proof.HandshakeRuns

/-!
# Handshake agreement under an active network

A CertVerify that verifies under an honest key was made by a run of its owner, which has seen the
same flights; the KEM then gives both the same secrets, and the Finished covers the CertVerify that
was accepted.
-/

namespace Npamp

open Dialogue List

variable {P : Primitives}

def handshakeEvents (w : List (HandshakeRun P)) : List HandshakeEvent := w.flatMap fun s => s.log

def HandshakeEvent.auth : HandshakeEvent → Option AuthSent
  | .authSent a => some a
  | _ => none

def authsSent (w : List (HandshakeRun P)) : List AuthSent :=
  (handshakeEvents w).filterMap HandshakeEvent.auth

/-- The event presents no forgery, given the AUTH frames `sent`: a signature that verifies under an
honest key was made with it over the same input, and a MAC that is right under a key some run makes
its own under was made by a run. -/
def HandshakeEvent.Unforged (P : Primitives) (honest : Bytes → Prop) (sent : List AuthSent) :
    HandshakeEvent → Prop
  | .certVerifyReceived role pub th certVerify =>
    honest pub ∧ certVerifies P pub role th certVerify = true →
      (∃ a ∈ sent, a.identityKey = pub
        ∧ certVerifySigningInput a.role a.th = certVerifySigningInput role th)
      -- and a signature stands for the one input it was made over
      ∧ ∀ a ∈ sent, a.identityKey = pub → a.certVerify = certVerify →
          certVerifySigningInput a.role a.th = certVerifySigningInput role th
  | .finishedReceived key th finished =>
    (∃ a ∈ sent, a.finishedKey = key) ∧ P.hmac key th = finished →
      ∃ a ∈ sent, a.finishedKey = key ∧ a.thCV = th
  | .authSent _ => True

/-- No run is presented a forgery, whether it comes to accept it or not. -/
def Unforgeable (honest : Bytes → Prop) (w : List (HandshakeRun P)) : Prop :=
  ∀ e ∈ handshakeEvents w, e.Unforged P honest (authsSent w)

theorem mem_authsSent {w : List (HandshakeRun P)} {a : AuthSent} :
    a ∈ authsSent w ↔ ∃ s ∈ w, .authSent a ∈ s.log := by
  simp only [authsSent, handshakeEvents, mem_filterMap, mem_flatMap]
  constructor
  · rintro ⟨e, ⟨s, hs, he⟩, ha⟩
    cases e with
    | authSent b =>
      cases ha
      exact ⟨s, hs, he⟩
    | _ => cases ha
  · rintro ⟨s, hs, ha⟩
    exact ⟨.authSent a, ⟨s, hs, ha⟩, rfl⟩

theorem certVerifySigningInput_inj {role role' : Role} {th th' : Bytes}
    (hrole : role = roleClient ∨ role = roleServer)
    (h : certVerifySigningInput role th = certVerifySigningInput role' th') :
    role = role' ∧ th = th' := by
  have hcontext : role.certVerifyContext ≠ "" := by
    rcases hrole with rfl | rfl <;> decide
  have hcontext' : role'.certVerifyContext ≠ "" := by
    intro hempty
    simp only [certVerifySigningInput, if_neg hcontext, if_pos hempty] at h
    cases h
  have hrole' : role' = roleClient ∨ role' = roleServer := by
    by_contra hne
    obtain ⟨hclient, hserver⟩ := not_or.mp hne
    exact hcontext' (by rw [Role.certVerifyContext, if_neg hclient, if_neg hserver])
  simp only [certVerifySigningInput, if_neg hcontext, if_neg hcontext', Except.ok.injEq,
    append_assoc] at h
  obtain ⟨-, h⟩ := append_inj h (by simp)
  have hlength : (ascii role.certVerifyContext).length
      = (ascii role'.certVerifyContext).length := by
    rcases hrole with rfl | rfl <;> rcases hrole' with rfl | rfl <;> decide
  obtain ⟨hctx, h⟩ := append_inj h hlength
  refine ⟨?_, (append_inj h rfl).2⟩
  rcases hrole with rfl | rfl <;> rcases hrole' with rfl | rfl
  · rfl
  · exact absurd hctx (by decide)
  · exact absurd hctx (by decide)
  · rfl

section Pairs

variable {kem768 : KEMClient} {rand rand' : KEMRandom} {k k' : PostKey} {r r' : Bytes}

theorem hellos_agree (hc : ClientPost P kem768 k) (hs : ServerPost P rand k')
    (h : helloOctets k.ch k.sh ++ r = helloOctets k'.ch k'.sh ++ r') :
    k.ch = k'.ch ∧ k.sh = k'.sh ∧ r = r' := by
  have hfits : k.ch.Fits := by
    simp only [helloOctets, append_assoc] at h
    exact ClientHello.fits_of_absorbed hc.profileOffer hc.others hs.ch_fits
      (append_inj h (by simp)).2
  exact helloOctets_append_inj hfits hs.ch_fits hc.sh_fits hs.sh_fits h

theorem AuthMessage.tlvs_injective : Function.Injective AuthMessage.tlvs := by
  intro a b h
  cases a
  cases b
  simp only [AuthMessage.tlvs, cons.injEq, TLV.mk.injEq, true_and, and_true] at h
  obtain ⟨rfl, rfl, rfl⟩ := h
  rfl

theorem serverAuth_agree {sAuth sAuth' : AuthMessage} (hc : ClientPost P kem768 k)
    (hs : ServerPost P rand k') (hfits : sAuth.Fits) (hfits' : sAuth'.Fits)
    (h : serverAuthOctets k.ch k.sh sAuth ++ r = serverAuthOctets k'.ch k'.sh sAuth' ++ r') :
    k.ch = k'.ch ∧ k.sh = k'.sh ∧ sAuth = sAuth' ∧ r = r' := by
  simp only [serverAuthOctets, append_assoc] at h
  obtain ⟨hch, hsh, h⟩ := hellos_agree hc hs h
  obtain ⟨hauth, h⟩ := encodeTLVs_append_inj hfits hfits' rfl (append_inj h (by simp)).2
  exact ⟨hch, hsh, AuthMessage.tlvs_injective hauth, h⟩

theorem secrets_agree (hP : P.Correct) (hc : ClientPost P kem768 k) (hs : ServerPost P rand k')
    (hch : k.ch = k'.ch) (hsh : k.sh = k'.sh) : k = k' := by
  obtain ⟨ss, hderived, hdecapsulate⟩ := hc.derived
  obtain ⟨ss', hderived', hencapsulate⟩ := hs.derived
  rw [← hch, hc.kemShare] at hencapsulate
  have hshared := sharedSecrets_of_encapsulate hP hencapsulate
  rw [← hsh, hdecapsulate] at hshared
  cases hshared
  exact hderived.unique hderived' hch hsh

theorem cvPoint_server_ne_client {key cv key' cv' : Bytes} {sAuth : AuthMessage}
    (hs : ServerPost P rand k) (hs' : ServerPost P rand' k') (hkey : key.length < 2 ^ 16)
    (hcv : cv.length < 2 ^ 16) (hfits : sAuth.Fits) :
    cvPoint (helloOctets k.ch k.sh) frameServerAuth key cv
      ≠ cvPoint (serverAuthOctets k'.ch k'.sh sAuth) frameClientAuth key' cv' := by
  intro h
  simp only [cvPoint, serverAuthOctets, append_assoc] at h
  obtain ⟨-, -, h⟩ := helloOctets_append_inj hs.ch_fits hs'.ch_fits hs.sh_fits hs'.sh_fits h
  have hlist := (append_inj h (by simp)).2
  have hshort : ∀ t ∈ [TLV.mk tlvIdentityKey key, TLV.mk tlvCertVerify cv], t.Fits := by
    simpa [TLV.Fits] using ⟨hkey, hcv⟩
  have hsplit : encodeTLVs sAuth.tlvs
      = encodeTLVs [⟨tlvIdentityKey, sAuth.identityKey⟩, ⟨tlvCertVerify, sAuth.certVerify⟩]
        ++ encodeTLVs [⟨tlvFinished, sAuth.finished⟩] := by
    simp [AuthMessage.tlvs, encodeTLVs_cons]
  have hfits' : ∀ t ∈ [TLV.mk tlvIdentityKey sAuth.identityKey,
      TLV.mk tlvCertVerify sAuth.certVerify], t.Fits :=
    fun t ht => hfits t (mem_of_mem_take (i := 2) ht)
  rw [hsplit, append_assoc, ← append_nil (encodeTLVs [_, _])] at hlist
  obtain ⟨-, hend⟩ := encodeTLVs_append_inj hshort hfits' rfl hlist
  simp [encodeTLVs_cons, TLV.encode_nil, putUint16, BigEndian.toBytes] at hend

end Pairs

/-- What the events of a run that has not returned say. -/
def Party.Waits : Party P → List HandshakeEvent → Prop
  | .client id _ kem768 => ClientWaits P id kem768
  | .server id _ rand => ServerWaits P id rand

/-- What the events of a run that has returned say, for the value returned. -/
def Party.Ends : Party P → List HandshakeEvent → Except GoError (Bytes × Bytes × Profile) → Prop
  | .client id _ kem768 => ClientEnds P id kem768
  | .server id _ rand => ServerEnds P id rand

theorem Party.meets_run (hP : P.Correct) (hsize : P.Sized) (party : Party P) :
    Meets party.Waits party.Ends [] party.run := by
  cases party with
  | client id expectedPeer kem768 => exact meets_runClientHandshake hP hsize expectedPeer kem768
  | server id expectedPeer rand => exact meets_runServerHandshake hP hsize expectedPeer rand

abbrev HandshakeRun.Sound (s : HandshakeRun P) : Prop := s.Holds Party.Waits Party.Ends

variable {s : HandshakeRun P} {a : AuthSent}

/-- The run has returned `value`, unless it is still to return or failed in the write of its AUTH. -/
def HandshakeRun.ReturnsOnceWritten (c : HandshakeRun P) (value : Bytes × Bytes × Profile) : Prop :=
  ∀ result, c.outcome = some result →
    result = .ok value ∨ ∃ cause, result = .error (wrapf "npamp/sdk: send CLIENT_AUTH" cause)

theorem HandshakeRun.sent_cases (hs : s.Sound) (ha : .authSent a ∈ s.log) :
    (∃ id expectedPeer kem768 k sAuth, s.party = .client id expectedPeer kem768
        ∧ ClientDone P id kem768 a k sAuth
        ∧ s.ReturnsOnceWritten (hkdfExpandLabel P k.hs "master" a.thCV hashSize,
            sAuth.identityKey, k.p))
      ∨ ∃ id expectedPeer rand k, s.party = .server id expectedPeer rand
          ∧ ServerDone P id rand a k := by
  obtain ⟨party, log, rest⟩ := s
  cases party with
  | client id expectedPeer kem768 =>
    refine .inl ⟨id, expectedPeer, kem768, ?_⟩
    rcases hs.outcome_or with ⟨hnone, hlog⟩ | ⟨result, houtcome, hends⟩
    · obtain ⟨k, sAuth, hdone⟩ := hlog a ha
      refine ⟨k, sAuth, rfl, hdone, fun result hresult => ?_⟩
      cases hnone.symm.trans hresult
    cases result with
    | error e =>
      obtain ⟨hwaits, hnone | ⟨cause, rfl⟩⟩ := hends
      · exact absurd ha (hnone a)
      obtain ⟨k, sAuth, hdone⟩ := hwaits a ha
      refine ⟨k, sAuth, rfl, hdone, fun result hresult => .inr ⟨cause, ?_⟩⟩
      exact Option.some.inj (hresult.symm.trans houtcome)
    | ok value =>
      obtain ⟨k, sAuth, b, hdone, hsent, -, -, hpeer, hp, hmaster⟩ := hends
      cases (hsent a).mp ha
      refine ⟨k, sAuth, rfl, hdone, fun result hresult => .inl ?_⟩
      rw [← hmaster, ← hpeer, ← hp]
      exact Option.some.inj (hresult.symm.trans houtcome)
  | server id expectedPeer rand =>
    have hwaits : ServerWaits P id rand log := by
      rcases hs.outcome_or with ⟨-, hlog⟩ | ⟨result, -, hends⟩
      · exact hlog
      · cases result with
        | error e => exact hends
        | ok value => exact hends.1
    obtain ⟨k, hdone⟩ := hwaits a ha
    exact .inr ⟨id, expectedPeer, rand, k, rfl, hdone⟩

theorem HandshakeRun.role_of_sent (hs : s.Sound) (ha : .authSent a ∈ s.log) :
    a.role = roleClient ∨ a.role = roleServer := by
  rcases sent_cases hs ha with ⟨_, _, _, _, _, _, hdone, _⟩ | ⟨_, _, _, _, _, hdone⟩
  · exact .inl hdone.sent.role
  · exact .inr hdone.sent.role

theorem HandshakeRun.sent_client (hs : s.Sound) (ha : .authSent a ∈ s.log)
    (hrole : a.role = roleClient) :
    ∃ id expectedPeer kem768 k sAuth, s.party = .client id expectedPeer kem768
      ∧ ClientDone P id kem768 a k sAuth
      ∧ s.ReturnsOnceWritten (hkdfExpandLabel P k.hs "master" a.thCV hashSize,
          sAuth.identityKey, k.p) := by
  rcases sent_cases hs ha with hclient | ⟨_, _, _, _, _, hdone⟩
  · exact hclient
  · exact absurd (hrole.symm.trans hdone.sent.role) (by decide)

theorem HandshakeRun.sent_server (hs : s.Sound) (ha : .authSent a ∈ s.log)
    (hrole : a.role = roleServer) : ∃ id expectedPeer rand k, s.party = .server id expectedPeer rand
      ∧ ServerDone P id rand a k := by
  rcases sent_cases hs ha with ⟨_, _, _, _, _, _, hdone, _⟩ | hserver
  · exact absurd (hrole.symm.trans hdone.sent.role) (by decide)
  · exact hserver

/-- A run of the client `peerID` agrees with the server's AUTH `b`: it sent a CLIENT_AUTH for the
same flights and the same server key, its secret and its transcript give the same master secret, and
that and the profile is what it returns once the frame is written. -/
def ClientAgrees (w : List (HandshakeRun P)) (b : AuthSent) (master serverKey peerID : Bytes)
    (p : Profile) : Prop :=
  ∃ c ∈ w, c.party.isClient = true ∧ c.party.key = peerID
    ∧ ∃ a, .authSent a ∈ c.log ∧ a.role = roleClient ∧ a.ch = b.ch ∧ a.sh = b.sh
      ∧ a.peerKey = some serverKey ∧ deriveMasterSecret P a.hs a.thCV p = .ok master
      ∧ c.ReturnsOnceWritten (master, serverKey, p)

/-- What the parties agree on. Runs are compared by the AUTH frames they have sent: `a` a client's,
`b` a server's. -/
structure Agreement (honest : Bytes → Prop) (w : List (HandshakeRun P)) : Prop where
  /-- A server that succeeds with an honest client: some run of that client agrees with it. -/
  of_server : ∀ s ∈ w, s.party.isClient = false → ∀ master peerID p,
    s.outcome = some (.ok (master, peerID, p)) → honest peerID →
    ∃ b, .authSent b ∈ s.log ∧ ClientAgrees w b master s.party.key peerID p
  /-- A client that succeeds with an honest server: some run of that server received the same
  ClientHello and sent the same ServerHello. -/
  of_client : ∀ c ∈ w, c.party.isClient = true → ∀ master peerID p,
    c.outcome = some (.ok (master, peerID, p)) → honest peerID →
    ∃ a, .authSent a ∈ c.log ∧ ∃ s ∈ w, s.party.isClient = false ∧ s.party.key = peerID
      ∧ ∃ b, .authSent b ∈ s.log ∧ b.role = roleServer ∧ b.ch = a.ch ∧ b.sh = a.sh
  /-- A CertVerify accepted under an honest key in one role was not made in the other. -/
  of_role : ∀ role pub th certVerify,
    .certVerifyReceived role pub th certVerify ∈ handshakeEvents w →
    verifyCertVerify P pub role th certVerify = .ok () → honest pub →
    ∀ a ∈ authsSent w, a.identityKey = pub → a.certVerify = certVerify → a.role = role

section Agreement

variable {honest : Bytes → Prop} {w : List (HandshakeRun P)}

theorem mem_handshakeEvents {s : HandshakeRun P} (hs : s ∈ w) {e : HandshakeEvent}
    (he : e ∈ s.log) : e ∈ handshakeEvents w :=
  mem_flatMap.mpr ⟨s, hs, he⟩

theorem exists_sent_of_certVerifies (hw : ∀ s ∈ w, HandshakeRun.Sound s)
    (hforge : Unforgeable honest w) {role : Role} {pub th certVerify : Bytes}
    (he : .certVerifyReceived role pub th certVerify ∈ handshakeEvents w) (hpub : honest pub)
    (hverifies : certVerifies P pub role th certVerify = true) :
    ∃ s ∈ w, ∃ a, .authSent a ∈ s.log ∧ a.identityKey = pub ∧ a.role = role ∧ a.th = th := by
  obtain ⟨⟨a, ha, hkey, hinput⟩, -⟩ := hforge _ he ⟨hpub, hverifies⟩
  obtain ⟨s, hs, hsent⟩ := mem_authsSent.mp ha
  obtain ⟨hrole, hth⟩ :=
    certVerifySigningInput_inj (HandshakeRun.role_of_sent (hw s hs) hsent) hinput
  exact ⟨s, hs, a, hsent, hkey, hrole, hth⟩

theorem agreement_of_client (hinj : Function.Injective P.sha256)
    (hw : ∀ s ∈ w, HandshakeRun.Sound s) (hforge : Unforgeable honest w) {c : HandshakeRun P}
    (hc : c ∈ w) (hclient : c.party.isClient = true) {master peerID : Bytes} {p : Profile}
    (houtcome : c.outcome = some (.ok (master, peerID, p))) (hpeer : honest peerID) :
    ∃ a, .authSent a ∈ c.log ∧ ∃ s ∈ w, s.party.isClient = false ∧ s.party.key = peerID
      ∧ ∃ b, .authSent b ∈ s.log ∧ b.role = roleServer ∧ b.ch = a.ch ∧ b.sh = a.sh := by
  have hends := (hw c hc).of_outcome houtcome
  obtain ⟨party, log, rest⟩ := c
  cases party with
  | server id expectedPeer rand => cases hclient
  | client id expectedPeer kem768 =>
    obtain ⟨k, sAuth, a, hdone, hsent, hreceived, haccepted, rfl, -, -⟩ := hends
    obtain ⟨s, hs, b, hb, hkey, hrole, hth⟩ := exists_sent_of_certVerifies hw hforge
      (mem_handshakeEvents hc hreceived) hpeer haccepted.certVerify
    obtain ⟨id', _, rand, k', hparty, hdone'⟩ := HandshakeRun.sent_server (hw s hs) hb hrole
    -- both hashed the transcript through the server's IdentityKey
    have hoctets := hinj (hth.symm.trans hdone'.sent.th)
    obtain ⟨hch, hsh, -⟩ := hellos_agree hdone.post hdone'.post hoctets
    refine ⟨a, (hsent a).mpr rfl, s, hs, by rw [hparty]; rfl, ?_, b, hb, hrole, ?_, ?_⟩
    · rw [hparty, ← hkey]
      exact hdone'.sent.identityKey.symm
    · rw [hdone'.sent.ch, hdone.sent.ch, hch]
    · rw [hdone'.sent.sh, hdone.sent.sh, hsh]

theorem agreement_of_server (hP : P.Correct) (hinj : Function.Injective P.sha256)
    (hw : ∀ s ∈ w, HandshakeRun.Sound s) (hforge : Unforgeable honest w) {s : HandshakeRun P}
    (hs : s ∈ w) (hserver : s.party.isClient = false) {master peerID : Bytes} {p : Profile}
    (houtcome : s.outcome = some (.ok (master, peerID, p))) (hpeer : honest peerID) :
    ∃ b, .authSent b ∈ s.log ∧ ClientAgrees w b master s.party.key peerID p := by
  have hends := (hw s hs).of_outcome houtcome
  obtain ⟨party, log, rest⟩ := s
  cases party with
  | client id expectedPeer kem768 => cases hserver
  | server id expectedPeer rand =>
    obtain ⟨-, k, b, sAuth, cAuth, hdone, hb, hfits, haccepted, hkey, hpeerID, hp, hcert,
      hfinished, hmaster⟩ := hends
    subst hpeerID
    -- the signature: a client run that has seen the same flights, so it has the same secrets
    obtain ⟨s₁, hs₁, a₁, ha₁, -, hrole₁, hth₁⟩ := exists_sent_of_certVerifies hw hforge
      (mem_handshakeEvents hs hcert) hpeer haccepted.certVerify
    obtain ⟨id₁, _, kem₁, k₁, sAuth₁, -, hdone₁, -⟩ :=
      HandshakeRun.sent_client (hw s₁ hs₁) ha₁ hrole₁
    obtain ⟨hch₁, hsh₁, -, -⟩ := serverAuth_agree hdone₁.post hdone.post hdone₁.fits hfits
      (hinj (hdone₁.sent.th.symm.trans hth₁))
    have hk₁ := secrets_agree hP hdone₁.post hdone.post hch₁ hsh₁
    have hfinishedKey₁ : a₁.finishedKey = finishedKey P k.cHS := by
      rw [hdone₁.sent.finishedKey, hk₁]
      rfl
    -- so the Finished key is one a run sends under, and the Finished names the run to agree with
    obtain ⟨a, ha, -, hthCV⟩ := hforge _ (mem_handshakeEvents hs hfinished)
      ⟨⟨a₁, mem_authsSent.mpr ⟨s₁, hs₁, ha₁⟩, hfinishedKey₁⟩, haccepted.finished⟩
    obtain ⟨c, hc, ha⟩ := mem_authsSent.mp ha
    have hkeyEq : b.identityKey = id.edPub := hdone.sent.identityKey
    rcases HandshakeRun.sent_cases (hw c hc) ha with
      ⟨id₂, _, kem₂, k₂, sAuth₂, hparty, hdone₂, houtcome₂⟩ | ⟨id₂, _, rand₂, k₂, -, hdone₂⟩
    · obtain ⟨hch, hsh, hauth, htail⟩ := serverAuth_agree hdone₂.post hdone.post hdone₂.fits hfits
        (hinj (hdone₂.sent.thCV.symm.trans hthCV))
      have hk := secrets_agree hP hdone₂.post hdone.post hch hsh
      have hid : a.identityKey = cAuth.identityKey := by
        have htlv := (append_inj htail (by simp [clientSide])).2
        have hfitsA : TLV.Fits ⟨tlvIdentityKey, a.identityKey⟩ := hdone₂.sent.key_fits
        have hfitsPeer : TLV.Fits ⟨tlvIdentityKey, cAuth.identityKey⟩ :=
          haccepted.fits _ (by simp [AuthMessage.tlvs])
        simp only [encodeTLVs_cons] at htlv
        exact congrArg TLV.value (TLV.encode_append_inj hfitsA hfitsPeer htlv).1
      have hmaster₂ : hkdfExpandLabel P k₂.hs "master" a.thCV hashSize = master := by
        rw [hmaster, hthCV, hk]
      refine ⟨b, hb, c, hc, by rw [hparty]; rfl, ?_, a, ha, hdone₂.sent.role, ?_, ?_, ?_, ?_, ?_⟩
      · rw [hparty, ← hid]
        exact hdone₂.sent.identityKey.symm
      · rw [hdone₂.sent.ch, hdone.sent.ch, hch]
      · rw [hdone₂.sent.sh, hdone.sent.sh, hsh]
      · rw [hdone₂.sent.peerKey, hauth, hkey, hkeyEq]
        rfl
      · obtain ⟨ss, hderived, -⟩ := hdone.post.derived
        rw [hp, deriveMasterSecret_eq hderived.suite, hdone₂.sent.hs, hmaster₂]
      · rw [hmaster₂, hauth, hkey, hkeyEq, hk, ← hp] at houtcome₂
        exact houtcome₂
    · exact absurd (hinj (hdone₂.sent.thCV.symm.trans hthCV))
        (cvPoint_server_ne_client hdone₂.post hdone.post hdone₂.sent.key_fits
          hdone₂.sent.certVerify_fits hfits)

end Agreement

instance HandshakeEvent.decidableUnforged (honest : Bytes → Prop) [DecidablePred honest]
    (sent : List AuthSent) (e : HandshakeEvent) : Decidable (e.Unforged P honest sent) := by
  cases e <;> dsimp only [HandshakeEvent.Unforged] <;> infer_instance

instance decidableUnforgeable (honest : Bytes → Prop) [DecidablePred honest]
    (w : List (HandshakeRun P)) : Decidable (Unforgeable honest w) :=
  inferInstanceAs (Decidable (∀ e ∈ handshakeEvents w, e.Unforged P honest (authsSent w)))

def signingIdentity (n : UInt8) : LocalIdentity plainSigning where
  edPriv := replicate 64 n
  edPub := pad 32 (replicate 64 n)
  profiles := []
  edPub_eq := rfl

def threeParties : List (Party plainSigning) :=
  [.client (signingIdentity 1) none ⟨replicate 64 3, replicate 32 4, rfl, rfl⟩,
    .server (signingIdentity 2) none ⟨replicate 32 5, replicate 32 6, rfl⟩,
    .server (signingIdentity 1) none ⟨replicate 32 7, replicate 32 8, rfl⟩]

def replayedHello : Option (List (HandshakeRun plainSigning)) :=
  (Run.exec (step Party.run) (fun _ _ => true) [] (threeParties.map .start)).bind fun w =>
    (pendingAt w 0).bind fun ch =>
      (Run.exec (step Party.run) (fun _ _ => true) w [.answer 2 (.read (.ok ch))]).bind
        fun w => relay Party.run w [(0, 1), (1, 0), (1, 0), (0, 1)]

theorem reaches_replayedHello {w : List (HandshakeRun plainSigning)} (h : replayedHello = some w) :
    Run.Reaches (step Party.run) (fun _ _ => True) [] w := by
  obtain ⟨w₁, hstarted, h⟩ := Option.bind_eq_some_iff.mp h
  obtain ⟨ch, -, h⟩ := Option.bind_eq_some_iff.mp h
  obtain ⟨w₂, hreplayed, hrelayed⟩ := Option.bind_eq_some_iff.mp h
  have hstart := (Run.Reaches.of_exec hstarted).trans (Run.Reaches.of_exec hreplayed)
  exact (hstart.mono fun _ _ _ => trivial).trans (reaches_relay hrelayed)

end Npamp
