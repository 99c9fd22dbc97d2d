import Npamp.Handshake
import Npamp.Proof.Tlv

/-!
# A transcript determines the flights in it

The transcript is a plain concatenation. It reads back uniquely, because both parties know how many
TLVs each flight has and every TLV carries its length.
-/

namespace Npamp

open List

theorem putUint16_injective {a b : UInt16} (h : putUint16 a = putUint16 b) : a = b := by
  rw [← uint16_putUint16 a, h, uint16_putUint16]

variable {r r' : Bytes} {tlvs : List TLV} {sh : ServerHello} {ch ch' : ClientHello}
  {want : List TLVType} {payload v : Bytes} {name : String}

theorem TLV.encode_append_front {t t' : TLV} (h : t.encode [] ++ r = t'.encode [] ++ r') :
    t.type = t'.type ∧ UInt16.ofNat t.value.length = UInt16.ofNat t'.value.length
      ∧ t.value ++ r = t'.value ++ r' := by
  simp only [TLV.encode_nil, append_assoc] at h
  obtain ⟨htype, h⟩ := append_inj h (by simp)
  obtain ⟨hlength, h⟩ := append_inj h (by simp)
  exact ⟨putUint16_injective htype, putUint16_injective hlength, h⟩

theorem TLV.encode_append_inj {t t' : TLV} (ht : t.Fits) (ht' : t'.Fits)
    (h : t.encode [] ++ r = t'.encode [] ++ r') : t = t' ∧ r = r' := by
  obtain ⟨htype, hlength, h⟩ := TLV.encode_append_front h
  have hnat := congrArg UInt16.toNat hlength
  simp only [UInt16.toNat_ofNat', Nat.mod_eq_of_lt ht, Nat.mod_eq_of_lt ht'] at hnat
  obtain ⟨hvalue, hrest⟩ := append_inj h hnat
  cases t
  cases t'
  exact ⟨congrArg₂ TLV.mk htype hvalue, hrest⟩

/-- As many TLVs that fit, with anything behind them, can be read in one way only. -/
theorem encodeTLVs_append_inj {tlvs' : List TLV} (hfits : ∀ t ∈ tlvs, t.Fits)
    (hfits' : ∀ t ∈ tlvs', t.Fits) (hcount : tlvs.length = tlvs'.length)
    (h : encodeTLVs tlvs ++ r = encodeTLVs tlvs' ++ r') : tlvs = tlvs' ∧ r = r' := by
  induction tlvs generalizing tlvs' with
  | nil =>
    cases eq_nil_of_length_eq_zero hcount.symm
    exact ⟨rfl, h⟩
  | cons t rest ih =>
    obtain ⟨t', rest', rfl⟩ := exists_cons_of_length_eq_add_one hcount.symm
    simp only [encodeTLVs_cons, append_assoc] at h
    obtain ⟨rfl, htail⟩ :=
      TLV.encode_append_inj (hfits t mem_cons_self) (hfits' t' mem_cons_self) h
    obtain ⟨rfl, hrest⟩ := ih (fun t ht => hfits t (mem_cons_of_mem _ ht))
      (fun t ht => hfits' t (mem_cons_of_mem _ ht)) (Nat.succ.inj hcount) htail
    exact ⟨rfl, hrest⟩

@[simp]
theorem Transcript.buf_addFrameType (t : Transcript) (ft : FrameType) :
    (t.addFrameType ft).buf = t.buf ++ putUint16 ft := rfl

@[simp]
theorem Transcript.buf_addTLV (t : Transcript) (v : TLV) :
    (t.addTLV v).buf = t.buf ++ v.encode [] := TLV.encode_eq_append v t.buf

theorem Transcript.buf_foldl_addTLV (t : Transcript) (tlvs : List TLV) :
    (tlvs.foldl Transcript.addTLV t).buf = t.buf ++ encodeTLVs tlvs := by
  induction tlvs generalizing t with
  | nil => simp
  | cons v rest ih => rw [foldl_cons, ih, buf_addTLV, encodeTLVs_cons, append_assoc]

@[simp]
theorem Transcript.buf_addFrame (t : Transcript) (ft : FrameType) (tlvs : List TLV) :
    (t.addFrame ft tlvs).buf = t.buf ++ (putUint16 ft ++ encodeTLVs tlvs) := by
  rw [Transcript.addFrame, buf_foldl_addTLV, buf_addFrameType, append_assoc]

theorem u16ListBytes_injective : Function.Injective u16ListBytes := by
  intro a
  induction a with
  | nil =>
    intro b h
    cases b with
    | nil => rfl
    | cons y ys => simp [u16ListBytes, putUint16, BigEndian.toBytes] at h
  | cons x xs ih =>
    intro b h
    cases b with
    | nil => simp [u16ListBytes, putUint16, BigEndian.toBytes] at h
    | cons y ys =>
      simp only [u16ListBytes, flatMap_cons] at h
      obtain ⟨hhead, htail⟩ := append_inj h (by simp)
      rw [putUint16_injective hhead, ih htail]

theorem ClientHello.tlvs_injective : Function.Injective ClientHello.tlvs := by
  intro a b h
  cases a
  cases b
  simp only [ClientHello.tlvs, cons.injEq, TLV.mk.injEq, true_and, and_true] at h
  obtain ⟨rfl, hkem, hsig, haead, rfl⟩ := h
  rw [u16ListBytes_injective hkem, u16ListBytes_injective hsig, u16ListBytes_injective haead]

theorem ServerHello.tlvs_injective : Function.Injective ServerHello.tlvs := by
  intro a b h
  cases a
  cases b
  simp only [ServerHello.tlvs, cons.injEq, TLV.mk.injEq, true_and, and_true] at h
  obtain ⟨rfl, hkem, hsig, haead, rfl⟩ := h
  rw [putUint16_injective hkem, putUint16_injective hsig, putUint16_injective haead]

def helloOctets (ch : ClientHello) (sh : ServerHello) : Bytes :=
  (putUint16 frameClientHello ++ encodeTLVs ch.tlvs)
    ++ (putUint16 frameServerHello ++ encodeTLVs sh.tlvs)

def ClientHello.Fits (ch : ClientHello) : Prop := ∀ t ∈ ch.tlvs, t.Fits

def ServerHello.Fits (sh : ServerHello) : Prop := ∀ t ∈ sh.tlvs, t.Fits

theorem ServerHello.fits_of_kemCiphertext (h : sh.kemCiphertext.length < 2 ^ 16) : sh.Fits := by
  simpa [ServerHello.Fits, ServerHello.tlvs, TLV.Fits] using h

/-- The transcript of two hellos determines both. -/
theorem helloOctets_append_inj {sh' : ServerHello} (hch : ch.Fits) (hch' : ch'.Fits) (hsh : sh.Fits)
    (hsh' : sh'.Fits) (h : helloOctets ch sh ++ r = helloOctets ch' sh' ++ r') :
    ch = ch' ∧ sh = sh' ∧ r = r' := by
  simp only [helloOctets, append_assoc] at h
  obtain ⟨hclient, h⟩ :=
    encodeTLVs_append_inj hch hch' rfl (append_inj h (by simp)).2
  obtain ⟨hserver, h⟩ :=
    encodeTLVs_append_inj hsh hsh' rfl (append_inj h (by simp)).2
  exact ⟨ClientHello.tlvs_injective hclient, ServerHello.tlvs_injective hserver, h⟩

/-- A ProfileOffer of Standard entries only, absorbed with a length that does not fit, is followed
by another Standard entry where the reader of a decoded ClientHello finds the next TLV type. -/
theorem ClientHello.fits_of_absorbed (hprofiles : ∀ p ∈ ch.profileOffer, p = profileStandard)
    (hothers : ∀ t ∈ ch.tlvs.tail, t.Fits) (hch' : ch'.Fits)
    (h : encodeTLVs ch.tlvs ++ r = encodeTLVs ch'.tlvs ++ r') : ch.Fits := by
  suffices hoffer : ch.profileOffer.length < 2 ^ 16 by
    intro t ht
    rcases mem_cons.mp ht with rfl | ht
    · exact hoffer
    · exact hothers t ht
  by_contra hlong
  simp only [ClientHello.tlvs, encodeTLVs_cons, append_assoc] at h
  obtain ⟨-, hlength, h⟩ := TLV.encode_append_front h
  have hshort : ch'.profileOffer.length < 2 ^ 16 := hch' _ mem_cons_self
  have hmod := congrArg UInt16.toNat hlength
  simp only [UInt16.toNat_ofNat', Nat.mod_eq_of_lt hshort] at hmod
  have hlt : ch'.profileOffer.length < ch.profileOffer.length := by omega
  have hat := congrArg (fun b : Bytes => b[ch'.profileOffer.length]?) h
  simp only [getElem?_append_left hlt, getElem?_append_right le_rfl, Nat.sub_self,
    getElem?_eq_getElem hlt, hprofiles _ (getElem_mem hlt)] at hat
  -- the octet after the server's ProfileOffer is the high octet of the KEMOffer type
  simp [TLV.encode_nil, tlvKEMOffer, putUint16, BigEndian.toBytes, profileStandard] at hat

theorem encodeFlight_eq (tlvs : List TLV) : encodeFlight tlvs = encodeTLVs tlvs := by
  suffices h : ∀ out, tlvs.foldl (fun out v => v.encode out) out = out ++ encodeTLVs tlvs from
    h []
  induction tlvs with
  | nil => simp
  | cons t rest ih =>
    intro out
    rw [foldl_cons, ih, TLV.encode_eq_append, encodeTLVs_cons, append_assoc]

theorem requireOrder_eq_ok (hcount : tlvs.length = want.length) (i : Nat) :
    requireOrder i tlvs want = .ok () ↔ tlvs.map TLV.type = want := by
  induction tlvs generalizing want i with
  | nil =>
    cases eq_nil_of_length_eq_zero hcount.symm
    simp [requireOrder]
  | cons t rest ih =>
    obtain ⟨w, want, rfl⟩ := exists_cons_of_length_eq_add_one hcount.symm
    rw [requireOrder, map_cons, cons.injEq]
    by_cases htype : t.type = w
    · rw [if_neg (not_not.mpr htype), ih (Nat.succ.inj hcount)]
      exact ⟨fun h => ⟨htype, h⟩, fun h => h.2⟩
    · rw [if_pos htype]
      exact ⟨fun h => absurd h (by simp), fun h => absurd h.1 htype⟩

theorem requireTLVs_eq_ok : requireTLVs tlvs want = .ok () ↔ tlvs.map TLV.type = want := by
  constructor
  · intro h
    unfold requireTLVs at h
    split at h
    · cases h
    split at h
    · cases h
    · rename_i hcount
      exact (requireOrder_eq_ok (not_not.mp hcount) 0).mp h
  · rintro rfl
    have hunderstood : checkMustUnderstand tlvs (fun t => (tlvs.map TLV.type).contains t)
        = .ok () := by
      have hnone : tlvs.find? (fun t => forwardIncompatible t.type
          && !(tlvs.map TLV.type).contains t.type) = none := by
        rw [find?_eq_none]
        intro t ht
        simp [mem_map_of_mem ht]
      rw [checkMustUnderstand, hnone]
    rw [requireTLVs, hunderstood]
    simp [(requireOrder_eq_ok (length_map _).symm 0).mpr rfl]

theorem zipWith_type_value (tlvs : List TLV) :
    zipWith TLV.mk (tlvs.map TLV.type) (tlvs.map TLV.value) = tlvs := by
  induction tlvs with
  | nil => rfl
  | cons t rest ih => rw [map_cons, map_cons, zipWith_cons_cons, ih]

/-- The payloads a flight decoder takes are the encodings of the TLVs it wants, in order. -/
theorem decodeFlight_eq_ok {values : List Bytes} (hwant : want.length ≤ maxTLVsPerFrame) :
    decodeFlight want payload = .ok values
      ↔ values.length = want.length ∧ (∀ t ∈ zipWith TLV.mk want values, t.Fits)
        ∧ encodeTLVs (zipWith TLV.mk want values) = payload := by
  constructor
  · intro h
    unfold decodeFlight at h
    split at h
    · cases h
    rename_i tlvs htlvs
    split at h
    · cases h
    rename_i hrequire
    cases h
    cases requireTLVs_eq_ok.mp hrequire
    rw [length_map] at hwant
    rw [zipWith_type_value]
    exact ⟨by simp, (decodeTLVs_eq_ok hwant).mp htlvs⟩
  · rintro ⟨hcount, hpayload⟩
    have htypes : (zipWith TLV.mk want values).map TLV.type = want := by
      rw [← map_uncurry_zip_eq_zipWith, map_map]
      exact map_fst_zip hcount.ge
    have hvalues : (zipWith TLV.mk want values).map TLV.value = values := by
      rw [← map_uncurry_zip_eq_zipWith, map_map]
      exact map_snd_zip hcount.le
    have hlength : (zipWith TLV.mk want values).length ≤ maxTLVsPerFrame := by
      rw [length_zipWith]
      omega
    rw [decodeFlight, (decodeTLVs_eq_ok hlength).mpr hpayload]
    simp only [requireTLVs_eq_ok.mpr htypes, hvalues]

@[simp]
theorem length_u16ListBytes (ids : List UInt16) : (u16ListBytes ids).length = 2 * ids.length := by
  induction ids with
  | nil => rfl
  | cons id rest ih =>
    rw [u16ListBytes, flatMap_cons, length_append, length_putUint16, ← u16ListBytes, ih,
      length_cons]
    omega

theorem u16ListBytes_u16List (heven : v.length % 2 = 0) : u16ListBytes (u16List v) = v := by
  fun_induction u16List v with
  | case1 hi lo rest ih =>
    have hpair : putUint16 (uint16 [hi, lo]) = [hi, lo] := putUint16_uint16 rfl
    have hrest := ih (by simp only [length_cons] at heven; omega)
    simp only [u16ListBytes, flatMap_cons, hpair] at hrest ⊢
    rw [hrest]
    rfl
  | case2 v hv =>
    match v, hv with
    | [], _ => rfl
    | [_], _ => simp at heven
    | hi :: lo :: rest, hv => exact absurd rfl (hv hi lo rest)

theorem parseU16List_eq_ok {ids : List UInt16} :
    parseU16List v name = .ok ids ↔ ids ≠ [] ∧ u16ListBytes ids = v := by
  constructor
  · intro h
    unfold parseU16List at h
    split at h
    · cases h
    rename_i hv
    cases h
    obtain ⟨hsome, heven⟩ := not_or.mp hv
    have hbytes := u16ListBytes_u16List (not_not.mp heven)
    refine ⟨fun hnil => hsome ?_, hbytes⟩
    rw [← hbytes, hnil]
    rfl
  · rintro ⟨hsome, rfl⟩
    have heven : (u16ListBytes ids).length % 2 = 0 := by simp
    have hlength : (u16ListBytes ids).length ≠ 0 := by simpa using hsome
    rw [parseU16List, if_neg (not_or.mpr ⟨hlength, not_not.mpr heven⟩),
      u16ListBytes_injective (u16ListBytes_u16List heven)]

theorem requireNonEmpty_eq_ok : requireNonEmpty name v = .ok () ↔ v ≠ [] := by
  unfold requireNonEmpty
  split <;> simp_all

theorem requireSize_eq_ok {size : Nat} : requireSize name size v = .ok () ↔ v.length = size := by
  unfold requireSize
  split <;> simp_all

/-- Nothing required is missing, and every field fits its length. -/
structure ClientHello.WellFormed (ch : ClientHello) : Prop where
  profileOffer : ch.profileOffer ≠ []
  kemOffer : ch.kemOffer ≠ []
  sigOffer : ch.sigOffer ≠ []
  aeadOffer : ch.aeadOffer ≠ []
  kemShare : ch.kemShare ≠ []
  fits : ch.Fits

structure ServerHello.WellFormed (sh : ServerHello) : Prop where
  kemCiphertext : sh.kemCiphertext ≠ []
  fits : sh.Fits

def AuthMessage.Fits (auth : AuthMessage) : Prop := ∀ t ∈ auth.tlvs, t.Fits

structure AuthMessage.WellFormed (auth : AuthMessage) : Prop where
  identityKey : auth.identityKey ≠ []
  certVerify : auth.certVerify ≠ []
  finished : auth.finished ≠ []
  fits : auth.Fits

/-- **A ClientHello is accepted exactly as encoded.** -/
theorem decodeClientHello_eq_ok :
    decodeClientHello payload = .ok ch ↔ ch.WellFormed ∧ ch.encode = payload := by
  rw [ClientHello.encode, encodeFlight_eq]
  constructor
  · intro h
    obtain ⟨values, hvalues, h⟩ := exists_of_bind_eq_ok h
    obtain ⟨-, hfits, hpayload⟩ := (decodeFlight_eq_ok (by decide)).mp hvalues
    split at h
    · obtain ⟨_, hprofiles, h⟩ := exists_of_bind_eq_ok h
      obtain ⟨kems, hkems, h⟩ := exists_of_bind_eq_ok h
      obtain ⟨sigs, hsigs, h⟩ := exists_of_bind_eq_ok h
      obtain ⟨aeads, haeads, h⟩ := exists_of_bind_eq_ok h
      obtain ⟨_, hshare, h⟩ := exists_of_bind_eq_ok h
      cases h
      obtain ⟨hkemOffer, rfl⟩ := parseU16List_eq_ok.mp hkems
      obtain ⟨hsigOffer, rfl⟩ := parseU16List_eq_ok.mp hsigs
      obtain ⟨haeadOffer, rfl⟩ := parseU16List_eq_ok.mp haeads
      exact ⟨⟨requireNonEmpty_eq_ok.mp hprofiles, hkemOffer, hsigOffer, haeadOffer,
        requireNonEmpty_eq_ok.mp hshare, hfits⟩, hpayload⟩
    · cases h
  · rintro ⟨hch, rfl⟩
    have hvalues : decodeFlight
        [tlvProfileOffer, tlvKEMOffer, tlvSigOffer, tlvAEADOffer, tlvKEMShare]
        (encodeTLVs ch.tlvs) = .ok (ch.tlvs.map TLV.value) :=
      (decodeFlight_eq_ok (by decide)).mpr ⟨rfl, hch.fits, rfl⟩
    rw [decodeClientHello, hvalues]
    simp only [ClientHello.tlvs, map_cons, map_nil, bind, Except.bind,
      requireNonEmpty_eq_ok.mpr hch.profileOffer,
      parseU16List_eq_ok.mpr ⟨hch.kemOffer, rfl⟩, parseU16List_eq_ok.mpr ⟨hch.sigOffer, rfl⟩,
      parseU16List_eq_ok.mpr ⟨hch.aeadOffer, rfl⟩, requireNonEmpty_eq_ok.mpr hch.kemShare]
    rfl

/-- **A ServerHello is accepted exactly as encoded.** -/
theorem decodeServerHello_eq_ok :
    decodeServerHello payload = .ok sh ↔ sh.WellFormed ∧ sh.encode = payload := by
  rw [ServerHello.encode, encodeFlight_eq]
  constructor
  · intro h
    obtain ⟨values, hvalues, h⟩ := exists_of_bind_eq_ok h
    obtain ⟨-, hfits, hpayload⟩ := (decodeFlight_eq_ok (by decide)).mp hvalues
    split at h
    · rename_i profileSelect kemSelect sigSelect aeadSelect kemCiphertext
      obtain ⟨_, hprofile, h⟩ := exists_of_bind_eq_ok h
      obtain ⟨_, hkem, h⟩ := exists_of_bind_eq_ok h
      obtain ⟨_, hsig, h⟩ := exists_of_bind_eq_ok h
      obtain ⟨_, haead, h⟩ := exists_of_bind_eq_ok h
      obtain ⟨_, hciphertext, h⟩ := exists_of_bind_eq_ok h
      obtain ⟨profile, rfl⟩ := length_eq_one_iff.mp (requireSize_eq_ok.mp hprofile)
      rw [← putUint16_uint16 (requireSize_eq_ok.mp hkem),
        ← putUint16_uint16 (requireSize_eq_ok.mp hsig),
        ← putUint16_uint16 (requireSize_eq_ok.mp haead)] at hfits hpayload
      cases h
      exact ⟨⟨requireNonEmpty_eq_ok.mp hciphertext, hfits⟩, hpayload⟩
    · cases h
  · rintro ⟨hsh, rfl⟩
    have hvalues : decodeFlight
        [tlvProfileSelect, tlvKEMSelect, tlvSigSelect, tlvAEADSelect, tlvKEMCiphertext]
        (encodeTLVs sh.tlvs) = .ok (sh.tlvs.map TLV.value) :=
      (decodeFlight_eq_ok (by decide)).mpr ⟨rfl, hsh.fits, rfl⟩
    have hselect : ∀ (name : String) (id : UInt16), requireSize name 2 (putUint16 id) = .ok () :=
      fun _ _ => requireSize_eq_ok.mpr (length_putUint16 _)
    have hprofile : requireSize "ProfileSelect" 1 [sh.profileSelect] = .ok () := rfl
    rw [decodeServerHello, hvalues]
    simp only [ServerHello.tlvs, map_cons, map_nil, bind, Except.bind,
      hselect, hprofile, requireNonEmpty_eq_ok.mpr hsh.kemCiphertext,
      uint16_putUint16]
    rfl

/-- **An AuthMessage is accepted exactly as encoded.** -/
theorem decodeAuthMessage_eq_ok {auth : AuthMessage} :
    decodeAuthMessage payload = .ok auth ↔ auth.WellFormed ∧ auth.encode = payload := by
  rw [AuthMessage.encode, encodeFlight_eq]
  constructor
  · intro h
    obtain ⟨values, hvalues, h⟩ := exists_of_bind_eq_ok h
    obtain ⟨-, hfits, hpayload⟩ := (decodeFlight_eq_ok (by decide)).mp hvalues
    split at h
    · obtain ⟨_, hkey, h⟩ := exists_of_bind_eq_ok h
      obtain ⟨_, hverify, h⟩ := exists_of_bind_eq_ok h
      obtain ⟨_, hfinished, h⟩ := exists_of_bind_eq_ok h
      cases h
      exact ⟨⟨requireNonEmpty_eq_ok.mp hkey, requireNonEmpty_eq_ok.mp hverify,
        requireNonEmpty_eq_ok.mp hfinished, hfits⟩, hpayload⟩
    · cases h
  · rintro ⟨hauth, rfl⟩
    have hvalues : decodeFlight [tlvIdentityKey, tlvCertVerify, tlvFinished]
        (encodeTLVs auth.tlvs) = .ok (auth.tlvs.map TLV.value) :=
      (decodeFlight_eq_ok (by decide)).mpr ⟨rfl, hauth.fits, rfl⟩
    rw [decodeAuthMessage, hvalues]
    simp only [AuthMessage.tlvs, map_cons, map_nil, bind, Except.bind,
      requireNonEmpty_eq_ok.mpr hauth.identityKey,
      requireNonEmpty_eq_ok.mpr hauth.certVerify, requireNonEmpty_eq_ok.mpr hauth.finished]
    rfl

theorem decodeClientHello_fits (h : decodeClientHello payload = .ok ch) :
    ch.Fits := (decodeClientHello_eq_ok.mp h).1.fits

theorem decodeServerHello_fits (h : decodeServerHello payload = .ok sh) :
    sh.Fits := (decodeServerHello_eq_ok.mp h).1.fits

theorem decodeAuthMessage_fits {auth : AuthMessage} (h : decodeAuthMessage payload = .ok auth) :
    auth.Fits := (decodeAuthMessage_eq_ok.mp h).1.fits

def Transcript.addHellos (t : Transcript) (ch : ClientHello) (sh : ServerHello) : Transcript :=
  (t.addFrame frameClientHello ch.tlvs).addFrame frameServerHello sh.tlvs

theorem addHellos_inj {t : Transcript} {sh' : ServerHello} (hch : ch.Fits) (hch' : ch'.Fits)
    (hsh : sh.Fits) (hsh' : sh'.Fits) (h : (t.addHellos ch sh).buf = (t.addHellos ch' sh').buf) :
    ch = ch' ∧ sh = sh' := by
  simp only [Transcript.addHellos, Transcript.buf_addFrame, append_assoc,
    append_cancel_left_eq] at h
  have hoctets : helloOctets ch sh ++ [] = helloOctets ch' sh' ++ [] := by
    simpa [helloOctets] using h
  obtain ⟨rfl, rfl, -⟩ := helloOctets_append_inj hch hch' hsh hsh' hoctets
  exact ⟨rfl, rfl⟩

/-- **Flights re-encode to what was received**, and two pairs of decoded HELLO flights leave the
same transcript only if they are the same. -/
theorem flights_canonical :
    ((∀ payload ch, decodeClientHello payload = .ok ch → ch.encode = payload)
      ∧ (∀ payload sh, decodeServerHello payload = .ok sh → sh.encode = payload)
      ∧ ∀ payload auth, decodeAuthMessage payload = .ok auth → auth.encode = payload)
    ∧ ((∀ ch : ClientHello, ch.WellFormed → decodeClientHello ch.encode = .ok ch)
      ∧ (∀ sh : ServerHello, sh.WellFormed → decodeServerHello sh.encode = .ok sh)
      ∧ ∀ auth : AuthMessage, auth.WellFormed → decodeAuthMessage auth.encode = .ok auth)
    ∧ ∀ (t : Transcript) (p p' q q' : Bytes) (ch ch' : ClientHello) (sh sh' : ServerHello),
        decodeClientHello p = .ok ch → decodeServerHello q = .ok sh →
        decodeClientHello p' = .ok ch' → decodeServerHello q' = .ok sh' →
        (t.addHellos ch sh).buf = (t.addHellos ch' sh').buf → ch = ch' ∧ sh = sh' := by
  refine ⟨⟨?_, ?_, ?_⟩, ⟨?_, ?_, ?_⟩, ?_⟩
  · exact fun payload ch h => (decodeClientHello_eq_ok.mp h).2
  · exact fun payload sh h => (decodeServerHello_eq_ok.mp h).2
  · exact fun payload auth h => (decodeAuthMessage_eq_ok.mp h).2
  · exact fun ch hch => decodeClientHello_eq_ok.mpr ⟨hch, rfl⟩
  · exact fun sh hsh => decodeServerHello_eq_ok.mpr ⟨hsh, rfl⟩
  · exact fun auth hauth => decodeAuthMessage_eq_ok.mpr ⟨hauth, rfl⟩
  · intro t p p' q q' ch ch' sh sh' hch hsh hch' hsh'
    exact addHellos_inj (decodeClientHello_fits hch) (decodeClientHello_fits hch')
      (decodeServerHello_fits hsh) (decodeServerHello_fits hsh')

def standardClientHello : ClientHello where
  profileOffer := [profileStandard]
  kemOffer := [kemX25519MLKEM768]
  sigOffer := [sigEd25519]
  aeadOffer := [aeadAES256GCM]
  kemShare := [0x07]

def standardServerHello : ServerHello where
  profileSelect := profileStandard
  kemSelect := kemX25519MLKEM768
  sigSelect := sigEd25519
  aeadSelect := aeadAES256GCM
  kemCiphertext := [0x08]

theorem flights_canonical_standard :
    decodeClientHello standardClientHello.encode = .ok standardClientHello
      ∧ decodeServerHello standardServerHello.encode = .ok standardServerHello
      ∧ (Transcript.addHellos ⟨[]⟩ standardClientHello standardServerHello).buf
          ≠ (Transcript.addHellos ⟨[]⟩ standardClientHello
              { standardServerHello with kemCiphertext := [0x09] }).buf := by
  have hclient : standardClientHello.WellFormed :=
    ⟨by decide, by decide, by decide, by decide, by decide,
      by unfold ClientHello.Fits TLV.Fits; decide⟩
  have hserver : ∀ octet, { standardServerHello with kemCiphertext := [octet] }.WellFormed :=
    fun _ => ⟨List.cons_ne_nil _ _, ServerHello.fits_of_kemCiphertext (by simp)⟩
  obtain ⟨-, ⟨hch, hsh, -⟩, htranscript⟩ := flights_canonical
  refine ⟨hch _ hclient, hsh _ (hserver 0x08), fun hbuf => ?_⟩
  obtain ⟨-, hservers⟩ := htranscript _ _ _ _ _ _ _ _ _ (hch _ hclient) (hsh _ (hserver 0x08))
    (hch _ hclient) (hsh _ (hserver 0x09)) hbuf
  exact absurd hservers (by decide)

end Npamp
