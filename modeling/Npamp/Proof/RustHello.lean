import Npamp.Rust.Session
import Npamp.Sdk.Handshake
import Npamp.Proof.Flights
import Npamp.Proof.RustFrame

/-!
# Hello flights, in Go and in Rust

Go hashes the encoding of the message it decoded, Rust the values of the TLVs as they came. Both
accept the same payloads and absorb the same octets.
-/

namespace Npamp.Rust

open List

variable {tlvs : List TLV} {want : List UInt16} {vals : List Bytes} {payload : Bytes}
  {profiles : List Profile} {p : Profile} {allowed : List Profile} {ch : ClientHello}
  {sh : ServerHello} {wire : Bytes}

theorem length_le_of_decodeTlvsLoop {fuel : Nat} {out : List TLV} {buf : Bytes}
    (h : decodeTlvsLoop fuel out buf = .ok tlvs) : out.length ≤ tlvs.length := by
  fun_induction decodeTlvsLoop fuel out buf with
  | case1 =>
    cases h
    exact le_rfl
  | case2 => cases h
  | case3 => cases h
  | case4 => cases h
  | case5 fuel out octet rest _ _ _ _ _ ih =>
    have hle := ih h
    rw [length_append] at hle
    exact (Nat.le_add_right _ _).trans hle

theorem decodeTlvsLoop_eq_ok_iff {fuel : Nat} {out : List TLV} {buf : Bytes}
    (hcount : tlvs.length ≤ maxTLVsPerFrame) :
    decodeTlvsLoop fuel out buf = .ok tlvs ↔ decodeTLVsLoop fuel out buf = .ok tlvs := by
  fun_induction decodeTlvsLoop fuel out buf with
  | case1 => rw [decodeTLVsLoop]; simp
  | case2 => rw [decodeTLVsLoop]; simp
  | case3 fuel out octet rest buf hshort =>
    rw [decodeTLVsLoop, if_pos hshort]
    simp
  | case4 fuel out octet rest buf hlong ln hshort =>
    rw [decodeTLVsLoop, if_neg hlong, if_pos hshort]
    simp
  | case5 fuel out octet rest buf hlong typ ln hvalue ih =>
    rw [decodeTLVsLoop, if_neg hlong, if_neg hvalue]
    by_cases hmany : (out ++ [(⟨typ, slice buf 4 (4 + ln)⟩ : TLV)]).length > maxTLVsPerFrame
    · -- the TLVs already read are too many, so no run ends with as few as `tlvs`
      rw [if_pos hmany]
      refine iff_of_false (fun h => ?_) (by simp)
      exact absurd (hmany.trans_le (length_le_of_decodeTlvsLoop h)) (Nat.not_lt.mpr hcount)
    · rw [if_neg hmany]
      exact ih

theorem requireOrder_eq_ok (hcount : tlvs.length = want.length) :
    requireOrder tlvs want = .ok vals ↔ tlvs.map TLV.type = want ∧ tlvs.map TLV.value = vals := by
  induction tlvs generalizing want vals with
  | nil =>
    obtain rfl := length_eq_zero_iff.mp hcount.symm
    simp [requireOrder, eq_comm]
  | cons t tlvs ih =>
    cases want with
    | nil => cases hcount
    | cons w want =>
      have hrest (vals : List Bytes) : requireOrder tlvs want = .ok vals
          ↔ tlvs.map TLV.type = want ∧ tlvs.map TLV.value = vals := ih (Nat.succ.inj hcount)
      rw [requireOrder]
      by_cases htype : t.type = w
      · rw [if_neg (not_not_intro htype), map_cons, map_cons, htype]
        cases hvals : requireOrder tlvs want with
        | error e =>
          refine iff_of_false (by simp) ?_
          rintro ⟨htypes, -⟩
          have hok := (hrest _).mpr ⟨(cons.inj htypes).2, rfl⟩
          rw [hvals] at hok
          cases hok
        | ok rest =>
          obtain ⟨htypes, hvalues⟩ := (hrest _).mp hvals
          simp [htypes, hvalues]
      · rw [if_pos htype]
        simp [htype]

/-- **Both languages read the same flights**, of as many TLVs as Go allows. -/
theorem decodeFlight_eq_ok_iff (hwant : want.length ≤ maxTLVsPerFrame) :
    decodeFlight want payload = .ok vals ↔ Npamp.decodeFlight want payload = .ok vals := by
  have hrust : decodeFlight want payload = .ok vals
      ↔ ∃ tlvs, decodeTlvs payload = .ok tlvs ∧ tlvs.map TLV.type = want
        ∧ tlvs.map TLV.value = vals := by
    unfold decodeFlight requireTlvs
    cases decodeTlvs payload with
    | error e => simp
    | ok tlvs =>
      by_cases hcount : tlvs.length = want.length
      · simp [hcount, requireOrder_eq_ok hcount]
      refine iff_of_false (by simp [hcount]) ?_
      rintro ⟨_, heq, htypes, -⟩
      cases heq
      exact hcount (by rw [← htypes, length_map])
  have hgo : Npamp.decodeFlight want payload = .ok vals
      ↔ ∃ tlvs, decodeTLVs payload = .ok tlvs ∧ tlvs.map TLV.type = want
        ∧ tlvs.map TLV.value = vals := by
    unfold Npamp.decodeFlight
    cases decodeTLVs payload with
    | error e => simp
    | ok tlvs =>
      dsimp only
      cases hrequire : requireTLVs tlvs want with
      | error e =>
        refine iff_of_false (by simp) ?_
        rintro ⟨_, heq, htypes, -⟩
        cases heq
        rw [requireTLVs_eq_ok.mpr htypes] at hrequire
        cases hrequire
      | ok _ => simp [requireTLVs_eq_ok.mp hrequire]
  rw [hrust, hgo]
  refine exists_congr fun tlvs => ?_
  constructor
  · rintro ⟨h, rfl, hvals⟩
    rw [length_map] at hwant
    exact ⟨(decodeTlvsLoop_eq_ok_iff hwant).mp h, rfl, hvals⟩
  · rintro ⟨h, rfl, hvals⟩
    rw [length_map] at hwant
    exact ⟨(decodeTlvsLoop_eq_ok_iff hwant).mpr h, rfl, hvals⟩

theorem chunksU16_eq (v : Bytes) : chunksU16 v = u16List v := by
  fun_induction chunksU16 v with
  | case1 hi lo rest ih => rw [u16List, ih]
  | case2 v hv =>
    rw [u16List]
    exact hv

theorem listContainsU16_iff {v : Bytes} {want : UInt16} :
    listContainsU16 v want = true ↔ ∃ ids, u16ListBytes ids = v ∧ want ∈ ids := by
  unfold listContainsU16
  rw [chunksU16_eq]
  constructor
  · intro h
    split at h
    · cases h
    rename_i heven
    obtain ⟨c, hc, heq⟩ := any_eq_true.mp h
    obtain rfl := beq_iff_eq.mp heq
    exact ⟨u16List v, u16ListBytes_u16List (not_not.mp heven), hc⟩
  · rintro ⟨ids, rfl, hmem⟩
    have heven : (u16ListBytes ids).length % 2 = 0 := by
      rw [length_u16ListBytes]
      omega
    rw [if_neg (not_not_intro heven), u16ListBytes_injective (u16ListBytes_u16List heven),
      any_eq_true]
    exact ⟨want, hmem, beq_self_eq_true want⟩

theorem listContainsU16_u16ListBytes {ids : List UInt16} {want : UInt16} :
    listContainsU16 (u16ListBytes ids) want = true ↔ want ∈ ids := by
  rw [listContainsU16_iff]
  constructor
  · rintro ⟨ids', hids, hmem⟩
    rwa [← u16ListBytes_injective hids]
  · exact fun hmem => ⟨ids, rfl, hmem⟩

theorem exists_of_length_five {α : Type} {l : List α} (h : l.length = 5) :
    ∃ a b c d e, l = [a, b, c, d, e] := by
  obtain ⟨a, l, rfl⟩ := exists_cons_of_length_eq_add_one h
  obtain ⟨b, c, d, e, rfl⟩ := length_eq_four.mp (Nat.succ.inj h)
  exact ⟨a, b, c, d, e, rfl⟩

/-- What a Go server that allows `allowed` checks of a CLIENT_HELLO frame, in the order of
`runServerHandshake` and through the length check of `Encapsulate`. -/
def goClientHello (allowed : List Profile) (wire : Bytes) : Except GoError ClientHello := do
  let payload ← openCleartext frameClientHello wire
  let ch ← decodeClientHello payload
  let _ ← requireOffers ch allowed
  if ch.kemShare.length ≠ kemShareSize768 then .error Sentinel.errKEMShareSize.err else return ch

/-- The hello offers what the implementation requires. -/
structure Offers (ch : ClientHello) : Prop where
  profile : profileStandard ∈ ch.profileOffer
  kem : kemX25519MLKEM768 ∈ ch.kemOffer
  sig : sigEd25519 ∈ ch.sigOffer
  aead : aeadAES256GCM ∈ ch.aeadOffer
  share : ch.kemShare.length = kemShareSize768

def StandardOnly (profiles : List Profile) : Prop :=
  profiles ≠ [] ∧ ∀ p ∈ profiles, p = profileStandard

theorem StandardOnly.mem (h : StandardOnly profiles) : p ∈ profiles ↔ p = profileStandard := by
  obtain ⟨hne, hall⟩ := h
  refine ⟨hall p, ?_⟩
  rintro rfl
  obtain ⟨q, hq⟩ := exists_mem_of_ne_nil profiles hne
  rwa [← hall q hq]

theorem selectProfile_eq_ok {offered : List Profile} (h : StandardOnly allowed) :
    selectProfile offered allowed = .ok p ↔ p = profileStandard ∧ profileStandard ∈ offered := by
  unfold selectProfile
  cases hfind : allowed.find? fun p => offered.contains p with
  | some q =>
    have hq : q = profileStandard := h.mem.mp (mem_of_find?_eq_some hfind)
    have hmem : q ∈ offered := by simpa using find?_some hfind
    subst hq
    simp [hmem, eq_comm]
  | none =>
    have hnone := find?_eq_none.mp hfind _ (h.mem.mpr rfl)
    simp only [reduceCtorEq, false_iff, not_and]
    exact fun _ hmem => hnone (by simpa using hmem)

theorem requireOffers_eq_ok (h : StandardOnly allowed) : requireOffers ch allowed = .ok p
      ↔ p = profileStandard ∧ profileStandard ∈ ch.profileOffer ∧ kemX25519MLKEM768 ∈ ch.kemOffer
        ∧ sigEd25519 ∈ ch.sigOffer ∧ aeadAES256GCM ∈ ch.aeadOffer := by
  have hselect (p : Profile) : selectProfile ch.profileOffer allowed = .ok p ↔ _ :=
    selectProfile_eq_ok h
  unfold requireOffers
  cases hres : selectProfile ch.profileOffer allowed with
  | error e =>
    have hprofile : profileStandard ∉ ch.profileOffer := by
      intro hmem
      have hok := (hselect _).mpr ⟨rfl, hmem⟩
      rw [hres] at hok
      cases hok
    simp [hprofile]
  | ok q =>
    obtain ⟨rfl, hprofile⟩ := (hselect q).mp hres
    have hmin : Profile.minKEM profileStandard = kemX25519MLKEM768 := rfl
    by_cases hkem : kemX25519MLKEM768 ∈ ch.kemOffer <;> by_cases hsig : sigEd25519 ∈ ch.sigOffer
      <;> by_cases haead : aeadAES256GCM ∈ ch.aeadOffer
      <;> simp [hmin, hprofile, hkem, hsig, haead, eq_comm]

theorem requireStandardOffer_eq_ok {profiles kems sigs aeads share : Bytes} :
    requireStandardOffer [profiles, kems, sigs, aeads, share] = .ok ()
      ↔ profileStandard ∈ profiles ∧ listContainsU16 kems kemX25519MLKEM768 = true
        ∧ listContainsU16 sigs sigEd25519 = true
        ∧ listContainsU16 aeads aeadAES256GCM = true := by
  unfold requireStandardOffer
  simp only [getD_cons_zero, getD_cons_succ]
  by_cases hprofile : profileStandard ∈ profiles
  · cases listContainsU16 kems kemX25519MLKEM768 <;> cases listContainsU16 sigs sigEd25519 <;>
      cases listContainsU16 aeads aeadAES256GCM <;> simp [hprofile]
  · simp [hprofile]

theorem decodeFlight_of_decodeClientHello (h : decodeClientHello payload = .ok ch) :
    Npamp.decodeFlight clientHelloTypes payload = .ok (ch.tlvs.map TLV.value) := by
  obtain ⟨hwell, rfl⟩ := decodeClientHello_eq_ok.mp h
  refine (Npamp.decodeFlight_eq_ok (by decide)).mpr ⟨rfl, hwell.fits, ?_⟩
  rw [ClientHello.encode, encodeFlight_eq]
  rfl

/-- **The Rust checks on a CLIENT_HELLO payload are Go's.** -/
theorem clientHello_payload_iff :
    (decodeFlight clientHelloTypes payload = .ok vals ∧ requireStandardOffer vals = .ok ()
        ∧ (vals.getD 4 []).length = kemShareLen)
      ↔ ∃ ch, decodeClientHello payload = .ok ch ∧ Offers ch ∧ ch.tlvs.map TLV.value = vals := by
  rw [decodeFlight_eq_ok_iff (by decide)]
  constructor
  · rintro ⟨hflight, hoffer, hshare⟩
    obtain ⟨hcount, hfits, hpayload⟩ := (Npamp.decodeFlight_eq_ok (by decide)).mp hflight
    obtain ⟨profiles, kems, sigs, aeads, share, rfl⟩ := exists_of_length_five hcount
    obtain ⟨hprofile, hkem, hsig, haead⟩ := requireStandardOffer_eq_ok.mp hoffer
    obtain ⟨kemOffer, rfl, hkemMem⟩ := listContainsU16_iff.mp hkem
    obtain ⟨sigOffer, rfl, hsigMem⟩ := listContainsU16_iff.mp hsig
    obtain ⟨aeadOffer, rfl, haeadMem⟩ := listContainsU16_iff.mp haead
    have hlength : share.length = kemShareSize768 := hshare
    refine ⟨⟨profiles, kemOffer, sigOffer, aeadOffer, share⟩, ?_,
      ⟨hprofile, hkemMem, hsigMem, haeadMem, hlength⟩, rfl⟩
    refine decodeClientHello_eq_ok.mpr ⟨⟨ne_nil_of_mem hprofile, ne_nil_of_mem hkemMem,
      ne_nil_of_mem hsigMem, ne_nil_of_mem haeadMem, ?_, hfits⟩, ?_⟩
    · exact ne_nil_of_length_pos (by rw [hlength]; decide)
    · rw [ClientHello.encode, encodeFlight_eq]
      exact hpayload
  · rintro ⟨ch, hch, hoffers, rfl⟩
    refine ⟨decodeFlight_of_decodeClientHello hch, ?_, hoffers.share⟩
    exact requireStandardOffer_eq_ok.mpr ⟨hoffers.profile,
      listContainsU16_u16ListBytes.mpr hoffers.kem, listContainsU16_u16ListBytes.mpr hoffers.sig,
      listContainsU16_u16ListBytes.mpr hoffers.aead⟩

/-- What a Go client that offered `profiles` checks of a SERVER_HELLO frame, in the order of
`runClientHandshake` and through the length check of `SharedSecrets`. -/
def goServerHello (profiles : List Profile) (wire : Bytes) : Except GoError ServerHello := do
  let payload ← openCleartext frameServerHello wire
  let sh ← decodeServerHello payload
  requireSelections sh profiles kemX25519MLKEM768
  if sh.kemCiphertext.length ≠ kemCiphertextSize768 then .error Sentinel.errKEMCiphertextSize.err
  else return sh

/-- The answer selects what the implementation requires. -/
structure Selects (sh : ServerHello) : Prop where
  profile : sh.profileSelect = profileStandard
  kem : sh.kemSelect = kemX25519MLKEM768
  sig : sh.sigSelect = sigEd25519
  aead : sh.aeadSelect = aeadAES256GCM
  ciphertext : sh.kemCiphertext.length = kemCiphertextSize768

theorem requireSelections_eq_ok (h : StandardOnly profiles) :
    requireSelections sh profiles kemX25519MLKEM768 = .ok ()
      ↔ sh.profileSelect = profileStandard ∧ sh.kemSelect = kemX25519MLKEM768
        ∧ sh.sigSelect = sigEd25519 ∧ sh.aeadSelect = aeadAES256GCM := by
  have hmin : Profile.minKEM profileStandard = kemX25519MLKEM768 := rfl
  unfold requireSelections
  by_cases hprofile : sh.profileSelect = profileStandard
  · have hmem : profileStandard ∈ profiles := h.mem.mpr rfl
    by_cases hkem : sh.kemSelect = kemX25519MLKEM768 <;> by_cases hsig : sh.sigSelect = sigEd25519
      <;> by_cases haead : sh.aeadSelect = aeadAES256GCM
      <;> simp [hmin, hmem, hprofile, hkem, hsig, haead]
  · have hmem : sh.profileSelect ∉ profiles := fun hmem => hprofile (h.mem.mp hmem)
    simp [hmem, hprofile]

theorem requireStandardSelect_eq_ok {profile kem sig aead ciphertext : Bytes} :
    requireStandardSelect [profile, kem, sig, aead, ciphertext] = .ok ()
      ↔ profile = [profileStandard] ∧ kem = putUint16 kemX25519MLKEM768
        ∧ sig = putUint16 sigEd25519 ∧ aead = putUint16 aeadAES256GCM := by
  unfold requireStandardSelect
  simp only [getD_cons_zero, getD_cons_succ]
  by_cases hprofile : profile = [profileStandard] <;>
    by_cases hkem : kem = putUint16 kemX25519MLKEM768 <;>
    by_cases hsig : sig = putUint16 sigEd25519 <;>
    by_cases haead : aead = putUint16 aeadAES256GCM <;> simp [hprofile, hkem, hsig, haead]

theorem decodeFlight_of_decodeServerHello (h : decodeServerHello payload = .ok sh) :
    Npamp.decodeFlight serverHelloTypes payload = .ok (sh.tlvs.map TLV.value) := by
  obtain ⟨hwell, rfl⟩ := decodeServerHello_eq_ok.mp h
  refine (Npamp.decodeFlight_eq_ok (by decide)).mpr ⟨rfl, hwell.fits, ?_⟩
  rw [ServerHello.encode, encodeFlight_eq]
  rfl

/-- **The Rust checks on a SERVER_HELLO payload are Go's.** -/
theorem serverHello_payload_iff :
    (decodeFlight serverHelloTypes payload = .ok vals ∧ requireStandardSelect vals = .ok ()
        ∧ (vals.getD 4 []).length = kemCiphertextLen)
      ↔ ∃ sh, decodeServerHello payload = .ok sh ∧ Selects sh
          ∧ sh.tlvs.map TLV.value = vals := by
  rw [decodeFlight_eq_ok_iff (by decide)]
  constructor
  · rintro ⟨hflight, hselect, hsize⟩
    obtain ⟨hcount, hfits, hpayload⟩ := (Npamp.decodeFlight_eq_ok (by decide)).mp hflight
    obtain ⟨profile, kem, sig, aead, ciphertext, rfl⟩ := exists_of_length_five hcount
    obtain ⟨rfl, rfl, rfl, rfl⟩ := requireStandardSelect_eq_ok.mp hselect
    have hlength : ciphertext.length = kemCiphertextSize768 := hsize
    refine ⟨⟨profileStandard, kemX25519MLKEM768, sigEd25519, aeadAES256GCM, ciphertext⟩, ?_,
      ⟨rfl, rfl, rfl, rfl, hlength⟩, rfl⟩
    refine decodeServerHello_eq_ok.mpr ⟨⟨?_, hfits⟩, ?_⟩
    · exact ne_nil_of_length_pos (by rw [hlength]; decide)
    · rw [ServerHello.encode, encodeFlight_eq]
      exact hpayload
  · rintro ⟨⟨profile, kem, sig, aead, ciphertext⟩, hsh, ⟨rfl, rfl, rfl, rfl, hlength⟩, rfl⟩
    exact ⟨decodeFlight_of_decodeServerHello hsh,
      requireStandardSelect_eq_ok.mpr ⟨rfl, rfl, rfl, rfl⟩, hlength⟩

theorem openCleartext_eq_ok {want : FrameType} : openCleartext want wire = .ok payload
      ↔ ∃ f, unmarshalBinary wire = .ok f ∧ f.type = want ∧ f.flags &&& flagENC = 0
          ∧ f.payload = payload := by
  unfold openCleartext
  cases hparse : unmarshalBinary wire with
  | error e => simp
  | ok f =>
    by_cases htype : f.type = want <;> by_cases henc : f.flags &&& flagENC = 0 <;>
      simp [htype, henc]

theorem readHello_eq_ok {ft : UInt16} {name : String} : readHello ft name want wire = .ok vals
      ↔ ∃ f, unmarshal wire = .ok f ∧ f.type = ft ∧ decodeFlight want f.payload = .ok vals := by
  unfold readHello
  cases hparse : unmarshal wire with
  | error e => simp
  | ok f => by_cases htype : f.type = ft <;> simp [htype]

theorem goClientHello_eq_ok (h : StandardOnly allowed) : goClientHello allowed wire = .ok ch
      ↔ ∃ f, unmarshalBinary wire = .ok f ∧ f.type = frameClientHello ∧ f.flags &&& flagENC = 0
          ∧ decodeClientHello f.payload = .ok ch ∧ Offers ch := by
  constructor
  · intro hok
    obtain ⟨payload, hopen, hok⟩ := exists_of_bind_eq_ok hok
    obtain ⟨ch', hdecode, hok⟩ := exists_of_bind_eq_ok hok
    obtain ⟨p, hoffers, hok⟩ := exists_of_bind_eq_ok hok
    split at hok
    · cases hok
    rename_i hshare
    cases hok
    obtain ⟨f, hparse, htype, henc, rfl⟩ := openCleartext_eq_ok.mp hopen
    obtain ⟨-, hprofile, hkem, hsig, haead⟩ := (requireOffers_eq_ok h).mp hoffers
    exact ⟨f, hparse, htype, henc, hdecode, hprofile, hkem, hsig, haead, not_not.mp hshare⟩
  · rintro ⟨f, hparse, htype, henc, hdecode, hoffers⟩
    have hp := (requireOffers_eq_ok h).mpr
      ⟨rfl, hoffers.profile, hoffers.kem, hoffers.sig, hoffers.aead⟩
    have hopen := openCleartext_eq_ok.mpr ⟨f, hparse, htype, henc, rfl⟩
    simp only [goClientHello, hopen, hdecode, hp, hoffers.share, bind, Except.bind, ne_eq,
      not_true_eq_false, if_false]
    rfl

theorem goServerHello_eq_ok (h : StandardOnly profiles) : goServerHello profiles wire = .ok sh
      ↔ ∃ f, unmarshalBinary wire = .ok f ∧ f.type = frameServerHello ∧ f.flags &&& flagENC = 0
          ∧ decodeServerHello f.payload = .ok sh ∧ Selects sh := by
  constructor
  · intro hok
    obtain ⟨payload, hopen, hok⟩ := exists_of_bind_eq_ok hok
    obtain ⟨sh', hdecode, hok⟩ := exists_of_bind_eq_ok hok
    obtain ⟨_, hselect, hok⟩ := exists_of_bind_eq_ok hok
    split at hok
    · cases hok
    rename_i hsize
    cases hok
    obtain ⟨f, hparse, htype, henc, rfl⟩ := openCleartext_eq_ok.mp hopen
    obtain ⟨hprofile, hkem, hsig, haead⟩ := (requireSelections_eq_ok h).mp hselect
    exact ⟨f, hparse, htype, henc, hdecode, hprofile, hkem, hsig, haead, not_not.mp hsize⟩
  · rintro ⟨f, hparse, htype, henc, hdecode, hselects⟩
    have hselect := (requireSelections_eq_ok h).mpr
      ⟨hselects.profile, hselects.kem, hselects.sig, hselects.aead⟩
    have hopen := openCleartext_eq_ok.mpr ⟨f, hparse, htype, henc, rfl⟩
    simp only [goServerHello, hopen, hdecode, hselect, hselects.ciphertext, bind, Except.bind,
      ne_eq, not_true_eq_false, if_false]
    rfl

/-- What the Rust server takes for a CLIENT_HELLO, in the terms of the Go decoder. -/
theorem acceptClientHello_eq_ok : acceptClientHello wire = .ok vals
      ↔ ∃ f, unmarshal wire = .ok f ∧ f.type = frameClientHello
          ∧ ∃ ch, decodeClientHello f.payload = .ok ch ∧ Offers ch
            ∧ ch.tlvs.map TLV.value = vals := by
  simp only [← clientHello_payload_iff]
  constructor
  · intro hok
    obtain ⟨vals', hread, hok⟩ := exists_of_bind_eq_ok hok
    obtain ⟨_, hoffer, hok⟩ := exists_of_bind_eq_ok hok
    split at hok
    · cases hok
    rename_i hshare
    cases hok
    obtain ⟨f, hparse, htype, hflight⟩ := readHello_eq_ok.mp hread
    exact ⟨f, hparse, htype, hflight, hoffer, not_not.mp hshare⟩
  · rintro ⟨f, hparse, htype, hflight, hoffer, hshare⟩
    simp only [acceptClientHello, readHello_eq_ok.mpr ⟨f, hparse, htype, hflight⟩, hoffer, hshare,
      bind, Except.bind, ne_eq, not_true_eq_false, if_false]
    rfl

/-- What the Rust client takes for a SERVER_HELLO, in the terms of the Go decoder. -/
theorem dialServerHello_eq_ok : dialServerHello wire = .ok vals
      ↔ ∃ f, unmarshal wire = .ok f ∧ f.type = frameServerHello
          ∧ ∃ sh, decodeServerHello f.payload = .ok sh ∧ Selects sh
            ∧ sh.tlvs.map TLV.value = vals := by
  simp only [← serverHello_payload_iff]
  constructor
  · intro hok
    obtain ⟨vals', hread, hok⟩ := exists_of_bind_eq_ok hok
    obtain ⟨_, hselect, hok⟩ := exists_of_bind_eq_ok hok
    split at hok
    · cases hok
    rename_i hsize
    cases hok
    obtain ⟨f, hparse, htype, hflight⟩ := readHello_eq_ok.mp hread
    exact ⟨f, hparse, htype, hflight, hselect, not_not.mp hsize⟩
  · rintro ⟨f, hparse, htype, hflight, hselect, hsize⟩
    simp only [dialServerHello, readHello_eq_ok.mpr ⟨f, hparse, htype, hflight⟩, hselect, hsize,
      bind, Except.bind, ne_eq, not_true_eq_false, if_false]
    rfl

theorem tlv_eq_encode (out : Bytes) (v : TLV) : tlv out v.type v.value = v.encode out := by
  rw [tlv, TLV.encode, append_assoc out]

theorem absorb_eq (t : Transcript) (ft : FrameType) (tlvs : List TLV) :
    absorb t.buf ft (tlvs.map TLV.type) (tlvs.map TLV.value) = (t.addFrame ft tlvs).buf := by
  have hfold : ∀ (tlvs : List TLV) (t : Transcript),
      ((tlvs.map TLV.type).zip (tlvs.map TLV.value)).foldl
          (fun buf tv => tlv buf tv.1 tv.2) t.buf = (tlvs.foldl Transcript.addTLV t).buf := by
    intro tlvs
    induction tlvs with
    | nil => exact fun _ => rfl
    | cons v rest ih =>
      intro t
      rw [map_cons, map_cons, zip_cons_cons, foldl_cons, foldl_cons,
        tlv_eq_encode]
      exact ih (t.addTLV v)
  exact hfold tlvs (t.addFrameType ft)

/-- The frame is a `CLIENT_HELLO` with a Standard offer, whatever its flags. -/
def IsClientHello (f : Frame) : Prop :=
  f.type = frameClientHello ∧ ∃ ch, decodeClientHello f.payload = .ok ch ∧ Offers ch

/-- The frame is a `SERVER_HELLO` with the Standard selections, whatever its flags. -/
def IsServerHello (f : Frame) : Prop :=
  f.type = frameServerHello ∧ ∃ sh, decodeServerHello f.payload = .ok sh ∧ Selects sh

theorem isOk_iff_exists {ε α : Type} {x : Except ε α} : x.isOk = true ↔ ∃ a, x = .ok a := by
  cases x with
  | error e => simp [Except.isOk, Except.toBool]
  | ok a => simp [Except.isOk, Except.toBool]

section Agreement

variable {profiles : List Profile} (hprofiles : StandardOnly profiles) {wire : Bytes} {f : Frame}
  (hparse : unmarshalBinary wire = .ok f)

include hparse

theorem unmarshal_of_unmarshalBinary : unmarshal wire = .ok f :=
  ((unmarshalBinaryWith_eq_ok_iff crc32c wire f).mp hparse).1

theorem isOk_acceptClientHello : (acceptClientHello wire).isOk = true ↔ IsClientHello f := by
  simp [isOk_iff_exists, acceptClientHello_eq_ok, unmarshal_of_unmarshalBinary hparse,
    IsClientHello]

theorem isOk_dialServerHello : (dialServerHello wire).isOk = true ↔ IsServerHello f := by
  simp [isOk_iff_exists, dialServerHello_eq_ok, unmarshal_of_unmarshalBinary hparse,
    IsServerHello]

include hprofiles

theorem isOk_goClientHello : (goClientHello profiles wire).isOk = true
      ↔ IsClientHello f ∧ f.flags &&& flagENC = 0 := by
  simp only [isOk_iff_exists, goClientHello_eq_ok hprofiles, hparse, Except.ok.injEq,
    exists_eq_left', IsClientHello, exists_and_left]
  tauto

theorem isOk_goServerHello : (goServerHello profiles wire).isOk = true
      ↔ IsServerHello f ∧ f.flags &&& flagENC = 0 := by
  simp only [isOk_iff_exists, goServerHello_eq_ok hprofiles, hparse, Except.ok.injEq,
    exists_eq_left', IsServerHello, exists_and_left]
  tauto

theorem absorb_clientHello {ch : ClientHello} {vals : List Bytes}
    (hch : goClientHello profiles wire = .ok ch) (hvals : acceptClientHello wire = .ok vals)
    (t : Transcript) : absorb t.buf frameClientHello clientHelloTypes vals
      = (t.addFrame frameClientHello ch.tlvs).buf := by
  obtain ⟨g, hg, -, -, hdecode, -⟩ := (goClientHello_eq_ok hprofiles).mp hch
  obtain ⟨g', hg', -, ch', hdecode', -, rfl⟩ := acceptClientHello_eq_ok.mp hvals
  cases hparse.symm.trans hg
  cases (unmarshal_of_unmarshalBinary hparse).symm.trans hg'
  cases hdecode.symm.trans hdecode'
  exact absorb_eq t frameClientHello ch.tlvs

theorem absorb_serverHello {sh : ServerHello} {vals : List Bytes}
    (hsh : goServerHello profiles wire = .ok sh) (hvals : dialServerHello wire = .ok vals)
    (t : Transcript) : absorb t.buf frameServerHello serverHelloTypes vals
      = (t.addFrame frameServerHello sh.tlvs).buf := by
  obtain ⟨g, hg, -, -, hdecode, -⟩ := (goServerHello_eq_ok hprofiles).mp hsh
  obtain ⟨g', hg', -, sh', hdecode', -, rfl⟩ := dialServerHello_eq_ok.mp hvals
  cases hparse.symm.trans hg
  cases (unmarshal_of_unmarshalBinary hparse).symm.trans hg'
  cases hdecode.symm.trans hdecode'
  exact absorb_eq t frameServerHello sh.tlvs

end Agreement

/-- **Go and Rust accept the same hello flights but for Standard hellos with the ENC flag set**, and
a flight both accept adds the same octets to any transcript. -/
theorem go_rust_hellos_agree (profiles : List Profile) (hprofiles : StandardOnly profiles)
    (wire : Bytes) (f : Frame) (hparse : unmarshalBinary wire = .ok f) :
    (((goClientHello profiles wire).isOk = (acceptClientHello wire).isOk
        ∧ (goServerHello profiles wire).isOk = (dialServerHello wire).isOk)
        ↔ ¬ (f.flags &&& flagENC ≠ 0 ∧ (IsClientHello f ∨ IsServerHello f)))
      ∧ (∀ (t : Transcript) ch vals, goClientHello profiles wire = .ok ch →
          acceptClientHello wire = .ok vals →
          absorb t.buf frameClientHello clientHelloTypes vals
            = (t.addFrame frameClientHello ch.tlvs).buf)
      ∧ ∀ (t : Transcript) sh vals, goServerHello profiles wire = .ok sh →
          dialServerHello wire = .ok vals →
          absorb t.buf frameServerHello serverHelloTypes vals
            = (t.addFrame frameServerHello sh.tlvs).buf := by
  refine ⟨?_, fun t ch vals hch hvals => absorb_clientHello hprofiles hparse hch hvals t,
    fun t sh vals hsh hvals => absorb_serverHello hprofiles hparse hsh hvals t⟩
  rw [Bool.eq_iff_iff (a := (goClientHello profiles wire).isOk),
    Bool.eq_iff_iff (a := (goServerHello profiles wire).isOk), isOk_goClientHello hprofiles hparse,
    isOk_goServerHello hprofiles hparse, isOk_acceptClientHello hparse,
    isOk_dialServerHello hparse]
  tauto

def clientHelloFrame (flags : UInt8) : Bytes :=
  marshal
    { version := protocolVersion, flags := flags, type := frameClientHello, channel := chanControl
      seq := 0
      payload := ClientHello.encode
        { profileOffer := [profileStandard], kemOffer := [kemX25519MLKEM768]
          sigOffer := [sigEd25519], aeadOffer := [aeadAES256GCM]
          kemShare := replicate kemShareSize768 0 } }

def serverHelloFrame (flags : UInt8) : Bytes :=
  marshal
    { version := protocolVersion, flags := flags, type := frameServerHello, channel := chanControl
      seq := 0
      payload := ServerHello.encode
        { profileSelect := profileStandard, kemSelect := kemX25519MLKEM768
          sigSelect := sigEd25519, aeadSelect := aeadAES256GCM
          kemCiphertext := replicate kemCiphertextSize768 0 } }

/-- With the ENC flag set, Rust takes both hellos and Go takes neither. -/
theorem go_rust_hellos_disagree :
    (unmarshalBinary (clientHelloFrame flagENC)).isOk ∧ (unmarshal (clientHelloFrame flagENC)).isOk
      ∧ (unmarshalBinary (serverHelloFrame flagENC)).isOk
      ∧ (unmarshal (serverHelloFrame flagENC)).isOk
      ∧ (acceptClientHello (clientHelloFrame flagENC)).isOk = true
      ∧ (goClientHello [profileStandard] (clientHelloFrame flagENC)).isOk = false
      ∧ (dialServerHello (serverHelloFrame flagENC)).isOk = true
      ∧ (goServerHello [profileStandard] (serverHelloFrame flagENC)).isOk = false := by
  decide +kernel

theorem go_rust_hellos_agree_standard :
    ∃ f, unmarshalBinary (clientHelloFrame 0) = .ok f
      ∧ (goClientHello [profileStandard] (clientHelloFrame 0)).isOk = true
      ∧ (goClientHello [profileStandard] (clientHelloFrame 0)).isOk
          = (acceptClientHello (clientHelloFrame 0)).isOk := by
  have hprofiles : StandardOnly [profileStandard] := ⟨List.cons_ne_nil _ _, by simp⟩
  have hparsed : (unmarshalBinary (clientHelloFrame 0)).isOk = true := by decide +kernel
  have hclear : (unmarshalBinary (clientHelloFrame 0)).toOption.map (·.flags &&& flagENC)
      = some 0 := by decide +kernel
  obtain ⟨f, hf⟩ := isOk_iff_exists.mp hparsed
  rw [hf] at hclear
  exact ⟨f, hf, by decide +kernel, ((go_rust_hellos_agree _ hprofiles _ f hf).1.mpr
    fun h => h.1 (Option.some.inj hclear)).1⟩

end Npamp.Rust
