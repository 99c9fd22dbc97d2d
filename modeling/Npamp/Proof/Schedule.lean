import Npamp.Sdk.Recv
import Npamp.Proof.Tlv
import Npamp.Proof.ErrorBody

/-!
# Derivations and payloads, without their error cases

A connection's profile has a cipher suite, so each derivation is the value named here.
-/

namespace Npamp

section Derivations

variable (P : Primitives)

/-- The keys of one channel, direction and epoch under a root, at sequence number 0. -/
def trafficKeys (root : Bytes) (dir : Direction) (epoch : UInt64) (channel : ChannelID) :
    EpochKeys :=
  let secret := hkdfExpandLabel P root "traffic"
    (dir.octet :: (putUint64 epoch ++ putUint16 aeadAES256GCM ++ putUint16 channel)) hashSize
  { epoch := epoch
    key := hkdfExpandLabel P secret "key" [] 32
    iv := hkdfExpandLabel P secret "iv" [] 12
    seq := 0 }

/-- The root that a master ratchet leads to. -/
def tier1 (root : Bytes) (gen : UInt64) : Bytes :=
  hkdfExpandLabel P root "master ratchet" (putUint64 gen) hashSize

/-- The root that a re-KEM leads to. -/
def tier2 (root newSS th : Bytes) : Bytes :=
  hkdfExpandLabel P (P.hkdfExtract newSS root) "master ratchet rekem" th hashSize

/-- The transcript hash of a re-KEM. -/
def rekemPoint (kemShare kemCT : Bytes) (gen : UInt64) : Bytes :=
  P.sha256 (putUint16 frameReKEM
    ++ encodeTLVs [⟨tlvKEMShare, kemShare⟩, ⟨tlvRatchetGeneration, putUint64 gen⟩]
    ++ putUint16 frameReKEMAck
    ++ encodeTLVs [⟨tlvKEMCiphertext, kemCT⟩, ⟨tlvRatchetGeneration, putUint64 gen⟩])

variable {P} {p : Profile} (hp : hashForProfile p = .ok ())

include hp

theorem expandForProfile_eq (secret : Bytes) (label : String) (context : Bytes) (length : Nat) :
    expandForProfile P p secret label context length
      = .ok (hkdfExpandLabel P secret label context length) := by
  rw [expandForProfile, hp]

theorem EpochKeys.derive_eq (k : EpochKeys) (root : Bytes) (dir : Direction) (ch : ChannelID) :
    k.derive P root dir ch p
      = .ok { trafficKeys P root dir k.epoch ch with seq := k.seq } := by
  unfold EpochKeys.derive deriveTrafficSecret deriveKeyIV
  simp only [expandForProfile_eq hp]
  rfl

theorem EpochKeys.advance_eq (k : EpochKeys) (root : Bytes) (dir : Direction) (ch : ChannelID) :
    k.advance P root dir ch p = .ok (trafficKeys P root dir (k.epoch + 1) ch) := by
  rw [EpochKeys.advance, EpochKeys.derive_eq hp]
  rfl

theorem ratchetMasterTier1_eq (root : Bytes) (gen : UInt64) :
    ratchetMasterTier1 P root gen p = .ok (tier1 P root gen) :=
  expandForProfile_eq hp _ _ _ _

theorem ratchetMasterTier2_eq (root newSS th : Bytes) :
    ratchetMasterTier2 P root newSS th p = .ok (tier2 P root newSS th) := by
  rw [ratchetMasterTier2, hp]
  exact expandForProfile_eq hp _ _ _ _

theorem thRekem_eq (kemShare kemCT : Bytes) (gen : UInt64) :
    thRekem P p kemShare kemCT gen = .ok (rekemPoint P kemShare kemCT gen) := by
  rw [thRekem, newTranscript, hp]
  simp only [rekemPoint, Transcript.sum, Transcript.addTLV, Transcript.addFrameType,
    encodeTLVs_cons, encodeTLVs_nil, TLV.encode, List.append_assoc, List.nil_append,
    List.append_nil]

end Derivations

variable {P : Primitives} {kemCT : Bytes}

theorem length_kemShare (hP : P.Correct) (client : KEMClient) :
    (client.kemShare P).length = kemShareSize768 := by
  rw [KEMClient.kemShare, List.length_append, hP.length_encapsulationKey _ client.length_mlkemKey,
    hP.length_x25519Public _ client.length_x25519Key]
  rfl

theorem length_encapsulate (hP : P.Correct) {kemShare : Bytes} {rand : KEMRandom}
    {ss : SharedSecrets} (h : encapsulate P kemShare rand = .ok (kemCT, ss)) :
    kemCT.length = kemCiphertextSize768 := by
  unfold encapsulate at h
  split at h
  · cases h
  split at h
  · cases h
  rename_i mlkem ct hencapsulate
  split at h
  · cases h
  obtain ⟨rfl, -⟩ := Prod.mk.inj (Except.ok.inj h)
  rw [List.length_append, hP.length_ciphertext _ _ _ _ hencapsulate,
    hP.length_x25519Public _ rand.length_x25519Key]
  rfl

/-- Encapsulation to a share the client made gives both the same secrets. -/
theorem encapsulate_kemShare (hP : P.Correct) (client : KEMClient) (rand : KEMRandom) :
    ∃ kemCT ss, encapsulate P (client.kemShare P) rand = .ok (kemCT, ss)
      ∧ client.sharedSecrets P kemCT = .ok ss := by
  have hlength := length_kemShare hP client
  have hek := hP.length_encapsulationKey _ client.length_mlkemKey
  have htake : (client.kemShare P).take 1184 = P.mlkemEncapsulationKey client.mlkemKey := by
    rw [KEMClient.kemShare, ← hek, List.take_left]
  have hdrop : (client.kemShare P).drop 1184 = P.x25519Public client.x25519Key := by
    rw [KEMClient.kemShare, ← hek, List.drop_left]
  obtain ⟨mlkem, ct, hencapsulate, hdecapsulate⟩ :=
    hP.decapsulate _ rand.mlkem client.length_mlkemKey
  obtain ⟨x25519, hserver, hclient⟩ :=
    hP.x25519_agree _ _ rand.length_x25519Key client.length_x25519Key
  have hct := hP.length_ciphertext _ _ _ _ hencapsulate
  have hresult : encapsulate P (client.kemShare P) rand
      = .ok (ct ++ P.x25519Public rand.x25519Key, { mlkem := mlkem, x25519 := x25519 }) := by
    rw [encapsulate, if_neg (not_not.mpr hlength), htake, hencapsulate, hdrop]
    dsimp only
    rw [hserver]
  refine ⟨_, _, hresult, ?_⟩
  rw [KEMClient.sharedSecrets, if_neg (not_not.mpr (length_encapsulate hP hresult)), ← hct,
    List.take_left, List.drop_left, hdecapsulate]
  dsimp only
  rw [hclient]

theorem sharedSecrets_of_encapsulate (hP : P.Correct) {client : KEMClient} {rand : KEMRandom}
    {ss : SharedSecrets} (h : encapsulate P (client.kemShare P) rand = .ok (kemCT, ss)) :
    client.sharedSecrets P kemCT = .ok ss := by
  obtain ⟨kemCT', ss', hencapsulate, hshared⟩ := encapsulate_kemShare hP client rand
  obtain ⟨rfl, rfl⟩ := Prod.mk.inj (Except.ok.inj (h.symm.trans hencapsulate))
  exact hshared

theorem decodeTLVs_marker (t : TLVType) (v : UInt64) :
    decodeTLVs (marker t v) = .ok [⟨t, putUint64 v⟩] := by
  have h : decodeTLVs (encodeTLVs [⟨t, putUint64 v⟩]) = .ok [⟨t, putUint64 v⟩] :=
    decodeTLVs_encodeTLVs (by simp) (by simp [maxTLVsPerFrame])
  rwa [encodeTLVs_cons, encodeTLVs_nil, List.append_nil] at h

theorem parseMarker_marker (t : TLVType) (name : String) (v : UInt64) :
    parseMarker t name (marker t v) = .ok v := by
  simp [parseMarker, decodeTLVs_marker]

@[simp]
theorem parseKeyUpdateMarker_keyUpdateMarker (epoch : UInt64) :
    parseKeyUpdateMarker (keyUpdateMarker epoch) = .ok epoch := parseMarker_marker _ _ _

@[simp]
theorem parseRatchetGenMarker_ratchetGenMarker (gen : UInt64) :
    parseRatchetGenMarker (ratchetGenMarker gen) = .ok gen := parseMarker_marker _ _ _

theorem parseWithGen_encodeWithGen {t : TLVType} (name : String) {size : Nat} (sizeErr : Sentinel)
    {value : Bytes} (hvalue : value.length = size) (hsize : size < 2 ^ 16) (gen : UInt64) :
    parseWithGen t name size sizeErr (encodeWithGen t value gen) = .ok (value, gen) := by
  have hdecode : decodeTLVs (encodeWithGen t value gen)
      = .ok [⟨t, value⟩, ⟨tlvRatchetGeneration, putUint64 gen⟩] := by
    have h : decodeTLVs (encodeTLVs [⟨t, value⟩, ⟨tlvRatchetGeneration, putUint64 gen⟩])
        = .ok [⟨t, value⟩, ⟨tlvRatchetGeneration, putUint64 gen⟩] :=
      decodeTLVs_encodeTLVs (by simpa [hvalue] using hsize) (by simp [maxTLVsPerFrame])
    rw [← h, encodeTLVs_cons, encodeTLVs_cons, encodeTLVs_nil, List.append_nil, encodeWithGen,
      TLV.encode_eq_append]
  simp [parseWithGen, hdecode, hvalue]

theorem parseReKEM_encodeReKEM {kemShare : Bytes} (h : kemShare.length = kemShareSize768)
    (gen : UInt64) : parseReKEM (encodeReKEM kemShare gen) = .ok (kemShare, gen) :=
  parseWithGen_encodeWithGen _ _ h (by decide) gen

theorem parseReKEMAck_encodeReKEMAck (h : kemCT.length = kemCiphertextSize768) (gen : UInt64) :
    parseReKEMAck (encodeReKEMAck kemCT gen) = .ok (kemCT, gen) :=
  parseWithGen_encodeWithGen _ _ h (by decide) gen

theorem length_marker (t : TLVType) (v : UInt64) : (marker t v).length = 12 := by
  rw [marker, TLV.length_encode_nil, length_putUint64]

theorem length_encodeWithGen (t : TLVType) (value : Bytes) (gen : UInt64) :
    (encodeWithGen t value gen).length = 16 + value.length := by
  rw [encodeWithGen, TLV.encode_eq_append, List.length_append, TLV.length_encode_nil,
    TLV.length_encode_nil, length_putUint64]
  change 4 + value.length + (4 + 8) = 16 + value.length
  omega

theorem length_encodeErrorBody_nil (code : SessionErrorCode) :
    (encodeErrorBody code []).length ≤ 16 := by
  refine Cbor.uint8_forall (p := fun code => (encodeErrorBody code []).length ≤ 16) ?_ code
  decide +kernel

end Npamp
