import Npamp.Proxy.Opaque
import Npamp.Proof.Bridge

/-!
# What opaque carriage preserves

Behind an `OpaqueContentType` TLV the octets carried are safe. For the three enumerated media types
there is none, and octets that start like a safety label are cut short.
-/

namespace Npamp

theorem peekLeadingTLV_of_not_startsWith {buf : Bytes} {want : TLVType}
    (h : ¬ StartsWith want buf) : peekLeadingTLV buf want = .ok (none, buf) := by
  unfold peekLeadingTLV
  by_cases hlength : buf.length < 4
  · exact if_pos hlength
  · have htype : (tlvHeader buf).1 ≠ want := fun htype => h ⟨Nat.not_lt.mp hlength, htype⟩
    dsimp only
    rw [if_neg hlength, if_pos htype]

theorem peekLeadingTLV_encode {t : TLV} (ht : t.Fits) (rest : Bytes) :
    peekLeadingTLV (t.encode [] ++ rest) t.type = .ok (some t.value, rest) := by
  have hlength : (t.encode [] ++ rest).length = 4 + t.value.length + rest.length := by
    rw [List.length_append, TLV.length_encode_nil]
  unfold peekLeadingTLV
  simp only [tlvHeader_encode ht]
  rw [if_neg (by omega), if_neg fun hne => hne rfl, if_neg (by omega), slice_encode_value,
    drop_encode_append]

theorem not_startsWith_of_peekLeadingTLV {buf rest : Bytes} {want : TLVType}
    (h : peekLeadingTLV buf want = .ok (none, rest)) : ¬ StartsWith want buf := by
  rintro ⟨hlength, htype⟩
  unfold peekLeadingTLV at h
  dsimp only at h
  rw [if_neg (Nat.not_lt.mpr hlength), if_neg (not_not_intro htype)] at h
  split_ifs at h
  cases h

theorem length_lt_of_peekLeadingTLV {buf value rest : Bytes} {want : TLVType}
    (h : peekLeadingTLV buf want = .ok (some value, rest)) : value.length < 2 ^ 16 := by
  unfold peekLeadingTLV at h
  dsimp only at h
  split_ifs at h with _ _ hends <;> cases h
  rw [length_slice (Nat.not_lt.mp hends), Nat.add_sub_cancel_left]
  exact (uint16 (slice buf 2 4)).toNat_lt

def enumeratedMediaTypes : List Bytes :=
  [ascii "application/json", ascii "application/cbor", ascii "application/grpc+proto"]

theorem contentTypeToMediaType_of_mediaType {mt : Bytes} {ct : BridgeContentType}
    (h : mediaTypeToContentType mt = some ct) :
    mt ∈ enumeratedMediaTypes ∧ contentTypeToMediaType ct = some mt
      ∧ ct ≠ opaqueContentTypeDiscriminator := by
  unfold mediaTypeToContentType at h
  split_ifs at h with hjson hcbor hgrpc
  · cases h
    exact ⟨by simp [enumeratedMediaTypes, hjson], hjson ▸ rfl, by decide⟩
  · cases h
    exact ⟨by simp [enumeratedMediaTypes, hcbor], hcbor ▸ rfl, by decide⟩
  · cases h
    exact ⟨by simp [enumeratedMediaTypes, hgrpc], hgrpc ▸ rfl, by decide⟩

section Carriage

variable {quote : Bytes → String} {env : BridgeEnvelope} {mt raw payload foreign : Bytes}

theorem BridgeEnvelope.fits_of_encode {safety : Option SafetyLabel}
    (h : encodeBridgePayload env safety foreign = .ok payload) : env.Fits := by
  unfold encodeBridgePayload encodeBridgeFrame at h
  obtain ⟨value, hvalue, -⟩ := exists_of_bind_eq_ok h
  unfold encodeEnvelopeValue at hvalue
  split_ifs at hvalue with hcorr hmethod
  exact ⟨Nat.not_lt.mp hcorr, Nat.not_lt.mp hmethod⟩

/-- The media types that can stand in front of an opaque payload. -/
structure Declarable (mt : Bytes) : Prop where
  nonempty : mt ≠ []
  noNUL : (indexByte mt 0).isSome = false
  syntactic : validMediaTypeSyntax mt = true

def declaredTLV (mt : Bytes) : TLV := { type := opaqueContentTypeTLV, value := mt }

theorem encodeOpaquePayload_eq_ok (h : encodeOpaquePayload quote env mt raw = .ok payload) :
    env.Fits ∧
      ((∃ ct, mediaTypeToContentType mt = some ct
          ∧ payload = { env with contentType := ct }.tlv.encode [] ++ raw)
        ∨ (mediaTypeToContentType mt = none ∧ Declarable mt
          ∧ payload = { env with contentType := opaqueContentTypeDiscriminator }.tlv.encode []
              ++ ((declaredTLV mt).encode [] ++ raw))) := by
  unfold encodeOpaquePayload at h
  split at h
  · rename_i ct hct
    have hfits := BridgeEnvelope.fits_of_encode h
    refine ⟨hfits, Or.inl ⟨ct, hct, ?_⟩⟩
    rw [encodeBridgePayload, encodeBridgeFrame_eq hfits (by rintro s ⟨⟩)] at h
    exact (Except.ok.inj h).symm
  · rename_i hnone
    split_ifs at h with hempty hnul hsyntax
    obtain ⟨envelopeOnly, henvelope, h⟩ := exists_of_bind_eq_ok h
    have hfits := BridgeEnvelope.fits_of_encode henvelope
    refine ⟨hfits, Or.inr ⟨hnone, ⟨hempty, by simpa using hnul, by simpa using hsyntax⟩, ?_⟩⟩
    rw [encodeBridgePayload, encodeBridgeFrame_eq hfits (by rintro s ⟨⟩)] at henvelope
    cases henvelope
    rw [← Except.ok.inj h]
    simp [labelled, declaredTLV]

theorem decodeOpaquePayload_enumerated {ct : BridgeContentType}
    (hct : contentTypeToMediaType ct = some mt) (hne : ct ≠ opaqueContentTypeDiscriminator)
    (henv : env.contentType = ct) (hforeign : ¬ StartsWith opaqueContentTypeTLV foreign) :
    decodeOpaquePayload quote env foreign = .ok (mt, foreign) := by
  rw [decodeOpaquePayload, peekLeadingTLV_of_not_startsWith hforeign]
  simp only [henv, if_neg hne, hct]

theorem decodeOpaquePayload_declared (hmt : Declarable mt) (hfits : (declaredTLV mt).Fits)
    (henv : env.contentType = opaqueContentTypeDiscriminator) :
    decodeOpaquePayload quote env ((declaredTLV mt).encode [] ++ raw) = .ok (mt, raw) := by
  have hpeek := peekLeadingTLV_encode hfits raw
  rw [show (declaredTLV mt).type = opaqueContentTypeTLV from rfl] at hpeek
  have hlength : mt.length ≠ 0 := fun h => hmt.nonempty (List.eq_nil_of_length_eq_zero h)
  rw [decodeOpaquePayload, hpeek]
  simp [henv, declaredTLV, hlength, hmt.noNUL, hmt.syntactic]

theorem of_decodeOpaquePayload {out : Bytes}
    (h : decodeOpaquePayload quote env foreign = .ok (mt, out)) :
    mt.length < 2 ^ 16 ∧ (env.contentType ≠ opaqueContentTypeDiscriminator →
      ¬ StartsWith opaqueContentTypeTLV foreign ∧ out = foreign) := by
  unfold decodeOpaquePayload at h
  split at h
  · cases h
  · rename_i hpeek
    split_ifs at h with hct
    cases h
    exact ⟨length_lt_of_peekLeadingTLV hpeek, fun hne => absurd hne hct⟩
  · rename_i hpeek
    split_ifs at h
    split at h
    · cases h
    rename_i hmt
    cases h
    refine ⟨?_, fun _ => ⟨not_startsWith_of_peekLeadingTLV hpeek, rfl⟩⟩
    unfold contentTypeToMediaType at hmt
    split_ifs at hmt <;> cases hmt <;> decide +kernel

/-- What can be carried: a media type whose length fits its field, and, if it is enumerated, octets
that start like neither of the TLVs looked for. -/
def Carriable (mt raw : Bytes) : Prop :=
  mt.length < 2 ^ 16
    ∧ (mt ∈ enumeratedMediaTypes →
        ¬ StartsWith tlvSafetyLabel raw ∧ ¬ StartsWith opaqueContentTypeTLV raw)

/-- **Opaque carriage.** What the encoder accepts for a request or a response is decoded to the
media type and the octets it was given exactly if they are carriable. -/
theorem opaque_carriage_exact {ft : FrameType}
    (hft : ft = frameBridgeRequest ∨ ft = frameBridgeResponse)
    (hkind : bridgeKindForFrame ft = some env.kind) (hid : env.correlationID ≠ [])
    (hencode : encodeOpaquePayload quote env mt raw = .ok payload) :
    (decodeBridgeFrame ft payload >>= fun f => decodeOpaquePayload quote f.envelope f.foreign)
      = .ok (mt, raw) ↔ Carriable mt raw := by
  have hcorr : ft = frameBridgeNotify ↔ env.correlationID = [] :=
    iff_of_false (by rcases hft with rfl | rfl <;> decide) hid
  have hdecode : ∀ {ct : BridgeContentType} {foreign : Bytes}, env.Fits →
      ¬ StartsWith tlvSafetyLabel foreign →
      decodeBridgeFrame ft ({ env with contentType := ct }.tlv.encode [] ++ foreign)
        = .ok { envelope := { env with contentType := ct }, safety := none, foreign := foreign } :=
    fun hfits hlabel => validateBridgePayload_eq_ok.mpr
      ⟨⟨hkind, hcorr, hfits, by rintro s ⟨⟩⟩, rfl, Or.inr hlabel⟩
  obtain ⟨hfits, ⟨ct, hct, rfl⟩ | ⟨hnone, hmt, rfl⟩⟩ := encodeOpaquePayload_eq_ok hencode
  · obtain ⟨hmem, hinverse, hne⟩ := contentTypeToMediaType_of_mediaType hct
    constructor
    · intro h
      obtain ⟨f, hf, h⟩ := exists_of_bind_eq_ok h
      obtain ⟨henv, hrest, hlabel⟩ :=
        eq_of_validateBridgePayload (e := { env with contentType := ct }) hfits hf
      obtain ⟨hlength, hforeign⟩ := of_decodeOpaquePayload h
      obtain ⟨hdeclared, rfl⟩ := hforeign (henv ▸ hne)
      -- a label in front of the octets would leave fewer of them
      have hnone : f.safety = none := by
        cases hsafety : f.safety with
        | none => rfl
        | some s =>
          have hlonger := congrArg List.length hrest
          rw [hsafety, labelled, List.length_append, Option.elim_some, TLV.length_encode_nil]
            at hlonger
          omega
      rw [hnone] at hlabel
      exact ⟨hlength, fun _ => ⟨hlabel.resolve_left Bool.false_ne_true, hdeclared⟩⟩
    · intro h
      obtain ⟨hlabel, hdeclared⟩ := h.2 hmem
      rw [hdecode hfits hlabel]
      exact decodeOpaquePayload_enumerated hinverse hne rfl hdeclared
  · constructor
    · intro h
      obtain ⟨f, -, h⟩ := exists_of_bind_eq_ok h
      refine ⟨(of_decodeOpaquePayload h).1, fun hmem => ?_⟩
      simp only [enumeratedMediaTypes, List.mem_cons, List.not_mem_nil, or_false] at hmem
      rcases hmem with rfl | rfl | rfl <;> exact absurd hnone (by decide)
    · intro h
      have hdeclared : (declaredTLV mt).Fits := h.1
      have hlabel : ¬ StartsWith tlvSafetyLabel ((declaredTLV mt).encode [] ++ raw) := by
        rintro ⟨-, htype⟩
        rw [tlvHeader_encode hdeclared] at htype
        have hdistinct : opaqueContentTypeTLV ≠ tlvSafetyLabel := by decide
        exact hdistinct htype
      rw [hdecode hfits hlabel]
      exact decodeOpaquePayload_declared hmt hdeclared rfl

end Carriage

def opaqueRequest : BridgeEnvelope where
  protocol := 0x00f0
  kind := bridgeKindRequest
  contentType := 0
  flags := 0
  correlationID := [1]
  method := []

def carryRequest (mt raw : Bytes) : Except GoError (Bytes × Bytes) := do
  let payload ← encodeOpaquePayload (fun _ => "") opaqueRequest mt raw
  let f ← decodeBridgeFrame frameBridgeRequest payload
  decodeOpaquePayload (fun _ => "") f.envelope f.foreign

set_option maxRecDepth 100000 in
theorem opaque_carriage_exact_octets : carryRequest (ascii "image/png") [0x00, 0x12, 0x00, 0x00]
      = .ok (ascii "image/png", [0x00, 0x12, 0x00, 0x00]) := by
  obtain ⟨payload, hpayload⟩ : ∃ payload, encodeOpaquePayload (fun _ => "") opaqueRequest
      (ascii "image/png") [0x00, 0x12, 0x00, 0x00] = .ok payload := ⟨_, rfl⟩
  have hcarriable : Carriable (ascii "image/png") [0x00, 0x12, 0x00, 0x00] :=
    ⟨by decide +kernel, fun hmem => absurd hmem (by decide +kernel)⟩
  unfold carryRequest
  rw [hpayload]
  exact (opaque_carriage_exact (Or.inl rfl) rfl (by decide) hpayload).mpr hcarriable

/-- **Octets that start like a label are cut.** Seven octets of JSON come back as one, and four that
start like a media type declaration are refused. -/
theorem raw_octets_become_label :
    carryRequest (ascii "application/json") [0x00, 0x13, 0x00, 0x02, 0x00, 0x00, 0x30]
        = .ok (ascii "application/json", [0x30])
      ∧ carryRequest (ascii "application/json") [0x00, 0x12, 0x00, 0x00]
        = .error (errOpaqueContentType
          "carries both an enumerated content_type value and an OpaqueContentType TLV (§4.2 point 3)") :=
  ⟨by decide +kernel, by decide +kernel⟩

end Npamp
