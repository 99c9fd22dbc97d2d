import Npamp.Bridge
import Npamp.Proof.Tlv

/-!
# Carrying a foreign message

What is encoded reads back, unless a frame without a safety label carries a foreign message that
starts like one.
-/

namespace Npamp

open BridgeEnvelope List UInt8

theorem getD_of_split {buf a c : Bytes} {x : UInt8} {i : Nat} (hsplit : buf = a ++ x :: c)
    (hi : a.length = i) : buf.getD i 0 = x := by
  subst hsplit hi
  simp

theorem toNat_ofNat_octet {n : Nat} (h : n ≤ 255) : (ofNat n).toNat = n := by
  rw [toNat_ofNat']
  exact Nat.mod_eq_of_lt (by omega)

/-- The two lengths that the envelope carries in one octet. -/
def BridgeEnvelope.Fits (e : BridgeEnvelope) : Prop :=
  e.correlationID.length ≤ 255 ∧ e.method.length ≤ 255

def BridgeEnvelope.value (e : BridgeEnvelope) : Bytes :=
  putUint16 e.protocol
    ++ [e.kind, e.contentType, e.flags, ofNat e.correlationID.length]
    ++ e.correlationID ++ [ofNat e.method.length] ++ e.method

variable {e : BridgeEnvelope} {s : SafetyLabel} {ft : FrameType}

theorem encodeEnvelopeValue_eq (h : e.Fits) : encodeEnvelopeValue e = .ok e.value := by
  rw [encodeEnvelopeValue, if_neg (Nat.not_lt.mpr h.1), if_neg (Nat.not_lt.mpr h.2)]
  rfl

theorem BridgeEnvelope.length_value (e : BridgeEnvelope) :
    e.value.length = 6 + e.correlationID.length + 1 + e.method.length := by
  simp only [value, length_append, length_putUint16, length_cons,
    length_nil]

theorem decodeEnvelopeValue_value (h : e.Fits) : decodeEnvelopeValue e.value = .ok e := by
  obtain ⟨hcorr, hmethod⟩ := h
  have hcorrLen : (e.value.getD 5 0).toNat = e.correlationID.length := by
    rw [getD_of_split (a := putUint16 e.protocol ++ [e.kind, e.contentType, e.flags])
      (x := ofNat e.correlationID.length)
      (c := e.correlationID ++ [ofNat e.method.length] ++ e.method)
      (by simp [value]) (by simp), toNat_ofNat_octet hcorr]
  have hmethodLen : (e.value.getD (6 + e.correlationID.length) 0).toNat = e.method.length := by
    rw [getD_of_split
      (a := putUint16 e.protocol
        ++ [e.kind, e.contentType, e.flags, ofNat e.correlationID.length]
        ++ e.correlationID)
      (x := ofNat e.method.length) (c := e.method)
      (by simp [value]) (by simp; omega), toNat_ofNat_octet hmethod]
  have hprotocol : slice e.value 0 2 = putUint16 e.protocol :=
    slice_eq_of_split (a := [])
      (c := [e.kind, e.contentType, e.flags, ofNat e.correlationID.length]
        ++ e.correlationID ++ [ofNat e.method.length] ++ e.method)
      (by simp [value]) rfl (by simp)
  have hkind : e.value.getD 2 0 = e.kind :=
    getD_of_split (a := putUint16 e.protocol) (by simp [value]; rfl) (by simp)
  have hcontent : e.value.getD 3 0 = e.contentType :=
    getD_of_split (a := putUint16 e.protocol ++ [e.kind])
      (by simp [value]; rfl) (by simp)
  have hflags : e.value.getD 4 0 = e.flags :=
    getD_of_split (a := putUint16 e.protocol ++ [e.kind, e.contentType])
      (by simp [value]; rfl) (by simp)
  have hid : slice e.value 6 (6 + e.correlationID.length) = e.correlationID :=
    slice_eq_of_split
      (a := putUint16 e.protocol
        ++ [e.kind, e.contentType, e.flags, ofNat e.correlationID.length])
      (c := [ofNat e.method.length] ++ e.method)
      (by simp [value]) (by simp) (by simp)
  have hname : slice e.value (6 + e.correlationID.length + 1)
      (6 + e.correlationID.length + 1 + e.method.length) = e.method :=
    slice_eq_of_split
      (a := putUint16 e.protocol
        ++ [e.kind, e.contentType, e.flags, ofNat e.correlationID.length]
        ++ e.correlationID ++ [ofNat e.method.length]) (c := [])
      (by simp [value]) (by simp; omega) (by simp; omega)
  have hlength := e.length_value
  unfold decodeEnvelopeValue
  simp only [hcorrLen, hmethodLen]
  rw [if_neg (by omega), if_neg (by omega), if_neg (by omega), if_neg (by omega), hprotocol, hkind,
    hcontent, hflags, hid, hname, uint16_putUint16]

theorem value_of_decodeEnvelopeValue {v : Bytes} (h : decodeEnvelopeValue v = .ok e) :
    e.Fits ∧ e.value = v := by
  unfold decodeEnvelopeValue at h
  obtain ⟨n, hn⟩ : ∃ n, (v.getD 5 0).toNat = n := ⟨_, rfl⟩
  obtain ⟨m, hm⟩ : ∃ m, (v.getD (6 + n) 0).toNat = m := ⟨_, rfl⟩
  simp only [hn, hm] at h
  split_ifs at h with h6 hcorr hmethod hstop
  cases h
  have hn255 : n < 256 := hn ▸ toNat_lt _
  have hm255 : m < 256 := hm ▸ toNat_lt _
  have hid : (slice v 6 (6 + n)).length = n := by
    rw [length_slice (by omega), Nat.add_sub_cancel_left]
  have hname : (slice v (6 + n + 1) (6 + n + 1 + m)).length = m := by
    rw [length_slice (by omega), Nat.add_sub_cancel_left]
  have hhead : [v.getD 2 0, v.getD 3 0, v.getD 4 0, ofNat n] = slice v 2 6 := by
    rw [← hn, UInt8.ofNat_toNat, ← slice_append_slice v 5 (by decide) (by decide),
      ← slice_append_slice v 4 (by decide) (by decide),
      ← slice_append_slice v 3 (by decide) (by decide),
      slice_singleton (by omega), slice_singleton (by omega), slice_singleton (by omega),
      slice_singleton (by omega)]
    rfl
  have hlen : [ofNat m] = slice v (6 + n) (6 + n + 1) := by
    rw [← hm, UInt8.ofNat_toNat, slice_singleton (by omega)]
  refine ⟨⟨by rw [hid]; omega, by rw [hname]; omega⟩, ?_⟩
  calc value _
      = slice v 0 2 ++ slice v 2 6 ++ slice v 6 (6 + n) ++ slice v (6 + n) (6 + n + 1)
          ++ slice v (6 + n + 1) (6 + n + 1 + m) := by
        rw [value, hid, hname, hhead, hlen,
          putUint16_uint16 (by rw [length_slice (by omega)])]
    _ = slice v 0 (6 + n + 1 + m) := by
        rw [slice_append_slice v 2 (by omega) (by omega),
          slice_append_slice v 6 (by omega) (by omega),
          slice_append_slice v (6 + n) (by omega) (by omega),
          slice_append_slice v (6 + n + 1) (by omega) (by omega)]
    _ = v := by
        rw [← not_not.mp hstop, slice, take_length, drop_zero]

def SafetyLabel.value (s : SafetyLabel) : Bytes := [s.effect, ofNat s.scope.length] ++ s.scope

theorem encodeSafetyValue_eq (h : s.scope.length ≤ 255) : encodeSafetyValue s = .ok s.value :=
  if_neg (Nat.not_lt.mpr h)

theorem SafetyLabel.length_value (s : SafetyLabel) : s.value.length = 2 + s.scope.length := by
  simp only [SafetyLabel.value, length_append, length_cons, length_nil]

theorem decodeSafetyValue_value (h : s.scope.length ≤ 255) : decodeSafetyValue s.value = .ok s := by
  have hscopeLen : (s.value.getD 1 0).toNat = s.scope.length := toNat_ofNat_octet h
  have hscope : slice s.value 2 (2 + s.scope.length) = s.scope :=
    slice_eq_of_split (a := [s.effect, ofNat s.scope.length]) (c := [])
      (by simp [SafetyLabel.value]) rfl (by simp)
  have hlength := s.length_value
  unfold decodeSafetyValue
  simp only [hscopeLen]
  rw [if_neg (by omega), if_neg (by omega), if_neg (by omega), hscope]
  rfl

theorem value_of_decodeSafetyValue {v : Bytes} (h : decodeSafetyValue v = .ok s) :
    s.scope.length ≤ 255 ∧ s.value = v := by
  unfold decodeSafetyValue at h
  obtain ⟨n, hn⟩ : ∃ n, (v.getD 1 0).toNat = n := ⟨_, rfl⟩
  simp only [hn] at h
  split_ifs at h with h2 hscope hstop
  cases h
  have hn255 : n < 256 := hn ▸ toNat_lt _
  have hlength : (slice v 2 (2 + n)).length = n := by
    rw [length_slice (by omega), Nat.add_sub_cancel_left]
  have hhead : [v.getD 0 0, ofNat n] = slice v 0 2 := by
    rw [← hn, UInt8.ofNat_toNat, ← slice_append_slice v 1 (by decide) (by decide),
      slice_singleton (by omega), slice_singleton (by omega)]
    rfl
  refine ⟨by rw [hlength]; omega, ?_⟩
  calc SafetyLabel.value _ = slice v 0 2 ++ slice v 2 (2 + n) := by
        rw [SafetyLabel.value, hlength, hhead]
    _ = slice v 0 (2 + n) := slice_append_slice v 2 (by omega) (by omega)
    _ = v := by rw [← not_not.mp hstop, slice, take_length, drop_zero]

/-- The octets begin with the header of a TLV of this type. -/
def StartsWith (t : TLVType) (b : Bytes) : Prop := 4 ≤ b.length ∧ (tlvHeader b).1 = t

instance (t : TLVType) (b : Bytes) : Decidable (StartsWith t b) :=
  inferInstanceAs (Decidable (_ ∧ _))

def BridgeEnvelope.tlv (e : BridgeEnvelope) : TLV := { type := tlvBridgeEnvelope, value := e.value }

def SafetyLabel.tlv (s : SafetyLabel) : TLV := { type := tlvSafetyLabel, value := s.value }

theorem BridgeEnvelope.fits_tlv (h : e.Fits) : e.tlv.Fits := by
  show e.value.length < 2 ^ 16
  rw [e.length_value]
  have := h.1
  have := h.2
  omega

theorem SafetyLabel.fits_tlv (h : s.scope.length ≤ 255) : s.tlv.Fits := by
  show s.value.length < 2 ^ 16
  rw [s.length_value]
  omega

theorem decodeEnvelope_encode (h : e.Fits) (rest : Bytes) :
    decodeEnvelope (e.tlv.encode [] ++ rest) = .ok (e, rest) := by
  have hlength : (e.tlv.encode [] ++ rest).length = 4 + e.tlv.value.length + rest.length := by
    rw [length_append, TLV.length_encode_nil]
  unfold decodeEnvelope
  simp only [tlvHeader_encode (e.fits_tlv h)]
  rw [if_neg (by omega), if_neg fun hne => hne rfl, if_neg (by omega), slice_encode_value,
    drop_encode_append]
  show (do let env ← decodeEnvelopeValue e.value; return (env, rest)) = _
  rw [decodeEnvelopeValue_value h]
  rfl

theorem encode_of_decodeEnvelope {payload : Bytes} {rest : Bytes}
    (h : decodeEnvelope payload = .ok (e, rest)) : e.Fits ∧ e.tlv.encode [] ++ rest = payload := by
  unfold decodeEnvelope at h
  obtain ⟨⟨type, n⟩, hheader⟩ : ∃ header, tlvHeader payload = header := ⟨_, rfl⟩
  simp only [hheader] at h
  split_ifs at h with h4 htype hn
  obtain ⟨env, hvalue, h⟩ := exists_of_bind_eq_ok h
  cases h
  obtain ⟨hfits, hvalue⟩ := value_of_decodeEnvelopeValue hvalue
  refine ⟨hfits, ?_⟩
  rw [tlv, hvalue, ← not_not.mp htype]
  exact encode_of_tlvHeader hheader (Nat.not_lt.mp hn)

theorem decodeSafety_encode (h : s.scope.length ≤ 255) (foreign : Bytes) :
    decodeSafety (s.tlv.encode [] ++ foreign) = .ok (some s, foreign) := by
  have hlength : (s.tlv.encode [] ++ foreign).length
      = 4 + s.tlv.value.length + foreign.length := by
    rw [length_append, TLV.length_encode_nil]
  unfold decodeSafety
  simp only [tlvHeader_encode (s.fits_tlv h)]
  rw [if_pos ⟨by omega, rfl⟩, if_neg (by omega), slice_encode_value, drop_encode_append]
  show (do let label ← decodeSafetyValue s.value; return (some label, foreign)) = _
  rw [decodeSafetyValue_value h]
  rfl

theorem decodeSafety_of_not_startsWith {foreign : Bytes}
    (h : ¬ StartsWith tlvSafetyLabel foreign) : decodeSafety foreign = .ok (none, foreign) :=
  if_neg h

def labelled (safety : Option SafetyLabel) (foreign : Bytes) : Bytes :=
  (safety.elim [] fun s => s.tlv.encode []) ++ foreign

theorem labelled_of_decodeSafety {rest foreign : Bytes} {safety : Option SafetyLabel}
    (h : decodeSafety rest = .ok (safety, foreign)) :
    (∀ s ∈ safety, s.scope.length ≤ 255) ∧ labelled safety foreign = rest
      ∧ (safety.isSome ∨ ¬ StartsWith tlvSafetyLabel foreign) := by
  unfold decodeSafety at h
  obtain ⟨⟨type, n⟩, hheader⟩ : ∃ header, tlvHeader rest = header := ⟨_, rfl⟩
  simp only [hheader] at h
  split_ifs at h with htype hn
  · obtain ⟨s, hvalue, h⟩ := exists_of_bind_eq_ok h
    cases h
    obtain ⟨hscope, hvalue⟩ := value_of_decodeSafetyValue hvalue
    refine ⟨by rintro _ ⟨⟩; exact hscope, ?_, Or.inl rfl⟩
    rw [labelled, Option.elim_some, SafetyLabel.tlv, hvalue, ← htype.2]
    exact encode_of_tlvHeader hheader (Nat.not_lt.mp hn)
  · cases h
    refine ⟨by rintro _ ⟨⟩, rfl, Or.inr fun hstarts => htype ⟨hstarts.1, ?_⟩⟩
    rw [← hstarts.2, hheader]

/-- What a Bridge frame of type `ft` must satisfy: the kind and correlation rules of `ft`, and
lengths that fit one octet. -/
structure BridgeFrame.WellFormed (ft : FrameType) (f : BridgeFrame) : Prop where
  kind : bridgeKindForFrame ft = some f.envelope.kind
  correlation : ft = frameBridgeNotify ↔ f.envelope.correlationID = []
  envelope : f.envelope.Fits
  scope : ∀ s ∈ f.safety, s.scope.length ≤ 255

theorem encodeBridgeFrame_eq {f : BridgeFrame} (henvelope : f.envelope.Fits)
    (hscope : ∀ s ∈ f.safety, s.scope.length ≤ 255) :
    encodeBridgeFrame f = .ok (f.envelope.tlv.encode [] ++ labelled f.safety f.foreign) := by
  obtain ⟨env, safety, foreign⟩ := f
  unfold encodeBridgeFrame
  rw [encodeEnvelopeValue_eq henvelope]
  cases safety with
  | none => rfl
  | some s =>
    show (do let label ← encodeSafetyValue s; return _) = _
    rw [encodeSafetyValue_eq (hscope s rfl)]
    show Except.ok _ = _
    rw [TLV.encode_eq_append]
    simp only [labelled, Option.elim_some, append_assoc]
    rfl

theorem checkKind_eq_ok {wantKind : BridgeMessageKind} {env : BridgeEnvelope} :
    checkKind ft wantKind env = .ok () ↔ env.kind = wantKind := by
  unfold checkKind
  split_ifs with h
  · simp [h]
  · simpa using h

theorem checkCorrelation_eq_ok {env : BridgeEnvelope} :
    checkCorrelation ft env = .ok () ↔ (ft = frameBridgeNotify ↔ env.correlationID = []) := by
  unfold checkCorrelation
  split_ifs <;> simp_all

/-- **What the decoder accepts.** The payload is an envelope that satisfies the rules of the frame
type, then the optional label and the foreign message. -/
theorem validateBridgePayload_eq_ok {payload : Bytes} {f : BridgeFrame} :
    validateBridgePayload ft payload = .ok f ↔
      f.WellFormed ft ∧ payload = f.envelope.tlv.encode [] ++ labelled f.safety f.foreign
        ∧ (f.safety.isSome ∨ ¬ StartsWith tlvSafetyLabel f.foreign) := by
  unfold validateBridgePayload
  constructor
  · intro h
    split at h
    · cases h
    rename_i wantKind hwant
    obtain ⟨⟨env, rest⟩, henvelope, h⟩ := exists_of_bind_eq_ok h
    obtain ⟨_, hkind, h⟩ := exists_of_bind_eq_ok h
    obtain ⟨_, hcorr, h⟩ := exists_of_bind_eq_ok h
    obtain ⟨⟨safety, foreign⟩, hsafety, h⟩ := exists_of_bind_eq_ok h
    cases h
    obtain ⟨hfits, hpayload⟩ := encode_of_decodeEnvelope henvelope
    obtain ⟨hscope, hrest, hlabel⟩ := labelled_of_decodeSafety hsafety
    refine ⟨⟨?_, checkCorrelation_eq_ok.mp hcorr, hfits, hscope⟩, ?_, hlabel⟩
    · rw [hwant, checkKind_eq_ok.mp hkind]
    · rw [← hpayload, ← hrest]
  · rintro ⟨hf, rfl, hlabel⟩
    obtain ⟨env, safety, foreign⟩ := f
    have hsafety : decodeSafety (labelled safety foreign) = .ok (safety, foreign) := by
      cases safety with
      | none => exact decodeSafety_of_not_startsWith (hlabel.resolve_left Bool.false_ne_true)
      | some s => exact decodeSafety_encode (hf.scope s rfl) foreign
    have hkind : checkKind ft env.kind env = .ok () := checkKind_eq_ok.mpr rfl
    rw [hf.kind]
    dsimp only
    rw [decodeEnvelope_encode hf.envelope]
    simp only [bind, Except.bind, hkind, checkCorrelation_eq_ok.mpr hf.correlation, hsafety]
    rfl

/-- An accepted payload that starts with the TLV of `e` has the envelope `e`, and the rest is label
and message. -/
theorem eq_of_validateBridgePayload {e : BridgeEnvelope} (he : e.Fits) {rest : Bytes}
    {f : BridgeFrame} (h : validateBridgePayload ft (e.tlv.encode [] ++ rest) = .ok f) :
    f.envelope = e ∧ labelled f.safety f.foreign = rest
      ∧ (f.safety.isSome ∨ ¬ StartsWith tlvSafetyLabel f.foreign) := by
  obtain ⟨hf, hpayload, hlabel⟩ := validateBridgePayload_eq_ok.mp h
  have hread := decodeEnvelope_encode he rest
  rw [hpayload, decodeEnvelope_encode hf.envelope] at hread
  cases hread
  exact ⟨rfl, rfl, hlabel⟩

/-- **Bridge transparency.** A well-formed frame is decoded as it was encoded, with the same
envelope, label and foreign octets, exactly if it has a safety label or its foreign message does not
start like one. -/
theorem bridge_transparent {ft : FrameType} {f : BridgeFrame} (hf : f.WellFormed ft) :
    (encodeBridgeFrame f >>= decodeBridgeFrame ft) = .ok f
      ↔ f.safety.isSome ∨ ¬ StartsWith tlvSafetyLabel f.foreign := by
  rw [encodeBridgeFrame_eq hf.envelope hf.scope]
  exact validateBridgePayload_eq_ok.trans ⟨fun h => h.2.2, fun hlabel => ⟨hf, rfl, hlabel⟩⟩

def unlabelledRequest (foreign : Bytes) : BridgeFrame :=
  { envelope := { protocol := 0x0004, kind := bridgeKindRequest, contentType := bridgeContentCBOR
                  flags := 0, correlationID := [1], method := [] }
    safety := none
    foreign := foreign }

theorem wellFormed_unlabelledRequest (foreign : Bytes) :
    (unlabelledRequest foreign).WellFormed frameBridgeRequest where
  kind := rfl
  correlation := iff_of_false (by decide) (cons_ne_nil _ _)
  envelope := ⟨Nat.succ_le_succ (Nat.zero_le 254), Nat.zero_le 255⟩
  scope := by rintro s ⟨⟩

theorem bridge_transparent_request :
    (encodeBridgeFrame (unlabelledRequest [0x7b, 0x7d]) >>= decodeBridgeFrame frameBridgeRequest)
        = .ok (unlabelledRequest [0x7b, 0x7d])
      ∧ (unlabelledRequest [0x7b, 0x7d]).effectiveEffect = bridgeEffectDestructive :=
  ⟨(bridge_transparent (wellFormed_unlabelledRequest _)).mpr (Or.inr (by decide)), rfl⟩

/-- **A foreign message that starts like a label is taken for one.** The request was encoded without
a label, and is received as read-only with six octets of its message missing. -/
theorem foreign_octets_become_label :
    (unlabelledRequest [0, 0x13, 0, 2, 0, 0, 0x7b, 0x7d]).WellFormed frameBridgeRequest
      ∧ (encodeBridgeFrame (unlabelledRequest [0, 0x13, 0, 2, 0, 0, 0x7b, 0x7d])
            >>= decodeBridgeFrame frameBridgeRequest)
          = .ok { unlabelledRequest [0x7b, 0x7d] with
              safety := some { effect := bridgeEffectReadOnly, scope := [] } } :=
  ⟨wellFormed_unlabelledRequest _, by decide +kernel⟩

/-- **Canonical form.** An accepted payload is the encoding of the frame it decodes to, so distinct
accepted payloads decode to distinct frames, and decoding and encoding again relays the payload
unchanged. -/
theorem bridge_canonical (ft : FrameType) :
    (∀ p f, validateBridgePayload ft p = .ok f → encodeBridgeFrame f = .ok p)
      ∧ (∀ p p' f, validateBridgePayload ft p = .ok f → validateBridgePayload ft p' = .ok f → p = p')
      ∧ ∀ p f, validateBridgePayload ft p = .ok f →
          (decodeBridgeFrame ft p >>= encodeBridgeFrame) = .ok p := by
  have hencode : ∀ p f, validateBridgePayload ft p = .ok f → encodeBridgeFrame f = .ok p := by
    intro p f h
    obtain ⟨hf, rfl, -⟩ := validateBridgePayload_eq_ok.mp h
    exact encodeBridgeFrame_eq hf.envelope hf.scope
  refine ⟨hencode, ?_, ?_⟩
  · intro p p' f h h'
    exact Except.ok.inj ((hencode p f h).symm.trans (hencode p' f h'))
  · intro p f h
    rw [decodeBridgeFrame, h]
    exact hencode p f h

def labelledReply : Bytes :=
  [0x00, 0x10, 0x00, 0x09, 0x00, 0x01, 0x02, 0x01, 0xff, 0x01, 0x07, 0x01, 0x78,
    0x00, 0x13, 0x00, 0x03, 0x02, 0x01, 0x61, 0x00, 0x13, 0x00, 0x00]

theorem bridge_canonical_labelledReply :
    (decodeBridgeFrame frameBridgeResponse labelledReply >>= encodeBridgeFrame)
      = .ok labelledReply :=
  (bridge_canonical frameBridgeResponse).2.2 labelledReply
    { envelope := { protocol := 1, kind := 2, contentType := 1, flags := 0xff
                    correlationID := [7], method := [0x78] }
      safety := some { effect := 2, scope := [0x61] }
      foreign := [0x00, 0x13, 0x00, 0x00] } (by decide +kernel)

end Npamp
