import Npamp.Rust.Bridge
import Npamp.Proof.Bridge

/-!
# The two Bridge codecs

Go and Rust decode a Bridge payload to the same frame, or refuse it with the same text.
-/

namespace Npamp.Rust

open GoError

theorem mapError_bind {ε ε' α β : Type} (f : ε → ε') (x : Except ε α) (g : α → Except ε β) :
    (x >>= g).mapError f = x.mapError f >>= fun a => (g a).mapError f := by
  cases x <;> rfl

theorem toOption_mapError {ε ε' α : Type} (f : ε → ε') (x : Except ε α) :
    (x.mapError f).toOption = x.toOption := by
  cases x <;> rfl

theorem decodeEnvelopeValue_text (v : Bytes) : (Npamp.decodeEnvelopeValue v).mapError text
      = (decodeEnvelopeValue v).mapError BridgeMalformed.text := by
  unfold Npamp.decodeEnvelopeValue decodeEnvelopeValue
  dsimp only
  split_ifs <;> rfl

theorem decodeSafetyValue_text (v : Bytes) : (Npamp.decodeSafetyValue v).mapError text
      = (decodeSafetyValue v).mapError BridgeMalformed.text := by
  unfold Npamp.decodeSafetyValue decodeSafetyValue
  dsimp only
  split_ifs <;> rfl

theorem checkCorrelation_text (ft : UInt16) (env : BridgeEnvelope) :
    (Npamp.checkCorrelation ft env).mapError text
      = (checkCorrelation ft env).mapError BridgeMalformed.text := by
  unfold Npamp.checkCorrelation checkCorrelation
  cases env.correlationID with
  | nil => split_ifs <;> simp_all <;> rfl
  | cons a rest => split_ifs <;> simp_all <;> rfl

theorem lookup_cons_eq_ite {κ β : Type} [DecidableEq κ] (a k : κ) (v : β) (rest : List (κ × β)) :
    ((k, v) :: rest).lookup a = if a = k then some v else rest.lookup a := by
  by_cases h : a = k
  · rw [if_pos h, h, List.lookup_cons_self]
  · rw [if_neg h, List.lookup_cons, beq_false_of_ne h]

theorem kindForFrame_eq (ft : UInt16) : kindForFrame ft = bridgeKindForFrame ft := by
  unfold bridgeKindForFrame bridgeFrameKind
  simp only [lookup_cons_eq_ite, List.lookup_nil]
  rfl

theorem takeSafety_text (env : BridgeEnvelope) (rest : Bytes) : (decodeSafety rest >>= fun r =>
        return { envelope := env, safety := r.1, foreign := r.2 : BridgeFrame }).mapError
          text
      = (takeSafety env rest).mapError BridgeMalformed.text := by
  unfold decodeSafety takeSafety tlvHeader
  dsimp only
  by_cases hlabel : rest.length ≥ 4 ∧ uint16 (slice rest 0 2) = tlvSafetyLabel
  · rw [if_pos hlabel, if_pos hlabel]
    by_cases hlength : rest.length < 4 + (uint16 (slice rest 2 4)).toNat
    · rw [if_pos hlength, if_pos hlength]
      rfl
    · rw [if_neg hlength, if_neg hlength, mapError_bind, mapError_bind, mapError_bind,
        decodeSafetyValue_text]
      cases decodeSafetyValue (slice rest 4 (4 + (uint16 (slice rest 2 4)).toNat)) <;> rfl
  · rw [if_neg hlabel, if_neg hlabel]
    rfl

/-- **Go and Rust decode a Bridge payload alike**, down to the text of the fault. -/
theorem validateBridgePayload_text (ft : UInt16) (payload : Bytes) :
    (Npamp.validateBridgePayload ft payload).mapError text
      = (validateBridgePayload ft payload).mapError BridgeMalformed.text := by
  unfold Npamp.validateBridgePayload validateBridgePayload
  rw [kindForFrame_eq]
  cases bridgeKindForFrame ft with
  | none => rfl
  | some wantKind =>
    unfold decodeEnvelope tlvHeader
    dsimp only
    by_cases hshort : payload.length < 4
    · rw [if_pos hshort, if_pos hshort]
      rfl
    rw [if_neg hshort, if_neg hshort]
    by_cases htype : uint16 (slice payload 0 2) ≠ tlvBridgeEnvelope
    · rw [if_pos htype, if_pos htype]
      rfl
    rw [if_neg htype, if_neg htype]
    by_cases hlength : payload.length < 4 + (uint16 (slice payload 2 4)).toNat
    · rw [if_pos hlength, if_pos hlength]
      rfl
    rw [if_neg hlength, if_neg hlength, mapError_bind, mapError_bind, mapError_bind,
      decodeEnvelopeValue_text]
    cases decodeEnvelopeValue (slice payload 4 (4 + (uint16 (slice payload 2 4)).toNat)) with
    | error e => rfl
    | ok env =>
      change Except.mapError text (checkKind ft wantKind env >>= _) = _
      unfold checkKind
      change _ = Except.mapError BridgeMalformed.text (if env.kind ≠ wantKind then _ else _)
      by_cases hkind : env.kind ≠ wantKind
      · rw [if_pos hkind, if_pos hkind]
        rfl
      rw [if_neg hkind, if_neg hkind]
      change Except.mapError text (Npamp.checkCorrelation ft env >>= _) = _
      rw [mapError_bind, checkCorrelation_text]
      cases checkCorrelation ft env with
      | error e => rfl
      | ok _ => exact takeSafety_text env _

theorem encodeEnvelopeValue_text (e : BridgeEnvelope) :
    (Npamp.encodeEnvelopeValue e).mapError text = encodeEnvelopeValue e := by
  unfold Npamp.encodeEnvelopeValue encodeEnvelopeValue
  split_ifs
  · rfl
  · rfl
  · simp [Except.mapError]

theorem encodeSafetyValue_text (s : SafetyLabel) :
    (Npamp.encodeSafetyValue s).mapError text = encodeSafetyValue s := by
  unfold Npamp.encodeSafetyValue encodeSafetyValue
  split_ifs <;> rfl

theorem encodeTlv_eq (out : Bytes) (typ : UInt16) (value : Bytes) :
    encodeTlv out typ value = TLV.encode { type := typ, value := value } out := by
  simp only [encodeTlv, TLV.encode, List.append_assoc]

/-- **Go and Rust encode a Bridge frame alike**, and panic with the same text. -/
theorem encodeBridgeFrame_text (f : BridgeFrame) :
    (Npamp.encodeBridgeFrame f).mapError text = encodeBridgeFrame f := by
  unfold Npamp.encodeBridgeFrame encodeBridgeFrame
  rw [mapError_bind, encodeEnvelopeValue_text]
  refine bind_congr fun envelope => ?_
  cases f.safety with
  | none => simp only [encodeTlv_eq]; rfl
  | some s =>
    simp only [encodeTlv_eq]
    rw [mapError_bind, encodeSafetyValue_text]
    rfl

/-- **The Go and Rust Bridge codecs agree.** Every payload is accepted by both, as the same frame,
or by neither, and frames that fit are written as the same octets. -/
theorem go_rust_bridge_agree : (∀ ft payload, (Npamp.validateBridgePayload ft payload).toOption
        = (validateBridgePayload ft payload).toOption)
      ∧ ∀ f : BridgeFrame, f.envelope.correlationID.length ≤ 255 →
          f.envelope.method.length ≤ 255 → (∀ s ∈ f.safety, s.scope.length ≤ 255) →
            ∃ octets, Npamp.encodeBridgeFrame f = .ok octets
              ∧ encodeBridgeFrame f = .ok octets := by
  refine ⟨fun ft payload => ?_, fun f hcorr hmethod hscope => ?_⟩
  · rw [← toOption_mapError GoError.text, validateBridgePayload_text, toOption_mapError]
  have hgo := encodeBridgeFrame_eq (f := f) ⟨hcorr, hmethod⟩ hscope
  refine ⟨_, hgo, ?_⟩
  rw [← encodeBridgeFrame_text, hgo]
  rfl

theorem go_rust_bridge_agree_labelled : ∃ octets, Npamp.encodeBridgeFrame
        { envelope := { protocol := 1, kind := 0x01, contentType := 0x01, flags := 0
                        correlationID := [1, 2], method := [0x61] }
          safety := some { effect := 2, scope := [0x66, 0x73] }, foreign := [0x7b, 0x7d] }
          = .ok octets
      ∧ encodeBridgeFrame
        { envelope := { protocol := 1, kind := 0x01, contentType := 0x01, flags := 0
                        correlationID := [1, 2], method := [0x61] }
          safety := some { effect := 2, scope := [0x66, 0x73] }, foreign := [0x7b, 0x7d] }
          = .ok octets :=
  go_rust_bridge_agree.2 _ (by decide) (by decide) (by simp)

/-- A hop that decodes a Bridge frame and encodes it again, in Rust or in Go. -/
def bridgeHop (ft : FrameType) (payload : Bytes) (rust : Bool) : Option Bytes :=
  if rust then (validateBridgePayload ft payload).toOption.bind fun f =>
    (encodeBridgeFrame f).toOption
  else (Npamp.validateBridgePayload ft payload).toOption.bind fun f =>
    (Npamp.encodeBridgeFrame f).toOption

theorem bridgeHop_eq (ft : FrameType) (payload : Bytes) (rust : Bool) :
    bridgeHop ft payload rust
      = if (Npamp.validateBridgePayload ft payload).isOk then some payload else none := by
  have hencode (f : BridgeFrame) :
      (encodeBridgeFrame f).toOption = (Npamp.encodeBridgeFrame f).toOption := by
    rw [← encodeBridgeFrame_text, toOption_mapError]
  have hvalidate : (validateBridgePayload ft payload).toOption
      = (Npamp.validateBridgePayload ft payload).toOption := by
    rw [← toOption_mapError BridgeMalformed.text, ← validateBridgePayload_text, toOption_mapError]
  simp only [bridgeHop, hencode, hvalidate, ite_self]
  cases h : Npamp.validateBridgePayload ft payload with
  | error e => rfl
  | ok f =>
    obtain ⟨hf, rfl, -⟩ := validateBridgePayload_eq_ok.mp h
    exact congrArg Except.toOption (encodeBridgeFrame_eq hf.envelope hf.scope)

/-- **Chains of Go and Rust hops**, in any number and order, pass on the payloads that Go accepts
octet for octet, and no others. -/
theorem bridge_hops (ft : FrameType) (payload : Bytes) (hops : List Bool) :
    hops.foldlM (bridgeHop ft) payload
      = if hops = [] ∨ (Npamp.validateBridgePayload ft payload).isOk then some payload
        else none := by
  induction hops with
  | nil => rfl
  | cons rust hops ih =>
    rw [List.foldlM_cons, bridgeHop_eq]
    split <;> rename_i h <;> simp [h, ih]

end Npamp.Rust
