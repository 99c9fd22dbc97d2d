import Npamp.Bridge

/-!
# Bridge payloads in Rust

The codec of `bridge.rs`. A failed assertion is the message it panics with.
-/

namespace Npamp.Rust

structure BridgeMalformed where
  message : String
  deriving DecidableEq, Repr

def BridgeMalformed.text (e : BridgeMalformed) : String :=
  "npamp/bridge: envelope_malformed: " ++ e.message

def kindForFrame (ft : UInt16) : Option UInt8 :=
  if ft = frameBridgeRequest then some 0x01
  else if ft = frameBridgeResponse then some 0x02
  else if ft = frameBridgeError then some 0x04
  else if ft = frameBridgeNotify then some 0x03
  else if ft = frameBridgeStreamData then some 0x05
  else if ft = frameBridgeStreamEnd then some 0x06
  else none

def encodeTlv (out : Bytes) (typ : UInt16) (value : Bytes) : Bytes :=
  out ++ putUint16 typ ++ putUint16 (UInt16.ofNat value.length) ++ value

def encodeEnvelopeValue (e : BridgeEnvelope) : Except String Bytes :=
  if e.correlationID.length > 255 then
    .error ("npamp/bridge: correlation_id " ++ toString e.correlationID.length
      ++ " octets exceeds u8 corr_len")
  else if e.method.length > 255 then
    .error ("npamp/bridge: method " ++ toString e.method.length
      ++ " octets exceeds u8 method_len")
  else
    .ok (putUint16 e.protocol ++ [e.kind] ++ [e.contentType] ++ [e.flags]
      ++ [UInt8.ofNat e.correlationID.length] ++ e.correlationID
      ++ [UInt8.ofNat e.method.length] ++ e.method)

def encodeSafetyValue (s : SafetyLabel) : Except String Bytes :=
  if s.scope.length > 255 then
    .error ("npamp/bridge: scope " ++ toString s.scope.length ++ " octets exceeds u8 scope_len")
  else .ok ([s.effect] ++ [UInt8.ofNat s.scope.length] ++ s.scope)

def encodeBridgeFrame (f : BridgeFrame) : Except String Bytes := do
  let out := encodeTlv [] tlvBridgeEnvelope (← encodeEnvelopeValue f.envelope)
  match f.safety with
  | none => return out ++ f.foreign
  | some s => return encodeTlv out tlvSafetyLabel (← encodeSafetyValue s) ++ f.foreign

def decodeEnvelopeValue (v : Bytes) : Except BridgeMalformed BridgeEnvelope :=
  if v.length < 6 then
    .error ⟨"envelope value truncated before corr_len (" ++ toString v.length ++ " < 6 octets)"⟩
  else
    let corrLen := (v.getD 5 0).toNat
    if v.length < 6 + corrLen + 1 then
      .error ⟨"envelope value truncated in correlation_id/method_len"⟩
    else
      let methodLen := (v.getD (6 + corrLen) 0).toNat
      let stop := 6 + corrLen + 1 + methodLen
      if v.length < stop then .error ⟨"envelope value truncated in method"⟩
      else if v.length ≠ stop then
        .error ⟨"envelope value has " ++ toString (v.length - stop) ++ " trailing octet(s)"⟩
      else
        .ok { protocol := uint16 (slice v 0 2)
              kind := v.getD 2 0
              contentType := v.getD 3 0
              flags := v.getD 4 0
              correlationID := slice v 6 (6 + corrLen)
              method := slice v (6 + corrLen + 1) stop }

def decodeSafetyValue (v : Bytes) : Except BridgeMalformed SafetyLabel :=
  if v.length < 2 then
    .error ⟨"SafetyLabel value truncated before scope_len (" ++ toString v.length
      ++ " < 2 octets)"⟩
  else
    let stop := 2 + (v.getD 1 0).toNat
    if v.length < stop then .error ⟨"SafetyLabel value truncated in scope"⟩
    else if v.length ≠ stop then
      .error ⟨"SafetyLabel value has " ++ toString (v.length - stop) ++ " trailing octet(s)"⟩
    else .ok { effect := v.getD 0 0, scope := slice v 2 stop }

def checkCorrelation (ft : UInt16) (env : BridgeEnvelope) : Except BridgeMalformed Unit :=
  if ft = frameBridgeNotify then
    if !env.correlationID.isEmpty then
      .error ⟨"BRIDGE_NOTIFY MUST set corr_len=0 (got " ++ toString env.correlationID.length
        ++ ", §5/§8)"⟩
    else .ok ()
  else if ft = frameBridgeRequest then
    if env.correlationID.isEmpty then
      .error ⟨"BRIDGE_REQUEST MUST carry a non-empty correlation_id (§5)"⟩
    else .ok ()
  else if env.correlationID.isEmpty then
    .error ⟨"a reply frame MUST echo the request's non-empty correlation_id (§5)"⟩
  else .ok ()

def takeSafety (env : BridgeEnvelope) (rest : Bytes) : Except BridgeMalformed BridgeFrame :=
  if rest.length ≥ 4 ∧ uint16 (slice rest 0 2) = tlvSafetyLabel then
    let sLen := (uint16 (slice rest 2 4)).toNat
    if rest.length < 4 + sLen then
      .error ⟨"SafetyLabel TLV length " ++ toString sLen ++ " exceeds remaining payload"⟩
    else do
      let s ← decodeSafetyValue (slice rest 4 (4 + sLen))
      return { envelope := env, safety := some s, foreign := rest.drop (4 + sLen) }
  else .ok { envelope := env, safety := none, foreign := rest }

def validateBridgePayload (ft : UInt16) (payload : Bytes) : Except BridgeMalformed BridgeFrame :=
  match kindForFrame ft with
  | none => .error ⟨"0x" ++ hexPadUpper 4 ft.toNat ++ " is not a Bridge frame type"⟩
  | some wantKind =>
    if payload.length < 4 then
      .error ⟨"payload too short for a BridgeEnvelope TLV (" ++ toString payload.length
        ++ " < 4 octets)"⟩
    else
      let envType := uint16 (slice payload 0 2)
      let envLen := (uint16 (slice payload 2 4)).toNat
      if envType ≠ tlvBridgeEnvelope then
        .error ⟨"first TLV type 0x" ++ hexPadUpper 4 envType.toNat
          ++ " is not BridgeEnvelope (0x0010)"⟩
      else if payload.length < 4 + envLen then
        .error ⟨"BridgeEnvelope TLV length " ++ toString envLen ++ " exceeds remaining payload"⟩
      else do
        let env ← decodeEnvelopeValue (slice payload 4 (4 + envLen))
        if env.kind ≠ wantKind then
          .error ⟨"message_kind 0x" ++ hexPadUpper 2 env.kind.toNat
            ++ " contradicts frame type 0x" ++ hexPadUpper 4 ft.toNat
            ++ " (expected kind 0x" ++ hexPadUpper 2 wantKind.toNat ++ ")"⟩
        else do
          checkCorrelation ft env
          takeSafety env (payload.drop (4 + envLen))

end Npamp.Rust
