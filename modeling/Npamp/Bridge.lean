import Npamp.Tlv

/-!
# Bridge payloads

`bridge.go`, `bridge_bodies.go` and `bridge_api.go`. Where the encoders panic, the error here is the
one they panic with.
-/

namespace Npamp

open Sentinel

def frameBridgeRequest : FrameType := 0x0100
def frameBridgeResponse : FrameType := 0x0101
def frameBridgeError : FrameType := 0x0102
def frameBridgeNotify : FrameType := 0x0103
def frameBridgeStreamData : FrameType := 0x0104
def frameBridgeStreamEnd : FrameType := 0x0105

def tlvBridgeEnvelope : TLVType := 0x0010
def tlvSafetyLabel : TLVType := 0x0013

abbrev BridgeProtocol := UInt16

abbrev BridgeMessageKind := UInt8

def bridgeKindRequest : BridgeMessageKind := 0x01
def bridgeKindResponse : BridgeMessageKind := 0x02
def bridgeKindNotification : BridgeMessageKind := 0x03
def bridgeKindError : BridgeMessageKind := 0x04
def bridgeKindStreamData : BridgeMessageKind := 0x05
def bridgeKindStreamEnd : BridgeMessageKind := 0x06

abbrev BridgeContentType := UInt8

def bridgeContentJSON : BridgeContentType := 0x01
def bridgeContentCBOR : BridgeContentType := 0x02
def bridgeContentGRPCProto : BridgeContentType := 0x03

abbrev BridgeEffect := UInt8

def bridgeEffectReadOnly : BridgeEffect := 0x00
def bridgeEffectDestructive : BridgeEffect := 0x03

def bridgeFrameKind : List (FrameType × BridgeMessageKind) :=
  [(frameBridgeRequest, bridgeKindRequest), (frameBridgeResponse, bridgeKindResponse),
   (frameBridgeError, bridgeKindError), (frameBridgeNotify, bridgeKindNotification),
   (frameBridgeStreamData, bridgeKindStreamData), (frameBridgeStreamEnd, bridgeKindStreamEnd)]

def bridgeKindForFrame (ft : FrameType) : Option BridgeMessageKind := bridgeFrameKind.lookup ft

structure BridgeEnvelope where
  protocol : BridgeProtocol
  kind : BridgeMessageKind
  contentType : BridgeContentType
  flags : UInt8
  correlationID : Bytes
  method : Bytes
  deriving DecidableEq, Repr

structure SafetyLabel where
  effect : BridgeEffect
  scope : Bytes
  deriving DecidableEq, Repr

structure BridgeFrame where
  envelope : BridgeEnvelope
  safety : Option SafetyLabel
  foreign : Bytes
  deriving DecidableEq, Repr

/-- `EffectiveEffect`: an absent label counts as destructive. -/
def BridgeFrame.effectiveEffect (f : BridgeFrame) : BridgeEffect :=
  match f.safety with
  | none => bridgeEffectDestructive
  | some s => s.effect

def encodeEnvelopeValue (e : BridgeEnvelope) : Except GoError Bytes :=
  if e.correlationID.length > 255 then
    .error (errorf ("npamp/bridge: correlation_id " ++ toString e.correlationID.length
      ++ " octets exceeds u8 corr_len"))
  else if e.method.length > 255 then
    .error (errorf ("npamp/bridge: method " ++ toString e.method.length
      ++ " octets exceeds u8 method_len"))
  else
    .ok (putUint16 e.protocol
      ++ [e.kind, e.contentType, e.flags, UInt8.ofNat e.correlationID.length]
      ++ e.correlationID ++ [UInt8.ofNat e.method.length] ++ e.method)

def encodeSafetyValue (s : SafetyLabel) : Except GoError Bytes :=
  if s.scope.length > 255 then
    .error (errorf ("npamp/bridge: scope " ++ toString s.scope.length
      ++ " octets exceeds u8 scope_len"))
  else .ok ([s.effect, UInt8.ofNat s.scope.length] ++ s.scope)

def encodeBridgeFrame (f : BridgeFrame) : Except GoError Bytes := do
  let envelope ← encodeEnvelopeValue f.envelope
  let out := TLV.encode { type := tlvBridgeEnvelope, value := envelope } []
  match f.safety with
  | none => return out ++ f.foreign
  | some s => do
      let label ← encodeSafetyValue s
      return TLV.encode { type := tlvSafetyLabel, value := label } out ++ f.foreign

def encodeBridgePayload (env : BridgeEnvelope) (safety : Option SafetyLabel) (foreign : Bytes) :
    Except GoError Bytes :=
  encodeBridgeFrame { envelope := env, safety := safety, foreign := foreign }

def decodeEnvelopeValue (v : Bytes) : Except GoError BridgeEnvelope :=
  let corrLen := (v.getD 5 0).toNat
  let methodLen := (v.getD (6 + corrLen) 0).toNat
  let stop := 6 + corrLen + 1 + methodLen
  if v.length < 6 then
    .error (errBridgeMalformed.errorf
      ("envelope value truncated before corr_len (" ++ toString v.length ++ " < 6 octets)"))
  else if v.length < 6 + corrLen + 1 then
    .error (errBridgeMalformed.errorf
      "envelope value truncated in correlation_id/method_len")
  else if v.length < stop then
    .error (errBridgeMalformed.errorf "envelope value truncated in method")
  else if v.length ≠ stop then
    .error (errBridgeMalformed.errorf
      ("envelope value has " ++ toString (v.length - stop) ++ " trailing octet(s)"))
  else
    .ok { protocol := uint16 (slice v 0 2)
          kind := v.getD 2 0
          contentType := v.getD 3 0
          flags := v.getD 4 0
          correlationID := slice v 6 (6 + corrLen)
          method := slice v (6 + corrLen + 1) stop }

def decodeSafetyValue (v : Bytes) : Except GoError SafetyLabel :=
  let stop := 2 + (v.getD 1 0).toNat
  if v.length < 2 then
    .error (errBridgeMalformed.errorf
      ("SafetyLabel value truncated before scope_len (" ++ toString v.length ++ " < 2 octets)"))
  else if v.length < stop then
    .error (errBridgeMalformed.errorf "SafetyLabel value truncated in scope")
  else if v.length ≠ stop then
    .error (errBridgeMalformed.errorf
      ("SafetyLabel value has " ++ toString (v.length - stop) ++ " trailing octet(s)"))
  else .ok { effect := v.getD 0 0, scope := slice v 2 stop }

def checkCorrelation (ft : FrameType) (env : BridgeEnvelope) : Except GoError Unit :=
  if ft = frameBridgeNotify then
    if env.correlationID.length ≠ 0 then
      .error (errBridgeMalformed.errorf
        ("BRIDGE_NOTIFY MUST set corr_len=0 (got " ++ toString env.correlationID.length
          ++ ", §5/§8)"))
    else .ok ()
  else if env.correlationID.length = 0 then
    .error (errBridgeMalformed.errorf
      (if ft = frameBridgeRequest then
        "BRIDGE_REQUEST MUST carry a non-empty correlation_id (§5)"
      else "a reply frame MUST echo the request's non-empty correlation_id (§5)"))
  else .ok ()

def decodeEnvelope (payload : Bytes) : Except GoError (BridgeEnvelope × Bytes) :=
  let (envType, envLen) := tlvHeader payload
  if payload.length < 4 then
    .error (errBridgeMalformed.errorf
      ("payload too short for a BridgeEnvelope TLV (" ++ toString payload.length
        ++ " < 4 octets)"))
  else if envType ≠ tlvBridgeEnvelope then
    .error (errBridgeMalformed.errorf
      ("first TLV type 0x" ++ hexPadUpper 4 envType.toNat ++ " is not BridgeEnvelope (0x0010)"))
  else if payload.length < 4 + envLen then
    .error (errBridgeMalformed.errorf
      ("BridgeEnvelope TLV length " ++ toString envLen ++ " exceeds remaining payload"))
  else do
    let env ← decodeEnvelopeValue (slice payload 4 (4 + envLen))
    return (env, payload.drop (4 + envLen))

/-- The optional second TLV, taken whenever the octets behind the envelope start with its type. -/
def decodeSafety (rest : Bytes) : Except GoError (Option SafetyLabel × Bytes) :=
  let (type, sLen) := tlvHeader rest
  if rest.length ≥ 4 ∧ type = tlvSafetyLabel then
    if rest.length < 4 + sLen then
      .error (errBridgeMalformed.errorf
        ("SafetyLabel TLV length " ++ toString sLen ++ " exceeds remaining payload"))
    else do
      let s ← decodeSafetyValue (slice rest 4 (4 + sLen))
      return (some s, rest.drop (4 + sLen))
  else .ok (none, rest)

def checkKind (ft : FrameType) (wantKind : BridgeMessageKind) (env : BridgeEnvelope) :
    Except GoError Unit :=
  if env.kind ≠ wantKind then
    .error (errBridgeMalformed.errorf
      ("message_kind 0x" ++ hexPadUpper 2 env.kind.toNat ++ " contradicts frame type 0x"
        ++ hexPadUpper 4 ft.toNat ++ " (expected kind 0x" ++ hexPadUpper 2 wantKind.toNat ++ ")"))
  else .ok ()

def validateBridgePayload (ft : FrameType) (payload : Bytes) : Except GoError BridgeFrame :=
  match bridgeKindForFrame ft with
  | none =>
    .error (errBridgeMalformed.errorf
      ("0x" ++ hexPadUpper 4 ft.toNat ++ " is not a Bridge frame type"))
  | some wantKind => do
      let (env, rest) ← decodeEnvelope payload
      checkKind ft wantKind env
      checkCorrelation ft env
      let (safety, foreign) ← decodeSafety rest
      return { envelope := env, safety := safety, foreign := foreign }

def decodeBridgeFrame (ft : FrameType) (payload : Bytes) : Except GoError BridgeFrame :=
  validateBridgePayload ft payload

end Npamp
