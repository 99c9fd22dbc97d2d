import Npamp.Proxy.Http
import Npamp.Proxy.JsonRpc
import Npamp.Proxy.Opaque

/-!
# The ingress calls up to `Conn.Send`

The calls register a waiter and then encode the envelope of their request, which panics on a
correlation_id or a method over 255 octets.
-/

namespace Npamp

def bridgeProtoHTTP2 : BridgeProtocol := 0x0003

def grpcProtocolID : BridgeProtocol := 0x05

def encodeGRPCLengthPrefixedMessage (compressed : Bool) (msg : Bytes) : Bytes :=
  (if compressed then 1 else 0) :: putUint32 (UInt32.ofNat msg.length) ++ msg

inductive IngressRequest (V : Type) where
  /-- the method, the path and the raw query of the URL, the header, and the body as it is read -/
  | serveHTTP (method path rawQuery : Bytes) (header : List (Bytes × List Bytes))
      (body : Except String Bytes)
  | callJSONRPC (protocol : BridgeProtocol) (method : Bytes) (params : Option V) (id : V)
      (quoted : String)
  | sendJSONRPCNotification (protocol : BridgeProtocol) (method : Bytes) (params : Option V)
  | callGRPCUnary (method req : Bytes)
  | callWebSocketMessage (msg : Bytes)
  | callOpaque (protocol : BridgeProtocol) (mediaType raw : Bytes)

inductive Prepared where
  | returns
  | registers (kind : CallKind) (env : BridgeEnvelope) (foreign : Bytes)
  | encodes (env : BridgeEnvelope) (foreign : Bytes)
  | enters (kind : CallKind) (env : BridgeEnvelope)

def requestTarget (path rawQuery : Bytes) : Bytes :=
  if rawQuery ≠ [] then path ++ ascii "?" ++ rawQuery else path

def httpMethod (method path rawQuery : Bytes) : Bytes :=
  method ++ ascii " " ++ requestTarget path rawQuery

def streamOpenEnvelope (protocol : BridgeProtocol) (contentType : BridgeContentType)
    (corrID method : Bytes) : BridgeEnvelope :=
  { protocol := protocol, kind := bridgeKindRequest, contentType := contentType, flags := 0
    correlationID := corrID, method := method }

variable {V : Type} (J : JsonCodec V) (quote : Bytes → String)

def requestToken (wire : Bytes) : Bytes :=
  ((parseJSONRPCObject J wire).toOption.bind JSONRPCParsed.id).getD []

/-- An entry point up to its use of the mutex or of the encoder; `random` is what
`newCorrelationID` draws. -/
def IngressRequest.prepare (random : Vector UInt8 16) : IngressRequest V → Prepared
  | .serveHTTP method path rawQuery header body =>
    match body with
    | .error _ => .returns
    | .ok body =>
      .registers .serveHTTP
        { protocol := bridgeProtoHTTP2, kind := bridgeKindRequest
          contentType := bridgeContentCBOR, flags := 0, correlationID := random.toList
          method := httpMethod method path rawQuery }
        (encodeHTTPCarriageRequest method (requestTarget path rawQuery) header body)
  | .callJSONRPC protocol method params id quoted =>
    match encodeJSONRPCRequest J random method params id with
    | .error _ => .returns
    | .ok (wire, corrID) =>
      .registers (.callJSONRPC (requestToken J wire) quoted)
        (jsonrpcEnvelope protocol bridgeKindRequest corrID method) wire
  | .sendJSONRPCNotification protocol method params =>
    match encodeJSONRPCNotification J method params with
    | .error _ => .returns
    | .ok wire => .encodes (jsonrpcEnvelope protocol bridgeKindNotification [] method) wire
  | .callGRPCUnary method req =>
    .registers .openConsumerStream
      (streamOpenEnvelope grpcProtocolID bridgeContentGRPCProto random.toList method)
      (encodeGRPCLengthPrefixedMessage false req)
  | .callWebSocketMessage msg =>
    .registers .openConsumerStream
      (streamOpenEnvelope bridgeProtoWebSocket bridgeContentCBOR random.toList []) msg
  | .callOpaque protocol mediaType raw =>
    if protocol = 0 then .returns
    else
      let env : BridgeEnvelope :=
        { protocol := protocol, kind := bridgeKindRequest, contentType := 0, flags := 0
          correlationID := random.toList, method := [] }
      -- the payload is encoded before the call registers
      match encodeOpaquePayload quote env mediaType raw with
      | .error _ => .returns
      | .ok _ => .enters .callOpaque
          { env with contentType :=
              (mediaTypeToContentType mediaType).getD opaqueContentTypeDiscriminator }

structure Ingress where
  connected : Bool
  calls : Calls
  /-- the envelope and the message of a call that has registered and not yet encoded -/
  preparing : Nat → Option (BridgeEnvelope × Bytes)
  /-- the envelopes handed to `encodeEnvelopeValue` -/
  handed : List BridgeEnvelope
  aborted : List Nat

def Ingress.start (connected : Bool) : Ingress :=
  { connected := connected, calls := Calls.start, preparing := fun _ => none, handed := []
    aborted := [] }

def CallPhase.isSending : CallPhase → Bool
  | .sending => true
  | _ => false

def Ingress.register (s : Ingress) (kind : CallKind) (random : Vector UInt8 16)
    (env : BridgeEnvelope) (foreign : Bytes) : Ingress :=
  let calls := s.calls.call kind random
  if (calls.calls[s.calls.calls.length]?).any fun c => c.phase.isSending then
    { s with calls := calls
             preparing := Function.update s.preparing s.calls.calls.length (some (env, foreign)) }
  else { s with calls := calls }

def Ingress.begin (s : Ingress) (req : IngressRequest V) (random : Vector UInt8 16) : Ingress :=
  if s.connected = false then s
  else
    match req.prepare J quote random with
    | .returns => s
    | .registers kind env foreign => s.register kind random env foreign
    | .encodes env _ => { s with handed := s.handed ++ [env] }
    | .enters kind env =>
      { s with handed := s.handed ++ [env], calls := s.calls.call kind random }

/-- `EncodeBridgePayload` of a registered call returns, or panics. -/
def Ingress.encode (s : Ingress) (i : Nat) : Option Ingress :=
  match s.preparing i with
  | none => none
  | some (env, foreign) =>
    let s' : Ingress :=
      { s with handed := s.handed ++ [env], preparing := Function.update s.preparing i none }
    match encodeBridgePayload env none foreign with
    | .ok _ => some s'
    | .error _ => some { s' with aborted := i :: s.aborted }

/-- What the calls do from `Conn.Send` on, and the receive loop. -/
def Ingress.proceed (s : Ingress) : CallAction → Option Ingress
  | .call _ _ => none
  | .sent i err =>
    if (s.preparing i).isSome ∨ i ∈ s.aborted then none
    else (s.calls.step (.sent i err)).map fun calls => { s with calls := calls }
  | a => (s.calls.step a).map fun calls => { s with calls := calls }

inductive IngressAction (V : Type) where
  | begin (req : IngressRequest V) (random : Vector UInt8 16)
  | encode (i : Nat)
  | proceed (a : CallAction)

def Ingress.step (s : Ingress) : IngressAction V → Option Ingress
  | .begin req random => some (s.begin J quote req random)
  | .encode i => s.encode i
  | .proceed a => s.proceed a

def BridgeEnvelope.Short (env : BridgeEnvelope) : Prop :=
  env.correlationID.length ≤ 255 ∧ env.method.length ≤ 255

def Calls.Forgotten (s : Calls) (i : Nat) : Prop :=
  ∀ key, s.pending key ≠ some i ∧ s.streamPending key ≠ some i

/-- **No panic and no orphan waiter.** -/
structure Ingress.Safe (s : Ingress) : Prop where
  envelopes : ∀ env ∈ s.handed, env.Short
  noPanic : s.aborted = []
  noOrphan : ∀ (i : Nat) (c : BridgeCall), s.calls.calls[i]? = some c →
    c.phase.live = false ∨ i ∈ s.aborted → s.calls.Forgotten i

def IngressRequest.methodField : IngressRequest V → Bytes
  | .serveHTTP method path rawQuery _ _ => httpMethod method path rawQuery
  | .callJSONRPC _ method _ _ _ => method
  | .sendJSONRPCNotification _ method _ => method
  | .callGRPCUnary method _ => method
  | .callWebSocketMessage _ => []
  | .callOpaque _ _ _ => []

/-- **Methods that fit**: the method field asked for has at most 255 octets. -/
def Ingress.Fits (_ : Ingress) : IngressAction V → Prop
  | .begin req _ => req.methodField.length ≤ 255
  | _ => True

instance (s : Ingress) : (a : IngressAction V) → Decidable (s.Fits a)
  | .begin req _ => inferInstanceAs (Decidable (req.methodField.length ≤ 255))
  | .encode _ | .proceed _ => inferInstanceAs (Decidable True)

end Npamp
