import Npamp.Proxy.Calls

/-!
# JSON-RPC objects

`carriage_jsonrpc.go`. The octets of an object are carried as they are; `encoding/json` is a
parameter.
-/

namespace Npamp

structure JSONRPCError where
  code : Int
  message : Bytes
  data : Option Bytes
  deriving DecidableEq, Repr

/-- `encoding/json`, with the Go values `V` it is given. -/
structure JsonCodec (V : Type) where
  /-- `json.Unmarshal` into a `map[string]json.RawMessage` -/
  object : Bytes → Except String (String → Option Bytes)
  string : Bytes → Except String Bytes
  rpcError : Bytes → Except String JSONRPCError
  ofString : Bytes → V
  ofUint64 : UInt64 → V
  marshal : List (String × V) → Except String Bytes

variable {V : Type} (J : JsonCodec V)

structure JSONRPCParsed where
  raw : Bytes
  method : Bytes
  hasMethod : Bool
  id : Option Bytes
  result : Option Bytes
  error : Option Bytes

def jsonrpcVersion : Bytes := [0x32, 0x2e, 0x30]

def parseJSONRPCObject (raw : Bytes) : Except GoError JSONRPCParsed :=
  match J.object raw with
  | .error e => .error (errJSONRPCMalformed ("not a JSON object: " ++ e))
  | .ok fields =>
    match fields "jsonrpc" with
    | none => .error (errJSONRPCMalformed "missing REQUIRED jsonrpc member")
    | some verRaw =>
      if J.string verRaw ≠ .ok jsonrpcVersion then
        .error (errJSONRPCMalformed "jsonrpc member is not the string \"2.0\"")
      else
        let p (hasMethod : Bool) (method : Bytes) : JSONRPCParsed :=
          { raw := raw, method := method, hasMethod := hasMethod, id := fields "id"
            result := fields "result", error := fields "error" }
        match fields "method" with
        | none => .ok (p false [])
        | some methodRaw =>
          match J.string methodRaw with
          | .error _ => .error (errJSONRPCMalformed "method member is not a string")
          | .ok method => .ok (p true method)

def jsonrpcObject (method : Bytes) (params : Option V) (id : Option V) : List (String × V) :=
  [("jsonrpc", J.ofString jsonrpcVersion), ("method", J.ofString method)]
    ++ (id.map ("id", ·)).toList ++ (params.map ("params", ·)).toList

/-- `random` is what `newCorrelationID` draws for a Null id. -/
def encodeJSONRPCRequest (random : Vector UInt8 16) (method : Bytes) (params : Option V) (id : V) :
    Except GoError (Bytes × Bytes) :=
  match J.marshal (jsonrpcObject J method params (some id)) with
  | .error e => .error (errorf ("npamp/proxy: encode JSON-RPC request: " ++ e))
  | .ok wire =>
    match parseJSONRPCObject J wire with
    | .error e => .error e
    | .ok parsed =>
      match jsonrpcCorrelationID random (parsed.id.getD []) with
      | .error e => .error e
      | .ok corrID => .ok (wire, corrID)

def encodeJSONRPCNotification (method : Bytes) (params : Option V) : Except GoError Bytes :=
  match J.marshal (jsonrpcObject J method params none) with
  | .error e => .error (errorf ("npamp/proxy: encode JSON-RPC notification: " ++ e))
  | .ok wire => .ok wire

def jsonrpcEnvelope (protocol : BridgeProtocol) (kind : BridgeMessageKind) (corrID method : Bytes) :
    BridgeEnvelope :=
  { protocol := protocol, kind := kind, contentType := bridgeContentJSON, flags := 0
    correlationID := corrID, method := method }

end Npamp
