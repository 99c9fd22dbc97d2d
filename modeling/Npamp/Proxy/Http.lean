import Npamp.HttpCarriage
import Npamp.Memory
import Npamp.Proxy.Stream

/-!
# HTTP-Carriage Objects in Go

`carriage_http.go`. An `http.Header` is the list of its names, each with its values; the codec sorts
it by name.
-/

namespace Npamp

def toLowerASCII (s : Bytes) : Bytes := s.map lowerOctet

def encodeHTTPHeaders (h : List (Bytes × List Bytes)) : List (HeaderKV Bytes) :=
  (h.insertionSort fun a b => byteLess b.1 a.1 = false).flatMap fun e =>
    e.2.map fun v => ⟨toLowerASCII e.1, v⟩

def headersToCBOR (hdrs : List (HeaderKV Bytes)) : List CborValue :=
  hdrs.map fun kv => .array [.string kv.name, .bytes kv.value]

def headersAndBody (h : List (Bytes × List Bytes)) (body : Bytes) : List CborPair :=
  let hdrs := encodeHTTPHeaders h
  (if hdrs.length > 0 then [.mk 8 (.array (headersToCBOR hdrs))] else [])
    ++ (if body.length > 0 then [.mk 9 (.bytes body)] else [])

def encodeHTTPCarriageRequest (method target : Bytes) (h : List (Bytes × List Bytes))
    (body : Bytes) : Bytes :=
  encodeCanonicalCBOR (.mapU ([.mk 1 (.uint64 httpKindRequest), .mk 2 (.string method),
    .mk 3 (.string target)] ++ headersAndBody h body))

def errCarriageMalformed (reason : String) : GoError :=
  errorf ("npamp/proxy: HTTP-Carriage Object malformed: " ++ reason)

def goReceiver : Receiver CborValue Bytes GoError where
  uint
    | .uint64 v => some v
    | _ => none
  text
    | .string s => some s
    | _ => none
  bytes
    | .bytes b => some b
    | _ => none
  array
    | .array items => some items
    | _ => none
  octets s := s
  malformed := errCarriageMalformed
  quote name := "\"" ++ goString name ++ "\""

def mapUGet (m : List CborPair) (key : UInt64) : Option CborValue :=
  (m.find? fun p => p.key = key).map CborPair.val

def decodeHTTPCarriageObject (foreign : Bytes) (wantKind : UInt64) :
    Except GoError (HttpCarriageObject Bytes) :=
  match decodeCanonicalCBOR foreign with
  | .error e => .error (errCarriageMalformed ("not valid deterministic CBOR: " ++ e.text))
  | .ok (.mapU m) => goReceiver.decodeObject (mapUGet m) wantKind
  | .ok _ => .error (errCarriageMalformed "top-level item is not a map")

end Npamp
