import Npamp.Error
import Npamp.Lib.CborKeys
import Npamp.Lib.Utf8

/-!
# Deterministic CBOR in TypeScript

The decoder of `npamp_cbor.ts`. Integers are `bigint`, without a bound. A `string` is held as its
UTF-8 octets.
-/

namespace Npamp.TypeScript

open Cbor (Fault Dialect)

def cborMaxNestingDepth : Nat := 8

mutual

inductive CborValue where
  | bigint (v : Int)
  | buffer (b : Bytes)
  | string (octets : Bytes)
  | array (items : List CborValue)
  | map (entries : List CborEntry)
  | boolean (b : Bool)
  | null

inductive CborEntry where
  | mk (keyEnc : Bytes) (key val : CborValue)

end

inductive CborError where
  | cborError (message : String)
  | cborDepthExceededError (message : String)
  deriving DecidableEq, Repr

def thrown : Fault → CborError
  | .trailing => .cborError "npamp/cbor: trailing bytes after top-level item"
  | .truncated => .cborError "npamp/cbor: truncated input"
  | .notShortest => .cborError "npamp/cbor: integer/length not in shortest form"
  | .indefinite => .cborError "npamp/cbor: indefinite-length item (non-deterministic)"
  | .reserved => .cborError "npamp/cbor: unsupported major type or simple value"
  | .simple => .cborError "npamp/cbor: unsupported major type or simple value"
  | .tag => .cborError "npamp/cbor: unsupported major type or simple value"
  | .mapOrder =>
    .cborError "npamp/cbor: map keys not in canonical ascending order (or duplicate)"
  | .depth => .cborDepthExceededError
      "npamp/cbor: nesting depth exceeds limit (resource-exhaustion guard)"

def byteLess (a b : Bytes) : Bool := Cbor.lengthFirstLess a b

def dialect : Dialect CborError CborValue where
  fault := thrown
  uint arg := .bigint arg.toNat
  nint arg := .ok (.bigint (-1 - arg.toNat))
  bytes := .buffer
  text payload := .ok (.string (Utf8.lossy payload))
  array := .array
  map entries := .map (entries.map fun e => .mk e.octets e.key e.val)
  bool := .boolean
  null := .null
  less := byteLess

def decode (b : Bytes) (depth : Nat) : Except CborError (CborValue × Nat) :=
  dialect.decode (cborMaxNestingDepth + 1 - depth) b

def decodeTop (b : Bytes) : Except CborError CborValue :=
  match decode b 1 with
  | .error e => .error e
  | .ok (v, n) =>
    if n ≠ b.length then .error (.cborError "npamp/cbor: trailing bytes after top-level item")
    else .ok v

end Npamp.TypeScript
