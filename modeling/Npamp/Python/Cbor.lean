import Npamp.Error
import Npamp.Lib.CborKeys
import Npamp.Lib.Utf8

/-!
# Deterministic CBOR in Python

The decoder of `native_bodies.py`. A `str` is held as the octets it encodes to with the
`surrogatepass` handler, which is also the handler it is decoded with.
-/

namespace Npamp.Python

open Cbor (Fault Dialect)

def cborMaxNestingDepth : Nat := 8

/-- A Python `str`, by its UTF-8 octets with surrogates let through. -/
structure Str where
  octets : Bytes
  utf8 : Utf8.valid true octets = true

mutual

inductive CborValue where
  | int (v : Int)
  | bytes (b : Bytes)
  | str (s : Str)
  | list (items : List CborValue)
  | map (entries : List CborEntry)
  | bool (b : Bool)
  | none

inductive CborEntry where
  | mk (key val : CborValue)

end

inductive Exception where
  | cborError (message : String)
  | cborDepthExceededError (message : String)
  | unicodeDecodeError
  deriving DecidableEq, Repr

def Exception.isCborError : Exception → Bool
  | cborError _ => true
  | cborDepthExceededError _ => true
  | unicodeDecodeError => false

def raised : Fault → Exception
  | .trailing => .cborError "trailing bytes after top-level item"
  | .truncated => .cborError "truncated input"
  | .notShortest => .cborError "integer/length not in shortest form"
  | .indefinite => .cborError "indefinite-length item (non-deterministic)"
  | .reserved => .cborError "unsupported additional information (reserved)"
  | .simple => .cborError "unsupported simple value or float (non-deterministic)"
  | .tag => .cborError "unsupported major type (tag)"
  | .mapOrder => .cborError "map keys not in canonical ascending order (or duplicate)"
  | .depth =>
    .cborDepthExceededError "nesting depth exceeds limit (resource-exhaustion guard)"

def decodeUtf8 (payload : Bytes) : Except Exception Str :=
  if h : Utf8.valid true payload = true then .ok ⟨payload, h⟩ else .error .unicodeDecodeError

/-- `_byte_less`: shorter first, then lexicographic. -/
def byteLess (a b : Bytes) : Bool := Cbor.lengthFirstLess a b

def dialect : Dialect Exception CborValue where
  fault := raised
  uint arg := .int arg.toNat
  nint arg :=
    if arg.toNat > 2 ^ 63 - 1 then .error (.cborError "negative integer out of range")
    else .ok (.int (-1 - arg.toNat))
  bytes := .bytes
  text payload := (decodeUtf8 payload).map .str
  array := .list
  map entries := .map (entries.map fun e => .mk e.key e.val)
  bool := .bool
  null := .none
  less := byteLess

def decode (b : Bytes) (depth : Nat) : Except Exception (CborValue × Nat) :=
  dialect.decode (cborMaxNestingDepth + 1 - depth) b

def cborDecodeTop (b : Bytes) : Except Exception CborValue :=
  match decode b 1 with
  | .error e => .error e
  | .ok (v, n) =>
    if n ≠ b.length then .error (.cborError "trailing bytes after top-level item") else .ok v

end Npamp.Python
