import Npamp.Error
import Npamp.Lib.CborKeys
import Npamp.Lib.Utf8

/-!
# Deterministic CBOR in Rust

The value model, encoder and decoder of `bodies.rs`. A `String` is its octets, which are UTF-8; the
decoder makes one of any octets with `String::from_utf8_lossy`.
-/

namespace Npamp.Rust

open Cbor (Fault Dialect)

def cborMaxNestingDepth : Nat := 8

structure Str where
  octets : Bytes
  utf8 : Utf8.valid false octets = true

def Str.fromUtf8Lossy (b : Bytes) : Str := ⟨Utf8.lossy b, Utf8.valid_lossy b⟩

mutual

inductive CborValue where
  | uint (v : UInt64)
  | nint (v : Int64)
  | bytes (b : Bytes)
  | text (s : Str)
  | array (items : List CborValue)
  | map (entries : List CborEntry)
  | bool (b : Bool)
  | null

inductive CborEntry where
  | mk (key val : CborValue)

end

def CborEntry.key : CborEntry → CborValue
  | .mk key _ => key

def CborEntry.val : CborEntry → CborValue
  | .mk _ val => val

inductive DecodeError where
  | trailing
  | truncated
  | notShortest
  | indefinite
  | unsupported
  | mapOrder
  | depthExceeded
  deriving DecidableEq, Repr

def DecodeError.text : DecodeError → String
  | trailing => "npamp/cbor: trailing bytes after top-level item"
  | truncated => "npamp/cbor: truncated input"
  | notShortest => "npamp/cbor: integer/length not in shortest form"
  | indefinite => "npamp/cbor: indefinite-length item (non-deterministic)"
  | unsupported => "npamp/cbor: unsupported major type or simple value"
  | mapOrder => "npamp/cbor: map keys not in canonical ascending order (or duplicate)"
  | depthExceeded => "npamp/cbor: nesting depth exceeds limit (resource-exhaustion guard)"

def encodeHead (major : UInt8) (arg : UInt64) : Bytes := Cbor.head major arg

mutual

def encode : CborValue → Bytes
  | .uint u => encodeHead 0 u
  | .nint n => encodeHead 1 (-1 - n).toUInt64
  | .bytes b => encodeHead 2 (UInt64.ofNat b.length) ++ b
  | .text s => encodeHead 3 (UInt64.ofNat s.octets.length) ++ s.octets
  | .array items => encodeHead 4 (UInt64.ofNat items.length) ++ encodeItems items
  | .map entries => encodeHead 5 (UInt64.ofNat entries.length) ++ encodeEntries entries
  | .bool true => [0xf5]
  | .bool false => [0xf4]
  | .null => [0xf6]

def encodeItems : List CborValue → Bytes
  | [] => []
  | item :: rest => encode item ++ encodeItems rest

def encodeEntries : List CborEntry → Bytes
  | [] => []
  | .mk key val :: rest => encode key ++ encode val ++ encodeEntries rest

end

/-- `encode(&a.0).cmp(&encode(&b.0))` is not `Greater`: `Vec<u8>` compares bytewise. -/
abbrev CborEntry.LE (a b : CborEntry) : Prop :=
  Cbor.lexLess (encode b.key) (encode a.key) = false

def mapFromU64Keys (entries : List (UInt64 × CborValue)) : CborValue :=
  .map ((entries.map fun e => .mk (.uint e.1) e.2).insertionSort CborEntry.LE)

/-- `byte_less`: shorter first, then lexicographic. -/
def byteLess (a b : Bytes) : Bool := Cbor.lengthFirstLess a b

def decodeError : Fault → DecodeError
  | .trailing => .trailing
  | .truncated => .truncated
  | .notShortest => .notShortest
  | .indefinite => .indefinite
  | .reserved => .unsupported
  | .simple => .unsupported
  | .tag => .unsupported
  | .mapOrder => .mapOrder
  | .depth => .depthExceeded

def dialect : Dialect DecodeError CborValue where
  fault := decodeError
  uint := .uint
  nint arg :=
    -- `i64::MAX` is the largest argument that leaves `-1 - arg` in range
    if arg.toNat > 2 ^ 63 - 1 then .error .unsupported else .ok (.nint (-1 - arg.toInt64))
  bytes := .bytes
  text payload := .ok (.text (Str.fromUtf8Lossy payload))
  array := .array
  map entries := .map (entries.map fun e => .mk e.key e.val)
  bool := .bool
  null := .null
  less := byteLess

def decode (b : Bytes) (depth : Nat) : Except DecodeError (CborValue × Nat) :=
  dialect.decode (cborMaxNestingDepth + 1 - depth) b

def decodeTop (b : Bytes) : Except DecodeError CborValue :=
  match decode b 1 with
  | .error e => .error e
  | .ok (v, n) => if n ≠ b.length then .error .trailing else .ok v

end Npamp.Rust
