import Npamp.HttpCarriage
import Npamp.Rust.Bodies

/-!
# HTTP-Carriage Objects in Rust

`carriage/http.rs`. A header list keeps the caller's order.
-/

namespace Npamp.Rust

structure CarriageError where
  message : String
  deriving DecidableEq, Repr

theorem asciiOnly_lowerOctet : Utf8.AsciiOnly lowerOctet where
  low a ha := by
    unfold lowerOctet
    split_ifs with hupper
    · simp only [UInt8.le_iff_toNat_le, UInt8.lt_iff_toNat_lt, UInt8.toNat_add,
        UInt8.reduceToNat] at *
      omega
    · exact ha
  high a ha := by
    refine if_neg fun hupper => ha ?_
    exact UInt8.lt_of_le_of_lt hupper.2 (by decide)

/-- `to_lower_ascii`: the characters outside ASCII stay as they are. -/
def toLowerAscii (s : Str) : Str :=
  ⟨s.octets.map lowerOctet, (Utf8.valid_map asciiOnly_lowerOctet false s.octets).trans s.utf8⟩

def headersToCbor (headers : List (HeaderKV Str)) : CborValue :=
  .array (headers.map fun kv => .array [.text (toLowerAscii kv.name), .bytes kv.value])

def headersAndBody (headers : List (HeaderKV Str)) (body : Bytes) : List (UInt64 × CborValue) :=
  (if headers.isEmpty then [] else [(8, headersToCbor headers)])
    ++ (if body.isEmpty then [] else [(9, .bytes body)])

def encodeHttpCarriageRequest (method target : Str) (headers : List (HeaderKV Str))
    (body : Bytes) : Bytes :=
  encode (mapFromU64Keys ([(1, .uint httpKindRequest), (2, .text method), (3, .text target)]
    ++ headersAndBody headers body))

def encodeHttpCarriageResponse (status : UInt32) (headers : List (HeaderKV Str)) (body : Bytes) :
    Bytes :=
  encode (mapFromU64Keys ([(1, .uint httpKindResponse), (6, .uint status.toUInt64)]
    ++ headersAndBody headers body))

def receiver : Receiver CborValue Str CarriageError where
  uint
    | .uint v => some v
    | _ => none
  text
    | .text s => some s
    | _ => none
  bytes
    | .bytes b => some b
    | _ => none
  array
    | .array items => some items
    | _ => none
  octets := Str.octets
  malformed := .mk
  quote name := "\"" ++ String.ofList (name.octets.map fun o => Char.ofNat o.toNat) ++ "\""

def decodeHttpCarriageObject (foreign : Bytes) (wantKind : UInt64) :
    Except CarriageError (HttpCarriageObject Str) :=
  match decodeTop foreign with
  | .error e => .error ⟨"not valid deterministic CBOR: " ++ e.text⟩
  | .ok (.map m) => receiver.decodeObject (mapGet m) wantKind
  | .ok _ => .error ⟨"top-level item is not a map"⟩

end Npamp.Rust
