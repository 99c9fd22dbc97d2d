import Npamp.Error
import Mathlib.Data.List.Sort

/-!
# Deterministic CBOR

The canonical subset `memory_cbor.go` implements. A Go string is its octets, whether or not they are
UTF-8.
-/

namespace Npamp

open Sentinel

def cborMaxNestingDepth : Nat := 8

mutual

/-- The Go values `cborEncode` accepts and `cborDecode` returns. -/
inductive CborValue where
  | uint64 (v : UInt64)
  | int (v : Int64)
  | int64 (v : Int64)
  | bytes (b : Bytes)
  | string (s : Bytes)
  | array (items : List CborValue)
  | cborMap (entries : List CborEntry)
  /-- `map[uint64]any`, listed in some iteration order. -/
  | mapU (m : List CborPair)
  | bool (b : Bool)
  | null

inductive CborEntry where
  | mk (keyEnc : Bytes) (key val : CborValue)

inductive CborPair where
  | mk (key : UInt64) (val : CborValue)

end

def CborEntry.keyEnc : CborEntry → Bytes
  | .mk keyEnc _ _ => keyEnc

def CborPair.key : CborPair → UInt64
  | .mk key _ => key

def CborPair.val : CborPair → CborValue
  | .mk _ val => val

def byteLess : Bytes → Bytes → Bool
  | [], [] => false
  | [], _ :: _ => true
  | _ :: _, [] => false
  | a :: as, b :: bs => if a ≠ b then a < b else byteLess as bs

def encodeHead (major : UInt8) (arg : UInt64) : Bytes :=
  let mb := major <<< 5
  if arg < 24 then [mb ||| arg.toUInt8]
  else if arg.toNat < 2 ^ 8 then (mb ||| 24) :: BigEndian.toBytes 1 arg.toNat
  else if arg.toNat < 2 ^ 16 then (mb ||| 25) :: BigEndian.toBytes 2 arg.toNat
  else if arg.toNat < 2 ^ 32 then (mb ||| 26) :: BigEndian.toBytes 4 arg.toNat
  else (mb ||| 27) :: BigEndian.toBytes 8 arg.toNat

def encodeSigned (t : Int64) : Bytes :=
  if t < 0 then encodeHead 1 (-1 - t).toUInt64 else encodeHead 0 t.toUInt64

/-- The order `sort.Slice` sorts encoded bindings by. Keys are distinct, so the sorted list is
the only one in this order. -/
abbrev keyEncLE (a b : Bytes × Bytes) : Prop := byteLess b.1 a.1 = false

mutual

def cborEncode : CborValue → Bytes
  | .uint64 v => encodeHead 0 v
  | .int v => encodeSigned v
  | .int64 v => encodeSigned v
  | .bytes b => encodeHead 2 (UInt64.ofNat b.length) ++ b
  | .string s => encodeHead 3 (UInt64.ofNat s.length) ++ s
  | .array items => encodeHead 4 (UInt64.ofNat items.length) ++ cborEncodeItems items
  | .cborMap entries => encodeHead 5 (UInt64.ofNat entries.length) ++ cborEncodeEntries entries
  | .mapU m =>
    encodeHead 5 (UInt64.ofNat m.length)
      ++ ((cborEncodePairs m).insertionSort keyEncLE).flatMap fun p => p.1 ++ p.2
  | .bool true => [0xf5]
  | .bool false => [0xf4]
  | .null => [0xf6]

def cborEncodeItems : List CborValue → Bytes
  | [] => []
  | item :: rest => cborEncode item ++ cborEncodeItems rest

def cborEncodeEntries : List CborEntry → Bytes
  | [] => []
  | .mk keyEnc _ val :: rest => keyEnc ++ cborEncode val ++ cborEncodeEntries rest

def cborEncodePairs : List CborPair → List (Bytes × Bytes)
  | [] => []
  | .mk key val :: rest => (encodeHead 0 key, cborEncode val) :: cborEncodePairs rest

end

def CborPair.entry (p : CborPair) : CborEntry :=
  .mk (cborEncode (.uint64 p.key)) (.uint64 p.key) p.val

def newCBORMapU (m : List CborPair) : List CborEntry :=
  (m.map CborPair.entry).insertionSort fun a b => byteLess b.keyEnc a.keyEnc = false

/-- An argument in the `width` octets behind the initial one, refused below `bound`: a smaller
argument has a shorter form. -/
def decodeWideArg (width bound : Nat) (b : Bytes) : Except GoError (UInt64 × Nat) :=
  if b.length < width + 1 then .error errCBORTruncated.err
  else if (uint64 (slice b 1 (width + 1))).toNat < bound then
    .error errCBORNotShortest.err
  else .ok (uint64 (slice b 1 (width + 1)), width + 1)

def decodeArg (ai : UInt8) (b : Bytes) : Except GoError (UInt64 × Nat) :=
  if ai < 24 then .ok (ai.toUInt64, 1)
  else if ai = 24 then decodeWideArg 1 24 b
  else if ai = 25 then decodeWideArg 2 (2 ^ 8) b
  else if ai = 26 then decodeWideArg 4 (2 ^ 16) b
  else if ai = 27 then decodeWideArg 8 (2 ^ 32) b
  else if ai = 31 then .error errCBORIndefinite.err
  else .error errCBORUnsupported.err

section Loops

variable (decode : Bytes → Except GoError (CborValue × Nat))

def decodeItems : Nat → Bytes → Except GoError (List CborValue × Nat)
  | 0, _ => .ok ([], 0)
  | count + 1, b =>
    match decode b with
    | .error e => .error e
    | .ok (el, en) =>
      match decodeItems count (b.drop en) with
      | .error e => .error e
      | .ok (rest, n) => .ok (el :: rest, en + n)

def decodeEntries : Nat → Option Bytes → Bytes → Except GoError (List CborEntry × Nat)
  | 0, _, _ => .ok ([], 0)
  | count + 1, prevKeyEnc, b =>
    match decode b with
    | .error e => .error e
    | .ok (key, kn) =>
      let keyEnc := b.take kn
      if (prevKeyEnc.map fun prev => !byteLess prev keyEnc) = some true then
        .error errCBORMapOrder.err
      else
        match decode (b.drop kn) with
        | .error e => .error e
        | .ok (val, vn) =>
          match decodeEntries count (some keyEnc) (b.drop (kn + vn)) with
          | .error e => .error e
          | .ok (rest, n) => .ok (.mk keyEnc key val :: rest, kn + vn + n)

def decodeBody (major : UInt8) (b : Bytes) (arg : UInt64) (n : Nat) :
    Except GoError (CborValue × Nat) :=
  if major = 0 then .ok (.uint64 arg, n)
  else if major = 1 then
    if arg.toNat > 2 ^ 63 - 1 then .error errCBORUnsupported.err
    else .ok (.int64 (-1 - arg.toInt64), n)
  else if major = 2 ∨ major = 3 then
    if arg.toNat > b.length ∨ n + arg.toNat > b.length then .error errCBORTruncated.err
    else
      let payload := slice b n (n + arg.toNat)
      .ok (if major = 2 then .bytes payload else .string payload, n + arg.toNat)
  else if major = 4 then
    if arg.toNat > b.length - n then .error errCBORTruncated.err
    else
      match decodeItems decode arg.toNat (b.drop n) with
      | .error e => .error e
      | .ok (items, m) => .ok (.array items, n + m)
  else if major = 5 then
    if arg.toNat > b.length - n then .error errCBORTruncated.err
    else
      match decodeEntries decode arg.toNat none (b.drop n) with
      | .error e => .error e
      | .ok (entries, m) => .ok (.cborMap entries, n + m)
  else .error errCBORUnsupported.err

end Loops

/-- `cborDecode` with `levels` nesting levels left: the depth guard is `levels = 0`. -/
def cborDecodeLevels : Nat → Bytes → Except GoError (CborValue × Nat)
  | 0, _ => .error errCBORDepthExceeded.err
  | _ + 1, [] => .error errCBORTruncated.err
  | levels + 1, ib :: tail =>
    let major := ib >>> 5
    let ai := ib &&& 0x1f
    if major = 7 then
      if ai = 20 then .ok (.bool false, 1)
      else if ai = 21 then .ok (.bool true, 1)
      else if ai = 22 then .ok (.null, 1)
      else .error errCBORUnsupported.err
    else
      match decodeArg ai (ib :: tail) with
      | .error e => .error e
      | .ok (arg, n) => decodeBody (cborDecodeLevels levels) major (ib :: tail) arg n

/-- `cborDecode`: one item at the given nesting depth, and the octets it took. An item at a depth
past `cborMaxNestingDepth` is refused. -/
def cborDecode (b : Bytes) (depth : Nat) : Except GoError (CborValue × Nat) :=
  cborDecodeLevels (cborMaxNestingDepth + 1 - depth) b

def cborDecodeTop (b : Bytes) : Except GoError CborValue :=
  match cborDecode b 1 with
  | .error e => .error e
  | .ok (v, n) => if n ≠ b.length then .error errCBORTrailing.err else .ok v

end Npamp
