import Npamp.Cbor
import Npamp.Frame

/-!
# Memory operation bodies

`memory_bodies.go`, `memory_api.go` and `codecbind_export.go`. A caller receives a Go map keyed by
`uint64`, built by `cborToGo`.
-/

namespace Npamp

open Sentinel

def frameMemoryCreateReq : FrameType := 0x0100
def frameMemoryCreateResult : FrameType := 0x0101
def frameMemoryReadReq : FrameType := 0x0102
def frameMemoryReadResult : FrameType := 0x0103
def frameMemoryUpdateReq : FrameType := 0x0104
def frameMemoryUpdateResult : FrameType := 0x0105
def frameMemoryDeleteReq : FrameType := 0x0106
def frameMemoryDeleteResult : FrameType := 0x0107
def frameMemoryRetrieveReq : FrameType := 0x0108
def frameMemoryRetrieveResult : FrameType := 0x0109
def frameMemoryRetrieveStreamData : FrameType := 0x010A
def frameMemoryRetrieveStreamEnd : FrameType := 0x010B
def frameMemoryStatusReq : FrameType := 0x010C
def frameMemoryStatusResult : FrameType := 0x010D
def frameMemoryError : FrameType := 0x010E
def frameMemoryEvict : FrameType := 0x0035
def frameMemoryRevive : FrameType := 0x0036

inductive CborKind where
  | uint
  | text
  | bytes
  | array
  | map
  | bool
  deriving DecidableEq, Repr

structure MemField where
  key : UInt64
  kind : CborKind
  required : Bool
  deriving DecidableEq, Repr

def memorySchemas : List (FrameType × List MemField) :=
  [(frameMemoryCreateReq,
      [⟨2, .text, true⟩, ⟨3, .text, false⟩, ⟨4, .text, false⟩, ⟨5, .text, false⟩,
       ⟨6, .text, false⟩, ⟨7, .text, false⟩, ⟨8, .text, false⟩, ⟨9, .text, false⟩,
       ⟨10, .map, false⟩, ⟨11, .uint, true⟩]),
   (frameMemoryCreateResult, [⟨2, .text, true⟩, ⟨3, .text, true⟩]),
   (frameMemoryReadReq, [⟨2, .text, true⟩, ⟨3, .uint, true⟩]),
   (frameMemoryReadResult, [⟨2, .map, true⟩]),
   (frameMemoryUpdateReq,
      [⟨2, .text, true⟩, ⟨3, .text, false⟩, ⟨4, .text, false⟩, ⟨5, .text, false⟩,
       ⟨6, .text, false⟩, ⟨7, .text, false⟩, ⟨8, .text, false⟩, ⟨9, .map, false⟩,
       ⟨10, .uint, true⟩]),
   (frameMemoryUpdateResult, [⟨2, .text, true⟩, ⟨3, .text, true⟩]),
   (frameMemoryDeleteReq, [⟨2, .text, true⟩, ⟨3, .uint, true⟩]),
   (frameMemoryDeleteResult, [⟨2, .text, true⟩, ⟨3, .text, true⟩]),
   (frameMemoryRetrieveReq,
      [⟨2, .text, false⟩, ⟨3, .text, false⟩, ⟨4, .text, false⟩, ⟨5, .text, false⟩,
       ⟨6, .text, false⟩, ⟨7, .uint, false⟩, ⟨8, .text, false⟩, ⟨9, .bytes, false⟩,
       ⟨10, .uint, true⟩]),
   (frameMemoryRetrieveResult,
      [⟨2, .array, true⟩, ⟨3, .bool, true⟩, ⟨4, .bytes, false⟩, ⟨5, .uint, false⟩,
       ⟨6, .bool, false⟩]),
   (frameMemoryRetrieveStreamData, [⟨2, .array, true⟩]),
   (frameMemoryRetrieveStreamEnd, [⟨2, .array, false⟩, ⟨3, .bool, true⟩]),
   (frameMemoryStatusReq, []),
   (frameMemoryStatusResult,
      [⟨2, .text, true⟩, ⟨3, .text, false⟩, ⟨4, .uint, false⟩, ⟨5, .map, false⟩]),
   (frameMemoryError,
      [⟨2, .uint, true⟩, ⟨3, .text, true⟩, ⟨4, .uint, false⟩, ⟨5, .text, false⟩]),
   (frameMemoryEvict, [⟨2, .text, true⟩, ⟨3, .text, false⟩, ⟨4, .uint, true⟩]),
   (frameMemoryRevive, [⟨2, .text, true⟩, ⟨3, .uint, true⟩])]

def matchesKind : CborValue → CborKind → Bool
  | .uint64 _, .uint => true
  | .string _, .text => true
  | .bytes _, .bytes => true
  | .array _, .array => true
  | .cborMap _, .map => true
  | .bool _, .bool => true
  | _, _ => false

def CborEntry.key : CborEntry → CborValue
  | .mk _ key _ => key

def CborEntry.val : CborEntry → CborValue
  | .mk _ _ val => val

def cborMapGet (entries : List CborEntry) (key : UInt64) : Option CborValue :=
  (entries.find? fun e => e.keyEnc = cborEncode (.uint64 key)).map CborEntry.val

def checkField (entries : List CborEntry) (f : MemField) : Except GoError Unit :=
  match cborMapGet entries f.key with
  | none =>
    if f.required then
      .error (errMemoryMalformed.errorf
        ("missing required field (key " ++ toString f.key ++ ")"))
    else .ok ()
  | some val =>
    if matchesKind val f.kind then .ok ()
    else .error (errMemoryMalformed.errorf
      ("field (key " ++ toString f.key ++ ") has the wrong CBOR type"))

def checkKey : CborValue → Except GoError Unit
  | .uint64 _ => .ok ()
  | .int64 kk =>
    if kk < 0 then
      .error (errMemoryMalformed.errorf
        ("unknown negative key " ++ toString kk ++ " (reserved, §4.3)"))
    else .ok ()
  | _ => .error (errMemoryMalformed.errorf "non-integer map key")

/-- `checkFields`. The set of known keys the source collects is never read. -/
def checkFields (entries : List CborEntry) (schema : List MemField) : Except GoError Unit := do
  schema.forM (checkField entries)
  (entries.map CborEntry.key).forM checkKey

def memoryRecordSchema : List MemField :=
  [⟨0, .text, true⟩, ⟨1, .text, true⟩, ⟨2, .text, false⟩, ⟨3, .text, false⟩, ⟨4, .text, false⟩,
   ⟨5, .text, false⟩, ⟨6, .text, false⟩, ⟨7, .text, false⟩, ⟨8, .text, false⟩, ⟨9, .text, false⟩,
   ⟨10, .text, false⟩, ⟨11, .text, false⟩, ⟨12, .text, false⟩, ⟨13, .text, false⟩,
   ⟨14, .text, false⟩]

/-- `ValidateMemoryRecord` of a `*cborMap`, which may be nil. -/
def validateMemoryRecord : Option (List CborEntry) → Except GoError Unit
  | none => .error (errMemoryMalformed.errorf "nil memory_record")
  | some rec => checkFields rec memoryRecordSchema

def checkEnvelope (ft : FrameType) (entries : List CborEntry) : Except GoError Unit :=
  match cborMapGet entries 0 with
  | none => .error (errMemoryMalformed.errorf "missing frame_kind (0)")
  | some (.uint64 fkv) =>
    if fkv ≠ ft.toUInt64 then
      .error (errMemoryMalformed.errorf
        ("frame_kind 0x" ++ hexPadUpper 4 fkv.toUInt16.toNat ++ " contradicts frame type 0x"
          ++ hexPadUpper 4 ft.toNat))
    else
      match cborMapGet entries 1 with
      | none => .error (errMemoryMalformed.errorf "missing corr (1)")
      | some (.bytes cb) =>
        if cb.length < 1 ∨ cb.length > 64 then
          .error (errMemoryMalformed.errorf
            "corr (1) must be a byte string of 1–64 bytes")
        else .ok ()
      | some _ =>
        .error (errMemoryMalformed.errorf
          "corr (1) must be a byte string of 1–64 bytes")
  | some _ =>
    .error (errMemoryMalformed.errorf "frame_kind (0) is not an unsigned int")

def validateMemoryPayload (ft : FrameType) (payload : Bytes) : Except GoError (List CborEntry) :=
  match memorySchemas.lookup ft with
  | none =>
    .error (errMemoryMalformed.errorf
      ("0x" ++ hexPadUpper 4 ft.toNat ++ " is not a Memory operation frame type"))
  | some schema =>
    match cborDecodeTop payload with
    | .error e => .error (errMemoryMalformed.errorf e.text)
    | .ok (.cborMap entries) => do
        checkEnvelope ft entries
        checkFields entries schema
        return entries
    | .ok _ => .error (errMemoryMalformed.errorf "payload is not a CBOR map")

def assign (out : List CborPair) (key : UInt64) (val : CborValue) : List CborPair :=
  if key ∈ out.map CborPair.key then
    out.map fun p => if p.key = key then .mk key val else p
  else out ++ [.mk key val]

mutual

/-- `cborToGo`. A map entry is carried over only under a `uint64` key. -/
def cborToGo : CborValue → CborValue
  | .cborMap entries => .mapU (cborToGoEntries entries [])
  | .array items => .array (cborToGoItems items)
  | v => v

def cborToGoItems : List CborValue → List CborValue
  | [] => []
  | item :: rest => cborToGo item :: cborToGoItems rest

def cborToGoEntries : List CborEntry → List CborPair → List CborPair
  | [], out => out
  | .mk _ (.uint64 uk) val :: rest, out => cborToGoEntries rest (assign out uk (cborToGo val))
  | .mk _ _ _ :: rest, out => cborToGoEntries rest out

end

def encodeCanonicalCBOR (v : CborValue) : Bytes := cborEncode v

def decodeCanonicalCBOR (b : Bytes) : Except GoError CborValue :=
  match cborDecodeTop b with
  | .error e => .error e
  | .ok v => .ok (cborToGo v)

def encodeMemoryBody (fields : List CborPair) : Bytes := cborEncode (.mapU fields)

def decodeMemoryBody (ft : FrameType) (body : Bytes) : Except GoError (List CborPair) :=
  match validateMemoryPayload ft body with
  | .error e => .error e
  | .ok entries =>
    match cborToGo (.cborMap entries) with
    | .mapU out => .ok out
    | _ => .error errMemoryMalformed.err

end Npamp
