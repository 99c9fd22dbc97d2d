import Npamp.Handshake
import Npamp.Lib.Cbor

/-!
# Stored keys

`keyformat.go` and its CBOR reader. `format_version` and `role` are read as 64-bit integers and
narrowed.
-/

namespace Npamp.KeyFormat

abbrev FormatVersion := UInt16

def currentFormatVersion : FormatVersion := 1

abbrev Role := UInt8

def roleKEMPublic : Role := 1
def roleKEMPrivate : Role := 2
def roleSigPublic : Role := 3
def roleSigPrivate : Role := 4

def alpn : Bytes := [0x6e, 0x2d, 0x70, 0x61, 0x6d, 0x70, 0x2f, 0x33]

structure KeyRecord where
  formatVersion : FormatVersion
  generation : Bytes
  role : Role
  algorithm : UInt64
  components : List Bytes
  deriving DecidableEq, Repr

inductive KeyError where
  | cborTruncated
  | cborTrailing
  | cborNotShortest
  | cborIndefinite
  | cborWrongKeyOrder
  | majorType (major : UInt8) (offset : Nat) (want : UInt8)
  | additionalInfo (ai : UInt8)
  | mapEntries (n : UInt64)
  | unknownKey (key : UInt64)
  | unknownFormatVersion
  | noAcceptedGenerations
  | generationNotAccepted
  | unknownAlgorithm
  | componentCount
  | componentSize
  | groupNotSupported
  deriving DecidableEq, Repr

def sigMLDSA44 : SigID := 0x0904
def sigMLDSA65 : SigID := 0x0905
def sigMLDSA87 : SigID := 0x0906

def registry : List ((Role × UInt64) × List Nat) :=
  [((roleKEMPrivate, kemX25519MLKEM768.toUInt64), [64, 32]),
    ((roleKEMPublic, kemX25519MLKEM768.toUInt64), [1184, 32]),
    ((roleSigPrivate, sigEd25519.toUInt64), [64]),
    ((roleSigPrivate, sigMLDSA44.toUInt64), [2560]),
    ((roleSigPrivate, sigMLDSA65.toUInt64), [4032]),
    ((roleSigPrivate, sigMLDSA87.toUInt64), [4896]),
    ((roleSigPublic, sigEd25519.toUInt64), [32]),
    ((roleSigPublic, sigMLDSA44.toUInt64), [1312]),
    ((roleSigPublic, sigMLDSA65.toUInt64), [1952]),
    ((roleSigPublic, sigMLDSA87.toUInt64), [2592])]

def refusedKEMGroup (rec : KeyRecord) : Bool :=
  (rec.role == roleKEMPrivate || rec.role == roleKEMPublic)
    && rec.algorithm == kemSecP384r1MLKEM1024.toUInt64

def validateAgainstRegistry (rec : KeyRecord) : Except KeyError Unit :=
  if refusedKEMGroup rec then .error .groupNotSupported
  else if rec.generation ≠ alpn then .error .unknownAlgorithm
  else
    match registry.lookup (rec.role, rec.algorithm) with
    | none => .error .unknownAlgorithm
    | some sizes =>
      if rec.components.length ≠ sizes.length then .error .componentCount
      else if rec.components.map List.length ≠ sizes then .error .componentSize
      else .ok ()

def cborMajorUint : UInt8 := 0
def cborMajorBytes : UInt8 := 2
def cborMajorText : UInt8 := 3
def cborMajorArray : UInt8 := 4
def cborMajorMap : UInt8 := 5

def encodeUint (major : UInt8) (v : UInt64) : Bytes := Cbor.head major v

def encodeBytesItem (b : Bytes) : Bytes := encodeUint cborMajorBytes (UInt64.ofNat b.length) ++ b

def encodeTextItem (s : Bytes) : Bytes := encodeUint cborMajorText (UInt64.ofNat s.length) ++ s

def marshalRecord (rec : KeyRecord) : Bytes :=
  encodeUint cborMajorMap 5
    ++ (encodeUint cborMajorUint 1 ++ encodeUint cborMajorUint rec.formatVersion.toUInt64)
    ++ (encodeUint cborMajorUint 2 ++ encodeTextItem rec.generation)
    ++ (encodeUint cborMajorUint 3 ++ encodeUint cborMajorUint rec.role.toUInt64)
    ++ (encodeUint cborMajorUint 4 ++ encodeUint cborMajorUint rec.algorithm)
    ++ (encodeUint cborMajorUint 5
      ++ encodeUint cborMajorArray (UInt64.ofNat rec.components.length)
      ++ rec.components.flatMap encodeBytesItem)

def encode (rec : KeyRecord) : Except KeyError Bytes :=
  if rec.formatVersion ≠ currentFormatVersion then .error .unknownFormatVersion
  else if rec.generation ≠ alpn then .error .generationNotAccepted
  else
    match validateAgainstRegistry rec with
    | .error e => .error e
    | .ok () => .ok (marshalRecord rec)

structure CborReader where
  pos : Nat
  rest : Bytes

namespace CborReader

def skip (d : CborReader) (n : Nat) : CborReader := ⟨d.pos + n, d.rest.drop n⟩

def headError (ai : UInt8) : Cbor.Fault → KeyError
  | .truncated => .cborTruncated
  | .notShortest => .cborNotShortest
  | .indefinite => .cborIndefinite
  | _ => .additionalInfo ai

def readHead (d : CborReader) (wantMajor : UInt8) : Except KeyError (UInt64 × CborReader) :=
  match d.rest with
  | [] => .error .cborTruncated
  | ib :: tail =>
    if ib >>> 5 ≠ wantMajor then .error (.majorType (ib >>> 5) d.pos wantMajor)
    else
      match Cbor.readArg (ib &&& 0x1f) (ib :: tail) with
      | .error f => .error (headError (ib &&& 0x1f) f)
      | .ok (v, n) => .ok (v, d.skip n)

def readUint (d : CborReader) : Except KeyError (UInt64 × CborReader) := d.readHead cborMajorUint

def readString (d : CborReader) (major : UInt8) : Except KeyError (Bytes × CborReader) :=
  match d.readHead major with
  | .error e => .error e
  | .ok (n, d) =>
    if n.toNat > d.rest.length then .error .cborTruncated
    else .ok (d.rest.take n.toNat, d.skip n.toNat)

def readBytes (d : CborReader) : Except KeyError (Bytes × CborReader) :=
  d.readString cborMajorBytes

def readText (d : CborReader) : Except KeyError (Bytes × CborReader) := d.readString cborMajorText

def readComponents : Nat → CborReader → Except KeyError (List Bytes × CborReader)
  | 0, d => .ok ([], d)
  | count + 1, d =>
    match d.readBytes with
    | .error e => .error e
    | .ok (b, d) =>
      match readComponents count d with
      | .error e => .error e
      | .ok (comps, d) => .ok (b :: comps, d)

def readField (d : CborReader) (key : UInt64) (rec : KeyRecord) :
    Except KeyError (KeyRecord × CborReader) :=
  if key = 1 then
    match d.readUint with
    | .error e => .error e
    | .ok (v, d) => .ok ({ rec with formatVersion := v.toUInt16 }, d)
  else if key = 2 then
    match d.readText with
    | .error e => .error e
    | .ok (s, d) => .ok ({ rec with generation := s }, d)
  else if key = 3 then
    match d.readUint with
    | .error e => .error e
    | .ok (v, d) => .ok ({ rec with role := v.toUInt8 }, d)
  else if key = 4 then
    match d.readUint with
    | .error e => .error e
    | .ok (v, d) => .ok ({ rec with algorithm := v }, d)
  else if key = 5 then
    match d.readHead cborMajorArray with
    | .error e => .error e
    | .ok (alen, d) =>
      if alen.toNat > d.rest.length then .error .cborTruncated
      else
        match readComponents alen.toNat d with
        | .error e => .error e
        | .ok (comps, d) => .ok ({ rec with components := comps }, d)
  else .error (.unknownKey key)

/-- The loop of `unmarshalRecord`; `seen` are the keys read before, the last one first. -/
def readFields : Nat → CborReader → List UInt64 → KeyRecord →
    Except KeyError (KeyRecord × CborReader)
  | 0, d, _, rec => .ok (rec, d)
  | count + 1, d, seen, rec =>
    match d.readUint with
    | .error e => .error e
    | .ok (key, d) =>
      if seen.head?.any (key ≤ ·) then .error .cborWrongKeyOrder
      else if key ∈ seen then .error .cborWrongKeyOrder
      else
        match d.readField key rec with
        | .error e => .error e
        | .ok (rec, d) => readFields count d (key :: seen) rec

end CborReader

def unmarshalRecord (data : Bytes) : Except KeyError KeyRecord :=
  match CborReader.readHead ⟨0, data⟩ cborMajorMap with
  | .error e => .error e
  | .ok (n, d) =>
    if n ≠ 5 then .error (.mapEntries n)
    else
      match d.readFields 5 [] ⟨0, [], 0, 0, []⟩ with
      | .error e => .error e
      | .ok (rec, d) => if d.rest ≠ [] then .error .cborTrailing else .ok rec

def decode (data : Bytes) (acceptedGenerations : List Bytes) : Except KeyError KeyRecord :=
  if acceptedGenerations.length = 0 then .error .noAcceptedGenerations
  else
    match unmarshalRecord data with
    | .error e => .error e
    | .ok rec =>
      if rec.formatVersion ≠ currentFormatVersion then .error .unknownFormatVersion
      else if rec.generation ∉ acceptedGenerations then .error .generationNotAccepted
      else if refusedKEMGroup rec then .error .groupNotSupported
      else if rec.generation = alpn then
        match validateAgainstRegistry rec with
        | .error e => .error e
        | .ok () => .ok rec
      else .ok rec

structure Stored where
  formatVersion : UInt64
  generation : Bytes
  role : UInt64
  algorithm : UInt64
  components : List Bytes

namespace Stored

def octets (s : Stored) : Bytes :=
  encodeUint cborMajorMap 5
    ++ (encodeUint cborMajorUint 1 ++ encodeUint cborMajorUint s.formatVersion)
    ++ (encodeUint cborMajorUint 2 ++ encodeTextItem s.generation)
    ++ (encodeUint cborMajorUint 3 ++ encodeUint cborMajorUint s.role)
    ++ (encodeUint cborMajorUint 4 ++ encodeUint cborMajorUint s.algorithm)
    ++ (encodeUint cborMajorUint 5
      ++ encodeUint cborMajorArray (UInt64.ofNat s.components.length)
      ++ s.components.flatMap encodeBytesItem)

/-- Lengths are those of strings in memory. -/
structure Sized (s : Stored) : Prop where
  generation : s.generation.length < 2 ^ 64
  count : s.components.length < 2 ^ 64
  component : ∀ c ∈ s.components, c.length < 2 ^ 64

def record (s : Stored) : KeyRecord :=
  ⟨s.formatVersion.toUInt16, s.generation, s.role.toUInt8, s.algorithm, s.components⟩

end Stored

/-- The stored version and role fit in their fields. -/
def Narrow (data : Bytes) : Prop :=
  ∀ s : Stored, s.Sized → data = s.octets → s.formatVersion.toNat < 2 ^ 16 ∧ s.role.toNat < 2 ^ 8

end Npamp.KeyFormat
