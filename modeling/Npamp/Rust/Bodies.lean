import Npamp.Rust.Cbor
import Npamp.Lib.CborSchema

/-!
# Operation bodies in Rust

The channel-body validators of `bodies.rs`. All ten channels go through one field check.
-/

namespace Npamp.Rust

open Cbor (Kind Field)

structure Malformed where
  message : String
  deriving DecidableEq, Repr

def err {α : Type} (msg : String) : Except Malformed α := .error ⟨msg⟩

def mapGet (entries : List CborEntry) (key : UInt64) : Option CborValue :=
  (entries.find? fun e => match e.key with | .uint u => u == key | _ => false).map CborEntry.val

def mapHas (entries : List CborEntry) (key : UInt64) : Bool := (mapGet entries key).isSome

def matchesKind : CborValue → Kind → Bool
  | .uint _, .uint => true
  | .text _, .text => true
  | .bytes _, .bytes => true
  | .array _, .array => true
  | .map _, .map => true
  | .bool _, .bool => true
  | .uint _, .number => true
  | .nint _, .number => true
  | _, _ => false

def checkKey : CborValue → Except Malformed Unit
  | .uint _ => .ok ()
  | .nint n => err ("unknown negative key " ++ toString n ++ " (reserved)")
  | _ => err "non-integer map key"

def forwardCompatKeys (m : List CborEntry) : Except Malformed Unit :=
  (m.map CborEntry.key).forM checkKey

def checkField (m : List CborEntry) (f : Field) : Except Malformed Unit :=
  match mapGet m f.key with
  | none =>
    if f.required then err ("missing required field (key " ++ toString f.key ++ ")") else .ok ()
  | some v =>
    if matchesKind v f.kind then .ok ()
    else err ("field (key " ++ toString f.key ++ ") has the wrong CBOR type")

def checkFields (m : List CborEntry) (schema : List Field) : Except Malformed Unit := do
  schema.forM (checkField m)
  forwardCompatKeys m

def checkFrameKind (m : List CborEntry) (ft : UInt64) : Except Malformed Unit :=
  match mapGet m 0 with
  | none => err "missing frame_kind (0)"
  | some (.uint u) =>
    if u = ft then .ok ()
    else
      err ("frame_kind 0x" ++ hexPadUpper 4 u.toNat ++ " contradicts frame type 0x"
        ++ hexPadUpper 4 ft.toNat)
  | some _ => err "frame_kind (0) is not an unsigned int"

def checkCorrRequired (m : List CborEntry) : Except Malformed Unit :=
  match mapGet m 1 with
  | none => err "missing corr (1)"
  | some (.bytes b) =>
    if b.isEmpty ∨ b.length > 64 then err "corr (1) must be a byte string of 1–64 bytes"
    else .ok ()
  | some _ => err "corr (1) must be a byte string"

def decodeMap (payload : Bytes) : Except Malformed (List CborEntry) :=
  match decodeTop payload with
  | .error e => err e.text
  | .ok (.map m) => .ok m
  | .ok _ => err "payload is not a CBOR map"

def validateBody (name : String) (schema : UInt64 → Option (List Field))
    (correlation nested : UInt64 → List CborEntry → Except Malformed Unit) (ft : UInt64)
    (payload : Bytes) : Except Malformed (List CborEntry) :=
  match schema ft with
  | none => err ("0x" ++ hexPadUpper 4 ft.toNat ++ " is not " ++ name ++ " frame type")
  | some fields => do
      let m ← decodeMap payload
      checkFrameKind m ft
      correlation ft m
      checkFields m fields
      nested ft m
      return m

def capabilitySchema (ft : UInt64) : Option (List Field) :=
  List.lookup ft
    [(0x0100,
        [⟨2, .text, true⟩, ⟨3, .text, true⟩, ⟨4, .map, false⟩, ⟨5, .text, false⟩,
         ⟨6, .text, false⟩, ⟨7, .uint, false⟩, ⟨8, .text, false⟩, ⟨9, .uint, true⟩]),
     (0x0101, [⟨2, .map, true⟩, ⟨3, .text, true⟩]),
     (0x0102,
        [⟨2, .text, true⟩, ⟨3, .text, true⟩, ⟨4, .map, false⟩, ⟨5, .text, false⟩,
         ⟨6, .uint, false⟩, ⟨7, .uint, true⟩]),
     (0x0103, [⟨2, .map, true⟩, ⟨3, .text, true⟩]),
     (0x0104, [⟨2, .text, true⟩, ⟨3, .bool, false⟩, ⟨4, .text, false⟩, ⟨5, .uint, true⟩]),
     (0x0105, [⟨2, .text, true⟩, ⟨3, .text, true⟩, ⟨4, .uint, false⟩]),
     (0x0106,
        [⟨2, .text, false⟩, ⟨3, .text, false⟩, ⟨4, .text, false⟩, ⟨5, .bool, false⟩,
         ⟨6, .uint, false⟩, ⟨7, .bytes, false⟩, ⟨8, .uint, true⟩]),
     (0x0107, [⟨2, .array, true⟩, ⟨3, .bool, true⟩, ⟨4, .bytes, false⟩]),
     (0x0108, [⟨2, .uint, true⟩, ⟨3, .text, true⟩, ⟨4, .uint, false⟩, ⟨5, .text, false⟩]),
     (0x0060, [⟨2, .map, true⟩, ⟨3, .array, false⟩, ⟨4, .uint, true⟩]),
     (0x0061, [⟨2, .text, true⟩, ⟨3, .text, true⟩]),
     (0x0062, [⟨2, .text, true⟩, ⟨3, .bytes, true⟩, ⟨4, .uint, true⟩]),
     (0x0063, [⟨2, .text, true⟩, ⟨3, .bytes, true⟩])]

def validateCapability (ft : UInt64) (payload : Bytes) : Except Malformed (List CborEntry) :=
  validateBody "a Capability" capabilitySchema (fun _ => checkCorrRequired) (fun _ _ => .ok ()) ft
    payload

def immuneSchema (ft : UInt64) : Option (List Field) :=
  List.lookup ft
    [(0x0100,
        [⟨2, .text, true⟩, ⟨3, .uint, true⟩, ⟨4, .uint, true⟩, ⟨5, .text, false⟩,
         ⟨6, .text, false⟩, ⟨7, .text, false⟩, ⟨8, .bytes, false⟩, ⟨9, .uint, false⟩,
         ⟨10, .text, false⟩]),
     (0x0101, [⟨2, .uint, true⟩, ⟨3, .text, false⟩]),
     (0x0102, [⟨2, .uint, true⟩, ⟨3, .text, true⟩, ⟨4, .uint, false⟩]),
     (0x00C0, [⟨2, .array, true⟩, ⟨3, .bool, false⟩]),
     (0x00C1, [⟨2, .array, false⟩, ⟨3, .array, false⟩, ⟨4, .uint, false⟩]),
     (0x00C2, [⟨2, .array, true⟩]),
     (0x00C3, [⟨2, .array, true⟩]),
     (0x00C4, [⟨2, .bytes, true⟩, ⟨3, .uint, true⟩, ⟨4, .uint, false⟩])]

def gossipDescriptorSchema : List Field :=
  [⟨0, .bytes, true⟩, ⟨1, .uint, true⟩, ⟨2, .uint, false⟩, ⟨3, .uint, false⟩,
   ⟨4, .bytes, false⟩, ⟨5, .text, false⟩, ⟨6, .text, false⟩, ⟨7, .uint, false⟩,
   ⟨8, .bytes, false⟩, ⟨9, .bytes, false⟩]

def gossipItemSchema : List Field :=
  [⟨0, .bytes, true⟩, ⟨1, .uint, true⟩, ⟨2, .uint, false⟩, ⟨3, .uint, false⟩,
   ⟨4, .bytes, false⟩, ⟨5, .text, false⟩, ⟨6, .text, false⟩, ⟨7, .uint, false⟩,
   ⟨8, .bytes, true⟩]

def checkGossipElement (nested : List Field) (i : Nat) : CborValue → Except Malformed Unit
  | .map em => checkFields em nested
  | _ => err ("items[" ++ toString i ++ "] is not a CBOR map")

def validateGossipArray (m : List CborEntry) (nested : List Field) : Except Malformed Unit :=
  match mapGet m 2 with
  | some (.array arr) => arr.zipIdx.forM fun el => checkGossipElement nested el.2 el.1
  | _ => err "missing items (2) array"

def validateImmuneNested (ft : UInt64) (m : List CborEntry) : Except Malformed Unit :=
  if ft = 0x00C0 then validateGossipArray m gossipDescriptorSchema
  else if ft = 0x00C3 then validateGossipArray m gossipItemSchema
  else .ok ()

def validateImmune (ft : UInt64) (payload : Bytes) : Except Malformed (List CborEntry) :=
  validateBody "an Immune" immuneSchema (fun _ => checkCorrRequired) validateImmuneNested ft payload

def settlementSchema (ft : UInt64) : Option (List Field) :=
  List.lookup ft
    [(0x0100,
        [⟨2, .text, true⟩, ⟨3, .text, false⟩, ⟨4, .text, false⟩, ⟨5, .text, false⟩,
         ⟨6, .text, false⟩, ⟨7, .text, false⟩, ⟨8, .uint, true⟩]),
     (0x0101, [⟨2, .text, true⟩, ⟨3, .text, true⟩, ⟨4, .text, false⟩]),
     (0x0102, [⟨2, .text, true⟩, ⟨3, .text, false⟩, ⟨4, .uint, true⟩]),
     (0x0103, [⟨2, .map, true⟩]),
     (0x0104, [⟨2, .uint, true⟩, ⟨3, .text, true⟩, ⟨4, .uint, false⟩, ⟨5, .text, false⟩]),
     (0x00A0,
        [⟨2, .text, true⟩, ⟨3, .bytes, true⟩, ⟨4, .text, false⟩, ⟨5, .uint, false⟩,
         ⟨6, .text, false⟩, ⟨7, .uint, true⟩]),
     (0x00A1, [⟨2, .text, true⟩, ⟨3, .text, true⟩, ⟨4, .text, false⟩])]

def validateSettlement (ft : UInt64) (payload : Bytes) : Except Malformed (List CborEntry) :=
  validateBody "a Settlement" settlementSchema (fun _ => checkCorrRequired) (fun _ _ => .ok ()) ft
    payload

def telemetryMetricSchema : List Field :=
  [⟨0, .text, true⟩, ⟨1, .uint, true⟩, ⟨2, .uint, true⟩, ⟨3, .number, true⟩, ⟨4, .text, false⟩,
   ⟨5, .map, false⟩, ⟨6, .uint, false⟩]

def telemetryEventSchema : List Field :=
  [⟨0, .text, true⟩, ⟨1, .uint, true⟩, ⟨2, .uint, false⟩, ⟨3, .map, false⟩, ⟨4, .text, false⟩,
   ⟨5, .uint, false⟩]

def telemetryHealthSchema : List Field :=
  [⟨0, .text, true⟩, ⟨1, .uint, true⟩, ⟨2, .uint, true⟩, ⟨3, .text, false⟩, ⟨4, .map, false⟩]

def telemetrySchema (ft : UInt64) : Option (List Field) :=
  List.lookup ft
    [(0x0101,
        [⟨2, .array, false⟩, ⟨3, .array, false⟩, ⟨4, .array, false⟩, ⟨5, .uint, false⟩,
         ⟨6, .uint, false⟩, ⟨7, .uint, true⟩]),
     (0x0102, [⟨2, .bytes, true⟩, ⟨3, .uint, true⟩, ⟨4, .array, false⟩]),
     (0x0103, [⟨2, .bytes, true⟩]),
     (0x0104, [⟨2, .bytes, true⟩, ⟨3, .uint, true⟩, ⟨4, .uint, false⟩]),
     (0x0105, [⟨2, .uint, true⟩, ⟨3, .text, false⟩, ⟨4, .bytes, false⟩])]

def checkReportCorr (m : List CborEntry) : Except Malformed Unit :=
  if mapHas m 1 then
    match mapGet m 1 with
    | some (.bytes b) =>
      if b.isEmpty ∨ b.length > 64 then err "corr (1) must be a byte string of 1–64 bytes"
      else if !mapHas m 2 then err "subscribed report carries corr (1) but omits sub_id (2)"
      else
        match mapGet m 2 with
        | some (.bytes _) => .ok ()
        | _ => err "sub_id (2) must be a byte string"
    | _ => err "corr (1) must be a byte string of 1–64 bytes"
  else if mapHas m 2 then err "standalone report carries sub_id (2) without corr (1)"
  else .ok ()

def checkBatchSeq (m : List CborEntry) : Except Malformed Unit :=
  match mapGet m 3 with
  | none => err "missing required batch_seq (3)"
  | some (.uint _) => .ok ()
  | some _ => err "batch_seq (3) is not an unsigned int"

def reportContent : List (UInt64 × List Field × String) :=
  [(4, telemetryMetricSchema, "metric"), (5, telemetryEventSchema, "event"),
   (6, telemetryHealthSchema, "health")]

def checkReportElement (schema : List Field) (what : String) : CborValue → Except Malformed Unit
  | .map em => checkFields em schema
  | _ => err (what ++ " array element is not a CBOR map")

def checkReportArray (m : List CborEntry) (c : UInt64 × List Field × String) :
    Except Malformed Unit :=
  match mapGet m c.1 with
  | none => .ok ()
  | some (.array arr) => arr.forM (checkReportElement c.2.1 c.2.2)
  | some _ => err (c.2.2 ++ " array (key " ++ toString c.1 ++ ") is not a CBOR array")

def elements : Option CborValue → List CborValue
  | some (.array arr) => arr
  | _ => []

def reportNonEmpty (m : List CborEntry) : Nat :=
  (reportContent.filter fun c => !(elements (mapGet m c.1)).isEmpty).length

def validateTelemetryReport (m : List CborEntry) : Except Malformed (List CborEntry) := do
  checkReportCorr m
  checkBatchSeq m
  reportContent.forM (checkReportArray m)
  if reportNonEmpty m = 0 then
    err "TELEMETRY_REPORT carries no metrics, events, or health (§5)"
  else do
    forwardCompatKeys m
    return m

def validateTelemetry (ft : UInt64) (payload : Bytes) : Except Malformed (List CborEntry) :=
  if ¬ (0x0100 ≤ ft ∧ ft ≤ 0x0105) then
    err ("0x" ++ hexPadUpper 4 ft.toNat ++ " is not a Telemetry frame type")
  else do
    let m ← decodeMap payload
    checkFrameKind m ft
    if ft = 0x0100 then validateTelemetryReport m
    else do
      checkCorrRequired m
      match telemetrySchema ft with
      -- the `expect` behind the range check
      | none => err "checked range above"
      | some schema => do
          checkFields m schema
          return m

def commerceSchema (ft : UInt64) : Option (List Field) :=
  List.lookup ft
    [(0x0100,
        [⟨2, .text, true⟩, ⟨3, .text, true⟩, ⟨4, .map, true⟩, ⟨5, .text, false⟩,
         ⟨6, .text, false⟩, ⟨7, .text, false⟩, ⟨8, .map, false⟩, ⟨9, .text, false⟩,
         ⟨10, .bytes, false⟩, ⟨11, .text, false⟩, ⟨12, .text, false⟩, ⟨13, .uint, true⟩]),
     (0x0101, [⟨2, .text, true⟩, ⟨3, .text, true⟩]),
     (0x0102, [⟨2, .text, true⟩, ⟨3, .uint, true⟩]),
     (0x0103, [⟨2, .map, true⟩]),
     (0x0104, [⟨2, .text, true⟩, ⟨3, .text, false⟩, ⟨4, .uint, true⟩]),
     (0x0105, [⟨2, .text, true⟩, ⟨3, .text, true⟩]),
     (0x0106, [⟨2, .text, true⟩, ⟨3, .uint, true⟩]),
     (0x0107, [⟨2, .text, true⟩, ⟨3, .text, true⟩, ⟨4, .text, false⟩]),
     (0x0108,
        [⟨2, .array, true⟩, ⟨3, .array, true⟩, ⟨4, .text, false⟩, ⟨5, .map, false⟩,
         ⟨6, .text, false⟩, ⟨7, .uint, true⟩]),
     (0x0109, [⟨2, .text, true⟩, ⟨3, .text, true⟩]),
     (0x010A,
        [⟨2, .text, true⟩, ⟨3, .uint, true⟩, ⟨4, .array, false⟩, ⟨5, .text, false⟩,
         ⟨6, .uint, true⟩]),
     (0x010B, [⟨2, .text, true⟩, ⟨3, .text, true⟩]),
     (0x010C, [⟨2, .text, true⟩, ⟨3, .uint, true⟩]),
     (0x010D, [⟨2, .text, true⟩, ⟨3, .text, true⟩, ⟨4, .array, false⟩, ⟨5, .array, false⟩]),
     (0x010E, [⟨2, .uint, true⟩, ⟨3, .text, true⟩, ⟨4, .uint, false⟩, ⟨5, .text, false⟩])]

/-- A required field of a nested map, one `match` of the commerce checks: what `pick` finds under its
key, or the text for a missing or a mistyped one. -/
def required {α : Type} (m : List CborEntry) (key : UInt64) (pick : CborValue → Option α)
    (missing mistyped : String) : Except Malformed α :=
  match mapGet m key with
  | none => err missing
  | some v => match pick v with | some a => .ok a | none => err mistyped

def pickNumber : CborValue → Option Unit
  | .uint _ => some ()
  | .nint _ => some ()
  | _ => none

def pickUint : CborValue → Option Unit
  | .uint _ => some ()
  | _ => none

def pickText : CborValue → Option Str
  | .text s => some s
  | _ => none

def validateCommerceAmount : CborValue → Except Malformed Unit
  | .map m => do
      let _ ← required m 0 pickNumber "`amount` omits REQUIRED units (0) (§4.3)"
        "`amount` units (0) is not an integer (§4.3)"
      let _ ← required m 1 pickUint "`amount` omits REQUIRED scale (1) (§4.3)"
        "`amount` scale (1) is not an unsigned int (§4.3)"
      let _ ← required m 2 pickText "`amount` omits REQUIRED currency (2) (§4.3)"
        "`amount` currency (2) is not a text string (§4.3)"
      forwardCompatKeys m
  | _ => err "`amount` is not a CBOR map (§4.3)"

def legAmount (m : List CborEntry) : Except Malformed Unit :=
  match mapGet m 2 with
  | some a => validateCommerceAmount a
  | none => err "a leg omits REQUIRED `amount` (2) (§6.6)"

/-- `parties.iter().any(|p| p == s)`: strings are compared by their octets. -/
def checkParty (parties : List Str) (s : Str) (text : String) : Except Malformed Unit :=
  if parties.any fun p => p.octets == s.octets then .ok () else err text

def validateCommerceLeg (v : CborValue) (parties : List Str) : Except Malformed Unit :=
  match v with
  | .map m => do
      let frm ← required m 0 pickText "a leg omits REQUIRED `from` (0) (§6.6)"
        "a leg `from` (0) is not a text string (§6.6)"
      let to' ← required m 1 pickText "a leg omits REQUIRED `to` (1) (§6.6)"
        "a leg `to` (1) is not a text string (§6.6)"
      legAmount m
      checkParty parties frm "leg `from` names a party not in `parties` (§6.6)"
      checkParty parties to' "leg `to` names a party not in `parties` (§6.6)"
      forwardCompatKeys m
  | _ => err "a settlement leg is not a CBOR map (§6.6)"

def partyText : CborValue → Except Malformed Str
  | .text s => .ok s
  | _ => err "a `parties` element is not a text string (§6.6)"

def commerceParties (m : List CborEntry) : Except Malformed (List Str) :=
  match mapGet m 2 with
  | some (.array a) => a.mapM partyText
  | _ => err "missing parties (2) array (§6.6)"

def validateCommerceNested (ft : UInt64) (m : List CborEntry) : Except Malformed Unit :=
  if ft = 0x0100 then
    match mapGet m 4 with
    | some a => validateCommerceAmount a
    | none => .ok ()
  else if ft = 0x0108 then do
    let parties ← commerceParties m
    (elements (mapGet m 3)).forM fun lg => validateCommerceLeg lg parties
  else .ok ()

def validateCommerce (ft : UInt64) (payload : Bytes) : Except Malformed (List CborEntry) :=
  validateBody "a Commerce" commerceSchema (fun _ => checkCorrRequired) validateCommerceNested ft
    payload

def interactionSchema (ft : UInt64) : Option (List Field) :=
  List.lookup ft
    [(0x0100, [⟨2, .uint, true⟩, ⟨3, .text, false⟩, ⟨4, .map, false⟩, ⟨5, .bool, false⟩]),
     (0x0101, []),
     (0x0102,
        [⟨2, .uint, true⟩, ⟨3, .text, true⟩, ⟨4, .array, false⟩, ⟨5, .map, false⟩,
         ⟨6, .uint, false⟩]),
     (0x0103, [⟨2, .uint, true⟩]),
     (0x0104, [⟨2, .text, true⟩, ⟨3, .uint, false⟩, ⟨4, .map, false⟩, ⟨5, .uint, false⟩]),
     (0x0105, [⟨2, .uint, true⟩, ⟨3, .text, false⟩]),
     (0x0106, [⟨2, .uint, false⟩]),
     (0x0107, [⟨2, .uint, true⟩, ⟨3, .text, true⟩, ⟨4, .uint, false⟩, ⟨5, .text, false⟩])]

def validateInteraction (ft : UInt64) (payload : Bytes) : Except Malformed (List CborEntry) :=
  validateBody "an Interaction" interactionSchema (fun _ => checkCorrRequired) (fun _ _ => .ok ())
    ft payload

def workflowSchema (ft : UInt64) : Option (List Field) :=
  List.lookup ft
    [(0x0100,
        [⟨2, .text, true⟩, ⟨3, .bytes, false⟩, ⟨4, .map, false⟩, ⟨5, .uint, false⟩,
         ⟨6, .text, false⟩, ⟨7, .text, false⟩, ⟨8, .text, false⟩, ⟨9, .text, false⟩,
         ⟨10, .map, false⟩, ⟨11, .uint, true⟩]),
     (0x0101, [⟨2, .text, true⟩, ⟨3, .uint, true⟩]),
     (0x0102, [⟨2, .text, true⟩]),
     (0x0103,
        [⟨2, .text, true⟩, ⟨3, .uint, true⟩, ⟨4, .uint, false⟩, ⟨5, .text, false⟩,
         ⟨6, .uint, false⟩, ⟨7, .text, false⟩]),
     (0x0104, [⟨2, .text, true⟩, ⟨3, .text, false⟩]),
     (0x0105, [⟨2, .text, true⟩, ⟨3, .uint, true⟩]),
     (0x0106,
        [⟨2, .text, true⟩, ⟨3, .uint, true⟩, ⟨4, .uint, true⟩, ⟨5, .uint, false⟩,
         ⟨6, .text, false⟩, ⟨7, .uint, false⟩, ⟨8, .bytes, false⟩, ⟨9, .text, false⟩]),
     (0x0107,
        [⟨2, .text, true⟩, ⟨3, .uint, true⟩, ⟨4, .uint, true⟩, ⟨5, .bytes, false⟩,
         ⟨6, .uint, false⟩, ⟨7, .text, false⟩]),
     (0x0108, [⟨2, .uint, true⟩, ⟨3, .text, true⟩, ⟨4, .uint, false⟩, ⟨5, .text, false⟩])]

def workflowHasCorr (ft : UInt64) : Bool := ft ≠ 0x0106 ∧ ft ≠ 0x0107

def validateWorkflow (ft : UInt64) (payload : Bytes) : Except Malformed (List CborEntry) :=
  validateBody "a Workflow" workflowSchema
    (fun ft m => if workflowHasCorr ft then checkCorrRequired m else .ok ()) (fun _ _ => .ok ()) ft
    payload

def knowledgeSchema (ft : UInt64) : Option (List Field) :=
  List.lookup ft
    [(0x0100,
        [⟨2, .text, false⟩, ⟨3, .text, false⟩, ⟨4, .text, false⟩, ⟨5, .text, false⟩,
         ⟨6, .uint, false⟩, ⟨8, .text, false⟩, ⟨9, .bytes, false⟩]),
     (0x0101,
        [⟨2, .array, true⟩, ⟨3, .bool, true⟩, ⟨4, .bytes, false⟩, ⟨5, .uint, false⟩,
         ⟨6, .bool, false⟩]),
     (0x0102, [⟨2, .array, true⟩]),
     (0x0103, [⟨2, .array, false⟩, ⟨3, .bool, true⟩]),
     (0x0104,
        [⟨2, .text, false⟩, ⟨3, .text, false⟩, ⟨4, .text, false⟩, ⟨5, .text, false⟩,
         ⟨7, .text, false⟩, ⟨8, .bool, false⟩, ⟨9, .uint, true⟩]),
     (0x0105, [⟨2, .bytes, true⟩, ⟨3, .uint, true⟩, ⟨4, .bool, false⟩]),
     (0x0106, [⟨2, .bytes, true⟩, ⟨3, .uint, true⟩, ⟨4, .array, false⟩, ⟨5, .array, false⟩]),
     (0x0107, [⟨2, .bytes, true⟩, ⟨3, .uint, true⟩, ⟨4, .uint, false⟩]),
     (0x0108, [⟨2, .bytes, true⟩]),
     (0x0109, [⟨2, .uint, true⟩, ⟨3, .text, true⟩, ⟨4, .uint, false⟩, ⟨5, .bytes, false⟩])]

def checkKnowledgeUpdate (ft : UInt64) (m : List CborEntry) : Except Malformed Unit :=
  if ft = 0x0106 ∧ !mapHas m 4 ∧ !mapHas m 5 then
    err "KNOWLEDGE_UPDATE carries neither results (4) nor removed (5) (§6.5)"
  else .ok ()

def validateKnowledge (ft : UInt64) (payload : Bytes) : Except Malformed (List CborEntry) :=
  validateBody "a Knowledge" knowledgeSchema (fun _ => checkCorrRequired) checkKnowledgeUpdate ft
    payload

def memorySchema (ft : UInt64) : Option (List Field) :=
  List.lookup ft
    [(0x0100,
        [⟨2, .text, true⟩, ⟨3, .text, false⟩, ⟨4, .text, false⟩, ⟨5, .text, false⟩,
         ⟨6, .text, false⟩, ⟨7, .text, false⟩, ⟨8, .text, false⟩, ⟨9, .text, false⟩,
         ⟨10, .map, false⟩, ⟨11, .uint, true⟩]),
     (0x0101, [⟨2, .text, true⟩, ⟨3, .text, true⟩]),
     (0x0102, [⟨2, .text, true⟩, ⟨3, .uint, true⟩]),
     (0x0103, [⟨2, .map, true⟩]),
     (0x0104,
        [⟨2, .text, true⟩, ⟨3, .text, false⟩, ⟨4, .text, false⟩, ⟨5, .text, false⟩,
         ⟨6, .text, false⟩, ⟨7, .text, false⟩, ⟨8, .text, false⟩, ⟨9, .map, false⟩,
         ⟨10, .uint, true⟩]),
     (0x0105, [⟨2, .text, true⟩, ⟨3, .text, true⟩]),
     (0x0106, [⟨2, .text, true⟩, ⟨3, .uint, true⟩]),
     (0x0107, [⟨2, .text, true⟩, ⟨3, .text, true⟩]),
     (0x0108,
        [⟨2, .text, false⟩, ⟨3, .text, false⟩, ⟨4, .text, false⟩, ⟨5, .text, false⟩,
         ⟨6, .text, false⟩, ⟨7, .uint, false⟩, ⟨8, .text, false⟩, ⟨9, .bytes, false⟩,
         ⟨10, .uint, true⟩]),
     (0x0109,
        [⟨2, .array, true⟩, ⟨3, .bool, true⟩, ⟨4, .bytes, false⟩, ⟨5, .uint, false⟩,
         ⟨6, .bool, false⟩]),
     (0x010A, [⟨2, .array, true⟩]),
     (0x010B, [⟨2, .array, false⟩, ⟨3, .bool, true⟩]),
     (0x010C, []),
     (0x010D, [⟨2, .text, true⟩, ⟨3, .text, false⟩, ⟨4, .uint, false⟩, ⟨5, .map, false⟩]),
     (0x010E, [⟨2, .uint, true⟩, ⟨3, .text, true⟩, ⟨4, .uint, false⟩, ⟨5, .text, false⟩]),
     (0x0035, [⟨2, .text, true⟩, ⟨3, .text, false⟩, ⟨4, .uint, true⟩]),
     (0x0036, [⟨2, .text, true⟩, ⟨3, .uint, true⟩])]

def checkSubStreamIdRequired (m : List CborEntry) : Except Malformed Unit :=
  match mapGet m 1 with
  | none => err "missing sub_stream_id (1)"
  | some (.uint _) => .ok ()
  | some _ => err "sub_stream_id (1) is not an unsigned int"

def streamSchema (ft : UInt64) : Option (List Field) :=
  List.lookup ft
    [(0x0100, [⟨2, .uint, true⟩, ⟨3, .uint, true⟩, ⟨4, .text, false⟩, ⟨5, .uint, false⟩]),
     (0x0101, [⟨2, .uint, true⟩, ⟨3, .bytes, true⟩, ⟨4, .uint, false⟩]),
     (0x0102, [⟨2, .uint, true⟩]),
     (0x0103, [⟨2, .uint, true⟩, ⟨3, .uint, true⟩]),
     (0x0104, [⟨2, .uint, true⟩])]

def validateMemory (ft : UInt64) (payload : Bytes) : Except Malformed (List CborEntry) :=
  validateBody "a Memory" memorySchema (fun _ => checkCorrRequired) (fun _ _ => .ok ()) ft payload

def validateStream (ft : UInt64) (payload : Bytes) : Except Malformed (List CborEntry) :=
  validateBody "a Stream" streamSchema (fun _ => checkSubStreamIdRequired) (fun _ _ => .ok ()) ft
    payload

end Npamp.Rust
