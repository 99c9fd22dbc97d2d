import Npamp.Memory

/-!
# Operation bodies of the other channels

The validators of `stream_bodies.go` and the eight files like it. All but Telemetry share the schema
check of `memory_bodies.go`.
-/

namespace Npamp

open Sentinel

def checkFrameKind (s : Sentinel) (ft : FrameType) (m : List CborEntry) : Except GoError Unit :=
  match cborMapGet m 0 with
  | none => .error (s.errorf "missing frame_kind (0)")
  | some (.uint64 fkv) =>
    if fkv ≠ ft.toUInt64 then
      .error (s.errorf ("frame_kind 0x" ++ hexPadUpper 4 fkv.toUInt16.toNat
        ++ " contradicts frame type 0x" ++ hexPadUpper 4 ft.toNat))
    else .ok ()
  | some _ => .error (s.errorf "frame_kind (0) is not an unsigned int")

def checkCorr (s : Sentinel) (text : String) (m : List CborEntry) : Except GoError Unit :=
  match cborMapGet m 1 with
  | none => .error (s.errorf "missing corr (1)")
  | some (.bytes cb) =>
    if cb.length < 1 ∨ cb.length > 64 then .error (s.errorf text) else .ok ()
  | some _ => .error (s.errorf text)

structure BodyChannel where
  sentinel : Sentinel
  frameKindText : String
  schemas : List (FrameType × List MemField)
  correlation : FrameType → List CborEntry → Except GoError Unit
  nested : FrameType → List CborEntry → Except GoError Unit

/-- The shared body of the validators: the entries of an accepted payload's map. -/
def BodyChannel.validate (c : BodyChannel) (ft : FrameType) (payload : Bytes) :
    Except GoError (List CborEntry) :=
  match c.schemas.lookup ft with
  | none =>
    .error (c.sentinel.errorf ("0x" ++ hexPadUpper 4 ft.toNat ++ " is not " ++ c.frameKindText))
  | some schema =>
    match cborDecodeTop payload with
    | .error e => .error (c.sentinel.errorf e.text)
    | .ok (.cborMap m) => do
        checkFrameKind c.sentinel ft m
        c.correlation ft m
        (checkFields m schema).mapError fun e => c.sentinel.errorf e.text
        c.nested ft m
        return m
    | .ok _ => .error (c.sentinel.errorf "payload is not a CBOR map")

def corrText : String := "corr (1) must be a byte string of 1–64 bytes"

def frameStreamOpen : FrameType := 0x0100
def frameStreamData : FrameType := 0x0101
def frameStreamClose : FrameType := 0x0102
def frameStreamReset : FrameType := 0x0103
def frameStreamWindowUpdate : FrameType := 0x0104

def streamSchemas : List (FrameType × List MemField) :=
  [(frameStreamOpen, [⟨2, .uint, true⟩, ⟨3, .uint, true⟩, ⟨4, .text, false⟩, ⟨5, .uint, false⟩]),
   (frameStreamData, [⟨2, .uint, true⟩, ⟨3, .bytes, true⟩, ⟨4, .uint, false⟩]),
   (frameStreamClose, [⟨2, .uint, true⟩]),
   (frameStreamReset, [⟨2, .uint, true⟩, ⟨3, .uint, true⟩]),
   (frameStreamWindowUpdate, [⟨2, .uint, true⟩])]

def checkSubStreamID (m : List CborEntry) : Except GoError Unit :=
  match cborMapGet m 1 with
  | none => .error (errStreamMalformed.errorf "missing sub_stream_id (1)")
  | some (.uint64 _) => .ok ()
  | some _ =>
    .error (errStreamMalformed.errorf "sub_stream_id (1) is not an unsigned int")

def streamChannel : BodyChannel where
  sentinel := .errStreamMalformed
  frameKindText := "a Stream frame type"
  schemas := streamSchemas
  correlation _ := checkSubStreamID
  nested _ _ := .ok ()

def validateStreamPayload (ft : FrameType) (payload : Bytes) : Except GoError (List CborEntry) :=
  streamChannel.validate ft payload

def frameCapIssueReq : FrameType := 0x0100
def frameCapIssueResult : FrameType := 0x0101
def frameCapDelegateReq : FrameType := 0x0102
def frameCapDelegateResult : FrameType := 0x0103
def frameCapRevokeReq : FrameType := 0x0104
def frameCapRevokeResult : FrameType := 0x0105
def frameCapLookupReq : FrameType := 0x0106
def frameCapLookupResult : FrameType := 0x0107
def frameCapError : FrameType := 0x0108
def frameCapTokenPresent : FrameType := 0x0060
def frameCapTokenAccept : FrameType := 0x0061
def frameCapTokenChallenge : FrameType := 0x0062
def frameCapTokenProof : FrameType := 0x0063

def capabilitySchemas : List (FrameType × List MemField) :=
  [(frameCapIssueReq,
      [⟨2, .text, true⟩, ⟨3, .text, true⟩, ⟨4, .map, false⟩, ⟨5, .text, false⟩, ⟨6, .text, false⟩,
       ⟨7, .uint, false⟩, ⟨8, .text, false⟩, ⟨9, .uint, true⟩]),
   (frameCapIssueResult, [⟨2, .map, true⟩, ⟨3, .text, true⟩]),
   (frameCapDelegateReq,
      [⟨2, .text, true⟩, ⟨3, .text, true⟩, ⟨4, .map, false⟩, ⟨5, .text, false⟩, ⟨6, .uint, false⟩,
       ⟨7, .uint, true⟩]),
   (frameCapDelegateResult, [⟨2, .map, true⟩, ⟨3, .text, true⟩]),
   (frameCapRevokeReq, [⟨2, .text, true⟩, ⟨3, .bool, false⟩, ⟨4, .text, false⟩, ⟨5, .uint, true⟩]),
   (frameCapRevokeResult, [⟨2, .text, true⟩, ⟨3, .text, true⟩, ⟨4, .uint, false⟩]),
   (frameCapLookupReq,
      [⟨2, .text, false⟩, ⟨3, .text, false⟩, ⟨4, .text, false⟩, ⟨5, .bool, false⟩,
       ⟨6, .uint, false⟩, ⟨7, .bytes, false⟩, ⟨8, .uint, true⟩]),
   (frameCapLookupResult, [⟨2, .array, true⟩, ⟨3, .bool, true⟩, ⟨4, .bytes, false⟩]),
   (frameCapError, [⟨2, .uint, true⟩, ⟨3, .text, true⟩, ⟨4, .uint, false⟩, ⟨5, .text, false⟩]),
   (frameCapTokenPresent, [⟨2, .map, true⟩, ⟨3, .array, false⟩, ⟨4, .uint, true⟩]),
   (frameCapTokenAccept, [⟨2, .text, true⟩, ⟨3, .text, true⟩]),
   (frameCapTokenChallenge, [⟨2, .text, true⟩, ⟨3, .bytes, true⟩, ⟨4, .uint, true⟩]),
   (frameCapTokenProof, [⟨2, .text, true⟩, ⟨3, .bytes, true⟩])]

def capabilityChannel : BodyChannel where
  sentinel := .errCapMalformed
  frameKindText := "a Capability operation frame type"
  schemas := capabilitySchemas
  correlation _ :=
    checkCorr .errCapMalformed "corr (1) must be a non-empty byte string of 1–64 bytes"
  nested _ _ := .ok ()

def validateCapabilityPayload (ft : FrameType) (payload : Bytes) :
    Except GoError (List CborEntry) :=
  capabilityChannel.validate ft payload

def frameImmuneReportReq : FrameType := 0x0100
def frameImmuneReportResult : FrameType := 0x0101
def frameImmuneError : FrameType := 0x0102
def frameImmuneGossipAdvertise : FrameType := 0x00C0
def frameImmuneGossipAck : FrameType := 0x00C1
def frameImmuneGossipPullReq : FrameType := 0x00C2
def frameImmuneGossipPullResult : FrameType := 0x00C3
def frameImmuneGossipRetract : FrameType := 0x00C4

def immuneSchemas : List (FrameType × List MemField) :=
  [(frameImmuneReportReq,
      [⟨2, .text, true⟩, ⟨3, .uint, true⟩, ⟨4, .uint, true⟩, ⟨5, .text, false⟩, ⟨6, .text, false⟩,
       ⟨7, .text, false⟩, ⟨8, .bytes, false⟩, ⟨9, .uint, false⟩, ⟨10, .text, false⟩]),
   (frameImmuneReportResult, [⟨2, .uint, true⟩, ⟨3, .text, false⟩]),
   (frameImmuneError, [⟨2, .uint, true⟩, ⟨3, .text, true⟩, ⟨4, .uint, false⟩]),
   (frameImmuneGossipAdvertise, [⟨2, .array, true⟩, ⟨3, .bool, false⟩]),
   (frameImmuneGossipAck, [⟨2, .array, false⟩, ⟨3, .array, false⟩, ⟨4, .uint, false⟩]),
   (frameImmuneGossipPullReq, [⟨2, .array, true⟩]),
   (frameImmuneGossipPullResult, [⟨2, .array, true⟩]),
   (frameImmuneGossipRetract, [⟨2, .bytes, true⟩, ⟨3, .uint, true⟩, ⟨4, .uint, false⟩])]

def gossipDescriptorSchema : List MemField :=
  [⟨0, .bytes, true⟩, ⟨1, .uint, true⟩, ⟨2, .uint, false⟩, ⟨3, .uint, false⟩, ⟨4, .bytes, false⟩,
   ⟨5, .text, false⟩, ⟨6, .text, false⟩, ⟨7, .uint, false⟩, ⟨8, .bytes, false⟩, ⟨9, .bytes, false⟩]

/-- Unlike a descriptor, an item must carry its body (8). -/
def gossipItemSchema : List MemField :=
  [⟨0, .bytes, true⟩, ⟨1, .uint, true⟩, ⟨2, .uint, false⟩, ⟨3, .uint, false⟩, ⟨4, .bytes, false⟩,
   ⟨5, .text, false⟩, ⟨6, .text, false⟩, ⟨7, .uint, false⟩, ⟨8, .bytes, true⟩]

def checkGossipElement (nested : List MemField) (i : Nat) : CborValue → Except GoError Unit
  | .cborMap em =>
    (checkFields em nested).mapError fun e =>
      errImmuneMalformed.errorf ("items[" ++ toString i ++ "]: " ++ e.text)
  | _ =>
    .error (errImmuneMalformed.errorf
      ("items[" ++ toString i ++ "] is not a CBOR map"))

def validateGossipArray (m : List CborEntry) (nested : List MemField) : Except GoError Unit :=
  match cborMapGet m 2 with
  | none => .error (errImmuneMalformed.errorf "missing items (2)")
  | some (.array arr) => arr.zipIdx.forM fun el => checkGossipElement nested el.2 el.1
  | some _ => .error (errImmuneMalformed.errorf "items (2) is not an array")

def validateImmuneNested (ft : FrameType) (m : List CborEntry) : Except GoError Unit :=
  if ft = frameImmuneGossipAdvertise then validateGossipArray m gossipDescriptorSchema
  else if ft = frameImmuneGossipPullResult then validateGossipArray m gossipItemSchema
  else .ok ()

def immuneChannel : BodyChannel where
  sentinel := .errImmuneMalformed
  frameKindText := "an Immune operation frame type"
  schemas := immuneSchemas
  correlation _ := checkCorr .errImmuneMalformed corrText
  nested := validateImmuneNested

def validateImmunePayload (ft : FrameType) (payload : Bytes) : Except GoError (List CborEntry) :=
  immuneChannel.validate ft payload

def frameSettleIntentReq : FrameType := 0x0100
def frameSettleIntentResult : FrameType := 0x0101
def frameReceiptReq : FrameType := 0x0102
def frameReceiptResult : FrameType := 0x0103
def frameSettleError : FrameType := 0x0104
def frameSettleBatchCommitReq : FrameType := 0x00A0
def frameSettleBatchCommitResult : FrameType := 0x00A1

def settlementSchemas : List (FrameType × List MemField) :=
  [(frameSettleIntentReq,
      [⟨2, .text, true⟩, ⟨3, .text, false⟩, ⟨4, .text, false⟩, ⟨5, .text, false⟩,
       ⟨6, .text, false⟩, ⟨7, .text, false⟩, ⟨8, .uint, true⟩]),
   (frameSettleIntentResult, [⟨2, .text, true⟩, ⟨3, .text, true⟩, ⟨4, .text, false⟩]),
   (frameReceiptReq, [⟨2, .text, true⟩, ⟨3, .text, false⟩, ⟨4, .uint, true⟩]),
   (frameReceiptResult, [⟨2, .map, true⟩]),
   (frameSettleError,
      [⟨2, .uint, true⟩, ⟨3, .text, true⟩, ⟨4, .uint, false⟩, ⟨5, .text, false⟩]),
   (frameSettleBatchCommitReq,
      [⟨2, .text, true⟩, ⟨3, .bytes, true⟩, ⟨4, .text, false⟩, ⟨5, .uint, false⟩,
       ⟨6, .text, false⟩, ⟨7, .uint, true⟩]),
   (frameSettleBatchCommitResult, [⟨2, .text, true⟩, ⟨3, .text, true⟩, ⟨4, .text, false⟩])]

def settlementChannel : BodyChannel where
  sentinel := .errSettlementMalformed
  frameKindText := "a Settlement operation frame type"
  schemas := settlementSchemas
  correlation _ := checkCorr .errSettlementMalformed corrText
  nested _ _ := .ok ()

def validateSettlementPayload (ft : FrameType) (payload : Bytes) :
    Except GoError (List CborEntry) :=
  settlementChannel.validate ft payload

def frameCommerceMandateCreateReq : FrameType := 0x0100
def frameCommerceMandateCreateResult : FrameType := 0x0101
def frameCommerceMandateReadReq : FrameType := 0x0102
def frameCommerceMandateReadResult : FrameType := 0x0103
def frameCommerceMandateRevokeReq : FrameType := 0x0104
def frameCommerceMandateRevokeResult : FrameType := 0x0105
def frameCommerceMandateStatusReq : FrameType := 0x0106
def frameCommerceMandateStatusResult : FrameType := 0x0107
def frameCommerceIntentProposeReq : FrameType := 0x0108
def frameCommerceIntentProposeResult : FrameType := 0x0109
def frameCommerceIntentRespondReq : FrameType := 0x010A
def frameCommerceIntentRespondResult : FrameType := 0x010B
def frameCommerceIntentStatusReq : FrameType := 0x010C
def frameCommerceIntentStatusResult : FrameType := 0x010D
def frameCommerceError : FrameType := 0x010E

def commerceSchemas : List (FrameType × List MemField) :=
  [(frameCommerceMandateCreateReq,
      [⟨2, .text, true⟩, ⟨3, .text, true⟩, ⟨4, .map, true⟩, ⟨5, .text, false⟩, ⟨6, .text, false⟩,
       ⟨7, .text, false⟩, ⟨8, .map, false⟩, ⟨9, .text, false⟩, ⟨10, .bytes, false⟩,
       ⟨11, .text, false⟩, ⟨12, .text, false⟩, ⟨13, .uint, true⟩]),
   (frameCommerceMandateCreateResult, [⟨2, .text, true⟩, ⟨3, .text, true⟩]),
   (frameCommerceMandateReadReq, [⟨2, .text, true⟩, ⟨3, .uint, true⟩]),
   (frameCommerceMandateReadResult, [⟨2, .map, true⟩]),
   (frameCommerceMandateRevokeReq, [⟨2, .text, true⟩, ⟨3, .text, false⟩, ⟨4, .uint, true⟩]),
   (frameCommerceMandateRevokeResult, [⟨2, .text, true⟩, ⟨3, .text, true⟩]),
   (frameCommerceMandateStatusReq, [⟨2, .text, true⟩, ⟨3, .uint, true⟩]),
   (frameCommerceMandateStatusResult, [⟨2, .text, true⟩, ⟨3, .text, true⟩, ⟨4, .text, false⟩]),
   (frameCommerceIntentProposeReq,
      [⟨2, .array, true⟩, ⟨3, .array, true⟩, ⟨4, .text, false⟩, ⟨5, .map, false⟩,
       ⟨6, .text, false⟩, ⟨7, .uint, true⟩]),
   (frameCommerceIntentProposeResult, [⟨2, .text, true⟩, ⟨3, .text, true⟩]),
   (frameCommerceIntentRespondReq,
      [⟨2, .text, true⟩, ⟨3, .uint, true⟩, ⟨4, .array, false⟩, ⟨5, .text, false⟩,
       ⟨6, .uint, true⟩]),
   (frameCommerceIntentRespondResult, [⟨2, .text, true⟩, ⟨3, .text, true⟩]),
   (frameCommerceIntentStatusReq, [⟨2, .text, true⟩, ⟨3, .uint, true⟩]),
   (frameCommerceIntentStatusResult,
      [⟨2, .text, true⟩, ⟨3, .text, true⟩, ⟨4, .array, false⟩, ⟨5, .array, false⟩]),
   (frameCommerceError,
      [⟨2, .uint, true⟩, ⟨3, .text, true⟩, ⟨4, .uint, false⟩, ⟨5, .text, false⟩])]

def commerceErrorf (text : String) : GoError := errCommerceMalformed.errorf text

def checkCommerceKey : CborValue → Except GoError Unit
  | .uint64 _ => .ok ()
  | .int64 kk =>
    if kk < 0 then
      .error (commerceErrorf
        ("unknown negative key " ++ toString kk ++ " in a nested map (reserved, §4.4)"))
    else .ok ()
  | _ => .error (commerceErrorf "non-integer key in a nested map")

def commerceForwardCompatKeys (m : List CborEntry) : Except GoError Unit :=
  (m.map CborEntry.key).forM checkCommerceKey

def requiredField {α : Type} (m : List CborEntry) (key : UInt64) (pick : CborValue → Option α)
    (missing mistyped : String) : Except GoError α :=
  match cborMapGet m key with
  | none => .error (commerceErrorf missing)
  | some v => match pick v with | some a => .ok a | none => .error (commerceErrorf mistyped)

def pickInteger : CborValue → Option Unit
  | .uint64 _ => some ()
  | .int64 _ => some ()
  | _ => none

def pickUint64 : CborValue → Option Unit
  | .uint64 _ => some ()
  | _ => none

def pickString : CborValue → Option Bytes
  | .string s => some s
  | _ => none

def validateCommerceAmount : CborValue → Except GoError Unit
  | .cborMap m => do
      let _ ← requiredField m 0 pickInteger "`amount` omits REQUIRED units (0) (§4.3)"
        "`amount` units (0) is not an integer (§4.3)"
      let _ ← requiredField m 1 pickUint64 "`amount` omits REQUIRED scale (1) (§4.3)"
        "`amount` scale (1) is not an unsigned int (§4.3)"
      let _ ← requiredField m 2 pickString "`amount` omits REQUIRED currency (2) (§4.3)"
        "`amount` currency (2) is not a text string (§4.3)"
      commerceForwardCompatKeys m
  | _ => .error (commerceErrorf "`amount` is not a CBOR map (§4.3)")

def legAmount (m : List CborEntry) : Except GoError Unit :=
  match cborMapGet m 2 with
  | none => .error (commerceErrorf "a leg omits REQUIRED `amount` (2) (§6.6)")
  | some amt => validateCommerceAmount amt

def checkParty (parties : List Bytes) (s : Bytes) (text : String) : Except GoError Unit :=
  if s ∈ parties then .ok () else .error (commerceErrorf text)

def validateCommerceLeg (v : CborValue) (parties : List Bytes) : Except GoError Unit :=
  match v with
  | .cborMap m => do
      let frmS ← requiredField m 0 pickString "a leg omits REQUIRED `from` (0) (§6.6)"
        "a leg `from` (0) is not a text string (§6.6)"
      let toS ← requiredField m 1 pickString "a leg omits REQUIRED `to` (1) (§6.6)"
        "a leg `to` (1) is not a text string (§6.6)"
      legAmount m
      checkParty parties frmS "leg `from` names a party not in `parties` (§6.6)"
      checkParty parties toS "leg `to` names a party not in `parties` (§6.6)"
      commerceForwardCompatKeys m
  | _ => .error (commerceErrorf "a settlement leg is not a CBOR map (§6.6)")

def partyText : CborValue → Except GoError Bytes
  | .string s => .ok s
  | _ => .error (commerceErrorf "a `parties` element is not a text string (§6.6)")

def elements : Option CborValue → List CborValue
  | some (.array arr) => arr
  | _ => []

def commerceParties (m : List CborEntry) : Except GoError (List Bytes) :=
  (elements (cborMapGet m 2)).mapM partyText

def validateCommerceNested (ft : FrameType) (m : List CborEntry) : Except GoError Unit :=
  if ft = frameCommerceMandateCreateReq then
    match cborMapGet m 4 with
    | some av => validateCommerceAmount av
    | none => .ok ()
  else if ft = frameCommerceIntentProposeReq then do
    let parties ← commerceParties m
    (elements (cborMapGet m 3)).forM fun lg => validateCommerceLeg lg parties
  else .ok ()

def commerceChannel : BodyChannel where
  sentinel := .errCommerceMalformed
  frameKindText := "a Commerce operation frame type"
  schemas := commerceSchemas
  correlation _ := checkCorr .errCommerceMalformed corrText
  nested := validateCommerceNested

def validateCommercePayload (ft : FrameType) (payload : Bytes) : Except GoError (List CborEntry) :=
  commerceChannel.validate ft payload

def frameInteractEvent : FrameType := 0x0100
def frameInteractEventAck : FrameType := 0x0101
def frameInteractPromptReq : FrameType := 0x0102
def frameInteractPromptResult : FrameType := 0x0103
def frameInteractApprovalReq : FrameType := 0x0104
def frameInteractApprovalResult : FrameType := 0x0105
def frameInteractCancel : FrameType := 0x0106
def frameInteractError : FrameType := 0x0107

def interactionSchemas : List (FrameType × List MemField) :=
  [(frameInteractEvent, [⟨2, .uint, true⟩, ⟨3, .text, false⟩, ⟨4, .map, false⟩, ⟨5, .bool, false⟩]),
   (frameInteractEventAck, []),
   (frameInteractPromptReq,
      [⟨2, .uint, true⟩, ⟨3, .text, true⟩, ⟨4, .array, false⟩, ⟨5, .map, false⟩,
       ⟨6, .uint, false⟩]),
   (frameInteractPromptResult, [⟨2, .uint, true⟩]),
   (frameInteractApprovalReq,
      [⟨2, .text, true⟩, ⟨3, .uint, false⟩, ⟨4, .map, false⟩, ⟨5, .uint, false⟩]),
   (frameInteractApprovalResult, [⟨2, .uint, true⟩, ⟨3, .text, false⟩]),
   (frameInteractCancel, [⟨2, .uint, false⟩]),
   (frameInteractError,
      [⟨2, .uint, true⟩, ⟨3, .text, true⟩, ⟨4, .uint, false⟩, ⟨5, .text, false⟩])]

def interactionChannel : BodyChannel where
  sentinel := .errInteractionMalformed
  frameKindText := "an Interaction operation frame type"
  schemas := interactionSchemas
  correlation _ := checkCorr .errInteractionMalformed corrText
  nested _ _ := .ok ()

def validateInteractionPayload (ft : FrameType) (payload : Bytes) :
    Except GoError (List CborEntry) :=
  interactionChannel.validate ft payload

def frameWorkflowSubmitReq : FrameType := 0x0100
def frameWorkflowSubmitResult : FrameType := 0x0101
def frameWorkflowStatusReq : FrameType := 0x0102
def frameWorkflowStatusResult : FrameType := 0x0103
def frameWorkflowCancelReq : FrameType := 0x0104
def frameWorkflowCancelResult : FrameType := 0x0105
def frameWorkflowStepEvent : FrameType := 0x0106
def frameWorkflowComplete : FrameType := 0x0107
def frameWorkflowError : FrameType := 0x0108

def workflowSchemas : List (FrameType × List MemField) :=
  [(frameWorkflowSubmitReq,
      [⟨2, .text, true⟩, ⟨3, .bytes, false⟩, ⟨4, .map, false⟩, ⟨5, .uint, false⟩,
       ⟨6, .text, false⟩, ⟨7, .text, false⟩, ⟨8, .text, false⟩, ⟨9, .text, false⟩,
       ⟨10, .map, false⟩, ⟨11, .uint, true⟩]),
   (frameWorkflowSubmitResult, [⟨2, .text, true⟩, ⟨3, .uint, true⟩]),
   (frameWorkflowStatusReq, [⟨2, .text, true⟩]),
   (frameWorkflowStatusResult,
      [⟨2, .text, true⟩, ⟨3, .uint, true⟩, ⟨4, .uint, false⟩, ⟨5, .text, false⟩,
       ⟨6, .uint, false⟩, ⟨7, .text, false⟩]),
   (frameWorkflowCancelReq, [⟨2, .text, true⟩, ⟨3, .text, false⟩]),
   (frameWorkflowCancelResult, [⟨2, .text, true⟩, ⟨3, .uint, true⟩]),
   (frameWorkflowStepEvent,
      [⟨2, .text, true⟩, ⟨3, .uint, true⟩, ⟨4, .uint, true⟩, ⟨5, .uint, false⟩,
       ⟨6, .text, false⟩, ⟨7, .uint, false⟩, ⟨8, .bytes, false⟩, ⟨9, .text, false⟩]),
   (frameWorkflowComplete,
      [⟨2, .text, true⟩, ⟨3, .uint, true⟩, ⟨4, .uint, true⟩, ⟨5, .bytes, false⟩,
       ⟨6, .uint, false⟩, ⟨7, .text, false⟩]),
   (frameWorkflowError,
      [⟨2, .uint, true⟩, ⟨3, .text, true⟩, ⟨4, .uint, false⟩, ⟨5, .text, false⟩])]

def workflowFrameHasCorr (ft : FrameType) : Bool :=
  ft ≠ frameWorkflowStepEvent ∧ ft ≠ frameWorkflowComplete

def workflowChannel : BodyChannel where
  sentinel := .errWorkflowMalformed
  frameKindText := "a Workflow frame type"
  schemas := workflowSchemas
  correlation ft m :=
    if workflowFrameHasCorr ft then checkCorr .errWorkflowMalformed corrText m else .ok ()
  nested _ _ := .ok ()

def validateWorkflowPayload (ft : FrameType) (payload : Bytes) : Except GoError (List CborEntry) :=
  workflowChannel.validate ft payload

def frameKnowledgeQueryReq : FrameType := 0x0100
def frameKnowledgeQueryResult : FrameType := 0x0101
def frameKnowledgeQueryStreamData : FrameType := 0x0102
def frameKnowledgeQueryStreamEnd : FrameType := 0x0103
def frameKnowledgeSubscribeReq : FrameType := 0x0104
def frameKnowledgeSubscribeAck : FrameType := 0x0105
def frameKnowledgeUpdate : FrameType := 0x0106
def frameKnowledgeCredit : FrameType := 0x0107
def frameKnowledgeUnsubscribe : FrameType := 0x0108
def frameKnowledgeError : FrameType := 0x0109

def knowledgeSchemas : List (FrameType × List MemField) :=
  [(frameKnowledgeQueryReq,
      [⟨2, .text, false⟩, ⟨3, .text, false⟩, ⟨4, .text, false⟩, ⟨5, .text, false⟩,
       ⟨6, .uint, false⟩, ⟨8, .text, false⟩, ⟨9, .bytes, false⟩]),
   (frameKnowledgeQueryResult,
      [⟨2, .array, true⟩, ⟨3, .bool, true⟩, ⟨4, .bytes, false⟩, ⟨5, .uint, false⟩,
       ⟨6, .bool, false⟩]),
   (frameKnowledgeQueryStreamData, [⟨2, .array, true⟩]),
   (frameKnowledgeQueryStreamEnd, [⟨2, .array, false⟩, ⟨3, .bool, true⟩]),
   (frameKnowledgeSubscribeReq,
      [⟨2, .text, false⟩, ⟨3, .text, false⟩, ⟨4, .text, false⟩, ⟨5, .text, false⟩,
       ⟨7, .text, false⟩, ⟨8, .bool, false⟩, ⟨9, .uint, true⟩]),
   (frameKnowledgeSubscribeAck, [⟨2, .bytes, true⟩, ⟨3, .uint, true⟩, ⟨4, .bool, false⟩]),
   (frameKnowledgeUpdate,
      [⟨2, .bytes, true⟩, ⟨3, .uint, true⟩, ⟨4, .array, false⟩, ⟨5, .array, false⟩]),
   (frameKnowledgeCredit, [⟨2, .bytes, true⟩, ⟨3, .uint, true⟩, ⟨4, .uint, false⟩]),
   (frameKnowledgeUnsubscribe, [⟨2, .bytes, true⟩]),
   (frameKnowledgeError,
      [⟨2, .uint, true⟩, ⟨3, .text, true⟩, ⟨4, .uint, false⟩, ⟨5, .bytes, false⟩])]

def checkKnowledgeUpdate (ft : FrameType) (m : List CborEntry) : Except GoError Unit :=
  if ft = frameKnowledgeUpdate ∧ (cborMapGet m 4).isNone ∧ (cborMapGet m 5).isNone then
    .error (errKnowledgeMalformed.errorf
      "KNOWLEDGE_UPDATE carries neither results (4) nor removed (5) (§6.5)")
  else .ok ()

def knowledgeChannel : BodyChannel where
  sentinel := .errKnowledgeMalformed
  frameKindText := "a Knowledge operation frame type"
  schemas := knowledgeSchemas
  correlation _ := checkCorr .errKnowledgeMalformed corrText
  nested := checkKnowledgeUpdate

def validateKnowledgePayload (ft : FrameType) (payload : Bytes) : Except GoError (List CborEntry) :=
  knowledgeChannel.validate ft payload

def frameTelemetryReport : FrameType := 0x0100
def frameTelemetrySubscribe : FrameType := 0x0101
def frameTelemetrySubAck : FrameType := 0x0102
def frameTelemetryUnsubscribe : FrameType := 0x0103
def frameTelemetryCredit : FrameType := 0x0104
def frameTelemetryError : FrameType := 0x0105

def isTelemetryFrame (ft : FrameType) : Bool := frameTelemetryReport ≤ ft ∧ ft ≤ frameTelemetryError

structure TelField where
  key : UInt64
  ok : CborValue → Bool
  required : Bool

def telIsUint : CborValue → Bool
  | .uint64 _ => true
  | _ => false

def telIsText : CborValue → Bool
  | .string _ => true
  | _ => false

def telIsBytes : CborValue → Bool
  | .bytes _ => true
  | _ => false

def telIsArray : CborValue → Bool
  | .array _ => true
  | _ => false

def telIsMap : CborValue → Bool
  | .cborMap _ => true
  | _ => false

def telIsNumber : CborValue → Bool
  | .uint64 _ => true
  | .int64 _ => true
  | _ => false

def telemetrySchemas : List (FrameType × List TelField) :=
  [(frameTelemetrySubscribe,
      [⟨2, telIsArray, false⟩, ⟨3, telIsArray, false⟩, ⟨4, telIsArray, false⟩,
       ⟨5, telIsUint, false⟩, ⟨6, telIsUint, false⟩, ⟨7, telIsUint, true⟩]),
   (frameTelemetrySubAck, [⟨2, telIsBytes, true⟩, ⟨3, telIsUint, true⟩, ⟨4, telIsArray, false⟩]),
   (frameTelemetryUnsubscribe, [⟨2, telIsBytes, true⟩]),
   (frameTelemetryCredit, [⟨2, telIsBytes, true⟩, ⟨3, telIsUint, true⟩, ⟨4, telIsUint, false⟩]),
   (frameTelemetryError, [⟨2, telIsUint, true⟩, ⟨3, telIsText, false⟩, ⟨4, telIsBytes, false⟩])]

def metricSchema : List TelField :=
  [⟨0, telIsText, true⟩, ⟨1, telIsUint, true⟩, ⟨2, telIsUint, true⟩, ⟨3, telIsNumber, true⟩,
   ⟨4, telIsText, false⟩, ⟨5, telIsMap, false⟩, ⟨6, telIsUint, false⟩]

def eventSchema : List TelField :=
  [⟨0, telIsText, true⟩, ⟨1, telIsUint, true⟩, ⟨2, telIsUint, false⟩, ⟨3, telIsMap, false⟩,
   ⟨4, telIsText, false⟩, ⟨5, telIsUint, false⟩]

def healthSchema : List TelField :=
  [⟨0, telIsText, true⟩, ⟨1, telIsUint, true⟩, ⟨2, telIsUint, true⟩, ⟨3, telIsText, false⟩,
   ⟨4, telIsMap, false⟩]

def telemetryErrorf (text : String) : GoError := errTelemetryMalformed.errorf text

def checkTelemetryKey : CborValue → Except GoError Unit
  | .uint64 _ => .ok ()
  | .int64 kk =>
    if kk < 0 then
      .error (telemetryErrorf ("unknown negative key " ++ toString kk ++ " (reserved, §4)"))
    else .ok ()
  | _ => .error (telemetryErrorf "non-integer map key")

def telemetryForwardCompat (m : List CborEntry) : Except GoError Unit :=
  (m.map CborEntry.key).forM checkTelemetryKey

def checkTelemetryField (m : List CborEntry) (f : TelField) : Except GoError Unit :=
  match cborMapGet m f.key with
  | none =>
    if f.required then
      .error (telemetryErrorf ("missing required field (key " ++ toString f.key ++ ")"))
    else .ok ()
  | some val =>
    if f.ok val then .ok ()
    else .error (telemetryErrorf ("field (key " ++ toString f.key ++ ") has the wrong CBOR type"))

def checkTelemetryFields (m : List CborEntry) (schema : List TelField) : Except GoError Unit := do
  schema.forM (checkTelemetryField m)
  telemetryForwardCompat m

def checkReportCorr (m : List CborEntry) : Except GoError Unit :=
  match cborMapGet m 1, cborMapGet m 2 with
  | some (.bytes cb), sub =>
    if cb.length < 1 ∨ cb.length > 64 then .error (telemetryErrorf corrText)
    else
      match sub with
      | none =>
        .error (telemetryErrorf "subscribed report carries corr (1) but omits sub_id (2)")
      | some sub =>
        if telIsBytes sub then .ok ()
        else .error (telemetryErrorf "sub_id (2) must be a byte string")
  | some _, _ => .error (telemetryErrorf corrText)
  | none, some _ =>
    .error (telemetryErrorf "standalone report carries sub_id (2) without corr (1)")
  | none, none => .ok ()

def checkBatchSeq (m : List CborEntry) : Except GoError Unit :=
  match cborMapGet m 3 with
  | none => .error (telemetryErrorf "missing required batch_seq (3)")
  | some bs =>
    if telIsUint bs then .ok ()
    else .error (telemetryErrorf "batch_seq (3) is not an unsigned int")

def reportContent : List (UInt64 × List TelField × String) :=
  [(4, metricSchema, "metric"), (5, eventSchema, "event"), (6, healthSchema, "health")]

def checkReportElement (schema : List TelField) (what : String) : CborValue → Except GoError Unit
  | .cborMap em => checkTelemetryFields em schema
  | _ => .error (telemetryErrorf (what ++ " array element is not a CBOR map"))

def checkReportArray (m : List CborEntry) (c : UInt64 × List TelField × String) :
    Except GoError Unit :=
  match cborMapGet m c.1 with
  | none => .ok ()
  | some (.array arr) => arr.forM (checkReportElement c.2.1 c.2.2)
  | some _ =>
    .error (telemetryErrorf
      (c.2.2 ++ " array (key " ++ toString c.1 ++ ") is not a CBOR array"))

def reportNonEmpty (m : List CborEntry) : Nat :=
  (reportContent.filter fun c => !(elements (cborMapGet m c.1)).isEmpty).length

def validateTelemetryReport (m : List CborEntry) : Except GoError (List CborEntry) := do
  checkReportCorr m
  checkBatchSeq m
  reportContent.forM (checkReportArray m)
  if reportNonEmpty m = 0 then
    .error (telemetryErrorf "TELEMETRY_REPORT carries no metrics, events, or health (§5)")
  else do
    telemetryForwardCompat m
    return m

def checkTelemetryCorr (m : List CborEntry) : Except GoError Unit :=
  checkCorr .errTelemetryMalformed corrText m

def validateTelemetryPayload (ft : FrameType) (payload : Bytes) : Except GoError (List CborEntry) :=
  if !isTelemetryFrame ft then
    .error (telemetryErrorf
      ("0x" ++ hexPadUpper 4 ft.toNat ++ " is not a Telemetry operation frame type"))
  else
    match cborDecodeTop payload with
    | .error e => .error (telemetryErrorf e.text)
    | .ok (.cborMap m) => do
        checkFrameKind .errTelemetryMalformed ft m
        if ft = frameTelemetryReport then validateTelemetryReport m
        else do
          checkTelemetryCorr m
          checkTelemetryFields m ((telemetrySchemas.lookup ft).getD [])
          return m
    | .ok _ => .error (telemetryErrorf "payload is not a CBOR map")

end Npamp
