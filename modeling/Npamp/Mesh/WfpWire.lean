import Npamp.Error
import Npamp.Lib.Utf16

/-!
# Callout records

`wfp_wire.rs`. A slice or an index out of bounds is a panic here.
-/

namespace Npamp.Mesh.Wfp

def schemaVersion : UInt32 := 1

def fixedHeaderLen : Nat := 70

inductive WireLayer where
  | connectRedirectV4
  | connectRedirectV6
  | bindRedirectV4
  | bindRedirectV6
  deriving DecidableEq

inductive WireDirection where
  | outbound
  | inbound
  deriving DecidableEq

inductive WireAction where
  | permit
  | block
  | redirect
  deriving DecidableEq

inductive WfpWireError where
  | bufferShorterThanFixedHeader (available need : Nat)
  | unsupportedSchemaVersion (got supported : UInt32)
  | totalLengthExceedsBuffer (totalLength : UInt32) (available : Nat)
  | totalLengthTooSmall (totalLength : UInt32) (min : Nat)
  | frameTooShortForField (offset need available : Nat)
  | noteLengthMismatch (noteUnits : UInt16) (totalLength : UInt32)
  | unknownLayer (b : UInt8)
  | unknownDirection (b : UInt8)
  | unknownAction (b : UInt8)
  | unknownIpVersion (b : UInt8)
  | reservedFieldNotZero (v : UInt16)
  | nonZeroRedirectPortWithoutRedirectAction (port : UInt16)
  | mismatchedAddressFamilies
  | noteTooLong (units : Nat)

def encodeLayer : WireLayer → UInt8
  | .connectRedirectV4 => 0
  | .connectRedirectV6 => 1
  | .bindRedirectV4 => 2
  | .bindRedirectV6 => 3

def decodeLayer (b : UInt8) : Except WfpWireError WireLayer :=
  if b = 0 then .ok .connectRedirectV4
  else if b = 1 then .ok .connectRedirectV6
  else if b = 2 then .ok .bindRedirectV4
  else if b = 3 then .ok .bindRedirectV6
  else .error (.unknownLayer b)

def encodeDirection : WireDirection → UInt8
  | .outbound => 0
  | .inbound => 1

def decodeDirection (b : UInt8) : Except WfpWireError WireDirection :=
  if b = 0 then .ok .outbound
  else if b = 1 then .ok .inbound
  else .error (.unknownDirection b)

def encodeAction : WireAction → UInt8
  | .permit => 0
  | .block => 1
  | .redirect => 2

def decodeAction (b : UInt8) : Except WfpWireError WireAction :=
  if b = 0 then .ok .permit
  else if b = 1 then .ok .block
  else if b = 2 then .ok .redirect
  else .error (.unknownAction b)

abbrev Octets (n : Nat) := { b : Bytes // b.length = n }

inductive IpAddr where
  | v4 (octets : Octets 4)
  | v6 (octets : Octets 16)

inductive SocketAddr where
  | v4 (ip : Octets 4) (port : UInt16)
  | v6 (ip : Octets 16) (port : UInt16) (flowinfo scopeId : UInt32)

namespace SocketAddr

def new : IpAddr → UInt16 → SocketAddr
  | .v4 octets, port => .v4 octets port
  | .v6 octets, port => .v6 octets port 0 0

def ip : SocketAddr → IpAddr
  | v4 ip _ => .v4 ip
  | v6 ip _ _ _ => .v6 ip

def port : SocketAddr → UInt16
  | v4 _ port => port
  | v6 _ port _ _ => port

end SocketAddr

def addr16 : IpAddr → Bytes
  | .v4 octets => octets.val ++ List.replicate 12 0
  | .v6 octets => octets.val

def readAddr16 (bytes : Octets 16) (ipVersion : UInt8) : Except WfpWireError IpAddr :=
  if ipVersion = 4 then .ok (.v4 ⟨bytes.val.take 4, by simp [bytes.property]⟩)
  else if ipVersion = 6 then .ok (.v6 bytes)
  else .error (.unknownIpVersion ipVersion)

structure WfpCalloutRecord where
  processId : UInt64
  timestampQpc : UInt64
  layer : WireLayer
  direction : WireDirection
  action : WireAction
  localAddr : SocketAddr
  remote : SocketAddr
  redirectedRemotePort : UInt16
  note : List Char

def toLe (width value : Nat) : Bytes := (BigEndian.toBytes width value).reverse

def fromLe (b : Bytes) : Nat := BigEndian.ofBytes b.reverse

def ipVersionOf : IpAddr → IpAddr → Except WfpWireError UInt8
  | .v4 _, .v4 _ => .ok 4
  | .v6 _, .v6 _ => .ok 6
  | _, _ => .error .mismatchedAddressFamilies

def frame (rec : WfpCalloutRecord) (ipVersion : UInt8) (noteUnits : List UInt16) : Bytes :=
  toLe 4 (fixedHeaderLen + noteUnits.length * 2) ++ (toLe 4 schemaVersion.toNat
    ++ (toLe 8 rec.processId.toNat ++ (toLe 8 rec.timestampQpc.toNat
    ++ ([encodeLayer rec.layer, encodeDirection rec.direction, encodeAction rec.action, ipVersion]
    ++ (toLe 2 rec.localAddr.port.toNat ++ (toLe 2 rec.remote.port.toNat
    ++ (toLe 2 rec.redirectedRemotePort.toNat ++ (toLe 2 0 ++ (addr16 rec.localAddr.ip
    ++ (addr16 rec.remote.ip ++ (toLe 2 noteUnits.length
    ++ noteUnits.flatMap fun unit => toLe 2 unit.toNat)))))))))))

def encodeRecord (rec : WfpCalloutRecord) : Except WfpWireError Bytes :=
  if rec.action ≠ .redirect ∧ rec.redirectedRemotePort ≠ 0 then
    .error (.nonZeroRedirectPortWithoutRedirectAction rec.redirectedRemotePort)
  else
    match ipVersionOf rec.localAddr.ip rec.remote.ip with
    | .error e => .error e
    | .ok ipVersion =>
      let noteUnits := Utf16.encode rec.note
      if noteUnits.length > 0xFFFF then .error (.noteTooLong noteUnits.length)
      else .ok (frame rec ipVersion noteUnits)

/-- What ends a call without a result: an access out of bounds, a loop that goes on, an error. -/
inductive Stop where
  | panic
  | endless
  | err (e : WfpWireError)

/-- `buf[lo..lo + n].try_into().unwrap()`. -/
def arrayAt (buf : Bytes) (lo n : Nat) : Except Stop (Octets n) :=
  if h : lo + n ≤ buf.length then .ok ⟨slice buf lo (lo + n), by simp [slice]; omega⟩
  else .error .panic

def leAt (buf : Bytes) (lo n : Nat) : Except Stop Nat := do
  let b ← arrayAt buf lo n
  return fromLe b.val

def index (buf : Bytes) (i : Nat) : Except Stop UInt8 :=
  match buf[i]? with
  | none => .error .panic
  | some b => .ok b

def check (cond : Bool) (e : WfpWireError) : Except Stop Unit :=
  if cond then .ok () else .error (.err e)

def lift {α : Type} : Except WfpWireError α → Except Stop α
  | .error e => .error (.err e)
  | .ok a => .ok a

def totalLengthOf (buf : Bytes) : Except Stop UInt32 := do
  check (fixedHeaderLen ≤ buf.length) (.bufferShorterThanFixedHeader buf.length fixedHeaderLen)
  let totalLength := UInt32.ofNat (← leAt buf 0 4)
  let version := UInt32.ofNat (← leAt buf 4 4)
  check (version = schemaVersion) (.unsupportedSchemaVersion version schemaVersion)
  check (totalLength.toNat ≤ buf.length) (.totalLengthExceedsBuffer totalLength buf.length)
  check (fixedHeaderLen ≤ totalLength.toNat) (.totalLengthTooSmall totalLength fixedHeaderLen)
  return totalLength

/-- `chunks_exact(2)`. -/
def unitsOf : Bytes → List UInt16
  | a :: b :: rest => UInt16.ofNat (fromLe [a, b]) :: unitsOf rest
  | _ => []

def decodeFields (buf : Bytes) (totalLength : UInt32) : Except Stop WfpCalloutRecord := do
  let processId ← leAt buf 8 8
  let timestampQpc ← leAt buf 16 8
  let layer ← lift (decodeLayer (← index buf 24))
  let direction ← lift (decodeDirection (← index buf 25))
  let action ← lift (decodeAction (← index buf 26))
  let ipVersion ← index buf 27
  let localPort ← leAt buf 28 2
  let remotePort ← leAt buf 30 2
  let redirected := UInt16.ofNat (← leAt buf 32 2)
  let reserved := UInt16.ofNat (← leAt buf 34 2)
  check (reserved = 0) (.reservedFieldNotZero reserved)
  check (action = .redirect ∨ redirected = 0) (.nonZeroRedirectPortWithoutRedirectAction redirected)
  let localBytes ← arrayAt buf 36 16
  let remoteBytes ← arrayAt buf 52 16
  let localIp ← lift (readAddr16 localBytes ipVersion)
  let remoteIp ← lift (readAddr16 remoteBytes ipVersion)
  let noteUnits := UInt16.ofNat (← leAt buf 68 2)
  let noteEnd := fixedHeaderLen + noteUnits.toNat * 2
  check (noteEnd = totalLength.toNat) (.noteLengthMismatch noteUnits totalLength)
  check (noteEnd ≤ buf.length)
    (.frameTooShortForField fixedHeaderLen (noteUnits.toNat * 2) buf.length)
  return {
    processId := UInt64.ofNat processId
    timestampQpc := UInt64.ofNat timestampQpc
    layer, direction, action
    localAddr := .new localIp (UInt16.ofNat localPort)
    remote := .new remoteIp (UInt16.ofNat remotePort)
    redirectedRemotePort := redirected
    note := Utf16.lossy (unitsOf (slice buf fixedHeaderLen noteEnd)) }

def decodeRecord (buf : Bytes) : Except Stop (WfpCalloutRecord × Nat) := do
  let totalLength ← totalLengthOf buf
  let record ← decodeFields buf totalLength
  return (record, totalLength.toNat)

/-- The loop on the octets behind `offset`, for as many turns as there may be. -/
def recordsUpTo : Nat → Bytes → Except Stop (List WfpCalloutRecord)
  | _, [] => .ok []
  | 0, _ => .error .endless
  | fuel + 1, buf => do
    let (record, consumed) ← decodeRecord buf
    let records ← recordsUpTo fuel (buf.drop consumed)
    return record :: records

def decodeRecords (buf : Bytes) : Except Stop (List WfpCalloutRecord) := recordsUpTo buf.length buf

end Npamp.Mesh.Wfp
