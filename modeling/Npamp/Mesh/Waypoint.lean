import Npamp.Lib.Json
import Npamp.Mesh.Identity

/-!
# The waypoint

`nz-waypoint-core` and the filter `nz-waypoint-wasm`. The filter's authority and grants come from a
JSON document, which `serde_json` decodes.
-/

namespace Npamp.Mesh

inductive EffectClass where
  | readOnly
  | idempotentWrite
  | nonIdempotentWrite
  | destructive
  deriving DecidableEq, Repr

namespace EffectClass

def rank : EffectClass → Nat
  | readOnly => 0
  | idempotentWrite => 1
  | nonIdempotentWrite => 2
  | destructive => 3

instance : LE EffectClass := ⟨fun a b => a.rank ≤ b.rank⟩

instance : LT EffectClass := ⟨fun a b => a.rank < b.rank⟩

instance (a b : EffectClass) : Decidable (a ≤ b) := inferInstanceAs (Decidable (a.rank ≤ b.rank))

instance (a b : EffectClass) : Decidable (a < b) := inferInstanceAs (Decidable (a.rank < b.rank))

/-- `from_wire`: an octet that names no class is the highest. -/
def fromWire (v : UInt8) : EffectClass :=
  if v = 0 then readOnly
  else if v = 1 then idempotentWrite
  else if v = 2 then nonIdempotentWrite
  else destructive

end EffectClass

inductive WaypointDenied where
  | wrongAudience (objectAudience expected : Str)
  | effectExceedsGrant (objectEffect maxGrant : EffectClass)
  deriving DecidableEq, Repr

structure AuthzHook where
  maxGrantForSigner : Str → Option EffectClass
  consumingAuthority : Str

def resolvedMaxGrant (hook : AuthzHook) (signerId : Str) : EffectClass :=
  (hook.maxGrantForSigner signerId).getD .readOnly

def authorize (hook : AuthzHook) (signerId audience : Str) (objectEffect : EffectClass) :
    Except WaypointDenied Unit :=
  if audience ≠ hook.consumingAuthority then
    .error (.wrongAudience audience hook.consumingAuthority)
  else if resolvedMaxGrant hook signerId < objectEffect then
    .error (.effectExceedsGrant objectEffect (resolvedMaxGrant hook signerId))
  else .ok ()

/-- `TableAuthzHook::new`: of two grants to one signer the table keeps the later. -/
def tableAuthzHook (consumingAuthority : Str) (grants : List (Str × EffectClass)) : AuthzHook where
  maxGrantForSigner signerId := grants.reverse.lookup signerId
  consumingAuthority := consumingAuthority

inductive CarriageClass where
  | http
  | jsonRpc
  | msg
  | stream
  | opaqueBytes
  deriving DecidableEq, Repr

inductive TransportHint where
  | http11
  | http2
  | streamableHttpJsonRpc
  | grpc
  | webSocket
  | stdioJsonRpc
  | rawTcp
  deriving DecidableEq, Repr

def classify : TransportHint → CarriageClass
  | .http11 => .http
  | .http2 => .http
  | .streamableHttpJsonRpc => .jsonRpc
  | .stdioJsonRpc => .jsonRpc
  | .grpc => .stream
  | .webSocket => .msg
  | .rawTcp => .opaqueBytes

def eqIgnoreAsciiCase (a b : Str) : Bool := a.map Char.toLower == b.map Char.toLower

def transportHintFromContentType : Option Str → TransportHint
  | some ct =>
    if eqIgnoreAsciiCase ct "application/json-rpc".toList
        || eqIgnoreAsciiCase ct "application/vnd.npamp.jsonrpc+json".toList then
      .streamableHttpJsonRpc
    else .http11
  | none => .http11

abbrev Headers := Str → Option Str

def signerHeader : Str := "npamp-signer-id".toList

def audienceHeader : Str := "npamp-audience".toList

def effectHeader : Str := "npamp-effect".toList

inductive TripleExtractError where
  | missingHeader (name : Str)
  | malformedEffect (raw : Str)
  deriving DecidableEq, Repr

def isWhitespace (c : Char) : Bool :=
  (9 ≤ c.toNat && c.toNat ≤ 13) || (0x2000 ≤ c.toNat && c.toNat ≤ 0x200a)
    || [0x20, 0x85, 0xa0, 0x1680, 0x2028, 0x2029, 0x202f, 0x205f, 0x3000].contains c.toNat

def trim (s : Str) : Str :=
  (((s.dropWhile isWhitespace).reverse).dropWhile isWhitespace).reverse

def pushDigit (acc : Nat) (c : Char) : Option Nat :=
  if c.isDigit ∧ 10 * acc + (c.toNat - '0'.toNat) ≤ 255 then
    some (10 * acc + (c.toNat - '0'.toNat))
  else none

/-- `str::parse::<u8>`: decimal digits, behind an optional plus sign. -/
def parseU8 (s : Str) : Option UInt8 :=
  let digits := if s.head? = some '+' then s.tail else s
  if digits = [] then none else (digits.foldlM pushDigit 0).map UInt8.ofNat

def extractTriple (headers : Headers) : Except TripleExtractError (Str × Str × EffectClass) :=
  match headers signerHeader with
  | none => .error (.missingHeader signerHeader)
  | some signerId =>
    match headers audienceHeader with
    | none => .error (.missingHeader audienceHeader)
    | some audience =>
      match headers effectHeader with
      | none => .error (.missingHeader effectHeader)
      | some effectRaw =>
        match parseU8 (trim effectRaw) with
        | none => .error (.malformedEffect effectRaw)
        | some effectOctet => .ok (signerId, audience, .fromWire effectOctet)

inductive FilterDenied where
  | extraction (e : TripleExtractError)
  | authorization (e : WaypointDenied)
  deriving DecidableEq, Repr

def evaluateRequest (hook : AuthzHook) (headers : Headers) (contentType : Option Str) :
    Except FilterDenied CarriageClass :=
  match extractTriple headers with
  | .error e => .error (.extraction e)
  | .ok (signerId, audience, effect) =>
    match authorize hook signerId audience effect with
    | .error e => .error (.authorization e)
    | .ok () => .ok (classify (transportHintFromContentType contentType))

inductive Number where
  | posInt (n : UInt64)
  | negInt (n : Int64)
  | float (bits : UInt64)
  deriving DecidableEq, Repr

def asU64 : Json Number → Option UInt64
  | .number (.posInt n) => some n
  | _ => none

def grantOf (member : Str × Json Number) : Option (Str × EffectClass) :=
  match asU64 member.2 with
  | none => none
  | some n => if n.toNat ≤ 255 then some (member.1, .fromWire n.toUInt8) else none

def consumingAuthorityKey : Str := "consuming_authority".toList

def grantsKey : Str := "grants".toList

section Config

variable (fromSlice : Bytes → Option (Json Number))

def parseConfig (bytes : Bytes) : Str × List (Str × EffectClass) :=
  match fromSlice bytes with
  | none => ([], [])
  | some v =>
    (((v.get consumingAuthorityKey).bind Json.asString).getD [],
      (((v.get grantsKey).bind Json.asObject).getD []).filterMap grantOf)

def configuredHook (bytes : Bytes) : AuthzHook :=
  tableAuthzHook (parseConfig fromSlice bytes).1 (parseConfig fromSlice bytes).2

end Config

/-- The ceiling a configuration sets for a signer: an integer from 0 to 3, and read-only if there is
none. -/
def ceiling (config : Json Number) (signerId : Str) : EffectClass :=
  match ((config.get grantsKey).bind (Json.get signerId)).bind asU64 with
  | some n => if n.toNat ≤ 3 then .fromWire n.toUInt8 else .readOnly
  | none => .readOnly

structure Headers.Carry (headers : Headers) (signerId audience : Str) (effect : EffectClass) :
    Prop where
  signer : headers signerHeader = some signerId
  audience : headers audienceHeader = some audience
  effect : ∃ raw octet, headers effectHeader = some raw ∧ parseU8 (trim raw) = some octet
    ∧ EffectClass.fromWire octet = effect

/-- The configuration names the authority of the request's audience, and the effect is within the
signer's ceiling. -/
def Permits (document : Option (Json Number)) (headers : Headers) : Prop :=
  ∃ members signerId authority effect, document = some (.object members)
    ∧ (Json.object members).get consumingAuthorityKey = some (.string authority) ∧ authority ≠ []
    ∧ headers.Carry signerId authority effect ∧ effect ≤ ceiling (.object members) signerId

end Npamp.Mesh
