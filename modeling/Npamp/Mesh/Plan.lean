import Npamp.Lib.Collect
import Npamp.Mesh.Agent
import Npamp.Mesh.Waypoint

/-!
# The desired state of a waypoint

`plan.rs` and `types.rs` of the Gateway-API controller. A message that `ReconcileError` formats is
kept as its parts. A map is the list of its entries.
-/

namespace Npamp.Mesh

open Collect (collect)

structure ParentRef where
  name : Str
  ns : Option Str
  kind : Option Str
  group : Option Str
  deriving DecidableEq, Repr

structure BackendRef where
  name : Str
  ns : Option Str
  kind : Option Str
  group : Option Str
  deriving DecidableEq, Repr

structure HttpRouteRule where
  backendRefs : List BackendRef
  deriving DecidableEq, Repr

structure HttpRouteSpec where
  parentRefs : List ParentRef
  rules : List HttpRouteRule
  deriving DecidableEq, Repr

structure RouteInput where
  ns : Str
  spec : HttpRouteSpec
  deriving DecidableEq, Repr

inductive WaypointConfigOp where
  | allow (source destination : SpiffeId)
  | registerPeer (pubkey : Bytes) (id : SpiffeId)
  | grantMaxEffect (signerId consumingAuthority : SpiffeId) (maxGrant : EffectClass)
  deriving DecidableEq

inductive ReconcileError where
  | noParentRef
  | crossNamespaceBackendRequiresReferenceGrant (routeNs backendNs backendName : Str)
  | badSpiffeId (ns name : Str) (e : SpiffeIdError)
  | badAnnotationEffectClass (s : Str)
  | badAnnotationPubkeyHex (s : Str)
  deriving DecidableEq, Repr

def spiffeIdForService (trustDomain ns name : Str) : Except ReconcileError SpiffeId :=
  match SpiffeId.parse
    ("spiffe://".toList ++ trustDomain ++ "/ns/".toList ++ ns ++ "/sa/".toList ++ name) with
  | .error e => .error (.badSpiffeId ns name e)
  | .ok id => .ok id

def isCoreGroup (g : Str) : Bool := g = [] || eqIgnoreAsciiCase g "core".toList

/-- Both fields have to be present. -/
def isMeshServiceParentRef (kind group : Option Str) : Bool :=
  kind = some "Service".toList && group.any isCoreGroup

/-- A field that is absent stands for a core Service. -/
def isServiceBackendRef (kind group : Option Str) : Bool :=
  kind.all (· = "Service".toList) && group.all isCoreGroup

section Route

variable (trustDomain routeNs : Str)

def planBackend (destination : SpiffeId) (backend : BackendRef) :
    Except ReconcileError (List WaypointConfigOp) :=
  if !isServiceBackendRef backend.kind backend.group then .ok []
  else
    let backendNs := backend.ns.getD routeNs
    if backendNs ≠ routeNs then
      .error (.crossNamespaceBackendRequiresReferenceGrant routeNs backendNs backend.name)
    else
      match spiffeIdForService trustDomain backendNs backend.name with
      | .error e => .error e
      | .ok source => .ok [.allow source destination]

def planParent (spec : HttpRouteSpec) (parent : ParentRef) :
    Except ReconcileError (List WaypointConfigOp) :=
  if !isMeshServiceParentRef parent.kind parent.group then .ok []
  else
    match spiffeIdForService trustDomain (parent.ns.getD routeNs) parent.name with
    | .error e => .error e
    | .ok destination =>
      collect (fun rule => collect (planBackend trustDomain routeNs destination) rule.backendRefs)
        spec.rules

def planRouteReconcile (spec : HttpRouteSpec) : Except ReconcileError (List WaypointConfigOp) :=
  if spec.parentRefs = [] then .error .noParentRef
  else collect (planParent trustDomain routeNs spec) spec.parentRefs

end Route

structure ServiceKey where
  ns : Str
  name : Str
  deriving DecidableEq, Repr

abbrev ServiceAnnotations := List (ServiceKey × List (Str × Str))

def maxEffectClassKey : Str := "npamp.bubblefish.io/max-effect-class".toList

def svidPubkeyHexKey : Str := "npamp.bubblefish.io/svid-pubkey-hex".toList

def parseEffectClassAnnotation (s : Str) : Except ReconcileError EffectClass :=
  if s = "read_only".toList ∨ s = "0".toList then .ok (.fromWire 0)
  else if s = "idempotent_write".toList ∨ s = "1".toList then .ok (.fromWire 1)
  else if s = "non_idempotent_write".toList ∨ s = "2".toList then .ok (.fromWire 2)
  else if s = "destructive".toList ∨ s = "3".toList then .ok (.fromWire 3)
  else .error (.badAnnotationEffectClass s)

/-- `&s[..n]` and `&s[n..]`: nothing where octet `n` is inside a character, at which Rust panics. -/
def splitOctets : Nat → Str → Option (Str × Str)
  | 0, s => some ([], s)
  | _ + 1, [] => none
  | n + 1, c :: s =>
    if c.utf8Size ≤ n + 1 then
      match splitOctets (n + 1 - c.utf8Size) s with
      | none => none
      | some (front, rest) => some (c :: front, rest)
    else none

def hexDigit (c : Char) : Option Nat :=
  if c.isDigit then some (c.toNat - '0'.toNat)
  else if 'a' ≤ c ∧ c ≤ 'f' then some (c.toNat - 'a'.toNat + 10)
  else if 'A' ≤ c ∧ c ≤ 'F' then some (c.toNat - 'A'.toNat + 10)
  else none

/-- `u8::from_str_radix(s, 16)` for at most two octets: digits, behind an optional plus sign. -/
def fromStrRadix16 (s : Str) : Option UInt8 :=
  let digits := if s.head? = some '+' ∧ 1 < s.length then s.tail else s
  if digits = [] then none
  else
    (digits.foldlM (fun n c => (hexDigit c).map (16 * n + ·)) 0).map UInt8.ofNat

def hexOctets (s : Str) : Nat → Str → Option (Except ReconcileError Bytes)
  | 0, _ => some (.ok [])
  | n + 1, rest =>
    match splitOctets 2 rest with
    | none => none
    | some (byteStr, rest) =>
      match fromStrRadix16 byteStr with
      | none => some (.error (.badAnnotationPubkeyHex s))
      | some octet =>
        match hexOctets s n rest with
        | none => none
        | some (.error e) => some (.error e)
        | some (.ok out) => some (.ok (octet :: out))

/-- Nothing if it panics. -/
def parsePubkeyHexAnnotation (s : Str) : Option (Except ReconcileError Bytes) :=
  if strLen s ≠ 64 then some (.error (.badAnnotationPubkeyHex s)) else hexOctets s 32 s

def serviceKeyOf (id : SpiffeId) (trustDomain : Str) : Option ServiceKey :=
  if id.trustDomain ≠ trustDomain then none
  else
    match (id.path.dropWhile (· = '/')).splitOn '/' with
    | [first, ns, third, name] =>
      if first = "ns".toList ∧ third = "sa".toList then some ⟨ns, name⟩ else none
    | _ => none

def insertService (key : ServiceKey) : List ServiceKey → List ServiceKey
  | [] => [key]
  | k :: ks =>
    if k = key then k :: ks
    else if key.ns < k.ns ∨ key.ns = k.ns ∧ key.name < k.name then key :: k :: ks
    else k :: insertService key ks

structure DesiredState where
  authz : AuthzTable
  peers : PeerDirectory
  grants : List WaypointConfigOp

structure Planning where
  authz : AuthzTable
  grants : List WaypointConfigOp
  services : List ServiceKey
  errors : List (Nat × ReconcileError)

def Planning.start : Planning := ⟨.new, [], [], []⟩

section State

variable (trustDomain : Str) (serviceAnnotations : ServiceAnnotations)

def annotatedClass (key : ServiceKey) : Option EffectClass :=
  match serviceAnnotations.lookup key with
  | none => none
  | some annotations =>
    match annotations.lookup maxEffectClassKey with
    | none => none
    | some grantToken => parseEffectClassAnnotation grantToken |>.toOption

def planOp (p : Planning) : WaypointConfigOp → Planning
  | .allow source destination =>
    let p := { p with authz := p.authz.allow source destination }
    match (serviceKeyOf source trustDomain).bind (annotatedClass serviceAnnotations) with
    | none => p
    | some maxGrant =>
      { p with grants := p.grants ++ [.grantMaxEffect source destination maxGrant] }
  | _ => p

def RouteInput.services (route : RouteInput) : List ServiceKey :=
  (route.spec.parentRefs.filter fun p => isMeshServiceParentRef p.kind p.group).map
      (fun p => ⟨p.ns.getD route.ns, p.name⟩)
    ++ (route.spec.rules.flatMap HttpRouteRule.backendRefs).filterMap fun b =>
      if isServiceBackendRef b.kind b.group then some ⟨b.ns.getD route.ns, b.name⟩ else none

def planRoute (p : Planning) (entry : RouteInput × Nat) : Planning :=
  match planRouteReconcile trustDomain entry.1.ns entry.1.spec with
  | .error e => { p with errors := p.errors ++ [(entry.2, e)] }
  | .ok ops =>
    let p := ops.foldl (planOp trustDomain serviceAnnotations) p
    { p with
      services := entry.1.services.foldl (fun keys key => insertService key keys) p.services }

/-- The body of the loop over the services; nothing if it panics. -/
def registerService (peers : PeerDirectory) (key : ServiceKey) : Option PeerDirectory :=
  match serviceAnnotations.lookup key with
  | none => some peers
  | some annotations =>
    match spiffeIdForService trustDomain key.ns key.name with
    | .error _ => some peers
    | .ok id =>
      match annotations.lookup svidPubkeyHexKey with
      | none => some peers
      | some pkHex =>
        match parsePubkeyHexAnnotation pkHex with
        | none => none
        | some (.error _) => some peers
        | some (.ok pubkey) => some (peers.register pubkey id)

/-- Nothing if it panics. -/
def planFullDesiredState (routes : List RouteInput) :
    Option (DesiredState × List (Nat × ReconcileError)) :=
  let p := routes.zipIdx.foldl (planRoute trustDomain serviceAnnotations) .start
  match p.services.foldlM (registerService trustDomain serviceAnnotations) .new with
  | none => none
  | some peers => some (⟨p.authz, peers, p.grants⟩, p.errors)

end State

def RouteInput.plans (trustDomain : Str) (route : RouteInput) : Bool :=
  (planRouteReconcile trustDomain route.ns route.spec).isOk

/-- A mesh Service parent of the route derives `destination`, and its Service backend `key` derives
`source`. -/
def RouteInput.Links (trustDomain : Str) (route : RouteInput) (key : ServiceKey)
    (source destination : SpiffeId) : Prop :=
  (∃ parent ∈ route.spec.parentRefs, isMeshServiceParentRef parent.kind parent.group
      ∧ spiffeIdForService trustDomain (parent.ns.getD route.ns) parent.name = .ok destination)
    ∧ (∃ rule ∈ route.spec.rules, ∃ backend ∈ rule.backendRefs,
      isServiceBackendRef backend.kind backend.group
        ∧ key = ⟨backend.ns.getD route.ns, backend.name⟩)
    ∧ spiffeIdForService trustDomain key.ns key.name = .ok source

structure DesiredState.Says (trustDomain : Str) (serviceAnnotations : ServiceAnnotations)
    (routes : List RouteInput) (state : DesiredState) : Prop where
  allows (source destination : SpiffeId) :
    state.authz.Allows source destination ↔
      ∃ route ∈ routes, route.plans trustDomain ∧ ∃ key,
        route.Links trustDomain key source destination
  grants (op : WaypointConfigOp) :
    op ∈ state.grants ↔
      ∃ route ∈ routes, route.plans trustDomain ∧ ∃ key source destination maxGrant,
        route.Links trustDomain key source destination
          ∧ annotatedClass serviceAnnotations key = some maxGrant
          ∧ op = .grantMaxEffect source destination maxGrant
  isolated : (planFullDesiredState trustDomain serviceAnnotations
    (routes.filter (RouteInput.plans trustDomain))).map Prod.fst = some state

/-- The key of a Service is found again in the identity derived from it: the trust domain is in
lower case, and neither it nor a name has a `/` in it. -/
structure ServiceKey.ComesBack (trustDomain : Str) (key : ServiceKey) : Prop where
  domain : '/' ∉ trustDomain
  lower : trustDomain.map Char.toLower = trustDomain
  ns : '/' ∉ key.ns
  name : '/' ∉ key.name

/-- The public-key annotation of the Service is read without a panic, if it is read at all. -/
def ServiceKey.Readable (trustDomain : Str) (serviceAnnotations : ServiceAnnotations)
    (key : ServiceKey) : Prop :=
  ∀ annotations ∈ serviceAnnotations.lookup key,
    (spiffeIdForService trustDomain key.ns key.name).isOk = true →
      ∀ pkHex ∈ annotations.lookup svidPubkeyHexKey, parsePubkeyHexAnnotation pkHex ≠ none

/-- Of the routes that plan, every backend with a recognized class comes back from its identity, and
every Service is readable. -/
structure Derivable (trustDomain : Str) (serviceAnnotations : ServiceAnnotations)
    (routes : List RouteInput) : Prop where
  names : ∀ route ∈ routes, route.plans trustDomain → ∀ key source destination,
    route.Links trustDomain key source destination →
      annotatedClass serviceAnnotations key ≠ none → key.ComesBack trustDomain
  keys : ∀ route ∈ routes, route.plans trustDomain → ∀ key ∈ route.services,
    key.Readable trustDomain serviceAnnotations

end Npamp.Mesh
