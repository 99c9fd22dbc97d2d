import Npamp.Mesh.Plan

/-!
# What the routes say

An identity is built from a trust domain, a namespace and a name, and taken apart again to find the
annotations of its Service.
-/

namespace Npamp.Mesh

open Collect List

variable {trustDomain ns name : Str} {id source destination : SpiffeId} {route : RouteInput}
  {ops : List WaypointConfigOp} {key : ServiceKey}

namespace SpiffeId

theorem strip_append (initial s : Str) : strip initial (initial ++ s) = some s := by
  induction initial with
  | nil => rfl
  | cons c initial ih =>
    rw [cons_append, strip, if_pos rfl, ih]

theorem of_parse {rest : Str} (h : parse (scheme ++ rest) = .ok id) :
    id.trustDomain = (rest.takeWhile (· ≠ '/')).map Char.toLower
      ∧ id.pathBody = (rest.dropWhile (· ≠ '/')).dropWhile (· = '/') := by
  rw [parse, strip_append] at h
  dsimp only at h
  repeat' split at h
  all_goals cases h
  exact ⟨rfl, rfl⟩

end SpiffeId

theorem spiffeIdForService_eq_ok (h : spiffeIdForService trustDomain ns name = .ok id) :
    SpiffeId.parse (SpiffeId.scheme ++ (trustDomain ++ '/' :: ("ns/".toList ++ ns
      ++ "/sa/".toList ++ name))) = .ok id := by
  rw [spiffeIdForService] at h
  split at h
  · cases h
  rename_i id' hparse
  cases h
  simp only [append_assoc] at hparse ⊢
  exact hparse

theorem takeWhile_of_slash {s rest : Str} (hs : '/' ∉ s) :
    (s ++ '/' :: rest).takeWhile (· ≠ '/') = s
      ∧ (s ++ '/' :: rest).dropWhile (· ≠ '/') = '/' :: rest := by
  have hall : ∀ c ∈ s, decide (c ≠ '/') = true := by
    intro c hc
    exact decide_eq_true (ne_of_mem_of_not_mem hc hs)
  rw [takeWhile_append_of_pos hall, dropWhile_append_of_pos hall]
  simp

def serviceBody (key : ServiceKey) : Str :=
  "ns/".toList ++ key.ns ++ "/sa/".toList ++ key.name

theorem of_spiffeIdForService (h : spiffeIdForService trustDomain key.ns key.name = .ok id)
    (hslash : '/' ∉ trustDomain) : id.trustDomain = trustDomain.map Char.toLower
      ∧ id.path.dropWhile (· = '/') = serviceBody key := by
  obtain ⟨hid, hpath⟩ := SpiffeId.of_parse (spiffeIdForService_eq_ok h)
  rw [(takeWhile_of_slash hslash).1] at hid
  rw [(takeWhile_of_slash hslash).2] at hpath
  refine ⟨hid, ?_⟩
  rw [SpiffeId.path, hpath]
  rfl

theorem serviceKeyOf_eq (hkey : key.ComesBack trustDomain)
    (h : spiffeIdForService trustDomain key.ns key.name = .ok id) :
    serviceKeyOf id trustDomain = some key := by
  obtain ⟨hid, hpath⟩ := of_spiffeIdForService h hkey.domain
  have hsegments : serviceBody key
      = ['/'].intercalate ["ns".toList, key.ns, "sa".toList, key.name] := by
    simp [serviceBody, intercalate]
  have hsplit : (serviceBody key).splitOn '/' = ["ns".toList, key.ns, "sa".toList, key.name] := by
    rw [hsegments]
    refine splitOn_intercalate '/' ?_ (cons_ne_nil _ _)
    simp only [forall_mem_cons, hkey.ns, hkey.name, not_false_eq_true, true_and]
    exact ⟨by decide, by decide, forall_mem_nil _⟩
  rw [serviceKeyOf, if_neg (not_not_intro (hid.trans hkey.lower)), hpath, hsplit]
  rfl

theorem length_splitOn (c : Char) (s : Str) : (s.splitOn c).length = s.count c + 1 := by
  induction s with
  | nil => simp
  | cons d s ih =>
    rw [splitOn_cons_eq_if_modifyHead, count_cons]
    split <;> simp [ih]

theorem slash_not_mem_trustDomain (id : SpiffeId) : '/' ∉ id.trustDomain := by
  intro hmem
  have hchecked := id.trustDomain_checked
  unfold checkTrustDomain at hchecked
  repeat' split at hchecked
  all_goals cases hchecked
  rename_i hfind
  exact absurd (find?_eq_none.mp hfind '/' hmem) (by decide)

/-- **Where a key is found in an identity, every key of that identity comes back.** -/
theorem comesBack_of_serviceKeyOf {found : ServiceKey}
    (h : spiffeIdForService trustDomain key.ns key.name = .ok id)
    (hfound : serviceKeyOf id trustDomain = some found) : key.ComesBack trustDomain := by
  rw [serviceKeyOf] at hfound
  split_ifs at hfound with hdomain
  rw [not_not] at hdomain
  have hslash : '/' ∉ trustDomain := hdomain ▸ slash_not_mem_trustDomain id
  obtain ⟨hid, hpath⟩ := of_spiffeIdForService h hslash
  rw [hpath] at hfound
  split at hfound
  · rename_i hsplit
    have hcount : (serviceBody key).count '/' + 1 = 4 := by
      rw [← length_splitOn, hsplit]
      rfl
    have hparts : (serviceBody key).count '/' = key.ns.count '/' + key.name.count '/' + 3 := by
      simp only [serviceBody, count_append]
      have hns : count '/' "ns/".toList = 1 := by decide
      have hsa : count '/' "/sa/".toList = 2 := by decide
      omega
    exact ⟨hslash, hid.symm.trans hdomain, count_eq_zero.mp (by omega), count_eq_zero.mp (by omega)⟩
  · cases hfound

section Route

variable {routeNs : Str} {spec : HttpRouteSpec}

theorem planBackend_eq_ok {backend : BackendRef}
    (h : planBackend trustDomain routeNs destination backend = .ok ops) :
    isServiceBackendRef backend.kind backend.group = false ∧ ops = []
      ∨ isServiceBackendRef backend.kind backend.group = true ∧ backend.ns.getD routeNs = routeNs
        ∧ ∃ source, spiffeIdForService trustDomain (backend.ns.getD routeNs) backend.name
          = .ok source ∧ ops = [.allow source destination] := by
  rw [planBackend] at h
  cases hservice : isServiceBackendRef backend.kind backend.group with
  | false =>
    rw [hservice] at h
    cases h
    exact .inl ⟨rfl, rfl⟩
  | true =>
    rw [hservice, if_neg (by decide)] at h
    dsimp only at h
    split_ifs at h with hns
    split at h
    · cases h
    · rename_i source hsource
      cases h
      exact .inr ⟨rfl, not_not.mp hns, source, hsource, rfl⟩

theorem planParent_eq_ok {parent : ParentRef}
    (h : planParent trustDomain routeNs spec parent = .ok ops) :
    isMeshServiceParentRef parent.kind parent.group = false ∧ ops = []
      ∨ isMeshServiceParentRef parent.kind parent.group = true ∧ ∃ destination,
        spiffeIdForService trustDomain (parent.ns.getD routeNs) parent.name = .ok destination
          ∧ collect (fun rule => collect (planBackend trustDomain routeNs destination)
            rule.backendRefs) spec.rules = .ok ops := by
  rw [planParent] at h
  cases hmesh : isMeshServiceParentRef parent.kind parent.group with
  | false =>
    rw [hmesh] at h
    cases h
    exact .inl ⟨rfl, rfl⟩
  | true =>
    rw [hmesh, if_neg (by decide)] at h
    split at h
    · cases h
    · rename_i destination hdestination
      exact .inr ⟨rfl, destination, hdestination, h⟩

theorem planRouteReconcile_eq_ok (h : planRouteReconcile trustDomain routeNs spec = .ok ops) :
    collect (planParent trustDomain routeNs spec) spec.parentRefs = .ok ops := by
  rw [planRouteReconcile] at h
  split_ifs at h
  exact h

theorem planBackend_of_route {parent : ParentRef} {rule : HttpRouteRule} {backend : BackendRef}
    (h : planRouteReconcile trustDomain routeNs spec = .ok ops) (hparent : parent ∈ spec.parentRefs)
    (hmesh : isMeshServiceParentRef parent.kind parent.group = true)
    (hdestination : spiffeIdForService trustDomain (parent.ns.getD routeNs) parent.name
      = .ok destination) (hrule : rule ∈ spec.rules) (hbackend : backend ∈ rule.backendRefs) :
    ∃ items, planBackend trustDomain routeNs destination backend = .ok items ∧ items ⊆ ops := by
  have hparents := planRouteReconcile_eq_ok h
  obtain ⟨inParent, hinParent⟩ := exists_of_collect hparents hparent
  obtain ⟨hother, -⟩ | ⟨-, destination', hdestination', hrules⟩ := planParent_eq_ok hinParent
  · exact absurd (hother.symm.trans hmesh) Bool.false_ne_true
  cases hdestination.symm.trans hdestination'
  obtain ⟨inRule, hinRule⟩ := exists_of_collect hrules hrule
  obtain ⟨items, hitems⟩ := exists_of_collect hinRule hbackend
  refine ⟨items, hitems, fun op hop => ?_⟩
  refine (mem_of_collect hparents op).mpr ⟨parent, hparent, inParent, hinParent, ?_⟩
  refine (mem_of_collect hrules op).mpr ⟨rule, hrule, inRule, hinRule, ?_⟩
  exact (mem_of_collect hinRule op).mpr ⟨backend, hbackend, items, hitems, hop⟩

theorem RouteInput.Links.planned (h : planRouteReconcile trustDomain route.ns route.spec = .ok ops)
    (hlinks : route.Links trustDomain key source destination) :
    key.ns = route.ns ∧ .allow source destination ∈ ops := by
  obtain ⟨⟨parent, hparent, hmesh, hdestination⟩,
    ⟨rule, hrule, backend, hbackend, hservice, rfl⟩, hsource⟩ := hlinks
  obtain ⟨items, hitems, hsub⟩ :=
    planBackend_of_route h hparent hmesh hdestination hrule hbackend
  obtain ⟨hother, -⟩ | ⟨-, hns, source', hsource', rfl⟩ := planBackend_eq_ok hitems
  · exact absurd (hother.symm.trans hservice) Bool.false_ne_true
  cases hsource.symm.trans hsource'
  exact ⟨hns, hsub (mem_singleton_self _)⟩

theorem mem_planRouteReconcile (h : planRouteReconcile trustDomain route.ns route.spec = .ok ops)
    (op : WaypointConfigOp) :
    op ∈ ops ↔ ∃ key source destination, route.Links trustDomain key source destination
      ∧ op = .allow source destination := by
  have hparents := planRouteReconcile_eq_ok h
  rw [mem_of_collect hparents]
  constructor
  · rintro ⟨parent, hparent, items, hitems, hop⟩
    obtain ⟨-, rfl⟩ | ⟨hmesh, destination, hdestination, hrules⟩ := planParent_eq_ok hitems
    · exact absurd hop not_mem_nil
    obtain ⟨rule, hrule, items, hitems, hop⟩ := (mem_of_collect hrules op).mp hop
    obtain ⟨backend, hbackend, items, hitems, hop⟩ := (mem_of_collect hitems op).mp hop
    obtain ⟨-, rfl⟩ | ⟨hservice, -, source, hsource, rfl⟩ := planBackend_eq_ok hitems
    · exact absurd hop not_mem_nil
    exact ⟨⟨backend.ns.getD route.ns, backend.name⟩, source, destination,
      ⟨⟨parent, hparent, hmesh, hdestination⟩, ⟨rule, hrule, backend, hbackend, hservice, rfl⟩,
        hsource⟩, mem_singleton.mp hop⟩
  · rintro ⟨key, source, destination, hlinks, rfl⟩
    exact (mem_of_collect hparents _).mp (hlinks.planned h).2

end Route

section State

variable {serviceAnnotations : ServiceAnnotations} {routes : List RouteInput}

theorem planOp_allow (p : Planning) :
    (planOp trustDomain serviceAnnotations p (.allow source destination)).authz
        = p.authz.allow source destination
      ∧ (planOp trustDomain serviceAnnotations p (.allow source destination)).grants
        = p.grants ++
          (((serviceKeyOf source trustDomain).bind (annotatedClass serviceAnnotations)).map
            (.grantMaxEffect source destination)).toList := by
  rw [planOp]
  cases (serviceKeyOf source trustDomain).bind (annotatedClass serviceAnnotations) with
  | none => exact ⟨rfl, (append_nil _).symm⟩
  | some maxGrant => exact ⟨rfl, rfl⟩

theorem allowed_planOp (p : Planning) (op : WaypointConfigOp) :
    (source, destination) ∈ (planOp trustDomain serviceAnnotations p op).authz.allowed
      ↔ (source, destination) ∈ p.authz.allowed ∨ op = .allow source destination := by
  cases op with
  | allow source' destination' =>
    rw [(planOp_allow p).1, AuthzTable.mem_allow]
    simp only [Prod.mk.injEq, WaypointConfigOp.allow.injEq, eq_comm]
  | _ => simp [planOp]

/-- `grant` is the grant that goes with the allow `op`. -/
def Grants (trustDomain : Str) (serviceAnnotations : ServiceAnnotations)
    (grant op : WaypointConfigOp) : Prop :=
  ∃ source destination maxGrant, op = .allow source destination
    ∧ (serviceKeyOf source trustDomain).bind (annotatedClass serviceAnnotations) = some maxGrant
    ∧ grant = .grantMaxEffect source destination maxGrant

theorem grants_planOp (grant : WaypointConfigOp) (p : Planning) (op : WaypointConfigOp) :
    grant ∈ (planOp trustDomain serviceAnnotations p op).grants
      ↔ grant ∈ p.grants ∨ Grants trustDomain serviceAnnotations grant op := by
  cases op with
  | allow source destination =>
    rw [(planOp_allow p).2, mem_append]
    refine or_congr_right ?_
    rw [Option.mem_toList, Option.map_eq_some_iff]
    constructor
    · rintro ⟨maxGrant, hmax, rfl⟩
      exact ⟨source, destination, maxGrant, rfl, hmax, rfl⟩
    · rintro ⟨_, _, maxGrant, ⟨⟩, hmax, rfl⟩
      exact ⟨maxGrant, hmax, rfl⟩
  | _ => simp [planOp, Grants]

theorem exists_of_isOk {ε α : Type} {x : Except ε α} (h : x.isOk = true) : ∃ a, x = .ok a := by
  cases x with
  | error e => cases h
  | ok a => exact ⟨a, rfl⟩

theorem plans_iff : route.plans trustDomain = true
    ↔ ∃ ops, planRouteReconcile trustDomain route.ns route.spec = .ok ops := by
  refine ⟨exists_of_isOk, ?_⟩
  rintro ⟨ops, hops⟩
  rw [RouteInput.plans, hops]
  rfl

theorem allowed_planRoute (p : Planning) (entry : RouteInput × Nat) :
    (source, destination) ∈ (planRoute trustDomain serviceAnnotations p entry).authz.allowed
      ↔ (source, destination) ∈ p.authz.allowed ∨ entry.1.plans trustDomain = true
        ∧ ∃ key, entry.1.Links trustDomain key source destination := by
  rw [planRoute, plans_iff]
  cases hops : planRouteReconcile trustDomain entry.1.ns entry.1.spec with
  | error e => simp
  | ok ops =>
    refine (holds_foldl_iff (fun p => (source, destination) ∈ p.authz.allowed) _ allowed_planOp
      ops p).trans (or_congr_right ?_)
    rw [exists_eq_right, mem_planRouteReconcile hops]
    constructor
    · rintro ⟨key, _, _, hlinks, ⟨⟩⟩
      exact ⟨⟨ops, rfl⟩, key, hlinks⟩
    · rintro ⟨-, key, hlinks⟩
      exact ⟨key, source, destination, hlinks, rfl⟩

theorem grants_planRoute (grant : WaypointConfigOp) (p : Planning) (entry : RouteInput × Nat) :
    grant ∈ (planRoute trustDomain serviceAnnotations p entry).grants
      ↔ grant ∈ p.grants ∨ entry.1.plans trustDomain = true
        ∧ ∃ key source destination maxGrant, entry.1.Links trustDomain key source destination
          ∧ (serviceKeyOf source trustDomain).bind (annotatedClass serviceAnnotations)
            = some maxGrant
          ∧ grant = .grantMaxEffect source destination maxGrant := by
  rw [planRoute, plans_iff]
  cases hops : planRouteReconcile trustDomain entry.1.ns entry.1.spec with
  | error e => simp
  | ok ops =>
    refine (holds_foldl_iff (fun p => grant ∈ p.grants) _ (grants_planOp grant)
      ops p).trans (or_congr_right ?_)
    constructor
    · rintro ⟨_, hop, source, destination, maxGrant, rfl, hmax, rfl⟩
      obtain ⟨key, _, _, hlinks, ⟨⟩⟩ := (mem_planRouteReconcile hops _).mp hop
      exact ⟨⟨ops, rfl⟩, key, source, destination, maxGrant, hlinks, hmax, rfl⟩
    · rintro ⟨-, key, source, destination, maxGrant, hlinks, hmax, rfl⟩
      exact ⟨.allow source destination, (hlinks.planned hops).2, source, destination, maxGrant,
        rfl, hmax, rfl⟩

theorem exists_mem_zipIdx (Q : RouteInput → Prop) :
    (∃ entry ∈ routes.zipIdx, Q entry.1) ↔ ∃ route ∈ routes, Q route := by
  constructor
  · rintro ⟨entry, hentry, hQ⟩
    exact ⟨entry.1, fst_mem_of_mem_zipIdx hentry, hQ⟩
  rintro ⟨route, hroute, hQ⟩
  rw [← zipIdx_map_fst 0 routes] at hroute
  obtain ⟨entry, hentry, rfl⟩ := mem_map.mp hroute
  exact ⟨entry, hentry, hQ⟩

/-- The plan of all routes, before the peers are registered. -/
def planRoutes (trustDomain : Str) (serviceAnnotations : ServiceAnnotations)
    (routes : List RouteInput) : Planning :=
  routes.zipIdx.foldl (planRoute trustDomain serviceAnnotations) .start

theorem allowed_planRoutes :
    (source, destination) ∈ (planRoutes trustDomain serviceAnnotations routes).authz.allowed
      ↔ ∃ route ∈ routes, route.plans trustDomain = true
        ∧ ∃ key, route.Links trustDomain key source destination := by
  rw [← exists_mem_zipIdx]
  exact (holds_foldl_iff (fun p : Planning => (source, destination) ∈ p.authz.allowed) _
    allowed_planRoute routes.zipIdx .start).trans (or_iff_right not_mem_nil)

theorem grants_planRoutes (grant : WaypointConfigOp) :
    grant ∈ (planRoutes trustDomain serviceAnnotations routes).grants
      ↔ ∃ route ∈ routes, route.plans trustDomain = true
        ∧ ∃ key source destination maxGrant, route.Links trustDomain key source destination
          ∧ (serviceKeyOf source trustDomain).bind (annotatedClass serviceAnnotations)
            = some maxGrant
          ∧ grant = .grantMaxEffect source destination maxGrant := by
  rw [← exists_mem_zipIdx]
  exact (holds_foldl_iff (fun p : Planning => grant ∈ p.grants) _
    (grants_planRoute grant) routes.zipIdx .start).trans (or_iff_right not_mem_nil)

theorem planOp_errors (es : List (Nat × ReconcileError)) (p : Planning) (op : WaypointConfigOp) :
    planOp trustDomain serviceAnnotations { p with errors := es } op
      = { planOp trustDomain serviceAnnotations p op with errors := es } := by
  cases op with
  | allow source destination =>
    rw [planOp, planOp]
    cases (serviceKeyOf source trustDomain).bind (annotatedClass serviceAnnotations) <;> rfl
  | _ => rfl

theorem planRoute_errors (hplans : route.plans trustDomain = true) (p : Planning) (n m : Nat)
    (es : List (Nat × ReconcileError)) :
    planRoute trustDomain serviceAnnotations { p with errors := es } (route, m)
      = { planRoute trustDomain serviceAnnotations p (route, n) with errors := es } := by
  obtain ⟨ops, hops⟩ := plans_iff.mp hplans
  have hfold : ops.foldl (planOp trustDomain serviceAnnotations) { p with errors := es }
      = { ops.foldl (planOp trustDomain serviceAnnotations) p with errors := es } :=
    foldl_hom (fun p : Planning => { p with errors := es }) (fun p op => planOp_errors es p op)
  rw [planRoute, planRoute, hops]
  dsimp only
  rw [hfold]

theorem exists_error_of_not_plans (h : ¬ route.plans trustDomain = true) :
    ∃ e, planRouteReconcile trustDomain route.ns route.spec = .error e := by
  rw [plans_iff] at h
  cases hplan : planRouteReconcile trustDomain route.ns route.spec with
  | error e => exact ⟨e, rfl⟩
  | ok ops => exact absurd ⟨ops, hplan⟩ h

theorem planRoutes_filter (trustDomain : Str) (serviceAnnotations : ServiceAnnotations)
    (routes : List RouteInput) (p : Planning) (es : List (Nat × ReconcileError)) (n m : Nat) :
    ∃ es', (routes.zipIdx n).foldl (planRoute trustDomain serviceAnnotations) p
      = { ((routes.filter (RouteInput.plans trustDomain)).zipIdx m).foldl
          (planRoute trustDomain serviceAnnotations) { p with errors := es } with
        errors := es' } := by
  induction routes generalizing p es n m with
  | nil => exact ⟨p.errors, rfl⟩
  | cons route routes ih =>
    rw [zipIdx_cons, foldl_cons]
    by_cases hplans : route.plans trustDomain = true
    · rw [filter_cons_of_pos hplans, zipIdx_cons, foldl_cons,
        planRoute_errors hplans p n m es]
      exact ih _ es _ _
    · obtain ⟨e, he⟩ := exists_error_of_not_plans hplans
      rw [filter_cons_of_neg hplans, planRoute, he]
      exact ih { p with errors := p.errors ++ [(n, e)] } es _ _

theorem splitOctets_two {c d : Char} (hc : c.utf8Size = 1) (hd : d.utf8Size = 1) (s : Str) :
    splitOctets 2 (c :: d :: s) = some ([c, d], s) := by
  simp [splitOctets, hc, hd]

theorem strLen_eq_length {s : Str} (hascii : ∀ c ∈ s, c.utf8Size = 1) : strLen s = s.length := by
  rw [strLen, map_congr_left hascii, map_const', sum_replicate_nat, Nat.mul_one]

/-! ### The services a plan reads -/

theorem mem_insertService {found : ServiceKey} {keys : List ServiceKey} :
    found ∈ insertService key keys ↔ found ∈ keys ∨ found = key := by
  induction keys with
  | nil => simp [insertService]
  | cons k keys ih =>
    rw [insertService]
    split_ifs with heq hbefore
    · subst heq
      simp only [mem_cons]
      tauto
    · simp only [mem_cons]
      tauto
    · rw [mem_cons, ih, mem_cons, or_assoc]

theorem services_planOp (p : Planning) (op : WaypointConfigOp) :
    (planOp trustDomain serviceAnnotations p op).services = p.services := by
  cases op with
  | allow source destination =>
    rw [planOp]
    cases (serviceKeyOf source trustDomain).bind (annotatedClass serviceAnnotations) <;> rfl
  | _ => rfl

theorem services_planOps (ops : List WaypointConfigOp) (p : Planning) :
    (ops.foldl (planOp trustDomain serviceAnnotations) p).services = p.services := by
  induction ops generalizing p with
  | nil => rfl
  | cons op ops ih => rw [foldl_cons, ih, services_planOp]

theorem services_planRoute (p : Planning) (entry : RouteInput × Nat) :
    key ∈ (planRoute trustDomain serviceAnnotations p entry).services
      ↔ key ∈ p.services ∨ entry.1.plans trustDomain = true ∧ key ∈ entry.1.services := by
  rw [planRoute, plans_iff]
  cases hops : planRouteReconcile trustDomain entry.1.ns entry.1.spec with
  | error e => simp
  | ok ops =>
    refine (holds_foldl_iff (key ∈ ·) (key = ·) (fun _ _ => mem_insertService) _ _).trans ?_
    rw [services_planOps]
    exact or_congr_right
      ⟨fun ⟨_, hmem, heq⟩ => ⟨⟨ops, rfl⟩, heq ▸ hmem⟩, fun h => ⟨key, h.2, rfl⟩⟩

theorem services_planRoutes :
    key ∈ (planRoutes trustDomain serviceAnnotations routes).services
      ↔ ∃ route ∈ routes, route.plans trustDomain = true ∧ key ∈ route.services := by
  rw [← exists_mem_zipIdx]
  exact (holds_foldl_iff (fun p : Planning => key ∈ p.services) _ services_planRoute
    routes.zipIdx .start).trans (or_iff_right not_mem_nil)

theorem exists_registerService (peers : PeerDirectory) :
    (∃ peers', registerService trustDomain serviceAnnotations peers key = some peers')
      ↔ key.Readable trustDomain serviceAnnotations := by
  rw [registerService, ServiceKey.Readable]
  cases serviceAnnotations.lookup key with
  | none => simp
  | some annotations =>
    cases spiffeIdForService trustDomain key.ns key.name with
    | error e => simp [Except.isOk, Except.toBool]
    | ok id =>
      cases hlookup : annotations.lookup svidPubkeyHexKey with
      | none => simp [hlookup]
      | some pkHex =>
        rcases hparse : parsePubkeyHexAnnotation pkHex with _ | (e | pubkey) <;>
          simp [Except.isOk, Except.toBool, hlookup, hparse]

theorem exists_registerServices_iff (keys : List ServiceKey) (peers : PeerDirectory) :
    (∃ peers', keys.foldlM (registerService trustDomain serviceAnnotations) peers = some peers')
      ↔ ∀ key ∈ keys, key.Readable trustDomain serviceAnnotations := by
  induction keys generalizing peers with
  | nil => exact iff_of_true ⟨peers, rfl⟩ (forall_mem_nil _)
  | cons key keys ih =>
    rw [foldlM_cons, forall_mem_cons, ← exists_registerService peers]
    cases registerService trustDomain serviceAnnotations peers key with
    | none => simp
    | some peers' =>
      rw [← ih peers']
      exact ⟨fun h => ⟨⟨peers', rfl⟩, h⟩, And.right⟩

theorem exists_registerServices
    (h : ∀ service ∈ serviceAnnotations, ∀ entry ∈ service.2, entry.1 = svidPubkeyHexKey →
      ∃ r, parsePubkeyHexAnnotation entry.2 = some r)
    (keys : List ServiceKey) (peers : PeerDirectory) :
    ∃ peers', keys.foldlM (registerService trustDomain serviceAnnotations) peers = some peers' := by
  refine (exists_registerServices_iff keys peers).mpr fun key _ annotations hannotations _ pkHex
    hpkHex => ?_
  obtain ⟨r, hr⟩ := h (key, annotations) (Json.mem_of_lookup hannotations) (_, pkHex)
    (Json.mem_of_lookup hpkHex) rfl
  rw [hr]
  exact Option.some_ne_none r

/-- With the peers registered, the plan is what the routes gave. -/
theorem planFullDesiredState_eq {peers : PeerDirectory}
    (hpeers : (planRoutes trustDomain serviceAnnotations routes).services.foldlM
      (registerService trustDomain serviceAnnotations) .new = some peers) :
    planFullDesiredState trustDomain serviceAnnotations routes
      = some (⟨(planRoutes trustDomain serviceAnnotations routes).authz, peers,
        (planRoutes trustDomain serviceAnnotations routes).grants⟩,
        (planRoutes trustDomain serviceAnnotations routes).errors) := by
  rw [planRoutes] at hpeers
  rw [planFullDesiredState, hpeers]
  rfl

theorem of_planFullDesiredState {state : DesiredState} {errors : List (Nat × ReconcileError)}
    (h : planFullDesiredState trustDomain serviceAnnotations routes = some (state, errors)) :
    state.authz = (planRoutes trustDomain serviceAnnotations routes).authz
      ∧ state.grants = (planRoutes trustDomain serviceAnnotations routes).grants := by
  rw [planFullDesiredState] at h
  split at h
  · cases h
  · cases h
    exact ⟨rfl, rfl⟩

theorem says_of_derivable (h : Derivable trustDomain serviceAnnotations routes) :
    ∃ state errors, planFullDesiredState trustDomain serviceAnnotations routes
        = some (state, errors)
      ∧ state.Says trustDomain serviceAnnotations routes := by
  obtain ⟨peers, hpeers⟩ := (exists_registerServices_iff
    (planRoutes trustDomain serviceAnnotations routes).services .new).mpr fun key hkey => by
      obtain ⟨route, hroute, hplans, hmem⟩ := services_planRoutes.mp hkey
      exact h.keys route hroute hplans key hmem
  refine ⟨_, _, planFullDesiredState_eq hpeers,
    fun source destination => AuthzTable.allows_iff.trans allowed_planRoutes, fun op => ?_, ?_⟩
  · refine (grants_planRoutes op).trans (exists_congr fun route => ?_)
    refine and_congr_right fun hroute => and_congr_right fun hplans => ?_
    refine exists_congr fun key => exists_congr fun source => exists_congr fun destination =>
      exists_congr fun maxGrant => and_congr_right fun hlinks => and_congr_left fun _ => ?_
    constructor
    · intro hbind
      obtain ⟨found, hfound, -⟩ := Option.bind_eq_some_iff.mp hbind
      rwa [serviceKeyOf_eq (comesBack_of_serviceKeyOf hlinks.2.2 hfound) hlinks.2.2,
        Option.bind_some] at hbind
    · intro hclass
      have hback := h.names route hroute hplans key source destination hlinks
        (by rw [hclass]; exact Option.some_ne_none _)
      rw [serviceKeyOf_eq hback hlinks.2.2, Option.bind_some, hclass]
  · obtain ⟨errors, hfilter⟩ :=
      planRoutes_filter trustDomain serviceAnnotations routes .start [] 0 0
    change planRoutes trustDomain serviceAnnotations routes
      = { planRoutes trustDomain serviceAnnotations _ with errors := errors } at hfilter
    rw [hfilter] at hpeers ⊢
    rw [planFullDesiredState_eq hpeers]
    rfl

theorem derivable_of_says {state : DesiredState} {errors : List (Nat × ReconcileError)}
    (hplan : planFullDesiredState trustDomain serviceAnnotations routes = some (state, errors))
    (h : state.Says trustDomain serviceAnnotations routes) :
    Derivable trustDomain serviceAnnotations routes := by
  constructor
  · intro route hroute hplans key source destination hlinks hclass
    obtain ⟨maxGrant, hmax⟩ := Option.ne_none_iff_exists'.mp hclass
    have hgrant := (h.grants _).mpr
      ⟨route, hroute, hplans, key, source, destination, maxGrant, hlinks, hmax, rfl⟩
    rw [(of_planFullDesiredState hplan).2, grants_planRoutes] at hgrant
    obtain ⟨_, -, -, _, _, _, _, -, hbind, ⟨⟩⟩ := hgrant
    obtain ⟨found, hfound, -⟩ := Option.bind_eq_some_iff.mp hbind
    exact comesBack_of_serviceKeyOf hlinks.2.2 hfound
  · intro route hroute hplans key hkey
    have hpeers : ∃ peers, (planRoutes trustDomain serviceAnnotations routes).services.foldlM
        (registerService trustDomain serviceAnnotations) .new = some peers := by
      rw [planFullDesiredState] at hplan
      split at hplan
      · cases hplan
      · rename_i peers hpeers
        exact ⟨peers, hpeers⟩
    exact (exists_registerServices_iff _ _).mp hpeers key
      (services_planRoutes.mpr ⟨route, hroute, hplans, hkey⟩)

/-- **Plans add up**: two lists of routes together allow and grant what either of them does. -/
theorem desired_state_union {routes₁ routes₂ : List RouteInput} {state₁ state₂ state : DesiredState}
    {errors₁ errors₂ errors : List (Nat × ReconcileError)}
    (h₁ : planFullDesiredState trustDomain serviceAnnotations routes₁ = some (state₁, errors₁))
    (h₂ : planFullDesiredState trustDomain serviceAnnotations routes₂ = some (state₂, errors₂))
    (h : planFullDesiredState trustDomain serviceAnnotations (routes₁ ++ routes₂)
      = some (state, errors)) :
    (∀ source destination, state.authz.Allows source destination
        ↔ state₁.authz.Allows source destination ∨ state₂.authz.Allows source destination)
      ∧ ∀ op, op ∈ state.grants ↔ op ∈ state₁.grants ∨ op ∈ state₂.grants := by
  obtain ⟨hauthz₁, hgrants₁⟩ := of_planFullDesiredState h₁
  obtain ⟨hauthz₂, hgrants₂⟩ := of_planFullDesiredState h₂
  obtain ⟨hauthz, hgrants⟩ := of_planFullDesiredState h
  constructor
  · intro source destination
    simp only [AuthzTable.allows_iff, hauthz, hauthz₁, hauthz₂, allowed_planRoutes, mem_append,
      or_and_right, exists_or]
  · intro op
    simp only [hgrants, hgrants₁, hgrants₂, grants_planRoutes, mem_append, or_and_right, exists_or]

end State

def smileyRoute : RouteInput where
  ns := "faces".toList
  spec :=
    { parentRefs := [⟨"smiley".toList, none, some "Service".toList, some []⟩]
      rules := [⟨[⟨"smiley-v2".toList, none, none, none⟩]⟩] }

def smileyKey : ServiceKey := ⟨"faces".toList, "smiley-v2".toList⟩

def smileyAnnotations : ServiceAnnotations :=
  [(smileyKey, [(maxEffectClassKey, "read_only".toList)])]

/-- The route of `smiley` for callers of `color`. -/
def colorRoute : RouteInput where
  ns := "faces".toList
  spec :=
    { parentRefs := [⟨"color".toList, none, some "Service".toList, some []⟩]
      rules := smileyRoute.spec.rules }

theorem desired_state_union_smiley : ∃ r₁ r₂ r,
    planFullDesiredState "a.b".toList smileyAnnotations [smileyRoute] = some r₁
      ∧ planFullDesiredState "a.b".toList smileyAnnotations [colorRoute] = some r₂
      ∧ planFullDesiredState "a.b".toList smileyAnnotations [smileyRoute, colorRoute] = some r
      ∧ r₁.1.grants.length = 1 ∧ r₂.1.grants.length = 1
      ∧ ∀ op, op ∈ r.1.grants ↔ op ∈ r₁.1.grants ∨ op ∈ r₂.1.grants := by
  have hplan (routes : List RouteInput) (n : Nat)
      (h : (planFullDesiredState "a.b".toList smileyAnnotations routes).map
        (fun r => r.1.grants.length) = some n) :=
    Option.map_eq_some_iff.mp h
  obtain ⟨r₁, h₁, hone₁⟩ := hplan [smileyRoute] 1 (by decide +kernel)
  obtain ⟨r₂, h₂, hone₂⟩ := hplan [colorRoute] 1 (by decide +kernel)
  obtain ⟨r, h, -⟩ := hplan [smileyRoute, colorRoute] 2 (by decide +kernel)
  exact ⟨r₁, r₂, r, h₁, h₂, h, hone₁, hone₂, (desired_state_union h₁ h₂ h).2⟩

end Npamp.Mesh
