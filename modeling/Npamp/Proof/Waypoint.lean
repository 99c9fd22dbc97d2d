import Npamp.Mesh.Waypoint

/-!
# What the filter allows

`evaluate_request` and what the configuration asks for agree, up to empty audiences, unread
configurations and grants without an effect class.
-/

namespace Npamp.Mesh

open Json List

theorem extractTriple_eq_ok_iff {headers : Headers} {signerId audience : Str}
    {effect : EffectClass} : extractTriple headers = .ok (signerId, audience, effect)
      ↔ headers.Carry signerId audience effect := by
  constructor
  · intro h
    rw [extractTriple] at h
    split at h
    · cases h
    rename_i hsigner
    split at h
    · cases h
    rename_i haudience
    split at h
    · cases h
    rename_i raw hraw
    split at h
    · cases h
    rename_i octet hoctet
    cases h
    exact ⟨hsigner, haudience, raw, octet, hraw, hoctet, rfl⟩
  · rintro ⟨hsigner, haudience, raw, octet, hraw, hoctet, rfl⟩
    simp only [extractTriple, hsigner, haudience, hraw, hoctet]

theorem EffectClass.not_lt {a b : EffectClass} : ¬ a < b ↔ b ≤ a := Nat.not_lt

theorem authorize_eq_ok_iff {hook : AuthzHook} {signerId audience : Str} {effect : EffectClass} :
    authorize hook signerId audience effect = .ok ()
      ↔ audience = hook.consumingAuthority ∧ effect ≤ resolvedMaxGrant hook signerId := by
  rw [authorize]
  by_cases haudience : audience = hook.consumingAuthority
  · rw [if_neg (not_not_intro haudience)]
    by_cases heffect : resolvedMaxGrant hook signerId < effect
    · simp [heffect, haudience, ← EffectClass.not_lt]
    · simp [heffect, haudience, ← EffectClass.not_lt]
  · simp [haudience]

/-- **What `evaluate_request` allows.** -/
theorem isOk_evaluateRequest_iff {hook : AuthzHook} {headers : Headers} {contentType : Option Str} :
    (evaluateRequest hook headers contentType).isOk = true
      ↔ ∃ signerId effect, headers.Carry signerId hook.consumingAuthority effect
        ∧ effect ≤ resolvedMaxGrant hook signerId := by
  rw [evaluateRequest]
  constructor
  · intro h
    split at h
    · cases h
    rename_i signerId audience effect htriple
    split at h
    · cases h
    rename_i hauthorize
    obtain ⟨rfl, heffect⟩ := authorize_eq_ok_iff.mp hauthorize
    exact ⟨signerId, effect, extractTriple_eq_ok_iff.mp htriple, heffect⟩
  · rintro ⟨signerId, effect, hcarry, heffect⟩
    rw [extractTriple_eq_ok_iff.mpr hcarry]
    dsimp only
    rw [authorize_eq_ok_iff.mpr ⟨rfl, heffect⟩]
    rfl

theorem grantOf_fst {member : Str × Json Number} {grant : Str × EffectClass}
    (h : grantOf member = some grant) : grant.1 = member.1 := by
  rw [grantOf] at h
  split at h
  · cases h
  split at h
  · cases h
    rfl
  · cases h

theorem nodup_grants {members : List (Str × Json Number)} (hkeys : (members.map Prod.fst).Nodup) :
    ((members.filterMap grantOf).map Prod.fst).Nodup := by
  induction members with
  | nil => exact nodup_nil
  | cons m rest ih =>
    rw [map_cons, nodup_cons] at hkeys
    rw [filterMap_cons]
    split
    · exact ih hkeys.2
    rename_i grant hgrant
    rw [map_cons, nodup_cons]
    refine ⟨?_, ih hkeys.2⟩
    intro hmem
    obtain ⟨grant', hgrant', heq⟩ := mem_map.mp hmem
    obtain ⟨m', hm', hgrant''⟩ := mem_filterMap.mp hgrant'
    rw [grantOf_fst hgrant'', grantOf_fst hgrant] at heq
    exact hkeys.1 (heq ▸ mem_map_of_mem hm')

theorem lookup_grants {members : List (Str × Json Number)} (hkeys : (members.map Prod.fst).Nodup)
    (signerId : Str) : (members.filterMap grantOf).reverse.lookup signerId
      = (members.lookup signerId).bind fun v => (grantOf (signerId, v)).map Prod.snd := by
  have hreverse : (((members.filterMap grantOf).reverse).map Prod.fst).Nodup := by
    rw [map_reverse, nodup_reverse]
    exact nodup_grants hkeys
  ext effect
  rw [lookup_eq_some_iff hreverse, mem_reverse, mem_filterMap]
  constructor
  · rintro ⟨⟨key, v⟩, hm, hgrant⟩
    obtain rfl : signerId = key := grantOf_fst hgrant
    rw [lookup_of_mem hkeys hm]
    exact Option.map_eq_some_iff.mpr ⟨_, hgrant, rfl⟩
  · intro h
    obtain ⟨v, hv, hmap⟩ := Option.bind_eq_some_iff.mp h
    obtain ⟨grant, hgrant, rfl⟩ := Option.map_eq_some_iff.mp hmap
    refine ⟨(signerId, v), mem_of_lookup hv, hgrant.trans ?_⟩
    exact congrArg some (Prod.ext (grantOf_fst hgrant) rfl)

section Config

variable {fromSlice : Bytes → Option (Json Number)} {bytes : Bytes} {config : Json Number}

/-- The document `parse_config` reads; what is no JSON reads as one without members. -/
def configDocument (fromSlice : Bytes → Option (Json Number)) (bytes : Bytes) : Json Number :=
  (fromSlice bytes).getD .null

def authorityOf (config : Json Number) : Str :=
  ((config.get consumingAuthorityKey).bind asString).getD []

/-- The signer's entry in the document is an octet above 3. -/
def UnrecognizedGrant (config : Json Number) (signerId : Str) : Prop :=
  ∃ n, ((config.get grantsKey).bind (get signerId)).bind asU64 = some n
    ∧ 3 < n.toNat ∧ n.toNat ≤ 255

theorem map_snd_grantOf (signerId : Str) (v : Json Number) : (grantOf (signerId, v)).map Prod.snd
      = (asU64 v).bind fun n => if n.toNat ≤ 255 then some (.fromWire n.toUInt8) else none := by
  rw [grantOf]
  cases asU64 v with
  | none => rfl
  | some n =>
    dsimp only [Option.bind_some]
    split <;> rfl

theorem lookup_grants_getD (hwell : config.WellFormed) (signerId : Str) :
    ((((config.get grantsKey).bind asObject).getD []).filterMap grantOf).reverse.lookup signerId
      = (((config.get grantsKey).bind (get signerId)).bind asU64).bind fun n =>
          if n.toNat ≤ 255 then some (.fromWire n.toUInt8) else none := by
  cases hgrants : config.get grantsKey with
  | none => rfl
  | some grants =>
    cases hwell.get hgrants with
    | @object members hkeys _ =>
      refine (lookup_grants hkeys signerId).trans ?_
      rw [funext (map_snd_grantOf signerId), ← Option.bind_assoc]
      rfl
    | _ => rfl

theorem parseConfig_eq (fromSlice : Bytes → Option (Json Number)) (bytes : Bytes) :
    parseConfig fromSlice bytes = (authorityOf (configDocument fromSlice bytes),
      ((((configDocument fromSlice bytes).get grantsKey).bind asObject).getD []).filterMap
        grantOf) := by
  rw [parseConfig, configDocument]
  cases fromSlice bytes <;> rfl

theorem exists_object_of_authorityOf
    (h : authorityOf (configDocument fromSlice bytes) ≠ []) :
    ∃ members, fromSlice bytes = some (.object members)
      ∧ (object members).get consumingAuthorityKey
        = some (.string (authorityOf (configDocument fromSlice bytes))) := by
  rw [configDocument] at h ⊢
  cases hconfig : fromSlice bytes with
  | none =>
    rw [hconfig] at h
    exact absurd rfl h
  | some config =>
    rw [hconfig, Option.getD_some] at h
    rw [Option.getD_some]
    unfold authorityOf at h ⊢
    cases config with
    | object members =>
      refine ⟨members, rfl, ?_⟩
      cases hmember : (object members).get consumingAuthorityKey with
      | none =>
        rw [hmember] at h
        exact absurd rfl h
      | some member =>
        rw [hmember] at h
        cases member with
        | string s => rfl
        | _ => exact absurd rfl h
    | _ => exact absurd rfl h

theorem EffectClass.le_destructive (effect : EffectClass) : effect ≤ .destructive := by
  cases effect <;> decide

theorem EffectClass.le_readOnly_iff {effect : EffectClass} :
    effect ≤ .readOnly ↔ effect = .readOnly := by
  cases effect <;> decide

theorem EffectClass.fromWire_of_three_lt {v : UInt8} (h : 3 < v.toNat) :
    fromWire v = .destructive := by
  have hne (k : UInt8) (hk : k.toNat ≤ 3) : v ≠ k := fun heq => absurd (heq ▸ hk) (by omega)
  rw [fromWire, if_neg (hne 0 (by decide)), if_neg (hne 1 (by decide)), if_neg (hne 2 (by decide))]

theorem ceiling_of_unrecognizedGrant {signerId : Str} (h : UnrecognizedGrant config signerId) :
    ceiling config signerId = .readOnly := by
  obtain ⟨n, hn, hlow, -⟩ := h
  rw [ceiling, hn]
  exact if_neg (Nat.not_le.mpr hlow)

/-- The code's ceiling is the configuration's, except that an unrecognized grant allows all. -/
theorem le_resolvedMaxGrant_iff (hwell : (configDocument fromSlice bytes).WellFormed)
    {signerId : Str} {effect : EffectClass} :
    effect ≤ resolvedMaxGrant (configuredHook fromSlice bytes) signerId
      ↔ effect ≤ ceiling (configDocument fromSlice bytes) signerId
        ∨ UnrecognizedGrant (configDocument fromSlice bytes) signerId := by
  rw [resolvedMaxGrant, configuredHook, parseConfig_eq]
  dsimp only [tableAuthzHook]
  rw [lookup_grants_getD hwell, ceiling, UnrecognizedGrant]
  generalize (((configDocument fromSlice bytes).get grantsKey).bind (get signerId)).bind asU64
    = entry
  cases entry with
  | none => simp
  | some n =>
    dsimp only [Option.bind_some]
    by_cases hoctet : n.toNat ≤ 255
    · by_cases hlow : n.toNat ≤ 3
      · simp [hoctet, hlow]
      · -- `from_wire` reads the octets above 3 as destructive
        have hwire : EffectClass.fromWire n.toUInt8 = .destructive := by
          refine EffectClass.fromWire_of_three_lt ?_
          rw [UInt64.toNat_toUInt8, Nat.mod_eq_of_lt (Nat.lt_succ_of_le hoctet)]
          exact Nat.not_le.mp hlow
        rw [if_pos hoctet, hwire]
        exact iff_of_true effect.le_destructive (.inr ⟨n, rfl, Nat.not_le.mp hlow, hoctet⟩)
    · have hlow : ¬ n.toNat ≤ 3 := fun h => hoctet (h.trans (by decide))
      simp [hoctet, hlow]

/-- **What the configured filter allows.** -/
theorem isOk_configured_iff (hwell : (configDocument fromSlice bytes).WellFormed)
    {headers : Headers} {contentType : Option Str} :
    (evaluateRequest (configuredHook fromSlice bytes) headers contentType).isOk = true
      ↔ ∃ signerId effect,
        headers.Carry signerId (authorityOf (configDocument fromSlice bytes)) effect
        ∧ (effect ≤ ceiling (configDocument fromSlice bytes) signerId
          ∨ UnrecognizedGrant (configDocument fromSlice bytes) signerId) := by
  have hauthority : (configuredHook fromSlice bytes).consumingAuthority
      = authorityOf (configDocument fromSlice bytes) := by
    rw [configuredHook, parseConfig_eq]
    rfl
  rw [isOk_evaluateRequest_iff, hauthority]
  exact exists₂_congr fun _ _ => and_congr_right' (le_resolvedMaxGrant_iff hwell)

theorem permits_iff {headers : Headers} : Permits (fromSlice bytes) headers
      ↔ authorityOf (configDocument fromSlice bytes) ≠ [] ∧ ∃ signerId effect,
        headers.Carry signerId (authorityOf (configDocument fromSlice bytes)) effect
        ∧ effect ≤ ceiling (configDocument fromSlice bytes) signerId := by
  constructor
  · rintro ⟨members, signerId, authority, effect, hconfig, hmember, hauthority, hcarry, heffect⟩
    have hdocument : configDocument fromSlice bytes = object members := by
      rw [configDocument, hconfig]
      rfl
    have hsame : authorityOf (object members) = authority := by
      rw [authorityOf, hmember]
      rfl
    rw [hdocument, hsame]
    exact ⟨hauthority, signerId, effect, hcarry, heffect⟩
  · rintro ⟨hauthority, signerId, effect, hcarry, heffect⟩
    obtain ⟨members, hconfig, hmember⟩ := exists_object_of_authorityOf hauthority
    refine ⟨members, signerId, _, effect, hconfig, hmember, hauthority, hcarry, ?_⟩
    rw [configDocument, hconfig] at heffect
    exact heffect

end Config

theorem Headers.Carry.unique {headers : Headers} {signerId signerId' audience audience' : Str}
    {effect effect' : EffectClass} (h : headers.Carry signerId audience effect)
    (h' : headers.Carry signerId' audience' effect') : signerId = signerId' ∧ effect = effect' := by
  have hsame := (extractTriple_eq_ok_iff.mpr h).symm.trans (extractTriple_eq_ok_iff.mpr h')
  simp only [Except.ok.injEq, Prod.mk.injEq] at hsame
  exact ⟨hsame.1, hsame.2.2⟩

/-- **When the filter fails closed on its configuration.** It allows exactly what the configuration
permits unless the request names the empty authority of a configuration without one and stays within
the ceiling, or asks for more than a read under a grant that names no effect class. -/
theorem filter_fails_closed (fromSlice : Bytes → Option (Json Number))
    (hparse : ∀ bytes config, fromSlice bytes = some config → config.WellFormed)
    (bytes : Bytes) (headers : Headers) (contentType : Option Str) :
    ((evaluateRequest (configuredHook fromSlice bytes) headers contentType).isOk = true
        ↔ Permits (fromSlice bytes) headers)
      ↔ ∀ signerId effect,
        headers.Carry signerId (authorityOf (configDocument fromSlice bytes)) effect →
        ¬ (authorityOf (configDocument fromSlice bytes) = []
            ∧ effect ≤ ceiling (configDocument fromSlice bytes) signerId)
        ∧ ¬ (UnrecognizedGrant (configDocument fromSlice bytes) signerId
            ∧ effect ≠ .readOnly) := by
  have hwell : (configDocument fromSlice bytes).WellFormed := by
    rw [configDocument]
    cases hconfig : fromSlice bytes with
    | none => exact .null
    | some config => exact hparse bytes config hconfig
  rw [isOk_configured_iff hwell, permits_iff]
  constructor
  · intro hsame signerId effect hcarry
    constructor
    · rintro ⟨hempty, heffect⟩
      exact (hsame.mp ⟨signerId, effect, hcarry, .inl heffect⟩).1 hempty
    · rintro ⟨hgrant, heffect⟩
      obtain ⟨-, _, _, hcarry', hle⟩ := hsame.mp ⟨signerId, effect, hcarry, .inr hgrant⟩
      obtain ⟨rfl, rfl⟩ := hcarry.unique hcarry'
      rw [ceiling_of_unrecognizedGrant hgrant] at hle
      exact heffect (EffectClass.le_readOnly_iff.mp hle)
  · intro hsafe
    constructor
    · rintro ⟨signerId, effect, hcarry, hallowed⟩
      obtain ⟨hauthority, hgrant⟩ := hsafe signerId effect hcarry
      have hle : effect ≤ ceiling (configDocument fromSlice bytes) signerId := by
        refine hallowed.elim id fun hunrecognized => ?_
        rw [ceiling_of_unrecognizedGrant hunrecognized, EffectClass.le_readOnly_iff]
        exact not_not.mp fun heffect => hgrant ⟨hunrecognized, heffect⟩
      exact ⟨fun hempty => hauthority ⟨hempty, hle⟩, signerId, effect, hcarry, hle⟩
    · rintro ⟨-, signerId, effect, hcarry, hle⟩
      exact ⟨signerId, effect, hcarry, .inl hle⟩

def gatewayConfig (grant : UInt64) : Json Number :=
  .object [(consumingAuthorityKey, .string "gateway-a".toList),
    (grantsKey, .object [("signer-1".toList, .number (.posInt grant))])]

theorem wellFormed_gatewayConfig (grant : UInt64) : (gatewayConfig grant).WellFormed := by
  have hkeys : [consumingAuthorityKey, grantsKey].Nodup := by decide +kernel
  have hgrants : (object [("signer-1".toList, number (Number.posInt grant))]).WellFormed :=
    .object (nodup_singleton _) fun m hm => by
      rw [mem_singleton.mp hm]
      exact .number _
  refine .object hkeys fun m hm => ?_
  rcases mem_cons.mp hm with rfl | hm
  · exact .string _
  · rw [mem_singleton.mp hm]
    exact hgrants

def requestHeaders (audience effect : Str) : Headers := fun name =>
  if name = signerHeader then some "signer-1".toList
  else if name = audienceHeader then some audience
  else if name = effectHeader then some effect
  else none

theorem filter_fails_closed_granted :
    Permits (some (gatewayConfig 2)) (requestHeaders "gateway-a".toList ['1']) := by
  have hentry : (((gatewayConfig 2).get grantsKey).bind (Json.get "signer-1".toList)).bind asU64
      = some 2 := by decide +kernel
  have hauthority : authorityOf (gatewayConfig 2) ≠ [] := by decide +kernel
  refine ((filter_fails_closed (fun _ => some (gatewayConfig 2))
    (fun _ _ h => Option.some.inj h ▸ wellFormed_gatewayConfig 2) []
    (requestHeaders "gateway-a".toList ['1']) none).mpr ?_).mp (by decide +kernel)
  intro signerId effect hcarry
  refine ⟨fun hempty => hauthority hempty.1, ?_⟩
  rintro ⟨⟨n, hn, hlow, -⟩, -⟩
  rw [← Option.some.inj hcarry.signer] at hn
  cases hentry.symm.trans hn
  exact absurd hlow (by decide)

/-- **Two defaults meet a request.** A configuration that is no JSON has the empty authority, which a
request can name; and a grant of 200 is the ceiling of a destructive effect. -/
theorem filter_default_allows :
    (evaluateRequest (configuredHook (fun _ => none) []) (requestHeaders [] ['0']) none).isOk = true
      ∧ ¬ Permits none (requestHeaders [] ['0'])
      ∧ (evaluateRequest (configuredHook (fun _ => some (gatewayConfig 200)) [])
          (requestHeaders "gateway-a".toList ['3']) none).isOk = true
      ∧ ¬ Permits (some (gatewayConfig 200)) (requestHeaders "gateway-a".toList ['3']) := by
  refine ⟨by decide +kernel, ?_, by decide +kernel, ?_⟩
  · rintro ⟨members, signerId, authority, effect, hconfig, -⟩
    cases hconfig
  rintro ⟨members, signerId, authority, effect, hconfig, -, -, hcarry, heffect⟩
  have htriple : extractTriple (requestHeaders "gateway-a".toList ['3'])
      = .ok ("signer-1".toList, "gateway-a".toList, .destructive) := by decide +kernel
  have hceiling : ceiling (gatewayConfig 200) "signer-1".toList = .readOnly := by decide +kernel
  rw [extractTriple_eq_ok_iff.mpr hcarry] at htriple
  simp only [Except.ok.injEq, Prod.mk.injEq] at htriple
  obtain ⟨rfl, -, rfl⟩ := htriple
  rw [← Option.some.inj hconfig, hceiling] at heffect
  exact absurd heffect (by decide)

end Npamp.Mesh
