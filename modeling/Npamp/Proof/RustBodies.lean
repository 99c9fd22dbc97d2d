import Npamp.Proof.Bodies
import Npamp.Proof.RustCbor

/-!
# The Rust validators follow the same rules

Each validator of `bodies.rs` accepts the items its channel's rules let through.
-/

namespace Npamp.Rust

open List
open Cbor

/-- The values the decoder builds. -/
inductive CborValue.Decoded : CborValue → Prop
  | uint (v : UInt64) : Decoded (.uint v)
  | nint {v : Int64} (h : v < 0) : Decoded (.nint v)
  | bytes (b : Bytes) : Decoded (.bytes b)
  | text (s : Str) : Decoded (.text s)
  | array {items : List CborValue} (h : ∀ v ∈ items, Decoded v) : Decoded (.array items)
  | map {entries : List CborEntry} (hkey : ∀ e ∈ entries, Decoded e.key)
      (hval : ∀ e ∈ entries, Decoded e.val) : Decoded (.map entries)
  | bool (b : Bool) : Decoded (.bool b)
  | null : Decoded .null

theorem decoded_invariant : dialect.Invariant (fun _ _ => True) CborValue.Decoded where
  uint v := .uint v
  nint {arg v} h := by
    dsimp only [dialect] at h
    split at h
    · cases h
    · rename_i harg
      cases h
      exact .nint (neg_one_sub_toInt64_lt (Nat.not_lt.mp harg))
  bytes b := .bytes b
  text h := by
    cases h
    exact .text _
  array h := .array h
  map _ _ h := by
    refine .map ?_ ?_ <;> refine forall_mem_map.mpr fun e he => ?_
    · exact (h e he).2.1
    · exact (h e he).2.2
  bool b := .bool b
  null := .null

theorem decoded_of_decodeTop {b : Bytes} {v : CborValue} (h : decodeTop b = .ok v) : v.Decoded := by
  rw [decodeTop_eq] at h
  exact Dialect.invariant_decodeTop decoded_invariant (fun _ _ _ _ => trivial) h

theorem isKey_uint (v key : UInt64) : (CborValue.uint v).item.isKey key = decide (v = key) :=
  Npamp.isKey_uint64 v key

theorem isKey_nint {v : Int64} (h : v < 0) (key : UInt64) :
    (CborValue.nint v).item.isKey key = false :=
  Npamp.isKey_int64 h key

def DecodedEntries (m : List CborEntry) : Prop := (CborValue.map m).Decoded

theorem item_array (items : List CborValue) :
    (CborValue.array items).item = .array (items.map CborValue.item) :=
  congrArg Item.array (itemsOf_eq_map items)

/-- A key is looked up in the entries as in the item they stand for. -/
theorem get_entryItems {m : List CborEntry} (hm : DecodedEntries m) (key : UInt64) :
    get (entryItems m) key = (mapGet m key).map CborValue.item := by
  cases hm with
  | map hkey _ =>
    rw [entryItems_eq, mapGet, Option.map_map]
    refine get_map fun e he => ?_
    have hdecoded := hkey e he
    cases e with
    | mk k v =>
      cases hdecoded with
      | uint u =>
        rw [CborEntry.key, isKey_uint]
        rfl
      | nint hneg =>
        rw [CborEntry.key, isKey_nint hneg]
      | _ => rfl

theorem get_cases {m : List CborEntry} (hm : DecodedEntries m) (key : UInt64) :
    (mapGet m key = none ∧ get (entryItems m) key = none)
      ∨ ∃ v : CborValue, v.Decoded ∧ mapGet m key = some v
        ∧ get (entryItems m) key = some v.item := by
  have hget := get_entryItems hm key
  cases hv : mapGet m key with
  | none =>
    rw [hv] at hget
    exact .inl ⟨rfl, hget⟩
  | some v =>
    rw [hv] at hget
    refine .inr ⟨v, ?_, rfl, hget⟩
    obtain ⟨e, he, rfl⟩ := Option.map_eq_some_iff.mp hv
    cases hm with
    | map _ hval => exact hval e (mem_of_find?_eq_some he)

theorem CborValue.Decoded.hasKind_eq {v : CborValue} (h : v.Decoded) (k : Kind) :
    v.item.hasKind k = matchesKind v k := by
  cases h with
  | uint v =>
    cases k with
    | uint => exact decide_eq_true (Int.natCast_nonneg v.toNat)
    | _ => rfl
  | nint hneg =>
    cases k with
    | uint => exact decide_eq_false (not_le.mpr (Npamp.toInt_neg hneg))
    | _ => rfl
  | _ => cases k <;> rfl

section Checks

variable {m : List CborEntry} (hm : DecodedEntries m)
include hm

theorem isOk_forwardCompatKeys : (forwardCompatKeys m).isOk = keysOk (entryItems m) := by
  cases hm with
  | map hkey _ =>
    have hkeys : ∀ v ∈ m.map CborEntry.key, (checkKey v).isOk = v.item.hasKind .uint := by
      refine forall_mem_map.mpr fun e he => ?_
      rw [(hkey e he).hasKind_eq]
      cases e.key <;> rfl
    rw [forwardCompatKeys, isOk_forM_of_mem hkeys, all_map, keysOk, entryItems_eq,
      all_map]
    rfl

theorem isOk_field {α : Type} {x : Except Malformed α} {f : Field}
    (hnone : mapGet m f.key = none → x.isOk = !f.required)
    (hsome : ∀ v, mapGet m f.key = some v → x.isOk = matchesKind v f.kind) :
    x.isOk = fieldOk (entryItems m) f := by
  unfold fieldOk
  rcases get_cases hm f.key with ⟨h, hitem⟩ | ⟨v, hv, h, hitem⟩
  · rw [hitem]
    exact hnone h
  · rw [hitem]
    exact (hsome v h).trans (hv.hasKind_eq f.kind).symm

theorem isOk_checkField (f : Field) : (checkField m f).isOk = fieldOk (entryItems m) f := by
  obtain ⟨key, kind, required⟩ := f
  refine isOk_field hm (fun h => ?_) fun v h => ?_
  · simp only [checkField, show mapGet m key = none from h]
    cases required <;> rfl
  · simp only [checkField, show mapGet m key = some v from h]
    cases matchesKind v kind <;> rfl

theorem isOk_checkFields (schema : List Field) :
    (checkFields m schema).isOk = fieldsOk schema (entryItems m) := by
  rw [checkFields, isOk_seq, isOk_forM_of_mem fun f _ => isOk_checkField hm f,
    isOk_forwardCompatKeys hm, fieldsOk]

theorem isOk_checkFrameKind (ft : UInt64) :
    (checkFrameKind m ft).isOk = (get (entryItems m) 0).any (Item.isKey ft) := by
  unfold checkFrameKind
  rcases get_cases hm 0 with ⟨h, hitem⟩ | ⟨v, hv, h, hitem⟩
  · rw [h, hitem]
    rfl
  rw [h, hitem, Option.any_some]
  cases hv with
  | uint v =>
    rw [isKey_uint]
    dsimp only
    by_cases heq : v = ft
    · rw [if_pos heq, decide_eq_true heq]
      rfl
    · rw [if_neg heq, decide_eq_false heq]
      rfl
  | nint hneg =>
    rw [isKey_nint hneg]
    rfl
  | _ => rfl

omit hm in
theorem isCorr_bytes (b : Bytes) :
    isCorr (CborValue.bytes b).item = !decide (b.isEmpty ∨ b.length > 64) := by
  change decide (1 ≤ b.length ∧ b.length ≤ 64) = _
  rw [← decide_not, decide_eq_decide, List.isEmpty_iff, ← length_eq_zero_iff]
  omega

theorem isOk_checkCorrRequired : (checkCorrRequired m).isOk = corrOk (entryItems m) := by
  unfold checkCorrRequired corrOk
  rcases get_cases hm 1 with ⟨h, hitem⟩ | ⟨v, hv, h, hitem⟩
  · rw [h, hitem]
    rfl
  rw [h, hitem, Option.any_some]
  cases hv with
  | bytes b =>
    rw [isCorr_bytes]
    dsimp only
    split
    · rw [decide_eq_true ‹_›]
      rfl
    · rw [decide_eq_false ‹_›]
      rfl
  | _ => rfl

theorem isOk_checkSubStreamIdRequired :
    (checkSubStreamIdRequired m).isOk = subStreamOk (entryItems m) := by
  unfold checkSubStreamIdRequired subStreamOk
  rcases get_cases hm 1 with ⟨h, hitem⟩ | ⟨v, hv, h, hitem⟩
  · rw [h, hitem]
    rfl
  rw [h, hitem, Option.any_some, hv.hasKind_eq]
  cases v <;> rfl

theorem isOk_validateGossipArray (schema : List Field) :
    (validateGossipArray m schema).isOk = gossipOk schema (entryItems m) := by
  unfold validateGossipArray gossipOk
  rcases get_cases hm 2 with ⟨h, hitem⟩ | ⟨v, hv, h, hitem⟩
  · rw [h, hitem]
    rfl
  rw [h, hitem, Option.any_some]
  cases hv with
  | @array items hitems =>
    rw [item_array, arrayOk, all_map]
    refine isOk_forM_zipIdx fun n v hv => ?_
    have hdecoded := hitems v hv
    cases hdecoded with
    | map hkey hval => exact isOk_checkFields (.map hkey hval) schema
    | _ => rfl
  | _ => rfl

theorem isOk_checkReportCorr : (checkReportCorr m).isOk = reportCorrOk (entryItems m) := by
  unfold checkReportCorr reportCorrOk mapHas
  rcases get_cases hm 1 with ⟨h, hitem⟩ | ⟨v, hv, h, hitem⟩
  · rcases get_cases hm 2 with ⟨h2, hitem2⟩ | ⟨w, hw, h2, hitem2⟩ <;> rw [h, hitem, h2, hitem2] <;>
      rfl
  rw [h, hitem, if_pos Option.isSome_some]
  cases hv with
  | bytes b =>
    dsimp only
    rcases get_cases hm 2 with ⟨h2, hitem2⟩ | ⟨w, hw, h2, hitem2⟩
    · rw [h2, hitem2]
      dsimp only
      split <;> rfl
    · rw [h2, hitem2]
      dsimp only
      rw [isCorr_bytes, hw.hasKind_eq]
      split
      · rw [decide_eq_true ‹_›]
        rfl
      · rw [decide_eq_false ‹_›, if_neg (by simp)]
        cases w <;> rfl
  | _ => rcases get_cases hm 2 with ⟨-, hitem2⟩ | ⟨w, -, -, hitem2⟩ <;> rw [hitem2] <;> rfl

theorem isOk_checkBatchSeq :
    (checkBatchSeq m).isOk = (get (entryItems m) 3).any fun v => v.hasKind .uint := by
  unfold checkBatchSeq
  rcases get_cases hm 3 with ⟨h, hitem⟩ | ⟨v, hv, h, hitem⟩
  · rw [h, hitem]
    rfl
  rw [h, hitem, Option.any_some, hv.hasKind_eq]
  cases v <;> rfl

theorem isOk_checkReportArray (c : UInt64 × List Field × String) :
    (checkReportArray m c).isOk = (get (entryItems m) c.1).all (arrayOk c.2.1) := by
  unfold checkReportArray
  rcases get_cases hm c.1 with ⟨h, hitem⟩ | ⟨v, hv, h, hitem⟩
  · rw [h, hitem]
    rfl
  rw [h, hitem, Option.all_some]
  cases hv with
  | @array items hitems =>
    rw [item_array, arrayOk, all_map]
    refine isOk_forM_of_mem fun v hv => ?_
    have hdecoded := hitems v hv
    cases hdecoded with
    | map hkey hval => exact isOk_checkFields (.map hkey hval) c.2.1
    | _ => rfl
  | _ => rfl

theorem elementsAt_entryItems (key : UInt64) :
    elementsAt (entryItems m) key = (elements (mapGet m key)).map CborValue.item := by
  unfold elementsAt
  rcases get_cases hm key with ⟨h, hitem⟩ | ⟨v, hv, h, hitem⟩
  · rw [h, hitem]
    rfl
  rw [h, hitem]
  cases hv with
  | array _ => exact itemsOf_eq_map _
  | _ => rfl

theorem decoded_of_mem_elements {key : UInt64} {v : CborValue}
    (hv : v ∈ elements (mapGet m key)) : v.Decoded := by
  rcases get_cases hm key with ⟨h, -⟩ | ⟨w, hw, h, -⟩ <;> rw [h] at hv
  · cases hv
  · cases hw with
    | array hitems => exact hitems v hv
    | _ => cases hv

theorem reportNonEmpty_eq_zero_iff : reportNonEmpty m = 0
      ↔ reportContent.any (fun c => !(elementsAt (entryItems m) c.1).isEmpty) = false := by
  rw [reportNonEmpty, length_eq_zero_iff, filter_eq_nil_iff, any_eq_false]
  refine forall₂_congr fun c _ => ?_
  rw [elementsAt_entryItems hm, isEmpty_map]

theorem isOk_validateTelemetryReport : (validateTelemetryReport m).isOk
      = (reportCorrOk (entryItems m) && fieldsOk [] (entryItems m)
          && reportOk (entryItems m)) := by
  unfold validateTelemetryReport reportOk
  rw [isOk_seq, isOk_seq, isOk_seq, isOk_checkReportCorr hm, isOk_checkBatchSeq hm,
    isOk_forM_of_mem fun c _ => isOk_checkReportArray hm c, fieldsOk, all_nil,
    Bool.true_and]
  by_cases hempty : reportNonEmpty m = 0
  · rw [if_pos hempty, (reportNonEmpty_eq_zero_iff hm).mp hempty]
    simp only [err, Except.isOk, Except.toBool, Bool.and_false]
  rw [if_neg hempty, isOk_seq, isOk_forwardCompatKeys hm,
    Bool.eq_true_of_not_eq_false fun h => hempty ((reportNonEmpty_eq_zero_iff hm).mpr h)]
  change (_ && (_ && (_ && (_ && true)))) = _
  simp only [Bool.and_true]
  ac_rfl

theorem isOk_required {α : Type} {key : UInt64} {pick : CborValue → Option α} (kind : Kind)
    (hpick : ∀ v, (pick v).isSome = matchesKind v kind) (missing mistyped : String) :
    (required m key pick missing mistyped).isOk
      = fieldOk (entryItems m) ⟨key, kind, true⟩ := by
  refine isOk_field hm (fun h => ?_) fun v h => ?_
  · simp only [required, show mapGet m key = none from h]
    rfl
  · simp only [required, show mapGet m key = some v from h]
    rw [← hpick v]
    cases pick v <;> rfl

end Checks

variable {v : CborValue} {m : List CborEntry}

theorem isOk_validateCommerceAmount (hv : v.Decoded) :
    (validateCommerceAmount v).isOk = mapOk amountSchema v.item := by
  cases hv with
  | @map m hkey hval =>
    have hm : DecodedEntries m := .map hkey hval
    change (validateCommerceAmount (.map m)).isOk = fieldsOk amountSchema (entryItems m)
    rw [validateCommerceAmount, isOk_seq, isOk_seq, isOk_seq,
      isOk_required hm .number (fun v => by cases v <;> rfl),
      isOk_required hm .uint (fun v => by cases v <;> rfl),
      isOk_required hm .text (fun v => by cases v <;> rfl), isOk_forwardCompatKeys hm]
    simp only [fieldsOk, amountSchema, all_cons, all_nil, Bool.and_true,
      Bool.and_assoc]
  | _ => rfl

theorem requiredText_cases (hm : DecodedEntries m) (key : UInt64) (missing mistyped : String) :
    (∃ s, required m key pickText missing mistyped = .ok s
        ∧ get (entryItems m) key = some (.text s.octets))
      ∨ (∃ e, required m key pickText missing mistyped = .error e)
        ∧ ∀ parties, (get (entryItems m) key).any (isParty parties) = false := by
  unfold required
  rcases get_cases hm key with ⟨h, hitem⟩ | ⟨v, hv, h, hitem⟩ <;> rw [h, hitem]
  · exact .inr ⟨⟨_, rfl⟩, fun _ => rfl⟩
  cases hv with
  | text s => exact .inl ⟨s, rfl, rfl⟩
  | _ => exact .inr ⟨⟨_, rfl⟩, fun _ => rfl⟩

theorem isOk_legAmount (hm : DecodedEntries m) :
    (legAmount m).isOk = (get (entryItems m) 2).any (mapOk amountSchema) := by
  unfold legAmount
  rcases get_cases hm 2 with ⟨h, hitem⟩ | ⟨v, hv, h, hitem⟩ <;> rw [h, hitem]
  · rfl
  · exact isOk_validateCommerceAmount hv

theorem isOk_checkParty (parties : List Str) (s : Str) (text : String) :
    (checkParty parties s text).isOk = isParty (parties.map Str.octets) (.text s.octets) := by
  change _ = decide (s.octets ∈ parties.map Str.octets)
  have hmem : (parties.any fun p => p.octets == s.octets)
      = decide (s.octets ∈ parties.map Str.octets) := by
    rw [Bool.eq_iff_iff, any_eq_true, decide_eq_true_iff, mem_map]
    simp only [beq_iff_eq]
  rw [checkParty, hmem]
  cases decide (s.octets ∈ parties.map Str.octets) <;> rfl

theorem isOk_validateCommerceLeg (hv : v.Decoded) (parties : List Str) :
    (validateCommerceLeg v parties).isOk = legOk (parties.map Str.octets) v.item := by
  cases hv with
  | @map m hkey hval =>
    have hm : DecodedEntries m := .map hkey hval
    change (validateCommerceLeg (.map m) parties).isOk = legOk _ (.map (entryItems m))
    unfold validateCommerceLeg legOk
    dsimp only
    rcases requiredText_cases hm 0 "a leg omits REQUIRED `from` (0) (§6.6)"
      "a leg `from` (0) is not a text string (§6.6)" with ⟨frm, hfrm, hfrm'⟩ | ⟨⟨e, hfrm⟩, hfrm'⟩
    · rw [hfrm, hfrm', Option.any_some]
      rcases requiredText_cases hm 1 "a leg omits REQUIRED `to` (1) (§6.6)"
        "a leg `to` (1) is not a text string (§6.6)" with ⟨to', hto, hto'⟩ | ⟨⟨e, hto⟩, hto'⟩
      · rw [hto, hto', Option.any_some]
        change (legAmount m >>= fun _ => _).isOk = _
        rw [isOk_seq, isOk_seq, isOk_seq, isOk_legAmount hm, isOk_checkParty,
          isOk_checkParty, isOk_forwardCompatKeys hm]
        ac_rfl
      · rw [hto, hto', Bool.and_false]
        rfl
    · rw [hfrm, hfrm']
      rfl
  | _ => rfl

theorem partyText_cases (hv : v.Decoded) : (∃ s, partyText v = .ok s ∧ v.item.text? = some s.octets)
      ∨ (partyText v).isOk = false ∧ v.item.text? = none := by
  cases hv with
  | text s => exact .inl ⟨s, rfl, rfl⟩
  | _ => exact .inr ⟨rfl, rfl⟩

theorem commerceParties_eq (hm : DecodedEntries m) {schema : List Field}
    (hschema : commerceSchema 0x0108 = some schema)
    (hfields : fieldsOk schema (entryItems m) = true) :
    commerceParties m = (elements (mapGet m 2)).mapM partyText := by
  cases hschema
  obtain ⟨item, hget, hkind⟩ := hasKind_of_fieldsOk hfields mem_cons_self rfl
  unfold commerceParties
  rcases get_cases hm 2 with ⟨-, hitem⟩ | ⟨v, hv, h, hitem⟩
  · cases hitem.symm.trans hget
  obtain rfl := Option.some.inj (hitem.symm.trans hget)
  rw [hv.hasKind_eq] at hkind
  rw [h]
  cases v with
  | array items => rfl
  | _ => cases hkind

theorem isOk_commerceProposal (hm : DecodedEntries m) {schema : List Field}
    (hschema : commerceSchema 0x0108 = some schema)
    (hfields : fieldsOk schema (entryItems m) = true) : (commerceParties m >>= fun parties =>
        (elements (mapGet m 3)).forM fun lg => validateCommerceLeg lg parties).isOk
      = proposalOk (entryItems m) := by
  have hlegs (parties : List Str) :
      ((elements (mapGet m 3)).forM fun lg => validateCommerceLeg lg parties).isOk
        = (elementsAt (entryItems m) 3).all (legOk (parties.map Str.octets)) := by
    rw [elementsAt_entryItems hm, all_map]
    exact isOk_forM_of_mem fun v hv =>
      isOk_validateCommerceLeg (decoded_of_mem_elements hm hv) parties
  rw [commerceParties_eq hm hschema hfields, proposalOk, elementsAt_entryItems hm 2]
  exact isOk_mapM_bind (fun parties => (elementsAt (entryItems m) 3).all (legOk parties))
    (fun v hv => partyText_cases (decoded_of_mem_elements hm hv)) hlegs

/-- A body checker of the Rust code decides what the rules say; the nested checks come after those
of the fields. -/
structure Follows (r : BodyRules)
    (correlation nested : UInt64 → List CborEntry → Except Malformed Unit) : Prop where
  correlation {m : List CborEntry} (hm : DecodedEntries m) (ft : UInt64) :
    (correlation ft m).isOk = r.correlation ft (entryItems m)
  nested {m : List CborEntry} (hm : DecodedEntries m) {ft : UInt64} {schema : List Field}
    (hschema : r.schema ft = some schema)
    (hfields : fieldsOk schema (entryItems m) = true) :
    (nested ft m).isOk = r.nested ft (entryItems m)

theorem isOk_decodeMap_bind {α : Type} {payload : Bytes}
    {body : List CborEntry → Except Malformed α} {ok : Item → Bool}
    (hmap : ∀ m, DecodedEntries m → (body m).isOk = ok (.map (entryItems m)))
    (hother : ∀ v, (∀ m, v ≠ .map m) → ok v = false) :
    (decodeMap payload >>= body).isOk = (decodeTop payload).toOption.any fun v => ok v.item := by
  unfold decodeMap
  cases hdecode : decodeTop payload with
  | error e => rfl
  | ok v =>
    have hv := decoded_of_decodeTop hdecode
    cases hv with
    | map hkey hval => exact hmap _ (.map hkey hval)
    | _ => exact (hother _ fun m h => by cases h).symm

theorem Follows.isOk_validateBody {r : BodyRules}
    {correlation nested : UInt64 → List CborEntry → Except Malformed Unit}
    (h : Follows r correlation nested) (name : String) (ft : UInt64) (payload : Bytes) :
    (validateBody name r.schema correlation nested ft payload).isOk
      = (decodeTop payload).toOption.any fun v => r.ok ft v.item := by
  unfold validateBody
  cases hschema : r.schema ft with
  | none =>
    cases decodeTop payload with
    | error e => rfl
    | ok v => exact (BodyRules.ok_of_none hschema v.item).symm
  | some schema =>
    refine isOk_decodeMap_bind (fun m hm => ?_) fun v hv => BodyRules.ok_of_ne hv
    rw [BodyRules.ok, hschema, Option.any_some, isOk_seq, isOk_seq, isOk_seq,
      isOk_seq, isOk_checkFrameKind hm, h.correlation hm, isOk_checkFields hm]
    cases hfields : fieldsOk schema (entryItems m) with
    | false => simp only [Bool.false_and, Bool.and_false]
    | true =>
      rw [h.nested hm hschema hfields]
      change (_ && (_ && (_ && (_ && true)))) = _
      simp only [Bool.true_and, Bool.and_true, Bool.and_assoc]

theorem follows_plain (schema : UInt64 → Option (List Field)) :
    Follows (plainRules schema) (fun _ => checkCorrRequired) fun _ _ => .ok () where
  correlation hm _ := isOk_checkCorrRequired hm
  nested _ _ _ _ _ := rfl

theorem follows_stream :
    Follows BodyKind.stream.rules (fun _ => checkSubStreamIdRequired) fun _ _ => .ok () where
  correlation hm _ := isOk_checkSubStreamIdRequired hm
  nested _ _ _ _ _ := rfl

theorem follows_immune :
    Follows BodyKind.immune.rules (fun _ => checkCorrRequired) validateImmuneNested where
  correlation hm _ := isOk_checkCorrRequired hm
  nested {m} hm ft _ _ _ := by
    change (validateImmuneNested ft m).isOk
      = if ft = 0x00C0 then gossipOk gossipDescriptorSchema _
        else if ft = 0x00C3 then gossipOk gossipItemSchema _ else true
    unfold validateImmuneNested
    split
    · exact isOk_validateGossipArray hm _
    split
    · exact isOk_validateGossipArray hm _
    · rfl

theorem follows_commerce :
    Follows BodyKind.commerce.rules (fun _ => checkCorrRequired) validateCommerceNested where
  correlation hm _ := isOk_checkCorrRequired hm
  nested {m} hm ft schema hschema hfields := by
    change (validateCommerceNested ft m).isOk
      = if ft = 0x0100 then (get (entryItems m) 4).all (mapOk amountSchema)
        else if ft = 0x0108 then proposalOk (entryItems m) else true
    unfold validateCommerceNested
    split
    · rcases get_cases hm 4 with ⟨h, hitem⟩ | ⟨v, hv, h, hitem⟩ <;> rw [h, hitem]
      · rfl
      · exact isOk_validateCommerceAmount hv
    split
    · rename_i hft
      subst hft
      exact isOk_commerceProposal hm hschema hfields
    · rfl

theorem follows_workflow : Follows BodyKind.workflow.rules
      (fun ft m => if workflowHasCorr ft then checkCorrRequired m else .ok ())
      fun _ _ => .ok () where
  correlation {m} hm ft := by
    change (if workflowHasCorr ft then _ else _ : Except Malformed Unit).isOk
      = if workflowHasCorr ft then _ else _
    split
    · exact isOk_checkCorrRequired hm
    · rfl
  nested _ _ _ _ _ := rfl

theorem follows_knowledge :
    Follows BodyKind.knowledge.rules (fun _ => checkCorrRequired) checkKnowledgeUpdate where
  correlation hm _ := isOk_checkCorrRequired hm
  nested {m} hm ft _ _ _ := by
    change (checkKnowledgeUpdate ft m).isOk
      = (decide (ft ≠ 0x0106) || (get (entryItems m) 4).isSome
          || (get (entryItems m) 5).isSome)
    rw [get_entryItems hm, get_entryItems hm, Option.isSome_map, Option.isSome_map,
      checkKnowledgeUpdate, mapHas, mapHas]
    by_cases hft : ft = 0x0106
    · cases h4 : mapGet m 4 <;> cases h5 : mapGet m 5 <;>
        simp [hft, err, Except.isOk, Except.toBool]
    · rw [if_neg fun h => hft h.1, decide_eq_true hft]
      rfl

theorem isOk_validateTelemetry (ft : UInt64) (payload : Bytes) : (validateTelemetry ft payload).isOk
      = (decodeTop payload).toOption.any fun v => BodyKind.telemetry.rules.ok ft v.item := by
  unfold validateTelemetry
  rcases telemetry_schema_cases ft with ⟨hrange, hnone⟩ | hcase
  · rw [if_pos hrange]
    cases decodeTop payload with
    | error e => rfl
    | ok v => exact (BodyRules.ok_of_none hnone v.item).symm
  have hrange : 0x0100 ≤ ft ∧ ft ≤ 0x0105 := by
    rcases hcase with rfl | ⟨hrange, -⟩
    · decide
    · exact hrange
  rw [if_neg (not_not_intro hrange)]
  refine isOk_decodeMap_bind (fun m hm => ?_) fun v hv => BodyRules.ok_of_ne hv
  rw [BodyRules.ok, isOk_seq, isOk_checkFrameKind hm]
  rcases hcase with rfl | ⟨-, hne, schema, hschema⟩
  · rw [if_pos rfl, isOk_validateTelemetryReport hm]
    change _ = (_ && reportCorrOk _ && _ && reportOk _)
    ac_rfl
  · rw [if_neg hne, hschema, isOk_seq, isOk_checkCorrRequired hm]
    dsimp only
    rw [isOk_seq, isOk_checkFields hm]
    simp only [BodyKind.rules, if_neg hne, hschema, Option.any_some]
    change (_ && (_ && (_ && true))) = (_ && _ && _ && true)
    rw [Bool.and_true, Bool.and_true, Bool.and_assoc]

def goValidate : BodyKind → FrameType → Bytes → Except GoError (List Npamp.CborEntry)
  | .memory => validateMemoryPayload
  | .stream => validateStreamPayload
  | .capability => validateCapabilityPayload
  | .immune => validateImmunePayload
  | .settlement => validateSettlementPayload
  | .telemetry => validateTelemetryPayload
  | .commerce => validateCommercePayload
  | .interaction => validateInteractionPayload
  | .workflow => validateWorkflowPayload
  | .knowledge => validateKnowledgePayload

def rustValidate : BodyKind → UInt64 → Bytes → Except Malformed (List CborEntry)
  | .memory => validateMemory
  | .stream => validateStream
  | .capability => validateCapability
  | .immune => validateImmune
  | .settlement => validateSettlement
  | .telemetry => validateTelemetry
  | .commerce => validateCommerce
  | .interaction => validateInteraction
  | .workflow => validateWorkflow
  | .knowledge => validateKnowledge

/-- **The Go validators accept the items the rules let through.** -/
theorem isOk_goValidate (c : BodyKind) (ft : FrameType) (payload : Bytes) :
    (goValidate c ft payload).isOk
      = (cborDecodeTop payload).toOption.any fun v => c.rules.ok ft.toUInt64 v.item := by
  cases c with
  | memory =>
    exact (isOk_validateMemoryPayload ft payload).trans
      (memoryChannel_follows.isOk_validate ft payload)
  | stream => exact streamChannel_follows.isOk_validate ft payload
  | capability => exact capabilityChannel_follows.isOk_validate ft payload
  | immune => exact immuneChannel_follows.isOk_validate ft payload
  | settlement => exact settlementChannel_follows.isOk_validate ft payload
  | telemetry => exact isOk_validateTelemetryPayload ft payload
  | commerce => exact commerceChannel_follows.isOk_validate ft payload
  | interaction => exact interactionChannel_follows.isOk_validate ft payload
  | workflow => exact workflowChannel_follows.isOk_validate ft payload
  | knowledge => exact knowledgeChannel_follows.isOk_validate ft payload

/-- **The Rust validators accept the items the rules let through.** -/
theorem isOk_rustValidate (c : BodyKind) (ft : UInt64) (payload : Bytes) :
    (rustValidate c ft payload).isOk
      = (decodeTop payload).toOption.any fun v => c.rules.ok ft v.item := by
  cases c with
  | memory => exact (follows_plain memorySchema).isOk_validateBody _ ft payload
  | stream => exact follows_stream.isOk_validateBody _ ft payload
  | capability => exact (follows_plain capabilitySchema).isOk_validateBody _ ft payload
  | immune => exact follows_immune.isOk_validateBody _ ft payload
  | settlement => exact (follows_plain settlementSchema).isOk_validateBody _ ft payload
  | telemetry => exact isOk_validateTelemetry ft payload
  | commerce => exact follows_commerce.isOk_validateBody _ ft payload
  | interaction => exact (follows_plain interactionSchema).isOk_validateBody _ ft payload
  | workflow => exact follows_workflow.isOk_validateBody _ ft payload
  | knowledge => exact follows_knowledge.isOk_validateBody _ ft payload

/-- **Go and Rust accept the same bodies**, on every channel and for every frame type, where map keys
are unsigned integers and text is UTF-8. -/
theorem go_rust_bodies_agree (c : BodyKind) (ft : FrameType) (payload : Bytes)
    (hkeys : ∀ x ∈ cborVisits payload, x.unsignedKey = true)
    (htexts : ∀ x ∈ cborVisits payload, x.utf8 false = true) :
    (goValidate c ft payload).isOk = (rustValidate c ft.toUInt64 payload).isOk := by
  have hsame := (same_decodeTop (fun x hx => Cbor.Visit.oneKind_of_unsignedKey (hkeys x hx))
    htexts).toOption_eq
  have hany := congrArg (Option.any (c.rules.ok ft.toUInt64)) hsame
  rw [Option.any_map, Option.any_map] at hany
  rw [isOk_goValidate, isOk_rustValidate]
  exact hany

def proposal : Bytes :=
  [0xa5, 0x00, 0x19, 0x01, 0x08, 0x01, 0x41, 0x07, 0x02, 0x82, 0x61, 0x61, 0x61, 0x62, 0x03, 0x81,
   0xa3, 0x00, 0x61, 0x61, 0x01, 0x61, 0x62, 0x02, 0xa3, 0x00, 0x24, 0x01, 0x02, 0x02, 0x63, 0x65,
   0x75, 0x72, 0x07, 0x00]

theorem go_rust_bodies_agree_proposal :
    (goValidate .commerce 0x0108 proposal).isOk = (rustValidate .commerce 0x0108 proposal).isOk
      ∧ (goValidate .commerce 0x0108 proposal).isOk = true :=
  ⟨go_rust_bodies_agree .commerce 0x0108 proposal (by decide) (by decide), by decide⟩

end Npamp.Rust
