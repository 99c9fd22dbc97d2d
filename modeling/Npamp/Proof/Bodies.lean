import Npamp.Bodies
import Npamp.Proof.Cbor
import Npamp.Proof.BodyRules

/-!
# The Go validators follow the rules

A value from the Go decoder says the same as its item, and looking a key up by its octets finds what
looking it up by its value does.
-/

namespace Npamp

open BodyKind Option CborValue
open Cbor

variable {v : CborValue}

/-- The values the decoder builds: negative integers only as `int64`, and every key beside its own
encoding. -/
inductive CborValue.Decoded : CborValue → Prop
  | uint64 (v : UInt64) : Decoded (.uint64 v)
  | int64 {v : Int64} (h : v < 0) : Decoded (.int64 v)
  | bytes (b : Bytes) : Decoded (.bytes b)
  | string (s : Bytes) : Decoded (.string s)
  | array {items : List CborValue} (h : ∀ v ∈ items, Decoded v) : Decoded (.array items)
  | cborMap {entries : List CborEntry}
      (hkeyEnc : ∀ e ∈ entries, cborEncode e.key = e.keyEnc)
      (hkey : ∀ e ∈ entries, Decoded e.key) (hval : ∀ e ∈ entries, Decoded e.val) :
      Decoded (.cborMap entries)
  | bool (b : Bool) : Decoded (.bool b)
  | null : Decoded .null

theorem decoded_invariant :
    cborDialect.Invariant (fun v octets => cborEncode v = octets) Decoded where
  uint v := .uint64 v
  nint {arg v} h := by
    dsimp only [cborDialect] at h
    split at h
    · cases h
    · rename_i harg
      cases h
      exact .int64 (neg_one_sub_toInt64_lt (Nat.not_lt.mp harg))
  bytes b := .bytes b
  text h := by
    cases h
    exact .string _
  array h := .array h
  map _ _ h := by
    refine .cborMap ?_ ?_ ?_ <;> refine List.forall_mem_map.mpr fun e he => ?_
    · exact (h e he).1
    · exact (h e he).2.1
    · exact (h e he).2.2
  bool b := .bool b
  null := .null

/-- What the decoder returns has the shape `Decoded`. -/
theorem decoded_of_cborDecodeTop {b : Bytes} (h : cborDecodeTop b = .ok v) :
    v.Decoded := by
  rw [cborDecodeTop_eq] at h
  exact Dialect.invariant_decodeTop decoded_invariant cborEncode_of_reads h

theorem toInt_neg {v : Int64} (h : v < 0) : v.toInt < 0 := Int64.lt_iff_toInt_lt.mp h

theorem isKey_uint64 (v key : UInt64) : (CborValue.uint64 v).item.isKey key = decide (v = key) := by
  change decide ((v.toNat : Int) = key.toNat) = _
  rw [decide_eq_decide, Nat.cast_inj, UInt64.toNat_inj]

theorem isKey_int64 {v : Int64} (h : v < 0) (key : UInt64) :
    (int64 v).item.isKey key = false := by
  have hneg := toInt_neg h
  exact decide_eq_false (by omega)

/-- The Go code compares keys by their encodings, which for decoded keys compares the keys. -/
theorem CborValue.Decoded.cborEncode_eq_iff (h : v.Decoded) (key : UInt64) :
    cborEncode v = cborEncode (.uint64 key) ↔ v.item.isKey key = true := by
  have hmajor : majorOf (cborEncode (.uint64 key)) = some 0 := by
    rw [cborEncode, encodeHead_eq_head, ← List.append_nil (head _ _)]
    exact majorOf_head (by decide) _ _
  -- a value of another major type starts with another octet
  have hother {w : CborValue} {m : UInt8} (hm : majorOf (cborEncode w) = some m)
      (hne : m ≠ 0) (hkey : w.item.isKey key = false) :
      cborEncode w = cborEncode (.uint64 key) ↔ w.item.isKey key = true := by
    rw [hkey]
    refine iff_of_false (fun heq => hne ?_) Bool.false_ne_true
    rw [heq, hmajor] at hm
    exact (some.inj hm).symm
  cases h with
  | uint64 v =>
    rw [isKey_uint64, decide_eq_true_iff, cborEncode, cborEncode]
    exact ⟨head_injective (by decide), fun hv => by rw [hv]⟩
  | @int64 v hneg =>
    refine hother (m := 1) ?_ (by decide) (isKey_int64 hneg key)
    rw [cborEncode, encodeSigned, if_pos hneg, encodeHead_eq_head,
      ← List.append_nil (head _ _)]
    exact majorOf_head (by decide) _ _
  | bytes b =>
    refine hother (m := 2) ?_ (by decide) rfl
    rw [cborEncode]
    exact majorOf_head (by decide) _ _
  | string s =>
    refine hother (m := 3) ?_ (by decide) rfl
    rw [cborEncode]
    exact majorOf_head (by decide) _ _
  | array _ =>
    refine hother (m := 4) ?_ (by decide) rfl
    rw [cborEncode]
    exact majorOf_head (by decide) _ _
  | cborMap _ _ _ =>
    refine hother (m := 5) ?_ (by decide) rfl
    rw [cborEncode]
    exact majorOf_head (by decide) _ _
  | bool b => cases b <;> exact hother (m := 7) (by decide) (by decide) rfl
  | null => exact hother (m := 7) (by decide) (by decide) rfl

def DecodedEntries (m : List CborEntry) : Prop := (cborMap m).Decoded

theorem entryItems_eq : ∀ m, entryItems m = m.map fun e => (e.key.item, e.val.item) :=
  eq_map_of_cons rfl fun e _ => by cases e; rfl

/-- **A key is found by its octets where it is found by its value.** -/
theorem get_entryItems {m : List CborEntry} (hm : DecodedEntries m) (key : UInt64) :
    get (entryItems m) key = (cborMapGet m key).map CborValue.item := by
  cases hm with
  | cborMap hkeyEnc hkey _ =>
    rw [entryItems_eq, cborMapGet, map_map]
    refine get_map fun e he => ?_
    rw [Bool.eq_iff_iff, ← (hkey e he).cborEncode_eq_iff, hkeyEnc e he, decide_eq_true_iff]

theorem get_cases {m : List CborEntry} (hm : DecodedEntries m) (key : UInt64) :
    (cborMapGet m key = none ∧ get (entryItems m) key = none)
      ∨ ∃ v : CborValue, v.Decoded ∧ cborMapGet m key = some v
        ∧ get (entryItems m) key = some v.item := by
  have hget := get_entryItems hm key
  cases hv : cborMapGet m key with
  | none =>
    rw [hv] at hget
    exact .inl ⟨rfl, hget⟩
  | some v =>
    rw [hv] at hget
    refine .inr ⟨v, ?_, rfl, hget⟩
    obtain ⟨e, he, rfl⟩ := map_eq_some_iff.mp hv
    cases hm with
    | cborMap _ _ hval => exact hval e (List.mem_of_find?_eq_some he)

def CborKind.kind : CborKind → Kind
  | .uint => .uint
  | .text => .text
  | .bytes => .bytes
  | .array => .array
  | .map => .map
  | .bool => .bool

def MemField.field (f : MemField) : Field := ⟨f.key, f.kind.kind, f.required⟩

def telIs : Kind → CborValue → Bool
  | .uint => telIsUint
  | .text => telIsText
  | .bytes => telIsBytes
  | .array => telIsArray
  | .map => telIsMap
  | .bool => fun v => matchesKind v .bool
  | .number => telIsNumber

def telField (f : Field) : TelField := ⟨f.key, telIs f.kind, f.required⟩

theorem CborValue.Decoded.hasKind_eq (h : v.Decoded) (k : Kind) :
    v.item.hasKind k = telIs k v := by
  cases h with
  | uint64 v =>
    cases k with
    | uint => exact decide_eq_true (Int.natCast_nonneg v.toNat)
    | _ => rfl
  | int64 hneg =>
    cases k with
    | uint => exact decide_eq_false (not_le.mpr (toInt_neg hneg))
    | _ => rfl
  | _ => cases k <;> rfl

theorem matchesKind_eq (v : CborValue) (k : CborKind) : matchesKind v k = telIs k.kind v := by
  cases k <;> cases v <;> rfl

section Checks

variable {m : List CborEntry} (hm : DecodedEntries m)
include hm

theorem isOk_forM_key {check : CborValue → Except GoError Unit}
    (hcheck : ∀ v, v.Decoded → (check v).isOk = telIsUint v) :
    ((m.map CborEntry.key).forM check).isOk = keysOk (entryItems m) := by
  cases hm with
  | cborMap _ hkey _ =>
    have hkeys : ∀ v ∈ m.map CborEntry.key, (check v).isOk = v.item.hasKind .uint :=
      List.forall_mem_map.mpr fun e he =>
        (hcheck _ (hkey e he)).trans ((hkey e he).hasKind_eq .uint).symm
    rw [isOk_forM_of_mem hkeys, List.all_map, keysOk, entryItems_eq, List.all_map]
    rfl

theorem isOk_field {α : Type} {x : Except GoError α} {f : Field}
    (hnone : cborMapGet m f.key = none → x.isOk = !f.required)
    (hsome : ∀ v, cborMapGet m f.key = some v → x.isOk = telIs f.kind v) :
    x.isOk = fieldOk (entryItems m) f := by
  unfold fieldOk
  rcases get_cases hm f.key with ⟨h, hitem⟩ | ⟨v, hv, h, hitem⟩
  · rw [hitem]
    exact hnone h
  · rw [hitem]
    exact (hsome v h).trans (hv.hasKind_eq f.kind).symm

theorem isOk_checkField (f : MemField) :
    (checkField m f).isOk = fieldOk (entryItems m) f.field := by
  obtain ⟨key, kind, required⟩ := f
  refine isOk_field hm (fun h => ?_) fun v h => ?_
  · simp only [checkField, show cborMapGet m key = none from h]
    cases required <;> rfl
  · simp only [checkField, show cborMapGet m key = some v from h, matchesKind_eq]
    change (if telIs kind.kind v then _ else _ : Except GoError Unit).isOk = telIs kind.kind v
    cases telIs kind.kind v <;> rfl

theorem isOk_checkFields (schema : List MemField) :
    (checkFields m schema).isOk = fieldsOk (schema.map MemField.field) (entryItems m) := by
  rw [checkFields, isOk_seq, isOk_forM_of_mem fun f _ => isOk_checkField hm f,
    isOk_forM_key hm, fieldsOk, List.all_map]
  · rfl
  intro v hv
  cases hv with
  | int64 hneg =>
    rw [checkKey, if_pos hneg]
    rfl
  | _ => rfl

theorem isOk_telemetryForwardCompat :
    (telemetryForwardCompat m).isOk = keysOk (entryItems m) := by
  refine isOk_forM_key hm fun v hv => ?_
  cases hv with
  | int64 hneg =>
    rw [checkTelemetryKey, if_pos hneg]
    rfl
  | _ => rfl

theorem isOk_commerceForwardCompatKeys :
    (commerceForwardCompatKeys m).isOk = keysOk (entryItems m) := by
  refine isOk_forM_key hm fun v hv => ?_
  cases hv with
  | int64 hneg =>
    rw [checkCommerceKey, if_pos hneg]
    rfl
  | _ => rfl

theorem isOk_checkTelemetryField (f : Field) :
    (checkTelemetryField m (telField f)).isOk = fieldOk (entryItems m) f := by
  obtain ⟨key, kind, required⟩ := f
  refine isOk_field hm (fun h => ?_) fun v h => ?_
  · simp only [checkTelemetryField, telField, show cborMapGet m key = none from h]
    cases required <;> rfl
  · simp only [checkTelemetryField, telField, show cborMapGet m key = some v from h]
    change (if telIs kind v then _ else _ : Except GoError Unit).isOk = telIs kind v
    cases telIs kind v <;> rfl

theorem isOk_checkTelemetryFields (schema : List Field) :
    (checkTelemetryFields m (schema.map telField)).isOk
      = fieldsOk schema (entryItems m) := by
  rw [checkTelemetryFields, isOk_seq, isOk_forM, List.all_map,
    isOk_telemetryForwardCompat hm, fieldsOk]
  congr 2
  funext f
  exact isOk_checkTelemetryField hm f

theorem isOk_checkFrameKind (s : Sentinel) (ft : FrameType) :
    (checkFrameKind s ft m).isOk = (get (entryItems m) 0).any (Item.isKey ft.toUInt64) := by
  unfold checkFrameKind
  rcases get_cases hm 0 with ⟨h, hitem⟩ | ⟨v, hv, h, hitem⟩
  · rw [h, hitem]
    rfl
  rw [h, hitem, any_some]
  cases hv with
  | uint64 v =>
    rw [isKey_uint64]
    dsimp only
    by_cases heq : v = ft.toUInt64
    · rw [if_neg (not_not_intro heq), decide_eq_true heq]
      rfl
    · rw [if_pos heq, decide_eq_false heq]
      rfl
  | int64 hneg =>
    rw [isKey_int64 hneg]
    rfl
  | _ => rfl

theorem isOk_checkCorr (s : Sentinel) (text : String) :
    (checkCorr s text m).isOk = corrOk (entryItems m) := by
  unfold checkCorr corrOk
  rcases get_cases hm 1 with ⟨h, hitem⟩ | ⟨v, hv, h, hitem⟩
  · rw [h, hitem]
    rfl
  rw [h, hitem, any_some]
  cases hv with
  | bytes b =>
    change (if _ then _ else _ : Except GoError Unit).isOk = decide (1 ≤ b.length ∧ b.length ≤ 64)
    split
    · exact (decide_eq_false (by omega)).symm
    · exact (decide_eq_true (by omega)).symm
  | _ => rfl

theorem isOk_checkSubStreamID : (checkSubStreamID m).isOk = subStreamOk (entryItems m) := by
  unfold checkSubStreamID subStreamOk
  rcases get_cases hm 1 with ⟨h, hitem⟩ | ⟨v, hv, h, hitem⟩
  · rw [h, hitem]
    rfl
  rw [h, hitem, any_some, hv.hasKind_eq]
  cases v <;> rfl

omit hm in
theorem item_array (items : List CborValue) :
    (array items).item = .array (items.map CborValue.item) :=
  congrArg Item.array (itemsOf_eq_map items)

theorem isOk_validateGossipArray (schema : List MemField) :
    (validateGossipArray m schema).isOk = gossipOk (schema.map MemField.field) (entryItems m) := by
  unfold validateGossipArray gossipOk
  rcases get_cases hm 2 with ⟨h, hitem⟩ | ⟨v, hv, h, hitem⟩
  · rw [h, hitem]
    rfl
  rw [h, hitem, any_some]
  cases hv with
  | @array items hitems =>
    rw [item_array, arrayOk, List.all_map]
    refine isOk_forM_zipIdx fun n v hv => ?_
    have hdecoded := hitems v hv
    cases hdecoded with
    | @cborMap entries hkeyEnc hkey hval =>
      rw [checkGossipElement, isOk_mapError]
      exact isOk_checkFields (.cborMap hkeyEnc hkey hval) schema
    | _ => rfl
  | _ => rfl

theorem isOk_checkReportCorr : (checkReportCorr m).isOk = reportCorrOk (entryItems m) := by
  unfold checkReportCorr reportCorrOk
  rcases get_cases hm 1 with ⟨h, hitem⟩ | ⟨v, hv, h, hitem⟩
  · rcases get_cases hm 2 with ⟨h2, hitem2⟩ | ⟨w, hw, h2, hitem2⟩ <;> rw [h, hitem, h2, hitem2] <;>
      rfl
  rw [h, hitem]
  cases hv with
  | bytes b =>
    have hcorr : isCorr (bytes b).item = decide (1 ≤ b.length ∧ b.length ≤ 64) := rfl
    dsimp only
    rcases get_cases hm 2 with ⟨h2, hitem2⟩ | ⟨w, hw, h2, hitem2⟩
    · rw [h2, hitem2]
      dsimp only
      split <;> rfl
    · rw [h2, hitem2]
      dsimp only
      rw [hcorr, hw.hasKind_eq]
      split
      · rw [decide_eq_false (by omega)]
        rfl
      · rw [decide_eq_true (by omega), Bool.true_and]
        change (if telIsBytes w then _ else _ : Except GoError Unit).isOk = telIsBytes w
        cases telIsBytes w <;> rfl
  | _ => rcases get_cases hm 2 with ⟨-, hitem2⟩ | ⟨w, -, -, hitem2⟩ <;> rw [hitem2] <;> rfl

theorem isOk_checkBatchSeq :
    (checkBatchSeq m).isOk = (get (entryItems m) 3).any fun v => v.hasKind .uint := by
  unfold checkBatchSeq
  rcases get_cases hm 3 with ⟨h, hitem⟩ | ⟨v, hv, h, hitem⟩
  · rw [h, hitem]
    rfl
  rw [h, hitem, any_some, hv.hasKind_eq]
  change (if telIsUint v then _ else _ : Except GoError Unit).isOk = telIsUint v
  cases telIsUint v <;> rfl

theorem isOk_checkReportArray (key : UInt64) (schema : List Field) (what : String) :
    (checkReportArray m (key, schema.map telField, what)).isOk
      = (get (entryItems m) key).all (arrayOk schema) := by
  unfold checkReportArray
  rcases get_cases hm key with ⟨h, hitem⟩ | ⟨v, hv, h, hitem⟩
  · rw [h, hitem]
    rfl
  rw [h, hitem, all_some]
  cases hv with
  | @array items hitems =>
    rw [item_array, arrayOk, List.all_map]
    refine isOk_forM_of_mem fun v hv => ?_
    have hdecoded := hitems v hv
    cases hdecoded with
    | @cborMap entries hkeyEnc hkey hval =>
      exact isOk_checkTelemetryFields (.cborMap hkeyEnc hkey hval) schema
    | _ => rfl
  | _ => rfl

theorem elementsAt_entryItems (key : UInt64) :
    elementsAt (entryItems m) key = (elements (cborMapGet m key)).map CborValue.item := by
  unfold elementsAt
  rcases get_cases hm key with ⟨h, hitem⟩ | ⟨v, hv, h, hitem⟩
  · rw [h, hitem]
    rfl
  rw [h, hitem]
  cases hv with
  | array _ => exact itemsOf_eq_map _
  | _ => rfl

theorem decoded_of_mem_elements {key : UInt64}
    (hv : v ∈ elements (cborMapGet m key)) : v.Decoded := by
  rcases get_cases hm key with ⟨h, -⟩ | ⟨w, hw, h, -⟩ <;> rw [h] at hv
  · cases hv
  · cases hw with
    | array hitems => exact hitems v hv
    | _ => cases hv

omit hm in
theorem reportContent_eq :
    reportContent = Rust.reportContent.map fun c => (c.1, c.2.1.map telField, c.2.2) :=
  rfl

theorem reportNonEmpty_eq_zero_iff : reportNonEmpty m = 0
      ↔ Rust.reportContent.any (fun c => !(elementsAt (entryItems m) c.1).isEmpty) = false := by
  rw [reportNonEmpty, List.length_eq_zero_iff, List.filter_eq_nil_iff, List.any_eq_false,
    reportContent_eq, List.forall_mem_map]
  refine forall₂_congr fun c _ => ?_
  rw [elementsAt_entryItems hm, List.isEmpty_map]

theorem isOk_validateTelemetryReport : (validateTelemetryReport m).isOk
      = (reportCorrOk (entryItems m) && fieldsOk [] (entryItems m)
          && reportOk (entryItems m)) := by
  have hcontent : (reportContent.forM (checkReportArray m)).isOk
      = Rust.reportContent.all fun c =>
          (get (entryItems m) c.1).all (arrayOk c.2.1) := by
    rw [isOk_forM, reportContent_eq, List.all_map]
    congr 1
    funext c
    exact isOk_checkReportArray hm c.1 c.2.1 c.2.2
  unfold validateTelemetryReport reportOk
  rw [isOk_seq, isOk_seq, isOk_seq, isOk_checkReportCorr hm, isOk_checkBatchSeq hm,
    hcontent, fieldsOk, List.all_nil, Bool.true_and]
  by_cases hempty : reportNonEmpty m = 0
  · rw [if_pos hempty, (reportNonEmpty_eq_zero_iff hm).mp hempty]
    simp only [Except.isOk, Except.toBool, Bool.and_false]
  rw [if_neg hempty, isOk_seq, isOk_telemetryForwardCompat hm,
    Bool.eq_true_of_not_eq_false fun h => hempty ((reportNonEmpty_eq_zero_iff hm).mpr h)]
  change (_ && (_ && (_ && (_ && true)))) = _
  simp only [Bool.and_true]
  ac_rfl

theorem isOk_requiredField {α : Type} {key : UInt64} {pick : CborValue → Option α} (kind : Kind)
    (hpick : ∀ v, (pick v).isSome = telIs kind v) (missing mistyped : String) :
    (requiredField m key pick missing mistyped).isOk
      = fieldOk (entryItems m) ⟨key, kind, true⟩ := by
  refine isOk_field hm (fun h => ?_) fun v h => ?_
  · simp only [requiredField, show cborMapGet m key = none from h]
    rfl
  · simp only [requiredField, show cborMapGet m key = some v from h]
    rw [← hpick v]
    cases pick v <;> rfl

end Checks

variable {v : CborValue} {m : List CborEntry}

theorem isOk_validateCommerceAmount (hv : v.Decoded) :
    (validateCommerceAmount v).isOk = mapOk amountSchema v.item := by
  cases hv with
  | @cborMap m hkeyEnc hkey hval =>
    have hm : DecodedEntries m := .cborMap hkeyEnc hkey hval
    change (validateCommerceAmount (.cborMap m)).isOk = fieldsOk amountSchema (entryItems m)
    rw [validateCommerceAmount, isOk_seq, isOk_seq, isOk_seq,
      isOk_requiredField hm .number (fun v => by cases v <;> rfl),
      isOk_requiredField hm .uint (fun v => by cases v <;> rfl),
      isOk_requiredField hm .text (fun v => by cases v <;> rfl),
      isOk_commerceForwardCompatKeys hm]
    simp only [fieldsOk, amountSchema, List.all_cons, List.all_nil, Bool.and_true,
      Bool.and_assoc]
  | _ => rfl

theorem requiredString_cases (hm : DecodedEntries m) (key : UInt64) (missing mistyped : String) :
    (∃ s, requiredField m key pickString missing mistyped = .ok s
        ∧ get (entryItems m) key = some (.text s))
      ∨ (∃ e, requiredField m key pickString missing mistyped = .error e)
        ∧ ∀ parties, (get (entryItems m) key).any (isParty parties) = false := by
  unfold requiredField
  rcases get_cases hm key with ⟨h, hitem⟩ | ⟨v, hv, h, hitem⟩ <;> rw [h, hitem]
  · exact .inr ⟨⟨_, rfl⟩, fun _ => rfl⟩
  cases hv with
  | string s => exact .inl ⟨s, rfl, rfl⟩
  | _ => exact .inr ⟨⟨_, rfl⟩, fun _ => rfl⟩

theorem isOk_legAmount (hm : DecodedEntries m) :
    (legAmount m).isOk = (get (entryItems m) 2).any (mapOk amountSchema) := by
  unfold legAmount
  rcases get_cases hm 2 with ⟨h, hitem⟩ | ⟨v, hv, h, hitem⟩ <;> rw [h, hitem]
  · rfl
  · exact isOk_validateCommerceAmount hv

theorem isOk_checkParty (parties : List Bytes) (s : Bytes) (text : String) :
    (checkParty parties s text).isOk = isParty parties (.text s) := by
  change _ = decide (s ∈ parties)
  unfold checkParty
  split
  · exact (decide_eq_true ‹_›).symm
  · exact (decide_eq_false ‹_›).symm

theorem isOk_validateCommerceLeg (hv : v.Decoded) (parties : List Bytes) :
    (validateCommerceLeg v parties).isOk = legOk parties v.item := by
  cases hv with
  | @cborMap m hkeyEnc hkey hval =>
    have hm : DecodedEntries m := .cborMap hkeyEnc hkey hval
    change (validateCommerceLeg (.cborMap m) parties).isOk = legOk parties (.map (entryItems m))
    unfold validateCommerceLeg legOk
    dsimp only
    rcases requiredString_cases hm 0 "a leg omits REQUIRED `from` (0) (§6.6)"
      "a leg `from` (0) is not a text string (§6.6)" with ⟨frmS, hfrm, hfrm'⟩ | ⟨⟨e, hfrm⟩, hfrm'⟩
    · rw [hfrm, hfrm', any_some]
      rcases requiredString_cases hm 1 "a leg omits REQUIRED `to` (1) (§6.6)"
        "a leg `to` (1) is not a text string (§6.6)" with ⟨toS, hto, hto'⟩ | ⟨⟨e, hto⟩, hto'⟩
      · rw [hto, hto', any_some]
        change (legAmount m >>= fun _ => _).isOk = _
        rw [isOk_seq, isOk_seq, isOk_seq, isOk_legAmount hm, isOk_checkParty,
          isOk_checkParty, isOk_commerceForwardCompatKeys hm]
        ac_rfl
      · rw [hto, hto' parties, Bool.and_false]
        rfl
    · rw [hfrm, hfrm' parties]
      rfl
  | _ => rfl

theorem partyText_cases (hv : v.Decoded) : (∃ s, partyText v = .ok s ∧ v.item.text? = some (id s))
      ∨ (partyText v).isOk = false ∧ v.item.text? = none := by
  cases hv with
  | string s => exact .inl ⟨s, rfl, rfl⟩
  | _ => exact .inr ⟨rfl, rfl⟩

theorem isOk_commerceProposal (hm : DecodedEntries m) : (commerceParties m >>= fun parties =>
        (elements (cborMapGet m 3)).forM fun lg => validateCommerceLeg lg parties).isOk
      = proposalOk (entryItems m) := by
  have hlegs (parties : List Bytes) :
      ((elements (cborMapGet m 3)).forM fun lg => validateCommerceLeg lg parties).isOk
        = (elementsAt (entryItems m) 3).all (legOk parties) := by
    rw [elementsAt_entryItems hm, List.all_map]
    exact isOk_forM_of_mem fun v hv =>
      isOk_validateCommerceLeg (decoded_of_mem_elements hm hv) parties
  rw [commerceParties, proposalOk, elementsAt_entryItems hm 2]
  refine isOk_mapM_bind (fun parties => (elementsAt (entryItems m) 3).all (legOk parties))
    (fun v hv => partyText_cases (decoded_of_mem_elements hm hv)) fun parties => ?_
  rw [List.map_id]
  exact hlegs parties

theorem lookup_map_map {α α' β β' : Type} [BEq α] [LawfulBEq α] [BEq α'] [LawfulBEq α']
    {f : α → α'} (hf : Function.Injective f) (g : β → β') (l : List (α × β)) (k : α) :
    (l.map fun p => (f p.1, g p.2)).lookup (f k) = (l.lookup k).map g := by
  induction l with
  | nil => rfl
  | cons p rest ih =>
    have hkey : (f k == f p.1) = (k == p.1) := by
      rw [Bool.eq_iff_iff, beq_iff_eq, beq_iff_eq]
      exact hf.eq_iff
    rw [List.map_cons, List.lookup_cons, List.lookup_cons, hkey, ih]
    cases k == p.1 <;> rfl

theorem toUInt64_injective : Function.Injective UInt16.toUInt64 :=
  fun _ _ h => UInt16.toUInt64_inj.mp h

theorem lookup_toUInt64 (schemas : List (FrameType × List MemField)) (ft : FrameType) :
    (schemas.map fun p => (p.1.toUInt64, p.2.map MemField.field)).lookup ft.toUInt64
      = (schemas.lookup ft).map (List.map MemField.field) :=
  lookup_map_map toUInt64_injective _ schemas ft

theorem lookup_telemetrySchemas (ft : FrameType) :
    telemetrySchemas.lookup ft = (Rust.telemetrySchema ft.toUInt64).map (List.map telField) := by
  have hwide := lookup_map_map toUInt64_injective id telemetrySchemas ft
  rw [map_id_apply] at hwide
  rw [← hwide]
  refine Eq.trans ?_ (lookup_map_map Function.injective_id (List.map telField) _ ft.toUInt64)
  rfl

/-- A body checker of the Go code decides what the rules say, on every map that was decoded. -/
structure BodyChannel.Follows (c : BodyChannel) (r : BodyRules) : Prop where
  schema (ft : FrameType) :
    r.schema ft.toUInt64 = (c.schemas.lookup ft).map (List.map MemField.field)
  correlation {m : List CborEntry} (hm : DecodedEntries m) (ft : FrameType) :
    (c.correlation ft m).isOk = r.correlation ft.toUInt64 (entryItems m)
  nested {m : List CborEntry} (hm : DecodedEntries m) (ft : FrameType) :
    (c.nested ft m).isOk = r.nested ft.toUInt64 (entryItems m)

/-- A checker that follows its rules accepts the payloads whose item is `ok` by them. -/
theorem BodyChannel.Follows.isOk_validate {c : BodyChannel} {r : BodyRules} (h : c.Follows r)
    (ft : FrameType) (payload : Bytes) : (c.validate ft payload).isOk
      = (cborDecodeTop payload).toOption.any fun v => r.ok ft.toUInt64 v.item := by
  have hschema := h.schema ft
  unfold BodyChannel.validate
  cases hlookup : c.schemas.lookup ft with
  | none =>
    rw [hlookup] at hschema
    cases cborDecodeTop payload with
    | error e => rfl
    | ok v => exact (BodyRules.ok_of_none hschema v.item).symm
  | some schema =>
    rw [hlookup] at hschema
    cases hdecode : cborDecodeTop payload with
    | error e => rfl
    | ok v =>
      have hv := decoded_of_cborDecodeTop hdecode
      cases hv with
      | @cborMap m hkeyEnc hkey hval =>
        have hm : DecodedEntries m := .cborMap hkeyEnc hkey hval
        change _ = r.ok ft.toUInt64 (.map (entryItems m))
        rw [BodyRules.ok, hschema, map_some, any_some]
        dsimp only
        rw [isOk_seq, isOk_seq, isOk_seq, isOk_seq, isOk_mapError,
          isOk_checkFrameKind hm, h.correlation hm, isOk_checkFields hm, h.nested hm]
        change (_ && (_ && (_ && (_ && true)))) = _
        rw [Bool.and_true]
        ac_rfl
      | _ => rfl

theorem streamChannel_follows : streamChannel.Follows stream.rules where
  schema := lookup_toUInt64 streamSchemas
  correlation hm _ := isOk_checkSubStreamID hm
  nested _ _ := rfl

theorem capabilityChannel_follows : capabilityChannel.Follows capability.rules where
  schema := lookup_toUInt64 capabilitySchemas
  correlation hm _ := isOk_checkCorr hm _ _
  nested _ _ := rfl

theorem immuneChannel_follows : immuneChannel.Follows immune.rules where
  schema := lookup_toUInt64 immuneSchemas
  correlation hm _ := isOk_checkCorr hm _ _
  nested {m} hm ft := by
    change (validateImmuneNested ft m).isOk
      = if ft.toUInt64 = frameImmuneGossipAdvertise.toUInt64 then _
        else if ft.toUInt64 = frameImmuneGossipPullResult.toUInt64 then _ else true
    simp only [validateImmuneNested, UInt16.toUInt64_inj]
    split
    · exact isOk_validateGossipArray hm gossipDescriptorSchema
    split
    · exact isOk_validateGossipArray hm gossipItemSchema
    · rfl

theorem settlementChannel_follows : settlementChannel.Follows settlement.rules where
  schema := lookup_toUInt64 settlementSchemas
  correlation hm _ := isOk_checkCorr hm _ _
  nested _ _ := rfl

theorem commerceChannel_follows : commerceChannel.Follows commerce.rules where
  schema := lookup_toUInt64 commerceSchemas
  correlation hm _ := isOk_checkCorr hm _ _
  nested {m} hm ft := by
    change (validateCommerceNested ft m).isOk
      = if ft.toUInt64 = frameCommerceMandateCreateReq.toUInt64 then _
        else if ft.toUInt64 = frameCommerceIntentProposeReq.toUInt64 then _ else true
    simp only [validateCommerceNested, UInt16.toUInt64_inj]
    split
    · rcases get_cases hm 4 with ⟨h, hitem⟩ | ⟨v, hv, h, hitem⟩ <;> rw [h, hitem]
      · rfl
      · exact isOk_validateCommerceAmount hv
    split
    · exact isOk_commerceProposal hm
    · rfl

theorem interactionChannel_follows : interactionChannel.Follows interaction.rules where
  schema := lookup_toUInt64 interactionSchemas
  correlation hm _ := isOk_checkCorr hm _ _
  nested _ _ := rfl

theorem workflowFrameHasCorr_eq (ft : FrameType) :
    Rust.workflowHasCorr ft.toUInt64 = workflowFrameHasCorr ft := by
  change decide (ft.toUInt64 ≠ frameWorkflowStepEvent.toUInt64
    ∧ ft.toUInt64 ≠ frameWorkflowComplete.toUInt64) = _
  rw [workflowFrameHasCorr, decide_eq_decide, Ne, Ne, UInt16.toUInt64_inj, UInt16.toUInt64_inj]

theorem workflowChannel_follows : workflowChannel.Follows workflow.rules where
  schema := lookup_toUInt64 workflowSchemas
  correlation {m} hm ft := by
    change (if workflowFrameHasCorr ft then _ else _ : Except GoError Unit).isOk
      = if Rust.workflowHasCorr ft.toUInt64 then _ else _
    rw [workflowFrameHasCorr_eq]
    split
    · exact isOk_checkCorr hm _ _
    · rfl
  nested _ _ := rfl

theorem knowledgeChannel_follows : knowledgeChannel.Follows knowledge.rules where
  schema := lookup_toUInt64 knowledgeSchemas
  correlation hm _ := isOk_checkCorr hm _ _
  nested {m} hm ft := by
    change (checkKnowledgeUpdate ft m).isOk
      = (decide (ft.toUInt64 ≠ frameKnowledgeUpdate.toUInt64)
          || (get (entryItems m) 4).isSome || (get (entryItems m) 5).isSome)
    rw [get_entryItems hm, get_entryItems hm, isSome_map, isSome_map,
      checkKnowledgeUpdate]
    simp only [ne_eq, UInt16.toUInt64_inj]
    by_cases hft : ft = frameKnowledgeUpdate
    · cases h4 : cborMapGet m 4 <;> cases h5 : cborMapGet m 5 <;> simp [hft, Except.isOk, Except.toBool]
    · rw [if_neg fun h => hft h.1, decide_eq_true hft]
      rfl

def memoryChannel : BodyChannel where
  sentinel := .errMemoryMalformed
  frameKindText := "a Memory operation frame type"
  schemas := memorySchemas
  correlation _ := checkCorr .errMemoryMalformed corrText
  nested _ _ := .ok ()

theorem memoryChannel_follows : memoryChannel.Follows memory.rules where
  schema := lookup_toUInt64 memorySchemas
  correlation hm _ := isOk_checkCorr hm _ _
  nested _ _ := rfl

theorem checkEnvelope_eq (ft : FrameType) (m : List CborEntry) : checkEnvelope ft m
      = (checkFrameKind .errMemoryMalformed ft m >>= fun _ => memoryChannel.correlation ft m) := by
  unfold checkEnvelope checkFrameKind
  cases cborMapGet m 0 with
  | none => rfl
  | some v =>
    cases v with
    | uint64 v => dsimp only; split <;> rfl
    | _ => rfl

/-- The Memory checker, which the source writes out, accepts what the common one does. -/
theorem isOk_validateMemoryPayload (ft : FrameType) (payload : Bytes) :
    (validateMemoryPayload ft payload).isOk = (memoryChannel.validate ft payload).isOk := by
  unfold validateMemoryPayload BodyChannel.validate
  dsimp only [memoryChannel]
  cases memorySchemas.lookup ft with
  | none => rfl
  | some schema =>
    cases cborDecodeTop payload with
    | error e => rfl
    | ok v =>
      cases v with
      | cborMap m =>
        dsimp only
        rw [checkEnvelope_eq]
        simp only [isOk_seq, isOk_mapError, Bool.and_assoc]
        rfl
      | _ => rfl

theorem isTelemetryFrame_eq (ft : FrameType) :
    isTelemetryFrame ft = decide (0x0100 ≤ ft.toUInt64 ∧ ft.toUInt64 ≤ 0x0105) := by
  unfold isTelemetryFrame
  rw [decide_eq_decide]
  simp only [UInt64.le_iff_toNat_le, UInt16.le_iff_toNat_le, UInt16.toNat_toUInt64]
  rfl

theorem isOk_validateTelemetryPayload (ft : FrameType) (payload : Bytes) :
    (validateTelemetryPayload ft payload).isOk
      = (cborDecodeTop payload).toOption.any
          fun v => telemetry.rules.ok ft.toUInt64 v.item := by
  unfold validateTelemetryPayload
  rw [isTelemetryFrame_eq]
  rcases telemetry_schema_cases ft.toUInt64 with ⟨hrange, hnone⟩ | hcase
  · rw [decide_eq_false hrange]
    cases cborDecodeTop payload with
    | error e => rfl
    | ok v => exact (BodyRules.ok_of_none hnone v.item).symm
  have hrange : 0x0100 ≤ ft.toUInt64 ∧ ft.toUInt64 ≤ 0x0105 := by
    rcases hcase with hreport | ⟨hrange, -⟩
    · rw [hreport]
      decide
    · exact hrange
  rw [decide_eq_true hrange]
  rw [if_neg (by decide)]
  cases hdecode : cborDecodeTop payload with
  | error e => rfl
  | ok v =>
    have hv := decoded_of_cborDecodeTop hdecode
    cases hv with
    | @cborMap m hkeyEnc hkey hval =>
      have hm : DecodedEntries m := .cborMap hkeyEnc hkey hval
      change _ = telemetry.rules.ok ft.toUInt64 (.map (entryItems m))
      dsimp only
      rw [BodyRules.ok, isOk_seq, isOk_checkFrameKind hm]
      rcases hcase with hreport | ⟨-, hne, schema, hschema⟩
      · obtain rfl : ft = frameTelemetryReport := UInt16.toUInt64_inj.mp hreport
        rw [if_pos rfl, isOk_validateTelemetryReport hm]
        change _ = (_ && reportCorrOk _ && _ && reportOk _)
        ac_rfl
      · have hft : ft ≠ frameTelemetryReport := fun h => hne (by rw [h]; rfl)
        rw [if_neg hft, isOk_seq, isOk_seq, checkTelemetryCorr, isOk_checkCorr hm,
          lookup_telemetrySchemas, hschema, map_some, getD_some,
          isOk_checkTelemetryFields hm]
        simp only [rules, if_neg hne, hschema, any_some]
        change (_ && (_ && (_ && true))) = (_ && _ && _ && true)
        rw [Bool.and_true, Bool.and_true, Bool.and_assoc]
    | _ => rfl

end Npamp
