import Npamp.Rust.Cbor
import Npamp.Proof.CborDialect

/-!
# Deterministic CBOR in Rust, and against Go

What `decode_top` accepts re-encodes to the octets it was read from, as long as the lossy conversion
of text changes none.
-/

namespace Npamp.Rust

open Cbor List

theorem decodeTop_eq (b : Bytes) : decodeTop b = dialect.decodeTop cborMaxNestingDepth b := by
  unfold decodeTop Dialect.decodeTop
  rw [show decode b 1 = dialect.decode cborMaxNestingDepth b from rfl]
  cases dialect.decode cborMaxNestingDepth b <;> rfl

def visits (b : Bytes) : List Visit := dialect.visits cborMaxNestingDepth b

theorem Str.ext {s t : Str} (h : s.octets = t.octets) : s = t := by
  cases s
  cases t
  cases h
  rfl

theorem Str.fromUtf8Lossy_of_valid {b : Bytes} (h : Utf8.valid false b = true) :
    (Str.fromUtf8Lossy b).octets = b :=
  Utf8.lossy_of_valid h

theorem Str.fromUtf8Lossy_octets (s : Str) : Str.fromUtf8Lossy s.octets = s :=
  Str.ext (Str.fromUtf8Lossy_of_valid s.utf8)

theorem encodeItems_eq_flatMap (items : List CborValue) :
    encodeItems items = items.flatMap encode := by
  induction items with
  | nil => rfl
  | cons item rest ih => rw [encodeItems, ih, flatMap_cons]

theorem encodeEntries_eq_flatMap (entries : List CborEntry) :
    encodeEntries entries = entries.flatMap fun e => encode e.key ++ encode e.val := by
  induction entries with
  | nil => rfl
  | cons e rest ih =>
    obtain ⟨key, val⟩ := e
    rw [encodeEntries, ih, flatMap_cons]
    rfl

theorem dialect_encoder : dialect.Encoder encode fun b => Utf8.valid false b = true where
  uint _ := rfl
  nint {arg v} h := by
    dsimp only [dialect] at h
    split at h
    · cases h
    · cases h
      rw [encode, neg_one_sub_neg_one_sub, UInt64.toUInt64_toInt64]
      rfl
  bytes _ := rfl
  text {b v} hb h := by
    cases h
    rw [encode, Str.fromUtf8Lossy_of_valid hb]
    rfl
  array items := by
    change encodeHead 4 _ ++ encodeItems items = _
    rw [encodeItems_eq_flatMap]
    rfl
  map {entries} h := by
    change encodeHead 5 _ ++ encodeEntries _ = _
    rw [encodeEntries_eq_flatMap, length_map, flatMap_map]
    refine congrArg _ (flatMap_congr fun e he => ?_)
    rw [← h e he]
    rfl
  bool b := by cases b <;> rfl
  null := rfl

/-- What was decoded encodes to the octets it came from, if every text was UTF-8. -/
theorem encode_of_decodeTop {b : Bytes} {v : CborValue}
    (htexts : ∀ x ∈ visits b, x.utf8 false = true) (h : decodeTop b = .ok v) : encode v = b := by
  rw [decodeTop_eq] at h
  exact Dialect.encode_of_decodeTop dialect_encoder (fun payload hmem => htexts _ hmem) h

mutual

def CborValue.depth : CborValue → Nat
  | .array items => 1 + itemsDepth items
  | .map entries => 1 + entriesDepth entries
  | _ => 1

def itemsDepth : List CborValue → Nat
  | [] => 0
  | item :: rest => max item.depth (itemsDepth rest)

def entriesDepth : List CborEntry → Nat
  | [] => 0
  | .mk key val :: rest => max (max key.depth val.depth) (entriesDepth rest)

end

/-- A value built from integers, strings, booleans, null, arrays, and maps that `map_from_u64_keys`
made of pairwise distinct keys. A `Vec` holds fewer than `2 ^ 63` elements. -/
inductive Built : CborValue → Prop
  | uint (v : UInt64) : Built (.uint v)
  | nint {v : Int64} (h : v < 0) : Built (.nint v)
  | bytes {b : Bytes} (hlength : b.length < 2 ^ 63) : Built (.bytes b)
  | text {s : Str} (hlength : s.octets.length < 2 ^ 63) : Built (.text s)
  | array {items : List CborValue} (hlength : items.length < 2 ^ 63)
      (h : ∀ v ∈ items, Built v) : Built (.array items)
  | map {entries : List (UInt64 × CborValue)} (hlength : entries.length < 2 ^ 63)
      (hkeys : (entries.map Prod.fst).Nodup) (h : ∀ e ∈ entries, Built e.2) :
      Built (mapFromU64Keys entries)
  | bool (b : Bool) : Built (.bool b)
  | null : Built .null

theorem CborValue.one_le_depth (v : CborValue) : 1 ≤ v.depth := by
  cases v <;> simp [CborValue.depth]

theorem depth_le_itemsDepth {item : CborValue} {items : List CborValue} (h : item ∈ items) :
    item.depth ≤ itemsDepth items :=
  le_of_max_cons (fun _ _ => rfl) h

theorem depth_le_entriesDepth {e : CborEntry} {entries : List CborEntry} (h : e ∈ entries) :
    e.val.depth ≤ entriesDepth entries :=
  le_of_max_le_right <|
    le_of_max_cons (f := fun e => max e.key.depth e.val.depth) (fun e _ => by cases e; rfl) h

def sortedEntries (entries : List (UInt64 × CborValue)) : List (UInt64 × CborValue) :=
  entries.insertionSort (KeyLE Prod.fst)

theorem mapFromU64Keys_eq (entries : List (UInt64 × CborValue)) :
    mapFromU64Keys entries = .map ((sortedEntries entries).map fun e => .mk (.uint e.1) e.2) := by
  unfold mapFromU64Keys sortedEntries
  rw [map_insertionSort (KeyLE Prod.fst) CborEntry.LE]
  exact fun _ _ _ _ => Iff.rfl

theorem less_of_lt {left right : UInt64} (h : left < right) :
    dialect.less (head 0 left) (head 0 right) = true := by
  change lengthFirstLess _ _ = true
  rw [lengthFirstLess_eq_lexLess (by decide) (isScalar_head left)
    (isScalar_head right), lexLess_head (by decide)]
  exact decide_eq_true h

/-- **`decode` reads every built value back.** -/
theorem decodes_built (levels : Nat) : ∀ v : CborValue, Built v → v.depth ≤ levels →
      Decodes (dialect.decode levels) (encode v) v := by
  induction levels with
  | zero =>
    intro v _ hdepth
    exact absurd (v.one_le_depth.trans hdepth) (by decide)
  | succ levels ih =>
    intro v hbuilt hdepth
    cases hbuilt with
    | uint v => exact dialect.decodes_uint levels v
    | @nint t ht =>
      have hnint : dialect.nint (-1 - t).toUInt64 = .ok (.nint t) := by
        dsimp only [dialect]
        rw [if_neg (Nat.not_lt.mpr (toNat_neg_one_sub_le ht)), Int64.toInt64_toUInt64,
          neg_one_sub_neg_one_sub]
      rw [encode]
      exact dialect.decodes_nint levels hnint
    | bytes hlength => exact dialect.decodes_bytes levels (hlength.trans (by norm_num))
    | @text s hlength =>
      refine dialect.decodes_text levels (hlength.trans (by norm_num)) ?_
      rw [show dialect.text s.octets = .ok (.text (Str.fromUtf8Lossy s.octets)) from rfl,
        s.fromUtf8Lossy_octets]
    | @array items hlength h =>
      rw [CborValue.depth] at hdepth
      have hitems : ∀ v ∈ items, Decodes (dialect.decode levels) (encode v) v := by
        intro v hv
        have := depth_le_itemsDepth hv
        exact ih v (h v hv) (by omega)
      have harray := dialect.decodes_array (hlength.trans (by norm_num)) hitems
      rw [map_id'' fun _ => rfl] at harray
      rw [encode, encodeItems_eq_flatMap]
      exact harray
    | @map entries hlength hkeys h =>
      rw [mapFromU64Keys_eq] at hdepth ⊢
      rw [CborValue.depth] at hdepth
      have hbelow : ∀ e ∈ sortedEntries entries, e.2.depth ≤ levels := by
        intro e he
        have := depth_le_entriesDepth (mem_map_of_mem (f := fun e => .mk (.uint e.1) e.2) he)
        change e.2.depth ≤ _ at this
        omega
      have hvals : ∀ e ∈ sortedEntries entries,
          Decodes (dialect.decode levels) (encode e.2) e.2 := by
        intro e he
        exact ih e.2 (h e ((mem_insertionSort _).mp he)) (hbelow e he)
      have hkeyItems : ∀ e ∈ sortedEntries entries,
          Decodes (dialect.decode levels) (head 0 e.1) (.uint e.1) := by
        intro e he
        -- a key lies as deep as its value, so there is a level left for it
        obtain ⟨below, rfl⟩ := Nat.exists_eq_add_of_le' (e.2.one_le_depth.trans (hbelow e he))
        exact dialect.decodes_uint below e.1
      have hsorted := (pairwise_insertionSort_keyLE Prod.fst hkeys).imp
        fun hlt => less_of_lt hlt
      have hcount : (sortedEntries entries).length < 2 ^ 64 := by
        rw [sortedEntries, length_insertionSort]
        exact hlength.trans (by norm_num)
      have hmap := dialect.decodes_map hcount hkeyItems hvals hsorted.isChain
      rw [encode, encodeEntries_eq_flatMap, length_map, flatMap_map]
      have hvalue : dialect.map ((sortedEntries entries).map fun e =>
          ⟨head 0 e.1, .uint e.1, e.2⟩)
            = .map ((sortedEntries entries).map fun e => .mk (.uint e.1) e.2) :=
        congrArg CborValue.map (map_map ..)
      rw [← hvalue]
      exact hmap
    | bool b =>
      have hbool := dialect.decodes_bool levels b
      cases b <;> exact hbool
    | null => exact dialect.decodes_null levels

theorem decodeTop_encode {v : CborValue} (hbuilt : Built v)
    (hdepth : v.depth ≤ cborMaxNestingDepth) : decodeTop (encode v) = .ok v := by
  rw [decodeTop_eq]
  exact dialect.decodeTop_of_decodes (decodes_built cborMaxNestingDepth v hbuilt hdepth)

/-- **Rust's deterministic CBOR round-trips.** Accepted octets whose text is UTF-8 are the encoding
of the value they decode to, and every built value within the nesting bound is read back. -/
theorem rust_cbor_round_trip :
    (∀ b v, (∀ x ∈ visits b, x.utf8 false = true) → decodeTop b = .ok v → encode v = b)
      ∧ ∀ v, Built v → v.depth ≤ cborMaxNestingDepth → decodeTop (encode v) = .ok v :=
  ⟨fun _ _ htexts h => encode_of_decodeTop htexts h,
    fun _ hbuilt hdepth => decodeTop_encode hbuilt hdepth⟩

theorem rust_cbor_round_trip_unsorted :
    encode (.array [.nint (-1), .bool true]) = [0x82, 0x20, 0xf5]
      ∧ decodeTop (encode (mapFromU64Keys [(300, .nint (-5)), (24, .bytes [7]), (1, .null)]))
        = .ok (mapFromU64Keys [(300, .nint (-5)), (24, .bytes [7]), (1, .null)]) := by
  refine ⟨rust_cbor_round_trip.1 _ _ (by decide) rfl, rust_cbor_round_trip.2 _ ?_ (by decide)⟩
  refine .map (by decide) (by decide) ?_
  intro e he
  simp only [List.mem_cons, List.not_mem_nil, or_false] at he
  rcases he with rfl | rfl | rfl
  · exact .nint (by decide)
  · exact .bytes (by decide)
  · exact .null

mutual

def CborValue.item : CborValue → Item
  | .uint v => .int v.toNat
  | .nint v => .int v.toInt
  | .bytes b => .bytes b
  | .text s => .text s.octets
  | .array items => .array (itemsOf items)
  | .map entries => .map (entryItems entries)
  | .bool b => .bool b
  | .null => .null

def itemsOf : List CborValue → List Item
  | [] => []
  | v :: rest => v.item :: itemsOf rest

def entryItems : List CborEntry → List (Item × Item)
  | [] => []
  | .mk key val :: rest => (key.item, val.item) :: entryItems rest

end

theorem itemsOf_eq_map : ∀ items, itemsOf items = items.map CborValue.item :=
  eq_map_of_cons rfl fun _ _ => rfl

theorem entryItems_eq : ∀ m, entryItems m = m.map fun e => (e.key.item, e.val.item) :=
  eq_map_of_cons rfl fun e _ => by cases e; rfl

theorem dialect_meaning : dialect.Meaning CborValue.item where
  uint _ := rfl
  bytes _ := rfl
  array items := congrArg Item.array (itemsOf_eq_map items)
  map entries := congrArg Item.map
    (eq_map_of_cons (g := fun es => entryItems (es.map _)) rfl (fun _ _ => rfl) entries)
  bool _ := rfl
  null := rfl

/-- The points a decoder comes to that takes integers, texts and keys as they are. -/
def wireVisits (b : Bytes) : List Visit := wire.visits cborMaxNestingDepth b

theorem alike_of_oneKind {x : Visit} (hitem : Npamp.cborDialect.KeyIsItem x)
    (hkeys : x.oneKind = true) (htexts : x.utf8 false = true) :
    Dialect.Alike Npamp.cborDialect dialect (fun v w => v.item = w.item) (fun _ => True) x := by
  cases x with
  | nint arg =>
    change Same _ _ (if _ then _ else _) (if _ then _ else _)
    split
    · exact .error _ trivial
    · exact .ok rfl
  | text payload => exact .ok (congrArg Item.text (Utf8.lossy_of_valid htexts).symm)
  | key prev octets =>
    exact Dialect.follows_eq_of_oneKind Npamp.byteLess_eq rfl hitem hkeys

theorem same_decodeTop {b : Bytes} (hkeys : ∀ x ∈ Npamp.cborVisits b, x.oneKind = true)
    (htexts : ∀ x ∈ Npamp.cborVisits b, x.utf8 false = true) :
    Same (fun v w => v.item = w.item) (fun _ => True) (Npamp.cborDecodeTop b)
      (decodeTop b) := by
  rw [Npamp.cborDecodeTop_eq, decodeTop_eq]
  refine Dialect.same_decodeTop
    (Npamp.cborDialect_meaning.related dialect_meaning fun _ => trivial) fun x hx => ?_
  exact alike_of_oneKind (Dialect.keyIsItem_visits _ _ x hx) (hkeys x hx) (htexts x hx)

/-- The Go decoder, by what the wire alone says: every integer fits and the keys ascend octet by
octet. -/
theorem toOption_cborDecodeTop (b : Bytes) :
    (Npamp.cborDecodeTop b).toOption.map Npamp.CborValue.item
      = if ∀ x ∈ wireVisits b, x.int64 = true ∧ x.inOrder lexLess = true then
          (wire.decodeTop cborMaxNestingDepth b).toOption
        else none := by
  rw [Npamp.cborDecodeTop_eq]
  refine (Dialect.toOption_decodeTop wire_meaning Npamp.cborDialect_meaning (fun arg harg => ?_)
    (fun arg harg => ⟨_, if_pos (Nat.lt_of_not_le harg)⟩) (fun b => ⟨_, rfl, rfl⟩) _ b).trans ?_
  · exact ⟨_, if_neg (Nat.not_lt.mpr harg),
      (congrArg Item.int (toInt_neg_one_sub_toInt64 harg)).symm⟩
  · rw [Option.map_id, show Npamp.cborDialect.less = lexLess from Npamp.byteLess_eq]
    rfl

/-- The Rust decoder: the keys ascend shorter first, and texts lose what is not UTF-8. -/
theorem toOption_decodeTop (b : Bytes) :
    (decodeTop b).toOption.map CborValue.item
      = if ∀ x ∈ wireVisits b, x.int64 = true ∧ x.inOrder lengthFirstLess = true then
          (wire.decodeTop cborMaxNestingDepth b).toOption.map Item.lossy
        else none := by
  rw [decodeTop_eq]
  refine Dialect.toOption_decodeTop wire_meaning.lossy dialect_meaning (fun arg harg => ?_)
    (fun arg harg => ⟨_, if_pos (Nat.lt_of_not_le harg)⟩) (fun b => ⟨_, rfl, rfl⟩) _ b
  exact ⟨_, if_neg (Nat.not_lt.mpr harg),
    (congrArg Item.int (toInt_neg_one_sub_toInt64 harg)).symm⟩

theorem accepted_eq_iff {p q r : Prop} [Decidable (p ∧ q)] [Decidable (p ∧ r)] {x y : Item} :
    (if p ∧ q then some x else none) = (if p ∧ r then some y else none)
      ↔ (p → (q ↔ r) ∧ (q → y = x)) := by
  by_cases hp : p <;> by_cases hq : q <;> by_cases hr : r <;> simp [hp, hq, hr, eq_comm (a := x)]

/-- **Go and Rust accept the same octets, as the same item**, unless these are one item with its
integers in range and the keys of its maps are in order for one of them only, or in order and some
text is not UTF-8. -/
theorem go_rust_decodeTop_agree (b : Bytes) :
    (Npamp.cborDecodeTop b).toOption.map Npamp.CborValue.item
        = (decodeTop b).toOption.map CborValue.item
      ↔ ∀ item, wire.decodeTop cborMaxNestingDepth b = .ok item →
          (∀ x ∈ wireVisits b, x.int64 = true) →
            ((∀ x ∈ wireVisits b, x.inOrder lexLess = true)
              ↔ ∀ x ∈ wireVisits b, x.inOrder lengthFirstLess = true)
            ∧ ((∀ x ∈ wireVisits b, x.inOrder lexLess = true) → item.lossy = item) := by
  rw [toOption_cborDecodeTop, toOption_decodeTop]
  cases wire.decodeTop cborMaxNestingDepth b with
  | error f => simp [Except.toOption]
  | ok item =>
    have hboth (less : Bytes → Bytes → Bool) :
        (∀ x ∈ wireVisits b, x.int64 = true ∧ x.inOrder less = true)
          ↔ (∀ x ∈ wireVisits b, x.int64 = true) ∧ ∀ x ∈ wireVisits b, x.inOrder less = true :=
      forall₂_and
    simp only [hboth]
    refine Iff.trans accepted_eq_iff ⟨?_, fun h => h item rfl⟩
    rintro h _ ⟨⟩
    exact h

/-- The key 24 and then the key -1: bytewise in order, shorter first not. -/
theorem go_rust_decodeTop_disagree :
    (Npamp.cborDecodeTop [0xa2, 0x18, 0x18, 0x00, 0x20, 0x00]).isOk = true
      ∧ (decodeTop [0xa2, 0x18, 0x18, 0x00, 0x20, 0x00]).isOk = false
      ∧ (Npamp.cborDecodeTop [0xa2, 0x20, 0x00, 0x18, 0x18, 0x00]).isOk = false
      ∧ (decodeTop [0xa2, 0x20, 0x00, 0x18, 0x18, 0x00]).isOk = true := by
  decide

end Npamp.Rust
