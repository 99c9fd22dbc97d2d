import Npamp.Proof.Cbor

/-!
# Encoding, then decoding

The values a caller may encode, their nesting depth, and the value the decoder returns for each.
-/

namespace Npamp

open CborValue List

mutual

def CborValue.depth : CborValue → Nat
  | .array items => 1 + itemsDepth items
  | .cborMap entries => 1 + entriesDepth entries
  | .mapU m => 1 + pairsDepth m
  | _ => 1

def itemsDepth : List CborValue → Nat
  | [] => 0
  | item :: rest => max item.depth (itemsDepth rest)

def entriesDepth : List CborEntry → Nat
  | [] => 0
  | .mk _ key val :: rest => max (max key.depth val.depth) (entriesDepth rest)

def pairsDepth : List CborPair → Nat
  | [] => 0
  | .mk _ val :: rest => max val.depth (pairsDepth rest)

end

mutual

/-- A value built from `uint64`, `int64`, `[]byte`, `string`, `bool`, `nil`, `[]any` and
`map[uint64]any` alone. Lengths fit Go's `int`, and a map binds each key once. -/
def CborValue.Plain : CborValue → Prop
  | .int _ => False
  | .cborMap _ => False
  | .bytes b => b.length < 2 ^ 63
  | .string s => s.length < 2 ^ 63
  | .array items => items.length < 2 ^ 63 ∧ PlainItems items
  | .mapU m => m.length < 2 ^ 63 ∧ (m.map CborPair.key).Nodup ∧ PlainPairs m
  | _ => True

def PlainItems : List CborValue → Prop
  | [] => True
  | item :: rest => item.Plain ∧ PlainItems rest

def PlainPairs : List CborPair → Prop
  | [] => True
  | .mk _ val :: rest => val.Plain ∧ PlainPairs rest

end

mutual

/-- What decoding returns for an encoded value: a non-negative `int64` as `uint64`, a Go map as its
canonically ordered `cborMap`, everything else unchanged. -/
def CborValue.canonical : CborValue → CborValue
  | .int64 t => if t < 0 then .int64 t else .uint64 t.toUInt64
  | .array items => .array (canonicalItems items)
  | .mapU m => .cborMap (newCBORMapU (canonicalPairs m))
  | v => v

def canonicalItems : List CborValue → List CborValue
  | [] => []
  | item :: rest => item.canonical :: canonicalItems rest

def canonicalPairs : List CborPair → List CborPair
  | [] => []
  | .mk key val :: rest => .mk key val.canonical :: canonicalPairs rest

end

theorem CborValue.one_le_depth (v : CborValue) : 1 ≤ v.depth := by
  cases v <;> simp [depth]

theorem depth_le_itemsDepth {item : CborValue} {items : List CborValue} (h : item ∈ items) :
    item.depth ≤ itemsDepth items :=
  Cbor.le_of_max_cons (fun _ _ => rfl) h

variable {p : CborPair} {m : List CborPair}

theorem depth_le_pairsDepth (h : p ∈ m) : p.val.depth ≤ pairsDepth m :=
  Cbor.le_of_max_cons (f := fun p => p.val.depth) (fun p _ => by cases p; rfl) h

theorem plain_of_mem_items {item : CborValue} {items : List CborValue} (hplain : PlainItems items)
    (h : item ∈ items) : item.Plain := by
  induction items with
  | nil => cases h
  | cons head rest ih =>
    rcases mem_cons.mp h with rfl | hrest
    · exact hplain.1
    · exact ih hplain.2 hrest

theorem plain_of_mem_pairs (hplain : PlainPairs m) (h : p ∈ m) : p.val.Plain := by
  induction m with
  | nil => cases h
  | cons head rest ih =>
    obtain ⟨key, val⟩ := head
    rcases mem_cons.mp h with rfl | hrest
    · exact hplain.1
    · exact ih hplain.2 hrest

theorem byteLess_eq_true {a b : Bytes} : byteLess a b = true ↔ a < b := by
  induction a generalizing b with
  | nil => cases b <;> simp [byteLess]
  | cons x xs ih =>
    cases b with
    | nil => simp [byteLess]
    | cons y ys =>
      rw [cons_lt_cons_iff]
      by_cases hxy : x = y
      · subst hxy
        simp [byteLess, ih]
      · simp [byteLess, hxy]

theorem byteLess_eq_false {a b : Bytes} : byteLess a b = false ↔ b ≤ a := by
  rw [← Bool.not_eq_true, byteLess_eq_true]
  exact List.not_lt

abbrev CborPair.LE (p q : CborPair) : Prop :=
  byteLess (cborEncode (.uint64 q.key)) (cborEncode (.uint64 p.key)) = false

def sortedPairs (m : List CborPair) : List CborPair := m.insertionSort CborPair.LE

theorem mem_sortedPairs : p ∈ sortedPairs m ↔ p ∈ m :=
  mem_insertionSort _

theorem length_sortedPairs (m : List CborPair) : (sortedPairs m).length = m.length :=
  length_insertionSort _ _

theorem sortedPairs_pairwise (hkeys : (m.map CborPair.key).Nodup) :
    (sortedPairs m).Pairwise fun p q =>
      byteLess (cborEncode (.uint64 p.key)) (cborEncode (.uint64 q.key)) = true := by
  have hle : CborPair.LE = Cbor.KeyLE CborPair.key := by
    unfold CborPair.LE Cbor.KeyLE
    rw [byteLess_eq]
    rfl
  have hsorted := Cbor.pairwise_insertionSort_keyLE CborPair.key hkeys
  unfold sortedPairs
  simp only [hle]
  refine hsorted.imp fun hlt => ?_
  rw [byteLess_eq]
  exact (Cbor.lexLess_head (by decide) _ _).trans (decide_eq_true hlt)

theorem newCBORMapU_eq (m : List CborPair) :
    newCBORMapU m = (sortedPairs m).map CborPair.entry := by
  unfold newCBORMapU sortedPairs
  rw [map_insertionSort CborPair.LE (fun a b => byteLess b.keyEnc a.keyEnc = false)]
  exact fun _ _ _ _ => Iff.rfl

theorem canonicalPairs_eq :
    ∀ m, canonicalPairs m = m.map fun p => .mk p.key p.val.canonical :=
  Cbor.eq_map_of_cons rfl fun p _ => by cases p; rfl

theorem sortedPairs_canonicalPairs (m : List CborPair) : sortedPairs (canonicalPairs m)
      = (sortedPairs m).map fun p => .mk p.key p.val.canonical := by
  unfold sortedPairs
  rw [canonicalPairs_eq, map_insertionSort CborPair.LE CborPair.LE]
  exact fun _ _ _ _ => Iff.rfl

/-- A map under construction is encoded as its sorted entries. -/
theorem cborEncode_mapU (m : List CborPair) :
    cborEncode (.mapU m) = cborEncode (.cborMap (newCBORMapU m)) := by
  have hpairs : cborEncodePairs m
      = m.map fun p => (cborEncode (.uint64 p.key), cborEncode p.val) := by
    induction m with
    | nil => rfl
    | cons p rest ih =>
      obtain ⟨key, val⟩ := p
      rw [cborEncodePairs, ih]
      rfl
  have hsorted : (cborEncodePairs m).insertionSort keyEncLE
      = (sortedPairs m).map fun p => (cborEncode (.uint64 p.key), cborEncode p.val) := by
    unfold sortedPairs
    rw [hpairs, map_insertionSort CborPair.LE keyEncLE]
    exact fun _ _ _ _ => Iff.rfl
  have hentries : ∀ l : List CborPair, cborEncodeEntries (l.map CborPair.entry)
      = (l.map fun p => (cborEncode (.uint64 p.key), cborEncode p.val)).flatMap
          fun p => p.1 ++ p.2 := by
    intro l
    induction l with
    | nil => rfl
    | cons p rest ih =>
      rw [map_cons, CborPair.entry, cborEncodeEntries, ih]
      rfl
  rw [cborEncode, cborEncode, hsorted, newCBORMapU_eq, hentries, length_map,
    length_sortedPairs]

open Cbor (Decodes)

theorem one_le_length_cborEncode (v : CborValue) : 1 ≤ (cborEncode v).length := by
  have hhead : ∀ (major : UInt8) (arg : UInt64) (rest : Bytes),
      1 ≤ (encodeHead major arg ++ rest).length := by
    intro major arg rest
    rw [length_append]
    exact (Cbor.length_head_pos major arg).trans (Nat.le_add_right _ _)
  cases v with
  | uint64 v => exact Cbor.length_head_pos 0 v
  | int v => unfold cborEncode encodeSigned; split <;> exact Cbor.length_head_pos _ _
  | int64 v => unfold cborEncode encodeSigned; split <;> exact Cbor.length_head_pos _ _
  | bool b => cases b <;> simp [cborEncode]
  | null => simp [cborEncode]
  | _ => rw [cborEncode]; exact hhead _ _ _

theorem canonicalItems_eq_map : ∀ items, canonicalItems items = items.map canonical :=
  Cbor.eq_map_of_cons rfl fun _ _ => rfl

theorem decodes_int64 (levels : Nat) (t : Int64) :
    Decodes (cborDialect.decode (levels + 1)) (cborEncode (.int64 t))
      (int64 t).canonical := by
  by_cases ht : t < 0
  · have hnint : cborDialect.nint (-1 - t).toUInt64 = .ok (.int64 t) := by
      dsimp only [cborDialect]
      rw [if_neg (Nat.not_lt.mpr (Cbor.toNat_neg_one_sub_le ht)), Int64.toInt64_toUInt64,
        Cbor.neg_one_sub_neg_one_sub]
    rw [cborEncode, encodeSigned, if_pos ht, canonical, if_pos ht]
    exact cborDialect.decodes_nint levels hnint
  · rw [cborEncode, encodeSigned, if_neg ht, canonical, if_neg ht]
    exact cborDialect.decodes_uint levels t.toUInt64

theorem decodes_array {levels : Nat} {items : List CborValue} (hlength : items.length < 2 ^ 63)
    (h : ∀ item ∈ items, Decodes (cborDialect.decode levels) (cborEncode item) item.canonical) :
    Decodes (cborDialect.decode (levels + 1)) (cborEncode (.array items))
      (array items).canonical := by
  rw [cborEncode, cborEncodeItems_eq_flatMap, canonical, canonicalItems_eq_map]
  exact cborDialect.decodes_array (hlength.trans (by norm_num)) h

theorem decodes_cborMap {levels : Nat} {l : List CborPair} (hlength : l.length < 2 ^ 63)
    (hkeys : ∀ p ∈ l, Decodes (cborDialect.decode levels) (cborEncode (.uint64 p.key))
      (.uint64 p.key))
    (hvals : ∀ p ∈ l, Decodes (cborDialect.decode levels) (cborEncode p.val) p.val.canonical)
    (hsorted : l.Pairwise fun p q =>
      byteLess (cborEncode (.uint64 p.key)) (cborEncode (.uint64 q.key)) = true) :
    Decodes (cborDialect.decode (levels + 1)) (cborEncode (.cborMap (l.map CborPair.entry)))
      (.cborMap (l.map fun p => CborPair.entry (.mk p.key p.val.canonical))) := by
  have hmap := cborDialect.decodes_map (hlength.trans (by norm_num)) hkeys hvals hsorted.isChain
  have hentries : cborEncodeEntries (l.map CborPair.entry)
      = l.flatMap fun p => cborEncode (.uint64 p.key) ++ cborEncode p.val :=
    cborEncodeEntries_eq_flatMap _ _ _ l
  have hvalue : cborDialect.map (l.map fun p =>
      ⟨cborEncode (.uint64 p.key), .uint64 p.key, p.val.canonical⟩)
        = .cborMap (l.map fun p => CborPair.entry (.mk p.key p.val.canonical)) :=
    congrArg cborMap (map_map ..)
  rw [cborEncode, length_map, hentries, ← hvalue]
  exact hmap

/-- **The decoder reads every encoded value back.** -/
theorem decodes_canonical (levels : Nat) : ∀ v : CborValue, v.Plain → v.depth ≤ levels →
      Decodes (cborDialect.decode levels) (cborEncode v) v.canonical := by
  induction levels with
  | zero =>
    intro v _ hdepth
    exact absurd (v.one_le_depth.trans hdepth) (by decide)
  | succ levels ih =>
    intro v hplain hdepth
    cases v with
    | uint64 v => exact cborDialect.decodes_uint levels v
    | int v => exact hplain.elim
    | int64 t => exact decodes_int64 levels t
    | bytes b => exact cborDialect.decodes_bytes levels (hplain.trans (by norm_num))
    | string s => exact cborDialect.decodes_text levels (hplain.trans (by norm_num)) rfl
    | array items =>
      rw [depth] at hdepth
      refine decodes_array hplain.1 fun item hitem => ?_
      exact ih item (plain_of_mem_items hplain.2 hitem)
        (by have := depth_le_itemsDepth hitem; omega)
    | cborMap entries => exact hplain.elim
    | mapU m =>
      obtain ⟨hlength, hkeys, hpairs⟩ := hplain
      rw [depth] at hdepth
      have hbelow : ∀ p ∈ sortedPairs m, p.val.depth ≤ levels := by
        intro p hp
        have := depth_le_pairsDepth (mem_sortedPairs.mp hp)
        omega
      rw [cborEncode_mapU, newCBORMapU_eq, canonical, newCBORMapU_eq,
        sortedPairs_canonicalPairs, map_map]
      refine decodes_cborMap (by rwa [length_sortedPairs]) ?_ ?_ (sortedPairs_pairwise hkeys)
      · intro p hp
        -- a key lies as deep as its value, so there is a level left for it
        obtain ⟨below, rfl⟩ := Nat.exists_eq_add_of_le' (p.val.one_le_depth.trans (hbelow p hp))
        exact cborDialect.decodes_uint below p.key
      · intro p hp
        exact ih p.val (plain_of_mem_pairs hpairs (mem_sortedPairs.mp hp)) (hbelow p hp)
    | bool b =>
      have hbool := cborDialect.decodes_bool levels b
      cases b <;> exact hbool
    | null => exact cborDialect.decodes_null levels

/-- What the encoder wrote of a plain value decodes to its canonical form. -/
theorem cborDecodeTop_cborEncode {v : CborValue} (hplain : v.Plain)
    (hdepth : v.depth ≤ cborMaxNestingDepth) : cborDecodeTop (cborEncode v) = .ok v.canonical := by
  rw [cborDecodeTop_eq]
  exact cborDialect.decodeTop_of_decodes (decodes_canonical cborMaxNestingDepth v hplain hdepth)

/-- **Deterministic CBOR is a bijection on its image.** Accepted octets are the encoding of the
value they decode to, and every value within the nesting bound is read back in canonical form. -/
theorem cbor_bijective_on_image : (∀ b v, cborDecodeTop b = .ok v → cborEncode v = b)
      ∧ (∀ b b' v, cborDecodeTop b = .ok v → cborDecodeTop b' = .ok v → b = b')
      ∧ ∀ v : CborValue, v.Plain → v.depth ≤ cborMaxNestingDepth →
          cborDecodeTop (cborEncode v) = .ok v.canonical := by
  refine ⟨fun b v h => cborEncode_of_cborDecodeTop h, ?_,
    fun v hplain hdepth => cborDecodeTop_cborEncode hplain hdepth⟩
  intro b b' v hb hb'
  calc b = cborEncode v := (cborEncode_of_cborDecodeTop hb).symm
    _ = b' := cborEncode_of_cborDecodeTop hb'

theorem cbor_bijective_on_image_nested :
    cborEncode (.cborMap [.mk [0x01] (.uint64 1) (.int64 (-1))]) = [0xa1, 0x01, 0x20]
      ∧ cborDecodeTop (cborEncode
          (.mapU [.mk 24 (.array [.int64 5, .int64 (-5)]), .mk 1 (.bytes [7, 8])]))
        = .ok (CborValue.mapU
            [.mk 24 (.array [.int64 5, .int64 (-5)]), .mk 1 (.bytes [7, 8])]).canonical :=
  ⟨cbor_bijective_on_image.1 _ _ rfl,
    cbor_bijective_on_image.2.2 _
      (by simp [CborValue.Plain, PlainPairs, PlainItems, CborPair.key]) (by decide)⟩

end Npamp
