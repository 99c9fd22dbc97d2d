import Npamp.Memory
import Npamp.Proof.CborRoundTrip
import Npamp.Proof.Frame

/-!
# What the exported decoders keep

A decoded value either has all its maps keyed by unsigned integers, and re-encodes to the octets it
came from, or `cborToGo` has dropped an entry.
-/

namespace Npamp

open List

mutual

/-- Every map inside has unsigned integers for keys. -/
def CborValue.UintKeyed : CborValue → Prop
  | .array items => UintKeyedItems items
  | .cborMap entries => UintKeyedEntries entries
  | _ => True

def UintKeyedItems : List CborValue → Prop
  | [] => True
  | item :: rest => item.UintKeyed ∧ UintKeyedItems rest

def UintKeyedEntries : List CborEntry → Prop
  | [] => True
  | .mk _ (.uint64 _) val :: rest => val.UintKeyed ∧ UintKeyedEntries rest
  | .mk _ _ _ :: _ => False

end

def UintKeyed (b : Bytes) : Prop := ∀ v, cborDecodeTop b = .ok v → v.UintKeyed

mutual

/-- The maps the decoder builds: each key with its own encoding, in strict order. -/
def CborValue.Ordered : CborValue → Prop
  | .array items => OrderedItems items
  | .cborMap entries =>
    entries.length < 2 ^ 64
      ∧ entries.Pairwise (fun e e' => byteLess e.keyEnc e'.keyEnc = true)
      ∧ OrderedEntries entries
  | .mapU _ => False
  | _ => True

def OrderedItems : List CborValue → Prop
  | [] => True
  | item :: rest => item.Ordered ∧ OrderedItems rest

def OrderedEntries : List CborEntry → Prop
  | [] => True
  | .mk keyEnc key val :: rest => keyEnc = cborEncode key ∧ val.Ordered ∧ OrderedEntries rest

end

theorem orderedItems_of_forall {items : List CborValue} (h : ∀ v ∈ items, v.Ordered) :
    OrderedItems items := by
  induction items with
  | nil => trivial
  | cons v rest ih =>
    exact ⟨h v mem_cons_self, ih fun w hw => h w (mem_cons_of_mem _ hw)⟩

theorem orderedEntries_of_forall {entries : List (Cbor.Entry CborValue)}
    (h : ∀ e ∈ entries, cborEncode e.key = e.octets ∧ e.key.Ordered ∧ e.val.Ordered) :
    OrderedEntries (entries.map fun e => .mk e.octets e.key e.val) := by
  induction entries with
  | nil => trivial
  | cons e rest ih =>
    obtain ⟨hkey, -, hval⟩ := h e mem_cons_self
    exact ⟨hkey.symm, hval, ih fun e' he' => h e' (mem_cons_of_mem _ he')⟩

theorem pairwise_byteLess_of_isChain {entries : List (Cbor.Entry CborValue)}
    (h : entries.IsChain fun e e' => byteLess e.octets e'.octets = true) :
    (entries.map fun e => CborEntry.mk e.octets e.key e.val).Pairwise
      fun e e' => byteLess e.keyEnc e'.keyEnc = true := by
  simp only [byteLess_eq_true] at h ⊢
  let before : Cbor.Entry CborValue → Cbor.Entry CborValue → Prop := fun e e' => e.octets < e'.octets
  have htrans : Trans before before before := ⟨fun hab hbc => List.lt_trans hab hbc⟩
  exact pairwise_map.mpr (isChain_iff_pairwise.mp (show entries.IsChain before from h))

theorem ordered_invariant :
    cborDialect.Invariant (fun v octets => cborEncode v = octets) CborValue.Ordered where
  uint _ := trivial
  nint {arg v} h := by
    dsimp only [cborDialect] at h
    split at h
    · cases h
    · cases h
      trivial
  bytes _ := trivial
  text h := by
    cases h
    trivial
  array h := orderedItems_of_forall h
  map hlength hchain h :=
    ⟨by rwa [length_map], pairwise_byteLess_of_isChain hchain, orderedEntries_of_forall h⟩
  bool _ := trivial
  null := trivial

theorem ordered_of_cborDecodeTop {b : Bytes} {v : CborValue} (h : cborDecodeTop b = .ok v) :
    v.Ordered := by
  rw [cborDecodeTop_eq] at h
  exact Cbor.Dialect.invariant_decodeTop ordered_invariant cborEncode_of_reads h

def goPair? : CborEntry → Option CborPair
  | .mk _ (.uint64 uk) val => some (.mk uk (cborToGo val))
  | .mk _ _ _ => none

theorem byteLess_irrefl (b : Bytes) : byteLess b b = false := by
  rw [byteLess_eq_false]
  exact List.le_refl b

theorem assign_of_below {out : List CborPair} {key : UInt64} (val : CborValue)
    (hbelow : ∀ p ∈ out, byteLess (cborEncode (.uint64 p.key)) (cborEncode (.uint64 key)) = true) :
    assign out key val = out ++ [.mk key val] := by
  refine if_neg fun hmem => ?_
  obtain ⟨p, hp, rfl⟩ := mem_map.mp hmem
  have hself := hbelow p hp
  rw [byteLess_irrefl] at hself
  cases hself

variable {entries : List CborEntry}

/-- Converting the entries of a decoded map appends each, so that their order stays. -/
theorem cborToGoEntries_eq (out : List CborPair)
    (hsorted : entries.Pairwise fun e e' => byteLess e.keyEnc e'.keyEnc = true)
    (hentries : OrderedEntries entries)
    (hbelow : ∀ p ∈ out, ∀ e ∈ entries, byteLess (cborEncode (.uint64 p.key)) e.keyEnc = true) :
    cborToGoEntries entries out = out ++ entries.filterMap goPair? := by
  induction entries generalizing out with
  | nil => simp [cborToGoEntries]
  | cons e rest ih =>
    obtain ⟨keyEnc, key, val⟩ := e
    obtain ⟨hfirst, hrest⟩ := pairwise_cons.mp hsorted
    obtain ⟨rfl, _, hentries'⟩ := hentries
    have hbelowRest : ∀ p ∈ out, ∀ e ∈ rest,
        byteLess (cborEncode (.uint64 p.key)) e.keyEnc = true :=
      fun p hp e he => hbelow p hp e (mem_cons_of_mem _ he)
    cases key with
    | uint64 uk =>
      have happend := assign_of_below (cborToGo val)
        fun p hp => hbelow p hp _ mem_cons_self
      rw [cborToGoEntries, happend, ih _ hrest hentries',
        filterMap_cons_some (f := goPair?) rfl,
        append_assoc, singleton_append]
      intro p hp e he
      rcases mem_append.mp hp with hold | hnew
      · exact hbelowRest p hold e he
      · obtain rfl := mem_singleton.mp hnew
        exact hfirst e he
    | _ =>
      rw [cborToGoEntries, ih _ hrest hentries' hbelowRest, filterMap_cons_none rfl]
      simp

theorem keyEnc_of_goPair? (hentries : OrderedEntries entries) {e : CborEntry} (he : e ∈ entries)
    {p : CborPair} (hp : goPair? e = some p) : e.keyEnc = cborEncode (.uint64 p.key) := by
  induction entries with
  | nil => cases he
  | cons e' rest ih =>
    obtain ⟨keyEnc, key, val⟩ := e'
    rcases mem_cons.mp he with rfl | hrest
    · cases key with
      | uint64 uk =>
        cases hp
        exact hentries.1
      | _ => cases hp
    · exact ih hentries.2.2 hrest

theorem filterMap_goPair?_pairwise
    (hsorted : entries.Pairwise fun e e' => byteLess e.keyEnc e'.keyEnc = true)
    (hentries : OrderedEntries entries) : (entries.filterMap goPair?).Pairwise CborPair.LE := by
  rw [pairwise_filterMap]
  refine (Pairwise.and_mem.mp hsorted).imp ?_
  rintro e e' ⟨he, he', hless⟩ p hp p' hp'
  rw [keyEnc_of_goPair? hentries he hp, keyEnc_of_goPair? hentries he' hp', byteLess_eq_true]
    at hless
  rw [CborPair.LE, byteLess_eq_false]
  exact List.le_of_lt hless

theorem cborEncode_cborToGo_cborMap
    (hsorted : entries.Pairwise fun e e' => byteLess e.keyEnc e'.keyEnc = true)
    (hentries : OrderedEntries entries) : cborEncode (cborToGo (.cborMap entries))
      = encodeHead 5 (UInt64.ofNat (entries.filterMap goPair?).length)
        ++ cborEncodeEntries ((entries.filterMap goPair?).map CborPair.entry) := by
  have hsame : sortedPairs (entries.filterMap goPair?) = entries.filterMap goPair? :=
    (filterMap_goPair?_pairwise hsorted hentries).insertionSort_eq
  rw [cborToGo, cborToGoEntries_eq [] hsorted hentries (by simp), nil_append,
    cborEncode_mapU, newCBORMapU_eq, hsame, cborEncode, length_map]

theorem length_encodeHead_mono {major : UInt8} {arg arg' : UInt64} (h : arg.toNat ≤ arg'.toNat) :
    (encodeHead major arg).length ≤ (encodeHead major arg').length := by
  have hsmall : ∀ a : UInt64, a < 24 ↔ a.toNat < 24 := fun a => UInt64.lt_iff_toNat_lt
  simp only [encodeHead, hsmall]
  split_ifs <;> simp only [length_cons, length_nil, BigEndian.length_toBytes] <;> omega

/-- What `cborToGo` does to the octets of a value: nothing, exactly if its maps are keyed by
unsigned integers, and otherwise it shortens them. -/
def Converts (kept : Prop) (after before : Bytes) : Prop :=
  (kept ∧ after = before) ∨ (¬ kept ∧ after.length < before.length)

theorem Converts.length_le {p : Prop} {a a' : Bytes} (h : Converts p a a') :
    a.length ≤ a'.length := by
  rcases h with ⟨_, rfl⟩ | ⟨_, hlt⟩
  · exact le_rfl
  · exact hlt.le

theorem Converts.append {p q : Prop} {a a' b b' : Bytes} (h : Converts p a a')
    (h' : Converts q b b') : Converts (p ∧ q) (a ++ b) (a' ++ b') := by
  rcases h with ⟨hp, rfl⟩ | ⟨hp, hlt⟩
  · rcases h' with ⟨hq, rfl⟩ | ⟨hq, hlt'⟩
    · exact .inl ⟨⟨hp, hq⟩, rfl⟩
    · exact .inr ⟨fun h => hq h.2, by simpa using hlt'⟩
  · refine .inr ⟨fun h => hp h.1, ?_⟩
    have hle := h'.length_le
    simp only [length_append]
    omega

mutual

theorem converts_cborToGo :
    ∀ v : CborValue, v.Ordered → Converts v.UintKeyed (cborEncode (cborToGo v)) (cborEncode v)
  | .array items, hordered => by
      obtain ⟨hlength, hitems⟩ := converts_cborToGoItems items hordered
      rw [cborToGo, cborEncode, cborEncode, hlength]
      have hhead : Converts True (encodeHead 4 (UInt64.ofNat items.length)) _ :=
        .inl ⟨trivial, rfl⟩
      simpa only [CborValue.UintKeyed, true_and] using hhead.append hitems
  | .cborMap entries, hordered => by
      obtain ⟨hcount, hsorted, hentries⟩ := hordered
      rw [cborEncode_cborToGo_cborMap hsorted hentries, cborEncode, CborValue.UintKeyed]
      obtain ⟨hlength, ⟨hkept, hsame⟩ | ⟨hlost, hlt⟩⟩ := converts_cborToGoEntries entries hentries
      · exact .inl ⟨hkept, by rw [hlength hkept, hsame]⟩
      refine .inr ⟨hlost, ?_⟩
      have hle : (entries.filterMap goPair?).length ≤ entries.length :=
        length_filterMap_le _ _
      have hhead : (encodeHead 5 (UInt64.ofNat (entries.filterMap goPair?).length)).length
          ≤ (encodeHead 5 (UInt64.ofNat entries.length)).length := by
        apply length_encodeHead_mono
        rw [UInt64.toNat_ofNat', UInt64.toNat_ofNat', Nat.mod_eq_of_lt hcount,
          Nat.mod_eq_of_lt (hle.trans_lt hcount)]
        exact hle
      simp only [length_append]
      omega
  | .uint64 _, _ => .inl ⟨trivial, rfl⟩
  | .int _, _ => .inl ⟨trivial, rfl⟩
  | .int64 _, _ => .inl ⟨trivial, rfl⟩
  | .bytes _, _ => .inl ⟨trivial, rfl⟩
  | .string _, _ => .inl ⟨trivial, rfl⟩
  | .bool _, _ => .inl ⟨trivial, rfl⟩
  | .null, _ => .inl ⟨trivial, rfl⟩

theorem converts_cborToGoItems : ∀ items : List CborValue, OrderedItems items →
      (cborToGoItems items).length = items.length
        ∧ Converts (UintKeyedItems items) (cborEncodeItems (cborToGoItems items))
            (cborEncodeItems items)
  | [], _ => ⟨rfl, .inl ⟨trivial, rfl⟩⟩
  | item :: rest, hordered => by
      obtain ⟨hlength, hrest⟩ := converts_cborToGoItems rest hordered.2
      refine ⟨by rw [cborToGoItems, length_cons, length_cons, hlength], ?_⟩
      rw [cborToGoItems, cborEncodeItems, cborEncodeItems, UintKeyedItems]
      exact (converts_cborToGo item hordered.1).append hrest

theorem converts_cborToGoEntries : ∀ entries : List CborEntry, OrderedEntries entries →
      (UintKeyedEntries entries → (entries.filterMap goPair?).length = entries.length)
        ∧ Converts (UintKeyedEntries entries)
            (cborEncodeEntries ((entries.filterMap goPair?).map CborPair.entry))
            (cborEncodeEntries entries)
  | [], _ => ⟨fun _ => rfl, .inl ⟨trivial, rfl⟩⟩
  | .mk keyEnc key val :: rest, hordered => by
      obtain ⟨rfl, hval, hrest⟩ := hordered
      obtain ⟨hlength, hentries⟩ := converts_cborToGoEntries rest hrest
      cases key with
      | uint64 uk =>
        have hkey : Converts True (cborEncode (.uint64 uk)) (cborEncode (.uint64 uk)) :=
          .inl ⟨trivial, rfl⟩
        rw [filterMap_cons_some (f := goPair?) rfl]
        refine ⟨fun hkept => by rw [length_cons, length_cons, hlength hkept.2], ?_⟩
        rw [map_cons, CborPair.entry, cborEncodeEntries, cborEncodeEntries, UintKeyedEntries]
        simpa only [true_and, CborPair.key, CborPair.val]
          using (hkey.append (converts_cborToGo val hval)).append hentries
      | _ =>
        -- the entry is dropped with its value, which took at least one octet
        have hdropped := one_le_length_cborEncode val
        have hle : (cborEncodeEntries ((rest.filterMap goPair?).map CborPair.entry)).length
            ≤ (cborEncodeEntries rest).length := hentries.length_le
        refine ⟨False.elim, .inr ⟨False.elim, ?_⟩⟩
        rw [filterMap_cons_none (f := goPair?) rfl, cborEncodeEntries]
        simp only [length_append]
        omega

end

/-- **A decoded item survives the conversion exactly if its map keys are unsigned integers.** -/
theorem cborEncode_cborToGo_eq_iff {b : Bytes} {v : CborValue} (h : cborDecodeTop b = .ok v) :
    cborEncode (cborToGo v) = b ↔ v.UintKeyed := by
  rw [← cborEncode_of_cborDecodeTop h]
  rcases converts_cborToGo v (ordered_of_cborDecodeTop h) with ⟨hkept, hsame⟩ | ⟨hlost, hlt⟩
  · exact iff_of_true hsame hkept
  · exact iff_of_false (fun hsame => hlt.ne (congrArg length hsame)) hlost

theorem cborDecodeTop_of_validateMemoryPayload {ft : FrameType} {body : Bytes}
    {entries : List CborEntry} (h : validateMemoryPayload ft body = .ok entries) :
    cborDecodeTop body = .ok (.cborMap entries) := by
  unfold validateMemoryPayload at h
  split at h
  · cases h
  split at h
  · cases h
  · rename_i decoded hdecode
    obtain ⟨_, _, h⟩ := exists_of_bind_eq_ok h
    obtain ⟨_, _, h⟩ := exists_of_bind_eq_ok h
    rw [hdecode, Except.ok.inj h]
  · cases h

theorem decodeMemoryBody_eq_ok {ft : FrameType} {body : Bytes} {m : List CborPair}
    (h : decodeMemoryBody ft body = .ok m) :
    ∃ v, cborDecodeTop body = .ok v ∧ cborToGo v = .mapU m := by
  unfold decodeMemoryBody at h
  split at h
  · cases h
  rename_i entries hvalid
  refine ⟨_, cborDecodeTop_of_validateMemoryPayload hvalid, ?_⟩
  rw [cborToGo] at h ⊢
  rw [Except.ok.inj h]

theorem uintKeyed_iff {b : Bytes} {v : CborValue} (h : cborDecodeTop b = .ok v) :
    UintKeyed b ↔ v.UintKeyed := by
  refine ⟨fun hkeys => hkeys v h, fun hkeys w hw => ?_⟩
  cases h.symm.trans hw
  exact hkeys

/-- **The exported decoders lose nothing exactly under unsigned keys**: what they return for accepted
octets re-encodes to them if and only if all map keys are unsigned integers. -/
theorem exported_decoders_lossless (b : Bytes) :
    (∀ v, decodeCanonicalCBOR b = .ok v → (encodeCanonicalCBOR v = b ↔ UintKeyed b))
      ∧ ∀ ft m, decodeMemoryBody ft b = .ok m → (encodeMemoryBody m = b ↔ UintKeyed b) := by
  refine ⟨?_, ?_⟩
  · intro v h
    unfold decodeCanonicalCBOR at h
    split at h
    · cases h
    · rename_i w hdecode
      cases h
      rw [uintKeyed_iff hdecode]
      exact cborEncode_cborToGo_eq_iff hdecode
  · intro ft m h
    obtain ⟨v, hdecode, hgo⟩ := decodeMemoryBody_eq_ok h
    rw [encodeMemoryBody, ← hgo, uintKeyed_iff hdecode]
    exact cborEncode_cborToGo_eq_iff hdecode

def createReqOctets : Bytes :=
  [0xa5, 0x00, 0x19, 0x01, 0x00, 0x01, 0x41, 0x07, 0x02, 0x61, 0x6d, 0x0a, 0xa1, 0x62, 0x77, 0x73,
    0x61, 0x61, 0x0b, 0x02]

/-- **The isolation scope is lost.** The request is accepted, and what is decoded from it has an
empty scope; a map keyed by `-1` decodes to the empty map. -/
theorem decodeMemoryBody_drops_scope : decodeMemoryBody frameMemoryCreateReq createReqOctets
        = .ok [.mk 0 (.uint64 0x0100), .mk 1 (.bytes [7]), .mk 2 (.string [0x6d]),
            .mk 10 (.mapU []), .mk 11 (.uint64 2)]
      ∧ encodeMemoryBody [.mk 0 (.uint64 0x0100), .mk 1 (.bytes [7]), .mk 2 (.string [0x6d]),
            .mk 10 (.mapU []), .mk 11 (.uint64 2)] ≠ createReqOctets
      ∧ decodeCanonicalCBOR [0xa1, 0x20, 0x00] = .ok (.mapU [])
      ∧ encodeCanonicalCBOR (.mapU []) ≠ [0xa1, 0x20, 0x00] :=
  ⟨rfl, by decide +kernel, rfl, by decide⟩

end Npamp
