import Npamp.Proof.Bodies
import Npamp.Proof.Memory

/-!
# Bodies that may grow

The validators that end in `checkFields` ask for their fields by key and for nothing of the rest but
unsigned keys. They do not look inside a field.
-/

namespace Npamp

open List
open Cbor

abbrev Deterministic (levels : Nat) (octets : Bytes) (v : CborValue) : Prop :=
  cborDialect.Reads (fun _ => True) levels octets v

theorem cborDecodeTop_eq_ok {payload : Bytes} {v : CborValue} :
    cborDecodeTop payload = .ok v ↔ Deterministic cborMaxNestingDepth payload v := by
  rw [cborDecodeTop_eq]
  exact ⟨Dialect.reads_of_decodeTop fun _ _ => trivial,
    fun h => cborDialect.decodeTop_of_decodes h.decodes⟩

theorem deterministic_cborMap {levels : Nat} {octets : Bytes} {m : List CborEntry} :
    Deterministic (levels + 1) octets (.cborMap m)
      ↔ octets = cborEncode (.cborMap m) ∧ m.length < 2 ^ 64
        ∧ (m.IsChain fun e e' => byteLess e.keyEnc e'.keyEnc = true)
        ∧ ∀ e ∈ m, Deterministic levels e.keyEnc e.key
          ∧ Deterministic levels (cborEncode e.val) e.val := by
  constructor
  · intro h
    have hencode := cborEncode_of_reads _ _ _ h
    generalize hv : CborValue.cborMap m = v at h
    cases h with
    | @map _ entries hlength hchain hkey hval =>
      obtain rfl := CborValue.cborMap.inj hv
      refine ⟨hencode.symm, by simpa using hlength, ?_, ?_⟩ <;> rw [map_map]
      · exact (isChain_map _).mpr hchain
      refine forall_mem_map.mpr fun e he => ⟨hkey e he, ?_⟩
      have hreads := hval e he
      rwa [← cborEncode_of_reads _ _ _ hreads] at hreads
    | nint _ h =>
      subst hv
      dsimp only [cborDialect] at h
      split at h <;> cases h
    | text _ _ _ h =>
      subst hv
      cases h
    | _ => cases hv
  · rintro ⟨rfl, hlength, hchain, hparts⟩
    let part : CborEntry → Entry CborValue × Bytes :=
      fun e => (⟨e.keyEnc, e.key, e.val⟩, cborEncode e.val)
    have hreads := @Dialect.Reads.map _ _ cborDialect (fun _ => True) levels (m.map part)
      (by rwa [length_map]) ((isChain_map part).mpr hchain)
      (forall_mem_map.mpr fun e he => (hparts e he).1)
      (forall_mem_map.mpr fun e he => (hparts e he).2)
    have hvalue : cborDialect.map ((m.map part).map Prod.fst) = .cborMap m := by
      change CborValue.cborMap (map _ (map _ (map _ m))) = _
      rw [map_map, map_map]
      exact congrArg CborValue.cborMap ((map_congr_left fun ⟨_, _, _⟩ _ => rfl).trans m.map_id)
    rw [hvalue] at hreads
    rwa [← cborEncode_of_reads _ _ _ hreads] at hreads

abbrev CborEntry.LE (e e' : CborEntry) : Prop := byteLess e'.keyEnc e.keyEnc = false

instance : Std.Total CborEntry.LE where
  total e e' := by
    simp only [CborEntry.LE, byteLess_eq_false]
    exact List.le_total _ _

instance : IsTrans CborEntry CborEntry.LE where
  trans e e' e'' h h' := by
    rw [CborEntry.LE, byteLess_eq_false] at *
    exact List.le_trans h h'

def insertEntry (key val : CborValue) (m : List CborEntry) : List CborEntry :=
  m.orderedInsert CborEntry.LE (.mk (cborEncode key) key val)

section Insert

variable {levels : Nat} {octets : Bytes} {key val : CborValue} {m : List CborEntry}

theorem insertEntry_perm : (insertEntry key val m).Perm (.mk (cborEncode key) key val :: m) :=
  perm_orderedInsert CborEntry.LE _ m

theorem mem_insertEntry {e : CborEntry} :
    e ∈ insertEntry key val m ↔ e = .mk (cborEncode key) key val ∨ e ∈ m :=
  insertEntry_perm.mem_iff.trans mem_cons

theorem isChain_insertEntry (hchain : m.IsChain fun e e' => byteLess e.keyEnc e'.keyEnc = true)
    (hfresh : ∀ e ∈ m, e.keyEnc ≠ cborEncode key) :
    (insertEntry key val m).IsChain fun e e' => byteLess e.keyEnc e'.keyEnc = true := by
  simp only [byteLess_eq_true] at hchain ⊢
  let before : CborEntry → CborEntry → Prop := fun e e' => e.keyEnc < e'.keyEnc
  have htrans : Trans before before before := ⟨fun hab hbc => List.lt_trans hab hbc⟩
  have hpairwise : m.Pairwise before := isChain_iff_pairwise.mp hchain
  have hle : (insertEntry key val m).Pairwise CborEntry.LE :=
    Pairwise.orderedInsert _ m
      (hpairwise.imp fun h => byteLess_eq_false.mpr (List.le_of_lt h))
  have hne : (insertEntry key val m).Pairwise fun e e' => e.keyEnc ≠ e'.keyEnc := by
    refine (insertEntry_perm.pairwise_iff Ne.symm).mpr (pairwise_cons.mpr ⟨?_, ?_⟩)
    · exact fun e he => (hfresh e he).symm
    · refine hpairwise.imp fun {e e'} h (heq : e.keyEnc = e'.keyEnc) => ?_
      rw [show before e e' = (e.keyEnc < e'.keyEnc) from rfl, heq] at h
      exact List.lt_irrefl _ h
  refine Pairwise.isChain ((hle.and hne).imp fun ⟨h, h'⟩ => ?_)
  exact Std.lt_of_le_of_ne (byteLess_eq_false.mp h) h'

theorem length_le_of_keys (h : ∀ e ∈ m, 1 ≤ e.keyEnc.length) :
    m.length ≤ (cborEncodeEntries m).length := by
  induction m with
  | nil => exact Nat.zero_le _
  | cons e rest ih =>
    obtain ⟨keyEnc, k, v⟩ := e
    have hkey : 1 ≤ keyEnc.length := h _ mem_cons_self
    have hrest := ih fun e he => h e (mem_cons_of_mem _ he)
    simp only [cborEncodeEntries, length_cons, length_append]
    omega

theorem deterministic_insertEntry (hm : Deterministic (levels + 1) octets (.cborMap m))
    (hoctets : octets.length < 2 ^ 63) (hkey : Deterministic levels (cborEncode key) key)
    (hval : Deterministic levels (cborEncode val) val)
    (hfresh : ∀ e ∈ m, e.keyEnc ≠ cborEncode key) :
    Deterministic (levels + 1) (cborEncode (.cborMap (insertEntry key val m)))
      (.cborMap (insertEntry key val m)) := by
  obtain ⟨rfl, -, hchain, hparts⟩ := deterministic_cborMap.mp hm
  have hlength := length_le_of_keys fun e he =>
    cborDialect.one_le_of_decodes (hparts e he).1.decodes
  refine deterministic_cborMap.mpr ⟨rfl, ?_, isChain_insertEntry hchain hfresh, fun e he => ?_⟩
  · rw [cborEncode, length_append] at hoctets
    rw [insertEntry_perm.length_eq, length_cons]
    omega
  · rcases mem_insertEntry.mp he with rfl | he
    · exact ⟨hkey, hval⟩
    · exact hparts e he

theorem cborMapGet_insertEntry {k : UInt64} (hk : cborEncode key ≠ cborEncode (.uint64 k)) :
    cborMapGet (insertEntry key val m) k = cborMapGet m k := by
  unfold cborMapGet insertEntry
  rw [orderedInsert_eq_take_drop, find?_append, find?_cons_of_neg,
    ← find?_append, takeWhile_append_dropWhile]
  exact fun h => hk (of_decide_eq_true h)

end Insert

/-- The bodies whose accepted maps `Ok` describes. -/
inductive CheckedBody where
  | memory
  | stream
  | settlement
  | capability
  deriving DecidableEq, Repr

namespace CheckedBody

def validate : CheckedBody → FrameType → Bytes → Except GoError (List CborEntry)
  | memory => validateMemoryPayload
  | stream => validateStreamPayload
  | settlement => validateSettlementPayload
  | capability => validateCapabilityPayload

def schemas : CheckedBody → List (FrameType × List MemField)
  | memory => memorySchemas
  | stream => streamSchemas
  | settlement => settlementSchemas
  | capability => capabilitySchemas

/-- The rule for key 1: an unsigned `sub_stream_id` on Stream, elsewhere a `corr` of 1 to 64
octets. -/
def Correlates : CheckedBody → CborValue → Prop
  | stream, v => ∃ id, v = .uint64 id
  | _, v => ∃ corr, v = .bytes corr ∧ 1 ≤ corr.length ∧ corr.length ≤ 64

/-- What an accepted body satisfies, field by field, whatever its channel. -/
structure Ok (c : CheckedBody) (ft : FrameType) (schema : List MemField) (m : List CborEntry) :
    Prop where
  frameKind : cborMapGet m 0 = some (.uint64 ft.toUInt64)
  correlation : ∃ v, cborMapGet m 1 = some v ∧ c.Correlates v
  required (f : MemField) (hf : f ∈ schema) (h : f.required = true) :
    (cborMapGet m f.key).isSome = true
  kinds (f : MemField) (hf : f ∈ schema) (v : CborValue) (h : cborMapGet m f.key = some v) :
    matchesKind v f.kind = true
  keys (e : CborEntry) (he : e ∈ m) : ∃ k, e.key = .uint64 k

def channel : CheckedBody → BodyChannel
  | memory => memoryChannel
  | stream => streamChannel
  | settlement => settlementChannel
  | capability => capabilityChannel

variable {ft : FrameType} {m : List CborEntry}

theorem isOk_checkFrameKind_iff {s : Sentinel} :
    (checkFrameKind s ft m).isOk = true ↔ cborMapGet m 0 = some (.uint64 ft.toUInt64) := by
  unfold checkFrameKind
  cases cborMapGet m 0 with
  | none => simp [Except.isOk, Except.toBool]
  | some v =>
    cases v with
    | uint64 v =>
      by_cases hv : v = ft.toUInt64 <;> simp [hv, Except.isOk, Except.toBool]
    | _ => simp [Except.isOk, Except.toBool]

theorem isOk_correlation_iff (c : CheckedBody) :
    (c.channel.correlation ft m).isOk = true ↔ ∃ v, cborMapGet m 1 = some v ∧ c.Correlates v := by
  have hcorr (s : Sentinel) (text : String) : (checkCorr s text m).isOk = true
      ↔ ∃ v, cborMapGet m 1 = some v
        ∧ ∃ corr, v = .bytes corr ∧ 1 ≤ corr.length ∧ corr.length ≤ 64 := by
    unfold checkCorr
    cases cborMapGet m 1 with
    | none => simp [Except.isOk, Except.toBool]
    | some v =>
      cases v with
      | bytes b =>
        dsimp only
        split <;> simp [Except.isOk, Except.toBool] <;> omega
      | _ => simp [Except.isOk, Except.toBool]
  cases c with
  | stream =>
    change (checkSubStreamID m).isOk = true ↔ _
    unfold checkSubStreamID
    cases cborMapGet m 1 with
    | none => simp [Except.isOk, Except.toBool]
    | some v => cases v <;> simp [Except.isOk, Except.toBool, Correlates]
  | memory | settlement | capability => exact hcorr _ _

theorem isOk_checkFields_iff (hm : DecodedEntries m) {schema : List MemField} :
    (checkFields m schema).isOk = true
      ↔ (∀ f ∈ schema, f.required = true → (cborMapGet m f.key).isSome = true)
        ∧ (∀ f ∈ schema, ∀ v, cborMapGet m f.key = some v → matchesKind v f.kind = true)
        ∧ ∀ e ∈ m, ∃ k, e.key = .uint64 k := by
  have hfield (f : MemField) : (checkField m f).isOk = true
      ↔ (f.required = true → (cborMapGet m f.key).isSome = true)
        ∧ ∀ v, cborMapGet m f.key = some v → matchesKind v f.kind = true := by
    unfold checkField
    cases cborMapGet m f.key with
    | none => cases f.required <;> simp [Except.isOk, Except.toBool]
    | some v => cases h : matchesKind v f.kind <;> simp [h, Except.isOk, Except.toBool]
  have hkey {v : CborValue} (hv : v.Decoded) : (checkKey v).isOk = true ↔ ∃ k, v = .uint64 k := by
    cases hv with
    | int64 hneg =>
      rw [checkKey, if_pos hneg]
      simp [Except.isOk, Except.toBool]
    | _ => simp [checkKey, Except.isOk, Except.toBool]
  cases hm with
  | cborMap _ hkeys _ =>
    rw [checkFields, isOk_seq, isOk_forM, isOk_forM, Bool.and_eq_true,
      all_eq_true, all_eq_true, forall_mem_map, ← and_assoc, ← forall₂_and]
    exact and_congr (forall₂_congr fun f _ => hfield f)
      (forall₂_congr fun e he => hkey (hkeys e he))

theorem decode_of_validate {c : CheckedBody} {payload : Bytes} (h : c.validate ft payload = .ok m) :
    cborDecodeTop payload = .ok (.cborMap m) := by
  have hchannel {ch : BodyChannel} (h : ch.validate ft payload = .ok m) :
      cborDecodeTop payload = .ok (.cborMap m) := by
    unfold BodyChannel.validate at h
    split at h
    · cases h
    split at h
    · cases h
    · rename_i hdecode
      obtain ⟨_, -, h⟩ := exists_of_bind_eq_ok h
      obtain ⟨_, -, h⟩ := exists_of_bind_eq_ok h
      obtain ⟨_, -, h⟩ := exists_of_bind_eq_ok h
      obtain ⟨_, -, h⟩ := exists_of_bind_eq_ok h
      exact Except.ok.inj h ▸ hdecode
    · cases h
  cases c with
  | memory =>
    change validateMemoryPayload ft payload = .ok m at h
    unfold validateMemoryPayload at h
    split at h
    · cases h
    split at h
    · cases h
    · rename_i hdecode
      obtain ⟨_, -, h⟩ := exists_of_bind_eq_ok h
      obtain ⟨_, -, h⟩ := exists_of_bind_eq_ok h
      exact Except.ok.inj h ▸ hdecode
    · cases h
  | stream | settlement | capability => exact hchannel h

theorem isOk_validate_iff (c : CheckedBody) {payload : Bytes}
    (hdecode : cborDecodeTop payload = .ok (.cborMap m)) : (c.validate ft payload).isOk = true
      ↔ ∃ schema, c.schemas.lookup ft = some schema ∧ c.Ok ft schema m := by
  have hm : DecodedEntries m := decoded_of_cborDecodeTop hdecode
  have hchannel : (c.validate ft payload).isOk = (c.channel.validate ft payload).isOk := by
    cases c with
    | memory => exact isOk_validateMemoryPayload ft payload
    | stream | settlement | capability => rfl
  have hschemas : c.channel.schemas = c.schemas := by cases c <;> rfl
  have hnested : c.channel.nested ft m = .ok () := by cases c <;> rfl
  rw [hchannel, BodyChannel.validate, hschemas, hdecode]
  cases c.schemas.lookup ft with
  | none => simp [Except.isOk, Except.toBool]
  | some schema =>
    dsimp only
    rw [isOk_seq, isOk_seq, isOk_seq, isOk_seq, isOk_mapError, hnested]
    simp only [Bool.and_eq_true, isOk_checkFrameKind_iff, isOk_correlation_iff,
      isOk_checkFields_iff hm]
    constructor
    · rintro ⟨hkind, hcorr, ⟨hrequired, hkinds, hkeys⟩, -⟩
      exact ⟨schema, rfl, hkind, hcorr, hrequired, hkinds, hkeys⟩
    · rintro ⟨_, ⟨⟩, hkind, hcorr, hrequired, hkinds, hkeys⟩
      exact ⟨hkind, hcorr, ⟨hrequired, hkinds, hkeys⟩, rfl, rfl⟩

theorem validate_eq_ok_iff (c : CheckedBody) (ft : FrameType) (payload : Bytes)
    (m : List CborEntry) : c.validate ft payload = .ok m
      ↔ Deterministic cborMaxNestingDepth payload (.cborMap m)
        ∧ ∃ schema, c.schemas.lookup ft = some schema ∧ c.Ok ft schema m := by
  rw [← cborDecodeTop_eq_ok]
  constructor
  · intro h
    have hdecode := decode_of_validate h
    exact ⟨hdecode, (c.isOk_validate_iff hdecode).mp (by rw [h]; rfl)⟩
  · rintro ⟨hdecode, hok⟩
    have hvalid := (c.isOk_validate_iff hdecode).mpr hok
    cases h : c.validate ft payload with
    | error e => rw [h] at hvalid; cases hvalid
    | ok m' => cases hdecode.symm.trans (decode_of_validate h); rfl

theorem Ok.insertEntry {c : CheckedBody} {schema : List MemField} (h : c.Ok ft schema m)
    {key : UInt64} (val : CborValue) (hfresh : cborMapGet m key = none)
    (hschema : ∀ f ∈ schema, f.key ≠ key) : c.Ok ft schema (insertEntry (.uint64 key) val m)
      ∧ ∀ k, k ≠ key → cborMapGet (Npamp.insertEntry (.uint64 key) val m) k = cborMapGet m k := by
  have hget (k : UInt64) (hk : k ≠ key) :
      cborMapGet (Npamp.insertEntry (.uint64 key) val m) k = cborMapGet m k :=
    cborMapGet_insertEntry fun heq => hk (head_injective (by decide) heq.symm)
  have hne {k : UInt64} {v : CborValue} (hk : cborMapGet m k = some v) : k ≠ key := by
    rintro rfl
    cases hfresh.symm.trans hk
  obtain ⟨v, hv, hcorr⟩ := h.correlation
  refine ⟨⟨?_, ⟨v, ?_, hcorr⟩, fun f hf hrequired => ?_, fun f hf w hw => ?_, fun e he => ?_⟩, hget⟩
  · rw [hget 0 (hne h.frameKind)]
    exact h.frameKind
  · rw [hget 1 (hne hv)]
    exact hv
  · rw [hget f.key (hschema f hf)]
    exact h.required f hf hrequired
  · rw [hget f.key (hschema f hf)] at hw
    exact h.kinds f hf w hw
  · rcases mem_insertEntry.mp he with rfl | he
    · exact ⟨key, rfl⟩
    · exact h.keys e he

/-- **Bodies are forward compatible and closed.** A fresh unsigned key outside the schema leaves a
payload accepted and everything else in place; any other key makes it refused. -/
theorem bodies_forward_compatible (c : CheckedBody) (ft : FrameType) (payload : Bytes) :
    ((c.validate ft payload).isOk = true
        ↔ ∃ m, Deterministic cborMaxNestingDepth payload (.cborMap m)
          ∧ ∃ schema, c.schemas.lookup ft = some schema ∧ c.Ok ft schema m)
      ∧ ∀ m schema, c.validate ft payload = .ok m → c.schemas.lookup ft = some schema →
          payload.length < 2 ^ 63 → ∀ val,
            Deterministic (cborMaxNestingDepth - 1) (cborEncode val) val →
          (∀ key, cborMapGet m key = none → (∀ f ∈ schema, f.key ≠ key) →
            c.validate ft (cborEncode (.cborMap (insertEntry (.uint64 key) val m)))
                = .ok (insertEntry (.uint64 key) val m)
              ∧ ∀ k, k ≠ key →
                cborMapGet (insertEntry (.uint64 key) val m) k = cborMapGet m k)
          ∧ ∀ key, Deterministic (cborMaxNestingDepth - 1) (cborEncode key) key →
            (∀ k, key ≠ .uint64 k) →
            (c.validate ft (cborEncode (.cborMap (insertEntry key val m)))).isOk = false := by
  constructor
  · constructor
    · intro h
      cases hm : c.validate ft payload with
      | error e => rw [hm] at h; cases h
      | ok m => exact ⟨m, (c.validate_eq_ok_iff ft payload m).mp hm⟩
    · rintro ⟨m, hm⟩
      rw [(c.validate_eq_ok_iff ft payload m).mpr hm]
      rfl
  intro m schema hvalid hschema hlength val hval
  obtain ⟨hm, schema', hschema', hok⟩ := (c.validate_eq_ok_iff ft payload m).mp hvalid
  cases hschema.symm.trans hschema'
  have hkeyEnc (e : CborEntry) (he : e ∈ m) :
      Deterministic (cborMaxNestingDepth - 1) e.keyEnc e.key :=
    ((deterministic_cborMap.mp hm).2.2.2 e he).1
  constructor
  · intro key hfresh hkeys
    obtain ⟨hok', hget⟩ := hok.insertEntry val hfresh hkeys
    refine ⟨(c.validate_eq_ok_iff ft _ _).mpr ⟨?_, schema, hschema, hok'⟩, hget⟩
    refine deterministic_insertEntry hm hlength (.uint _ key) hval fun e he heq => ?_
    have hnone := List.find?_eq_none.mp (Option.map_eq_none_iff.mp hfresh) e he
    exact hnone (decide_eq_true heq)
  · intro key hkey hother
    have hfresh (e : CborEntry) (he : e ∈ m) : e.keyEnc ≠ cborEncode key := by
      intro heq
      obtain ⟨k, hk⟩ := hok.keys e he
      have hread := (heq ▸ hkeyEnc e he).decode_eq
      rw [hkey.decode_eq] at hread
      exact hother k ((Prod.mk.inj (Except.ok.inj hread)).1.trans hk)
    have hdecode := cborDecodeTop_eq_ok.mpr
      (deterministic_insertEntry hm hlength hkey hval hfresh)
    rw [← Bool.not_eq_true, c.isOk_validate_iff hdecode]
    rintro ⟨_, -, hok'⟩
    obtain ⟨k, hk⟩ := hok'.keys _ (mem_insertEntry.mpr (.inl rfl))
    exact hother k hk

/-- A `MEMORY_REVIVE` of the memory `a` at the time 5. -/
def revive : Bytes :=
  [0xa4, 0x00, 0x18, 0x36, 0x01, 0x41, 0x07, 0x02, 0x61, 0x61, 0x03, 0x05]

theorem bodies_forward_compatible_revive :
    ∃ m, memory.validate frameMemoryRevive revive = .ok m
      ∧ memory.validate frameMemoryRevive
          (cborEncode (.cborMap (insertEntry (.uint64 9) .null m)))
          = .ok (insertEntry (.uint64 9) .null m)
      ∧ (memory.validate frameMemoryRevive
          (cborEncode (.cborMap (insertEntry (.int64 (-1)) .null m)))).isOk = false := by
  obtain ⟨hfresh, hother⟩ := (bodies_forward_compatible memory frameMemoryRevive revive).2
    _ _ rfl rfl (by decide) .null (.null _)
  refine ⟨_, rfl, (hfresh 9 rfl (by decide)).1, ?_⟩
  exact hother (.int64 (-1)) (@Dialect.Reads.nint _ _ cborDialect _ _ 0 _ rfl)
    fun k hk => by cases hk

end CheckedBody

/-- The frame types whose bodies carry records under key 2. -/
def resultTypes : List FrameType :=
  [frameMemoryReadResult, frameMemoryRetrieveResult, frameMemoryRetrieveStreamData,
    frameMemoryRetrieveStreamEnd]

/-- One record in a read result, an array of them in the other results. -/
def carriedRecords (ft : FrameType) (m : List CborEntry) : List CborValue :=
  if ft = frameMemoryReadResult then (cborMapGet m 2).toList
  else if ft ∈ resultTypes then elements (cborMapGet m 2)
  else []

def asRecord : CborValue → Option (List CborEntry)
  | .cborMap rec => some rec
  | _ => none

/-- A map with texts under 0 and 1, texts under the other keys of the schema, and unsigned keys. -/
def WellFormedRecord (v : CborValue) : Prop :=
  ∃ rec, v = .cborMap rec ∧ (∃ s, cborMapGet rec 0 = some (.string s))
    ∧ (∃ s, cborMapGet rec 1 = some (.string s))
    ∧ (∀ f ∈ memoryRecordSchema, ∀ w, cborMapGet rec f.key = some w → ∃ s, w = .string s)
    ∧ ∀ e ∈ rec, ∃ k, e.key = .uint64 k

theorem matchesKind_text_iff {v : CborValue} : matchesKind v .text = true ↔ ∃ s, v = .string s := by
  cases v <;> simp [matchesKind]

theorem isOk_validateMemoryRecord_iff {v : CborValue} (hv : v.Decoded) :
    (validateMemoryRecord (asRecord v)).isOk = true ↔ WellFormedRecord v := by
  have htext : ∀ f ∈ memoryRecordSchema, f.kind = .text := by decide
  have hrequired : ∀ f ∈ memoryRecordSchema, f.required = true → f.key = 0 ∨ f.key = 1 := by decide
  cases hv with
  | @cborMap rec hkeyEnc hkey hval =>
    change (checkFields rec memoryRecordSchema).isOk = true ↔ _
    rw [CheckedBody.isOk_checkFields_iff (.cborMap hkeyEnc hkey hval)]
    constructor
    · rintro ⟨hpresent, hkinds, hkeys⟩
      have htexts (f : MemField) (hf : f ∈ memoryRecordSchema) (w : CborValue)
          (hw : cborMapGet rec f.key = some w) : ∃ s, w = .string s :=
        matchesKind_text_iff.mp (htext f hf ▸ hkinds f hf w hw)
      have hfield (f : MemField) (hf : f ∈ memoryRecordSchema) (h : f.required = true) :
          ∃ s, cborMapGet rec f.key = some (.string s) := by
        obtain ⟨w, hw⟩ := Option.isSome_iff_exists.mp (hpresent f hf h)
        obtain ⟨s, rfl⟩ := htexts f hf w hw
        exact ⟨s, hw⟩
      exact ⟨rec, rfl, hfield ⟨0, .text, true⟩ (by decide) rfl,
        hfield ⟨1, .text, true⟩ (by decide) rfl, htexts, hkeys⟩
    · rintro ⟨_, ⟨⟩, ⟨s, hs⟩, ⟨t, ht⟩, htexts, hkeys⟩
      refine ⟨fun f hf h => ?_, fun f hf w hw => ?_, hkeys⟩
      · rcases hrequired f hf h with heq | heq
        · rw [heq, hs]
          rfl
        · rw [heq, ht]
          rfl
      · rw [htext f hf]
        exact matchesKind_text_iff.mpr (htexts f hf w hw)
  | _ => exact iff_of_false Bool.false_ne_true fun ⟨_, h, _⟩ => by cases h

theorem decoded_of_mem_carriedRecords {ft : FrameType} {m : List CborEntry} {v : CborValue}
    (hm : DecodedEntries m) (hv : v ∈ carriedRecords ft m) : v.Decoded := by
  unfold carriedRecords at hv
  split_ifs at hv
  · rcases get_cases hm 2 with ⟨hnone, -⟩ | ⟨w, hw, hsome, -⟩
    · rw [hnone] at hv
      cases hv
    · rw [hsome] at hv
      exact List.mem_singleton.mp hv ▸ hw
  · exact decoded_of_mem_elements hm hv
  · cases hv

theorem not_wellFormedRecord_uint64 (n : UInt64) : ¬ WellFormedRecord (.uint64 n) := by
  rintro ⟨_, h, -⟩
  cases h

theorem not_wellFormedRecord_nil : ¬ WellFormedRecord (.cborMap []) := by
  rintro ⟨_, ⟨⟩, ⟨s, hs⟩, -⟩
  cases hs

/-- The schemas stop at the kind of key 2, so each result type has a body with a bad record. -/
theorem exists_ill_formed_record {ft : FrameType} (hft : ft ∈ resultTypes) :
    ∃ payload m v, validateMemoryPayload ft payload = .ok m ∧ v ∈ carriedRecords ft m
      ∧ ¬ WellFormedRecord v := by
  simp only [resultTypes, List.mem_cons, List.not_mem_nil, or_false] at hft
  rcases hft with rfl | rfl | rfl | rfl
  · exact ⟨[0xa3, 0x00, 0x19, 0x01, 0x03, 0x01, 0x41, 0x07, 0x02, 0xa0], _, _, rfl,
      List.mem_singleton_self _, not_wellFormedRecord_nil⟩
  · exact ⟨[0xa4, 0x00, 0x19, 0x01, 0x09, 0x01, 0x41, 0x07, 0x02, 0x81, 0x01, 0x03, 0xf4], _, _,
      rfl, List.mem_singleton_self _, not_wellFormedRecord_uint64 1⟩
  · exact ⟨[0xa3, 0x00, 0x19, 0x01, 0x0a, 0x01, 0x41, 0x07, 0x02, 0x81, 0x01], _, _,
      rfl, List.mem_singleton_self _, not_wellFormedRecord_uint64 1⟩
  · exact ⟨[0xa4, 0x00, 0x19, 0x01, 0x0b, 0x01, 0x41, 0x07, 0x02, 0x81, 0x01, 0x03, 0xf4], _, _,
      rfl, List.mem_singleton_self _, not_wellFormedRecord_uint64 1⟩

/-- **No result type checks its records.** A frame type guarantees well-formed records exactly if
it carries none; the check the four result types lack is `ValidateMemoryRecord`, which accepts of
the records of an accepted body exactly the well-formed ones. -/
theorem memory_records_well_formed (ft : FrameType) :
    ((∀ payload m, validateMemoryPayload ft payload = .ok m →
        ∀ v ∈ carriedRecords ft m, WellFormedRecord v) ↔ ft ∉ resultTypes)
      ∧ ∀ payload m, validateMemoryPayload ft payload = .ok m → ∀ v ∈ carriedRecords ft m,
        ((validateMemoryRecord (asRecord v)).isOk = true ↔ WellFormedRecord v) := by
  refine ⟨⟨fun h hft => ?_, fun hft payload m _ v hv => ?_⟩, fun payload m hm v hv => ?_⟩
  · obtain ⟨payload, m, v, hm, hv, hbad⟩ := exists_ill_formed_record hft
    exact hbad (h payload m hm v hv)
  · have hread : ft ≠ frameMemoryReadResult := fun h => hft (h ▸ List.mem_cons_self)
    rw [carriedRecords, if_neg hread, if_neg hft] at hv
    cases hv
  · have hentries : DecodedEntries m :=
      decoded_of_cborDecodeTop (CheckedBody.decode_of_validate (c := .memory) hm)
    exact isOk_validateMemoryRecord_iff (decoded_of_mem_carriedRecords hentries hv)

/-- A read result with an empty record, and a retrieve result whose one record is the integer 1. -/
theorem memory_results_carry_anything : (∃ m, validateMemoryPayload frameMemoryReadResult
          [0xa3, 0x00, 0x19, 0x01, 0x03, 0x01, 0x41, 0x07, 0x02, 0xa0] = .ok m
        ∧ carriedRecords frameMemoryReadResult m = [.cborMap []])
      ∧ (∃ m, validateMemoryPayload frameMemoryRetrieveResult
            [0xa4, 0x00, 0x19, 0x01, 0x09, 0x01, 0x41, 0x07, 0x02, 0x81, 0x01, 0x03, 0xf4] = .ok m
          ∧ carriedRecords frameMemoryRetrieveResult m = [.uint64 1])
      ∧ ¬ WellFormedRecord (.cborMap []) ∧ ¬ WellFormedRecord (.uint64 1) := by
  exact ⟨⟨_, rfl, rfl⟩, ⟨_, rfl, rfl⟩, not_wellFormedRecord_nil, not_wellFormedRecord_uint64 1⟩

end Npamp
